import CodeTidy.Proofs.Text.Lines
import Mathlib.Algebra.GroupWithZero.Nat
import Mathlib.Data.List.Lex
import Mathlib.Data.Prod.Lex
import Mathlib.Order.BooleanAlgebra.Defs

/-!
# `CodeTidy.Proofs.Text.Gauge`: how far a text is from being tidy

The rules for Python never come back to a text that they have left. What shows
it is a quantity that each of them lowers: first the lines that hold a bracket,
a quote or a comment, then the quotes that are not prefixed with an `f`, then
the opening parentheses, and then the characters that only comparisons and the
word `True` are written with. `Text.gauge` is the four together, where the first
that differs decides. The theorems:

* `loudLines_append_feed`, `loudLines_append_le`, `le_loudLines`: the lines of a
  text that holds others.
* `loudLines_mono_line`, `loudLines_mono_filter`: stretches of a text that may
  take the place of others.
* `quoteForms_lt`, `quoteForms_le`: where a quote gets its prefix, and where
  none loses it.
* `clutter_lt`: a stretch with less clutter.
* `gauge_lt_of_loudLines` and its like: how the gauge is lowered.
-/

set_option autoImplicit false

namespace CodeTidy.Text

/-! ### Sets of characters -/

/-- Whether none of some characters is in a set. -/
def excludes (set : Char → Bool) (cs : Text) : Bool := cs.all (fun c => !set c)

/-- A set that excludes some characters holds none of them. -/
theorem eq_false_of_excludes {set : Char → Bool} {cs : Text} (h : excludes set cs = true) {c : Char}
    (hc : c ∈ cs) : set c = false := by
  have hnot := List.all_eq_true.mp h c hc
  rwa [Bool.not_eq_true'] at hnot

/-- A text of characters of a set holds none of those that are not in it. -/
theorem not_mem_of_excludes {set : Char → Bool} {t cs : Text} (h : t.all set = true)
    (hset : excludes set cs = true) {c : Char} (hc : c ∈ cs) : c ∉ t := by
  intro hmem
  have hin := List.all_eq_true.mp h c hmem
  rw [eq_false_of_excludes hset hc] at hin
  cases hin

/-! ### Loud lines -/

/-- A bracket that opens, a quote or the sign of a comment. -/
def isLoud (c : Char) : Bool := "([\x7b\"'#".toList.contains c

/-- The number of loud lines from a place on; `seen` says that the line it lies in is counted
already. -/
def loudFrom (seen : Bool) : Text → Nat
  | [] => 0
  | c :: t =>
    if c = '\n' then loudFrom false t
    else if isLoud c then loudFrom true t + (if seen then 0 else 1)
    else loudFrom seen t

/-- Whether the line that a text ends in is counted. -/
def seenAfter (seen : Bool) : Text → Bool
  | [] => seen
  | c :: t => if c = '\n' then seenAfter false t else seenAfter (seen || isLoud c) t

/-- The number of lines that hold a loud character. -/
def loudLines (t : Text) : Nat := loudFrom false t

/-- The loud lines of two texts in a row: the second one goes on with the line that the first one
has begun, and does not count it again. -/
theorem loudFrom_append (seen : Bool) (t u : Text) :
    loudFrom seen (t ++ u) = loudFrom seen t + loudFrom (seenAfter seen t) u := by
  induction t generalizing seen with
  | nil => rw [List.nil_append, loudFrom, seenAfter, Nat.zero_add]
  | cons c t ih =>
    rw [List.cons_append, loudFrom, loudFrom, seenAfter]
    by_cases hfeed : c = '\n'
    · rw [if_pos hfeed, if_pos hfeed, if_pos hfeed, ih]
    · rw [if_neg hfeed, if_neg hfeed, if_neg hfeed]
      -- A loud character counts only if its line is not counted yet; either way the rest of the
      -- line is.
      cases hloud : isLoud c with
      | true =>
        rw [if_pos rfl, if_pos rfl, ih, Bool.or_true]
        omega
      | false => rw [if_neg Bool.false_ne_true, if_neg Bool.false_ne_true, ih, Bool.or_false]

/-- A line that is counted already counts for nothing more. -/
theorem loudFrom_true_le (t : Text) :
    loudFrom true t ≤ loudFrom false t ∧ loudFrom false t ≤ loudFrom true t + 1 := by
  induction t with
  | nil => exact ⟨Nat.le_refl _, Nat.le_succ _⟩
  | cons c t ih =>
    rw [loudFrom, loudFrom]
    by_cases hfeed : c = '\n'
    · rw [if_pos hfeed, if_pos hfeed]
      omega
    · rw [if_neg hfeed, if_neg hfeed]
      cases isLoud c with
      | true => simp
      | false => simpa using ih

/-- Fewer lines are counted if the one that a text lies in is counted already. -/
theorem loudFrom_le (seen : Bool) (t : Text) : loudFrom seen t ≤ loudFrom false t := by
  cases seen with
  | false => exact Nat.le_refl _
  | true => exact (loudFrom_true_le t).1

/-- A line that a text ends in is counted at its loud character. -/
theorem one_le_of_seenAfter {t : Text} (h : seenAfter false t = true) : 1 ≤ loudFrom false t := by
  induction t with
  | nil => cases h
  | cons c t ih =>
    rw [loudFrom]
    rw [seenAfter] at h
    by_cases hfeed : c = '\n'
    · rw [if_pos hfeed] at h ⊢
      exact ih h
    · rw [if_neg hfeed] at h ⊢
      cases hloud : isLoud c with
      | true => simp
      | false =>
        rw [hloud, Bool.false_or] at h
        exact ih h

/-- Lines in front of a line feed and behind it. -/
theorem loudLines_append_feed (t u : Text) :
    loudLines (t ++ '\n' :: u) = loudLines t + loudLines u := by
  rw [loudLines, loudFrom_append, loudFrom, if_pos rfl]
  rfl

/-- What is put behind a text adds its own lines at most. -/
theorem loudLines_append_le (t u : Text) : loudLines (t ++ u) ≤ loudLines t + loudLines u := by
  rw [loudLines, loudFrom_append]
  exact Nat.add_le_add_left (loudFrom_le _ u) _

/-- The lines of a stretch are lines of the text around it. -/
theorem le_loudLines (t u v : Text) : loudLines u ≤ loudLines (t ++ (u ++ v)) := by
  have hu : loudFrom false u ≤ loudFrom false t + loudFrom (seenAfter false t) u := by
    cases hseen : seenAfter false t with
    | false => exact Nat.le_add_left _ _
    | true =>
      have hone := one_le_of_seenAfter hseen
      have hle := (loudFrom_true_le u).2
      omega
  rw [loudLines, loudLines, loudFrom_append, loudFrom_append]
  omega

/-- The end of a text has no more loud lines than the text. -/
theorem loudLines_le_append_right (t u : Text) : loudLines u ≤ loudLines (t ++ u) := by
  have h := le_loudLines t u []
  rwa [List.append_nil] at h

/-- A text without loud characters adds no loud line, wherever it stands. -/
theorem loudFrom_eq_zero {t : Text} (h : t.any isLoud = false) (seen : Bool) :
    loudFrom seen t = 0 := by
  induction t generalizing seen with
  | nil => rfl
  | cons c t ih =>
    rw [List.any_cons, Bool.or_eq_false_iff] at h
    rw [loudFrom, h.1]
    split
    · exact ih h.2 _
    · exact ih h.2 _

/-- A text without loud characters has no loud lines. -/
theorem loudLines_eq_zero {t : Text} (h : t.any isLoud = false) : loudLines t = 0 :=
  loudFrom_eq_zero h false

/-- A text with a loud character has a loud line. -/
theorem one_le_loudLines {t : Text} (h : t.any isLoud = true) : 1 ≤ loudLines t := by
  obtain ⟨c, hc, hloud⟩ := List.any_eq_true.mp h
  obtain ⟨u, v, rfl⟩ := List.append_of_mem hc
  have hone : loudLines [c] = 1 := by
    have hfeed : c ≠ '\n' := by
      rintro rfl
      cases hloud
    rw [loudLines, loudFrom, if_neg hfeed, if_pos hloud]
    rfl
  have hle := le_loudLines u [c] v
  rw [hone] at hle
  exact hle

/-- A stretch of one line is one line at most, and ends in it. -/
theorem loudFrom_line {t : Text} (h : '\n' ∉ t) (seen : Bool) :
    seenAfter seen t = (seen || t.any isLoud) ∧
      loudFrom seen t = if t.any isLoud && !seen then 1 else 0 := by
  induction t generalizing seen with
  | nil =>
    rw [List.any_nil, Bool.or_false]
    exact ⟨rfl, rfl⟩
  | cons c t ih =>
    rw [List.mem_cons, not_or] at h
    have hfeed : c ≠ '\n' := Ne.symm h.1
    rw [seenAfter, loudFrom, if_neg hfeed, if_neg hfeed, (ih h.2 _).1, (ih h.2 _).2, (ih h.2 _).2,
      List.any_cons]
    cases isLoud c <;> cases seen <;> simp

/-- One line is one loud line at most. -/
theorem loudLines_line_le {t : Text} (h : '\n' ∉ t) : loudLines t ≤ 1 := by
  rw [loudLines, (loudFrom_line h false).2]
  split
  · exact Nat.le_refl 1
  · exact Nat.zero_le 1

/-- A stretch of one line may take the place of one with a loud character. -/
theorem loudLines_mono_line {o u : Text} (ho : '\n' ∉ o) (hu : u.any isLoud = true) (x y : Text) :
    loudLines (x ++ (o ++ y)) ≤ loudLines (x ++ (u ++ y)) := by
  have hone := one_le_loudLines hu
  rw [loudLines] at hone
  rw [loudLines, loudLines, loudFrom_append, loudFrom_append, loudFrom_append, loudFrom_append,
    (loudFrom_line ho _).1, (loudFrom_line ho _).2]
  have hfew := (loudFrom_true_le y).2
  have hbehind : loudFrom true y ≤ loudFrom (seenAfter (seenAfter false x) u) y := by
    cases seenAfter (seenAfter false x) u with
    | true => exact Nat.le_refl _
    | false => exact (loudFrom_true_le y).1
  cases hseen : seenAfter false x with
  | true =>
    -- The line is counted in front of the stretch.
    rw [hseen] at hbehind
    rw [Bool.true_or, Bool.not_true, Bool.and_false, if_neg Bool.false_ne_true]
    omega
  | false =>
    rw [hseen] at hbehind
    cases ho : o.any isLoud with
    | true =>
      rw [Bool.false_or, Bool.not_false, Bool.and_true, if_pos rfl]
      omega
    | false =>
      rw [Bool.false_or, Bool.not_false, Bool.and_true, if_neg Bool.false_ne_true]
      omega

/-- The characters that decide which lines are loud. -/
def makesLines (c : Char) : Bool := isLoud c || c == '\n'

/-- Characters that neither make a line loud nor end one. -/
theorem filter_eq_nil_of_all {set : Char → Bool} {t : Text} (h : t.all set = true)
    (hset : excludes set "([\x7b\"'#\n" = true) : t.filter makesLines = [] := by
  rw [List.filter_eq_nil_iff]
  intro c hc hmakes
  have hmem : c ∈ "([\x7b\"'#\n".toList := by
    simp only [makesLines, isLoud, Bool.or_eq_true, List.contains_iff_mem, beq_iff_eq] at hmakes
    rcases hmakes with hloud | rfl
    · have hsubset : "([\x7b\"'#".toList ⊆ "([\x7b\"'#\n".toList := by decide
      exact hsubset hloud
    · decide
  exact not_mem_of_excludes h hset hmem hc

/-- A text of which the filter leaves nothing has neither loud characters nor line feeds. -/
theorem any_makesLines_eq_false {t : Text} (h : t.filter makesLines = []) :
    t.any makesLines = false := by
  rw [List.filter_eq_nil_iff] at h
  simpa using h

/-- Only loud characters and line feeds count: all others may be taken out. -/
theorem loudFrom_filter (seen : Bool) (t : Text) :
    loudFrom seen (t.filter makesLines) = loudFrom seen t := by
  induction t generalizing seen with
  | nil => rfl
  | cons c t ih =>
    by_cases hfeed : c = '\n'
    · rw [List.filter_cons_of_pos (by rw [hfeed]; rfl), loudFrom, loudFrom, if_pos hfeed,
        if_pos hfeed, ih]
    · cases hloud : isLoud c with
      | true =>
        rw [List.filter_cons_of_pos (by rw [makesLines, hloud, Bool.true_or]), loudFrom, loudFrom,
          if_neg hfeed, if_neg hfeed, ih]
        simp [hloud]
      | false =>
        have hmakes : ¬makesLines c = true := by
          rw [makesLines, hloud, Bool.false_or, beq_iff_eq]
          exact hfeed
        rw [List.filter_cons_of_neg hmakes, loudFrom, if_neg hfeed, hloud,
          if_neg Bool.false_ne_true, ih]

/-- Without some of its characters a text has no more loud lines. -/
theorem loudFrom_sublist {t u : Text} (h : t.Sublist u) (seen : Bool) :
    loudFrom seen t ≤ loudFrom seen u := by
  induction h generalizing seen with
  | slnil => exact Nat.le_refl _
  -- A character more makes a line end or makes it loud, and either way the lines are no fewer.
  | @cons t u c _ ih =>
    rw [loudFrom]
    have hfalse := ih false
    have htrue := ih true
    have hseen := ih seen
    have hle := loudFrom_le seen t
    split
    · omega
    · split
      · have hmore := (loudFrom_true_le t).2
        cases seen with
        | true => simpa using htrue
        | false =>
          rw [if_neg Bool.false_ne_true]
          omega
      · exact hseen
  | @cons_cons t u c _ ih =>
    rw [loudFrom, loudFrom]
    split
    · exact ih _
    · split
      · exact Nat.add_le_add_right (ih _) _
      · exact ih _

/-- A stretch may take the place of one of which it keeps some brackets, quotes and line feeds. -/
theorem loudLines_mono_filter {o u : Text}
    (h : (o.filter makesLines).Sublist (u.filter makesLines)) (x y : Text) :
    loudLines (x ++ (o ++ y)) ≤ loudLines (x ++ (u ++ y)) := by
  rw [loudLines, loudLines, ← loudFrom_filter, ← loudFrom_filter false (x ++ (u ++ y)),
    List.filter_append, List.filter_append, List.filter_append, List.filter_append]
  exact loudFrom_sublist ((List.Sublist.refl _).append (h.append (.refl _))) false

/-! ### Quotes -/

/-- A single or double quote. -/
def isQuote (c : Char) : Bool := c == '"' || c == '\''

/-- Quotes are loud. -/
theorem isLoud_of_isQuote {c : Char} (h : isQuote c = true) : isLoud c = true := by
  rw [isQuote, Bool.or_eq_true, beq_iff_eq, beq_iff_eq] at h
  rcases h with rfl | rfl <;> rfl

/-- A text with neither of the two quotes has no quotes. -/
theorem any_isQuote_eq_false {t : Text} (hdouble : '"' ∉ t) (hsingle : '\'' ∉ t) :
    t.any isQuote = false := by
  rw [List.any_eq_false]
  intro c hc hquote
  rw [isQuote, Bool.or_eq_true, beq_iff_eq, beq_iff_eq] at hquote
  rcases hquote with rfl | rfl
  · exact hdouble hc
  · exact hsingle hc

/-- A text over a set without quotes has no quotes. -/
theorem any_isQuote_of_all {set : Char → Bool} {t : Text} (h : t.all set = true)
    (hset : excludes set "\"'" = true) : t.any isQuote = false :=
  any_isQuote_eq_false (not_mem_of_excludes h hset (by decide))
    (not_mem_of_excludes h hset (by decide))

/-- For each quote whether it stands behind an `f`; `behind` says so for the first character. -/
def quotesFrom (behind : Bool) : Text → List Bool
  | [] => []
  | c :: t => if isQuote c then behind :: quotesFrom false t else quotesFrom (c == 'f') t

/-- Whether a text ends with an `f`. -/
def endsWithF (behind : Bool) : Text → Bool
  | [] => behind
  | c :: t => endsWithF (c == 'f') t

/-- For each quote of a text whether it stands behind an `f`. -/
def quoteForms (t : Text) : List Bool := quotesFrom false t

/-- The quotes of two texts in a row. What the first one ends with decides whether the first quote
of the second one has a prefix. -/
theorem quotesFrom_append (behind : Bool) (t u : Text) :
    quotesFrom behind (t ++ u) = quotesFrom behind t ++ quotesFrom (endsWithF behind t) u := by
  induction t generalizing behind with
  | nil => rfl
  | cons c t ih =>
    rw [List.cons_append, quotesFrom, quotesFrom, endsWithF]
    by_cases hquote : isQuote c = true
    · -- A quote is no `f`, so nothing is carried on behind it.
      have hf : (c == 'f') = false := by
        rw [isQuote, Bool.or_eq_true, beq_iff_eq, beq_iff_eq] at hquote
        rcases hquote with rfl | rfl <;> rfl
      rw [if_pos hquote, if_pos hquote, ih, hf, List.cons_append]
    · rw [if_neg hquote, if_neg hquote, ih]

/-- A text without quotes adds none. -/
theorem quotesFrom_eq_nil {t : Text} (h : t.any isQuote = false) (behind : Bool) :
    quotesFrom behind t = [] := by
  induction t generalizing behind with
  | nil => rfl
  | cons c t ih =>
    rw [List.any_cons, Bool.or_eq_false_iff] at h
    rw [quotesFrom, h.1, if_neg Bool.false_ne_true]
    exact ih h.2 _

/-- A text has no fewer prefixed quotes behind an `f` than elsewhere. -/
theorem quotesFrom_false_le (t : Text) : quotesFrom false t ≤ quotesFrom true t := by
  cases t with
  | nil => exact le_refl _
  | cons c t =>
    rw [quotesFrom, quotesFrom]
    split
    · exact le_of_lt (List.Lex.rel (by decide))
    · exact le_refl _

/-- The same front keeps the order of two lists. -/
theorem append_left_lt {l m m' : List Bool} (h : m < m') : l ++ m < l ++ m' := by
  induction l with
  | nil => exact h
  | cons b l ih => exact List.cons_lt_cons_iff.mpr (.inr ⟨rfl, ih⟩)

/-- The same front keeps the order of two lists, also where they may be equal. -/
theorem append_left_le {l m m' : List Bool} (h : m ≤ m') : l ++ m ≤ l ++ m' := by
  rcases lt_or_eq_of_le h with hlt | rfl
  · exact le_of_lt (append_left_lt hlt)
  · exact le_refl _

/-- Where no quotes are concerned, a stretch may take the place of one that ends with an `f` only
if it does. -/
theorem quoteForms_le {o u : Text} (hu : u.any isQuote = false) (ho : o.any isQuote = false)
    (hend : ∀ behind, endsWithF behind u = true → endsWithF behind o = true) (x y : Text) :
    quoteForms (x ++ (u ++ y)) ≤ quoteForms (x ++ (o ++ y)) := by
  rw [quoteForms, quoteForms, quotesFrom_append, quotesFrom_append, quotesFrom_append,
    quotesFrom_append, quotesFrom_eq_nil hu, quotesFrom_eq_nil ho]
  refine append_left_le (append_left_le ?_)
  have h := hend (endsWithF false x)
  cases hu' : endsWithF (endsWithF false x) u with
  | true =>
    rw [h hu']
  | false =>
    cases endsWithF (endsWithF false x) o with
    | true => exact quotesFrom_false_le y
    | false => exact le_refl _

/-- Where a quote gets its prefix. What comes behind it does not count. -/
theorem quoteForms_lt {x : Text} (hx : endsWithF false x = false) {q : Char}
    (hq : isQuote q = true) (y y' : Text) :
    quoteForms (x ++ q :: y) < quoteForms (x ++ 'f' :: q :: y') := by
  rw [quoteForms, quoteForms, quotesFrom_append, quotesFrom_append, hx]
  refine append_left_lt ?_
  have hf : isQuote 'f' = false := rfl
  rw [quotesFrom, if_pos hq, quotesFrom, hf, if_neg Bool.false_ne_true, quotesFrom, if_pos hq]
  exact List.Lex.rel (by decide)

/-- Whether two texts in a row end with an `f`. -/
theorem endsWithF_append (behind : Bool) (t u : Text) :
    endsWithF behind (t ++ u) = endsWithF (endsWithF behind t) u := by
  induction t generalizing behind with
  | nil => rfl
  | cons c t ih => exact ih _

/-- Only the last character decides whether a text ends with an `f`. -/
theorem endsWithF_concat (behind : Bool) (t : Text) (c : Char) :
    endsWithF behind (t ++ [c]) = (c == 'f') := by
  rw [endsWithF_append]
  rfl

/-! ### Clutter -/

/-- The characters of a text that comparisons and the word `True` are written with: exclamation
marks, the letter `u`, and equals signs right behind another one. `behind` says so for the first
character. -/
def clutterFrom (behind : Bool) : Text → Nat
  | [] => 0
  | c :: t =>
    (if c == 'u' || c == '!' || (behind && c == '=') then 1 else 0) + clutterFrom (c == '=') t

/-- Whether a text ends with an equals sign. -/
def endsWithEq (behind : Bool) : Text → Bool
  | [] => behind
  | c :: t => endsWithEq (c == '=') t

/-- The clutter of a text. -/
def clutter (t : Text) : Nat := clutterFrom false t

/-- The clutter of two texts in a row. What the first one ends with decides whether an equals sign
at the start of the second one counts. -/
theorem clutterFrom_append (behind : Bool) (t u : Text) :
    clutterFrom behind (t ++ u) = clutterFrom behind t + clutterFrom (endsWithEq behind t) u := by
  induction t generalizing behind with
  | nil => rw [List.nil_append, clutterFrom, endsWithEq, Nat.zero_add]
  | cons c t ih =>
    rw [List.cons_append, clutterFrom, clutterFrom, endsWithEq, ih]
    omega

/-- Whether two texts in a row end with an equals sign. -/
theorem endsWithEq_append (behind : Bool) (t u : Text) :
    endsWithEq behind (t ++ u) = endsWithEq (endsWithEq behind t) u := by
  induction t generalizing behind with
  | nil => rfl
  | cons c t ih => exact ih _

/-- Only the last character decides whether a text ends with an equals sign. -/
theorem endsWithEq_concat (behind : Bool) (t : Text) (c : Char) :
    endsWithEq behind (t ++ [c]) = (c == '=') := by
  rw [endsWithEq_append]
  rfl

/-- A text without the characters that clutter. -/
theorem clutterFrom_of_all {set : Char → Bool} {t : Text} (h : t.all set = true)
    (hset : excludes set "u!=" = true) (behind : Bool) :
    clutterFrom behind t = 0 ∧ (t ≠ [] → endsWithEq behind t = false) := by
  induction t generalizing behind with
  | nil => exact ⟨rfl, fun hne => absurd rfl hne⟩
  | cons c t ih =>
    rw [List.all_cons, Bool.and_eq_true] at h
    have hne : ∀ d ∈ "u!=".toList, (c == d) = false := by
      intro d hd
      rw [beq_eq_false_iff_ne]
      rintro rfl
      rw [eq_false_of_excludes hset hd] at h
      cases h.1
    rw [clutterFrom, endsWithEq, hne 'u' (by decide), hne '!' (by decide), hne '=' (by decide),
      (ih h.2 false).1, Bool.and_false]
    refine ⟨rfl, fun _ => ?_⟩
    cases t with
    | nil => rfl
    | cons d t => exact (ih h.2 false).2 (List.cons_ne_nil d t)

/-- Behind an equals sign a text has as much clutter as elsewhere, or one more. -/
theorem clutterFrom_true_le (t : Text) :
    clutterFrom false t ≤ clutterFrom true t ∧ clutterFrom true t ≤ clutterFrom false t + 1 := by
  cases t with
  | nil => exact ⟨Nat.le_refl _, Nat.le_succ _⟩
  | cons c t =>
    rw [clutterFrom, clutterFrom, Bool.true_and, Bool.false_and, Bool.or_false]
    cases c == 'u' || c == '!' <;> cases c == '=' <;> simp [Nat.add_comm]

/-- A stretch with less clutter, also at its end. -/
theorem clutter_lt {o u : Text}
    (h : ∀ behind, clutterFrom behind o + (endsWithEq behind o).toNat < clutterFrom behind u)
    (x y : Text) : clutter (x ++ (o ++ y)) < clutter (x ++ (u ++ y)) := by
  rw [clutter, clutter, clutterFrom_append, clutterFrom_append, clutterFrom_append,
    clutterFrom_append]
  have hstretch := h (endsWithEq false x)
  obtain ⟨hle, hmore⟩ := clutterFrom_true_le y
  have hbehind : ∀ b, clutterFrom false y ≤ clutterFrom b y ∧
      clutterFrom b y ≤ clutterFrom false y + b.toNat := by
    intro b
    cases b with
    | true => exact ⟨hle, hmore⟩
    | false => exact ⟨Nat.le_refl _, Nat.le_refl _⟩
  have ho := (hbehind (endsWithEq (endsWithEq false x) o)).2
  have hu := (hbehind (endsWithEq (endsWithEq false x) u)).1
  omega

/-! ### The gauge -/

/-- How far a text is from being tidy: its loud lines, its quotes (the more of them have a prefix,
the better), its opening parentheses and its clutter. The first that differs decides. -/
def gauge (t : Text) : ℕ ×ₗ (List Bool)ᵒᵈ ×ₗ ℕ ×ₗ ℕ :=
  toLex (loudLines t, toLex (OrderDual.toDual (quoteForms t), toLex (t.count '(', clutter t)))

variable {t t' : Text}

/-- With fewer loud lines a text is tidier, whatever else changes. -/
theorem gauge_lt_of_loudLines (h : loudLines t' < loudLines t) : gauge t' < gauge t :=
  Prod.Lex.toLex_lt_toLex.mpr (.inl h)

/-- With no more loud lines and better quotes a text is tidier. -/
theorem gauge_lt_of_quoteForms (hloud : loudLines t' ≤ loudLines t)
    (h : quoteForms t < quoteForms t') : gauge t' < gauge t := by
  rcases Nat.lt_or_eq_of_le hloud with hlt | heq
  · exact gauge_lt_of_loudLines hlt
  · exact Prod.Lex.toLex_lt_toLex.mpr (.inr ⟨heq, Prod.Lex.toLex_lt_toLex.mpr (.inl h)⟩)

/-- With no more loud lines, no worse quotes and fewer parentheses a text is tidier. -/
theorem gauge_lt_of_count (hloud : loudLines t' ≤ loudLines t)
    (hquotes : quoteForms t ≤ quoteForms t') (h : t'.count '(' < t.count '(') :
    gauge t' < gauge t := by
  rcases lt_or_eq_of_le hquotes with hlt | heq
  · exact gauge_lt_of_quoteForms hloud hlt
  · rcases Nat.lt_or_eq_of_le hloud with hlt | hloud
    · exact gauge_lt_of_loudLines hlt
    · exact Prod.Lex.toLex_lt_toLex.mpr (.inr ⟨hloud, Prod.Lex.toLex_lt_toLex.mpr (.inr
        ⟨congrArg OrderDual.toDual heq.symm, Prod.Lex.toLex_lt_toLex.mpr (.inl h)⟩)⟩)

/-- With less clutter a text is tidier, if nothing that is compared before has got worse. -/
theorem gauge_lt_of_clutter (hloud : loudLines t' ≤ loudLines t)
    (hquotes : quoteForms t ≤ quoteForms t') (hcount : t'.count '(' ≤ t.count '(')
    (h : clutter t' < clutter t) : gauge t' < gauge t := by
  rcases Nat.lt_or_eq_of_le hcount with hlt | hcount
  · exact gauge_lt_of_count hloud hquotes hlt
  · rcases lt_or_eq_of_le hquotes with hlt | heq
    · exact gauge_lt_of_quoteForms hloud hlt
    · rcases Nat.lt_or_eq_of_le hloud with hlt | hloud
      · exact gauge_lt_of_loudLines hlt
      · exact Prod.Lex.toLex_lt_toLex.mpr (.inr ⟨hloud, Prod.Lex.toLex_lt_toLex.mpr (.inr
          ⟨congrArg OrderDual.toDual heq.symm, Prod.Lex.toLex_lt_toLex.mpr (.inr ⟨hcount, h⟩)⟩)⟩)

/-- A text is no farther from being tidy than another if it is not in any of the four. -/
theorem gauge_le (hloud : loudLines t' ≤ loudLines t) (hquotes : quoteForms t ≤ quoteForms t')
    (hcount : t'.count '(' ≤ t.count '(') (hclutter : clutter t' ≤ clutter t) :
    gauge t' ≤ gauge t := by
  rcases Nat.lt_or_eq_of_le hclutter with hlt | hclutter
  · exact le_of_lt (gauge_lt_of_clutter hloud hquotes hcount hlt)
  · rcases Nat.lt_or_eq_of_le hcount with hlt | hcount
    · exact le_of_lt (gauge_lt_of_count hloud hquotes hlt)
    · rcases lt_or_eq_of_le hquotes with hlt | hquotes
      · exact le_of_lt (gauge_lt_of_quoteForms hloud hlt)
      · rcases Nat.lt_or_eq_of_le hloud with hlt | hloud
        · exact le_of_lt (gauge_lt_of_loudLines hlt)
        · rw [gauge, gauge, hloud, hquotes, hcount, hclutter]

/-! ### The gauge, line by line -/

/-- The quotes of a text are those of its lines: no prefix goes over a line feed. -/
theorem quoteForms_append_feed (t u : Text) :
    quoteForms (t ++ '\n' :: u) = quoteForms t ++ quoteForms u := by
  rw [quoteForms, quotesFrom_append, quotesFrom, if_neg (by decide)]
  rfl

/-- The clutter of a text is that of its lines: no comparison goes over a line feed. -/
theorem clutter_append_feed (t u : Text) : clutter (t ++ '\n' :: u) = clutter t + clutter u := by
  rw [clutter, clutterFrom_append, clutterFrom]
  cases endsWithEq false t <;> simp [clutter]

/-- What is counted line by line. -/
theorem sum_unlines {f : Text → Nat} (hnil : f [] = 0)
    (hf : ∀ t u, f (t ++ '\n' :: u) = f t + f u) (ls : List Text) :
    f (unlines ls) = (ls.map f).sum := by
  induction ls with
  | nil => exact hnil
  | cons l ls ih =>
    rw [List.map_cons, List.sum_cons, ← ih]
    cases ls with
    | nil =>
      have hempty : f (unlines []) = 0 := hnil
      rw [unlines_singleton, hempty, Nat.add_zero]
    | cons l' ls => rw [unlines_cons l (List.cons_ne_nil l' ls), hf]

/-- The loud lines of some lines, line by line. -/
theorem loudLines_unlines (ls : List Text) : loudLines (unlines ls) = (ls.map loudLines).sum :=
  sum_unlines rfl loudLines_append_feed ls

/-- The clutter of some lines, line by line. -/
theorem clutter_unlines (ls : List Text) : clutter (unlines ls) = (ls.map clutter).sum :=
  sum_unlines rfl clutter_append_feed ls

/-- The opening parentheses of some lines, line by line. -/
theorem count_unlines (ls : List Text) :
    (unlines ls).count '(' = (ls.map (List.count '(')).sum :=
  sum_unlines rfl (fun t u => by rw [List.count_append, List.count_cons_of_ne (by decide)]) ls

/-- The quotes of some lines, line by line. -/
theorem quoteForms_unlines (ls : List Text) :
    quoteForms (unlines ls) = (ls.map quoteForms).flatten := by
  induction ls with
  | nil => rfl
  | cons l ls ih =>
    rw [List.map_cons, List.flatten_cons, ← ih]
    cases ls with
    | nil =>
      have hempty : quoteForms (unlines []) = [] := rfl
      rw [unlines_singleton, hempty, List.append_nil]
    | cons l' ls => rw [unlines_cons l (List.cons_ne_nil l' ls), quoteForms_append_feed]

/-- A line with nothing that counts for the gauge. -/
structure IsPlainLine (l : Text) : Prop where
  loud : loudLines l = 0
  quotes : quoteForms l = []
  count : l.count '(' = 0
  clutter : clutter l = 0

/-- Lines with nothing that counts may be put between others. -/
theorem gauge_insert {ls' : List Text} (h : ∀ l ∈ ls', IsPlainLine l) (ls ls'' : List Text) :
    gauge (unlines (ls ++ ls' ++ ls'')) = gauge (unlines (ls ++ ls'')) := by
  have hloud : (ls'.map loudLines).sum = 0 :=
    List.sum_eq_zero_iff_forall_eq_nat.mpr (by simpa using fun l hl => (h l hl).loud)
  have hquotes : (ls'.map quoteForms).flatten = [] :=
    List.flatten_eq_nil_iff.mpr (by simpa using fun l hl => (h l hl).quotes)
  have hcount : (ls'.map (List.count '(')).sum = 0 :=
    List.sum_eq_zero_iff_forall_eq_nat.mpr (by simpa using fun l hl => (h l hl).count)
  have hclutter : (ls'.map clutter).sum = 0 :=
    List.sum_eq_zero_iff_forall_eq_nat.mpr (by simpa using fun l hl => (h l hl).clutter)
  simp only [gauge, loudLines_unlines, quoteForms_unlines, count_unlines, clutter_unlines,
    List.map_append, List.sum_append, List.flatten_append, hloud, hquotes, hcount, hclutter,
    Nat.add_zero, List.append_nil]

/-! ### Stretches that may take the place of others -/

/-- Wherever `o` takes the place of `u`, no line gets loud and no quote loses its prefix. -/
structure Eases (u o : Text) : Prop where
  lines : (o.filter makesLines).Sublist (u.filter makesLines)
  quotes : ∀ x y, quoteForms (x ++ (u ++ y)) ≤ quoteForms (x ++ (o ++ y))

namespace Eases

variable {o o' u v : Text}

/-- What stays as it is eases itself. -/
theorem refl (t : Text) : Eases t t := ⟨.refl _, fun _ _ => le_refl _⟩

/-- Two steps that ease make one. -/
theorem trans (h : Eases u v) (h' : Eases v o) : Eases u o :=
  ⟨h'.lines.trans h.lines, fun x y => le_trans (h.quotes x y) (h'.quotes x y)⟩

/-- What eases does so behind another text. -/
theorem append_left (h : Eases u o) (t : Text) : Eases (t ++ u) (t ++ o) := by
  refine ⟨?_, fun x y => ?_⟩
  · rw [List.filter_append, List.filter_append]
    exact (List.Sublist.refl _).append h.lines
  · have hquotes := h.quotes (x ++ t) y
    rwa [List.append_assoc, List.append_assoc] at hquotes ⊢

/-- What eases does so in front of another text. -/
theorem append_right (h : Eases u o) (t : Text) : Eases (u ++ t) (o ++ t) := by
  refine ⟨?_, fun x y => ?_⟩
  · rw [List.filter_append, List.filter_append]
    exact h.lines.append (List.Sublist.refl _)
  · rw [List.append_assoc, List.append_assoc]
    exact h.quotes x (t ++ y)

/-- No line gets loud where something eases. -/
theorem loudLines_le (h : Eases u o) (x y : Text) :
    loudLines (x ++ (o ++ y)) ≤ loudLines (x ++ (u ++ y)) := loudLines_mono_filter h.lines x y

/-- What eases has no more opening parentheses than what it replaces. -/
theorem count_le (h : Eases u o) : o.count '(' ≤ u.count '(' := by
  have hcount := h.lines.count_le '('
  rwa [List.count_filter rfl, List.count_filter rfl] at hcount

/-- A stretch without quotes, and without anything that makes lines loud. -/
theorem of_plain (hu : u.any isQuote = false) (ho : o.any makesLines = false)
    (hend : ∀ behind, endsWithF behind u = true → endsWithF behind o = true) : Eases u o := by
  refine ⟨?_, quoteForms_le hu ?_ hend⟩
  · rw [List.filter_eq_nil_iff.mpr]
    · exact List.nil_sublist _
    · simpa using ho
  · rw [List.any_eq_false] at ho ⊢
    intro c hc hquote
    refine ho c hc ?_
    rw [makesLines, isLoud_of_isQuote hquote, Bool.true_or]

/-- What eases and has fewer parentheses makes any text around it tidier. -/
theorem gauge_lt_of_count (h : Eases u o) (hcount : o.count '(' < u.count '(') (x y : Text) :
    gauge (x ++ (o ++ y)) < gauge (x ++ (u ++ y)) := by
  refine Text.gauge_lt_of_count (h.loudLines_le x y) (h.quotes x y) ?_
  rw [List.count_append, List.count_append, List.count_append, List.count_append]
  omega

/-- What eases and has less clutter makes any text around it tidier, also if its last equals sign
comes to stand in front of another one. -/
theorem gauge_lt_of_clutter (h : Eases u o)
    (hclutter : ∀ behind, clutterFrom behind o + (endsWithEq behind o).toNat < clutterFrom behind u)
    (x y : Text) : gauge (x ++ (o ++ y)) < gauge (x ++ (u ++ y)) := by
  refine Text.gauge_lt_of_clutter (h.loudLines_le x y) (h.quotes x y) ?_ (clutter_lt hclutter x y)
  have hcount := h.count_le
  rw [List.count_append, List.count_append, List.count_append, List.count_append]
  omega

end Eases

end CodeTidy.Text
