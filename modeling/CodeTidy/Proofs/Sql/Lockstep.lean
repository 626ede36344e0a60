import CodeTidy.Proofs.Sql.Lexer
import CodeTidy.Proofs.Pattern.Cuts
import CodeTidy.Proofs.Text.Marks

/-!
# `CodeTidy.Proofs.Sql.Lockstep`: the literals of two texts with the same marks

Two texts with the same marks are read in lockstep: where a string or a quoted
name begins in one of them, one begins in the other, and both end behind the
same number of visible characters. Only comments, which end where a line ends,
can come apart. So the two texts have the same literals exactly if each
literal of the first stands at its place in the second. The theorems:

* `sizeOf_stringRest?`, `sizeOf_nameRest?`: where a quote is closed is read off
  the marks.
* `exists_literal?`: literals begin at the same places.
* `inStep_of_cuts`: the walk over both texts. Each step has its lemma in `InStep`.
* `literals_eq_iff`: the criterion.
-/

set_option autoImplicit false

namespace CodeTidy.Sql

open Pattern Text

/-! ### What is quoted -/

/-- The number of visible characters. -/
def size (t : Text) : Nat := (nonBlank t).length

/-- White space in front does not count. -/
theorem size_cons_blank {c : Char} (h : isBlank c = true) (t : Text) : size (c :: t) = size t := by
  rw [size, nonBlank_cons_blank h, size]

/-- A visible character in front counts. -/
theorem size_cons {c : Char} (h : isBlank c = false) (t : Text) : size (c :: t) = size t + 1 := by
  rw [size, nonBlank_cons h, List.length_cons, size]

/-- The visible characters of two texts in a row. -/
theorem size_append (t u : Text) : size (t ++ u) = size t + size u := by
  rw [size, nonBlank_append, List.length_append, size, size]

/-- A text has as many visible characters in reverse. -/
theorem size_reverse (t : Text) : size t.reverse = size t := by
  rw [size, nonBlank, List.filter_reverse, List.length_reverse, size, nonBlank]

/-- The number of visible characters up to the end of a string, by the marks behind its first
quote. -/
def stringSize : List (Option Char × Bool) → Option Nat
  | [] => none
  | (some '\'', _) :: (some '\'', true) :: marks =>
    match stringSize marks with
    | some n => some (n + 2)
    | none => some 1
  | (mark, _) :: marks => if mark = some '\'' then some 1 else (stringSize marks).map (· + 1)

/-- The number of visible characters up to the end of a quoted name. -/
def nameSize (quote : Char) : List (Option Char × Bool) → Option Nat
  | [] => none
  | (mark, _) :: marks => if mark = some quote then some 1 else (nameSize quote marks).map (· + 1)

/-- A visible character other than the quote makes the string longer by one. -/
theorem stringSize_cons {mark : Option Char} (h : mark ≠ some '\'') (isBehind : Bool)
    (marks : List (Option Char × Bool)) :
    stringSize ((mark, isBehind) :: marks) = (stringSize marks).map (· + 1) := by
  rw [stringSize, if_neg h]
  intro a marks' h'
  cases h'
  exact absurd rfl h

/-- A quote that no other follows closes the string. -/
theorem stringSize_quote {t : Text} (h : t.head? ≠ some '\'') (isBehind : Bool) :
    stringSize ((some '\'', isBehind) :: marksFrom true t) = some 1 := by
  rw [stringSize, if_pos rfl]
  intro _ hmarks _
  exact h (head_of_marksFrom hmarks).2

/-- A character that is no quote is passed over. -/
theorem stringSize_marksFrom {a : Char} (ha : a ≠ '\'') (isBehind : Bool) (r : Text) :
    stringSize (marksFrom isBehind (a :: r)) =
      (stringSize (marksFrom (isMark a) r)).map (size [a] + ·) := by
  cases hblank : isBlank a with
  | true =>
    rw [marksFrom_blank hblank, isMark_of_isBlank hblank, size_cons_blank hblank]
    simp [size, nonBlank]
  | false =>
    cases hmark : isMark a with
    | true =>
      rw [marksFrom_mark hmark, stringSize_cons (fun h => ha (Option.some.inj h)),
        size_cons hblank]
      simp [size, nonBlank, Nat.add_comm]
    | false =>
      rw [marksFrom_other hblank hmark, stringSize_cons (by simp), size_cons hblank]
      simp [size, nonBlank, Nat.add_comm]

/-- Where a string ends is read off the marks. -/
theorem sizeOf_stringRest? (isBehind : Bool) (t : Text) :
    (stringRest? t).map size = stringSize (marksFrom isBehind t) := by
  induction t using stringRest?.induct generalizing isBehind with
  | case1 => rfl
  | case2 r u hu ih =>
    have hmarks : marksFrom isBehind ('\'' :: '\'' :: r) =
        (some '\'', isBehind) :: (some '\'', true) :: marksFrom true r := rfl
    rw [hmarks, stringSize, ← ih true, stringRest?, hu]
    rfl
  | case3 r hu ih =>
    have hmarks : marksFrom isBehind ('\'' :: '\'' :: r) =
        (some '\'', isBehind) :: (some '\'', true) :: marksFrom true r := rfl
    rw [hmarks, stringSize, ← ih true, stringRest?, hu]
    rfl
  | case4 a r hr ha =>
    have hquote : a = '\'' := by simpa using ha
    subst hquote
    -- The quote is not doubled, so it ends the string.
    have hlone : ∀ r', r = '\'' :: r' → False := fun r' => hr r' rfl
    rw [stringRest?_quote hlone, marksFrom_mark rfl, stringSize_quote (head?_ne_quote hlone)]
    rfl
  | case5 a r hr ha u hu ih =>
    have hplain : a ≠ '\'' := by simpa using ha
    rw [stringRest?_cons hplain, hu, stringSize_marksFrom hplain, ← ih, hu]
    show some (size ([a] ++ u)) = _
    rw [size_append]
    rfl
  | case6 a r hr ha hu ih =>
    have hplain : a ≠ '\'' := by simpa using ha
    rw [stringRest?_cons hplain, hu, stringSize_marksFrom hplain, ← ih, hu]
    rfl

/-- A character that is not the quote is passed over. -/
theorem nameSize_marksFrom {quote a : Char} (ha : a ≠ quote) (isBehind : Bool) (r : Text) :
    nameSize quote (marksFrom isBehind (a :: r)) =
      (nameSize quote (marksFrom (isMark a) r)).map (size [a] + ·) := by
  cases hblank : isBlank a with
  | true =>
    rw [marksFrom_blank hblank, isMark_of_isBlank hblank, size_cons_blank hblank]
    simp [size, nonBlank]
  | false =>
    rw [size_cons hblank]
    cases hmark : isMark a with
    | true =>
      rw [marksFrom_mark hmark, nameSize, if_neg (fun h => ha (Option.some.inj h))]
      simp [size, nonBlank, Nat.add_comm]
    | false =>
      have hquote : (none : Option Char) ≠ some quote := by simp
      rw [marksFrom_other hblank hmark, nameSize, if_neg hquote]
      simp [size, nonBlank, Nat.add_comm]

/-- Where a quoted name ends is read off the marks. -/
theorem sizeOf_nameRest? {quote : Char} (hquote : isMark quote = true) (isBehind : Bool)
    (t : Text) : (nameRest? quote t).map size = nameSize quote (marksFrom isBehind t) := by
  induction t generalizing isBehind with
  | nil => rfl
  | cons a r ih =>
    by_cases ha : a = quote
    · subst ha
      -- White space is no mark, so the quote is visible.
      have hblank : isBlank a = false := by
        rw [← Bool.not_eq_true]
        intro hblank
        rw [isMark_of_isBlank hblank] at hquote
        cases hquote
      rw [nameRest?, beq_self_eq_true, if_pos rfl, marksFrom_mark hquote, nameSize, if_pos rfl,
        Option.map_some, size_cons hblank]
      rfl
    · rw [nameRest?_cons ha, nameSize_marksFrom ha, ← ih (isMark a), Option.map_map,
        Option.map_map]
      refine Option.map_congr (fun u _ => ?_)
      show size ([a] ++ u) = _
      rw [size_append]
      rfl

/-! ### Literals in lockstep -/

/-- What two visible characters and the texts behind them have in common. -/
theorem marksFrom_cons_inj {b b' : Bool} {c d : Char} {t w : Text} (hc : isBlank c = false)
    (hd : isBlank d = false) (h : marksFrom b (c :: t) = marksFrom b' (d :: w)) :
    (isMark c = true → c = d) ∧ marksFrom (isMark c) t = marksFrom (isMark d) w := by
  -- A mark and another visible character make different entries.
  cases hmark : isMark c with
  | true =>
    rw [marksFrom_mark hmark] at h
    cases hmark' : isMark d with
    | true =>
      rw [marksFrom_mark hmark', List.cons.injEq, Prod.mk.injEq, Option.some.injEq] at h
      exact ⟨fun _ => h.1.1, h.2⟩
    | false =>
      rw [marksFrom_other hd hmark'] at h
      cases h
  | false =>
    rw [marksFrom_other hc hmark] at h
    cases hmark' : isMark d with
    | true =>
      rw [marksFrom_mark hmark'] at h
      cases h
    | false =>
      rw [marksFrom_other hd hmark', List.cons.injEq] at h
      exact ⟨fun hfalse => Bool.noConfusion hfalse, h.2⟩

/-- Where a literal begins in one of two texts with the same marks, one begins in the other. What
is quoted has as many visible characters there. -/
theorem exists_literal? {b b' : Bool} {c d : Char} {t w u : Text} (hd : isBlank d = false)
    (h : marksFrom b (c :: t) = marksFrom b' (d :: w)) (hu : literal? (c :: t) = some u) :
    ∃ u', literal? (d :: w) = some u' ∧
      (size u = size u' ∧ endsMarked false u = true ∧ endsMarked false u' = true ∨
        u.head? = some '-' ∧ '\n' ∉ u ∧ u' = (d :: w).takeWhile (· != '\n')) := by
  have hliteral := isLiteral_of_literal? hu
  generalize hx : c :: t = x at hliteral
  cases hliteral with
  | @string r u₁ hrest =>
    obtain ⟨rfl, rfl⟩ := List.cons.inj hx
    obtain ⟨hsame, htail⟩ := marksFrom_cons_inj rfl hd h
    obtain rfl := hsame rfl
    have hsize : (stringRest? t).map size = (stringRest? w).map size := by
      rw [sizeOf_stringRest? true, sizeOf_stringRest? true]
      exact congrArg stringSize htail
    rw [hrest] at hsize
    obtain ⟨u₂, hu₂, hsize'⟩ := Option.map_eq_some_iff.mp hsize.symm
    obtain ⟨-, v, rfl⟩ := stringRest?_spec hrest
    obtain ⟨-, v', rfl⟩ := stringRest?_spec hu₂
    refine ⟨'\'' :: (v' ++ ['\'']), by rw [literal?, hu₂]; rfl, .inl ⟨?_, ?_, ?_⟩⟩
    · rw [size_cons rfl, size_cons rfl, hsize']
    · exact endsMarked_append false ('\'' :: v) ['\'']
    · exact endsMarked_append false ('\'' :: v') ['\'']
  | @name quote r u₁ hquote hrest =>
    obtain ⟨rfl, rfl⟩ := List.cons.inj hx
    have hmark : isMark c = true ∧ isBlank c = false := by
      rcases hquote with rfl | rfl <;> exact ⟨rfl, rfl⟩
    obtain ⟨hsame, htail⟩ := marksFrom_cons_inj hmark.2 hd h
    obtain rfl := hsame hmark.1
    have hsize : (nameRest? c t).map size = (nameRest? c w).map size := by
      rw [sizeOf_nameRest? hmark.1 true, sizeOf_nameRest? hmark.1 true, ← hmark.1]
      exact congrArg (nameSize c) htail
    rw [hrest] at hsize
    obtain ⟨u₂, hu₂, hsize'⟩ := Option.map_eq_some_iff.mp hsize.symm
    obtain ⟨-, v, -, rfl⟩ := nameRest?_eq_some_iff.mp hrest
    obtain ⟨-, v', -, rfl⟩ := nameRest?_eq_some_iff.mp hu₂
    have hends : ∀ v, endsMarked false (c :: (v ++ [c])) = true := fun v =>
      (endsMarked_append false (c :: v) [c]).trans hmark.1
    refine ⟨c :: (v' ++ [c]), ?_, .inl ⟨?_, hends v, hends v'⟩⟩
    · rcases hquote with rfl | rfl
      · rw [literal?, hu₂]
        rfl
      · rw [literal?, hu₂]
        rfl
    · rw [size_cons hmark.2, size_cons hmark.2, hsize']
  | comment r =>
    obtain ⟨rfl, rfl⟩ := List.cons.inj hx
    obtain ⟨hsame, htail⟩ := marksFrom_cons_inj rfl hd h
    obtain rfl := hsame rfl
    -- The second hyphen stands right behind the first one in either text.
    have hnext : marksFrom true w = (some '-', true) :: marksFrom true r := htail.symm
    obtain ⟨-, hhead⟩ := head_of_marksFrom hnext
    refine ⟨'-' :: w.takeWhile (· != '\n'), by rw [literal?, hhead]; rfl, .inr ⟨rfl, ?_, rfl⟩⟩
    intro hfeed
    have hline : '\n' ∈ ('-' :: '-' :: r).takeWhile (· != '\n') := hfeed
    have := List.all_eq_true.mp (List.all_takeWhile (p := (· != '\n'))) '\n' hline
    simp at this

/-- Behind as many visible characters the same marks go on. -/
theorem marksFrom_behind {b b' : Bool} {u u' r r' : Text} (hsize : size u = size u')
    (h : marksFrom b (u ++ r) = marksFrom b' (u' ++ r')) :
    marksFrom (endsMarked b u) r = marksFrom (endsMarked b' u') r' := by
  rw [marksFrom_append, marksFrom_append] at h
  refine (List.append_inj h ?_).2
  rw [length_marksFrom, length_marksFrom]
  exact hsize

/-! ### Places -/

/-- The text from a visible character on; `n` of them stand before it. -/
def fromVisible : Nat → Text → Text
  | _, [] => []
  | 0, c :: t => if isBlank c then fromVisible 0 t else c :: t
  | n + 1, c :: t => if isBlank c then fromVisible (n + 1) t else fromVisible n t

/-- White space in front is passed. -/
theorem fromVisible_blank {c : Char} (h : isBlank c = true) (n : Nat) (t : Text) :
    fromVisible n (c :: t) = fromVisible n t := by
  cases n with
  | zero => rw [fromVisible, if_pos h]
  | succ n => rw [fromVisible, if_pos h]

/-- The first visible character is the one the text goes on from. -/
theorem fromVisible_zero {c : Char} (h : isBlank c = false) (t : Text) :
    fromVisible 0 (c :: t) = c :: t := by
  rw [fromVisible, h, if_neg Bool.false_ne_true]

/-- A visible character in front is counted and passed. -/
theorem fromVisible_succ {c : Char} (h : isBlank c = false) (n : Nat) (t : Text) :
    fromVisible (n + 1) (c :: t) = fromVisible n t := by
  rw [fromVisible, h, if_neg Bool.false_ne_true]

/-- Behind as many visible characters as the front has stands the rest, from its first visible
character on. -/
theorem fromVisible_append (v t : Text) : fromVisible (size v) (v ++ t) = fromVisible 0 t := by
  induction v with
  | nil => rfl
  | cons c v ih =>
    cases hblank : isBlank c with
    | true => rw [size_cons_blank hblank, List.cons_append, fromVisible_blank hblank, ih]
    | false => rw [size_cons hblank, List.cons_append, fromVisible_succ hblank, ih]

/-- To pass visible characters in two steps is to pass them in one. -/
theorem fromVisible_fromVisible (n k : Nat) (t : Text) :
    fromVisible k (fromVisible n t) = fromVisible (n + k) t := by
  induction t generalizing n with
  | nil => rfl
  | cons c t ih =>
    cases hblank : isBlank c with
    | true => rw [fromVisible_blank hblank, fromVisible_blank hblank, ih]
    | false =>
      cases n with
      | zero => rw [fromVisible_zero hblank, Nat.zero_add]
      | succ n =>
        rw [fromVisible_succ hblank, ih, Nat.add_right_comm, fromVisible_succ hblank]

/-- The literal `u` stands in the text `z` behind `n` visible characters. If it is a comment, its
line ends there too. -/
def Stands (z : Text) (n : Nat) (u : Text) : Prop :=
  ∃ r, fromVisible n z = u ++ r ∧ (u.head? = some '-' → r.head?.all (· == '\n') = true)

/-- The number of visible characters in front of a match. -/
def place (m : Match) : Nat := size m.start.before

/-! ### The walk over both texts -/

/-- A literal begins with a mark. -/
theorem isBlank_of_literal? {d : Char} {w u : Text} (h : literal? (d :: w) = some u) :
    isBlank d = false := by
  have hliteral := isLiteral_of_literal? h
  generalize hx : d :: w = x at hliteral
  cases hliteral with
  | string hrest =>
    obtain ⟨rfl, -⟩ := List.cons.inj hx
    rfl
  | name hquote hrest =>
    obtain ⟨rfl, -⟩ := List.cons.inj hx
    rcases hquote with rfl | rfl <;> rfl
  | comment r =>
    obtain ⟨rfl, -⟩ := List.cons.inj hx
    rfl

/-- The pattern of the literals. -/
abbrev literals : Pattern := LiteralGrammar.sql.pattern

variable {c c' : Cursor} {segments segments' : List Segment}

/-- A match is the literal that the text begins with. -/
theorem matchAt?_eq_some {m : Match} (h : literals.matchAt? c = some m) :
    literal? c.after = some m.text ∧ c.Reads m.text m.stop ∧ m.start = c := by
  obtain ⟨u, hu, htext, -⟩ := exists_reads_of_matchAt? h
  obtain ⟨hstart, -⟩ := takes_of_matchAt? h
  rw [matchAt?_literal] at h
  obtain ⟨u', hu', rfl⟩ := Option.map_eq_some_iff.mp h
  have htext' : (⟨c, c.behind u', []⟩ : Match).text = u' :=
    Match.text_of_reads (Cursor.reads_behind (isLiteral_of_literal? hu').begins)
  rw [htext']
  exact ⟨hu', Cursor.reads_behind (isLiteral_of_literal? hu').begins, rfl⟩

/-- Where nothing matches, no literal begins. -/
theorem matchAt?_eq_none (h : literals.matchAt? c = none) : literal? c.after = none := by
  rw [matchAt?_literal] at h
  exact Option.map_eq_none_iff.mp h

/-- At the end of the text there are no more literals. -/
theorem hitsOf_of_end (h : Cuts literals c segments) (hend : c.after = []) :
    hitsOf segments = [] := by
  cases h with
  | stop _ => rfl
  | pass hread hnone hrest =>
    have hafter := hread.after_eq
    rw [hend] at hafter
    cases hafter
  | hit hmatch hrest =>
    have hliteral := (matchAt?_eq_some hmatch).1
    rw [hend] at hliteral
    cases hliteral

/-- White space in front of the next visible character is no part of a literal. -/
theorem exists_cuts_of_blanks (h : Cuts literals c segments) {marks : List (Option Char × Bool)}
    {isBehind : Bool} {w : Text} (hmarks : marks = marksFrom isBehind c.after)
    (hw : w = fromVisible 0 c.after) :
    ∃ c₁ segments₁ isBehind₁, Cuts literals c₁ segments₁ ∧ hitsOf segments₁ = hitsOf segments ∧
      marks = marksFrom isBehind₁ c₁.after ∧ w = c₁.after ∧
      (c₁.after = [] ∨ ∃ d u, c₁.after = d :: u ∧ isBlank d = false) := by
  induction h generalizing isBehind with
  | @stop c hend =>
    refine ⟨c, _, isBehind, .stop hend, rfl, hmarks, ?_, .inl hend⟩
    rw [hw, hend, fromVisible]
  -- White space is passed. The first visible character is where the walk stops.
  | @pass c c' a g rest hread hnone hrest ih =>
    rw [hread.after_eq] at hmarks hw
    cases hblank : isBlank a with
    | true =>
      exact ih (hmarks.trans (marksFrom_blank hblank isBehind c'.after))
        (hw.trans (fromVisible_blank hblank 0 c'.after))
    | false =>
      refine ⟨c, _, isBehind, .pass hread hnone hrest, rfl, ?_, ?_,
        .inr ⟨a, c'.after, hread.after_eq, hblank⟩⟩
      · rw [hmarks, hread.after_eq]
      · rw [hw, hread.after_eq]
        exact fromVisible_zero hblank c'.after
  -- A literal begins visibly.
  | @hit c m rest hmatch hrest ih =>
    obtain ⟨hliteral, hreads, -⟩ := matchAt?_eq_some hmatch
    cases hafter : c.after with
    | nil =>
      rw [hafter] at hliteral
      cases hliteral
    | cons d u =>
      rw [hafter] at hliteral
      have hblank := isBlank_of_literal? hliteral
      refine ⟨c, _, isBehind, .hit hmatch hrest, rfl, hmarks, ?_, .inr ⟨d, u, hafter, hblank⟩⟩
      rw [hw, hafter, fromVisible_zero hblank]

/-- The walk over the second text meets a visible character if there is one more in the first. -/
theorem exists_cuts_of_visible (h : Cuts literals c segments) {b b' : Bool} {a : Char} {t w : Text}
    (ha : isBlank a = false) (hmarks : marksFrom b (a :: t) = marksFrom b' c.after)
    (hw : w = fromVisible 0 c.after) :
    ∃ c₁ segments₁ b₁ d u, Cuts literals c₁ segments₁ ∧ hitsOf segments₁ = hitsOf segments ∧
      c₁.after = d :: u ∧ isBlank d = false ∧ marksFrom b (a :: t) = marksFrom b₁ (d :: u) ∧
      w = d :: u := by
  obtain ⟨c₁, segments₁, b₁, hcuts, hhits, hmarks, hw, hnone | ⟨d, u, hafter, hd⟩⟩ :=
    exists_cuts_of_blanks h hmarks hw
  · -- At the end of the text the character would have no mark.
    have hlength := congrArg List.length hmarks
    rw [hnone, length_marksFrom, length_marksFrom, nonBlank_cons ha] at hlength
    cases hlength
  · rw [hafter] at hmarks hw
    exact ⟨c₁, segments₁, b₁, d, u, hcuts, hhits, hafter, hd, hmarks, hw⟩

/-- Of two stretches that a text begins with and that end with a mark neither goes on behind the
other without a visible character. -/
theorem eq_of_size_eq {u u' w : Text} (hu : u <+: w) (hu' : u' <+: w) (hsize : size u = size u')
    (hends : endsMarked false u = true) (hends' : endsMarked false u' = true) : u = u' := by
  -- What goes on and ends with a mark has one visible character more.
  have hlonger : ∀ v x : Text, size v = size (v ++ x) → endsMarked false (v ++ x) = true →
      x = [] := by
    intro v x hsize hends
    rw [size_append] at hsize
    rcases List.eq_nil_or_concat x with rfl | ⟨y, a, rfl⟩
    · rfl
    · rw [List.concat_eq_append] at hsize hends
      rw [← List.append_assoc, endsMarked_append] at hends
      have hblank : isBlank a = false := by
        rw [← Bool.not_eq_true]
        intro hblank
        rw [endsMarked, endsMarked, isMark_of_isBlank hblank] at hends
        cases hends
      rw [size_append, size_cons hblank] at hsize
      omega
  rcases List.prefix_or_prefix_of_prefix hu hu' with ⟨x, rfl⟩ | ⟨x, rfl⟩
  · rw [hlonger u x hsize hends', List.append_nil]
  · rw [hlonger u' x hsize.symm hends, List.append_nil]

/-- A text without a line feed in front of one, or at the end, is the line. -/
theorem takeWhile_line {u r : Text} (hu : '\n' ∉ u) (hr : r.head?.all (· == '\n') = true) :
    (u ++ r).takeWhile (· != '\n') = u := by
  have hline : ∀ a ∈ u, (a != '\n') = true := by
    intro a ha
    rw [bne_iff_ne]
    exact fun h => hu (h ▸ ha)
  rw [List.takeWhile_append_of_pos hline]
  cases r with
  | nil => rw [List.takeWhile_nil, List.append_nil]
  | cons a r =>
    have ha : a = '\n' := by simpa using hr
    rw [ha, List.takeWhile_cons_of_neg (by decide), List.append_nil]

/-- A literal of one text that stands at its place in the other is the literal that begins
there. -/
theorem eq_of_stands {z u u' w : Text} {n : Nat} (hplace : fromVisible n z = w)
    (hu' : literal? w = some u')
    (h : size u = size u' ∧ endsMarked false u = true ∧ endsMarked false u' = true ∨
        u.head? = some '-' ∧ '\n' ∉ u ∧ u' = w.takeWhile (· != '\n'))
    (hstands : Stands z n u) : u = u' := by
  obtain ⟨r, hr, hcomment⟩ := hstands
  rw [hplace] at hr
  rcases h with ⟨hsize, hends, hends'⟩ | ⟨hhead, hfeed, rfl⟩
  · exact eq_of_size_eq ⟨r, hr.symm⟩ (isLiteral_of_literal? hu').begins hsize hends hends'
  · rw [hr, takeWhile_line hfeed (hcomment hhead)]

/-- A literal that is found at a visible character stands there. -/
theorem stands_of_literal? {z u w : Text} {n : Nat} (hplace : fromVisible n z = w)
    (hu : literal? w = some u) : Stands z n u := by
  have hliteral := isLiteral_of_literal? hu
  obtain ⟨r, rfl⟩ := hliteral.begins
  refine ⟨r, hplace, fun hhead => ?_⟩
  rcases hliteral.ends with ⟨hne, -⟩ | hend
  · exact absurd hhead hne
  · rwa [List.drop_left] at hend

/-- A character that is passed is no match. -/
theorem hitsOf_pass (a : Char) (g : Text) (rest : List Segment) :
    hitsOf (.gap (a :: g) :: rest) = hitsOf (.gap g :: rest) := rfl

/-- A match is the first of the matches. -/
theorem hitsOf_hit (m : Match) (rest : List Segment) :
    hitsOf (.gap [] :: .hit m :: rest) = m :: hitsOf rest := rfl

/-- What is carried along both walks: whatever the rest of the second text is, if it has the same
marks and stands at the same place, then the literals from here on are the same exactly if each one
of the first text stands at its place in the second, which is `z`. -/
def InStep (z : Text) (c : Cursor) (segments : List Segment) : Prop :=
  ∀ {b b' : Bool} {c' : Cursor} {segments' : List Segment}, Cuts literals c' segments' →
    marksFrom b c.after = marksFrom b' c'.after →
    fromVisible (size c.before) z = fromVisible 0 c'.after →
    ((hitsOf segments').map Match.text = (hitsOf segments).map Match.text ↔
      ∀ m ∈ hitsOf segments, Stands z (place m) m.text)

namespace InStep

variable {z : Text} {c₂ : Cursor} {a : Char} {g : Text} {m : Match} {rest : List Segment}

/-- At the end of the first text nothing visible is left of the second one. -/
theorem stop (hend : c.after = []) : InStep z c [.gap []] := by
  intro b b' c' segments' h' hmarks hplace
  obtain ⟨c₁, segments₁, b₁, hcuts, hhits, hmarks, -, hnone | ⟨d, w, hafter, hblank⟩⟩ :=
    exists_cuts_of_blanks h' hmarks hplace
  · rw [← hhits, hitsOf_of_end hcuts hnone]
    simp [hitsOf]
  · have hlength := congrArg List.length hmarks
    rw [hend, hafter, length_marksFrom, length_marksFrom, nonBlank_cons hblank] at hlength
    cases hlength

/-- White space in the first text has no counterpart. -/
theorem pass_blank (hread : c.Reads [a] c₂) (hblank : isBlank a = true)
    (ih : InStep z c₂ (.gap g :: rest)) : InStep z c (.gap (a :: g) :: rest) := by
  intro b b' c' segments' h' hmarks hplace
  have hafter : c.after = a :: c₂.after := hread.after_eq
  have hbefore : c₂.before = a :: c.before := hread.before_eq
  rw [hafter] at hmarks
  refine ih h' ((marksFrom_blank hblank b c₂.after).symm.trans hmarks) ?_
  rw [hbefore, size_cons_blank hblank, hplace]

/-- A visible character at which no literal begins has one for its counterpart. -/
theorem pass_visible (hread : c.Reads [a] c₂) (hnone : literals.matchAt? c = none)
    (hblank : isBlank a = false) (ih : InStep z c₂ (.gap g :: rest)) :
    InStep z c (.gap (a :: g) :: rest) := by
  intro b b' c' segments' h' hmarks hplace
  have hafter : c.after = a :: c₂.after := hread.after_eq
  have hbefore : c₂.before = a :: c.before := hread.before_eq
  rw [hafter] at hmarks
  obtain ⟨c₁, segments₁, b₁, d, w, hcuts, hhits, hafter₁, hd, hmarks, hw⟩ :=
    exists_cuts_of_visible h' hblank hmarks hplace
  rw [hitsOf_pass, ← hhits]
  cases hcuts with
  | stop hend =>
    rw [hend] at hafter₁
    cases hafter₁
  | @pass _ c₃ _ g₃ rest₃ hread₃ hnone₃ hrest₃ =>
    have hafter₃ := hread₃.after_eq
    rw [hafter₁] at hafter₃
    obtain ⟨rfl, rfl⟩ := List.cons.inj hafter₃
    rw [hitsOf_pass]
    refine ih hrest₃ (marksFrom_cons_inj hblank hd hmarks).2 ?_
    rw [hbefore, size_cons hblank, ← fromVisible_fromVisible, hw, fromVisible_succ hd]
    rfl
  | hit hmatch₃ hrest₃ =>
    -- By its marks the literal would begin in the first text as well.
    have hnone' := matchAt?_eq_none hnone
    obtain ⟨hliteral, -, -⟩ := matchAt?_eq_some hmatch₃
    rw [hafter₁] at hliteral
    obtain ⟨u', hu', -⟩ := exists_literal? hblank hmarks.symm hliteral
    rw [← hafter, hnone'] at hu'
    cases hu'

/-- Behind the same literal both walks go on, with the same marks and at the same place. -/
theorem hit_same {m' : Match} {c₁ : Cursor} {b b' : Bool} {rest' : List Segment}
    (hreads : c.Reads m.text m.stop) (hreads' : c₁.Reads m'.text m'.stop)
    (hmarks : marksFrom b c.after = marksFrom b' c₁.after)
    (hw : fromVisible (size c.before) z = c₁.after) (hrest' : Cuts literals m'.stop rest')
    (ih : InStep z m.stop rest) (hsame : m.text = m'.text) :
    (hitsOf rest').map Match.text = (hitsOf rest).map Match.text ↔
      ∀ m ∈ hitsOf rest, Stands z (place m) m.text := by
  rw [hreads'.after_eq, hreads.after_eq] at hmarks
  refine ih hrest' (marksFrom_behind (congrArg size hsame) hmarks) ?_
  rw [hreads.before_eq, size_append, size_reverse, Nat.add_comm, ← fromVisible_fromVisible, hw,
    hreads'.after_eq, hsame, fromVisible_append]

/-- A literal has one for its counterpart, which is the same exactly if the first one stands there
too. -/
theorem hit (hmatch : literals.matchAt? c = some m) (ih : InStep z m.stop rest) :
    InStep z c (.gap [] :: .hit m :: rest) := by
  intro b b' c' segments' h' hmarks hplace
  obtain ⟨hliteral, hreads, hstart⟩ := matchAt?_eq_some hmatch
  obtain ⟨a, t, hafter⟩ : ∃ a t, c.after = a :: t := by
    cases hafter : c.after with
    | nil =>
      rw [hafter] at hliteral
      cases hliteral
    | cons a t => exact ⟨a, t, rfl⟩
  rw [hafter] at hliteral hmarks
  obtain ⟨c₁, segments₁, b₁, d, w, hcuts, hhits, hafter₁, hd, hmarks, hw⟩ :=
    exists_cuts_of_visible h' (isBlank_of_literal? hliteral) hmarks hplace
  obtain ⟨u', hu', hkind⟩ := exists_literal? hd hmarks hliteral
  rw [← hafter₁] at hu' hkind hmarks hw
  rw [hitsOf_hit, ← hhits]
  cases hcuts with
  | stop hend =>
    rw [hend] at hafter₁
    cases hafter₁
  | pass hread₃ hnone₃ hrest₃ =>
    rw [matchAt?_eq_none hnone₃] at hu'
    cases hu'
  | @hit _ m' rest₃ hmatch₃ hrest₃ =>
    obtain ⟨hliteral₃, hreads₃, -⟩ := matchAt?_eq_some hmatch₃
    obtain rfl : m'.text = u' := Option.some.inj (hliteral₃.symm.trans hu')
    have hplace' : fromVisible (place m) z = c₁.after := by rw [place, hstart, hw]
    rw [hitsOf_hit, List.map_cons, List.map_cons, List.forall_mem_cons]
    by_cases hsame : m.text = m'.text
    · rw [← hafter] at hmarks
      rw [← hsame, List.cons.injEq, hit_same hreads hreads₃ hmarks hw hrest₃ ih hsame]
      constructor
      · rintro ⟨-, hrest⟩
        exact ⟨stands_of_literal? hplace' (hsame ▸ hu'), hrest⟩
      · rintro ⟨-, hrest⟩
        exact ⟨rfl, hrest⟩
    · constructor
      · intro h
        exact absurd (List.cons.inj h).1.symm hsame
      · -- A literal that stands where another one of its kind begins is that one.
        rintro ⟨hstands, -⟩
        exact absurd (eq_of_stands hplace' hu' hkind hstands) hsame

end InStep

/-- Texts with the same marks have the same literals exactly if each literal of the one stands at
its place in the other. -/
theorem inStep_of_cuts {z : Text} (h : Cuts literals c segments) : InStep z c segments := by
  -- The second walk goes on to the next visible character whenever the first one meets one.
  induction h with
  | stop hend => exact InStep.stop hend
  | @pass c c₂ a g rest hread hnone hrest ih =>
    cases hblank : isBlank a with
    | true => exact InStep.pass_blank hread hblank ih
    | false => exact InStep.pass_visible hread hnone hblank ih
  | hit hmatch hrest ih => exact InStep.hit hmatch ih

/-- The criterion, for whole texts. -/
theorem literals_eq_iff {t z : Text} (h : marksFrom false t = marksFrom false z) :
    (literals.hits z).map Match.text = (literals.hits t).map Match.text ↔
      ∀ m ∈ literals.hits t, Stands z (place m) m.text := by
  rw [← hitsOf_segments, ← hitsOf_segments]
  exact inStep_of_cuts (cuts_segments (isSolid_spec rfl) t)
    (cuts_segments (isSolid_spec rfl) z) h rfl

end CodeTidy.Sql
