import CodeTidy.Proofs.Constant.Substitute
import CodeTidy.Proofs.Literal.Scan

/-!
# `CodeTidy.Proofs.Constant.Numbers`: counting and naming numbers

Numbers are counted in the code of a text, in which its literals are blanked
out, and named in the text itself, outside its literals. A number depends on
the character in front of it and on the word that it begins, and literals begin
and end with characters that belong to no word, so both see the same numbers.
Names and numbers are made of inert characters, so that strings and comments
stay as they are where one takes the place of the other. The theorems:

* `number?_of_matchAt?`, `number?_of_matchAt?_eq_none`: where a number is matched.
* `numbersIn_oldText`: the numbers of a text, read off from its tokens.
* `numbersIn_eq_replaced`: what is counted is what is replaced.
* `mem_repeated_iff`: which numbers are repeated.
* `scans_renewed`: the tokens of the text with names are those of the old text, renewed.
* `literals_rename`: the literals of a text stay as they are.
* `numbersIn_substitute`: the numbers that are left.
-/

set_option autoImplicit false

namespace CodeTidy.Constant

open Pattern Text

/-! ### Where a number stands -/

/-- The number that the text begins with, if it does not stand behind a part of a word. -/
def number? (behind : Bool) (t : Text) : Option Text :=
  let w := t.takeWhile isPart
  if !behind && (w.all isDecimal && decide (3 ≤ w.length)) then some w else none

/-- A number is found where the word or decimal that begins is a number as a whole. -/
theorem number?_eq_some_iff {behind : Bool} {t n : Text} :
    number? behind t = some n ↔ behind = false ∧ IsNumber n ∧ t.takeWhile isPart = n := by
  rw [number?]
  constructor
  · intro h
    split at h
    · next hnumber =>
      cases h
      rw [Bool.and_eq_true, Bool.and_eq_true, Bool.not_eq_true', decide_eq_true_eq] at hnumber
      exact ⟨hnumber.1, ⟨hnumber.2.1, hnumber.2.2⟩, rfl⟩
    · cases h
  · rintro ⟨rfl, hn, rfl⟩
    rw [if_pos]
    rw [hn.all_isDecimal, decide_eq_true hn.length]
    rfl

/-- Whether a number begins is said by the word or decimal at the start. -/
theorem number?_congr {t t' : Text} (h : t.takeWhile isPart = t'.takeWhile isPart)
    (behind : Bool) : number? behind t = number? behind t' := by
  rw [number?, number?, h]

/-- Behind a part of a word no number begins. -/
theorem number?_true (t : Text) : number? true t = none := rfl

/-- No number begins with anything but a digit. -/
theorem number?_cons {a : Char} (ha : isDecimal a = false) (behind : Bool) (t : Text) :
    number? behind (a :: t) = none := by
  rw [Option.eq_none_iff_forall_ne_some]
  intro n hn
  obtain ⟨-, hnumber, heq⟩ := number?_eq_some_iff.mp hn
  rw [List.takeWhile_cons] at heq
  split at heq
  · have hdigits := hnumber.all_isDecimal
    rw [← heq, List.all_cons, ha] at hdigits
    cases hdigits
  · exact hnumber.ne_nil heq.symm

/-- Digits are parts of words. -/
theorem isPart_of_isDecimal {a : Char} (h : isDecimal a = true) : isPart a = true :=
  isPart_of_isNameChar (isNameChar_of_isDecimal h)

/-- Behind a number the word or decimal may go on. -/
theorem takeWhile_append_of_number {n : Text} (h : IsNumber n) (r : Text) :
    (n ++ r).takeWhile isPart = n ++ r.takeWhile isPart :=
  List.takeWhile_append_of_pos fun a ha =>
    isPart_of_isDecimal (List.all_eq_true.mp h.all_isDecimal a ha)

/-- No word or decimal begins exactly if its first character is no part of one. -/
theorem takeWhile_eq_nil_iff {r : Text} :
    r.takeWhile isPart = [] ↔ r.head?.any isPart = false := by
  cases r with
  | nil => exact iff_of_true rfl rfl
  | cons a r =>
    rw [List.takeWhile_cons, List.head?_cons, Option.any_some]
    cases isPart a with
    | true => exact iff_of_false (List.cons_ne_nil _ _) (by decide)
    | false => exact iff_of_true rfl rfl

/-- What the pattern matches is the number that begins there. -/
theorem number?_of_matchAt? {c : Cursor} {m : Match} (h : number.matchAt? c = some m) :
    number? (c.follows isPart) c.after = some m.text := by
  obtain ⟨-, hn, hreads, hfollows, hprecedes⟩ := spec_of_matchAt? h
  refine number?_eq_some_iff.mpr ⟨hfollows, hn, ?_⟩
  rw [hreads.after_eq, takeWhile_append_of_number hn, takeWhile_eq_nil_iff.mpr hprecedes,
    List.append_nil]

/-- Where the pattern does not match, no number begins. -/
theorem number?_of_matchAt?_eq_none {c : Cursor} (h : number.matchAt? c = none) :
    number? (c.follows isPart) c.after = none := by
  rw [Option.eq_none_iff_forall_ne_some]
  intro n hn
  obtain ⟨hfollows, hnumber, heq⟩ := number?_eq_some_iff.mp hn
  have hreads : c.Reads n (c.behind n) :=
    Cursor.reads_behind (heq ▸ List.takeWhile_prefix isPart)
  refine matchAt?_ne_none hnumber hreads hfollows ?_ h
  rw [Cursor.precedes, Cursor.behind, ← heq, drop_takeWhile]
  exact head?_dropWhile_any isPart c.after

/-! ### Inert characters -/

/-- The characters of words and decimals mean nothing to strings and comments. -/
theorem isInert_of_isPart {a : Char} (h : isPart a = true) : isInert a = true :=
  isInert_of_set (by decide) h

/-- The same for a stretch. -/
theorem all_isInert_of_all_isPart {t : Text} (h : t.all isPart = true) : t.all isInert = true :=
  all_isInert_of_set (by decide) h

/-- A number is made of characters of words. -/
theorem IsNumber.all_isPart {n : Text} (h : IsNumber n) : n.all isPart = true :=
  List.all_eq_true.mpr fun a ha => isPart_of_isDecimal (List.all_eq_true.mp h.all_isDecimal a ha)

/-- A name is made of characters of words. -/
theorem all_isPart_name {n : Text} (h : IsNumber n) : (name n).all isPart = true :=
  List.all_eq_true.mpr fun _ ha => isPart_of_isNameChar (isNameChar_of_mem_name h.all_isDecimal ha)

/-- Behind characters of words stands one. -/
theorem getLast?_any_isPart {t : Text} (h : t.all isPart = true) (hne : t ≠ []) :
    t.getLast?.any isPart = true := by
  rw [List.getLast?_eq_getLast_of_ne_nil hne, Option.any_some]
  exact List.all_eq_true.mp h _ (List.getLast_mem hne)

/-! ### Tokens -/

/-- The scanner for numbers, which are kept or get their names. -/
def numberScanner (g : LiteralGrammar) : Scanner where
  grammar := g
  isBehind := isPart
  IsFree behind t := number? behind t = none
  IsHit behind old new r := number? behind (old ++ r) = some old ∧ (new = old ∨ new = name old)

/-- No literal begins in characters of words. -/
theorem literal?_append_of_all_isPart {g : LiteralGrammar} {u r w : Text}
    (hu : u.all isPart = true) (hw : w <:+ u) (hne : w ≠ []) : g.literal? (w ++ r) = none := by
  obtain ⟨a, w, rfl⟩ := List.exists_cons_of_ne_nil hne
  exact LiteralGrammar.literal?_inert
    (isInert_of_isPart (List.all_eq_true.mp hu a (hw.subset List.mem_cons_self))) _

/-- Numbers are what their scanner says, whether they stay or get their names: neither means
anything to strings and comments, and a name is taken for a number nowhere. -/
theorem fits_numberScanner (g : LiteralGrammar) {f : Match → Text}
    (hf : ∀ m, f m = m.text ∨ f m = name m.text) : (numberScanner g).Fits number f where
  solid := isSolid_number
  free _ h := number?_of_matchAt?_eq_none h
  hit c m h := by
    obtain ⟨-, -, hreads, -⟩ := spec_of_matchAt? h
    have hnumber := number?_of_matchAt? h
    rw [hreads.after_eq] at hnumber
    exact ⟨hnumber, hf m⟩
  begins c m h w hw hne := by
    obtain ⟨-, hn, -⟩ := spec_of_matchAt? h
    exact literal?_append_of_all_isPart hn.all_isPart hw hne
  -- A number ends no literal: its characters mean nothing inside of one.
  ends c u v w d m hliteral hu hne hreads h := by
    obtain ⟨-, hn, hreads', -⟩ := spec_of_matchAt? h
    have hbehind : c.Reads u (c.behind u) := Cursor.reads_behind (LiteralGrammar.begins hliteral)
    have hafter := hreads.after_of_split hbehind hu
    rw [hbehind.after_eq] at hliteral
    exact LiteralGrammar.length_le_of_inert hliteral hu hne
      (all_isInert_of_all_isPart hn.all_isPart)
      (hafter.symm.trans hreads'.after_eq)

section

variable {g : LiteralGrammar} {behind : Bool} {ts : List Token}

/-- What is known of a number among the tokens. -/
theorem spec_of_isHit {old new r : Text} (h : (numberScanner g).IsHit behind old new r) :
    behind = false ∧ IsNumber old ∧ r.head?.any isPart = false ∧ (new = old ∨ new = name old) := by
  obtain ⟨hbehind, hn, heq⟩ := number?_eq_some_iff.mp h.1
  refine ⟨hbehind, hn, ?_, h.2⟩
  rw [takeWhile_append_of_number hn] at heq
  exact takeWhile_eq_nil_iff.mp (List.append_cancel_left (heq.trans (List.append_nil old).symm))

/-- No literal begins with a character of a word. -/
theorem not_isPart_of_literal {t u : Text} (h : g.literal? t = some u) :
    t.head?.any isPart = false := by
  obtain ⟨r, rfl⟩ := LiteralGrammar.begins h
  obtain ⟨a, w, rfl, ha⟩ := LiteralGrammar.exists_cons h
  rw [List.cons_append, List.head?_cons, Option.any_some, ← Bool.not_eq_true]
  exact fun hpart => absurd rfl (ne_of_isInert (isInert_of_isPart hpart) ha)

/-- The text and its code go on with the same part of a word. -/
theorem takeWhile_codeText (h : Scans (numberScanner g) behind ts) :
    (codeText ts).takeWhile isPart = (oldText ts).takeWhile isPart := by
  induction h with
  | stop => rfl
  | @plain behind a ts _ _ _ ih =>
    show (a :: codeText ts).takeWhile isPart = (a :: oldText ts).takeWhile isPart
    rw [List.takeWhile_cons, List.takeWhile_cons, ih]
  | @hit behind old new ts _ hhit _ ih =>
    obtain ⟨-, hn, -⟩ := spec_of_isHit hhit
    show (old ++ codeText ts).takeWhile isPart = (old ++ oldText ts).takeWhile isPart
    rw [takeWhile_append_of_number hn, takeWhile_append_of_number hn, ih]
  | @literal behind u ts hliteral _ ih =>
    show (' ' :: codeText ts).takeWhile isPart = (u ++ oldText ts).takeWhile isPart
    rw [takeWhile_eq_nil_iff.mpr (not_isPart_of_literal hliteral)]
    rfl

/-- Behind a part of a word the texts with numbers and with names go on with the same one. -/
theorem takeWhile_newText (h : Scans (numberScanner g) true ts) :
    (newText ts).takeWhile isPart = (oldText ts).takeWhile isPart := by
  generalize hb : true = b at h
  induction h with
  | stop => rfl
  | @plain behind a ts _ _ _ ih =>
    show (a :: newText ts).takeWhile isPart = (a :: oldText ts).takeWhile isPart
    rw [List.takeWhile_cons, List.takeWhile_cons]
    split
    · next ha => rw [ih ha.symm]
    · rfl
  -- No number begins behind a part of a word.
  | hit _ hhit =>
    obtain ⟨hfalse, -⟩ := spec_of_isHit hhit
    rw [hfalse] at hb
    cases hb
  | @literal behind u ts hliteral _ ih =>
    obtain ⟨a, w, rfl, -⟩ := LiteralGrammar.exists_cons hliteral
    have hold : (a :: w ++ oldText ts).head?.any isPart = false := not_isPart_of_literal hliteral
    have hnew : (a :: w ++ newText ts).head?.any isPart = false := hold
    show (a :: w ++ newText ts).takeWhile isPart = (a :: w ++ oldText ts).takeWhile isPart
    rw [takeWhile_eq_nil_iff.mpr hnew, takeWhile_eq_nil_iff.mpr hold]

/-! ### Counting -/

/-- A character at which no number begins is passed by itself. -/
theorem exists_cuts_behind {c : Cursor} {segments : List Segment} {a : Char} {r : Text}
    (hcuts : Cuts number c segments) (hafter : c.after = a :: r)
    (hnone : number? (c.follows isPart) (a :: r) = none) :
    ∃ segments', Cuts number (c.behind [a]) segments' ∧ (c.behind [a]).after = r ∧
      (c.behind [a]).follows isPart = isPart a ∧ hitsOf segments = hitsOf segments' := by
  have hreads : c.Reads [a] (c.behind [a]) := Cursor.reads_behind ⟨r, hafter.symm⟩
  obtain ⟨g, rest, rfl, hcuts'⟩ := hcuts.behind_gap hreads fun v w d hvw hw hd => by
    cases v with
    | cons b v => exact absurd (List.append_eq_nil_iff.mp (List.cons.inj hvw).2.symm).2 hw
    | nil =>
      rw [hd.unique (.refl c), Option.eq_none_iff_forall_ne_some]
      intro m hm
      have hsome := number?_of_matchAt? hm
      rw [hafter, hnone] at hsome
      cases hsome
  exact ⟨_, hcuts', Cursor.after_behind hafter, Cursor.Reads.follows (u := []) hreads isPart, rfl⟩

/-- A number with no part of a word around it is the match there, and the walk goes on behind it. -/
theorem exists_cuts_behind_number {c : Cursor} {segments : List Segment} {n r : Text}
    (hcuts : Cuts number c segments) (hafter : c.after = n ++ r) (hn : IsNumber n)
    (hfollows : c.follows isPart = false) (hr : r.takeWhile isPart = []) :
    ∃ m rest, segments = .gap [] :: .hit m :: rest ∧ m.text = n ∧
      Cuts number (c.behind n) rest := by
  have hreads : c.Reads n (c.behind n) := Cursor.reads_behind ⟨r, hafter.symm⟩
  have hprecedes : (c.behind n).precedes isPart = false := by
    rw [Cursor.precedes, Cursor.after_behind hafter, ← takeWhile_eq_nil_iff, hr]
  obtain ⟨m, hm⟩ := Option.ne_none_iff_exists'.mp (matchAt?_ne_none hn hreads hfollows hprecedes)
  have htext : m.text = n := by
    have hsome := number?_of_matchAt? hm
    rw [hfollows, hafter, number?_eq_some_iff, takeWhile_append_of_number hn, hr,
      List.append_nil] at hsome
    exact hsome.2.2.symm
  obtain ⟨rest, rfl, hrest⟩ := hcuts.of_match isSolid_number hm
  obtain ⟨-, -, hreads', -⟩ := spec_of_matchAt? hm
  rw [htext] at hreads'
  exact ⟨m, rest, rfl, htext, hreads.unique hreads' ▸ hrest⟩

/-- The space in the place of a literal is part of a word exactly if the last character of the
literal is one, unless the line ends there. -/
theorem isPart_behind_literal {u : Text} (hliteral : g.literal? (u ++ oldText ts) = some u) :
    isPart ' ' = u.getLast?.any isPart ∨ (oldText ts).head?.any isPart = false := by
  rcases LiteralGrammar.ends hliteral with ⟨v, a, rfl, ha⟩ | hline
  · left
    rw [List.getLast?_concat]
    show isPart ' ' = isPart a
    rw [Bool.eq_false_iff.mpr fun hpart =>
      absurd rfl (ne_of_isInert (isInert_of_isPart hpart) ha)]
    decide
  · right
    cases hold : (oldText ts).head? with
    | none => rfl
    | some b =>
      rw [hold, Option.all_some, beq_iff_eq] at hline
      rw [hline]
      decide

/-- The walk over the numbers in the code of a text meets those among the tokens. -/
theorem map_text_hitsOf (h : Scans (numberScanner g) behind ts) {c : Cursor}
    {segments : List Segment} (hcuts : Cuts number c segments) (hafter : c.after = codeText ts)
    (hbehind : c.follows isPart = behind ∨ (oldText ts).head?.any isPart = false) :
    (hitsOf segments).map Match.text = (hitsIn ts).map Prod.fst := by
  induction h generalizing c segments with
  | stop =>
    obtain rfl := hcuts.of_end isSolid_number hafter
    rfl
  | @plain behind a ts _ hfree hscans ih =>
    have hnone : number? (c.follows isPart) (a :: codeText ts) = none := by
      rcases hbehind with hbehind | hhead
      · rw [hbehind, ← hfree]
        refine number?_congr ?_ behind
        rw [List.takeWhile_cons, List.takeWhile_cons, takeWhile_codeText hscans]
      · have hhead : isPart a = false := hhead
        refine number?_cons ?_ _ _
        rw [← Bool.not_eq_true]
        intro ha
        rw [isPart_of_isDecimal ha] at hhead
        cases hhead
    obtain ⟨segments', hcuts', hafter', hfollows, hhits⟩ := exists_cuts_behind hcuts hafter hnone
    rw [hhits]
    exact ih hcuts' hafter' (.inl hfollows)
  | @hit behind old new ts _ hhit hscans ih =>
    have hafter : c.after = old ++ codeText ts := hafter
    obtain ⟨rfl, hn, hhead, -⟩ := spec_of_isHit hhit
    have hpart := hn.all_isPart
    obtain ⟨a, w, hcons⟩ := List.exists_cons_of_ne_nil hn.ne_nil
    have hfollows : c.follows isPart = false := by
      refine hbehind.resolve_right ?_
      show (old ++ oldText ts).head?.any isPart ≠ false
      rw [hcons, List.all_cons, Bool.and_eq_true] at hpart
      rw [hcons, List.cons_append, List.head?_cons, Option.any_some, hpart.1]
      decide
    -- The code goes on behind the number as the text does, so it is matched there too.
    have hrest : (codeText ts).takeWhile isPart = [] := by
      rw [takeWhile_codeText hscans]
      exact takeWhile_eq_nil_iff.mpr hhead
    obtain ⟨m, rest, rfl, htext, hcuts'⟩ :=
      exists_cuts_behind_number hcuts hafter hn hfollows hrest
    have hreads : c.Reads old (c.behind old) := Cursor.reads_behind ⟨_, hafter.symm⟩
    show m.text :: (hitsOf rest).map Match.text = old :: (hitsIn ts).map Prod.fst
    rw [htext, ih hcuts' (Cursor.after_behind hafter)
      (.inl (hreads.follows_getLast? hn.ne_nil isPart))]
  | @literal behind u ts hliteral hscans ih =>
    obtain ⟨segments', hcuts', hafter', hfollows, hhits⟩ :=
      exists_cuts_behind hcuts hafter (number?_cons rfl _ _)
    rw [hhits]
    refine ih hcuts' hafter' ?_
    rw [hfollows]
    exact isPart_behind_literal hliteral

/-- The numbers of a text are those among its tokens. -/
theorem numbersIn_oldText (h : Scans (numberScanner g) false ts) :
    numbersIn g (oldText ts) = (hitsIn ts).map Prod.fst := by
  have hcode : g.codeOnly (oldText ts) = codeText ts := h.codeOnly_eq
  rw [numbersIn, hcode, ← hitsOf_segments]
  exact map_text_hitsOf h (cuts_segments isSolid_number _) rfl (.inl rfl)

end

/-- The numbers of a text are the matches outside of its literals. -/
theorem map_text_hitsOutside (g : LiteralGrammar) (t : Text) :
    (g.hitsOutside number t).map Match.text = numbersIn g t := by
  obtain ⟨ts, hscans, hold, -, hin⟩ :=
    (fits_numberScanner g (f := Match.text) fun _ => .inl rfl).exists_scans t
  have hnumbers := numbersIn_oldText hscans
  rw [hold, hin, List.map_map] at hnumbers
  exact hnumbers.symm

/-- The numbers that are counted in a text are, in the same order, those that are replaced: the
text consists of them and of gaps, and a replacement writes the same gaps and what it makes of
each number. -/
theorem numbersIn_eq_replaced (g : LiteralGrammar) (t : Text) :
    numbersIn g t = (g.hitsOutside number t).map Match.text ∧
      ∃ gaps : List Text, gaps.length = (g.hitsOutside number t).length + 1 ∧
        ∀ f, g.replaceOutside number f t = interleave gaps ((g.hitsOutside number t).map f) :=
  ⟨(map_text_hitsOutside g t).symm, g.exists_gaps_replaceOutside number t⟩

/-- Which numbers are repeated. -/
theorem mem_repeated_iff {least : Nat} (hleast : 0 < least) {ns : List Text} {n : Text} :
    n ∈ repeated least ns ↔ n ∉ commonNumbers ∧ least ≤ ns.count n := by
  rw [repeated, List.mem_filter, List.mem_eraseDups, Bool.and_eq_true, decide_eq_true_eq,
    Bool.not_eq_true', ← Bool.not_eq_true, List.elem_iff]
  constructor
  · rintro ⟨-, hcount, hcommon⟩
    exact ⟨hcommon, hcount⟩
  · rintro ⟨hcommon, hcount⟩
    exact ⟨List.count_pos_iff.mp (Nat.lt_of_lt_of_le hleast hcount), hcount, hcommon⟩

/-! ### Naming -/

/-- What a token is in the new text: a number that is kept, or the characters of its name. -/
def renew : Token → List Token
  | .hit old new => if new = old then [.hit old old] else new.map .plain
  | x => [x]

/-- The tokens of the new text. -/
def renewed (ts : List Token) : List Token := ts.flatMap renew

/-- The tokens of the new text come one by one. -/
theorem renewed_cons (x : Token) (ts : List Token) :
    renewed (x :: ts) = renew x ++ renewed ts := rfl

/-- The new tokens make up the new text. -/
theorem oldText_renewed (ts : List Token) : oldText (renewed ts) = newText ts := by
  induction ts with
  | nil => rfl
  | cons x ts ih =>
    cases x with
    | hit old new =>
      rw [renewed_cons, renew]
      show _ = new ++ newText ts
      split
      · next hkept =>
        rw [hkept, ← ih]
        rfl
      · rw [oldText_plain, ih]
    | plain a => exact congrArg (a :: ·) ih
    | literal u => exact congrArg (u ++ ·) ih

/-- The new tokens have the same literals. -/
theorem literalsIn_renewed (ts : List Token) : literalsIn (renewed ts) = literalsIn ts := by
  induction ts with
  | nil => rfl
  | cons x ts ih =>
    cases x with
    | hit old new =>
      rw [renewed_cons, renew]
      split
      · exact ih
      · rw [literalsIn_plain]
        exact ih
    | plain a => exact ih
    | literal u => exact congrArg (u :: ·) ih

/-- The numbers that are left are those that are kept. -/
theorem hitsIn_renewed (ts : List Token) :
    hitsIn (renewed ts) = (hitsIn ts).filter (fun x => x.2 == x.1) := by
  induction ts with
  | nil => rfl
  | cons x ts ih =>
    cases x with
    | hit old new =>
      rw [renewed_cons, renew]
      show _ = ((old, new) :: hitsIn ts).filter _
      split
      · next hkept =>
        rw [List.filter_cons_of_pos (by simpa using hkept), hkept, ← ih]
        rfl
      · next hnamed =>
        rw [List.filter_cons_of_neg (by simpa using hnamed), hitsIn_plain, ih]
    | plain a => exact ih
    | literal u => exact ih

section

variable {g : LiteralGrammar} {behind : Bool} {ts : List Token}

/-- Numbers and their names take the places of each other. -/
theorem swapped_newText (h : Scans (numberScanner g) behind ts) :
    Swapped (oldText ts) (newText ts) := by
  induction h with
  | stop => exact .nil
  | @plain _ a _ _ _ _ ih => exact .keep a ih
  | @hit _ old new ts _ hhit _ ih =>
    obtain ⟨-, hn, -, hnew⟩ := spec_of_isHit hhit
    have hold := all_isInert_of_all_isPart hn.all_isPart
    rcases hnew with rfl | rfl
    · exact .swap hold hold hn.ne_nil hn.ne_nil ih
    · have hname := all_isInert_of_all_isPart (all_isPart_name hn)
      exact .swap hold hname hn.ne_nil (name_ne_nil old) ih
  | @literal _ u _ _ _ ih => exact ih.append_left u

/-- Behind a part of a word the characters of words are no tokens of their own. -/
theorem scans_plain {w : Text} (hw : w.all isPart = true) (h : Scans (numberScanner g) true ts) :
    Scans (numberScanner g) true (w.map .plain ++ ts) := by
  induction w with
  | nil => exact h
  | cons a w ih =>
    rw [List.all_cons, Bool.and_eq_true] at hw
    have hrest := ih hw.2
    rw [← hw.1] at hrest
    exact .plain (LiteralGrammar.literal?_inert (isInert_of_isPart hw.1) _) (number?_true _) hrest

/-- No number begins in a name. -/
theorem scans_name {n : Text} (hn : IsNumber n) (behind : Bool)
    (h : Scans (numberScanner g) true ts) :
    Scans (numberScanner g) behind ((name n).map .plain ++ ts) := by
  obtain ⟨a, w, hname, -, hdecimal⟩ := head_name n
  have hall := all_isPart_name hn
  rw [hname, List.all_cons, Bool.and_eq_true] at hall
  have hrest := scans_plain hall.2 h
  rw [← hall.1] at hrest
  rw [hname]
  exact .plain (LiteralGrammar.literal?_inert (isInert_of_isPart hall.1) _)
    (number?_cons hdecimal _ _) hrest

/-- The tokens of the text with names are those of the old text, renewed. -/
theorem scans_renewed (h : Scans (numberScanner g) behind ts) :
    Scans (numberScanner g) behind (renewed ts) := by
  induction h with
  | stop behind => exact .stop behind
  | @plain behind a ts hnone hfree hscans ih =>
    show Scans _ behind (.plain a :: renewed ts)
    refine .plain ?_ ?_ ih
    · rw [oldText_renewed]
      exact LiteralGrammar.literal?_eq_none (swapped_newText hscans) hnone
    · -- oldText :: What decides whether a number begins is the run of parts of words, and names
      -- keep it.
      show number? behind (a :: oldText (renewed ts)) = none
      rw [oldText_renewed, ← hfree]
      refine number?_congr ?_ behind
      rw [List.takeWhile_cons, List.takeWhile_cons]
      split
      · next ha =>
        have hscans : Scans (numberScanner g) (isPart a) ts := hscans
        rw [ha] at hscans
        rw [takeWhile_newText hscans]
      · rfl
  | @hit behind old new ts _ hhit hscans ih =>
    obtain ⟨hbehind, hn, hhead, hnew⟩ := spec_of_isHit hhit
    have hlast : old.getLast?.any isPart = true := getLast?_any_isPart hn.all_isPart hn.ne_nil
    have hscans : Scans (numberScanner g) (old.getLast?.any isPart) ts := hscans
    have ih : Scans (numberScanner g) (old.getLast?.any isPart) (renewed ts) := ih
    -- A number that stays is scanned as before, and a name is scanned character by character.
    rw [renewed_cons, renew]
    split
    · show Scans _ behind (.hit old old :: renewed ts)
      refine .hit (fun w hw hne => literal?_append_of_all_isPart hn.all_isPart hw hne)
        ⟨?_, .inl rfl⟩ ih
      rw [hlast] at hscans
      rw [oldText_renewed, number?_eq_some_iff, takeWhile_append_of_number hn,
        takeWhile_newText hscans, takeWhile_eq_nil_iff.mpr hhead, List.append_nil]
      exact ⟨hbehind, hn, rfl⟩
    · next hnamed =>
      rw [hnew.resolve_left hnamed]
      rw [hlast] at ih
      exact scans_name hn behind ih
  | @literal behind u ts hliteral hscans ih =>
    show Scans _ behind (.literal u :: renewed ts)
    refine .literal ?_ ih
    rw [oldText_renewed]
    exact LiteralGrammar.literal?_append hliteral (swapped_newText hscans)

end

/-- Names for some of the numbers outside literals leave the literals as they are. -/
theorem literals_rename (g : LiteralGrammar) (f : Match → Text)
    (hf : ∀ m, f m = m.text ∨ f m = name m.text) (t : Text) :
    (g.literals (g.replaceOutside number f t)).map Match.text = (g.literals t).map Match.text := by
  obtain ⟨ts, hscans, rfl, hnew, -⟩ := (fits_numberScanner g hf).exists_scans t
  have hold : (g.literals (oldText ts)).map Match.text = literalsIn ts := hscans.literals_eq
  have hrenewed : (g.literals (oldText (renewed ts))).map Match.text = literalsIn (renewed ts) :=
    (scans_renewed hscans).literals_eq
  have hnew : newText ts = g.replaceOutside number f (oldText ts) := hnew
  rw [← hnew, ← oldText_renewed, hrenewed, literalsIn_renewed, hold]

/-- The numbers that get names are gone from the text, and the others are left. -/
theorem numbersIn_substitute (g : LiteralGrammar) (ns : List Text) (t : Text) :
    numbersIn g (substitute g ns t) = (numbersIn g t).filter (fun n => !ns.elem n) := by
  have hf : ∀ m : Match, (if ns.elem m.text then name m.text else m.text) = m.text ∨
      (if ns.elem m.text then name m.text else m.text) = name m.text := by
    intro m
    split
    · exact .inr rfl
    · exact .inl rfl
  obtain ⟨ts, hscans, rfl, hnew, hin⟩ := (fits_numberScanner g hf).exists_scans t
  have hnew : newText ts = substitute g ns (oldText ts) := hnew
  rw [← hnew, ← oldText_renewed, numbersIn_oldText (scans_renewed hscans), hitsIn_renewed,
    ← map_text_hitsOutside, hin, List.filter_map, List.map_map, List.filter_map]
  refine congrArg (List.map _) (List.filter_congr fun m hm => ?_)
  have hn : IsNumber m.text := spec_of_mem_hits (List.mem_of_mem_filter hm)
  show ((if ns.elem m.text then name m.text else m.text) == m.text) = !ns.elem m.text
  cases ns.elem m.text with
  | true => exact beq_false_of_ne (name_ne hn m.text)
  | false => exact beq_self_eq_true m.text

end CodeTidy.Constant
