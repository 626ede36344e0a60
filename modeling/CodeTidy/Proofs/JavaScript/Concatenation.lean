import CodeTidy.JavaScript.Template
import CodeTidy.Proofs.JavaScript.Name
import CodeTidy.Proofs.Text.Pieces
import Mathlib.Data.List.TakeDrop

/-!
# `CodeTidy.Proofs.JavaScript.Concatenation`: sums of names, strings and templates

A sum is a list of terms with plus signs between them. It is taken from the left:
two numbers are added, and anything else is put together as it is printed.
`evaluate` reads a sum off its text and takes it. The theorems:

* `operand?_text`: an operand is read off its text.
* `evaluate_textOf`: a sum that is read off its text has the value of its terms.
* `exists_of_isSum`, `exists_of_isGap`, `exists_cons_of_isWell`: how a sum, what stands
  between two operands, and an operand begin.
-/

set_option autoImplicit false

namespace CodeTidy.JavaScript

open Text

/-! ### Values -/

/-- Numbers, how they are added and how they are printed. -/
structure NumberSystem where
  Number : Type
  add : Number → Number → Number
  print : Number → Text
  zero : Number
  zero_add_zero : add zero zero = zero
  print_zero : print zero = ['0']

/-- A number or a string. -/
inductive Value (N : NumberSystem) where
  | number (x : N.Number)
  | string (s : Text)

namespace Value

variable {N : NumberSystem}

/-- The characters of a value. -/
def print : Value N → Text
  | number x => N.print x
  | string s => s

/-- The sum of two numbers; anything else is put together as it is printed. -/
def add : Value N → Value N → Value N
  | number x, number y => number (N.add x y)
  | v, w => string (v.print ++ w.print)

/-- The value is a string. -/
def isString : Value N → Bool
  | number _ => false
  | string _ => true

/-- As soon as one of two values is a string, they are put together as they are printed. -/
theorem add_of_isString {v w : Value N} (h : v.isString = true ∨ w.isString = true) :
    v.add w = string (v.print ++ w.print) := by
  cases v with
  | number x =>
    cases w with
    | number y => simp [isString] at h
    | string t => rfl
  | string s => rfl

/-- Behind a string, or in front of one, it does not matter what is put together first. -/
theorem add_add_of_isString {v w u : Value N} (h : v.isString = true ∨ w.isString = true) :
    (v.add w).add u = v.add (string (w.print ++ u.print)) := by
  rw [add_of_isString h, add_of_isString (.inl rfl), add_of_isString (.inr rfl)]
  simp [print]

end Value

/-- What the names stand for. -/
abbrev Env (N : NumberSystem) := Text → Value N

/-! ### Operands and terms -/

/-- A part of a template: a character, or a hole for what a name stands for. -/
inductive Piece where
  | char (a : Char)
  | hole (n : Text)
  deriving DecidableEq, Repr

/-- An operand of a sum: a name, a string and its quote, or a template. -/
inductive Operand where
  | name (n : Text)
  | str (quote : Char) (s : Text)
  | template (ps : List Piece)
  deriving DecidableEq, Repr

/-- The three kinds of operands. -/
inductive Kind where
  | name
  | quoted
  | template
  deriving DecidableEq, Repr

/-- An operand and what stands between it and the one before. -/
structure Term where
  gap : Text
  operand : Operand
  deriving DecidableEq, Repr

/-- A plus sign is the first thing to see in the text. -/
def beginsWithPlus (t : Text) : Bool := (t.dropWhile isBlank).head? == some '+'

/-- No plus sign is the first or the last thing to see in the text. -/
def isQuiet (t : Text) : Bool := !beginsWithPlus t && !beginsWithPlus t.reverse

namespace Piece

/-- The piece as it is written. -/
def text : Piece → Text
  | char a => [a]
  | hole n => JavaScript.hole n

/-- The piece can be read off its text. -/
def isWell : Piece → Bool
  | char a => isPlain a
  | hole n => isName n

/-- What the piece says. -/
def said {N : NumberSystem} (env : Env N) : Piece → Text
  | char a => [a]
  | hole n => (env n).print

end Piece

namespace Operand

/-- What an operand is. -/
def kind : Operand → Kind
  | name _ => .name
  | str _ _ => .quoted
  | template _ => .template

/-- The operand is a name. -/
def isVariable : Operand → Bool
  | name _ => true
  | _ => false

/-- The pieces that the operand gives to a template. -/
def pieces : Operand → List Piece
  | name n => [.hole n]
  | str _ s => s.map .char
  | template ps => ps

/-- The operand as it is written. -/
def text : Operand → Text
  | name n => n
  | str q s => q :: (s ++ [q])
  | template ps => '\x60' :: (ps.flatMap Piece.text ++ ['\x60'])

/-- The operand can be read off its text, and its quotes cannot be taken for those around a plus
sign. -/
def isWell : Operand → Bool
  | name n => isName n
  | str q s => CharSet.of "'\"" q && s.all isPlain && isQuiet s
  | template ps => ps.all Piece.isWell && isQuiet (ps.flatMap Piece.text)

/-- What an operand stands for. -/
def value {N : NumberSystem} (env : Env N) : Operand → Value N
  | name n => env n
  | str _ s => .string s
  | template ps => .string (ps.flatMap (Piece.said env))

end Operand

/-- White space around a plus sign. -/
def isGap (g : Text) : Bool := g.filter (fun a => !isBlank a) == ['+']

/-- The term is one behind a plus sign. -/
def Term.isWell (t : Term) : Bool := isGap t.gap && t.operand.isWell

/-- The text of some terms. -/
def textOf (ts : List Term) : Text := ts.flatMap (fun t => t.gap ++ t.operand.text)

/-- The terms make up a sum. -/
def isSum : List Term → Bool
  | [] => false
  | t :: ts => t.gap.isEmpty && t.operand.isWell && ts.all Term.isWell

/-! ### The value of a sum -/

section Values

variable {N : NumberSystem} (env : Env N)

/-- What becomes of a value when some operands are added to it. -/
def addAll (v : Value N) (os : List Operand) : Value N :=
  os.foldl (fun v o => v.add (o.value env)) v

/-- The value of a sum. -/
def value? : List Operand → Option (Value N)
  | [] => none
  | o :: os => some (addAll env (o.value env) os)

/-- The pieces of a template, with the name of the hole that is being read, reversed. -/
def piecesFrom : (hole : Option Text) → Text → Option (List Piece)
  | none, [] => some []
  | some _, [] => none
  | none, '$' :: '\x7b' :: r => piecesFrom (some []) r
  | none, a :: r => if isPlain a then (piecesFrom none r).map (.char a :: ·) else none
  | some n, a :: r =>
    if a == '\x7d' then
      if isName n.reverse then (piecesFrom none r).map (.hole n.reverse :: ·) else none
    else piecesFrom (some (a :: n)) r

/-- The operand that a text begins with, and what comes behind it. -/
def operand? : Text → Option (Operand × Text)
  | [] => none
  | a :: r =>
    if isNameStart a then some (.name (a :: r.takeWhile isNamePart), r.dropWhile isNamePart)
    else
      match cutAt? a r with
      | none => none
      | some (s, r') =>
        if CharSet.of "'\"" a && s.all isPlain then some (.str a s, r')
        else if a == '\x60' then (piecesFrom none s).map (fun ps => (.template ps, r'))
        else none

/-- The operands of a sum that is read off its text, `left` of them at most. -/
def operandsFrom : (left : Text) → Text → Option (List Operand)
  | [], _ => none
  | _ :: left, t =>
    match operand? t with
    | none => none
    | some (o, r) =>
      match r.dropWhile isBlank with
      | [] => some [o]
      | a :: r =>
        if a == '+' then (operandsFrom left (r.dropWhile isBlank)).map (o :: ·) else none

/-- The value of an expression that is a sum of names, strings and templates. -/
def evaluate (t : Text) : Option (Value N) := (operandsFrom t t).bind (value? env)

end Values

/-! ### What can be read off a text -/

/-- Between two operands stands a plus sign with white space around it. -/
theorem exists_of_isGap {g : Text} (h : isGap g = true) :
    ∃ b b', b.all isBlank = true ∧ b'.all isBlank = true ∧ g = b ++ '+' :: b' := by
  rw [isGap, beq_iff_eq, List.filter_eq_cons_iff] at h
  obtain ⟨b, b', rfl, hb, -, hb'⟩ := h
  rw [List.filter_eq_nil_iff] at hb'
  exact ⟨b, b', by simpa using hb, by simpa using hb', rfl⟩

/-- Two texts that begin with no plus sign begin with none in a row. -/
theorem beginsWithPlus_append {s t : Text} (hs : beginsWithPlus s = false)
    (ht : beginsWithPlus t = false) : beginsWithPlus (s ++ t) = false := by
  unfold beginsWithPlus at hs ht ⊢
  rw [List.dropWhile_append]
  split
  · exact ht
  · next hne =>
    cases hdrop : s.dropWhile isBlank with
    | nil =>
      rw [hdrop] at hne
      exact absurd rfl hne
    | cons a r =>
      rw [hdrop] at hs
      exact hs

/-- A character that stands for itself in a template is no dollar sign. -/
theorem ne_dollar_of_isPlain {a : Char} (h : isPlain a = true) : a ≠ '$' := by
  rintro rfl
  cases h

/-- A character that stands for itself is read as that. -/
theorem piecesFrom_plain {a : Char} (h : isPlain a = true) (r : Text) :
    piecesFrom none (a :: r) = (piecesFrom none r).map (.char a :: ·) := by
  rw [piecesFrom, if_pos h]
  rintro r' rfl -
  exact ne_dollar_of_isPlain h rfl

/-- A hole is read up to its end. -/
theorem piecesFrom_hole {n : Text} (hn : isName n = true) (r : Text) :
    piecesFrom none (hole n ++ r) = (piecesFrom none r).map (.hole n :: ·) := by
  have hread : ∀ w m : Text, '\x7d' ∉ w → isName (m.reverse ++ w) = true →
      piecesFrom (some m) (w ++ '\x7d' :: r) =
        (piecesFrom none r).map (.hole (m.reverse ++ w) :: ·) := by
    intro w
    -- The invariant: `m` is the part of the name that has been read, reversed.
    induction w with
    | nil =>
      intro m _ hm
      rw [List.append_nil] at hm
      simp [piecesFrom, hm]
    | cons a w ih =>
      intro m hw hm
      rw [List.mem_cons, not_or] at hw
      have ha : (a == '\x7d') = false := by simpa using fun h => hw.1 h.symm
      have hsplit : (a :: m).reverse ++ w = m.reverse ++ a :: w := by simp
      rw [List.cons_append, piecesFrom, ha, if_neg Bool.false_ne_true,
        ih (a :: m) hw.2 (hsplit ▸ hm), hsplit]
  have hclosing : '\x7d' ∉ n := Pattern.not_mem_of_all (all_isNamePart_of_isName hn) (by decide)
  have htext : hole n ++ r = '$' :: '\x7b' :: (n ++ '\x7d' :: r) := by simp [hole]
  rw [htext, piecesFrom, hread n [] hclosing hn]
  rfl

/-- The pieces of a template are read as they are written. -/
theorem piecesFrom_text {ps : List Piece} (h : ps.all Piece.isWell = true) :
    piecesFrom none (ps.flatMap Piece.text) = some ps := by
  induction ps with
  | nil => rfl
  | cons p ps ih =>
    rw [List.all_cons, Bool.and_eq_true] at h
    rw [List.flatMap_cons]
    cases p with
    | char a => rw [Piece.text, List.singleton_append, piecesFrom_plain h.1, ih h.2]; rfl
    | hole n => rw [Piece.text, piecesFrom_hole h.1, ih h.2]; rfl

/-- A template holds no quote of any kind. -/
theorem all_of_isWell {ps : List Piece} (h : ps.all Piece.isWell = true) :
    (ps.flatMap Piece.text).all (CharSet.except "'\"`") = true := by
  rw [List.all_flatMap]
  refine List.all_eq_true.mpr fun p hp => ?_
  have hwell := List.all_eq_true.mp h p hp
  cases p with
  | char a =>
    simp only [Piece.isWell, isPlain, CharSet.except] at hwell
    simp only [Piece.text, List.all_cons, List.all_nil, Bool.and_true, CharSet.except]
    simp_all
  | hole n =>
    have hn : n.all (CharSet.except "'\"`") = true := by
      refine List.all_eq_true.mpr fun a ha => ?_
      have hpart := List.all_eq_true.mp (all_isNamePart_of_isName hwell) a ha
      rw [CharSet.except, Bool.not_eq_true', Bool.eq_false_iff]
      intro hmem
      have hquote : a = '\'' ∨ a = '"' ∨ a = '\x60' := by simpa using hmem
      rcases hquote with rfl | rfl | rfl <;> cases hpart
    simp only [Piece.text, hole, List.all_append, hn]
    decide

/-- What stands between operands is no part of a name. -/
theorem isNamePart_of_isGapPart {a : Char} (h : isBlank a = true ∨ a = '+') :
    isNamePart a = false := by
  rcases h with h | rfl
  · exact isNamePart_of_isBlank h
  · rfl

/-- An operand is read off a text that goes on with white space or a plus sign. -/
theorem operand?_text {o : Operand} (h : o.isWell = true) {r : Text}
    (hr : r.head?.all (fun a => isBlank a || a == '+') = true) :
    operand? (o.text ++ r) = some (o, r) := by
  cases o with
  | name n =>
    obtain ⟨a, w, rfl, ha, hw⟩ := exists_cons_of_isName h
    have hpass : ∀ b ∈ w, isNamePart b = true := fun b hb => List.all_eq_true.mp hw b hb
    -- What follows does not go on with the name.
    have hstop : r.takeWhile isNamePart = [] ∧ r.dropWhile isNamePart = r := by
      cases r with
      | nil => exact ⟨rfl, rfl⟩
      | cons b r =>
        have hb : isNamePart b = false := isNamePart_of_isGapPart (by simpa using hr)
        simp [hb]
    rw [Operand.text, List.cons_append, operand?, if_pos ha, List.takeWhile_append_of_pos hpass,
      List.dropWhile_append_of_pos hpass, hstop.1, hstop.2, List.append_nil]
  | str q s =>
    simp only [Operand.isWell, Bool.and_eq_true] at h
    obtain ⟨⟨hq, hs⟩, -⟩ := h
    -- The quote tells a string from a name, and does not come inside of it.
    have hquote : q = '\'' ∨ q = '"' := by simpa [CharSet.of] using hq
    have hstart : isNameStart q = false := by rcases hquote with rfl | rfl <;> rfl
    have hmem : q ∉ s := Pattern.not_mem_of_all hs (by rcases hquote with rfl | rfl <;> rfl)
    rw [Operand.text, List.cons_append, List.append_assoc, List.singleton_append, operand?, hstart,
      if_neg Bool.false_ne_true, cutAt?_append hmem]
    dsimp only
    rw [hq, hs]
    rfl
  | template ps =>
    simp only [Operand.isWell, Bool.and_eq_true] at h
    have hmem : '\x60' ∉ ps.flatMap Piece.text :=
      Pattern.not_mem_of_all (all_of_isWell h.1) (by decide)
    have hstart : isNameStart '\x60' = false := rfl
    have hquote : CharSet.of "'\"" '\x60' = false := rfl
    rw [Operand.text, List.cons_append, List.append_assoc, List.singleton_append, operand?, hstart,
      if_neg Bool.false_ne_true, cutAt?_append hmem]
    dsimp only
    rw [hquote, piecesFrom_text h.1]
    rfl

/-- The first character of an operand can be seen and is no plus sign. -/
theorem exists_cons_of_isWell {o : Operand} (h : o.isWell = true) :
    ∃ a r, o.text = a :: r ∧ isBlank a = false ∧ a ≠ '+' := by
  cases o with
  | name n =>
    obtain ⟨a, w, rfl, ha, -⟩ := exists_cons_of_isName h
    refine ⟨a, w, rfl, isBlank_of_isNamePart (isNamePart_of_isNameStart ha), ?_⟩
    rintro rfl
    cases ha
  | str q s =>
    simp only [Operand.isWell, Bool.and_eq_true] at h
    have hquote : q = '\'' ∨ q = '"' := by simpa [CharSet.of] using h.1.1
    exact ⟨q, _, rfl, by rcases hquote with rfl | rfl <;> exact ⟨rfl, by decide⟩⟩
  | template ps => exact ⟨'\x60', _, rfl, rfl, by decide⟩

/-- White space in front of an operand is passed over. -/
theorem dropWhile_isBlank_append {b : Text} (hb : b.all isBlank = true) {o : Operand}
    (h : o.isWell = true) (r : Text) : (b ++ (o.text ++ r)).dropWhile isBlank = o.text ++ r := by
  obtain ⟨a, w, htext, ha, -⟩ := exists_cons_of_isWell h
  rw [List.dropWhile_append_of_pos (List.all_eq_true.mp hb), htext, List.cons_append,
    List.dropWhile_cons_of_neg (by simp [ha])]

/-- The text of a term behind a plus sign. -/
theorem exists_of_isWell {t : Term} (h : t.isWell = true) : t.operand.isWell = true ∧
    ∃ b b', b.all isBlank = true ∧ b'.all isBlank = true ∧ t.gap = b ++ '+' :: b' := by
  rw [Term.isWell, Bool.and_eq_true] at h
  exact ⟨h.2, exists_of_isGap h.1⟩

/-- White space or a plus sign comes behind an operand. -/
theorem head?_textOf {ts : List Term} (h : ts.all Term.isWell = true) :
    (textOf ts).head?.all (fun a => isBlank a || a == '+') = true := by
  cases ts with
  | nil => rfl
  | cons t ts =>
    rw [List.all_cons, Bool.and_eq_true] at h
    obtain ⟨-, b, b', hb, -, hgap⟩ := exists_of_isWell h.1
    rw [textOf, List.flatMap_cons, hgap]
    cases b with
    | nil => rfl
    | cons a b =>
      rw [List.all_cons, Bool.and_eq_true] at hb
      simp [hb.1]

/-- The operands of a sum are read as they are written, if the bound is large enough. -/
theorem operandsFrom_textOf {left : Text} {o : Operand} {ts : List Term} (ho : o.isWell = true)
    (hts : ts.all Term.isWell = true) (hleft : ts.length < left.length) :
    operandsFrom left (o.text ++ textOf ts) = some (o :: ts.map Term.operand) := by
  induction ts generalizing left o with
  | nil =>
    cases left with
    | nil => cases hleft
    | cons a left =>
      rw [operandsFrom, operand?_text ho (head?_textOf hts)]
      rfl
  | cons t ts ih =>
    cases left with
    | nil => cases hleft
    | cons a left =>
      rw [operandsFrom, operand?_text ho (head?_textOf hts)]
      rw [List.all_cons, Bool.and_eq_true] at hts
      obtain ⟨ht, b, b', hb, hb', hgap⟩ := exists_of_isWell hts.1
      -- ts)) :: Behind the white space comes the plus sign, and the next operand behind that.
      have hplus : (textOf (t :: ts)).dropWhile isBlank =
          '+' :: (b' ++ (t.operand.text ++ textOf ts)) := by
        rw [textOf, List.flatMap_cons, hgap, List.append_assoc, List.append_assoc,
          List.dropWhile_append_of_pos (List.all_eq_true.mp hb)]
        rfl
      have hshort : ts.length < left.length := by simpa using hleft
      have hrest := ih ht hts.2 hshort
      simp only [hplus, beq_self_eq_true, if_true, dropWhile_isBlank_append hb' ht, hrest]
      rfl

/-- A sum has no more terms than characters, so its length bounds the reading. -/
theorem length_le_textOf {ts : List Term} (h : ts.all Term.isWell = true) :
    ts.length ≤ (textOf ts).length := by
  induction ts with
  | nil => exact Nat.le_refl 0
  | cons t ts ih =>
    rw [List.all_cons, Bool.and_eq_true] at h
    obtain ⟨a, r, htext, -, -⟩ := exists_cons_of_isWell (exists_of_isWell h.1).1
    have hrest := ih h.2
    rw [textOf, List.flatMap_cons, ← textOf, htext]
    simp only [List.length_cons, List.length_append]
    omega

/-- A sum and its first term. -/
theorem exists_of_isSum {ts : List Term} (h : isSum ts = true) :
    ∃ o ts', ts = ⟨[], o⟩ :: ts' ∧ o.isWell = true ∧ ts'.all Term.isWell = true := by
  cases ts with
  | nil => cases h
  | cons t ts =>
    simp only [isSum, Bool.and_eq_true, List.isEmpty_iff] at h
    obtain ⟨⟨hgap, ho⟩, hts⟩ := h
    exact ⟨t.operand, ts, by rw [← hgap], ho, hts⟩

/-- A sum that is read off its text has the value of its terms. -/
theorem evaluate_textOf {N : NumberSystem} (env : Env N) {ts : List Term} (h : isSum ts = true) :
    evaluate env (textOf ts) = value? env (ts.map Term.operand) := by
  obtain ⟨o, ts, rfl, ho, hts⟩ := exists_of_isSum h
  obtain ⟨a, r, htext, -, -⟩ := exists_cons_of_isWell ho
  have hlength := length_le_textOf hts
  have hsplit : textOf (⟨[], o⟩ :: ts) = o.text ++ textOf ts := by simp [textOf]
  have hleft : ts.length < (o.text ++ textOf ts).length := by
    rw [htext, List.cons_append, List.length_cons, List.length_append]
    omega
  have hread := operandsFrom_textOf ho hts hleft
  rw [evaluate, hsplit, hread]
  rfl

end CodeTidy.JavaScript
