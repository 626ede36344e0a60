import CodeTidy.Proofs.Python.Lexer
import CodeTidy.Proofs.Sql.Lexer
import CodeTidy.Text.Basic
import Mathlib.Data.List.TakeWhile

/-!
# `CodeTidy.Proofs.Literal.Reader`: the three grammars, read in one way

`LiteralGrammar.literal?` reads the literal that a text begins with. What is
known of all three grammars is gathered here, so that no proof behind it has to
tell them apart.

Few characters open or close a string or comment, or change what the next one
means. All others are inert: where a stretch of them takes the place of another
one, strings and comments stay as they are, as long as neither stretch is empty.
For an empty one would bring together what stands around it, and with it a
backslash and a quote or the marks of a comment. `Swapped` relates two such
texts. The theorems:

* `Swapped.of_cons`, `Swapped.isPrefixOf_eq`: the other characters stay where they are.
* `Swapped.isSome_rest`: a reader that passes inert characters comes to an end in both
  texts, or in none.
* `matchAt?_eq`: a literal is matched at a place if and only if it is read there.
* `begins`, `ends`: a literal begins with a character that is not inert. It ends with
  one as well or, if it is a comment, where its line ends.
* `isSome_literal?`: where inert stretches are swapped, a literal begins in both texts
  or in none.
* `literal?_append`: a literal stays the same if what stands behind it is swapped.
-/

set_option autoImplicit false

namespace CodeTidy

/-! ### Stretches that mean nothing to strings and comments -/

/-- A character that has no meaning to any grammar of strings and comments. -/
def isInert (c : Char) : Bool := !"\"'`/*#-\\\n".toList.contains c

/-- Two texts that differ in stretches of inert characters only. -/
inductive Swapped : Text → Text → Prop where
  | nil : Swapped [] []
  | keep (a : Char) {t t' : Text} (h : Swapped t t') : Swapped (a :: t) (a :: t')
  | swap {u u' t t' : Text} (hu : u.all isInert = true) (hu' : u'.all isInert = true)
      (hne : u ≠ []) (hne' : u' ≠ []) (h : Swapped t t') : Swapped (u ++ t) (u' ++ t')

/-- A set that has none of the marks has only inert characters. -/
theorem isInert_of_set {set : Char → Bool}
    (hmarks : "\"'`/*#-\\\n".toList.all (fun b => !set b) = true) {a : Char} (ha : set a = true) :
    isInert a = true := by
  cases hinert : isInert a with
  | true => rfl
  | false =>
    rw [isInert, Bool.not_eq_false', List.contains_iff_mem] at hinert
    have hnot := List.all_eq_true.mp hmarks a hinert
    rw [ha] at hnot
    cases hnot

/-- A text over a set without the marks of strings and comments is inert. -/
theorem all_isInert_of_set {set : Char → Bool}
    (hmarks : "\"'`/*#-\\\n".toList.all (fun b => !set b) = true) {t : Text}
    (ht : t.all set = true) : t.all isInert = true :=
  List.all_eq_true.mpr fun a ha => isInert_of_set hmarks (List.all_eq_true.mp ht a ha)

/-- An inert character is none that has a meaning. -/
theorem ne_of_isInert {a b : Char} (ha : isInert a = true) (hb : isInert b = false) : a ≠ b := by
  rintro rfl
  rw [ha] at hb
  cases hb

namespace Swapped

variable {t t' : Text}

/-- A text differs from itself in nothing. -/
theorem refl (t : Text) : Swapped t t := by
  induction t with
  | nil => exact .nil
  | cons a t ih => exact .keep a ih

/-- The two texts may change places. -/
theorem symm (h : Swapped t t') : Swapped t' t := by
  induction h with
  | nil => exact .nil
  | keep a _ ih => exact .keep a ih
  | swap hu hu' hne hne' _ ih => exact .swap hu' hu hne' hne ih

/-- The same front keeps two texts alike. -/
theorem append_left (u : Text) (h : Swapped t t') : Swapped (u ++ t) (u ++ t') := by
  induction u with
  | nil => exact h
  | cons a u ih => exact .keep a ih

/-- A character that is not inert stays where it is. -/
theorem of_cons {a : Char} (h : Swapped (a :: t) t') (ha : isInert a = false) :
    ∃ t₁, t' = a :: t₁ ∧ Swapped t t₁ := by
  generalize hx : a :: t = x at h
  cases h with
  | nil => cases hx
  | keep b h =>
    obtain ⟨rfl, rfl⟩ := List.cons.inj hx
    exact ⟨_, rfl, h⟩
  | @swap u _ _ _ hu _ hne =>
    obtain ⟨b, u, rfl⟩ := List.exists_cons_of_ne_nil hne
    obtain ⟨rfl, -⟩ := List.cons.inj hx
    rw [List.all_cons, Bool.and_eq_true] at hu
    exact absurd rfl (ne_of_isInert hu.1 ha)

/-- No stretch is swapped for nothing, so only the empty text is like the empty one. -/
theorem of_nil (h : Swapped [] t') : t' = [] := by
  generalize hx : ([] : Text) = x at h
  cases h with
  | nil => rfl
  | keep => cases hx
  | swap _ _ hne => exact absurd (List.append_eq_nil_iff.mp hx.symm).1 hne

/-- The two texts hold the same characters that are not inert. -/
theorem mem_of {a : Char} (h : Swapped t t') (ha : isInert a = false) (hmem : a ∈ t) : a ∈ t' := by
  induction h with
  | nil => cases hmem
  | keep b _ ih =>
    rcases List.mem_cons.mp hmem with rfl | hmem
    · exact List.mem_cons_self
    · exact List.mem_cons_of_mem b (ih hmem)
  | swap hu _ _ _ _ ih =>
    rcases List.mem_append.mp hmem with hin | hmem
    · exact absurd rfl (ne_of_isInert (List.all_eq_true.mp hu a hin) ha)
    · exact List.mem_append_right _ (ih hmem)

/-- A start without inert characters is kept. -/
theorem isPrefixOf_of (h : Swapped t t') {w : Text} (hw : w.any isInert = false)
    (hstart : w.isPrefixOf t = true) : w.isPrefixOf t' = true := by
  induction w generalizing t t' with
  | nil => rfl
  | cons b w ih =>
    rw [List.any_cons, Bool.or_eq_false_iff] at hw
    cases t with
    | nil => cases hstart
    | cons a t =>
      rw [List.isPrefixOf_cons_cons, Bool.and_eq_true, beq_iff_eq] at hstart
      obtain ⟨rfl, hstart⟩ := hstart
      obtain ⟨t₁, rfl, h'⟩ := h.of_cons hw.1
      rw [List.isPrefixOf_cons_cons, beq_self_eq_true, Bool.true_and]
      exact ih h' hw.2 hstart

/-- What is not inert stands at the start of both texts, or of none. -/
theorem isPrefixOf_eq (h : Swapped t t') {w : Text} (hw : w.any isInert = false) :
    w.isPrefixOf t = w.isPrefixOf t' :=
  Bool.eq_iff_iff.mpr ⟨h.isPrefixOf_of hw, h.symm.isPrefixOf_of hw⟩

/-- A character with a meaning is the first of both texts or of neither. -/
theorem head?_beq_eq (h : Swapped t t') {b : Char} (hb : isInert b = false) :
    (t.head? == some b) = (t'.head? == some b) := by
  have hhead {t : Text} : (t.head? == some b) = [b].isPrefixOf t := by
    cases t with
    | nil => rfl
    | cons a t =>
      rw [List.isPrefixOf_cons_cons, List.isPrefixOf_nil_left, Bool.and_true, Bool.beq_comm]
      rfl
  rw [hhead, hhead]
  exact h.isPrefixOf_eq (by rw [List.any_cons, hb]; rfl)

/-- A reader that passes inert characters comes to an end in both texts, or in none. -/
theorem isSome_rest (rest? : Bool → Text → Option Text)
    (hinert : ∀ isEscaped a r, isInert a = true →
      (rest? isEscaped (a :: r)).isSome = (rest? false r).isSome)
    (hkeep : ∀ isEscaped a t t', Swapped t t' →
      (∀ isEscaped, (rest? isEscaped t).isSome = (rest? isEscaped t').isSome) →
      (rest? isEscaped (a :: t)).isSome = (rest? isEscaped (a :: t')).isSome)
    (h : Swapped t t') (isEscaped : Bool) :
    (rest? isEscaped t).isSome = (rest? isEscaped t').isSome := by
  -- A stretch that is swapped is passed over as a whole, and behind it nothing is escaped.
  have hstretch {u : Text} (hu : u.all isInert = true) (hne : u ≠ [])
      (isEscaped : Bool) (r : Text) :
      (rest? isEscaped (u ++ r)).isSome = (rest? false r).isSome := by
    induction u generalizing isEscaped with
    | nil => exact absurd rfl hne
    | cons a u ih =>
      rw [List.all_cons, Bool.and_eq_true] at hu
      rw [List.cons_append, hinert isEscaped a _ hu.1]
      by_cases hu' : u = []
      · rw [hu', List.nil_append]
      · exact ih hu.2 hu' false
  induction h generalizing isEscaped with
  | nil => rfl
  | keep a h ih => exact hkeep isEscaped a _ _ h ih
  | swap hu hu' hne hne' _ ih =>
    rw [hstretch hu hne, hstretch hu' hne']
    exact ih false

end Swapped

/-- Where the first text goes on with a new line, so does the second. -/
theorem Swapped.head?_all {t t' : Text} (h : Swapped t t')
    (ht : t.head?.all (· == '\n') = true) : t'.head?.all (· == '\n') = true := by
  cases t with
  | nil =>
    rw [h.of_nil]
    rfl
  | cons a t =>
    obtain rfl : a = '\n' := by simpa using ht
    obtain ⟨r, rfl, -⟩ := h.of_cons rfl
    rfl

open Pattern

/-- Behind the rest of a line the text ends, or a line feed comes. -/
theorem head?_behind_line {s r : Text} (h : s.takeWhile (· != '\n') ++ r = s) :
    r.head?.all (· == '\n') = true := by
  have hend := Text.head?_drop_line s
  generalize s.takeWhile (· != '\n') = w at hend h
  subst h
  rwa [List.drop_left] at hend

/-! ### Strings and comments of programs -/

namespace Generic

section Strings

variable {stops : Text} {quote : Char} (hstops : stops.any isInert = false)
  (hquote : isInert quote = false)

include hstops hquote

/-- An inert character neither closes a string nor stops it, and takes an escape with it. -/
theorem isSome_quotedRest?_inert (isEscaped : Bool) (a : Char) (r : Text) (ha : isInert a = true) :
    (quotedRest? stops quote isEscaped (a :: r)).isSome =
      (quotedRest? stops quote false r).isSome := by
  cases isEscaped with
  | true => rw [quotedRest?, Option.isSome_map]
  | false =>
    have hplain : a ∉ stops := fun hmem =>
      absurd ha (List.any_eq_false.mp hstops a hmem)
    rw [quotedRest?_plain (ne_of_isInert ha rfl) (ne_of_isInert ha hquote) hplain,
      Option.isSome_map]

/-- Strings with inert stretches swapped are closed alike. -/
theorem isSome_quotedRest? {t t' : Text} (h : Swapped t t') (isEscaped : Bool) :
    (quotedRest? stops quote isEscaped t).isSome =
      (quotedRest? stops quote isEscaped t').isSome := by
  refine h.isSome_rest (quotedRest? stops quote) (isSome_quotedRest?_inert hstops hquote)
    (fun isEscaped a t t' _ ih => ?_) isEscaped
  -- A kept character does the same in both texts: it escapes, closes, stops or goes on.
  cases isEscaped with
  | true => rw [quotedRest?, quotedRest?, Option.isSome_map, Option.isSome_map, ih]
  | false =>
    rw [quotedRest?, quotedRest?]
    split
    · rw [Option.isSome_map, Option.isSome_map, ih]
    · split
      · rfl
      · split
        · rfl
        · rw [Option.isSome_map, Option.isSome_map, ih]

end Strings

/-- Where a string ends does not depend on what stands behind it. -/
theorem quotedRest?_append {stops : Text} {quote : Char} {isEscaped : Bool} {u r : Text}
    (h : quotedRest? stops quote isEscaped (u ++ r) = some u) (r' : Text) :
    quotedRest? stops quote isEscaped (u ++ r') = some u := by
  induction u generalizing isEscaped with
  | nil =>
    obtain ⟨-, v, hv⟩ := exists_of_quotedRest? h
    exact absurd hv.symm (by simp)
  | cons a u ih =>
    -- In all cases but the closing quote the string goes on behind the character.
    have hmore {isEscaped : Bool}
        (h : (quotedRest? stops quote isEscaped (u ++ r)).map (a :: ·) = some (a :: u)) :
        (quotedRest? stops quote isEscaped (u ++ r')).map (a :: ·) = some (a :: u) := by
      obtain ⟨w, hw, heq⟩ := Option.map_eq_some_iff.mp h
      obtain rfl := (List.cons.inj heq).2
      rw [ih hw]
      rfl
    rw [List.cons_append] at h ⊢
    cases isEscaped with
    | true => exact hmore h
    | false =>
      rw [quotedRest?] at h ⊢
      split at h
      · next hslash =>
        rw [if_pos hslash]
        exact hmore h
      · next hslash =>
        rw [if_neg hslash]
        split at h
        · next hclose =>
          rw [if_pos hclose]
          exact h
        · next hclose =>
          rw [if_neg hclose]
          split at h
          · cases h
          · next hstop =>
            rw [if_neg hstop]
            exact hmore h

/-- Block comments with inert stretches swapped are closed alike. -/
theorem isSome_blockRest? {t t' : Text} (h : Swapped t t') :
    (blockRest? t).isSome = (blockRest? t').isSome := by
  refine h.isSome_rest (fun _ => blockRest?) (fun _ a r ha => ?_) (fun _ a t t' h ih => ?_) false
  · rw [blockRest?, beq_false_of_ne (ne_of_isInert ha rfl), Bool.false_and,
      if_neg Bool.false_ne_true, Option.isSome_map]
  · rw [blockRest?, blockRest?, h.head?_beq_eq rfl]
    split
    · rfl
    · rw [Option.isSome_map, Option.isSome_map, ih false]

/-- Where a block comment ends does not depend on what stands behind it. -/
theorem blockRest?_append {u r : Text} (h : blockRest? (u ++ r) = some u) (r' : Text) :
    blockRest? (u ++ r') = some u := by
  induction u with
  | nil =>
    obtain ⟨-, v, hv⟩ := exists_of_blockRest? h
    exact absurd hv.symm (by simp)
  | cons a u ih =>
    rw [List.cons_append, blockRest?] at h ⊢
    -- A comment does not end with its first character, so that the next one is known.
    have hhead (hne : u ≠ []) : (u ++ r).head? = (u ++ r').head? := by
      obtain ⟨b, u, rfl⟩ := List.exists_cons_of_ne_nil hne
      rfl
    split at h
    · next hclose =>
      obtain ⟨rfl, rfl⟩ := List.cons.inj (Option.some.inj h)
      exact if_pos rfl
    · next hclose =>
      obtain ⟨w, hw, heq⟩ := Option.map_eq_some_iff.mp h
      obtain rfl := (List.cons.inj heq).2
      have hne : w ≠ [] := by
        obtain ⟨-, v, rfl⟩ := exists_of_blockRest? hw
        simp
      rw [hhead hne] at hclose
      rw [if_neg hclose, ih hw]
      rfl

/-- Neither the quotes nor what stops a string are inert. -/
theorem quotes_not_inert {quote : Char} {stops : Text} (h : (quote, stops) ∈ quotes) :
    stops.any isInert = false ∧ isInert quote = false := by
  have hquotes : ∀ q ∈ quotes, q.2.any isInert = false ∧ isInert q.1 = false := by decide
  exact hquotes _ h

/-- No string or comment begins with an inert character. -/
theorem literal?_inert {a : Char} (ha : isInert a = true) (r : Text) :
    literal? (a :: r) = none := by
  have hne {b : Char} (hb : isInert b = false) : (a == b) = false :=
    beq_false_of_ne (ne_of_isInert ha hb)
  simp [literal?, hne (b := '/') rfl, hne (b := '"') rfl, hne (b := '\'') rfl, hne (b := '`') rfl]

/-- A literal begins in both texts, or in none. -/
theorem isSome_literal? {a : Char} {t t' : Text} (h : Swapped t t') :
    (literal? (a :: t)).isSome = (literal? (a :: t')).isSome := by
  -- The second character of an opening mark is kept as well, with texts behind it that are alike.
  have htail {b : Char} (hb : isInert b = false) (hhead : (t.head? == some b) = true) :
      Swapped t.tail t'.tail := by
    cases t with
    | nil => cases hhead
    | cons c t =>
      obtain rfl : c = b := by simpa using hhead
      obtain ⟨t₁, rfl, h'⟩ := h.of_cons hb
      exact h'
  rw [literal?, literal?, h.head?_beq_eq rfl, h.head?_beq_eq rfl]
  split
  · next hblock =>
    rw [Bool.and_eq_true] at hblock
    rw [Option.isSome_map, Option.isSome_map]
    exact isSome_blockRest? (htail (b := '*') rfl ((h.head?_beq_eq rfl).trans hblock.2))
  · split
    · rfl
    · split
      · rw [Option.isSome_map, Option.isSome_map, isSome_quotedRest? (by decide) rfl h]
      · split
        · rw [Option.isSome_map, Option.isSome_map, isSome_quotedRest? (by decide) rfl h]
        · split
          · rw [Option.isSome_map, Option.isSome_map, isSome_quotedRest? (by decide) rfl h]
          · rfl

/-- A literal stays the same if what stands behind it is swapped. -/
theorem literal?_append {u r r' : Text} (h : literal? (u ++ r) = some u) (hr : Swapped r r') :
    literal? (u ++ r') = some u := by
  rw [literal?_eq_some_iff] at h ⊢
  generalize hx : u ++ r = x at h
  cases h with
  | block hrest =>
    obtain rfl := (List.cons.inj (List.cons.inj hx).2).2
    exact .block (blockRest?_append hrest r')
  | line s =>
    have hs := (List.cons.inj (List.cons.inj hx).2).2
    have hliteral := IsLiteral.line (s.takeWhile (· != '\n') ++ r')
    rwa [Text.firstLine_behind s (hr.head?_all (head?_behind_line hs))] at hliteral
  | string hquote hrest =>
    obtain rfl := (List.cons.inj hx).2
    exact .string hquote (quotedRest?_append hrest r')

end Generic

/-! ### Strings and comments of scripts -/

namespace Python

/-- Quotes are not inert. -/
theorem isInert_of_mem_quotes {quote : Char} (h : quote ∈ quotes) : isInert quote = false := by
  rw [quotes, List.mem_cons, List.mem_singleton] at h
  rcases h with rfl | rfl <;> rfl

/-- Nor are three of them. -/
theorem triple_not_inert {quote : Char} (h : isInert quote = false) :
    (triple quote).any isInert = false := by
  rw [triple, List.any_cons, List.any_cons, List.any_cons, h]
  rfl

/-- Triple-quoted strings with inert stretches swapped are closed alike. -/
theorem isSome_blockRest? {quote : Char} (hquote : isInert quote = false) {t t' : Text}
    (h : Swapped t t') (isEscaped : Bool) :
    (blockRest? quote isEscaped t).isSome = (blockRest? quote isEscaped t').isSome := by
  refine h.isSome_rest (blockRest? quote) (fun isEscaped a r ha => ?_)
    (fun isEscaped a t t' h ih => ?_) isEscaped
  · -- An inert character is no part of the closing quotes and no backslash.
    cases isEscaped with
    | true => rw [blockRest?, Option.isSome_map]
    | false =>
      rw [blockRest?, triple, List.isPrefixOf_cons_cons,
        beq_false_of_ne (Ne.symm (ne_of_isInert ha hquote)), Bool.false_and,
        if_neg Bool.false_ne_true, beq_false_of_ne (ne_of_isInert ha rfl), Option.isSome_map]
  · cases isEscaped with
    | true => rw [blockRest?, blockRest?, Option.isSome_map, Option.isSome_map, ih]
    | false =>
      rw [blockRest?, blockRest?, (Swapped.keep a h).isPrefixOf_eq (triple_not_inert hquote)]
      split
      · rfl
      · rw [Option.isSome_map, Option.isSome_map, ih]

/-- A start that is no longer than the text does not reach into what stands behind. -/
theorem isPrefixOf_append {w u : Text} (h : w.length ≤ u.length) (r : Text) :
    w.isPrefixOf (u ++ r) = w.isPrefixOf u := by
  induction w generalizing u with
  | nil => rfl
  | cons b w ih =>
    cases u with
    | nil => cases h
    | cons a u =>
      rw [List.cons_append, List.isPrefixOf_cons_cons, List.isPrefixOf_cons_cons,
        ih (Nat.le_of_succ_le_succ h)]

/-- Where a triple-quoted string ends does not depend on what stands behind it. -/
theorem blockRest?_append {quote : Char} {isEscaped : Bool} {u r : Text}
    (h : blockRest? quote isEscaped (u ++ r) = some u) (r' : Text) :
    blockRest? quote isEscaped (u ++ r') = some u := by
  induction u generalizing isEscaped with
  | nil =>
    obtain ⟨-, v, hv⟩ := exists_of_blockRest? h
    exact absurd hv.symm (by simp [triple])
  | cons a u ih =>
    have hmore {isEscaped : Bool}
        (h : (blockRest? quote isEscaped (u ++ r)).map (a :: ·) = some (a :: u)) :
        (blockRest? quote isEscaped (u ++ r')).map (a :: ·) = some (a :: u) ∧ 3 ≤ u.length := by
      obtain ⟨w, hw, heq⟩ := Option.map_eq_some_iff.mp h
      obtain rfl := (List.cons.inj heq).2
      obtain ⟨-, v, hv⟩ := exists_of_blockRest? hw
      refine ⟨by rw [ih hw]; rfl, ?_⟩
      rw [hv, List.length_append]
      exact Nat.le_add_left 3 v.length
    rw [List.cons_append] at h ⊢
    cases isEscaped with
    | true => exact (hmore h).1
    | false =>
      rw [blockRest?] at h ⊢
      split at h
      · obtain ⟨rfl, rfl⟩ := List.cons.inj (Option.some.inj h)
        exact if_pos (List.isPrefixOf_iff_prefix.mpr (List.prefix_append (triple quote) r'))
      · next hopen =>
        -- The string does not end within two characters, so the next three are known.
        obtain ⟨hrest, hlength⟩ := hmore h
        have hle : (triple quote).length ≤ (a :: u).length := Nat.le_succ_of_le hlength
        have hthree (r : Text) :
            (triple quote).isPrefixOf (a :: (u ++ r)) = (triple quote).isPrefixOf (a :: u) :=
          isPrefixOf_append hle r
        rw [hthree] at hopen ⊢
        rw [if_neg hopen]
        exact hrest

/-- Where a triple-quoted string begins, one begins with inert stretches swapped. -/
theorem isSome_block? {quote : Char} (hquote : isInert quote = false) {t t' : Text}
    (h : Swapped t t') : (block? quote t).isSome = (block? quote t').isSome := by
  rw [block?, block?, h.isPrefixOf_eq (triple_not_inert hquote)]
  split
  · next hopen =>
    obtain ⟨r', rfl⟩ := List.isPrefixOf_iff_prefix.mp hopen
    obtain ⟨t₁, rfl, h₁⟩ := h.symm.of_cons hquote
    obtain ⟨t₂, rfl, h₂⟩ := h₁.of_cons hquote
    obtain ⟨r, rfl, h₃⟩ := h₂.of_cons hquote
    rw [Option.isSome_map, Option.isSome_map]
    exact isSome_blockRest? hquote h₃.symm false
  · rfl

/-- Two of three quotes that are never closed are a string of their own, so it depends on the rest
of the line only whether a string begins. -/
theorem isSome_literal?_quote {quote : Char} (h : quote ∈ quotes) (r : Text) :
    (literal? (quote :: r)).isSome = (lineRest? quote r).isSome := by
  have hbranch : (quote == '"' || quote == '\'') = true := by simpa [quotes] using h
  have hslash : quote ≠ '\\' := fun heq => by
    rw [heq] at h
    cases of_decide_eq_false (p := '\\' ∈ quotes) rfl h
  rw [literal?, if_pos hbranch]
  cases hblock : block? quote (quote :: r) with
  | none => rw [Option.none_or, Option.isSome_map]
  | some u =>
    obtain ⟨r', w, hr, -⟩ := block?_eq_some_iff.mp hblock
    obtain rfl := (List.cons.inj hr).2
    show true = (lineRest? quote (quote :: quote :: r')).isSome
    rw [lineRest?, Generic.quotedRest?_quote hslash]
    rfl

/-- No string or comment begins with an inert character. -/
theorem literal?_inert {a : Char} (ha : isInert a = true) (r : Text) :
    literal? (a :: r) = none := by
  have hne {b : Char} (hb : isInert b = false) : (a == b) = false :=
    beq_false_of_ne (ne_of_isInert ha hb)
  simp [literal?, hne (b := '"') rfl, hne (b := '\'') rfl, hne (b := '#') rfl]

/-- A literal begins in both texts, or in none. -/
theorem isSome_literal? {a : Char} {t t' : Text} (h : Swapped t t') :
    (literal? (a :: t)).isSome = (literal? (a :: t')).isSome := by
  by_cases ha : a ∈ quotes
  · have hinert := isInert_of_mem_quotes ha
    have hstops : ([a, '\n'] : Text).any isInert = false := by
      rw [List.any_cons, hinert]
      rfl
    rw [isSome_literal?_quote ha, isSome_literal?_quote ha]
    exact Generic.isSome_quotedRest? hstops hinert h false
  · have hbranch : ¬(a == '"' || a == '\'') = true := by simpa [quotes] using ha
    rw [literal?, literal?, if_neg hbranch, if_neg hbranch]
    split <;> rfl

/-- What is a literal at the start of the text is found. -/
theorem literal?_of_isLiteral {t u : Text} (h : IsLiteral t u) : literal? t = some u := by
  have hbranch {quote : Char} (h : quote ∈ quotes) : (quote == '"' || quote == '\'') = true := by
    simpa [quotes] using h
  cases h with
  | @block quote r u hquote hrest =>
    have hblock : block? quote (triple quote ++ r) = some (triple quote ++ u) :=
      block?_eq_some_iff.mpr ⟨r, u, rfl, hrest, rfl⟩
    show (if _ then (block? quote (triple quote ++ r)).or _ else _) = _
    rw [if_pos (hbranch hquote), hblock]
    rfl
  | line hquote hblock hrest =>
    rw [literal?, if_pos (hbranch hquote), hblock, hrest]
    rfl
  | comment r => rfl

/-- A literal stays the same if what stands behind it is swapped. -/
theorem literal?_append {u r r' : Text} (h : literal? (u ++ r) = some u) (hr : Swapped r r') :
    literal? (u ++ r') = some u := by
  refine literal?_of_isLiteral ?_
  have h := isLiteral_of_literal? h
  generalize hx : u ++ r = x at h
  cases h with
  | @block quote s u hquote hrest =>
    obtain rfl : u ++ r = s := List.append_cancel_left ((List.append_assoc ..).symm.trans hx)
    rw [List.append_assoc]
    exact .block hquote (blockRest?_append hrest r')
  -- A plain string must not become a triple-quoted one by what comes behind it.
  | @line quote s u hquote hblock hrest =>
    obtain rfl := (List.cons.inj hx).2
    have hnone := isSome_block? (isInert_of_mem_quotes hquote) (hr.append_left (quote :: u))
    rw [show quote :: u ++ r = quote :: (u.append r) from rfl, hblock] at hnone
    exact .line hquote (Option.isNone_iff_eq_none.mp (by simpa using hnone.symm))
      (Generic.quotedRest?_append hrest r')
  | comment s =>
    have hs := (List.cons.inj hx).2
    have hliteral := IsLiteral.comment (s.takeWhile (· != '\n') ++ r')
    rwa [Text.firstLine_behind s (hr.head?_all (head?_behind_line hs))] at hliteral

end Python

/-! ### Strings and comments of queries -/

namespace Sql

/-- A string is closed exactly if a quote follows; a doubled quote goes on, but the second one of an
odd run closes it. -/
theorem isSome_stringRest? (t : Text) : (stringRest? t).isSome = decide ('\'' ∈ t) := by
  induction t using stringRest?.induct with
  | case1 => rfl
  | case2 r w hw ih => simp [stringRest?, hw]
  | case3 r hw ih => simp [stringRest?, hw]
  | case4 a r hr ha =>
    obtain rfl : a = '\'' := by simpa using ha
    rw [stringRest?_quote (fun r' => hr r' rfl)]
    simp
  | case5 a r hr ha w hw ih =>
    have hplain : a ≠ '\'' := by simpa using ha
    rw [hw] at ih
    rw [stringRest?_cons hplain, hw]
    simpa [Ne.symm hplain] using ih
  | case6 a r hr ha hw ih =>
    have hplain : a ≠ '\'' := by simpa using ha
    rw [hw] at ih
    rw [stringRest?_cons hplain, hw]
    simpa [Ne.symm hplain] using ih

/-- A quoted name is closed exactly if its quote follows. -/
theorem isSome_nameRest? (quote : Char) (t : Text) :
    (nameRest? quote t).isSome = decide (quote ∈ t) := by
  induction t with
  | nil => rfl
  | cons a t ih =>
    by_cases ha : a = quote
    · subst ha
      simp [nameRest?]
    · rw [nameRest?_cons ha, Option.isSome_map, ih]
      simp [Ne.symm ha]

/-- A character with a meaning is in both texts or in neither. -/
theorem decide_mem_eq {a : Char} (ha : isInert a = false) {t t' : Text} (h : Swapped t t') :
    decide (a ∈ t) = decide (a ∈ t') :=
  decide_eq_decide.mpr ⟨h.mem_of ha, h.symm.mem_of ha⟩

/-- What follows a string decides whether a quote in it is its last. -/
theorem stringRest?_append {u r r' : Text} (h : stringRest? (u ++ r) = some u) (hr : Swapped r r') :
    stringRest? (u ++ r') = some u := by
  -- A doubled quote takes two characters at once, so the induction is on the length.
  generalize hn : u.length = n
  induction n using Nat.strongRecOn generalizing u with
  | ind n ih =>
    obtain _ | ⟨a, u⟩ := u
    · obtain ⟨-, v, hv⟩ := stringRest?_spec h
      exact absurd hv.symm (by simp)
    rw [List.cons_append] at h ⊢
    by_cases ha : a = '\''
    · subst ha
      by_cases hdouble : ∃ s, u ++ r = '\'' :: s
      · obtain ⟨s, hs⟩ := hdouble
        rw [hs, stringRest?] at h
        cases hrest : stringRest? s with
        | some w =>
          rw [hrest] at h
          obtain rfl := (List.cons.inj (Option.some.inj h)).2
          obtain rfl := (List.cons.inj hs).2
          show stringRest? ('\'' :: '\'' :: (w ++ r')) = _
          have hlt : w.length < n := by
            rw [← hn, List.length_cons, List.length_cons]
            omega
          rw [stringRest?, ih w.length hlt hrest rfl]
        | none =>
          -- The second quote opens no string that is closed, so the first one is the last.
          rw [hrest] at h
          obtain rfl := (List.cons.inj (Option.some.inj h)).2
          obtain rfl : r = '\'' :: s := hs
          obtain ⟨s', rfl, hs'⟩ := hr.of_cons rfl
          have hsame : (stringRest? s).isSome = (stringRest? s').isSome := by
            rw [isSome_stringRest?, isSome_stringRest?, decide_mem_eq rfl hs']
          have hnone : stringRest? s' = none := by simpa [hrest] using hsame
          rw [List.nil_append, stringRest?, hnone]
      · have hlone : ∀ s, u ++ r = '\'' :: s → False := fun s hs => hdouble ⟨s, hs⟩
        rw [stringRest?_quote hlone] at h
        obtain rfl := (List.cons.inj (Option.some.inj h)).2
        refine stringRest?_quote fun s hs => ?_
        obtain rfl : r' = '\'' :: s := hs
        obtain ⟨s', rfl, -⟩ := hr.symm.of_cons rfl
        exact hlone s' rfl
    · rw [stringRest?_cons ha] at h ⊢
      cases hrest : stringRest? (u ++ r) with
      | none =>
        rw [hrest] at h
        cases h
      | some w =>
        rw [hrest] at h
        obtain rfl := (List.cons.inj (Option.some.inj h)).2
        rw [ih w.length (by rw [← hn, List.length_cons]; omega) hrest rfl]

/-- Where a quoted name ends does not depend on what stands behind it. -/
theorem nameRest?_append {quote : Char} {u r : Text} (h : nameRest? quote (u ++ r) = some u)
    (r' : Text) : nameRest? quote (u ++ r') = some u := by
  rw [nameRest?_eq_some_iff] at h ⊢
  exact ⟨List.prefix_append u r', h.2⟩

/-- No literal begins with an inert character. -/
theorem literal?_inert {a : Char} (ha : isInert a = true) (r : Text) :
    literal? (a :: r) = none := by
  have hne {b : Char} (hb : isInert b = false) : (a == b) = false :=
    beq_false_of_ne (ne_of_isInert ha hb)
  simp [literal?, hne (b := '\'') rfl, hne (b := '"') rfl, hne (b := '`') rfl, hne (b := '-') rfl]

/-- A literal begins in both texts, or in none. -/
theorem isSome_literal? {a : Char} {t t' : Text} (h : Swapped t t') :
    (literal? (a :: t)).isSome = (literal? (a :: t')).isSome := by
  rw [literal?, literal?, h.head?_beq_eq rfl]
  split
  · rw [Option.isSome_map, Option.isSome_map, isSome_stringRest?, isSome_stringRest?,
      decide_mem_eq rfl h]
  · split
    · rw [Option.isSome_map, Option.isSome_map, isSome_nameRest?, isSome_nameRest?,
        decide_mem_eq rfl h]
    · split
      · rw [Option.isSome_map, Option.isSome_map, isSome_nameRest?, isSome_nameRest?,
          decide_mem_eq rfl h]
      · split <;> rfl

/-- What is a literal at the start of the text is found. -/
theorem literal?_of_isLiteral {t u : Text} (h : IsLiteral t u) : literal? t = some u := by
  cases h with
  | string hrest => simp [literal?, hrest]
  | name hquote hrest => rcases hquote with rfl | rfl <;> simp [literal?, hrest]
  | comment r => simp [literal?]

/-- A literal stays the same if what stands behind it is swapped. -/
theorem literal?_append {u r r' : Text} (h : literal? (u ++ r) = some u) (hr : Swapped r r') :
    literal? (u ++ r') = some u := by
  refine literal?_of_isLiteral ?_
  have h := isLiteral_of_literal? h
  generalize hx : u ++ r = x at h
  cases h with
  | string hrest =>
    obtain rfl := (List.cons.inj hx).2
    exact .string (stringRest?_append hrest hr)
  | name hquote hrest =>
    obtain rfl := (List.cons.inj hx).2
    exact .name hquote (nameRest?_append hrest r')
  | comment s =>
    have hs := (List.cons.inj (List.cons.inj hx).2).2
    have hliteral := IsLiteral.comment (s.takeWhile (· != '\n') ++ r')
    rwa [Text.firstLine_behind s (hr.head?_all (head?_behind_line hs))] at hliteral

end Sql

/-! ### All grammars -/

namespace LiteralGrammar

/-- The literal that the text begins with. -/
def literal? : LiteralGrammar → Text → Option Text
  | .cStyle => Generic.literal?
  | .python => Python.literal?
  | .sql => Sql.literal?

variable {g : LiteralGrammar} {t t' u r r' : Text} {a : Char}

/-- The literal that the pattern matches at a cursor is the one that is read there. -/
theorem matchAt?_eq (g : LiteralGrammar) (c : Cursor) :
    g.pattern.matchAt? c = (g.literal? c.after).map (fun u => ⟨c, c.behind u, []⟩) := by
  cases g with
  | cStyle => exact Generic.matchAt?_literal c
  | python => exact Python.matchAt?_literal c
  | sql => exact Sql.matchAt?_literal c

/-- A literal is never empty, so the pattern matches nothing empty. -/
theorem isSolid_pattern (g : LiteralGrammar) : IsSolid g.pattern := by
  cases g <;> exact isSolid_spec rfl

/-- The literal is a start of the text. -/
theorem begins (h : g.literal? t = some u) : u <+: t := by
  cases g with
  | cStyle => exact (Generic.literal?_eq_some_iff.mp h).begins
  | python => exact (Python.isLiteral_of_literal? h).begins
  | sql => exact (Sql.isLiteral_of_literal? h).begins

/-- No literal begins with an inert character, whatever the grammar. -/
theorem literal?_inert (ha : isInert a = true) (r : Text) : g.literal? (a :: r) = none := by
  cases g with
  | cStyle => exact Generic.literal?_inert ha r
  | python => exact Python.literal?_inert ha r
  | sql => exact Sql.literal?_inert ha r

/-- A literal begins with a character that is not inert. -/
theorem exists_cons (h : g.literal? t = some u) : ∃ a w, u = a :: w ∧ isInert a = false := by
  cases u with
  | nil =>
    cases g with
    | cStyle => cases Generic.literal?_eq_some_iff.mp h
    | python =>
      generalize hx : ([] : Text) = x at h
      cases Python.isLiteral_of_literal? h <;> cases hx
    | sql => cases Sql.isLiteral_of_literal? h
  | cons a w =>
    refine ⟨a, w, rfl, ?_⟩
    obtain ⟨r, rfl⟩ := begins h
    rw [← Bool.not_eq_true]
    intro ha
    rw [List.cons_append, literal?_inert ha] at h
    cases h

/-- A literal ends with a character that is not inert or, if it is a comment, where its line
ends. -/
theorem ends (h : g.literal? (u ++ r) = some u) :
    (∃ v a, u = v ++ [a] ∧ isInert a = false) ∨ r.head?.all (· == '\n') = true := by
  -- Strings and block comments end with a mark of theirs, the other comments with their line.
  cases g with
  | cStyle =>
    have hends := (Generic.literal?_eq_some_iff.mp h).ends
    rw [List.drop_left] at hends
    refine hends.imp_left ?_
    rintro ⟨v, a, rfl, rfl | ⟨stops, hquote⟩⟩
    · exact ⟨v, '/', rfl, rfl⟩
    · exact ⟨v, a, rfl, (Generic.quotes_not_inert hquote).2⟩
  | python =>
    have hends := (Python.isLiteral_of_literal? h).ends
    rw [List.drop_left] at hends
    refine hends.imp_left ?_
    rintro ⟨v, a, rfl, hquote⟩
    exact ⟨v, a, rfl, Python.isInert_of_mem_quotes hquote⟩
  | sql =>
    have hliteral := Sql.isLiteral_of_literal? h
    generalize hx : u ++ r = x at hliteral
    cases hliteral with
    | string hrest =>
      obtain ⟨-, v, rfl⟩ := Sql.stringRest?_spec hrest
      exact .inl ⟨'\'' :: v, '\'', rfl, rfl⟩
    | @name quote _ u hquote hrest =>
      obtain ⟨-, v, -, rfl⟩ := Sql.nameRest?_eq_some_iff.mp hrest
      refine .inl ⟨quote :: v, quote, rfl, ?_⟩
      rcases hquote with rfl | rfl <;> rfl
    | comment s => exact .inr (head?_behind_line (List.cons.inj (List.cons.inj hx).2).2)

/-- What stands between the characters that are not inert does not run over the end of a literal. -/
theorem length_le_of_inert {v w x y : Text} (h : g.literal? (u ++ r) = some u) (hu : u = v ++ w)
    (hne : w ≠ []) (hx : x.all isInert = true) (hxy : w ++ r = x ++ y) : x.length ≤ w.length := by
  by_contra hlong
  obtain ⟨z, rfl⟩ : w <+: x :=
    List.prefix_of_prefix_length_le ⟨r, hxy⟩ (List.prefix_append x y) (by omega)
  rw [List.append_assoc] at hxy
  rw [List.all_append, Bool.and_eq_true] at hx
  rcases ends h with ⟨v', a, hlast, ha⟩ | hline
  · -- The last character of the literal is in the stretch.
    have hmem : a ∈ w := by
      have hsame := congrArg List.getLast? (hlast.symm.trans hu)
      rw [List.getLast?_concat, List.getLast?_append_of_ne_nil v hne] at hsame
      exact List.mem_of_getLast? hsame.symm
    exact absurd rfl (ne_of_isInert (List.all_eq_true.mp hx.1 a hmem) ha)
  · -- The line feed behind the comment is.
    cases z with
    | nil => simp at hlong
    | cons b z =>
      rw [List.append_cancel_left hxy, List.cons_append, List.head?_cons, Option.all_some,
        beq_iff_eq] at hline
      rw [List.all_cons, hline] at hx
      cases hx.2

/-- Where inert stretches are swapped, a literal begins in both texts or in none. -/
theorem literal?_eq_none (h : Swapped t t') (hnone : g.literal? (a :: t) = none) :
    g.literal? (a :: t') = none := by
  have hsame : (g.literal? (a :: t)).isSome = (g.literal? (a :: t')).isSome := by
    cases g with
    | cStyle => exact Generic.isSome_literal? h
    | python => exact Python.isSome_literal? h
    | sql => exact Sql.isSome_literal? h
  simpa [hnone] using hsame

/-- A literal stays the same if what stands behind it is swapped. -/
theorem literal?_append (h : g.literal? (u ++ r) = some u) (hr : Swapped r r') :
    g.literal? (u ++ r') = some u := by
  cases g with
  | cStyle => exact Generic.literal?_append h hr
  | python => exact Python.literal?_append h hr
  | sql => exact Sql.literal?_append h hr

end LiteralGrammar

end CodeTidy
