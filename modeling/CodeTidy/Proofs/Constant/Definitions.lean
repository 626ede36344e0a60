import CodeTidy.Proofs.Constant.Names
import CodeTidy.Proofs.Text.Gauge
import CodeTidy.Proofs.Text.LineStarts

/-!
# `CodeTidy.Proofs.Constant.Definitions`: lines that define constants

A line that defines a constant consists of few characters: those of names,
spaces and equals signs. A text that is put in the place of another makes no such
line if each line that starts in it, or that it stands in the middle of, holds
another character, is indented or has no equals sign. The theorems:

* `mayDefine_definition`: the lines that define constants.
* `keeps_line`, `keeps_lines`, `keeps_block`: replacements that make none.
-/

set_option autoImplicit false

namespace CodeTidy.Constant

open Text

/-- The line that defines the constant for a number. -/
def definition (n : Text) : Text := name n ++ " = " ++ n

/-- The characters that no line holds that defines a constant. -/
def isForeign (c : Char) : Bool := !(isNameChar c || c == ' ' || c == '=')

/-- What is known of a line that defines a constant. -/
structure MayDefine (l : Text) : Prop where
  plain : l.any isForeign = false
  equals : '=' ∈ l
  start : l.head?.all isBlank = false

/-- Small letters do not stand in a definition. -/
theorem isForeign_of_isLower {c : Char} (h : c.isLower = true) : isForeign c = true := by
  -- The letters are looked at one by one, as names may hold digits of other scripts.
  have hletters : ∀ k < 26, isForeign (Char.ofNat (97 + k)) = true := by decide
  have hbounds : (decide (c.val ≥ 'a'.val) && decide (c.val ≤ 'z'.val)) = true := h
  rw [Bool.and_eq_true, decide_eq_true_eq, decide_eq_true_eq] at hbounds
  have hrange : 97 ≤ c.toNat ∧ c.toNat ≤ 122 :=
    ⟨UInt32.le_iff_toNat_le.mp hbounds.1, UInt32.le_iff_toNat_le.mp hbounds.2⟩
  have hletter := hletters (c.toNat - 97) (by omega)
  rwa [Nat.add_sub_cancel' hrange.1, Char.ofNat_toNat] at hletter

/-- A text with a small letter is no definition. -/
theorem any_isForeign_of_isLower {t : Text} (h : t.any Char.isLower = true) :
    t.any isForeign = true := by
  obtain ⟨c, hc, hlower⟩ := List.any_eq_true.mp h
  exact List.any_eq_true.mpr ⟨c, hc, isForeign_of_isLower hlower⟩

/-- The characters of names stand in definitions. -/
theorem isForeign_of_isNameChar {c : Char} (h : isNameChar c = true) : isForeign c = false := by
  rw [isForeign, h]
  rfl

/-- The line that defines a constant is what is known of such lines: its name, the equals sign and
the number, all in plain characters. -/
theorem mayDefine_definition {n : Text} (h : IsNumber n) : MayDefine (definition n) where
  plain := by
    rw [List.any_eq_false]
    intro c hc
    rw [Bool.not_eq_true]
    simp only [definition, List.mem_append] at hc
    -- The character is one of the name, of the equals sign with its spaces, or of the number.
    rcases hc with (hc | hc) | hc
    · exact isForeign_of_isNameChar (isNameChar_of_mem_name h.all_isDecimal hc)
    · have hsigns : " = ".toList.all (fun c => !isForeign c) = true := by decide
      have hsign := List.all_eq_true.mp hsigns c hc
      rwa [Bool.not_eq_true'] at hsign
    · refine isForeign_of_isNameChar ?_
      rw [isNameChar, List.all_eq_true.mp h.all_isDecimal c hc, Bool.or_true]
  equals := by
    simp [definition]
  start := by
    obtain ⟨c, w, hname⟩ := List.exists_cons_of_ne_nil (name_ne_nil n)
    have hc : isNameChar c = true :=
      isNameChar_of_mem_name h.all_isDecimal (hname ▸ List.mem_cons_self)
    -- White space is no part of a word, and the name begins with one.
    have hword := isWord_of_isNameChar hc
    rw [definition, hname]
    show isBlank c = false
    rw [Bool.eq_false_iff]
    intro hblank
    rw [isWord_of_isBlank hblank] at hword
    cases hword

/-! ### Replacements that make no definitions -/

/-- A line that holds a foreign character defines nothing. -/
theorem MayDefine.not_holds {l part : Text} (h : MayDefine l) (hpart : part.any isForeign = true) :
    ¬part <:+: l := by
  intro hinfix
  obtain ⟨c, hc, hforeign⟩ := List.any_eq_true.mp hpart
  exact List.any_eq_false.mp h.plain c (List.IsInfix.subset hinfix hc) hforeign

/-- No line of the new text defines a constant that is not a line of the old text. -/
def KeepsDefinitions (t t' : Text) : Prop := ∀ l ∈ lines t', MayDefine l → l ∈ lines t

/-- A text keeps its own definitions. -/
theorem keepsDefinitions_refl (t : Text) : KeepsDefinitions t t := fun _ hl _ => hl

/-- Two steps that make up no definition make up none. -/
theorem KeepsDefinitions.trans {t t' t'' : Text} (h : KeepsDefinitions t t')
    (h' : KeepsDefinitions t' t'') : KeepsDefinitions t t'' :=
  fun l hl hdefine => h l (h' l hl hdefine) hdefine

section

variable {head u y : Text}

/-- The first line of what is put in holds a foreign character, so that only the lines that start
later are to be looked at. -/
theorem keeps_of_head {rest : Text} (hfeed : '\n' ∉ head) (hforeign : head.any isForeign = true)
    (hrest : ∀ l ∈ linesFrom false (rest ++ y), MayDefine l → l ∈ linesFrom false (u ++ y))
    (x : Text) : KeepsDefinitions (x ++ (u ++ y)) (x ++ ((head ++ rest) ++ y)) := by
  intro l hl hdefine
  obtain ⟨first, later, hlines⟩ := List.exists_cons_of_ne_nil (lines_ne_nil (rest ++ y))
  have hnew := lines_append_of_not_mem hfeed hlines
  rw [← List.append_assoc head] at hnew
  rcases mem_lines_append hnew hl with hall | hsuffix | hlater
  · exact hall _
  · -- The line ends with the first new one, which holds a foreign character.
    exact absurd ((List.prefix_append head first).isInfix.trans hsuffix.isInfix)
      (hdefine.not_holds hforeign)
  · have hmem : l ∈ linesFrom false (rest ++ y) := by
      rw [linesFrom, hlines]
      exact hlater
    have hold := linesFrom_false_subset (endsFresh true x) _ (hrest l hmem hdefine)
    exact linesFrom_append_subset true x _ hold

/-- One line with a foreign character. -/
theorem keeps_line (hfeed : '\n' ∉ head) (hforeign : head.any isForeign = true) (u y x : Text) :
    KeepsDefinitions (x ++ (u ++ y)) (x ++ (head ++ y)) := by
  have hrest : ∀ l ∈ linesFrom false ([] ++ y), MayDefine l → l ∈ linesFrom false (u ++ y) :=
    fun l hl _ => linesFrom_append_subset false u y (linesFrom_false_subset _ y hl)
  have hkeeps := keeps_of_head hfeed hforeign hrest x
  rwa [List.append_nil] at hkeeps

/-- Lines of which the first and the last hold a foreign character, and the others no equals
sign. -/
theorem keeps_lines {mid tail : Text} (hfeed : '\n' ∉ head) (hforeign : head.any isForeign = true)
    (hmid : '=' ∉ mid) (hfeed' : '\n' ∉ tail) (hforeign' : tail.any isForeign = true)
    (u y x : Text) : KeepsDefinitions (x ++ (u ++ y)) (x ++ ((head ++ (mid ++ tail)) ++ y)) := by
  -- By induction on the lines in the middle; none of them has an equals sign.
  have hlines : ∀ l ∈ lines (mid ++ (tail ++ y)), MayDefine l → l ∈ linesFrom false y := by
    obtain ⟨first, later, hy⟩ := List.exists_cons_of_ne_nil (lines_ne_nil y)
    have htail := lines_append_of_not_mem hfeed' hy
    induction mid using lines_induction with
    | one l hl =>
      intro l' hl' hdefine
      rw [lines_append_of_not_mem hl htail, List.mem_cons] at hl'
      rcases hl' with rfl | hl'
      · exact absurd ⟨l, first, by rw [List.append_assoc]⟩ (hdefine.not_holds hforeign')
      · rw [linesFrom, hy]
        exact hl'
    | more l r hl ih =>
      intro l' hl' hdefine
      rw [List.append_assoc, List.cons_append, lines_append hl, List.mem_cons] at hl'
      rw [List.mem_append, List.mem_cons, not_or, not_or] at hmid
      rcases hl' with rfl | hl'
      · exact absurd hdefine.equals hmid.1
      · exact ih hmid.2.2 l' hl' hdefine
  refine keeps_of_head hfeed hforeign (fun l hl hdefine => ?_) x
  rw [List.append_assoc] at hl
  have hy := hlines l (linesFrom_subset_lines false _ hl) hdefine
  exact linesFrom_append_subset false u y (linesFrom_false_subset _ y hy)

/-- A line with a foreign character, and lines that are indented behind it. -/
theorem keeps_block {block : Text} (hfeed : '\n' ∉ head) (hforeign : head.any isForeign = true)
    (hblock : isIndented true block = true)
    (hend : endsFresh true block = true → endsFresh false u = true) (y x : Text) :
    KeepsDefinitions (x ++ (u ++ y)) (x ++ ((head ++ '\n' :: block) ++ y)) := by
  refine keeps_of_head hfeed hforeign (fun l hl hdefine => ?_) x
  have hl : l ∈ linesFrom true (block ++ y) := hl
  rcases mem_linesFrom_indented hblock hl with hblank | hbehind
  · -- A definition is not indented.
    rw [hdefine.start] at hblank
    cases hblank
  · refine linesFrom_append_subset false u y ?_
    cases hfresh : endsFresh true block with
    | true =>
      rw [hfresh] at hbehind
      rwa [hend hfresh]
    | false =>
      rw [hfresh] at hbehind
      exact linesFrom_false_subset _ y hbehind

end

end CodeTidy.Constant
