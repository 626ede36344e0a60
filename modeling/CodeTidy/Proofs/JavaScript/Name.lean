import CodeTidy.JavaScript.Basic
import CodeTidy.Proofs.Pattern.Spells

/-!
# `CodeTidy.Proofs.JavaScript.Name`: names in a text

The rules look for names by a pattern, and a pattern takes as much of a name as
it can. The theorems:

* `takes_name_iff`: the pattern passes over names.
* `run?_name_of_total`: in front of nothing that could fail it passes over a whole
  name.
* `isNamePart_of_isBlank`: white space is no part of a name.
-/

set_option autoImplicit false

namespace CodeTidy.JavaScript

open Pattern Text

/-- The text is a name. -/
def isName : Text → Bool
  | [] => false
  | a :: w => isNameStart a && w.all isNamePart

/-- White space is no part of a name. -/
theorem isNamePart_of_isBlank {a : Char} (h : isBlank a = true) : isNamePart a = false := by
  have hword := isWord_of_isBlank h
  have hdollar : a ≠ '$' := by
    rintro rfl
    cases h
  simpa [isNamePart, CharSet.or, hword, CharSet.of] using hdollar

/-- What a name begins with is a part of names. -/
theorem isNamePart_of_isNameStart {a : Char} (h : isNameStart a = true) : isNamePart a = true := by
  simp only [isNameStart, CharSet.or, CharSet.letter, CharSet.of, Bool.or_eq_true,
    List.contains_iff_mem] at h
  simp only [isNamePart, CharSet.or, CharSet.of, Bool.or_eq_true, List.contains_iff_mem]
  rcases h with h | h
  · -- Letters are in ASCII, where the parts of words are letters, digits and the underscore.
    left
    have hsmall : a.toNat < 128 := by
      have hcases : (a.isUpper || a.isLower) = true := h
      rw [Bool.or_eq_true] at hcases
      rw [Char.toNat]
      rcases hcases with h | h
      · have hbounds : a.val ≥ 'A'.val ∧ a.val ≤ 'Z'.val := of_decide_eq_true h
        exact Nat.lt_of_le_of_lt (UInt32.le_iff_toNat_le.mp hbounds.2) (by decide)
      · have hbounds : (decide (a.val ≥ 'a'.val) && decide (a.val ≤ 'z'.val)) = true := h
        rw [Bool.and_eq_true, decide_eq_true_eq, decide_eq_true_eq] at hbounds
        exact Nat.lt_of_le_of_lt (UInt32.le_iff_toNat_le.mp hbounds.2) (by decide)
    rw [isWord, if_pos hsmall, Char.isAlphanum, h]
    rfl
  · have hmem : a = '_' ∨ a = '$' := by simpa using h
    rcases hmem with rfl | rfl
    · exact .inl (by decide)
    · exact .inr (by decide)

/-- A part of a name is visible. -/
theorem isBlank_of_isNamePart {a : Char} (h : isNamePart a = true) : isBlank a = false := by
  rw [Bool.eq_false_iff]
  intro hblank
  rw [isNamePart_of_isBlank hblank] at h
  cases h

/-- A name and its first character. -/
theorem exists_cons_of_isName {n : Text} (h : isName n = true) :
    ∃ a w, n = a :: w ∧ isNameStart a = true ∧ w.all isNamePart = true := by
  cases n with
  | nil => cases h
  | cons a w =>
    rw [isName, Bool.and_eq_true] at h
    exact ⟨a, w, rfl, h.1, h.2⟩

/-- A name is made of parts of names. -/
theorem all_isNamePart_of_isName {n : Text} (h : isName n = true) : n.all isNamePart = true := by
  obtain ⟨a, w, rfl, ha, hw⟩ := exists_cons_of_isName h
  rw [List.all_cons, isNamePart_of_isNameStart ha, hw, Bool.and_self]

variable {c c' : Cursor} {caps caps' : Captures}

/-- The pattern takes the names, as long as it likes. -/
theorem takes_name_iff :
    Takes name c caps c' caps' ↔ ∃ n, isName n = true ∧ c.Reads n c' ∧ caps' = caps := by
  constructor
  · rintro ⟨c₁, caps₁, ⟨a, ha, hread, rfl⟩, w, hw, -, hreads, rfl⟩
    exact ⟨a :: w, by rw [isName, ha, hw, Bool.and_self], hread.cons hreads, rfl⟩
  · rintro ⟨n, hn, hreads, rfl⟩
    obtain ⟨a, w, rfl, ha, hw⟩ := exists_cons_of_isName hn
    obtain ⟨c₁, hread, hrest⟩ := Cursor.Reads.split (u := [a]) hreads
    exact ⟨c₁, caps', ⟨a, ha, hread, rfl⟩, w, hw, Nat.zero_le _, hrest, rfl⟩

/-- In front of nothing that could fail, the pattern passes over a whole name. -/
theorem run?_name_of_total {α : Type} {k : Cursor → Captures → Option α} {x : α}
    (hk : ∀ c', (k c' caps).isSome = true) (h : run? name c caps k = some x) :
    ∃ n c', isName n = true ∧ c.Reads n c' ∧ c'.precedes isNamePart = false ∧
      k c' caps = some x := by
  rw [show name = .both (.one isNameStart) (many isNamePart) from rfl, run?, run?] at h
  cases hnext : c.next? with
  | none =>
    rw [hnext] at h
    cases h
  | some pair =>
    obtain ⟨a, c₁⟩ := pair
    rw [hnext] at h
    dsimp only at h
    split at h
    · next ha =>
      have hread := Cursor.next?_eq_some_iff.mp hnext
      obtain ⟨w, c', hw, hreads, hend, hx⟩ := run?_many_of_total hk h
      refine ⟨a :: w, c', by rw [isName, ha, hw, Bool.and_self], hread.cons hreads, ?_, hx⟩
      -- The run ends where the text does, or in front of what is no part of a name.
      cases hafter : c'.after with
      | nil => rw [Cursor.precedes, hafter]; rfl
      | cons b r =>
        rw [hafter, List.head?_cons, Option.all_some, Bool.not_eq_true'] at hend
        rw [Cursor.precedes, hafter, List.head?_cons, Option.any_some, hend]
    · cases h

end CodeTidy.JavaScript
