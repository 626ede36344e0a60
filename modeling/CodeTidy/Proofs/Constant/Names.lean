import CodeTidy.Constant
import CodeTidy.Proofs.Pattern.Rewrite
import CodeTidy.Proofs.Pattern.Shapes
import CodeTidy.Proofs.Text.Tables
import Mathlib.Data.List.Nodup

/-!
# `CodeTidy.Proofs.Constant.Names`: the names of constants

A number gets a name of its own, or one that ends with its digits. Two numbers
never share a name. The theorems:

* `name_cases`: the two kinds of names.
* `name_injective`: the number can be told from the name.
* `spec_of_mem_numbersIn`, `nodup_repeated`: what is known of the numbers that get a
  name.
* `isNameChar_of_mem_name`: the characters that names are spelled with.
-/

set_option autoImplicit false

namespace CodeTidy.Constant

open Pattern

/-- What the names without a meaning begin with. -/
def namePrefix : Text := "CONSTANT_"

/-- The numbers with a name of their own. -/
theorem mem_knownNames {n w : Text} (h : knownNames.lookup n = some w) : (n, w) ∈ knownNames := by
  obtain ⟨ms, ms', hsplit, -⟩ := List.lookup_eq_some_iff.mp h
  rw [hsplit]
  exact List.mem_append_right _ List.mem_cons_self

/-- A number has a name of its own, or one that ends with its digits. -/
theorem name_cases (n : Text) : (n, name n) ∈ knownNames ∨ name n = namePrefix ++ n := by
  cases h : knownNames.lookup n with
  | some w =>
    have hname : name n = w := by rw [name, h, Option.getD_some]
    exact .inl (hname ▸ mem_knownNames h)
  | none =>
    right
    rw [name, h, Option.getD_none]
    rfl

/-- Two numbers never share a name. -/
theorem name_injective {n n' : Text} (h : name n = name n') : n = n' := by
  have hknown : ∀ p ∈ knownNames, ¬namePrefix <+: p.2 := by decide
  have hdistinct : ∀ p ∈ knownNames, ∀ p' ∈ knownNames, p.2 = p'.2 → p.1 = p'.1 := by decide
  rcases name_cases n with hn | hn <;> rcases name_cases n' with hn' | hn'
  · exact hdistinct _ hn _ hn' h
  · exact absurd ⟨n', by rw [h, hn']⟩ (hknown _ hn)
  · exact absurd ⟨n, by rw [← h, hn]⟩ (hknown _ hn')
  · rw [hn, hn'] at h
    exact List.append_cancel_left h

/-! ### Numbers -/

/-- The digits of a number that may get a name. -/
structure IsNumber (n : Text) : Prop where
  all_isDecimal : n.all Text.isDecimal = true
  length : 3 ≤ n.length

/-- A number has a digit. -/
theorem IsNumber.ne_nil {n : Text} (h : IsNumber n) : n ≠ [] := by
  have hlength := h.length
  rintro rfl
  simp at hlength

/-- The pattern for numbers matches nothing empty. -/
theorem isSolid_number : IsSolid number := isSolid_spec rfl

/-- What a match of a number is: a whole run of digits. -/
theorem takes_number {c c' : Cursor} {caps caps' : Captures} (h : Takes number c caps c' caps') :
    ∃ n, IsNumber n ∧ c.Reads n c' ∧
      c.follows (CharSet.or Text.isWord (CharSet.of ".")) = false ∧
      c'.precedes (CharSet.or Text.isWord (CharSet.of ".")) = false := by
  obtain ⟨c₁, caps₁, ⟨hplace, rfl, rfl⟩, c₂, caps₂, ⟨n, hall, hlength, hreads, rfl⟩,
    rfl, -, hnot⟩ := h
  refine ⟨n, ⟨hall, hlength⟩, hreads, by simpa using hplace, ?_⟩
  -- The look ahead has failed, so the next character is no part of a number.
  obtain ⟨before, after, pos⟩ := c'
  cases after with
  | nil => rfl
  | cons a r =>
    cases hpart : CharSet.or Text.isWord (CharSet.of ".") a with
    | false => exact hpart
    | true =>
      rw [run?, Cursor.next?] at hnot
      dsimp only at hnot
      rw [if_pos hpart] at hnot
      cases hnot

/-- What the pattern matches is a number. -/
theorem spec_of_mem_hits {t : Text} {m : Match} (h : m ∈ number.hits t) : IsNumber m.text := by
  obtain ⟨v, hv⟩ := exists_matchesBehind_of_mem_hits isSolid_number h
  obtain ⟨n, hn, hreads, -⟩ := takes_number hv.takes
  rwa [Match.text_of_reads hreads]

/-- What is found outside of literals is a number. -/
theorem spec_of_mem_numbersIn {g : LiteralGrammar} {t n : Text} (h : n ∈ numbersIn g t) :
    IsNumber n := by
  obtain ⟨m, hm, rfl⟩ := List.mem_map.mp h
  exact spec_of_mem_hits hm

/-- A repeated number is one of the numbers. -/
theorem mem_of_mem_repeated {least : Nat} {ns : List Text} {n : Text} (h : n ∈ repeated least ns) :
    n ∈ ns :=
  List.mem_eraseDups.mp (List.mem_of_mem_filter h)

/-- Each element is listed once. -/
theorem nodup_eraseDups (ns : List Text) : ns.eraseDups.Nodup := by
  -- The recursion goes on with a filtered list, so the induction is on the length.
  generalize hk : ns.length = k
  induction k using Nat.strongRecOn generalizing ns with
  | ind k ih =>
    cases ns with
    | nil => exact List.nodup_nil
    | cons n ns =>
      have hlt : (ns.filter (fun b => !b == n)).length < k := by
        have hle := List.length_filter_le (fun b => !b == n) ns
        rw [List.length_cons] at hk
        omega
      rw [List.eraseDups_cons, List.nodup_cons]
      refine ⟨?_, ih _ hlt _ rfl⟩
      rw [List.mem_eraseDups, List.mem_filter]
      simp

/-- The repeated numbers are listed once each. -/
theorem nodup_repeated (least : Nat) (ns : List Text) : (repeated least ns).Nodup :=
  (nodup_eraseDups ns).filter _

/-- Different numbers have different names. -/
theorem nodup_map_name {ns : List Text} (h : ns.Nodup) : (ns.map name).Nodup :=
  h.map (fun _ _ h => name_injective h)

/-! ### The characters of names -/

/-- A character that names are spelled with: a capital, an underscore or a decimal digit. -/
def isNameChar (c : Char) : Bool := c.isUpper || c == '_' || Text.isDecimal c

/-- Names are spelled with capitals, underscores and decimal digits. -/
theorem isNameChar_of_mem_name {n : Text} (h : n.all Text.isDecimal = true) {c : Char}
    (hc : c ∈ name n) : isNameChar c = true := by
  have hknown : ∀ p ∈ knownNames, p.2.all isNameChar = true := by decide
  have hprefix : namePrefix.all isNameChar = true := by decide
  rcases name_cases n with hn | hn
  · exact List.all_eq_true.mp (hknown _ hn) c hc
  · rw [hn, List.mem_append] at hc
    rcases hc with hc | hc
    · exact List.all_eq_true.mp hprefix c hc
    · rw [isNameChar, List.all_eq_true.mp h c hc, Bool.or_true]

/-- The characters of names are word characters. -/
theorem isWord_of_isNameChar {c : Char} (h : isNameChar c = true) : Text.isWord c = true := by
  rw [isNameChar, Bool.or_eq_true, Bool.or_eq_true, beq_iff_eq] at h
  rcases h with (h | rfl) | h
  · have hbounds : c.val ≥ 'A'.val ∧ c.val ≤ 'Z'.val := of_decide_eq_true h
    have hrange : c.toNat ≤ 90 := UInt32.le_iff_toNat_le.mp hbounds.2
    have halpha : c.isAlpha = true := by
      show (c.isUpper || c.isLower) = true
      rw [h, Bool.true_or]
    rw [Text.isWord, if_pos (by omega), Char.isAlphanum, halpha]
    rfl
  · rfl
  · exact Text.isWord_of_isDecimal h

/-- A name is never empty. -/
theorem name_ne_nil (n : Text) : name n ≠ [] := by
  have hknown : ∀ p ∈ knownNames, p.2 ≠ [] := by decide
  rcases name_cases n with hn | hn
  · exact hknown _ hn
  · rw [hn]
    exact List.cons_ne_nil _ _

end CodeTidy.Constant
