import CodeTidy.Text.Digit
import Mathlib.Algebra.Group.Nat.Defs

/-!
# `CodeTidy.Proofs.Text.Digits`: numbers written with decimal digits

A number is written with its decimal digits, and `Text.decimalValue?` reads
them back. The theorems:

* `isDigit_ofNat`, `head_ofNat`: what a number is written with.
* `decimalValue?_eq`: the value of digits.
* `length_ofNat_digitsValue_le`: how many digits a number needs.
* `digitsValue_ofNat`, `digitsValue_zeros_append`, `digitsValue_append_zeros`: the digits of a
  number have its value, also with zeros around them.
-/

set_option autoImplicit false

namespace CodeTidy.Text

/-- The number that ASCII digits write. -/
def digitsValue (t : Text) : Nat := Nat.ofDigitChars 10 t 0

/-- A number is written with its decimal digits. -/
theorem ofNat_eq (n : Nat) : ofNat n = Nat.toDigits 10 n := Nat.toList_repr

/-- A number is written with one digit at least. -/
theorem ofNat_ne_nil (n : Nat) : ofNat n ≠ [] := by
  rw [ofNat_eq]
  exact Nat.toDigits_ne_nil

/-- A number is written with ASCII digits only. -/
theorem isDigit_ofNat (n : Nat) : (ofNat n).all Char.isDigit = true := by
  rw [ofNat_eq, List.all_eq_true]
  exact fun c hc => Nat.isDigit_of_mem_toDigits (by decide) (by decide) hc

/-- A positive number does not begin with a zero. -/
theorem head_ofNat {n : Nat} (hn : 0 < n) : (ofNat n).head? ≠ some '0' := by
  rw [ofNat_eq]
  induction n using Nat.strongRecOn with
  | ind n ih =>
    rcases Nat.lt_or_ge n 10 with hlt | hge
    · rw [Nat.toDigits_of_lt_base hlt, List.head?_cons]
      intro h
      have hzero := Nat.digitChar_eq_zero.mp (Option.some.inj h)
      omega
    · rw [Nat.toDigits_of_base_le (by decide) hge, List.head?_append]
      have hne : (Nat.toDigits 10 (n / 10)).head? ≠ none := by
        rw [Ne, List.head?_eq_none_iff]
        exact Nat.toDigits_ne_nil
      obtain ⟨c, hc⟩ := Option.ne_none_iff_exists'.mp hne
      rw [hc, Option.some_or, ← hc]
      exact ih (n / 10) (by omega) (by omega)

/-- The value of an ASCII digit is its place behind the zero. -/
theorem digitValue?_of_isDigit {c : Char} (h : c.isDigit = true) :
    digitValue? c = some (c.toNat - 48) := by
  have hlt : c.toNat < 128 := by
    rw [Char.isDigit, Bool.and_eq_true, decide_eq_true_eq, decide_eq_true_eq] at h
    have hle : c.toNat ≤ 57 := h.2
    omega
  rw [digitValue?]
  rw [if_pos hlt, if_pos h]

/-- The value of digits. -/
theorem decimalValue?_eq {t : Text} (h : t.all Char.isDigit = true) :
    decimalValue? t = some (digitsValue t) := by
  have hfold : ∀ n, t.foldl (fun n? c => do return (← n?) * 10 + (← digitValue? c)) (some n) =
      some (Nat.ofDigitChars 10 t n) := by
    induction t with
    | nil => exact fun n => rfl
    | cons c t ih =>
      intro n
      rw [List.all_cons, Bool.and_eq_true] at h
      rw [List.foldl_cons, digitValue?_of_isDigit h.1, Nat.ofDigitChars_cons,
        show (some n >>= fun a => some (c.toNat - 48) >>= fun b => pure (a * 10 + b)) =
          some (10 * n + (c.toNat - '0'.toNat)) from congrArg some (by rw [Nat.mul_comm]; rfl)]
      exact ih h.2 _
  exact hfold 0

/-- The digits that a number is written with are read as that number. -/
theorem digitsValue_ofNat (n : Nat) : digitsValue (ofNat n) = n := by
  rw [digitsValue, ofNat_eq, Nat.ofDigitChars_ten_toDigits]

/-- Zeros in front do not change the value. -/
theorem digitsValue_zeros_append (k : Nat) (t : Text) :
    digitsValue (List.replicate k '0' ++ t) = digitsValue t := by
  rw [digitsValue, Nat.ofDigitChars_append, Nat.ofDigitChars_replicate_zero,
    Nat.mul_zero, digitsValue]

/-- Each zero at the end makes the value ten times as large. -/
theorem digitsValue_append_zeros (t : Text) (k : Nat) :
    digitsValue (t ++ List.replicate k '0') = digitsValue t * 10 ^ k := by
  rw [digitsValue, Nat.ofDigitChars_append, Nat.ofDigitChars_replicate_zero,
    digitsValue, Nat.mul_comm]

/-- Zeros are digits. -/
theorem isDigit_zeros (k : Nat) : (List.replicate k '0').all Char.isDigit = true := by
  rw [List.all_replicate]
  split <;> rfl

/-- Digits write a number that needs no more digits than these. -/
theorem length_ofNat_digitsValue_le {ds : Text} (hds : ds.all Char.isDigit = true) (hne : ds ≠ []) :
    (ofNat (digitsValue ds)).length ≤ ds.length := by
  -- The induction is on the digits, for any number in front of them.
  have hbound : ∀ n, Nat.ofDigitChars 10 ds n < (n + 1) * 10 ^ ds.length := by
    clear hne
    induction ds with
    | nil =>
      intro n
      rw [Nat.ofDigitChars_nil]
      simp
    | cons c ds ih =>
      intro n
      rw [List.all_cons, Bool.and_eq_true] at hds
      have hc := hds.1
      rw [Char.isDigit, Bool.and_eq_true, decide_eq_true_eq, decide_eq_true_eq] at hc
      have hle : c.toNat ≤ 57 := hc.2
      rw [Nat.ofDigitChars_cons]
      refine Nat.lt_of_lt_of_le (ih hds.2 _) ?_
      rw [List.length_cons, Nat.pow_succ, Nat.mul_comm (10 ^ ds.length) 10, ← Nat.mul_assoc]
      refine Nat.mul_le_mul_right _ ?_
      have hzero : '0'.toNat = 48 := rfl
      omega
  rw [ofNat_eq, Nat.length_toDigits_le_iff (by decide) (List.length_pos_iff.mpr hne)]
  have h := hbound 0
  rwa [Nat.zero_add, Nat.one_mul] at h

end CodeTidy.Text
