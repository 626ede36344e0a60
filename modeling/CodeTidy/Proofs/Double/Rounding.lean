import CodeTidy.Double.Decimal
import Mathlib.Algebra.Order.Field.Power
import Mathlib.Tactic.FieldSimp
import Mathlib.Tactic.Linarith
import Mathlib.Tactic.NormNum
import Mathlib.Tactic.Positivity
import Mathlib.Tactic.Ring

/-!
# `CodeTidy.Proofs.Double.Rounding`: what a ratio is rounded to

A finite number is canonical if its mantissa is as large as its exponent
allows, so that each value has one canonical form. `ofRatio` only makes
canonical numbers, and a ratio that is near enough to one of them is rounded to
it. The theorems:

* `roundDiv_eq_of_near`, `log2Ratio_spec`: the two steps of `ofRatio`.
* `isCanonical_ofRatio`: its results are canonical.
* `ofRatio_of_near`: a ratio whose distance from a canonical number is less
  than half a unit in its seventeenth digit is rounded to that number.
* `ofRatio_congr`: only the value of a ratio counts.
-/

set_option autoImplicit false

namespace CodeTidy.Double

/-! ### Whole quotients -/

/-- A quotient below a whole number is not rounded beyond it. -/
theorem roundDiv_le {n d k : ℕ} (hd : 0 < d) (h : n ≤ k * d) : roundDiv n d ≤ k := by
  have hdiv : n / d ≤ k := Nat.div_le_of_le_mul (by rwa [Nat.mul_comm])
  rcases Nat.lt_or_eq_of_le hdiv with hlt | heq
  · have hstep : roundDiv n d ≤ n / d + 1 := by
      rw [roundDiv]
      split_ifs <;> omega
    omega
  · have hmod : n % d = 0 := by
      have hsplit := Nat.div_add_mod n d
      rw [heq, Nat.mul_comm] at hsplit
      omega
    rw [roundDiv, hmod, if_pos (by omega), heq]

/-- A quotient above a whole number is not rounded below it. -/
theorem le_roundDiv {n d k : ℕ} (hd : 0 < d) (h : k * d ≤ n) : k ≤ roundDiv n d := by
  have hdiv : k ≤ n / d := (Nat.le_div_iff_mul_le hd).mpr h
  have hstep : n / d ≤ roundDiv n d := by
    rw [roundDiv]
    split_ifs <;> omega
  omega

/-- A quotient that is nearer to `q` than one half is rounded to `q`. -/
theorem roundDiv_eq_of_near {n d q : ℕ} (hlow : 2 * q * d < 2 * n + d)
    (hhigh : 2 * n < 2 * q * d + d) : roundDiv n d = q := by
  have hsplit := Nat.div_add_mod n d
  have hd : 0 < d := by omega
  have hmod := Nat.mod_lt n hd
  rw [roundDiv]
  generalize n / d = p at hsplit ⊢
  generalize n % d = r at hsplit hmod ⊢
  have hle : q ≤ p + 1 := by
    by_contra hgt
    have hmul := Nat.mul_le_mul_right d (show p + 2 ≤ q by omega)
    nlinarith
  have hge : p ≤ q := by
    by_contra hlt
    have hmul := Nat.mul_le_mul_right d (show q + 1 ≤ p by omega)
    nlinarith
  rcases Nat.lt_or_eq_of_le hle with hlt | heq
  · -- The quotient is not rounded up.
    obtain rfl : q = p := by omega
    rw [if_pos (by nlinarith)]
  · subst heq
    rw [if_neg (by nlinarith), if_pos (by nlinarith)]

/-- A quotient less than a half away from a whole number is rounded to it. -/
theorem roundDiv_eq_of_abs_lt {n d q : ℕ} (hd : 0 < d) (h : |(n / d : ℚ) - q| < 1 / 2) :
    roundDiv n d = q := by
  have hd' : (0 : ℚ) < d := by exact_mod_cast hd
  obtain ⟨hlow, hhigh⟩ := abs_lt.mp h
  have hlow' : (2 * q * d : ℚ) < 2 * n + d := by
    have hmul := (lt_div_iff₀ hd').mp (show (q - 1 / 2 : ℚ) < n / d by linarith)
    linarith
  have hhigh' : (2 * n : ℚ) < 2 * q * d + d := by
    have hmul := (div_lt_iff₀ hd').mp (show (n / d : ℚ) < q + 1 / 2 by linarith)
    linarith
  exact roundDiv_eq_of_near (by exact_mod_cast hlow') (by exact_mod_cast hhigh')

/-! ### Powers of two -/

/-- The denominator stays positive when the scale is taken out. -/
theorem unscale_pos (num : ℕ) {den : ℕ} (hden : 0 < den) (e : ℤ) : 0 < (unscale num den e).2 := by
  cases e with
  | ofNat k => exact Nat.mul_pos hden (Nat.two_pow_pos k)
  | negSucc k => exact hden

/-- The scale that is taken out divides the quotient. -/
theorem unscale_value (num den : ℕ) (e : ℤ) :
    ((unscale num den e).1 : ℚ) / (unscale num den e).2 = (num / den : ℚ) / 2 ^ e := by
  cases e with
  | ofNat k =>
    show (num : ℚ) / ((den * 2 ^ k : ℕ) : ℚ) = (num / den : ℚ) / 2 ^ ((k : ℕ) : ℤ)
    rw [zpow_natCast, Nat.cast_mul, Nat.cast_pow, Nat.cast_ofNat, div_div]
  | negSucc k =>
    show ((num * 2 ^ (k + 1) : ℕ) : ℚ) / den = (num / den : ℚ) / 2 ^ (Int.negSucc k)
    rw [zpow_negSucc, Nat.cast_mul, Nat.cast_pow, Nat.cast_ofNat, div_inv_eq_mul,
      div_mul_eq_mul_div]

/-- The greatest power of two that is not above the ratio. -/
theorem log2Ratio_spec {num den : ℕ} (hnum : 0 < num) (hden : 0 < den) :
    (2 : ℚ) ^ log2Ratio num den ≤ num / den ∧ (num / den : ℚ) < 2 ^ (log2Ratio num den + 1) := by
  have hden' : (0 : ℚ) < den := by exact_mod_cast hden
  have hlow : (2 : ℚ) ^ num.log2 ≤ num := by exact_mod_cast Nat.log2_self_le hnum.ne'
  have hhigh : (num : ℚ) < 2 ^ (num.log2 + 1) := by exact_mod_cast Nat.lt_log2_self
  have hlow' : (2 : ℚ) ^ den.log2 ≤ den := by exact_mod_cast Nat.log2_self_le hden.ne'
  have hhigh' : (den : ℚ) < 2 ^ (den.log2 + 1) := by exact_mod_cast Nat.lt_log2_self
  -- The difference of the logarithms is the exponent or one too high.
  have hbelow : (2 : ℚ) ^ ((num.log2 : ℤ) - den.log2 - 1) ≤ num / den := by
    rw [le_div_iff₀ hden']
    calc (2 : ℚ) ^ ((num.log2 : ℤ) - den.log2 - 1) * den
        ≤ (2 : ℚ) ^ ((num.log2 : ℤ) - den.log2 - 1) * 2 ^ (den.log2 + 1) := by gcongr
      _ = 2 ^ num.log2 := by
        rw [← zpow_natCast, ← zpow_add₀ two_ne_zero, ← zpow_natCast]
        congr 1
        push_cast
        ring
      _ ≤ num := hlow
  have habove : (num / den : ℚ) < 2 ^ ((num.log2 : ℤ) - den.log2 + 1) := by
    rw [div_lt_iff₀ hden']
    calc (num : ℚ) < 2 ^ (num.log2 + 1) := hhigh
      _ = (2 : ℚ) ^ ((num.log2 : ℤ) - den.log2 + 1) * 2 ^ den.log2 := by
        rw [← zpow_natCast, ← zpow_natCast, ← zpow_add₀ two_ne_zero]
        congr 1
        push_cast
        ring
      _ ≤ (2 : ℚ) ^ ((num.log2 : ℤ) - den.log2 + 1) * den := by gcongr
  have hpos := unscale_pos num hden ((num.log2 : ℤ) - den.log2)
  have hvalue := unscale_value num den ((num.log2 : ℤ) - den.log2)
  have hpower : (0 : ℚ) < 2 ^ ((num.log2 : ℤ) - den.log2) := by positivity
  have hless : (unscale num den ((num.log2 : ℤ) - den.log2)).1 <
      (unscale num den ((num.log2 : ℤ) - den.log2)).2 ↔
        (num / den : ℚ) < 2 ^ ((num.log2 : ℤ) - den.log2) := by
    rw [← div_lt_one hpower, ← hvalue, div_lt_one (by exact_mod_cast hpos), Nat.cast_lt]
  rw [log2Ratio]
  split
  rename_i n d hunscale
  rw [hunscale] at hless
  by_cases h : n < d
  · rw [if_pos h]
    refine ⟨hbelow, ?_⟩
    rw [sub_add_cancel]
    exact hless.mp h
  · rw [if_neg h]
    exact ⟨not_lt.mp (fun h' => h (hless.mpr h')), habove⟩

/-- The binary logarithm of a quotient is the exponent of the power of two below it. -/
theorem log2Ratio_eq {num den : ℕ} (hnum : 0 < num) (hden : 0 < den) {k : ℤ}
    (hlow : (2 : ℚ) ^ k ≤ num / den) (hhigh : (num / den : ℚ) < 2 ^ (k + 1)) :
    log2Ratio num den = k := by
  obtain ⟨hlow', hhigh'⟩ := log2Ratio_spec hnum hden
  have hlt := (zpow_lt_zpow_iff_right₀ (one_lt_two : (1 : ℚ) < 2)).mp (hlow.trans_lt hhigh')
  have hgt := (zpow_lt_zpow_iff_right₀ (one_lt_two : (1 : ℚ) < 2)).mp (hlow'.trans_lt hhigh)
  omega

/-! ### Rounding -/

/-- The mantissa of a finite number is as large as the exponent allows. -/
def IsCanonical : Double → Prop
  | .finite _ m e =>
    m < 2 ^ 53 ∧ minExponent ≤ e ∧ e ≤ maxExponent ∧ (2 ^ 52 ≤ m ∨ e = minExponent)
  | _ => True

/-- The number with a rounded mantissa, which may have become one digit longer. -/
def carry (negative : Bool) (q : ℕ) (e : ℤ) : Double :=
  if q = 2 ^ 53 then (if maxExponent < e + 1 then .infinity negative
    else .finite negative (2 ^ 52) (e + 1))
  else if maxExponent < e then .infinity negative else .finite negative q e

/-- The number next to a quotient, by its exponent and its rounded mantissa. -/
theorem ofRatio_eq_carry {num den q : ℕ} {e : ℤ} (negative : Bool) (hnum : 0 < num)
    (he : max (log2Ratio num den - 52) minExponent = e)
    (hq : roundDiv (unscale num den e).1 (unscale num den e).2 = q) :
    ofRatio negative num den = carry negative q e := by
  rw [ofRatio, if_neg hnum.ne', he]
  dsimp only
  rw [hq]
  by_cases hfull : q = 2 ^ 53
  · rw [carry, if_pos hfull, if_pos (show q = Nat.pow 2 53 from hfull)]
    rfl
  · rw [carry, if_neg hfull, if_neg (show ¬q = Nat.pow 2 53 from hfull)]

/-- The exponent at which a ratio is rounded. -/
theorem ofRatio_eq_carry_of_abs_lt {num den q : ℕ} {e : ℤ} (negative : Bool) (hnum : 0 < num)
    (hden : 0 < den) (he : max (log2Ratio num den - 52) minExponent = e)
    (hq : |(num / den : ℚ) / 2 ^ e - q| < 1 / 2) :
    ofRatio negative num den = carry negative q e := by
  refine ofRatio_eq_carry negative hnum he (roundDiv_eq_of_abs_lt (unscale_pos num hden e) ?_)
  rwa [unscale_value]

/-- A rounded mantissa that is large enough makes a canonical number, even when it gets one digit
longer. -/
theorem isCanonical_carry {negative : Bool} {q : ℕ} {e : ℤ} (hq : q ≤ 2 ^ 53)
    (hmin : minExponent ≤ e) (hfull : 2 ^ 52 ≤ q ∨ e = minExponent) :
    IsCanonical (carry negative q e) := by
  rw [carry]
  split_ifs with hlong hmax hmax
  · trivial
  · exact ⟨by norm_num, by omega, by omega, .inl le_rfl⟩
  · trivial
  · exact ⟨by omega, hmin, by omega, hfull⟩

/-- Ratios are rounded to canonical numbers. -/
theorem isCanonical_ofRatio (negative : Bool) (num : ℕ) {den : ℕ} (hden : 0 < den) :
    IsCanonical (ofRatio negative num den) := by
  rcases Nat.eq_zero_or_pos num with rfl | hnum
  · rw [ofRatio, if_pos rfl]
    exact ⟨by norm_num, le_rfl, by decide, .inr rfl⟩
  · obtain ⟨hlow, hhigh⟩ := log2Ratio_spec hnum hden
    generalize he : max (log2Ratio num den - 52) minExponent = e
    have hpower : (0 : ℚ) < 2 ^ e := by positivity
    have hpos := unscale_pos num hden e
    have hpos' : (0 : ℚ) < (unscale num den e).2 := by exact_mod_cast hpos
    rw [ofRatio_eq_carry negative hnum he rfl]
    -- The quotient is at most 2^53, since the ratio is below the power of two behind its logarithm.
    -- Unless the exponent is the least one, it is 2^52 or more.
    refine isCanonical_carry (roundDiv_le hpos ?_) (he ▸ le_max_right _ _) ?_
    · have hle : (num / den : ℚ) / 2 ^ e ≤ 2 ^ 53 := by
        rw [div_le_iff₀ hpower, ← zpow_natCast, ← zpow_add₀ two_ne_zero]
        refine hhigh.le.trans (zpow_le_zpow_right₀ one_le_two ?_)
        have hmax := he ▸ le_max_left (log2Ratio num den - 52) minExponent
        push_cast
        omega
      rw [← unscale_value, div_le_iff₀ hpos'] at hle
      exact_mod_cast hle
    · rcases max_choice (log2Ratio num den - 52) minExponent with hmax | hmax
      · left
        refine le_roundDiv hpos ?_
        have hle : (2 : ℚ) ^ 52 ≤ (num / den : ℚ) / 2 ^ e := by
          rw [le_div_iff₀ hpower, ← zpow_natCast, ← zpow_add₀ two_ne_zero,
            show ((52 : ℕ) : ℤ) + e = log2Ratio num den by omega]
          exact hlow
        rw [← unscale_value, le_div_iff₀ hpos'] at hle
        exact_mod_cast hle
      · right
        rw [← he, hmax]

/-- A ratio that is nearer to a canonical number than half a unit in its seventeenth digit is
rounded to that number. -/
theorem ofRatio_of_near {negative : Bool} {m num den : ℕ} {e : ℤ}
    (hcanonical : IsCanonical (.finite negative m e)) (hm : 0 < m) (hnum : 0 < num)
    (hden : 0 < den)
    (hnear : |(num / den : ℚ) / 2 ^ e - m| * (2 * 10 ^ 16) ≤ m) :
    ofRatio negative num den = .finite negative m e := by
  obtain ⟨hsize, hmin, hmax, hfull⟩ := hcanonical
  have hpower : (0 : ℚ) < 2 ^ e := by positivity
  have hsize' : (m : ℚ) + 1 ≤ 2 ^ 53 := by exact_mod_cast hsize
  have hhalf : |(num / den : ℚ) / 2 ^ e - m| < 1 / 2 := by linarith
  obtain ⟨hlow, hhigh⟩ := abs_lt.mp hhalf
  by_cases hbinade : (2 : ℚ) ^ 52 ≤ (num / den : ℚ) / 2 ^ e ∨ e = minExponent
  · -- The ratio lies where the number does, so it is rounded at the same exponent.
    have hexponent : max (log2Ratio num den - 52) minExponent = e := by
      rcases lt_or_ge ((num / den : ℚ) / 2 ^ e) (2 ^ 52) with hsmall | hlarge
      · have he := hbinade.resolve_left (not_le.mpr hsmall)
        have hbelow := (log2Ratio_spec hnum hden).1
        rw [div_lt_iff₀ hpower, ← zpow_natCast, ← zpow_add₀ two_ne_zero] at hsmall
        have hlt := (zpow_lt_zpow_iff_right₀ (one_lt_two : (1 : ℚ) < 2)).mp
          (hbelow.trans_lt hsmall)
        rw [he, max_eq_right]
        push_cast at hlt
        omega
      · have hvalue : log2Ratio num den = e + 52 := by
          refine log2Ratio_eq hnum hden ?_ ?_
          · rw [le_div_iff₀ hpower, ← zpow_natCast, ← zpow_add₀ two_ne_zero] at hlarge
            rwa [add_comm]
          · have hbound : (num / den : ℚ) / 2 ^ e < 2 ^ 53 := by linarith
            rw [div_lt_iff₀ hpower, ← zpow_natCast, ← zpow_add₀ two_ne_zero,
              show ((53 : ℕ) : ℤ) + e = e + 52 + 1 by omega] at hbound
            exact hbound
        rw [hvalue, add_sub_cancel_right, max_eq_left hmin]
    rw [ofRatio_eq_carry_of_abs_lt negative hnum hden hexponent hhalf, carry,
      if_neg (by omega), if_neg (by omega)]
  · -- The number is a power of two and the ratio lies below it, where units are half as large.
    rw [not_or, not_le] at hbinade
    obtain ⟨hsmall, he⟩ := hbinade
    have hmantissa : m = 2 ^ 52 := by
      have hle := hfull.resolve_right he
      have hlt : (m : ℚ) < 2 ^ 52 + 1 := by linarith
      have hlt' : m < 2 ^ 52 + 1 := by exact_mod_cast hlt
      omega
    have hm' : (m : ℚ) = 2 ^ 52 := by exact_mod_cast hmantissa
    rw [hm'] at hnear hlow
    have hvalue : log2Ratio num den = e + 51 := by
      refine log2Ratio_eq hnum hden ?_ ?_
      · have hlarge : (2 : ℚ) ^ 51 ≤ (num / den : ℚ) / 2 ^ e := by linarith
        rw [le_div_iff₀ hpower, ← zpow_natCast, ← zpow_add₀ two_ne_zero] at hlarge
        rwa [add_comm]
      · rw [div_lt_iff₀ hpower, ← zpow_natCast, ← zpow_add₀ two_ne_zero,
          show ((52 : ℕ) : ℤ) + e = e + 51 + 1 by omega] at hsmall
        exact hsmall
    have hexponent : max (log2Ratio num den - 52) minExponent = e - 1 := by
      rw [hvalue, max_eq_left (by omega)]
      ring
    have hdouble : |(num / den : ℚ) / 2 ^ (e - 1) - ((2 ^ 53 : ℕ) : ℚ)| < 1 / 2 := by
      have hscale : (num / den : ℚ) / 2 ^ (e - 1) - ((2 ^ 53 : ℕ) : ℚ) =
          2 * ((num / den : ℚ) / 2 ^ e - 2 ^ 52) := by
        rw [zpow_sub_one₀ two_ne_zero]
        push_cast
        field_simp
        ring
      rw [hscale, abs_mul, abs_two]
      linarith
    rw [ofRatio_eq_carry_of_abs_lt negative hnum hden hexponent hdouble, carry, if_pos rfl,
      sub_add_cancel, if_neg (by omega), hmantissa]

/-! ### Only the value counts -/

/-- A quotient may be expanded before it is rounded. -/
theorem roundDiv_mul_right {k : ℕ} (hk : 0 < k) (n d : ℕ) :
    roundDiv (n * k) (d * k) = roundDiv n d := by
  have hless : ∀ a b : ℕ, a * k < b * k ↔ a < b := fun a b => Nat.mul_lt_mul_right hk
  rw [roundDiv, roundDiv, Nat.mul_div_mul_right n d hk, Nat.mul_mod_mul_right, ← Nat.mul_assoc]
  simp only [hless]

/-- Equal quotients are rounded alike. -/
theorem roundDiv_congr {n d n' d' : ℕ} (hd : 0 < d) (hd' : 0 < d')
    (h : (n / d : ℚ) = n' / d') : roundDiv n d = roundDiv n' d' := by
  have hcross : n * d' = n' * d := by
    rw [div_eq_div_iff (by exact_mod_cast hd.ne') (by exact_mod_cast hd'.ne')] at h
    exact_mod_cast h
  rw [← roundDiv_mul_right hd' n d, ← roundDiv_mul_right hd n' d', hcross, Nat.mul_comm d d']

/-- Equal ratios are rounded to the same number. -/
theorem ofRatio_congr (negative : Bool) {num den num' den' : ℕ} (hden : 0 < den)
    (hden' : 0 < den') (h : (num / den : ℚ) = num' / den') :
    ofRatio negative num den = ofRatio negative num' den' := by
  have hzero : num = 0 ↔ num' = 0 := by
    have hden₀ : (den : ℚ) ≠ 0 := by exact_mod_cast hden.ne'
    have hden₀' : (den' : ℚ) ≠ 0 := by exact_mod_cast hden'.ne'
    rw [← Nat.cast_eq_zero (R := ℚ), ← div_eq_zero_iff.trans (or_iff_left hden₀), h,
      div_eq_zero_iff.trans (or_iff_left hden₀'), Nat.cast_eq_zero]
  rcases Nat.eq_zero_or_pos num with hnum | hnum
  · rw [ofRatio, if_pos hnum, ofRatio, if_pos (hzero.mp hnum)]
  · have hnum' : 0 < num' := Nat.pos_of_ne_zero (fun h' => hnum.ne' (hzero.mpr h'))
    obtain ⟨hlow, hhigh⟩ := log2Ratio_spec hnum' hden'
    rw [← h] at hlow hhigh
    have hlog := log2Ratio_eq hnum hden hlow hhigh
    generalize he : max (log2Ratio num' den' - 52) minExponent = e
    rw [ofRatio_eq_carry negative hnum (hlog ▸ he) rfl, ofRatio_eq_carry negative hnum' he rfl]
    congr 1
    refine roundDiv_congr (unscale_pos num hden e) (unscale_pos num' hden' e) ?_
    rw [unscale_value, unscale_value, h]

/-- The sign is kept apart. -/
theorem ofRatio_finite {num den m : ℕ} {e : ℤ} (h : ofRatio false num den = .finite false m e)
    (negative : Bool) : ofRatio negative num den = .finite negative m e := by
  rcases Nat.eq_zero_or_pos num with rfl | hnum
  · rw [ofRatio, if_pos rfl] at h ⊢
    cases h
    rfl
  · rw [ofRatio_eq_carry _ hnum rfl rfl, carry] at h ⊢
    split_ifs at h ⊢ <;> cases h <;> rfl

end CodeTidy.Double
