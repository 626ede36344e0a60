import CodeTidy.Proofs.Double.Rounding

/-!
# `CodeTidy.Proofs.Double.Shortest`: the shortest decimal reads back

A number is written with the fewest digits that read back to it. The search for
them ends with seventeen digits, and that many are always enough: a decimal of
seventeen digits next to a canonical number is nearer to it than half a unit
in the last place.

Rounding does not pass a power of two, so the operations on numbers of bounded size
give numbers of bounded size, and these are finite while the bounds are below the
greatest power of two. The theorems:

* `ofDecimal_of_near`: decimals that near read back to the number.
* `log10_spec`: the power of ten at which the digits begin is not too high.
* `shortest_spec`: the shortest decimal of a number reads back to it.
* `ofDecimal_shift`: zeros at the end of the digits do not count.
* `atMost_ofRatio`: what a ratio is rounded to.
* `AtMost.add`, `AtMost.mul`, `AtMost.divNat`, `atMost_sum`: operations on numbers of bounded size.
-/

set_option autoImplicit false

namespace CodeTidy.Double

/-! ### Decimals -/

/-- The value of a positive number. -/
theorem toRat_eq (m : ℕ) (e : ℤ) : toRat false m e = (m : ℚ) * 2 ^ e := by
  cases e with
  | ofNat k =>
    show ((m * 2 ^ k : ℕ) : ℚ) = m * 2 ^ ((k : ℕ) : ℤ)
    rw [zpow_natCast]
    push_cast
    rfl
  | negSucc k =>
    show mkRat m (2 ^ (k + 1)) = (m : ℚ) * 2 ^ Int.negSucc k
    rw [zpow_negSucc, Rat.mkRat_eq_div, div_eq_mul_inv]
    push_cast
    rfl

/-- The number of digits and the size of a number. -/
theorem places_spec {d : ℕ} (hd : 0 < d) :
    10 ^ ((Nat.toDigits 10 d).length - 1) ≤ d ∧ d < 10 ^ (Nat.toDigits 10 d).length := by
  have hpos : 0 < (Nat.toDigits 10 d).length := Nat.length_toDigits_pos
  constructor
  · by_contra hlt
    rw [not_le] at hlt
    rcases Nat.eq_zero_or_pos ((Nat.toDigits 10 d).length - 1) with hzero | hmore
    · rw [hzero] at hlt
      omega
    · have hle := (Nat.length_toDigits_le_iff (by norm_num) hmore).mpr hlt
      omega
  · exact (Nat.length_toDigits_le_iff (by norm_num) hpos).mp le_rfl

/-- The cases of `ofDecimal`: zero, far too large, far too small, and the quotient for either sign
of the exponent. -/
theorem ofDecimal_eq (negative : Bool) (d : ℕ) (exponent : ℤ) :
    ofDecimal negative d exponent =
      if d = 0 then .finite negative 0 minExponent
      else if 400 < exponent + (Nat.toDigits 10 d).length then .infinity negative
      else if exponent + (Nat.toDigits 10 d).length < -400 then .finite negative 0 minExponent
      else match exponent with
        | .ofNat k => ofRatio negative (d * Nat.pow 10 k) 1
        | .negSucc k => ofRatio negative d (Nat.pow 10 (k + 1)) := rfl

/-- A decimal within the range is rounded as the ratio that it is. -/
theorem ofDecimal_eq_ofRatio {d : ℕ} (exponent : ℤ) (hd : 0 < d)
    (hhigh : exponent + (Nat.toDigits 10 d).length ≤ 400)
    (hlow : -400 ≤ exponent + (Nat.toDigits 10 d).length) :
    ∃ num den : ℕ, 0 < num ∧ 0 < den ∧ (num / den : ℚ) = d * 10 ^ exponent ∧
      ∀ negative, ofDecimal negative d exponent = ofRatio negative num den := by
  cases exponent with
  | ofNat k =>
    refine ⟨d * 10 ^ k, 1, by positivity, one_pos, ?_, fun negative => ?_⟩
    · show ((d * 10 ^ k : ℕ) : ℚ) / (1 : ℕ) = d * 10 ^ ((k : ℕ) : ℤ)
      rw [zpow_natCast, Nat.cast_one, div_one]
      push_cast
      rfl
    · rw [ofDecimal_eq, if_neg hd.ne', if_neg (by omega), if_neg (by omega)]
      rfl
  | negSucc k =>
    refine ⟨d, 10 ^ (k + 1), hd, by positivity, ?_, fun negative => ?_⟩
    · rw [zpow_negSucc, div_eq_mul_inv]
      push_cast
      rfl
    · rw [ofDecimal_eq, if_neg hd.ne', if_neg (by omega), if_neg (by omega)]
      rfl

/-! ### Numbers and the decimals near them -/

section Finite

variable {m : ℕ} {e : ℤ}

/-- The size of a canonical number. -/
theorem value_lt (h : IsCanonical (.finite false m e)) : (m : ℚ) * 2 ^ e < 2 ^ 1024 := by
  obtain ⟨hsize, -, hmax, -⟩ := h
  have hsize' : (m : ℚ) < 2 ^ 53 := by exact_mod_cast hsize
  have hpower : (2 : ℚ) ^ e ≤ 2 ^ (971 : ℤ) := zpow_le_zpow_right₀ one_le_two hmax
  calc (m : ℚ) * 2 ^ e < 2 ^ 53 * 2 ^ e := by gcongr
    _ ≤ 2 ^ 53 * 2 ^ (971 : ℤ) := by gcongr
    _ = 2 ^ 1024 := by
      rw [← zpow_natCast, ← zpow_natCast, ← zpow_add₀ two_ne_zero]
      congr 1

/-- No positive number is smaller than the least one. -/
theorem le_value (h : IsCanonical (.finite false m e)) (hm : 0 < m) :
    (2 : ℚ) ^ (-1074 : ℤ) ≤ m * 2 ^ e := by
  obtain ⟨-, hmin, -, -⟩ := h
  have hm' : (1 : ℚ) ≤ m := by exact_mod_cast hm
  have hpower : (2 : ℚ) ^ (-1074 : ℤ) ≤ 2 ^ e := zpow_le_zpow_right₀ one_le_two hmin
  calc (2 : ℚ) ^ (-1074 : ℤ) ≤ 1 * 2 ^ e := by rwa [one_mul]
    _ ≤ m * 2 ^ e := by gcongr

/-- A decimal that is nearer to a canonical number than half a unit in its seventeenth digit reads
back to that number. -/
theorem ofDecimal_of_near {d : ℕ} {exponent : ℤ} (h : IsCanonical (.finite false m e))
    (hm : 0 < m) (hd : 0 < d)
    (hnear : |(d * 10 ^ exponent : ℚ) - m * 2 ^ e| * (2 * 10 ^ 16) ≤ m * 2 ^ e)
    (negative : Bool) : ofDecimal negative d exponent = .finite negative m e := by
  obtain ⟨hplaces, hplaces'⟩ := places_spec hd
  have hlength : 0 < (Nat.toDigits 10 d).length := Nat.length_toDigits_pos
  have hd' : (0 : ℚ) < d := by exact_mod_cast hd
  have hten : (0 : ℚ) < 10 ^ exponent := by positivity
  have hvalue : (0 : ℚ) < m * 2 ^ e := by positivity
  have hlow := le_value h hm
  have hhigh := value_lt h
  have habs : |(d * 10 ^ exponent : ℚ) - m * 2 ^ e| < m * 2 ^ e / 2 := by linarith
  obtain ⟨hnear₁, hnear₂⟩ := abs_lt.mp habs
  -- The decimal is about as large as the number, so it lies within the range.
  have hshort : exponent + (Nat.toDigits 10 d).length ≤ 400 := by
    by_contra hlong
    have hcast : (10 : ℚ) ^ ((Nat.toDigits 10 d).length - 1) ≤ d := by exact_mod_cast hplaces
    have hpower : (10 : ℚ) ^ (400 : ℤ) ≤
        10 ^ (((Nat.toDigits 10 d).length - 1 : ℕ) + exponent) :=
      zpow_le_zpow_right₀ (by norm_num) (by omega)
    rw [zpow_add₀ (by norm_num), zpow_natCast] at hpower
    have hmul : (10 : ℚ) ^ ((Nat.toDigits 10 d).length - 1) * 10 ^ exponent ≤
        d * 10 ^ exponent := by
      gcongr
    have hbound : 2 * (2 : ℚ) ^ 1024 < 10 ^ (400 : ℤ) := by
      rw [← pow_succ']
      calc (2 : ℚ) ^ 1025 ≤ 2 ^ (3 * 400) := pow_le_pow_right₀ one_le_two (by norm_num)
        _ = (2 ^ 3) ^ 400 := pow_mul 2 3 400
        _ < 10 ^ 400 := pow_lt_pow_left₀ (by norm_num) (by positivity) (by norm_num)
    have hlt : (d * 10 ^ exponent : ℚ) < 2 * 2 ^ 1024 := by
      generalize (2 : ℚ) ^ 1024 = bound at hhigh ⊢
      linarith only [hnear₂, hhigh, hvalue]
    exact absurd (hlt.trans hbound) (not_lt.mpr (hpower.trans hmul))
  have hlong : -400 ≤ exponent + (Nat.toDigits 10 d).length := by
    by_contra hshort
    have hcast : (d : ℚ) < 10 ^ (Nat.toDigits 10 d).length := by exact_mod_cast hplaces'
    have hpower : (10 : ℚ) ^ ((Nat.toDigits 10 d).length + exponent) ≤ 10 ^ (-401 : ℤ) :=
      zpow_le_zpow_right₀ (by norm_num) (by omega)
    rw [zpow_add₀ (by norm_num), zpow_natCast] at hpower
    have hmul : (d : ℚ) * 10 ^ exponent < 10 ^ (Nat.toDigits 10 d).length * 10 ^ exponent := by
      gcongr
    have hbound : (10 : ℚ) ^ (-401 : ℤ) < 2 ^ (-1074 : ℤ) / 2 := by
      have hinv : ((10 : ℚ) ^ 401)⁻¹ < (2 ^ (3 * 400))⁻¹ := by
        refine inv_strictAnti₀ (by positivity) ?_
        calc (2 : ℚ) ^ (3 * 400) = (2 ^ 3) ^ 400 := pow_mul 2 3 400
          _ < 10 ^ 400 := pow_lt_pow_left₀ (by norm_num) (by positivity) (by norm_num)
          _ ≤ 10 ^ 401 := pow_le_pow_right₀ (by norm_num) (by norm_num)
      have hhalf : (2 : ℚ) ^ (-1074 : ℤ) / 2 = 2 ^ (-1075 : ℤ) :=
        (zpow_sub_one₀ two_ne_zero (-1074)).symm
      rw [hhalf]
      refine lt_of_lt_of_le hinv ?_
      rw [← zpow_natCast, ← zpow_neg]
      exact zpow_le_zpow_right₀ one_le_two (by norm_num)
    have hlt : (2 : ℚ) ^ (-1074 : ℤ) / 2 < d * 10 ^ exponent := by
      generalize (2 : ℚ) ^ (-1074 : ℤ) = bound at hlow ⊢
      linarith only [hnear₁, hlow]
    exact absurd (hbound.trans hlt) (not_lt.mpr (hmul.le.trans hpower))
  obtain ⟨num, den, hnum, hden, hratio, hrounded⟩ := ofDecimal_eq_ofRatio exponent hd hshort hlong
  rw [hrounded]
  refine ofRatio_of_near h hm hnum hden ?_
  have hpower : (0 : ℚ) < 2 ^ e := by positivity
  have hscale : (num / den : ℚ) / 2 ^ e - m = (d * 10 ^ exponent - m * 2 ^ e) / 2 ^ e := by
    rw [hratio]
    field_simp
  rw [hscale, abs_div, abs_of_pos hpower, div_mul_eq_mul_div, div_le_iff₀ hpower]
  exact hnear

/-! ### The power of ten of the first digit -/

/-- The search for the decimal logarithm ends at a power of ten that is not above the quotient, if
it may take enough steps. -/
theorem log10From_spec {r : ℚ} (steps : ℕ) {k : ℤ} (h : (10 : ℚ) ^ (k - steps) ≤ r) :
    (10 : ℚ) ^ log10From r steps k ≤ r := by
  induction steps generalizing k with
  | zero =>
    rw [log10From]
    rwa [Nat.cast_zero, sub_zero] at h
  | succ steps ih =>
    rw [log10From]
    split_ifs with hle
    · exact hle
    · refine ih ?_
      rwa [Nat.cast_succ, ← sub_sub, sub_right_comm] at h

/-- The start of the search is at most three too high, for every number of binary digits that a
number may have. Both powers are written without negative exponents. -/
theorem start_le_of_bits : (List.range 2101).all (fun i =>
    let bits : ℤ := (i : ℤ) - 1075
    let k := (bits + 1) * 30103 / 100000 + 1 - 4
    10 ^ k.toNat * 2 ^ (1 - bits).toNat ≤ 2 ^ (bits - 1).toNat * 10 ^ (-k).toNat) = true := by
  decide +kernel

/-- Powers with negative exponents, compared without them. -/
theorem zpow_le_of_toNat {k j : ℤ}
    (h : 10 ^ k.toNat * 2 ^ (-j).toNat ≤ 2 ^ j.toNat * 10 ^ (-k).toNat) : (10 : ℚ) ^ k ≤ 2 ^ j := by
  have hsplit : ∀ b : ℚ, b ≠ 0 → ∀ n : ℤ, b ^ n * b ^ (-n).toNat = b ^ n.toNat := by
    intro b hb n
    rw [← zpow_natCast, ← zpow_natCast, ← zpow_add₀ hb]
    congr 1
    omega
  have hcast : (10 : ℚ) ^ k.toNat * 2 ^ (-j).toNat ≤ 2 ^ j.toNat * 10 ^ (-k).toNat := by
    exact_mod_cast h
  rw [← hsplit 10 (by norm_num) k, ← hsplit 2 two_ne_zero j] at hcast
  have hten : (0 : ℚ) < 10 ^ (-k).toNat := by positivity
  have htwo : (0 : ℚ) < 2 ^ (-j).toNat := by positivity
  refine le_of_mul_le_mul_right ?_ (mul_pos hten htwo)
  calc (10 : ℚ) ^ k * (10 ^ (-k).toNat * 2 ^ (-j).toNat)
      = 10 ^ k * 10 ^ (-k).toNat * 2 ^ (-j).toNat := by ring
    _ ≤ 2 ^ j * 2 ^ (-j).toNat * 10 ^ (-k).toNat := hcast
    _ = 2 ^ j * (10 ^ (-k).toNat * 2 ^ (-j).toNat) := by ring

/-- The exponent of a ratio by the numbers of binary digits. -/
theorem log2Ratio_bounds (num den : ℕ) :
    log2Ratio num den ≤ (num.log2 : ℤ) - den.log2 ∧
      (num.log2 : ℤ) - den.log2 ≤ log2Ratio num den + 1 := by
  rw [log2Ratio]
  dsimp only
  split_ifs <;> omega

/-- The power of ten of the first digit is not above the number. -/
theorem log10_spec (h : IsCanonical (.finite false m e)) (hm : 0 < m) :
    (10 : ℚ) ^ log10 (m * 2 ^ e) ≤ m * 2 ^ e := by
  have hpos : (0 : ℚ) < m * 2 ^ e := by positivity
  have hlow := le_value h hm
  have hhigh := value_lt h
  generalize (m : ℚ) * 2 ^ e = r at hpos hlow hhigh ⊢
  have hnum : 0 < r.num := Rat.num_pos.mpr hpos
  have hnum' : (r.num.natAbs : ℚ) = r.num := by
    rw [Nat.cast_natAbs, abs_of_pos hnum]
  have hratio : (r.num.natAbs / r.den : ℚ) = r := by
    rw [hnum', Rat.num_div_den]
  have hspec := log2Ratio_spec (Int.natAbs_pos.mpr hnum.ne') r.den_pos
  rw [hratio] at hspec
  have hbits := log2Ratio_bounds r.num.natAbs r.den
  rw [log10]
  generalize (r.num.natAbs.log2 : ℤ) - r.den.log2 = bits at hbits ⊢
  generalize log2Ratio r.num.natAbs r.den = k at hspec hbits
  -- A number with an exponent has a logarithm between those of the least and of the largest number,
  -- so the table of starts covers it.
  have hlower := (zpow_lt_zpow_iff_right₀ (one_lt_two : (1 : ℚ) < 2)).mp (hlow.trans_lt hspec.2)
  have hupper : k < 1024 := by
    rw [← zpow_lt_zpow_iff_right₀ (one_lt_two : (1 : ℚ) < 2)]
    exact hspec.1.trans_lt hhigh
  have htable := List.all_eq_true.mp start_le_of_bits (bits + 1075).toNat
    (List.mem_range.mpr (by omega))
  rw [Int.toNat_of_nonneg (by omega), decide_eq_true_eq, add_sub_cancel_right] at htable
  -- Four steps make up for what the start is too low.
  refine log10From_spec 4 ((zpow_le_of_toNat (j := bits - 1) ?_).trans ?_)
  · rwa [neg_sub]
  · exact (zpow_le_zpow_right₀ one_le_two (by omega)).trans hspec.1

end Finite

/-! ### The search for the digits -/

/-- The digits that are found read back. -/
theorem neighbour?_spec {x : Double} {r : ℚ} {exponent : ℤ} {d : ℕ}
    (h : neighbour? x r exponent = some d) : 0 < d ∧ ofDecimal false d exponent = x := by
  rw [neighbour?] at h
  generalize hlow : (r / (10 : Rat) ^ exponent).floor.toNat = low at h
  -- Either neighbour may read back. If both do, the closer one is taken.
  cases hlowReads : (low != 0 && ofDecimal false low exponent == x) with
  | false =>
    cases hhighReads : (ofDecimal false (low + 1) exponent == x) with
    | false =>
      rw [hlowReads, hhighReads] at h
      cases h
    | true =>
      rw [hlowReads, hhighReads] at h
      cases h
      exact ⟨Nat.succ_pos low, beq_iff_eq.mp hhighReads⟩
  | true =>
    have hreads : 0 < low ∧ ofDecimal false low exponent = x := by
      rw [Bool.and_eq_true, bne_iff_ne, beq_iff_eq] at hlowReads
      exact ⟨Nat.pos_of_ne_zero hlowReads.1, hlowReads.2⟩
    cases hhighReads : (ofDecimal false (low + 1) exponent == x) with
    | false =>
      rw [hlowReads, hhighReads] at h
      cases h
      exact hreads
    | true =>
      rw [hlowReads, hhighReads] at h
      dsimp only at h
      have hhigh : 0 < low + 1 ∧ ofDecimal false (low + 1) exponent = x :=
        ⟨Nat.succ_pos low, beq_iff_eq.mp hhighReads⟩
      split_ifs at h <;> cases h <;> assumption

/-- If one of the two decimals next to the value reads back, digits are found. -/
theorem neighbour?_ne_none {x : Double} {r : ℚ} {exponent : ℤ} {low : ℕ}
    (hlow : (r / (10 : Rat) ^ exponent).floor.toNat = low)
    (h : low ≠ 0 ∧ ofDecimal false low exponent = x ∨ ofDecimal false (low + 1) exponent = x) :
    neighbour? x r exponent ≠ none := by
  rw [neighbour?, hlow]
  cases hlowReads : (low != 0 && ofDecimal false low exponent == x) with
  | false =>
    rcases h with ⟨hne, hreads⟩ | hreads
    · rw [Bool.and_eq_false_iff, bne_eq_false_iff_eq, beq_eq_false_iff_ne] at hlowReads
      exact absurd hlowReads (by simp [hne, hreads])
    · rw [show (ofDecimal false (low + 1) exponent == x) = true from beq_iff_eq.mpr hreads]
      exact Option.some_ne_none _
  | true =>
    cases ofDecimal false (low + 1) exponent == x with
    | false => exact Option.some_ne_none _
    | true =>
      dsimp only
      split_ifs <;> exact Option.some_ne_none _

/-- With seventeen digits one of the two decimals next to a canonical number reads back. -/
theorem neighbour?_seventeen {m : ℕ} {e : ℤ} (h : IsCanonical (.finite false m e)) (hm : 0 < m) :
    neighbour? (.finite false m e) (m * 2 ^ e) (log10 (m * 2 ^ e) + 1 - (17 : ℕ)) ≠ none := by
  have hlog := log10_spec h hm
  have hnear : ∀ d : ℕ, 0 < d →
      |(d * 10 ^ (log10 ((m : ℚ) * 2 ^ e) + 1 - (17 : ℕ)) : ℚ) - m * 2 ^ e| * (2 * 10 ^ 16) ≤
        m * 2 ^ e →
      ofDecimal false d (log10 ((m : ℚ) * 2 ^ e) + 1 - (17 : ℕ)) = .finite false m e :=
    fun d hd hnear => ofDecimal_of_near h hm hd hnear false
  generalize hr : (m : ℚ) * 2 ^ e = r at hlog hnear ⊢
  generalize hexponent : log10 r + 1 - (17 : ℕ) = exponent at hnear ⊢
  have hten : (0 : ℚ) < 10 ^ exponent := by positivity
  have hlast : (10 : ℚ) ^ exponent * 10 ^ 16 ≤ r := by
    rw [← zpow_natCast, ← zpow_add₀ (by norm_num),
      show exponent + ((16 : ℕ) : ℤ) = log10 r by omega]
    exact hlog
  have hscaled : (10 : ℚ) ^ 16 ≤ r / 10 ^ exponent := by
    rw [le_div_iff₀ hten, mul_comm]
    exact hlast
  have hfloor := Rat.floor_le (r / 10 ^ exponent)
  have hceil := Rat.lt_floor_add_one (r / 10 ^ exponent)
  have hlarge : (10 : ℤ) ^ 16 ≤ (r / (10 : ℚ) ^ exponent).floor := by
    rw [Rat.le_floor_iff]
    exact_mod_cast hscaled
  have hcast : ((r / (10 : ℚ) ^ exponent).floor.toNat : ℤ) = (r / (10 : ℚ) ^ exponent).floor :=
    Int.toNat_of_nonneg (by omega)
  refine neighbour?_ne_none rfl ?_
  generalize (r / (10 : ℚ) ^ exponent).floor.toNat = low at hcast
  rw [← hcast] at hfloor hceil hlarge
  push_cast at hfloor hceil
  have hpos : 0 < low := by omega
  have hback : r / 10 ^ exponent * 10 ^ exponent = r := div_mul_cancel₀ r hten.ne'
  -- The nearer one of the two decimals is off by half a unit at most.
  rcases le_or_gt (r / 10 ^ exponent - low) (1 / 2) with hhalf | hhalf
  · left
    refine ⟨hpos.ne', hnear low hpos ?_⟩
    rw [abs_of_nonpos (by nlinarith)]
    nlinarith
  · right
    refine hnear (low + 1) (Nat.succ_pos low) ?_
    push_cast
    rw [abs_of_nonneg (by nlinarith)]
    nlinarith

/-- The shortest decimal that is found is read as the number, since with all 17 digits there is
one. -/
theorem shortestFrom_spec {x : Double} {r : ℚ} {top : ℤ}
    (hlast : neighbour? x r (top + 1 - (17 : ℕ)) ≠ none) (steps count : ℕ)
    (h : steps + count = 17) :
    0 < (shortestFrom x r top (steps + 1) count).1 ∧
      ofDecimal false (shortestFrom x r top (steps + 1) count).1
        (shortestFrom x r top (steps + 1) count).2 = x := by
  induction steps generalizing count with
  | zero =>
    obtain rfl : count = 17 := by omega
    rw [shortestFrom]
    cases hfound : neighbour? x r (top + 1 - (17 : ℕ)) with
    | none => exact absurd hfound hlast
    | some d => exact neighbour?_spec hfound
  | succ steps ih =>
    rw [shortestFrom]
    cases hfound : neighbour? x r (top + 1 - count) with
    | none => exact ih (count + 1) (by omega)
    | some d => exact neighbour?_spec hfound

/-- The shortest decimal of a number reads back to it. -/
theorem shortest_spec {m : ℕ} {e : ℤ} (h : IsCanonical (.finite false m e)) (hm : 0 < m) :
    0 < (shortest m e).1 ∧
      ofDecimal false (shortest m e).1 (shortest m e).2 = .finite false m e := by
  rw [shortest, toRat_eq]
  exact shortestFrom_spec (neighbour?_seventeen h hm) 16 1 rfl

/-! ### Zeros at the end -/

/-- Ten times a number has one digit more. -/
theorem length_toDigits_mul_ten {d : ℕ} (hd : 0 < d) :
    (Nat.toDigits 10 (d * 10)).length = (Nat.toDigits 10 d).length + 1 := by
  rw [Nat.toDigits_of_base_le (by norm_num) (by omega), Nat.mul_div_cancel d (by norm_num),
    List.length_append, List.length_singleton]

/-- A zero at the end of the digits does not count. -/
theorem ofDecimal_shift (negative : Bool) (d : ℕ) (exponent : ℤ) :
    ofDecimal negative (d * 10) exponent = ofDecimal negative d (exponent + 1) := by
  rcases Nat.eq_zero_or_pos d with rfl | hd
  · rfl
  · have hlength := length_toDigits_mul_ten hd
    have hd' : 0 < d * 10 := by omega
    by_cases hlarge : 400 < exponent + 1 + (Nat.toDigits 10 d).length
    · rw [ofDecimal_eq, if_neg hd'.ne', if_pos (by omega), ofDecimal_eq, if_neg hd.ne',
        if_pos hlarge]
    · by_cases hsmall : exponent + 1 + (Nat.toDigits 10 d).length < -400
      · rw [ofDecimal_eq, if_neg hd'.ne', if_neg (by omega), if_pos (by omega),
          ofDecimal_eq, if_neg hd.ne', if_neg hlarge, if_pos hsmall]
      · -- Neither too large nor too small, both are rounded as ratios, and these are equal.
        obtain ⟨num, den, -, hden, hvalue, hround⟩ :=
          ofDecimal_eq_ofRatio exponent hd' (by omega) (by omega)
        obtain ⟨num', den', -, hden', hvalue', hround'⟩ :=
          ofDecimal_eq_ofRatio (exponent + 1) hd (by omega) (by omega)
        rw [hround, hround']
        refine ofRatio_congr negative hden hden' ?_
        rw [hvalue, hvalue', zpow_add_one₀ (by norm_num)]
        push_cast
        ring

/-- Zeros at the end of the digits do not count. -/
theorem ofDecimal_shift_pow (negative : Bool) (d : ℕ) (exponent : ℤ) (k : ℕ) :
    ofDecimal negative (d * 10 ^ k) exponent = ofDecimal negative d (exponent + k) := by
  induction k generalizing exponent with
  | zero => rw [pow_zero, Nat.mul_one, Nat.cast_zero, Int.add_zero]
  | succ k ih =>
    rw [pow_succ, ← Nat.mul_assoc, ofDecimal_shift, ih, Nat.cast_succ]
    congr 1
    omega

/-- Decimals are read as canonical numbers. -/
theorem isCanonical_ofDecimal (negative : Bool) (d : ℕ) (exponent : ℤ) :
    IsCanonical (ofDecimal negative d exponent) := by
  have hzero : IsCanonical (.finite negative 0 minExponent) :=
    ⟨by norm_num, le_rfl, by decide, .inr rfl⟩
  rw [ofDecimal_eq]
  split_ifs
  · exact hzero
  · trivial
  · exact hzero
  · cases exponent with
    | ofNat k => exact isCanonical_ofRatio negative _ one_pos
    | negSucc k => exact isCanonical_ofRatio negative _ (Nat.pow_pos (by norm_num))

/-- The sign of a decimal is kept apart. -/
theorem ofDecimal_finite {d m : ℕ} {exponent e : ℤ}
    (h : ofDecimal false d exponent = .finite false m e) (negative : Bool) :
    ofDecimal negative d exponent = .finite negative m e := by
  rw [ofDecimal_eq] at h ⊢
  split_ifs at h ⊢
  · cases h
    rfl
  · cases h
    rfl
  · cases exponent with
    | ofNat k => exact ofRatio_finite h negative
    | negSucc k => exact ofRatio_finite h negative

/-! ### Numbers that stay finite -/

/-- The number is finite, and its size is at most `2 ^ k`. -/
def AtMost (k : ℕ) : Double → Prop
  | .finite _ m e => (m : ℚ) * 2 ^ e ≤ 2 ^ k
  | _ => False

/-- The bounds below which no operation overflows. -/
def maxBound : ℕ := 1000

/-- A bounded number is finite. -/
theorem AtMost.isFinite {k : ℕ} {x : Double} (h : AtMost k x) : x.isFinite = true := by
  cases x with
  | finite s m e => rfl
  | _ => cases h

/-- A bound may be raised. -/
theorem AtMost.mono {j k : ℕ} {x : Double} (h : AtMost j x) (hle : j ≤ k) : AtMost k x := by
  cases x with
  | finite s m e =>
    have hpower : (2 : ℚ) ^ j ≤ 2 ^ k := pow_le_pow_right₀ one_le_two hle
    exact le_trans h hpower
  | _ => cases h

/-- Zero is below every bound. -/
theorem atMost_zero (negative : Bool) (k : ℕ) : AtMost k (.finite negative 0 minExponent) := by
  simp [AtMost]

/-- The size of a finite number. -/
theorem abs_toRat (s : Bool) (m : ℕ) (e : ℤ) : |toRat s m e| = m * 2 ^ e := by
  have hsize : (0 : ℚ) ≤ m * 2 ^ e := by positivity
  cases s with
  | false => rw [toRat_eq, abs_of_nonneg hsize]
  | true =>
    have hneg : toRat true m e = -toRat false m e := rfl
    rw [hneg, abs_neg, toRat_eq, abs_of_nonneg hsize]

/-- Finite numbers compare as their values. -/
theorem lt_finite_iff {s t : Bool} {m n : ℕ} {e f : ℤ} :
    lt (.finite s m e) (.finite t n f) = true ↔ toRat s m e < toRat t n f := by
  rw [lt, decide_eq_true_iff]

/-- A rounded mantissa below the bound makes a number below it. -/
theorem atMost_carry {negative : Bool} {q k : ℕ} {e : ℤ} (hexponent : e + 1 ≤ maxExponent)
    (h : (q : ℚ) * 2 ^ e ≤ 2 ^ k) : AtMost k (carry negative q e) := by
  rw [carry]
  split_ifs with hfull hmax hmax
  · omega
  · -- A full significand moves to the next exponent, and the value stays the same.
    show ((2 ^ 52 : ℕ) : ℚ) * 2 ^ (e + 1) ≤ 2 ^ k
    rw [hfull] at h
    calc ((2 ^ 52 : ℕ) : ℚ) * 2 ^ (e + 1) = ((2 ^ 53 : ℕ) : ℚ) * 2 ^ e := by
          rw [zpow_add_one₀ two_ne_zero]
          push_cast
          ring
      _ ≤ 2 ^ k := h
  · omega
  · exact h

/-- A ratio that is at most a power of two is rounded to a number that is at most that. -/
theorem atMost_ofRatio (negative : Bool) {num den k : ℕ} (hden : 0 < den) (hk : k ≤ maxBound)
    (h : (num / den : ℚ) ≤ 2 ^ k) : AtMost k (ofRatio negative num den) := by
  rcases Nat.eq_zero_or_pos num with rfl | hnum
  · rw [ofRatio, if_pos rfl]
    exact atMost_zero negative k
  · generalize he : max (log2Ratio num den - 52) minExponent = e
    have hlog : log2Ratio num den ≤ k := by
      have hlow := (log2Ratio_spec hnum hden).1.trans h
      rw [← zpow_natCast] at hlow
      exact (zpow_le_zpow_iff_right₀ one_lt_two).mp hlow
    have hmin : minExponent = -1074 := rfl
    have hmax : maxExponent = 971 := rfl
    have hle : e ≤ k := by omega
    rw [ofRatio_eq_carry negative hnum he rfl]
    rw [maxBound] at hk
    refine atMost_carry (by omega) ?_
    -- The bound is a whole number of steps, so rounding does not pass it.
    obtain ⟨n, hn⟩ := Int.eq_ofNat_of_zero_le (Int.sub_nonneg.mpr hle)
    have hsteps : (2 : ℚ) ^ k = ((2 ^ n : ℕ) : ℚ) * 2 ^ e := by
      push_cast
      rw [← zpow_natCast, ← zpow_natCast, ← zpow_add₀ two_ne_zero]
      congr 1
      omega
    have hpower : (0 : ℚ) < 2 ^ e := by positivity
    have hpos := unscale_pos num hden e
    have hpos' : (0 : ℚ) < (unscale num den e).2 := by exact_mod_cast hpos
    have hround : roundDiv (unscale num den e).1 (unscale num den e).2 ≤ 2 ^ n := by
      refine roundDiv_le hpos ?_
      have hratio : (num / den : ℚ) / 2 ^ e ≤ (2 ^ n : ℕ) := by
        rw [div_le_iff₀ hpower, ← hsteps]
        exact h
      rw [← unscale_value, div_le_iff₀ hpos'] at hratio
      exact_mod_cast hratio
    rw [hsteps]
    gcongr

/-- An exact value that is at most a power of two is rounded to a number that is at most that. -/
theorem atMost_round (negative : Bool) {r : ℚ} {k : ℕ} (hk : k ≤ maxBound) (h : |r| ≤ 2 ^ k) :
    AtMost k (ofRatio negative r.num.natAbs r.den) := by
  refine atMost_ofRatio negative r.den_pos hk ?_
  have hsize : (r.num.natAbs / r.den : ℚ) = |r| := by
    rw [Nat.cast_natAbs, Int.cast_abs, ← Nat.abs_cast r.den, ← abs_div, Rat.num_div_den]
  rw [hsize]
  exact h

section

variable {j k : ℕ} {x y : Double}

/-- A sum is bounded by twice the bound of its terms. -/
theorem AtMost.add (hx : AtMost k x) (hy : AtMost k y) (hk : k + 1 ≤ maxBound) :
    AtMost (k + 1) (x + y) := by
  cases x with
  | finite s m e =>
    cases y with
    | finite t n f =>
      have hx : |toRat s m e| ≤ 2 ^ k := abs_toRat s m e ▸ hx
      have hy : |toRat t n f| ≤ 2 ^ k := abs_toRat t n f ▸ hy
      show AtMost (k + 1) (if toRat s m e + toRat t n f = 0 then
        .finite (s && t && m == 0 && n == 0) 0 minExponent else ofRat (toRat s m e + toRat t n f))
      split
      next => exact atMost_zero _ _
      next =>
        refine atMost_round _ hk ?_
        calc |toRat s m e + toRat t n f| ≤ |toRat s m e| + |toRat t n f| := abs_add_le _ _
          _ ≤ 2 ^ k + 2 ^ k := add_le_add hx hy
          _ = 2 ^ (k + 1) := by rw [pow_succ, mul_two]
    | _ => cases hy
  | _ => cases hx

/-- A product is bounded by the product of the bounds. -/
theorem AtMost.mul (hx : AtMost j x) (hy : AtMost k y) (hk : j + k ≤ maxBound) :
    AtMost (j + k) (x * y) := by
  cases x with
  | finite s m e =>
    cases y with
    | finite t n f =>
      have hx : |toRat s m e| ≤ 2 ^ j := abs_toRat s m e ▸ hx
      have hy : |toRat t n f| ≤ 2 ^ k := abs_toRat t n f ▸ hy
      refine atMost_round (s != t) hk ?_
      rw [abs_mul, pow_add]
      gcongr
    | _ => cases hy
  | _ => cases hx

/-- A quotient by a whole number is bounded as its numerator. -/
theorem AtMost.divNat (hx : AtMost k x) (hk : k ≤ maxBound) {n : ℕ} (hn : 0 < n) :
    AtMost k (x.divNat n) := by
  cases x with
  | finite s m e =>
    have hx : |toRat s m e| ≤ 2 ^ k := abs_toRat s m e ▸ hx
    refine atMost_round s hk ?_
    have hn' : (1 : ℚ) ≤ n := by exact_mod_cast hn
    rw [abs_div, Nat.abs_cast]
    exact (div_le_self (abs_nonneg _) hn').trans hx
  | _ => cases hx

/-- A whole number below the bound makes a number below it. -/
theorem atMost_ofInt {n : ℤ} (hn : |n| ≤ 2 ^ k) (hk : k ≤ maxBound) : AtMost k (ofInt n) := by
  refine atMost_ofRatio _ Nat.one_pos hk ?_
  have hsize : ((n.natAbs : ℕ) : ℚ) = ((|n| : ℤ) : ℚ) := Nat.cast_natAbs n
  rw [Nat.cast_one, div_one, hsize]
  exact_mod_cast hn

/-- Each number that is added doubles the bound at most. -/
theorem atMost_sum {xs : List Double} (hxs : ∀ x ∈ xs, AtMost k x) {y : Double} (hy : AtMost k y)
    (hk : k + xs.length ≤ maxBound) : AtMost (k + xs.length) (xs.foldl (· + ·) y) := by
  -- The bound grows with the numbers that have been added, so the induction is for all bounds.
  induction xs generalizing k y with
  | nil => exact hy
  | cons x xs ih =>
    rw [List.length_cons] at hk ⊢
    have hfirst := hy.add (hxs x List.mem_cons_self) (by omega)
    have hrest := ih (fun z hz => (hxs z (List.mem_cons_of_mem x hz)).mono (Nat.le_add_right k 1))
      hfirst (by omega)
    rw [List.foldl_cons, ← Nat.add_assoc, Nat.add_right_comm]
    exact hrest

end

end CodeTidy.Double
