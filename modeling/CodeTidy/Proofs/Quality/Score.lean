import CodeTidy.Proofs.Double.Shortest
import CodeTidy.Proofs.Except
import CodeTidy.Quality.Score

/-!
# `CodeTidy.Proofs.Quality.Score`: scores can be rounded

Rounding fails for what is not a finite number. Metrics are brought into the
range from 0 to 100 and scores are in it, so their averages and weighted sums
stay finite, and each of them is rounded to a score. The theorems:

* `exists_clampScore_iff`, `range_of_clampScore`: when there is a score, and where
  it lies.
* `clampScore_average`: the averages of metrics.
* `clampScore_weightedSum`: the weighted sums of scores.
-/

set_option autoImplicit false

namespace CodeTidy.Quality

open Double (AtMost maxBound)

/-- The score lies in the range from 0 to 100. -/
def InRange (n : Int) : Prop := 0 ≤ n ∧ n ≤ 100

/-- A whole number is in range once it is clamped. -/
theorem inRange_clampWhole (n : Int) : InRange (clampWhole n) := by
  rw [InRange, clampWhole]
  omega

/-- A number becomes a score exactly if it is finite once a half is added. -/
theorem exists_clampScore_iff (x : Double) :
    (∃ n, clampScore x = .ok n) ↔ (x + Double.ratio 1 2).isFinite = true := by
  unfold clampScore roundHalfUp
  rw [exists_map_eq_ok_iff]
  cases x + Double.ratio 1 2 <;> simp [Double.isFinite]

/-- A score is in range. -/
theorem range_of_clampScore {x : Double} {n : Int} (h : clampScore x = .ok n) : InRange n := by
  rw [clampScore] at h
  cases hround : roundHalfUp x with
  | error e =>
    rw [hround] at h
    cases h
  | ok whole =>
    rw [hround] at h
    cases h
    exact inRange_clampWhole whole

/-- A score is in range, also the one that stands for a number without any. -/
theorem inRange_finiteScore (x : Double) : InRange (finiteScore x) := by
  rw [finiteScore]
  cases h : clampScore x with
  | error e => exact inRange_clampWhole 0
  | ok n => exact range_of_clampScore h

/-- A number of bounded size is rounded to a score. -/
theorem clampScore_of_atMost {k : Nat} {x : Double} (h : AtMost k x) (hk : k < maxBound) :
    clampScore x = .ok (finiteScore x) := by
  have hhalf : AtMost k (Double.ratio 1 2) :=
    Double.AtMost.mono (j := 0) (Double.atMost_ofRatio false (by decide) (by decide) (by norm_num))
      (Nat.zero_le k)
  obtain ⟨n, hn⟩ := (exists_clampScore_iff x).mpr (h.add hhalf hk).isFinite
  rw [finiteScore, hn]
  rfl

/-! ### Metrics -/

/-- The bound of numbers from 0 to 100. -/
def scoreBound : Nat := 7

/-- One hundred, in binary. -/
theorem hundred_eq : (100 : Double) = .finite false 7036874417766400 (-46) := by decide

/-- Zero, in binary. -/
theorem zero_eq : (0 : Double) = .finite false 0 Double.minExponent := by decide

/-- One hundred is within the bound of all scores. -/
theorem atMost_hundred : AtMost scoreBound 100 := by
  rw [hundred_eq]
  norm_num [AtMost, scoreBound]

/-- Zero is within every bound. -/
theorem atMost_zero (k : Nat) : AtMost k 0 := zero_eq ▸ Double.atMost_zero false k

/-- What lies between 0 and 100 is of bounded size. -/
theorem atMost_of_lt {x : Double} (hlow : Double.lt 0 x = true) (hhigh : x.lt 100 = true) :
    AtMost scoreBound x := by
  rw [zero_eq] at hlow
  rw [hundred_eq] at hhigh
  cases x with
  | nan => cases hlow
  | infinity s =>
    cases s
    · cases hhigh
    · cases hlow
  | finite s m e =>
    rw [Double.lt_finite_iff, Double.toRat_eq, Nat.cast_zero, zero_mul] at hlow
    rw [Double.lt_finite_iff, Double.toRat_eq] at hhigh
    show (m : Rat) * 2 ^ e ≤ 2 ^ scoreBound
    rw [← Double.abs_toRat s, abs_of_pos hlow]
    norm_num [scoreBound] at hhigh ⊢
    linarith

/-- A number that is brought into the range from 0 to 100 is of bounded size. -/
theorem atMost_clamp (x : Double) : AtMost scoreBound (clamp x) := by
  have hfloor : ∀ y, (Double.lt 0 y = true → AtMost scoreBound y) →
      AtMost scoreBound (if Double.lt 0 y then y else 0) := by
    intro y hy
    split
    next hlow => exact hy hlow
    next => exact atMost_zero scoreBound
  -- The upper bound is applied first, and what is no number is 100 already.
  refine hfloor _ fun hlow => ?_
  split at hlow
  next hhigh =>
    rw [if_pos hhigh]
    exact atMost_of_lt hlow hhigh
  next hhigh =>
    rw [if_neg hhigh]
    exact atMost_hundred

/-- Metrics that are clamped are within the bound. -/
theorem atMost_get_clamped (ms : MetricSet) (m : Metric) :
    AtMost scoreBound (ms.clamped.get m) := by
  cases m <;> exact atMost_clamp _

/-- The metrics of a text are of bounded size. -/
theorem atMost_metricsOf {profile : MetricProfile} {t : Text} {ms : MetricSet}
    (h : metricsOf profile t = .ok ms) (m : Metric) : AtMost scoreBound (ms.get m) := by
  have hcode (hasMarkdown : Bool) (t : Text) :
      AtMost scoreBound ((codeMetrics profile hasMarkdown t).get m) := by
    rw [codeMetrics]
    split <;> exact atMost_get_clamped _ m
  obtain ⟨found, -, h⟩ := ok_of_bind h
  cases found <;> cases h <;> exact hcode _ _

/-- The average of some numbers of bounded size is rounded to a score. -/
theorem clampScore_average {xs : List Double} (hne : xs ≠ [])
    (hlength : xs.length < 100) (h : ∀ x ∈ xs, AtMost scoreBound x) :
    clampScore (average xs) = .ok (finiteScore (average xs)) := by
  have hbound : scoreBound + xs.length < maxBound := by
    rw [scoreBound, maxBound]
    omega
  -- The sum may be large, but it is finite; the division does not make it larger.
  have hsum := Double.atMost_sum h (atMost_zero scoreBound) hbound.le
  exact clampScore_of_atMost (hsum.divNat hbound.le (List.length_pos_iff.mpr hne)) hbound

/-! ### Scores -/

/-- A weight is at most one. -/
theorem atMost_weightOf (n : Text) : AtMost 0 (Category.weightOf n) := by
  rw [Category.weightOf]
  split
  next c _ =>
    refine Double.atMost_ofRatio false (by decide) (by decide) ?_
    have hweight : (c.weight : Rat) ≤ 100 := by
      exact_mod_cast (by cases c <;> decide : c.weight ≤ 100)
    rw [pow_zero, div_le_one (by norm_num)]
    exact_mod_cast hweight
  next => exact atMost_zero 0

/-- The weighted sum of some scores is rounded to a score. -/
theorem clampScore_weightedSum {cs : List CategoryScore} (hlength : cs.length < 100)
    (h : ∀ c ∈ cs, InRange c.score) :
    clampScore (weightedSum cs) = .ok (overallScore cs) := by
  -- No term is larger than a score, so the sum of less than a hundred of them is finite.
  have hterms : ∀ x ∈ cs.map (fun c => Category.weightOf c.name * Double.ofInt c.score),
      AtMost scoreBound x := by
    rw [List.forall_mem_map]
    intro c hc
    obtain ⟨hlow, hhigh⟩ := h c hc
    have hscore : AtMost scoreBound (Double.ofInt c.score) := by
      refine Double.atMost_ofInt ?_ (by decide)
      rw [abs_of_nonneg hlow]
      exact hhigh.trans (by decide)
    rw [← Nat.zero_add scoreBound]
    exact (atMost_weightOf c.name).mul hscore (by decide)
  have hbound : scoreBound + cs.length < maxBound := by
    rw [scoreBound, maxBound]
    omega
  have hsum :=
    Double.atMost_sum hterms (atMost_zero scoreBound) (by rw [List.length_map]; exact hbound.le)
  rw [List.foldl_map, List.length_map] at hsum
  exact clampScore_of_atMost hsum hbound

end CodeTidy.Quality
