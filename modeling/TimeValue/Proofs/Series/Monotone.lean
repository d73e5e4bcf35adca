import TimeValue.Proofs.Compound.RateEquation
import TimeValue.Proofs.Series.Lengths

/-!
# Growth that does not turn back

Where both amounts are invested, and the rate takes nothing away, an investment is never worth less
after one period more.  Where both are owed, the debt never becomes less.  What one unit paid in
each period grows to rises with their number, and it does so on either side of the rate below which
no interest is counted.

## Main definitions

* `annuityFactor` — the factor of the growth series after whole periods.
* `Problem.negated` — the same problem seen by the other side.

## Main results

* `annuityFactor_le_succ` — one period more makes the factor no smaller.
* `monotone_growthSample` — one period more makes an investment worth no less.
* `growthSeries_monotone` — **the samples follow the sign of the amounts.**
-/

namespace TimeValue

/-! ### The factor -/

/-- What one unit paid in each of `n` periods grows to, as the growth series counts it. -/
noncomputable def annuityFactor (rate : ℝ) (n : ℕ) : ℝ :=
  (fvAnnuityFactorWithSlope rate (n : ℝ)).1

/-- Very near to a zero rate the periods are counted. -/
theorem annuityFactor_of_lt_zeroRate {rate : ℝ} (h : |rate| < zeroRate) (n : ℕ) :
    annuityFactor rate n = n := by
  have habs : Scalar.abs rate < zeroRate := h
  rw [annuityFactor, fvAnnuityFactorWithSlope, if_pos habs]

theorem annuityFactor_of_zeroRate_le {rate : ℝ} (h : zeroRate ≤ |rate|) (n : ℕ) :
    annuityFactor rate n = ∑ i ∈ Finset.range n, (1 + rate) ^ i := by
  rw [annuityFactor, fvAnnuityFactorWithSlope_eq n (.inr h), eval_annuityPolynomial]

/-- One period more makes the factor no smaller. -/
theorem annuityFactor_le_succ {rate : ℝ} (hrate : 0 ≤ rate) (n : ℕ) :
    annuityFactor rate n ≤ annuityFactor rate (n + 1) := by
  -- taken for zero, one period adds one; else it adds a power, which is positive
  obtain h | h := lt_or_ge |rate| zeroRate
  · rw [annuityFactor_of_lt_zeroRate h, annuityFactor_of_lt_zeroRate h]
    exact Nat.cast_le.2 n.le_succ
  · rw [annuityFactor_of_zeroRate_le h, annuityFactor_of_zeroRate_le h, Finset.sum_range_succ]
    exact le_add_of_nonneg_right (by positivity)

theorem monotone_annuityFactor {rate : ℝ} (hrate : 0 ≤ rate) : Monotone (annuityFactor rate) :=
  monotone_nat_of_le_succ (annuityFactor_le_succ hrate)

/-! ### The samples -/

variable {p : Problem ℝ}

/-- The value of an investment, whether or not anything is paid. -/
theorem growthSample_y (p : Problem ℝ) (n : ℕ) :
    (growthSample p n).y = p.presentValue * (1 + p.rate) ^ n +
      p.payment * annuityFactor p.rate n * p.timing.adjustment p.rate := by
  unfold growthSample totalFV compoundFV annuityFactor
  rw [Real.rpow_natCast]
  split
  · next hpay =>
    have hzero : p.payment = 0 := by simpa using hpay
    rw [hzero, zero_mul, zero_mul, add_zero]
  · rfl

theorem adjustment_pos (timing : PaymentTiming) {rate : ℝ} (hrate : 0 ≤ rate) :
    0 < timing.adjustment rate := by
  cases timing with
  | due => exact add_pos_of_pos_of_nonneg one_pos hrate
  | ordinary => exact one_pos

/-- An investment is worth no less after more periods. -/
theorem monotone_growthSample (hrate : 0 ≤ p.rate) (hpresent : 0 ≤ p.presentValue)
    (hpayment : 0 ≤ p.payment) : Monotone fun n => (growthSample p n).y := by
  intro m n hle
  have hbase : 1 ≤ 1 + p.rate := le_add_of_nonneg_right hrate
  have hadjustment := (adjustment_pos p.timing hrate).le
  simp only [growthSample_y]
  -- powers and factor both rise, and no amount is negative
  have hfactor := monotone_annuityFactor hrate hle
  gcongr

/-- The same problem seen by the other side. -/
noncomputable def Problem.negated (p : Problem ℝ) : Problem ℝ :=
  { p with presentValue := -p.presentValue, payment := -p.payment }

theorem growthSample_negated (p : Problem ℝ) (n : ℕ) :
    (growthSample p.negated n).y = -(growthSample p n).y := by
  rw [growthSample_y, growthSample_y]
  simp only [Problem.negated]
  ring

/-- A debt is no less after more periods. -/
theorem antitone_growthSample (hrate : 0 ≤ p.rate) (hpresent : p.presentValue ≤ 0)
    (hpayment : p.payment ≤ 0) : Antitone fun n => (growthSample p n).y := by
  intro m n hle
  -- the other side of the same problem invests
  have hnegated := monotone_growthSample (p := p.negated) hrate (neg_nonneg.2 hpresent)
    (neg_nonneg.2 hpayment) hle
  simp only [growthSample_negated] at hnegated
  exact neg_le_neg_iff.1 hnegated

/-! ### The series -/

theorem wholePeriods_real (x : ℝ) : wholePeriods x = ⌊x⌋₊ := by
  rw [wholePeriods, Scalar.floor_real, Scalar.toNat_real, ← Int.floor_toNat, Int.floor_intCast,
    Int.floor_toNat]

/-- Over the reals no series is refused that is not too long. -/
theorem growthSeries_of_isSpan (h : IsSpan p.periods) :
    growthSeries p = .ok ((List.range (⌊p.periods⌋₊ + 1)).map (growthSample p)) :=
  (growthSeries_lasting_eq_ok_iff (p := p) (v := p.futureValue) h).2
    ⟨⟨rfl, fun _ _ => rfl⟩, by rw [wholePeriods_real]⟩

/-- **The samples follow the sign of the amounts.**  At a rate that is not negative, a zero rate and
those taken for it included, and at either timing, no sample is less than one before it if both
amounts are invested, and none is more if both are owed.  There is a series unless the periods are
negative or too many. -/
theorem growthSeries_monotone (p : Problem ℝ) (hrate : 0 ≤ p.rate) :
    (0 ≤ p.periods → ⌊p.periods⌋ ≤ 10000 →
      ∃ s, growthSeries p = .ok s ∧ s.length = ⌊p.periods⌋₊ + 1) ∧
    ∀ s, growthSeries p = .ok s →
      (0 ≤ p.presentValue → 0 ≤ p.payment → s.Pairwise fun a b => a.y ≤ b.y) ∧
      (p.presentValue ≤ 0 → p.payment ≤ 0 → s.Pairwise fun a b => b.y ≤ a.y) := by
  refine ⟨fun hnonneg hlimit => ?_, fun s hs => ?_⟩
  · have hfloor : (⌊p.periods⌋ : ℝ) ≤ 10000 := by exact_mod_cast hlimit
    have hspan : IsSpan p.periods := ⟨rfl, hnonneg, hfloor⟩
    exact ⟨_, growthSeries_of_isSpan hspan, by rw [List.length_map, List.length_range]⟩
  · obtain ⟨-, -, rfl⟩ := growthSeries_eq_ok_iff.1 hs
    simp only [List.pairwise_map]
    refine ⟨fun hpresent hpayment => ?_, fun hpresent hpayment => ?_⟩
    · exact List.pairwise_lt_range.imp fun hlt =>
        monotone_growthSample hrate hpresent hpayment hlt.le
    · exact List.pairwise_lt_range.imp fun hlt =>
        antitone_growthSample hrate hpresent hpayment hlt.le

/-- A hundred, and ten at the starts of three periods, at a rate so small that it counts as zero:
invested, and owed. -/
theorem growthSeries_monotone_tiny_rate :
    (∃ s, growthSeries (⟨1e-10, 3.5, 100, 10, 0, .due⟩ : Problem ℝ) = .ok s ∧ s.length = 4 ∧
      s.Pairwise fun a b => a.y ≤ b.y) ∧
    ∃ s, growthSeries (⟨1e-10, 3.5, -100, -10, 0, .due⟩ : Problem ℝ) = .ok s ∧ s.length = 4 ∧
      s.Pairwise fun a b => b.y ≤ a.y := by
  have hfloor : ⌊(3.5 : ℝ)⌋ = 3 := by norm_num [Int.floor_eq_iff]
  have hwhole : ⌊(3.5 : ℝ)⌋₊ = 3 := by rw [← Int.floor_toNat, hfloor]; rfl
  obtain ⟨hinvested, hrises⟩ :=
    growthSeries_monotone (⟨1e-10, 3.5, 100, 10, 0, .due⟩ : Problem ℝ) (by norm_num)
  obtain ⟨howed, hfalls⟩ :=
    growthSeries_monotone (⟨1e-10, 3.5, -100, -10, 0, .due⟩ : Problem ℝ) (by norm_num)
  constructor
  · obtain ⟨s, hs, hlength⟩ := hinvested (by norm_num) (by rw [hfloor]; decide)
    exact ⟨s, hs, by rw [hlength, hwhole], (hrises s hs).1 (by norm_num) (by norm_num)⟩
  · obtain ⟨s, hs, hlength⟩ := howed (by norm_num) (by rw [hfloor]; decide)
    exact ⟨s, hs, by rw [hlength, hwhole], (hfalls s hs).2 (by norm_num) (by norm_num)⟩

end TimeValue
