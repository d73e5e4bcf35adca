import Mathlib.Analysis.Convex.SpecificFunctions.Basic
import TimeValue.Proofs.Compound.Balance
import TimeValue.Series.Sample

/-!
# The growth series

The series has a sample at the start and one after each whole period.  It evaluates the formula of
the future value, but through the annuity factor that takes a rate very near to zero for zero.  At
any other rate, and where nothing is paid, the two formulas are the same operations in the same
order, and so give the same number whatever the numbers are.

Near a zero rate they part, and not by an error of rounding: over the reals the two factors are
different numbers as soon as there is more than one period.

## Main definitions

* `Problem.Lasts` — the number of periods is a whole number.

## Main results

* `growthSeries_eq_ok_iff` — when the series is not refused, and what it holds.
* `growthSeries_of_whole` — over the reals it is never refused within the limit.
* `growthSample_last` — away from a zero rate the last sample is what accrued.
* `growthSeries_end_of_solve` — **where the series ends**, next to the solved future value.
* `totalFV_eq_accrued_iff` — near a zero rate the two agree after one period only.
-/

namespace TimeValue

/-! ### Any numbers -/

section AnyNumbers

variable {α : Type} [Scalar α] {p : Problem α}

theorem ensureFiniteSeries_eq_ok_iff (operation : Operation) {samples s : List (Sample α)} :
    ensureFiniteSeries operation samples = .ok s ↔
      (∀ sample ∈ samples, Scalar.isFinite sample.y = true) ∧ samples = s := by
  unfold ensureFiniteSeries
  rw [← List.all_eq_true]
  split
  · next h => simp [h]
  · next h => simp [h]

/-- A series is refused for its periods, its rate, its length or a value that is not finite. -/
theorem growthSeries_eq_ok_iff {s : List (Sample α)} :
    growthSeries p = .ok s ↔
      (Scalar.isFinite p.periods = true ∧ ¬ p.periods < 0 ∧ Scalar.isFinite p.rate = true ∧
        ¬ (maxGrowthPeriods : α) < Scalar.floor p.periods) ∧
      (∀ i ≤ Scalar.toNat (Scalar.floor p.periods),
        Scalar.isFinite (growthSample p i).y = true) ∧
      (List.range (Scalar.toNat (Scalar.floor p.periods) + 1)).map (growthSample p) = s := by
  have hsamples : (∀ sample ∈ (List.range (Scalar.toNat (Scalar.floor p.periods) + 1)).map
        (growthSample p), Scalar.isFinite sample.y = true) ↔
      ∀ i ≤ Scalar.toNat (Scalar.floor p.periods),
        Scalar.isFinite (growthSample p i).y = true := by
    simp
  rw [← hsamples, ← ensureFiniteSeries_eq_ok_iff .growthSeries]
  unfold growthSeries
  -- the cases follow the order of the checks
  by_cases hperiods : Scalar.isFinite p.periods = true ∧ ¬ p.periods < 0
  · by_cases hrate : Scalar.isFinite p.rate = true
    · by_cases hlimit : (maxGrowthPeriods : α) < Scalar.floor p.periods
      · simp [hperiods, hrate, hlimit]
      · simp [hperiods, hrate, hlimit]
    · simp [hperiods, hrate]
  · have hrefused : (!Scalar.isFinite p.periods || decide (p.periods < 0)) = true := by
      simpa [imp_iff_not_or] using hperiods
    rw [if_pos hrefused]
    simp only [reduceCtorEq, false_iff, not_and]
    intro h
    exact absurd ⟨h.1, h.2.1⟩ hperiods

/-- The number of periods is the whole number `n`, and is recognized as such. -/
structure Problem.Lasts (p : Problem α) (n : ℕ) : Prop where
  /-- There are `n` periods. -/
  periods_eq : p.periods = n
  /-- None of them is dropped, and none added, in making a natural number of it. -/
  toNat_floor : Scalar.toNat (Scalar.floor p.periods) = n

theorem solve_futureValue_eq_ok {config : SolverConfig α} {v : α}
    (h : solve .futureValue config p = .ok v) : v = futureValueOf p := by
  unfold solve solveClosed at h
  cases hcheck : checkProblem .futureValue p with
  | error e => simp [hcheck, Except.mapError, bind, Except.bind] at h
  | ok _ =>
    cases hvalue : ensureFinite (.solving .futureValue) (futureValueOf p) with
    | error e => simp [hcheck, hvalue, Except.mapError, bind, Except.bind] at h
    | ok v' =>
      have hv' : v' = v := by
        simpa [hcheck, hvalue, Except.mapError, bind, Except.bind] using h
      rw [← hv']
      exact (isFinite_of_ensureFinite hvalue).1

/-- The two formulas are one where nothing is paid, and away from a zero rate. -/
theorem totalFV_eq_futureValueOf
    (h : (p.payment == 0) = true ∨ ¬ Scalar.abs p.rate < zeroRate) :
    totalFV p.presentValue p.payment p.rate p.periods p.timing = futureValueOf p := by
  unfold totalFV futureValueOf
  split
  · rfl
  · next hpay =>
    have hrate : ¬ Scalar.abs p.rate < zeroRate := h.resolve_left hpay
    rw [annuityFV, fvAnnuityFactorWithSlope, if_neg hrate]
    rfl

/-- Near a zero rate payments count without interest on them. -/
theorem totalFV_of_lt_zeroRate (hpay : (p.payment == 0) = false)
    (hrate : Scalar.abs p.rate < zeroRate) :
    totalFV p.presentValue p.payment p.rate p.periods p.timing =
      compoundFV p.presentValue p.rate p.periods +
        p.payment * p.periods * p.timing.adjustment p.rate := by
  simp only [totalFV, hpay, Bool.false_eq_true, if_false, fvAnnuityFactorWithSlope, if_pos hrate]

theorem futureValueOf_of_payment (hpay : (p.payment == 0) = false) :
    futureValueOf p = compoundFV p.presentValue p.rate p.periods +
      p.payment * fvAnnuityFactor p.rate p.periods * p.timing.adjustment p.rate := by
  simp only [futureValueOf, hpay, Bool.false_eq_true, if_false, annuityFV]

/-- The last sample of a series is the one after the last period. -/
theorem growthSeries_getLast? {n : ℕ} (hn : p.Lasts n) {s : List (Sample α)}
    (hs : growthSeries p = .ok s) :
    s.getLast? =
      some ⟨n, totalFV p.presentValue p.payment p.rate p.periods p.timing⟩ := by
  obtain ⟨-, -, rfl⟩ := growthSeries_eq_ok_iff.1 hs
  rw [hn.toNat_floor, List.range_succ, List.map_append, List.map_singleton, List.getLast?_concat,
    growthSample, hn.periods_eq]

/-- **Where the growth series ends.**  For a whole number of periods, its last sample is the solved
future value, the same number, if nothing is paid or the rate is not taken for zero.  If it is,
the series ends at what the payments come to without interest on them, while the solved value
counts them by the annuity factor of the rate. -/
theorem growthSeries_end_of_solve {n : ℕ} (hn : p.Lasts n) {config : SolverConfig α} {v : α}
    (hv : solve .futureValue config p = .ok v) {s : List (Sample α)}
    (hs : growthSeries p = .ok s) :
    ((p.payment == 0) = true ∨ ¬ Scalar.abs p.rate < zeroRate → s.getLast? = some ⟨n, v⟩) ∧
    ((p.payment == 0) = false → Scalar.abs p.rate < zeroRate →
      s.getLast? = some ⟨n, compoundFV p.presentValue p.rate p.periods +
        p.payment * p.periods * p.timing.adjustment p.rate⟩ ∧
      v = compoundFV p.presentValue p.rate p.periods +
        p.payment * fvAnnuityFactor p.rate p.periods * p.timing.adjustment p.rate) := by
  have hlast := growthSeries_getLast? hn hs
  have hsolved := solve_futureValue_eq_ok hv
  refine ⟨fun h => ?_, fun hpay hrate => ⟨?_, ?_⟩⟩
  · rw [hlast, hsolved, totalFV_eq_futureValueOf h]
  · rw [hlast, totalFV_of_lt_zeroRate hpay hrate]
  · rw [hsolved, futureValueOf_of_payment hpay]

end AnyNumbers

/-! ### The reals -/

variable {p : Problem ℝ}

/-- What an investment comes to, away from a zero rate. -/
theorem totalFV_eq_accrued (hrate : zeroRate ≤ |p.rate|) :
    totalFV p.presentValue p.payment p.rate p.periods p.timing = p.accrued := by
  rw [totalFV_eq_futureValueOf (.inr (not_lt.2 hrate)), futureValueOf_eq_accrued]

/-- **Near a zero rate payments are worth more than they count**, except in a single period. -/
theorem totalFV_eq_accrued_iff (hp : p.Regular) (hrate : |p.rate| < zeroRate)
    (hpay : p.payment ≠ 0) (hperiods : 1 ≤ p.periods) :
    totalFV p.presentValue p.payment p.rate p.periods p.timing = p.accrued ↔ p.periods = 1 := by
  have hbeq : (p.payment == 0) = false := by simpa using hpay
  have hadjustment : p.timing.adjustment p.rate ≠ 0 := by
    cases p.timing with
    | due => exact hp.base_pos.ne'
    | ordinary => exact one_ne_zero
  have hfactor : totalFV p.presentValue p.payment p.rate p.periods p.timing = p.accrued ↔
      p.periods * p.rate = p.growth - 1 := by
    rw [totalFV_of_lt_zeroRate hbeq hrate, ← futureValueOf_eq_accrued,
      futureValueOf_of_payment hbeq, add_right_inj, mul_left_inj' hadjustment,
      mul_right_inj' hpay, fvAnnuityFactor, eq_div_iff hp.rate_ne]
    rfl
  rw [hfactor]
  constructor
  · intro h
    by_contra hne
    -- Bernoulli's inequality is strict for more than one period
    have hlt : 1 + p.periods * p.rate < p.growth :=
      one_add_mul_self_lt_rpow_one_add (by linarith [hp.base_pos]) hp.rate_ne
        (lt_of_le_of_ne hperiods (Ne.symm hne))
    linarith
  · intro h
    rw [Problem.growth, h, Real.rpow_one]
    ring

theorem floor_periods_of_whole {n : ℕ} (hn : p.periods = n) :
    Scalar.floor p.periods = (n : ℝ) := by
  rw [Scalar.floor_real, hn, Int.floor_natCast, Int.cast_natCast]

theorem Problem.lasts_of_whole {n : ℕ} (hn : p.periods = n) : p.Lasts n := by
  refine ⟨hn, ?_⟩
  rw [floor_periods_of_whole hn, Scalar.toNat_real, Nat.floor_natCast]

theorem growthSeries_of_whole {n : ℕ} (hn : p.periods = n) (hle : n ≤ maxGrowthPeriods) :
    growthSeries p = .ok ((List.range (n + 1)).map (growthSample p)) := by
  have hpos : ¬ p.periods < 0 := not_lt.2 (hn ▸ n.cast_nonneg)
  have hlimit : ¬ (maxGrowthPeriods : ℝ) < n := not_lt.2 (Nat.cast_le.2 hle)
  rw [growthSeries_eq_ok_iff, (Problem.lasts_of_whole hn).toNat_floor, floor_periods_of_whole hn]
  exact ⟨⟨rfl, hpos, rfl, hlimit⟩, fun _ _ => rfl, rfl⟩

/-- **The series ends at what accrued.** -/
theorem growthSample_last (hrate : zeroRate ≤ |p.rate|) {n : ℕ} (hn : p.periods = n) :
    growthSample p n = ⟨n, p.accrued⟩ := by
  unfold growthSample
  rw [← hn, totalFV_eq_accrued hrate]

/-- Five hundred, and fifty in each of twelve periods at 6 %: the series ends at the solved value.
At a rate of 1e-10 it ends at the payments alone. -/
theorem growthSeries_end_of_deposits :
    (∃ v s, solve .futureValue .standard (⟨0.06, 12, 500, 50, 0, .ordinary⟩ : Problem ℝ) = .ok v ∧
      growthSeries (⟨0.06, 12, 500, 50, 0, .ordinary⟩ : Problem ℝ) = .ok s ∧
      s.getLast? = some ⟨(12 : ℕ), v⟩) ∧
    ∃ s, growthSeries (⟨1e-10, 2, 0, 100, 0, .due⟩ : Problem ℝ) = .ok s ∧
      s.getLast? = some ⟨(2 : ℕ), 0 * (1 + 1e-10) ^ (2 : ℝ) + 100 * 2 * (1 + 1e-10)⟩ := by
  have hsix : (⟨0.06, 12, 500, 50, 0, .ordinary⟩ : Problem ℝ).Regular := by
    constructor <;> norm_num
  have hsmall : (⟨1e-10, 2, 0, 100, 0, .due⟩ : Problem ℝ).Regular := by
    constructor <;> norm_num
  constructor
  · have hv := solve_of_regular .standard hsix .futureValue
    have hs := growthSeries_of_whole (p := ⟨0.06, 12, 500, 50, 0, .ordinary⟩) (n := 12) rfl
      (by decide)
    refine ⟨_, _, hv, hs, ?_⟩
    refine (growthSeries_end_of_solve (Problem.lasts_of_whole rfl) hv hs).1 (.inr ?_)
    norm_num [zeroRate]
  · have hv := solve_of_regular .standard hsmall .futureValue
    have hs := growthSeries_of_whole (p := ⟨1e-10, 2, 0, 100, 0, .due⟩) (n := 2) rfl (by decide)
    refine ⟨_, hs, ?_⟩
    refine ((growthSeries_end_of_solve (Problem.lasts_of_whole rfl) hv hs).2 ?_ ?_).1
    · norm_num
    · norm_num [zeroRate]

/-- A hundred in each of two periods at a rate of 1e-10: the series does not end
at the solved future value. -/
theorem growthSeries_end_ne_futureValue :
    ∃ v s, solve .futureValue .standard (⟨1e-10, 2, 0, 100, 0, .ordinary⟩ : Problem ℝ) = .ok v ∧
      growthSeries (⟨1e-10, 2, 0, 100, 0, .ordinary⟩ : Problem ℝ) = .ok s ∧
      s.getLast? ≠ some ⟨(2 : ℕ), v⟩ := by
  have hp : (⟨1e-10, 2, 0, 100, 0, .ordinary⟩ : Problem ℝ).Regular := by
    constructor <;> norm_num
  have hs := growthSeries_of_whole (p := ⟨1e-10, 2, 0, 100, 0, .ordinary⟩) (n := 2) rfl (by decide)
  refine ⟨_, _, solve_of_regular .standard hp .futureValue, hs, fun hend => ?_⟩
  rw [growthSeries_getLast? (Problem.lasts_of_whole rfl) hs, futureValueOf_eq_accrued] at hend
  have hrate : |(1e-10 : ℝ)| < zeroRate := by norm_num [zeroRate]
  have htwo := (totalFV_eq_accrued_iff hp hrate (by norm_num) (by norm_num)).1
    (congrArg Sample.y (Option.some.inj hend))
  norm_num at htwo

end TimeValue
