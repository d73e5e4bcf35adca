import TimeValue.Proofs.Exact.Real

/-!
# The equation of compound interest

Over the reals the five quantities of a problem are tied by one equation: the future value is what
the present value and the payments have grown to.  A closed form is right if the value it gives,
put back in its place, balances the equation.

Two factors stand for the payments in the formulas, one at the end of the last period and one
before the first.  `pvAnnuityFactor_mul_growth` turns the second into the first, and is all that
the closed forms need to know of them.

## Main definitions

* `Problem.growth`, `Problem.annuity` — what one unit at the start, and one unit in each period,
  grow to.
* `Problem.accrued` — what the whole investment grows to.
* `Problem.Balanced` — the future value is what accrued.
* `Problem.Regular` — the equation has a meaning and can be solved for an amount.
* `Problem.PeriodsExact` — the formula of the number of periods is that of the equation.

## Main results

* `futureValueOf_eq_accrued`, `presentValueOf_eq_iff` — the amounts solve the equation.
* `solvePeriods_eq_of_balanced`, `solveRate_balanced` — so do periods and rate where exact.
* `solve_balanced` — **whatever `solve` gives balances the problem**.
-/

namespace TimeValue

/-! ### The equation -/

namespace Problem

/-- What one unit invested before the first period grows to. -/
noncomputable def growth (p : Problem ℝ) : ℝ :=
  (1 + p.rate) ^ p.periods

/-- What one unit paid in each period grows to. -/
noncomputable def annuity (p : Problem ℝ) : ℝ :=
  (p.growth - 1) / p.rate *
    match p.timing with
    | .due => 1 + p.rate
    | .ordinary => 1

/-- What present value and payments have grown to after the last period. -/
noncomputable def accrued (p : Problem ℝ) : ℝ :=
  p.presentValue * p.growth + p.payment * p.annuity

/-- The future value of the problem is what accrued. -/
def Balanced (p : Problem ℝ) : Prop :=
  p.futureValue = p.accrued

/-- There is interest, it does not eat up the investment, and time passes. -/
structure Regular (p : Problem ℝ) : Prop where
  /-- There is interest. -/
  rate_ne : p.rate ≠ 0
  /-- Some of an investment is left after a period. -/
  base_pos : 0 < 1 + p.rate
  /-- Time passes. -/
  periods_ne : p.periods ≠ 0

variable {p : Problem ℝ}

theorem growth_pos (hbase : 0 < 1 + p.rate) : 0 < p.growth :=
  Real.rpow_pos_of_pos hbase _

theorem log_growth (hbase : 0 < 1 + p.rate) :
    Real.log p.growth = p.periods * Real.log (1 + p.rate) :=
  Real.log_rpow hbase _

/-- Interest has a logarithm other than zero. -/
theorem log_base_ne_zero (hrate : p.rate ≠ 0) (hbase : 0 < 1 + p.rate) :
    Real.log (1 + p.rate) ≠ 0 := by
  intro h
  refine hrate ?_
  have hone : 1 + p.rate = 1 := Real.eq_one_of_pos_of_log_eq_zero hbase h
  linarith

theorem Regular.growth_ne_one (hp : p.Regular) : p.growth ≠ 1 := by
  intro h
  have hlog := log_growth hp.base_pos
  -- growth by one has no logarithm, while periods and interest each have some
  rw [h, Real.log_one] at hlog
  exact mul_ne_zero hp.periods_ne (log_base_ne_zero hp.rate_ne hp.base_pos) hlog.symm

theorem Regular.annuity_ne_zero (hp : p.Regular) : p.annuity ≠ 0 := by
  have hfactor : (p.growth - 1) / p.rate ≠ 0 :=
    div_ne_zero (sub_ne_zero.2 hp.growth_ne_one) hp.rate_ne
  unfold annuity
  cases p.timing with
  | due => exact mul_ne_zero hfactor hp.base_pos.ne'
  | ordinary => exact mul_ne_zero hfactor one_ne_zero

/-- Being regular is not about the amounts. -/
theorem Regular.set_amount (hp : p.Regular) {q : Quantity} (hrate : q ≠ .rate)
    (hperiods : q ≠ .periods) (x : ℝ) : (p.set q x).Regular := by
  cases q with
  | rate => exact absurd rfl hrate
  | periods => exact absurd rfl hperiods
  | presentValue => exact ⟨hp.rate_ne, hp.base_pos, hp.periods_ne⟩
  | payment => exact ⟨hp.rate_ne, hp.base_pos, hp.periods_ne⟩
  | futureValue => exact ⟨hp.rate_ne, hp.base_pos, hp.periods_ne⟩

end Problem

variable {p : Problem ℝ}

/-! ### The two annuity factors -/

theorem fvAnnuityFactor_mul_adjustment (p : Problem ℝ) :
    fvAnnuityFactor p.rate p.periods * p.timing.adjustment p.rate = p.annuity := by
  unfold fvAnnuityFactor Problem.annuity Problem.growth
  cases p.timing <;> rfl

/-- **The present factor, grown, is the future factor.** -/
theorem pvAnnuityFactor_mul_growth (hbase : 0 < 1 + p.rate) :
    pvAnnuityFactor p.rate p.periods * p.growth = fvAnnuityFactor p.rate p.periods := by
  -- the power that discounts undoes the growth
  have hcancel : (1 + p.rate) ^ (-p.periods) * p.growth = 1 := by
    rw [Real.rpow_neg hbase.le]
    exact inv_mul_cancel₀ (Problem.growth_pos hbase).ne'
  unfold pvAnnuityFactor fvAnnuityFactor
  calc (1 - (1 + p.rate) ^ (-p.periods)) / p.rate * p.growth
      = (p.growth - (1 + p.rate) ^ (-p.periods) * p.growth) / p.rate := by ring
    _ = (p.growth - 1) / p.rate := by rw [hcancel]

theorem pvAnnuityFactor_mul_adjustment (hbase : 0 < 1 + p.rate) :
    pvAnnuityFactor p.rate p.periods * p.timing.adjustment p.rate = p.annuity / p.growth := by
  rw [eq_div_iff (Problem.growth_pos hbase).ne', ← fvAnnuityFactor_mul_adjustment,
    ← pvAnnuityFactor_mul_growth hbase]
  ring

/-! ### Amounts -/

theorem futureValueOf_eq_accrued (p : Problem ℝ) : futureValueOf p = p.accrued := by
  unfold futureValueOf Problem.accrued
  split
  · next h =>
    have hpay : p.payment = 0 := by simpa using h
    rw [hpay, zero_mul, add_zero]
    rfl
  · next h =>
    rw [← fvAnnuityFactor_mul_adjustment, ← mul_assoc]
    rfl

theorem presentValueOf_eq (hbase : 0 < 1 + p.rate) :
    presentValueOf p = (p.futureValue - p.payment * p.annuity) / p.growth := by
  unfold presentValueOf
  split
  · next h =>
    have hpay : p.payment = 0 := by simpa using h
    rw [hpay, zero_mul, sub_zero]
    rfl
  · next h =>
    have hannuity : annuityPV p.payment p.rate p.periods p.timing =
        p.payment * (p.annuity / p.growth) := by
      rw [← pvAnnuityFactor_mul_adjustment hbase, ← mul_assoc]
      rfl
    rw [hannuity, sub_div, mul_div_assoc]
    rfl

/-- The present value found is the one that balances the problem. -/
theorem presentValueOf_eq_iff (hbase : 0 < 1 + p.rate) (x : ℝ) :
    presentValueOf p = x ↔ (p.set .presentValue x).Balanced := by
  have hgrowth : p.growth ≠ 0 := (Problem.growth_pos hbase).ne'
  have hbalanced : (p.set .presentValue x).Balanced ↔
      p.futureValue = x * p.growth + p.payment * p.annuity := Iff.rfl
  rw [presentValueOf_eq hbase, hbalanced, div_eq_iff hgrowth, sub_eq_iff_eq_add]

/-! ### Periods -/

/-- The number of periods is read off a ratio that is a power of `1 + rate`. -/
theorem log_div_log_eq_of_pow (hrate : p.rate ≠ 0) (hbase : 0 < 1 + p.rate) {ratio n : ℝ}
    (hratio : ratio = (1 + p.rate) ^ n) : Real.log ratio / Real.log (1 + p.rate) = n := by
  rw [hratio, Real.log_rpow hbase]
  exact mul_div_cancel_right₀ n (Problem.log_base_ne_zero hrate hbase)

/-- The number of periods is exact when nothing is paid. -/
theorem solvePeriods_eq_of_payment_eq_zero (hrate : p.rate ≠ 0) (hbase : 0 < 1 + p.rate)
    (hpay : p.payment = 0) (hpv : p.presentValue ≠ 0) {n : ℝ}
    (hbal : (p.set .periods n).Balanced) : solvePeriods p = .ok n := by
  have hfv : p.futureValue = p.presentValue * (1 + p.rate) ^ n + p.payment * _ := hbal
  rw [hpay, zero_mul, add_zero] at hfv
  -- without payments the values stand in the ratio of the growth
  have hratio : p.futureValue / p.presentValue = (1 + p.rate) ^ n := by
    rw [div_eq_iff hpv, mul_comm]
    exact hfv
  simp only [solvePeriods, hpay, beq_self_eq_true, if_true]
  exact congrArg Except.ok (log_div_log_eq_of_pow hrate hbase hratio)

/-- The number of periods is exact when payments fall at the ends of their periods. -/
theorem solvePeriods_eq_of_ordinary (hrate : p.rate ≠ 0) (hbase : 0 < 1 + p.rate)
    (hpay : p.payment ≠ 0) (htiming : p.timing = .ordinary)
    (hbreak : p.presentValue * p.rate + p.payment ≠ 0) {n : ℝ}
    (hbal : (p.set .periods n).Balanced) : solvePeriods p = .ok n := by
  have hannuity : (p.set .periods n).annuity = ((1 + p.rate) ^ n - 1) / p.rate * 1 := by
    unfold Problem.annuity
    rw [Problem.timing_set, htiming]
    rfl
  have hfv : p.futureValue =
      p.presentValue * (1 + p.rate) ^ n + p.payment * (p.set .periods n).annuity := hbal
  have hratio : (p.futureValue * p.rate + p.payment) / (p.presentValue * p.rate + p.payment) =
      (1 + p.rate) ^ n := by
    rw [div_eq_iff hbreak, hfv, hannuity]
    -- times the rate, the payments add their amount to both sides of the growth
    field_simp
    ring
  have hbeq : (p.payment == 0) = false := by simpa using hpay
  simp only [solvePeriods, hbeq, Bool.false_eq_true, if_false]
  exact congrArg Except.ok (log_div_log_eq_of_pow hrate hbase hratio)

/-- The equation can be solved for the number of periods, and the formula takes account of all of
it: of two amounts alone, or of payments at the ends of their periods. -/
def Problem.PeriodsExact (p : Problem ℝ) : Prop :=
  p.payment = 0 ∧ p.presentValue ≠ 0 ∨
    p.payment ≠ 0 ∧ p.timing = .ordinary ∧ p.presentValue * p.rate + p.payment ≠ 0

theorem solvePeriods_eq_of_balanced (hrate : p.rate ≠ 0) (hbase : 0 < 1 + p.rate)
    (hexact : p.PeriodsExact) {n : ℝ} (hbal : (p.set .periods n).Balanced) :
    solvePeriods p = .ok n := by
  rcases hexact with ⟨hpay, hpv⟩ | ⟨hpay, htiming, hbreak⟩
  · exact solvePeriods_eq_of_payment_eq_zero hrate hbase hpay hpv hbal
  · exact solvePeriods_eq_of_ordinary hrate hbase hpay htiming hbreak hbal

/-! ### Rate -/

/-- The closed form of the rate balances the problem. -/
theorem solveRate_balanced (config : SolverConfig ℝ) (hperiods : p.periods ≠ 0)
    (hpay : p.payment = 0) (hpv : p.presentValue ≠ 0)
    (hsign : 0 < p.futureValue / p.presentValue) :
    ∃ percent, solveRate config p = .ok percent ∧ (p.set .rate (percent / 100)).Balanced := by
  have hclosed : hasClosedRate p = true := by
    simp [hasClosedRate, hpay, hpv, hsign]
  refine ⟨rateToPercent ((p.futureValue / p.presentValue) ^ (1 / p.periods) - 1), ?_, ?_⟩
  · rw [solveRate, if_pos hclosed]
    rfl
  · set ratio := p.futureValue / p.presentValue with hratio
    have hrate :
        rateToPercent (ratio ^ (1 / p.periods) - 1) / 100 = ratio ^ (1 / p.periods) - 1 := by
      rw [← percentToRate_real, percentToRate_rateToPercent]
    -- the root that is taken is a power with the reciprocal exponent, so growing undoes it
    have hgrowth : (1 + (ratio ^ (1 / p.periods) - 1)) ^ p.periods = ratio := by
      rw [add_sub_cancel, ← Real.rpow_mul hsign.le, one_div_mul_cancel hperiods, Real.rpow_one]
    have hfv : p.futureValue = p.presentValue * ratio := by
      rw [hratio, mul_div_cancel₀ _ hpv]
    rw [hrate]
    show p.futureValue = p.presentValue * (1 + (ratio ^ (1 / p.periods) - 1)) ^ p.periods +
      p.payment * _
    rw [hgrowth, hpay, zero_mul, add_zero]
    exact hfv

/-! ### Solving -/

/-- Nothing stands in the way of solving a regular problem. -/
theorem Problem.Regular.checkProblem_eq_ok (hp : p.Regular) (asked : Quantity) :
    checkProblem asked p = .ok () :=
  checkProblem_real (fun _ => hp.rate_ne) (fun _ => hp.periods_ne)

/-- A regular problem is solved by the formula of the quantity asked for. -/
theorem solve_of_regular (config : SolverConfig ℝ) (hp : p.Regular) (asked : Quantity) :
    solve asked config p =
      match asked with
      | .rate => solveRate config p
      | .periods => (solvePeriods p).mapError .domain
      | .presentValue => .ok (presentValueOf p)
      | .payment => .ok (paymentOf p)
      | .futureValue => .ok (futureValueOf p) := by
  simp only [solve, hp.checkProblem_eq_ok]
  cases asked <;> rfl

/-- **The closed forms solve one equation.**  A future value or a present value that `solve` gives
balances the problem, and the second undoes the first.  The number of periods that balances the
problem is the one found where the formula is exact.  Without payments, and with both values of one
sign, so does the rate, which comes back as a percentage. -/
theorem solve_balanced (config : SolverConfig ℝ) (p : Problem ℝ) (hp : p.Regular) :
    (∃ fv, solve .futureValue config p = .ok fv ∧ (p.set .futureValue fv).Balanced ∧
      solve .presentValue config (p.set .futureValue fv) = .ok p.presentValue) ∧
    (∃ pv, solve .presentValue config p = .ok pv ∧ (p.set .presentValue pv).Balanced) ∧
    (p.PeriodsExact → ∀ n, (p.set .periods n).Balanced →
      solvePeriods p = .ok n ∧ solve .periods config p = .ok n) ∧
    (p.payment = 0 → p.presentValue ≠ 0 → 0 < p.futureValue / p.presentValue →
      ∃ percent, solveRate config p = .ok percent ∧ solve .rate config p = .ok percent ∧
        (p.set .rate (percent / 100)).Balanced) := by
  have hsolve := solve_of_regular config hp
  refine ⟨⟨futureValueOf p, hsolve .futureValue, ?_, ?_⟩,
    ⟨presentValueOf p, hsolve .presentValue, ?_⟩, ?_, ?_⟩
  · exact futureValueOf_eq_accrued p
  -- the present value comes back: it balances the problem that the future value was filled into
  · have hfilled : (p.set .futureValue (futureValueOf p)).Regular :=
      hp.set_amount (by decide) (by decide) _
    rw [solve_of_regular config hfilled]
    refine congrArg Except.ok ?_
    rw [presentValueOf_eq_iff hfilled.base_pos]
    exact futureValueOf_eq_accrued p
  · exact (presentValueOf_eq_iff hp.base_pos _).1 rfl
  · intro hexact n hbal
    have hfound := solvePeriods_eq_of_balanced hp.rate_ne hp.base_pos hexact hbal
    refine ⟨hfound, ?_⟩
    rw [hsolve .periods, hfound]
    rfl
  · intro hpay hpv hsign
    obtain ⟨percent, hfound, hbal⟩ := solveRate_balanced config hp.periods_ne hpay hpv hsign
    exact ⟨percent, hfound, (hsolve .rate).trans hfound, hbal⟩

/-- A hundred at 100 %, with or without ten paid at the ends of two periods. -/
theorem solve_balanced_two_periods :
    (∃ fv, solve .futureValue .standard (⟨1, 2, 100, 10, 430, .ordinary⟩ : Problem ℝ) = .ok fv ∧
      Problem.Balanced ⟨1, 2, 100, 10, fv, .ordinary⟩) ∧
    solve .periods .standard (⟨1, 2, 100, 10, 430, .ordinary⟩ : Problem ℝ) = .ok 2 ∧
    ∃ percent, solve .rate .standard (⟨1, 2, 100, 0, 400, .due⟩ : Problem ℝ) = .ok percent ∧
      Problem.Balanced ⟨percent / 100, 2, 100, 0, 400, .due⟩ := by
  have hpaid : (⟨1, 2, 100, 10, 430, .ordinary⟩ : Problem ℝ).Regular := by
    constructor <;> norm_num
  have hunpaid : (⟨1, 2, 100, 0, 400, .due⟩ : Problem ℝ).Regular := by
    constructor <;> norm_num
  obtain ⟨⟨fv, hfv, hbal, -⟩, -, hperiods, -⟩ := solve_balanced .standard _ hpaid
  obtain ⟨-, -, -, hrate⟩ := solve_balanced .standard _ hunpaid
  refine ⟨⟨fv, hfv, hbal⟩, (hperiods (.inr ?_) 2 ?_).2, ?_⟩
  · refine ⟨?_, rfl, ?_⟩ <;> norm_num
  · norm_num [Problem.Balanced, Problem.accrued, Problem.annuity, Problem.growth, Problem.set]
  · obtain ⟨percent, -, hsolved, hbal'⟩ := hrate rfl (by norm_num) (by norm_num)
    exact ⟨percent, hsolved, hbal'⟩

end TimeValue
