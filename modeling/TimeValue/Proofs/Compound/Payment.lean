import TimeValue.Proofs.Series.Growth

/-!
# The sign of a solved payment

In every formula but one the payments of a problem add to its present value.  The closed form of
the payment is that of a loan: it gives what is paid back, and so the negative of the payment that
balances the problem.  Put back in its place it balances the problem only if there was nothing to
pay, and the growth series drawn with it ends as far from the future value on the other side of
what the present value alone grows to.

## Main results

* `balanced_set_payment_iff` — the payment that balances a problem.
* `solve_payment_eq_neg` — what `solve` gives is its negative, and what that leads to.
-/

namespace TimeValue

variable {p : Problem ℝ}

theorem paymentOf_eq (hp : p.Regular) (hpay : p.payment ≠ 0) :
    paymentOf p = (p.presentValue * p.growth - p.futureValue) / p.annuity := by
  have hgrowth : p.growth ≠ 0 := (Problem.growth_pos hp.base_pos).ne'
  have hannuity : p.annuity ≠ 0 := hp.annuity_ne_zero
  have hbeq : (p.payment == 0) = false := by simpa using hpay
  have hdef : paymentOf p = (p.presentValue - p.futureValue / p.growth) /
      (pvAnnuityFactor p.rate p.periods * p.timing.adjustment p.rate) := by
    simp only [paymentOf, hbeq, Bool.false_eq_true, if_false]
    rfl
  rw [hdef, pvAnnuityFactor_mul_adjustment hp.base_pos]
  field_simp

/-- **The payment that balances a problem** is the negative of the closed form. -/
theorem balanced_set_payment_iff (hp : p.Regular) (hpay : p.payment ≠ 0) (x : ℝ) :
    (p.set .payment x).Balanced ↔ x = -paymentOf p := by
  have hbalanced : (p.set .payment x).Balanced ↔
      p.futureValue = p.presentValue * p.growth + x * p.annuity := Iff.rfl
  rw [hbalanced, paymentOf_eq hp hpay, ← neg_div, eq_div_iff hp.annuity_ne_zero]
  constructor
  · intro h
    linarith
  · intro h
    linarith

/-- The closed form balances a problem only without a need to pay. -/
theorem balanced_set_paymentOf_iff (hp : p.Regular) (hpay : p.payment ≠ 0) :
    (p.set .payment (paymentOf p)).Balanced ↔
      p.futureValue = p.presentValue * p.growth := by
  rw [balanced_set_payment_iff hp hpay, self_eq_neg, paymentOf_eq hp hpay,
    div_eq_zero_iff, or_iff_left hp.annuity_ne_zero, sub_eq_zero, eq_comm]

/-- What accrues with the closed form paid: the future value, mirrored. -/
theorem accrued_set_paymentOf (hp : p.Regular) (hpay : p.payment ≠ 0) :
    (p.set .payment (paymentOf p)).accrued =
      2 * (p.presentValue * p.growth) - p.futureValue := by
  have haccrued : (p.set .payment (paymentOf p)).accrued =
      p.presentValue * p.growth + paymentOf p * p.annuity := rfl
  rw [haccrued, paymentOf_eq hp hpay, div_mul_cancel₀ _ hp.annuity_ne_zero]
  ring

/-- The closed form reads the payment off the future value it leads to, with the other sign. -/
theorem paymentOf_set_accrued (hp : p.Regular) (hpay : p.payment ≠ 0) :
    paymentOf (p.set .futureValue p.accrued) = -p.payment := by
  have hfilled : (p.set .futureValue p.accrued).Regular :=
    hp.set_amount (by decide) (by decide) _
  -- the payment balances the problem that it led to, so it is the negative of what is solved there
  have hneg : p.payment = -paymentOf (p.set .futureValue p.accrued) :=
    (balanced_set_payment_iff hfilled hpay p.payment).1 rfl
  rw [hneg, neg_neg]

/-- **A solved payment has the wrong sign.**  Where a payment is asked for, its negative is the one
that balances the problem, so that it balances the problem itself exactly when the present value
alone grows to the future value.  Solved from the future value that a payment leads to, it comes
back negated.  The growth series drawn with it ends at the future value mirrored in what the
present value grows to. -/
theorem solve_payment_eq_neg (config : SolverConfig ℝ) (p : Problem ℝ) (hp : p.Regular)
    (hpay : p.payment ≠ 0) :
    ∃ m, solve .payment config p = .ok m ∧
      (∀ x, (p.set .payment x).Balanced ↔ x = -m) ∧
      ((p.set .payment m).Balanced ↔ p.futureValue = p.presentValue * p.growth) ∧
      (∃ fv, solve .futureValue config p = .ok fv ∧
        solve .payment config (p.set .futureValue fv) = .ok (-p.payment)) ∧
      ∀ n : ℕ, p.periods = n → n ≤ maxGrowthPeriods → zeroRate ≤ |p.rate| →
        ∃ before, growthSeries (p.fill .payment m) =
          .ok (before ++ [⟨n, 2 * (p.presentValue * p.growth) - p.futureValue⟩]) := by
  have hsolve := solve_of_regular config hp
  refine ⟨paymentOf p, hsolve .payment, balanced_set_payment_iff hp hpay,
    balanced_set_paymentOf_iff hp hpay, ⟨futureValueOf p, hsolve .futureValue, ?_⟩, ?_⟩
  · have hfilled : (p.set .futureValue (futureValueOf p)).Regular :=
      hp.set_amount (by decide) (by decide) _
    rw [solve_of_regular config hfilled]
    refine congrArg Except.ok ?_
    rw [futureValueOf_eq_accrued, paymentOf_set_accrued hp hpay]
  · intro n hn hle hrate
    have hfill : p.fill .payment (paymentOf p) = p.set .payment (paymentOf p) := rfl
    refine ⟨(List.range n).map (growthSample (p.set .payment (paymentOf p))), ?_⟩
    -- the last sample of the series is what accrues with the solved payment
    have hfilled : (p.set .payment (paymentOf p)).periods = n := hn
    rw [hfill, growthSeries_of_whole hfilled hle, List.range_succ, List.map_append,
      List.map_singleton, growthSample_last (p := p.set .payment (paymentOf p)) hrate hfilled,
      accrued_set_paymentOf hp hpay]

/-- A hundred at 100 % comes to nothing after one period if two hundred are taken out of it: the
solved payment is two hundred paid in. -/
theorem solve_payment_loan :
    ∃ m, solve .payment .standard (⟨1, 1, 100, 1, 0, .ordinary⟩ : Problem ℝ) = .ok m ∧
      Problem.Balanced ⟨1, 1, 100, -m, 0, .ordinary⟩ := by
  have hp : (⟨1, 1, 100, 1, 0, .ordinary⟩ : Problem ℝ).Regular := by
    constructor <;> norm_num
  obtain ⟨m, hm, hbal, -⟩ := solve_payment_eq_neg .standard _ hp one_ne_zero
  exact ⟨m, hm, (hbal (-m)).2 rfl⟩

/-- The solved payment of a loan does not balance the problem it was asked for. -/
theorem solve_payment_not_balanced :
    ∃ m, solve .payment .standard (⟨1, 1, 100, 1, 0, .ordinary⟩ : Problem ℝ) = .ok m ∧
      ¬ Problem.Balanced ⟨1, 1, 100, m, 0, .ordinary⟩ := by
  have hp : (⟨1, 1, 100, 1, 0, .ordinary⟩ : Problem ℝ).Regular := by
    constructor <;> norm_num
  refine ⟨_, solve_of_regular .standard hp .payment, fun hbal => ?_⟩
  have hgrown := (balanced_set_paymentOf_iff hp one_ne_zero).1 hbal
  norm_num [Problem.growth] at hgrown

end TimeValue
