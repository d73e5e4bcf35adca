import Mathlib.Algebra.Polynomial.Derivative
import Mathlib.Algebra.Ring.GeomSum
import TimeValue.Proofs.Exact.Real

/-!
# The rate equation is a polynomial

For a whole number of periods everything that the search for a rate evaluates is a polynomial in
the rate.  One unit paid in each period grows to the sum of the powers of `1 + rate`, and the
factor of the formulas is this sum, written as a quotient by the rate; at a zero rate, where there
is no quotient, the values put in its place are those of the sum.  So value and slope of the rate
equation belong to one polynomial, on either side of the branch.

## Main definitions

* `annuityPolynomial` — what one unit paid in each period grows to.
* `Problem.ratePolynomial` — by how much a problem misses its future value.

## Main results

* `annuityPolynomial_mul_X`, `derivative_annuityPolynomial_mul_X` — sum and slope as quotients.
* `fvAnnuityFactorWithSlope_eq` — the factor and its slope are those of the sum.
* `rateEquation_eq_eval` — **value and slope of the rate equation come from one polynomial.**
-/

namespace TimeValue

open Polynomial

/-! ### The annuity -/

/-- What one unit paid at the end of each of `n` periods grows to, in the rate. -/
noncomputable def annuityPolynomial (n : ℕ) : ℝ[X] :=
  ∑ i ∈ Finset.range n, (1 + X) ^ i

theorem annuityPolynomial_succ (n : ℕ) :
    annuityPolynomial (n + 1) = annuityPolynomial n + (1 + X) ^ n :=
  Finset.sum_range_succ _ n

theorem eval_annuityPolynomial (n : ℕ) (rate : ℝ) :
    (annuityPolynomial n).eval rate = ∑ i ∈ Finset.range n, (1 + rate) ^ i := by
  simp [annuityPolynomial, eval_finsetSum]

/-- The sum is a quotient by the rate. -/
theorem annuityPolynomial_mul_X (n : ℕ) : annuityPolynomial n * X = (1 + X) ^ n - 1 := by
  have hgeom := geom_sum_mul (1 + X : ℝ[X]) n
  rwa [add_sub_cancel_left] at hgeom

theorem derivative_one_add_X_pow (n : ℕ) :
    derivative ((1 + X : ℝ[X]) ^ n) = C (n : ℝ) * (1 + X) ^ (n - 1) := by
  simp [derivative_pow]

/-- So is its slope, once the sum is taken away. -/
theorem derivative_annuityPolynomial_mul_X (n : ℕ) :
    derivative (annuityPolynomial n) * X + annuityPolynomial n =
      C (n : ℝ) * (1 + X) ^ (n - 1) := by
  have hproduct := congrArg derivative (annuityPolynomial_mul_X n)
  -- the rule for products, on both sides of the quotient's equation
  rwa [derivative_mul, derivative_X, mul_one, derivative_sub, derivative_one, sub_zero,
    derivative_one_add_X_pow] at hproduct

/-- Without interest there is one unit for each period. -/
theorem eval_zero_annuityPolynomial (n : ℕ) : (annuityPolynomial n).eval 0 = n := by
  simp [eval_annuityPolynomial]

theorem eval_zero_derivative_annuityPolynomial (n : ℕ) :
    (derivative (annuityPolynomial n)).eval 0 = n * (n - 1) / 2 := by
  induction n with
  | zero => simp [annuityPolynomial]
  | succ n ih =>
    have hlast : (derivative ((1 + X : ℝ[X]) ^ n)).eval 0 = n := by
      simp [derivative_one_add_X_pow]
    rw [annuityPolynomial_succ, derivative_add, eval_add, ih, hlast, Nat.cast_succ]
    ring

/-! ### The factor of the formulas -/

variable {rate : ℝ}

/-- Of the rates that are not very near to zero without being zero, only zero counts as such. -/
theorem abs_lt_zeroRate_iff (hrate : rate = 0 ∨ zeroRate ≤ |rate|) :
    Scalar.abs rate < zeroRate ↔ rate = 0 := by
  constructor
  · exact fun hlt => hrate.resolve_right (not_le.2 hlt)
  · rintro rfl
    norm_num [zeroRate]

/-- The slope of a power of one period less, which no period at all leaves out. -/
theorem natCast_mul_rpow_sub_one (n : ℕ) (x : ℝ) :
    (n : ℝ) * x ^ ((n : ℝ) - 1) = n * x ^ (n - 1) := by
  cases n with
  | zero => simp
  | succ n => rw [Nat.cast_succ, add_sub_cancel_right, Real.rpow_natCast, Nat.add_sub_cancel]

/-- **The factor and its slope are those of the sum**, at a zero rate as well. -/
theorem fvAnnuityFactorWithSlope_eq (n : ℕ) (hrate : rate = 0 ∨ zeroRate ≤ |rate|) :
    fvAnnuityFactorWithSlope rate (n : ℝ) =
      ((annuityPolynomial n).eval rate, (derivative (annuityPolynomial n)).eval rate) := by
  unfold fvAnnuityFactorWithSlope
  -- at zero the sum itself is evaluated; elsewhere it is the quotient, whose slope is that of a
  -- product
  by_cases hzero : rate = 0
  · subst hzero
    rw [if_pos ((abs_lt_zeroRate_iff hrate).2 rfl), eval_zero_annuityPolynomial,
      eval_zero_derivative_annuityPolynomial]
    norm_num
  · rw [if_neg fun hlt => hzero ((abs_lt_zeroRate_iff hrate).1 hlt)]
    have hvalue : (annuityPolynomial n).eval rate * rate = (1 + rate) ^ n - 1 := by
      simpa using congrArg (eval rate) (annuityPolynomial_mul_X n)
    have hslope : (derivative (annuityPolynomial n)).eval rate * rate +
        (annuityPolynomial n).eval rate = n * (1 + rate) ^ (n - 1) := by
      simpa using congrArg (eval rate) (derivative_annuityPolynomial_mul_X n)
    refine Prod.ext ?_ ?_
    · show ((1 + rate) ^ (n : ℝ) - 1) / rate = _
      rw [Real.rpow_natCast, ← hvalue, mul_div_cancel_right₀ _ hzero]
    · show n * (1 + rate) ^ ((n : ℝ) - 1) / rate -
        ((1 + rate) ^ (n : ℝ) - 1) / (rate * rate) = _
      rw [natCast_mul_rpow_sub_one, Real.rpow_natCast, ← hvalue, ← hslope]
      field_simp
      ring

/-! ### The rate equation -/

/-- What payments at this timing are worth at the ends of their periods, in the rate. -/
noncomputable def PaymentTiming.polynomial : PaymentTiming → ℝ[X]
  | .due => 1 + X
  | .ordinary => 1

/-- By how much a problem of `n` periods misses its future value, in the rate. -/
noncomputable def Problem.ratePolynomial (p : Problem ℝ) (n : ℕ) : ℝ[X] :=
  C p.presentValue * (1 + X) ^ n +
    C p.payment * p.timing.polynomial * ∑ i ∈ Finset.range n, (1 + X) ^ i - C p.futureValue

/-- **Value and slope of the rate equation come from one polynomial.**  For a whole number of
periods the equation evaluates a polynomial in the rate and its derivative, at a zero rate as well
as at those that are not very near to it. -/
theorem rateEquation_eq_eval {p : Problem ℝ} {n : ℕ} (hn : p.periods = n)
    (hrate : rate = 0 ∨ zeroRate ≤ |rate|) :
    rateEquation p rate =
      ((p.ratePolynomial n).eval rate, (derivative (p.ratePolynomial n)).eval rate) := by
  have hfactor := fvAnnuityFactorWithSlope_eq n hrate
  have hpolynomial : p.ratePolynomial n = C p.presentValue * (1 + X) ^ n +
    C p.payment * p.timing.polynomial * annuityPolynomial n - C p.futureValue := rfl
  unfold rateEquation
  rw [hn, hfactor, hpolynomial, natCast_mul_rpow_sub_one, Real.rpow_natCast]
  cases p.timing with
  | due =>
    refine Prod.ext ?_ ?_
    · simp [PaymentTiming.adjustment, PaymentTiming.polynomial]
      ring
    · simp [PaymentTiming.adjustment, PaymentTiming.polynomial, derivative_one_add_X_pow]
      ring
  | ordinary =>
    refine Prod.ext ?_ ?_
    · simp [PaymentTiming.adjustment, PaymentTiming.polynomial]
    · simp [PaymentTiming.adjustment, PaymentTiming.polynomial, derivative_one_add_X_pow]

/-- A hundred, and ten at the starts of two periods, against 430: at 100 %, and without interest. -/
theorem rateEquation_eq_eval_two_periods :
    rateEquation (⟨0, 2, 100, 10, 430, .due⟩ : Problem ℝ) 1 = (30, 450) ∧
      rateEquation (⟨0, 2, 100, 10, 430, .due⟩ : Problem ℝ) 0 = (-310, 230) := by
  have hone : (1 : ℝ) = 0 ∨ zeroRate ≤ |(1 : ℝ)| := .inr (by norm_num [zeroRate])
  constructor
  · rw [rateEquation_eq_eval (n := 2) rfl hone]
    norm_num [Problem.ratePolynomial, PaymentTiming.polynomial, Finset.sum_range_succ,
      derivative_one_add_X_pow]
  · rw [rateEquation_eq_eval (n := 2) rfl (.inl rfl)]
    norm_num [Problem.ratePolynomial, PaymentTiming.polynomial, Finset.sum_range_succ,
      derivative_one_add_X_pow]

end TimeValue
