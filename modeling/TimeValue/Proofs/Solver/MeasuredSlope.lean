import TimeValue.Proofs.Exact.Real
import TimeValue.Solver.Newton

/-!
# The measured slope

Where only the values of a function are given, the root finder takes for the slope at `x` that of
the line through the values a little above and a little below.  The even powers of the offset cancel
between the two, so in exact arithmetic the measured slope of a cubic is too large by the leading
coefficient times the square of the offset, and of a polynomial of degree at most two it is the
slope itself.

A run sees nothing of a function but the pairs of value and slope that it is answered.  So the root
finder that measures takes the same steps for a quadratic as the one that is given the slope, as
many of them, and ends for the same reason with the same numbers.

## Main definitions

* `measuredSlope` — the slope of the line through two values nearby.

## Main results

* `newtonAnalytic_eq_newton`, `newtonNumerical_eq_newton` — the pairs that each root finder is
  answered.
* `measuredSlope_cubic` — by how much the measured slope of a cubic is off.
* `newtonNumerical_quadratic` — **up to degree two, measuring the slope changes nothing.**
-/

namespace TimeValue

/-! ### What a run is answered -/

section

variable {α : Type} [Scalar α]

/-- The slope at `x` of the line through the values a little above and a little below. -/
def measuredSlope (f : α → α) (x : α) : α :=
  (f (x + slopeOffset) - f (x - slopeOffset)) / (2.0 * slopeOffset)

theorem newtonAnalytic_eq_newton (f df : α → α) (config : SolverConfig α) :
    newtonAnalytic f df config = newton (fun x => (f x, df x)) config :=
  rfl

theorem newtonNumerical_eq_newton (f : α → α) (config : SolverConfig α) :
    newtonNumerical f config = newton (fun x => (f x, measuredSlope f x)) config :=
  rfl

/-- Measuring is as good as being given the slope that is measured. -/
theorem newtonNumerical_eq_newtonAnalytic {f df : α → α} (h : ∀ x, measuredSlope f x = df x)
    (config : SolverConfig α) : newtonNumerical f config = newtonAnalytic f df config := by
  obtain rfl : measuredSlope f = df := funext h
  rw [newtonNumerical_eq_newton, newtonAnalytic_eq_newton]

end

/-! ### Polynomials -/

theorem slopeOffset_ne_zero : (slopeOffset : ℝ) ≠ 0 := by
  norm_num [slopeOffset]

/-- The offset to either side cancels but for the cubic term. -/
theorem measuredSlope_cubic (d a b c x : ℝ) :
    measuredSlope (fun x => d * x ^ 3 + a * x ^ 2 + b * x + c) x =
      3 * d * x ^ 2 + 2 * a * x + b + d * slopeOffset ^ 2 := by
  have htwo : (2.0 : ℝ) = 2 := by norm_num
  have hwidth : (2 : ℝ) * slopeOffset ≠ 0 := mul_ne_zero two_ne_zero slopeOffset_ne_zero
  -- over the common width both sides are polynomials
  rw [measuredSlope, htwo, div_eq_iff hwidth]
  ring

/-- The root finder that measures works on a cubic as with a slope that is off by a constant. -/
theorem newtonNumerical_cubic (d a b c : ℝ) (config : SolverConfig ℝ) :
    newtonNumerical (fun x => d * x ^ 3 + a * x ^ 2 + b * x + c) config =
      newtonAnalytic (fun x => d * x ^ 3 + a * x ^ 2 + b * x + c)
        (fun x => 3 * d * x ^ 2 + 2 * a * x + b + d * slopeOffset ^ 2) config :=
  newtonNumerical_eq_newtonAnalytic (measuredSlope_cubic d a b c) config

theorem measuredSlope_quadratic (a b c x : ℝ) :
    measuredSlope (fun x => a * x ^ 2 + b * x + c) x = 2 * a * x + b := by
  simpa using measuredSlope_cubic 0 a b c x

/-- **Up to degree two, measuring the slope changes nothing**: whether the run ends at a root or
fails, where, at which slope, and after how many steps. -/
theorem newtonNumerical_quadratic (a b c : ℝ) (config : SolverConfig ℝ) :
    newtonNumerical (fun x => a * x ^ 2 + b * x + c) config =
      newtonAnalytic (fun x => a * x ^ 2 + b * x + c) (fun x => 2 * a * x + b) config :=
  newtonNumerical_eq_newtonAnalytic (measuredSlope_quadratic a b c) config

end TimeValue
