import TimeValue.Compound.Formula
import TimeValue.Error
import TimeValue.Solver.Newton

/-!
# Solving a problem for one quantity

Present value, payment and future value have closed forms.  So has the number of periods, in
general only nearly: with payments at the start of their periods it takes no account of the
timing.  A rate has a closed form when nothing is paid; else it is a root of the equation between
the quantities, found by Newton's method.

## Main definitions

* `checkProblem` — whether the given quantities can be used.
* `solvePeriods` — the number of periods.
* `rateEquation`, `solveRate` — the rate, as a percentage.
* `solve` — any quantity.
-/

namespace TimeValue

variable {α : Type} [Scalar α]

/-! ### Checking -/

/-- Refuses a quantity that one cannot divide or discount by. -/
def requireUsable (p : Problem α) (q : Quantity) : Except (DomainError α) Unit :=
  if Scalar.isUsable (p.get q) then .ok () else .error (.missing q)

/-- Refuses a quantity that is not finite. -/
def requireFinite (p : Problem α) (q : Quantity) : Except (DomainError α) Unit :=
  if Scalar.isFinite (p.get q) then .ok () else .error (.nonFiniteInput q)

/-- What is required of a quantity: rate and periods must be usable, amounts finite. -/
def requireQuantity (p : Problem α) : Quantity → Except (DomainError α) Unit
  | .rate => requireUsable p .rate
  | .periods => requireUsable p .periods
  | .presentValue => requireFinite p .presentValue
  | .payment => requireFinite p .payment
  | .futureValue => requireFinite p .futureValue

/-- Refuses the first quantity, other than the one asked for, that cannot be used. -/
def checkProblem (asked : Quantity) (p : Problem α) : Except (DomainError α) Unit :=
  (Quantity.all.filter (· ≠ asked)).forM (requireQuantity p)

/-! ### Periods -/

/-- The number of periods. -/
def solvePeriods (p : Problem α) : Except (DomainError α) α :=
  let growth :=
    if p.payment == 0 then p.futureValue / p.presentValue
    else (p.futureValue * p.rate + p.payment) / (p.presentValue * p.rate + p.payment)
  ensureFinite (.solving .periods) (Scalar.log growth / Scalar.log (1 + p.rate))

/-! ### Rate -/

/-- By how much the problem misses its future value at a rate, and the slope of that in the
rate. -/
def rateEquation (p : Problem α) (rate : α) : α × α :=
  let growth := (1 + rate) ^ p.periods
  let growthSlope := p.periods * (1 + rate) ^ (p.periods - 1)
  let (factor, factorSlope) := fvAnnuityFactorWithSlope rate p.periods
  let adjustment := p.timing.adjustment rate
  let adjustmentSlope : α :=
    match p.timing with
    | .due => 1
    | .ordinary => 0
  (p.presentValue * growth + p.payment * factor * adjustment - p.futureValue,
    p.presentValue * growthSlope +
      p.payment * (factorSlope * adjustment + factor * adjustmentSlope))

/-- Whether the rate has a closed form: nothing is paid, and both values have one sign. -/
def hasClosedRate (p : Problem α) : Bool :=
  p.payment == 0 && !(p.presentValue == 0) && decide (0 < p.futureValue / p.presentValue)

/-- The rate, as a percentage. -/
def solveRate (config : SolverConfig α) (p : Problem α) : Except (CalcError α) α :=
  if hasClosedRate p then
    let rate := (p.futureValue / p.presentValue) ^ (1 / p.periods) - 1
    (ensureFinite (.solving .rate) (rateToPercent rate)).mapError .domain
  else
    match newton (rateEquation p) config with
    | .ok root => (ensureFinite (.solving .rate) (rateToPercent root.value)).mapError .domain
    | .error failure => .error (.solver failure)

/-! ### Amounts -/

/-- The closed form of the present value. -/
def presentValueOf (p : Problem α) : α :=
  if p.payment == 0 then compoundPV p.futureValue p.rate p.periods
  else
    p.futureValue / (1 + p.rate) ^ p.periods - annuityPV p.payment p.rate p.periods p.timing

/-- The closed form of the payment; zero stays zero. -/
def paymentOf (p : Problem α) : α :=
  if p.payment == 0 then 0
  else
    (p.presentValue - p.futureValue / (1 + p.rate) ^ p.periods) /
      (pvAnnuityFactor p.rate p.periods * p.timing.adjustment p.rate)

/-- The closed form of the future value. -/
def futureValueOf (p : Problem α) : α :=
  if p.payment == 0 then compoundFV p.presentValue p.rate p.periods
  else
    compoundFV p.presentValue p.rate p.periods + annuityFV p.payment p.rate p.periods p.timing

/-! ### Any quantity -/

/-- The value of a quantity that has a closed form, or a finite approximation to it. -/
def solveClosed (asked : Quantity) (value : α) : Except (CalcError α) α :=
  (ensureFinite (.solving asked) value).mapError .domain

/-- Solves a problem for a quantity.  A rate comes back as a percentage, other quantities in
their own units. -/
def solve (asked : Quantity) (config : SolverConfig α) (p : Problem α) :
    Except (CalcError α) α := do
  (checkProblem asked p).mapError .domain
  match asked with
  | .rate => solveRate config p
  | .periods => (solvePeriods p).mapError .domain
  | .presentValue => solveClosed .presentValue (presentValueOf p)
  | .payment => solveClosed .payment (paymentOf p)
  | .futureValue => solveClosed .futureValue (futureValueOf p)

end TimeValue
