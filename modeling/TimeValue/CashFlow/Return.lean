import TimeValue.CashFlow.Basic
import TimeValue.Error
import TimeValue.Solver.Newton

/-!
# Present value and rate of return

The net present value of a project discounts every flow to the start.  The internal rate of
return is the rate at which it vanishes, found by Newton's method on the value and its slope.

## Main definitions

* `npv` — the net present value at a rate.
* `npvWithSlope` — the same with its slope in the rate, in one pass.
* `checkFlows` — whether a project can be analysed.
* `irr` — the internal rate of return, as a percentage.
-/

namespace TimeValue

variable {α : Type} [Scalar α]

/-- A flow's value at the start. -/
def CashFlow.discounted (rate : α) (flow : CashFlow α) : α :=
  flow.amount / (1 + rate) ^ (flow.period : α)

/-- The net present value at a rate.  The sum starts at the zero that leaves every addend as it
is, the negative one. -/
def npv (flows : List (CashFlow α)) (rate : α) : α :=
  flows.foldl (fun sum flow => sum + flow.discounted rate) (-0)

/-- Adds a flow's value and slope.  A flow at the start has no slope. -/
def addWithSlope (rate : α) (sums : α × α) (flow : CashFlow α) : α × α :=
  let value := flow.discounted rate
  (sums.1 + value,
    if 0 < flow.period then sums.2 - (flow.period : α) * value / (1 + rate) else sums.2)

/-- The net present value and its slope in the rate. -/
def npvWithSlope (flows : List (CashFlow α)) (rate : α) : α × α :=
  flows.foldl (addWithSlope rate) (0, 0)

/-- Refuses a project of too few flows, and the first amount that is not finite. -/
def checkFlows (flows : List (CashFlow α)) : Except (DomainError α) Unit :=
  if flows.length < minCashFlows then .error (.tooFewCashFlows flows.length)
  else
    match flows.findIdx? (!Scalar.isFinite ·.amount) with
    | some index => .error (.nonFiniteCashFlow index)
    | none => .ok ()

/-- The internal rate of return, as a percentage. -/
def irr (config : SolverConfig α) (flows : List (CashFlow α)) : Except (CalcError α) α := do
  (checkFlows flows).mapError .domain
  let root ← (newton (npvWithSlope flows) config).mapError .solver
  (ensureFinite .irr (rateToPercent root.value)).mapError .domain

end TimeValue
