import TimeValue.CashFlow.Return
import TimeValue.Compound.Formula
import TimeValue.Series.RateRange

/-!
# Sampled series

Series of points for tables and charts.  A series with a value that is not finite is refused as a
whole; none is ever shortened.

## Main definitions

* `Sample` — a point.
* `growthSeries` — the value of an investment after each whole period.
* `npvCurve` — the net present value at each rate of a range.
* `cumulativeSeries` — the running total of a project.
-/

namespace TimeValue

/-- A point of a series. -/
structure Sample (α : Type) where
  /-- Where the value is taken. -/
  x : α
  /-- The value. -/
  y : α
  deriving Repr

variable {α : Type} [Scalar α]

/-- Passes on a series of finite values. -/
def ensureFiniteSeries (operation : Operation) (samples : List (Sample α)) :
    Except (DomainError α) (List (Sample α)) :=
  if samples.all (Scalar.isFinite ·.y) then .ok samples else .error (.nonFinite operation)

/-! ### Growth -/

/-- The most periods that a growth series may span. -/
def maxGrowthPeriods : Nat := 10000

/-- The value of a problem's investment after `i` periods. -/
def growthSample (p : Problem α) (i : Nat) : Sample α :=
  ⟨(i : α), totalFV p.presentValue p.payment p.rate (i : α) p.timing⟩

/-- The value of a problem's investment after each whole period, the start included.  The future
value of the problem does not matter. -/
def growthSeries (p : Problem α) : Except (DomainError α) (List (Sample α)) :=
  let last := Scalar.floor p.periods
  if !Scalar.isFinite p.periods || decide (p.periods < 0) then .error (.nonFiniteInput .periods)
  else if !Scalar.isFinite p.rate then .error (.nonFiniteInput .rate)
  else if (maxGrowthPeriods : α) < last then
    .error (.tooManySamples .growthSeries (last + 1) (maxGrowthPeriods + 1))
  else
    ensureFiniteSeries .growthSeries
      ((List.range (Scalar.toNat last + 1)).map (growthSample p))

/-! ### Net present value -/

/-- The net present value of a project at a rate, over the rate as a percentage. -/
def npvSample (flows : List (CashFlow α)) (rate : α) : Sample α :=
  ⟨rateToPercent rate, npv flows rate⟩

/-- The net present value of a project at each rate of a range. -/
def npvCurve (flows : List (CashFlow α)) (range : RateRange α) :
    Except (DomainError α) (List (Sample α)) := do
  checkFlows flows
  let rates ← range.rates
  ensureFiniteSeries .npvCurve (rates.map (npvSample flows))

/-! ### Running total -/

/-- The running total of a project, on top of `total`. -/
def cumulativeFrom (total : α) : List (CashFlow α) → List (Sample α)
  | [] => []
  | flow :: flows =>
    ⟨(flow.period : α), total + flow.amount⟩ :: cumulativeFrom (total + flow.amount) flows

/-- The running total of a project in its own order, over the periods of its flows. -/
def cumulativeSeries (flows : List (CashFlow α)) : List (Sample α) :=
  cumulativeFrom 0 flows

end TimeValue
