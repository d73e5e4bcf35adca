import TimeValue.Compound.Problem
import TimeValue.Solver.Config

/-!
# Errors of calculations

## Main definitions

* `Operation` — the calculations that name themselves in errors.
* `DomainError` — arguments or results outside the domain of a calculation.
* `CalcError` — everything that can go wrong in a calculation.
* `ensureFinite` — passes on finite results only.
-/

namespace TimeValue

/-- The calculations that name themselves in errors. -/
inductive Operation
  /-- Solving a problem for a quantity. -/
  | solving (q : Quantity)
  /-- The internal rate of return. -/
  | irr
  /-- The value after each period. -/
  | growthSeries
  /-- The rates of a range. -/
  | rateRange
  /-- The net present value at each rate of a range. -/
  | npvCurve
  deriving DecidableEq, Repr, Inhabited

/-- A calculation as messages name it. -/
def Operation.name : Operation → String
  | .solving q => q.label
  | .irr => "IRR"
  | .growthSeries => "growth series"
  | .rateRange => "rate range"
  | .npvCurve => "npv curve"

/-- The fewest cash flows that an analysis accepts. -/
def minCashFlows : Nat := 2

/-- Arguments or results outside the domain of a calculation. -/
inductive DomainError (α : Type)
  /-- A quantity that must be usable is zero or not finite. -/
  | missing (q : Quantity)
  /-- A quantity is not finite. -/
  | nonFiniteInput (q : Quantity)
  /-- There are not enough cash flows. -/
  | tooFewCashFlows (actual : Nat)
  /-- The cash flow at this index has an amount that is not finite. -/
  | nonFiniteCashFlow (index : Nat)
  /-- A result is not finite. -/
  | nonFinite (operation : Operation)
  /-- No rates are meant by these limits and this step. -/
  | invalidRange (min max step : α)
  /-- More samples are asked for than allowed. -/
  | tooManySamples (operation : Operation) (requested : α) (limit : Nat)
  deriving Repr

variable {α : Type}

/-- The text of an error. -/
def DomainError.message [NumberText α] : DomainError α → String
  | .missing q => q.label ++ " must be a non-zero finite number"
  | .nonFiniteInput q => q.label ++ " must be a finite number"
  | .tooFewCashFlows actual =>
    "at least " ++ toString minCashFlows ++ " cash flows are required, got " ++ toString actual
  | .nonFiniteCashFlow index => "cash flow " ++ toString index ++ " has a non-finite amount"
  | .nonFinite operation => operation.name ++ " produced a non-finite result"
  | .invalidRange min max step =>
    "invalid rate range: min " ++ NumberText.plain min ++ ", max " ++ NumberText.plain max ++
      ", step " ++ NumberText.plain step
  | .tooManySamples operation requested limit =>
    operation.name ++ " would need " ++ NumberText.plain requested ++ " samples, limit is " ++
      toString limit

/-- Everything that can go wrong in a calculation. -/
inductive CalcError (α : Type)
  /-- An argument or a result is outside the domain. -/
  | domain (error : DomainError α)
  /-- The root finder failed. -/
  | solver (failure : SolverFailure α)
  deriving Repr

namespace CalcError

/-- The text of the cause alone. -/
def cause [NumberText α] : CalcError α → String
  | .domain e => e.message
  | .solver e => e.message

/-- The text of an error: the kind of cause, and the cause. -/
def message [NumberText α] (e : CalcError α) : String :=
  match e with
  | .domain _ => "domain error: " ++ e.cause
  | .solver _ => "solver failure: " ++ e.cause

end CalcError

/-- Passes on a finite result. -/
def ensureFinite [Scalar α] (operation : Operation) (value : α) : Except (DomainError α) α :=
  if Scalar.isFinite value then .ok value else .error (.nonFinite operation)

theorem isFinite_of_ensureFinite [Scalar α] {operation : Operation} {value v : α}
    (h : ensureFinite operation value = .ok v) : v = value ∧ Scalar.isFinite v = true := by
  unfold ensureFinite at h
  split at h
  · next hfin => cases h; exact ⟨rfl, hfin⟩
  · exact absurd h (by simp)

end TimeValue
