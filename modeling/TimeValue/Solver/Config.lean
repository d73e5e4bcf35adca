import TimeValue.NumberText
import TimeValue.Scalar

/-!
# Limits and outcomes of the root finder

## Main definitions

* `SolverConfig` — where the root finder starts, and when it stops.
* `SolverConfig.inBounds` — the numbers it may visit.
* `Root` — a root and the effort it took.
* `SolverFailure` — why no root was found.
-/

namespace TimeValue

/-- Where the root finder starts, and when it stops. -/
structure SolverConfig (α : Type) where
  /-- The first number visited. -/
  initialGuess : α
  /-- The most steps taken. -/
  maxIterations : Nat
  /-- A step shorter than this ends the search. -/
  tolerance : α
  /-- The least number that may be visited. -/
  lowerBound : α
  /-- The greatest number that may be visited. -/
  upperBound : α
  /-- A slope nearer to zero than this is flat. -/
  minDerivative : α
  deriving Repr

/-- A root and how many steps led to it. -/
structure Root (α : Type) where
  /-- The last number reached. -/
  value : α
  /-- The count of steps. -/
  iterations : Nat
  deriving Repr

/-- Why no root was found. -/
inductive SolverFailure (α : Type)
  /-- A step led out of the bounds, to `estimate`. -/
  | divergence (estimate : α) (iterations : Nat)
  /-- The slope at `estimate` is flat, or not a number. -/
  | stationaryDerivative (estimate derivative : α) (iterations : Nat)
  /-- No step was short enough; the last one led to `estimate`. -/
  | nonConvergence (estimate : α) (iterations : Nat)
  deriving Repr

variable {α : Type}

namespace SolverConfig

/-- Rates from -99 % to 1000 %, starting at 10 %. -/
def standard [Scalar α] : SolverConfig α where
  initialGuess := 0.1
  maxIterations := 1000
  tolerance := 1e-6
  lowerBound := -0.99
  upperBound := 10.0
  minDerivative := 1e-12

/-- Whether the root finder may visit `x`. -/
def inBounds [Scalar α] (config : SolverConfig α) (x : α) : Bool :=
  Scalar.isFinite x && decide (config.lowerBound ≤ x) && decide (x ≤ config.upperBound)

end SolverConfig

namespace SolverFailure

/-- The number at which the search ended. -/
def estimate : SolverFailure α → α
  | .divergence x _ => x
  | .stationaryDerivative x _ _ => x
  | .nonConvergence x _ => x

/-- The count of steps that failed to find a root. -/
def iterations : SolverFailure α → Nat
  | .divergence _ n => n
  | .stationaryDerivative _ _ n => n
  | .nonConvergence _ n => n

/-- The text of a failure. -/
def message [NumberText α] : SolverFailure α → String
  | .divergence x n =>
    "iteration diverged to " ++ NumberText.plain x ++ " after " ++ toString n ++ " iterations"
  | .stationaryDerivative x d n =>
    "derivative vanished (" ++ NumberText.brief d ++ ") at " ++ NumberText.plain x ++ " after " ++
      toString n ++ " iterations"
  | .nonConvergence x n =>
    "no convergence after " ++ toString n ++ " iterations (last estimate " ++
      NumberText.plain x ++ ")"

end SolverFailure

end TimeValue
