import TimeValue.Solver.Config

/-!
# Newton's method

From `x` the method steps to `x - f x / f' x`.  It stops with a root when a step is shorter than
the tolerance, and fails when the slope is flat, when a step leads out of the bounds, or when the
steps run out; of several reasons in one step the one named first here counts.

The function may be any computation, so that one definition serves functions that keep a record
of the numbers they were asked about.

## Main definitions

* `newtonStep` — what one step decides.
* `newtonM` — the method for a computation of value and slope together.
* `newtonAnalyticM` — value and slope from two computations.
* `newtonNumericalM` — the slope from two values nearby.
* `newton` — the method for a function.
-/

namespace TimeValue

/-- What one step decides. -/
inductive NewtonStep (α : Type)
  /-- The search ends. -/
  | stop (outcome : Except (SolverFailure α) (Root α))
  /-- The search goes on from `x`. -/
  | goOn (x : α)
  deriving Repr

variable {α : Type} [Scalar α] {m : Type → Type} [Monad m]

/-- What the step from `x` decides, where the function has this value and slope, after `done`
steps. -/
def newtonStep (config : SolverConfig α) (done : Nat) (x value slope : α) : NewtonStep α :=
  if Scalar.isNaN slope || decide (Scalar.abs slope < config.minDerivative) then
    .stop (.error (.stationaryDerivative x slope done))
  else
    let next := x - value / slope
    if !config.inBounds next then .stop (.error (.divergence next (done + 1)))
    else if Scalar.abs (next - x) < config.tolerance then .stop (.ok ⟨next, done + 1⟩)
    else .goOn next

/-- At most `remaining` steps from `x`, after `done` steps. -/
def newtonFrom (f : α → m (α × α)) (config : SolverConfig α) :
    (remaining done : Nat) → (x : α) → m (Except (SolverFailure α) (Root α))
  | 0, done, x => pure (.error (.nonConvergence x done))
  | remaining + 1, done, x => do
    let (value, slope) ← f x
    match newtonStep config done x value slope with
    | .stop outcome => pure outcome
    | .goOn next => newtonFrom f config remaining (done + 1) next

/-- Newton's method for a computation of value and slope together. -/
def newtonM (f : α → m (α × α)) (config : SolverConfig α) :
    m (Except (SolverFailure α) (Root α)) :=
  newtonFrom f config config.maxIterations 0 config.initialGuess

/-- Newton's method for a value and a slope computed one after the other. -/
def newtonAnalyticM (f df : α → m α) (config : SolverConfig α) :
    m (Except (SolverFailure α) (Root α)) :=
  newtonM (fun x => do
    let value ← f x
    let slope ← df x
    return (value, slope)) config

/-- How far from a number the slope there is measured, to either side. -/
def slopeOffset : α := 1e-7

/-- Newton's method for a value alone; the slope is that of the line through two values nearby. -/
def newtonNumericalM (f : α → m α) (config : SolverConfig α) :
    m (Except (SolverFailure α) (Root α)) :=
  newtonM (fun x => do
    let above ← f (x + slopeOffset)
    let below ← f (x - slopeOffset)
    let value ← f x
    return (value, (above - below) / (2.0 * slopeOffset))) config

/-- Newton's method for a function that gives value and slope. -/
def newton (f : α → α × α) (config : SolverConfig α) : Except (SolverFailure α) (Root α) :=
  Id.run (newtonM (fun x => pure (f x)) config)

/-- Newton's method for a function and its slope. -/
def newtonAnalytic (f df : α → α) (config : SolverConfig α) :
    Except (SolverFailure α) (Root α) :=
  Id.run (newtonAnalyticM (fun x => pure (f x)) (fun x => pure (df x)) config)

/-- Newton's method for a function alone. -/
def newtonNumerical (f : α → α) (config : SolverConfig α) : Except (SolverFailure α) (Root α) :=
  Id.run (newtonNumericalM (fun x => pure (f x)) config)

end TimeValue
