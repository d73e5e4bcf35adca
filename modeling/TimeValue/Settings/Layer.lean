import TimeValue.Series.RateRange
import TimeValue.Solver.Config

/-!
# Settings in layers

The settings of a run are the limits of the root finder and the rates of the net present value
curve.  They are put together from layers, each of which may give any of them: a document, and
the variables of the environment.  What an upper layer gives hides what a lower one gives, field
by field, and what no layer gives is standard.

## Main definitions

* `Settings` — the settings of a run.
* `Layer` — some of the settings.
* `Layer.onto` — one layer on top of another.
* `Settings.withLayer` — settings under a layer.

## Main results

* `Settings.withLayer_onto` — layers may be put together before or after they are applied.
-/

namespace TimeValue

/-- The settings of a run. -/
structure Settings where
  /-- Where the root finder starts, and when it stops. -/
  solver : SolverConfig Float
  /-- The rates of the net present value curve. -/
  range : RateRange Float
  deriving Repr

/-- The settings when nothing is given. -/
def Settings.standard : Settings :=
  ⟨.standard, .standard⟩

/-- Some of the settings. -/
@[ext]
structure Layer where
  /-- The first number that the root finder visits. -/
  initialGuess : Option Float
  /-- The most steps it takes. -/
  maxIterations : Option Nat
  /-- The length of a step that ends its search. -/
  tolerance : Option Float
  /-- The least number it may visit. -/
  lowerBound : Option Float
  /-- The greatest number it may visit. -/
  upperBound : Option Float
  /-- The slope below which it takes a function to be flat. -/
  minDerivative : Option Float
  /-- The least rate of the curve. -/
  minRate : Option Float
  /-- The greatest rate of the curve. -/
  maxRate : Option Float
  /-- The distance between rates of the curve. -/
  rateStep : Option Float
  deriving Repr

namespace Layer

/-- The layer that gives nothing. -/
def empty : Layer :=
  ⟨none, none, none, none, none, none, none, none, none⟩

/-- A layer on top of another. -/
def onto (upper lower : Layer) : Layer where
  initialGuess := upper.initialGuess <|> lower.initialGuess
  maxIterations := upper.maxIterations <|> lower.maxIterations
  tolerance := upper.tolerance <|> lower.tolerance
  lowerBound := upper.lowerBound <|> lower.lowerBound
  upperBound := upper.upperBound <|> lower.upperBound
  minDerivative := upper.minDerivative <|> lower.minDerivative
  minRate := upper.minRate <|> lower.minRate
  maxRate := upper.maxRate <|> lower.maxRate
  rateStep := upper.rateStep <|> lower.rateStep

end Layer

/-- Settings under a layer. -/
def Settings.withLayer (s : Settings) (layer : Layer) : Settings where
  solver := {
    initialGuess := layer.initialGuess.getD s.solver.initialGuess
    maxIterations := layer.maxIterations.getD s.solver.maxIterations
    tolerance := layer.tolerance.getD s.solver.tolerance
    lowerBound := layer.lowerBound.getD s.solver.lowerBound
    upperBound := layer.upperBound.getD s.solver.upperBound
    minDerivative := layer.minDerivative.getD s.solver.minDerivative }
  range := {
    min := layer.minRate.getD s.range.min
    max := layer.maxRate.getD s.range.max
    step := layer.rateStep.getD s.range.step }

theorem getD_orElse {β : Type} (upper lower : Option β) (x : β) :
    (upper <|> lower).getD x = upper.getD (lower.getD x) := by
  cases upper <;> rfl

@[simp] theorem Settings.withLayer_empty (s : Settings) : s.withLayer .empty = s := rfl

/-- Two layers one after the other are one on top of the other. -/
theorem Settings.withLayer_onto (s : Settings) (upper lower : Layer) :
    s.withLayer (upper.onto lower) = (s.withLayer lower).withLayer upper := by
  simp only [withLayer, Layer.onto, getD_orElse]

end TimeValue
