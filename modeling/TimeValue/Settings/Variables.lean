import TimeValue.Settings.Layer
import TimeValue.Text.Blank
import TimeValue.Text.Numeral

/-!
# Settings from variables

Each setting but one has a variable of the environment.  Blanks around its text do not count, and
a text that is not a number of the right kind gives nothing.

## Main definitions

* `Variable` — the variables, with their names.
* `Layer.ofVariables` — the settings that variables give.
* `Settings.withVariables` — settings under those of variables.
-/

namespace TimeValue

open Text

/-! ### Variables -/

/-- The variables that give settings. -/
inductive Variable
  /-- Where the root finder starts. -/
  | initialGuess
  /-- The most steps it takes. -/
  | maxIterations
  /-- The length of a step that ends its search. -/
  | tolerance
  /-- The least number it may visit. -/
  | lowerBound
  /-- The greatest number it may visit. -/
  | upperBound
  /-- The least rate of the curve. -/
  | minRate
  /-- The greatest rate of the curve. -/
  | maxRate
  /-- The distance between rates of the curve. -/
  | rateStep
  deriving DecidableEq, Repr, Inhabited

namespace Variable

/-- A variable as the environment names it. -/
def name : Variable → String
  | .initialGuess => "FINCALC_INITIAL_GUESS"
  | .maxIterations => "FINCALC_MAX_ITERATIONS"
  | .tolerance => "FINCALC_TOLERANCE"
  | .lowerBound => "FINCALC_LOWER_BOUND"
  | .upperBound => "FINCALC_UPPER_BOUND"
  | .minRate => "FINCALC_NPV_MIN_RATE"
  | .maxRate => "FINCALC_NPV_MAX_RATE"
  | .rateStep => "FINCALC_NPV_RATE_STEP"

/-- All variables. -/
def all : List Variable :=
  [.initialGuess, .maxIterations, .tolerance, .lowerBound, .upperBound, .minRate, .maxRate,
    .rateStep]

theorem mem_all (v : Variable) : v ∈ all := by
  cases v <;> decide

/-- No two variables share a name. -/
theorem name_injective {v w : Variable} (h : v.name = w.name) : v = w := by
  cases v <;> cases w <;> first | rfl | exact absurd h (by decide)

/-- The decimal that a variable holds. -/
def decimal? (lookup : String → Option String) (v : Variable) : Option Float := do
  let text ← lookup v.name
  (readDecimal (trim text.toList)).toOption

/-- The whole number that a variable holds. -/
def whole? (lookup : String → Option String) (v : Variable) : Option Nat := do
  let text ← lookup v.name
  (readWhole 10 maxWhole (trim text.toList)).toOption

end Variable

/-! ### Settings -/

/-- The settings that variables give. -/
def Layer.ofVariables (lookup : String → Option String) : Layer where
  initialGuess := Variable.initialGuess.decimal? lookup
  maxIterations := Variable.maxIterations.whole? lookup
  tolerance := Variable.tolerance.decimal? lookup
  lowerBound := Variable.lowerBound.decimal? lookup
  upperBound := Variable.upperBound.decimal? lookup
  minDerivative := none
  minRate := Variable.minRate.decimal? lookup
  maxRate := Variable.maxRate.decimal? lookup
  rateStep := Variable.rateStep.decimal? lookup

/-- Settings under those of variables. -/
def Settings.withVariables (s : Settings) (lookup : String → Option String) : Settings :=
  s.withLayer (.ofVariables lookup)

end TimeValue
