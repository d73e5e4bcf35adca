import TimeValue.Json.Struct
import TimeValue.Settings.Layer

/-!
# Settings from a document

A document of settings is JSON in UTF-8: a record of two records, one for the root finder and one
for the rates of the curve.  Every field may be left out.

## Main definitions

* `DocumentFault` — why a document cannot be used.
* `Layer.ofDocument` — the settings that a document gives.
* `Settings.ofDocument` — standard settings under those of a document.
-/

namespace TimeValue

open Json (Reader)

/-- A field that holds a number. -/
def numberField (name : String) (put : Layer → Float → Layer) : Json.Field Layer where
  name := name
  read layer := do return put layer (← Reader.float)

/-- A field that holds a whole number. -/
def wholeField (name : String) (put : Layer → Nat → Layer) : Json.Field Layer where
  name := name
  read layer := do return put layer (← Reader.whole)

/-- The fields of the record for the root finder. -/
def solverFields : List (Json.Field Layer) :=
  [numberField "initial_guess" fun layer x => { layer with initialGuess := some x },
    wholeField "max_iterations" fun layer n => { layer with maxIterations := some n },
    numberField "tolerance" fun layer x => { layer with tolerance := some x },
    numberField "lower_bound" fun layer x => { layer with lowerBound := some x },
    numberField "upper_bound" fun layer x => { layer with upperBound := some x },
    numberField "min_derivative" fun layer x => { layer with minDerivative := some x }]

/-- The fields of the record for the rates of the curve. -/
def rangeFields : List (Json.Field Layer) :=
  [numberField "min" fun layer x => { layer with minRate := some x },
    numberField "max" fun layer x => { layer with maxRate := some x },
    numberField "step" fun layer x => { layer with rateStep := some x }]

/-- The fields of a document. -/
def documentFields : List (Json.Field Layer) :=
  [⟨"solver", Reader.record "SolverConfig" solverFields⟩,
    ⟨"npv_range", Reader.record "RateRange" rangeFields⟩]

/-- Why a document cannot be used. -/
inductive DocumentFault
  /-- Its bytes are not UTF-8. -/
  | notUtf8
  /-- It is not JSON of the right shape. -/
  | json (fault : Json.Fault)
  deriving Repr

/-- The text of a fault. -/
def DocumentFault.message : DocumentFault → String
  | .notUtf8 => "stream did not contain valid UTF-8"
  | .json fault => fault.message

/-- The settings that a document gives. -/
def Layer.ofDocument (bytes : List UInt8) : Except DocumentFault Layer :=
  match Text.Utf8.decode bytes with
  | .error _ => .error .notUtf8
  | .ok _ =>
    (Json.read (Reader.record "EngineConfig" documentFields Layer.empty) bytes).mapError .json

/-- Standard settings under those of a document. -/
def Settings.ofDocument (bytes : List UInt8) : Except DocumentFault Settings :=
  (Layer.ofDocument bytes).map Settings.standard.withLayer

end TimeValue
