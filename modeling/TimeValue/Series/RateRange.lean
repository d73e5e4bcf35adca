import TimeValue.Error

/-!
# Ranges of rates

A range gives rates at equal steps from its least to its greatest.  They are computed by their
index, so that errors of rounding do not add up, and with some slack, so that the greatest is not
lost to one.

## Main definitions

* `RateRange` — limits and step.
* `RateRange.rates` — the rates of a range.
-/

namespace TimeValue

/-- Limits and step of a range of rates, as fractions. -/
structure RateRange (α : Type) where
  /-- The least rate. -/
  min : α
  /-- The greatest rate. -/
  max : α
  /-- The distance from one rate to the next. -/
  step : α
  deriving Repr

/-- The most points a curve may have. -/
def maxCurvePoints : Nat := 100000

namespace RateRange

variable {α : Type} [Scalar α]

/-- From -10 % to 30 % in steps of 1 %. -/
def standard : RateRange α where
  min := -0.1
  max := 0.3
  step := 0.01

/-- Whether the range means rates at all: finite limits in order, above the rate of -100 % where
nothing is left to discount, and a positive step. -/
def isValid (r : RateRange α) : Bool :=
  Scalar.isFinite r.min && Scalar.isFinite r.max && Scalar.isFinite r.step &&
    decide (0 < r.step) && decide (-1 < r.min) && decide (r.min ≤ r.max)

/-- How much of a step the greatest rate may be exceeded by. -/
def slack : α := 1e-9

/-- The index of the last rate, as a number. -/
def lastIndex (r : RateRange α) : α :=
  Scalar.floor ((r.max - r.min) / r.step + slack)

/-- The rate at an index. -/
def rateAt (r : RateRange α) (i : Nat) : α :=
  r.min + (i : α) * r.step

/-- The rates of a range in rising order. -/
def rates (r : RateRange α) : Except (DomainError α) (List α) :=
  if !r.isValid then .error (.invalidRange r.min r.max r.step)
  else if (maxCurvePoints : α) ≤ r.lastIndex then
    .error (.tooManySamples .rateRange (r.lastIndex + 1) maxCurvePoints)
  else .ok ((List.range (Scalar.toNat r.lastIndex + 1)).map r.rateAt)

end RateRange

end TimeValue
