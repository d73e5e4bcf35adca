import TimeValue.Compound.Problem

/-!
# Formulas of compound interest

One amount grows by `1 + rate` in each period.  A payment in each period is worth an annuity
factor: the sum of what the payments have grown to, or of what they are worth at the start.

## Main definitions

* `compoundFV`, `compoundPV` — an amount carried forward and back.
* `fvAnnuityFactor`, `pvAnnuityFactor` — one unit paid in each period.
* `annuityFV`, `annuityPV` — payments with their timing.
* `fvAnnuityFactorWithSlope` — the first factor and its slope, continuous through a zero rate.
* `totalFV` — an amount and payments together.
-/

namespace TimeValue

variable {α : Type} [Scalar α]

/-- What an amount grows to. -/
def compoundFV (presentValue rate periods : α) : α :=
  presentValue * (1 + rate) ^ periods

/-- The amount that grows to a future value. -/
def compoundPV (futureValue rate periods : α) : α :=
  futureValue / (1 + rate) ^ periods

/-- What one unit paid in each period grows to. -/
def fvAnnuityFactor (rate periods : α) : α :=
  ((1 + rate) ^ periods - 1) / rate

/-- What one unit paid in each period is worth at the start. -/
def pvAnnuityFactor (rate periods : α) : α :=
  (1 - (1 + rate) ^ (-periods)) / rate

/-- What payments grow to. -/
def annuityFV (payment rate periods : α) (timing : PaymentTiming) : α :=
  payment * fvAnnuityFactor rate periods * timing.adjustment rate

/-- What payments are worth at the start. -/
def annuityPV (payment rate periods : α) (timing : PaymentTiming) : α :=
  payment * pvAnnuityFactor rate periods * timing.adjustment rate

/-- Below this distance from zero a rate counts as zero in the factor with its slope. -/
def zeroRate : α := 1e-9

/-- The factor of `fvAnnuityFactor` and its slope in the rate.  At a zero rate they tend to
`periods` and to half of `periods * (periods - 1)`. -/
def fvAnnuityFactorWithSlope (rate periods : α) : α × α :=
  if Scalar.abs rate < zeroRate then
    (periods, periods * (periods - 1) / 2.0)
  else
    let growth := (1 + rate) ^ periods
    ((growth - 1) / rate,
      periods * (1 + rate) ^ (periods - 1) / rate - (growth - 1) / (rate * rate))

/-- What an amount and payments together grow to. -/
def totalFV (presentValue payment rate periods : α) (timing : PaymentTiming) : α :=
  let compounded := compoundFV presentValue rate periods
  if payment == 0 then compounded
  else
    compounded + payment * (fvAnnuityFactorWithSlope rate periods).1 * timing.adjustment rate

end TimeValue
