import TimeValue.Scalar

/-!
# Compound interest problems

A present value grows for some periods at a rate, with a payment in each, to a future value.  The
five quantities are tied by one equation; a problem gives four and asks for the fifth.

## Main definitions

* `PaymentTiming` — when in its period a payment falls, and what that is worth.
* `Quantity` — the five quantities, with their labels and the names they are asked for by.
* `Problem` — values for the quantities.
* `Problem.fill` — a problem with a solved value put in.
-/

namespace TimeValue

/-! ### Timing -/

/-- When in its period a payment falls. -/
inductive PaymentTiming
  /-- At the start: an annuity due. -/
  | due
  /-- At the end: an ordinary annuity. -/
  | ordinary
  deriving DecidableEq, Repr, Inhabited

/-- The factor that timing applies to an annuity: payments at the start of their periods bear
interest for one period more. -/
def PaymentTiming.adjustment {α : Type} [Scalar α] : PaymentTiming → (rate : α) → α
  | .due, rate => 1 + rate
  | .ordinary, _ => 1

/-! ### Quantities -/

/-- The quantities of a problem. -/
inductive Quantity
  /-- The interest of one period. -/
  | rate
  /-- How many periods. -/
  | periods
  /-- The value before the first period. -/
  | presentValue
  /-- What is paid in each period. -/
  | payment
  /-- The value after the last period. -/
  | futureValue
  deriving DecidableEq, Repr, Inhabited

namespace Quantity

/-- A quantity as messages name it. -/
def label : Quantity → String
  | .rate => "rate"
  | .periods => "periods"
  | .presentValue => "present value"
  | .payment => "payment"
  | .futureValue => "future value"

/-- The names a quantity may be asked for by. -/
def names : Quantity → List String
  | .rate => ["r", "rate"]
  | .periods => ["n", "periods"]
  | .presentValue => ["pv", "present-value"]
  | .payment => ["pmt", "payment"]
  | .futureValue => ["fv", "future-value"]

/-- All quantities. -/
def all : List Quantity :=
  [.rate, .periods, .presentValue, .payment, .futureValue]

/-- The quantity of a name in ASCII letters of either case, or the text that reports the name. -/
def ofName (name : String) : Except String Quantity :=
  let lower := name.map Char.toLower
  match all.find? (·.names.contains lower) with
  | some q => .ok q
  | none => .error ("unknown field '" ++ lower ++ "'")

end Quantity

/-! ### Problems -/

/-- A rate as typed, five for five percent, as the fraction that formulas use. -/
def percentToRate {α : Type} [Scalar α] (percent : α) : α :=
  percent / 100.0

/-- A rate as percentage. -/
def rateToPercent {α : Type} [Scalar α] (rate : α) : α :=
  rate * 100.0

/-- Values for the quantities.  All amounts share one sign: what is invested and what it grows to
are both positive. -/
structure Problem (α : Type) where
  /-- The interest of one period, as a fraction. -/
  rate : α
  /-- How many periods. -/
  periods : α
  /-- The value before the first period. -/
  presentValue : α
  /-- What is paid in each period; zero if nothing is. -/
  payment : α
  /-- The value after the last period. -/
  futureValue : α
  /-- When the payments fall. -/
  timing : PaymentTiming
  deriving Repr

namespace Problem

variable {α : Type}

/-- The value of a quantity. -/
def get (p : Problem α) : Quantity → α
  | .rate => p.rate
  | .periods => p.periods
  | .presentValue => p.presentValue
  | .payment => p.payment
  | .futureValue => p.futureValue

/-- The problem with another value for a quantity. -/
def set (p : Problem α) : Quantity → α → Problem α
  | .rate, x => { p with rate := x }
  | .periods, x => { p with periods := x }
  | .presentValue, x => { p with presentValue := x }
  | .payment, x => { p with payment := x }
  | .futureValue, x => { p with futureValue := x }

@[simp] theorem get_set_self (p : Problem α) (q : Quantity) (x : α) : (p.set q x).get q = x := by
  cases q <;> rfl

@[simp] theorem get_set_of_ne (p : Problem α) {q q' : Quantity} (h : q' ≠ q) (x : α) :
    (p.set q x).get q' = p.get q' := by
  cases q <;> cases q' <;> first | rfl | exact absurd rfl h

@[simp] theorem timing_set (p : Problem α) (q : Quantity) (x : α) :
    (p.set q x).timing = p.timing := by
  cases q <;> rfl

variable [Scalar α]

/-- The problem with a solved value put in; a solved rate is a percentage. -/
def fill (p : Problem α) (q : Quantity) (solved : α) : Problem α :=
  p.set q (if q = .rate then percentToRate solved else solved)

/-- Whether payments are made. -/
def hasAnnuity (p : Problem α) : Bool :=
  !(p.payment == 0)

end Problem

end TimeValue
