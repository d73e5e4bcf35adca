/-!
# Rounding a quotient

Writing a number with a given count of digits means rounding a quotient of natural numbers to a
whole one.  The two neighbours are the quotient and its successor; the remainder says which is
nearer.

## Main definitions

* `Tie` — which neighbour an exact half goes to.
* `roundDiv` — the natural number nearest to a quotient.
-/

namespace TimeValue.Decimal

/-- Which neighbour an exact half goes to. -/
inductive Tie
  /-- The even one. -/
  | toEven
  /-- The larger one. -/
  | up
  deriving DecidableEq, Repr, Inhabited

/-- Whether a half above `q` goes to `q + 1`. -/
def Tie.goesUp : Tie → Nat → Bool
  | .toEven, q => q % 2 == 1
  | .up, _ => true

/-- The natural number nearest to `num / den`, a half going as `tie` says. -/
def roundDiv (tie : Tie) (num den : Nat) : Nat :=
  let q := num / den
  let twice := 2 * (num % den)
  if twice < den then q
  else if den < twice then q + 1
  else if tie.goesUp q then q + 1
  else q

end TimeValue.Decimal
