/-!
# Numbers for financial formulas

Every formula of the library is written once, over any type of numbers that offers the
operations of a `Scalar`.  Programs run the formulas on binary floating point; theorems may read
the very same definitions over an exact type, where division and powers obey their laws.

## Main definitions

* `Scalar` — the operations a formula may use.
* `Scalar.isUsable` — a finite number other than zero.
-/

namespace TimeValue

/-- A type of numbers for formulas.  No law is assumed: comparison may be partial, as it is when
one operand is not a number, and `==` need not be equality. -/
class Scalar (α : Type) extends Zero α, One α, NatCast α, OfScientific α, Neg α, Add α, Sub α,
    Mul α, Div α, Pow α α, LT α, LE α, BEq α where
  /-- Natural logarithm. -/
  log : α → α
  /-- Distance from zero. -/
  abs : α → α
  /-- Greatest whole number that is not larger. -/
  floor : α → α
  /-- The natural number of the same value, for a whole number that is not negative. -/
  toNat : α → Nat
  /-- Neither infinite nor undefined. -/
  isFinite : α → Bool
  /-- Undefined, such as the logarithm of a negative number. -/
  isNaN : α → Bool
  /-- The order is decidable. -/
  decLt : DecidableLT α
  /-- The non-strict order is decidable. -/
  decLe : DecidableLE α

instance Scalar.decidableLT {α : Type} [Scalar α] : DecidableLT α := Scalar.decLt

instance Scalar.decidableLE {α : Type} [Scalar α] : DecidableLE α := Scalar.decLe

/-- Binary floating point of double precision: every operation rounds to nearest, an exact half
to the even neighbour; powers and logarithms are those of the mathematical library. -/
instance Scalar.float : Scalar Float where
  zero := 0
  one := 1
  natCast := Float.ofNat
  pow := Float.pow
  log := Float.log
  abs := Float.abs
  floor := Float.floor
  toNat x := x.toUInt64.toNat
  isFinite := Float.isFinite
  isNaN := Float.isNaN
  decLt := Float.decLt
  decLe := Float.decLe

namespace Scalar

variable {α : Type} [Scalar α]

/-- A number one can divide or discount by: finite and not zero. -/
def isUsable (x : α) : Bool :=
  isFinite x && !(x == 0)

end Scalar

end TimeValue
