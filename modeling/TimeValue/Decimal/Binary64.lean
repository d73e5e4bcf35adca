import TimeValue.Decimal.Rounding

/-!
# What the bits of a floating-point number say

A double-precision number is a sign, an exponent field of eleven bits and a fraction of
fifty-two.  Read exactly, a finite one is `± mantissa * 2 ^ exponent` with a natural mantissa, and
that is all that printing its digits needs.

## Main definitions

* `Binary64` — the exact reading of a double-precision number.
* `Binary64.ofBits`, `Binary64.ofFloat` — reading the bits.
* `Ratio` — a non-negative number as a quotient of natural numbers, and its decimal scaling.
-/

namespace TimeValue.Decimal

/-- The exact reading of a double-precision number. -/
inductive Binary64
  /-- Not a number. -/
  | nan
  /-- An infinity, with its sign. -/
  | infinite (negative : Bool)
  /-- The number `± mantissa * 2 ^ exponent`. -/
  | finite (negative : Bool) (mantissa : Nat) (exponent : Int)
  deriving DecidableEq, Repr, Inhabited

namespace Binary64

/-- Mantissas of normal numbers start here; the leading bit is not stored. -/
def hiddenBit : Nat := 0x10000000000000

/-- The bit of the sign. -/
def signBit : Nat := 0x8000000000000000

/-- The greatest exponent field. -/
def maxField : Nat := 2047

/-- The exponent of the smallest positive number. -/
def minExponent : Int := -1074

/-- Fraction, exponent field and sign take 52, 11 and one bit. -/
example : hiddenBit = 2 ^ 52 ∧ maxField + 1 = 2 ^ 11 ∧ signBit = 2 ^ 63 := by decide

/-- Reads sign, exponent field and fraction.  A field of zero holds the numbers below the normal
ones, a field of ones the infinities and the numbers that are not one. -/
def ofBits (bits : UInt64) : Binary64 :=
  let word := bits.toNat
  let negative := word / signBit == 1
  let field := word / hiddenBit % (maxField + 1)
  let fraction := word % hiddenBit
  if field = 0 then .finite negative fraction minExponent
  else if field < maxField then
    .finite negative (hiddenBit + fraction) (minExponent + (field - 1 : Nat))
  else if fraction = 0 then .infinite negative
  else .nan

/-- The exact reading of a number. -/
def ofFloat (x : Float) : Binary64 :=
  ofBits x.toBits

end Binary64

/-- The non-negative number `num / den`. -/
structure Ratio where
  /-- The numerator. -/
  num : Nat
  /-- The denominator, not zero in any ratio built here. -/
  den : Nat
  deriving DecidableEq, Repr, Inhabited

namespace Ratio

/-- The number `m * 2 ^ q`. -/
def ofBinary (m : Nat) : Int → Ratio
  | .ofNat q => ⟨m * Nat.pow 2 q, 1⟩
  | .negSucc q => ⟨m, Nat.pow 2 (q + 1)⟩

/-- The number divided by `10 ^ k`: how many grid steps of that size it measures. -/
def perGrid (r : Ratio) : Int → Ratio
  | .ofNat k => ⟨r.num, r.den * Nat.pow 10 k⟩
  | .negSucc k => ⟨r.num * Nat.pow 10 (k + 1), r.den⟩

/-- Whether the number is at least the natural number `c`. -/
def atLeast (r : Ratio) (c : Nat) : Bool :=
  decide (c * r.den ≤ r.num)

/-- The natural number nearest to the ratio. -/
def round (tie : Tie) (r : Ratio) : Nat :=
  roundDiv tie r.num r.den

/-- The greatest natural number that is not larger. -/
def floor (r : Ratio) : Nat :=
  r.num / r.den

end Ratio

end TimeValue.Decimal
