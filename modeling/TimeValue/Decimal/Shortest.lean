import TimeValue.Decimal.Binary64

/-!
# Shortest digits

Many decimals read back as the same floating-point number: all those nearer to it than to its
neighbours.  The shortest text of a number is the decimal of that interval with the fewest
digits, and of several with that many digits the one nearest to the number.

The search walks the decimal grids from coarse to fine.  On each grid only the two points next to
the number can be in the interval without a nearer one being there too, so two comparisons in
natural numbers settle a grid.  Seventeen digits always suffice.

## Main definitions

* `Digits` — decimal digits and the exponent of the first.
* `Interval.around` — the decimals that read back as a given number.
* `leadingExponent` — the exponent of a number's first digit.
* `shortest` — the shortest digits of a number.
-/

namespace TimeValue.Decimal

/-- The number `d₁.d₂d₃… * 10 ^ exponent`. -/
structure Digits where
  /-- The digits, the first not zero unless it is alone. -/
  digits : List Char
  /-- The power of ten that the first digit counts. -/
  exponent : Int
  deriving DecidableEq, Repr, Inhabited

/-- The digits of `c * 10 ^ k`, without zeros at the end. -/
def Digits.ofGrid (c : Nat) (k : Int) : Digits :=
  let all := Nat.toDigits 10 c
  ⟨(all.reverse.dropWhile (· == '0')).reverse, k + (all.length - 1 : Nat)⟩

/-- The numbers from `low` to `high`. -/
structure Interval where
  /-- The lower end. -/
  low : Ratio
  /-- The upper end. -/
  high : Ratio
  /-- Whether the ends belong to it. -/
  closed : Bool
  deriving Repr

namespace Interval

/-- The numbers that round to `m * 2 ^ q`.  They reach half way to both neighbours; the lower
neighbour of a power of two is only half as far away, unless both are below the normal numbers.
An end is an exact half, which goes to the even mantissa. -/
def around (m : Nat) (q : Int) : Interval where
  low :=
    if m = Binary64.hiddenBit ∧ Binary64.minExponent < q then .ofBinary (4 * m - 1) (q - 2)
    else .ofBinary (4 * m - 2) (q - 2)
  high := .ofBinary (4 * m + 2) (q - 2)
  closed := m % 2 == 0

/-- Whether `c * 10 ^ k` belongs to the interval. -/
def holds (i : Interval) (c : Nat) (k : Int) : Bool :=
  let low := i.low.perGrid k
  let high := i.high.perGrid k
  if i.closed then decide (low.num ≤ c * low.den ∧ c * high.den ≤ high.num)
  else decide (low.num < c * low.den ∧ c * high.den < high.num)

/-- The grid point of step `10 ^ k` that is in the interval and nearest to `v`, if one is. -/
def nearestOn (i : Interval) (tie : Tie) (v : Ratio) (k : Int) : Option Nat :=
  let scaled := v.perGrid k
  let below := scaled.floor
  match i.holds below k, i.holds (below + 1) k with
  | true, true => some (scaled.round tie)
  | true, false => some below
  | false, true => some (below + 1)
  | false, false => none

end Interval

/-- The exponent of the first digit of `m * 2 ^ q`, for a mantissa that is not zero.  The binary
exponent times the logarithm of two is at most one off. -/
def leadingExponent (m : Nat) (q : Int) : Int :=
  let v := Ratio.ofBinary m q
  let guess := ((m.log2 + q) * 30103).fdiv 100000
  if !(v.perGrid guess).atLeast 1 then guess - 1
  else if (v.perGrid (guess + 1)).atLeast 1 then guess + 1
  else guess

/-- The most digits a double-precision number needs to be told from its neighbours. -/
def maxDigits : Nat := 17

/-- The fewest digits that read back as `m * 2 ^ q`, for a mantissa that is not zero; of two
candidates equally near, the one that `tie` says. -/
def shortest (tie : Tie) (m : Nat) (q : Int) : Digits :=
  let v := Ratio.ofBinary m q
  let range := Interval.around m q
  let top := leadingExponent m q
  let found := (List.range maxDigits).findSome? fun (i : Nat) =>
    (range.nearestOn tie v (top - i)).map fun c => Digits.ofGrid c (top - i)
  let last := top - (maxDigits - 1 : Nat)
  found.getD (Digits.ofGrid ((v.perGrid last).round tie) last)

/-- The digits of `m * 2 ^ q` rounded to `count` of them, zeros at the end included, for a
mantissa that is not zero. -/
def significant (tie : Tie) (count : Nat) (m : Nat) (q : Int) : Digits :=
  let top := leadingExponent m q
  let c := ((Ratio.ofBinary m q).perGrid (top - (count - 1 : Nat))).round tie
  let all := Nat.toDigits 10 c
  ⟨all.take count, top + (all.length - count : Nat)⟩

end TimeValue.Decimal
