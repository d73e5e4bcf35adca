import TimeValue.Json.Reader

/-!
# Numbers in JSON

The digits of a number are collected in a word of 64 bits, as many as fit.  A number without
point and exponent whose digits all fit is an integer.  Any other is the word times a power of
ten, in floating point: one multiplication or division, which need not give the number nearest to
the text.

## Main definitions

* `Number` — a number as read.
* `Reader.number` — reading a number.
* `Reader.skipNumber` — taking a number without its value.
-/

namespace TimeValue.Json

/-- A number as read. -/
inductive Number
  /-- A number that is not negative. -/
  | natural (value : Nat)
  /-- The opposite of a number that is not zero. -/
  | negative (value : Nat)
  /-- A number with point or exponent, or too long for a word. -/
  | float (value : Float)
  deriving Repr

/-- The description of a number. -/
def Number.found : Number → Found
  | .natural n => .integer n
  | .negative n => .integer (-n)
  | .float x => .float x

/-- The greatest word. -/
def maxWord : Nat := 0xFFFFFFFFFFFFFFFF

/-- The greatest word whose opposite is an integer. -/
def maxOpposite : Nat := 0x8000000000000000

/-- The greatest exponent that is collected. -/
def maxExponent : Nat := 0x7FFFFFFF

example : maxWord + 1 = 2 ^ 64 ∧ maxOpposite = 2 ^ 63 ∧ maxExponent + 1 = 2 ^ 31 := by decide

/-- Whether a byte is a digit. -/
def isDigitByte (b : UInt8) : Bool :=
  decide (0x30 ≤ b ∧ b ≤ 0x39)

/-- The value of a digit. -/
def digitOfByte (b : UInt8) : Nat :=
  b.toNat - 0x30

/-- Appends digits to a number for as long as it stays within a limit; the number, and the digits
that are left. -/
def collect (limit value : Nat) : List UInt8 → Nat × List UInt8
  | [] => (value, [])
  | b :: rest =>
    let longer := 10 * value + digitOfByte b
    if longer ≤ limit then collect limit longer rest else (value, b :: rest)

/-- A number with its sign. -/
def signed (negative : Bool) (x : Float) : Float :=
  if negative then -x else x

/-- The greatest power of ten that is a number. -/
def maxPower : Nat := 308

/-- A number divided by a power of ten, in steps by the greatest one; zero stays zero. -/
def divideByPower (x : Float) (power : Nat) : Float :=
  if power ≤ maxPower then x / OfScientific.ofScientific 1 false power
  else if x == 0 then x
  else divideByPower (x / OfScientific.ofScientific 1 false maxPower) (power - maxPower)
termination_by power
decreasing_by
  have : 0 < maxPower := by decide
  omega

namespace Reader

/-- The number `word * 10 ^ exponent`, which must not be infinite. -/
def scaled (negative : Bool) (word : Nat) (exponent : Int) : Reader Float := do
  let x := Float.ofNat word
  match exponent with
  | .negSucc e => return signed negative (divideByPower x (e + 1))
  | .ofNat e =>
    if e ≤ maxPower then
      let product := x * OfScientific.ofScientific 1 false e
      if product.isInf then failHere .numberOutOfRange else return signed negative product
    else if x == 0 then return signed negative x
    else failHere .numberOutOfRange

/-- Whether the byte that comes next starts an exponent. -/
def atExponent : Reader Bool := do
  let b ← peek?
  return b == some 0x65 || b == some 0x45

/-- Takes the sign of an exponent, if there is one, and tells whether it is a minus sign. -/
def powerSign : Reader Bool := do
  let sign ← peek?
  if sign == some 0x2B || sign == some 0x2D then skip
  return sign == some 0x2D

/-- Reads an exponent, which adds to `exponent`. -/
def withExponent (negative : Bool) (word : Nat) (exponent : Int) : Reader Float := do
  skip
  let negativePower ← powerSign
  let first ← next?
  match first with
  | none => failHere .endInValue
  | some first =>
    if !isDigitByte first then failHere .invalidNumber
    else
      let digits := (← get).rest.takeWhile isDigitByte
      let (power, left) := collect maxExponent (digitOfByte first) digits
      match left with
      | [] =>
        modify (·.advanceBy digits.length)
        scaled negative word (if negativePower then exponent - power else exponent + power)
      | _ :: others =>
        modify (·.advanceBy (digits.length - others.length))
        if word ≠ 0 ∧ !negativePower then failHere .numberOutOfRange
        else
          modify (·.advanceBy others.length)
          return signed negative 0

/-- Reads an exponent, if there is one, and puts the number together. -/
def finishFloat (negative : Bool) (word : Nat) (exponent : Int) : Reader Float := do
  if ← atExponent then withExponent negative word exponent else scaled negative word exponent

/-- Reads the digits after a point.  Those that no longer fit the word do not count. -/
def withPlaces (negative : Bool) (word : Nat) (exponent : Int) : Reader Float := do
  skip
  let digits ← takeRun isDigitByte
  if digits.isEmpty then
    match ← peek? with
    | none => failNext .endInValue
    | some _ => failNext .invalidNumber
  else
    let (word, left) := collect maxWord word digits
    finishFloat negative word (exponent - (digits.length - left.length : Nat))

/-- The number of a word without point and exponent.  There is no negative integer zero, and none
whose opposite is more than half the words. -/
def integer (negative : Bool) (word : Nat) : Number :=
  if !negative then .natural word
  else if word = 0 ∨ maxOpposite < word then .float (-(Float.ofNat word))
  else .negative word

/-- Reads what follows the whole part of a number; `dropped` digits of it did not fit the
word. -/
def afterWhole (negative : Bool) (word dropped : Nat) : Reader Number := do
  let b ← peek?
  if b == some 0x2E then return .float (← withPlaces negative word dropped)
  else if ← atExponent then return .float (← withExponent negative word dropped)
  else if dropped = 0 then return integer negative word
  else return .float (← scaled negative word dropped)

/-- Reads a number after its sign. -/
def number (negative : Bool) : Reader Number := do
  match ← next? with
  | none => failHere .endInValue
  | some first =>
    if first == 0x30 then
      match ← peek? with
      | some b => if isDigitByte b then failNext .invalidNumber else afterWhole negative 0 0
      | none => afterWhole negative 0 0
    else if isDigitByte first then
      let digits ← takeRun isDigitByte
      let (word, left) := collect maxWord (digitOfByte first) digits
      afterWhole negative word left.length
    else failHere .invalidNumber

/-! ### Without the value -/

/-- Takes an exponent. -/
def skipExponent : Reader Unit := do
  skip
  discard powerSign
  match ← next? with
  | some b => if isDigitByte b then discard <| takeRun isDigitByte else failHere .invalidNumber
  | none => failHere .invalidNumber

/-- Takes the digits after a point, and perhaps an exponent. -/
def skipPlaces : Reader Unit := do
  skip
  let digits ← takeRun isDigitByte
  if digits.isEmpty then failNext .invalidNumber
  else if ← atExponent then skipExponent

/-- Takes a number after its sign. -/
def skipNumber : Reader Unit := do
  match ← next? with
  | none => failHere .invalidNumber
  | some first =>
    if first == 0x30 then
      match ← peek? with
      | some b => if isDigitByte b then failNext .invalidNumber else tail
      | none => tail
    else if isDigitByte first then
      discard <| takeRun isDigitByte
      tail
    else failHere .invalidNumber
where
  /-- Takes what follows the whole part. -/
  tail : Reader Unit := do
    let b ← peek?
    if b == some 0x2E then skipPlaces
    else if ← atExponent then skipExponent

end Reader

end TimeValue.Json
