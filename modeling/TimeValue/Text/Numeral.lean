/-!
# Reading numbers

Two kinds of numeral are read from text.  A whole number is digits of a base after an optional
plus sign, and must not exceed a limit.  A decimal is an optional sign, digits with at most one
point among them, and an optional exponent; the infinities and what is not a number have names.
Nothing else is skipped or allowed, blanks included.

## Main definitions

* `WholeFault`, `readWhole` — whole numbers.
* `DecimalFault`, `readDecimal` — decimals, rounded to the nearest number, an exact half to the
  even one.
* `mantissa?` — the digits of a decimal, which are also the literals of formulas.
-/

namespace TimeValue.Text

/-! ### Digits -/

/-- Whether a character is a decimal digit. -/
def isDigit (c : Char) : Bool :=
  decide ('0' ≤ c ∧ c ≤ '9')

/-- The value of a digit in the given base; letters of either case go on after nine. -/
def digitValue? (base : Nat) (c : Char) : Option Nat :=
  let value? :=
    if '0' ≤ c ∧ c ≤ '9' then some (c.toNat - '0'.toNat)
    else if 'a' ≤ c ∧ c ≤ 'z' then some (c.toNat - 'a'.toNat + 10)
    else if 'A' ≤ c ∧ c ≤ 'Z' then some (c.toNat - 'A'.toNat + 10)
    else none
  value?.filter (decide <| · < base)

/-- The value of decimal digits. -/
def decimalValue (digits : List Char) : Nat :=
  digits.foldl (fun n c => 10 * n + (c.toNat - '0'.toNat)) 0

/-! ### Whole numbers -/

/-- Why a text is not a whole number within the limit. -/
inductive WholeFault
  /-- There is no text. -/
  | empty
  /-- A character is not a digit, or there is no digit. -/
  | invalidDigit
  /-- The digits read so far already exceed the limit. -/
  | tooLarge
  deriving DecidableEq, Repr

/-- The text of a fault. -/
def WholeFault.message : WholeFault → String
  | .empty => "cannot parse integer from empty string"
  | .invalidDigit => "invalid digit found in string"
  | .tooLarge => "number too large to fit in target type"

/-- The largest period and the largest count of iterations that a text may name. -/
def maxWhole : Nat := 4294967295

/-- Reads digits after those worth `value`; the first bad digit or excess ends the reading. -/
def readDigits (base limit value : Nat) : List Char → Except WholeFault Nat
  | [] => .ok value
  | c :: rest =>
    match digitValue? base c with
    | none => .error .invalidDigit
    | some digit =>
      let next := value * base + digit
      if next ≤ limit then readDigits base limit next rest else .error .tooLarge

/-- Reads a whole number of the given base that is at most `limit`. -/
def readWhole (base limit : Nat) : List Char → Except WholeFault Nat
  | [] => .error .empty
  | ['+'] => .error .invalidDigit
  | '+' :: digits => readDigits base limit 0 digits
  | digits => readDigits base limit 0 digits

/-! ### Decimals -/

/-- Why a text is not a decimal. -/
inductive DecimalFault
  /-- There is no text. -/
  | empty
  /-- The text is not a decimal. -/
  | invalid
  deriving DecidableEq, Repr

/-- The text of a fault. -/
def DecimalFault.message : DecimalFault → String
  | .empty => "cannot parse float from empty string"
  | .invalid => "invalid float literal"

/-- Digits with at most one point among them, and at least one digit: their value read without the
point, and how many stand after it. -/
def mantissa? (cs : List Char) : Option (Nat × Nat) :=
  let whole := cs.takeWhile isDigit
  match cs.dropWhile isDigit with
  | [] => if whole.isEmpty then none else some (decimalValue whole, 0)
  | '.' :: places =>
    if places.all isDigit && !(whole.isEmpty && places.isEmpty) then
      some (decimalValue (whole ++ places), places.length)
    else none
  | _ => none

/-- An optional sign and at least one digit. -/
def exponent? : List Char → Option Int
  | '-' :: digits => natural? digits |>.map fun n => -(n : Int)
  | '+' :: digits => natural? digits |>.map fun n => (n : Int)
  | digits => natural? digits |>.map fun n => (n : Int)
where
  /-- At least one digit. -/
  natural? (digits : List Char) : Option Nat :=
    if !digits.isEmpty && digits.all isDigit then some (decimalValue digits) else none

/-- The number nearest to `m * 10 ^ e`. -/
def ofDecimal (m : Nat) : Int → Float
  | .ofNat e => OfScientific.ofScientific m false e
  | .negSucc e => OfScientific.ofScientific m true (e + 1)

/-- The number of a decimal without its sign: digits, then perhaps an exponent after a letter
`e`. -/
def unsignedDecimal? (cs : List Char) : Option Float :=
  let isMark := fun c => c == 'e' || c == 'E'
  match mantissa? (cs.takeWhile (!isMark ·)), cs.dropWhile (!isMark ·) with
  | some (m, places), [] => some (ofDecimal m (-(places : Int)))
  | some (m, places), _ :: power => (exponent? power).map fun e => ofDecimal m (e - places)
  | none, _ => none

/-- The names of the numbers without digits, in lower case. -/
def namedNumber? (lower : List Char) : Option Float :=
  if lower = "inf".toList ∨ lower = "infinity".toList then some (1.0 / 0.0)
  else if lower = "nan".toList then some (0.0 / 0.0)
  else none

/-- The number of a text without its sign. -/
def unsignedNumber? (cs : List Char) : Option Float :=
  unsignedDecimal? cs <|> namedNumber? (cs.map Char.toLower)

/-- Reads a decimal. -/
def readDecimal : List Char → Except DecimalFault Float
  | [] => .error .empty
  | '-' :: cs => found ((unsignedNumber? cs).map (- ·))
  | '+' :: cs => found (unsignedNumber? cs)
  | cs => found (unsignedNumber? cs)
where
  /-- The number, if there is one. -/
  found : Option Float → Except DecimalFault Float
  | some x => .ok x
  | none => .error .invalid

end TimeValue.Text
