import TimeValue.Decimal.Layout
import TimeValue.Text.Printable

/-!
# Why a JSON text cannot be used

A text may fail to be JSON, end too early, or be JSON of another shape than was asked for.  Every
fault has a place: a line, and how many bytes of it come before.

## Main definitions

* `Found` — a value as faults describe it.
* `Cause`, `Cause.kind` — the causes, and the three kinds of them.
* `Fault` — a cause at a place, with its text.
-/

namespace TimeValue.Json

/-- How JSON writes numbers: with the point among the digits when the first digit counts a power
of ten from -5 to 15, and always as a number that need not be whole. -/
def numberStyle : Decimal.Style where
  tie := .toEven
  positional e := decide (-5 ≤ e ∧ e ≤ 15)
  wholeSuffix := ".0"
  nan := "null"
  infinity := "null"
  negativeInfinity := "null"

/-! ### Values in faults -/

/-- A value as faults describe it. -/
inductive Found
  /-- The empty value. -/
  | null
  /-- A truth value. -/
  | boolean (value : Bool)
  /-- A number without point and exponent. -/
  | integer (value : Int)
  /-- Any other number. -/
  | float (value : Float)
  /-- A text. -/
  | text (value : List Char)
  /-- A list. -/
  | sequence
  /-- An object. -/
  | map
  deriving Repr

/-- A character between quotes.  Quotes and backslashes are escaped, and what is not printable is
written as a letter or as its code. -/
def quotedChar (c : Char) : String :=
  if c = '"' then "\\\""
  else if c = '\\' then "\\\\"
  else if c = '\n' then "\\n"
  else if c = '\r' then "\\r"
  else if c = '\t' then "\\t"
  else if c.toNat = 0 then "\\0"
  else if Text.isPrintable c then c.toString
  else "\\u\x7b" ++ String.ofList (Nat.toDigits 16 c.toNat) ++ "\x7d"

/-- A text between quotes. -/
def quotedText (cs : List Char) : String :=
  "\"" ++ String.join (cs.map quotedChar) ++ "\""

/-- The description of a value. -/
def Found.describe : Found → String
  | .null => "null"
  | .boolean value => "boolean `" ++ toString value ++ "`"
  | .integer value => "integer `" ++ toString value ++ "`"
  | .float value => "floating point `" ++ numberStyle.write value ++ "`"
  | .text value => "string " ++ quotedText value
  | .sequence => "sequence"
  | .map => "map"

/-! ### Causes -/

/-- The three kinds of causes. -/
inductive Kind
  /-- The text is not JSON. -/
  | malformed
  /-- The text ends too early. -/
  | ended
  /-- The text is JSON of another shape than was asked for. -/
  | misshapen
  deriving DecidableEq, Repr, Inhabited

/-- Why a text cannot be used. -/
inductive Cause
  /-- The end is inside a list. -/
  | endInList
  /-- The end is inside an object. -/
  | endInObject
  /-- The end is inside a text. -/
  | endInString
  /-- The end is where a value should be, or inside one. -/
  | endInValue
  /-- A key is not followed by a colon. -/
  | expectedColon
  /-- An item of a list is not followed by another or by the end. -/
  | expectedListEnd
  /-- An entry of an object is not followed by another or by the end. -/
  | expectedObjectEnd
  /-- A word is neither of the three that are values. -/
  | expectedWord
  /-- There is no value where one should be. -/
  | expectedValue
  /-- A backslash is not followed by an escape. -/
  | invalidEscape
  /-- A number is not written as one. -/
  | invalidNumber
  /-- A number is too large. -/
  | numberOutOfRange
  /-- A control character stands in a text. -/
  | controlCharacter
  /-- A key is not a text. -/
  | keyNotText
  /-- Half of a pair of escapes stands alone. -/
  | loneSurrogate
  /-- The second half of a pair of escapes is missing. -/
  | missingSurrogate
  /-- A comma is followed by the end of what it separates. -/
  | trailingComma
  /-- There is more than a value. -/
  | trailingCharacters
  /-- A value of another type than was asked for. -/
  | invalidType (found : Found) (expected : String)
  /-- A value of the right type that is not allowed. -/
  | invalidValue (found : Found) (expected : String)
  /-- A key is given twice. -/
  | duplicateKey (key : String)
  deriving Repr

namespace Cause

/-- The kind of a cause. -/
def kind : Cause → Kind
  | .endInList | .endInObject | .endInString | .endInValue => .ended
  | .invalidType .. | .invalidValue .. | .duplicateKey .. => .misshapen
  | _ => .malformed

/-- The text of a cause. -/
def message : Cause → String
  | .endInList => "EOF while parsing a list"
  | .endInObject => "EOF while parsing an object"
  | .endInString => "EOF while parsing a string"
  | .endInValue => "EOF while parsing a value"
  | .expectedColon => "expected `:`"
  | .expectedListEnd => "expected `,` or `]`"
  | .expectedObjectEnd => "expected `,` or `\x7d`"
  | .expectedWord => "expected ident"
  | .expectedValue => "expected value"
  | .invalidEscape => "invalid escape"
  | .invalidNumber => "invalid number"
  | .numberOutOfRange => "number out of range"
  | .controlCharacter => "control character (\\u0000-\\u001F) found while parsing a string"
  | .keyNotText => "key must be a string"
  | .loneSurrogate => "lone leading surrogate in hex escape"
  | .missingSurrogate => "unexpected end of hex escape"
  | .trailingComma => "trailing comma"
  | .trailingCharacters => "trailing characters"
  | .invalidType found expected =>
    "invalid type: " ++ found.describe ++ ", expected " ++ expected
  | .invalidValue found expected =>
    "invalid value: " ++ found.describe ++ ", expected " ++ expected
  | .duplicateKey key => "duplicate field `" ++ key ++ "`"

end Cause

/-- A cause at a place. -/
structure Fault where
  /-- The cause. -/
  cause : Cause
  /-- The line, counted from one. -/
  line : Nat
  /-- How many bytes of the line come before. -/
  column : Nat
  deriving Repr

/-- The text of a fault, with its place. -/
def Fault.message (f : Fault) : String :=
  f.cause.message ++ " at line " ++ toString f.line ++ " column " ++ toString f.column

end TimeValue.Json
