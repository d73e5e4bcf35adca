import TimeValue.Json.Reader
import TimeValue.Text.Numeral

/-!
# Texts in JSON

A text stands between quotes.  Control characters must be escaped in it.  An escape of four
hexadecimal digits names a unit of UTF-16; two of them name a character beyond the first plane,
and neither half of such a pair may stand alone.  Where a text is only skipped, the pairing of
its escapes is not looked at.

## Main definitions

* `Reader.text` — the UTF-8 bytes of a text.
* `Reader.skipText` — taking a text without its value.
-/

namespace TimeValue.Json

/-- The UTF-8 bytes of a code point. -/
def encodeCode (code : Nat) : List UInt8 :=
  (String.singleton (Char.ofNat code)).toUTF8.toList

/-- The byte that a short escape stands for. -/
def shortEscape? (b : UInt8) : Option UInt8 :=
  if b == 0x22 || b == 0x5C || b == 0x2F then some b
  else if b == 0x62 then some 0x08
  else if b == 0x66 then some 0x0C
  else if b == 0x6E then some 0x0A
  else if b == 0x72 then some 0x0D
  else if b == 0x74 then some 0x09
  else none

/-- The value of four hexadecimal digits. -/
def hexValue? (bytes : List UInt8) : Option Nat :=
  bytes.foldl (fun value? b => do
    return 16 * (← value?) + (← Text.digitValue? 16 (Char.ofNat b.toNat))) (some 0)

/-- Whether a unit is the first half of a pair. -/
def isFirstHalf (unit : Nat) : Bool :=
  decide (0xD800 ≤ unit ∧ unit < 0xDC00)

/-- Whether a unit is the second half of a pair. -/
def isSecondHalf (unit : Nat) : Bool :=
  decide (0xDC00 ≤ unit ∧ unit < 0xE000)

namespace Reader

/-- Takes four hexadecimal digits. -/
def hexUnit : Reader Nat := do
  let digits := (← get).rest.take 4
  modify (·.advanceBy digits.length)
  if digits.length < 4 then failHere .endInString
  else
    match hexValue? digits with
    | some unit => return unit
    | none => failHere .invalidEscape

/-- Takes a byte that the second half of a pair must start with. -/
def pairSymbol (b : UInt8) : Reader Unit := do
  match ← next? with
  | none => failHere .endInString
  | some found => if found == b then pure () else failHere .missingSurrogate

/-- The bytes of the character that an escape of units names, after its first letter. -/
def unitEscape : Reader (List UInt8) := do
  let unit ← hexUnit
  if isSecondHalf unit then failHere .loneSurrogate
  else if isFirstHalf unit then
    pairSymbol 0x5C
    pairSymbol 0x75
    let second ← hexUnit
    if isSecondHalf second then
      return encodeCode (0x10000 + 0x400 * (unit - 0xD800) + (second - 0xDC00))
    else failHere .loneSurrogate
  else return encodeCode unit

/-- The bytes that an escape stands for, after its backslash. -/
def escape : Reader (List UInt8) := do
  match ← next? with
  | none => failHere .endInString
  | some b =>
    match shortEscape? b with
    | some plain => return [plain]
    | none => if b == 0x75 then unitEscape else failHere .invalidEscape

/-- Takes an escape, after its backslash. -/
def skipEscape : Reader Unit := do
  match ← next? with
  | none => failHere .endInString
  | some b =>
    if (shortEscape? b).isSome then pure ()
    else if b == 0x75 then discard hexUnit
    else failHere .invalidEscape

/-- Whether a byte stands for itself in a text. -/
def isPlainByte (b : UInt8) : Bool :=
  decide (0x20 ≤ b) && b != 0x22 && b != 0x5C

/-- The bytes of a text after its first quote; `fuel` bounds the escapes in it. -/
def textFrom : (fuel : Nat) → Reader (List UInt8)
  | 0 => failHere .endInString
  | fuel + 1 => do
    let plain ← takeRun isPlainByte
    match ← next? with
    | none => failHere .endInString
    | some b =>
      if b == 0x22 then return plain
      else if b == 0x5C then
        let escaped ← escape
        return plain ++ escaped ++ (← textFrom fuel)
      else failHere .controlCharacter

/-- The bytes of a text after its first quote. -/
def text : Reader (List UInt8) := do
  textFrom ((← get).rest.length + 1)

/-- Takes a text after its first quote; `fuel` bounds the escapes in it. -/
def skipTextFrom : (fuel : Nat) → Reader Unit
  | 0 => failHere .endInString
  | fuel + 1 => do
    discard <| takeRun isPlainByte
    match ← peek? with
    | none => failHere .endInString
    | some b =>
      if b == 0x22 then skip
      else if b == 0x5C then
        skip
        skipEscape
        skipTextFrom fuel
      else failHere .controlCharacter

/-- Takes a text after its first quote. -/
def skipText : Reader Unit := do
  skipTextFrom ((← get).rest.length + 1)

end Reader

end TimeValue.Json
