import TimeValue.Json.Number
import TimeValue.Json.Text

/-!
# Skipping JSON values

The value of a key that means nothing is taken without being kept.  It may be nested to any
depth: the lists and objects that are open are kept in a list, the innermost first.

## Main definitions

* `Reader.skipValue` — takes a value.
-/

namespace TimeValue.Json

/-- A list or an object that is open. -/
inductive Frame
  /-- A list. -/
  | list
  /-- An object. -/
  | object
  deriving DecidableEq, Repr, Inhabited

namespace Frame

/-- The byte that closes a frame. -/
def closing : Frame → UInt8
  | .list => 0x5D
  | .object => 0x7D

/-- The cause when the text ends inside a frame. -/
def ended : Frame → Cause
  | .list => .endInList
  | .object => .endInObject

/-- The cause when something follows an item that can neither be the next nor the end. -/
def expectedEnd : Frame → Cause
  | .list => .expectedListEnd
  | .object => .expectedObjectEnd

end Frame

/-- What comes next while a value is skipped. -/
inductive Stage
  /-- A value. -/
  | value
  /-- The end of the innermost frame, or its first item. -/
  | opened
  /-- The end of the innermost frame, or a comma and its next item. -/
  | item
  deriving DecidableEq, Repr, Inhabited

namespace Reader

/-- Takes a value that is neither a list nor an object; for those, takes the byte that opens it
and gives the frame. -/
def skipScalar : Reader (Option Frame) := do
  match ← peekPastBlanks? with
  | none => failNext .endInValue
  | some b =>
    if b == 0x6E then
      skip
      word [0x75, 0x6C, 0x6C]
      return none
    else if b == 0x74 then
      skip
      word [0x72, 0x75, 0x65]
      return none
    else if b == 0x66 then
      skip
      word [0x61, 0x6C, 0x73, 0x65]
      return none
    else if b == 0x2D then
      skip
      skipNumber
      return none
    else if isDigitByte b then
      skipNumber
      return none
    else if b == 0x22 then
      skip
      skipText
      return none
    else if b == 0x5B then
      skip
      return some .list
    else if b == 0x7B then
      skip
      return some .object
    else failNext .expectedValue

/-- Takes the key of an entry and its colon. -/
def skipKey : Reader Unit := do
  symbol 0x22 .endInObject .keyNotText
  skipText
  symbol 0x3A .endInObject .expectedColon

/-- Takes what comes before the value of the next item. -/
def enterItem : Frame → Reader Unit
  | .list => pure ()
  | .object => skipKey

/-- Takes the rest of a value, inside the frames `open`; `fuel` bounds the steps. -/
def skipFrom : (fuel : Nat) → Stage → (frames : List Frame) → Reader Unit
  | 0, _, _ => failHere .endInValue
  | fuel + 1, .value, frames => do
    match ← skipScalar with
    | some frame => skipFrom fuel .opened (frame :: frames)
    | none => skipFrom fuel .item frames
  | _ + 1, .opened, [] => pure ()
  | _ + 1, .item, [] => pure ()
  | fuel + 1, .opened, frame :: frames => do
    match ← peekPastBlanks? with
    | none => failNext frame.ended
    | some b =>
      if b == frame.closing then
        skip
        skipFrom fuel .item frames
      else
        enterItem frame
        skipFrom fuel .value (frame :: frames)
  | fuel + 1, .item, frame :: frames => do
    match ← peekPastBlanks? with
    | none => failNext frame.ended
    | some b =>
      if b == 0x2C then
        skip
        enterItem frame
        skipFrom fuel .value (frame :: frames)
      else if b == frame.closing then
        skip
        skipFrom fuel .item frames
      else failNext frame.expectedEnd

/-- Takes a value.  Each byte makes for at most two steps. -/
def skipValue : Reader Unit := do
  skipFrom (2 * (← get).rest.length + 2) .value []

end Reader

end TimeValue.Json
