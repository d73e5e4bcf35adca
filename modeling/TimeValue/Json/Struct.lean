import TimeValue.Json.Skip
import TimeValue.Text.Utf8

/-!
# JSON of a known shape

A value of a known shape is a number, a whole number, or a record.  A record is an object with
the names of its fields as keys, or a list of the values of its first fields; what is not given
stays as it was.  Other keys are skipped, and no field may be given twice.

## Main definitions

* `Reader.float`, `Reader.whole` — numbers.
* `Field` — a field of a record, and what its value does to a state.
* `Reader.record` — a record.
* `read` — the value of a text that holds nothing else.
-/

namespace TimeValue.Json

/-- The characters of bytes in UTF-8. -/
def charsOf (bytes : List UInt8) : List Char :=
  match Text.Utf8.decode bytes with
  | .ok cs => cs
  | .error _ => []

namespace Reader

/-! ### Values of another type -/

/-- Fails on a value that is not of the type `expected`, after taking it; lists and objects are
not taken. -/
def wrongType {β : Type} (expected : String) (b : UInt8) : Reader β := do
  if b == 0x6E then
    skip
    word [0x75, 0x6C, 0x6C]
    failHere (.invalidType .null expected)
  else if b == 0x74 then
    skip
    word [0x72, 0x75, 0x65]
    failHere (.invalidType (.boolean true) expected)
  else if b == 0x66 then
    skip
    word [0x61, 0x6C, 0x73, 0x65]
    failHere (.invalidType (.boolean false) expected)
  else if b == 0x2D then
    skip
    failHere (.invalidType (← number true).found expected)
  else if isDigitByte b then
    failHere (.invalidType (← number false).found expected)
  else if b == 0x22 then
    skip
    failHere (.invalidType (.text (charsOf (← text))) expected)
  else if b == 0x5B then failHere (.invalidType .sequence expected)
  else if b == 0x7B then failHere (.invalidType .map expected)
  else failNext .expectedValue

/-! ### Numbers -/

/-- Takes a number, as a value of the type `expected`. -/
def anyNumber (expected : String) : Reader Number := do
  match ← peekPastBlanks? with
  | none => failNext .endInValue
  | some b =>
    if b == 0x2D then
      skip
      number true
    else if isDigitByte b then number false
    else wrongType expected b

/-- Takes a number; an integer will do. -/
def float : Reader Float := do
  match ← anyNumber "f64" with
  | .natural n => return Float.ofNat n
  | .negative n => return -(Float.ofNat n)
  | .float x => return x

/-- Takes a whole number of at most 32 bits. -/
def whole : Reader Nat := do
  match ← anyNumber "u32" with
  | .natural n =>
    if n ≤ Text.maxWhole then return n
    else failHere (.invalidValue (.integer n) "u32")
  | .negative n => failHere (.invalidValue (.integer (-n)) "u32")
  | .float x => failHere (.invalidType (.float x) "u32")

end Reader

/-! ### Records -/

/-- A field of a record, and what reading its value does to a state. -/
structure Field (σ : Type) where
  /-- The key of the field. -/
  name : String
  /-- Reads the value into the state. -/
  read : σ → Reader σ

namespace Reader

variable {σ : Type}

/-- Takes a comma if there is one, and looks for the next item of a list. -/
def atListItem (isFirst : Bool) : Reader Bool := do
  match ← peekPastBlanks? with
  | none => failNext .endInList
  | some b =>
    if b == 0x5D then return false
    else if isFirst then return true
    else if b == 0x2C then
      skip
      match ← peekPastBlanks? with
      | none => failNext .endInValue
      | some b => if b == 0x5D then failNext .trailingComma else return true
    else failNext .expectedListEnd

/-- Takes the end of a list. -/
def endList : Reader Unit := do
  match ← peekPastBlanks? with
  | none => failNext .endInList
  | some b =>
    if b == 0x5D then skip
    else if b == 0x2C then
      skip
      match ← peekPastBlanks? with
      | some b => if b == 0x5D then failNext .trailingComma else failNext .trailingCharacters
      | none => failNext .trailingCharacters
    else failNext .trailingCharacters

/-- Takes the values of the first fields, in order; the end of the list ends them. -/
def listItems (isFirst : Bool) (state : σ) : List (Field σ) → Reader σ
  | [] => return state
  | field :: fields => do
    if ← atListItem isFirst then listItems false (← field.read state) fields
    else return state

/-- Takes a comma if there is one, and looks for the next key of an object. -/
def atKey (isFirst : Bool) : Reader Bool := do
  match ← peekPastBlanks? with
  | none => failNext .endInObject
  | some b =>
    if b == 0x7D then return false
    else if isFirst then
      if b == 0x22 then return true else failNext .keyNotText
    else if b == 0x2C then
      skip
      match ← peekPastBlanks? with
      | none => failNext .endInValue
      | some b =>
        if b == 0x22 then return true
        else if b == 0x7D then failNext .trailingComma
        else failNext .keyNotText
    else failNext .expectedObjectEnd

/-- Fails on a key given twice.  The fault is placed where the object could have ended. -/
def duplicate (key : String) : Reader σ := do
  if (← peekPastBlanks?) == some 0x7D then skip
  failHere (.duplicateKey key)

/-- Takes the entries of an object; `seen` are the keys of fields given so far, and `fuel` bounds
the entries. -/
def entries (fields : List (Field σ)) :
    (fuel : Nat) → (isFirst : Bool) → (seen : List String) → σ → Reader σ
  | 0, _, _, _ => failHere .endInObject
  | fuel + 1, isFirst, seen, state => do
    if ← atKey isFirst then
      skip
      let key := String.ofList (charsOf (← text))
      match fields.find? (·.name == key) with
      | some field =>
        if seen.contains key then duplicate key
        else
          symbol 0x3A .endInObject .expectedColon
          entries fields fuel false (key :: seen) (← field.read state)
      | none =>
        symbol 0x3A .endInObject .expectedColon
        skipValue
        entries fields fuel false seen state
    else
      skip
      return state

/-- Takes a record with these fields, called `name`. -/
def record (name : String) (fields : List (Field σ)) (state : σ) : Reader σ := do
  match ← peekPastBlanks? with
  | none => failNext .endInValue
  | some b =>
    if b == 0x5B then
      skip
      let state ← listItems true state fields
      endList
      return state
    else if b == 0x7B then
      skip
      entries fields ((← get).rest.length + 1) true [] state
    else wrongType ("struct " ++ name) b

end Reader

/-- The value of a text that holds nothing else. -/
def read {β : Type} (reader : Reader β) (bytes : List UInt8) : Except Fault β := do
  let (value, cursor) ← reader.run (.start bytes)
  let rest := cursor.afterBlanks
  match rest.rest with
  | [] => return value
  | _ :: _ => throw (rest.advance.fault .trailingCharacters)

end TimeValue.Json
