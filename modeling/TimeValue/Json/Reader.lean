import TimeValue.Json.Fault

/-!
# Reading JSON byte by byte

A reader takes bytes from a cursor that knows its place, and yields a value or a fault.  A fault
is reported either where the cursor is, or past the byte that it is about to take.

## Main definitions

* `Cursor` — the bytes not read, and their place.
* `Reader` — a computation that takes bytes.
* `skipBlanks`, `peek?`, `next?`, `takeRun`, `word` — the steps that other readers are made of.
-/

namespace TimeValue.Json

/-! ### Cursors -/

/-- The bytes not read, and their place. -/
structure Cursor where
  /-- The bytes not read. -/
  rest : List UInt8
  /-- The line, counted from one. -/
  line : Nat
  /-- How many bytes of the line come before. -/
  column : Nat
  deriving Repr, Inhabited

namespace Cursor

/-- The start of a text. -/
def start (bytes : List UInt8) : Cursor :=
  ⟨bytes, 1, 0⟩

/-- The cursor after one more byte; the end stays the end. -/
def advance (c : Cursor) : Cursor :=
  match c.rest with
  | [] => c
  | b :: rest => if b == 0x0A then ⟨rest, c.line + 1, 0⟩ else ⟨rest, c.line, c.column + 1⟩

/-- The cursor after some more bytes. -/
def advanceBy (c : Cursor) : Nat → Cursor
  | 0 => c
  | count + 1 => c.advance.advanceBy count

/-- Whether a byte is one of the four blanks. -/
def isBlank (b : UInt8) : Bool :=
  b == 0x20 || b == 0x0A || b == 0x09 || b == 0x0D

/-- The cursor after the blanks that come next. -/
def afterBlanks (c : Cursor) : Cursor :=
  c.advanceBy (c.rest.takeWhile isBlank).length

/-- A fault where the cursor is. -/
def fault (c : Cursor) (cause : Cause) : Fault :=
  ⟨cause, c.line, c.column⟩

end Cursor

/-! ### Readers -/

/-- A computation that takes bytes. -/
abbrev Reader := StateT Cursor (Except Fault)

namespace Reader

variable {β : Type}

/-- Fails where the cursor is. -/
def failHere (cause : Cause) : Reader β := do
  throw ((← get).fault cause)

/-- Fails past the byte that comes next. -/
def failNext (cause : Cause) : Reader β := do
  throw ((← get).advance.fault cause)

/-- The byte that comes next. -/
def peek? : Reader (Option UInt8) := do
  return (← get).rest.head?

/-- Takes a byte. -/
def skip : Reader Unit :=
  modify Cursor.advance

/-- Takes a byte, if there is one. -/
def next? : Reader (Option UInt8) := do
  let b ← peek?
  skip
  return b

/-- Takes the blanks that come next, and looks at the byte after them. -/
def peekPastBlanks? : Reader (Option UInt8) := do
  modify Cursor.afterBlanks
  peek?

/-- Takes the longest run of bytes of a class. -/
def takeRun (isMember : UInt8 → Bool) : Reader (List UInt8) := do
  let run := (← get).rest.takeWhile isMember
  modify (·.advanceBy run.length)
  return run

/-- Takes the bytes of a word, after its first. -/
def word : List UInt8 → Reader Unit
  | [] => pure ()
  | expected :: others => do
    match ← next? with
    | none => failHere .endInValue
    | some b => if b == expected then word others else failHere .expectedWord

/-- Takes a byte that must come next. -/
def symbol (b : UInt8) (ended other : Cause) : Reader Unit := do
  match ← peekPastBlanks? with
  | none => failNext ended
  | some found => if found == b then skip else failNext other

end Reader

end TimeValue.Json
