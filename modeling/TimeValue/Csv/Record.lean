/-!
# Records of comma-separated values

Bytes are split into records at line feeds and carriage returns, and records into fields at
commas.  A field that starts with a quote goes on to the next quote, whatever it holds; a quote
inside it is written twice, and text after its end is part of the field.  Empty lines are no
records; lines of blanks are.

Every record knows where the reading of it began: right after the end of the record before it,
ahead of any empty lines.

## Main definitions

* `Place` — a line and a byte offset.
* `Record` — the fields of a record, and where it began.
* `readFields` — the fields of one record.
* `records` — all records of a file.
-/

namespace TimeValue.Csv

/-! ### Bytes with a meaning -/

/-- Separates fields. -/
def comma : UInt8 := 0x2C

/-- Opens, closes and escapes. -/
def quote : UInt8 := 0x22

/-- Line feed. -/
def lineFeed : UInt8 := 0x0A

/-- Carriage return. -/
def carriageReturn : UInt8 := 0x0D

/-- Whether a byte ends a record. -/
def isTerminator (b : UInt8) : Bool :=
  b == lineFeed || b == carriageReturn

/-- The mark that may stand at the start of a file of UTF-8. -/
def byteOrderMark : List UInt8 := [0xEF, 0xBB, 0xBF]

/-! ### Places -/

/-- A place in a file. -/
structure Place where
  /-- The line, counted from one by line feeds. -/
  line : Nat
  /-- How many bytes come before. -/
  byte : Nat
  deriving DecidableEq, Repr, Inhabited

/-- The start of a file. -/
def Place.start : Place :=
  ⟨1, 0⟩

/-- The place after a byte. -/
def Place.after (p : Place) (b : UInt8) : Place :=
  ⟨if b == lineFeed then p.line + 1 else p.line, p.byte + 1⟩

/-- The place after some bytes. -/
def Place.afterAll (p : Place) (bytes : List UInt8) : Place :=
  bytes.foldl Place.after p

/-- A record. -/
structure Record where
  /-- How many records come before. -/
  index : Nat
  /-- Where the reading of the record began. -/
  place : Place
  /-- The fields, without quotes. -/
  fields : List (List UInt8)
  deriving DecidableEq, Repr, Inhabited

/-! ### Fields -/

/-- Where in a field the next byte stands. -/
inductive Mode
  /-- At its start, where a quote opens. -/
  | atStart
  /-- After something that is not quoted. -/
  | plain
  /-- Between quotes. -/
  | quoted
  /-- After a quote that closes, or is the first of two. -/
  | afterQuote
  deriving DecidableEq, Repr, Inhabited

/-- What is left after a record. -/
structure Rest where
  /-- The place after it. -/
  place : Place
  /-- The bytes after it. -/
  bytes : List UInt8
  deriving Repr

/-- Reads the fields of one record; `fields` are those already read and `field` the bytes of the
one being read, the last first.  The byte that ends the record is taken, and the end of the file
ends any record. -/
def readFields (mode : Mode) (fields : List (List UInt8)) (field : List UInt8) (place : Place) :
    List UInt8 → List (List UInt8) × Rest
  | [] => ((field.reverse :: fields).reverse, ⟨place, []⟩)
  | b :: rest =>
    let next := place.after b
    let outside : List (List UInt8) × Rest :=
      if b == comma then readFields .atStart (field.reverse :: fields) [] next rest
      else if isTerminator b then ((field.reverse :: fields).reverse, ⟨next, rest⟩)
      else readFields .plain fields (b :: field) next rest
    match mode with
    | .atStart => if b == quote then readFields .quoted fields field next rest else outside
    | .plain => outside
    | .quoted =>
      if b == quote then readFields .afterQuote fields field next rest
      else readFields .quoted fields (b :: field) next rest
    | .afterQuote =>
      if b == quote then readFields .quoted fields (b :: field) next rest else outside

/-- A record takes at least one byte. -/
theorem readFields_rest_length (mode : Mode) (fields : List (List UInt8)) (field : List UInt8)
    (place : Place) (b : UInt8) (bytes : List UInt8) :
    (readFields mode fields field place (b :: bytes)).2.bytes.length ≤ bytes.length := by
  have weak : ∀ (mode : Mode) (fields : List (List UInt8)) (field : List UInt8) (place : Place)
      (bytes : List UInt8),
      (readFields mode fields field place bytes).2.bytes.length ≤ bytes.length := by
    intro mode fields field place bytes
    induction bytes generalizing mode fields field place with
    | nil => simp [readFields]
    | cons b rest ih =>
      unfold readFields
      dsimp only
      repeat' split
      all_goals first
        | exact Nat.le_succ_of_le (ih _ _ _ _)
        | exact Nat.le_succ _
  unfold readFields
  dsimp only
  repeat' split
  all_goals first
    | exact weak _ _ _ _ _
    | exact Nat.le_refl _

/-! ### Records -/

/-- The records of `bytes`, which start at `place` after `index` records. -/
def recordsFrom (index : Nat) (place : Place) (bytes : List UInt8) : List Record :=
  match _h : bytes.dropWhile isTerminator with
  | [] => []
  | b :: body =>
    let start := place.afterAll (bytes.takeWhile isTerminator)
    let read := readFields .atStart [] [] start (b :: body)
    ⟨index, place, read.1⟩ :: recordsFrom (index + 1) read.2.place read.2.bytes
termination_by bytes.length
decreasing_by
  have hrest := readFields_rest_length .atStart [] []
    (place.afterAll (bytes.takeWhile isTerminator)) b body
  have hdrop := (List.dropWhile_suffix isTerminator (l := bytes)).length_le
  rw [_h] at hdrop
  exact Nat.lt_of_le_of_lt hrest hdrop

/-- The records of a file, after the byte order mark that may stand at its start. -/
def records (bytes : List UInt8) : List Record :=
  if byteOrderMark.isPrefixOf bytes then
    recordsFrom 0 (Place.start.afterAll byteOrderMark) (bytes.drop byteOrderMark.length)
  else recordsFrom 0 .start bytes

end TimeValue.Csv
