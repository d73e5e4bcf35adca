import TimeValue.CashFlow.Basic
import TimeValue.Csv.Record
import TimeValue.Text.Blank
import TimeValue.Text.Numeral
import TimeValue.Text.Utf8

/-!
# Cash flows from a table

A file of comma-separated values holds one flow in each record after the first.  The first names
the columns: one is the period and one the amount, and others are ignored.  Blanks around names
and values do not count.  A first record that is not UTF-8 names nothing; the first two columns
are then the period and the amount.

The records are read in order and their values from left to right, and the first fault ends the
reading.

## Main definitions

* `Column` — the two columns that matter.
* `TableFault` — why a file is not a table of flows.
* `flowsOfTable` — the flows of a file.
-/

namespace TimeValue

open Text

/-! ### Columns -/

/-- The two columns that matter. -/
inductive Column
  /-- The period of a flow. -/
  | period
  /-- The amount of a flow. -/
  | amount
  deriving DecidableEq, Repr, Inhabited

namespace Column

/-- A column as messages name it. -/
def label : Column → String
  | .period => "period"
  | .amount => "amount"

/-- The column of a name in the first record. -/
def ofName? (name : List Char) : Option Column :=
  if name = "period".toList ∨ name = "Period".toList then some .period
  else if name = "amount".toList ∨ name = "Amount".toList then some .amount
  else none

end Column

/-! ### Faults -/

/-- Why the values of a record are not a flow. -/
inductive RecordFault
  /-- A value is not a period. -/
  | badPeriod (field : Nat) (fault : WholeFault)
  /-- A value is not an amount. -/
  | badAmount (field : Nat) (fault : DecimalFault)
  /-- A column is named twice. -/
  | duplicate (column : Column)
  /-- A column is not named. -/
  | missing (column : Column)
  /-- There are too few values to take them by their place. -/
  | tooShort (count : Nat)
  deriving DecidableEq, Repr

/-- The text of a fault. -/
def RecordFault.message : RecordFault → String
  | .badPeriod field fault => "field " ++ toString field ++ ": " ++ fault.message
  | .badAmount field fault => "field " ++ toString field ++ ": " ++ fault.message
  | .duplicate column => "duplicate field `" ++ column.label ++ "`"
  | .missing column => "missing field `" ++ column.label ++ "`"
  | .tooShort count =>
    "invalid length " ++ toString count ++ ", expected struct CashFlowRecord with 2 elements"

/-- Why a file is not a table of flows. -/
inductive TableFault
  /-- A record has another count of fields than the first. -/
  | unequalLengths (record : Csv.Record) (expected : Nat)
  /-- A field is not UTF-8 after its first `valid` bytes. -/
  | notUtf8 (record : Csv.Record) (field valid : Nat)
  /-- The values of a record are not a flow. -/
  | badRecord (record : Csv.Record) (fault : RecordFault)
  deriving DecidableEq, Repr

/-- The text of a fault. -/
def TableFault.message : TableFault → String
  | .unequalLengths r expected =>
    "CSV error: record " ++ toString r.index ++ " (line: " ++ toString r.place.line ++ ", byte: " ++
      toString r.place.byte ++ "): found record with " ++ toString r.fields.length ++
      " fields, but the previous record has " ++ toString expected ++ " fields"
  | .notUtf8 r field valid =>
    "CSV parse error: record " ++ toString r.index ++ " (line " ++ toString r.place.line ++
      ", field: " ++ toString field ++ ", byte: " ++ toString r.place.byte ++
      "): invalid utf-8: invalid UTF-8 in field " ++ toString field ++ " near byte index " ++
      toString valid
  | .badRecord r fault =>
    "CSV deserialize error: record " ++ toString r.index ++ " (line: " ++ toString r.place.line ++
      ", byte: " ++ toString r.place.byte ++ "): " ++ fault.message

/-! ### Texts -/

/-- Whether a byte is an ASCII blank. -/
def isBlankByte (b : UInt8) : Bool :=
  b == 0x20 || b == 0x09 || b == 0x0A || b == 0x0C || b == 0x0D

/-- A field without the ASCII blanks at its ends. -/
def trimBytes (bytes : List UInt8) : List UInt8 :=
  ((bytes.dropWhile isBlankByte).reverse.dropWhile isBlankByte).reverse

/-- The texts of a record's fields, of which `index` come before. -/
def fieldTexts (record : Csv.Record) (index : Nat) :
    List (List UInt8) → Except TableFault (List (List Char))
  | [] => .ok []
  | field :: fields =>
    match Utf8.decode (trimBytes field) with
    | .error valid => .error (.notUtf8 record index valid)
    | .ok text => (fieldTexts record (index + 1) fields).map (trim text :: ·)

/-- What each column of a table is, if the first record says. -/
def columnsOf (header : Csv.Record) : Option (List (Option Column)) :=
  match fieldTexts header 0 header.fields with
  | .error _ => none
  | .ok names => some (names.map Column.ofName?)

/-! ### Values -/

/-- A period in a table, decimal or hexadecimal after `0x`. -/
def readPeriod (field : Nat) (text : List Char) : Except RecordFault Nat :=
  let read := match text with
    | '0' :: 'x' :: digits => readWhole 16 maxWhole digits
    | digits => readWhole 10 maxWhole digits
  read.mapError (.badPeriod field)

/-- An amount in a table. -/
def readAmount (field : Nat) (text : List Char) : Except RecordFault Float :=
  (readDecimal text).mapError (.badAmount field)

/-- Reads the values of named columns from left to right, of which `field` come before.  A column
may not be named twice. -/
def readNamed (field : Nat) (period? : Option Nat) (amount? : Option Float) :
    List (Option Column × List Char) → Except RecordFault (CashFlow Float)
  | [] =>
    match period?, amount? with
    | some period, some amount => .ok ⟨period, amount⟩
    | none, _ => .error (.missing .period)
    | some _, none => .error (.missing .amount)
  | (none, _) :: rest => readNamed (field + 1) period? amount? rest
  | (some .period, text) :: rest =>
    if period?.isSome then .error (.duplicate .period)
    else do
      let period ← readPeriod field text
      readNamed (field + 1) (some period) amount? rest
  | (some .amount, text) :: rest =>
    if amount?.isSome then .error (.duplicate .amount)
    else do
      let amount ← readAmount field text
      readNamed (field + 1) period? (some amount) rest

/-- Reads the values of unnamed columns. -/
def readUnnamed : List (List Char) → Except RecordFault (CashFlow Float)
  | [] => .error (.tooShort 0)
  | [period] => do
    let _ ← readPeriod 0 period
    .error (.tooShort 1)
  | period :: amount :: _ => return ⟨← readPeriod 0 period, ← readAmount 1 amount⟩

/-- The flow of a record, in a table of `width` columns. -/
def readRecord (columns : Option (List (Option Column))) (width : Nat) (record : Csv.Record) :
    Except TableFault (CashFlow Float) :=
  if record.fields.length ≠ width then .error (.unequalLengths record width)
  else do
    let texts ← fieldTexts record 0 record.fields
    let flow := match columns with
      | some columns => readNamed 0 none none (columns.zip texts)
      | none => readUnnamed texts
    flow.mapError (.badRecord record)

/-- The flows of a file, in its order. -/
def flowsOfTable (bytes : List UInt8) : Except TableFault (List (CashFlow Float)) :=
  match Csv.records bytes with
  | [] => .ok []
  | header :: data => data.mapM (readRecord (columnsOf header) header.fields.length)

end TimeValue
