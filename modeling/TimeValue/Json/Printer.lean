import TimeValue.Json.Fault

/-!
# Writing JSON

Every item of a list and every entry of an object stands on a line of its own, two blanks deeper
than what holds it.  A list or an object that holds nothing is written without a line break.

## Main definitions

* `Value` — a value to be written.
* `escaped` — a text between quotes.
* `Value.pretty` — the text of a value.
-/

namespace TimeValue.Json

/-! ### Values -/

/-- A value to be written. -/
inductive Value
  /-- The empty value. -/
  | null
  /-- A whole number. -/
  | whole (value : Nat)
  /-- A number; one that is not finite is written as the empty value. -/
  | number (value : Float)
  /-- A text. -/
  | text (value : String)
  /-- A list. -/
  | list (items : List Value)
  /-- An object; its entries keep their order. -/
  | object (entries : List (String × Value))

/-! ### Texts -/

/-- A control character by its code, in four hexadecimal digits. -/
def codeEscape (c : Char) : String :=
  let digits := Nat.toDigits 16 c.toNat
  "\\u" ++ Decimal.zeros (4 - digits.length) ++ String.ofList digits

/-- A character in a text: quotes, backslashes and the control characters below the blank are
escaped, by a letter if there is one for them. -/
def escapedChar (c : Char) : String :=
  if c = '"' then "\\\""
  else if c = '\\' then "\\\\"
  else if c = '\n' then "\\n"
  else if c = '\r' then "\\r"
  else if c = '\t' then "\\t"
  else if c.toNat = 0x08 then "\\b"
  else if c.toNat = 0x0C then "\\f"
  else if c.toNat < 0x20 then codeEscape c
  else c.toString

/-- A text between quotes. -/
def escaped (text : String) : String :=
  "\"" ++ String.join (text.toList.map escapedChar) ++ "\""

/-! ### Lines -/

/-- A line break, and the blanks that begin a line at a depth. -/
def lineBreak (depth : Nat) : String :=
  "\n" ++ String.ofList (List.replicate (2 * depth) ' ')

/-- What stands between two brackets: parts on lines of their own, one level deeper. -/
def enclosed (opening closing : String) (depth : Nat) (parts : List String) : String :=
  if parts.isEmpty then opening ++ closing
  else
    opening ++ lineBreak (depth + 1) ++ String.intercalate ("," ++ lineBreak (depth + 1)) parts ++
      lineBreak depth ++ closing

mutual

/-- The text of a value that stands at a depth. -/
def Value.prettyAt (depth : Nat) : Value → String
  | .null => "null"
  | .whole value => toString value
  | .number value => numberStyle.write value
  | .text value => escaped value
  | .list items => enclosed "[" "]" depth (itemTexts (depth + 1) items)
  | .object entries => enclosed "\x7b" "\x7d" depth (entryTexts (depth + 1) entries)

/-- The texts of the items of a list. -/
def itemTexts (depth : Nat) : List Value → List String
  | [] => []
  | item :: items => item.prettyAt depth :: itemTexts depth items

/-- The texts of the entries of an object. -/
def entryTexts (depth : Nat) : List (String × Value) → List String
  | [] => []
  | (key, value) :: entries =>
    (escaped key ++ ": " ++ value.prettyAt depth) :: entryTexts depth entries

end

/-- The text of a value. -/
def Value.pretty (value : Value) : String :=
  value.prettyAt 0

end TimeValue.Json
