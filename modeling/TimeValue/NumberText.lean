import TimeValue.Decimal.Layout

/-!
# Numbers in messages

A message that names a number needs the number's text, and nothing else about it.

## Main definitions

* `NumberText` — the two ways a message writes a number.
-/

namespace TimeValue

/-- How messages write numbers of a type. -/
class NumberText (α : Type) where
  /-- The fewest digits that read back as the number, never with an exponent. -/
  plain : α → String
  /-- Three significant digits and an exponent. -/
  brief : α → String

instance NumberText.float : NumberText Float where
  plain := Decimal.Style.plain.write
  brief := Decimal.scientific 2

end TimeValue
