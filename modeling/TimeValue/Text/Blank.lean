/-!
# Blanks

The characters with the Unicode property `White_Space`, and trimming text of them.  The class of
the core library knows only the ASCII ones.

## Main definitions

* `blankRanges` — the code points of the property.
* `isBlank` — whether a character has it.
* `trim` — text without the blanks at its ends.
-/

namespace TimeValue.Text

/-- The code points with the property `White_Space`, as inclusive ranges in rising order. -/
def blankRanges : List (Nat × Nat) :=
  [(0x09, 0x0D), (0x20, 0x20), (0x85, 0x85), (0xA0, 0xA0), (0x1680, 0x1680), (0x2000, 0x200A),
    (0x2028, 0x2029), (0x202F, 0x202F), (0x205F, 0x205F), (0x3000, 0x3000)]

/-- Whether a character has the property `White_Space`. -/
def isBlank (c : Char) : Bool :=
  blankRanges.any fun range => decide (range.1 ≤ c.toNat ∧ c.toNat ≤ range.2)

/-- Text without the blanks at its ends. -/
def trim (cs : List Char) : List Char :=
  ((cs.dropWhile isBlank).reverse.dropWhile isBlank).reverse

/-- The table holds twenty-five characters. -/
example : (blankRanges.map fun range => range.2 + 1 - range.1).sum = 25 := by decide

end TimeValue.Text
