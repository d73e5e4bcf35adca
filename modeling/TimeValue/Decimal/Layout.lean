import TimeValue.Decimal.Shortest

/-!
# Layout of numbers

How the digits of a number are laid out as text: with the point among the digits or with an
exponent, with a fixed number of places, and in columns.  What a format decides for itself is a
value of `Style`.

## Main definitions

* `Style` — the decisions of a format that writes shortest digits.
* `Style.write` — a number in such a format.
* `fixed` — a number with a fixed count of places after the point.
* `scientific` — a number with a fixed count of significant digits and an exponent.
* `padLeft` — text at the right of a column.
-/

namespace TimeValue.Decimal

/-- The decisions of a format that writes shortest digits. -/
structure Style where
  /-- Which of two shortest candidates equally near is written. -/
  tie : Tie
  /-- Which exponents of the first digit are written with the point among the digits. -/
  positional : Int → Bool
  /-- What follows a whole number, to show that it need not have been one. -/
  wholeSuffix : String
  /-- The text of what is not a number. -/
  nan : String
  /-- The text of the positive infinity. -/
  infinity : String
  /-- The text of the negative infinity. -/
  negativeInfinity : String

/-- A minus for a negative number. -/
def signText (negative : Bool) : String :=
  if negative then "-" else ""

/-- A run of zeros. -/
def zeros (count : Nat) : String :=
  String.ofList (List.replicate count '0')

/-- Digits with the point among them; `wholeSuffix` follows when nothing stands after the
point. -/
def Digits.positional (wholeSuffix : String) (d : Digits) : String :=
  match d.exponent with
  | .negSucc before => "0." ++ zeros before ++ String.ofList d.digits
  | .ofNat whole =>
    let missing := whole + 1 - d.digits.length
    let after := d.digits.drop (whole + 1)
    String.ofList (d.digits.take (whole + 1)) ++ zeros missing ++
      if after.isEmpty then wholeSuffix else "." ++ String.ofList after

/-- Digits with the point after the first, and the exponent after `mark`, such as `1.25e-7`. -/
def Digits.exponential (plus : String) (d : Digits) : String :=
  let after := d.digits.drop 1
  let point := if after.isEmpty then "" else "." ++ String.ofList after
  let power := match d.exponent with
    | .ofNat e => plus ++ toString e
    | .negSucc e => "-" ++ toString (e + 1)
  String.ofList (d.digits.take 1) ++ point ++ "e" ++ power

/-- The text of a number with the fewest digits that read back as it. -/
def Style.write (style : Style) (x : Float) : String :=
  match Binary64.ofFloat x with
  | .nan => style.nan
  | .infinite negative => if negative then style.negativeInfinity else style.infinity
  | .finite negative m q =>
    let digits := if m = 0 then ⟨['0'], 0⟩ else shortest style.tie m q
    signText negative ++
      if style.positional digits.exponent then digits.positional style.wholeSuffix
      else digits.exponential "+"

/-- The format of numbers in messages: never an exponent, and nothing after a whole number. -/
def Style.plain : Style where
  tie := .up
  positional _ := true
  wholeSuffix := ""
  nan := "NaN"
  infinity := "inf"
  negativeInfinity := "-inf"

/-- The texts of the numbers that have no digits, for the formats below. -/
def writeSpecial (x : Float) (finite : (negative : Bool) → Nat → Int → String) : String :=
  match Binary64.ofFloat x with
  | .nan => Style.plain.nan
  | .infinite negative =>
    if negative then Style.plain.negativeInfinity else Style.plain.infinity
  | .finite negative m q => finite negative m q

/-- A number rounded to `places` digits after the point, a half going to the even neighbour; a
negative number that rounds to zero keeps its sign. -/
def fixed (places : Nat) (x : Float) : String :=
  writeSpecial x fun negative m q =>
    let c := ((Ratio.ofBinary m q).perGrid (-(places : Int))).round .toEven
    let all := Nat.toDigits 10 c
    let digits := List.replicate (places + 1 - all.length) '0' ++ all
    let whole := digits.take (digits.length - places)
    let after := digits.drop (digits.length - places)
    signText negative ++ String.ofList whole ++
      if places = 0 then "" else "." ++ String.ofList after

/-- A number rounded to `places + 1` significant digits, a half going to the even neighbour, and
its exponent. -/
def scientific (places : Nat) (x : Float) : String :=
  writeSpecial x fun negative m q =>
    let digits :=
      if m = 0 then ⟨List.replicate (places + 1) '0', 0⟩ else significant .toEven (places + 1) m q
    signText negative ++ digits.exponential ""

/-- Text at the right of a column of the given width; wider text is kept whole. -/
def padLeft (width : Nat) (text : String) : String :=
  String.ofList (List.replicate (width - text.length) ' ') ++ text

end TimeValue.Decimal
