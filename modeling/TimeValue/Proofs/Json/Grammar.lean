import TimeValue.Proofs.Json.Reader

/-!
# JSON as it is written

The grammar of JSON, over bytes and without a reader.  A number is a whole part, perhaps with places
and a power of ten; a text is runs of plain bytes between escapes; lists and objects hold their
parts between commas, with blanks wherever there is no byte of a part.  A value says nothing about
its own bytes beyond this: which numbers are too large is left to who reads them.

The grammar of texts has two readings.  In the one, an escape names any unit of UTF-16; this is what
a value may hold.  In the other, units make characters, and the text spells the bytes of these; this
is what the name of a field must do.

## Main definitions

* `IsNumber` — numbers.
* `IsText`, `Spells` — texts, and the bytes that they spell.
* `Encloses` — parts between brackets.
* `Entry` — a key and a value.
* `IsValue` — values.

## Main results

* `IsValue.exists_cons` — no value starts with a blank or with the end of a list.
-/

namespace TimeValue.Json

open Reader (isPlainByte)

/-! ### Numbers -/

/-- Bytes that are all digits. -/
def AreDigits (digits : List UInt8) : Prop :=
  ∀ b ∈ digits, isDigitByte b = true

instance (digits : List UInt8) : Decidable (AreDigits digits) :=
  List.decidableBAll (isDigitByte · = true) digits

/-- The whole part of a number. -/
inductive IsWholePart : List UInt8 → Prop
  /-- A zero stands alone. -/
  | zero : IsWholePart [0x30]
  /-- Other digits may be followed by any. -/
  | digits {b : UInt8} {digits : List UInt8} (hb : isDigitByte b = true) (hne : b ≠ 0x30)
    (h : AreDigits digits) : IsWholePart (b :: digits)

/-- The places of a number, if it has any. -/
inductive IsFraction : List UInt8 → Prop
  /-- There is no point. -/
  | none : IsFraction []
  /-- A point is followed by at least one digit. -/
  | places {digits : List UInt8} (hne : digits ≠ []) (h : AreDigits digits) :
    IsFraction (0x2E :: digits)

/-- The sign of a power, if it has one. -/
inductive IsPowerSign : List UInt8 → Prop
  /-- There is none. -/
  | none : IsPowerSign []
  /-- A plus sign. -/
  | plus : IsPowerSign [0x2B]
  /-- A minus sign. -/
  | minus : IsPowerSign [0x2D]

/-- The power of ten of a number, if it has one. -/
inductive IsPower : List UInt8 → Prop
  /-- There is no mark. -/
  | none : IsPower []
  /-- A mark of either case is followed by at least one digit, perhaps with a sign. -/
  | power {mark b : UInt8} {sign digits : List UInt8} (hmark : mark = 0x65 ∨ mark = 0x45)
    (hsign : IsPowerSign sign) (hb : isDigitByte b = true) (h : AreDigits digits) :
    IsPower (mark :: (sign ++ b :: digits))

/-- A number without its sign. -/
inductive IsUnsigned : List UInt8 → Prop
  /-- The three parts follow each other. -/
  | parts {whole fraction power : List UInt8} (hwhole : IsWholePart whole)
    (hfraction : IsFraction fraction) (hpower : IsPower power) :
    IsUnsigned (whole ++ (fraction ++ power))

/-- A number. -/
inductive IsNumber : List UInt8 → Prop
  /-- There is no plus sign in front of a number. -/
  | unsigned {t : List UInt8} (h : IsUnsigned t) : IsNumber t
  /-- A minus sign stands in front. -/
  | negative {t : List UInt8} (h : IsUnsigned t) : IsNumber (0x2D :: t)

/-! ### Texts -/

/-- Bytes that all stand for themselves in a text. -/
def ArePlain (run : List UInt8) : Prop :=
  ∀ b ∈ run, isPlainByte b = true

instance (run : List UInt8) : Decidable (ArePlain run) :=
  List.decidableBAll (isPlainByte · = true) run

/-- Four hexadecimal digits and the unit that they name. -/
structure IsUnit (digits : List UInt8) (unit : Nat) : Prop where
  length_eq : digits.length = 4
  value : hexValue? digits = some unit

/-- An escape, after its backslash. -/
inductive IsEscape : List UInt8 → Prop
  /-- A letter that stands for a byte. -/
  | short {b plain : UInt8} (h : shortEscape? b = some plain) : IsEscape [b]
  /-- A unit, whichever. -/
  | unit {digits : List UInt8} {unit : Nat} (h : IsUnit digits unit) : IsEscape (0x75 :: digits)

/-- A text between its quotes. -/
inductive IsText : List UInt8 → Prop
  /-- There is no further escape. -/
  | plain {run : List UInt8} (h : ArePlain run) : IsText run
  /-- Plain bytes up to an escape, and what follows it. -/
  | escape {run e t : List UInt8} (h : ArePlain run) (he : IsEscape e) (ht : IsText t) :
    IsText (run ++ 0x5C :: (e ++ t))

/-- Escapes that make a character, and the bytes of that character. -/
inductive SpellsChar : List UInt8 → List UInt8 → Prop
  /-- A letter that stands for a byte. -/
  | short {b plain : UInt8} (h : shortEscape? b = some plain) : SpellsChar [b] [plain]
  /-- A unit that is half of no pair. -/
  | unit {digits : List UInt8} {unit : Nat} (h : IsUnit digits unit)
    (hfirst : isFirstHalf unit = false) (hsecond : isSecondHalf unit = false) :
    SpellsChar (0x75 :: digits) (encodeCode unit)
  /-- Two units that make a pair. -/
  | pair {digits digits' : List UInt8} {unit unit' : Nat} (h : IsUnit digits unit)
    (h' : IsUnit digits' unit') (hfirst : isFirstHalf unit = true)
    (hsecond : isSecondHalf unit' = true) :
    SpellsChar (0x75 :: (digits ++ 0x5C :: 0x75 :: digits'))
      (encodeCode (0x10000 + 0x400 * (unit - 0xD800) + (unit' - 0xDC00)))

/-- A text between its quotes, and the bytes that it spells. -/
inductive Spells : List UInt8 → List UInt8 → Prop
  /-- Plain bytes spell themselves. -/
  | plain {run : List UInt8} (h : ArePlain run) : Spells run run
  /-- Plain bytes up to the escapes of a character, and what follows these. -/
  | escape {run e bytes t s : List UInt8} (h : ArePlain run) (he : SpellsChar e bytes)
    (ht : Spells t s) : Spells (run ++ 0x5C :: (e ++ t)) (run ++ bytes ++ s)

/-! ### Lists and objects -/

/-- Parts with commas between them, and with blanks on either side of a comma and at the end. -/
inductive Separated : List (List UInt8) → List UInt8 → Prop
  /-- The last part. -/
  | one {part ws : List UInt8} (hws : IsBlanks ws) : Separated [part] (part ++ ws)
  /-- A part, a comma, and further parts. -/
  | cons {part ws ws' t : List UInt8} {parts : List (List UInt8)} (hws : IsBlanks ws)
    (hws' : IsBlanks ws') (h : Separated parts t) :
    Separated (part :: parts) (part ++ (ws ++ 0x2C :: (ws' ++ t)))

/-- Parts between brackets. -/
inductive Encloses (opening closing : UInt8) : List (List UInt8) → List UInt8 → Prop
  /-- There are no parts. -/
  | empty {ws : List UInt8} (hws : IsBlanks ws) :
    Encloses opening closing [] (opening :: (ws ++ [closing]))
  /-- There are some. -/
  | parts {ws t : List UInt8} {parts : List (List UInt8)} (hws : IsBlanks ws)
    (h : Separated parts t) : Encloses opening closing parts (opening :: (ws ++ (t ++ [closing])))

/-- A key and a value. -/
structure Entry where
  /-- The key as it is written between its quotes. -/
  key : List UInt8
  /-- The blanks before the colon. -/
  afterKey : List UInt8
  /-- The blanks after the colon. -/
  beforeValue : List UInt8
  /-- The value as it is written. -/
  value : List UInt8
  afterKey_isBlanks : IsBlanks afterKey
  beforeValue_isBlanks : IsBlanks beforeValue

/-- An entry as it is written. -/
def Entry.text (e : Entry) : List UInt8 :=
  0x22 :: (e.key ++ 0x22 :: (e.afterKey ++ 0x3A :: (e.beforeValue ++ e.value)))

/-! ### Values -/

/-- The three words that are values. -/
inductive IsWord : List UInt8 → Prop
  /-- The empty value. -/
  | null : IsWord [0x6E, 0x75, 0x6C, 0x6C]
  /-- The true value. -/
  | true : IsWord [0x74, 0x72, 0x75, 0x65]
  /-- The false value. -/
  | false : IsWord [0x66, 0x61, 0x6C, 0x73, 0x65]

/-- A value. -/
inductive IsValue : List UInt8 → Prop
  /-- A word. -/
  | word {t : List UInt8} (h : IsWord t) : IsValue t
  /-- A number. -/
  | number {t : List UInt8} (h : IsNumber t) : IsValue t
  /-- A text between quotes. -/
  | text {t : List UInt8} (h : IsText t) : IsValue (0x22 :: (t ++ [0x22]))
  /-- A list of values. -/
  | list {items : List (List UInt8)} {t : List UInt8} (h : Encloses 0x5B 0x5D items t)
    (hitems : ∀ item ∈ items, IsValue item) : IsValue t
  /-- An object with values under keys. -/
  | object {entries : List Entry} {t : List UInt8}
    (h : Encloses 0x7B 0x7D (entries.map Entry.text) t)
    (hkeys : ∀ e ∈ entries, IsText e.key) (hvalues : ∀ e ∈ entries, IsValue e.value) : IsValue t

/-! ### Where a value starts -/

theorem isBlank_eq_true_iff {b : UInt8} :
    Cursor.isBlank b = true ↔ b = 0x20 ∨ b = 0x0A ∨ b = 0x09 ∨ b = 0x0D := by
  simp only [Cursor.isBlank, Bool.or_eq_true, beq_iff_eq, or_assoc]

/-- A digit is no byte that is none. -/
theorem beq_of_isDigitByte {b b' : UInt8} (hb : isDigitByte b = true)
    (hb' : isDigitByte b' = false) : (b == b') = false := by
  refine beq_eq_false_iff_ne.2 ?_
  rintro rfl
  rw [hb] at hb'
  cases hb'

theorem isBlank_of_isDigitByte {b : UInt8} (hb : isDigitByte b = true) :
    Cursor.isBlank b = false := by
  refine Bool.eq_false_iff.2 fun hblank => ?_
  -- none of the four blanks is a digit
  obtain rfl | rfl | rfl | rfl := isBlank_eq_true_iff.1 hblank
  all_goals exact absurd hb (by decide)

theorem IsUnsigned.exists_cons {t : List UInt8} (h : IsUnsigned t) :
    ∃ b t', t = b :: t' ∧ isDigitByte b = true := by
  obtain ⟨⟨⟩ | ⟨hb, -, -⟩, -, -⟩ := h
  · exact ⟨0x30, _, rfl, by decide⟩
  · exact ⟨_, _, rfl, hb⟩

theorem Encloses.exists_cons {opening closing : UInt8} {parts : List (List UInt8)} {t : List UInt8}
    (h : Encloses opening closing parts t) : ∃ t', t = opening :: t' := by
  obtain ⟨-⟩ | ⟨-, -⟩ := h
  · exact ⟨_, rfl⟩
  · exact ⟨_, rfl⟩

/-- No value starts with a blank, or with the end of a list. -/
theorem IsValue.exists_cons {t : List UInt8} (h : IsValue t) :
    ∃ b t', t = b :: t' ∧ Cursor.isBlank b = false ∧ b ≠ 0x5D := by
  -- the first byte tells the kinds of values apart
  cases h with
  | word h => cases h <;> exact ⟨_, _, rfl, by decide, by decide⟩
  | number h =>
    cases h with
    | unsigned h =>
      obtain ⟨b, t', rfl, hb⟩ := h.exists_cons
      refine ⟨b, t', rfl, isBlank_of_isDigitByte hb, ?_⟩
      rintro rfl
      exact absurd hb (by decide)
    | negative h => exact ⟨0x2D, _, rfl, by decide, by decide⟩
  | text h => exact ⟨0x22, _, rfl, by decide, by decide⟩
  | list h _ =>
    obtain ⟨t', rfl⟩ := h.exists_cons
    exact ⟨0x5B, t', rfl, by decide, by decide⟩
  | object h _ _ =>
    obtain ⟨t', rfl⟩ := h.exists_cons
    exact ⟨0x7B, t', rfl, by decide, by decide⟩

end TimeValue.Json
