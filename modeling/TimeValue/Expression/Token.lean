import TimeValue.NumberText

/-!
# Tokens of a formula

A formula is numbers joined by seven symbols.  A token remembers where it started, counted in
characters of the normalized text.

## Main definitions

* `Symbol` — the operators and the parentheses.
* `Token` — a number or a symbol.
* `Spanned` — a token with its position.
* `Token.text` — a token as messages quote it.
-/

namespace TimeValue.Expression

/-- An operator or a parenthesis. -/
inductive Symbol
  /-- The sum of two terms. -/
  | plus
  /-- The difference of two terms, or the opposite of a factor. -/
  | minus
  /-- The product of two factors. -/
  | star
  /-- The quotient of two factors. -/
  | slash
  /-- A power. -/
  | caret
  /-- The start of a group. -/
  | leftParen
  /-- The end of a group. -/
  | rightParen
  deriving DecidableEq, Repr, Inhabited

namespace Symbol

/-- The character of a symbol. -/
def toChar : Symbol → Char
  | .plus => '+'
  | .minus => '-'
  | .star => '*'
  | .slash => '/'
  | .caret => '^'
  | .leftParen => '('
  | .rightParen => ')'

/-- The symbol that a character is. -/
def ofChar? (c : Char) : Option Symbol :=
  if c = '+' then some .plus
  else if c = '-' then some .minus
  else if c = '*' then some .star
  else if c = '/' then some .slash
  else if c = '^' then some .caret
  else if c = '(' then some .leftParen
  else if c = ')' then some .rightParen
  else none

@[simp] theorem ofChar?_toChar (s : Symbol) : ofChar? s.toChar = some s := by
  cases s <;> decide

/-- A character is a symbol exactly when it is the symbol's character. -/
theorem ofChar?_eq_some_iff {c : Char} {s : Symbol} : ofChar? c = some s ↔ c = s.toChar := by
  constructor
  · intro h
    unfold ofChar? at h
    split at h
    · next hc => cases h; exact hc
    · repeat' split at h
      all_goals first
        | (cases h; assumption)
        | exact absurd h (by simp)
  · rintro rfl; exact ofChar?_toChar s

end Symbol

/-- A number or a symbol. -/
inductive Token (α : Type)
  /-- A number. -/
  | number (value : α)
  /-- An operator or a parenthesis. -/
  | symbol (s : Symbol)
  deriving Repr, Inhabited

/-- A token as messages quote it. -/
def Token.text {α : Type} [NumberText α] : Token α → String
  | .number value => NumberText.plain value
  | .symbol s => s.toChar.toString

/-- A token and the position of its first character. -/
structure Spanned (α : Type) where
  /-- The token. -/
  token : Token α
  /-- How many characters precede it. -/
  position : Nat
  deriving Repr, Inhabited

end TimeValue.Expression
