import TimeValue.Expression.Token

/-!
# Why a formula has no value

## Main definitions

* `EvalError` — the ways in which a text fails to be a formula.
* `EvalError.message` — their texts.
-/

namespace TimeValue.Expression

/-- The ways in which a text fails to be a formula.  Positions count characters of the normalized
text. -/
inductive EvalError (α : Type)
  /-- A character that no token has. -/
  | illegalCharacter (character : Char) (position : Nat)
  /-- A group that is not closed where it would have to be. -/
  | unbalancedParentheses (position : Nat)
  /-- A token after a complete formula. -/
  | trailingInput (token : Token α) (position : Nat)
  /-- A token where an operand should start. -/
  | unexpectedToken (token : Token α) (position : Nat)
  /-- A run of digits and points that is not a number. -/
  | invalidNumber (literal : List Char) (position : Nat)
  /-- Too many levels are open; at the end of the text the position is zero. -/
  | nestingTooDeep (position : Nat)
  /-- The text ends where an operand should start. -/
  | unexpectedEnd
  deriving Repr, Inhabited

/-- The text of an error. -/
def EvalError.message {α : Type} [NumberText α] : EvalError α → String
  | .illegalCharacter c p => "illegal character '" ++ c.toString ++ "' at position " ++ toString p
  | .unbalancedParentheses p =>
    "unbalanced parentheses: '(' at position " ++ toString p ++ " is never closed"
  | .trailingInput t p => "trailing input '" ++ t.text ++ "' at position " ++ toString p
  | .unexpectedToken t p => "unexpected token '" ++ t.text ++ "' at position " ++ toString p
  | .invalidNumber cs p =>
    "invalid number literal '" ++ String.ofList cs ++ "' at position " ++ toString p
  | .nestingTooDeep p => "expression nested too deeply at position " ++ toString p
  | .unexpectedEnd => "unexpected end of expression"

end TimeValue.Expression
