import TimeValue.Expression.Grammar
import TimeValue.Expression.Tokenize

/-!
# Evaluating formulas

A formula is normalized, checked for illegal characters, split into tokens and read by the rule
of expressions, which must take all of them.

## Main definitions

* `evaluateTokens` — the value of a list of tokens.
* `evaluate` — the value of a text.
-/

namespace TimeValue.Expression

variable {α : Type} [Scalar α]

/-- How many levels may be open at once. -/
def maxLevels : Nat := 256

/-- Refuses tokens after a complete formula. -/
def finish : List (Spanned α) → Except (EvalError α) Unit
  | [] => .ok ()
  | next :: _ => .error (.trailingInput next.token next.position)

/-- The value of a list of tokens, with levels counted by `nesting` from `level` on. -/
def evaluateWith {σ : Type} (nesting : Nesting σ) (level : σ) (tokens : List (Spanned α)) :
    Except (EvalError α) α := do
  let reply := parse nesting .expression tokens level
  let value ← reply.result
  finish reply.rest
  return value

/-- The value of a list of tokens. -/
def evaluateTokens (tokens : List (Spanned α)) : Except (EvalError α) α :=
  evaluateWith (.atMost maxLevels) 0 tokens

/-- The value of a text. -/
def evaluate (text : String) : Except (EvalError α) α := do
  let normalized := normalize text.toList
  validate normalized
  let tokens ← tokenize normalized
  evaluateTokens tokens

end TimeValue.Expression
