import TimeValue.Scalar
import TimeValue.Text.Blank
import TimeValue.Text.Numeral
import TimeValue.Expression.Error

/-!
# From text to tokens

Blanks are dropped, also inside numbers, and typographic operators become plain ones.  What is
left is split into symbols and maximal runs of digits and points; each run must be a number.

## Main definitions

* `normalize` — the text without blanks, in plain operators.
* `validate` — whether every character belongs to some token.
* `tokenize` — the tokens of a normalized text.
-/

namespace TimeValue.Expression

open Text

/-- The plain operator that a typographic one stands for. -/
def plainOperator (c : Char) : Char :=
  if c = '×' ∨ c = '·' then '*'
  else if c = '÷' then '/'
  else if c = '−' then '-'
  else c

/-- Drops blanks and writes operators plainly. -/
def normalize (cs : List Char) : List Char :=
  (cs.filter (!isBlank ·)).map plainOperator

/-- Whether a character belongs to a number. -/
def isNumberChar (c : Char) : Bool :=
  isDigit c || c == '.'

/-- Whether a character belongs to some token. -/
def isLegal (c : Char) : Bool :=
  isNumberChar c || (Symbol.ofChar? c).isSome

/-- Refuses the first character that belongs to no token; `position` characters come before. -/
def validateFrom {α : Type} (position : Nat) : List Char → Except (EvalError α) Unit
  | [] => .ok ()
  | c :: cs =>
    if isLegal c then validateFrom (position + 1) cs else .error (.illegalCharacter c position)

/-- Refuses the first character that belongs to no token. -/
def validate {α : Type} (cs : List Char) : Except (EvalError α) Unit :=
  validateFrom 0 cs

variable {α : Type} [Scalar α]

/-- The number that a run of digits and points is. -/
def literal? (run : List Char) : Option α :=
  (mantissa? run).map fun (m, places) => OfScientific.ofScientific m true places

/-- The tokens of a text of which `position` characters come before. -/
def tokenizeFrom (position : Nat) : List Char → Except (EvalError α) (List (Spanned α))
  | [] => .ok []
  | c :: cs =>
    if isNumberChar c then
      let run := c :: cs.takeWhile isNumberChar
      match literal? run with
      | some value =>
        (tokenizeFrom (position + run.length) (cs.dropWhile isNumberChar)).map
          (⟨.number value, position⟩ :: ·)
      | none => .error (.invalidNumber run position)
    else
      match Symbol.ofChar? c with
      | some s => (tokenizeFrom (position + 1) cs).map (⟨.symbol s, position⟩ :: ·)
      | none => .error (.illegalCharacter c position)
termination_by cs => cs.length
decreasing_by
  all_goals simp only [List.length_cons]
  · exact Nat.lt_succ_of_le (List.dropWhile_suffix isNumberChar).length_le
  · exact Nat.lt_succ_self _

/-- The tokens of a normalized text. -/
def tokenize (cs : List Char) : Except (EvalError α) (List (Spanned α)) :=
  tokenizeFrom 0 cs

end TimeValue.Expression
