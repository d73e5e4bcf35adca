import TimeValue.Scalar
import TimeValue.Expression.Error

/-!
# The grammar of formulas

Formulas are read by recursive descent and evaluated on the way:

```text
expression := term (('+' | '-') term)*
term       := factor (('*' | '/') factor)*
factor     := '-' factor | power
power      := primary ('^' exponent)?
exponent   := '-' exponent | power
primary    := number | '(' expression ')'
```

Sums and products group to the left and powers to the right; a leading minus is applied after the
power.  One function reads every rule.  It is total because each step either takes a token or
goes to a rule of lower rank.

Each factor, each exponent and each group opens a level.  What the levels are counted with is a
parameter: the evaluator counts up to a limit, and a reader without a limit, or one that keeps
the deepest level, is the same function at another `Nesting`.

## Main definitions

* `Rule` — the rules, and the repetitions in two of them.
* `Nesting` — how levels are counted.
* `Reply` — what reading a rule leaves: value or error, the tokens not read, the level.
* `parse` — reading a rule.
-/

namespace TimeValue.Expression

/-! ### Rules -/

/-- The rules of the grammar, and the repetitions in two of them. -/
inductive Rule (α : Type)
  /-- A sum of terms. -/
  | expression
  /-- The rest of a sum after terms worth `left`. -/
  | sums (left : α)
  /-- A product of factors. -/
  | term
  /-- The rest of a product after factors worth `left`. -/
  | products (left : α)
  /-- A power, perhaps with a minus. -/
  | factor
  /-- A primary, perhaps raised to an exponent. -/
  | power
  /-- A power to raise to, perhaps with a minus. -/
  | exponent
  /-- A number or a group. -/
  | primary
  deriving Repr

/-- A rule goes on to rules of lower rank before it takes a token. -/
def Rule.rank {α : Type} : Rule α → Nat
  | .expression => 5
  | .term => 4
  | .factor => 3
  | .exponent => 3
  | .power => 2
  | .primary => 1
  | .sums _ => 0
  | .products _ => 0

/-! ### Levels -/

/-- How open levels are counted. -/
structure Nesting (σ : Type) where
  /-- Opens a level, if one more is allowed. -/
  enter : σ → Option σ
  /-- Closes a level. -/
  leave : σ → σ

/-- At most `limit` levels may be open at once. -/
def Nesting.atMost (limit : Nat) : Nesting Nat where
  enter level := if limit ≤ level then none else some (level + 1)
  leave level := level - 1

/-! ### Replies -/

/-- What reading a rule leaves, from tokens of which there are `size`. -/
structure Reply (σ α : Type) (size : Nat) where
  /-- The value, or why there is none. -/
  result : Except (EvalError α) α
  /-- The tokens not read. -/
  rest : List (Spanned α)
  /-- The state of the levels. -/
  level : σ
  /-- No token is made up. -/
  rest_le : rest.length ≤ size

namespace Reply

variable {σ α : Type} {m n : Nat}

/-- The same reply, from no fewer tokens. -/
def weaken (h : m ≤ n) (r : Reply σ α m) : Reply σ α n :=
  { r with rest_le := Nat.le_trans r.rest_le h }

/-- The same reply after closing the level it was read in. -/
def leave (nesting : Nesting σ) (r : Reply σ α n) : Reply σ α n :=
  { r with level := nesting.leave r.level }

/-- The same reply with the opposite value. -/
def opposite [Neg α] (r : Reply σ α n) : Reply σ α n :=
  { r with result := r.result.map (- ·) }

end Reply

/-- The error of opening one level too many before `tokens`. -/
def tooDeep {α : Type} : List (Spanned α) → EvalError α
  | [] => .nestingTooDeep 0
  | next :: _ => .nestingTooDeep next.position

/-! ### Reading -/

/-- The tokens after the symbol `s`, if they start with it. -/
def eat {α : Type} (s : Symbol) :
    (tokens : List (Spanned α)) → Option { rest : List (Spanned α) // rest.length < tokens.length }
  | ⟨.symbol t, _⟩ :: rest => if t = s then some ⟨rest, Nat.lt_succ_self _⟩ else none
  | _ => none

/-- The operation that tokens start with, of those in `operation?`, and the tokens after it. -/
def eatOperation {α : Type} (operation? : Symbol → Option (α → α → α)) :
    (tokens : List (Spanned α)) →
      Option ((α → α → α) × { rest : List (Spanned α) // rest.length < tokens.length })
  | ⟨.symbol t, _⟩ :: rest => (operation? t).map (·, ⟨rest, Nat.lt_succ_self _⟩)
  | _ => none

/-- The operation of a symbol that joins terms. -/
def additive? {α : Type} [Add α] [Sub α] : Symbol → Option (α → α → α)
  | .plus => some (· + ·)
  | .minus => some (· - ·)
  | _ => none

/-- The operation of a symbol that joins factors. -/
def multiplicative? {α : Type} [Mul α] [Div α] : Symbol → Option (α → α → α)
  | .star => some (· * ·)
  | .slash => some (· / ·)
  | _ => none

variable {σ α : Type} [Scalar α]

/-- Reads a rule from the head of `tokens`, with the levels in state `level`. -/
def parse (nesting : Nesting σ) (rule : Rule α) (tokens : List (Spanned α)) (level : σ) :
    Reply σ α tokens.length :=
  match rule with
  | .expression =>
    match parse nesting .term tokens level with
    | ⟨.ok left, rest, level, h⟩ => (parse nesting (.sums left) rest level).weaken h
    | ⟨.error e, rest, level, h⟩ => ⟨.error e, rest, level, h⟩
  | .sums left =>
    match eatOperation additive? tokens with
    | none => ⟨.ok left, tokens, level, Nat.le_refl _⟩
    | some (operation, ⟨next, hnext⟩) =>
      match parse nesting .term next level with
      | ⟨.ok right, rest, level, h⟩ =>
        (parse nesting (.sums (operation left right)) rest level).weaken (by omega)
      | ⟨.error e, rest, level, h⟩ => ⟨.error e, rest, level, by omega⟩
  | .term =>
    match parse nesting .factor tokens level with
    | ⟨.ok left, rest, level, h⟩ => (parse nesting (.products left) rest level).weaken h
    | ⟨.error e, rest, level, h⟩ => ⟨.error e, rest, level, h⟩
  | .products left =>
    match eatOperation multiplicative? tokens with
    | none => ⟨.ok left, tokens, level, Nat.le_refl _⟩
    | some (operation, ⟨next, hnext⟩) =>
      match parse nesting .factor next level with
      | ⟨.ok right, rest, level, h⟩ =>
        (parse nesting (.products (operation left right)) rest level).weaken (by omega)
      | ⟨.error e, rest, level, h⟩ => ⟨.error e, rest, level, by omega⟩
  | .factor =>
    match nesting.enter level with
    | none => ⟨.error (tooDeep tokens), tokens, level, Nat.le_refl _⟩
    | some inner =>
      match eat .minus tokens with
      | some ⟨next, hnext⟩ =>
        ((parse nesting .factor next inner).leave nesting).opposite.weaken (by omega)
      | none => (parse nesting .power tokens inner).leave nesting
  | .power =>
    match parse nesting .primary tokens level with
    | ⟨.ok base, rest, level, h⟩ =>
      match eat .caret rest with
      | none => ⟨.ok base, rest, level, h⟩
      | some ⟨next, hnext⟩ =>
        match parse nesting .exponent next level with
        | ⟨.ok exponent, rest, level, h'⟩ => ⟨.ok (base ^ exponent), rest, level, by omega⟩
        | ⟨.error e, rest, level, h'⟩ => ⟨.error e, rest, level, by omega⟩
    | ⟨.error e, rest, level, h⟩ => ⟨.error e, rest, level, h⟩
  | .exponent =>
    match nesting.enter level with
    | none => ⟨.error (tooDeep tokens), tokens, level, Nat.le_refl _⟩
    | some inner =>
      match eat .minus tokens with
      | some ⟨next, hnext⟩ =>
        ((parse nesting .exponent next inner).leave nesting).opposite.weaken (by omega)
      | none => (parse nesting .power tokens inner).leave nesting
  | .primary =>
    match tokens with
    | [] => ⟨.error .unexpectedEnd, [], level, Nat.le_refl _⟩
    | ⟨.number value, _⟩ :: next => ⟨.ok value, next, level, Nat.le_succ _⟩
    | ⟨.symbol s, position⟩ :: next =>
      if s = .leftParen then
        match nesting.enter level with
        | none => ⟨.error (tooDeep next), next, level, Nat.le_succ _⟩
        | some inner =>
          match (parse nesting .expression next inner).leave nesting with
          | ⟨.ok value, rest, level, h⟩ =>
            match eat .rightParen rest with
            | some ⟨rest, hrest⟩ => ⟨.ok value, rest, level, by simp only [List.length_cons]; omega⟩
            | none => ⟨.error (.unbalancedParentheses position), rest, level, Nat.le_succ_of_le h⟩
          | ⟨.error e, rest, level, h⟩ => ⟨.error e, rest, level, Nat.le_succ_of_le h⟩
      else
        ⟨.error (.unexpectedToken (.symbol s) position), ⟨.symbol s, position⟩ :: next, level,
          Nat.le_refl _⟩
termination_by (tokens.length, rule.rank)
decreasing_by
  all_goals simp_wf
  all_goals simp only [Rule.rank, Prod.lex_def, true_and]
  all_goals omega

end TimeValue.Expression
