import TimeValue.Expression.Evaluate

/-!
# Reading, rule by rule

`parse` returns a reply that carries a bound on the tokens left.  Without the bound the replies
to different tokens have one type, and each rule becomes one equation: what it reads, and what it
goes on with if that succeeds.  The equations say everything a rule can do, errors included;
nothing after this module unfolds `parse`.

## Main definitions

* `Outcome` — a reply without its bound.
* `Outcome.andThen`, `Outcome.map`, `Outcome.leave` — the ways in which rules combine.
* `read` — reading a rule.
* `repetition`, `signed` — what sums and products, and what factors and exponents, do alike.
* `Row`, `Signed` — the rules that differ in their operators only.

## Main results

* `Row.read_whole` … `read_primary_symbol` — one equation for each kind of rule.
* `repetition_eq_ok_iff`, `signed_eq_ok_iff`, `read_power_eq_ok_iff`, `read_primary_eq_ok_iff` —
  when rules succeed.
* `repetition_eq_error_iff`, `signed_eq_error_iff`, `read_power_eq_error_iff`,
  `read_group_eq_error_iff` — when they fail, and where.
-/

namespace TimeValue.Expression

variable {σ α : Type}

/-! ### Outcomes -/

/-- What reading a rule leaves. -/
structure Outcome (σ α : Type) where
  /-- The value, or why there is none. -/
  result : Except (EvalError α) α
  /-- The tokens not read. -/
  rest : List (Spanned α)
  /-- The state of the levels. -/
  level : σ

namespace Outcome

/-- Goes on with a value, or stops at an error. -/
def andThen (o : Outcome σ α) (next : α → List (Spanned α) → σ → Outcome σ α) : Outcome σ α :=
  match o.result with
  | .ok value => next value o.rest o.level
  | .error _ => o

/-- The same outcome with another value. -/
def map (f : α → α) (o : Outcome σ α) : Outcome σ α :=
  { o with result := o.result.map f }

/-- The same outcome after closing the level it was read in. -/
def leave (nesting : Nesting σ) (o : Outcome σ α) : Outcome σ α :=
  { o with level := nesting.leave o.level }

@[simp] theorem andThen_ok (v : α) (rest : List (Spanned α)) (l : σ)
    (next : α → List (Spanned α) → σ → Outcome σ α) :
    andThen ⟨.ok v, rest, l⟩ next = next v rest l := rfl

@[simp] theorem andThen_error (e : EvalError α) (rest : List (Spanned α)) (l : σ)
    (next : α → List (Spanned α) → σ → Outcome σ α) :
    andThen ⟨.error e, rest, l⟩ next = ⟨.error e, rest, l⟩ := rfl

@[simp] theorem map_mk (f : α → α) (r : Except (EvalError α) α) (rest : List (Spanned α)) (l : σ) :
    map f ⟨r, rest, l⟩ = ⟨r.map f, rest, l⟩ := rfl

@[simp] theorem leave_mk (nesting : Nesting σ) (r : Except (EvalError α) α)
    (rest : List (Spanned α)) (l : σ) :
    leave nesting ⟨r, rest, l⟩ = ⟨r, rest, nesting.leave l⟩ := rfl

theorem andThen_eq_ok_iff {o : Outcome σ α} {next : α → List (Spanned α) → σ → Outcome σ α}
    {v : α} {rest : List (Spanned α)} {l : σ} :
    o.andThen next = ⟨.ok v, rest, l⟩ ↔
      ∃ v' rest' l', o = ⟨.ok v', rest', l'⟩ ∧ next v' rest' l' = ⟨.ok v, rest, l⟩ := by
  obtain ⟨r, rest', l'⟩ := o
  constructor
  · intro h
    cases r with
    | ok v' => exact ⟨v', rest', l', rfl, h⟩
    | error e => simp at h
  · rintro ⟨v', rest', l', h, h'⟩
    rw [h]
    exact h'

theorem map_eq_ok_iff {f : α → α} {o : Outcome σ α} {v : α} {rest : List (Spanned α)} {l : σ} :
    o.map f = ⟨.ok v, rest, l⟩ ↔ ∃ v', o = ⟨.ok v', rest, l⟩ ∧ f v' = v := by
  obtain ⟨r, rest', l'⟩ := o
  constructor
  · intro h
    cases r with
    | ok v' =>
      simp only [map_mk, Except.map, mk.injEq, Except.ok.injEq] at h
      obtain ⟨rfl, rfl, rfl⟩ := h
      exact ⟨v', rfl, rfl⟩
    | error e => simp [Except.map] at h
  · rintro ⟨v', h, rfl⟩
    rw [h]
    rfl

theorem andThen_eq_error_iff {o : Outcome σ α} {next : α → List (Spanned α) → σ → Outcome σ α}
    {e : EvalError α} {rest : List (Spanned α)} {l : σ} :
    o.andThen next = ⟨.error e, rest, l⟩ ↔
      o = ⟨.error e, rest, l⟩ ∨
        ∃ v rest' l', o = ⟨.ok v, rest', l'⟩ ∧ next v rest' l' = ⟨.error e, rest, l⟩ := by
  obtain ⟨r, rest', l'⟩ := o
  constructor
  · intro h
    cases r with
    | ok v => exact .inr ⟨v, rest', l', rfl, h⟩
    | error e' => exact .inl h
  · rintro (h | ⟨v, rest', l', h, h'⟩)
    · rw [h, andThen_error]
    · rw [h]
      exact h'

theorem map_eq_error_iff {f : α → α} {o : Outcome σ α} {e : EvalError α}
    {rest : List (Spanned α)} {l : σ} :
    o.map f = ⟨.error e, rest, l⟩ ↔ o = ⟨.error e, rest, l⟩ := by
  obtain ⟨_ | v, rest', l'⟩ := o
  · simp [Except.map]
  · simp [Except.map]

theorem leave_eq_iff {nesting : Nesting σ} {o : Outcome σ α} {r : Except (EvalError α) α}
    {rest : List (Spanned α)} {l : σ} :
    o.leave nesting = ⟨r, rest, l⟩ ↔ ∃ l', o = ⟨r, rest, l'⟩ ∧ nesting.leave l' = l := by
  obtain ⟨r', rest', l'⟩ := o
  simp [and_assoc]

end Outcome

/-- A reply without the bound on its rest. -/
def Reply.outcome {n : Nat} (r : Reply σ α n) : Outcome σ α :=
  ⟨r.result, r.rest, r.level⟩

@[simp] theorem Reply.outcome_leave {n : Nat} (nesting : Nesting σ) (r : Reply σ α n) :
    (r.leave nesting).outcome = r.outcome.leave nesting := rfl

/-! ### Symbols at the head -/

/-- The tokens after the symbol `s`, if they start with it. -/
def after? (s : Symbol) (tokens : List (Spanned α)) : Option (List (Spanned α)) :=
  (eat s tokens).map (·.1)

/-- The operation that tokens start with, and the tokens after it. -/
def joined? (operation? : Symbol → Option (α → α → α)) (tokens : List (Spanned α)) :
    Option ((α → α → α) × List (Spanned α)) :=
  (eatOperation operation? tokens).map fun x => (x.1, x.2.1)

theorem after?_eq_some_iff {s : Symbol} {tokens next : List (Spanned α)} :
    after? s tokens = some next ↔ ∃ position, tokens = ⟨.symbol s, position⟩ :: next := by
  unfold after?
  match tokens with
  | [] => simp [eat]
  | ⟨.number x, position⟩ :: rest => simp [eat]
  | ⟨.symbol t, position⟩ :: rest =>
    by_cases h : t = s <;> simp [eat, h]

theorem joined?_eq_some_iff {operation? : Symbol → Option (α → α → α)} {operation : α → α → α}
    {tokens next : List (Spanned α)} :
    joined? operation? tokens = some (operation, next) ↔
      ∃ s position, operation? s = some operation ∧ tokens = ⟨.symbol s, position⟩ :: next := by
  unfold joined?
  match tokens with
  | [] => simp [eatOperation]
  | ⟨.number x, position⟩ :: rest => simp [eatOperation]
  | ⟨.symbol t, position⟩ :: rest =>
    cases h : operation? t with
    | none =>
      simp only [eatOperation, h, Option.map_none, reduceCtorEq, false_iff]
      rintro ⟨s, position', hs, heq⟩
      simp only [List.cons.injEq, Spanned.mk.injEq, Token.symbol.injEq] at heq
      rw [← heq.1.1, h] at hs
      exact absurd hs (by simp)
    | some operation' =>
      simp only [eatOperation, h, Option.map_some, Option.some.injEq, Prod.mk.injEq]
      constructor
      · rintro ⟨rfl, rfl⟩
        exact ⟨t, position, h, rfl⟩
      · rintro ⟨s, position', hs, heq⟩
        simp only [List.cons.injEq, Spanned.mk.injEq, Token.symbol.injEq] at heq
        rw [← heq.1.1, h] at hs
        exact ⟨Option.some.inj hs, heq.2⟩

theorem after?_eq_none_iff {s : Symbol} {tokens : List (Spanned α)} :
    after? s tokens = none ↔ (tokens.map (·.token)).head? ≠ some (.symbol s) := by
  unfold after?
  match tokens with
  | [] => simp [eat]
  | ⟨.number x, position⟩ :: rest => simp [eat]
  | ⟨.symbol t, position⟩ :: rest =>
    by_cases h : t = s <;> simp [eat, h]

theorem joined?_eq_none_iff {operation? : Symbol → Option (α → α → α)}
    {tokens : List (Spanned α)} :
    joined? operation? tokens = none ↔
      ∀ s, (tokens.map (·.token)).head? = some (.symbol s) → operation? s = none := by
  unfold joined?
  match tokens with
  | [] => simp [eatOperation]
  | ⟨.number x, position⟩ :: rest => simp [eatOperation]
  | ⟨.symbol t, position⟩ :: rest => simp [eatOperation]

/-! ### Rules -/

variable [Scalar α]

/-- Reads a rule from the head of `tokens`. -/
def read (nesting : Nesting σ) (rule : Rule α) (tokens : List (Spanned α)) (level : σ) :
    Outcome σ α :=
  (parse nesting rule tokens level).outcome

variable (nesting : Nesting σ) (tokens : List (Spanned α)) (level : σ)

/-- What sums and products share: after `left` an operator and a part, and then again. -/
def repetition (operation? : Symbol → Option (α → α → α)) (part : Rule α) (again : α → Rule α)
    (left : α) : Outcome σ α :=
  match joined? operation? tokens with
  | none => ⟨.ok left, tokens, level⟩
  | some (operation, next) =>
    (read nesting part next level).andThen fun right => read nesting (again (operation left right))

/-- What factors and exponents share: a level deeper a minus and the same again, or a power. -/
def signed (again : Rule α) : Outcome σ α :=
  match nesting.enter level with
  | none => ⟨.error (tooDeep tokens), tokens, level⟩
  | some inner =>
    match after? .minus tokens with
    | some next => ((read nesting again next inner).leave nesting).map (- ·)
    | none => (read nesting .power tokens inner).leave nesting

variable {nesting tokens level} in
/-- No token is made up. -/
theorem length_le_of_read {rule : Rule α} {r : Except (EvalError α) α} {rest : List (Spanned α)}
    {level' : σ} (h : read nesting rule tokens level = ⟨r, rest, level'⟩) :
    rest.length ≤ tokens.length := by
  rw [← show (read nesting rule tokens level).rest = rest by rw [h]]
  exact (parse nesting rule tokens level).rest_le

/-! ### One equation for each kind of rule -/

/-- A rule of parts joined by operators, the rule of the parts, and the repetition behind parts
worth `left`. -/
inductive Row : (whole part : Rule α) → (again : α → Rule α) →
    (operation? : Symbol → Option (α → α → α)) → Prop
  /-- Terms are joined to a sum. -/
  | sums : Row .expression .term .sums additive?
  /-- Factors are joined to a product. -/
  | products : Row .term .factor .products multiplicative?

/-- A rule that a minus may start. -/
inductive Signed : Rule α → Prop
  /-- A factor. -/
  | factor : Signed .factor
  /-- An exponent. -/
  | exponent : Signed .exponent

section Kinds

variable {whole part rule : Rule α} {again : α → Rule α} {operation? : Symbol → Option (α → α → α)}

theorem Row.read_whole (row : Row whole part again operation?) :
    read nesting whole tokens level =
      (read nesting part tokens level).andThen fun left => read nesting (again left) := by
  unfold read
  -- the rules of both rows have one body, in which only the names of rules differ
  cases row
  all_goals
    rw [parse]
    generalize parse nesting _ tokens level = reply
    rcases reply with ⟨_ | _, rest, level', h⟩ <;> rfl

theorem Row.read_again (row : Row whole part again operation?) (left : α) :
    read nesting (again left) tokens level =
      repetition nesting tokens level operation? part again left := by
  unfold repetition read joined?
  cases row
  all_goals
    rw [parse]
    generalize eatOperation _ tokens = joined
    rcases joined with _ | ⟨operation, next, hnext⟩
    · rfl
    · simp only [Option.map_some]
      generalize parse nesting _ next level = reply
      rcases reply with ⟨_ | _, rest, level', h⟩ <;> rfl

theorem Signed.read_eq (sign : Signed rule) :
    read nesting rule tokens level = signed nesting tokens level rule := by
  unfold signed read after?
  cases sign
  all_goals
    rw [parse]
    rcases nesting.enter level with _ | inner
    · rfl
    · rcases eat .minus tokens with _ | ⟨next, hnext⟩ <;> rfl

end Kinds

theorem read_power :
    read nesting .power tokens level =
      (read nesting .primary tokens level).andThen fun base rest level =>
        match after? .caret rest with
        | none => ⟨.ok base, rest, level⟩
        | some next => (read nesting .exponent next level).map (base ^ ·) := by
  unfold read after?
  rw [parse]
  rcases parse nesting .primary tokens level with ⟨_ | base, rest, level', h⟩
  · rfl
  · simp only [Reply.outcome, Outcome.andThen_ok]
    rcases eat .caret rest with _ | ⟨next, hnext⟩
    · rfl
    · simp only [Option.map_some]
      rcases parse nesting .exponent next level' with ⟨_ | exponent, rest', level'', h'⟩ <;> rfl

theorem read_primary_nil :
    read nesting .primary ([] : List (Spanned α)) level = ⟨.error .unexpectedEnd, [], level⟩ := by
  unfold read
  rw [parse]
  rfl

theorem read_primary_number (x : α) (position : Nat) :
    read nesting .primary (⟨.number x, position⟩ :: tokens) level = ⟨.ok x, tokens, level⟩ := by
  unfold read
  rw [parse]
  rfl

theorem read_primary_group (position : Nat) :
    read nesting .primary (⟨.symbol .leftParen, position⟩ :: tokens) level =
      match nesting.enter level with
      | none => ⟨.error (tooDeep tokens), tokens, level⟩
      | some inner =>
        ((read nesting .expression tokens inner).leave nesting).andThen fun value rest level =>
          match after? .rightParen rest with
          | some rest => ⟨.ok value, rest, level⟩
          | none => ⟨.error (.unbalancedParentheses position), rest, level⟩ := by
  unfold read after?
  rw [parse]
  simp only [if_true]
  rcases nesting.enter level with _ | inner
  · rfl
  · simp only [← Reply.outcome_leave]
    rcases (parse nesting .expression tokens inner).leave nesting with ⟨_ | value, rest, level', h⟩
    · rfl
    · simp only [Reply.outcome, Outcome.andThen_ok]
      rcases eat .rightParen rest with _ | ⟨rest, hrest⟩ <;> rfl

theorem read_primary_symbol {s : Symbol} (hs : s ≠ .leftParen) (position : Nat) :
    read nesting .primary (⟨.symbol s, position⟩ :: tokens) level =
      ⟨.error (.unexpectedToken (.symbol s) position), ⟨.symbol s, position⟩ :: tokens, level⟩ := by
  unfold read
  rw [parse]
  simp only [hs, if_false]
  rfl

/-! ### Success -/

variable {nesting : Nesting σ} {tokens rest : List (Spanned α)} {level level' : σ} {v : α}

/-- A repetition succeeds if it ends at once, or after one more part succeeds again. -/
theorem repetition_eq_ok_iff {operation? : Symbol → Option (α → α → α)} {part : Rule α}
    {again : α → Rule α} {left : α} :
    repetition nesting tokens level operation? part again left = ⟨.ok v, rest, level'⟩ ↔
      (joined? operation? tokens = none ∧ left = v ∧ tokens = rest ∧ level = level') ∨
      ∃ operation next u mid l, joined? operation? tokens = some (operation, next) ∧
        read nesting part next level = ⟨.ok u, mid, l⟩ ∧
        read nesting (again (operation left u)) mid l = ⟨.ok v, rest, level'⟩ := by
  unfold repetition
  cases hjoined : joined? operation? tokens with
  | none => simp
  | some x =>
    obtain ⟨operation, next⟩ := x
    simp only [Outcome.andThen_eq_ok_iff]
    constructor
    · rintro ⟨u, mid, l, hnext, hothers⟩
      exact .inr ⟨operation, next, u, mid, l, rfl, hnext, hothers⟩
    · rintro (⟨h, -⟩ | ⟨_, _, u, mid, l, h, hnext, hothers⟩)
      · exact absurd h (by simp)
      · cases h
        exact ⟨u, mid, l, hnext, hothers⟩

/-- A factor or an exponent succeeds if a level can be opened and what is in it succeeds. -/
theorem signed_eq_ok_iff {again : Rule α} :
    signed nesting tokens level again = ⟨.ok v, rest, level'⟩ ↔
      ∃ inner l, nesting.enter level = some inner ∧ nesting.leave l = level' ∧
        ((∃ next u, after? .minus tokens = some next ∧
            read nesting again next inner = ⟨.ok u, rest, l⟩ ∧ -u = v) ∨
          after? .minus tokens = none ∧ read nesting .power tokens inner = ⟨.ok v, rest, l⟩) := by
  unfold signed
  cases nesting.enter level with
  | none => simp
  | some inner =>
    cases after? .minus tokens with
    | some next =>
      simp only [Outcome.map_eq_ok_iff, Outcome.leave_eq_iff]
      constructor
      · rintro ⟨u, ⟨l, hread, hleave⟩, hv⟩
        exact ⟨inner, l, rfl, hleave, .inl ⟨next, u, rfl, hread, hv⟩⟩
      · rintro ⟨_, l, h, hleave, ⟨_, u, h', hread, hv⟩ | ⟨h', -⟩⟩
        · cases h
          cases h'
          exact ⟨u, ⟨l, hread, hleave⟩, hv⟩
        · exact absurd h' (by simp)
    | none =>
      simp only [Outcome.leave_eq_iff]
      constructor
      · rintro ⟨l, hread, hleave⟩
        exact ⟨inner, l, rfl, hleave, .inr ⟨trivial, hread⟩⟩
      · rintro ⟨_, l, h, hleave, ⟨_, u, h', -⟩ | ⟨-, hread⟩⟩
        · exact absurd h' (by simp)
        · cases h
          exact ⟨l, hread, hleave⟩

/-- A power succeeds if its base does, and the exponent, where one follows. -/
theorem read_power_eq_ok_iff :
    read nesting .power tokens level = ⟨.ok v, rest, level'⟩ ↔
      ∃ u mid l, read nesting .primary tokens level = ⟨.ok u, mid, l⟩ ∧
        ((after? .caret mid = none ∧ u = v ∧ mid = rest ∧ l = level') ∨
          ∃ next w, after? .caret mid = some next ∧
            read nesting .exponent next l = ⟨.ok w, rest, level'⟩ ∧ u ^ w = v) := by
  rw [read_power, Outcome.andThen_eq_ok_iff]
  refine exists_congr fun u => exists_congr fun mid => exists_congr fun l =>
    and_congr_right fun _ => ?_
  cases after? .caret mid with
  | none => simp
  | some next => simp [Outcome.map_eq_ok_iff]

/-- A primary succeeds if it is a number, or a group in which an expression succeeds and which is
closed behind it. -/
theorem read_primary_eq_ok_iff :
    read nesting .primary tokens level = ⟨.ok v, rest, level'⟩ ↔
      (∃ position, tokens = ⟨.number v, position⟩ :: rest ∧ level = level') ∨
      ∃ position next inner mid l, tokens = ⟨.symbol .leftParen, position⟩ :: next ∧
        nesting.enter level = some inner ∧ nesting.leave l = level' ∧
        read nesting .expression next inner = ⟨.ok v, mid, l⟩ ∧
        after? .rightParen mid = some rest := by
  rcases tokens with _ | ⟨⟨x | s, position⟩, next⟩
  · simp [read_primary_nil]
  · simp [read_primary_number, and_assoc]
  by_cases hs : s = .leftParen
  · subst hs
    rw [read_primary_group]
    cases nesting.enter level with
    | none => simp
    | some inner =>
      simp only [Outcome.andThen_eq_ok_iff, Outcome.leave_eq_iff]
      constructor
      · rintro ⟨u, mid, _, ⟨l, hread, rfl⟩, hclose⟩
        -- without the parenthesis behind it a group has no value
        cases hright : after? .rightParen mid with
        | none => simp [hright] at hclose
        | some after =>
          simp only [hright, Outcome.mk.injEq, Except.ok.injEq] at hclose
          obtain ⟨rfl, rfl, rfl⟩ := hclose
          exact .inr ⟨position, next, inner, mid, l, rfl, rfl, rfl, hread, hright⟩
      · rintro (⟨_, h, -⟩ | ⟨_, _, _, mid, l, h, h', rfl, hread, hright⟩)
        · simp at h
        · cases h
          cases h'
          exact ⟨v, mid, _, ⟨l, hread, rfl⟩, by simp only [hright]⟩
  · simp [read_primary_symbol _ _ _ hs, hs]

/-! ### Failure -/

variable {e : EvalError α}

/-- A repetition fails if a part after an operator fails, or the repetition after that part. -/
theorem repetition_eq_error_iff {operation? : Symbol → Option (α → α → α)} {part : Rule α}
    {again : α → Rule α} {left : α} :
    repetition nesting tokens level operation? part again left = ⟨.error e, rest, level'⟩ ↔
      ∃ operation next, joined? operation? tokens = some (operation, next) ∧
        (read nesting part next level = ⟨.error e, rest, level'⟩ ∨
          ∃ u mid l, read nesting part next level = ⟨.ok u, mid, l⟩ ∧
            read nesting (again (operation left u)) mid l = ⟨.error e, rest, level'⟩) := by
  unfold repetition
  cases hjoined : joined? operation? tokens with
  | none => simp
  | some x =>
    obtain ⟨operation, next⟩ := x
    simp only [Outcome.andThen_eq_error_iff]
    constructor
    · intro h
      exact ⟨operation, next, rfl, h⟩
    · rintro ⟨_, _, h', h⟩
      cases h'
      exact h

/-- A factor or an exponent fails if no level can be opened, or if what is in it fails. -/
theorem signed_eq_error_iff {again : Rule α} :
    signed nesting tokens level again = ⟨.error e, rest, level'⟩ ↔
      (nesting.enter level = none ∧ tooDeep tokens = e ∧ tokens = rest ∧ level = level') ∨
      ∃ inner l, nesting.enter level = some inner ∧ nesting.leave l = level' ∧
        ((∃ next, after? .minus tokens = some next ∧
            read nesting again next inner = ⟨.error e, rest, l⟩) ∨
          after? .minus tokens = none ∧
            read nesting .power tokens inner = ⟨.error e, rest, l⟩) := by
  unfold signed
  cases nesting.enter level with
  | none => simp
  | some inner =>
    cases after? .minus tokens with
    | some next => simp [Outcome.map_eq_error_iff, Outcome.leave_eq_iff, and_comm]
    | none => simp [Outcome.leave_eq_iff, and_comm]

/-- A power fails if its base fails, or the exponent that follows. -/
theorem read_power_eq_error_iff :
    read nesting .power tokens level = ⟨.error e, rest, level'⟩ ↔
      read nesting .primary tokens level = ⟨.error e, rest, level'⟩ ∨
      ∃ u mid l next, read nesting .primary tokens level = ⟨.ok u, mid, l⟩ ∧
        after? .caret mid = some next ∧
        read nesting .exponent next l = ⟨.error e, rest, level'⟩ := by
  rw [read_power, Outcome.andThen_eq_error_iff]
  refine or_congr_right (exists_congr fun u => exists_congr fun mid => exists_congr fun l => ?_)
  -- an exponent that fails comes behind a base that does not
  rw [exists_and_left]
  refine and_congr_right fun _ => ?_
  cases after? .caret mid with
  | none => simp
  | some next => simp [Outcome.map_eq_error_iff]

/-- A group fails if no level can be opened for it, if the expression in it fails, or if it is not
closed behind that. -/
theorem read_group_eq_error_iff {position : Nat} :
    read nesting .primary (⟨.symbol .leftParen, position⟩ :: tokens) level =
        ⟨.error e, rest, level'⟩ ↔
      (nesting.enter level = none ∧ tooDeep tokens = e ∧ tokens = rest ∧ level = level') ∨
      ∃ inner l, nesting.enter level = some inner ∧ nesting.leave l = level' ∧
        (read nesting .expression tokens inner = ⟨.error e, rest, l⟩ ∨
          ∃ v, read nesting .expression tokens inner = ⟨.ok v, rest, l⟩ ∧
            after? .rightParen rest = none ∧ .unbalancedParentheses position = e) := by
  rw [read_primary_group]
  cases nesting.enter level with
  | none => simp
  | some inner =>
    simp only [Outcome.andThen_eq_error_iff, Outcome.leave_eq_iff]
    constructor
    · rintro (⟨l, hread, hleave⟩ | ⟨v, mid, _, ⟨l, hread, rfl⟩, hclose⟩)
      · exact .inr ⟨inner, l, rfl, hleave, .inl hread⟩
      · cases hright : after? .rightParen mid with
        | some after => simp [hright] at hclose
        | none =>
          simp only [hright, Outcome.mk.injEq, Except.error.injEq] at hclose
          obtain ⟨he, rfl, rfl⟩ := hclose
          exact .inr ⟨inner, l, rfl, rfl, .inr ⟨v, hread, hright, he⟩⟩
    · rintro (⟨h, -⟩ | ⟨_, l, h, hleave, hread | ⟨v, hread, hright, he⟩⟩)
      · simp at h
      · cases h
        exact .inl ⟨l, hread, hleave⟩
      · cases h
        exact .inr ⟨v, rest, level', ⟨l, hread, hleave⟩, by simp [hright, he]⟩

/-- A primary fails if nothing is left to read, if the first token starts no operand, or in a
group. -/
theorem cases_of_read_primary_eq_error
    (h : read nesting .primary tokens level = ⟨.error e, rest, level'⟩) :
    (tokens = [] ∧ .unexpectedEnd = e ∧ tokens = rest) ∨
      (∃ s position next, tokens = ⟨.symbol s, position⟩ :: next ∧ s ≠ .leftParen ∧
        .unexpectedToken (.symbol s) position = e ∧ tokens = rest) ∨
      ∃ position next, tokens = ⟨.symbol .leftParen, position⟩ :: next := by
  rcases tokens with _ | ⟨⟨x | s, position⟩, next⟩
  · rw [read_primary_nil, Outcome.mk.injEq, Except.error.injEq] at h
    exact .inl ⟨rfl, h.1, h.2.1⟩
  · rw [read_primary_number] at h
    simp at h
  by_cases hs : s = .leftParen
  · subst hs
    exact .inr (.inr ⟨position, next, rfl⟩)
  · rw [read_primary_symbol _ _ _ hs, Outcome.mk.injEq, Except.error.injEq] at h
    exact .inr (.inl ⟨s, position, next, rfl, hs, h.1, h.2.1⟩)

end TimeValue.Expression
