import TimeValue.Proofs.Expression.Parentheses

/-!
# Reading comes to an end

That a rule can be read is said here without the reader, by one case for each way in which a rule
comes to its end: which rules are read in it, from which tokens, and on which levels.  A reading is
then a finite tree of readings, and the tree shows what the reader's outcome does not, the states
that the levels were in meanwhile.

There is such a tree for every rule and all tokens.  The rules lead back to each other, and none of
them gets anywhere by itself: a group is left for its expression only behind a parenthesis, a sign
for what it applies to only behind a minus, and all other rules go on to one of lower rank.

## Main definitions

* `Finishes` — a reading that has come to its end.
* `Terminates` — there is such a reading.
* `Nesting.Restores` — closing a level undoes opening it.
* `symbolCount` — how often a symbol occurs.

## Main results

* `terminates` — **every reading comes to an end.**
* `Finishes.read_eq` — it ends with the outcome of the reader.
* `Finishes.level_eq`, `Finishes.forall_passed_le` — levels are closed again, and never too many
  open.
* `finishes_inside` — **the reader takes tokens, stays within them, and leaves the levels as they
  were.**
-/

namespace TimeValue.Expression

variable {σ α : Type} [Scalar α]

/-! ### Readings that have come to their end -/

/-- Reading `rule` from the head of `tokens`, with the levels in state `level`, ends with an
outcome.  The states that the levels come into on the way are `passed`, in order. -/
inductive Finishes (nesting : Nesting σ) :
    (rule : Rule α) → (tokens : List (Spanned α)) → (level : σ) → (passed : List σ) →
      Outcome σ α → Prop
  /-- The first part of a row fails. -/
  | firstFails {whole part again operation? tokens level passed e rest level'}
      (row : Row whole part again operation?)
      (first : Finishes nesting part tokens level passed ⟨.error e, rest, level'⟩) :
      Finishes nesting whole tokens level passed ⟨.error e, rest, level'⟩
  /-- The repetition follows the first part of a row. -/
  | first {whole part again operation? tokens mid level level' passed passed' left o}
      (row : Row whole part again operation?)
      (first : Finishes nesting part tokens level passed ⟨.ok left, mid, level'⟩)
      (others : Finishes nesting (again left) mid level' passed' o) :
      Finishes nesting whole tokens level (passed ++ passed') o
  /-- No operator follows. -/
  | rowEnds {whole part again operation? tokens level left} (row : Row whole part again operation?)
      (hjoined : joined? operation? tokens = none) :
      Finishes nesting (again left) tokens level [] ⟨.ok left, tokens, level⟩
  /-- The part behind an operator fails. -/
  | nextFails {whole part again operation? operation tokens next level passed left e rest level'}
      (row : Row whole part again operation?)
      (hjoined : joined? operation? tokens = some (operation, next))
      (part : Finishes nesting part next level passed ⟨.error e, rest, level'⟩) :
      Finishes nesting (again left) tokens level passed ⟨.error e, rest, level'⟩
  /-- The repetition goes on behind an operator and a part. -/
  | next {whole part again operation? operation tokens next mid level level' passed passed' left
        right o}
      (row : Row whole part again operation?)
      (hjoined : joined? operation? tokens = some (operation, next))
      (part : Finishes nesting part next level passed ⟨.ok right, mid, level'⟩)
      (others : Finishes nesting (again (operation left right)) mid level' passed' o) :
      Finishes nesting (again left) tokens level (passed ++ passed') o
  /-- No level can be opened for a factor or an exponent. -/
  | refused {rule tokens level} (sign : Signed rule) (henter : nesting.enter level = none) :
      Finishes nesting rule tokens level [] ⟨.error (tooDeep tokens), tokens, level⟩
  /-- A minus stands before a factor or an exponent. -/
  | opposite {rule tokens next level inner passed o} (sign : Signed rule)
      (henter : nesting.enter level = some inner) (hminus : after? .minus tokens = some next)
      (opposed : Finishes nesting rule next inner passed o) :
      Finishes nesting rule tokens level (inner :: (passed ++ [nesting.leave o.level]))
        ((o.leave nesting).map (- ·))
  /-- A factor or an exponent is a power. -/
  | unsigned {rule tokens level inner passed o} (sign : Signed rule)
      (henter : nesting.enter level = some inner) (hminus : after? .minus tokens = none)
      (power : Finishes nesting .power tokens inner passed o) :
      Finishes nesting rule tokens level (inner :: (passed ++ [nesting.leave o.level]))
        (o.leave nesting)
  /-- The base of a power fails. -/
  | baseFails {tokens level passed e rest level'}
      (base : Finishes nesting .primary tokens level passed ⟨.error e, rest, level'⟩) :
      Finishes nesting .power tokens level passed ⟨.error e, rest, level'⟩
  /-- No exponent follows the base. -/
  | base {tokens rest level level' passed v}
      (base : Finishes nesting .primary tokens level passed ⟨.ok v, rest, level'⟩)
      (hcaret : after? .caret rest = none) :
      Finishes nesting .power tokens level passed ⟨.ok v, rest, level'⟩
  /-- The base is raised to what follows. -/
  | raised {tokens mid next level level' passed passed' v o}
      (base : Finishes nesting .primary tokens level passed ⟨.ok v, mid, level'⟩)
      (hcaret : after? .caret mid = some next)
      (exponent : Finishes nesting .exponent next level' passed' o) :
      Finishes nesting .power tokens level (passed ++ passed') (o.map (v ^ ·))
  /-- A number. -/
  | number {v position tokens level} :
      Finishes nesting .primary (⟨.number v, position⟩ :: tokens) level [] ⟨.ok v, tokens, level⟩
  /-- No token is left. -/
  | missing {level} : Finishes nesting .primary [] level [] ⟨.error .unexpectedEnd, [], level⟩
  /-- The token is neither a number nor the start of a group. -/
  | misplaced {s position tokens level} (hs : s ≠ .leftParen) :
      Finishes nesting .primary (⟨.symbol s, position⟩ :: tokens) level []
        ⟨.error (.unexpectedToken (.symbol s) position), ⟨.symbol s, position⟩ :: tokens, level⟩
  /-- No level can be opened for what is in a group. -/
  | groupRefused {position tokens level} (henter : nesting.enter level = none) :
      Finishes nesting .primary (⟨.symbol .leftParen, position⟩ :: tokens) level []
        ⟨.error (tooDeep tokens), tokens, level⟩
  /-- The expression in a group fails. -/
  | groupFails {position tokens level inner passed e rest level'}
      (henter : nesting.enter level = some inner)
      (expression : Finishes nesting .expression tokens inner passed ⟨.error e, rest, level'⟩) :
      Finishes nesting .primary (⟨.symbol .leftParen, position⟩ :: tokens) level
        (inner :: (passed ++ [nesting.leave level'])) ⟨.error e, rest, nesting.leave level'⟩
  /-- A group is closed. -/
  | group {position tokens mid rest level inner passed v level'}
      (henter : nesting.enter level = some inner)
      (expression : Finishes nesting .expression tokens inner passed ⟨.ok v, mid, level'⟩)
      (hclose : after? .rightParen mid = some rest) :
      Finishes nesting .primary (⟨.symbol .leftParen, position⟩ :: tokens) level
        (inner :: (passed ++ [nesting.leave level'])) ⟨.ok v, rest, nesting.leave level'⟩
  /-- A group is not closed. -/
  | unclosed {position tokens mid level inner passed v level'}
      (henter : nesting.enter level = some inner)
      (expression : Finishes nesting .expression tokens inner passed ⟨.ok v, mid, level'⟩)
      (hclose : after? .rightParen mid = none) :
      Finishes nesting .primary (⟨.symbol .leftParen, position⟩ :: tokens) level
        (inner :: (passed ++ [nesting.leave level']))
        ⟨.error (.unbalancedParentheses position), mid, nesting.leave level'⟩

namespace Finishes

variable {nesting : Nesting σ} {rule : Rule α} {tokens : List (Spanned α)} {level : σ}
  {passed : List σ} {o : Outcome σ α}

/-- A reading ends with the outcome of the reader. -/
theorem read_eq (h : Finishes nesting rule tokens level passed o) :
    read nesting rule tokens level = o := by
  induction h with
  | firstFails row _ ih => rw [row.read_whole, ih, Outcome.andThen_error]
  | first row _ _ ihFirst ihOthers =>
    rw [row.read_whole, ihFirst, Outcome.andThen_ok, ihOthers]
  | rowEnds row hjoined => rw [row.read_again, repetition, hjoined]
  | nextFails row hjoined _ ih =>
    rw [row.read_again, repetition, hjoined]
    simp only [ih, Outcome.andThen_error]
  | next row hjoined _ _ ihPart ihOthers =>
    rw [row.read_again, repetition, hjoined]
    simp only [ihPart, Outcome.andThen_ok, ihOthers]
  | refused sign henter => rw [sign.read_eq, signed, henter]
  | opposite sign henter hminus _ ih | unsigned sign henter hminus _ ih =>
    rw [sign.read_eq, signed, henter]
    simp only [hminus, ih]
  | baseFails _ ih => rw [read_power, ih, Outcome.andThen_error]
  | base _ hcaret ih => simp only [read_power, ih, Outcome.andThen_ok, hcaret]
  | raised _ hcaret _ ihBase ihExponent =>
    simp only [read_power, ihBase, Outcome.andThen_ok, hcaret, ihExponent]
  | number => rw [read_primary_number]
  | missing => rw [read_primary_nil]
  | misplaced hs => rw [read_primary_symbol _ _ _ hs]
  | groupRefused henter => simp only [read_primary_group, henter]
  | groupFails henter _ ih =>
    simp only [read_primary_group, henter, ih, Outcome.leave_mk, Outcome.andThen_error]
  | group henter _ hclose ih =>
    simp only [read_primary_group, henter, ih, Outcome.leave_mk, Outcome.andThen_ok, hclose]
  | unclosed henter _ hclose ih =>
    simp only [read_primary_group, henter, ih, Outcome.leave_mk, Outcome.andThen_ok, hclose]

theorem length_rest_le (h : Finishes nesting rule tokens level passed o) :
    o.rest.length ≤ tokens.length :=
  length_le_of_read h.read_eq

end Finishes

/-! ### Every reading comes to an end -/

/-- A reading of the rule comes to an end. -/
def Terminates (nesting : Nesting σ) (rule : Rule α) (tokens : List (Spanned α)) (level : σ) :
    Prop :=
  ∃ passed o, Finishes nesting rule tokens level passed o

section Terminates

variable {nesting : Nesting σ} {tokens : List (Spanned α)} {level : σ}
  {whole part rule : Rule α} {again : α → Rule α} {operation? : Symbol → Option (α → α → α)}

theorem Row.terminates_whole (row : Row whole part again operation?)
    (hpart : Terminates nesting part tokens level)
    (hagain : ∀ left mid level', mid.length ≤ tokens.length →
      Terminates nesting (again left) mid level') : Terminates nesting whole tokens level := by
  -- a failure ends the reading, a value is followed by the repetition
  obtain ⟨passed, ⟨_ | left, mid, level'⟩, hfirst⟩ := hpart
  · exact ⟨_, _, .firstFails row hfirst⟩
  · obtain ⟨passed', o, hothers⟩ := hagain left mid level' hfirst.length_rest_le
    exact ⟨_, _, .first row hfirst hothers⟩

theorem Row.terminates_again (row : Row whole part again operation?) (left : α)
    (hpart : ∀ next : List (Spanned α), next.length < tokens.length →
      Terminates nesting part next level)
    (hagain : ∀ left mid level', mid.length < tokens.length →
      Terminates nesting (again left) mid level') :
    Terminates nesting (again left) tokens level := by
  cases hjoined : joined? operation? tokens with
  | none => exact ⟨_, _, .rowEnds row hjoined⟩
  | some x =>
    obtain ⟨operation, next⟩ := x
    obtain ⟨s, position, -, rfl⟩ := joined?_eq_some_iff.1 hjoined
    have hnext : next.length < (⟨.symbol s, position⟩ :: next).length := Nat.lt_succ_self _
    obtain ⟨passed, ⟨_ | right, mid, level'⟩, hright⟩ := hpart next hnext
    · exact ⟨_, _, .nextFails row hjoined hright⟩
    · obtain ⟨passed', o, hothers⟩ := hagain (operation left right) mid level'
        (Nat.lt_succ_of_le hright.length_rest_le)
      exact ⟨_, _, .next row hjoined hright hothers⟩

theorem Signed.terminates (sign : Signed rule)
    (hagain : ∀ (next : List (Spanned α)) level', next.length < tokens.length →
      Terminates nesting rule next level')
    (hpower : ∀ level', Terminates nesting .power tokens level') :
    Terminates nesting rule tokens level := by
  cases henter : nesting.enter level with
  | none => exact ⟨_, _, .refused sign henter⟩
  | some inner =>
    cases hminus : after? .minus tokens with
    | some next =>
      obtain ⟨position, rfl⟩ := after?_eq_some_iff.1 hminus
      obtain ⟨passed, o, hopposed⟩ := hagain next inner (Nat.lt_succ_self _)
      exact ⟨_, _, .opposite sign henter hminus hopposed⟩
    | none =>
      obtain ⟨passed, o, hread⟩ := hpower inner
      exact ⟨_, _, .unsigned sign henter hminus hread⟩

theorem terminates_power (hbase : Terminates nesting .primary tokens level)
    (hexponent : ∀ (next : List (Spanned α)) level', next.length < tokens.length →
      Terminates nesting .exponent next level') : Terminates nesting .power tokens level := by
  obtain ⟨passed, ⟨_ | v, mid, level'⟩, hread⟩ := hbase
  · exact ⟨_, _, .baseFails hread⟩
  · cases hcaret : after? .caret mid with
    | none => exact ⟨_, _, .base hread hcaret⟩
    | some next =>
      obtain ⟨position, rfl⟩ := after?_eq_some_iff.1 hcaret
      obtain ⟨passed', o, hraised⟩ := hexponent next level' hread.length_rest_le
      exact ⟨_, _, .raised hread hcaret hraised⟩

theorem terminates_primary (hexpression : ∀ (next : List (Spanned α)) level',
      next.length < tokens.length → Terminates nesting .expression next level') :
    Terminates nesting .primary tokens level := by
  rcases tokens with _ | ⟨⟨v | s, position⟩, next⟩
  · exact ⟨_, _, .missing⟩
  · exact ⟨_, _, .number⟩
  by_cases hs : s = .leftParen
  · subst hs
    cases henter : nesting.enter level with
    | none => exact ⟨_, _, .groupRefused henter⟩
    | some inner =>
      obtain ⟨passed, ⟨_ | v, mid, level'⟩, hread⟩ := hexpression next inner (Nat.lt_succ_self _)
      · exact ⟨_, _, .groupFails henter hread⟩
      · cases hclose : after? .rightParen mid with
        | none => exact ⟨_, _, .unclosed henter hread hclose⟩
        | some rest => exact ⟨_, _, .group henter hread hclose⟩
  · exact ⟨_, _, .misplaced hs⟩

end Terminates

/-- **Every reading comes to an end**, whatever counts the levels. -/
theorem terminates (nesting : Nesting σ) (p : Part) (tokens : List (Spanned α)) :
    ∀ (left : α) (level : σ), Terminates nesting (p.rule left) tokens level := by
  -- over the tokens left, and over the rules where none is taken before the next rule is read
  induction p, tokens using Part.induction_on_rules with
  | whole row tokens ihPart ihAgain =>
    intro left level
    exact (row.rule left).terminates_whole (ihPart left level)
      fun u mid level' hmid => ihAgain mid hmid u level'
  | again row tokens ihPart ihAgain =>
    intro left level
    exact (row.rule left).terminates_again left (fun next hnext => ihPart next hnext left level)
      fun u mid level' hmid => ihAgain mid hmid u level'
  | signed sign tokens ihSigned ihPower =>
    intro left level
    exact (sign.rule left).terminates (fun next level' hnext => ihSigned next hnext left level')
      fun level' => ihPower left level'
  | power tokens ihPrimary ihExponent =>
    intro left level
    exact terminates_power (ihPrimary left level)
      fun next level' hnext => ihExponent next hnext left level'
  | primary tokens ih =>
    intro left level
    exact terminates_primary fun next level' hnext => ih next hnext left level'

/-! ### Levels -/

/-- Closing a level undoes opening it. -/
def Nesting.Restores (nesting : Nesting σ) : Prop :=
  ∀ level inner, nesting.enter level = some inner → nesting.leave inner = level

omit [Scalar α] in
theorem restores_atMost (limit : Nat) : (Nesting.atMost limit).Restores := by
  intro level inner henter
  obtain ⟨-, rfl⟩ := enter_atMost_eq_some_iff.1 henter
  rfl

namespace Finishes

variable {nesting : Nesting σ} {rule : Rule α} {tokens : List (Spanned α)} {level : σ}
  {passed : List σ} {o : Outcome σ α}

/-- Whether a reading succeeds or fails, it leaves the levels as they were. -/
theorem level_eq (h : Finishes nesting rule tokens level passed o) (hnesting : nesting.Restores) :
    o.level = level := by
  -- what opens a level closes it behind what is in it; all others only pass levels on
  induction h with
  | first row _ _ ihFirst ihOthers => exact ihOthers.trans ihFirst
  | next row _ _ _ ihPart ihOthers => exact ihOthers.trans ihPart
  | raised _ _ _ ihBase ihExponent => exact ihExponent.trans ihBase
  | firstFails _ _ ih | nextFails _ _ _ ih | baseFails _ ih | base _ _ ih => exact ih
  | opposite _ henter _ _ ih | unsigned _ henter _ _ ih | groupFails henter _ ih
  | group henter _ _ ih | unclosed henter _ _ ih =>
    exact (congrArg nesting.leave ih).trans (hnesting _ _ henter)
  | rowEnds | refused | number | missing | misplaced | groupRefused => rfl

/-- What opening and closing a level keep holds at every moment of a reading. -/
theorem forall_passed (h : Finishes nesting rule tokens level passed o) {P : σ → Prop}
    (henter : ∀ l inner, P l → nesting.enter l = some inner → P inner)
    (hleave : ∀ l, P l → P (nesting.leave l)) (hlevel : P level) :
    (∀ l ∈ passed, P l) ∧ P o.level := by
  -- a level that is opened and closed again passes through what is read in it
  have hopened {level inner final : σ} {passed : List σ} (hlevel : P level)
      (hinner : nesting.enter level = some inner)
      (h : P inner → (∀ l ∈ passed, P l) ∧ P final) :
      (∀ l ∈ inner :: (passed ++ [nesting.leave final]), P l) ∧ P (nesting.leave final) := by
    have hstart := henter _ _ hlevel hinner
    obtain ⟨hpassed, hfinal⟩ := h hstart
    have hend := hleave _ hfinal
    refine ⟨List.forall_mem_cons.2 ⟨hstart, List.forall_mem_append.2 ⟨hpassed, ?_⟩⟩, hend⟩
    simpa using hend
  induction h with
  | first _ _ _ ihFirst ihOthers | next _ _ _ _ ihFirst ihOthers
  | raised _ _ _ ihFirst ihOthers =>
    obtain ⟨hpassed, hmid⟩ := ihFirst hlevel
    obtain ⟨hpassed', hend⟩ := ihOthers hmid
    exact ⟨List.forall_mem_append.2 ⟨hpassed, hpassed'⟩, hend⟩
  | firstFails _ _ ih | nextFails _ _ _ ih | baseFails _ ih | base _ _ ih => exact ih hlevel
  | opposite _ hinner _ _ ih | unsigned _ hinner _ _ ih | groupFails hinner _ ih
  | group hinner _ _ ih | unclosed hinner _ _ ih => exact hopened hlevel hinner ih
  | rowEnds | refused | number | missing | misplaced | groupRefused =>
    exact ⟨List.forall_mem_nil _, hlevel⟩

/-- At no moment are too many levels open. -/
theorem forall_passed_le {limit level : Nat} {passed : List Nat} {o : Outcome Nat α}
    (h : Finishes (.atMost limit) rule tokens level passed o) (hlevel : level ≤ limit) :
    ∀ l ∈ passed, l ≤ limit := by
  refine (h.forall_passed (fun l inner _ henter => ?_) (fun l hl => ?_) hlevel).1
  · obtain ⟨hlt, rfl⟩ := enter_atMost_eq_some_iff.1 henter
    exact hlt
  · exact Nat.le_trans (Nat.sub_le l 1) hl

end Finishes

/-! ### Tokens taken -/

section Tokens

omit [Scalar α]

/-- How often a symbol occurs. -/
def symbolCount (s : Symbol) (xs : List (Token α)) : Nat :=
  xs.countP fun
    | .symbol t => t == s
    | .number _ => false

@[simp] theorem symbolCount_nil (s : Symbol) : symbolCount s ([] : List (Token α)) = 0 := rfl

@[simp] theorem symbolCount_symbol_cons (s t : Symbol) (xs : List (Token α)) :
    symbolCount s (.symbol t :: xs) = symbolCount s xs + if t = s then 1 else 0 := by
  simp [symbolCount, List.countP_cons]

@[simp] theorem symbolCount_number_cons (s : Symbol) (x : α) (xs : List (Token α)) :
    symbolCount s (.number x :: xs) = symbolCount s xs := by
  simp [symbolCount]

@[simp] theorem symbolCount_append (s : Symbol) (xs ys : List (Token α)) :
    symbolCount s (xs ++ ys) = symbolCount s xs + symbolCount s ys :=
  List.countP_append

namespace Derivation

/-- In what is derived as many groups are closed as are opened. -/
theorem symbolCount_yield {p : Part} (t : Derivation α p) :
    symbolCount .leftParen t.yield = symbolCount .rightParen t.yield := by
  induction t using induction_on_shape with
  | _ => simp_all [yield]

/-- Only an empty repetition is derived from no tokens. -/
theorem yield_ne_nil {p : Part} (hsums : p ≠ .sums) (hproducts : p ≠ .products)
    (t : Derivation α p) : t.yield ≠ [] := by
  rcases t.endsWithOperand with ⟨-, rfl | rfl⟩ | ⟨xs, x, hyield, -⟩
  · exact absurd rfl hsums
  · exact absurd rfl hproducts
  · simp [hyield]

end Derivation

/-- What is left where an error is raised stands at the end of the tokens. -/
theorem Raised.suffix {limit : Nat} {e : EvalError α} {tokens rest : List (Spanned α)}
    (h : Raised limit e tokens rest) : rest <:+ tokens := by
  cases h with
  | nestingTooDeep | unexpectedEnd | unexpectedToken => exact List.suffix_refl _
  | unbalancedParentheses position t ht =>
    obtain ⟨used, -, rfl⟩ := ht
    exact (List.suffix_append used rest).trans (List.suffix_cons _ _)

/-- The rules of the grammar.  The repetitions in two of them are no rules of their own. -/
def grammarRules : List (Rule α) :=
  [.expression, .term, .factor, .power, .exponent, .primary]

theorem exists_part_of_mem_grammarRules {rule : Rule α} (h : rule ∈ grammarRules) :
    ∃ p : Part, p ≠ .sums ∧ p ≠ .products ∧ ∀ left, p.rule left = rule := by
  simp only [grammarRules, List.mem_cons, List.not_mem_nil, or_false] at h
  rcases h with rfl | rfl | rfl | rfl | rfl | rfl
  · exact ⟨.expression, by decide, by decide, fun _ => rfl⟩
  · exact ⟨.term, by decide, by decide, fun _ => rfl⟩
  · exact ⟨.factor, by decide, by decide, fun _ => rfl⟩
  · exact ⟨.power, by decide, by decide, fun _ => rfl⟩
  · exact ⟨.exponent, by decide, by decide, fun _ => rfl⟩
  · exact ⟨.primary, by decide, by decide, fun _ => rfl⟩

/-- Tokens before what is left of them. -/
theorem drop_eq_append_of_suffix {tokens rest : List (Spanned α)} {cursor : Nat}
    (hcursor : cursor ≤ tokens.length) (h : rest <:+ tokens.drop cursor) :
    ∃ cursor', rest = tokens.drop cursor' ∧ cursor ≤ cursor' ∧ cursor' ≤ tokens.length ∧
      (tokens.drop cursor).take (cursor' - cursor) ++ rest = tokens.drop cursor := by
  obtain ⟨used, hused⟩ := h
  have hlength := congrArg List.length hused
  rw [List.length_append, List.length_drop] at hlength
  -- the cursor moves past what stands before the rest
  refine ⟨cursor + used.length, ?_, by omega, by omega, ?_⟩
  · rw [← List.drop_drop, ← hused, List.drop_left]
  · rw [Nat.add_sub_cancel_left, ← hused, List.take_left]

end Tokens

/-- What a reading leaves of the tokens stands at their end.  If it succeeds, some are taken, and
they close as many groups as they open. -/
theorem rest_of_finishes {limit : Nat} {p : Part} {left : α} {tokens : List (Spanned α)}
    {level : Nat} {passed : List Nat} {o : Outcome Nat α} (hlevel : level ≤ limit)
    (h : Finishes (.atMost limit) (p.rule left) tokens level passed o) :
    o.rest <:+ tokens ∧
      ∀ v, o.result = .ok v → ∃ t : Derivation α p, Spells t.yield tokens o.rest := by
  obtain ⟨_ | v, rest, level'⟩ := o
  · obtain ⟨begun, hbegun, hraised⟩ :=
      exists_raised_of_read p tokens left level _ rest level' hlevel h.read_eq
    exact ⟨hraised.suffix.trans hbegun, nofun⟩
  · obtain ⟨-, t, ht, -⟩ := derives_of_read p tokens left level v rest level' hlevel h.read_eq
    exact ⟨(suffix_of_read p left hlevel h.read_eq).2, fun _ _ => ⟨t, ht⟩⟩

/-- **The reader takes tokens, stays within them, and leaves the levels as they were.**  Reading a
rule from a cursor on comes to an end, with the outcome of `parse`.  The levels are those at the
start again, and never were too many.  The cursor is not before where it was and not behind the last
token; if there is a value, at least one token was taken, and as many groups were closed as
opened. -/
theorem finishes_inside {rule : Rule α} (hrule : rule ∈ grammarRules) {tokens : List (Spanned α)}
    {cursor : Nat} (hcursor : cursor ≤ tokens.length) {level : Nat} (hlevel : level ≤ maxLevels) :
    (∃ passed o, Finishes (.atMost maxLevels) rule (tokens.drop cursor) level passed o) ∧
    ∀ passed o, Finishes (.atMost maxLevels) rule (tokens.drop cursor) level passed o →
      (parse (.atMost maxLevels) rule (tokens.drop cursor) level).outcome = o ∧
      o.level = level ∧ (∀ l ∈ passed, l ≤ maxLevels) ∧
      ∃ cursor', o.rest = tokens.drop cursor' ∧ cursor ≤ cursor' ∧ cursor' ≤ tokens.length ∧
        ∀ v, o.result = .ok v → cursor < cursor' ∧
          symbolCount .leftParen (((tokens.drop cursor).take (cursor' - cursor)).map (·.token)) =
            symbolCount .rightParen
              (((tokens.drop cursor).take (cursor' - cursor)).map (·.token)) := by
  obtain ⟨p, hsums, hproducts, hp⟩ := exists_part_of_mem_grammarRules hrule
  obtain rfl := hp 0
  refine ⟨terminates (.atMost maxLevels) p _ 0 level, fun passed o h => ?_⟩
  obtain ⟨hsuffix, hderived⟩ := rest_of_finishes hlevel h
  obtain ⟨cursor', hrest, hle, hlength, htaken⟩ := drop_eq_append_of_suffix hcursor hsuffix
  refine ⟨h.read_eq, h.level_eq (restores_atMost maxLevels), h.forall_passed_le hlevel, cursor',
    hrest, hle, hlength, fun v hv => ?_⟩
  obtain ⟨t, used, hyield, hused⟩ := hderived v hv
  -- the tokens between the cursors are those that the derivation stands for
  obtain rfl := List.append_cancel_right (hused.trans htaken.symm)
  rw [hyield]
  refine ⟨Nat.lt_of_le_of_ne hle ?_, t.symbolCount_yield⟩
  -- if the cursor had not moved, there would be none
  rintro rfl
  rw [Nat.sub_self, List.take_zero, List.map_nil] at hyield
  exact t.yield_ne_nil hsums hproducts hyield.symm

omit [Scalar α] in
/-- The tokens of a number raised to the opposite of another, such as `2^-(3)`. -/
def raisedTokens (x y : α) : List (Spanned α) :=
  [⟨.number x, 0⟩, ⟨.symbol .caret, 1⟩, ⟨.symbol .minus, 2⟩, ⟨.symbol .leftParen, 3⟩,
    ⟨.number y, 4⟩, ⟨.symbol .rightParen, 5⟩]

/-- The exponent of `2^-(3)` takes four levels.  Where only two are left its group cannot be opened,
and the reader stops behind the parenthesis, with the levels as they were. -/
theorem finishes_inside_exponent :
    (.exponent : Rule Float) ∈ grammarRules ∧ 2 ≤ (raisedTokens (2 : Float) 3).length ∧
      254 ≤ maxLevels ∧
      (∃ passed, Finishes (.atMost maxLevels) .exponent ((raisedTokens (2 : Float) 3).drop 2) 250
        passed ⟨.ok (-3), [], 250⟩ ∧ ∀ l ∈ passed, l ≤ maxLevels) ∧
      ∃ passed, Finishes (.atMost maxLevels) .exponent ((raisedTokens (2 : Float) 3).drop 2) 254
        passed ⟨.error (.nestingTooDeep 4), (raisedTokens 2 3).drop 4, 254⟩ ∧
        ∀ l ∈ passed, l ≤ maxLevels := by
  have hrule : (.exponent : Rule Float) ∈ grammarRules := by simp [grammarRules]
  have hcursor : 2 ≤ (raisedTokens (2 : Float) 3).length := Nat.le_add_left 2 4
  have hread (α : Type) [Scalar α] (x y : α) :
      (parse (.atMost maxLevels) .exponent ((raisedTokens x y).drop 2) 250).outcome =
        ⟨.ok (-y), [], 250⟩ := by cbv
  have hread' (α : Type) [Scalar α] (x y : α) :
      (parse (.atMost maxLevels) .exponent ((raisedTokens x y).drop 2) 254).outcome =
        ⟨.error (.nestingTooDeep 4), (raisedTokens x y).drop 4, 254⟩ := by cbv
  obtain ⟨⟨passed, o, hends⟩, hinside⟩ :=
    finishes_inside hrule hcursor (by decide : 250 ≤ maxLevels)
  obtain ⟨houtcome, -, hpassed, -⟩ := hinside passed o hends
  obtain ⟨⟨passed', o', hends'⟩, hinside'⟩ :=
    finishes_inside hrule hcursor (by decide : 254 ≤ maxLevels)
  obtain ⟨houtcome', -, hpassed', -⟩ := hinside' passed' o' hends'
  obtain rfl := (hread Float 2 3).symm.trans houtcome
  obtain rfl := (hread' Float 2 3).symm.trans houtcome'
  exact ⟨hrule, hcursor, by decide, ⟨passed, hends, hpassed⟩, passed', hends', hpassed'⟩

end TimeValue.Expression
