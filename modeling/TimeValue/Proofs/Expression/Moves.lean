import TimeValue.Proofs.Expression.Acceptance

/-!
# The moves of a reader

A reader opens and closes levels as it goes, and asks its nesting only where it opens one.  So all
readers make the same moves, those of a reader that counts nothing, up to the first opening that
their nesting refuses.  What the nesting is matters to the outcome in no other way.

Since a nesting may refuse any opening it likes, this determines the moves: each opening stands
where a reader that is stopped there has its cursor.

## Main definitions

* `Nesting.uncounted` — levels that are not counted.
* `moves` — the levels opened and closed by a reader that refuses no opening, in order.
* `Nesting.replay` — how far a nesting goes along with moves.
* `Nesting.Follows` — an outcome is what moves lead to.

## Main results

* `Row.moves_whole` … `moves_primary_eq_nil` — one equation for each kind of rule.
* `follows_moves` — **every reader follows the moves up to the first opening it refuses.**
-/

namespace TimeValue.Expression

variable {σ α : Type}

/-! ### Moves -/

/-- Levels are not counted. -/
def Nesting.uncounted : Nesting Unit where
  enter _ := some ()
  leave _ := ()

/-- A level opened or closed. -/
inductive Move (α : Type)
  /-- A level is opened, with these tokens left to read. -/
  | enter (cursor : List (Spanned α))
  /-- A level is closed. -/
  | leave

/-- The moves of a level opened before `cursor`, with `inner` in it. -/
def levelMoves (cursor : List (Spanned α)) (inner : List (Move α)) : List (Move α) :=
  .enter cursor :: (inner ++ [.leave])

/-- The moves of reading a rule from the head of `tokens`, if no opening is refused.  Where a rule
goes on after a part, it is because the part has a value. -/
def moves [Scalar α] (rule : Rule α) (tokens : List (Spanned α)) : List (Move α) :=
  match rule with
  | .expression =>
    moves .term tokens ++
      match parse .uncounted .term tokens () with
      | ⟨.ok left, rest, _, _⟩ => moves (.sums left) rest
      | ⟨.error _, _, _, _⟩ => []
  | .sums left =>
    match eatOperation additive? tokens with
    | none => []
    | some (operation, ⟨next, _⟩) =>
      moves .term next ++
        match parse .uncounted .term next () with
        | ⟨.ok right, rest, _, _⟩ => moves (.sums (operation left right)) rest
        | ⟨.error _, _, _, _⟩ => []
  | .term =>
    moves .factor tokens ++
      match parse .uncounted .factor tokens () with
      | ⟨.ok left, rest, _, _⟩ => moves (.products left) rest
      | ⟨.error _, _, _, _⟩ => []
  | .products left =>
    match eatOperation multiplicative? tokens with
    | none => []
    | some (operation, ⟨next, _⟩) =>
      moves .factor next ++
        match parse .uncounted .factor next () with
        | ⟨.ok right, rest, _, _⟩ => moves (.products (operation left right)) rest
        | ⟨.error _, _, _, _⟩ => []
  | .factor =>
    levelMoves tokens <|
      match eat .minus tokens with
      | some ⟨next, _⟩ => moves .factor next
      | none => moves .power tokens
  | .power =>
    moves .primary tokens ++
      match parse .uncounted .primary tokens () with
      | ⟨.ok _, rest, _, _⟩ =>
        match eat .caret rest with
        | none => []
        | some ⟨next, _⟩ => moves .exponent next
      | ⟨.error _, _, _, _⟩ => []
  | .exponent =>
    levelMoves tokens <|
      match eat .minus tokens with
      | some ⟨next, _⟩ => moves .exponent next
      | none => moves .power tokens
  | .primary =>
    match tokens with
    | ⟨.symbol s, _⟩ :: next =>
      if s = .leftParen then levelMoves next (moves .expression next) else []
    | _ => []
termination_by (tokens.length, rule.rank)
decreasing_by
  all_goals simp_wf
  all_goals simp only [Rule.rank, Prod.lex_def, true_and]
  all_goals omega

/-- What is made of the value and of the tokens left, if there is a value. -/
def Outcome.onward {β : Type} (o : Outcome σ α) (later : α → List (Spanned α) → List β) : List β :=
  match o.result with
  | .ok value => later value o.rest
  | .error _ => []

theorem Outcome.onward_nil {β : Type} (o : Outcome σ α) :
    (o.onward fun _ _ => ([] : List β)) = [] := by
  unfold onward
  split <;> rfl

section Moves

variable [Scalar α] (tokens : List (Spanned α))

section Kinds

variable {whole part rule : Rule α} {again : α → Rule α} {operation? : Symbol → Option (α → α → α)}

theorem Row.moves_whole (row : Row whole part again operation?) :
    moves whole tokens =
      moves part tokens ++
        (read .uncounted part tokens ()).onward fun left => moves (again left) := by
  unfold read
  cases row
  all_goals
    rw [moves]
    generalize parse .uncounted _ tokens () = reply
    rcases reply with ⟨_ | _, rest, level, h⟩ <;> rfl

theorem Row.moves_again (row : Row whole part again operation?) (left : α) :
    moves (again left) tokens =
      match joined? operation? tokens with
      | none => []
      | some (operation, next) =>
        moves part next ++ (read .uncounted part next ()).onward fun right =>
          moves (again (operation left right)) := by
  unfold read joined?
  cases row
  all_goals
    rw [moves]
    generalize eatOperation _ tokens = joined
    rcases joined with _ | ⟨operation, next, hnext⟩
    · rfl
    · simp only [Option.map_some]
      generalize parse .uncounted _ next () = reply
      rcases reply with ⟨_ | _, rest, level, h⟩ <;> rfl

theorem Signed.moves_eq (sign : Signed rule) :
    moves rule tokens =
      levelMoves tokens
        (match after? .minus tokens with
        | some next => moves rule next
        | none => moves .power tokens) := by
  unfold after?
  cases sign
  all_goals
    conv => lhs; rw [moves]
    rcases eat .minus tokens with _ | ⟨next, hnext⟩ <;> rfl

end Kinds

theorem moves_power :
    moves .power tokens =
      moves .primary tokens ++ (read .uncounted .primary tokens ()).onward fun _ rest =>
        match after? .caret rest with
        | none => []
        | some next => moves .exponent next := by
  unfold read after?
  rw [moves]
  rcases parse .uncounted .primary tokens () with ⟨_ | base, rest, level, h⟩
  · rfl
  · simp only [Reply.outcome, Outcome.onward]
    rcases eat .caret rest with _ | ⟨next, hnext⟩ <;> rfl

theorem moves_primary_group (position : Nat) :
    moves .primary (⟨.symbol .leftParen, position⟩ :: tokens) =
      levelMoves tokens (moves .expression tokens) := by
  conv => lhs; rw [moves]
  rfl

/-- Only a group opens a level where a number or a group is read. -/
theorem moves_primary_eq_nil
    (h : (tokens.map (·.token)).head? ≠ some (.symbol .leftParen)) :
    moves .primary tokens = [] := by
  rcases tokens with _ | ⟨⟨x | s, position⟩, next⟩
  · rw [moves]
    simp
  · rw [moves]
    simp
  · have hs : s ≠ .leftParen := by
      rintro rfl
      exact h rfl
    rw [moves, if_neg hs]

end Moves

/-! ### Following moves -/

/-- The level that moves lead to, or the tokens left at the first opening that is refused. -/
def Nesting.replay (nesting : Nesting σ) : List (Move α) → σ → Except (List (Spanned α)) σ
  | [], level => .ok level
  | .enter cursor :: others, level =>
    match nesting.enter level with
    | some inner => nesting.replay others inner
    | none => .error cursor
  | .leave :: others, level => nesting.replay others (nesting.leave level)

theorem Nesting.replay_append (nesting : Nesting σ) (before after : List (Move α)) (level : σ) :
    nesting.replay (before ++ after) level =
      (nesting.replay before level).bind (nesting.replay after) := by
  induction before generalizing level with
  | nil => rfl
  | cons move before ih =>
    cases move with
    | enter cursor =>
      simp only [List.cons_append, replay]
      cases nesting.enter level with
      | none => rfl
      | some inner => exact ih inner
    | leave => exact ih (nesting.leave level)

/-- The reader's outcome `o` is that of `free`, a reader that refused no opening and made the moves
`made`, up to the first opening that its nesting refuses. -/
def Nesting.Follows (nesting : Nesting σ) (level : σ) (made : List (Move α))
    (free : Outcome Unit α) (o : Outcome σ α) : Prop :=
  match nesting.replay made level with
  | .ok level' => o = ⟨free.result, free.rest, level'⟩
  | .error cursor => o.result = .error (tooDeep cursor) ∧ o.rest = cursor

namespace Nesting.Follows

variable {nesting : Nesting σ} {level : σ} {made : List (Move α)} {free : Outcome Unit α}
  {o : Outcome σ α}

/-- Where no level is opened, all readers have one outcome. -/
theorem done (nesting : Nesting σ) (level : σ) (result : Except (EvalError α) α)
    (rest : List (Spanned α)) :
    nesting.Follows level [] ⟨result, rest, ()⟩ ⟨result, rest, level⟩ := rfl

theorem map (f : α → α) (h : nesting.Follows level made free o) :
    nesting.Follows level made (free.map f) (o.map f) := by
  unfold Follows at h ⊢
  cases hreplay : nesting.replay made level with
  | ok level' =>
    simp only [hreplay] at h ⊢
    rw [h]
    rfl
  | error cursor =>
    simp only [hreplay] at h ⊢
    obtain ⟨hresult, hrest⟩ := h
    exact ⟨by rw [Outcome.map, hresult]; rfl, hrest⟩

/-- A reader that goes on after a part goes on following, if it came that far. -/
theorem andThen {nextFree : α → List (Spanned α) → Unit → Outcome Unit α}
    {next : α → List (Spanned α) → σ → Outcome σ α} {later : α → List (Spanned α) → List (Move α)}
    (h : nesting.Follows level made free o)
    (hnext : ∀ v level', free.result = .ok v →
      nesting.Follows level' (later v free.rest) (nextFree v free.rest ())
        (next v free.rest level')) :
    nesting.Follows level (made ++ free.onward later) (free.andThen nextFree) (o.andThen next) := by
  obtain ⟨result, rest, freeLevel⟩ := free
  unfold Follows at h
  cases hreplay : nesting.replay made level with
  | ok level' =>
    simp only [hreplay] at h
    subst h
    -- without a value there is nothing to go on with, and no move behind those made
    cases result with
    | ok v =>
      have hlater := hnext v level' rfl
      unfold Follows at hlater ⊢
      rw [nesting.replay_append, hreplay]
      exact hlater
    | error e =>
      unfold Follows
      rw [nesting.replay_append, hreplay]
      rfl
  | error cursor =>
    simp only [hreplay] at h
    obtain ⟨hresult, hrest⟩ := h
    unfold Follows
    rw [nesting.replay_append, hreplay]
    -- the opening refused is the last thing that happens
    have hstop : o.andThen next = o := by rw [Outcome.andThen, hresult]
    rw [hstop]
    exact ⟨hresult, hrest⟩

/-- A reader that opens no level after a part makes the moves of the part. -/
theorem andThen_done {nextFree : α → List (Spanned α) → Unit → Outcome Unit α}
    {next : α → List (Spanned α) → σ → Outcome σ α} (h : nesting.Follows level made free o)
    (hnext : ∀ v level',
      nesting.Follows level' [] (nextFree v free.rest ()) (next v free.rest level')) :
    nesting.Follows level made (free.andThen nextFree) (o.andThen next) := by
  have h' : nesting.Follows level (made ++ free.onward fun _ _ => []) (free.andThen nextFree)
      (o.andThen next) := h.andThen fun v level' _ => hnext v level'
  rwa [Outcome.onward_nil, List.append_nil] at h'

/-- A level is opened, if it is not refused, and closed again. -/
theorem entered {inner : σ} (cursor : List (Spanned α)) (henter : nesting.enter level = some inner)
    (h : nesting.Follows inner made free o) :
    nesting.Follows level (levelMoves cursor made) (free.leave .uncounted) (o.leave nesting) := by
  unfold Follows at h ⊢
  simp only [levelMoves, replay, henter, nesting.replay_append]
  cases hreplay : nesting.replay made inner with
  | ok level' =>
    simp only [hreplay] at h
    rw [h]
    rfl
  | error cursor =>
    simp only [hreplay] at h
    exact h

/-- A level is refused. -/
theorem refused (free : Outcome Unit α) (made : List (Move α)) (cursor : List (Spanned α))
    (henter : nesting.enter level = none) :
    nesting.Follows level (levelMoves cursor made) free
      ⟨.error (tooDeep cursor), cursor, level⟩ := by
  unfold Follows
  simp [levelMoves, replay, henter]

end Nesting.Follows

section Follows

variable [Scalar α] {nesting : Nesting σ} {tokens : List (Spanned α)} {level : σ}

variable {whole part rule : Rule α} {again : α → Rule α} {operation? : Symbol → Option (α → α → α)}

theorem Row.follows_whole (row : Row whole part again operation?)
    (hpart : nesting.Follows level (moves part tokens) (read .uncounted part tokens ())
      (read nesting part tokens level))
    (hagain : ∀ (mid : List (Spanned α)) left level', mid.length ≤ tokens.length →
      nesting.Follows level' (moves (again left) mid) (read .uncounted (again left) mid ())
        (read nesting (again left) mid level')) :
    nesting.Follows level (moves whole tokens) (read .uncounted whole tokens ())
      (read nesting whole tokens level) := by
  rw [row.moves_whole, row.read_whole, row.read_whole]
  refine hpart.andThen fun left level' _ => ?_
  exact hagain _ left level' (length_le_of_read rfl)

theorem Row.follows_again (row : Row whole part again operation?) (left : α)
    (hpart : ∀ next : List (Spanned α), next.length < tokens.length →
      nesting.Follows level (moves part next) (read .uncounted part next ())
        (read nesting part next level))
    (hagain : ∀ (mid : List (Spanned α)) left level', mid.length < tokens.length →
      nesting.Follows level' (moves (again left) mid) (read .uncounted (again left) mid ())
        (read nesting (again left) mid level')) :
    nesting.Follows level (moves (again left) tokens) (read .uncounted (again left) tokens ())
      (read nesting (again left) tokens level) := by
  rw [row.moves_again, row.read_again, row.read_again, repetition, repetition]
  cases hjoined : joined? operation? tokens with
  | none => exact .done nesting level _ _
  | some x =>
    obtain ⟨operation, next⟩ := x
    obtain ⟨s, position, -, rfl⟩ := joined?_eq_some_iff.1 hjoined
    refine (hpart next (Nat.lt_succ_self _)).andThen fun right level' _ => ?_
    exact hagain _ _ level' (Nat.lt_succ_of_le (length_le_of_read rfl))

theorem Signed.follows (sign : Signed rule)
    (hagain : ∀ (next : List (Spanned α)) inner, next.length < tokens.length →
      nesting.Follows inner (moves rule next) (read .uncounted rule next ())
        (read nesting rule next inner))
    (hpower : ∀ inner, nesting.Follows inner (moves .power tokens)
      (read .uncounted .power tokens ()) (read nesting .power tokens inner)) :
    nesting.Follows level (moves rule tokens) (read .uncounted rule tokens ())
      (read nesting rule tokens level) := by
  rw [sign.moves_eq, sign.read_eq, sign.read_eq, signed, signed]
  cases henter : nesting.enter level with
  | none => exact .refused _ _ tokens henter
  | some inner =>
    cases hminus : after? .minus tokens with
    | some next =>
      obtain ⟨position, rfl⟩ := after?_eq_some_iff.1 hminus
      exact (Nesting.Follows.entered _ henter (hagain next inner (Nat.lt_succ_self _))).map _
    | none => exact Nesting.Follows.entered tokens henter (hpower inner)

theorem follows_power
    (hbase : nesting.Follows level (moves .primary tokens) (read .uncounted .primary tokens ())
      (read nesting .primary tokens level))
    (hexponent : ∀ (next : List (Spanned α)) level', next.length < tokens.length →
      nesting.Follows level' (moves .exponent next) (read .uncounted .exponent next ())
        (read nesting .exponent next level')) :
    nesting.Follows level (moves .power tokens) (read .uncounted .power tokens ())
      (read nesting .power tokens level) := by
  rw [moves_power, read_power, read_power]
  refine hbase.andThen fun base level' _ => ?_
  -- the caret is looked for where the reader that counts nothing stopped, since both stop there
  have hmid : (read .uncounted .primary tokens ()).rest.length ≤ tokens.length :=
    length_le_of_read rfl
  cases hcaret : after? .caret (read .uncounted .primary tokens ()).rest with
  | none => exact .done nesting level' _ _
  | some next =>
    obtain ⟨position, hnext⟩ := after?_eq_some_iff.1 hcaret
    rw [hnext, List.length_cons] at hmid
    exact (hexponent next level' hmid).map _

theorem follows_primary
    (hexpression : ∀ (next : List (Spanned α)) inner, next.length < tokens.length →
      nesting.Follows inner (moves .expression next) (read .uncounted .expression next ())
        (read nesting .expression next inner)) :
    nesting.Follows level (moves .primary tokens) (read .uncounted .primary tokens ())
      (read nesting .primary tokens level) := by
  rcases tokens with _ | ⟨⟨x | s, position⟩, next⟩
  -- of all primaries only a group moves
  · rw [moves_primary_eq_nil [] (by simp), read_primary_nil, read_primary_nil]
    exact .done nesting level _ _
  · rw [moves_primary_eq_nil _ (by simp), read_primary_number, read_primary_number]
    exact .done nesting level _ _
  by_cases hs : s = .leftParen
  · subst hs
    rw [moves_primary_group, read_primary_group, read_primary_group]
    cases henter : nesting.enter level with
    | none => exact .refused _ _ next henter
    | some inner =>
      have hinner := hexpression next inner (Nat.lt_succ_self _)
      -- the parenthesis behind the expression opens no level, whether it is there or not
      refine (hinner.entered next henter).andThen_done fun v level' => ?_
      simp only [Outcome.leave]
      cases after? .rightParen (read .uncounted .expression next ()).rest with
      | none => exact .done nesting level' _ _
      | some rest => exact .done nesting level' _ _
  · rw [moves_primary_eq_nil _ (by simp [hs]), read_primary_symbol _ _ _ hs,
      read_primary_symbol _ _ _ hs]
    exact .done nesting level _ _

end Follows

/-- **Every reader follows the moves up to the first opening it refuses.** -/
theorem follows_moves [Scalar α] (p : Part) (tokens : List (Spanned α)) :
    ∀ {σ : Type} (nesting : Nesting σ) (left : α) (level : σ),
      nesting.Follows level (moves (p.rule left) tokens) (read .uncounted (p.rule left) tokens ())
        (read nesting (p.rule left) tokens level) := by
  -- as long as nothing is refused, both readers have the same tokens left after a part, so each
  -- rule goes on alike in both
  induction p, tokens using Part.induction_on_rules with
  | whole row tokens ihPart ihAgain =>
    intro σ nesting left level
    exact (row.rule left).follows_whole (ihPart nesting left level)
      fun mid u level' hmid => ihAgain mid hmid nesting u level'
  | again row tokens ihPart ihAgain =>
    intro σ nesting left level
    exact (row.rule left).follows_again left
      (fun next hnext => ihPart next hnext nesting left level)
      fun mid u level' hmid => ihAgain mid hmid nesting u level'
  | signed sign tokens ihSigned ihPower =>
    intro σ nesting left level
    exact (sign.rule left).follows (fun next inner hnext => ihSigned next hnext nesting left inner)
      fun inner => ihPower nesting left inner
  | power tokens ihPrimary ihExponent =>
    intro σ nesting left level
    exact follows_power (ihPrimary nesting left level)
      fun next level' hnext => ihExponent next hnext nesting left level'
  | primary tokens ih =>
    intro σ nesting left level
    exact follows_primary fun next inner hnext => ih next hnext nesting left inner

end TimeValue.Expression
