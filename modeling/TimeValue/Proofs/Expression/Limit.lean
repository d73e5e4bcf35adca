import TimeValue.Proofs.Expression.Moves
import TimeValue.Proofs.Expression.Refusal

/-!
# The limit on levels

Readers differ only in the openings that they refuse.  For the limit of the evaluator this means
that it is without effect on formulas that never have too many levels open, and that it stops any
other at the first opening beyond it, whatever error would have followed.

A formula that is derived opens as many levels as lie within one another in its derivation.  Sums
and products add none, so they may be as long as one likes.

## Main definitions

* `Nesting.unlimited`, `Nesting.deepest` — readers that refuse no opening, and count the levels.
* `openings` — the levels opened over a formula, each with those open before it and the cursor.
* `deepestLevel` — the most levels open at once.
* `Derivation.factors` — what sums and products join.

## Main results

* `evaluateWith_atMost` — a limit stops the reader at the first opening with as many levels open.
* `Derivation.deepestLevel_eq` — what is derived opens as many levels as its derivation has.
* `evaluateTokens_limited` — **the limit changes nothing but the outcome of what is too deep.**
-/

namespace TimeValue.Expression

variable {σ α : Type}

/-! ### Nestings that refuse nothing -/

/-- Levels are counted, and any number of them may be open at once. -/
def Nesting.unlimited : Nesting Nat where
  enter level := some (level + 1)
  leave level := level - 1

/-- The levels open now, and the most that were open at once. -/
structure Depth where
  /-- The levels open now. -/
  current : Nat
  /-- The most levels open at once so far. -/
  greatest : Nat

/-- Any number of levels may be open at once, and the most that were are kept. -/
def Nesting.deepest : Nesting Depth where
  enter d := some ⟨d.current + 1, max d.greatest (d.current + 1)⟩
  leave d := ⟨d.current - 1, d.greatest⟩

/-! ### Levels along moves -/

/-- A level opened. -/
structure Opening (α : Type) where
  /-- How many levels are open before it. -/
  level : Nat
  /-- The tokens left to read. -/
  cursor : List (Spanned α)

/-- The levels that moves open, from `level` on. -/
def openingsFrom (level : Nat) : List (Move α) → List (Opening α)
  | [] => []
  | .enter cursor :: others => ⟨level, cursor⟩ :: openingsFrom (level + 1) others
  | .leave :: others => openingsFrom (level - 1) others

/-- A reader without a limit follows all moves. -/
theorem replay_unlimited (made : List (Move α)) (level : Nat) :
    ∃ level', Nesting.unlimited.replay made level = .ok level' := by
  induction made generalizing level with
  | nil => exact ⟨level, rfl⟩
  | cons move made ih =>
    cases move with
    | enter cursor => exact ih (level + 1)
    | leave => exact ih (level - 1)

/-- A reader with a limit stops at the first level that is opened beyond it. -/
theorem replay_atMost (limit : Nat) (made : List (Move α)) (level : Nat) :
    (Nesting.atMost limit).replay made level =
      match (openingsFrom level made).find? (limit ≤ ·.level) with
      | some opening => .error opening.cursor
      | none => Nesting.unlimited.replay made level := by
  induction made generalizing level with
  | nil => rfl
  | cons move made ih =>
    cases move with
    | enter cursor =>
      simp only [Nesting.replay, openingsFrom, List.find?_cons]
      -- a level beyond the limit is found by the search and refused by the reader
      by_cases hlimit : limit ≤ level
      · simp [Nesting.atMost, hlimit]
      · simp only [Nesting.atMost, hlimit, if_false, decide_false] at ih ⊢
        exact ih (level + 1)
    | leave => exact ih (level - 1)

/-- The most levels open at once are one more than are open before the deepest opening. -/
theorem replay_deepest (made : List (Move α)) (d : Depth) :
    ∃ d', Nesting.deepest.replay made d = .ok d' ∧
      ∀ n, d'.greatest ≤ n ↔
        d.greatest ≤ n ∧ ∀ opening ∈ openingsFrom d.current made, opening.level < n := by
  induction made generalizing d with
  | nil => exact ⟨d, rfl, fun n => by simp [openingsFrom]⟩
  | cons move made ih =>
    cases move with
    | enter cursor =>
      obtain ⟨d', hreplay, hgreatest⟩ := ih ⟨d.current + 1, max d.greatest (d.current + 1)⟩
      refine ⟨d', hreplay, fun n => ?_⟩
      rw [hgreatest, openingsFrom, List.forall_mem_cons, Nat.max_le, and_assoc]
      rfl
    | leave =>
      obtain ⟨d', hreplay, hgreatest⟩ := ih ⟨d.current - 1, d.greatest⟩
      exact ⟨d', hreplay, hgreatest⟩

/-- Levels are opened one at a time, so the first opening beyond a limit stands at the limit. -/
theorem find?_openingsFrom {limit level : Nat} (hlevel : level ≤ limit) (made : List (Move α)) :
    (openingsFrom level made).find? (limit ≤ ·.level) =
      (openingsFrom level made).find? (·.level = limit) := by
  induction made generalizing level with
  | nil => rfl
  | cons move made ih =>
    cases move with
    | enter cursor =>
      simp only [openingsFrom, List.find?_cons]
      -- below the limit one level more does not pass it
      by_cases hlimit : limit ≤ level
      · simp [Nat.le_antisymm hlevel hlimit]
      · have hne : level ≠ limit := by omega
        simp only [hlimit, hne, decide_false]
        exact ih (by omega)
    | leave => exact ih (by omega)

/-! ### The evaluator -/

section Evaluator

variable [Scalar α] {tokens : List (Spanned α)}

/-- The value that a reader comes to, if it leaves no tokens. -/
theorem evaluateWith_eq (nesting : Nesting σ) (level : σ) :
    evaluateWith nesting level tokens =
      (read nesting .expression tokens level).result.bind fun v =>
        (finish (read nesting .expression tokens level).rest).map fun _ => v := rfl

/-- A reader of formulas that refuses no opening comes to the value or error of any other. -/
theorem evaluateWith_of_replay_eq_ok {nesting : Nesting σ} {level level' : σ}
    (h : nesting.replay (moves .expression tokens) level = .ok level') :
    evaluateWith nesting level tokens = evaluateWith .uncounted () tokens := by
  have hfollows := follows_moves .expression tokens nesting 0 level
  -- what the reader comes to is fixed by its moves, which it makes without counting as well
  simp only [Nesting.Follows, Part.rule, h] at hfollows
  rw [evaluateWith_eq, hfollows, evaluateWith_eq]

/-- A reader of formulas that refuses an opening reports it. -/
theorem evaluateWith_of_replay_eq_error {nesting : Nesting σ} {level : σ}
    {cursor : List (Spanned α)}
    (h : nesting.replay (moves .expression tokens) level = .error cursor) :
    evaluateWith nesting level tokens = .error (tooDeep cursor) := by
  have hfollows := follows_moves .expression tokens nesting 0 level
  simp only [Nesting.Follows, Part.rule, h] at hfollows
  rw [evaluateWith_eq, hfollows.1]
  rfl

/-- The levels opened over a formula by a reader without a limit, in order. -/
def openings (tokens : List (Spanned α)) : List (Opening α) :=
  openingsFrom 0 (moves .expression tokens)

/-- The most levels that a reader without a limit has open at once over a formula. -/
def deepestLevel (tokens : List (Spanned α)) : Nat :=
  (parse .deepest .expression tokens ⟨0, 0⟩).level.greatest

theorem deepestLevel_le_iff {n : Nat} :
    deepestLevel tokens ≤ n ↔ ∀ opening ∈ openings tokens, opening.level < n := by
  obtain ⟨d, hreplay, hgreatest⟩ := replay_deepest (moves .expression tokens) ⟨0, 0⟩
  have hfollows := follows_moves .expression tokens .deepest 0 ⟨0, 0⟩
  simp only [Nesting.Follows, Part.rule, hreplay] at hfollows
  have hdeepest : deepestLevel tokens = d.greatest :=
    congrArg (fun o : Outcome Depth α => o.level.greatest) hfollows
  rw [hdeepest, hgreatest]
  simp [openings]

/-- A reader with a limit stops at the first opening with as many levels open, if there is one. -/
theorem evaluateWith_atMost (limit : Nat) :
    evaluateWith (.atMost limit) 0 tokens =
      match (openings tokens).find? (·.level = limit) with
      | some opening => .error (tooDeep opening.cursor)
      | none => evaluateWith .unlimited 0 tokens := by
  have hreplay := replay_atMost limit (moves .expression tokens) 0
  rw [find?_openingsFrom (Nat.zero_le _)] at hreplay
  obtain ⟨level, hunlimited⟩ := replay_unlimited (moves .expression tokens) 0
  rw [openings]
  cases hfind : (openingsFrom 0 (moves .expression tokens)).find? (·.level = limit) with
  | some opening =>
    simp only [hfind] at hreplay
    exact evaluateWith_of_replay_eq_error hreplay
  | none =>
    simp only [hfind] at hreplay
    rw [hunlimited] at hreplay
    rw [evaluateWith_of_replay_eq_ok hreplay, evaluateWith_of_replay_eq_ok hunlimited]

/-- A limit that is passed is met on the way. -/
theorem find?_openings_eq_none_iff (limit : Nat) :
    (openings tokens).find? (·.level = limit) = none ↔ deepestLevel tokens ≤ limit := by
  rw [deepestLevel_le_iff, openings, ← find?_openingsFrom (Nat.zero_le _)]
  simp

/-! ### Levels of derivations -/

namespace Derivation

/-- The factors that a part joins by operators, through sums and products. -/
def factors : {p : Part} → Derivation α p → List (Derivation α .factor)
  | _, .expression first others => first.factors ++ others.factors
  | _, .sums _ next others => next.factors ++ others.factors
  | _, .term first others => first :: others.factors
  | _, .products _ next others => next :: others.factors
  | _, _ => []

omit [Scalar α] in
/-- However many factors a sum of products joins, it has the levels of the deepest. -/
theorem levels_le_of_factors {p : Part} (hp : p.strength < Part.factor.strength)
    (t : Derivation α p) {n : Nat} (h : ∀ u ∈ t.factors, u.levels ≤ n) : t.levels ≤ n := by
  induction t with
  | expression first others ihFirst ihOthers | sums o first others ihFirst ihOthers =>
    obtain ⟨hfirst, hothers⟩ := List.forall_mem_append.1 h
    exact Nat.max_le.2 ⟨ihFirst (by decide) hfirst, ihOthers (by decide) hothers⟩
  | term first others ihFirst ihOthers | products o first others ihFirst ihOthers =>
    obtain ⟨hfirst, hothers⟩ := List.forall_mem_cons.1 h
    exact Nat.max_le.2 ⟨hfirst, ihOthers (by decide) hothers⟩
  | sumsEnd | productsEnd => exact Nat.zero_le n
  | _ => exact absurd hp (by decide)

variable (t : Derivation α .expression)

/-- A limit that allows the levels of a derivation allows its value. -/
theorem evaluateWith_atMost_eq_ok (ht : t.yield = tokens.map (·.token)) {limit : Nat}
    (hlevels : t.levels ≤ limit) : evaluateWith (.atMost limit) 0 tokens = .ok t.value :=
  evaluateWith_eq_ok_iff_read.2 ⟨0, t.isRead _ t.value 0 tokens [] (spells_all_iff.2 ht)
    (Part.endsBefore_nil _) (by omega)⟩

/-- A limit that allows a value allows the levels of the one derivation. -/
theorem levels_le_of_evaluateWith (ht : t.yield = tokens.map (·.token)) {limit : Nat} {v : α}
    (h : evaluateWith (.atMost limit) 0 tokens = .ok v) : t.levels ≤ limit := by
  obtain ⟨level, hread⟩ := evaluateWith_eq_ok_iff_read.1 h
  obtain ⟨-, -, t', ht', hlevels⟩ :=
    exists_derivation_of_read .expression v (Nat.zero_le limit) trivial hread
  -- the value comes from a derivation with few levels, and there is only one
  have hsame : t.yield = t'.yield := ht.trans (spells_all_iff.1 ht').symm
  obtain ⟨rfl, -⟩ := t.determined t' [] [] (Part.endsBefore_nil _) (Part.endsBefore_nil _)
    (by rw [hsame])
  omega

/-- No opening is beyond the levels of a derivation. -/
theorem find?_openings_levels (ht : t.yield = tokens.map (·.token)) :
    (openings tokens).find? (·.level = t.levels) = none := by
  have hvalue := t.evaluateWith_atMost_eq_ok ht (Nat.le_refl t.levels)
  rw [evaluateWith_atMost] at hvalue
  -- an opening there would be refused, but the derivation has its value with this limit
  cases hfind : (openings tokens).find? (·.level = t.levels) with
  | none => rfl
  | some opening => simp [hfind] at hvalue

/-- A reader without a limit gives a derivation its value. -/
theorem evaluateWith_unlimited (ht : t.yield = tokens.map (·.token)) :
    evaluateWith .unlimited 0 tokens = .ok t.value := by
  have hvalue := t.evaluateWith_atMost_eq_ok ht (Nat.le_refl t.levels)
  rw [evaluateWith_atMost, t.find?_openings_levels ht] at hvalue
  exact hvalue

/-- **What is derived opens as many levels as its derivation has.** -/
theorem deepestLevel_eq (ht : t.yield = tokens.map (·.token)) : deepestLevel tokens = t.levels := by
  apply Nat.le_antisymm
  · exact (find?_openings_eq_none_iff t.levels).1 (t.find?_openings_levels ht)
  · have hnone := (find?_openings_eq_none_iff (deepestLevel tokens)).2 (Nat.le_refl _)
    -- no opening is beyond the deepest level, so that a limit there is not noticed
    have hvalue : evaluateWith (.atMost (deepestLevel tokens)) 0 tokens =
        evaluateWith .unlimited 0 tokens := by
      rw [evaluateWith_atMost, hnone]
    exact t.levels_le_of_evaluateWith ht (hvalue.trans (t.evaluateWith_unlimited ht))

end Derivation

/-- **The limit changes nothing but the outcome of what is too deep.**  If no more levels than
allowed are ever open, the evaluator gives the value or the error of a reader without a limit.
Otherwise it reports the token before which one level too many was first to be opened, or zero if
no token was left there.  A formula that is derived is too deep exactly if its derivation is,
however many factors it joins. -/
theorem evaluateTokens_limited (tokens : List (Spanned α)) :
    (deepestLevel tokens ≤ maxLevels →
      evaluateTokens tokens = evaluateWith .unlimited 0 tokens) ∧
    (maxLevels < deepestLevel tokens →
      ∃ opening, (openings tokens).find? (·.level = maxLevels) = some opening ∧
        evaluateTokens tokens =
          .error (.nestingTooDeep ((opening.cursor.head?.map (·.position)).getD 0))) ∧
    ∀ t : Derivation α .expression, t.yield = tokens.map (·.token) →
      evaluateWith .unlimited 0 tokens = .ok t.value ∧
      (maxLevels < t.levels →
        ∃ position, evaluateTokens tokens = .error (.nestingTooDeep position)) ∧
      ((∀ u ∈ t.factors, u.levels ≤ maxLevels) → evaluateTokens tokens = .ok t.value) := by
  have hlimited : evaluateTokens tokens = _ := evaluateWith_atMost maxLevels
  have hdeep : maxLevels < deepestLevel tokens →
      ∃ opening, (openings tokens).find? (·.level = maxLevels) = some opening ∧
        evaluateTokens tokens =
          .error (.nestingTooDeep ((opening.cursor.head?.map (·.position)).getD 0)) := by
    intro hlt
    cases hfind : (openings tokens).find? (·.level = maxLevels) with
    | none => exact absurd ((find?_openings_eq_none_iff maxLevels).1 hfind) (Nat.not_le.2 hlt)
    | some opening =>
      rw [hfind] at hlimited
      refine ⟨opening, rfl, hlimited.trans ?_⟩
      -- the report is zero where no token is left
      rcases opening with ⟨level, _ | ⟨next, others⟩⟩ <;> rfl
  refine ⟨fun hle => ?_, hdeep, fun t ht =>
    ⟨t.evaluateWith_unlimited ht, fun hlt => ?_, fun hu => ?_⟩⟩
  · rw [(find?_openings_eq_none_iff maxLevels).2 hle] at hlimited
    exact hlimited
  · obtain ⟨opening, -, herror⟩ := hdeep (by rwa [t.deepestLevel_eq ht])
    exact ⟨_, herror⟩
  · exact t.evaluateWith_atMost_eq_ok ht (t.levels_le_of_factors (by decide) hu)

end Evaluator

/-- A one behind so many minuses. -/
def oppositeOne : Nat → Derivation Float .factor
  | 0 => .factor (.base (.number 1))
  | n + 1 => .minusFactor (oppositeOne n)

/-- The tokens of a one behind so many minuses, from a position on. -/
def oppositeOneFrom (position : Nat) : Nat → List (Spanned Float)
  | 0 => [⟨.number 1, position⟩]
  | n + 1 => ⟨.symbol .minus, position⟩ :: oppositeOneFrom (position + 1) n

/-- A one behind so many minuses, as a formula. -/
def oppositeFormula (n : Nat) : Derivation Float .expression :=
  .expression (.term (oppositeOne n) .productsEnd) .sumsEnd

theorem levels_oppositeOne (n : Nat) : (oppositeOne n).levels = n + 1 := by
  induction n with
  | zero => rfl
  | succ n ih => exact congrArg (· + 1) ih

theorem yield_oppositeOne (n position : Nat) :
    (oppositeOne n).yield = (oppositeOneFrom position n).map (·.token) := by
  induction n generalizing position with
  | zero => rfl
  | succ n ih => exact congrArg (Token.symbol .minus :: ·) (ih (position + 1))

theorem levels_oppositeFormula (n : Nat) : (oppositeFormula n).levels = n + 1 := by
  simp only [oppositeFormula, Derivation.levels, levels_oppositeOne, Nat.max_zero]

theorem yield_oppositeFormula (n : Nat) :
    (oppositeFormula n).yield = (oppositeOneFrom 0 n).map (·.token) := by
  simp only [oppositeFormula, Derivation.yield, List.append_nil, yield_oppositeOne n 0]

set_option maxRecDepth 20000 in
/-- A one behind 255 minuses fits within the levels.  Behind one minus more the level of the one
itself cannot be opened, and its position is reported. -/
theorem evaluateTokens_limited_minuses :
    (deepestLevel (oppositeOneFrom 0 255) ≤ maxLevels ∧
      evaluateTokens (oppositeOneFrom 0 255) = evaluateWith .unlimited 0 (oppositeOneFrom 0 255) ∧
      evaluateTokens (oppositeOneFrom 0 255) = .ok (oppositeFormula 255).value) ∧
    maxLevels < deepestLevel (oppositeOneFrom 0 256) ∧
      evaluateTokens (oppositeOneFrom 0 256) = .error (.nestingTooDeep 256) ∧
      (∃ opening, (openings (oppositeOneFrom 0 256)).find? (·.level = maxLevels) = some opening ∧
        (opening.cursor.head?.map (·.position)).getD 0 = 256) ∧
      ∃ position, evaluateTokens (oppositeOneFrom 0 256) = .error (.nestingTooDeep position) := by
  have hdeepest (n : Nat) : deepestLevel (oppositeOneFrom 0 n) = n + 1 := by
    rw [(oppositeFormula n).deepestLevel_eq (yield_oppositeFormula n), levels_oppositeFormula]
  have hfits : deepestLevel (oppositeOneFrom 0 255) ≤ maxLevels := by
    rw [hdeepest]
    decide
  have hpasses : maxLevels < deepestLevel (oppositeOneFrom 0 256) := by
    rw [hdeepest]
    decide
  have hfactors : ∀ u ∈ (oppositeFormula 255).factors, u.levels ≤ maxLevels := by
    intro u hu
    have hone : u = oppositeOne 255 := by simpa [oppositeFormula, Derivation.factors] using hu
    rw [hone, levels_oppositeOne]
    decide
  have herror : evaluateTokens (oppositeOneFrom 0 256) = .error (.nestingTooDeep 256) := by cbv
  obtain ⟨hsame, -, hformula⟩ := evaluateTokens_limited (oppositeOneFrom 0 255)
  obtain ⟨-, hdeep, hformula'⟩ := evaluateTokens_limited (oppositeOneFrom 0 256)
  obtain ⟨opening, hfirst, hreported⟩ := hdeep hpasses
  have hposition : (opening.cursor.head?.map (·.position)).getD 0 = 256 := by
    rw [herror] at hreported
    simpa using hreported.symm
  have hvalue := (hformula _ (yield_oppositeFormula 255)).2.2 hfactors
  have hrefused := (hformula' _ (yield_oppositeFormula 256)).2.1 (by
    rw [levels_oppositeFormula]
    decide)
  exact ⟨⟨hfits, hsame hfits, hvalue⟩, hpasses, herror, ⟨opening, hfirst, hposition⟩, hrefused⟩

end TimeValue.Expression
