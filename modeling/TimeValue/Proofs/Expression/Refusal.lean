import TimeValue.Proofs.Expression.Acceptance
import TimeValue.Proofs.Expression.Unfinished

/-!
# The evaluator refuses at the first token it can

Tokens without a value are refused where the reader stands when it gives up, its cursor.  The tokens
before the cursor can be completed to a formula, and those up to the token at the cursor cannot: the
error is neither late nor premature.  Where too many levels are open, the tokens before the cursor
cannot be completed already.

A failing run is followed from the rule that was begun to the rule that gave up; the steps between
them make the place `Stuck`, and the rest is said of such places without a reader.

## Main definitions

* `Part.Fails` — reading a part fails where something is lacking.
* `cursor` — where the reader stands when it gives up.
* `Accepted`, `CompletedBy`, `RuledOut` — tokens that have a value, that come to have one, and that
  never do.
* `EvalError.IsEarliest` — an error is neither late nor premature.

## Main results

* `endsBefore_of_read` — a part is read as far as it goes.
* `fails_of_read` — a failing run ends where something is lacking.
* `evaluateTokens_error_isEarliest` — **every error is raised at the earliest token.**
-/

namespace TimeValue.Expression

variable {α : Type}

/-! ### Where reading ends -/

/-- A part is read as far as it goes. -/
theorem endsBefore_of_read [Scalar α] {σ : Type} {nesting : Nesting σ} (p : Part)
    (tokens : List (Spanned α)) :
    ∀ (left : α) (level : σ) (v : α) (rest : List (Spanned α)) (level' : σ),
      p.ReadyAt (tokens.map (·.token)) →
      read nesting (p.rule left) tokens level = ⟨.ok v, rest, level'⟩ →
      p.EndsBefore (rest.map (·.token)) := by
  induction p, tokens using Part.induction_on_rules with
  | whole row tokens ihPart ihAgain =>
    intro left level v rest level' hready h
    rw [(row.rule left).read_whole, Outcome.andThen_eq_ok_iff] at h
    obtain ⟨u, mid, l, hfirst, hothers⟩ := h
    have hmid := ihPart left _ _ _ _ (row.readyAt_part _) hfirst
    have hends :=
      ihAgain mid (length_le_of_read hfirst) u _ _ _ _ (row.readyAt_again.2 hmid) hothers
    exact hends.mono (Nat.le_of_eq row.strength_whole.symm)
  | again row tokens ihPart ihAgain =>
    intro left level v rest level' hready h
    rw [(row.rule left).read_again, repetition_eq_ok_iff] at h
    rcases h with ⟨hjoined, -, rfl, -⟩ | ⟨operation, next, u, mid, l, hjoined, hnext, hothers⟩
    · exact row.endsBefore_again_iff.2 ⟨row.readyAt_again.1 hready, hjoined⟩
    · obtain ⟨o, position, rfl, rfl⟩ := row.joined?_eq_some_iff.1 hjoined
      have hmid := ihPart next (Nat.lt_succ_self _) left _ _ _ _ (row.readyAt_part _) hnext
      exact ihAgain mid (Nat.lt_succ_of_le (length_le_of_read hnext)) _ _ _ _ _
        (row.readyAt_again.2 hmid) hothers
  | signed sign tokens ihSigned ihPower =>
    intro left level v rest level' hready h
    rw [(sign.rule left).read_eq, signed_eq_ok_iff] at h
    obtain ⟨inner, l, -, -, ⟨next, u, hminus, hread, -⟩ | ⟨hminus, hread⟩⟩ := h
    · obtain ⟨position, rfl⟩ := after?_eq_some_iff.1 hminus
      exact ihSigned next (Nat.lt_succ_self _) left _ _ _ _ (sign.readyAt _) hread
    · have hends := ihPower left _ _ _ _ (after?_eq_none_iff.1 hminus) hread
      exact hends.mono (Nat.le_of_eq sign.strength.symm)
  | power tokens ihPrimary ihExponent =>
    intro left level v rest level' hready h
    rw [Part.rule, read_power_eq_ok_iff] at h
    obtain ⟨u, mid, l, hbase, ⟨hcaret, -, rfl, -⟩ | ⟨next, w, hcaret, hread, -⟩⟩ := h
    · exact endsBefore_power_iff.2 hcaret
    · obtain ⟨position, rfl⟩ := after?_eq_some_iff.1 hcaret
      have hends := ihExponent next (length_le_of_read hbase) left _ _ _ _ trivial hread
      exact hends.mono (Nat.le_of_eq Part.Signed.exponent.strength)
  | primary tokens ih => exact fun _ _ _ _ _ _ _ => Part.endsBefore_primary _

/-! ### Where reading fails -/

/-- The error that a reader reports where there is a lack before `rest`. -/
inductive Lack.Reported : Lack → (rest : List (Spanned α)) → EvalError α → Prop
  /-- No token is left to be an operand. -/
  | unexpectedEnd : Reported .operand [] .unexpectedEnd
  /-- The next token is not an operand. -/
  | unexpectedToken (next : Spanned α) (others : List (Spanned α)) :
      Reported .operand (next :: others) (.unexpectedToken next.token next.position)
  /-- The group that starts at `position` does not end. -/
  | unbalancedParentheses (position : Nat) (rest : List (Spanned α)) :
      Reported .closing rest (.unbalancedParentheses position)
  /-- No level can be opened. -/
  | nestingTooDeep (rest : List (Spanned α)) : Reported .level rest (tooDeep rest)

/-- Reading the part at `level` fails with `e` before `rest`, where something is lacking. -/
def Part.Fails (p : Part) (limit level : Nat) (tokens : List (Spanned α)) (e : EvalError α)
    (rest : List (Spanned α)) : Prop :=
  ∃ lack n xs, Lack.Reported lack rest e ∧ Spells xs tokens rest ∧
    Stuck limit (rest.map (·.token)) p level lack n xs

/-- A part fails where one fails that a step leads to. -/
theorem Part.Fails.step {limit level : Nat} {p q : Part} (s : Step α p q)
    {tokens mid rest : List (Spanned α)} {e : EvalError α} (hbefore : Spells s.before tokens mid)
    (hlevels : level + s.levels ≤ limit) (hready : q.ReadyAt (mid.map (·.token)))
    (h : q.Fails limit (level + s.depth) mid e rest) : p.Fails limit level tokens e rest := by
  obtain ⟨lack, n, xs, hreported, hxs, hstuck⟩ := h
  rw [hxs.map_token] at hready
  exact ⟨lack, n + s.groups, s.before ++ xs, hreported, spells_append_iff.2 ⟨mid, hbefore, hxs⟩,
    .step s hlevels hready hstuck⟩

theorem spells_symbol (s : Symbol) (position : Nat) (next : List (Spanned α)) :
    Spells [.symbol s] (⟨.symbol s, position⟩ :: next) next :=
  spells_cons_iff.2 ⟨position, next, rfl, spells_nil_iff.2 rfl⟩

theorem enter_atMost_eq_none_iff {limit level : Nat} :
    (Nesting.atMost limit).enter level = none ↔ limit ≤ level := by
  simp [Nesting.atMost]

variable [Scalar α]

/-- What is read is derived, as far as it goes. -/
theorem exists_derivation_of_read (p : Part) (left : α) {limit level level' : Nat}
    {tokens rest : List (Spanned α)} {v : α} (hlevel : level ≤ limit)
    (hready : p.ReadyAt (tokens.map (·.token)))
    (h : read (.atMost limit) (p.rule left) tokens level = ⟨.ok v, rest, level'⟩) :
    level' = level ∧ p.EndsBefore (rest.map (·.token)) ∧
      ∃ t : Derivation α p, Spells t.yield tokens rest ∧ level + t.levels ≤ limit := by
  obtain ⟨hsame, t, ht, hlevels, -⟩ := derives_of_read p tokens left level v rest level' hlevel h
  exact ⟨hsame, endsBefore_of_read p tokens left level v rest level' hready h, t, ht, hlevels⟩

/-- A group fails before what is in it, in it, or behind it. -/
theorem fails_group {limit level level' position : Nat} {next rest : List (Spanned α)}
    {e : EvalError α} (hlevel : level ≤ limit)
    (hinner : ∀ {l : Nat}, level < limit →
      read (.atMost limit) .expression next (level + 1) = ⟨.error e, rest, l⟩ →
      Part.expression.Fails limit (level + 1) next e rest)
    (h : read (.atMost limit) .primary (⟨.symbol .leftParen, position⟩ :: next) level =
      ⟨.error e, rest, level'⟩) :
    Part.primary.Fails limit level (⟨.symbol .leftParen, position⟩ :: next) e rest := by
  rcases read_group_eq_error_iff.1 h with ⟨henter, rfl, rfl, -⟩ |
    ⟨inner, l, henter, -, hread | ⟨u, hread, hclose, rfl⟩⟩
  · exact ⟨.level, 1, [.symbol .leftParen], .nestingTooDeep next, spells_symbol _ _ _,
      .group (enter_atMost_eq_none_iff.1 henter)⟩
  · obtain ⟨hlt, rfl⟩ := enter_atMost_eq_some_iff.1 henter
    exact (hinner hlt hread).step .group (spells_symbol _ _ _) hlevel trivial
  · -- the expression was read, so it is the end of the group that is lacking
    obtain ⟨hlt, rfl⟩ := enter_atMost_eq_some_iff.1 henter
    obtain ⟨-, hmid, t, ht, hlevels⟩ := exists_derivation_of_read .expression u hlt trivial hread
    exact ⟨.closing, 1, _, .unbalancedParentheses position rest,
      spells_cons_iff.2 ⟨position, next, rfl, ht⟩,
      .closing t (by omega) hmid (after?_eq_none_iff.1 hclose)⟩

/-- **A failing run ends where something is lacking.** -/
theorem fails_of_read {limit : Nat} (p : Part) (tokens : List (Spanned α)) :
    ∀ (left : α) (level : Nat) (e : EvalError α) (rest : List (Spanned α)) (level' : Nat),
      level ≤ limit → p.ReadyAt (tokens.map (·.token)) →
      read (.atMost limit) (p.rule left) tokens level = ⟨.error e, rest, level'⟩ →
      p.Fails limit level tokens e rest := by
  -- where a part was done before the failure, its derivation is what the step keeps
  induction p, tokens using Part.induction_on_rules with
  | @whole _ part _ row tokens ihPart ihAgain =>
    intro left level e rest level' hlevel hready h
    have hpart := row.readyAt_part (tokens.map (·.token))
    rw [(row.rule left).read_whole, Outcome.andThen_eq_error_iff] at h
    rcases h with hfirst | ⟨u, mid, l, hfirst, hothers⟩
    · have hfails := ihPart left _ _ _ _ hlevel hpart hfirst
      exact hfails.step (.first row) (spells_nil_iff.2 rfl) hlevel hpart
    · obtain ⟨rfl, hmid, t, ht, hlevels⟩ :=
        exists_derivation_of_read part left hlevel hpart hfirst
      have hagain := row.readyAt_again.2 hmid
      have hfails := ihAgain mid (length_le_of_read hfirst) u _ _ _ _ hlevel hagain hothers
      exact hfails.step (.others row t) ht hlevels hagain
  | @again _ part _ row tokens ihPart ihAgain =>
    intro left level e rest level' hlevel hready h
    rw [(row.rule left).read_again, repetition_eq_error_iff] at h
    obtain ⟨operation, next, hjoined, h⟩ := h
    obtain ⟨o, position, rfl, rfl⟩ := row.joined?_eq_some_iff.1 hjoined
    have hpart := row.readyAt_part (next.map (·.token))
    rcases h with hnext | ⟨u, mid, l, hnext, hothers⟩
    · have hfails := ihPart next (Nat.lt_succ_self _) left _ _ _ _ hlevel hpart hnext
      exact hfails.step (.next row o) (spells_symbol _ _ _) hlevel hpart
    · obtain ⟨rfl, hmid, t, ht, hlevels⟩ :=
        exists_derivation_of_read part left hlevel hpart hnext
      have hagain := row.readyAt_again.2 hmid
      have hfails := ihAgain mid (Nat.lt_succ_of_le (length_le_of_read hnext)) _ _ _ _ _ hlevel
        hagain hothers
      exact hfails.step (.more row o t) (spells_cons_iff.2 ⟨position, next, rfl, ht⟩) hlevels hagain
  | signed sign tokens ihSigned ihPower =>
    intro left level e rest level' hlevel hready h
    rw [(sign.rule left).read_eq, signed_eq_error_iff] at h
    rcases h with ⟨henter, rfl, rfl, -⟩ | ⟨inner, l, henter, -, h⟩
    · exact ⟨.level, 0, [], .nestingTooDeep tokens, spells_nil_iff.2 rfl,
        .signed sign (enter_atMost_eq_none_iff.1 henter)⟩
    · obtain ⟨hlt, rfl⟩ := enter_atMost_eq_some_iff.1 henter
      rcases h with ⟨next, hminus, hread⟩ | ⟨hminus, hread⟩
      · obtain ⟨position, rfl⟩ := after?_eq_some_iff.1 hminus
        have hfails := ihSigned next (Nat.lt_succ_self _) left _ _ _ _ hlt (sign.readyAt _) hread
        exact hfails.step (.minus sign) (spells_symbol _ _ _) hlevel (sign.readyAt _)
      · have hpower := after?_eq_none_iff.1 hminus
        have hfails := ihPower left _ _ _ _ hlt hpower hread
        exact hfails.step (.unsigned sign) (spells_nil_iff.2 rfl) hlevel hpower
  | power tokens ihPrimary ihExponent =>
    intro left level e rest level' hlevel hready h
    rw [Part.rule, read_power_eq_error_iff] at h
    rcases h with hbase | ⟨u, mid, l, next, hbase, hcaret, hread⟩
    · have hfails := ihPrimary left _ _ _ _ hlevel trivial hbase
      exact hfails.step .base (spells_nil_iff.2 rfl) hlevel trivial
    · obtain ⟨rfl, -, t, ht, hlevels⟩ :=
        exists_derivation_of_read .primary left hlevel trivial hbase
      obtain ⟨position, rfl⟩ := after?_eq_some_iff.1 hcaret
      have hfails := ihExponent next (length_le_of_read hbase) left _ _ _ _ hlevel trivial hread
      exact hfails.step (.power t) (spells_append_iff.2 ⟨_, ht, spells_symbol _ _ _⟩) hlevels
        trivial
  | primary tokens ih =>
    intro left level e rest level' hlevel hready h
    rw [Part.rule] at h
    rcases cases_of_read_primary_eq_error h with ⟨rfl, rfl, rfl⟩ |
      ⟨s, position, next, rfl, hs, rfl, rfl⟩ | ⟨position, next, rfl⟩
    · exact ⟨.operand, 0, [], .unexpectedEnd, spells_nil_iff.2 rfl,
        .operand hlevel (by simp) (by simp)⟩
    · exact ⟨.operand, 0, [], .unexpectedToken _ next, spells_nil_iff.2 rfl,
        .operand hlevel (by simp) (by simp [hs])⟩
    · exact fails_group hlevel
        (fun hlt hread => ih next (Nat.lt_succ_self _) left _ _ _ _ hlt trivial hread) h

/-! ### The evaluator -/

/-- Where the reader stands when it gives up: how many tokens it has taken. -/
def cursor (tokens : List (Spanned α)) : Nat :=
  tokens.length - (parse (.atMost maxLevels) .expression tokens 0).rest.length

/-- The tokens have a value. -/
def Accepted (tokens : List (Spanned α)) : Prop :=
  ∃ v, evaluateTokens tokens = .ok v

/-- The tokens have a value once `supply` follows them, and then one parenthesis for each group that
they leave open. -/
def CompletedBy (supply : List (Token α)) (tokens : List (Spanned α)) : Prop :=
  ∀ more : List (Spanned α),
    more.map (·.token) =
        supply ++ List.replicate (openGroups (tokens.map (·.token))) (.symbol .rightParen) →
      Accepted (tokens ++ more)

/-- Nothing that starts with the tokens has a value. -/
def RuledOut (tokens : List (Spanned α)) : Prop :=
  ∀ longer : List (Spanned α),
    tokens.map (·.token) <+: longer.map (·.token) → ¬ Accepted longer

/-- The error is neither late nor premature where it is raised after `i` tokens.  The tokens before
are a formula or can be completed to one, and no formula starts with them and the next one.  Where
too many levels are open, no formula starts with the tokens before. -/
def EvalError.IsEarliest (tokens : List (Spanned α)) (i : Nat) : EvalError α → Prop
  | .trailingInput token position =>
    tokens[i]? = some ⟨token, position⟩ ∧
      Accepted (tokens.take i) ∧ RuledOut (tokens.take (i + 1))
  | .unbalancedParentheses _ =>
    CompletedBy [] (tokens.take i) ∧ (i < tokens.length → RuledOut (tokens.take (i + 1)))
  | .unexpectedToken token position =>
    tokens[i]? = some ⟨token, position⟩ ∧
      (∀ x, CompletedBy [.number x] (tokens.take i)) ∧ RuledOut (tokens.take (i + 1))
  | .unexpectedEnd => i = tokens.length ∧ ∀ x, CompletedBy [.number x] tokens
  | .nestingTooDeep _ => RuledOut (tokens.take i)
  -- no text is looked at any more
  | .illegalCharacter _ _ => False
  | .invalidNumber _ _ => False

theorem accepted_iff {tokens : List (Spanned α)} :
    Accepted tokens ↔
      ∃ t : Derivation α .expression, t.yield = tokens.map (·.token) ∧ t.levels ≤ maxLevels := by
  constructor
  · rintro ⟨v, h⟩
    obtain ⟨level, hread⟩ := evaluateTokens_eq_ok_iff_read.1 h
    obtain ⟨-, -, t, ht, hlevels⟩ :=
      exists_derivation_of_read .expression v (Nat.zero_le _) trivial hread
    exact ⟨t, spells_all_iff.1 ht, by omega⟩
  · rintro ⟨t, ht, hlevels⟩
    exact ⟨t.value, evaluateTokens_eq_ok_iff_read.2 ⟨0, t.isRead _ t.value 0 tokens []
      (spells_all_iff.2 ht) (Part.endsBefore_nil _) (by omega)⟩⟩

/-- Tokens have no value if reading a formula fails, or if it leaves tokens. -/
theorem evaluateTokens_eq_error_iff_read {tokens : List (Spanned α)} {e : EvalError α} :
    evaluateTokens tokens = .error e ↔
      ∃ rest level,
        read (.atMost maxLevels) .expression tokens 0 = ⟨.error e, rest, level⟩ ∨
        ∃ v next others, read (.atMost maxLevels) .expression tokens 0 = ⟨.ok v, rest, level⟩ ∧
          rest = next :: others ∧ .trailingInput next.token next.position = e := by
  simp only [evaluateTokens, evaluateWith, read]
  rcases parse (.atMost maxLevels) .expression tokens 0 with
    ⟨_ | v', _ | ⟨next, rest⟩, level, h⟩ <;>
    simp [Reply.outcome, finish, bind, Except.bind, pure, Except.pure]

theorem cursor_eq_of_read {tokens rest : List (Spanned α)} {r : Except (EvalError α) α}
    {level : Nat} (h : read (.atMost maxLevels) .expression tokens 0 = ⟨r, rest, level⟩) :
    cursor tokens = tokens.length - rest.length := by
  rw [cursor, show (parse (.atMost maxLevels) .expression tokens 0).rest = rest from
    congrArg Outcome.rest h]

section Spells

omit [Scalar α]

variable {xs : List (Token α)} {tokens rest : List (Spanned α)}

/-- The tokens that are spelled, and `k` more. -/
theorem Spells.map_take (h : Spells xs tokens rest) (k : Nat) :
    (tokens.take (tokens.length - rest.length + k)).map (·.token) =
      xs ++ (rest.map (·.token)).take k := by
  obtain ⟨used, rfl, rfl⟩ := h
  rw [List.length_append, Nat.add_sub_cancel, List.take_length_add_append, List.map_append,
    List.map_take]

/-- The first of the last tokens, counted from the start. -/
theorem getElem?_of_suffix (h : rest <:+ tokens) :
    tokens[tokens.length - rest.length]? = rest.head? := by
  obtain ⟨used, rfl⟩ := h
  rw [List.length_append, Nat.add_sub_cancel, List.getElem?_append_right (Nat.le_refl _),
    Nat.sub_self, List.head?_eq_getElem?]

/-- The token after those that are spelled. -/
theorem Spells.getElem?_length_sub (h : Spells xs tokens rest) :
    tokens[tokens.length - rest.length]? = rest.head? := by
  obtain ⟨used, -, rfl⟩ := h
  exact getElem?_of_suffix (List.suffix_append used rest)

end Spells

/-- Tokens that no derivation starts with are ruled out. -/
theorem ruledOut_of_excludes {tokens : List (Spanned α)}
    (h : Part.expression.Excludes maxLevels 0 (tokens.map (·.token))) : RuledOut tokens := by
  rintro longer ⟨zs, hzs⟩ haccepted
  obtain ⟨t, ht, hlevels⟩ := accepted_iff.1 haccepted
  exact h t [] zs (Part.endsBefore_nil _) (by omega) (by rw [List.append_nil, ht, hzs])

/-- Tokens before which something is lacking are completed by it. -/
theorem Stuck.completedBy {tokens : List (Spanned α)} {rest : List (Token α)} {lack : Lack}
    {n : Nat} (h : Stuck maxLevels rest .expression 0 lack n (tokens.map (·.token)))
    (hlack : lack ≠ .level) (x : α) : CompletedBy (lack.supply x) tokens := by
  intro more hmore
  obtain ⟨t, ht, hlevels⟩ := h.exists_derivation hlack x
  have hopen : openGroups (tokens.map (·.token)) = n := by
    rw [openGroups, h.foldl_track, Nat.zero_add]
  rw [hopen] at hmore
  exact accepted_iff.2 ⟨t, by rw [ht, List.map_append, hmore], by omega⟩

/-- A run that fails where something is lacking reports it at the earliest token. -/
theorem Part.Fails.isEarliest {tokens rest : List (Spanned α)} {e : EvalError α}
    (h : Part.expression.Fails maxLevels 0 tokens e rest) :
    e.IsEarliest tokens (tokens.length - rest.length) := by
  obtain ⟨lack, n, xs, hreported, hxs, hstuck⟩ := h
  have hbefore := hxs.map_take 0
  have hafter := hxs.map_take 1
  rw [Nat.add_zero, List.take_zero, List.append_nil] at hbefore
  rw [← hbefore] at hstuck
  cases hreported with
  | unexpectedEnd =>
    have hall := spells_all_iff.1 hxs
    rw [hbefore, hall] at hstuck
    exact ⟨rfl, hstuck.completedBy (by decide)⟩
  | unexpectedToken next others =>
    refine ⟨hxs.getElem?_length_sub, hstuck.completedBy (by decide), ruledOut_of_excludes ?_⟩
    rw [hafter, ← hbefore]
    exact hstuck.excludes (.inr (by simp))
  | unbalancedParentheses position rest =>
    refine ⟨hstuck.completedBy (by decide) 0, fun hlt => ruledOut_of_excludes ?_⟩
    have hrest : rest.map (·.token) ≠ [] := by
      intro hnil
      rw [List.map_eq_nil_iff.1 hnil] at hlt
      exact Nat.lt_irrefl _ hlt
    rw [hafter, ← hbefore]
    exact hstuck.excludes (.inr hrest)
  | nestingTooDeep rest =>
    have hruled : RuledOut (tokens.take (tokens.length - rest.length)) := by
      have hexcludes := hstuck.excludes (.inl rfl)
      rw [Lack.seen, List.append_nil] at hexcludes
      exact ruledOut_of_excludes hexcludes
    cases rest with
    | nil => exact hruled
    | cons next others => exact hruled

/-- A formula that is followed by a token which does not belong to it is reported there. -/
theorem trailingInput_isEarliest {tokens others : List (Spanned α)} {next : Spanned α}
    (t : Derivation α .expression) (ht : Spells t.yield tokens (next :: others))
    (hlevels : t.levels ≤ maxLevels)
    (hends : Part.expression.EndsBefore ((next :: others).map (·.token))) :
    (EvalError.trailingInput next.token next.position).IsEarliest tokens
      (tokens.length - (next :: others).length) := by
  have hbefore := ht.map_take 0
  rw [Nat.add_zero, List.take_zero, List.append_nil] at hbefore
  refine ⟨ht.getElem?_length_sub, accepted_iff.2 ⟨t, hbefore.symm, hlevels⟩, ?_⟩
  rintro longer ⟨zs, hzs⟩ haccepted
  obtain ⟨t', ht', -⟩ := accepted_iff.1 haccepted
  rw [ht.map_take 1, ← ht', List.append_assoc] at hzs
  -- two formulas at the head of the same tokens, of which only one could be followed by `next`
  obtain ⟨-, hnil⟩ := t'.determined t [] (next.token :: zs) (Part.endsBefore_nil _)
    (fun s hs => hends s hs) ((List.append_nil _).trans hzs.symm)
  exact absurd hnil (List.cons_ne_nil _ _).symm

/-- **Every error is raised at the earliest token.**  If tokens have no value, the error is neither
late nor premature where the reader stands when it gives up. -/
theorem evaluateTokens_error_isEarliest {tokens : List (Spanned α)} {e : EvalError α}
    (h : evaluateTokens tokens = .error e) : e.IsEarliest tokens (cursor tokens) := by
  obtain ⟨rest, level, hread | ⟨v, next, others, hread, rfl, rfl⟩⟩ :=
    evaluateTokens_eq_error_iff_read.1 h
  · rw [cursor_eq_of_read hread]
    have hfails := fails_of_read .expression tokens 0 0 e rest level (Nat.zero_le _) trivial hread
    exact hfails.isEarliest
  · rw [cursor_eq_of_read hread]
    obtain ⟨-, hends, t, ht, hlevels⟩ :=
      exists_derivation_of_read .expression v (Nat.zero_le _) trivial hread
    exact trailingInput_isEarliest t ht (by omega) hends

/-- The tokens of `(2*)`. -/
def unfinishedGroup : List (Spanned Float) :=
  [⟨.symbol .leftParen, 0⟩, ⟨.number 2, 1⟩, ⟨.symbol .star, 2⟩, ⟨.symbol .rightParen, 3⟩]

/-- `(2*)` is refused at its last token: any number and a parenthesis complete `(2*`, and nothing
that starts with `(2*)` is a formula. -/
theorem evaluateTokens_unfinishedGroup :
    evaluateTokens unfinishedGroup = .error (.unexpectedToken (.symbol .rightParen) 3) ∧
      cursor unfinishedGroup = 3 ∧
      (∀ x, CompletedBy [.number x] (unfinishedGroup.take 3)) ∧ RuledOut unfinishedGroup := by
  have herror : evaluateTokens unfinishedGroup =
      .error (.unexpectedToken (.symbol .rightParen) 3) := by cbv
  have hcursor : cursor unfinishedGroup = 3 := by cbv
  have hearliest := evaluateTokens_error_isEarliest herror
  rw [hcursor] at hearliest
  obtain ⟨-, hcompleted, hruled⟩ := hearliest
  exact ⟨herror, hcursor, hcompleted, hruled⟩

end TimeValue.Expression
