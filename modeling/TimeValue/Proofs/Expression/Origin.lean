import TimeValue.Proofs.Expression.Refusal

/-!
# Where errors come from

Only three things refuse tokens: a number or a group that is looked for and does not stand there, a
group whose end does not stand where its expression ends, and a level too many.  All other rules
hand on what is refused in them.  So an error tells of the place where it was raised: its token and
its position are those of the first token there.

## Main definitions

* `Raised` — an error as it is raised.
* `EvalError.PointsAt` — the token that an error names is the one where the reader stands.

## Main results

* `exists_raised_of_read` — **an error is raised at some of the tokens, and handed on.**
* `pointsAt_of_evaluateTokens` — where the reader stands when it gives up.
* `exists_unclosed_of_evaluateTokens` — where a group is reported that is not closed.
-/

namespace TimeValue.Expression

variable {α : Type}

/-- The error is raised where `tokens` are to be read, of which `rest` are then left. -/
inductive Raised (limit : Nat) : EvalError α → (tokens rest : List (Spanned α)) → Prop
  /-- No level can be opened before the tokens. -/
  | nestingTooDeep (tokens : List (Spanned α)) : Raised limit (tooDeep tokens) tokens tokens
  /-- There is no token to start an operand. -/
  | unexpectedEnd : Raised limit .unexpectedEnd [] []
  /-- The first token does not start an operand. -/
  | unexpectedToken {s : Symbol} (hs : s ≠ .leftParen) (position : Nat)
      (next : List (Spanned α)) :
      Raised limit (.unexpectedToken (.symbol s) position) (⟨.symbol s, position⟩ :: next)
        (⟨.symbol s, position⟩ :: next)
  /-- The first token starts a group, and behind the expression in it the group does not end. -/
  | unbalancedParentheses (position : Nat) {next rest : List (Spanned α)}
      (t : Derivation α .expression) (ht : Spells t.yield next rest) (hlevels : t.levels ≤ limit)
      (hends : Part.expression.EndsBefore (rest.map (·.token)))
      (hclosing : (rest.map (·.token)).head? ≠ some (.symbol .rightParen)) :
      Raised limit (.unbalancedParentheses position) (⟨.symbol .leftParen, position⟩ :: next) rest

/-- The error is raised at some of the tokens. -/
def RaisedWithin (limit : Nat) (e : EvalError α) (tokens rest : List (Spanned α)) : Prop :=
  ∃ begun, begun <:+ tokens ∧ Raised limit e begun rest

theorem Raised.within {limit : Nat} {e : EvalError α} {tokens rest : List (Spanned α)}
    (h : Raised limit e tokens rest) : RaisedWithin limit e tokens rest :=
  ⟨tokens, List.suffix_refl tokens, h⟩

theorem RaisedWithin.of_suffix {limit : Nat} {e : EvalError α}
    {mid tokens rest : List (Spanned α)} (h : RaisedWithin limit e mid rest)
    (hmid : mid <:+ tokens) : RaisedWithin limit e tokens rest := by
  obtain ⟨begun, hbegun, hraised⟩ := h
  exact ⟨begun, hbegun.trans hmid, hraised⟩

variable [Scalar α]

/-- What is left of the tokens after a part stands at their end. -/
theorem suffix_of_read {limit : Nat} (p : Part) {tokens rest : List (Spanned α)} (left : α)
    {level level' : Nat} {v : α} (hlevel : level ≤ limit)
    (h : read (.atMost limit) (p.rule left) tokens level = ⟨.ok v, rest, level'⟩) :
    level' = level ∧ rest <:+ tokens := by
  obtain ⟨hsame, t, ⟨used, -, rfl⟩, -⟩ := derives_of_read p tokens left level v rest level' hlevel h
  exact ⟨hsame, List.suffix_append used rest⟩

/-- An error of a group is raised before what is in it, in it, or behind it. -/
theorem raised_group {limit level level' position : Nat} {next rest : List (Spanned α)}
    {e : EvalError α}
    (hinner : ∀ {l : Nat}, level < limit →
      read (.atMost limit) .expression next (level + 1) = ⟨.error e, rest, l⟩ →
      RaisedWithin limit e next rest)
    (h : read (.atMost limit) .primary (⟨.symbol .leftParen, position⟩ :: next) level =
      ⟨.error e, rest, level'⟩) :
    RaisedWithin limit e (⟨.symbol .leftParen, position⟩ :: next) rest := by
  rcases read_group_eq_error_iff.1 h with ⟨-, rfl, rfl, -⟩ |
    ⟨inner, l, henter, -, hread | ⟨u, hread, hclose, rfl⟩⟩
  · exact (Raised.nestingTooDeep next).within.of_suffix (List.suffix_cons _ _)
  · obtain ⟨hlt, rfl⟩ := enter_atMost_eq_some_iff.1 henter
    exact (hinner hlt hread).of_suffix (List.suffix_cons _ _)
  · -- the expression was read, so it is the end of the group that is lacking
    obtain ⟨hlt, rfl⟩ := enter_atMost_eq_some_iff.1 henter
    obtain ⟨-, hends, t, ht, hlevels⟩ := exists_derivation_of_read .expression u hlt trivial hread
    exact (Raised.unbalancedParentheses position t ht (by omega) hends
      (after?_eq_none_iff.1 hclose)).within

/-- **An error is raised at some of the tokens, and handed on.** -/
theorem exists_raised_of_read {limit : Nat} (p : Part) (tokens : List (Spanned α)) :
    ∀ (left : α) (level : Nat) (e : EvalError α) (rest : List (Spanned α)) (level' : Nat),
      level ≤ limit →
      read (.atMost limit) (p.rule left) tokens level = ⟨.error e, rest, level'⟩ →
      RaisedWithin limit e tokens rest := by
  -- each rule hands on what a rule within it raises, at tokens that are still before it
  induction p, tokens using Part.induction_on_rules with
  | @whole _ part _ row tokens ihPart ihAgain =>
    intro left level e rest level' hlevel h
    rw [(row.rule left).read_whole, Outcome.andThen_eq_error_iff] at h
    rcases h with hfirst | ⟨u, mid, l, hfirst, hothers⟩
    · exact ihPart left _ _ _ _ hlevel hfirst
    · obtain ⟨rfl, hmid⟩ := suffix_of_read part left hlevel hfirst
      have hraised := ihAgain mid (length_le_of_read hfirst) u _ _ _ _ hlevel hothers
      exact hraised.of_suffix hmid
  | @again _ part _ row tokens ihPart ihAgain =>
    intro left level e rest level' hlevel h
    rw [(row.rule left).read_again, repetition_eq_error_iff] at h
    obtain ⟨operation, next, hjoined, h⟩ := h
    obtain ⟨o, position, rfl, rfl⟩ := row.joined?_eq_some_iff.1 hjoined
    rcases h with hnext | ⟨u, mid, l, hnext, hothers⟩
    · have hraised := ihPart next (Nat.lt_succ_self _) left _ _ _ _ hlevel hnext
      exact hraised.of_suffix (List.suffix_cons _ _)
    · obtain ⟨rfl, hmid⟩ := suffix_of_read part left hlevel hnext
      have hraised := ihAgain mid (Nat.lt_succ_of_le (length_le_of_read hnext)) _ _ _ _ _ hlevel
        hothers
      exact hraised.of_suffix (hmid.trans (List.suffix_cons _ _))
  | signed sign tokens ihSigned ihPower =>
    intro left level e rest level' hlevel h
    rw [(sign.rule left).read_eq, signed_eq_error_iff] at h
    rcases h with ⟨-, rfl, rfl, -⟩ | ⟨inner, l, henter, -, h⟩
    · exact (Raised.nestingTooDeep tokens).within
    · obtain ⟨hlt, rfl⟩ := enter_atMost_eq_some_iff.1 henter
      rcases h with ⟨next, hminus, hread⟩ | ⟨-, hread⟩
      · obtain ⟨position, rfl⟩ := after?_eq_some_iff.1 hminus
        have hraised := ihSigned next (Nat.lt_succ_self _) left _ _ _ _ hlt hread
        exact hraised.of_suffix (List.suffix_cons _ _)
      · exact ihPower left _ _ _ _ hlt hread
  | power tokens ihPrimary ihExponent =>
    intro left level e rest level' hlevel h
    rw [Part.rule, read_power_eq_error_iff] at h
    rcases h with hbase | ⟨u, mid, l, next, hbase, hcaret, hread⟩
    · exact ihPrimary left _ _ _ _ hlevel hbase
    · obtain ⟨rfl, hmid⟩ := suffix_of_read .primary left hlevel hbase
      obtain ⟨position, rfl⟩ := after?_eq_some_iff.1 hcaret
      have hraised := ihExponent next (length_le_of_read hbase) left _ _ _ _ hlevel hread
      exact hraised.of_suffix ((List.suffix_cons _ _).trans hmid)
  | primary tokens ih =>
    intro left level e rest level' hlevel h
    rw [Part.rule] at h
    rcases cases_of_read_primary_eq_error h with ⟨rfl, rfl, rfl⟩ |
      ⟨s, position, next, rfl, hs, rfl, rfl⟩ | ⟨position, next, rfl⟩
    · exact Raised.unexpectedEnd.within
    · exact (Raised.unexpectedToken hs position next).within
    · exact raised_group
        (fun hlt hread => ih next (Nat.lt_succ_self _) left _ _ _ _ hlt hread) h

/-! ### Where the reader stands -/

omit [Scalar α] in
/-- The error names the token at index `i`.  A group that is not closed is named by its start
instead, and where no token is left the position of too many levels is zero. -/
def EvalError.PointsAt (tokens : List (Spanned α)) (i : Nat) : EvalError α → Prop
  | .trailingInput token position => tokens[i]? = some ⟨token, position⟩
  | .unexpectedToken token position => tokens[i]? = some ⟨token, position⟩
  | .unbalancedParentheses position => ⟨.symbol .leftParen, position⟩ ∈ tokens
  | .nestingTooDeep position =>
    (∃ token, tokens[i]? = some ⟨token, position⟩) ∨ i = tokens.length ∧ position = 0
  | .unexpectedEnd => i = tokens.length
  -- no text is looked at any more
  | .illegalCharacter _ _ => False
  | .invalidNumber _ _ => False

omit [Scalar α] in
theorem Raised.pointsAt {limit : Nat} {e : EvalError α} {begun rest tokens : List (Spanned α)}
    (h : Raised limit e begun rest) (hbegun : begun <:+ tokens) :
    e.PointsAt tokens (tokens.length - rest.length) := by
  cases h with
  | nestingTooDeep =>
    rcases begun with _ | ⟨next, others⟩
    · exact .inr ⟨rfl, rfl⟩
    · exact .inl ⟨next.token, getElem?_of_suffix hbegun⟩
  | unexpectedEnd => rfl
  | unexpectedToken => exact getElem?_of_suffix hbegun
  | unbalancedParentheses => exact hbegun.subset List.mem_cons_self

/-- An error names the token where the reader stands when it gives up. -/
theorem pointsAt_of_evaluateTokens {tokens : List (Spanned α)} {e : EvalError α}
    (h : evaluateTokens tokens = .error e) : e.PointsAt tokens (cursor tokens) := by
  obtain ⟨rest, level, hread | ⟨v, next, others, hread, rfl, rfl⟩⟩ :=
    evaluateTokens_eq_error_iff_read.1 h
  · rw [cursor_eq_of_read hread]
    obtain ⟨begun, hbegun, hraised⟩ :=
      exists_raised_of_read .expression tokens 0 0 e rest level (Nat.zero_le _) hread
    exact hraised.pointsAt hbegun
  · rw [cursor_eq_of_read hread]
    exact getElem?_of_suffix (suffix_of_read .expression v (Nat.zero_le _) hread).2

/-! ### Groups that are not closed -/

/-- A group that is reported not to be closed starts at the position reported.  The expression in
it ends before a token that would start an operand, or at the end. -/
theorem exists_unclosed_of_evaluateTokens {tokens : List (Spanned α)} {position : Nat}
    (h : evaluateTokens tokens = .error (.unbalancedParentheses position)) :
    ∃ before inner rest, tokens = before ++ ⟨.symbol .leftParen, position⟩ :: (inner ++ rest) ∧
      (∃ t : Derivation α .expression, t.yield = inner.map (·.token) ∧ t.levels ≤ maxLevels) ∧
      ∀ s, (rest.map (·.token)).head? = some (.symbol s) → s = .leftParen := by
  obtain ⟨rest, level, hread | ⟨v, next, others, -, -, hne⟩⟩ :=
    evaluateTokens_eq_error_iff_read.1 h
  · obtain ⟨begun, ⟨before, rfl⟩, hraised⟩ :=
      exists_raised_of_read .expression tokens 0 0 _ rest level (Nat.zero_le _) hread
    -- of all that is raised only one is an open group
    generalize he : EvalError.unbalancedParentheses position = e at hraised
    cases hraised with
    | nestingTooDeep => cases rest <;> simp [tooDeep] at he
    | unexpectedEnd => simp at he
    | unexpectedToken => simp at he
    | unbalancedParentheses position' t ht hlevels hends hclosing =>
      obtain rfl := EvalError.unbalancedParentheses.inj he
      obtain ⟨inner, hinner, rfl⟩ := ht
      refine ⟨before, inner, rest, rfl, ⟨t, hinner.symm, hlevels⟩, fun s hs => ?_⟩
      have hstrength := hends s hs
      cases s with
      -- the expression goes on at any operator, and a closing parenthesis would end the group
      | leftParen => rfl
      | rightParen => exact absurd hs hclosing
      | plus | minus | star | slash | caret => exact absurd hstrength (by decide)
  · simp at hne

end TimeValue.Expression
