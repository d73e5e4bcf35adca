import TimeValue.Proofs.Expression.Derivation
import TimeValue.Proofs.Expression.Reading

/-!
# The evaluator accepts the grammar

Reading a part succeeds exactly where a derivation of the part stands at the head of the tokens
and its levels fit under the limit, and it gives the derivation's value.  In one direction the
derivation is built along the reading, by induction on the tokens left and the rank of the rule;
in the other the reading follows the derivation, and stops where it stops because the part ends
before the tokens that are left.

## Main definitions

* `Spells` — tokens that start with a given yield.
* `Part.rule`, `Part.total` — the rule that reads a part, and the value it then gives.
* `Part.Row.operation?` — the operations of the symbols that join a row.
* `Part.Derives` — a derivation at the head of tokens, within the levels.
* `Derivation.IsRead` — a derivation is read where it stands.

## Main results

* `Part.induction_on_rules` — induction along a reading, with one case for the rules that are alike.
* `derives_of_read` — what is read is derived.
* `Derivation.isRead` — what is derived is read.
* `evaluateTokens_eq_ok_iff_derivation` — **tokens have a value exactly if they are derived within
  the levels, and it is the value of their one derivation.**
-/

namespace TimeValue.Expression

variable {α : Type}

/-! ### Tokens at the head -/

/-- `tokens` start with the tokens `xs`, wherever those stand, and go on with `rest`. -/
def Spells (xs : List (Token α)) (tokens rest : List (Spanned α)) : Prop :=
  ∃ used, used.map (·.token) = xs ∧ used ++ rest = tokens

theorem spells_nil_iff {tokens rest : List (Spanned α)} :
    Spells [] tokens rest ↔ tokens = rest := by
  constructor
  · rintro ⟨used, hused, rfl⟩
    rw [List.map_eq_nil_iff.1 hused, List.nil_append]
  · rintro rfl
    exact ⟨[], rfl, rfl⟩

theorem spells_cons_iff {x : Token α} {xs : List (Token α)} {tokens rest : List (Spanned α)} :
    Spells (x :: xs) tokens rest ↔
      ∃ position next, tokens = ⟨x, position⟩ :: next ∧ Spells xs next rest := by
  constructor
  · rintro ⟨used, hused, rfl⟩
    obtain ⟨⟨y, position⟩, used', rfl, rfl, hused'⟩ := List.map_eq_cons_iff.1 hused
    exact ⟨position, used' ++ rest, rfl, used', hused', rfl⟩
  · rintro ⟨position, next, rfl, used, rfl, rfl⟩
    exact ⟨⟨x, position⟩ :: used, rfl, rfl⟩

theorem spells_append_iff {xs ys : List (Token α)} {tokens rest : List (Spanned α)} :
    Spells (xs ++ ys) tokens rest ↔ ∃ mid, Spells xs tokens mid ∧ Spells ys mid rest := by
  constructor
  · rintro ⟨used, hused, rfl⟩
    obtain ⟨used₁, used₂, rfl, rfl, rfl⟩ := List.map_eq_append_iff.1 hused
    exact ⟨used₂ ++ rest, ⟨used₁, rfl, by simp⟩, used₂, rfl, rfl⟩
  · rintro ⟨mid, ⟨used₁, rfl, rfl⟩, used₂, rfl, rfl⟩
    exact ⟨used₁ ++ used₂, by simp, by simp⟩

/-- Tokens of which nothing is left are spelled in full. -/
theorem spells_all_iff {xs : List (Token α)} {tokens : List (Spanned α)} :
    Spells xs tokens [] ↔ xs = tokens.map (·.token) := by
  constructor
  · rintro ⟨used, rfl, rfl⟩
    rw [List.append_nil]
  · rintro rfl
    exact ⟨tokens, rfl, List.append_nil _⟩

theorem Spells.map_token {xs : List (Token α)} {tokens rest : List (Spanned α)}
    (h : Spells xs tokens rest) : tokens.map (·.token) = xs ++ rest.map (·.token) := by
  obtain ⟨used, rfl, rfl⟩ := h
  exact List.map_append

/-! ### The rule of a part -/

/-- The rule that reads a part; a repetition is read after a value `left`. -/
def Part.rule (left : α) : Part → Rule α
  | .expression => .expression
  | .sums => .sums left
  | .term => .term
  | .products => .products left
  | .factor => .factor
  | .power => .power
  | .exponent => .exponent
  | .primary => .primary

/-- The value that the rule of a part gives. -/
def Part.total (left : α) : (p : Part) → p.Worth α → α
  | .expression, v => v
  | .sums, f => f left
  | .term, v => v
  | .products, f => f left
  | .factor, v => v
  | .power, v => v
  | .exponent, v => v
  | .primary, v => v

/-- Bounds how many rules can be read in turn before the tokens run out. -/
def Part.effort (tokens : List (Spanned α)) (p : Part) : Nat :=
  6 * tokens.length + (p.rule ()).rank

theorem Part.effort_lt_of_length {p q : Part} {tokens next : List (Spanned α)}
    (h : next.length < tokens.length) : q.effort next < p.effort tokens := by
  cases p <;> cases q <;> simp only [effort, rule, Rule.rank] <;> omega

theorem Part.effort_lt_of_le {p q : Part} {tokens next : List (Spanned α)}
    (hrank : (q.rule ()).rank < (p.rule ()).rank) (h : next.length ≤ tokens.length) :
    q.effort next < p.effort tokens := by
  rw [effort, effort]
  omega

/-- To show something of each part at all tokens, it may be assumed of the parts that its rule goes
on to: at the same tokens where none has been taken, and at all shorter ones where one has. -/
theorem Part.induction_on_rules {motive : Part → List (Spanned α) → Prop}
    (whole : ∀ {whole part again : Part} (_ : Part.Row whole part again)
      (tokens : List (Spanned α)), motive part tokens →
      (∀ mid : List (Spanned α), mid.length ≤ tokens.length → motive again mid) →
      motive whole tokens)
    (again : ∀ {whole part again : Part} (_ : Part.Row whole part again)
      (tokens : List (Spanned α)),
      (∀ next : List (Spanned α), next.length < tokens.length → motive part next) →
      (∀ mid : List (Spanned α), mid.length < tokens.length → motive again mid) →
      motive again tokens)
    (signed : ∀ {p : Part} (_ : Part.Signed p) (tokens : List (Spanned α)),
      (∀ next : List (Spanned α), next.length < tokens.length → motive p next) →
      motive .power tokens → motive p tokens)
    (power : ∀ tokens : List (Spanned α), motive .primary tokens →
      (∀ next : List (Spanned α), next.length < tokens.length → motive .exponent next) →
      motive .power tokens)
    (primary : ∀ tokens : List (Spanned α),
      (∀ next : List (Spanned α), next.length < tokens.length → motive .expression next) →
      motive .primary tokens)
    (p : Part) (tokens : List (Spanned α)) : motive p tokens := by
  -- a rule that takes no token goes on to one of lower rank, so less effort is left either way
  induction h : p.effort tokens using Nat.strongRecOn generalizing p tokens with
  | ind n ih =>
    subst h
    have shorter (q : Part) (next : List (Spanned α)) (h : next.length < tokens.length) :
        motive q next := ih _ (effort_lt_of_length h) q next rfl
    have lower (q : Part) (hrank : (q.rule ()).rank < (p.rule ()).rank) (mid : List (Spanned α))
        (h : mid.length ≤ tokens.length) : motive q mid := ih _ (effort_lt_of_le hrank h) q mid rfl
    cases p with
    | expression =>
      exact whole .sums tokens (lower .term (by decide) tokens (Nat.le_refl _))
        (lower .sums (by decide))
    | sums => exact again .sums tokens (shorter .term) (shorter .sums)
    | term =>
      exact whole .products tokens (lower .factor (by decide) tokens (Nat.le_refl _))
        (lower .products (by decide))
    | products => exact again .products tokens (shorter .factor) (shorter .products)
    | factor =>
      exact signed .factor tokens (shorter .factor)
        (lower .power (by decide) tokens (Nat.le_refl _))
    | power =>
      exact power tokens (lower .primary (by decide) tokens (Nat.le_refl _)) (shorter .exponent)
    | exponent =>
      exact signed .exponent tokens (shorter .exponent)
        (lower .power (by decide) tokens (Nat.le_refl _))
    | primary => exact primary tokens (shorter .expression)

theorem enter_atMost_eq_some_iff {limit level inner : Nat} :
    (Nesting.atMost limit).enter level = some inner ↔ level < limit ∧ inner = level + 1 := by
  simp only [Nesting.atMost]
  split <;> simp <;> omega

/-! ### Rows and signs -/

namespace Part

variable {whole part again p : Part}

namespace Row

section Rule

variable [Scalar α]

/-- The operation of a symbol that joins the parts. -/
def operation? : Row whole part again → Symbol → Option (α → α → α)
  | .sums => additive?
  | .products => multiplicative?

/-- The rules of the parts of a row differ from those of another row in their operators only. -/
theorem rule (row : Row whole part again) (left : α) :
    Expression.Row (whole.rule left) (part.rule left) (fun u => again.rule u) row.operation? := by
  cases row with
  | sums => exact .sums
  | products => exact .products

variable (row : Row whole part again)

theorem operation?_eq_some_iff {s : Symbol} {operation : α → α → α} :
    row.operation? s = some operation ↔
      ∃ o : row.Operator, row.symbol o = s ∧ row.apply o = operation := by
  constructor
  · intro h
    cases row with
    | sums =>
      cases s <;> simp only [operation?, additive?, Option.some.injEq, reduceCtorEq] at h
      · exact ⟨Additive.plus, rfl, h⟩
      · exact ⟨Additive.minus, rfl, h⟩
    | products =>
      cases s <;> simp only [operation?, multiplicative?, Option.some.injEq, reduceCtorEq] at h
      · exact ⟨Multiplicative.times, rfl, h⟩
      · exact ⟨Multiplicative.over, rfl, h⟩
  · rintro ⟨o, rfl, rfl⟩
    cases row <;> cases o <;> rfl

theorem operation?_eq_none_iff {s : Symbol} :
    (row.operation? s : Option (α → α → α)) = none ↔ s.strength ≠ again.strength := by
  cases row <;> cases s <;>
    simp [operation?, additive?, multiplicative?, Symbol.strength, strength]

/-- Tokens go on with a row if they start with one of its operators. -/
theorem joined?_eq_some_iff {operation : α → α → α} {tokens next : List (Spanned α)} :
    joined? row.operation? tokens = some (operation, next) ↔
      ∃ o position, row.apply o = operation ∧
        tokens = ⟨.symbol (row.symbol o), position⟩ :: next := by
  rw [Expression.joined?_eq_some_iff]
  constructor
  · rintro ⟨s, position, hs, rfl⟩
    obtain ⟨o, rfl, ho⟩ := row.operation?_eq_some_iff.1 hs
    exact ⟨o, position, ho, rfl⟩
  · rintro ⟨o, position, ho, rfl⟩
    exact ⟨row.symbol o, position, row.operation?_eq_some_iff.2 ⟨o, rfl, ho⟩, rfl⟩

/-- A repetition ends where its last part ends, if no operator follows. -/
theorem endsBefore_again_iff {tokens : List (Spanned α)} :
    again.EndsBefore (tokens.map (·.token)) ↔
      part.EndsBefore (tokens.map (·.token)) ∧ joined? row.operation? tokens = none := by
  simp only [joined?_eq_none_iff, row.operation?_eq_none_iff, EndsBefore, row.strength_part]
  constructor
  · intro h
    exact ⟨fun s hs => Nat.lt_succ_of_lt (h s hs), fun s hs => Nat.ne_of_lt (h s hs)⟩
  · rintro ⟨hends, hnone⟩ s hs
    exact Nat.lt_of_le_of_ne (Nat.le_of_lt_succ (hends s hs)) (hnone s hs)

end Rule

section Total

variable [Scalar α] (row : Row whole part again) (left : α) (first : Derivation α part)
  (others : Derivation α again) (o : row.Operator)

theorem total_join :
    whole.total left (row.join first others).value =
      again.total (part.total left first.value) others.value := by
  cases row <;> rfl

theorem total_stop : again.total left (row.stop : Derivation α again).value = left := by
  cases row <;> rfl

theorem total_next :
    again.total left (row.next o first others).value =
      again.total (row.apply o left (part.total left first.value)) others.value := by
  cases row <;> rfl

end Total

end Row

namespace Signed

/-- The rule of a part that a minus may start. -/
theorem rule (sign : Signed p) (left : α) : Expression.Signed (p.rule left) := by
  cases sign with
  | factor => exact .factor
  | exponent => exact .exponent

variable [Scalar α] (sign : Signed p) (left : α)

theorem total_minus (t : Derivation α p) :
    p.total left (sign.minus t).value = -p.total left t.value := by
  cases sign <;> rfl

theorem total_power (t : Derivation α .power) :
    p.total left (sign.power t).value = Part.power.total left t.value := by
  cases sign <;> rfl

end Signed

end Part

/-- A power ends where no exponent follows. -/
theorem endsBefore_power_iff {tokens : List (Spanned α)} :
    Part.power.EndsBefore (tokens.map (·.token)) ↔ after? .caret tokens = none := by
  rw [after?_eq_none_iff]
  constructor
  · intro h hcaret
    exact absurd (h .caret hcaret) (by decide)
  · intro hcaret s hs
    cases s with
    | caret => exact absurd hs hcaret
    | _ => decide

/-! ### What is read is derived -/

variable [Scalar α]

/-- A derivation of `p` stands at the head of `tokens`, before `rest`.  It fits between `level`
and `limit`, and makes `v` of `left`. -/
def Part.Derives (p : Part) (limit level : Nat) (left : α) (tokens : List (Spanned α)) (v : α)
    (rest : List (Spanned α)) : Prop :=
  ∃ t : Derivation α p,
    Spells t.yield tokens rest ∧ level + t.levels ≤ limit ∧ p.total left t.value = v

namespace Part.Derives

variable {whole part again p : Part} {limit level : Nat} {left u v : α}
  {tokens mid rest : List (Spanned α)}

theorem join (row : Part.Row whole part again) (h : part.Derives limit level left tokens u mid)
    (h' : again.Derives limit level u mid v rest) :
    whole.Derives limit level left tokens v rest := by
  obtain ⟨t, ht, hlevels, rfl⟩ := h
  obtain ⟨t', ht', hlevels', rfl⟩ := h'
  refine ⟨row.join t t', ?_, ?_, row.total_join left t t'⟩
  · rw [row.yield_join]
    exact spells_append_iff.2 ⟨mid, ht, ht'⟩
  · rw [row.levels_join]
    omega

theorem stop (row : Part.Row whole part again) (hlevel : level ≤ limit) :
    again.Derives limit level left tokens left tokens := by
  refine ⟨row.stop, ?_, ?_, row.total_stop left⟩
  · rw [row.yield_stop, spells_nil_iff]
  · rwa [row.levels_stop]

theorem next (row : Part.Row whole part again) (o : row.Operator) (position : Nat)
    (h : part.Derives limit level left tokens u mid)
    (h' : again.Derives limit level (row.apply o left u) mid v rest) :
    again.Derives limit level left (⟨.symbol (row.symbol o), position⟩ :: tokens) v rest := by
  obtain ⟨t, ht, hlevels, rfl⟩ := h
  obtain ⟨t', ht', hlevels', rfl⟩ := h'
  refine ⟨row.next o t t', ?_, ?_, row.total_next left t t' o⟩
  · rw [row.yield_next]
    exact spells_cons_iff.2 ⟨position, tokens, rfl, spells_append_iff.2 ⟨mid, ht, ht'⟩⟩
  · rw [row.levels_next]
    omega

theorem minus (sign : Part.Signed p) (position : Nat)
    (h : p.Derives limit (level + 1) left tokens v rest) :
    p.Derives limit level left (⟨.symbol .minus, position⟩ :: tokens) (-v) rest := by
  obtain ⟨t, ht, hlevels, rfl⟩ := h
  refine ⟨sign.minus t, ?_, ?_, sign.total_minus left t⟩
  · rw [sign.yield_minus]
    exact spells_cons_iff.2 ⟨position, tokens, rfl, ht⟩
  · rw [sign.levels_minus]
    omega

theorem unsigned (sign : Part.Signed p)
    (h : Part.power.Derives limit (level + 1) left tokens v rest) :
    p.Derives limit level left tokens v rest := by
  obtain ⟨t, ht, hlevels, rfl⟩ := h
  refine ⟨sign.power t, ?_, ?_, sign.total_power left t⟩
  · rwa [sign.yield_power]
  · rw [sign.levels_power]
    omega

theorem base (h : Part.primary.Derives limit level left tokens v rest) :
    Part.power.Derives limit level left tokens v rest := by
  obtain ⟨t, ht, hlevels, rfl⟩ := h
  exact ⟨.base t, ht, hlevels, rfl⟩

theorem power (position : Nat)
    (h : Part.primary.Derives limit level left tokens u (⟨.symbol .caret, position⟩ :: mid))
    (h' : Part.exponent.Derives limit level left mid v rest) :
    Part.power.Derives limit level left tokens (u ^ v) rest := by
  obtain ⟨t, ht, hlevels, rfl⟩ := h
  obtain ⟨t', ht', hlevels', rfl⟩ := h'
  refine ⟨.power t t',
    spells_append_iff.2 ⟨_, ht, spells_cons_iff.2 ⟨position, mid, rfl, ht'⟩⟩, ?_, rfl⟩
  show level + max t.levels t'.levels ≤ limit
  omega

theorem number (position : Nat) (hlevel : level ≤ limit) :
    Part.primary.Derives limit level left (⟨.number v, position⟩ :: rest) v rest :=
  ⟨.number v, spells_cons_iff.2 ⟨position, rest, rfl, spells_nil_iff.2 rfl⟩, hlevel, rfl⟩

theorem group (position position' : Nat)
    (h : Part.expression.Derives limit (level + 1) left tokens v
      (⟨.symbol .rightParen, position'⟩ :: rest)) :
    Part.primary.Derives limit level left (⟨.symbol .leftParen, position⟩ :: tokens) v rest := by
  obtain ⟨t, ht, hlevels, rfl⟩ := h
  refine ⟨.group t, spells_cons_iff.2 ⟨position, tokens, rfl, spells_append_iff.2
    ⟨_, ht, spells_cons_iff.2 ⟨position', rest, rfl, spells_nil_iff.2 rfl⟩⟩⟩, ?_, rfl⟩
  show level + (t.levels + 1) ≤ limit
  omega

end Part.Derives

/-- What is read from the head of `tokens` is derived there, and the level is as before. -/
theorem derives_of_read {limit : Nat} (p : Part) (tokens : List (Spanned α)) :
    ∀ (left : α) (level : Nat) (v : α) (rest : List (Spanned α)) (level' : Nat), level ≤ limit →
      read (.atMost limit) (p.rule left) tokens level = ⟨.ok v, rest, level'⟩ →
      level' = level ∧ p.Derives limit level left tokens v rest := by
  induction p, tokens using Part.induction_on_rules with
  | whole row tokens ihPart ihAgain =>
    intro left level v rest level' hlevel h
    rw [(row.rule left).read_whole, Outcome.andThen_eq_ok_iff] at h
    obtain ⟨u, mid, l, hfirst, hothers⟩ := h
    have hmid := length_le_of_read hfirst
    obtain ⟨rfl, hfirst⟩ := ihPart left _ _ _ _ hlevel hfirst
    obtain ⟨rfl, hothers⟩ := ihAgain mid hmid u _ _ _ _ hlevel hothers
    exact ⟨rfl, hfirst.join row hothers⟩
  | again row tokens ihPart ihAgain =>
    intro left level v rest level' hlevel h
    rw [(row.rule left).read_again, repetition_eq_ok_iff] at h
    rcases h with ⟨-, rfl, rfl, rfl⟩ | ⟨operation, next, u, mid, l, hjoined, hnext, hothers⟩
    · exact ⟨rfl, .stop row hlevel⟩
    · obtain ⟨o, position, rfl, rfl⟩ := row.joined?_eq_some_iff.1 hjoined
      -- the operator at least was taken before the repetition comes again
      have hmid := Nat.lt_succ_of_le (length_le_of_read hnext)
      obtain ⟨rfl, hnext⟩ := ihPart next (Nat.lt_succ_self _) left _ _ _ _ hlevel hnext
      obtain ⟨rfl, hothers⟩ := ihAgain mid hmid (row.apply o left u) _ _ _ _ hlevel hothers
      exact ⟨rfl, hnext.next row o position hothers⟩
  | signed sign tokens ihSigned ihPower =>
    intro left level v rest level' hlevel h
    rw [(sign.rule left).read_eq, signed_eq_ok_iff] at h
    obtain ⟨inner, l, henter, rfl, h⟩ := h
    obtain ⟨hlt, rfl⟩ := enter_atMost_eq_some_iff.1 henter
    rcases h with ⟨next, u, hminus, hread, rfl⟩ | ⟨-, hread⟩
    · obtain ⟨position, rfl⟩ := after?_eq_some_iff.1 hminus
      obtain ⟨rfl, hinner⟩ := ihSigned next (Nat.lt_succ_self _) left _ _ _ _ hlt hread
      exact ⟨rfl, hinner.minus sign position⟩
    · obtain ⟨rfl, hinner⟩ := ihPower left _ _ _ _ hlt hread
      exact ⟨rfl, hinner.unsigned sign⟩
  | power tokens ihPrimary ihExponent =>
    intro left level v rest level' hlevel h
    rw [Part.rule, read_power_eq_ok_iff] at h
    obtain ⟨u, mid, l, hbase, h⟩ := h
    have hmid := length_le_of_read hbase
    obtain ⟨rfl, hbase⟩ := ihPrimary left _ _ _ _ hlevel hbase
    rcases h with ⟨-, rfl, rfl, rfl⟩ | ⟨next, w, hcaret, hread, rfl⟩
    · exact ⟨rfl, hbase.base⟩
    · obtain ⟨position, rfl⟩ := after?_eq_some_iff.1 hcaret
      obtain ⟨rfl, hexponent⟩ := ihExponent next hmid left _ _ _ _ hlevel hread
      exact ⟨rfl, hbase.power position hexponent⟩
  | primary tokens ih =>
    intro left level v rest level' hlevel h
    rw [Part.rule, read_primary_eq_ok_iff] at h
    rcases h with ⟨position, rfl, rfl⟩ |
      ⟨position, next, inner, mid, l, rfl, henter, rfl, hread, hclose⟩
    · exact ⟨rfl, .number position hlevel⟩
    · obtain ⟨hlt, rfl⟩ := enter_atMost_eq_some_iff.1 henter
      obtain ⟨position', rfl⟩ := after?_eq_some_iff.1 hclose
      obtain ⟨rfl, hinner⟩ := ih next (Nat.lt_succ_self _) left _ _ _ _ hlt hread
      exact ⟨rfl, hinner.group position position'⟩

/-! ### What is derived is read -/

omit [Scalar α] in
/-- No minus stands before a power. -/
theorem after?_minus_eq_none (t : Derivation α .power) {tokens rest : List (Spanned α)}
    (h : Spells t.yield tokens rest) : after? .minus tokens = none := by
  cases hafter : after? .minus tokens with
  | none => rfl
  | some next =>
    obtain ⟨position, rfl⟩ := after?_eq_some_iff.1 hafter
    have htokens := h.map_token
    rw [List.map_cons] at htokens
    exact absurd htokens.symm (t.power_yield_ne_minus _ _)

/-- Where the derivation stands at the head of tokens, and ends there, it is read up to where it
ends. -/
def Derivation.IsRead {p : Part} (limit : Nat) (t : Derivation α p) : Prop :=
  ∀ (left : α) (level : Nat) (tokens rest : List (Spanned α)), Spells t.yield tokens rest →
    p.EndsBefore (rest.map (·.token)) → level + t.levels ≤ limit →
    read (.atMost limit) (p.rule left) tokens level = ⟨.ok (p.total left t.value), rest, level⟩

section IsRead

variable {limit : Nat} {whole part again p : Part}

namespace Part.Row

variable (row : Part.Row whole part again) {first : Derivation α part}
  {others : Derivation α again}

theorem isRead_join (hfirst : first.IsRead limit) (hothers : others.IsRead limit) :
    (row.join first others).IsRead limit := by
  intro left level tokens rest h hends hlevels
  rw [row.yield_join] at h
  rw [row.levels_join] at hlevels
  obtain ⟨mid, hpart, hagain⟩ := spells_append_iff.1 h
  have hends' := row.endsBefore_whole hends
  -- the first part ends before an operator or, without one, where the whole ends
  have hmid := hagain.map_token ▸ row.endsBefore others hends'
  rw [(row.rule left).read_whole, Outcome.andThen_eq_ok_iff, row.total_join]
  exact ⟨_, mid, level, hfirst left level tokens mid hpart hmid (by omega),
    hothers _ level mid rest hagain hends' (by omega)⟩

theorem isRead_stop : (row.stop : Derivation α again).IsRead limit := by
  intro left level tokens rest h hends hlevels
  rw [row.yield_stop, spells_nil_iff] at h
  subst h
  rw [(row.rule left).read_again, repetition_eq_ok_iff, row.total_stop]
  exact .inl ⟨(row.endsBefore_again_iff.1 hends).2, rfl, rfl, rfl⟩

theorem isRead_next (o : row.Operator) (hfirst : first.IsRead limit)
    (hothers : others.IsRead limit) : (row.next o first others).IsRead limit := by
  intro left level tokens rest h hends hlevels
  rw [row.yield_next] at h
  rw [row.levels_next] at hlevels
  obtain ⟨position, after, rfl, hafter⟩ := spells_cons_iff.1 h
  obtain ⟨mid, hpart, hagain⟩ := spells_append_iff.1 hafter
  have hmid := hagain.map_token ▸ row.endsBefore others hends
  rw [(row.rule left).read_again, repetition_eq_ok_iff, row.total_next]
  exact .inr ⟨row.apply o, after, _, mid, level, row.joined?_eq_some_iff.2 ⟨o, position, rfl, rfl⟩,
    hfirst left level after mid hpart hmid (by omega),
    hothers _ level mid rest hagain hends (by omega)⟩

end Part.Row

namespace Part.Signed

variable (sign : Part.Signed p)

theorem isRead_minus {t : Derivation α p} (ht : t.IsRead limit) :
    (sign.minus t).IsRead limit := by
  intro left level tokens rest h hends hlevels
  rw [sign.yield_minus] at h
  rw [sign.levels_minus] at hlevels
  obtain ⟨position, after, rfl, hafter⟩ := spells_cons_iff.1 h
  rw [(sign.rule left).read_eq, signed_eq_ok_iff, sign.total_minus]
  exact ⟨level + 1, level + 1, enter_atMost_eq_some_iff.2 ⟨by omega, rfl⟩, rfl,
    .inl ⟨after, _, after?_eq_some_iff.2 ⟨position, rfl⟩,
      ht left (level + 1) after rest hafter hends (by omega), rfl⟩⟩

theorem isRead_power {t : Derivation α .power} (ht : t.IsRead limit) :
    (sign.power t).IsRead limit := by
  intro left level tokens rest h hends hlevels
  rw [sign.yield_power] at h
  rw [sign.levels_power] at hlevels
  have hpower := hends.mono (Nat.le_of_eq sign.strength)
  -- a power never starts with a minus, so the reader looks for a power too
  rw [(sign.rule left).read_eq, signed_eq_ok_iff, sign.total_power]
  exact ⟨level + 1, level + 1, enter_atMost_eq_some_iff.2 ⟨by omega, rfl⟩, rfl,
    .inr ⟨after?_minus_eq_none t h, ht left (level + 1) tokens rest h hpower (by omega)⟩⟩

end Part.Signed

namespace Derivation

variable {t : Derivation α .primary}

theorem isRead_base (ht : t.IsRead limit) : (base t).IsRead limit := by
  intro left level tokens rest h hends hlevels
  have hread := ht left level tokens rest h (Part.endsBefore_primary _) hlevels
  rw [Part.rule, read_power_eq_ok_iff]
  exact ⟨_, rest, level, hread, .inl ⟨endsBefore_power_iff.1 hends, rfl, rfl, rfl⟩⟩

theorem isRead_power {e : Derivation α .exponent} (ht : t.IsRead limit) (he : e.IsRead limit) :
    (power t e).IsRead limit := by
  intro left level tokens rest h hends hlevels
  rw [levels] at hlevels
  obtain ⟨mid, hbase, hcaret⟩ := spells_append_iff.1 h
  obtain ⟨position, after, rfl, hexponent⟩ := spells_cons_iff.1 hcaret
  have hread := ht left level tokens _ hbase (Part.endsBefore_primary _) (by omega)
  rw [Part.rule, read_power_eq_ok_iff]
  exact ⟨_, _, level, hread, .inr ⟨after, _, after?_eq_some_iff.2 ⟨position, rfl⟩,
    he left level after rest hexponent hends (by omega), rfl⟩⟩

theorem isRead_number (x : α) : (number x).IsRead limit := by
  intro left level tokens rest h hends hlevels
  obtain ⟨position, after, rfl, hafter⟩ := spells_cons_iff.1 h
  obtain rfl := spells_nil_iff.1 hafter
  rw [Part.rule, read_primary_number]
  rfl

theorem isRead_group {t : Derivation α .expression} (ht : t.IsRead limit) :
    (group t).IsRead limit := by
  intro left level tokens rest h hends hlevels
  rw [levels] at hlevels
  obtain ⟨position, after, rfl, hafter⟩ := spells_cons_iff.1 h
  obtain ⟨mid, hinner, hclose⟩ := spells_append_iff.1 hafter
  obtain ⟨position', after', rfl, hafter'⟩ := spells_cons_iff.1 hclose
  obtain rfl := spells_nil_iff.1 hafter'
  -- the expression inside ends before its parenthesis, whatever follows the group
  have hread := ht left (level + 1) after _ hinner
    (by rw [List.map_cons, Part.endsBefore_symbol]; decide) (by omega)
  rw [Part.rule, read_primary_eq_ok_iff]
  exact .inr ⟨position, after, level + 1, _, level + 1, rfl,
    enter_atMost_eq_some_iff.2 ⟨by omega, rfl⟩, rfl, hread,
    after?_eq_some_iff.2 ⟨position', rfl⟩⟩

end Derivation

end IsRead

/-- **What is derived is read.** -/
theorem Derivation.isRead {p : Part} (limit : Nat) (t : Derivation α p) : t.IsRead limit := by
  induction t using induction_on_shape with
  | join row first others ihFirst ihOthers => exact row.isRead_join ihFirst ihOthers
  | stop row => exact row.isRead_stop
  | next row o next others ihNext ihOthers => exact row.isRead_next o ihNext ihOthers
  | minus sign t ih => exact sign.isRead_minus ih
  | unsigned sign t ih => exact sign.isRead_power ih
  | base t ih => exact isRead_base ih
  | power t e ihBase ihExponent => exact isRead_power ihBase ihExponent
  | number x => exact isRead_number x
  | group t ih => exact isRead_group ih

/-! ### The evaluator -/

/-- Tokens have a value if a formula is read that leaves no token, whatever counts the levels. -/
theorem evaluateWith_eq_ok_iff_read {σ : Type} {nesting : Nesting σ} {level : σ}
    {tokens : List (Spanned α)} {v : α} :
    evaluateWith nesting level tokens = .ok v ↔
      ∃ level', read nesting .expression tokens level = ⟨.ok v, [], level'⟩ := by
  simp only [evaluateWith, read]
  rcases parse nesting .expression tokens level with
    ⟨_ | v', _ | ⟨next, rest⟩, level, h⟩ <;>
    simp [Reply.outcome, finish, bind, Except.bind, pure, Except.pure]

/-- Tokens have a value if a formula is read that leaves no token. -/
theorem evaluateTokens_eq_ok_iff_read {tokens : List (Spanned α)} {v : α} :
    evaluateTokens tokens = .ok v ↔
      ∃ level, read (.atMost maxLevels) .expression tokens 0 = ⟨.ok v, [], level⟩ :=
  evaluateWith_eq_ok_iff_read

/-- **The evaluator accepts the grammar.**  Tokens have the value `v` exactly if they are the yield
of a derivation that is nested within the levels and has the value `v`; and no tokens are the
yield of two derivations. -/
theorem evaluateTokens_eq_ok_iff_derivation (α : Type) [Scalar α] :
    (∀ (tokens : List (Spanned α)) (v : α),
      evaluateTokens tokens = .ok v ↔
        ∃ t : Derivation α .expression,
          t.yield = tokens.map (·.token) ∧ t.levels ≤ maxLevels ∧ t.value = v) ∧
    ∀ t t' : Derivation α .expression, t.yield = t'.yield → t = t' := by
  refine ⟨fun tokens v => ?_, fun t t' h => ?_⟩
  · rw [evaluateTokens_eq_ok_iff_read]
    constructor
    · rintro ⟨level, hread⟩
      obtain ⟨-, t, hyield, hlevels, hvalue⟩ :=
        derives_of_read .expression tokens v 0 v [] level (Nat.zero_le _) hread
      exact ⟨t, spells_all_iff.1 hyield, by omega, hvalue⟩
    · rintro ⟨t, hyield, hlevels, rfl⟩
      exact ⟨0, t.isRead _ t.value 0 tokens [] (spells_all_iff.2 hyield)
        (Part.endsBefore_nil _) (by omega)⟩
  · exact (t.determined t' [] [] (Part.endsBefore_nil _) (Part.endsBefore_nil _)
      (by rw [h])).1

end TimeValue.Expression
