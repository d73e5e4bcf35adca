import TimeValue.Proofs.Expression.Derivation

/-!
# Derivations that are not finished

Reading from left to right one is, at any moment, in a part of a part of a formula, and so on
outwards.  A step leads from a part to the one that is being read in it, and keeps what of the outer
part is done; a derivation of the inner part finishes the outer one.  Where reading cannot go on,
the steps from the whole formula lead to what is lacking there: an operand, the end of a group, or a
level that may be opened.

Such a place is described without a reader.  If an operand or an end of a group is lacking, putting
it there and closing the groups finishes the formula.  And no derivation goes through the place with
the token that stands there: since the grammar is not ambiguous, it would have to take the same
steps.

## Main definitions

* `Part.ReadyAt` — where a reader looks for a part.
* `Step` — from a part to the part that is being read in it.
* `Lack`, `Stuck` — what is lacking, and where.
* `openGroups` — how many groups are not closed.
* `Part.Excludes` — no derivation starts with given tokens.

## Main results

* `Stuck.exists_derivation` — **what is lacking can be put there.**
* `Stuck.excludes` — **what stands there can not be there.**
* `Stuck.foldl_track` — the groups that are left open.
-/

namespace TimeValue.Expression

variable {α : Type}

/-! ### Where a part is looked for -/

/-- A reader that looks for the part at the head of `tokens` has made sure that what comes before it
in a sum or a product has ended, and that no minus is left out before a power. -/
def Part.ReadyAt : Part → List (Token α) → Prop
  | .sums, tokens => Part.term.EndsBefore tokens
  | .products, tokens => Part.factor.EndsBefore tokens
  | .power, tokens => tokens.head? ≠ some (.symbol .minus)
  | _, _ => True

/-- Before the repetition of a row the part before it has ended. -/
theorem Part.Row.readyAt_again {whole part again : Part} (row : Part.Row whole part again)
    {tokens : List (Token α)} : again.ReadyAt tokens ↔ part.EndsBefore tokens := by
  cases row <;> rfl

/-- Nothing has to be made sure of before the parts of a row. -/
theorem Part.Row.readyAt_part {whole part again : Part} (row : Part.Row whole part again)
    (tokens : List (Token α)) : part.ReadyAt tokens := by
  cases row <;> trivial

/-- Nothing has to be made sure of before a part that a minus may start. -/
theorem Part.Signed.readyAt {p : Part} (sign : Part.Signed p) (tokens : List (Token α)) :
    p.ReadyAt tokens := by
  cases sign <;> trivial

/-- What a reader makes sure of is seen at the first token. -/
theorem Part.ReadyAt.of_head?_eq {p : Part} {xs ys : List (Token α)} (h : p.ReadyAt xs)
    (hhead : xs.head? = ys.head?) : p.ReadyAt ys := by
  cases p with
  | sums => exact fun s hs => h s (hhead.trans hs)
  | products => exact fun s hs => h s (hhead.trans hs)
  | power => exact fun hs => h (hhead.trans hs)
  | _ => trivial

/-! ### Steps -/

/-- From a part to the part that is being read in it, after those that are done. -/
inductive Step (α : Type) : Part → Part → Type
  /-- To the first part of a row. -/
  | first {whole part again : Part} (row : Part.Row whole part again) : Step α whole part
  /-- To what joins the first part. -/
  | others {whole part again : Part} (row : Part.Row whole part again)
      (first : Derivation α part) : Step α whole again
  /-- To the part behind an operator. -/
  | next {whole part again : Part} (row : Part.Row whole part again) (operator : row.Operator) :
      Step α again part
  /-- To what joins the part behind an operator. -/
  | more {whole part again : Part} (row : Part.Row whole part again) (operator : row.Operator)
      (next : Derivation α part) : Step α again again
  /-- To the factor or the exponent behind a minus. -/
  | minus {p : Part} (sign : Part.Signed p) : Step α p p
  /-- To the power that a factor or an exponent is. -/
  | unsigned {p : Part} (sign : Part.Signed p) : Step α p .power
  /-- To the base of a power. -/
  | base : Step α .power .primary
  /-- To the exponent of a power. -/
  | power (base : Derivation α .primary) : Step α .power .exponent
  /-- Into a group. -/
  | group : Step α .primary .expression

namespace Step

/-- The tokens of a part that stand before the step. -/
def before : {p q : Part} → Step α p q → List (Token α)
  | _, _, .first _ => []
  | _, _, .others _ u => u.yield
  | _, _, .next row o => [.symbol (row.symbol o)]
  | _, _, .more row o u => .symbol (row.symbol o) :: u.yield
  | _, _, .minus _ => [.symbol .minus]
  | _, _, .unsigned _ => []
  | _, _, .base => []
  | _, _, .power u => u.yield ++ [.symbol .caret]
  | _, _, .group => [.symbol .leftParen]

/-- How many levels the step opens. -/
def depth : {p q : Part} → Step α p q → Nat
  | _, _, .minus _ => 1
  | _, _, .unsigned _ => 1
  | _, _, .group => 1
  | _, _, _ => 0

/-- How many groups the step opens. -/
def groups : {p q : Part} → Step α p q → Nat
  | _, _, .group => 1
  | _, _, _ => 0

/-- How many levels are needed before the step. -/
def levels : {p q : Part} → Step α p q → Nat
  | _, _, .others _ u => u.levels
  | _, _, .more _ _ u => u.levels
  | _, _, .power u => u.levels
  | _, _, _ => 0

/-- The outer part, ended as soon as the inner one is done. -/
def fill : {p q : Part} → Step α p q → Derivation α q → Derivation α p
  | _, _, .first row, t => row.join t row.stop
  | _, _, .others row u, t => row.join u t
  | _, _, .next row o, t => row.next o t row.stop
  | _, _, .more row o u, t => row.next o u t
  | _, _, .minus sign, t => sign.minus t
  | _, _, .unsigned sign, t => sign.power t
  | _, _, .base, t => .base t
  | _, _, .power u, t => .power u t
  | _, _, .group, t => .group t

variable {p q : Part}

theorem yield_fill (s : Step α p q) (t : Derivation α q) :
    (s.fill t).yield =
      s.before ++ (t.yield ++ List.replicate s.groups (.symbol .rightParen)) := by
  cases s <;> simp [fill, before, groups, Derivation.yield]

theorem levels_fill (s : Step α p q) (t : Derivation α q) :
    (s.fill t).levels = max s.levels (t.levels + s.depth) := by
  cases s <;> simp [fill, levels, depth, Derivation.levels]

end Step

/-! ### Open groups -/

/-- How many groups are open after a token, if `n` are before it. -/
def Token.track (n : Nat) : Token α → Nat
  | .symbol .leftParen => n + 1
  | .symbol .rightParen => n - 1
  | _ => n

/-- How many groups are not closed. -/
def openGroups (tokens : List (Token α)) : Nat :=
  tokens.foldl Token.track 0

/-- An operator opens no group and closes none. -/
@[simp] theorem Token.track_operator {whole part again : Part} (row : Part.Row whole part again)
    (o : row.Operator) (n : Nat) : (symbol (row.symbol o) : Token α).track n = n := by
  cases row <;> cases o <;> rfl

/-- A derivation closes the groups that it opens. -/
@[simp] theorem Derivation.foldl_track_yield {p : Part} (t : Derivation α p) :
    ∀ n, t.yield.foldl Token.track n = n := by
  induction t using induction_on_shape with
  | next row o next others ihNext ihOthers => simp [ihNext, ihOthers]
  | _ => simp_all [yield, Token.track]

theorem Step.foldl_track_before {p q : Part} (s : Step α p q) (n : Nat) :
    s.before.foldl Token.track n = n + s.groups := by
  cases s with
  | next row o | more row o t => simp [before, groups]
  | _ => simp [before, groups, Token.track]

/-! ### Where reading cannot go on -/

/-- What is lacking where reading cannot go on. -/
inductive Lack
  /-- A number or a group. -/
  | operand
  /-- The end of a group. -/
  | closing
  /-- A level that may be opened. -/
  | level
  deriving DecidableEq, Repr

/-- The tokens that supply what is lacking, with the operand `x`; a level is not supplied by any. -/
def Lack.supply (x : α) : Lack → List (Token α)
  | .operand => [.number x]
  | .closing => []
  | .level => []

/-- The tokens looked at to see the lack.  A level is opened without a look at what stands in it. -/
def Lack.seen (rest : List (Token α)) : Lack → List (Token α)
  | .level => []
  | _ => rest.take 1

/-- Within a part at `level`, after the tokens `xs` which leave `n` groups open, there is a lack
where `rest` follows. -/
inductive Stuck (limit : Nat) (rest : List (Token α)) :
    (p : Part) → (level : Nat) → Lack → (n : Nat) → (xs : List (Token α)) → Prop
  /-- A step from there. -/
  | step {p q : Part} {level n : Nat} {lack : Lack} {xs : List (Token α)} (s : Step α p q)
      (hlevels : level + s.levels ≤ limit) (hready : q.ReadyAt (xs ++ rest))
      (h : Stuck limit rest q (level + s.depth) lack n xs) :
      Stuck limit rest p level lack (n + s.groups) (s.before ++ xs)
  /-- Neither a number nor a group follows. -/
  | operand {level : Nat} (hlevel : level ≤ limit)
      (hnumber : ∀ x, rest.head? ≠ some (.number x))
      (hgroup : rest.head? ≠ some (.symbol .leftParen)) :
      Stuck limit rest .primary level .operand 0 []
  /-- The expression in a group has ended, but not before the end of the group. -/
  | closing {level : Nat} (t : Derivation α .expression) (hlevels : level + t.levels < limit)
      (hends : Part.expression.EndsBefore rest)
      (hclosing : rest.head? ≠ some (.symbol .rightParen)) :
      Stuck limit rest .primary level .closing 1 (.symbol .leftParen :: t.yield)
  /-- All levels are open before a factor or an exponent. -/
  | signed {p : Part} {level : Nat} (sign : Part.Signed p) (hlevel : limit ≤ level) :
      Stuck limit rest p level .level 0 []
  /-- All levels are open before what is in a group. -/
  | group {level : Nat} (hlevel : limit ≤ level) :
      Stuck limit rest .primary level .level 1 [.symbol .leftParen]

namespace Stuck

variable {limit level n : Nat} {p : Part} {lack : Lack} {rest xs : List (Token α)}

/-- **What is lacking can be put there.**  With an operand if one is lacking, and the open groups
closed, a derivation starts with the tokens read. -/
theorem exists_derivation (h : Stuck limit rest p level lack n xs) (hlack : lack ≠ .level) (x : α) :
    ∃ t : Derivation α p,
      t.yield = xs ++ (lack.supply x ++ List.replicate n (.symbol .rightParen)) ∧
        level + t.levels ≤ limit := by
  induction h with
  | step s hlevels hready h ih =>
    obtain ⟨t, hyield, ht⟩ := ih hlack
    refine ⟨s.fill t, ?_, ?_⟩
    · rw [s.yield_fill, hyield, ← List.replicate_append_replicate]
      simp only [List.append_assoc]
    · rw [s.levels_fill]
      omega
  | operand hlevel => exact ⟨.number x, rfl, hlevel⟩
  | closing t hlevels =>
    refine ⟨.group t, rfl, ?_⟩
    rw [Derivation.levels]
    omega
  | signed | group => exact absurd rfl hlack

/-- The groups that are left open. -/
theorem foldl_track (h : Stuck limit rest p level lack n xs) :
    ∀ d, xs.foldl Token.track d = d + n := by
  induction h with
  | step s hlevels hready h ih =>
    intro d
    rw [List.foldl_append, s.foldl_track_before, ih, Nat.add_assoc, Nat.add_comm s.groups]
  | operand => exact fun _ => rfl
  | closing t => exact fun d => by simp [Token.track]
  | signed => exact fun _ => rfl
  | group => exact fun _ => rfl

end Stuck

/-! ### What excludes a derivation -/

/-- No derivation of the part within the levels, that ends where it stands, starts with `xs`. -/
def Part.Excludes (p : Part) (limit level : Nat) (xs : List (Token α)) : Prop :=
  ∀ (t : Derivation α p) (ys zs : List (Token α)), p.EndsBefore ys → level + t.levels ≤ limit →
    t.yield ++ ys ≠ xs ++ zs

section Excludes

variable {limit level : Nat} {whole part again p : Part} {xs : List (Token α)}

namespace Part.Row

variable (row : Row whole part again)

/-- A row goes on with the operator that stands there. -/
theorem exists_next_of_yield (t : Derivation α again) (o : row.Operator) {ys zs : List (Token α)}
    (hends : again.EndsBefore ys) (h : t.yield ++ ys = .symbol (row.symbol o) :: zs) :
    ∃ next others, t = row.next o next others ∧ next.yield ++ (others.yield ++ ys) = zs := by
  obtain rfl | ⟨o', next, others, rfl⟩ := row.eq_stop_or_next t
  · rw [yield_stop, List.nil_append] at h
    exact absurd (h ▸ hends) (row.not_endsBefore o zs)
  · simp only [yield_next, List.cons_append, List.append_assoc, List.cons.injEq,
      Token.symbol.injEq] at h
    obtain rfl := row.symbol_injective h.1
    exact ⟨next, others, rfl, h.2⟩

include row

theorem excludes_first (h : part.Excludes limit level xs) : whole.Excludes limit level xs := by
  intro t ys zs hends hlevels heq
  obtain ⟨first, others, rfl⟩ := row.exists_join t
  rw [levels_join] at hlevels
  rw [yield_join, List.append_assoc] at heq
  exact h first _ zs (row.endsBefore others (row.endsBefore_whole hends)) (by omega) heq

theorem excludes_others (first : Derivation α part)
    (hready : ∀ zs, part.EndsBefore (xs ++ zs)) (h : again.Excludes limit level xs) :
    whole.Excludes limit level (first.yield ++ xs) := by
  intro t ys zs hends hlevels heq
  have hagain := row.endsBefore_whole hends
  obtain ⟨first', others, rfl⟩ := row.exists_join t
  rw [levels_join] at hlevels
  rw [yield_join, List.append_assoc, List.append_assoc] at heq
  -- both first parts end where they stand, so they are one
  obtain ⟨rfl, hrest⟩ :=
    first'.determined first _ _ (row.endsBefore others hagain) (hready zs) heq
  exact h others ys zs hagain (by omega) hrest

theorem excludes_next (o : row.Operator) (h : part.Excludes limit level xs) :
    again.Excludes limit level (.symbol (row.symbol o) :: xs) := by
  intro t ys zs hends hlevels heq
  obtain ⟨next, others, rfl, hnext⟩ := row.exists_next_of_yield t o hends heq
  rw [levels_next] at hlevels
  exact h next _ zs (row.endsBefore others hends) (by omega) hnext

theorem excludes_more (o : row.Operator) (next : Derivation α part)
    (hready : ∀ zs, part.EndsBefore (xs ++ zs)) (h : again.Excludes limit level xs) :
    again.Excludes limit level (.symbol (row.symbol o) :: (next.yield ++ xs)) := by
  intro t ys zs hends hlevels heq
  obtain ⟨next', others, rfl, hnext⟩ := row.exists_next_of_yield t o hends heq
  rw [levels_next] at hlevels
  obtain ⟨rfl, hrest⟩ :=
    next'.determined next _ _ (row.endsBefore others hends) (hready zs)
      (hnext.trans (List.append_assoc _ _ _))
  exact h others ys zs hends (by omega) hrest

end Part.Row

namespace Part.Signed

variable (sign : Signed p)

include sign

theorem excludes_minus (h : p.Excludes limit (level + 1) xs) :
    p.Excludes limit level (.symbol .minus :: xs) := by
  intro t ys zs hends hlevels heq
  obtain ⟨opposed, rfl⟩ | ⟨power, rfl⟩ := sign.eq_minus_or_power t
  · rw [levels_minus] at hlevels
    rw [yield_minus] at heq
    exact h opposed ys zs hends (by omega) (List.cons.inj heq).2
  · rw [yield_power] at heq
    exact power.power_yield_ne_minus _ _ heq

theorem excludes_unsigned (hready : ∀ zs, Part.power.ReadyAt (xs ++ zs))
    (h : Part.power.Excludes limit (level + 1) xs) : p.Excludes limit level xs := by
  intro t ys zs hends hlevels heq
  obtain ⟨opposed, rfl⟩ | ⟨power, rfl⟩ := sign.eq_minus_or_power t
  · -- the reader would have taken the minus
    refine hready zs ?_
    rw [← heq, yield_minus]
    rfl
  · rw [levels_power] at hlevels
    rw [yield_power] at heq
    exact h power ys zs (hends.mono (Nat.le_of_eq sign.strength)) (by omega) heq

/-- A factor or an exponent takes a level. -/
theorem excludes_of_le (hlevel : limit ≤ level) : p.Excludes limit level xs := by
  intro t ys zs hends hlevels
  obtain ⟨opposed, rfl⟩ | ⟨power, rfl⟩ := sign.eq_minus_or_power t
  · rw [levels_minus] at hlevels
    omega
  · rw [levels_power] at hlevels
    omega

end Part.Signed

theorem excludes_base (h : Part.primary.Excludes limit level xs) :
    Part.power.Excludes limit level xs := by
  intro t ys zs hends hlevels heq
  cases t with
  | base t => exact h t ys zs (Part.endsBefore_primary ys) hlevels heq
  | power t e =>
    rw [Derivation.levels] at hlevels
    rw [Derivation.yield, List.append_assoc] at heq
    exact h t _ zs (Part.endsBefore_primary _) (by omega) heq

theorem excludes_power (u : Derivation α .primary) (h : Part.exponent.Excludes limit level xs) :
    Part.power.Excludes limit level (u.yield ++ .symbol .caret :: xs) := by
  intro t ys zs hends hlevels heq
  rw [List.append_assoc, List.cons_append] at heq
  cases t with
  | base t =>
    obtain ⟨-, rfl⟩ := t.determined u _ _ (Part.endsBefore_primary _)
      (Part.endsBefore_primary _) heq
    rw [Part.endsBefore_symbol] at hends
    exact absurd hends (by decide)
  | power t e =>
    rw [Derivation.levels] at hlevels
    rw [Derivation.yield, List.append_assoc] at heq
    obtain ⟨-, hrest⟩ := t.determined u _ _ (Part.endsBefore_primary _)
      (Part.endsBefore_primary _) heq
    exact h e ys zs hends (by omega) (List.cons.inj hrest).2

theorem excludes_group (h : Part.expression.Excludes limit (level + 1) xs) :
    Part.primary.Excludes limit level (.symbol .leftParen :: xs) := by
  intro t ys zs hends hlevels heq
  cases t with
  | number x => simp [Derivation.yield] at heq
  | group t =>
    rw [Derivation.levels] at hlevels
    simp only [Derivation.yield, List.cons_append, List.append_assoc, List.cons.injEq,
      true_and] at heq
    refine h t _ zs ?_ (by omega) heq
    rw [List.nil_append, Part.endsBefore_symbol]
    decide

end Excludes

/-- A derivation of tokens that a reader has stepped through takes the same step, since the grammar
is not ambiguous. -/
theorem Step.excludes {limit level : Nat} {p q : Part} (s : Step α p q) {xs : List (Token α)}
    (hready : ∀ zs, q.ReadyAt (xs ++ zs)) (h : q.Excludes limit (level + s.depth) xs) :
    p.Excludes limit level (s.before ++ xs) := by
  cases s with
  | first row => exact row.excludes_first h
  | others row first =>
    exact row.excludes_others first (fun zs => row.readyAt_again.1 (hready zs)) h
  | next row o => exact row.excludes_next o h
  | more row o next =>
    exact row.excludes_more o next (fun zs => row.readyAt_again.1 (hready zs)) h
  | minus sign => exact sign.excludes_minus h
  | unsigned sign => exact sign.excludes_unsigned hready h
  | base => exact excludes_base h
  | power u =>
    rw [before, List.append_assoc]
    exact excludes_power u h
  | group => exact excludes_group h

namespace Stuck

variable {limit level n : Nat} {p : Part} {lack : Lack} {rest xs : List (Token α)}

/-- A level is opened at the start of a factor or an exponent, or in a group.  Within any other part
some token comes before it. -/
theorem ne_nil_of_level (h : Stuck limit rest p level lack n xs) (hlack : lack = .level)
    (hp : p = .sums ∨ p = .products ∨ p = .power ∨ p = .primary) : xs ≠ [] := by
  induction h with
  | step s hlevels hready h ih =>
    cases s with
    | base => exact ih hlack (by simp)
    | first row | others row => cases row <;> simp at hp
    | minus sign | unsigned sign => cases sign <;> simp at hp
    | next | more | power | group => simp [Step.before]
  | operand | closing => exact absurd hlack (by decide)
  | signed sign => cases sign <;> simp at hp
  | group => simp

/-- What a reader makes sure of is seen in the tokens up to the lack. -/
theorem readyAt_seen (h : Stuck limit rest p level lack n xs) (hrest : lack = .level ∨ rest ≠ [])
    (hready : p.ReadyAt (xs ++ rest)) (zs : List (Token α)) :
    p.ReadyAt (xs ++ lack.seen rest ++ zs) := by
  cases xs with
  | cons x xs => exact hready.of_head?_eq rfl
  | nil =>
    cases lack with
    | level =>
      -- a reader makes sure of something only where no level is opened at once
      cases p with
      | sums | products | power => exact absurd rfl (h.ne_nil_of_level rfl (by simp))
      | _ => trivial
    | operand | closing =>
      obtain ⟨next, others, rfl⟩ := List.exists_cons_of_ne_nil (hrest.resolve_left (by decide))
      exact hready.of_head?_eq rfl

/-- **What stands there can not be there.**  No derivation starts with the tokens up to the lack. -/
theorem excludes (h : Stuck limit rest p level lack n xs) (hrest : lack = .level ∨ rest ≠ []) :
    p.Excludes limit level (xs ++ lack.seen rest) := by
  induction h with
  | step s hlevels hready h ih =>
    rw [List.append_assoc]
    exact s.excludes (h.readyAt_seen hrest hready) (ih hrest)
  | operand hlevel hnumber hgroup =>
    obtain ⟨next, others, rfl⟩ := List.exists_cons_of_ne_nil (hrest.resolve_left (by decide))
    intro t ys zs hends hlevels heq
    cases t with
    | number x => exact hnumber x (congrArg some (List.cons.inj heq).1.symm)
    | group t' => exact hgroup (congrArg some (List.cons.inj heq).1.symm)
  | closing t hlevels hends hclosing =>
    obtain ⟨next, others, rfl⟩ := List.exists_cons_of_ne_nil (hrest.resolve_left (by decide))
    intro t' ys zs hends' hlevels' heq
    cases t' with
    | number x => simp [Derivation.yield] at heq
    | group t' =>
      simp only [Derivation.yield, List.cons_append, List.append_assoc, List.cons.injEq,
        true_and] at heq
      -- both readings of the expression end where they stand, so they end at the same token
      obtain ⟨-, hnext⟩ := t'.determined t _ (next :: zs)
        (by rw [List.nil_append, Part.endsBefore_symbol]; decide) (fun s hs => hends s hs) heq
      exact hclosing (congrArg some (List.cons.inj hnext).1.symm)
  | signed sign hlevel => exact sign.excludes_of_le hlevel
  | group hlevel =>
    intro t ys zs hends hlevels heq
    cases t with
    | number x => simp [Derivation.yield] at heq
    | group t' =>
      rw [Derivation.levels] at hlevels
      omega

end Stuck

end TimeValue.Expression
