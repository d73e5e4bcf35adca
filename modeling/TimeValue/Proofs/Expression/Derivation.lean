import TimeValue.Expression.Evaluate

/-!
# Derivations of formulas

The grammar of `TimeValue.Expression.Grammar`, said without a reader.  A derivation is a tree
with one node for each use of a rule; a repetition is the list of what is repeated.  From the
tree one reads off the tokens it derives, how deeply it is nested, and its value.

A part of a formula need not be followed by the end of the text, but it must not be followed by
a symbol that would belong to it: a term is not followed by `*`, a power not by `^`.  Under that
condition the tokens determine the derivation and where it ends.

Sums and products are made alike, and so are factors and exponents.  What holds of all derivations
is therefore shown once for a row of parts and once for a part behind minuses.

## Main definitions

* `Part`, `Derivation` — the grammar and its derivations.
* `Derivation.yield`, `Derivation.levels`, `Derivation.value` — tokens, nesting, value.
* `Part.Row`, `Part.Signed` — the parts that are made alike.
* `Part.EndsBefore` — no symbol that follows belongs to the part.
* `Derivation.Determined` — the tokens determine the derivation and where it ends.

## Main results

* `Derivation.induction_on_shape` — induction with one case for what is made alike.
* `Derivation.determined` — the grammar is not ambiguous.
-/

namespace TimeValue.Expression

variable {α : Type}

/-! ### The grammar -/

/-- What formulas are made of: six rules, and the repetitions in two of them. -/
inductive Part
  /-- Terms joined by operators. -/
  | expression
  /-- The operators and terms after the first term. -/
  | sums
  /-- Factors joined by operators. -/
  | term
  /-- The operators and factors after the first factor. -/
  | products
  /-- A power behind any number of minuses. -/
  | factor
  /-- A primary, perhaps with an exponent. -/
  | power
  /-- A power behind any number of minuses, to raise to. -/
  | exponent
  /-- A number or a group. -/
  | primary
  deriving DecidableEq, Repr

/-- The operators that join terms. -/
inductive Additive
  | plus
  | minus
  deriving DecidableEq, Repr

/-- The operators that join factors. -/
inductive Multiplicative
  | times
  | over
  deriving DecidableEq, Repr

/-- The symbol of an operator. -/
def Additive.symbol : Additive → Symbol
  | .plus => .plus
  | .minus => .minus

/-- The symbol of an operator. -/
def Multiplicative.symbol : Multiplicative → Symbol
  | .times => .star
  | .over => .slash

theorem Additive.symbol_injective {o o' : Additive} (h : o.symbol = o'.symbol) : o = o' := by
  cases o <;> cases o' <;> first | rfl | exact absurd h (by decide)

theorem Multiplicative.symbol_injective {o o' : Multiplicative} (h : o.symbol = o'.symbol) :
    o = o' := by
  cases o <;> cases o' <;> first | rfl | exact absurd h (by decide)

/-- The operation of an operator. -/
def Additive.apply [Add α] [Sub α] : Additive → α → α → α
  | .plus, x, y => x + y
  | .minus, x, y => x - y

/-- The operation of an operator. -/
def Multiplicative.apply [Mul α] [Div α] : Multiplicative → α → α → α
  | .times, x, y => x * y
  | .over, x, y => x / y

/-- Derivations of the parts of a formula. -/
inductive Derivation (α : Type) : Part → Type
  /-- `expression := term sums` -/
  | expression (first : Derivation α .term) (others : Derivation α .sums) :
      Derivation α .expression
  /-- `sums := ` -/
  | sumsEnd : Derivation α .sums
  /-- `sums := ('+' | '-') term sums` -/
  | sums (operator : Additive) (next : Derivation α .term) (others : Derivation α .sums) :
      Derivation α .sums
  /-- `term := factor products` -/
  | term (first : Derivation α .factor) (others : Derivation α .products) : Derivation α .term
  /-- `products := ` -/
  | productsEnd : Derivation α .products
  /-- `products := ('*' | '/') factor products` -/
  | products (operator : Multiplicative) (next : Derivation α .factor)
      (others : Derivation α .products) : Derivation α .products
  /-- `factor := '-' factor` -/
  | minusFactor (opposed : Derivation α .factor) : Derivation α .factor
  /-- `factor := power` -/
  | factor (power : Derivation α .power) : Derivation α .factor
  /-- `power := primary` -/
  | base (primary : Derivation α .primary) : Derivation α .power
  /-- `power := primary '^' exponent` -/
  | power (base : Derivation α .primary) (exponent : Derivation α .exponent) : Derivation α .power
  /-- `exponent := '-' exponent` -/
  | minusExponent (opposed : Derivation α .exponent) : Derivation α .exponent
  /-- `exponent := power` -/
  | exponent (power : Derivation α .power) : Derivation α .exponent
  /-- `primary := number` -/
  | number (value : α) : Derivation α .primary
  /-- `primary := '(' expression ')'` -/
  | group (inner : Derivation α .expression) : Derivation α .primary

/-- What a part is worth; a repetition is worth what it makes of the value before it. -/
def Part.Worth (α : Type) : Part → Type
  | .sums => α → α
  | .products => α → α
  | _ => α

namespace Derivation

/-- The tokens that a derivation derives. -/
def yield : {p : Part} → Derivation α p → List (Token α)
  | _, .expression first others => first.yield ++ others.yield
  | _, .sumsEnd => []
  | _, .sums o next others => .symbol o.symbol :: (next.yield ++ others.yield)
  | _, .term first others => first.yield ++ others.yield
  | _, .productsEnd => []
  | _, .products o next others => .symbol o.symbol :: (next.yield ++ others.yield)
  | _, .minusFactor t => .symbol .minus :: t.yield
  | _, .factor t => t.yield
  | _, .base t => t.yield
  | _, .power t e => t.yield ++ .symbol .caret :: e.yield
  | _, .minusExponent e => .symbol .minus :: e.yield
  | _, .exponent t => t.yield
  | _, .number x => [.number x]
  | _, .group t => .symbol .leftParen :: (t.yield ++ [.symbol .rightParen])

/-- How many factors, exponents and groups lie within one another. -/
def levels : {p : Part} → Derivation α p → Nat
  | _, .expression first others => max first.levels others.levels
  | _, .sumsEnd => 0
  | _, .sums _ next others => max next.levels others.levels
  | _, .term first others => max first.levels others.levels
  | _, .productsEnd => 0
  | _, .products _ next others => max next.levels others.levels
  | _, .minusFactor t => t.levels + 1
  | _, .factor t => t.levels + 1
  | _, .base t => t.levels
  | _, .power t e => max t.levels e.levels
  | _, .minusExponent e => e.levels + 1
  | _, .exponent t => t.levels + 1
  | _, .number _ => 0
  | _, .group t => t.levels + 1

/-- The value of a derivation.  Sums and products group to the left and powers to the right; a
minus applies to the whole power behind it. -/
def value [Scalar α] : {p : Part} → Derivation α p → p.Worth α
  | _, .expression first others => others.value first.value
  | _, .sumsEnd => fun left => left
  | _, .sums o next others => fun left => others.value (o.apply left next.value)
  | _, .term first others => others.value first.value
  | _, .productsEnd => fun left => left
  | _, .products o next others => fun left => others.value (o.apply left next.value)
  | _, .minusFactor t => (-· : α → α) t.value
  | _, .factor t => t.value
  | _, .base t => t.value
  | _, .power t e => (· ^ · : α → α → α) t.value e.value
  | _, .minusExponent e => (-· : α → α) e.value
  | _, .exponent t => t.value
  | _, .number x => x
  | _, .group t => t.value

end Derivation

/-! ### Parts that are made alike -/

/-- Parts of one kind joined by operators: what they make, the parts, and the repetition behind the
first of them. -/
inductive Part.Row : (whole part again : Part) → Type
  /-- Terms are joined to an expression. -/
  | sums : Row .expression .term .sums
  /-- Factors are joined to a term. -/
  | products : Row .term .factor .products

/-- A part that a minus may start. -/
inductive Part.Signed : Part → Type
  /-- A factor. -/
  | factor : Signed .factor
  /-- An exponent. -/
  | exponent : Signed .exponent

namespace Part

variable {whole part again p : Part}

namespace Row

/-- What joins the parts. -/
def Operator : Row whole part again → Type
  | .sums => Additive
  | .products => Multiplicative

/-- The symbol of an operator. -/
def symbol : (row : Row whole part again) → row.Operator → Symbol
  | .sums => Additive.symbol
  | .products => Multiplicative.symbol

/-- The operation of an operator. -/
def apply [Scalar α] : (row : Row whole part again) → row.Operator → α → α → α
  | .sums => Additive.apply
  | .products => Multiplicative.apply

/-- What a first part and the others make. -/
def join : Row whole part again → Derivation α part → Derivation α again → Derivation α whole
  | .sums => .expression
  | .products => .term

/-- There are no others. -/
def stop : Row whole part again → Derivation α again
  | .sums => .sumsEnd
  | .products => .productsEnd

/-- Behind an operator there is one more. -/
def next : (row : Row whole part again) → row.Operator → Derivation α part → Derivation α again →
    Derivation α again
  | .sums => .sums
  | .products => .products

variable (row : Row whole part again)

theorem symbol_injective {o o' : row.Operator} (h : row.symbol o = row.symbol o') : o = o' := by
  cases row with
  | sums => exact Additive.symbol_injective h
  | products => exact Multiplicative.symbol_injective h

theorem exists_join (t : Derivation α whole) : ∃ first others, t = row.join first others := by
  cases row with
  | sums => cases t with | expression first others => exact ⟨first, others, rfl⟩
  | products => cases t with | term first others => exact ⟨first, others, rfl⟩

theorem eq_stop_or_next (t : Derivation α again) :
    t = row.stop ∨ ∃ o next others, t = row.next o next others := by
  cases row with
  | sums =>
    cases t with
    | sumsEnd => exact .inl rfl
    | sums o next others => exact .inr ⟨o, next, others, rfl⟩
  | products =>
    cases t with
    | productsEnd => exact .inl rfl
    | products o next others => exact .inr ⟨o, next, others, rfl⟩

section Yield

variable (first : Derivation α part) (others : Derivation α again) (o : row.Operator)

@[simp] theorem yield_join : (row.join first others).yield = first.yield ++ others.yield := by
  cases row <;> rfl

@[simp] theorem yield_stop : (row.stop : Derivation α again).yield = [] := by
  cases row <;> rfl

@[simp] theorem yield_next :
    (row.next o first others).yield =
      .symbol (row.symbol o) :: (first.yield ++ others.yield) := by
  cases row <;> rfl

@[simp] theorem levels_join :
    (row.join first others).levels = max first.levels others.levels := by
  cases row <;> rfl

@[simp] theorem levels_stop : (row.stop : Derivation α again).levels = 0 := by
  cases row <;> rfl

@[simp] theorem levels_next :
    (row.next o first others).levels = max first.levels others.levels := by
  cases row <;> rfl

end Yield

/-- An operator is no parenthesis. -/
@[simp] theorem symbol_ne_leftParen (o : row.Operator) : row.symbol o ≠ .leftParen := by
  cases row <;> cases o <;> exact nofun

/-- An operator is no parenthesis. -/
@[simp] theorem symbol_ne_rightParen (o : row.Operator) : row.symbol o ≠ .rightParen := by
  cases row <;> cases o <;> exact nofun

/-- Induction over the parts of a row. -/
theorem induction_on_again {motive : Derivation α again → Prop} (stop : motive row.stop)
    (next : ∀ (o : row.Operator) (first : Derivation α part) (others : Derivation α again),
      motive others → motive (row.next o first others)) (t : Derivation α again) : motive t := by
  -- over the tokens: the constructors of a repetition are those of one row only
  induction hlength : t.yield.length using Nat.strongRecOn generalizing t with
  | ind n ih =>
    obtain rfl | ⟨o, first, others, rfl⟩ := row.eq_stop_or_next t
    · exact stop
    · refine next o first others (ih _ ?_ others rfl)
      rw [← hlength, yield_next, List.length_cons, List.length_append]
      omega

end Row

namespace Signed

/-- A part behind a minus. -/
def minus : Signed p → Derivation α p → Derivation α p
  | .factor => .minusFactor
  | .exponent => .minusExponent

/-- A part without a minus. -/
def power : Signed p → Derivation α .power → Derivation α p
  | .factor => .factor
  | .exponent => .exponent

variable (sign : Signed p)

theorem eq_minus_or_power (t : Derivation α p) :
    (∃ opposed, t = sign.minus opposed) ∨ ∃ power, t = sign.power power := by
  cases sign with
  | factor =>
    cases t with
    | minusFactor t => exact .inl ⟨t, rfl⟩
    | factor t => exact .inr ⟨t, rfl⟩
  | exponent =>
    cases t with
    | minusExponent t => exact .inl ⟨t, rfl⟩
    | exponent t => exact .inr ⟨t, rfl⟩

@[simp] theorem yield_minus (t : Derivation α p) :
    (sign.minus t).yield = .symbol .minus :: t.yield := by
  cases sign <;> rfl

@[simp] theorem yield_power (t : Derivation α .power) : (sign.power t).yield = t.yield := by
  cases sign <;> rfl

@[simp] theorem levels_minus (t : Derivation α p) : (sign.minus t).levels = t.levels + 1 := by
  cases sign <;> rfl

@[simp] theorem levels_power (t : Derivation α .power) :
    (sign.power t).levels = t.levels + 1 := by
  cases sign <;> rfl

end Signed

end Part

/-- Induction over derivations, with one case for each way in which parts are made. -/
theorem Derivation.induction_on_shape {motive : (p : Part) → Derivation α p → Prop}
    (join : ∀ {whole part again : Part} (row : Part.Row whole part again)
      (first : Derivation α part) (others : Derivation α again), motive part first →
      motive again others → motive whole (row.join first others))
    (stop : ∀ {whole part again : Part} (row : Part.Row whole part again), motive again row.stop)
    (next : ∀ {whole part again : Part} (row : Part.Row whole part again) (o : row.Operator)
      (next : Derivation α part) (others : Derivation α again), motive part next →
      motive again others → motive again (row.next o next others))
    (minus : ∀ {p : Part} (sign : Part.Signed p) (opposed : Derivation α p), motive p opposed →
      motive p (sign.minus opposed))
    (unsigned : ∀ {p : Part} (sign : Part.Signed p) (power : Derivation α .power),
      motive .power power → motive p (sign.power power))
    (base : ∀ primary : Derivation α .primary, motive .primary primary →
      motive .power (.base primary))
    (power : ∀ (base : Derivation α .primary) (exponent : Derivation α .exponent),
      motive .primary base → motive .exponent exponent → motive .power (.power base exponent))
    (number : ∀ x : α, motive .primary (.number x))
    (group : ∀ inner : Derivation α .expression, motive .expression inner →
      motive .primary (.group inner))
    {p : Part} (t : Derivation α p) : motive p t := by
  induction t with
  | expression first others ihFirst ihOthers => exact join .sums first others ihFirst ihOthers
  | sumsEnd => exact stop .sums
  | sums o t others ihNext ihOthers => exact next .sums o t others ihNext ihOthers
  | term first others ihFirst ihOthers => exact join .products first others ihFirst ihOthers
  | productsEnd => exact stop .products
  | products o t others ihNext ihOthers => exact next .products o t others ihNext ihOthers
  | minusFactor t ih => exact minus .factor t ih
  | factor t ih => exact unsigned .factor t ih
  | base t ih => exact base t ih
  | power t e ihBase ihExponent => exact power t e ihBase ihExponent
  | minusExponent t ih => exact minus .exponent t ih
  | exponent t ih => exact unsigned .exponent t ih
  | number x => exact number x
  | group t ih => exact group t ih

/-! ### Where a part ends -/

/-- How tightly a symbol binds what is beside it. -/
def Symbol.strength : Symbol → Nat
  | .leftParen => 0
  | .rightParen => 0
  | .plus => 1
  | .minus => 1
  | .star => 2
  | .slash => 2
  | .caret => 3

/-- How tightly a symbol has to bind to belong to a part that it follows. -/
def Part.strength : Part → Nat
  | .expression => 1
  | .sums => 1
  | .term => 2
  | .products => 2
  | .factor => 3
  | .power => 3
  | .exponent => 3
  | .primary => 4

/-- No symbol at the head of `tokens` would belong to a part that stands before them. -/
def Part.EndsBefore (p : Part) (tokens : List (Token α)) : Prop :=
  ∀ s, tokens.head? = some (.symbol s) → s.strength < p.strength

namespace Part

@[simp] theorem endsBefore_nil (p : Part) : p.EndsBefore ([] : List (Token α)) := by
  intro s h
  simp at h

@[simp] theorem endsBefore_symbol (p : Part) (s : Symbol) (tokens : List (Token α)) :
    p.EndsBefore (.symbol s :: tokens) ↔ s.strength < p.strength := by
  constructor
  · intro h
    exact h s rfl
  · intro h s' hs'
    simp only [List.head?_cons, Option.some.injEq, Token.symbol.injEq] at hs'
    exact hs' ▸ h

theorem EndsBefore.mono {p q : Part} (hpq : p.strength ≤ q.strength) {tokens : List (Token α)}
    (h : p.EndsBefore tokens) : q.EndsBefore tokens :=
  fun s hs => Nat.lt_of_lt_of_le (h s hs) hpq

namespace Row

variable {whole part again : Part} (row : Row whole part again)

/-- An operator belongs to the row before it. -/
theorem strength_symbol (o : row.Operator) : (row.symbol o).strength = again.strength := by
  cases row <;> cases o <;> rfl

include row

theorem strength_part : part.strength = again.strength + 1 := by
  cases row <;> rfl

theorem strength_whole : whole.strength = again.strength := by
  cases row <;> rfl

/-- A row does not end before an operator that goes on with it. -/
theorem not_endsBefore (o : row.Operator) (tokens : List (Token α)) :
    ¬ again.EndsBefore (.symbol (row.symbol o) :: tokens) := by
  rw [endsBefore_symbol, row.strength_symbol]
  exact Nat.lt_irrefl _

/-- A part ends before the operators that join it to others. -/
theorem endsBefore (t : Derivation α again) {tokens : List (Token α)}
    (h : again.EndsBefore tokens) : part.EndsBefore (t.yield ++ tokens) := by
  have hpart : again.strength < part.strength := by
    rw [row.strength_part]
    exact Nat.lt_succ_self _
  obtain rfl | ⟨o, next, others, rfl⟩ := row.eq_stop_or_next t
  · rw [yield_stop]
    exact h.mono (Nat.le_of_lt hpart)
  · rwa [yield_next, List.cons_append, endsBefore_symbol, row.strength_symbol]

/-- A row ends where its repetition does. -/
theorem endsBefore_whole {tokens : List (Token α)} (h : whole.EndsBefore tokens) :
    again.EndsBefore tokens :=
  h.mono (Nat.le_of_eq row.strength_whole)

end Row

/-- A part that a minus may start ends where its power does. -/
theorem Signed.strength {p : Part} (sign : Signed p) : p.strength = Part.power.strength := by
  cases sign <;> rfl

/-- Nothing that follows a primary belongs to it. -/
theorem endsBefore_primary (tokens : List (Token α)) : Part.primary.EndsBefore tokens := by
  intro s _
  cases s <;> decide

end Part

namespace Derivation

/-- A power starts with a number or a parenthesis. -/
theorem power_yield_ne_minus (t : Derivation α .power) (xs ys : List (Token α)) :
    t.yield ++ xs ≠ .symbol .minus :: ys := by
  have primary (u : Derivation α .primary) (zs : List (Token α)) :
      u.yield ++ zs ≠ .symbol .minus :: ys := by
    cases u <;> simp [yield]
  cases t with
  | base u => exact primary u xs
  | power u e =>
    rw [yield, List.append_assoc]
    exact primary u _

end Derivation

/-! ### The grammar is not ambiguous -/

/-- Tokens that start with the derivation determine it and where it ends, if on both readings the
part ends before what is left. -/
def Derivation.Determined {p : Part} (t : Derivation α p) : Prop :=
  ∀ (u : Derivation α p) (xs ys : List (Token α)), p.EndsBefore xs → p.EndsBefore ys →
    t.yield ++ xs = u.yield ++ ys → t = u ∧ xs = ys

section Determined

variable {whole part again p : Part}

namespace Part.Row

variable (row : Row whole part again) {first : Derivation α part} {others : Derivation α again}

theorem determined_join (hfirst : first.Determined) (hothers : others.Determined) :
    (row.join first others).Determined := by
  intro u xs ys hx hy h
  have hx' := row.endsBefore_whole hx
  have hy' := row.endsBefore_whole hy
  obtain ⟨first', others', rfl⟩ := row.exists_join u
  simp only [yield_join, List.append_assoc] at h
  obtain ⟨rfl, h'⟩ := hfirst first' _ _ (row.endsBefore others hx') (row.endsBefore others' hy') h
  obtain ⟨rfl, rfl⟩ := hothers others' _ _ hx' hy' h'
  exact ⟨rfl, rfl⟩

theorem determined_stop : (row.stop : Derivation α again).Determined := by
  intro u xs ys hx hy h
  obtain rfl | ⟨o, next, others, rfl⟩ := row.eq_stop_or_next u
  · exact ⟨rfl, by simpa using h⟩
  · -- `xs` would start with an operator that belongs to the row
    rw [yield_stop, yield_next, List.nil_append, List.cons_append] at h
    exact absurd (h ▸ hx) (row.not_endsBefore o _)

theorem determined_next (o : row.Operator) (hfirst : first.Determined)
    (hothers : others.Determined) : (row.next o first others).Determined := by
  intro u xs ys hx hy h
  obtain rfl | ⟨o', first', others', rfl⟩ := row.eq_stop_or_next u
  · rw [yield_stop, yield_next, List.nil_append, List.cons_append] at h
    exact absurd (h ▸ hy) (row.not_endsBefore o _)
  · simp only [yield_next, List.cons_append, List.append_assoc, List.cons.injEq,
      Token.symbol.injEq] at h
    obtain rfl := row.symbol_injective h.1
    obtain ⟨rfl, h'⟩ := hfirst first' _ _ (row.endsBefore others hx) (row.endsBefore others' hy) h.2
    obtain ⟨rfl, rfl⟩ := hothers others' _ _ hx hy h'
    exact ⟨rfl, rfl⟩

end Part.Row

namespace Part.Signed

variable (sign : Signed p)

theorem determined_minus {t : Derivation α p} (ht : t.Determined) : (sign.minus t).Determined := by
  intro u xs ys hx hy h
  obtain ⟨t', rfl⟩ | ⟨t', rfl⟩ := sign.eq_minus_or_power u
  · simp only [yield_minus, List.cons_append, List.cons.injEq, true_and] at h
    obtain ⟨rfl, rfl⟩ := ht t' _ _ hx hy h
    exact ⟨rfl, rfl⟩
  · rw [yield_minus, yield_power] at h
    exact absurd h.symm (t'.power_yield_ne_minus _ _)

theorem determined_power {t : Derivation α .power} (ht : t.Determined) :
    (sign.power t).Determined := by
  intro u xs ys hx hy h
  have hpower := Nat.le_of_eq sign.strength
  obtain ⟨t', rfl⟩ | ⟨t', rfl⟩ := sign.eq_minus_or_power u
  · rw [yield_minus, yield_power] at h
    exact absurd h (t.power_yield_ne_minus _ _)
  · rw [yield_power, yield_power] at h
    obtain ⟨rfl, rfl⟩ := ht t' _ _ (hx.mono hpower) (hy.mono hpower) h
    exact ⟨rfl, rfl⟩

end Part.Signed

namespace Derivation

variable {t : Derivation α .primary}

theorem determined_base (ht : t.Determined) : (base t).Determined := by
  intro u xs ys hx hy h
  cases u with
  | base t' =>
    obtain ⟨rfl, rfl⟩ := ht t' _ _ (Part.endsBefore_primary xs) (Part.endsBefore_primary ys) h
    exact ⟨rfl, rfl⟩
  | power t' e' =>
    -- the same primary, but `xs` would go on with an exponent
    rw [yield, yield, List.append_assoc] at h
    obtain ⟨rfl, rfl⟩ := ht t' _ _ (Part.endsBefore_primary _) (Part.endsBefore_primary _) h
    rw [List.cons_append, Part.endsBefore_symbol] at hx
    exact absurd hx (by decide)

theorem determined_power {e : Derivation α .exponent} (ht : t.Determined) (he : e.Determined) :
    (power t e).Determined := by
  intro u xs ys hx hy h
  cases u with
  | base t' =>
    -- the same primary, but `ys` would go on with an exponent
    rw [yield, yield, List.append_assoc] at h
    obtain ⟨rfl, rfl⟩ := ht t' _ _ (Part.endsBefore_primary _) (Part.endsBefore_primary _) h
    rw [List.cons_append, Part.endsBefore_symbol] at hy
    exact absurd hy (by decide)
  | power t' e' =>
    simp only [yield, List.append_assoc, List.cons_append] at h
    obtain ⟨rfl, h'⟩ := ht t' _ _ (Part.endsBefore_primary _) (Part.endsBefore_primary _) h
    obtain ⟨rfl, rfl⟩ := he e' _ _ hx hy (List.cons.inj h').2
    exact ⟨rfl, rfl⟩

theorem determined_number (x : α) : (number x).Determined := by
  intro u xs ys hx hy h
  cases u with
  | number x' =>
    simp only [yield, List.cons_append, List.nil_append, List.cons.injEq, Token.number.injEq] at h
    exact ⟨by rw [h.1], h.2⟩
  | group t' => simp [yield] at h

theorem determined_group {t : Derivation α .expression} (ht : t.Determined) :
    (group t).Determined := by
  intro u xs ys hx hy h
  cases u with
  | number x' => simp [yield] at h
  | group t' =>
    -- what is in the group ends before its own parenthesis
    simp only [yield, List.cons_append, List.append_assoc, List.cons.injEq, true_and,
      List.nil_append] at h
    have hclose (zs : List (Token α)) :
        Part.expression.EndsBefore (.symbol .rightParen :: zs) := by
      rw [Part.endsBefore_symbol]
      decide
    obtain ⟨rfl, h'⟩ := ht t' _ _ (hclose xs) (hclose ys) h
    exact ⟨rfl, (List.cons.inj h').2⟩

end Derivation

end Determined

/-- **The grammar is not ambiguous.** -/
theorem Derivation.determined {p : Part} (t : Derivation α p) : t.Determined := by
  induction t using induction_on_shape with
  | join row first others ihFirst ihOthers => exact row.determined_join ihFirst ihOthers
  | stop row => exact row.determined_stop
  | next row o next others ihNext ihOthers => exact row.determined_next o ihNext ihOthers
  | minus sign t ih => exact sign.determined_minus ih
  | unsigned sign t ih => exact sign.determined_power ih
  | base t ih => exact determined_base ih
  | power t e ihBase ihExponent => exact determined_power ihBase ihExponent
  | number x => exact determined_number x
  | group t ih => exact determined_group ih

end TimeValue.Expression
