import TimeValue.Proofs.Expression.Lexeme

/-!
# Formulas and their texts

A formula is a tree of numbers and operations.  Its text has parentheses only where the operation
around a formula binds more tightly than the formula itself, or as tightly on the side to which it
does not group.  The evaluator reads the tree back: what stands without parentheses in the text is
derived as the part that the grammar expects there.

## Main definitions

* `Formula` — numbers, opposites, sums, products and powers.
* `Formula.lexemes`, `Formula.text` — a formula with the parentheses that it needs.
* `Formula.value`, `Formula.levels` — what a formula is worth, and what nesting its text needs.
* `Written` — a row of lexemes that is derived, with its value and levels.

## Main results

* `Formula.isWritten` — each formula is derived as every part that it may stand for.
* `Formula.evaluate_text_eq_ok_iff` — **the text of a formula evaluates to the formula's value,
  exactly if its levels are within the limit.**
-/

namespace TimeValue.Expression

/-- Numbers and the operations on them. -/
inductive Formula
  /-- A number in digits. -/
  | literal (l : Literal)
  /-- The opposite of a formula. -/
  | minus (f : Formula)
  /-- A sum or a difference. -/
  | sum (o : Additive) (f g : Formula)
  /-- A product or a quotient. -/
  | product (o : Multiplicative) (f g : Formula)
  /-- A power. -/
  | power (f g : Formula)

/-- A row of lexemes, in parentheses if they are needed. -/
def enclose (needed : Bool) (ls : List Lexeme) : List Lexeme :=
  bif needed then .symbol .leftParen :: (ls ++ [.symbol .rightParen]) else ls

/-- The levels of a row in such parentheses.  A group takes one level, and it takes another one as a
factor or an exponent. -/
def enclosedLevels (needed : Bool) (levels : Nat) : Nat :=
  bif needed then levels + 2 else levels

namespace Formula

/-- A formula that `+` or `-` joins. -/
def isSum : Formula → Bool
  | .sum _ _ _ => true
  | _ => false

/-- A formula that one of `+`, `-`, `*` and `/` joins. -/
def isJoined : Formula → Bool
  | .sum _ _ _ => true
  | .product _ _ _ => true
  | _ => false

/-- A number alone. -/
def isLiteral : Formula → Bool
  | .literal _ => true
  | _ => false

/-- A formula with the parentheses that it needs. -/
def lexemes : Formula → List Lexeme
  | .literal l => [.literal l]
  | .minus f => .symbol .minus :: enclose f.isJoined f.lexemes
  | .sum o f g => f.lexemes ++ .symbol o.symbol :: enclose g.isSum g.lexemes
  | .product o f g =>
    enclose f.isSum f.lexemes ++ .symbol o.symbol :: enclose g.isJoined g.lexemes
  | .power f g =>
    enclose (!f.isLiteral) f.lexemes ++ .symbol .caret :: enclose g.isJoined g.lexemes

-- the base of a power is in parentheses and its exponent is not
example (l : Literal) :
    (power (.minus (.literal l)) (.minus (.literal l))).lexemes =
      [.symbol .leftParen, .symbol .minus, .literal l, .symbol .rightParen, .symbol .caret,
        .symbol .minus, .literal l] := rfl

/-- The text of a formula. -/
def text (f : Formula) : String :=
  String.ofList (spelling f.lexemes)

/-- What a formula is worth. -/
def value {α : Type} [Scalar α] : Formula → α
  | .literal l => l.value
  | .minus f => -f.value
  | .sum o f g => o.apply f.value g.value
  | .product o f g => o.apply f.value g.value
  | .power f g => f.value ^ (g.value : α)

/-- How many factors, exponents and groups lie within one another in the text of a formula.  A base
is no factor of its own. -/
def levels : Formula → Nat
  | .literal _ => 1
  | .minus f => enclosedLevels f.isJoined f.levels + 1
  | .sum _ f g => max f.levels (enclosedLevels g.isSum g.levels)
  | .product _ f g => max (enclosedLevels f.isSum f.levels) (enclosedLevels g.isJoined g.levels)
  | .power f g =>
    max (bif f.isLiteral then 0 else f.levels + 1) (enclosedLevels g.isJoined g.levels) + 1

end Formula

/-! ### Literals stay apart -/

theorem separated_enclose {ls : List Lexeme} (h : Separated ls) (needed : Bool) :
    Separated (enclose needed ls) := by
  cases needed with
  | false => exact h
  | true =>
    rw [enclose, cond_true, separated_symbol_cons_iff, separated_append_symbol_iff]
    exact ⟨h, .nil⟩

/-- Between two literals of a formula stands an operator. -/
theorem Formula.separated_lexemes (f : Formula) : Separated f.lexemes := by
  induction f with
  | literal l => exact .singleton _
  | minus f ih => exact separated_symbol_cons_iff.2 (separated_enclose ih _)
  | sum o f g ihf ihg => exact separated_append_symbol_iff.2 ⟨ihf, separated_enclose ihg _⟩
  | product o f g ihf ihg =>
    exact separated_append_symbol_iff.2 ⟨separated_enclose ihf _, separated_enclose ihg _⟩
  | power f g ihf ihg =>
    exact separated_append_symbol_iff.2 ⟨separated_enclose ihf _, separated_enclose ihg _⟩

/-! ### Derivations of rows of lexemes -/

variable {α : Type} [Scalar α]

/-- The lexemes are derived as a part that is worth `v`, on `n` levels. -/
def Written (α : Type) [Scalar α] (p : Part) (ls : List Lexeme) (v : α) (n : Nat) : Prop :=
  ∃ t : Derivation α p,
    t.yield = ls.map Lexeme.token ∧ (∀ left, p.total left t.value = v) ∧ t.levels = n

/-- A row of parts with one more at its end, which is joined to all before it. -/
theorem Part.Row.exists_append {whole part again : Part} (row : Part.Row whole part again)
    (o : row.Operator) (last : Derivation α part) (t : Derivation α again) :
    ∃ t' : Derivation α again, t'.yield = t.yield ++ .symbol (row.symbol o) :: last.yield ∧
      (∀ left, again.total left t'.value =
        row.apply o (again.total left t.value) (part.total (again.total left t.value) last.value)) ∧
      t'.levels = max t.levels last.levels := by
  -- derivations grow to the right, and so the new part comes to stand within the last of them
  induction t using row.induction_on_again with
  | stop =>
    refine ⟨row.next o last row.stop, by simp, fun left => ?_, by simp⟩
    rw [row.total_next, row.total_stop, row.total_stop]
  | next o' first others ih =>
    obtain ⟨t', hyield, hvalue, hlevels⟩ := ih
    refine ⟨row.next o' first t', by simp [hyield], fun left => ?_, ?_⟩
    · rw [row.total_next, row.total_next, hvalue]
    · rw [row.levels_next, row.levels_next, hlevels, Nat.max_assoc]

namespace Written

variable {whole part again p : Part} {ls ls' : List Lexeme} {v v' : α} {n n' : Nat}

theorem number (l : Literal) : Written α .primary [.literal l] l.value 0 :=
  ⟨.number l.value, rfl, fun _ => rfl, rfl⟩

theorem group (h : Written α .expression ls v n) :
    Written α .primary (enclose true ls) v (n + 1) := by
  obtain ⟨t, ht, hv, rfl⟩ := h
  exact ⟨.group t, by simp [Derivation.yield, enclose, ht, Lexeme.token], hv, rfl⟩

theorem base (h : Written α .primary ls v n) : Written α .power ls v n := by
  obtain ⟨t, ht, hv, rfl⟩ := h
  exact ⟨.base t, ht, hv, rfl⟩

theorem power (h : Written α .primary ls v n) (h' : Written α .exponent ls' v' n') :
    Written α .power (ls ++ .symbol .caret :: ls') (v ^ v') (max n n') := by
  obtain ⟨t, ht, hv, rfl⟩ := h
  obtain ⟨u, hu, hv', rfl⟩ := h'
  refine ⟨.power t u, by simp [Derivation.yield, ht, hu, Lexeme.token], fun left => ?_, rfl⟩
  rw [← hv left, ← hv' left]
  rfl

/-- A power is a factor and an exponent. -/
theorem unsigned (sign : Part.Signed p) (h : Written α .power ls v n) :
    Written α p ls v (n + 1) := by
  obtain ⟨t, ht, hv, rfl⟩ := h
  refine ⟨sign.power t, by rw [sign.yield_power, ht], fun left => ?_, sign.levels_power t⟩
  rw [sign.total_power, hv]

theorem minus (sign : Part.Signed p) (h : Written α p ls v n) :
    Written α p (.symbol .minus :: ls) (-v) (n + 1) := by
  obtain ⟨t, ht, hv, rfl⟩ := h
  refine ⟨sign.minus t, ?_, fun left => ?_, sign.levels_minus t⟩
  · rw [sign.yield_minus, ht]
    rfl
  · rw [sign.total_minus, hv]

/-- A part alone is a row. -/
theorem alone (row : Part.Row whole part again) (h : Written α part ls v n) :
    Written α whole ls v n := by
  obtain ⟨t, ht, hv, rfl⟩ := h
  refine ⟨row.join t row.stop, by simp [ht], fun left => ?_, by simp⟩
  rw [row.total_join, row.total_stop, hv]

/-- A row goes on with an operator and a part. -/
theorem append (row : Part.Row whole part again) (o : row.Operator) (h : Written α whole ls v n)
    (h' : Written α part ls' v' n') :
    Written α whole (ls ++ .symbol (row.symbol o) :: ls') (row.apply o v v') (max n n') := by
  obtain ⟨t, ht, hv, rfl⟩ := h
  obtain ⟨u, hu, hv', rfl⟩ := h'
  -- the value of a row is read from its left, as the formula joins it
  obtain ⟨first, others, rfl⟩ := row.exists_join t
  obtain ⟨others', hyield, hvalue, hlevels⟩ := row.exists_append o u others
  refine ⟨row.join first others', ?_, fun left => ?_, ?_⟩
  · rw [row.yield_join, hyield, ← List.append_assoc, ← row.yield_join, ht, hu, List.map_append]
    rfl
  · rw [row.total_join, hvalue, ← row.total_join, hv, hv']
  · rw [row.levels_join, row.levels_join, hlevels, Nat.max_assoc]

/-- A row of lexemes has a value exactly if it is written within the levels. -/
theorem evaluate_eq_ok_iff (hls : Separated ls) (h : Written α .expression ls v n) {w : α} :
    evaluate (String.ofList (spelling ls)) = .ok w ↔ n ≤ maxLevels ∧ v = w := by
  obtain ⟨t, ht, hv, rfl⟩ := h
  have hvalue : t.value = v := hv v
  rw [evaluate_spelling_eq_ok_iff hls, ← hvalue]
  constructor
  · rintro ⟨u, hu, hlevels, rfl⟩
    -- there is no other derivation
    obtain ⟨rfl, -⟩ := t.determined u [] [] (Part.endsBefore_nil _)
      (Part.endsBefore_nil _) (by rw [ht, hu])
    exact ⟨hlevels, rfl⟩
  · rintro ⟨hlevels, rfl⟩
    exact ⟨t, ht, hlevels, rfl⟩

end Written

/-! ### The parts that a formula may stand for -/

namespace Formula

/-- Without parentheses a formula is an expression; what is no sum is a term, what is not joined
is a factor and an exponent, and a literal is a primary. -/
structure IsWritten (α : Type) [Scalar α] (f : Formula) : Prop where
  expression : Written α .expression f.lexemes f.value f.levels
  term : f.isSum = false → Written α .term f.lexemes f.value f.levels
  signed : f.isJoined = false → ∀ {p : Part}, Part.Signed p → Written α p f.lexemes f.value f.levels
  primary : f.isLiteral = true → Written α .primary f.lexemes f.value 0

namespace IsWritten

variable {f : Formula}

/-- What is a factor is each of the wider parts. -/
theorem of_signed (hliteral : f.isLiteral = false)
    (h : ∀ {p : Part}, Part.Signed p → Written α p f.lexemes f.value f.levels) :
    IsWritten α f where
  expression := ((h .factor).alone .products).alone .sums
  term _ := (h .factor).alone .products
  signed _ := h
  primary hf := absurd hf (by simp [hliteral])

theorem encloseTerm (h : IsWritten α f) :
    Written α .term (enclose f.isSum f.lexemes) f.value (enclosedLevels f.isSum f.levels) := by
  cases hf : f.isSum with
  | false => exact h.term hf
  | true => exact (h.expression.group.base.unsigned .factor).alone .products

theorem encloseSigned (h : IsWritten α f) {p : Part} (sign : Part.Signed p) :
    Written α p (enclose f.isJoined f.lexemes) f.value (enclosedLevels f.isJoined f.levels) := by
  cases hf : f.isJoined with
  | false => exact h.signed hf sign
  | true => exact h.expression.group.base.unsigned sign

theorem enclosePrimary (h : IsWritten α f) :
    Written α .primary (enclose (!f.isLiteral) f.lexemes) f.value
      (bif f.isLiteral then 0 else f.levels + 1) := by
  cases hf : f.isLiteral with
  | false => exact h.expression.group
  | true => exact h.primary hf

end IsWritten

/-- **Each formula is derived as every part that it may stand for.** -/
theorem isWritten (f : Formula) : IsWritten α f := by
  induction f with
  | literal l =>
    have h : Written α .primary [.literal l] l.value 0 := .number l
    have hterm := (h.base.unsigned .factor).alone .products
    exact ⟨hterm.alone .sums, fun _ => hterm, fun _ _ sign => h.base.unsigned sign, fun _ => h⟩
  | minus f ih =>
    -- an exponent stays an exponent behind a minus, as a factor stays a factor
    exact .of_signed rfl fun sign => (ih.encloseSigned sign).minus sign
  | sum o f g ihf ihg =>
    exact ⟨ihf.expression.append .sums o ihg.encloseTerm, nofun, nofun, nofun⟩
  | product o f g ihf ihg =>
    have h := ihf.encloseTerm.append .products o (ihg.encloseSigned .factor)
    exact ⟨h.alone .sums, fun _ => h, nofun, nofun⟩
  | power f g ihf ihg =>
    exact .of_signed rfl fun sign =>
      (ihf.enclosePrimary.power (ihg.encloseSigned .exponent)).unsigned sign

/-- **The text of a formula evaluates to the value of the formula**, exactly if the levels that it
needs are within the limit. -/
theorem evaluate_text_eq_ok_iff (f : Formula) (v : α) :
    evaluate f.text = .ok v ↔ f.levels ≤ maxLevels ∧ f.value = v :=
  (isWritten f).expression.evaluate_eq_ok_iff f.separated_lexemes

end Formula

end TimeValue.Expression
