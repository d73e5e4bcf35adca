import TimeValue.Proofs.Expression.Lexeme
import TimeValue.Proofs.Expression.Origin

/-!
# Groups that are not closed

The error about parentheses says that a group is never closed.  The reader reports it as soon as
the end of the group does not stand where the expression in it ends.  If the text ends there, the
group is indeed never closed.  If another operand starts there, with no operator before it, the
reader does not look any further, and the parenthesis may well be closed behind that operand.

Which parenthesis closes which is said here of texts, without regard to their tokens.

## Main definitions

* `Balanced` — every parenthesis in a text has its partner.
* `ClosedBy`, `NeverClosed` — the partner of a parenthesis, or none.
* `startsOperand`, `endsOperand`, `adjoined` — two operands without an operator between them.

## Main results

* `neverClosed_iff_of_balanced` — what is balanced behind a parenthesis has no part in closing it.
* `Derivation.balances` — what is derived is balanced.
* `evaluate_unbalancedParentheses` — **where the error is reported, and when it is true.**
* `evaluate_unbalancedParentheses_closed` — it is not always.
-/

namespace TimeValue.Expression

/-! ### Matching parentheses -/

/-- Every parenthesis has its partner. -/
inductive Balanced : List Char → Prop
  /-- There is none. -/
  | nil : Balanced []
  /-- Before the first there are other characters. -/
  | other {c : Char} {cs : List Char} (hopen : c ≠ '(') (hclose : c ≠ ')') (h : Balanced cs) :
      Balanced (c :: cs)
  /-- The first is closed behind a balanced text. -/
  | group {inner cs : List Char} (hinner : Balanced inner) (h : Balanced cs) :
      Balanced ('(' :: (inner ++ ')' :: cs))

/-- The parenthesis at `p` is closed by the one at `q`: what stands between them is balanced. -/
def ClosedBy (cs : List Char) (p q : Nat) : Prop :=
  ∃ before inner after, cs = before ++ '(' :: (inner ++ ')' :: after) ∧ before.length = p ∧
    before.length + inner.length + 1 = q ∧ Balanced inner

/-- At `p` stands a parenthesis that is not closed anywhere. -/
def NeverClosed (cs : List Char) (p : Nat) : Prop :=
  cs[p]? = some '(' ∧ ∀ q, ¬ ClosedBy cs p q

/-- The text goes on with the partner of a parenthesis before it. -/
def Closes (cs : List Char) : Prop :=
  ∃ inner after, Balanced inner ∧ cs = inner ++ ')' :: after

namespace Balanced

variable {xs ys zs ws : List Char}

theorem append (h : Balanced xs) (h' : Balanced ys) : Balanced (xs ++ ys) := by
  induction h with
  | nil => exact h'
  | other hopen hclose _ ih => exact ih.other hopen hclose
  | group hinner _ _ ih =>
    rw [List.cons_append, List.append_assoc, List.cons_append]
    exact hinner.group ih

theorem of_forall_ne (h : ∀ c ∈ xs, c ≠ '(' ∧ c ≠ ')') : Balanced xs := by
  induction xs with
  | nil => exact .nil
  | cons c cs ih =>
    obtain ⟨hopen, hclose⟩ := h c List.mem_cons_self
    exact .other hopen hclose (ih fun d hd => h d (List.mem_cons_of_mem c hd))

/-- A balanced text and the closing parenthesis behind it are read off their text. -/
theorem closing_unique (h : Balanced xs) : ∀ {ys zs ws}, Balanced ys →
    xs ++ ')' :: zs = ys ++ ')' :: ws → xs = ys ∧ zs = ws := by
  -- both texts begin alike, so they are taken apart by the same rule
  induction h with
  | nil =>
    intro ys zs ws hys heq
    cases hys with
    | nil => exact ⟨rfl, (List.cons.inj heq).2⟩
    | other hopen hclose _ => exact absurd (List.cons.inj heq).1.symm hclose
    | group _ _ => exact absurd (List.cons.inj heq).1 (by decide)
  | other hopen hclose _ ih =>
    intro ys zs ws hys heq
    cases hys with
    | nil => exact absurd (List.cons.inj heq).1 hclose
    | other _ _ hys =>
      obtain ⟨rfl, hrest⟩ := List.cons.inj heq
      obtain ⟨rfl, rfl⟩ := ih hys hrest
      exact ⟨rfl, rfl⟩
    | group _ _ => exact absurd (List.cons.inj heq).1 hopen
  | group _ _ ihInner ih =>
    intro ys zs ws hys heq
    cases hys with
    | nil => exact absurd (List.cons.inj heq).1 (by decide)
    | other hopen _ _ => exact absurd (List.cons.inj heq).1.symm hopen
    | group hinner hys =>
      simp only [List.cons_append, List.append_assoc, List.cons.injEq, true_and] at heq
      obtain ⟨rfl, hrest⟩ := ihInner hinner heq
      obtain ⟨rfl, rfl⟩ := ih hys hrest
      exact ⟨rfl, rfl⟩

/-- A closing parenthesis stands behind whatever is balanced before it. -/
theorem closes_append_iff (h : Balanced xs) : Closes (xs ++ zs) ↔ Closes zs := by
  constructor
  · rintro ⟨inner, after, hinner, heq⟩
    induction h generalizing inner with
    | nil => exact ⟨inner, after, hinner, heq⟩
    | other hopen hclose _ ih =>
      cases hinner with
      | nil => exact absurd (List.cons.inj heq).1 hclose
      | other _ _ hinner => exact ih _ hinner (List.cons.inj heq).2
      | group _ _ => exact absurd (List.cons.inj heq).1 hopen
    | group hgroup _ _ ih =>
      cases hinner with
      | nil => exact absurd (List.cons.inj heq).1 (by decide)
      | other hopen _ _ => exact absurd (List.cons.inj heq).1.symm hopen
      | group hgroup' hinner =>
        simp only [List.cons_append, List.append_assoc, List.cons.injEq, true_and] at heq
        -- both groups end at the same parenthesis
        obtain ⟨-, hrest⟩ := hgroup.closing_unique hgroup' heq
        exact ih _ hinner hrest
  · rintro ⟨inner, after, hinner, rfl⟩
    exact ⟨xs ++ inner, after, h.append hinner, (List.append_assoc _ _ _).symm⟩

/-- In a balanced text every parenthesis that opens is closed. -/
theorem closes (h : Balanced xs) : ∀ {before after}, xs = before ++ '(' :: after →
    Closes after := by
  induction h with
  | nil =>
    intro before after heq
    simp at heq
  | other hopen hclose _ ih =>
    intro before after heq
    rcases before with _ | ⟨c, before⟩
    · exact absurd (List.cons.inj heq).1 hopen
    · exact ih (List.cons.inj heq).2
  | @group inner cs hinner _ ihInner ih =>
    intro before after heq
    rcases before with _ | ⟨c, before⟩
    · obtain rfl := (List.cons.inj heq).2
      exact ⟨inner, cs, hinner, rfl⟩
    · have hrest := (List.cons.inj heq).2
      rcases List.append_eq_append_iff.1 hrest with ⟨mid, rfl, hmid⟩ | ⟨mid, rfl, hmid⟩
      · -- behind the group
        rcases mid with _ | ⟨d, mid⟩
        · exact absurd (List.cons.inj hmid).1 (by decide)
        · exact ih (List.cons.inj hmid).2
      · -- in the group
        rcases mid with _ | ⟨d, mid⟩
        · exact absurd (List.cons.inj hmid).1 (by decide)
        · obtain ⟨rfl, rfl⟩ := List.cons.inj hmid
          obtain ⟨inner', after', hinner', rfl⟩ := ihInner rfl
          exact ⟨inner', after' ++ ')' :: cs, hinner', by simp⟩

end Balanced

/-- Whether a parenthesis is closed is seen from what follows it. -/
theorem neverClosed_iff {before rest : List Char} :
    NeverClosed (before ++ '(' :: rest) before.length ↔ ¬ Closes rest := by
  constructor
  · rintro ⟨-, hnever⟩ ⟨inner, after, hinner, rfl⟩
    exact hnever _ ⟨before, inner, after, rfl, rfl, rfl, hinner⟩
  · intro h
    refine ⟨by simp, ?_⟩
    rintro q ⟨before', inner, after, heq, hlength, -, hinner⟩
    obtain ⟨-, hrest⟩ := List.append_inj heq hlength.symm
    exact h ⟨inner, after, hinner, (List.cons.inj hrest).2⟩

/-- What is balanced behind a parenthesis has no part in closing it. -/
theorem neverClosed_iff_of_balanced {before inner after : List Char} (h : Balanced inner) :
    NeverClosed (before ++ '(' :: (inner ++ after)) before.length ↔
      NeverClosed ('(' :: after) 0 := by
  have hafter : NeverClosed ([] ++ '(' :: after) 0 ↔ ¬ Closes after := neverClosed_iff
  rw [List.nil_append] at hafter
  rw [neverClosed_iff, h.closes_append_iff, hafter]

/-! ### What is derived is balanced -/

section Derived

variable {α : Type} [Scalar α]

/-- The tokens are those of balanced texts only. -/
def Balances (xs : List (Token α)) : Prop :=
  ∀ ls : List Lexeme, ls.map Lexeme.token = xs → Balanced (spelling ls)

namespace Balances

variable {xs ys : List (Token α)}

theorem nil : Balances ([] : List (Token α)) := by
  intro ls h
  rw [List.map_eq_nil_iff.1 h]
  exact .nil

theorem append (h : Balances xs) (h' : Balances ys) : Balances (xs ++ ys) := by
  intro ls hls
  obtain ⟨ls₁, ls₂, rfl, hls₁, hls₂⟩ := List.map_eq_append_iff.1 hls
  rw [spelling_append]
  exact (h ls₁ hls₁).append (h' ls₂ hls₂)

theorem symbol {s : Symbol} (hopen : s ≠ .leftParen) (hclose : s ≠ .rightParen)
    (h : Balances xs) : Balances (.symbol s :: xs) := by
  intro ls hls
  obtain ⟨l, ls, rfl, hl, htail⟩ := List.map_eq_cons_iff.1 hls
  obtain rfl := Lexeme.token_eq_symbol_iff.1 hl
  have hchar : s.toChar ≠ '(' ∧ s.toChar ≠ ')' := by cases s <;> simp_all [Symbol.toChar]
  exact .other hchar.1 hchar.2 (h ls htail)

theorem number (x : α) : Balances [.number x] := by
  intro ls hls
  obtain ⟨l | s, ls, rfl, hl, htail⟩ := List.map_eq_cons_iff.1 hls
  · rw [List.map_eq_nil_iff.1 htail, spelling_cons, spelling_nil, List.append_nil]
    refine .of_forall_ne fun c hc => ?_
    have hnumber := l.isNumberChar_of_mem c hc
    constructor <;> rintro rfl <;> exact absurd hnumber (by decide)
  · simp [Lexeme.token] at hl

theorem group (h : Balances xs) :
    Balances (.symbol .leftParen :: (xs ++ [.symbol .rightParen])) := by
  intro ls hls
  obtain ⟨l, ls, rfl, hl, hls⟩ := List.map_eq_cons_iff.1 hls
  obtain ⟨ls₁, ls₂, rfl, hls₁, hls₂⟩ := List.map_eq_append_iff.1 hls
  obtain ⟨l', ls₂, rfl, hl', hnil⟩ := List.map_eq_cons_iff.1 hls₂
  obtain rfl := Lexeme.token_eq_symbol_iff.1 hl
  obtain rfl := Lexeme.token_eq_symbol_iff.1 hl'
  obtain rfl := List.map_eq_nil_iff.1 hnil
  rw [spelling_cons, spelling_append]
  exact (h ls₁ hls₁).group .nil

end Balances

/-- What is derived is balanced. -/
theorem Derivation.balances {p : Part} (t : Derivation α p) : Balances t.yield := by
  induction t using induction_on_shape with
  | join row _ _ ihFirst ihOthers =>
    rw [row.yield_join]
    exact ihFirst.append ihOthers
  | stop row =>
    rw [row.yield_stop]
    exact .nil
  | next row o _ _ ihNext ihOthers =>
    rw [row.yield_next]
    exact (ihNext.append ihOthers).symbol (row.symbol_ne_leftParen o) (row.symbol_ne_rightParen o)
  | minus sign _ ih =>
    rw [sign.yield_minus]
    exact ih.symbol (by decide) (by decide)
  | unsigned sign _ ih =>
    rw [sign.yield_power]
    exact ih
  | base _ ih => exact ih
  | power _ _ ihBase ihExponent => exact ihBase.append (ihExponent.symbol (by decide) (by decide))
  | number x => exact .number x
  | group _ ih => exact ih.group

end Derived

/-! ### Operands side by side -/

/-- The character starts a number or a group. -/
def startsOperand (c : Char) : Bool :=
  c == '(' || isNumberChar c

/-- The character ends a number or a group. -/
def endsOperand (c : Char) : Bool :=
  c == ')' || isNumberChar c

/-- Somewhere an operand starts where another ends.  The digits of one number do not count. -/
def adjoined : List Char → Bool
  | c :: d :: cs =>
    endsOperand c && startsOperand d && !(isNumberChar c && isNumberChar d) || adjoined (d :: cs)
  | _ => false

theorem adjoined_append {c d : Char} (hc : endsOperand c = true) (hd : startsOperand d = true)
    (hne : (isNumberChar c && isNumberChar d) = false) (before after : List Char) :
    adjoined (before ++ c :: d :: after) = true := by
  induction before with
  | nil => simp [adjoined, hc, hd, hne]
  | cons e before ih =>
    obtain ⟨e', cs, hcs⟩ : ∃ e' cs, before ++ c :: d :: after = e' :: cs :=
      List.exists_cons_of_ne_nil (by simp)
    rw [List.cons_append, hcs, adjoined, ← hcs, ih, Bool.or_true]

namespace Lexeme

/-- The lexeme starts an operand. -/
def StartsOperand : Lexeme → Prop
  | .literal _ => True
  | .symbol s => s = .leftParen

/-- The lexeme ends an operand. -/
def EndsOperand : Lexeme → Prop
  | .literal _ => True
  | .symbol s => s = .rightParen

/-- The first character of a lexeme tells whether it starts an operand. -/
theorem StartsOperand.exists_char {l : Lexeme} (h : l.StartsOperand) :
    ∃ c cs, l.chars = c :: cs ∧ startsOperand c = true ∧
      (isNumberChar c = true → ∃ x, l = .literal x) := by
  cases l with
  | literal x =>
    obtain ⟨c, cs, hchars⟩ := List.exists_cons_of_ne_nil x.chars_ne_nil
    have hc := x.isNumberChar_of_mem c (by simp [hchars])
    exact ⟨c, cs, hchars, by simp [startsOperand, hc], fun _ => ⟨x, rfl⟩⟩
  | symbol s =>
    obtain rfl : s = .leftParen := h
    exact ⟨'(', [], rfl, by decide, fun hc => absurd hc (by decide)⟩

/-- The last character of a lexeme tells whether it ends an operand. -/
theorem EndsOperand.exists_char {l : Lexeme} (h : l.EndsOperand) :
    ∃ cs c, l.chars = cs ++ [c] ∧ endsOperand c = true ∧
      (isNumberChar c = true → ∃ x, l = .literal x) := by
  cases l with
  | literal x =>
    have hc := x.isNumberChar_of_mem _ (List.getLast_mem x.chars_ne_nil)
    exact ⟨x.chars.dropLast, x.chars.getLast x.chars_ne_nil,
      (List.dropLast_append_getLast x.chars_ne_nil).symm, by simp [endsOperand, hc],
      fun _ => ⟨x, rfl⟩⟩
  | symbol s =>
    obtain rfl : s = .rightParen := h
    exact ⟨[], ')', rfl, by decide, fun hc => absurd hc (by decide)⟩

end Lexeme

/-- Where one lexeme ends an operand and the next starts one, so do their characters. -/
theorem adjoined_spelling {ls ls' : List Lexeme} {l l' : Lexeme}
    (h : Separated (ls ++ l :: l' :: ls')) (hl : l.EndsOperand) (hl' : l'.StartsOperand) :
    adjoined (spelling (ls ++ l :: l' :: ls')) = true := by
  obtain ⟨cs, c, hchars, hc, hnumber⟩ := hl.exists_char
  obtain ⟨d, ds, hchars', hd, hnumber'⟩ := hl'.exists_char
  -- two characters of numbers would belong to two literals, which do not stand side by side
  have hne : (isNumberChar c && isNumberChar d) = false := by
    rw [Bool.and_eq_false_iff, ← Bool.not_eq_true, ← Bool.not_eq_true, ← not_and_or]
    rintro ⟨hc, hd⟩
    obtain ⟨x, rfl⟩ := hnumber hc
    obtain ⟨y, rfl⟩ := hnumber' hd
    exact (List.isChain_cons_cons.1 (List.isChain_append.1 h).2.1).1
  have htext : spelling (ls ++ l :: l' :: ls') =
      (spelling ls ++ cs) ++ c :: d :: (ds ++ spelling ls') := by
    simp [hchars, hchars']
  rw [htext]
  exact adjoined_append hc hd hne _ _

section Derived

variable {α : Type}

/-- The tokens end with the end of an operand. -/
def EndsWithOperand (xs : List (Token α)) : Prop :=
  ∃ ys y, xs = ys ++ [y] ∧ ∀ s, y = .symbol s → s = .rightParen

theorem EndsWithOperand.append {ys : List (Token α)} (h : EndsWithOperand ys)
    (xs : List (Token α)) : EndsWithOperand (xs ++ ys) := by
  obtain ⟨zs, y, rfl, hy⟩ := h
  exact ⟨xs ++ zs, y, (List.append_assoc _ _ _).symm, hy⟩

/-- What is derived ends with the end of an operand, if it does not stand for an empty
repetition. -/
theorem Derivation.endsWithOperand {p : Part} (t : Derivation α p) :
    t.yield = [] ∧ (p = .sums ∨ p = .products) ∨ EndsWithOperand t.yield := by
  induction t with
  | sumsEnd => exact .inl ⟨rfl, .inl rfl⟩
  | productsEnd => exact .inl ⟨rfl, .inr rfl⟩
  | expression first others ihFirst ihOthers | term first others ihFirst ihOthers =>
    refine .inr ?_
    -- the last part decides, unless nothing follows the first one
    rcases ihOthers with ⟨hnil, -⟩ | hends
    · rw [yield, hnil, List.append_nil]
      exact ihFirst.resolve_left (by simp)
    · exact hends.append _
  | sums o next others ihNext ihOthers | products o next others ihNext ihOthers =>
    refine .inr ?_
    rcases ihOthers with ⟨hnil, -⟩ | hends
    · rw [yield, hnil, List.append_nil]
      exact (ihNext.resolve_left (by simp)).append [_]
    · exact (hends.append next.yield).append [_]
  | minusFactor t ih | minusExponent t ih =>
    exact .inr ((ih.resolve_left (by simp)).append [_])
  | factor t ih | base t ih | exponent t ih => exact .inr (ih.resolve_left (by simp))
  | power t e ihBase ihExponent =>
    exact .inr (((ihExponent.resolve_left (by simp)).append [_]).append t.yield)
  | number x => exact .inr ⟨[], _, rfl, fun s hs => by simp at hs⟩
  | group t ih =>
    exact .inr ⟨.symbol .leftParen :: t.yield, _, rfl, fun s hs => (Token.symbol.inj hs).symm⟩

end Derived

/-! ### The error -/

variable {α : Type} [Scalar α]

/-- Lexemes that derive a formula end with the end of an operand. -/
theorem exists_endsOperand {ls : List Lexeme} {t : Derivation α .expression}
    (h : t.yield = ls.map Lexeme.token) : ∃ ls' l, ls = ls' ++ [l] ∧ l.EndsOperand := by
  obtain ⟨xs, x, hxs, hx⟩ := t.endsWithOperand.resolve_left (by simp)
  obtain ⟨ls', last, rfl, -, hlast⟩ := List.map_eq_append_iff.1 (h.symm.trans hxs)
  obtain ⟨l, hl, rfl⟩ := List.map_eq_singleton_iff.1 hlast
  refine ⟨ls', l, by rw [hl], ?_⟩
  cases l with
  | literal x => trivial
  | symbol s => exact hx s rfl

/-- The text of a group that is reported is that of three rows of lexemes: those before the group,
those of the formula in it, and those that do not go on with this formula. -/
theorem exists_lexemes_of_unbalanced {text : String} {p : Nat}
    (h : evaluate text = (.error (.unbalancedParentheses p) : Except (EvalError α) α)) :
    ∃ before inner after : List Lexeme,
      Separated (before ++ .symbol .leftParen :: (inner ++ after)) ∧
      normalize text.toList = spelling before ++ '(' :: (spelling inner ++ spelling after) ∧
      (spelling before).length = p ∧
      (∃ t : Derivation α .expression, t.yield = inner.map Lexeme.token ∧ t.levels ≤ maxLevels) ∧
      ∀ l ls, after = l :: ls → l.StartsOperand := by
  obtain ⟨ls, hls, htext, herror⟩ := exists_lexemes_of_evaluate h id
  obtain ⟨xs, ys, rest, hplaced, ⟨t, ht, hlevels⟩, hrest⟩ :=
    exists_unclosed_of_evaluateTokens herror
  obtain ⟨before, ls, rfl, rfl, hgroup⟩ := placed_eq_append hplaced
  rcases ls with _ | ⟨l, ls⟩
  · simp [placed] at hgroup
  obtain ⟨hl, hgroup⟩ := List.cons.inj hgroup
  obtain ⟨inner, after, rfl, rfl, rfl⟩ := placed_eq_append hgroup
  obtain ⟨hparen, rfl⟩ := Spanned.mk.inj hl
  obtain rfl := Lexeme.token_eq_symbol_iff.1 hparen
  rw [map_token_placed] at ht hrest
  refine ⟨before, inner, after, hls, ?_, (Nat.zero_add _).symm, ⟨t, ht, hlevels⟩, ?_⟩
  · rw [← htext, spelling_append, spelling_cons, spelling_append]
    rfl
  · rintro (l | s) ls rfl
    · trivial
    · exact hrest s rfl

/-- What is derived, with nothing behind it, closes no parenthesis before it. -/
theorem not_closes_spelling {inner : List Lexeme} {t : Derivation α .expression}
    (ht : t.yield = inner.map Lexeme.token) : ¬ Closes (spelling inner) := by
  -- what is balanced can be left out, and then there is no text
  rw [← List.append_nil (spelling inner), (t.balances inner ht.symm).closes_append_iff]
  rintro ⟨xs, ys, -, hnil⟩
  simp at hnil

/-- An operand behind a group would start where the last one in it ends. -/
theorem adjoined_of_startsOperand {before inner after : List Lexeme} {l : Lexeme}
    {t : Derivation α .expression} (ht : t.yield = inner.map Lexeme.token)
    (hls : Separated (before ++ .symbol .leftParen :: (inner ++ l :: after)))
    (hl : l.StartsOperand) :
    adjoined (spelling (before ++ .symbol .leftParen :: (inner ++ l :: after))) = true := by
  obtain ⟨inner, last, rfl, hlast⟩ := exists_endsOperand ht
  have hrow : before ++ .symbol .leftParen :: (inner ++ [last] ++ l :: after) =
      (before ++ .symbol .leftParen :: inner) ++ last :: l :: after := by simp
  rw [hrow] at hls ⊢
  exact adjoined_spelling hls hlast hl

/-- **Where a group is reported that is never closed.**  At the position stands a parenthesis, and
behind it a formula that has a value.  Then the text ends, or another operand starts, and whether
the parenthesis is closed depends on what follows from there.  In a text without operands side by
side the error is true, and the text is not balanced. -/
theorem evaluate_unbalancedParentheses {text : String} {p : Nat}
    (h : evaluate text = (.error (.unbalancedParentheses p) : Except (EvalError α) α)) :
    (∃ before inner after, normalize text.toList = before ++ '(' :: (inner ++ after) ∧
      before.length = p ∧ (∃ v : α, evaluate (String.ofList inner) = .ok v) ∧
      (∀ c, after.head? = some c → startsOperand c = true) ∧
      (NeverClosed (normalize text.toList) p ↔ NeverClosed ('(' :: after) 0)) ∧
    (adjoined (normalize text.toList) = false →
      NeverClosed (normalize text.toList) p ∧ ¬ Balanced (normalize text.toList)) := by
  obtain ⟨before, inner, after, hls, hspelling, rfl, ⟨t, ht, hlevels⟩, hstarts⟩ :=
    exists_lexemes_of_unbalanced h
  have hinner : Separated inner :=
    (List.isChain_append.1 (separated_append_symbol_iff.1 hls).2).1
  have hnever : NeverClosed (spelling before ++ '(' :: (spelling inner ++ spelling after))
      (spelling before).length ↔ NeverClosed ('(' :: spelling after) 0 :=
    neverClosed_iff_of_balanced (t.balances inner ht.symm)
  rw [hspelling]
  refine ⟨⟨_, _, _, rfl, rfl, ⟨t.value, ?_⟩, ?_, hnever⟩, ?_⟩
  · exact (evaluate_spelling_eq_ok_iff hinner).2 ⟨t, ht, hlevels, rfl⟩
  · intro c hc
    rcases after with _ | ⟨l, after⟩
    · simp at hc
    · obtain ⟨d, ds, hchars, hd, -⟩ := (hstarts l after rfl).exists_char
      rw [spelling_cons, hchars] at hc
      exact Option.some.inj hc ▸ hd
  · intro hadjoined
    rcases after with _ | ⟨l, after⟩
    · -- the text ends behind the formula, and nothing is left to close the group
      have hopen := not_closes_spelling ht
      rw [spelling_nil, List.append_nil]
      exact ⟨neverClosed_iff.2 hopen, fun hbalanced => hopen (hbalanced.closes rfl)⟩
    · have hbeside := adjoined_of_startsOperand ht hls (hstarts l after rfl)
      rw [spelling_append, spelling_cons, spelling_append] at hbeside
      exact absurd (hadjoined.symm.trans hbeside) (by decide)

/-- In `(2+3` the parenthesis is never closed. -/
theorem evaluate_unbalancedParentheses_unfinished :
    (evaluate "(2+3" : Except (EvalError Float) Float) = .error (.unbalancedParentheses 0) ∧
      adjoined (normalize "(2+3".toList) = false ∧ NeverClosed (normalize "(2+3".toList) 0 := by
  have hlegal : ∀ c ∈ "(2+3".toList, isLegal c = true := List.all_eq_true.1 (by decide)
  have herror (α : Type) [Scalar α] :
      (evaluate "(2+3" : Except (EvalError α) α) = .error (.unbalancedParentheses 0) := by
    rw [evaluate_of_isLegal hlegal]
    cbv
  have hadjoined : adjoined (normalize "(2+3".toList) = false := by
    rw [normalize_of_isLegal hlegal]
    decide
  exact ⟨herror Float, hadjoined, ((evaluate_unbalancedParentheses (herror Float)).2 hadjoined).1⟩

/-- In `(2(3))` an operator is missing, and not a parenthesis. -/
theorem evaluate_unbalancedParentheses_closed :
    (evaluate "(2(3))" : Except (EvalError Float) Float) = .error (.unbalancedParentheses 0) ∧
      ClosedBy (normalize "(2(3))".toList) 0 5 ∧ Balanced (normalize "(2(3))".toList) := by
  have hlegal : ∀ c ∈ "(2(3))".toList, isLegal c = true := List.all_eq_true.1 (by decide)
  have herror (α : Type) [Scalar α] :
      (evaluate "(2(3))" : Except (EvalError α) α) = .error (.unbalancedParentheses 0) := by
    rw [evaluate_of_isLegal hlegal]
    cbv
  have htext : normalize "(2(3))".toList = '(' :: (['2', '(', '3', ')'] ++ [')']) :=
    normalize_of_isLegal hlegal
  have hthree : Balanced ['3'] := .other (by decide) (by decide) .nil
  have hinner : Balanced ['2', '(', '3', ')'] :=
    .other (by decide) (by decide) (hthree.group .nil)
  rw [htext]
  exact ⟨herror Float, ⟨[], _, [], rfl, rfl, rfl, hinner⟩, hinner.group .nil⟩

end TimeValue.Expression
