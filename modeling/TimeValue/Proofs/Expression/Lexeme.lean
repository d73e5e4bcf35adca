import Mathlib.Data.List.Chain
import TimeValue.Proofs.Expression.Acceptance

/-!
# Lexemes

A normalized text is a row of lexemes.  Each is a symbol or a literal, and two literals never
stand side by side, for they would be one run of digits and points.  Such a row determines the text,
and the tokens with their positions: a token stands where the lexemes before it end.

## Main definitions

* `Literal` — digits with at most one point.
* `Lexeme` — a symbol or a literal, with its characters and its token.
* `spelling`, `placed` — the text of a row of lexemes, and its tokens in their places.
* `Separated` — no two literals side by side.

## Main results

* `literal?_eq_some_iff` — the runs that are numbers are the literals.
* `tokenizeFrom_eq_ok_iff` — **a text has tokens exactly if it is a row of lexemes.**
* `evaluate_spelling_eq_ok_iff` — a row of lexemes has a value exactly if its tokens are derived.
-/

namespace TimeValue.Expression

open Text

/-! ### Runs -/

/-- A run ends where the class of its characters does. -/
theorem span_append {p : Char → Bool} {run rest : List Char} (hrun : ∀ c ∈ run, p c = true)
    (hrest : ∀ c, rest.head? = some c → p c = false) :
    (run ++ rest).takeWhile p = run ∧ (run ++ rest).dropWhile p = rest := by
  induction run with
  | nil =>
    cases rest with
    | nil => exact ⟨rfl, rfl⟩
    | cons c rest => simp [hrest c rfl]
  | cons c run ih =>
    obtain ⟨htake, hdrop⟩ := ih fun d hd => hrun d (List.mem_cons_of_mem c hd)
    simp [hrun c List.mem_cons_self, htake, hdrop]

/-- The character behind a run is not of its class. -/
theorem of_head?_dropWhile {p : Char → Bool} (cs : List Char) (c : Char)
    (h : (cs.dropWhile p).head? = some c) : p c = false := by
  have hstop := List.head?_dropWhile_not p cs
  rwa [h] at hstop

/-- To show something of every text one may take it apart into maximal runs of digits and points
and the other characters. -/
theorem runs_induction {motive : List Char → Prop} (nil : motive [])
    (run : ∀ run rest, run ≠ [] → (∀ c ∈ run, isNumberChar c = true) →
      (∀ c, rest.head? = some c → isNumberChar c = false) → motive rest → motive (run ++ rest))
    (other : ∀ c cs, isNumberChar c = false → motive cs → motive (c :: cs)) (cs : List Char) :
    motive cs := by
  induction h : cs.length using Nat.strongRecOn generalizing cs with
  | ind n ih =>
    subst h
    -- on the length, since a run is taken off as a whole
    rcases cs with _ | ⟨c, cs⟩
    · exact nil
    cases hc : isNumberChar c with
    | false => exact other c cs hc (ih cs.length (Nat.lt_succ_self _) cs rfl)
    | true =>
      have hshort : (cs.dropWhile isNumberChar).length < (c :: cs).length :=
        Nat.lt_succ_of_le (List.dropWhile_suffix isNumberChar).length_le
      have hsplit : c :: cs =
          (c :: cs.takeWhile isNumberChar) ++ cs.dropWhile isNumberChar := by
        rw [List.cons_append, List.takeWhile_append_dropWhile]
      rw [hsplit]
      refine run _ _ (List.cons_ne_nil _ _) ?_ (of_head?_dropWhile cs) (ih _ hshort _ rfl)
      intro d hd
      rcases List.mem_cons.1 hd with rfl | hd
      · exact hc
      · exact List.all_eq_true.1 List.all_takeWhile d hd

/-! ### Literals -/

/-- Digits with at most one point among them, and at least one digit. -/
structure Literal where
  /-- The digits before the point, or all. -/
  whole : List Char
  /-- The digits behind the point, if there is one. -/
  places? : Option (List Char)
  whole_isDigit : ∀ c ∈ whole, isDigit c = true
  places_isDigit : ∀ c ∈ places?.getD [], isDigit c = true
  hasDigit : whole ++ places?.getD [] ≠ []

namespace Literal

/-- The characters of a literal. -/
def chars (l : Literal) : List Char :=
  l.whole ++ (l.places?.map ('.' :: ·)).getD []

/-- The digits of a literal, read as a whole number and moved behind the point by as many places as
stand there. -/
def value {α : Type} [Scalar α] (l : Literal) : α :=
  OfScientific.ofScientific (decimalValue (l.whole ++ l.places?.getD [])) true
    (l.places?.getD []).length

theorem chars_ne_nil (l : Literal) : l.chars ≠ [] := by
  obtain ⟨whole, _ | places, -, -, hdigit⟩ := l
  · simpa [chars] using hdigit
  · simp [chars]

theorem isNumberChar_of_mem (l : Literal) : ∀ c ∈ l.chars, isNumberChar c = true := by
  have hdigit {c : Char} (h : isDigit c = true) : isNumberChar c = true := by
    simp [isNumberChar, h]
  obtain ⟨whole, _ | places, hwhole, hplaces, -⟩ := l <;> intro c hc
  · exact hdigit (hwhole c (by simpa [chars] using hc))
  · simp only [chars, Option.map_some, Option.getD_some, List.mem_append, List.mem_cons] at hc
    rcases hc with hc | rfl | hc
    · exact hdigit (hwhole c hc)
    · decide
    · exact hdigit (hplaces c hc)

end Literal

/-- The texts with the digits and places of a number are those of literals. -/
theorem mantissa?_eq_some_iff {run : List Char} {m places : Nat} :
    mantissa? run = some (m, places) ↔
      ∃ l : Literal, l.chars = run ∧ decimalValue (l.whole ++ l.places?.getD []) = m ∧
        (l.places?.getD []).length = places := by
  constructor
  · intro h
    -- the digits before what is left are the whole ones, and the text says what may follow them
    have hsplit := List.takeWhile_append_dropWhile (p := isDigit) (l := run)
    have hwhole : ∀ c ∈ run.takeWhile isDigit, isDigit c = true :=
      List.all_eq_true.1 List.all_takeWhile
    unfold mantissa? at h
    dsimp only at h
    split at h
    · next hrest =>
      rw [hrest, List.append_nil] at hsplit
      split at h
      · simp at h
      · next hne =>
        simp only [Option.some.injEq, Prod.mk.injEq] at h
        obtain ⟨rfl, rfl⟩ := h
        refine ⟨⟨run.takeWhile isDigit, none, hwhole, by simp, ?_⟩, ?_, ?_, rfl⟩
        · simpa using hne
        · simpa [Literal.chars] using hsplit
        · simp
    · next ds hrest =>
      rw [hrest] at hsplit
      split at h
      · next hds =>
        simp only [Option.some.injEq, Prod.mk.injEq] at h
        obtain ⟨rfl, rfl⟩ := h
        simp only [Bool.and_eq_true, List.all_eq_true, Bool.not_eq_true', Bool.and_eq_false_iff,
          List.isEmpty_eq_false_iff] at hds
        refine ⟨⟨run.takeWhile isDigit, some ds, hwhole, hds.1, ?_⟩, hsplit, rfl, rfl⟩
        simpa [List.append_eq_nil_iff, imp_iff_not_or] using hds.2
      · simp at h
    · simp at h
  · rintro ⟨⟨whole, _ | ds, hwhole, hplaces, hdigit⟩, rfl, rfl, rfl⟩
    · have hspan := span_append hwhole (fun c (hc : [].head? = some c) => by simp at hc)
      rw [List.append_nil] at hspan
      obtain ⟨htake, hdrop⟩ := hspan
      have hne : whole ≠ [] := by simpa using hdigit
      simp [mantissa?, Literal.chars, htake, hdrop, hne]
    · have hpoint : ∀ c, ('.' :: ds).head? = some c → isDigit c = false := by
        intro c hc
        obtain rfl := Option.some.inj hc
        decide
      obtain ⟨htake, hdrop⟩ := span_append hwhole hpoint
      have hne : whole = [] → ds ≠ [] := by simpa using hdigit
      simpa [mantissa?, Literal.chars, htake, hdrop] using ⟨hplaces, hne⟩

variable {α : Type} [Scalar α]

/-- The runs that are numbers are the literals, with their values. -/
theorem literal?_eq_some_iff {run : List Char} {x : α} :
    literal? run = some x ↔ ∃ l : Literal, l.chars = run ∧ l.value = x := by
  simp only [literal?, Option.map_eq_some_iff, Prod.exists, mantissa?_eq_some_iff]
  constructor
  · rintro ⟨_, _, ⟨l, hchars, rfl, rfl⟩, rfl⟩
    exact ⟨l, hchars, rfl⟩
  · rintro ⟨l, hchars, rfl⟩
    exact ⟨_, _, ⟨l, hchars, rfl, rfl⟩, rfl⟩

/-! ### Rows of lexemes -/

/-- A symbol or a literal. -/
inductive Lexeme
  /-- A number in digits. -/
  | literal (l : Literal)
  /-- An operator or a parenthesis. -/
  | symbol (s : Symbol)

namespace Lexeme

/-- The characters of a lexeme. -/
def chars : Lexeme → List Char
  | .literal l => l.chars
  | .symbol s => [s.toChar]

/-- The token of a lexeme. -/
def token : Lexeme → Token α
  | .literal l => .number l.value
  | .symbol s => .symbol s

/-- A symbol is read off its token. -/
theorem token_eq_symbol_iff {l : Lexeme} {s : Symbol} :
    (l.token : Token α) = .symbol s ↔ l = .symbol s := by
  cases l <;> simp [token]

/-- The lexemes may stand side by side.  Two literals would be one run. -/
def Apart : Lexeme → Lexeme → Prop
  | .literal _, .literal _ => False
  | _, _ => True

@[simp] theorem apart_symbol_left (s : Symbol) (l : Lexeme) : Apart (.symbol s) l := by
  cases l <;> trivial

@[simp] theorem apart_symbol_right (l : Lexeme) (s : Symbol) : Apart l (.symbol s) := by
  cases l <;> trivial

end Lexeme

/-- The text of a row of lexemes. -/
def spelling (ls : List Lexeme) : List Char :=
  ls.flatMap Lexeme.chars

/-- The tokens of a row of lexemes of which `position` characters come before. -/
def placed (position : Nat) : List Lexeme → List (Spanned α)
  | [] => []
  | l :: ls => ⟨l.token, position⟩ :: placed (position + l.chars.length) ls

/-- No two literals stand side by side. -/
def Separated (ls : List Lexeme) : Prop :=
  ls.IsChain Lexeme.Apart

@[simp] theorem spelling_nil : spelling [] = [] := rfl

@[simp] theorem spelling_cons (l : Lexeme) (ls : List Lexeme) :
    spelling (l :: ls) = l.chars ++ spelling ls := rfl

@[simp] theorem spelling_append (ls ls' : List Lexeme) :
    spelling (ls ++ ls') = spelling ls ++ spelling ls' :=
  List.flatMap_append

@[simp] theorem map_token_placed (ls : List Lexeme) :
    ∀ position, (placed position ls : List (Spanned α)).map (·.token) = ls.map Lexeme.token := by
  induction ls with
  | nil => exact fun _ => rfl
  | cons l ls ih => exact fun position => by simp [placed, ih]

theorem placed_eq_append {ls : List Lexeme} {xs ys : List (Spanned α)} : ∀ {position : Nat},
    placed position ls = xs ++ ys →
      ∃ ls₁ ls₂, ls = ls₁ ++ ls₂ ∧ placed position ls₁ = xs ∧
        placed (position + (spelling ls₁).length) ls₂ = ys := by
  induction xs generalizing ls with
  | nil => exact fun h => ⟨[], ls, rfl, rfl, by simpa using h⟩
  | cons x xs ih =>
    intro position h
    rcases ls with _ | ⟨l, ls⟩
    · simp [placed] at h
    · obtain ⟨rfl, hrest⟩ := List.cons.inj h
      obtain ⟨ls₁, ls₂, rfl, rfl, rfl⟩ := ih hrest
      exact ⟨l :: ls₁, ls₂, rfl, rfl, by simp [Nat.add_assoc]⟩

/-- A symbol separates what is beside it. -/
theorem separated_append_symbol_iff {ls ls' : List Lexeme} {s : Symbol} :
    Separated (ls ++ .symbol s :: ls') ↔ Separated ls ∧ Separated ls' := by
  simp only [Separated, List.isChain_append, List.isChain_cons]
  simp

theorem separated_symbol_cons_iff {ls : List Lexeme} {s : Symbol} :
    Separated (.symbol s :: ls) ↔ Separated ls := by
  simp [Separated, List.isChain_cons]

/-! ### Tokenizing -/

theorem isNumberChar_toChar (s : Symbol) : isNumberChar s.toChar = false := by
  cases s <;> decide

/-- A maximal run is a number, or is refused. -/
theorem tokenizeFrom_run {run rest : List Char} (hne : run ≠ [])
    (hrun : ∀ c ∈ run, isNumberChar c = true)
    (hrest : ∀ c, rest.head? = some c → isNumberChar c = false) (position : Nat) :
    (tokenizeFrom position (run ++ rest) : Except (EvalError α) (List (Spanned α))) =
      match literal? run with
      | some value =>
        (tokenizeFrom (position + run.length) rest).map (⟨.number value, position⟩ :: ·)
      | none => .error (.invalidNumber run position) := by
  -- one character is looked at before the rest of the run is taken
  obtain ⟨c, run, rfl⟩ := List.exists_cons_of_ne_nil hne
  obtain ⟨htake, hdrop⟩ :=
    span_append (fun d hd => hrun d (List.mem_cons_of_mem c hd)) hrest
  have hc : isNumberChar c = true := hrun c List.mem_cons_self
  cases hvalue : (literal? (c :: run) : Option α) with
  | none => simp only [List.cons_append, tokenizeFrom, if_pos hc, htake, hvalue]
  | some value => simp only [List.cons_append, tokenizeFrom, if_pos hc, htake, hdrop, hvalue]

/-- A character that is in no run is a symbol, or is refused. -/
theorem tokenizeFrom_other {c : Char} (hc : isNumberChar c = false) (position : Nat)
    (cs : List Char) :
    (tokenizeFrom position (c :: cs) : Except (EvalError α) (List (Spanned α))) =
      match Symbol.ofChar? c with
      | some s => (tokenizeFrom (position + 1) cs).map (⟨.symbol s, position⟩ :: ·)
      | none => .error (.illegalCharacter c position) := by
  cases hs : Symbol.ofChar? c with
  | none => rw [tokenizeFrom, if_neg (by simp [hc]), hs]
  | some s => rw [tokenizeFrom, if_neg (by simp [hc]), hs]

theorem except_map_eq_ok_iff {ε β γ : Type} {f : β → γ} {r : Except ε β} {y : γ} :
    r.map f = .ok y ↔ ∃ x, r = .ok x ∧ f x = y := by
  cases r <;> simp [Except.map]

theorem except_map_eq_error_iff {ε β γ : Type} {f : β → γ} {r : Except ε β} {e : ε} :
    r.map f = .error e ↔ r = .error e := by
  cases r <;> simp [Except.map]

/-- A literal ends where no run goes on. -/
theorem separated_literal_cons_iff {l : Literal} {ls : List Lexeme} :
    Separated (.literal l :: ls) ↔
      Separated ls ∧ ∀ c, (spelling ls).head? = some c → isNumberChar c = false := by
  rcases ls with _ | ⟨l' | s, ls⟩
  · simp [Separated]
  · obtain ⟨c, cs, hchars⟩ := List.exists_cons_of_ne_nil l'.chars_ne_nil
    have hc : isNumberChar c = true := l'.isNumberChar_of_mem c (by simp [hchars])
    simp [Separated, Lexeme.Apart, Lexeme.chars, hchars, hc]
  · simp [Separated, Lexeme.chars, isNumberChar_toChar]

/-- Lexemes whose text starts with a whole run start with the literal of the run. -/
theorem exists_literal_of_spelling {run rest : List Char} (hne : run ≠ [])
    (hrun : ∀ c ∈ run, isNumberChar c = true)
    (hrest : ∀ c, rest.head? = some c → isNumberChar c = false) {ls : List Lexeme}
    (hls : Separated ls) (h : spelling ls = run ++ rest) :
    ∃ l others, ls = .literal l :: others ∧ l.chars = run ∧
      Separated others ∧ spelling others = rest := by
  rcases ls with _ | ⟨l | s, others⟩
  · simp [hne] at h
  · -- the run and the literal end at the same character
    obtain ⟨hothers, hend⟩ := separated_literal_cons_iff.1 hls
    rw [spelling_cons, Lexeme.chars] at h
    obtain ⟨htake, hdrop⟩ := span_append l.isNumberChar_of_mem hend
    obtain ⟨htake', hdrop'⟩ := span_append hrun hrest
    rw [h] at htake hdrop
    exact ⟨l, others, rfl, htake.symm.trans htake', hothers, hdrop.symm.trans hdrop'⟩
  · obtain ⟨c, run, rfl⟩ := List.exists_cons_of_ne_nil hne
    obtain rfl : s.toChar = c := (List.cons.inj h).1
    exact absurd (hrun s.toChar List.mem_cons_self) (by simp [isNumberChar_toChar])

/-- Lexemes whose text starts with any other character start with its symbol. -/
theorem exists_symbol_of_spelling {c : Char} (hc : isNumberChar c = false) {cs : List Char}
    {ls : List Lexeme} (hls : Separated ls) (h : spelling ls = c :: cs) :
    ∃ s others, ls = .symbol s :: others ∧ s.toChar = c ∧
      Separated others ∧ spelling others = cs := by
  rcases ls with _ | ⟨l | s, others⟩
  · simp at h
  · -- a literal would start with a digit or a point, which the character is not
    obtain ⟨d, ds, hchars⟩ := List.exists_cons_of_ne_nil l.chars_ne_nil
    rw [spelling_cons, Lexeme.chars, hchars] at h
    obtain rfl : d = c := (List.cons.inj h).1
    rw [l.isNumberChar_of_mem d (by simp [hchars])] at hc
    exact absurd hc (by decide)
  · obtain ⟨hchar, hcs⟩ := List.cons.inj h
    exact ⟨s, others, rfl, hchar, separated_symbol_cons_iff.1 hls, hcs⟩

/-- **A text has tokens exactly if it is a row of lexemes**, and they are the tokens of the lexemes,
each where those before it end. -/
theorem tokenizeFrom_eq_ok_iff {cs : List Char} : ∀ {position : Nat} {tokens : List (Spanned α)},
    tokenizeFrom position cs = .ok tokens ↔
      ∃ ls, Separated ls ∧ spelling ls = cs ∧ placed position ls = tokens := by
  induction cs using runs_induction with
  | nil =>
    intro position tokens
    rw [tokenizeFrom, Except.ok.injEq]
    constructor
    · rintro rfl
      exact ⟨[], .nil, rfl, rfl⟩
    · rintro ⟨_ | ⟨l | s, ls⟩, -, hspelling, hplaced⟩
      · exact hplaced
      · simp [Lexeme.chars, l.chars_ne_nil] at hspelling
      · simp [Lexeme.chars] at hspelling
  | run run rest hne hrun hrest ih =>
    intro position tokens
    rw [tokenizeFrom_run hne hrun hrest]
    constructor
    · intro h
      cases hvalue : (literal? run : Option α) with
      | none => simp [hvalue] at h
      | some value =>
        obtain ⟨l, rfl, rfl⟩ := literal?_eq_some_iff.1 hvalue
        simp only [hvalue] at h
        obtain ⟨_, htokens, rfl⟩ := except_map_eq_ok_iff.1 h
        obtain ⟨others, hothers, rfl, rfl⟩ := ih.1 htokens
        exact ⟨.literal l :: others, separated_literal_cons_iff.2 ⟨hothers, hrest⟩, rfl, rfl⟩
    · rintro ⟨ls, hls, hspelling, rfl⟩
      obtain ⟨l, others, rfl, rfl, hothers, hrest⟩ :=
        exists_literal_of_spelling hne hrun hrest hls hspelling
      have hvalue : (literal? l.chars : Option α) = some l.value :=
        literal?_eq_some_iff.2 ⟨l, rfl, rfl⟩
      simp only [hvalue, ih.2 ⟨others, hothers, hrest, rfl⟩]
      rfl
  | other c cs hc ih =>
    intro position tokens
    rw [tokenizeFrom_other hc]
    constructor
    · intro h
      cases hs : Symbol.ofChar? c with
      | none => simp [hs] at h
      | some s =>
        simp only [hs] at h
        obtain rfl := Symbol.ofChar?_eq_some_iff.1 hs
        obtain ⟨_, htokens, rfl⟩ := except_map_eq_ok_iff.1 h
        obtain ⟨others, hothers, rfl, rfl⟩ := ih.1 htokens
        exact ⟨.symbol s :: others, separated_symbol_cons_iff.2 hothers, rfl, rfl⟩
    · rintro ⟨ls, hls, hspelling, rfl⟩
      obtain ⟨s, others, rfl, rfl, hothers, hcs⟩ := exists_symbol_of_spelling hc hls hspelling
      simp only [Symbol.ofChar?_toChar, ih.2 ⟨others, hothers, hcs, rfl⟩]
      rfl

/-! ### Errors of the text -/

omit [Scalar α] in
/-- The error is about the text, and not about its tokens. -/
def EvalError.IsLexical : EvalError α → Prop
  | .illegalCharacter _ _ => True
  | .invalidNumber _ _ => True
  | _ => False

omit [Scalar α] in
theorem isLexical_of_validateFrom {cs : List Char} {e : EvalError α} :
    ∀ {position : Nat}, validateFrom position cs = .error e → e.IsLexical := by
  induction cs with
  | nil =>
    intro position h
    simp [validateFrom] at h
  | cons c cs ih =>
    intro position h
    rw [validateFrom] at h
    split at h
    · exact ih h
    · obtain rfl := Except.error.inj h
      trivial

theorem isLexical_of_tokenizeFrom {cs : List Char} {e : EvalError α} :
    ∀ {position : Nat}, tokenizeFrom position cs = .error e → e.IsLexical := by
  induction cs using runs_induction with
  | nil =>
    intro position h
    rw [tokenizeFrom] at h
    simp at h
  | run run rest hne hrun hrest ih =>
    intro position h
    rw [tokenizeFrom_run hne hrun hrest] at h
    cases hvalue : (literal? run : Option α) with
    | none =>
      simp only [hvalue] at h
      obtain rfl := Except.error.inj h
      trivial
    | some value =>
      simp only [hvalue] at h
      exact ih (except_map_eq_error_iff.1 h)
  | other c cs hc ih =>
    intro position h
    rw [tokenizeFrom_other hc] at h
    cases hs : Symbol.ofChar? c with
    | none =>
      simp only [hs] at h
      obtain rfl := Except.error.inj h
      trivial
    | some s =>
      simp only [hs] at h
      exact ih (except_map_eq_error_iff.1 h)

/-- An error that is not about the text is one of its tokens. -/
theorem exists_lexemes_of_evaluate {text : String} {e : EvalError α}
    (h : evaluate text = .error e) (he : ¬ e.IsLexical) :
    ∃ ls, Separated ls ∧ spelling ls = normalize text.toList ∧
      evaluateTokens (placed 0 ls) = .error e := by
  unfold evaluate at h
  cases hvalid : (validate (normalize text.toList) : Except (EvalError α) Unit) with
  | error e' =>
    simp only [hvalid, bind, Except.bind, Except.error.injEq] at h
    exact absurd (isLexical_of_validateFrom hvalid) (h ▸ he)
  | ok _ =>
    cases htokens : (tokenize (normalize text.toList) : Except (EvalError α) _) with
    | error e' =>
      simp only [hvalid, htokens, bind, Except.bind, Except.error.injEq] at h
      exact absurd (isLexical_of_tokenizeFrom htokens) (h ▸ he)
    | ok tokens =>
      simp only [hvalid, htokens, bind, Except.bind] at h
      obtain ⟨ls, hls, hspelling, rfl⟩ := tokenizeFrom_eq_ok_iff.1 htokens
      exact ⟨ls, hls, hspelling, h⟩

/-! ### Texts of lexemes -/

theorem isLegal_of_mem_spelling {ls : List Lexeme} {c : Char} (hc : c ∈ spelling ls) :
    isLegal c = true := by
  obtain ⟨l | s, -, hc⟩ := List.mem_flatMap.1 hc
  · simp [isLegal, l.isNumberChar_of_mem c hc]
  · obtain rfl := List.mem_singleton.1 hc
    simp [isLegal]

/-- Legal characters are printable ASCII, and not blank. -/
theorem toNat_of_isLegal {c : Char} (h : isLegal c = true) : 0x20 < c.toNat ∧ c.toNat < 0x80 := by
  simp only [isLegal, isNumberChar, isDigit, Bool.or_eq_true, decide_eq_true_eq, beq_iff_eq] at h
  rcases h with (⟨hlow, hhigh⟩ | rfl) | h
  · have hlow : 48 ≤ c.toNat := hlow
    have hhigh : c.toNat ≤ 57 := hhigh
    omega
  · decide
  · obtain ⟨s, hs⟩ := Option.isSome_iff_exists.1 h
    obtain rfl := Symbol.ofChar?_eq_some_iff.1 hs
    cases s <;> decide

theorem isBlank_of_isLegal {c : Char} (h : isLegal c = true) : isBlank c = false := by
  have hc := toNat_of_isLegal h
  simp only [isBlank, blankRanges, List.any_cons, List.any_nil, Bool.or_false,
    Bool.or_eq_false_iff, decide_eq_false_iff_not]
  omega

theorem plainOperator_of_isLegal {c : Char} (h : isLegal c = true) : plainOperator c = c := by
  have hc := toNat_of_isLegal h
  -- the operators written otherwise are beyond ASCII
  have hne : c ≠ '×' ∧ c ≠ '·' ∧ c ≠ '÷' ∧ c ≠ '−' := by
    refine ⟨?_, ?_, ?_, ?_⟩ <;> rintro rfl <;> exact absurd hc (by decide)
  simp [plainOperator, hne]

/-- Normalizing leaves a text of legal characters as it is. -/
theorem normalize_of_isLegal {cs : List Char} (h : ∀ c ∈ cs, isLegal c = true) :
    normalize cs = cs := by
  unfold normalize
  rw [List.filter_eq_self.2 fun c hc => by simp [isBlank_of_isLegal (h c hc)]]
  exact (List.map_congr_left fun c hc => plainOperator_of_isLegal (h c hc)).trans (List.map_id cs)

omit [Scalar α] in
theorem validateFrom_of_isLegal {cs : List Char} (h : ∀ c ∈ cs, isLegal c = true) :
    ∀ position, (validateFrom position cs : Except (EvalError α) Unit) = .ok () := by
  induction cs with
  | nil => exact fun _ => rfl
  | cons c cs ih =>
    intro position
    rw [validateFrom, if_pos (h c List.mem_cons_self)]
    exact ih (fun d hd => h d (List.mem_cons_of_mem c hd)) _

/-- A text of legal characters is tokenized as it is. -/
theorem evaluate_of_isLegal {text : String} (h : ∀ c ∈ text.toList, isLegal c = true) :
    (evaluate text : Except (EvalError α) α) = tokenize text.toList >>= evaluateTokens := by
  have hvalid : (validate text.toList : Except (EvalError α) Unit) = .ok () :=
    validateFrom_of_isLegal h 0
  rw [evaluate, normalize_of_isLegal h, hvalid]
  rfl

/-- The text of a row of lexemes is evaluated at its tokens. -/
theorem evaluate_spelling {ls : List Lexeme} (h : Separated ls) :
    (evaluate (String.ofList (spelling ls)) : Except (EvalError α) α) =
      evaluateTokens (placed 0 ls) := by
  have htokens : (tokenize (spelling ls) : Except (EvalError α) _) = .ok (placed 0 ls) :=
    tokenizeFrom_eq_ok_iff.2 ⟨ls, h, rfl, rfl⟩
  rw [evaluate_of_isLegal, String.toList_ofList, htokens]
  · rfl
  · rw [String.toList_ofList]
    exact fun c => isLegal_of_mem_spelling

/-- The text of a row of lexemes has a value exactly if its tokens are derived within the levels,
and it is the value of the derivation. -/
theorem evaluate_spelling_eq_ok_iff {ls : List Lexeme} (h : Separated ls) {v : α} :
    evaluate (String.ofList (spelling ls)) = .ok v ↔
      ∃ t : Derivation α .expression,
        t.yield = ls.map Lexeme.token ∧ t.levels ≤ maxLevels ∧ t.value = v := by
  rw [evaluate_spelling h, evaluateTokens_eq_ok_iff_read]
  constructor
  · rintro ⟨level, hread⟩
    obtain ⟨-, t, ht, hlevels, hvalue⟩ :=
      derives_of_read .expression _ v 0 v [] level (Nat.zero_le _) hread
    exact ⟨t, by simpa using spells_all_iff.1 ht, by omega, hvalue⟩
  · rintro ⟨t, ht, hlevels, rfl⟩
    exact ⟨0, t.isRead _ t.value 0 _ [] (spells_all_iff.2 (by simpa using ht))
      (Part.endsBefore_nil _) (by omega)⟩

end TimeValue.Expression
