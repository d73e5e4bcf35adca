import TimeValue.Proofs.Decimal.RoundTrip
import TimeValue.Proofs.Expression.Pieces

/-!
# Tokens written out

Tokens written one behind the other, each as messages quote it, make a text.  Where no two numbers
follow each other, the text has the tokens that were written: a symbol is one character, and the
digits of a number go on until a symbol or the end.  All that this asks of a number is that its own
text is a literal of it.  Floating point numbers that are finite and have no sign pass, for the
digits that they are written with are read back.

## Main definitions

* `written` — the text of tokens.
* `Token.Legible` — a token that is the one of its text.

## Main results

* `tokenize_written_of_legible` — the text of legible tokens, over any numbers.
* `tokenize_written` — **tokens are read back from their text.**
-/

namespace TimeValue.Expression

open Text Decimal

variable {α : Type} [Scalar α] [NumberText α]

/-! ### Texts of tokens -/

omit [Scalar α] in
/-- The text of tokens, one behind the other. -/
def written (tokens : List (Token α)) : List Char :=
  (tokens.map (·.text.toList)).flatten

/-- The token is that of a lexeme with its text. -/
def Token.Legible (t : Token α) : Prop :=
  ∃ l : Lexeme, l.chars = t.text.toList ∧ l.token = t

theorem Token.legible_symbol (s : Symbol) : (Token.symbol s : Token α).Legible :=
  ⟨.symbol s, (String.toList_singleton s.toChar).symm, rfl⟩

/-- A number is legible if its text is a numeral of its value. -/
theorem Token.legible_number {x : α} (h : literal? (NumberText.plain x).toList = some x) :
    (Token.number x).Legible := by
  obtain ⟨l, hchars, hvalue⟩ := literal?_eq_some_iff.1 h
  exact ⟨.literal l, hchars, congrArg Token.number hvalue⟩

/-- Legible tokens are those of lexemes with their texts. -/
theorem exists_lexemes_of_legible {tokens : List (Token α)} (h : ∀ t ∈ tokens, t.Legible) :
    ∃ ls : List Lexeme, ls.map Lexeme.chars = tokens.map (·.text.toList) ∧
      ls.map Lexeme.token = tokens := by
  induction tokens with
  | nil => exact ⟨[], rfl, rfl⟩
  | cons t tokens ih =>
    obtain ⟨l, hchars, htoken⟩ := h t List.mem_cons_self
    obtain ⟨ls, hchars', htoken'⟩ := ih fun u hu => h u (List.mem_cons_of_mem t hu)
    exact ⟨l :: ls, by simp [hchars, hchars'], by simp [htoken, htoken']⟩

omit [NumberText α] in
/-- Lexemes are separated if no two of their tokens side by side are numbers. -/
theorem separated_of_isChain_token {ls : List Lexeme}
    (h : (ls.map (Lexeme.token : Lexeme → Token α)).IsChain fun t u =>
      ¬ ∃ x y, t = .number x ∧ u = .number y) : Separated ls := by
  refine ((List.isChain_map _).1 h).imp fun l l' hapart => ?_
  cases l with
  | symbol s => exact Lexeme.apart_symbol_left s l'
  | literal l =>
    -- two literals have numbers for their tokens, and nothing else can touch
    cases l' with
    | symbol s => exact Lexeme.apart_symbol_right _ s
    | literal l' => exact absurd ⟨l.value, l'.value, rfl, rfl⟩ hapart

/-- **The text of legible tokens has them as its tokens**, if no two numbers follow each other.
Each stands where the texts of those before it end.  The text is in normal form, and valid. -/
theorem tokenize_written_of_legible {tokens : List (Token α)} (hlegible : ∀ t ∈ tokens, t.Legible)
    (hapart : tokens.IsChain fun t u => ¬ ∃ x y, t = .number x ∧ u = .number y) :
    (∃ placed, tokenize (written tokens) = .ok placed ∧ placed.map (·.token) = tokens ∧
      placed.map (·.position) = offsets 0 (tokens.map (·.text.toList))) ∧
    (validate (written tokens) : Except (EvalError α) Unit) = .ok () ∧
    normalize (written tokens) = written tokens := by
  obtain ⟨ls, hchars, htoken⟩ := exists_lexemes_of_legible hlegible
  have hls : Separated ls := separated_of_isChain_token (htoken ▸ hapart)
  have hspelling : spelling ls = written tokens := by
    rw [written, ← hchars]
    exact List.flatMap_def
  -- the text is one of lexemes, in which no other character occurs
  have hlegal : ∀ c ∈ written tokens, isLegal c = true := by
    rw [← hspelling]
    exact fun c => isLegal_of_mem_spelling
  refine ⟨⟨placed 0 ls, ?_, ?_, ?_⟩, validateFrom_of_isLegal hlegal 0, normalize_of_isLegal hlegal⟩
  · exact tokenizeFrom_eq_ok_iff.2 ⟨ls, hls, hspelling, rfl⟩
  · rw [map_token_placed, htoken]
  · rw [map_position_placed, hchars]

/-- **Tokens are read back from their text.**  Its numbers are finite and without a sign, and no two
of them follow each other.  Then the text has the same tokens in the same order, each where the
texts of those before it end; it is valid, and in normal form already. -/
theorem tokenize_written {tokens : List (Token Float)}
    (hnumbers : ∀ x, .number x ∈ tokens → x.isFinite = true ∧ x.toBits.toNat < Binary64.signBit)
    (hapart : tokens.IsChain fun t u => ¬ ∃ x y, t = .number x ∧ u = .number y) :
    (∃ placed, tokenize (written tokens) = .ok placed ∧ placed.map (·.token) = tokens ∧
      placed.map (·.position) = offsets 0 (tokens.map (·.text.toList))) ∧
    (validate (written tokens) : Except (EvalError Float) Unit) = .ok () ∧
    normalize (written tokens) = written tokens := by
  refine tokenize_written_of_legible (fun t ht => ?_) hapart
  cases t with
  | symbol s => exact Token.legible_symbol s
  | number x =>
    obtain ⟨hfinite, hsign⟩ := hnumbers x ht
    exact Token.legible_number (literal?_plain hfinite hsign)

/-- The tokens of `0.1*(20)`. -/
def tenthTokens : List (Token Float) :=
  [.number 0.1, .symbol .star, .symbol .leftParen, .number 20, .symbol .rightParen]

/-- The five tokens of `0.1*(20)` are read back, with numbers between and beside symbols. -/
theorem tokenize_written_tenth :
    (∀ x, .number x ∈ tenthTokens → x.isFinite = true ∧ x.toBits.toNat < Binary64.signBit) ∧
      (tenthTokens.IsChain fun t u => ¬ ∃ x y, t = .number x ∧ u = .number y) ∧
      written tenthTokens = "0.1*(20)".toList ∧
      ∃ placed, tokenize "0.1*(20)".toList = .ok placed ∧ placed.map (·.token) = tenthTokens ∧
        placed.map (·.position) = [0, 3, 4, 5, 7] := by
  have hnumbers : ∀ x, .number x ∈ tenthTokens →
      x.isFinite = true ∧ x.toBits.toNat < Binary64.signBit := by
    intro x hx
    simp only [tenthTokens, List.mem_cons, Token.number.injEq, reduceCtorEq, List.not_mem_nil,
      or_false, false_or] at hx
    obtain rfl | rfl := hx <;> decide
  have hapart : tenthTokens.IsChain fun t u => ¬ ∃ x y, t = .number x ∧ u = .number y := by
    simp [tenthTokens]
  have htexts : tenthTokens.map (·.text.toList) =
      [['0', '.', '1'], ['*'], ['('], ['2', '0'], [')']] := by
    decide +kernel
  obtain ⟨⟨placed, hplaced, htokens, hpositions⟩, -⟩ := tokenize_written hnumbers hapart
  have hwritten : written tenthTokens = "0.1*(20)".toList := congrArg List.flatten htexts
  rw [hwritten] at hplaced
  rw [htexts] at hpositions
  exact ⟨hnumbers, hapart, hwritten, placed, hplaced, htokens, hpositions⟩

end TimeValue.Expression
