import TimeValue.Proofs.Expression.Faults

/-!
# What positions point at

A position is computed in three places.  Both passes over the characters count them, and the reader
takes the positions of its tokens over.  Whichever error a text has, its position is the place of
what the message names: the character, the run, the parenthesis, or the token at which the reader
gives up.  Only where no token is left is it zero.

Places are counted in the text without blanks and in plain operators.  So in the text as it was
written the same character stands behind as many others that are not blank.

## Main definitions

* `GivesUpAt` — the token at which the reader gives up, as it stands in the text.
* `EvalError.PointsInto` — the position of an error is the place of what it names.

## Main results

* `getElem?_normalize_iff` — which character of a text stands where in the normalized one.
* `normalize_blank`, `normalize_plainOperator` — what normalizing does not see.
* `evaluate_error_pointsInto` — **every position points at what the message names.**
-/

namespace TimeValue.Expression

open Text

/-! ### Places in the text as it was written -/

/-- The elements that are kept stand behind as many that are kept. -/
theorem getElem?_filter_iff {β : Type} {f : β → Bool} {xs : List β} {p : Nat} {x : β} :
    (xs.filter f)[p]? = some x ↔
      ∃ before after, xs = before ++ x :: after ∧ f x = true ∧ (before.filter f).length = p := by
  constructor
  · intro h
    obtain ⟨hp, hx⟩ := List.getElem?_eq_some_iff.1 h
    -- what is kept is cut at the element, and the elements themselves where the cut comes from
    have hsplit : xs.filter f = (xs.filter f).take p ++ x :: (xs.filter f).drop (p + 1) := by
      rw [← hx, List.getElem_cons_drop, List.take_append_drop]
    obtain ⟨before, others, rfl, hbefore, hothers⟩ := List.filter_eq_append_iff.1 hsplit
    obtain ⟨gap, after, rfl, hgap, hkept, -⟩ := List.filter_eq_cons_iff.1 hothers
    refine ⟨before ++ gap, after, by simp, hkept, ?_⟩
    have hnone : gap.filter f = [] := List.filter_eq_nil_iff.2 hgap
    rw [List.filter_append, hnone, List.append_nil, hbefore, List.length_take]
    omega
  · rintro ⟨before, after, rfl, hx, rfl⟩
    simp [hx]

/-- **Which character stands where.**  In the normalized text stands, behind `p` characters, the
plain operator or the character itself of one that stands behind `p` others that are not blank. -/
theorem getElem?_normalize_iff {cs : List Char} {p : Nat} {c : Char} :
    (normalize cs)[p]? = some c ↔
      ∃ before d after, cs = before ++ d :: after ∧ isBlank d = false ∧ plainOperator d = c ∧
        (before.filter (!isBlank ·)).length = p := by
  rw [normalize, List.getElem?_map, Option.map_eq_some_iff]
  constructor
  · rintro ⟨d, hd, hc⟩
    obtain ⟨before, after, htext, hblank, hlength⟩ := getElem?_filter_iff.1 hd
    exact ⟨before, d, after, htext, by simpa using hblank, hc, hlength⟩
  · rintro ⟨before, d, after, htext, hblank, hc, hlength⟩
    exact ⟨d, getElem?_filter_iff.2 ⟨before, after, htext, by simpa using hblank, hlength⟩, hc⟩

/-- Blanks leave no trace. -/
theorem normalize_blank {b : Char} (hb : isBlank b = true) (before after : List Char) :
    normalize (before ++ b :: after) = normalize (before ++ after) := by
  simp [normalize, hb]

/-- A character other than its plain operator is not blank, and the operator is legal. -/
theorem plainOperator_cases (c : Char) :
    plainOperator c = c ∨ isBlank c = false ∧ isLegal (plainOperator c) = true := by
  unfold plainOperator
  split
  · next hstar => exact .inr ⟨by rcases hstar with rfl | rfl <;> decide, by decide⟩
  split
  · next hslash => exact .inr ⟨by rw [hslash]; decide, by decide⟩
  split
  · next hminus => exact .inr ⟨by rw [hminus]; decide, by decide⟩
  · exact .inl rfl

theorem plainOperator_idem (c : Char) : plainOperator (plainOperator c) = plainOperator c := by
  rcases plainOperator_cases c with hsame | ⟨-, hlegal⟩
  · rw [hsame, hsame]
  · exact plainOperator_of_isLegal hlegal

theorem isBlank_plainOperator (c : Char) : isBlank (plainOperator c) = isBlank c := by
  rcases plainOperator_cases c with hsame | ⟨hblank, hlegal⟩
  · rw [hsame]
  · rw [hblank, isBlank_of_isLegal hlegal]

/-- A typographic operator counts as the plain one. -/
theorem normalize_plainOperator (c : Char) (before after : List Char) :
    normalize (before ++ c :: after) = normalize (before ++ plainOperator c :: after) := by
  cases hc : isBlank c with
  | true => simp [normalize, hc, isBlank_plainOperator]
  | false => simp [normalize, hc, isBlank_plainOperator, plainOperator_idem]

/-! ### Places in the normalized text -/

variable {α : Type} [Scalar α] [NumberText α]

/-- At `p` stands the token `t`, at which the reader gives up.  Messages quote it as it stands
there, a symbol by its character and a number by the value of its run. -/
def GivesUpAt (cs : List Char) (t : Token α) (p : Nat) : Prop :=
  ∃ tokens piece, tokenize cs = .ok tokens ∧ tokens[cursor tokens]? = some ⟨t, p⟩ ∧
    StandsAt cs p piece t ∧
    ((∃ c, cs[p]? = some c ∧ t.text = c.toString) ∨
      RunAt cs p piece ∧ t.text = NumberText.plain (numeralValue piece : α))

/-- The position of an error is the place of what it names. -/
def EvalError.PointsInto (cs : List Char) : EvalError α → Prop
  | .illegalCharacter c p => cs[p]? = some c
  | .invalidNumber run p => RunAt cs p run
  | .unbalancedParentheses p => cs[p]? = some '('
  | .unexpectedToken t p => GivesUpAt cs t p
  | .trailingInput t p => GivesUpAt cs t p
  | .nestingTooDeep p =>
    (∃ t : Token α, GivesUpAt cs t p) ∨
      p = 0 ∧ ∃ tokens : List (Spanned α), tokenize cs = .ok tokens ∧ cursor tokens = tokens.length
  -- it has no position
  | .unexpectedEnd => True

theorem StandsAt.text_eq {cs piece : List Char} {p : Nat} {t : Token α}
    (h : StandsAt cs p piece t) :
    (∃ c, cs[p]? = some c ∧ t.text = c.toString) ∨
      RunAt cs p piece ∧ t.text = NumberText.plain (numeralValue piece : α) := by
  cases h with
  | symbol h => exact .inl ⟨_, h, rfl⟩
  | number hrun _ => exact .inr ⟨hrun, rfl⟩

theorem givesUpAt_of_tokenize {cs : List Char} {tokens : List (Spanned α)}
    (htokens : tokenize cs = .ok tokens) {t : Token α} {p : Nat}
    (h : tokens[cursor tokens]? = some ⟨t, p⟩) : GivesUpAt cs t p := by
  obtain ⟨piece, hpiece⟩ := exists_standsAt_of_tokenize htokens (List.mem_of_getElem? h)
  exact ⟨tokens, piece, htokens, h, hpiece, hpiece.text_eq⟩

/-- The reader's errors point at tokens, and so into the text. -/
theorem EvalError.PointsAt.pointsInto {cs : List Char} {tokens : List (Spanned α)}
    (htokens : tokenize cs = .ok tokens) {e : EvalError α}
    (h : e.PointsAt tokens (cursor tokens)) : e.PointsInto cs := by
  cases e with
  | illegalCharacter c p => exact absurd h id
  | invalidNumber run p => exact absurd h id
  -- the token there is a parenthesis, whose piece is one character
  | unbalancedParentheses p =>
    obtain ⟨piece, hpiece⟩ := exists_standsAt_of_tokenize htokens h
    cases hpiece with
    | symbol hc => exact hc
  | unexpectedToken t p => exact givesUpAt_of_tokenize htokens h
  | trailingInput t p => exact givesUpAt_of_tokenize htokens h
  | nestingTooDeep p =>
    rcases h with ⟨t, ht⟩ | ⟨hend, hp⟩
    · exact .inl ⟨t, givesUpAt_of_tokenize htokens ht⟩
    · exact .inr ⟨hp, tokens, htokens, hend⟩
  | unexpectedEnd => trivial

omit [NumberText α] in
/-- The value of a text is that of the normalized one. -/
theorem evaluate_congr {text text' : String}
    (h : normalize text.toList = normalize text'.toList) :
    (evaluate text : Except (EvalError α) α) = evaluate text' := by
  simp only [evaluate, h]

/-- **Every position points at what the message names.**  It counts the characters of the normalized
text, each of which stands in the text itself behind as many that are not blank.  Blanks put in
anywhere and operators written as other glyphs leave the error as it is. -/
theorem evaluate_error_pointsInto {text : String} {e : EvalError α} (h : evaluate text = .error e) :
    e.PointsInto (normalize text.toList) ∧
    (∀ p c, (normalize text.toList)[p]? = some c ↔
      ∃ before d after, text.toList = before ++ d :: after ∧ isBlank d = false ∧
        plainOperator d = c ∧ (before.filter (!isBlank ·)).length = p) ∧
    (∀ before b after, text.toList = before ++ after → isBlank b = true →
      evaluate (String.ofList (before ++ b :: after)) = .error e) ∧
    ∀ before c after, text.toList = before ++ plainOperator c :: after →
      evaluate (String.ofList (before ++ c :: after)) = .error e := by
  refine ⟨?_, fun p c => getElem?_normalize_iff, fun before b after htext hb => ?_,
    fun before c after htext => ?_⟩
  -- each of the three phases reports a place of its own
  · rcases evaluate_cases (α := α) text with
      ⟨p, c, hfirst, herror⟩ | ⟨-, ⟨p, run, hfirst, herror⟩ | ⟨-, tokens, htokens, heval⟩⟩
    · obtain rfl := Except.error.inj (herror.symm.trans h)
      exact hfirst.getElem?_eq
    · obtain rfl := Except.error.inj (herror.symm.trans h)
      exact hfirst.runAt
    · exact (pointsAt_of_evaluateTokens (heval.symm.trans h)).pointsInto htokens
  · rw [← h]
    refine evaluate_congr ?_
    rw [String.toList_ofList, htext, normalize_blank hb]
  · rw [← h]
    refine evaluate_congr ?_
    rw [String.toList_ofList, htext, normalize_plainOperator]

/-- In `3 ÷ 2 (` the parenthesis is the fourth of the characters that are not blank. -/
theorem evaluate_error_pointsInto_glyphs :
    (evaluate "3 ÷ 2 (" : Except (EvalError Float) Float) =
        .error (.trailingInput (.symbol .leftParen) 3) ∧
      GivesUpAt (α := Float) (normalize "3 ÷ 2 (".toList) (.symbol .leftParen) 3 := by
  have hlegal : ∀ c ∈ "3/2(".toList, isLegal c = true := List.all_eq_true.1 (by decide)
  have hplain (α : Type) [Scalar α] : (evaluate "3/2(" : Except (EvalError α) α) =
      .error (.trailingInput (.symbol .leftParen) 3) := by
    rw [evaluate_of_isLegal hlegal]
    cbv
  have hnormal : normalize "3 ÷ 2 (".toList = normalize "3/2(".toList := by decide
  have herror : (evaluate "3 ÷ 2 (" : Except (EvalError Float) Float) =
      .error (.trailingInput (.symbol .leftParen) 3) :=
    (evaluate_congr hnormal).trans (hplain Float)
  exact ⟨herror, (evaluate_error_pointsInto herror).1⟩

end TimeValue.Expression
