import TimeValue.Proofs.Expression.Lexeme

/-!
# The pieces of a text

A row of lexemes is put together into a text.  Here a text is cut instead: into symbols, and into
runs of digits and points that go on at neither side.  Whether such a run is a number, and which, is
read off its characters, and where a piece stands is counted in them.  So what is said of the tokens
of a text mentions no reader and no lexeme, only characters and their places.

## Main definitions

* `RunAt` — a maximal run of digits and points, at its place.
* `IsNumeral`, `numeralValue` — the runs that are numbers, and their values.
* `StandsAt` — a piece at its place, and the token that it is.
* `offsets` — the places of pieces that follow each other.

## Main results

* `Literal.isNumeral`, `exists_literal_of_isNumeral` — the runs that are numbers are the literals.
* `forall₂_standsAt_placed`, `exists_lexemes_of_standsAt` — from lexemes to pieces, and back.
* `tokenize_eq_ok_iff_pieces` — **a text has tokens exactly if it can be cut into pieces.**
-/

namespace TimeValue.Expression

open Text

/-! ### Maximal runs -/

/-- A run of digits and points between two texts that do not go on with it. -/
structure MaximalRun (before run after : List Char) : Prop where
  ne_nil : run ≠ []
  isNumberChar : ∀ c ∈ run, isNumberChar c = true
  starts : ∀ c, before.getLast? = some c → Expression.isNumberChar c = false
  ends : ∀ c, after.head? = some c → Expression.isNumberChar c = false

/-- At `p` starts the maximal run of digits and points `run`. -/
def RunAt (cs : List Char) (p : Nat) (run : List Char) : Prop :=
  ∃ before after, cs = before ++ (run ++ after) ∧ before.length = p ∧
    MaximalRun before run after

/-! ### Numerals -/

/-- At most one point, and at least one digit. -/
def IsNumeral (run : List Char) : Prop :=
  run.count '.' ≤ 1 ∧ ∃ c ∈ run, isDigit c = true

/-- The digits of a run, read as a whole number and moved behind the point by as many places as
stand there. -/
def numeralValue {α : Type} [Scalar α] (run : List Char) : α :=
  OfScientific.ofScientific (decimalValue (run.filter isDigit)) true
    (run.length - (run.idxOf '.' + 1))

theorem point_notMem_of_isDigit {cs : List Char} (h : ∀ c ∈ cs, isDigit c = true) : '.' ∉ cs :=
  fun hpoint => absurd (h '.' hpoint) (by decide)

theorem isDigit_of_point_notMem {cs : List Char} (h : ∀ c ∈ cs, isNumberChar c = true)
    (hpoint : '.' ∉ cs) : ∀ c ∈ cs, isDigit c = true := by
  intro c hc
  have hne : c ≠ '.' := fun heq => hpoint (heq ▸ hc)
  simpa [isNumberChar, hne] using h c hc

theorem Literal.isNumeral (l : Literal) : IsNumeral l.chars := by
  obtain ⟨whole, _ | places, hwhole, hplaces, hdigit⟩ := l
  · obtain ⟨c, hc⟩ := List.exists_mem_of_ne_nil whole (by simpa using hdigit)
    have hcount := List.count_eq_zero.2 (point_notMem_of_isDigit hwhole)
    exact ⟨by simp [chars, hcount], c, by simpa [chars] using hc, hwhole c hc⟩
  · have hcount := List.count_eq_zero.2 (point_notMem_of_isDigit hwhole)
    have hcount' := List.count_eq_zero.2 (point_notMem_of_isDigit hplaces)
    rw [Option.getD_some] at hcount' hdigit
    refine ⟨by simp [chars, hcount, hcount'], ?_⟩
    obtain ⟨c, hc⟩ := List.exists_mem_of_ne_nil _ hdigit
    rcases List.mem_append.1 hc with hc | hc
    · exact ⟨c, by simp [chars, hc], hwhole c hc⟩
    · exact ⟨c, by simp [chars, hc], hplaces c hc⟩

/-- The value of a literal is read off its characters. -/
theorem Literal.value_eq_numeralValue {α : Type} [Scalar α] (l : Literal) :
    (l.value : α) = numeralValue l.chars := by
  obtain ⟨whole, _ | places, hwhole, hplaces, hdigit⟩ := l
  · have hpoint := point_notMem_of_isDigit hwhole
    have hfilter : whole.filter isDigit = whole := List.filter_eq_self.2 hwhole
    simp [value, numeralValue, chars, hfilter, List.idxOf_eq_length hpoint]
  · have hpoint := point_notMem_of_isDigit hwhole
    have hfilter : whole.filter isDigit = whole := List.filter_eq_self.2 hwhole
    have hfilter' : places.filter isDigit = places := List.filter_eq_self.2 hplaces
    have hnot : isDigit '.' = false := by decide
    -- the digits stay when the point goes, and it stands behind the whole ones
    have hplace : whole.length + (places.length + 1) - (whole.length + 1) = places.length := by
      omega
    simp [value, numeralValue, chars, hfilter, hfilter', hnot, List.idxOf_append_of_notMem hpoint,
      hplace]

/-- The runs that are numbers are the literals. -/
theorem exists_literal_of_isNumeral {run : List Char} (hrun : ∀ c ∈ run, isNumberChar c = true)
    (h : IsNumeral run) : ∃ l : Literal, l.chars = run := by
  obtain ⟨hcount, d, hd, hdigit⟩ := h
  -- the one point, if there is any, parts the digits before it from those behind it
  by_cases hpoint : '.' ∈ run
  · obtain ⟨whole, places, rfl, hwhole⟩ := List.eq_append_cons_of_mem hpoint
    have hplaces : '.' ∉ places := by
      rw [List.count_append, List.count_cons_self] at hcount
      exact List.count_eq_zero.1 (by omega)
    have hwhole := isDigit_of_point_notMem (fun c hc => hrun c (by simp [hc])) hwhole
    have hplaces := isDigit_of_point_notMem (fun c hc => hrun c (by simp [hc])) hplaces
    refine ⟨⟨whole, some places, hwhole, hplaces, ?_⟩, rfl⟩
    have hne : d ≠ '.' := by
      rintro rfl
      exact absurd hdigit (by decide)
    have hmem : d ∈ whole ++ places := by simpa [hne] using hd
    exact List.ne_nil_of_mem hmem
  · refine ⟨⟨run, none, isDigit_of_point_notMem hrun hpoint, by simp, ?_⟩, ?_⟩
    · simpa using List.ne_nil_of_mem hd
    · simp [Literal.chars]

variable {α : Type} [Scalar α]

/-- A run of digits and points is read as a number exactly if it is a numeral. -/
theorem literal?_eq_some_iff_isNumeral {run : List Char}
    (hrun : ∀ c ∈ run, isNumberChar c = true) {x : α} :
    literal? run = some x ↔ IsNumeral run ∧ numeralValue run = x := by
  rw [literal?_eq_some_iff]
  constructor
  · rintro ⟨l, rfl, rfl⟩
    exact ⟨l.isNumeral, l.value_eq_numeralValue.symm⟩
  · rintro ⟨h, rfl⟩
    obtain ⟨l, rfl⟩ := exists_literal_of_isNumeral hrun h
    exact ⟨l, rfl, l.value_eq_numeralValue⟩

/-! ### Pieces -/

/-- At `p` stands a piece of the text, and it is this token. -/
inductive StandsAt (cs : List Char) (p : Nat) : (piece : List Char) → Token α → Prop
  /-- A symbol is a piece by itself. -/
  | symbol {s : Symbol} (h : cs[p]? = some s.toChar) : StandsAt cs p [s.toChar] (.symbol s)
  /-- Digits and points are taken together as far as they go, and must be a numeral. -/
  | number {run : List Char} (hrun : RunAt cs p run) (h : IsNumeral run) :
      StandsAt cs p run (.number (numeralValue run))

/-- Where pieces start that follow each other from `p` on. -/
def offsets (p : Nat) : List (List Char) → List Nat
  | [] => []
  | piece :: pieces => p :: offsets (p + piece.length) pieces

/-! ### From lexemes to pieces -/

/-- Before a literal no run of digits and points ends. -/
theorem isNumberChar_getLast?_spelling {before ls : List Lexeme} {l : Literal}
    (h : Separated (before ++ .literal l :: ls)) (c : Char)
    (hc : (spelling before).getLast? = some c) : isNumberChar c = false := by
  -- two literals side by side would be one, so that a symbol ends the text before
  rcases List.eq_nil_or_concat before with rfl | ⟨before, last, rfl⟩
  · simp at hc
  · have hapart := (List.isChain_append.1 h).2.2 last (by simp) (.literal l) (by simp)
    cases last with
    | literal l' => exact absurd hapart id
    | symbol s =>
      obtain rfl : s.toChar = c := by simpa [Lexeme.chars] using hc
      exact isNumberChar_toChar s

/-- A lexeme stands in a text where the lexemes before it end. -/
theorem standsAt_lexeme {before ls : List Lexeme} {l : Lexeme}
    (h : Separated (before ++ l :: ls)) :
    StandsAt (spelling (before ++ l :: ls)) (spelling before).length l.chars
      (l.token : Token α) := by
  cases l with
  | symbol s =>
    refine .symbol ?_
    simp [Lexeme.chars]
  | literal l =>
    have hafter := (separated_literal_cons_iff.1 (List.isChain_append.1 h).2.1).2
    -- its characters go on neither before the literal nor behind it
    have hrun : RunAt (spelling (before ++ .literal l :: ls)) (spelling before).length l.chars :=
      ⟨spelling before, spelling ls, by simp [Lexeme.chars], rfl, l.chars_ne_nil,
        l.isNumberChar_of_mem, isNumberChar_getLast?_spelling h, hafter⟩
    rw [Lexeme.token, l.value_eq_numeralValue]
    exact .number hrun l.isNumeral

/-- The lexemes behind `before` are pieces of the whole text. -/
theorem forall₂_standsAt_placed {ls : List Lexeme} : ∀ before : List Lexeme,
    Separated (before ++ ls) →
      List.Forall₂ (fun piece (t : Spanned α) =>
          StandsAt (spelling (before ++ ls)) t.position piece t.token)
        (ls.map Lexeme.chars) (placed (spelling before).length ls) := by
  induction ls with
  | nil => exact fun _ _ => .nil
  | cons l ls ih =>
    intro before h
    -- the induction moves lexemes to those before, where their characters stay in the text
    have hlength :
        (spelling (before ++ [l])).length = (spelling before).length + l.chars.length := by
      simp
    have hrest := ih (before ++ [l]) (by simpa using h)
    rw [List.append_assoc, List.singleton_append, hlength] at hrest
    exact .cons (standsAt_lexeme h) hrest

/-- Every token of a text is a piece of it, where the token stands. -/
theorem exists_standsAt_of_tokenize {cs : List Char} {tokens : List (Spanned α)}
    (h : tokenize cs = .ok tokens) {t : Spanned α} (ht : t ∈ tokens) :
    ∃ piece, StandsAt cs t.position piece t.token := by
  obtain ⟨ls, hls, rfl, rfl⟩ := tokenizeFrom_eq_ok_iff.1 h
  have hpieces := forall₂_standsAt_placed (α := α) [] hls
  obtain ⟨i, hi, rfl⟩ := List.mem_iff_getElem.1 ht
  exact ⟨_, hpieces.get (hpieces.length_eq ▸ hi) hi⟩

theorem map_position_placed (ls : List Lexeme) : ∀ position,
    (placed position ls : List (Spanned α)).map (·.position) =
      offsets position (ls.map Lexeme.chars) := by
  induction ls with
  | nil => exact fun _ => rfl
  | cons l ls ih => exact fun position => by simp [placed, offsets, ih]

/-! ### From pieces to lexemes -/

/-- A piece of a text is a lexeme, and may stand before those of the rest. -/
theorem StandsAt.exists_lexeme {before piece rest : List Char} {token : Token α}
    (h : StandsAt (before ++ (piece ++ rest)) before.length piece token) :
    ∃ l : Lexeme, l.chars = piece ∧ l.token = token ∧
      ∀ ls, spelling ls = rest → Separated ls → Separated (l :: ls) := by
  cases h with
  | symbol h => exact ⟨.symbol _, rfl, rfl, fun ls _ hls => separated_symbol_cons_iff.2 hls⟩
  | number hrun h =>
    obtain ⟨before', after, htext, hlength, hmaximal⟩ := hrun
    -- both cut the text at one place, and what they cut off is the run
    obtain ⟨-, htext⟩ := List.append_inj htext hlength.symm
    obtain rfl := List.append_cancel_left htext
    obtain ⟨l, rfl⟩ := exists_literal_of_isNumeral hmaximal.isNumberChar h
    refine ⟨.literal l, rfl, ?_, ?_⟩
    · rw [Lexeme.token, l.value_eq_numeralValue]
    · rintro ls rfl hls
      exact separated_literal_cons_iff.2 ⟨hls, hmaximal.ends⟩

/-- Pieces that follow each other are a row of lexemes, with the tokens of the pieces. -/
theorem exists_lexemes_of_standsAt {pieces : List (List Char)} :
    ∀ (before : List Char) {tokens : List (Spanned α)},
      tokens.map (·.position) = offsets before.length pieces →
      List.Forall₂ (fun piece (t : Spanned α) =>
          StandsAt (before ++ pieces.flatten) t.position piece t.token) pieces tokens →
      ∃ ls, Separated ls ∧ spelling ls = pieces.flatten ∧ placed before.length ls = tokens := by
  induction pieces with
  | nil =>
    intro before tokens _ h
    cases h
    exact ⟨[], .nil, rfl, rfl⟩
  | cons piece pieces ih =>
    intro before tokens hpositions h
    rcases h with _ | @⟨_, ⟨token, position⟩, _, tokens, hpiece, hpieces⟩
    obtain ⟨rfl, hafter⟩ := List.cons.inj hpositions
    obtain ⟨l, rfl, rfl, hseparated⟩ := hpiece.exists_lexeme
    rw [List.flatten_cons, ← List.append_assoc] at hpieces
    rw [← List.length_append] at hafter
    obtain ⟨ls, hls, hspelling, hplaced⟩ := ih _ hafter hpieces
    refine ⟨l :: ls, hseparated ls hspelling hls, ?_, ?_⟩
    · rw [spelling_cons, hspelling, List.flatten_cons]
    · rw [placed, ← List.length_append, hplaced]

/-! ### Places of tokens -/

theorem Lexeme.chars_ne_nil (l : Lexeme) : l.chars ≠ [] := by
  cases l with
  | literal l => exact l.chars_ne_nil
  | symbol s => exact List.cons_ne_nil _ _

theorem le_position_of_mem_placed {ls : List Lexeme} : ∀ {position : Nat} {t : Spanned α},
    t ∈ placed position ls → position ≤ t.position := by
  induction ls with
  | nil => intro position t h; simp [placed] at h
  | cons l ls ih =>
    intro position t h
    rcases List.mem_cons.1 h with rfl | h
    · exact Nat.le_refl _
    · exact Nat.le_trans (Nat.le_add_right _ _) (ih h)

/-- Tokens stand behind those before them. -/
theorem pairwise_position_placed (ls : List Lexeme) : ∀ position,
    (placed position ls : List (Spanned α)).Pairwise (·.position < ·.position) := by
  induction ls with
  | nil => exact fun _ => .nil
  | cons l ls ih =>
    intro position
    refine .cons (fun t ht => ?_) (ih _)
    have hlength : 0 < l.chars.length := List.length_pos_iff.2 l.chars_ne_nil
    -- the tokens behind the first start where it ends, and it has a character
    have hle := le_position_of_mem_placed ht
    show position < t.position
    omega

/-- No two tokens side by side are numbers. -/
theorem isChain_token_placed {ls : List Lexeme} (h : Separated ls) : ∀ position,
    (placed position ls : List (Spanned α)).IsChain fun t u =>
      ¬ ∃ x y, t.token = .number x ∧ u.token = .number y := by
  induction ls with
  | nil => exact fun _ => .nil
  | cons l ls ih =>
    intro position
    rcases ls with _ | ⟨l', ls⟩
    · exact .singleton _
    · obtain ⟨hapart, hls⟩ := List.isChain_cons_cons.1 h
      refine .cons_cons ?_ (ih hls _)
      rintro ⟨x, y, hx, hy⟩
      cases l with
      | symbol s => simp [Lexeme.token] at hx
      | literal m =>
        cases l' with
        | symbol s => simp [Lexeme.token] at hy
        | literal m' => exact hapart

/-! ### The tokens of a text -/

/-- **A text has tokens exactly if it can be cut into pieces**, one for each token in order.  Each
piece is a symbol, or a maximal run of digits and points that is a numeral, and its token stands
where it starts.  So the first token stands at the start of the text, each further one behind those
before it, and two numbers never follow each other. -/
theorem tokenize_eq_ok_iff_pieces {cs : List Char} {tokens : List (Spanned α)} :
    (tokenize cs = .ok tokens ↔
      ∃ pieces : List (List Char), pieces.flatten = cs ∧
        tokens.map (·.position) = offsets 0 pieces ∧
        List.Forall₂ (fun piece t => StandsAt cs t.position piece t.token) pieces tokens) ∧
    (tokenize cs = .ok tokens →
      (∀ t, tokens.head? = some t → t.position = 0) ∧
      tokens.Pairwise (·.position < ·.position) ∧
      tokens.IsChain fun t u => ¬ ∃ x y, t.token = .number x ∧ u.token = .number y) := by
  refine ⟨⟨fun h => ?_, ?_⟩, fun h => ?_⟩
  · obtain ⟨ls, hls, rfl, rfl⟩ := tokenizeFrom_eq_ok_iff.1 h
    exact ⟨ls.map Lexeme.chars, rfl, map_position_placed ls 0,
      forall₂_standsAt_placed [] hls⟩
  · rintro ⟨pieces, rfl, hpositions, hpieces⟩
    obtain ⟨ls, hls, hspelling, hplaced⟩ :=
      exists_lexemes_of_standsAt [] hpositions hpieces
    exact tokenizeFrom_eq_ok_iff.2 ⟨ls, hls, hspelling, hplaced⟩
  · obtain ⟨ls, hls, rfl, rfl⟩ := tokenizeFrom_eq_ok_iff.1 h
    refine ⟨fun t ht => ?_, pairwise_position_placed ls 0, isChain_token_placed hls 0⟩
    rcases ls with _ | ⟨l, ls⟩
    · simp [placed] at ht
    · obtain rfl := Option.some.inj ht
      rfl

/-- The tokens of `12.5/(.5)`. -/
def quotientTokens : List (Spanned Float) :=
  [⟨.number 12.5, 0⟩, ⟨.symbol .slash, 4⟩, ⟨.symbol .leftParen, 5⟩, ⟨.number 0.5, 6⟩,
    ⟨.symbol .rightParen, 8⟩]

/-- `12.5/(.5)` has five tokens, and is cut into five pieces. -/
theorem tokenize_eq_ok_iff_pieces_quotient :
    tokenize "12.5/(.5)".toList = .ok quotientTokens ∧
      (∃ pieces : List (List Char), pieces.flatten = "12.5/(.5)".toList ∧
        offsets 0 pieces = [0, 4, 5, 6, 8] ∧
        List.Forall₂ (fun piece t => StandsAt "12.5/(.5)".toList t.position piece t.token) pieces
          quotientTokens) ∧
      quotientTokens.Pairwise (·.position < ·.position) := by
  have htokens : tokenize "12.5/(.5)".toList = .ok quotientTokens := by
    have h (α : Type) [Scalar α] : (tokenize "12.5/(.5)".toList : Except (EvalError α) _) =
        .ok [⟨.number (OfScientific.ofScientific 125 true 1), 0⟩, ⟨.symbol .slash, 4⟩,
          ⟨.symbol .leftParen, 5⟩, ⟨.number (OfScientific.ofScientific 5 true 1), 6⟩,
          ⟨.symbol .rightParen, 8⟩] := by cbv
    exact h Float
  obtain ⟨pieces, hpieces, hpositions, hstand⟩ := tokenize_eq_ok_iff_pieces.1.1 htokens
  exact ⟨htokens, ⟨pieces, hpieces, hpositions.symm, hstand⟩,
    (tokenize_eq_ok_iff_pieces.2 htokens).2.1⟩

end TimeValue.Expression
