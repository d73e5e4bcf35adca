import TimeValue.Proofs.Json.Grammar

/-!
# Texts are read as they spell

A text is taken up to the quote that ends it, escapes included, and given as the bytes that it
spells.  A text that is skipped is taken to the same quote; of its escapes only the form is looked
at.

## Main results

* `Reader.takes_escape` — the escapes of a character.
* `Spells.takes_text` — **a text is read as the bytes that it spells.**
* `IsText.takes_skipText` — any text is skipped.
-/

namespace TimeValue.Json

variable {rest : List UInt8}

namespace Reader

/-! ### Escapes -/

theorem takes_hexUnit {digits : List UInt8} {unit : Nat} (h : IsUnit digits unit) :
    Takes hexUnit digits unit rest := by
  unfold hexUnit
  refine takes_get_bind fun c hc => ?_
  have htake : c.rest.take 4 = digits := by
    rw [hc, ← h.length_eq, List.take_left]
  simp only [htake, h.length_eq, Nat.lt_irrefl, if_false, h.value]
  have hadvance := takes_advanceBy digits rest
  rw [h.length_eq] at hadvance
  exact hadvance.bind_last (takes_pure unit rest)

theorem takes_pairSymbol (b : UInt8) : Takes (pairSymbol b) [b] () rest := by
  refine (takes_next? b rest).bind_last ?_
  dsimp only
  rw [if_pos (beq_self_eq_true b)]
  exact takes_pure () rest

/-- The escapes of a character give its bytes. -/
theorem takes_escape {e bytes : List UInt8} (h : SpellsChar e bytes) :
    Takes escape e bytes rest := by
  have hletter : shortEscape? 0x75 = none := by decide
  unfold escape
  cases h with
  | @short b plain h =>
    refine (takes_next? b rest).bind_last ?_
    simp only [h]
    exact takes_pure _ rest
  | @unit digits unit h hfirst hsecond =>
    refine (takes_next? 0x75 _).bind (t := [0x75]) ?_
    simp only [hletter]
    refine (takes_hexUnit h).bind_last ?_
    rw [hsecond, hfirst]
    exact takes_pure _ rest
  | @pair digits digits' unit unit' h h' hfirst hsecond =>
    -- a first half is read on its own before it is known that a second one follows
    have hnot : isSecondHalf unit = false := by
      simp only [isFirstHalf, isSecondHalf, decide_eq_true_eq, decide_eq_false_iff_not] at hfirst ⊢
      omega
    refine (takes_next? 0x75 _).bind (t := [0x75]) ?_
    simp only [hletter]
    refine (takes_hexUnit h).bind ?_
    rw [hnot, hfirst]
    refine (takes_pairSymbol 0x5C).bind (t := [0x5C]) ?_
    refine (takes_pairSymbol 0x75).bind (t := [0x75]) ?_
    refine (takes_hexUnit h').bind_last ?_
    rw [hsecond]
    exact takes_pure _ rest

/-- Of an escape that is skipped only the form is looked at. -/
theorem takes_skipEscape {e : List UInt8} (h : IsEscape e) : Takes skipEscape e () rest := by
  unfold skipEscape
  cases h with
  | @short b plain h =>
    refine (takes_next? b rest).bind_last ?_
    simp only [h]
    exact takes_pure () rest
  | @unit digits unit h =>
    refine (takes_next? 0x75 _).bind (t := [0x75]) ?_
    exact (takes_hexUnit h).discard

end Reader

/-! ### Texts -/

open Reader

/-- The quote that ends a text, and the backslash of an escape, stand for something else. -/
theorem stopsRun_isPlainByte_quote (rest : List UInt8) : StopsRun isPlainByte (0x22 :: rest) :=
  stopsRun_cons_iff.2 (by decide)

theorem stopsRun_isPlainByte_backslash (rest : List UInt8) :
    StopsRun isPlainByte (0x5C :: rest) :=
  stopsRun_cons_iff.2 (by decide)

theorem Spells.takes_textFrom {t s : List UInt8} (h : Spells t s) {fuel : Nat}
    (hfuel : t.length < fuel) : Takes (textFrom fuel) (t ++ [0x22]) s rest := by
  induction h generalizing fuel with
  | @plain run h =>
    -- the fuel counts escapes, each of which is longer than nothing
    obtain ⟨fuel, rfl⟩ := Nat.exists_eq_add_one_of_ne_zero (Nat.ne_zero_of_lt hfuel)
    rw [textFrom]
    refine (takes_takeRun h (stopsRun_isPlainByte_quote rest)).bind ?_
    exact (takes_next? 0x22 rest).bind_last (takes_pure run rest)
  | @escape run e bytes t s h he _ ih =>
    obtain ⟨fuel, rfl⟩ := Nat.exists_eq_add_one_of_ne_zero (Nat.ne_zero_of_lt hfuel)
    have hfuel' : t.length < fuel := by
      simp only [List.length_append, List.length_cons] at hfuel
      omega
    have htext : run ++ 0x5C :: (e ++ t) ++ [0x22] = run ++ ([0x5C] ++ (e ++ (t ++ [0x22]))) := by
      simp
    rw [textFrom, htext]
    refine (takes_takeRun h (stopsRun_isPlainByte_backslash _)).bind ?_
    refine (takes_next? 0x5C _).bind ?_
    refine (takes_escape he).bind ?_
    exact (ih hfuel').bind_last (takes_pure _ rest)

/-- **A text is read as the bytes that it spells.** -/
theorem Spells.takes_text {t s : List UInt8} (h : Spells t s) :
    Takes text (t ++ [0x22]) s rest := by
  refine takes_get_bind fun c hc => h.takes_textFrom ?_
  rw [hc]
  simp only [List.length_append]
  omega

theorem IsText.takes_skipTextFrom {t : List UInt8} (h : IsText t) {fuel : Nat}
    (hfuel : t.length < fuel) : Takes (skipTextFrom fuel) (t ++ [0x22]) () rest := by
  induction h generalizing fuel with
  | @plain run h =>
    obtain ⟨fuel, rfl⟩ := Nat.exists_eq_add_one_of_ne_zero (Nat.ne_zero_of_lt hfuel)
    rw [skipTextFrom]
    refine ((takes_takeRun h (stopsRun_isPlainByte_quote rest)).discard).bind ?_
    refine (takes_peek? _).bind_nil ?_
    exact takes_skip 0x22 rest
  | @escape run e t h he _ ih =>
    obtain ⟨fuel, rfl⟩ := Nat.exists_eq_add_one_of_ne_zero (Nat.ne_zero_of_lt hfuel)
    have hfuel' : t.length < fuel := by
      simp only [List.length_append, List.length_cons] at hfuel
      omega
    have htext : run ++ 0x5C :: (e ++ t) ++ [0x22] = run ++ ([0x5C] ++ (e ++ (t ++ [0x22]))) := by
      simp
    rw [skipTextFrom, htext]
    refine ((takes_takeRun h (stopsRun_isPlainByte_backslash _)).discard).bind ?_
    refine (takes_peek? _).bind_nil ?_
    refine (takes_skip 0x5C _).bind ?_
    exact (takes_skipEscape he).bind (ih hfuel')

/-- Any text is skipped. -/
theorem IsText.takes_skipText {t : List UInt8} (h : IsText t) :
    Takes skipText (t ++ [0x22]) () rest := by
  refine takes_get_bind fun c hc => h.takes_skipTextFrom ?_
  rw [hc]
  simp only [List.length_append]
  omega

end TimeValue.Json
