import TimeValue.Proofs.Expression.Origin
import TimeValue.Proofs.Expression.Pieces

/-!
# Which fault is reported

A text may be at fault in three ways: a character may belong to no formula, a run of digits and
points may be no numeral, and the tokens may derive nothing.  Two passes look at the characters.
The first knows only single characters, the second takes runs together and meets both kinds of fault
from left to right.  Since the first pass comes before, an illegal character anywhere is reported
before a malformed run, wherever it stands, and both before the tokens are read.

The second pass is followed from one boundary to the next.  No run crosses a boundary, so a fault
stands before it or behind it.

## Main definitions

* `alphabet` — the characters of formulas.
* `FirstIllegal`, `FirstMalformed` — the first fault of either kind, at its place.
* `FaultlessBefore` — there is no fault of either kind before a place.
* `Boundary` — no run crosses the place between two texts.
* `Scan` — what the second pass finds.

## Main results

* `RunAt.append_right`, `RunAt.append_left`, `RunAt.of_append` — the runs of a text with a boundary
  are those before it and those behind it.
* `validate_eq_ok_iff`, `validate_eq_error_iff` — the first pass finds the first illegal character.
* `scan_tokenizeFrom` — the second pass finds the first fault.
* `faults_in_order` — **illegal characters are reported first, then malformed runs, then tokens.**
-/

namespace TimeValue.Expression

/-! ### Faults -/

/-- The characters of formulas. -/
def alphabet : List Char :=
  "0123456789.+-*/^()".toList

theorem isLegal_iff {c : Char} : isLegal c = true ↔ c ∈ alphabet := by
  constructor
  · intro h
    -- a legal character is one of 128, which can be gone through
    have hascii : ∀ n < 0x80, isLegal (Char.ofNat n) = true → Char.ofNat n ∈ alphabet := by decide
    have hc := hascii c.toNat (toNat_of_isLegal h).2
    rw [Char.ofNat_toNat] at hc
    exact hc h
  · exact List.all_eq_true.1 (by decide : alphabet.all isLegal = true) c

theorem isLegal_eq_false_iff {c : Char} : isLegal c = false ↔ c ∉ alphabet := by
  rw [← isLegal_iff, Bool.not_eq_true]

/-- At `p` stands the first character that belongs to no formula. -/
structure FirstIllegal (cs : List Char) (p : Nat) (c : Char) : Prop where
  getElem?_eq : cs[p]? = some c
  notMem : c ∉ alphabet
  before : ∀ d ∈ cs.take p, d ∈ alphabet

/-- At `p` starts the first maximal run of digits and points that is no numeral. -/
structure FirstMalformed (cs : List Char) (p : Nat) (run : List Char) : Prop where
  runAt : RunAt cs p run
  not_isNumeral : ¬ IsNumeral run
  before : ∀ q < p, ∀ run', RunAt cs q run' → IsNumeral run'

/-- Before `p` stands no illegal character and starts no malformed run. -/
structure FaultlessBefore (cs : List Char) (p : Nat) : Prop where
  legal : ∀ c ∈ cs.take p, c ∈ alphabet
  numerals : ∀ q < p, ∀ run, RunAt cs q run → IsNumeral run

theorem RunAt.lt_length {cs : List Char} {p : Nat} {run : List Char} (h : RunAt cs p run) :
    p < cs.length := by
  obtain ⟨before, after, rfl, rfl, hmaximal⟩ := h
  have hrun := List.length_pos_iff.2 hmaximal.ne_nil
  simp only [List.length_append]
  omega

/-- A run starts with a digit or a point. -/
theorem RunAt.exists_char {cs : List Char} {p : Nat} {run : List Char} (h : RunAt cs p run) :
    ∃ c, cs[p]? = some c ∧ isNumberChar c = true := by
  obtain ⟨before, after, rfl, rfl, hmaximal⟩ := h
  obtain ⟨c, cs, rfl⟩ := List.exists_cons_of_ne_nil hmaximal.ne_nil
  exact ⟨c, by simp, hmaximal.isNumberChar c List.mem_cons_self⟩

/-- At one place starts one run. -/
theorem RunAt.unique {cs : List Char} {p : Nat} {run run' : List Char} (h : RunAt cs p run)
    (h' : RunAt cs p run') : run = run' := by
  obtain ⟨before, after, rfl, hlength, hmaximal⟩ := h
  obtain ⟨before', after', htext, hlength', hmaximal'⟩ := h'
  obtain ⟨-, hrest⟩ := List.append_inj htext (hlength.trans hlength'.symm)
  -- both runs are all the digits and points from the place on
  have htake := (span_append hmaximal.isNumberChar hmaximal.ends).1
  rw [hrest, (span_append hmaximal'.isNumberChar hmaximal'.ends).1] at htake
  exact htake.symm

theorem FirstIllegal.le {cs : List Char} {p q : Nat} {c : Char} (h : FirstIllegal cs p c)
    (hbefore : ∀ d ∈ cs.take q, d ∈ alphabet) : q ≤ p := by
  by_contra hlt
  have hc : (cs.take q)[p]? = some c :=
    (List.getElem?_take_of_lt (Nat.not_le.1 hlt)).trans h.getElem?_eq
  exact h.notMem (hbefore c (List.mem_of_getElem? hc))

/-- There is one first illegal character at most. -/
theorem FirstIllegal.unique {cs : List Char} {p q : Nat} {c d : Char} (h : FirstIllegal cs p c)
    (h' : FirstIllegal cs q d) : p = q ∧ c = d := by
  obtain rfl : p = q := Nat.le_antisymm (h'.le h.before) (h.le h'.before)
  exact ⟨rfl, Option.some.inj (h.getElem?_eq.symm.trans h'.getElem?_eq)⟩

theorem FirstMalformed.le {cs : List Char} {p q : Nat} {run : List Char}
    (h : FirstMalformed cs p run)
    (hbefore : ∀ q' < q, ∀ run', RunAt cs q' run' → IsNumeral run') : q ≤ p := by
  by_contra hlt
  exact h.not_isNumeral (hbefore p (Nat.not_le.1 hlt) run h.runAt)

/-- There is one first malformed run at most. -/
theorem FirstMalformed.unique {cs : List Char} {p q : Nat} {run run' : List Char}
    (h : FirstMalformed cs p run) (h' : FirstMalformed cs q run') : p = q ∧ run = run' := by
  obtain rfl : p = q := Nat.le_antisymm (h'.le h.before) (h.le h'.before)
  exact ⟨rfl, h.runAt.unique h'.runAt⟩

/-! ### Boundaries -/

/-- No run of digits and points goes on from one text into the other. -/
def Boundary (xs rest : List Char) : Prop :=
  ∀ c d, xs.getLast? = some c → rest.head? = some d → isNumberChar c = true →
    isNumberChar d = false

/-- A run that ends at a boundary goes no further. -/
theorem RunAt.append_right {xs rest run : List Char} {p : Nat} (h : Boundary xs rest)
    (hrun : RunAt xs p run) : RunAt (xs ++ rest) p run := by
  obtain ⟨before, after, rfl, rfl, hmaximal⟩ := hrun
  refine ⟨before, after ++ rest, by simp, rfl, { hmaximal with ends := fun d hd => ?_ }⟩
  -- only a run that reaches the end of the first text could go on
  rcases after with _ | ⟨d', after⟩
  · have hlast := List.getLast?_eq_some_getLast hmaximal.ne_nil
    have hnumber := hmaximal.isNumberChar _ (List.getLast_mem hmaximal.ne_nil)
    exact h _ d (by simp [hlast]) hd hnumber
  · exact hmaximal.ends d hd

/-- A run that starts at a boundary starts no earlier. -/
theorem RunAt.append_left {xs rest run : List Char} {p : Nat} (h : Boundary xs rest)
    (hrun : RunAt rest p run) : RunAt (xs ++ rest) (xs.length + p) run := by
  obtain ⟨before, after, rfl, rfl, hmaximal⟩ := hrun
  refine ⟨xs ++ before, after, by simp, by simp, { hmaximal with starts := fun c hc => ?_ }⟩
  rcases List.eq_nil_or_concat before with rfl | ⟨before, last, rfl⟩
  · rw [List.append_nil] at hc
    obtain ⟨d, run, rfl⟩ := List.exists_cons_of_ne_nil hmaximal.ne_nil
    have hd := hmaximal.isNumberChar d List.mem_cons_self
    by_contra hnumber
    rw [h c d hc rfl (by simpa using hnumber)] at hd
    exact absurd hd (by decide)
  · exact hmaximal.starts c (by simpa using hc)

/-- A run lies on one side of a boundary. -/
theorem RunAt.of_append {xs rest run : List Char} {p : Nat} (h : Boundary xs rest)
    (hrun : RunAt (xs ++ rest) p run) :
    RunAt xs p run ∨ ∃ q, p = xs.length + q ∧ RunAt rest q run := by
  obtain ⟨before, after, htext, rfl, hmaximal⟩ := hrun
  rcases List.append_eq_append_iff.1 htext with ⟨a, rfl, hrest⟩ | ⟨a, rfl, hrun⟩
  · -- the run starts behind the boundary
    exact .inr ⟨a.length, List.length_append, a, after, hrest, rfl,
      { hmaximal with starts := fun c hc => hmaximal.starts c (by simp [hc]) }⟩
  rcases List.append_eq_append_iff.1 hrun with ⟨b, rfl, rfl⟩ | ⟨b, rfl, rfl⟩
  · -- it ends before the boundary
    exact .inl ⟨before, b, rfl, rfl,
      { hmaximal with ends := fun c hc => hmaximal.ends c (by simp [hc]) }⟩
  -- it could only cross the boundary if one side of it were empty
  rcases b with _ | ⟨d, b⟩
  · exact .inl ⟨before, [], by simp, rfl, { hmaximal with ends := by simp }⟩
  rcases List.eq_nil_or_concat a with rfl | ⟨a, c, rfl⟩
  · exact .inr ⟨0, by simp, [], after, by simp, rfl, { hmaximal with starts := by simp }⟩
  · have hc := hmaximal.isNumberChar c (by simp)
    have hd := hmaximal.isNumberChar d (by simp)
    rw [h c d (by simp) (by simp) hc] at hd
    exact absurd hd (by decide)

/-- A text without faults may stand before another one. -/
theorem FaultlessBefore.append {xs rest : List Char} {p : Nat} (hboundary : Boundary xs rest)
    (h : FaultlessBefore xs xs.length) (h' : FaultlessBefore rest p) :
    FaultlessBefore (xs ++ rest) (xs.length + p) := by
  constructor
  · intro c hc
    rw [List.take_length_add_append] at hc
    rcases List.mem_append.1 hc with hc | hc
    · exact h.legal c (by simpa using hc)
    · exact h'.legal c hc
  · intro q hq run hrun
    rcases hrun.of_append hboundary with hfirst | ⟨q', rfl, hsecond⟩
    · exact h.numerals q hfirst.lt_length run hfirst
    · exact h'.numerals q' (by omega) run hsecond

theorem FaultlessBefore.zero (cs : List Char) : FaultlessBefore cs 0 :=
  ⟨by simp, by simp⟩

/-- A symbol is without fault. -/
theorem FaultlessBefore.symbol (s : Symbol) : FaultlessBefore [s.toChar] [s.toChar].length := by
  constructor
  · intro c hc
    obtain rfl : c = s.toChar := by simpa using hc
    exact isLegal_iff.1 (by simp [isLegal])
  · intro q hq run hrun
    obtain rfl : q = 0 := by simpa using hq
    obtain ⟨c, hc, hnumber⟩ := hrun.exists_char
    obtain rfl : s.toChar = c := by simpa using hc
    rw [isNumberChar_toChar] at hnumber
    exact absurd hnumber (by decide)

/-- A text of digits and points is a run of its own. -/
theorem runAt_of_forall {run : List Char} (hne : run ≠ [])
    (hrun : ∀ c ∈ run, isNumberChar c = true) : RunAt run 0 run :=
  ⟨[], [], by simp, rfl, hne, hrun, by simp, by simp⟩

theorem RunAt.eq_of_forall {cs run : List Char} {p : Nat}
    (h : RunAt cs p run) (hcs : ∀ c ∈ cs, isNumberChar c = true) : run = cs := by
  obtain ⟨before, after, rfl, rfl, hmaximal⟩ := h
  have hbefore : before = [] := by
    rcases List.eq_nil_or_concat before with hnil | ⟨before, c, rfl⟩
    · exact hnil
    · have hc := hmaximal.starts c (by simp)
      rw [hcs c (by simp)] at hc
      exact absurd hc (by decide)
  have hafter : after = [] := by
    rcases after with _ | ⟨c, after⟩
    · rfl
    · have hc := hmaximal.ends c rfl
      rw [hcs c (by simp)] at hc
      exact absurd hc (by decide)
  simp [hbefore, hafter]

/-- A numeral is without fault. -/
theorem FaultlessBefore.numeral {run : List Char} (hrun : ∀ c ∈ run, isNumberChar c = true)
    (h : IsNumeral run) : FaultlessBefore run run.length := by
  constructor
  · intro c hc
    rw [List.take_length] at hc
    exact isLegal_iff.1 (by simp [isLegal, hrun c hc])
  · intro q _ run' hrun'
    rwa [hrun'.eq_of_forall hrun]

variable {α : Type}

/-! ### The first pass -/

theorem validateFrom_cases (cs : List Char) : ∀ position,
    (∀ c ∈ cs, c ∈ alphabet) ∧
        (validateFrom position cs : Except (EvalError α) Unit) = .ok () ∨
      ∃ p c, FirstIllegal cs p c ∧
        (validateFrom position cs : Except (EvalError α) Unit) =
          .error (.illegalCharacter c (position + p)) := by
  induction cs with
  | nil => exact fun _ => .inl ⟨by simp, rfl⟩
  | cons c cs ih =>
    intro position
    -- the first character is the first illegal one, or those of the rest stand one place further
    cases hc : isLegal c with
    | false =>
      refine .inr ⟨0, c, ⟨rfl, isLegal_eq_false_iff.1 hc, by simp⟩, ?_⟩
      rw [validateFrom, if_neg (by simp [hc])]
      rfl
    | true =>
      have hlegal := isLegal_iff.1 hc
      rcases ih (position + 1) with ⟨hall, hok⟩ | ⟨p, d, hfirst, herror⟩
      · refine .inl ⟨by simpa [hlegal] using hall, ?_⟩
        rw [validateFrom, if_pos hc, hok]
      · refine .inr ⟨p + 1, d, ⟨hfirst.getElem?_eq, hfirst.notMem, ?_⟩, ?_⟩
        · simpa [hlegal] using hfirst.before
        · rw [validateFrom, if_pos hc, herror, Nat.add_assoc, Nat.add_comm 1]

/-- The first pass finds nothing in a text of legal characters. -/
theorem validate_eq_ok_iff {cs : List Char} :
    (validate cs : Except (EvalError α) Unit) = .ok () ↔ ∀ c ∈ cs, c ∈ alphabet := by
  rcases validateFrom_cases (α := α) cs 0 with ⟨hall, hok⟩ | ⟨p, c, hfirst, herror⟩
  · exact ⟨fun _ => hall, fun _ => hok⟩
  · rw [validate, herror]
    have hmem := List.mem_of_getElem? hfirst.getElem?_eq
    simpa using ⟨c, hmem, hfirst.notMem⟩

/-- The first pass finds the first illegal character. -/
theorem validate_eq_error_iff {cs : List Char} {e : EvalError α} :
    validate cs = .error e ↔ ∃ p c, FirstIllegal cs p c ∧ e = .illegalCharacter c p := by
  rcases validateFrom_cases (α := α) cs 0 with ⟨hall, hok⟩ | ⟨p, c, hfirst, herror⟩
  · rw [validate, hok]
    simp only [reduceCtorEq, false_iff]
    rintro ⟨p, c, hfirst, -⟩
    exact hfirst.notMem (hall c (List.mem_of_getElem? hfirst.getElem?_eq))
  · rw [validate, herror, Nat.zero_add, Except.error.injEq]
    constructor
    · rintro rfl
      exact ⟨p, c, hfirst, rfl⟩
    · rintro ⟨q, d, hfirst', rfl⟩
      obtain ⟨rfl, rfl⟩ := hfirst.unique hfirst'
      rfl

/-! ### The second pass -/

/-- What the second pass finds in a text of which `position` characters come before. -/
inductive Scan (cs : List Char) (position : Nat) : Except (EvalError α) (List (Spanned α)) → Prop
  /-- There is no fault. -/
  | tokens (h : FaultlessBefore cs cs.length) (tokens : List (Spanned α)) :
      Scan cs position (.ok tokens)
  /-- The first fault is an illegal character. -/
  | illegal {p : Nat} {c : Char} (hbefore : FaultlessBefore cs p) (h : cs[p]? = some c)
      (hnot : c ∉ alphabet) : Scan cs position (.error (.illegalCharacter c (position + p)))
  /-- The first fault is a malformed run. -/
  | malformed {p : Nat} {run : List Char} (hbefore : FaultlessBefore cs p) (h : RunAt cs p run)
      (hnot : ¬ IsNumeral run) : Scan cs position (.error (.invalidNumber run (position + p)))

/-- What is found behind a text without faults is what is found at all. -/
theorem Scan.append {xs rest : List Char} {position : Nat}
    {r : Except (EvalError α) (List (Spanned α))} (h : Scan rest (position + xs.length) r)
    (hboundary : Boundary xs rest) (hxs : FaultlessBefore xs xs.length)
    (f : List (Spanned α) → List (Spanned α)) : Scan (xs ++ rest) position (r.map f) := by
  -- whatever is found, its place moves by the length of the text before
  cases h with
  | tokens h tokens =>
    have hall := hxs.append hboundary h
    rw [← List.length_append] at hall
    exact .tokens hall (f tokens)
  | @illegal p c hbefore h hnot =>
    have hc : (xs ++ rest)[xs.length + p]? = some c := by
      rw [List.getElem?_append_right (Nat.le_add_right _ _), Nat.add_sub_cancel_left, h]
    rw [Nat.add_assoc]
    exact .illegal (hxs.append hboundary hbefore) hc hnot
  | malformed hbefore h hnot =>
    rw [Nat.add_assoc]
    exact .malformed (hxs.append hboundary hbefore) (h.append_left hboundary) hnot

variable [Scalar α]

/-- **The second pass finds the first fault.** -/
theorem scan_tokenizeFrom (cs : List Char) : ∀ position,
    Scan cs position (tokenizeFrom position cs : Except (EvalError α) (List (Spanned α))) := by
  induction cs using runs_induction with
  | nil =>
    intro position
    rw [tokenizeFrom]
    exact .tokens (.zero []) []
  | run run rest hne hrun hrest ih =>
    intro position
    have hboundary : Boundary run rest := fun c d _ hd _ => hrest d hd
    rw [tokenizeFrom_run hne hrun hrest]
    cases hvalue : (literal? run : Option α) with
    | some value =>
      have hnumeral := ((literal?_eq_some_iff_isNumeral hrun).1 hvalue).1
      exact (ih _).append hboundary (.numeral hrun hnumeral) _
    | none =>
      have hnot : ¬ IsNumeral run := by
        intro h
        rw [(literal?_eq_some_iff_isNumeral hrun).2 ⟨h, rfl⟩] at hvalue
        simp at hvalue
      exact .malformed (.zero _) ((runAt_of_forall hne hrun).append_right hboundary) hnot
  | other c cs hc ih =>
    intro position
    rw [tokenizeFrom_other hc]
    cases hs : Symbol.ofChar? c with
    | some s =>
      obtain rfl := Symbol.ofChar?_eq_some_iff.1 hs
      have hboundary : Boundary [s.toChar] cs := by
        intro d e hd _ hnumber
        obtain rfl : s.toChar = d := by simpa using hd
        rw [hc] at hnumber
        exact absurd hnumber (by decide)
      exact (ih _).append hboundary (.symbol s) _
    | none =>
      have hnot : c ∉ alphabet := isLegal_eq_false_iff.1 (by simp [isLegal, hc, hs])
      exact .illegal (.zero _) rfl hnot

/-! ### The order of faults -/

theorem not_isLexical_of_evaluateTokens {tokens : List (Spanned α)} {e : EvalError α}
    (h : evaluateTokens tokens = .error e) : ¬ e.IsLexical := by
  have hpoints := pointsAt_of_evaluateTokens h
  cases e with
  | illegalCharacter c p => exact absurd hpoints id
  | invalidNumber run p => exact absurd hpoints id
  | _ => exact id

/-- In a text of legal characters the second pass finds the first malformed run, or none. -/
theorem tokenize_cases {cs : List Char} (h : ∀ c ∈ cs, c ∈ alphabet) :
    (∀ p run, RunAt cs p run → IsNumeral run) ∧
        (∃ tokens, (tokenize cs : Except (EvalError α) _) = .ok tokens) ∨
      ∃ p run, FirstMalformed cs p run ∧
        (tokenize cs : Except (EvalError α) _) = .error (.invalidNumber run p) := by
  have hscan : Scan cs 0 (tokenize cs : Except (EvalError α) _) := scan_tokenizeFrom cs 0
  generalize hr : (tokenize cs : Except (EvalError α) _) = r at hscan
  cases hscan with
  | tokens hall tokens =>
    exact .inl ⟨fun p run hrun => hall.numerals p hrun.lt_length run hrun, tokens, rfl⟩
  | illegal hbefore hc hnot => exact absurd (h _ (List.mem_of_getElem? hc)) hnot
  | malformed hbefore hrun hnot =>
    rw [Nat.zero_add]
    exact .inr ⟨_, _, ⟨hrun, hnot, hbefore.numerals⟩, rfl⟩

/-- If there is an illegal character, the second pass finds the first one, or a malformed run that
starts before it. -/
theorem tokenize_of_firstIllegal {cs : List Char} {p : Nat} {c : Char} (h : FirstIllegal cs p c) :
    (∀ q < p, ∀ run, RunAt cs q run → IsNumeral run) ∧
        (tokenize cs : Except (EvalError α) _) = .error (.illegalCharacter c p) ∨
      ∃ q run, q < p ∧ FirstMalformed cs q run ∧
        (tokenize cs : Except (EvalError α) _) = .error (.invalidNumber run q) := by
  have hscan : Scan cs 0 (tokenize cs : Except (EvalError α) _) := scan_tokenizeFrom cs 0
  generalize (tokenize cs : Except (EvalError α) _) = r at hscan
  cases hscan with
  | tokens hall tokens =>
    have hlt := (List.getElem?_eq_some_iff.1 h.getElem?_eq).1
    exact absurd (h.le hall.legal) (Nat.not_le.2 hlt)
  | illegal hbefore hc hnot =>
    obtain ⟨rfl, rfl⟩ := h.unique ⟨hc, hnot, hbefore.legal⟩
    rw [Nat.zero_add]
    exact .inl ⟨hbefore.numerals, rfl⟩
  | malformed hbefore hrun hnot =>
    rw [Nat.zero_add]
    refine .inr ⟨_, _, Nat.lt_of_le_of_ne (h.le hbefore.legal) ?_,
      ⟨hrun, hnot, hbefore.numerals⟩, rfl⟩
    -- the first character of the run is legal
    rintro rfl
    obtain ⟨d, hd, hnumber⟩ := hrun.exists_char
    obtain rfl := Option.some.inj (h.getElem?_eq.symm.trans hd)
    exact h.notMem (isLegal_iff.1 (by simp [isLegal, hnumber]))

/-- A text is refused by the first pass, or by the second, or its tokens are evaluated. -/
theorem evaluate_cases (text : String) :
    (∃ p c, FirstIllegal (normalize text.toList) p c ∧
      (evaluate text : Except (EvalError α) α) = .error (.illegalCharacter c p)) ∨
    (∀ c ∈ normalize text.toList, c ∈ alphabet) ∧
      ((∃ p run, FirstMalformed (normalize text.toList) p run ∧
        (evaluate text : Except (EvalError α) α) = .error (.invalidNumber run p)) ∨
      (∀ p run, RunAt (normalize text.toList) p run → IsNumeral run) ∧
        ∃ tokens, (tokenize (normalize text.toList) : Except (EvalError α) _) = .ok tokens ∧
          (evaluate text : Except (EvalError α) α) = evaluateTokens tokens) := by
  have heval : (evaluate text : Except (EvalError α) α) =
      validate (normalize text.toList) >>= fun _ =>
        tokenize (normalize text.toList) >>= evaluateTokens := rfl
  cases hvalid : (validate (normalize text.toList) : Except (EvalError α) Unit) with
  | error e =>
    obtain ⟨p, c, hfirst, rfl⟩ := validate_eq_error_iff.1 hvalid
    rw [hvalid] at heval
    exact .inl ⟨p, c, hfirst, heval⟩
  | ok _ =>
    have hall := validate_eq_ok_iff.1 hvalid
    refine .inr ⟨hall, ?_⟩
    rw [hvalid] at heval
    rcases tokenize_cases (α := α) hall with
      ⟨hnumerals, tokens, htokens⟩ | ⟨p, run, hfirst, herror⟩
    · rw [htokens] at heval
      exact .inr ⟨hnumerals, tokens, htokens, heval⟩
    · rw [herror] at heval
      exact .inl ⟨p, run, hfirst, heval⟩

/-- **Illegal characters are reported first, then malformed runs, then tokens.**  Where the first
pass finds nothing, the second finds the first malformed run or nothing.  Where it finds an illegal
character, so does the second, unless a malformed run starts before.  A text is therefore refused
for its first illegal character, if it has one anywhere, else for its first malformed run, if it has
one anywhere, and for its tokens only if it has neither. -/
theorem faults_in_order :
    (∀ cs, (validate cs : Except (EvalError α) Unit) = .ok () →
      ∀ e : EvalError α, tokenize cs = .error e ↔
        ∃ p run, FirstMalformed cs p run ∧ e = .invalidNumber run p) ∧
    (∀ cs c p, (validate cs : Except (EvalError α) Unit) = .error (.illegalCharacter c p) →
      (∀ q < p, ∀ run, RunAt cs q run → IsNumeral run) ∧
          (tokenize cs : Except (EvalError α) _) = .error (.illegalCharacter c p) ∨
        ∃ q run, q < p ∧ FirstMalformed cs q run ∧
          (tokenize cs : Except (EvalError α) _) = .error (.invalidNumber run q)) ∧
    ∀ text cs, cs = normalize text.toList →
      (∃ p c, FirstIllegal cs p c ∧
        (evaluate text : Except (EvalError α) α) = .error (.illegalCharacter c p)) ∨
      (∀ c ∈ cs, c ∈ alphabet) ∧
        ((∃ p run, FirstMalformed cs p run ∧
          (evaluate text : Except (EvalError α) α) = .error (.invalidNumber run p)) ∨
        (∀ p run, RunAt cs p run → IsNumeral run) ∧
          ∀ e : EvalError α, evaluate text = .error e → ¬ e.IsLexical) := by
  refine ⟨fun cs h e => ?_, fun cs c p h => ?_, ?_⟩
  · rcases tokenize_cases (α := α) (validate_eq_ok_iff.1 h) with
      ⟨hall, tokens, hok⟩ | ⟨p, run, hfirst, herror⟩
    · rw [hok]
      simp only [reduceCtorEq, false_iff]
      rintro ⟨p, run, hfirst, -⟩
      exact hfirst.not_isNumeral (hall p run hfirst.runAt)
    · rw [herror, Except.error.injEq]
      constructor
      · rintro rfl
        exact ⟨p, run, hfirst, rfl⟩
      · rintro ⟨q, run', hfirst', rfl⟩
        obtain ⟨rfl, rfl⟩ := hfirst.unique hfirst'
        rfl
  · obtain ⟨q, d, hfirst, heq⟩ := validate_eq_error_iff.1 h
    obtain ⟨rfl, rfl⟩ := EvalError.illegalCharacter.inj heq
    exact tokenize_of_firstIllegal hfirst
  · rintro text cs rfl
    rcases evaluate_cases (α := α) text with
      hillegal | ⟨hall, hmalformed | ⟨hnumerals, tokens, -, heval⟩⟩
    · exact .inl hillegal
    · exact .inr ⟨hall, .inl hmalformed⟩
    · exact .inr ⟨hall, .inr ⟨hnumerals, fun e he =>
        not_isLexical_of_evaluateTokens (heval.symm.trans he)⟩⟩

/-- In `1.2.3+2` the first run is malformed.  In `1.2.3+2a` the second pass stops there too, and yet
the text is refused for the letter at its end. -/
theorem faults_in_order_letter :
    (tokenize "1.2.3+2".toList : Except (EvalError Float) _) =
        .error (.invalidNumber "1.2.3".toList 0) ∧
      (validate "1.2.3+2a".toList : Except (EvalError Float) Unit) =
        .error (.illegalCharacter 'a' 7) ∧
      (∃ q run, q < 7 ∧ FirstMalformed "1.2.3+2a".toList q run ∧
        (tokenize "1.2.3+2a".toList : Except (EvalError Float) _) = .error (.invalidNumber run q)) ∧
      (evaluate "1.2.3+2a" : Except (EvalError Float) Float) =
        .error (.illegalCharacter 'a' 7) := by
  have hlegal : ∀ c ∈ "1.2.3+2".toList, c ∈ alphabet := fun c hc =>
    isLegal_iff.1 (List.all_eq_true.1 (by decide : "1.2.3+2".toList.all isLegal = true) c hc)
  have hfirst : FirstIllegal "1.2.3+2a".toList 7 'a' := ⟨by decide, by decide, hlegal⟩
  have hvalid : (validate "1.2.3+2".toList : Except (EvalError Float) Unit) = .ok () :=
    validate_eq_ok_iff.2 hlegal
  have hvalid' : (validate "1.2.3+2a".toList : Except (EvalError Float) Unit) =
      .error (.illegalCharacter 'a' 7) := validate_eq_error_iff.2 ⟨7, 'a', hfirst, rfl⟩
  have hrun (rest : List Char) : RunAt ("1.2.3".toList ++ '+' :: rest) 0 "1.2.3".toList := by
    refine .append_right ?_ (runAt_of_forall (by decide) (List.all_eq_true.1 (by decide)))
    intro c d _ hd _
    obtain rfl := Option.some.inj hd
    decide
  have hmalformed : ¬ IsNumeral "1.2.3".toList := fun h => absurd h.1 (by decide)
  have hnormal : "1.2.3+2a".toList = normalize "1.2.3+2a".toList := by decide
  obtain ⟨hfirstPass, hsecondPass, hevaluate⟩ := faults_in_order (α := Float)
  refine ⟨?_, hvalid', ?_, ?_⟩
  · exact (hfirstPass _ hvalid _).2 ⟨0, _, ⟨hrun _, hmalformed, by simp⟩, rfl⟩
  · rcases hsecondPass _ 'a' 7 hvalid' with ⟨hnumerals, -⟩ | hfound
    · exact absurd (hnumerals 0 (by decide) _ (hrun _)) hmalformed
    · exact hfound
  · rcases hevaluate "1.2.3+2a" _ hnormal with ⟨p, c, hfirst', herror⟩ | ⟨hall, -⟩
    · obtain ⟨rfl, rfl⟩ := hfirst.unique hfirst'
      exact herror
    · exact absurd (hall 'a' (by decide)) hfirst.notMem

end TimeValue.Expression
