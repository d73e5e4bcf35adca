import Mathlib.Data.List.Chain
import TimeValue.Proofs.Solver.Run

/-!
# What Newton's method asks

The function whose root is looked for may be any computation, with a memory of its own and answers
that follow no rule.  To see what it is asked, each call is noted beside the memory.  The notes show
that it is asked about the numbers visited and no others: first the initial guess, then again and
again the number that the last answer leads to, as long as that is within the bounds.  The count of
steps in the outcome says how often, and the last answer decides which outcome it is.

Where the slope is measured, each number visited stands for three questions, and where it is
computed apart from the value, for two.

## Main definitions

* `Call`, `noting` — a question with its answer, and a computation that notes them.
* `SolverConfig.Visits` — a run as the list of its steps.
* `evaluations` — how many steps asked for a value, by the outcome.
* `SolverConfig.IsTrace` — the steps are those of Newton's method.
* `Measurement` — a step with a slope that is measured.

## Main results

* `newtonFrom_visits` — the method does what a list of steps says, and notes each.
* `SolverConfig.Visits.isTrace` — what the steps of a run have in common.
* `newton_calls` — **the function is asked about the numbers visited, once each and in order.**
-/

namespace TimeValue

variable {α : Type}

/-! ### Notes -/

/-- A question to a computation, and the answer. -/
structure Call (α β : Type) where
  /-- What the computation was asked about. -/
  argument : α
  /-- What it answered. -/
  answer : β

/-- The same computation, which notes each call after the others. -/
def noting {β σ ε : Type} (entry : α → β → ε) (f : α → StateM σ β) (x : α) :
    StateM (σ × List ε) β := do
  let (memory, notes) ← get
  let (answer, memory) := (f x).run memory
  set (memory, notes ++ [entry x answer])
  return answer

/-- What follows a computation starts with its answer, and with the memory as it left it. -/
theorem run_bind_of_run_eq {σ β γ : Type} {g : StateM σ β} {memory memory' : σ} {answer : β}
    (h : g.run memory = (answer, memory')) (next : β → StateM σ γ) :
    (g >>= next).run memory = (next answer).run memory' := by
  rw [StateT.run_bind, h]
  rfl

theorem exists_run_eq {σ β : Type} (g : StateM σ β) (memory : σ) :
    ∃ answer memory', g.run memory = (answer, memory') :=
  ⟨(g.run memory).1, (g.run memory).2, rfl⟩

/-- A call is noted behind the notes there are. -/
theorem run_noting {β σ ε : Type} (entry : α → β → ε) {f : α → StateM σ β} {x : α} {answer : β}
    {memory memory' : σ} (h : (f x).run memory = (answer, memory')) (notes : List ε) :
    (noting entry f x).run (memory, notes) = (answer, memory', notes ++ [entry x answer]) := by
  have hrun : (noting entry f x).run (memory, notes) =
      (((f x).run memory).1, ((f x).run memory).2,
        notes ++ [entry x ((f x).run memory).1]) := rfl
  rw [hrun, h]

variable [Scalar α]

/-! ### Steps -/

/-- A step that goes on leads to a number within the bounds. -/
theorem eq_of_newtonStep_eq_goOn {config : SolverConfig α} {done : Nat} {x value slope next : α}
    (h : newtonStep config done x value slope = .goOn next) :
    next = x - value / slope ∧ config.inBounds next = true := by
  obtain hstep | hstep | ⟨hbounds, hstep | hstep⟩ := newtonStep_cases config done x value slope
  all_goals
    rw [hstep] at h
    cases h
  exact ⟨rfl, hbounds⟩

/-- How many steps asked for a value and a slope before there was an outcome.  A step that finds a
flat slope has asked, but is not taken. -/
def evaluations : Except (SolverFailure α) (Root α) → Nat
  | .ok root => root.iterations
  | .error (.divergence _ n) => n
  | .error (.stationaryDerivative _ _ n) => n + 1
  | .error (.nonConvergence _ n) => n

/-- The step that ends a run is the last to have asked. -/
theorem evaluations_of_newtonStep_eq_stop {config : SolverConfig α} {done : Nat}
    {x value slope : α} {outcome : Except (SolverFailure α) (Root α)}
    (h : newtonStep config done x value slope = .stop outcome) :
    evaluations outcome = done + 1 := by
  obtain hstep | hstep | ⟨-, hstep | hstep⟩ := newtonStep_cases config done x value slope
  all_goals
    rw [hstep] at h
    cases h
  all_goals rfl

namespace SolverConfig

/-- From `x`, with `remaining` steps allowed after `done` of them, the steps lead to the outcome. -/
inductive Visits (config : SolverConfig α) :
    (remaining done : Nat) → (x : α) → (steps : List (Call α (α × α))) →
      (outcome : Except (SolverFailure α) (Root α)) → Prop
  /-- No steps are left. -/
  | exhausted (done : Nat) (x : α) : Visits config 0 done x [] (.error (.nonConvergence x done))
  /-- A step ends the run. -/
  | last {remaining done : Nat} {x : α} {answer : α × α}
      {outcome : Except (SolverFailure α) (Root α)}
      (h : newtonStep config done x answer.1 answer.2 = .stop outcome) :
      Visits config (remaining + 1) done x [⟨x, answer⟩] outcome
  /-- A step leads to `next`. -/
  | step {remaining done : Nat} {x next : α} {answer : α × α} {steps : List (Call α (α × α))}
      {outcome : Except (SolverFailure α) (Root α)}
      (h : newtonStep config done x answer.1 answer.2 = .goOn next)
      (hothers : Visits config remaining (done + 1) next steps outcome) :
      Visits config (remaining + 1) done x (⟨x, answer⟩ :: steps) outcome

/-- The steps are those of Newton's method from the initial guess, as many as the outcome says. -/
structure IsTrace (config : SolverConfig α) (steps : List (Call α (α × α)))
    (outcome : Except (SolverFailure α) (Root α)) : Prop where
  /-- Where a step is allowed, something is asked. -/
  ne_nil : 0 < config.maxIterations → steps ≠ []
  /-- The first number asked about is the initial guess. -/
  starts : ∀ first ∈ steps.head?, first.argument = config.initialGuess
  /-- Each other is the one that the answer before leads to. -/
  follows : steps.IsChain fun step next =>
    next.argument = step.argument - step.answer.1 / step.answer.2
  /-- All but the first are within the bounds. -/
  inBounds : ∀ step ∈ steps.tail, config.inBounds step.argument = true
  /-- The outcome counts them. -/
  length_eq : steps.length = evaluations outcome
  /-- There are no more than allowed. -/
  length_le : steps.length ≤ config.maxIterations
  /-- Only all that are allowed are too few. -/
  exhausts : ∀ x n, outcome = .error (.nonConvergence x n) → n = config.maxIterations
  /-- No answer but the last one ends the run. -/
  goesOn : ∀ i step next, steps[i]? = some step → steps[i + 1]? = some next →
    newtonStep config i step.argument step.answer.1 step.answer.2 = .goOn next.argument
  /-- The last answer decides the outcome: it ends the run, or no step is left. -/
  decides : ∀ last ∈ steps.getLast?,
    newtonStep config (steps.length - 1) last.argument last.answer.1 last.answer.2 =
        .stop outcome ∨
      ∃ x, newtonStep config (steps.length - 1) last.argument last.answer.1 last.answer.2 =
          .goOn x ∧
        outcome = .error (.nonConvergence x config.maxIterations)
  /-- Where nothing is asked, no step was allowed. -/
  unasked : steps = [] → outcome = .error (.nonConvergence config.initialGuess 0)

namespace Visits

variable {config : SolverConfig α} {remaining done : Nat} {x : α} {steps : List (Call α (α × α))}
  {outcome : Except (SolverFailure α) (Root α)}

theorem ne_nil (h : config.Visits remaining done x steps outcome) (hremaining : 0 < remaining) :
    steps ≠ [] := by
  cases h with
  | exhausted => exact absurd hremaining (Nat.lt_irrefl 0)
  | last h => exact List.cons_ne_nil _ _
  | step h hothers => exact List.cons_ne_nil _ _

theorem head?_argument (h : config.Visits remaining done x steps outcome) :
    ∀ first ∈ steps.head?, first.argument = x := by
  intro first hfirst
  cases h with
  | exhausted => simp at hfirst
  | last h =>
    obtain rfl : _ = first := by simpa using hfirst
    rfl
  | step h hothers =>
    obtain rfl : _ = first := by simpa using hfirst
    rfl

theorem isChain (h : config.Visits remaining done x steps outcome) :
    steps.IsChain fun step next =>
      next.argument = step.argument - step.answer.1 / step.answer.2 := by
  induction h with
  | exhausted => exact .nil
  | last h => exact .singleton _
  | step h hothers ih =>
    refine List.isChain_cons.2 ⟨fun next hnext => ?_, ih⟩
    rw [hothers.head?_argument next hnext]
    exact (eq_of_newtonStep_eq_goOn h).1

theorem inBounds_tail (h : config.Visits remaining done x steps outcome) :
    ∀ step ∈ steps.tail, config.inBounds step.argument = true := by
  induction h with
  | exhausted => simp
  | last h => simp
  | step h hothers ih =>
    intro step hstep
    rw [List.tail_cons] at hstep
    -- the first of the others is where this step led, and the rest are behind it
    cases hothers with
    | exhausted => simp at hstep
    | last h' =>
      obtain rfl := List.mem_singleton.1 hstep
      exact (eq_of_newtonStep_eq_goOn h).2
    | step h' hothers' =>
      rcases List.mem_cons.1 hstep with rfl | hmem
      · exact (eq_of_newtonStep_eq_goOn h).2
      · exact ih step hmem

theorem evaluations_eq (h : config.Visits remaining done x steps outcome) :
    evaluations outcome = done + steps.length := by
  induction h with
  | exhausted => rfl
  | last h => exact evaluations_of_newtonStep_eq_stop h
  | step h hothers ih =>
    rw [ih, List.length_cons]
    omega

theorem length_le (h : config.Visits remaining done x steps outcome) :
    steps.length ≤ remaining := by
  induction h with
  | exhausted => exact Nat.le_refl 0
  | last h => exact Nat.succ_le_succ (Nat.zero_le _)
  | step h hothers ih => exact Nat.succ_le_succ ih

/-- A run that was cut off has taken all steps. -/
theorem eq_of_nonConvergence (h : config.Visits remaining done x steps outcome) {y : α} {n : Nat}
    (houtcome : outcome = .error (.nonConvergence y n)) : n = done + remaining := by
  induction h with
  | exhausted =>
    cases houtcome
    rfl
  | last h =>
    rw [houtcome] at h
    exact absurd h (newtonStep_ne_nonConvergence config _ _ _ _ _ _)
  | step h hothers ih =>
    rw [ih houtcome]
    omega

theorem goesOn (h : config.Visits remaining done x steps outcome) :
    ∀ i step next, steps[i]? = some step → steps[i + 1]? = some next →
      newtonStep config (done + i) step.argument step.answer.1 step.answer.2 =
        .goOn next.argument := by
  induction h with
  | exhausted => simp
  | last h => simp
  | step h hothers ih =>
    intro i step next hstep hnext
    cases i with
    | zero =>
      obtain rfl := Option.some.inj hstep
      rw [List.getElem?_cons_succ, ← List.head?_eq_getElem?] at hnext
      rw [hothers.head?_argument next hnext]
      exact h
    | succ i =>
      rw [List.getElem?_cons_succ] at hstep hnext
      have hgoes := ih i step next hstep hnext
      rwa [Nat.add_right_comm] at hgoes

/-- The last answer decides the outcome. -/
theorem decides (h : config.Visits remaining done x steps outcome) :
    ∀ last ∈ steps.getLast?,
      newtonStep config (done + steps.length - 1) last.argument last.answer.1 last.answer.2 =
          .stop outcome ∨
        ∃ y, newtonStep config (done + steps.length - 1) last.argument last.answer.1
            last.answer.2 = .goOn y ∧
          outcome = .error (.nonConvergence y (done + remaining)) := by
  induction h with
  | exhausted => simp
  | last h =>
    intro last hlast
    obtain rfl : _ = last := by simpa using hlast
    exact .inl h
  | @step remaining done x next answer steps outcome h hothers ih =>
    intro last hlast
    have hlength : done + (steps.length + 1) = done + 1 + steps.length := by omega
    have hallowed : done + (remaining + 1) = done + 1 + remaining := by omega
    rw [List.length_cons, hlength, hallowed]
    cases steps with
    | nil =>
      -- the step led on, but there is none after it
      obtain rfl : _ = last := by simpa using hlast
      cases hothers
      exact .inr ⟨next, h, rfl⟩
    | cons second steps =>
      rw [List.getLast?_cons_cons] at hlast
      exact ih last hlast

/-- Where nothing is asked, no step was left. -/
theorem unasked (h : config.Visits remaining done x steps outcome) (hsteps : steps = []) :
    outcome = .error (.nonConvergence x done) := by
  cases h with
  | exhausted => rfl
  | last => exact absurd hsteps (List.cons_ne_nil _ _)
  | step => exact absurd hsteps (List.cons_ne_nil _ _)

/-- **What the steps of a run have in common.** -/
theorem isTrace (h : config.Visits config.maxIterations 0 config.initialGuess steps outcome) :
    config.IsTrace steps outcome where
  ne_nil := h.ne_nil
  starts := h.head?_argument
  follows := h.isChain
  inBounds := h.inBounds_tail
  length_eq := by rw [h.evaluations_eq, Nat.zero_add]
  length_le := h.length_le
  exhausts x n houtcome := by rw [h.eq_of_nonConvergence houtcome, Nat.zero_add]
  goesOn i step next hstep hnext := by
    have hgoes := h.goesOn i step next hstep hnext
    rwa [Nat.zero_add] at hgoes
  decides last hlast := by
    have hdecides := h.decides last hlast
    rwa [Nat.zero_add, Nat.zero_add] at hdecides
  unasked := h.unasked

end Visits

end SolverConfig

/-! ### The method follows a list of steps -/

/-- One step of the method for a computation with a memory. -/
theorem run_newtonFrom_succ {σ : Type} {f : α → StateM σ (α × α)} {x : α} {answer : α × α}
    {memory memory' : σ} (h : (f x).run memory = (answer, memory')) (config : SolverConfig α)
    (remaining done : Nat) :
    (newtonFrom f config (remaining + 1) done x).run memory =
      match newtonStep config done x answer.1 answer.2 with
      | .stop outcome => (outcome, memory')
      | .goOn next => (newtonFrom f config remaining (done + 1) next).run memory' := by
  rw [newtonFrom, run_bind_of_run_eq h]
  dsimp only
  cases newtonStep config done x answer.1 answer.2 <;> rfl

/-- `noted` does what `f` does, and notes a step as `entries` says. -/
def Notes {ι ε σ : Type} (call : ι → Call α (α × α)) (entries : ι → List ε)
    (f : α → StateM σ (α × α)) (noted : α → StateM (σ × List ε) (α × α)) : Prop :=
  ∀ x memory notes, ∃ step memory', (call step).argument = x ∧
    (f x).run memory = ((call step).answer, memory') ∧
    (noted x).run (memory, notes) = ((call step).answer, memory', notes ++ entries step)

/-- The method does what a list of steps says, and notes each. -/
theorem newtonFrom_visits {ι ε σ : Type} {call : ι → Call α (α × α)} {entries : ι → List ε}
    {f : α → StateM σ (α × α)} {noted : α → StateM (σ × List ε) (α × α)}
    (hnotes : Notes call entries f noted) (config : SolverConfig α) (remaining : Nat) :
    ∀ (done : Nat) (x : α) (memory : σ) (notes : List ε), ∃ outcome memory', ∃ steps : List ι,
      (newtonFrom f config remaining done x).run memory = (outcome, memory') ∧
      (newtonFrom noted config remaining done x).run (memory, notes) =
        (outcome, memory', notes ++ steps.flatMap entries) ∧
      config.Visits remaining done x (steps.map call) outcome := by
  -- one more step leaves what was noted before it in front of the notes of the others
  induction remaining with
  | zero =>
    intro done x memory notes
    refine ⟨_, memory, [], rfl, ?_, .exhausted done x⟩
    rw [List.flatMap_nil, List.append_nil]
    rfl
  | succ remaining ih =>
    intro done x memory notes
    obtain ⟨step, memory₁, hargument, hf, hnoted⟩ := hnotes x memory notes
    rw [run_newtonFrom_succ hf, run_newtonFrom_succ hnoted]
    have hcall : call step = ⟨x, (call step).answer⟩ := by rw [← hargument]
    cases hstep : newtonStep config done x (call step).answer.1 (call step).answer.2 with
    | stop outcome =>
      refine ⟨outcome, memory₁, [step], rfl, ?_, ?_⟩
      · rw [List.flatMap_cons, List.flatMap_nil, List.append_nil]
      · rw [List.map_cons, List.map_nil, hcall]
        exact .last hstep
    | goOn next =>
      obtain ⟨outcome, memory', steps, hrun, hrunNoted, hvisits⟩ :=
        ih (done + 1) next memory₁ (notes ++ entries step)
      refine ⟨outcome, memory', step :: steps, hrun, ?_, ?_⟩
      · rw [List.flatMap_cons, ← List.append_assoc]
        exact hrunNoted
      · rw [List.map_cons, hcall]
        exact .step hstep hvisits

/-- What the method asks, from no notes on. -/
theorem newtonM_isTrace {ι ε σ : Type} {call : ι → Call α (α × α)} {entries : ι → List ε}
    {f : α → StateM σ (α × α)} {noted : α → StateM (σ × List ε) (α × α)}
    (hnotes : Notes call entries f noted) (config : SolverConfig α) (memory : σ) :
    ∃ outcome memory', ∃ steps : List ι,
      (newtonM f config).run memory = (outcome, memory') ∧
      (newtonM noted config).run (memory, []) = (outcome, memory', steps.flatMap entries) ∧
      config.IsTrace (steps.map call) outcome := by
  obtain ⟨outcome, memory', steps, hrun, hrunNoted, hvisits⟩ :=
    newtonFrom_visits hnotes config config.maxIterations 0 config.initialGuess memory []
  exact ⟨outcome, memory', steps, hrun, hrunNoted, hvisits.isTrace⟩

/-! ### Three ways to ask -/

section Ways

variable {m : Type → Type} [Monad m] {σ : Type}

omit [Scalar α] in
/-- Value and slope together. -/
theorem notes_joint (f : α → StateM σ (α × α)) :
    Notes id (fun step => [step]) f (noting Call.mk f) := by
  intro x memory notes
  obtain ⟨answer, memory', hf⟩ := exists_run_eq (f x) memory
  exact ⟨⟨x, answer⟩, memory', rfl, hf, run_noting Call.mk hf notes⟩

/-- A question for a value or for a slope, where they are computed apart, with its answer. -/
inductive Asked (α : Type)
  /-- The value at `x` was asked for. -/
  | value (x answer : α)
  /-- The slope at `x` was asked for. -/
  | slope (x answer : α)

/-- What is noted of a step where value and slope are computed apart. -/
def Call.asked (step : Call α (α × α)) : List (Asked α) :=
  [.value step.argument step.answer.1, .slope step.argument step.answer.2]

/-- Asks for a value, and then for a slope. -/
def askApart (f df : α → m α) (x : α) : m (α × α) := do
  let value ← f x
  let slope ← df x
  return (value, slope)

omit [Scalar α] in
theorem notes_askApart (f df : α → StateM σ α) :
    Notes id Call.asked (askApart f df) (askApart (noting .value f) (noting .slope df)) := by
  intro x memory notes
  obtain ⟨value, memory₁, hvalue⟩ := exists_run_eq (f x) memory
  obtain ⟨slope, memory₂, hslope⟩ := exists_run_eq (df x) memory₁
  refine ⟨⟨x, value, slope⟩, memory₂, rfl, ?_, ?_⟩
  · rw [askApart, run_bind_of_run_eq hvalue, run_bind_of_run_eq hslope]
    rfl
  · rw [askApart, run_bind_of_run_eq (run_noting _ hvalue notes),
      run_bind_of_run_eq (run_noting _ hslope _), List.append_assoc]
    rfl

/-- A step in which the slope is measured. -/
structure Measurement (α : Type) where
  /-- The number visited. -/
  argument : α
  /-- The value a little above. -/
  above : α
  /-- The value a little below. -/
  below : α
  /-- The value there. -/
  value : α

namespace Measurement

/-- What is asked in such a step: the values to either side, and then the value. -/
def calls (step : Measurement α) : List (Call α α) :=
  [⟨step.argument + 1e-7, step.above⟩, ⟨step.argument - 1e-7, step.below⟩,
    ⟨step.argument, step.value⟩]

/-- What the answers amount to: the value, and the slope of the line between those beside it. -/
def call (step : Measurement α) : Call α (α × α) :=
  ⟨step.argument, step.value, (step.above - step.below) / (2.0 * 1e-7)⟩

end Measurement

/-- Asks for values to either side, and then for the value. -/
def askAround (f : α → m α) (x : α) : m (α × α) := do
  let above ← f (x + slopeOffset)
  let below ← f (x - slopeOffset)
  let value ← f x
  return (value, (above - below) / (2.0 * slopeOffset))

theorem notes_askAround (f : α → StateM σ α) :
    Notes Measurement.call Measurement.calls (askAround f) (askAround (noting Call.mk f)) := by
  intro x memory notes
  obtain ⟨above, memory₁, habove⟩ := exists_run_eq (f (x + slopeOffset)) memory
  obtain ⟨below, memory₂, hbelow⟩ := exists_run_eq (f (x - slopeOffset)) memory₁
  obtain ⟨value, memory₃, hvalue⟩ := exists_run_eq (f x) memory₂
  refine ⟨⟨x, above, below, value⟩, memory₃, rfl, ?_, ?_⟩
  · rw [askAround, run_bind_of_run_eq habove, run_bind_of_run_eq hbelow, run_bind_of_run_eq hvalue]
    rfl
  · rw [askAround, run_bind_of_run_eq (run_noting _ habove notes),
      run_bind_of_run_eq (run_noting _ hbelow _), run_bind_of_run_eq (run_noting _ hvalue _),
      List.append_assoc, List.append_assoc]
    rfl

end Ways

/-- **The function is asked about the numbers visited, once each and in order**, whatever it answers
and whatever it remembers.  Where value and slope are computed apart, each is asked for once in a
step; where the slope is measured, the function is asked three times in a step. -/
theorem newton_calls (config : SolverConfig α) {σ : Type} (memory : σ) :
    (∀ f : α → StateM σ (α × α), ∃ outcome memory', ∃ steps : List (Call α (α × α)),
      (newtonM f config).run memory = (outcome, memory') ∧
      (newtonM (noting Call.mk f) config).run (memory, []) = (outcome, memory', steps) ∧
      config.IsTrace steps outcome) ∧
    (∀ f df : α → StateM σ α, ∃ outcome memory', ∃ steps : List (Call α (α × α)),
      (newtonAnalyticM f df config).run memory = (outcome, memory') ∧
      (newtonAnalyticM (noting .value f) (noting .slope df) config).run (memory, []) =
        (outcome, memory', steps.flatMap Call.asked) ∧
      config.IsTrace steps outcome) ∧
    ∀ f : α → StateM σ α, ∃ outcome memory', ∃ steps : List (Measurement α),
      (newtonNumericalM f config).run memory = (outcome, memory') ∧
      (newtonNumericalM (noting Call.mk f) config).run (memory, []) =
        (outcome, memory', steps.flatMap Measurement.calls) ∧
      config.IsTrace (steps.map Measurement.call) outcome := by
  refine ⟨fun f => ?_, fun f df => ?_, fun f => ?_⟩
  · obtain ⟨outcome, memory', steps, hrun, hnoted, htrace⟩ :=
      newtonM_isTrace (notes_joint f) config memory
    rw [List.flatMap_singleton'] at hnoted
    rw [List.map_id] at htrace
    exact ⟨outcome, memory', steps, hrun, hnoted, htrace⟩
  · obtain ⟨outcome, memory', steps, hrun, hnoted, htrace⟩ :=
      newtonM_isTrace (notes_askApart f df) config memory
    rw [List.map_id] at htrace
    exact ⟨outcome, memory', steps, hrun, hnoted, htrace⟩
  · exact newtonM_isTrace (notes_askAround f) config memory

end TimeValue
