import TimeValue.Solver.Newton

/-!
# Runs of Newton's method

Without limits the method visits a sequence of numbers, each the step from the one before.  The
limits of the root finder only decide where the sequence is cut off: at the first step that finds
a flat slope, leads out of the bounds or is short enough, or after the last step allowed.  The
outcome says which of these it was.

Nothing is assumed of the numbers.  Comparisons may fail both ways, as they do where an operand
is not a number; a slope that is not a number counts as flat, and a number that is out of order
with a bound counts as out of it.

## Main definitions

* `newtonIterate` — the numbers visited.
* `SolverConfig.FlatAt`, `SolverConfig.OutAt`, `SolverConfig.ShortAt` — why a step ends a run.
* `SolverConfig.runOutcome` — the outcome read off the sequence.
* `EndsWithin` — what holds where a run ended that did not diverge.

## Main results

* `newtonStep_cases` — what a step can decide.
* `newtonStep_eq` — what one step of the run decides.
* `newtonFrom_eq` — what the steps that remain decide.
* `newton_invariant` — what each step preserves, within the bounds, holds where a run ends.
* `newton_eq_runOutcome` — **the method computes the outcome of its run.**
-/

namespace TimeValue

variable {α : Type} [Scalar α]

/-! ### The sequence -/

/-- The number reached from `x` after so many steps. -/
def newtonIterate (f : α → α × α) (x : α) : Nat → α
  | 0 => x
  | k + 1 => newtonIterate f x k - (f (newtonIterate f x k)).1 / (f (newtonIterate f x k)).2

/-! ### Where it is cut off -/

namespace SolverConfig

variable (config : SolverConfig α) (f : α → α × α)

/-- The number reached from the initial guess. -/
def iterate (k : Nat) : α :=
  newtonIterate f config.initialGuess k

/-- Step `k` finds a slope that is not a number, or too near to zero. -/
def FlatAt (k : Nat) : Prop :=
  Scalar.isNaN (f (config.iterate f k)).2 = true ∨
    Scalar.abs (f (config.iterate f k)).2 < config.minDerivative

/-- Step `k` leads out of the bounds. -/
def OutAt (k : Nat) : Prop :=
  config.inBounds (config.iterate f (k + 1)) = false

/-- Step `k` is shorter than the tolerance. -/
def ShortAt (k : Nat) : Prop :=
  Scalar.abs (config.iterate f (k + 1) - config.iterate f k) < config.tolerance

/-- Step `k` ends the run. -/
def EndsAt (k : Nat) : Prop :=
  config.FlatAt f k ∨ config.OutAt f k ∨ config.ShortAt f k

instance (k : Nat) : Decidable (config.FlatAt f k) := inferInstanceAs (Decidable (_ ∨ _))

instance (k : Nat) : Decidable (config.OutAt f k) := inferInstanceAs (Decidable (_ = false))

instance (k : Nat) : Decidable (config.ShortAt f k) := inferInstanceAs (Decidable (_ < _))

instance (k : Nat) : Decidable (config.EndsAt f k) := inferInstanceAs (Decidable (_ ∨ _ ∨ _))

/-- The outcome of a run that step `k` ends.  A flat slope counts before bounds, and bounds before
a short step.  A step that finds a flat slope is not taken. -/
def outcomeAt (k : Nat) : Except (SolverFailure α) (Root α) :=
  if config.FlatAt f k then
    .error (.stationaryDerivative (config.iterate f k) (f (config.iterate f k)).2 k)
  else if config.OutAt f k then .error (.divergence (config.iterate f (k + 1)) (k + 1))
  else .ok ⟨config.iterate f (k + 1), k + 1⟩

/-- The outcome of a run: that of the first step to end it, of those allowed. -/
def runOutcome : Except (SolverFailure α) (Root α) :=
  match (List.range config.maxIterations).find? (config.EndsAt f ·) with
  | some k => config.outcomeAt f k
  | none =>
    .error (.nonConvergence (config.iterate f config.maxIterations) config.maxIterations)

end SolverConfig

/-! ### The method follows its run -/

/-- What a step can decide.  It finds a flat slope, leads out of the bounds, or leads to a number
within them, at which the run may end or go on. -/
theorem newtonStep_cases (config : SolverConfig α) (done : Nat) (x value slope : α) :
    newtonStep config done x value slope = .stop (.error (.stationaryDerivative x slope done)) ∨
    newtonStep config done x value slope =
      .stop (.error (.divergence (x - value / slope) (done + 1))) ∨
    config.inBounds (x - value / slope) = true ∧
      (newtonStep config done x value slope = .stop (.ok ⟨x - value / slope, done + 1⟩) ∨
        newtonStep config done x value slope = .goOn (x - value / slope)) := by
  simp only [newtonStep]
  split
  · exact .inl rfl
  · split
    · exact .inr (.inl rfl)
    · next hbounds =>
      refine .inr (.inr ⟨by simpa using hbounds, ?_⟩)
      split
      · exact .inl rfl
      · exact .inr rfl

/-- A step does not end a run for want of steps. -/
theorem newtonStep_ne_nonConvergence (config : SolverConfig α) (done : Nat) (x value slope y : α)
    (n : Nat) :
    newtonStep config done x value slope ≠ .stop (.error (.nonConvergence y n)) := by
  obtain hstep | hstep | ⟨-, hstep | hstep⟩ := newtonStep_cases config done x value slope
  all_goals simp [hstep]

variable (f : α → α × α) (config : SolverConfig α)

/-- A step either ends the run, with its outcome, or goes on to the next number. -/
theorem newtonStep_eq (k : Nat) :
    newtonStep config k (config.iterate f k) (f (config.iterate f k)).1
        (f (config.iterate f k)).2 =
      if config.EndsAt f k then .stop (config.outcomeAt f k)
      else .goOn (config.iterate f (k + 1)) := by
  have hnext : config.iterate f k - (f (config.iterate f k)).1 / (f (config.iterate f k)).2 =
      config.iterate f (k + 1) := rfl
  have hflat : (Scalar.isNaN (f (config.iterate f k)).2 ||
      decide (Scalar.abs (f (config.iterate f k)).2 < config.minDerivative)) =
        decide (config.FlatAt f k) := by
    rw [Bool.eq_iff_iff, decide_eq_true_iff]
    simp [SolverConfig.FlatAt]
  simp only [newtonStep, hnext, hflat, decide_eq_true_eq, Bool.not_eq_true']
  -- the cases follow the order of the checks
  by_cases h : config.FlatAt f k
  · simp [h, SolverConfig.EndsAt, SolverConfig.outcomeAt]
  · by_cases h' : config.OutAt f k
    · have hout : config.inBounds (config.iterate f (k + 1)) = false := h'
      simp [h, h', hout, SolverConfig.EndsAt, SolverConfig.outcomeAt]
    · have hin : config.inBounds (config.iterate f (k + 1)) = true := by
        simpa [SolverConfig.OutAt] using h'
      simp [h, h', hin, SolverConfig.EndsAt, SolverConfig.outcomeAt, SolverConfig.ShortAt]

/-- One step of the method for a function. -/
theorem newtonFrom_succ (remaining done : Nat) (x : α) :
    Id.run (newtonFrom (fun x => pure (f x)) config (remaining + 1) done x) =
      match newtonStep config done x (f x).1 (f x).2 with
      | .stop outcome => outcome
      | .goOn next =>
        Id.run (newtonFrom (fun x => pure (f x)) config remaining (done + 1) next) := by
  rw [newtonFrom, pure_bind]
  rcases f x with ⟨value, slope⟩
  dsimp only
  rcases newtonStep config done x value slope with outcome | next <;> rfl

/-- After `done` steps the method goes on to the first of the remaining steps that ends the
run. -/
theorem newtonFrom_eq (remaining done : Nat) :
    Id.run (newtonFrom (fun x => pure (f x)) config remaining done (config.iterate f done)) =
      match (List.range' done remaining).find? (config.EndsAt f ·) with
      | some k => config.outcomeAt f k
      | none =>
        .error (.nonConvergence (config.iterate f (done + remaining)) (done + remaining)) := by
  induction remaining generalizing done with
  | zero => rfl
  | succ remaining ih =>
    -- the step at hand is the first to end the run, or the search goes on behind it
    rw [newtonFrom_succ, newtonStep_eq, List.range'_succ, List.find?_cons]
    by_cases h : config.EndsAt f done
    · simp [h]
    · simp only [h, if_false, decide_false]
      rw [ih (done + 1), Nat.add_right_comm, Nat.add_assoc done remaining 1]

/-- Each root is the end of its last step, within the bounds. -/
theorem runOutcome_eq_ok {root : Root α} (h : config.runOutcome f = .ok root) :
    ∃ k < config.maxIterations, root = ⟨config.iterate f (k + 1), k + 1⟩ ∧
      config.inBounds (config.iterate f (k + 1)) = true := by
  unfold SolverConfig.runOutcome at h
  cases hfind : (List.range config.maxIterations).find? (config.EndsAt f ·) with
  | none => simp [hfind] at h
  | some k =>
    simp only [hfind] at h
    have hk : k < config.maxIterations := List.mem_range.1 (List.mem_of_find?_eq_some hfind)
    unfold SolverConfig.outcomeAt at h
    split at h
    · simp at h
    · split at h
      · simp at h
      · next hout =>
        refine ⟨k, hk, (Except.ok.inj h).symm, ?_⟩
        simpa [SolverConfig.OutAt] using hout

/-- **The method computes the outcome of its run.**  Each root that it finds is finite and within
the bounds, and is the end of the last of at least one and at most all steps allowed. -/
theorem newton_eq_runOutcome :
    newton f config = config.runOutcome f ∧
      ∀ root, newton f config = .ok root →
        Scalar.isFinite root.value = true ∧
          config.lowerBound ≤ root.value ∧ root.value ≤ config.upperBound ∧
          root.value = config.iterate f root.iterations ∧
          1 ≤ root.iterations ∧ root.iterations ≤ config.maxIterations := by
  have hrun : newton f config = config.runOutcome f := by
    have h := newtonFrom_eq f config config.maxIterations 0
    rw [Nat.zero_add, ← List.range_eq_range'] at h
    exact h
  refine ⟨hrun, fun root hroot => ?_⟩
  rw [hrun] at hroot
  obtain ⟨k, hk, rfl, hbounds⟩ := runOutcome_eq_ok f config hroot
  simp only [SolverConfig.inBounds, Bool.and_eq_true, decide_eq_true_eq] at hbounds
  obtain ⟨⟨hfinite, hlower⟩, hupper⟩ := hbounds
  exact ⟨hfinite, hlower, hupper, rfl, Nat.succ_pos k, hk⟩

/-! ### Invariants

A run that only visits numbers within the bounds does not diverge, and ends where whatever its
steps preserve still holds. -/

section Invariant

variable {f : α → α × α} {config : SolverConfig α} {P : α → Prop}

/-- What each step preserves holds of all numbers visited. -/
theorem iterate_invariant (hstep : ∀ x, P x → P (x - (f x).1 / (f x).2))
    (hguess : P config.initialGuess) (k : Nat) : P (config.iterate f k) := by
  induction k with
  | zero => exact hguess
  | succ k ih => exact hstep _ ih

/-- `P` holds where the run ended, which is not for want of bounds. -/
def EndsWithin (P : α → Prop) : Except (SolverFailure α) (Root α) → Prop
  | .ok root => P root.value
  | .error (.divergence _ _) => False
  | .error (.stationaryDerivative x _ _) => P x
  | .error (.nonConvergence x _) => P x

/-- The steps that remain preserve `P`, and visit only numbers within the bounds. -/
theorem newtonFrom_invariant (hstep : ∀ x, P x → P (x - (f x).1 / (f x).2))
    (hbounds : ∀ x, P x → config.inBounds x = true) (remaining : Nat) :
    ∀ (done : Nat) (x : α), P x →
      EndsWithin P (Id.run (newtonFrom (fun x => pure (f x)) config remaining done x)) := by
  induction remaining with
  | zero => exact fun _ _ hx => hx
  | succ remaining ih =>
    intro done x hx
    have hnext := hstep x hx
    rw [newtonFrom_succ]
    simp only [newtonStep, hbounds _ hnext, Bool.not_true, Bool.false_eq_true, if_false]
    -- within the bounds a step stays, ends at a flat slope or a short step, or hands `P` on
    by_cases hflat : (Scalar.isNaN (f x).2 ||
        decide (Scalar.abs (f x).2 < config.minDerivative)) = true
    · rw [if_pos hflat]
      exact hx
    · rw [if_neg hflat]
      by_cases hshort : Scalar.abs (x - (f x).1 / (f x).2 - x) < config.tolerance
      · rw [if_pos hshort]
        exact hnext
      · rw [if_neg hshort]
        exact ih (done + 1) _ hnext

/-- What each step preserves, and keeps within the bounds, holds where the run ends. -/
theorem newton_invariant (hstep : ∀ x, P x → P (x - (f x).1 / (f x).2))
    (hbounds : ∀ x, P x → config.inBounds x = true) (hguess : P config.initialGuess) :
    EndsWithin P (newton f config) :=
  newtonFrom_invariant hstep hbounds config.maxIterations 0 _ hguess

end Invariant

end TimeValue
