import TimeValue.Proofs.Order
import TimeValue.Proofs.Solver.Calls

/-!
# Looser limits

The limits of the root finder only ever end a run.  Where they are loosened, each step that did not
fail does what it did before: a slope that was steep enough still is, and a number within the bounds
stays within them.  So the run visits the same numbers, and a root that was found is found again,
after as many steps.  A failure may well become another one, or a root.

All that this takes of the numbers is that comparisons go together.  A limit that is not a number is
looser than none and none is looser than it.

## Main definitions

* `SolverConfig.IsLooser` — limits that end a run no sooner.

## Main results

* `newtonStep_of_isLooser` — a step that does not fail decides the same under looser limits.
* `newtonFrom_of_isLooser` — nor do the steps that remain lose a root.
* `newtonM_of_isLooser` — **looser limits lose no root.**
-/

namespace TimeValue

variable {α : Type} [Scalar α]

namespace SolverConfig

/-- The first limits end a run no sooner than the second.  Both start at the same number and take
the same steps to be short. -/
structure IsLooser (loose strict : SolverConfig α) : Prop where
  initialGuess : loose.initialGuess = strict.initialGuess
  tolerance : loose.tolerance = strict.tolerance
  lowerBound : loose.lowerBound ≤ strict.lowerBound
  upperBound : strict.upperBound ≤ loose.upperBound
  minDerivative : loose.minDerivative ≤ strict.minDerivative
  maxIterations : strict.maxIterations ≤ loose.maxIterations

end SolverConfig

section Transitive

variable (hle : ∀ {x y z : α}, x ≤ y → y ≤ z → x ≤ z)
  (hlt : ∀ {x y z : α}, x < y → y ≤ z → x < z) {loose strict : SolverConfig α}

include hle in
/-- What may be visited may be visited under looser limits. -/
theorem inBounds_of_isLooser (h : loose.IsLooser strict) {x : α} (hx : strict.inBounds x = true) :
    loose.inBounds x = true := by
  simp only [SolverConfig.inBounds, Bool.and_eq_true, decide_eq_true_eq] at hx ⊢
  obtain ⟨⟨hfinite, hlower⟩, hupper⟩ := hx
  exact ⟨⟨hfinite, hle h.lowerBound hlower⟩, hle hupper h.upperBound⟩

include hle hlt in
/-- A step that does not fail decides the same under looser limits. -/
theorem newtonStep_of_isLooser (h : loose.IsLooser strict) {done : Nat} {x value slope : α}
    (hstep : ∀ failure, newtonStep strict done x value slope ≠ .stop (.error failure)) :
    newtonStep loose done x value slope = newtonStep strict done x value slope := by
  simp only [newtonStep] at hstep ⊢
  -- the cases follow the order of the checks; a check that fails the strict run is no case
  by_cases hflat : (Scalar.isNaN slope ||
      decide (Scalar.abs slope < strict.minDerivative)) = true
  · rw [if_pos hflat] at hstep
    exact absurd rfl (hstep _)
  · have hsteep : ¬ (Scalar.isNaN slope ||
        decide (Scalar.abs slope < loose.minDerivative)) = true := by
      simp only [Bool.or_eq_true, decide_eq_true_eq, not_or] at hflat ⊢
      exact ⟨hflat.1, fun hshallow => hflat.2 (hlt hshallow h.minDerivative)⟩
    rw [if_neg hflat] at hstep ⊢
    rw [if_neg hsteep]
    by_cases hbounds : strict.inBounds (x - value / slope) = true
    · rw [hbounds, inBounds_of_isLooser hle h hbounds, h.tolerance]
    · rw [Bool.not_eq_true] at hbounds
      rw [hbounds] at hstep
      exact absurd rfl (hstep _)

include hle hlt in
/-- The steps that remain find a root that fewer steps found under stricter limits. -/
theorem newtonFrom_of_isLooser {σ : Type} (f : α → StateM σ (α × α)) (h : loose.IsLooser strict)
    {root : Root α} {memory' : σ} (remaining : Nat) :
    ∀ (more done : Nat) (x : α) (memory : σ), remaining ≤ more →
      (newtonFrom f strict remaining done x).run memory = (.ok root, memory') →
        (newtonFrom f loose more done x).run memory = (.ok root, memory') := by
  induction remaining with
  | zero =>
    intro more done x memory _ hrun
    exact absurd (congrArg Prod.fst hrun) (by simp [newtonFrom])
  | succ remaining ih =>
    intro more done x memory hmore hrun
    obtain ⟨more, rfl⟩ := Nat.exists_eq_add_one_of_ne_zero (Nat.ne_zero_of_lt hmore)
    obtain ⟨answer, memory₁, hanswer⟩ := exists_run_eq (f x) memory
    rw [run_newtonFrom_succ hanswer] at hrun ⊢
    -- a run that found a root failed at none of its steps
    have hstep : ∀ failure,
        newtonStep strict done x answer.1 answer.2 ≠ .stop (.error failure) := by
      intro failure hfails
      rw [hfails] at hrun
      exact absurd (congrArg Prod.fst hrun) (by simp)
    rw [newtonStep_of_isLooser hle hlt h hstep]
    cases hnext : newtonStep strict done x answer.1 answer.2 with
    | stop outcome => simpa only [hnext] using hrun
    | goOn next =>
      rw [hnext] at hrun
      exact ih more (done + 1) next memory₁ (Nat.le_of_succ_le_succ hmore) hrun

include hle hlt in
/-- **Looser limits lose no root.**  The function may be any computation with a memory; it is left
with the same memory, too. -/
theorem newtonM_of_isLooser {σ : Type} (f : α → StateM σ (α × α)) (h : loose.IsLooser strict)
    {memory memory' : σ} {root : Root α}
    (hrun : (newtonM f strict).run memory = (.ok root, memory')) :
    (newtonM f loose).run memory = (.ok root, memory') := by
  unfold newtonM at hrun ⊢
  rw [h.initialGuess]
  exact newtonFrom_of_isLooser hle hlt f h _ _ 0 _ memory h.maxIterations hrun

end Transitive

/-- The line of slope one through zero at one, with a count of how often it was asked about. -/
def countedLine (x : Float) : StateM Nat (Float × Float) := do
  modify (· + 1)
  return (x - 1, 1)

/-- At most a thousand steps from two, between nothing and ten. -/
def wideLimits : SolverConfig Float :=
  ⟨2, 1000, 1, 0, 10, 0⟩

/-- At most two steps, between one and two, and no slope below one. -/
def narrowLimits : SolverConfig Float :=
  { wideLimits with maxIterations := 2, lowerBound := 1, upperBound := 2, minDerivative := 1 }

/-- From two the first step leads to the zero of the line, and the second stays there.  The narrow
limits admit both; the wide ones lead to the same root, and ask no more often. -/
theorem newtonM_of_isLooser_line :
    wideLimits.IsLooser narrowLimits ∧
      (newtonM countedLine narrowLimits).run 0 = (.ok ⟨1, 2⟩, 2) ∧
      (newtonM countedLine wideLimits).run 0 = (.ok ⟨1, 2⟩, 2) := by
  have h : wideLimits.IsLooser narrowLimits :=
    ⟨rfl, rfl, by decide, by decide, by decide, by decide⟩
  have hrun : (newtonM countedLine narrowLimits).run 0 = (.ok ⟨1, 2⟩, 2) := rfl
  exact ⟨h, hrun, newtonM_of_isLooser Scalar.Ordered.le_trans Scalar.Ordered.lt_of_lt_of_le
    countedLine h hrun⟩

end TimeValue
