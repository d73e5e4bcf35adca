import TimeValue.Proofs.Solver.Run

/-!
# Runs taken up again

A run of Newton's method that the limit on steps cut off can be taken up where it stood: the number
it reports is all that the steps after the cut need.  Taken up there, the method does what it would
have done without the cut, but for the steps before it in the count.  So a greater limit changes
nothing where the run had ended by itself.

The function may be any computation.  One with a memory takes it over the cut.

## Main definitions

* `SolverConfig.startingAt` — another first number and another limit on steps.
* `later` — the same outcome after more steps.

## Main results

* `newtonFrom_later` — steps taken before are counted, and nothing else.
* `newtonM_startingAt_add` — **a run is its first steps, and then a run from where they led.**
* `newton_startingAt_add` — the same for functions.
* `newtonM_runs_compose` — **a greater limit changes nothing where a run had ended, and elsewhere
  takes it up.**
-/

namespace TimeValue

variable {α : Type} [Scalar α] {m : Type → Type} [Monad m]

/-- The same limits for a run of at most `n` steps from `x`. -/
def SolverConfig.startingAt (config : SolverConfig α) (x : α) (n : Nat) : SolverConfig α :=
  { config with initialGuess := x, maxIterations := n }

/-! ### Counting steps -/

/-- The same root after `k` steps more. -/
def Root.later (k : Nat) (root : Root α) : Root α :=
  { root with iterations := k + root.iterations }

/-- The same failure after `k` steps more. -/
def SolverFailure.later (k : Nat) : SolverFailure α → SolverFailure α
  | .divergence x n => .divergence x (k + n)
  | .stationaryDerivative x slope n => .stationaryDerivative x slope (k + n)
  | .nonConvergence x n => .nonConvergence x (k + n)

/-- The same outcome after `k` steps more. -/
def later (k : Nat) : Except (SolverFailure α) (Root α) → Except (SolverFailure α) (Root α)
  | .ok root => .ok (root.later k)
  | .error failure => .error (failure.later k)

/-- What a step decides does not depend on the steps before; they are only counted. -/
theorem newtonStep_later (config : SolverConfig α) (k done : Nat) (x value slope : α) :
    newtonStep config (k + done) x value slope =
      match newtonStep config done x value slope with
      | .stop outcome => .stop (later k outcome)
      | .goOn next => .goOn next := by
  simp only [newtonStep]
  -- the cases follow the order of the checks
  split
  · rfl
  · split
    · rfl
    · split <;> rfl

section Computations

variable [LawfulMonad m] (f : α → m (α × α)) (config : SolverConfig α)

/-- The steps taken before are counted, and nothing else. -/
theorem newtonFrom_later (k remaining done : Nat) (x : α) :
    newtonFrom f config remaining (k + done) x =
      later k <$> newtonFrom f config remaining done x := by
  induction remaining generalizing done x with
  | zero => rw [newtonFrom, newtonFrom, map_pure]; rfl
  | succ remaining ih =>
    rw [newtonFrom, newtonFrom, map_bind]
    congr 1
    funext answer
    obtain ⟨value, slope⟩ := answer
    dsimp only
    rw [newtonStep_later]
    rcases newtonStep config done x value slope with outcome | next
    · rw [map_pure]
    · exact ih (done + 1) next

/-- After `n` of the steps that remain, a run that is not over goes on from where it stands. -/
theorem newtonFrom_add (n n' done : Nat) (x : α) :
    newtonFrom f config (n + n') done x =
      newtonFrom f config n done x >>= fun outcome =>
        match outcome with
        | .error (.nonConvergence y _) => later (done + n) <$> newtonFrom f config n' 0 y
        | outcome => pure outcome := by
  induction n generalizing done x with
  | zero =>
    rw [newtonFrom, pure_bind, Nat.zero_add]
    exact newtonFrom_later f config done n' 0 x
  | succ n ih =>
    rw [Nat.succ_add, newtonFrom, newtonFrom, bind_assoc]
    congr 1
    funext answer
    obtain ⟨value, slope⟩ := answer
    dsimp only
    cases hstep : newtonStep config done x value slope with
    | goOn next =>
      dsimp only
      rw [ih (done + 1) next, Nat.succ_add_eq_add_succ]
    | stop outcome =>
      -- only the cut itself leaves a run to take up
      rw [pure_bind]
      rcases outcome with (_ | _ | ⟨y, k⟩) | root
      · rfl
      · rfl
      · exact absurd hstep (newtonStep_ne_nonConvergence config done x value slope y k)
      · rfl

omit [LawfulMonad m] in
/-- The first number and the limit on steps are used at the start only. -/
theorem newtonFrom_startingAt (x : α) (n remaining done : Nat) (y : α) :
    newtonFrom f (config.startingAt x n) remaining done y =
      newtonFrom f config remaining done y := by
  induction remaining generalizing done y with
  | zero => rfl
  | succ remaining ih =>
    rw [newtonFrom, newtonFrom]
    simp only [ih]
    rfl

omit [LawfulMonad m] in
theorem newtonM_startingAt (x : α) (n : Nat) :
    newtonM f (config.startingAt x n) = newtonFrom f config n 0 x :=
  newtonFrom_startingAt f config x n n 0 x

/-- **A run is its first steps, and then a run from where they led**, if they did not end it. -/
theorem newtonM_startingAt_add (x : α) (n n' : Nat) :
    newtonM f (config.startingAt x (n + n')) =
      newtonM f (config.startingAt x n) >>= fun outcome =>
        match outcome with
        | .error (.nonConvergence y _) => later n <$> newtonM f (config.startingAt y n')
        | outcome => pure outcome := by
  simp only [newtonM_startingAt]
  rw [newtonFrom_add, Nat.zero_add]

end Computations

/-- For a function, a run is its first steps, and then a run from where they led. -/
theorem newton_startingAt_add (f : α → α × α) (config : SolverConfig α) (x : α) (n n' : Nat) :
    newton f (config.startingAt x (n + n')) =
      match newton f (config.startingAt x n) with
      | .error (.nonConvergence y _) => later n (newton f (config.startingAt y n'))
      | outcome => outcome := by
  have h := congrArg Id.run (newtonM_startingAt_add (fun x => (pure (f x) : Id _)) config x n n')
  rw [newton, h, Id.run_bind, ← newton]
  rcases newton f (config.startingAt x n) with (_ | _ | _) | _ <;> rfl

/-- **A greater limit changes nothing where a run had ended by itself, and elsewhere takes it up.**
The computation `f` may have a memory, which holds `s` at first.  If the limit of `n` steps cut the
run off at `y`, it counts `n` steps, and any further steps lead to the outcome of a run from `y`
with the memory as it was then, with `n` added to its count. -/
theorem newtonM_runs_compose {σ : Type} (f : α → StateM σ (α × α)) (config : SolverConfig α) (x : α)
    (n : Nat) (s s' : σ) (outcome : Except (SolverFailure α) (Root α))
    (hrun : (newtonM f (config.startingAt x n)).run s = (outcome, s')) :
    ((∀ y k, outcome ≠ .error (.nonConvergence y k)) → ∀ n', n ≤ n' →
      (newtonM f (config.startingAt x n')).run s = (outcome, s')) ∧
    ∀ y k, outcome = .error (.nonConvergence y k) → k = n ∧
      ∀ n' outcome' s'', (newtonM f (config.startingAt y n')).run s' = (outcome', s'') →
        (newtonM f (config.startingAt x (n + n'))).run s = (later n outcome', s'') := by
  have hadd (n' : Nat) := congrArg (StateT.run · s) (newtonM_startingAt_add f config x n n')
  simp only [StateT.run_bind, hrun] at hadd
  constructor
  · intro hended n' hle
    obtain ⟨d, rfl⟩ := Nat.exists_eq_add_of_le hle
    rw [hadd]
    rcases outcome with (_ | _ | ⟨y, k⟩) | root
    · rfl
    · rfl
    · exact absurd rfl (hended y k)
    · rfl
  · rintro y k rfl
    have htaken : ∀ n' outcome' s'',
        (newtonM f (config.startingAt y n')).run s' = (outcome', s'') →
          (newtonM f (config.startingAt x (n + n'))).run s = (later n outcome', s'') := by
      intro n' outcome' s'' hrun'
      rw [hadd]
      exact congrArg (fun r : _ × σ => (later n r.1, r.2)) hrun'
    -- no steps more report the cut again, after `n` steps
    have hcut := htaken 0 (.error (.nonConvergence y 0)) s' rfl
    rw [Nat.add_zero, hrun] at hcut
    have hcount : .error (.nonConvergence y k) = later n (.error (.nonConvergence y 0)) :=
      congrArg Prod.fst hcut
    simp only [later, SolverFailure.later, Nat.add_zero, Except.error.injEq,
      SolverFailure.nonConvergence.injEq, true_and] at hcount
    exact ⟨hcount, htaken⟩

/-- Asks for the root of a line of slope one that is one above zero wherever it is asked, and counts
how often. -/
def counted (_ : Float) : StateM Nat (Float × Float) := do
  modify (· + 1)
  return (1, 1)

/-- From one the method goes down by one in each step.  One step leads to zero, and the next out of
the bounds, after which no more are taken. -/
theorem newtonM_runs_compose_counted :
    (newtonM counted (SolverConfig.standard.startingAt 1 1)).run 0 =
      (.error (.nonConvergence 0 1), 1) ∧
    (newtonM counted (SolverConfig.standard.startingAt 1 2)).run 0 =
      (.error (.divergence (-1) 2), 2) ∧
    ∀ n', 2 ≤ n' →
      (newtonM counted (SolverConfig.standard.startingAt 1 n')).run 0 =
        (.error (.divergence (-1) 2), 2) := by
  have hcut : (newtonM counted (SolverConfig.standard.startingAt 1 1)).run 0 =
      (.error (.nonConvergence 0 1), 1) := rfl
  have hrest : (newtonM counted (SolverConfig.standard.startingAt 0 1)).run 1 =
      (.error (.divergence (-1) 1), 2) := rfl
  have htaken := ((newtonM_runs_compose counted .standard 1 1 0 1 _ hcut).2 0 1 rfl).2
  have hended : (newtonM counted (SolverConfig.standard.startingAt 1 2)).run 0 =
      (.error (.divergence (-1) 2), 2) := htaken 1 _ 2 hrest
  have hall := (newtonM_runs_compose counted .standard 1 2 0 2 _ hended).1 (by simp)
  exact ⟨hcut, hended, hall⟩

end TimeValue
