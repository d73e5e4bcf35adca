import TimeValue.Proofs.Series.Growth

/-!
# Answers are finite

Whatever the numbers are, and whatever powers and logarithms give, no calculation passes on a
number that is infinite or undefined.  The check stands behind the last operation on every path,
also behind the change of a rate into a percentage, which may be too great where the rate is not.
A series is looked at as a whole: it holds all of its samples, or there is none.

## Main definitions

* `OnlyFinite` — an answer that is finite, if it is one.
* `growthSamples`, `Problem.CanGrow` — all samples of a growth series, and when it may be asked for.

## Main results

* `onlyFinite_solve`, `onlyFinite_solveRate`, `onlyFinite_solvePeriods`, `onlyFinite_irr` — the
  answers of each calculation.
* `npvCurve_eq_ok_iff` — when a curve is not refused, and what it holds.
* `answers_finite` — **no number that is not finite is an answer, and no series is shortened.**
-/

namespace TimeValue

variable {α : Type} [Scalar α]

/-! ### Numbers -/

/-- The answer is a finite number, or an error. -/
def OnlyFinite {ε : Type} (answer : Except ε α) : Prop :=
  ∀ v, answer = .ok v → Scalar.isFinite v = true

namespace OnlyFinite

variable {ε ε' : Type}

theorem ensureFinite (operation : Operation) (x : α) : OnlyFinite (ensureFinite operation x) :=
  fun _ h => (isFinite_of_ensureFinite h).2

theorem error (e : ε) : OnlyFinite (.error e : Except ε α) := nofun

theorem mapError {r : Except ε α} (h : OnlyFinite r) (f : ε → ε') : OnlyFinite (r.mapError f) := by
  cases r with
  | error e => exact error (f e)
  | ok x => exact fun v hv => h v (congrArg _ (Except.ok.inj hv))

/-- Only the last step of a calculation matters. -/
theorem bind {β : Type} {r : Except ε β} {f : β → Except ε α} (h : ∀ x, OnlyFinite (f x)) :
    OnlyFinite (r >>= f) := by
  cases r with
  | error e => exact error e
  | ok x => exact h x

end OnlyFinite

theorem onlyFinite_solvePeriods (p : Problem α) : OnlyFinite (solvePeriods p) :=
  .ensureFinite _ _

/-- The check follows the change into a percentage, on both paths. -/
theorem onlyFinite_solveRate (config : SolverConfig α) (p : Problem α) :
    OnlyFinite (solveRate config p) := by
  unfold solveRate
  split
  -- the closed form and the root found are checked alike, and a failed search gives no answer
  · exact (OnlyFinite.ensureFinite _ _).mapError _
  · split
    · exact (OnlyFinite.ensureFinite _ _).mapError _
    · exact .error _

theorem onlyFinite_solve (asked : Quantity) (config : SolverConfig α) (p : Problem α) :
    OnlyFinite (solve asked config p) := by
  refine OnlyFinite.bind fun _ => ?_
  cases asked with
  | rate => exact onlyFinite_solveRate config p
  | periods => exact (onlyFinite_solvePeriods p).mapError _
  | presentValue => exact (OnlyFinite.ensureFinite _ _).mapError _
  | payment => exact (OnlyFinite.ensureFinite _ _).mapError _
  | futureValue => exact (OnlyFinite.ensureFinite _ _).mapError _

theorem onlyFinite_irr (config : SolverConfig α) (flows : List (CashFlow α)) :
    OnlyFinite (irr config flows) :=
  OnlyFinite.bind fun _ => OnlyFinite.bind fun _ => (OnlyFinite.ensureFinite _ _).mapError _

/-! ### Series -/

/-- One value that is not finite is enough to refuse a series. -/
theorem ensureFiniteSeries_of_exists (operation : Operation) {samples : List (Sample α)}
    (h : ∃ sample ∈ samples, Scalar.isFinite sample.y = false) :
    ensureFiniteSeries operation samples = .error (.nonFinite operation) := by
  obtain ⟨sample, hsample, hy⟩ := h
  have hall : ¬ samples.all (Scalar.isFinite ·.y) = true := by
    rw [List.all_eq_true]
    intro hall
    simp [hall sample hsample] at hy
  exact if_neg hall

/-- All samples of a growth series. -/
def growthSamples (p : Problem α) : List (Sample α) :=
  (List.range (Scalar.toNat (Scalar.floor p.periods) + 1)).map (growthSample p)

/-- A growth series may be asked for: there are finitely many periods, not too many, and a rate. -/
structure Problem.CanGrow (p : Problem α) : Prop where
  periods_isFinite : Scalar.isFinite p.periods = true
  periods_not_neg : ¬ p.periods < 0
  rate_isFinite : Scalar.isFinite p.rate = true
  withinLimit : ¬ (maxGrowthPeriods : α) < Scalar.floor p.periods

theorem growthSeries_of_canGrow {p : Problem α} (h : p.CanGrow) :
    growthSeries p = ensureFiniteSeries .growthSeries (growthSamples p) := by
  simp [growthSeries, h.periods_isFinite, h.periods_not_neg, h.rate_isFinite, h.withinLimit,
    growthSamples]

/-- A curve is refused for its flows, its rates or a value that is not finite. -/
theorem npvCurve_eq_ok_iff {flows : List (CashFlow α)} {range : RateRange α}
    {s : List (Sample α)} :
    npvCurve flows range = .ok s ↔
      checkFlows flows = .ok () ∧ ∃ rates, range.rates = .ok rates ∧
        ensureFiniteSeries .npvCurve (rates.map (npvSample flows)) = .ok s := by
  unfold npvCurve
  cases checkFlows flows with
  | error e => simp [bind, Except.bind]
  | ok _ => cases range.rates <;> simp [bind, Except.bind]

/-! ### All answers -/

/-- **No number that is not finite is an answer, and no series is shortened.**  This holds for all
numbers, limits of the root finder, flows and ranges.  Where the samples of a series can be
computed at all, a single one that is not finite makes an error of the series. -/
theorem answers_finite :
    (∀ asked config (p : Problem α), OnlyFinite (solve asked config p)) ∧
    (∀ config (p : Problem α), OnlyFinite (solveRate config p)) ∧
    (∀ p : Problem α, OnlyFinite (solvePeriods p)) ∧
    (∀ config (flows : List (CashFlow α)), OnlyFinite (irr config flows)) ∧
    (∀ (p : Problem α) s, growthSeries p = .ok s →
      s = growthSamples p ∧ ∀ sample ∈ s, Scalar.isFinite sample.y = true) ∧
    (∀ p : Problem α, p.CanGrow → (∃ sample ∈ growthSamples p, Scalar.isFinite sample.y = false) →
      growthSeries p = .error (.nonFinite .growthSeries)) ∧
    (∀ (flows : List (CashFlow α)) range s, npvCurve flows range = .ok s →
      ∃ rates, range.rates = .ok rates ∧ s = rates.map (npvSample flows) ∧
        ∀ sample ∈ s, Scalar.isFinite sample.y = true) ∧
    (∀ (flows : List (CashFlow α)) range rates, checkFlows flows = .ok () →
      range.rates = .ok rates → (∃ rate ∈ rates, Scalar.isFinite (npv flows rate) = false) →
        npvCurve flows range = .error (.nonFinite .npvCurve)) := by
  refine ⟨onlyFinite_solve, onlyFinite_solveRate, onlyFinite_solvePeriods, onlyFinite_irr,
    ?growth, ?growthRefused, ?curve, ?curveRefused⟩
  case growth =>
    intro p s h
    obtain ⟨-, hfinite, rfl⟩ := growthSeries_eq_ok_iff.1 h
    refine ⟨rfl, ?_⟩
    simpa [Nat.lt_succ_iff] using hfinite
  case growthRefused =>
    intro p hp hsample
    rw [growthSeries_of_canGrow hp]
    exact ensureFiniteSeries_of_exists _ hsample
  case curve =>
    intro flows range s h
    obtain ⟨-, rates, hrates, hseries⟩ := npvCurve_eq_ok_iff.1 h
    obtain ⟨hfinite, rfl⟩ := (ensureFiniteSeries_eq_ok_iff _).1 hseries
    exact ⟨rates, hrates, rfl, hfinite⟩
  case curveRefused =>
    rintro flows range rates hflows hrates ⟨rate, hrate, hvalue⟩
    -- a value of the curve is the net present value at one of the rates
    have hsample : ∃ sample ∈ rates.map (npvSample flows), Scalar.isFinite sample.y = false :=
      ⟨_, List.mem_map_of_mem hrate, hvalue⟩
    simp only [npvCurve, hflows, hrates, bind, Except.bind]
    exact ensureFiniteSeries_of_exists _ hsample

/-- The reals where those beyond a greatest number count as infinite. -/
noncomputable abbrev Scalar.upTo (greatest : ℝ) : Scalar ℝ :=
  { Scalar.real with isFinite := fun x => decide (|x| ≤ greatest) }

/-- Six hundred that double in one period are too many for numbers up to a thousand.  The first
sample is finite, and yet there is no series. -/
theorem answers_finite_doubled :
    @Problem.CanGrow ℝ (.upTo 1000) ⟨1, 1, 600, 0, 0, .ordinary⟩ ∧
      (@growthSamples ℝ (.upTo 1000) ⟨1, 1, 600, 0, 0, .ordinary⟩).head? = some ⟨0, 600⟩ ∧
      @growthSeries ℝ (.upTo 1000) ⟨1, 1, 600, 0, 0, .ordinary⟩ =
        .error (.nonFinite .growthSeries) := by
  let _ := Scalar.upTo 1000
  have hone : Scalar.isFinite (1 : ℝ) = true := decide_eq_true (by norm_num : |(1 : ℝ)| ≤ 1000)
  have hlimit : ¬ (maxGrowthPeriods : ℝ) < (⌊(1 : ℝ)⌋ : ℝ) := by norm_num [maxGrowthPeriods]
  have hgrow : (⟨1, 1, 600, 0, 0, .ordinary⟩ : Problem ℝ).CanGrow :=
    ⟨hone, by norm_num, hone, hlimit⟩
  have hlast : (growthSample (⟨1, 1, 600, 0, 0, .ordinary⟩ : Problem ℝ) 1).y = 1200 := by
    norm_num [growthSample, totalFV, compoundFV]
  have hgreat : Scalar.isFinite (1200 : ℝ) = false :=
    decide_eq_false (by norm_num : ¬ |(1200 : ℝ)| ≤ 1000)
  refine ⟨hgrow, ?_, answers_finite.2.2.2.2.2.1 _ hgrow ⟨_, ?_, hlast.symm ▸ hgreat⟩⟩
  · norm_num [growthSamples, growthSample, totalFV, compoundFV, List.range_succ_eq_map]
  · exact List.mem_map_of_mem (List.mem_range.2 (by norm_num [Scalar.floor, Scalar.toNat]))

end TimeValue
