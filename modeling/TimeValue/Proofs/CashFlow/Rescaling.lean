import TimeValue.Proofs.CashFlow.PresentValue
import TimeValue.Proofs.Solver.Run

/-!
# Another currency

Stated in another currency, or from the side of the other party, a project has every amount
multiplied by the same factor.  Its net present value and the slope of it are then multiplied by
that factor at every rate, and a step of Newton's method, the quotient of the two, stays what it
is.  Both searches visit the same rates.

They need not end alike, since a slope counts as flat by its size.  A factor of at least one makes
no slope flatter: a search that found none flat finds none in the new currency.

## Main definitions

* `CashFlow.rescale` — a flow in another currency.

## Main results

* `newtonIterate_smul` — Newton's method visits the same numbers for all multiples of a function.
* `newton_smul` — unless it finds a flat slope, its outcome is that for all greater multiples.
* `npvWithSlope_rescale` — value and slope in another currency.
* `irr_rescale` — **the rate of return, or why there is none, is the same in all currencies of
  smaller units.**
-/

namespace TimeValue

/-! ### Multiples of a function -/

section Multiples

variable {c : ℝ} {f : ℝ → ℝ × ℝ} {config : SolverConfig ℝ} {k : ℕ}

theorem ne_zero_of_one_le_abs (hone : 1 ≤ |c|) : c ≠ 0 :=
  abs_pos.1 (one_pos.trans_le hone)

/-- Newton's method visits the same numbers for all multiples of a function. -/
theorem newtonIterate_smul (hc : c ≠ 0) (f : ℝ → ℝ × ℝ) (x : ℝ) (k : ℕ) :
    newtonIterate (c • f) x k = newtonIterate f x k := by
  induction k with
  | zero => rfl
  | succ k ih =>
    -- the factor cancels in the quotient, which is zero for both where the slope is
    have hstep : (c • f (newtonIterate f x k)).1 / (c • f (newtonIterate f x k)).2 =
        (f (newtonIterate f x k)).1 / (f (newtonIterate f x k)).2 := by
      rw [Prod.smul_fst, Prod.smul_snd, smul_eq_mul, smul_eq_mul, mul_div_mul_left _ _ hc]
    rw [newtonIterate, newtonIterate, ih, Pi.smul_apply, hstep]

namespace SolverConfig

theorem iterate_smul (hc : c ≠ 0) (k : ℕ) : config.iterate (c • f) k = config.iterate f k :=
  newtonIterate_smul hc f config.initialGuess k

theorem outAt_smul (hc : c ≠ 0) : config.OutAt (c • f) k ↔ config.OutAt f k := by
  rw [OutAt, OutAt, iterate_smul hc]

theorem shortAt_smul (hc : c ≠ 0) : config.ShortAt (c • f) k ↔ config.ShortAt f k := by
  rw [ShortAt, ShortAt, iterate_smul hc, iterate_smul hc]

/-- Only a slope that was flat is flat in a greater multiple. -/
theorem FlatAt.of_smul (hone : 1 ≤ |c|) (h : config.FlatAt (c • f) k) : config.FlatAt f k := by
  obtain hnan | hflat := h
  · simp at hnan
  · rw [iterate_smul (ne_zero_of_one_le_abs hone), Pi.smul_apply, Prod.smul_snd, smul_eq_mul,
      Scalar.abs_real, abs_mul] at hflat
    -- the factor moves no slope nearer to zero
    exact .inr ((le_mul_of_one_le_left (abs_nonneg _) hone).trans_lt hflat)

/-- Only a step that ended the run ends it in a greater multiple. -/
theorem EndsAt.of_smul (hone : 1 ≤ |c|) (h : config.EndsAt (c • f) k) : config.EndsAt f k := by
  have hc : c ≠ 0 := ne_zero_of_one_le_abs hone
  obtain hflat | hout | hshort := h
  · exact .inl (hflat.of_smul hone)
  · exact .inr (.inl ((outAt_smul hc).1 hout))
  · exact .inr (.inr ((shortAt_smul hc).1 hshort))

/-- A step whose slope is not flat ends the run in each greater multiple if it ended it before. -/
theorem EndsAt.smul (hone : 1 ≤ |c|) (hslope : ¬ config.FlatAt f k) (h : config.EndsAt f k) :
    config.EndsAt (c • f) k := by
  have hc : c ≠ 0 := ne_zero_of_one_le_abs hone
  obtain hflat | hout | hshort := h
  · exact absurd hflat hslope
  · exact .inr (.inl ((outAt_smul hc).2 hout))
  · exact .inr (.inr ((shortAt_smul hc).2 hshort))

/-- A step whose slope is not flat has the same outcome in each greater multiple. -/
theorem outcomeAt_smul (hone : 1 ≤ |c|) (hslope : ¬ config.FlatAt f k) :
    config.outcomeAt (c • f) k = config.outcomeAt f k := by
  have hc : c ≠ 0 := ne_zero_of_one_le_abs hone
  have hslope' : ¬ config.FlatAt (c • f) k := fun h => hslope (h.of_smul hone)
  simp only [outcomeAt, if_neg hslope, if_neg hslope', outAt_smul hc, iterate_smul hc]

/-- The run of a greater multiple is the same, unless it met a flat slope. -/
theorem runOutcome_smul (hone : 1 ≤ |c|)
    (hslope : ∀ x slope n, config.runOutcome f ≠ .error (.stationaryDerivative x slope n)) :
    config.runOutcome (c • f) = config.runOutcome f := by
  have hc : c ≠ 0 := ne_zero_of_one_le_abs hone
  unfold runOutcome at hslope ⊢
  cases hfind : (List.range config.maxIterations).find? (config.EndsAt f ·) with
  | none =>
    -- no step ended the run, so none does in the multiple
    have hnone : (List.range config.maxIterations).find? (config.EndsAt (c • f) ·) = none := by
      rw [List.find?_range_eq_none] at hfind ⊢
      intro k hk
      have hgoesOn : ¬ config.EndsAt f k := by simpa using hfind k hk
      simpa using fun h : config.EndsAt (c • f) k => hgoesOn (h.of_smul hone)
    rw [hnone, iterate_smul hc]
  | some k =>
    rw [hfind] at hslope
    have hnotFlat : ¬ config.FlatAt f k := fun h => hslope _ _ _ (if_pos h)
    obtain ⟨hends, hmem, hbefore⟩ := List.find?_range_eq_some.1 hfind
    have hsome : (List.range config.maxIterations).find? (config.EndsAt (c • f) ·) = some k := by
      refine List.find?_range_eq_some.2 ⟨?_, hmem, fun j hj => ?_⟩
      · exact decide_eq_true ((of_decide_eq_true hends).smul hone hnotFlat)
      · have hgoesOn : ¬ config.EndsAt f j := by simpa using hbefore j hj
        simpa using fun h : config.EndsAt (c • f) j => hgoesOn (h.of_smul hone)
    rw [hsome]
    exact outcomeAt_smul hone hnotFlat

end SolverConfig

/-- Unless Newton's method finds a flat slope, its outcome is that for all greater multiples. -/
theorem newton_smul (hone : 1 ≤ |c|)
    (hslope : ∀ x slope n, newton f config ≠ .error (.stationaryDerivative x slope n)) :
    newton (c • f) config = newton f config := by
  rw [(newton_eq_runOutcome f config).1] at hslope ⊢
  rw [(newton_eq_runOutcome (c • f) config).1, SolverConfig.runOutcome_smul hone hslope]

end Multiples

/-! ### Projects -/

/-- A flow in another currency. -/
noncomputable def CashFlow.rescale (c : ℝ) (flow : CashFlow ℝ) : CashFlow ℝ :=
  { flow with amount := c * flow.amount }

variable {c : ℝ} {flows : List (CashFlow ℝ)} {config : SolverConfig ℝ}

theorem CashFlow.discounted_rescale (rate : ℝ) (flow : CashFlow ℝ) :
    (flow.rescale c).discounted rate = c * flow.discounted rate := by
  rw [discounted_real, discounted_real, rescale, mul_div_assoc]

theorem CashFlow.slope_rescale (rate : ℝ) (flow : CashFlow ℝ) :
    (flow.rescale c).slope rate = c * flow.slope rate := by
  rw [slope, slope, discounted_rescale, rescale]
  ring

/-- Value and slope in another currency. -/
theorem npvWithSlope_rescale (c : ℝ) (flows : List (CashFlow ℝ)) :
    npvWithSlope (flows.map (·.rescale c)) = c • npvWithSlope flows := by
  funext rate
  rw [Pi.smul_apply, npvWithSlope_eq, npvWithSlope_eq, List.map_map, List.map_map, Prod.smul_mk,
    smul_eq_mul, smul_eq_mul, ← List.sum_map_mul_left, ← List.sum_map_mul_left]
  simp only [Function.comp_def, CashFlow.discounted_rescale, CashFlow.slope_rescale]

theorem checkFlows_rescale (c : ℝ) (flows : List (CashFlow ℝ)) :
    checkFlows (flows.map (·.rescale c)) = checkFlows flows := by
  by_cases hlength : minCashFlows ≤ flows.length
  · have hlength' : minCashFlows ≤ (flows.map (·.rescale c)).length := by rwa [List.length_map]
    rw [checkFlows_of_length hlength, checkFlows_of_length hlength']
  · simp only [checkFlows, List.length_map, if_pos (Nat.lt_of_not_le hlength)]

/-- **The rate of return is the same in all currencies of smaller units**, and so is the reason
why there is none, unless the search in the given one finds a flat slope.  The factor may be
negative, for the party that receives what the other spends. -/
theorem irr_rescale (hone : 1 ≤ |c|)
    (hslope : ∀ x slope n,
      irr config flows ≠ .error (.solver (.stationaryDerivative x slope n))) :
    irr config (flows.map (·.rescale c)) = irr config flows := by
  rw [irr, irr, checkFlows_rescale, npvWithSlope_rescale]
  cases hcheck : checkFlows flows with
  | error fault => rfl
  | ok _ =>
    have hrun : ∀ x slope n,
        newton (npvWithSlope flows) config ≠ .error (.stationaryDerivative x slope n) := by
      intro x slope n hflat
      refine hslope x slope n ?_
      rw [irr, hcheck, hflat]
      rfl
    rw [newton_smul hone hrun]

/-- A hundred spent and a hundred and ten received. -/
noncomputable def oneReturn : List (CashFlow ℝ) :=
  [⟨0, -100⟩, ⟨1, 110⟩]

/-- The first step stays at 10 %. -/
theorem irr_oneReturn : irr .standard oneReturn = .ok 10 := by
  have hvalue : npvWithSlope oneReturn 0.1 = (0, -(110 / 1.21)) := by
    norm_num [oneReturn, npvWithSlope_eq, CashFlow.slope, CashFlow.discounted_real]
  have hstep : newtonStep (SolverConfig.standard : SolverConfig ℝ) 0 0.1 0 (-(110 / 1.21)) =
      .stop (.ok ⟨0.1, 1⟩) := by
    norm_num [newtonStep, SolverConfig.standard, SolverConfig.inBounds]
  have hrun : newton (npvWithSlope oneReturn) .standard = .ok ⟨0.1, 1⟩ := by
    refine (newtonFrom_succ _ _ 999 0 0.1).trans ?_
    rw [hvalue, hstep]
  have hpercent : rateToPercent (0.1 : ℝ) = 10 := by norm_num [rateToPercent_real]
  rw [irr_of_length _ (by simp [oneReturn, minCashFlows]), hrun]
  exact congrArg Except.ok hpercent

/-- The other party receives twice the hundred, and gives it back with 10 %. -/
theorem irr_rescale_oneReturn :
    irr .standard (oneReturn.map (·.rescale (-2))) = .ok 10 := by
  have hone : 1 ≤ |(-2 : ℝ)| := by norm_num
  rw [irr_rescale hone (by simp [irr_oneReturn]), irr_oneReturn]

end TimeValue
