import TimeValue.Proofs.CashFlow.PresentValue
import TimeValue.Proofs.Solver.Run

/-!
# Starting on the left of the rate of return

The net present value of a conventional project is convex and falls.  Where it is not negative,
its tangent therefore meets zero between the present rate and the root: a step of Newton's method
from the left of the root goes to the right, and not beyond it.  So the rates visited rise towards
the root, and bounds that hold the first rate and the root hold all of them.

## Main definitions

* `SolverConfig.StartsLeft` — the search starts on the left of a root, and the bounds hold both.
* `LeftOf` — where a search from the left may come.

## Main results

* `Conventional.le_root` — a net present value that is not negative lies on the left of the root.
* `Conventional.step_right`, `Conventional.leftOf_step` — where one step leads.
* `irr_of_startsLeft` — **a search from the left stays there, and does not diverge.**
-/

namespace TimeValue

/-- The search starts on the left of a root of the net present value, and the bounds hold both. -/
structure SolverConfig.StartsLeft (config : SolverConfig ℝ) (flows : List (CashFlow ℝ))
    (root : ℝ) : Prop where
  /-- The first rate is above -100 %. -/
  neg_one_lt_guess : -1 < config.initialGuess
  /-- It is not below the bounds. -/
  lower_le : config.lowerBound ≤ config.initialGuess
  /-- There the net present value is not negative. -/
  npv_nonneg : 0 ≤ npv flows config.initialGuess
  /-- The root is above -100 %. -/
  neg_one_lt_root : -1 < root
  /-- There the net present value vanishes. -/
  npv_root : npv flows root = 0
  /-- It is not above the bounds. -/
  le_upper : root ≤ config.upperBound

/-- Between `guess` and `root`, where the net present value is not negative. -/
structure LeftOf (flows : List (CashFlow ℝ)) (guess root x : ℝ) : Prop where
  /-- Not before the first rate. -/
  guess_le : guess ≤ x
  /-- Not beyond the root. -/
  le_root : x ≤ root
  /-- Not on the right of any root. -/
  npv_nonneg : 0 ≤ (npvWithSlope flows x).1

namespace Conventional

variable {flows : List (CashFlow ℝ)} {guess root x : ℝ}

/-- A net present value that is not negative lies on the left of the root. -/
theorem le_root (h : Conventional flows) (hx : -1 < x) (hroot : -1 < root)
    (hzero : (npvWithSlope flows root).1 = 0) (hvalue : 0 ≤ (npvWithSlope flows x).1) :
    x ≤ root := by
  rw [npvWithSlope_fst] at hzero hvalue
  by_contra hlt
  -- beyond the root the value would be below that at the root, which is zero
  have hfall : npv flows x < npv flows root := h.strictAntiOn_npv hroot hx (not_le.1 hlt)
  linarith

/-- A step from where the net present value is not negative leads to the right. -/
theorem step_right (h : Conventional flows) (hx : -1 < x)
    (hvalue : 0 ≤ (npvWithSlope flows x).1) :
    x ≤ x - (npvWithSlope flows x).1 / (npvWithSlope flows x).2 := by
  have hstep : (npvWithSlope flows x).1 / (npvWithSlope flows x).2 ≤ 0 :=
    div_nonpos_of_nonneg_of_nonpos hvalue (h.slope_neg hx).le
  linarith

/-- A step ends where the tangent vanishes, so that the net present value is not negative there. -/
theorem step_nonneg (h : Conventional flows) (hx : -1 < x)
    (hvalue : 0 ≤ (npvWithSlope flows x).1) :
    0 ≤ (npvWithSlope flows (x - (npvWithSlope flows x).1 / (npvWithSlope flows x).2)).1 := by
  have hright := h.step_right hx hvalue
  -- the function lies above its tangent, which vanishes where the step ends
  have htangent := h.tangent_le hx (hx.trans_le hright)
  have hvanish : (npvWithSlope flows x).1 + (npvWithSlope flows x).2 *
      (x - (npvWithSlope flows x).1 / (npvWithSlope flows x).2 - x) = 0 := by
    have hslope := (h.slope_neg hx).ne
    field_simp
    ring
  linarith

/-- **A step from the left of the root stays there.** -/
theorem leftOf_step (h : Conventional flows) (hguess : -1 < guess) (hroot : -1 < root)
    (hzero : (npvWithSlope flows root).1 = 0) (hx : LeftOf flows guess root x) :
    LeftOf flows guess root (x - (npvWithSlope flows x).1 / (npvWithSlope flows x).2) := by
  have hbase : -1 < x := hguess.trans_le hx.guess_le
  have hright := h.step_right hbase hx.npv_nonneg
  have hnonneg := h.step_nonneg hbase hx.npv_nonneg
  exact ⟨hx.guess_le.trans hright, h.le_root (hbase.trans_le hright) hroot hzero hnonneg, hnonneg⟩

end Conventional

section Search

variable {config : SolverConfig ℝ} {flows : List (CashFlow ℝ)} {root : ℝ}

theorem SolverConfig.StartsLeft.leftOf_guess (h : Conventional flows)
    (hstart : config.StartsLeft flows root) :
    LeftOf flows config.initialGuess root config.initialGuess := by
  have hvalue : 0 ≤ (npvWithSlope flows config.initialGuess).1 := by
    rw [npvWithSlope_fst]
    exact hstart.npv_nonneg
  have hzero : (npvWithSlope flows root).1 = 0 := by
    rw [npvWithSlope_fst]
    exact hstart.npv_root
  exact ⟨le_rfl, h.le_root hstart.neg_one_lt_guess hstart.neg_one_lt_root hzero hvalue, hvalue⟩

theorem SolverConfig.StartsLeft.leftOf_step (h : Conventional flows)
    (hstart : config.StartsLeft flows root) (x : ℝ)
    (hx : LeftOf flows config.initialGuess root x) :
    LeftOf flows config.initialGuess root
      (x - (npvWithSlope flows x).1 / (npvWithSlope flows x).2) := by
  have hzero : (npvWithSlope flows root).1 = 0 := by
    rw [npvWithSlope_fst]
    exact hstart.npv_root
  exact h.leftOf_step hstart.neg_one_lt_guess hstart.neg_one_lt_root hzero hx

theorem SolverConfig.StartsLeft.inBounds (hstart : config.StartsLeft flows root) (x : ℝ)
    (hx : LeftOf flows config.initialGuess root x) : config.inBounds x = true := by
  have hlower : config.lowerBound ≤ x := hstart.lower_le.trans hx.guess_le
  have hupper : x ≤ config.upperBound := hx.le_root.trans hstart.le_upper
  simp [SolverConfig.inBounds, hlower, hupper]

/-- **A search from the left stays there.**  For a conventional project, the rates visited from the
left of a root rise and do not pass it.  So the search does not diverge, and a rate of return that
it finds is not before the first rate nor beyond the root. -/
theorem irr_of_startsLeft (hlength : minCashFlows ≤ flows.length) (h : Conventional flows)
    (hstart : config.StartsLeft flows root) :
    (∀ k, config.initialGuess ≤ config.iterate (npvWithSlope flows) k ∧
      config.iterate (npvWithSlope flows) k ≤ config.iterate (npvWithSlope flows) (k + 1) ∧
      config.iterate (npvWithSlope flows) k ≤ root) ∧
    (∀ x n, irr config flows ≠ .error (.solver (.divergence x n))) ∧
    ∀ percent, irr config flows = .ok percent →
      config.initialGuess ≤ percentToRate percent ∧ percentToRate percent ≤ root := by
  have hend : EndsWithin (LeftOf flows config.initialGuess root)
      (newton (npvWithSlope flows) config) :=
    newton_invariant (hstart.leftOf_step h) hstart.inBounds (hstart.leftOf_guess h)
  -- each rate of the run is left of the root: so are the iterates, and all outcomes in turn
  refine ⟨fun k => ?_, fun x n hdiverged => ?_, fun percent hpercent => ?_⟩
  · have hk := iterate_invariant (hstart.leftOf_step h) (hstart.leftOf_guess h) k
    have hright := h.step_right (hstart.neg_one_lt_guess.trans_le hk.guess_le) hk.npv_nonneg
    exact ⟨hk.guess_le, hright, hk.le_root⟩
  · rw [irr_of_length config hlength] at hdiverged
    cases hrun : newton (npvWithSlope flows) config with
    | ok found => simp [hrun] at hdiverged
    | error failure =>
      simp only [hrun, Except.error.injEq, CalcError.solver.injEq] at hdiverged
      -- a divergence would have left the bounds, which no rate on the left of the root does
      rw [hrun, hdiverged] at hend
      exact hend
  · rw [irr_of_length config hlength] at hpercent
    cases hrun : newton (npvWithSlope flows) config with
    | error failure => simp [hrun] at hpercent
    | ok found =>
      simp only [hrun, Except.ok.injEq] at hpercent
      rw [hrun] at hend
      rw [← hpercent, percentToRate_rateToPercent]
      exact ⟨hend.guess_le, hend.le_root⟩

/-- Two hundred spent, and a hundred at 10 % back after each of two periods: from a rate of zero the
search rises towards 10 %. -/
theorem irr_of_startsLeft_two_returns :
    (∀ k, ({ SolverConfig.standard with initialGuess := 0 } : SolverConfig ℝ).iterate
      (npvWithSlope [⟨2, 121⟩, ⟨0, -200⟩, ⟨1, 110⟩]) k ≤ 0.1) ∧
    ∀ x n, irr ({ SolverConfig.standard with initialGuess := 0 } : SolverConfig ℝ)
      [⟨2, 121⟩, ⟨0, -200⟩, ⟨1, 110⟩] ≠ .error (.solver (.divergence x n)) := by
  have hflows : Conventional [⟨2, 121⟩, ⟨0, -200⟩, ⟨1, 110⟩] := by
    constructor
    · simp
    · exact ⟨⟨2, 121⟩, by simp, by norm_num, by norm_num⟩
  have hstart : ({ SolverConfig.standard with initialGuess := 0 } : SolverConfig ℝ).StartsLeft
      [⟨2, 121⟩, ⟨0, -200⟩, ⟨1, 110⟩] 0.1 := by
    constructor <;> norm_num [SolverConfig.standard, npv_eq_sum, CashFlow.discounted_real]
  obtain ⟨hrun, hbounded, -⟩ := irr_of_startsLeft (by decide) hflows hstart
  exact ⟨fun k => (hrun k).2.2, hbounded⟩

end Search

end TimeValue
