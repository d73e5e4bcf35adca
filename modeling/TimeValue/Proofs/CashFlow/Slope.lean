import Mathlib.Analysis.Calculus.Deriv.Add
import Mathlib.Analysis.Calculus.Deriv.Inv
import Mathlib.Analysis.Calculus.Deriv.Pow
import Mathlib.Topology.Algebra.Module.ModuleTopology
import TimeValue.Proofs.CashFlow.PresentValue

/-!
# The slope of the net present value

The pass that finds a net present value together with its slope divides each amount by one power
only, and makes the slope of the quotient.  Over the reals this is the derivative of the function
that finds the net present value alone, at every rate but that of -100 %: also below it, where the
powers change their signs.

## Main results

* `CashFlow.hasDerivAt_discounted` — the slope of one flow.
* `hasDerivAt_npv` — the slope of a project.
* `npvWithSlope_hasDerivAt` — **the pass gives the value and its derivative.**
-/

namespace TimeValue

namespace CashFlow

variable {rate : ℝ}

/-- The slope of a flow, written with a power of one period more. -/
theorem slope_eq (rate : ℝ) (flow : CashFlow ℝ) :
    flow.slope rate = -(flow.period * flow.amount / (1 + rate) ^ (flow.period + 1)) := by
  rw [slope, discounted_real, mul_div_assoc', div_div, ← pow_succ]

theorem slope_of_period_eq_zero {flow : CashFlow ℝ} (h : flow.period = 0) (rate : ℝ) :
    flow.slope rate = 0 := by
  rw [slope, h, Nat.cast_zero, zero_mul, zero_div, neg_zero]

theorem hasDerivAt_growth (n : ℕ) (rate : ℝ) :
    HasDerivAt (fun x : ℝ => (1 + x) ^ n) (n * (1 + rate) ^ (n - 1)) rate := by
  simpa using ((hasDerivAt_id' rate).const_add 1).fun_pow n

/-- The value of a flow has its slope as derivative. -/
theorem hasDerivAt_discounted (flow : CashFlow ℝ) (hrate : rate ≠ -1) :
    HasDerivAt (fun x => flow.discounted x) (flow.slope rate) rate := by
  have hbase : 1 + rate ≠ 0 := fun h => hrate (by linarith)
  have hquotient : (fun x => flow.discounted x) =
      fun x => flow.amount / (1 + x) ^ flow.period := funext fun x => discounted_real x flow
  rw [hquotient, slope_eq]
  refine ((hasDerivAt_const rate flow.amount).fun_div (hasDerivAt_growth flow.period rate)
    (pow_ne_zero _ hbase)).congr_deriv ?_
  -- the power of a flow at the start is constant; else one factor of its derivative cancels
  cases flow.period with
  | zero => simp
  | succ n =>
    rw [Nat.add_sub_cancel]
    field_simp
    ring

end CashFlow

variable {rate : ℝ}

/-- The slope of a project, without the values. -/
theorem npvWithSlope_snd (flows : List (CashFlow ℝ)) (rate : ℝ) :
    (npvWithSlope flows rate).2 = (flows.map (·.slope rate)).sum := by
  rw [npvWithSlope_eq]

/-- The net present value of a project has the slope of the pass as derivative. -/
theorem hasDerivAt_npv (flows : List (CashFlow ℝ)) (hrate : rate ≠ -1) :
    HasDerivAt (npv flows) (npvWithSlope flows rate).2 rate := by
  have hsum : npv flows = fun x => (flows.map (·.discounted x)).sum := funext (npv_eq_sum flows)
  rw [hsum, npvWithSlope_snd]
  -- the derivative is taken flow by flow, of sums that the whole list no longer occurs in
  clear hsum
  induction flows with
  | nil => exact hasDerivAt_const rate 0
  | cons flow flows ih =>
    simp only [List.map_cons, List.sum_cons]
    exact (flow.hasDerivAt_discounted hrate).fun_add ih

/-- Flows at the start have no part in the slope. -/
theorem npvWithSlope_filter_snd (flows : List (CashFlow ℝ)) (rate : ℝ) :
    (npvWithSlope (flows.filter (0 < ·.period)) rate).2 = (npvWithSlope flows rate).2 := by
  rw [npvWithSlope_snd, npvWithSlope_snd]
  induction flows with
  | nil => rfl
  | cons flow flows ih =>
    by_cases hperiod : 0 < flow.period
    · rw [List.filter_cons_of_pos (by simpa using hperiod), List.map_cons, List.map_cons,
        List.sum_cons, List.sum_cons, ih]
    -- a flow that is dropped adds nothing to the sum
    · have hslope : flow.slope rate = 0 :=
        CashFlow.slope_of_period_eq_zero (Nat.eq_zero_of_not_pos hperiod) rate
      rw [List.filter_cons_of_neg (by simpa using hperiod), ih, List.map_cons, List.sum_cons,
        hslope, zero_add]

/-- **The pass gives the value and its derivative.**  This holds at every rate but that of -100 %,
whatever the periods of the flows and their order are.  The slope is the sum of the slopes of the
flows, of which those at the start have none. -/
theorem npvWithSlope_hasDerivAt (flows : List (CashFlow ℝ)) (hrate : rate ≠ -1) :
    (npvWithSlope flows rate).1 = npv flows rate ∧
      HasDerivAt (npv flows) (npvWithSlope flows rate).2 rate ∧
      (npvWithSlope flows rate).2 =
        -(flows.map fun flow => flow.period * flow.amount / (1 + rate) ^ (flow.period + 1)).sum ∧
      (npvWithSlope (flows.filter (0 < ·.period)) rate).2 = (npvWithSlope flows rate).2 := by
  refine ⟨npvWithSlope_fst flows rate, hasDerivAt_npv flows hrate, ?_,
    npvWithSlope_filter_snd flows rate⟩
  rw [npvWithSlope_snd, List.sum_neg, List.map_map]
  exact congrArg List.sum (List.map_congr_left fun flow _ => CashFlow.slope_eq rate flow)

/-- Sixteen after three periods, five spent at the start, and four and eight after the first
period, at -300 %: each period halves the amounts and changes their signs. -/
theorem npvWithSlope_hasDerivAt_below :
    HasDerivAt (npv [⟨3, 16⟩, ⟨0, -5⟩, ⟨1, 4⟩, ⟨1, 8⟩]) (-6 : ℝ) (-3) ∧
      npv [⟨3, 16⟩, ⟨0, -5⟩, ⟨1, 4⟩, ⟨1, 8⟩] (-3 : ℝ) = -13 := by
  have hrate : (-3 : ℝ) ≠ -1 := by norm_num
  obtain ⟨-, hderiv, hslope, -⟩ :=
    npvWithSlope_hasDerivAt [⟨3, 16⟩, ⟨0, -5⟩, ⟨1, 4⟩, ⟨1, 8⟩] hrate
  have hsix : (npvWithSlope [⟨3, 16⟩, ⟨0, -5⟩, ⟨1, 4⟩, ⟨1, 8⟩] (-3 : ℝ)).2 = -6 := by
    rw [hslope]
    norm_num
  refine ⟨hsix ▸ hderiv, ?_⟩
  norm_num [npv_eq_sum, CashFlow.discounted_real]

end TimeValue
