import Mathlib.Algebra.Order.BigOperators.Group.List
import TimeValue.Proofs.Exact.Real
import TimeValue.Series.Sample

/-!
# Running totals and summaries

A running total and a summary add the same amounts in the same order, one of them keeping every sum
on its way and the other only the last.  So a sample of the running total is what the summary of the
flows up to there calls the net, whatever the numbers are and however they are rounded.

Over the reals the order does not matter.  The summary sorts the amounts by sign; each is counted
once, on one side or on the other, and the two sides together make the net.

## Main results

* `cumulativeSeries_eq_mapIdx` — each sample is the net of the flows up to it.
* `ofFlows_real` — the totals of a project as sums.
* `cumulativeSeries_eq_nets` — **running total and summary agree everywhere, and over the reals the
  totals balance and do not depend on the order.**
-/

namespace TimeValue

open FlowSummary

/-! ### Any numbers -/

section AnyNumbers

variable {α : Type} [Scalar α]

/-- On top of the net of a summary, each sample is the net with the flows up to it. -/
theorem cumulativeFrom_eq_mapIdx (s : FlowSummary α) (flows : List (CashFlow α)) :
    cumulativeFrom s.net flows =
      flows.mapIdx fun k flow => ⟨(flow.period : α), ((flows.take (k + 1)).foldl add s).net⟩ := by
  -- each flow is added to the net before it is recorded, so the summary goes along
  induction flows generalizing s with
  | nil => rfl
  | cons flow flows ih =>
    rw [cumulativeFrom, List.mapIdx_cons]
    exact congrArg _ (ih (s.add flow))

/-- Each sample is the net of the flows up to it. -/
theorem cumulativeSeries_eq_mapIdx (flows : List (CashFlow α)) :
    cumulativeSeries flows =
      flows.mapIdx fun k flow => ⟨(flow.period : α), (ofFlows (flows.take (k + 1))).net⟩ :=
  cumulativeFrom_eq_mapIdx empty flows

/-- The last sample is the net of all flows. -/
theorem getLast?_cumulativeSeries (flows : List (CashFlow α)) :
    (cumulativeSeries flows).getLast? =
      flows.getLast?.map fun flow => ⟨(flow.period : α), (ofFlows flows).net⟩ := by
  rw [cumulativeSeries_eq_mapIdx, List.getLast?_eq_getElem?, List.length_mapIdx,
    List.getElem?_mapIdx, List.getLast?_eq_getElem?]
  cases flows with
  | nil => rfl
  | cons flow flows => simp

end AnyNumbers

/-! ### The reals -/

/-- The amounts below zero make the investment, the others the returns, and all of them the net. -/
theorem ofFlows_real (flows : List (CashFlow ℝ)) :
    ofFlows flows =
      ⟨flows.length, ((flows.filter (·.amount < 0)).map (·.amount)).sum,
        ((flows.filter (¬ ·.amount < 0)).map (·.amount)).sum, (flows.map (·.amount)).sum⟩ := by
  -- the summary is made from the front, so the last flow is the one added
  induction flows using List.reverseRecOn with
  | nil => rfl
  | append_singleton flows flow ih =>
    rw [ofFlows_append_singleton, ih]
    by_cases hneg : flow.amount < 0
    · simp [add, hneg, List.filter_append]
    · simp [add, hneg, not_lt.1 hneg, List.filter_append]

/-- The two sides of a project make its net. -/
theorem investment_add_returns (flows : List (CashFlow ℝ)) :
    (ofFlows flows).investment + (ofFlows flows).returns = (ofFlows flows).net := by
  rw [ofFlows_real]
  exact List.sum_map_filter_add_sum_map_filter_not (·.amount < 0) (·.amount) flows

theorem investment_nonpos (flows : List (CashFlow ℝ)) : (ofFlows flows).investment ≤ 0 := by
  rw [ofFlows_real]
  refine (List.sum_le_card_nsmul _ 0 fun amount hmem => ?_).trans_eq (smul_zero _)
  obtain ⟨flow, hflow, rfl⟩ := List.mem_map.1 hmem
  exact (of_decide_eq_true (List.mem_filter.1 hflow).2).le

theorem returns_nonneg (flows : List (CashFlow ℝ)) : 0 ≤ (ofFlows flows).returns := by
  rw [ofFlows_real]
  refine List.sum_nonneg fun amount hmem => ?_
  obtain ⟨flow, hflow, rfl⟩ := List.mem_map.1 hmem
  exact not_lt.1 (of_decide_eq_true (List.mem_filter.1 hflow).2)

/-- The order of the flows does not matter. -/
theorem ofFlows_eq_of_perm {flows flows' : List (CashFlow ℝ)} (h : flows.Perm flows') :
    ofFlows flows = ofFlows flows' := by
  rw [ofFlows_real, ofFlows_real, h.length_eq, (h.map _).sum_eq, ((h.filter _).map _).sum_eq,
    ((h.filter (¬ ·.amount < 0)).map _).sum_eq]

/-- **Running total and summary agree everywhere.**  There is one sample for each flow, in the order
of the flows and over its period, and its value is the net of the flows up to it; the last is the
net of all.  Over the reals the net of a project is its investment and its returns together, the
first of which is never positive and the second never negative, and its flows may be listed in any
order. -/
theorem cumulativeSeries_eq_nets :
    (∀ (α : Type) [Scalar α] (flows : List (CashFlow α)),
      cumulativeSeries flows =
          flows.mapIdx (fun k flow =>
            ⟨(flow.period : α), (ofFlows (flows.take (k + 1))).net⟩) ∧
        (cumulativeSeries flows).getLast? =
          flows.getLast?.map fun flow => ⟨(flow.period : α), (ofFlows flows).net⟩) ∧
    ∀ flows : List (CashFlow ℝ),
      ((ofFlows flows).net = (ofFlows flows).investment + (ofFlows flows).returns ∧
        (ofFlows flows).investment ≤ 0 ∧ 0 ≤ (ofFlows flows).returns) ∧
      ∀ flows', flows.Perm flows' → ofFlows flows = ofFlows flows' := by
  constructor
  · intro α _ flows
    exact ⟨cumulativeSeries_eq_mapIdx flows, getLast?_cumulativeSeries flows⟩
  · intro flows
    exact ⟨⟨(investment_add_returns flows).symm, investment_nonpos flows, returns_nonneg flows⟩,
      fun _ h => ofFlows_eq_of_perm h⟩

/-- A hundred spent and sixty received twice, listed from either end. -/
theorem cumulativeSeries_eq_nets_backwards :
    let flows : List (CashFlow ℝ) := [⟨0, -100⟩, ⟨1, 60⟩, ⟨2, 60⟩]
    flows.Perm flows.reverse ∧ ofFlows flows = ofFlows flows.reverse := by
  intro flows
  have h : flows.Perm flows.reverse := flows.reverse_perm.symm
  exact ⟨h, (cumulativeSeries_eq_nets.2 flows).2 _ h⟩

end TimeValue
