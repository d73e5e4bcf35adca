import TimeValue.Proofs.CashFlow.PresentValue

/-!
# Net amounts

A project may list its flows in any order, split the amount of a period over several of them and
name periods in which nothing happens.  None of this matters over the reals: the net present value
and its slope weight each amount by its period alone, so they are sums over the periods of the net
amounts, and Newton's method sees nothing else of the project.

## Main definitions

* `netAmount` — the total of the amounts at a period.

## Main results

* `sum_weighted_eq` — a sum over the flows, weighted by period, is one over the periods.
* `npvWithSlope_eq_of_netAmount_eq` — value and slope depend on the net amounts only.
* `irr_eq_of_netAmount_eq` — **so does the rate of return, or why there is none.**
-/

namespace TimeValue

/-- The total of the amounts at a period. -/
def netAmount (flows : List (CashFlow ℝ)) (period : ℕ) : ℝ :=
  ((flows.filter (·.period = period)).map (·.amount)).sum

@[simp] theorem netAmount_nil (period : ℕ) : netAmount [] period = 0 := rfl

theorem netAmount_cons (flow : CashFlow ℝ) (flows : List (CashFlow ℝ)) (period : ℕ) :
    netAmount (flow :: flows) period =
      (if flow.period = period then flow.amount else 0) + netAmount flows period := by
  unfold netAmount
  by_cases h : flow.period = period
  · simp [h]
  · simp [h]

/-- Weighted by period, the flows add up to the net amounts of the periods before `n`, if no flow
is later. -/
theorem sum_weighted_eq (w : ℕ → ℝ) (n : ℕ) (flows : List (CashFlow ℝ))
    (hn : ∀ flow ∈ flows, flow.period < n) :
    (flows.map fun flow => w flow.period * flow.amount).sum =
      ∑ period ∈ Finset.range n, w period * netAmount flows period := by
  induction flows with
  | nil => simp
  | cons flow flows ih =>
    obtain ⟨hflow, hflows⟩ := List.forall_mem_cons.1 hn
    -- the flow adds to the net amount of its own period only
    have hone : ∑ period ∈ Finset.range n,
        w period * (if flow.period = period then flow.amount else 0) =
          w flow.period * flow.amount := by
      simp [mul_ite, hflow]
    simp only [netAmount_cons, mul_add, Finset.sum_add_distrib]
    rw [hone, List.map_cons, List.sum_cons, ih hflows]

theorem exists_period_bound (flows : List (CashFlow ℝ)) : ∃ n, ∀ flow ∈ flows, flow.period < n := by
  refine ⟨(flows.map (·.period)).sum + 1, fun flow hflow => Nat.lt_succ_of_le ?_⟩
  exact List.le_sum_of_mem (List.mem_map_of_mem hflow)

section NetAmounts

variable {flows flows' : List (CashFlow ℝ)}

/-- Weighted by period, flows of the same net amounts have one sum. -/
theorem sum_weighted_eq_of_netAmount_eq
    (h : ∀ period, netAmount flows period = netAmount flows' period) (w : ℕ → ℝ) :
    (flows.map fun flow => w flow.period * flow.amount).sum =
      (flows'.map fun flow => w flow.period * flow.amount).sum := by
  obtain ⟨n, hn⟩ := exists_period_bound (flows ++ flows')
  obtain ⟨hn, hn'⟩ := List.forall_mem_append.1 hn
  rw [sum_weighted_eq w n flows hn, sum_weighted_eq w n flows' hn']
  exact Finset.sum_congr rfl fun period _ => by rw [h period]

/-- Value and slope depend on the net amounts only, at every rate. -/
theorem npvWithSlope_eq_of_netAmount_eq
    (h : ∀ period, netAmount flows period = netAmount flows' period) :
    npvWithSlope flows = npvWithSlope flows' := by
  funext rate
  -- value and slope are both sums of amounts, weighted by their period
  have hvalue : ∀ flow : CashFlow ℝ,
      flow.discounted rate = 1 / (1 + rate) ^ flow.period * flow.amount := by
    intro flow
    rw [CashFlow.discounted_real]
    ring
  have hslope : ∀ flow : CashFlow ℝ, flow.slope rate =
      -(flow.period / (1 + rate) ^ flow.period / (1 + rate)) * flow.amount := by
    intro flow
    rw [CashFlow.slope, CashFlow.discounted_real]
    ring
  simp only [npvWithSlope_eq, hvalue, hslope]
  rw [sum_weighted_eq_of_netAmount_eq h fun t => 1 / (1 + rate) ^ t,
    sum_weighted_eq_of_netAmount_eq h fun t => -(t / (1 + rate) ^ t / (1 + rate))]

/-- **The rate of return depends on the net amounts only**: two projects with the same total at
every period have the same rate, or fail to have one in the same way, at the same number and after
as many steps.  Neither is refused for its flows. -/
theorem irr_eq_of_netAmount_eq (config : SolverConfig ℝ) (hlength : minCashFlows ≤ flows.length)
    (hlength' : minCashFlows ≤ flows'.length)
    (h : ∀ period, netAmount flows period = netAmount flows' period) :
    irr config flows = irr config flows' ∧ ∀ e, irr config flows ≠ .error (.domain e) := by
  constructor
  · rw [irr_of_length config hlength, irr_of_length config hlength',
      npvWithSlope_eq_of_netAmount_eq h]
  · intro e
    rw [irr_of_length config hlength]
    cases newton (npvWithSlope flows) config <;> simp

/-- A hundred spent and a hundred and ten received: in three flows, or backwards with a flow of
nothing. -/
theorem irr_eq_of_rearranged :
    irr .standard [⟨0, -100⟩, ⟨1, 60⟩, ⟨1, 50⟩] =
      irr .standard ([⟨4, 0⟩, ⟨1, 110⟩, ⟨0, -100⟩] : List (CashFlow ℝ)) := by
  refine (irr_eq_of_netAmount_eq .standard (by decide) (by decide) fun period => ?_).1
  simp only [netAmount_cons, netAmount_nil]
  by_cases hzero : 0 = period
  · subst hzero
    norm_num
  · by_cases hone : 1 = period
    · subst hone
      norm_num
    · simp [hzero, hone]

end NetAmounts

end TimeValue
