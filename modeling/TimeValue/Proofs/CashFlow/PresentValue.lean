import TimeValue.Proofs.Exact.Real
import TimeValue.CashFlow.Return

/-!
# Present values over the reals

Over the reals the net present value of a project and its slope are sums over the flows, whatever
the periods and the order of the flows, and the pass that computes both computes these sums.  A
flow at the start needs no case of its own: its slope is zero.

## Main definitions

* `CashFlow.slope` — the slope of a discounted flow in the rate.
* `Conventional` — after the start money is only received.

## Main results

* `npvWithSlope_eq` — value and slope as sums over the flows.
* `irr_of_length` — the rate of return of enough flows is what Newton's method finds.
* `Conventional.tangent_le`, `Conventional.strictAntiOn_npv` — **the net present value of a
  conventional project is convex and falls.**
-/

namespace TimeValue

/-! ### Sums over the flows -/

theorem CashFlow.discounted_real (rate : ℝ) (flow : CashFlow ℝ) :
    flow.discounted rate = flow.amount / (1 + rate) ^ flow.period := by
  rw [CashFlow.discounted, Real.rpow_natCast]

/-- The slope of a flow's value at the start in the rate. -/
noncomputable def CashFlow.slope (rate : ℝ) (flow : CashFlow ℝ) : ℝ :=
  -(flow.period * flow.discounted rate / (1 + rate))

theorem npv_eq_sum (flows : List (CashFlow ℝ)) (rate : ℝ) :
    npv flows rate = (flows.map (·.discounted rate)).sum := by
  -- the loop adds to any sum it starts from, which is what an induction on the flows needs
  have hfrom : ∀ sum : ℝ, flows.foldl (fun sum flow => sum + flow.discounted rate) sum =
      sum + (flows.map (·.discounted rate)).sum := by
    induction flows with
    | nil => simp
    | cons flow flows ih =>
      intro sum
      rw [List.foldl_cons, ih, List.map_cons, List.sum_cons, add_assoc]
  rw [npv, hfrom, neg_zero, zero_add]

theorem addWithSlope_real (rate : ℝ) (sums : ℝ × ℝ) (flow : CashFlow ℝ) :
    addWithSlope rate sums flow = (sums.1 + flow.discounted rate, sums.2 + flow.slope rate) := by
  by_cases hperiod : 0 < flow.period
  · simp only [addWithSlope, CashFlow.slope, if_pos hperiod, sub_eq_add_neg]
  -- for a flow at the start the loop leaves the slope alone, and its term would be zero
  · have hzero : flow.period = 0 := Nat.eq_zero_of_not_pos hperiod
    simp [addWithSlope, CashFlow.slope, hzero]

/-- Value and slope are sums over the flows. -/
theorem npvWithSlope_eq (flows : List (CashFlow ℝ)) (rate : ℝ) :
    npvWithSlope flows rate =
      ((flows.map (·.discounted rate)).sum, (flows.map (·.slope rate)).sum) := by
  have hfrom : ∀ sums : ℝ × ℝ, flows.foldl (addWithSlope rate) sums =
      (sums.1 + (flows.map (·.discounted rate)).sum, sums.2 + (flows.map (·.slope rate)).sum) := by
    induction flows with
    | nil => simp
    | cons flow flows ih =>
      intro sums
      rw [List.foldl_cons, ih, addWithSlope_real]
      simp only [List.map_cons, List.sum_cons, add_assoc]
  rw [npvWithSlope, hfrom, zero_add, zero_add]

theorem npvWithSlope_fst (flows : List (CashFlow ℝ)) (rate : ℝ) :
    (npvWithSlope flows rate).1 = npv flows rate := by
  rw [npvWithSlope_eq, npv_eq_sum]

/-! ### The rate of return -/

/-- No project of enough flows is refused. -/
theorem checkFlows_of_length {flows : List (CashFlow ℝ)} (h : minCashFlows ≤ flows.length) :
    checkFlows flows = .ok () := by
  have hfinite : flows.findIdx? (!Scalar.isFinite ·.amount) = none := by
    simp [List.findIdx?_eq_none_iff]
  rw [checkFlows, if_neg (Nat.not_lt.2 h), hfinite]

/-- The rate of return of enough flows is what Newton's method finds. -/
theorem irr_of_length (config : SolverConfig ℝ) {flows : List (CashFlow ℝ)}
    (h : minCashFlows ≤ flows.length) :
    irr config flows =
      match newton (npvWithSlope flows) config with
      | .ok root => .ok (rateToPercent root.value)
      | .error failure => .error (.solver failure) := by
  rw [irr, checkFlows_of_length h]
  cases newton (npvWithSlope flows) config <;> rfl

/-! ### Conventional projects -/

/-- After the start money is only received, and some is. -/
structure Conventional (flows : List (CashFlow ℝ)) : Prop where
  /-- After the start nothing is spent. -/
  nonneg : ∀ flow ∈ flows, 0 < flow.period → 0 ≤ flow.amount
  /-- After the start something is received. -/
  exists_pos : ∃ flow ∈ flows, 0 < flow.period ∧ 0 < flow.amount

/-- Bernoulli's inequality for the reciprocal of a power. -/
theorem one_add_mul_one_sub_le_inv_pow {q : ℝ} (hq : 0 < q) (t : ℕ) :
    1 + t * (1 - q) ≤ q⁻¹ ^ t := by
  have hinv : 0 < q⁻¹ := inv_pos.2 hq
  have hsquare : q⁻¹ - 1 - (1 - q) = (q - 1) ^ 2 / q := by
    field_simp
    ring
  -- the reciprocal is further above one than the number is below it
  have hle : 1 - q ≤ q⁻¹ - 1 := by
    have hpos : 0 ≤ (q - 1) ^ 2 / q := div_nonneg (sq_nonneg _) hq.le
    linarith
  calc 1 + t * (1 - q) ≤ 1 + t * (q⁻¹ - 1) := by gcongr
    _ ≤ (1 + (q⁻¹ - 1)) ^ t := one_add_mul_le_pow (by linarith) t
    _ = q⁻¹ ^ t := by rw [add_sub_cancel]

namespace CashFlow

variable {flow : CashFlow ℝ} {x y : ℝ}

/-- A flow's value lies above its tangents, if it is received or at the start. -/
theorem tangent_le (hflow : 0 < flow.period → 0 ≤ flow.amount) (hx : -1 < x) (hy : -1 < y) :
    flow.discounted x + flow.slope x * (y - x) ≤ flow.discounted y := by
  obtain hzero | hpos := Nat.eq_zero_or_pos flow.period
  · simp [discounted_real, slope, hzero]
  · have hu : 0 < 1 + x := by linarith
    have hw : 0 < 1 + y := by linarith
    have hvalue : 0 ≤ flow.discounted x := by
      rw [discounted_real]
      exact div_nonneg (hflow hpos) (pow_nonneg hu.le _)
    -- from `x` to `y` the value is divided by a power of the ratio of what one unit grows to
    have hratio : flow.discounted y = flow.discounted x * ((1 + y) / (1 + x))⁻¹ ^ flow.period := by
      rw [discounted_real, discounted_real, inv_div, div_pow]
      field_simp
    calc flow.discounted x + flow.slope x * (y - x)
        = flow.discounted x * (1 + flow.period * (1 - (1 + y) / (1 + x))) := by
          rw [slope]
          field_simp
          ring
      _ ≤ flow.discounted x * ((1 + y) / (1 + x))⁻¹ ^ flow.period :=
          mul_le_mul_of_nonneg_left (one_add_mul_one_sub_le_inv_pow (div_pos hw hu) _) hvalue
      _ = flow.discounted y := hratio.symm

theorem slope_nonpos (hflow : 0 < flow.period → 0 ≤ flow.amount) (hx : -1 < x) :
    flow.slope x ≤ 0 := by
  have hu : 0 < 1 + x := by linarith
  obtain hzero | hpos := Nat.eq_zero_or_pos flow.period
  · simp [slope, hzero]
  · have hamount : 0 ≤ flow.amount := hflow hpos
    rw [slope, discounted_real]
    exact neg_nonpos.2 (by positivity)

theorem slope_neg (hperiod : 0 < flow.period) (hamount : 0 < flow.amount) (hx : -1 < x) :
    flow.slope x < 0 := by
  have hu : 0 < 1 + x := by linarith
  rw [slope, discounted_real]
  exact neg_neg_iff_pos.2 (by positivity)

end CashFlow

namespace Conventional

variable {flows : List (CashFlow ℝ)} {x y : ℝ}

/-- **The net present value is convex**: it lies above its tangents. -/
theorem tangent_le (h : Conventional flows) (hx : -1 < x) (hy : -1 < y) :
    (npvWithSlope flows x).1 + (npvWithSlope flows x).2 * (y - x) ≤ (npvWithSlope flows y).1 := by
  rw [npvWithSlope_eq, npvWithSlope_eq, ← List.sum_map_mul_right, ← List.sum_map_add]
  exact List.sum_le_sum fun flow hflow => CashFlow.tangent_le (h.nonneg flow hflow) hx hy

/-- The slope of the net present value is negative. -/
theorem slope_neg (h : Conventional flows) (hx : -1 < x) : (npvWithSlope flows x).2 < 0 := by
  obtain ⟨flow, hmem, hperiod, hamount⟩ := h.exists_pos
  have hlt : (flows.map (·.slope x)).sum < (flows.map fun _ => (0 : ℝ)).sum :=
    List.sum_lt_sum _ _ (fun other hother => CashFlow.slope_nonpos (h.nonneg other hother) hx)
      ⟨flow, hmem, CashFlow.slope_neg hperiod hamount hx⟩
  rw [npvWithSlope_eq]
  simpa using hlt

/-- **The net present value falls** as the rate rises. -/
theorem strictAntiOn_npv (h : Conventional flows) : StrictAntiOn (npv flows) (Set.Ioi (-1)) := by
  intro x hx y hy hlt
  -- the tangent at the greater rate rises towards the smaller one, and lies below the value there
  have htangent := h.tangent_le hy hx
  have hrise : 0 < (npvWithSlope flows y).2 * (x - y) :=
    mul_pos_of_neg_of_neg (h.slope_neg hy) (sub_neg.2 hlt)
  rw [npvWithSlope_fst, npvWithSlope_fst] at htangent
  linarith

end Conventional

end TimeValue
