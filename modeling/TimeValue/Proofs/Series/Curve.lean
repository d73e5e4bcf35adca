import TimeValue.Proofs.CashFlow.PresentValue
import TimeValue.Proofs.Finite
import TimeValue.Proofs.Series.Rates

/-!
# The curve of the net present value

Over the reals the curve of a project holds one sample for each rate of the range.  For a
conventional project it falls, so that it crosses zero once at most, and the sign of a sample tells
on which side of the rate of return it lies.

## Main results

* `npvCurve_of_length` — what the curve of a project of enough flows holds.
* `Conventional.subsingleton_root`, `Conventional.npv_pos`, `Conventional.npv_neg` — the root, and
  the signs on its sides.
* `npvCurve_falls` — **the curve falls, and its sign locates the rate of return.**
-/

namespace TimeValue

variable {flows : List (CashFlow ℝ)} {range : RateRange ℝ} {rates : List ℝ}

/-- The curve of a project of enough flows has a sample for each rate. -/
theorem npvCurve_of_length (h : minCashFlows ≤ flows.length) (hrates : range.rates = .ok rates) :
    npvCurve flows range = .ok (rates.map fun rate => ⟨rate * 100, npv flows rate⟩) := by
  have hsample : npvSample flows = fun rate => ⟨rate * 100, npv flows rate⟩ := by
    funext rate
    rw [npvSample, rateToPercent_real]
  rw [npvCurve_eq_ok_iff, ← hsample]
  refine ⟨checkFlows_of_length h, rates, hrates, ?_⟩
  exact (ensureFiniteSeries_eq_ok_iff _).2 ⟨fun _ _ => rfl, rfl⟩

namespace Conventional

variable {root rate : ℝ}

/-- There is one rate of return at most. -/
theorem subsingleton_root (h : Conventional flows) :
    {root | -1 < root ∧ npv flows root = 0}.Subsingleton := by
  -- a falling function takes a value once
  rintro root ⟨hroot, hzero⟩ root' ⟨hroot', hzero'⟩
  exact h.strictAntiOn_npv.injOn hroot hroot' (hzero.trans hzero'.symm)

/-- Before its root the net present value is positive. -/
theorem npv_pos (h : Conventional flows) (hroot : -1 < root) (hzero : npv flows root = 0)
    (hrate : -1 < rate) (hlt : rate < root) : 0 < npv flows rate :=
  hzero ▸ h.strictAntiOn_npv hrate hroot hlt

/-- Behind its root the net present value is negative. -/
theorem npv_neg (h : Conventional flows) (hroot : -1 < root) (hzero : npv flows root = 0)
    (hrate : -1 < rate) (hlt : root < rate) : npv flows rate < 0 :=
  hzero ▸ h.strictAntiOn_npv hroot hrate hlt

end Conventional

/-- **The curve falls, and its sign locates the rate of return.**  For a conventional project and
a range that gives rates, the curve has a sample for each of them in order, over the rate as a
percentage.  From sample to sample the percentage rises and the net present value falls.  So there
is one rate of return at most; samples before it are positive, and samples behind it negative. -/
theorem npvCurve_falls (hlength : minCashFlows ≤ flows.length) (h : Conventional flows)
    (hrates : range.rates = .ok rates) :
    ∃ s, npvCurve flows range = .ok s ∧
      s = rates.map (fun rate => ⟨rate * 100, npv flows rate⟩) ∧
      s.Pairwise (fun a b => a.x < b.x ∧ b.y < a.y) ∧
      {root | -1 < root ∧ npv flows root = 0}.Subsingleton ∧
      ∀ root, -1 < root → npv flows root = 0 → ∀ sample ∈ s,
        (sample.x < root * 100 → 0 < sample.y) ∧ (root * 100 < sample.x → sample.y < 0) := by
  have habove := RateRange.neg_one_lt_of_mem_rates hrates
  refine ⟨_, npvCurve_of_length hlength hrates, rfl, ?_, h.subsingleton_root, ?_⟩
  · rw [List.pairwise_map]
    refine (RateRange.pairwise_rates hrates).imp_of_mem fun {a b} ha hb hab => ⟨?_, ?_⟩
    · linarith
    · exact h.strictAntiOn_npv (habove a ha) (habove b hb) hab
  -- rates and percentages are in the same order
  · intro root hroot hzero sample hsample
    obtain ⟨rate, hrate, rfl⟩ := List.mem_map.1 hsample
    refine ⟨fun hlt => ?_, fun hlt => ?_⟩
    · exact h.npv_pos hroot hzero (habove rate hrate) (by linarith)
    · exact h.npv_neg hroot hzero (habove rate hrate) (by linarith)

/-- Two hundred spent, and a hundred at 10 % back after each of two periods, at rates up to 20 %. -/
theorem npvCurve_falls_two_returns :
    ∃ s, npvCurve [⟨2, 121⟩, ⟨0, -200⟩, ⟨1, 110⟩] (⟨0, 0.2, 0.1⟩ : RateRange ℝ) = .ok s ∧
      s.map (·.x) = [0, 10, 20] ∧ s.Pairwise (fun a b => a.x < b.x ∧ b.y < a.y) ∧
      ∀ sample ∈ s, sample.x < 10 → 0 < sample.y := by
  have hflows : Conventional [⟨2, 121⟩, ⟨0, -200⟩, ⟨1, 110⟩] := by
    constructor
    · simp
    · exact ⟨⟨2, 121⟩, by simp, by norm_num, by norm_num⟩
  have hlast : RateRange.lastIndex (⟨0, 0.2, 0.1⟩ : RateRange ℝ) = 2 := by
    have hfloor : ⌊(0.2 - 0) / 0.1 + (1e-9 : ℝ)⌋ = 2 := by norm_num [Int.floor_eq_iff]
    rw [RateRange.lastIndex, RateRange.slack, Scalar.floor_real, hfloor, Int.cast_ofNat]
  have hrates : (⟨0, 0.2, 0.1⟩ : RateRange ℝ).rates = .ok [0, 0.1, 0.2] := by
    rw [RateRange.rates_eq_ok_iff, RateRange.isValid_real, hlast]
    norm_num [maxCurvePoints, List.range_succ, RateRange.rateAt]
  obtain ⟨s, hs, hsamples, hfalls, -, hsigns⟩ := npvCurve_falls (by decide) hflows hrates
  refine ⟨s, hs, ?_, hfalls, fun sample hsample hlt => ?_⟩
  · rw [hsamples]
    norm_num
  · have hzero : npv [⟨2, 121⟩, ⟨0, -200⟩, ⟨1, 110⟩] (0.1 : ℝ) = 0 := by
      norm_num [npv_eq_sum, CashFlow.discounted_real]
    exact (hsigns 0.1 (by norm_num) hzero sample hsample).1 (by linarith)

end TimeValue
