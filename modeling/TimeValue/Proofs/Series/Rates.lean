import TimeValue.Proofs.Exact.Real
import TimeValue.Series.RateRange

/-!
# The rates of a range

A range of rates is refused for its limits, its step or the number of its rates.  Over the reals
the rates that it gives rise from index to index, and since they start above -100 % they stay
there.  They are the points of a grid, from the least rate on in equal steps, up to the greatest
rate and no further than the slack beyond it.

## Main definitions

* `RateRange.Meaningful` — the limits and the step mean some rates.
* `RateRange.IsLastIndex` — the greatest index of a rate within the slack.
* `RateRange.IsGrid` — the rates are the points of the grid.

## Main results

* `RateRange.rates_eq_ok_iff` — which ranges give rates, and which rates.
* `RateRange.pairwise_rates`, `RateRange.neg_one_lt_of_mem_rates` — **the rates rise and stay above
  -100 %.**
* `RateRange.rates_eq_grid` — **the rates are the points of the grid.**
-/

namespace TimeValue.RateRange

/-- A range that is not refused gives the rates at its indices. -/
theorem rates_eq_ok_iff {α : Type} [Scalar α] {range : RateRange α} {rates : List α} :
    range.rates = .ok rates ↔
      range.isValid = true ∧ ¬ (maxCurvePoints : α) ≤ range.lastIndex ∧
        (List.range (Scalar.toNat range.lastIndex + 1)).map range.rateAt = rates := by
  unfold RateRange.rates
  by_cases hvalid : range.isValid = true
  · by_cases hmany : (maxCurvePoints : α) ≤ range.lastIndex
    · simp [hvalid, hmany]
    · simp [hvalid, hmany]
  · simp [hvalid]

variable {range : RateRange ℝ} {rates : List ℝ}

theorem isValid_real :
    range.isValid = true ↔ 0 < range.step ∧ -1 < range.min ∧ range.min ≤ range.max := by
  simp [isValid, and_assoc]

theorem strictMono_rateAt (hstep : 0 < range.step) : StrictMono range.rateAt := by
  intro i j hij
  have hcast : (i : ℝ) < j := Nat.cast_lt.2 hij
  exact add_lt_add_right (mul_lt_mul_of_pos_right hcast hstep) range.min

/-- The rates of a range rise. -/
theorem pairwise_rates (h : range.rates = .ok rates) : rates.Pairwise (· < ·) := by
  obtain ⟨hvalid, -, rfl⟩ := rates_eq_ok_iff.1 h
  rw [List.pairwise_map]
  exact List.pairwise_lt_range.imp fun hij => strictMono_rateAt (isValid_real.1 hvalid).1 hij

/-- At every rate of a range there is something left to discount. -/
theorem neg_one_lt_of_mem_rates (h : range.rates = .ok rates) : ∀ rate ∈ rates, -1 < rate := by
  obtain ⟨hvalid, -, rfl⟩ := rates_eq_ok_iff.1 h
  obtain ⟨hstep, hmin, -⟩ := isValid_real.1 hvalid
  intro rate hrate
  obtain ⟨i, -, rfl⟩ := List.mem_map.1 hrate
  exact lt_add_of_lt_of_nonneg hmin (mul_nonneg i.cast_nonneg hstep.le)

/-! ### The grid -/

/-- The limits are in order, above -100 %, and the step leads from one to the other. -/
structure Meaningful (range : RateRange ℝ) : Prop where
  neg_one_lt_min : -1 < range.min
  min_le_max : range.min ≤ range.max
  step_pos : 0 < range.step

/-- So many steps, and no more, lead past the greatest rate by no more than the slack. -/
def IsLastIndex (range : RateRange ℝ) (last : ℕ) : Prop :=
  IsGreatest {k : ℤ | k * range.step ≤ range.max - range.min + range.step * 1e-9} last

/-- The rates are the points of the grid that starts at the least rate, up to the greatest. -/
structure IsGrid (range : RateRange ℝ) (rates : List ℝ) : Prop where
  /-- The least rate comes first. -/
  starts : rates.head? = some range.min
  rises : rates.Pairwise (· < ·)
  neg_one_lt : ∀ rate ∈ rates, -1 < rate
  length_pos : 1 ≤ rates.length
  length_le : rates.length ≤ 100000
  /-- The greatest rate is one of them if whole steps lead to it. -/
  reaches : ∀ n : ℤ, range.max - range.min = n * range.step → range.max ∈ rates
  /-- None exceeds the greatest rate by more than the slack. -/
  exceeds_le : ∀ rate ∈ rates, rate ≤ range.max + range.step * 1e-9
  /-- No point of the grid is left out. -/
  complete : ∀ k : ℕ, range.min + k * range.step ≤ range.max →
    range.min + k * range.step ∈ rates

theorem isValid_iff_meaningful : range.isValid = true ↔ range.Meaningful := by
  rw [isValid_real]
  exact ⟨fun ⟨hstep, hmin, hle⟩ => ⟨hmin, hle, hstep⟩,
    fun h => ⟨h.step_pos, h.neg_one_lt_min, h.min_le_max⟩⟩

/-- The greatest whole number of steps is a floor. -/
theorem le_floor_iff_mul_le (hstep : 0 < range.step) (k : ℤ) :
    k ≤ ⌊(range.max - range.min) / range.step + 1e-9⌋ ↔
      k * range.step ≤ range.max - range.min + range.step * 1e-9 := by
  -- the slack is counted in steps
  have hsum : (range.max - range.min) / range.step + 1e-9 =
      (range.max - range.min + range.step * 1e-9) / range.step := by
    field_simp
  rw [Int.le_floor, hsum, le_div_iff₀ hstep]

/-- There is a last index. -/
theorem exists_isLastIndex (h : range.Meaningful) : ∃ last, range.IsLastIndex last := by
  have hmem := le_floor_iff_mul_le h.step_pos
  -- no step at all is within the slack, so the greatest number of them is not negative
  have hzero : 0 ≤ ⌊(range.max - range.min) / range.step + 1e-9⌋ := by
    rw [hmem, Int.cast_zero, zero_mul]
    have hstep := h.step_pos
    have hle := h.min_le_max
    linarith
  obtain ⟨last, hlast⟩ := Int.eq_ofNat_of_zero_le hzero
  refine ⟨last, ?_, fun k hk => ?_⟩
  · exact (hmem last).1 hlast.ge
  · exact hlast ▸ (hmem k).2 hk

/-- An index is the last if the next is not within the slack. -/
theorem isLastIndex_of_lt (hstep : 0 < range.step) {last : ℕ}
    (hle : last * range.step ≤ range.max - range.min + range.step * 1e-9)
    (hlt : range.max - range.min + range.step * 1e-9 < (last + 1) * range.step) :
    range.IsLastIndex last := by
  refine ⟨?_, fun k hk => ?_⟩
  · show ((last : ℤ) : ℝ) * range.step ≤ _
    rwa [Int.cast_natCast]
  -- so many steps or more lead too far
  · have hk : (k : ℝ) < ((last + 1 : ℤ) : ℝ) := by
      push_cast
      exact lt_of_mul_lt_mul_right (lt_of_le_of_lt hk hlt) hstep.le
    exact Int.lt_add_one_iff.1 (Int.cast_lt.1 hk)

/-- There is only one last index. -/
theorem IsLastIndex.eq {m n : ℕ} (hm : range.IsLastIndex m) (hn : range.IsLastIndex n) : m = n :=
  Nat.cast_injective (IsGreatest.unique hm hn)

/-- The last index is the one that is computed. -/
theorem IsLastIndex.lastIndex_eq {last : ℕ} (h : range.IsLastIndex last)
    (hstep : 0 < range.step) : range.lastIndex = last := by
  have hfloor : ⌊(range.max - range.min) / range.step + 1e-9⌋ = (last : ℤ) :=
    le_antisymm (h.2 ((le_floor_iff_mul_le hstep _).1 le_rfl))
      ((le_floor_iff_mul_le hstep _).2 h.1)
  show ((⌊(range.max - range.min) / range.step + 1e-9⌋ : ℤ) : ℝ) = last
  rw [hfloor, Int.cast_natCast]

/-- A range is refused for the number of its rates, or gives all up to the last index. -/
theorem rates_of_isLastIndex (h : range.Meaningful) {last : ℕ} (hlast : range.IsLastIndex last) :
    range.rates =
      if last + 1 ≤ 100000 then
        .ok ((List.range (last + 1)).map fun i : ℕ => range.min + (i : ℝ) * range.step)
      else .error (.tooManySamples .rateRange (last + 1) 100000) := by
  have hvalid : (!range.isValid) = false := by simp [isValid_iff_meaningful.2 h]
  have hlimit : (maxCurvePoints : ℝ) ≤ last ↔ ¬ last + 1 ≤ 100000 := by
    rw [Nat.cast_le, maxCurvePoints]
    omega
  have htoNat : Scalar.toNat (last : ℝ) = last := Nat.floor_natCast last
  unfold rates
  rw [hvalid, if_neg Bool.false_ne_true, hlast.lastIndex_eq h.step_pos, htoNat]
  by_cases hmany : last + 1 ≤ 100000
  · rw [if_neg fun hle => hlimit.1 hle hmany, if_pos hmany]
    rfl
  · rw [if_pos (hlimit.2 hmany), if_neg hmany]
    rfl

/-- A range that is not valid is refused with its limits and its step. -/
theorem rates_of_not_isValid {α : Type} [Scalar α] {range : RateRange α}
    (h : ¬ range.isValid = true) :
    range.rates = .error (.invalidRange range.min range.max range.step) := by
  unfold rates
  rw [if_pos (by simpa using h)]

/-- A point of the grid up to the greatest rate has an index up to the last. -/
theorem IsLastIndex.le_of_rateAt_le (h : range.Meaningful) {last : ℕ}
    (hlast : range.IsLastIndex last) {k : ℕ} (hk : range.rateAt k ≤ range.max) : k ≤ last := by
  have hslack : 0 ≤ range.step * 1e-9 := mul_nonneg h.step_pos.le (by norm_num)
  have hpoint : range.min + (k : ℝ) * range.step ≤ range.max := hk
  have hmem : ((k : ℤ) : ℝ) * range.step ≤ range.max - range.min + range.step * 1e-9 := by
    rw [Int.cast_natCast]
    linarith
  exact Int.ofNat_le.1 (hlast.2 hmem)

/-- Up to the last index the rates stay within the slack. -/
theorem IsLastIndex.rateAt_le (h : range.Meaningful) {last : ℕ} (hlast : range.IsLastIndex last)
    {i : ℕ} (hi : i ≤ last) : range.rateAt i ≤ range.max + range.step * 1e-9 := by
  have hend : ((last : ℤ) : ℝ) * range.step ≤ range.max - range.min + range.step * 1e-9 := hlast.1
  rw [Int.cast_natCast] at hend
  calc range.rateAt i ≤ range.rateAt last := (strictMono_rateAt h.step_pos).monotone hi
    _ = range.min + (last : ℝ) * range.step := rfl
    _ ≤ range.max + range.step * 1e-9 := by linarith

/-- Whole steps that lead to the greatest rate are not fewer than none. -/
theorem exists_rateAt_eq_max (h : range.Meaningful) {n : ℤ}
    (hn : range.max - range.min = n * range.step) : ∃ k : ℕ, range.rateAt k = range.max := by
  have hmul : 0 ≤ (n : ℝ) * range.step := hn ▸ sub_nonneg.2 h.min_le_max
  -- the limits are in order, so the steps lead upwards
  have hnonneg : (0 : ℝ) ≤ n := nonneg_of_mul_nonneg_left hmul h.step_pos
  obtain ⟨k, rfl⟩ := Int.eq_ofNat_of_zero_le (Int.cast_nonneg_iff.1 hnonneg)
  rw [Int.cast_natCast] at hn
  exact ⟨k, add_eq_of_eq_sub' hn.symm⟩

/-- The rates up to the last index are the points of the grid. -/
theorem isGrid_of_isLastIndex (h : range.Meaningful) {last : ℕ} (hlast : range.IsLastIndex last)
    (hfew : last + 1 ≤ 100000) (hrates : range.rates = .ok rates) : range.IsGrid rates := by
  have hpoints : rates = (List.range (last + 1)).map range.rateAt := by
    have hall := hrates.symm.trans (rates_of_isLastIndex h hlast)
    rw [if_pos hfew] at hall
    exact Except.ok.inj hall
  have hlength : rates.length = last + 1 := by rw [hpoints, List.length_map, List.length_range]
  -- reaching the greatest rate is a case of leaving no point out
  have hcomplete : ∀ k, range.rateAt k ≤ range.max → range.rateAt k ∈ rates := by
    intro k hk
    rw [hpoints]
    exact List.mem_map_of_mem (List.mem_range.2 (Nat.lt_succ_of_le (hlast.le_of_rateAt_le h hk)))
  exact {
    starts := by
      rw [hpoints, List.range_succ_eq_map, List.map_cons, List.head?_cons]
      simp [rateAt]
    rises := pairwise_rates hrates
    neg_one_lt := neg_one_lt_of_mem_rates hrates
    length_pos := by omega
    length_le := by omega
    reaches := by
      intro n hn
      obtain ⟨k, hk⟩ := exists_rateAt_eq_max h hn
      exact hk ▸ hcomplete k hk.le
    exceeds_le := by
      intro rate hrate
      rw [hpoints] at hrate
      obtain ⟨i, hi, rfl⟩ := List.mem_map.1 hrate
      exact hlast.rateAt_le h (Nat.le_of_lt_succ (List.mem_range.1 hi))
    complete := hcomplete }

/-- **The rates of a range are the points of its grid**, from the least rate to the last index
within the slack.  A range with more than 100000 of them is refused with their number, and one
whose limits and step do not mean rates is refused with these; so it is over any numbers, where
they may also be infinite or no numbers at all. -/
theorem rates_eq_grid (range : RateRange ℝ) :
    (range.Meaningful → ∃ last : ℕ, range.IsLastIndex last ∧
      (last + 1 ≤ 100000 → ∃ rates, range.rates = .ok rates ∧
        rates = (List.range (last + 1)).map (fun i : ℕ => range.min + (i : ℝ) * range.step) ∧
        range.IsGrid rates) ∧
      (100000 < last + 1 →
        range.rates = .error (.tooManySamples .rateRange (last + 1) 100000))) ∧
    (¬ range.Meaningful →
      range.rates = .error (.invalidRange range.min range.max range.step)) ∧
    ∀ (α : Type) [Scalar α] (r : RateRange α),
      ¬ (Scalar.isFinite r.min = true ∧ Scalar.isFinite r.max = true ∧
        Scalar.isFinite r.step = true ∧ 0 < r.step ∧ -1 < r.min ∧ r.min ≤ r.max) →
      r.rates = .error (.invalidRange r.min r.max r.step) := by
  refine ⟨fun h => ?_, fun h => ?_, fun α _ r h => ?_⟩
  · obtain ⟨last, hlast⟩ := exists_isLastIndex h
    have hrates := rates_of_isLastIndex h hlast
    refine ⟨last, hlast, fun hfew => ?_, fun hmany => ?_⟩
    · rw [if_pos hfew] at hrates
      exact ⟨_, hrates, rfl, isGrid_of_isLastIndex h hlast hfew hrates⟩
    · rwa [if_neg hmany.not_ge] at hrates
  · exact rates_of_not_isValid fun hvalid => h (isValid_iff_meaningful.1 hvalid)
  · exact rates_of_not_isValid fun hvalid => h (by simpa [isValid, and_assoc] using hvalid)

/-- At the limit: 100000 rates are given, and with one more step they are refused. -/
theorem rates_eq_grid_limit :
    (∃ rates, (⟨0, 0.99999, 0.00001⟩ : RateRange ℝ).rates = .ok rates ∧ rates.length = 100000) ∧
      (⟨0, 1, 0.00001⟩ : RateRange ℝ).rates = .error (.tooManySamples .rateRange 100001 100000) ∧
      (⟨0, 1, 0⟩ : RateRange ℝ).rates = .error (.invalidRange 0 1 0) := by
  have hbelow : (⟨0, 0.99999, 0.00001⟩ : RateRange ℝ).Meaningful := by
    constructor <;> norm_num
  have habove : (⟨0, 1, 0.00001⟩ : RateRange ℝ).Meaningful := by
    constructor <;> norm_num
  have hlastBelow : (⟨0, 0.99999, 0.00001⟩ : RateRange ℝ).IsLastIndex 99999 :=
    isLastIndex_of_lt hbelow.step_pos (by norm_num) (by norm_num)
  have hlastAbove : (⟨0, 1, 0.00001⟩ : RateRange ℝ).IsLastIndex 100000 :=
    isLastIndex_of_lt habove.step_pos (by norm_num) (by norm_num)
  obtain ⟨last, hlast, hfew, -⟩ := (rates_eq_grid ⟨0, 0.99999, 0.00001⟩).1 hbelow
  obtain ⟨rates, hrates, hpoints, -⟩ := hfew (by rw [hlast.eq hlastBelow])
  obtain ⟨last', hlast', -, hmany⟩ := (rates_eq_grid ⟨0, 1, 0.00001⟩).1 habove
  refine ⟨⟨rates, hrates, ?_⟩, ?_, ?_⟩
  · rw [hpoints, List.length_map, List.length_range, hlast.eq hlastBelow]
  · rw [hmany (by rw [hlast'.eq hlastAbove]; norm_num), hlast'.eq hlastAbove]
    norm_num
  · exact (rates_eq_grid ⟨0, 1, 0⟩).2.1 fun h => lt_irrefl _ h.step_pos

end TimeValue.RateRange
