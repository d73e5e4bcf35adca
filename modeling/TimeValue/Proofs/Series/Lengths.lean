import TimeValue.Proofs.Finite
import TimeValue.Proofs.Order

/-!
# Growth series of different lengths

The samples of a growth series depend on the number of periods only in how many there are.  So a
shorter series is the start of a longer one.  A single value that is not finite refuses every series
that is long enough to reach it, and no shorter one.  A part of a period does not count, and from
the limit on there is no series, whatever the amounts are.

None of this needs exact numbers.  All that it takes is the order of the numbers of periods.

## Main definitions

* `Problem.lasting` — the same investment for another time.
* `wholePeriods` — the periods that count.
* `IsSpan` — a number of periods that a series can have.

## Main results

* `growthSeries_of_floor_le` — less time is no hindrance.
* `growthSeries_lasting_eq_ok_iff` — when a series is not refused, and what it holds.
* `growthSeries_take` — **a shorter series is the start of a longer one.**
-/

namespace TimeValue

variable {α : Type} [Scalar α]

/-- The same investment for another number of periods.  The future value of the problem, which its
series does not look at, may be another as well. -/
def Problem.lasting (p : Problem α) (periods futureValue : α) : Problem α :=
  { p with periods := periods, futureValue := futureValue }

/-- How many periods count. -/
def wholePeriods (periods : α) : ℕ :=
  Scalar.toNat (Scalar.floor periods)

/-- A number of periods that a growth series can have. -/
structure IsSpan (periods : α) : Prop where
  isFinite : Scalar.isFinite periods = true
  nonneg : 0 ≤ periods
  floor_le : Scalar.floor periods ≤ 10000

/-- The first samples are those of a shorter time. -/
theorem take_map_growthSample (p : Problem α) {k m : ℕ} (hle : k ≤ m) :
    ((List.range (m + 1)).map (growthSample p)).take (k + 1) =
      (List.range (k + 1)).map (growthSample p) := by
  rw [← List.map_take, List.take_range, Nat.min_eq_left (Nat.succ_le_succ hle)]

variable [Scalar.Ordered α] {p : Problem α} {n n' v v' : α}

/-- A time that a series can have passes the checks of the periods. -/
theorem IsSpan.canGrow (h : IsSpan n) (hrate : Scalar.isFinite p.rate = true) :
    (p.lasting n v).CanGrow where
  periods_isFinite := h.isFinite
  periods_not_neg := Scalar.Ordered.not_lt_of_le h.nonneg
  rate_isFinite := hrate
  withinLimit := Scalar.Ordered.not_lt_of_le h.floor_le

/-- Less time is no hindrance, and leaves the first samples as they are. -/
theorem growthSeries_of_floor_le (hfinite : Scalar.isFinite n = true) (hnonneg : 0 ≤ n)
    (hfloor : Scalar.floor n ≤ Scalar.floor n') {s : List (Sample α)}
    (hs : growthSeries (p.lasting n' v') = .ok s) :
    growthSeries (p.lasting n v) = .ok (s.take (wholePeriods n + 1)) := by
  obtain ⟨⟨-, -, hrate, hlimit⟩, hvalues, rfl⟩ := growthSeries_eq_ok_iff.1 hs
  -- the samples of the shorter time are among those that were found finite
  have hle : wholePeriods n ≤ wholePeriods n' := Scalar.Ordered.toNat_le_toNat hfloor
  have hnot : ¬ n < 0 := Scalar.Ordered.not_lt_of_le hnonneg
  have hwithin : ¬ (maxGrowthPeriods : α) < Scalar.floor n :=
    fun hlt => hlimit (Scalar.Ordered.lt_of_lt_of_le hlt hfloor)
  exact growthSeries_eq_ok_iff.2 ⟨⟨hfinite, hnot, hrate, hwithin⟩,
    fun i hi => hvalues i (hi.trans hle), (take_map_growthSample p hle).symm⟩

/-- For a time that a series can have, the rate and the values decide. -/
theorem growthSeries_lasting_eq_ok_iff (hn : IsSpan n) {s : List (Sample α)} :
    growthSeries (p.lasting n v) = .ok s ↔
      (Scalar.isFinite p.rate = true ∧
        ∀ i ≤ wholePeriods n, Scalar.isFinite (growthSample p i).y = true) ∧
      (List.range (wholePeriods n + 1)).map (growthSample p) = s := by
  rw [growthSeries_eq_ok_iff]
  constructor
  · rintro ⟨⟨-, -, hrate, -⟩, hvalues, hsamples⟩
    exact ⟨⟨hrate, hvalues⟩, hsamples⟩
  · rintro ⟨⟨hrate, hvalues⟩, hsamples⟩
    have hgrow : (p.lasting n v).CanGrow := hn.canGrow hrate
    exact ⟨⟨hgrow.periods_isFinite, hgrow.periods_not_neg, hrate, hgrow.withinLimit⟩, hvalues,
      hsamples⟩

/-- Beyond the limit a series is refused before its values are looked at. -/
theorem growthSeries_of_limit_lt (hrate : Scalar.isFinite p.rate = true)
    (hfinite : Scalar.isFinite n = true) (hnonneg : 0 ≤ n) (hlimit : 10000 < Scalar.floor n) :
    growthSeries (p.lasting n v) =
      .error (.tooManySamples .growthSeries (Scalar.floor n + 1) 10001) := by
  have hnot : ¬ n < 0 := Scalar.Ordered.not_lt_of_le hnonneg
  -- the checks before that of the limit are passed
  simp only [growthSeries, Problem.lasting, hfinite, hnot, hrate, Bool.not_true, decide_false,
    Bool.or_self, Bool.false_eq_true, if_false]
  exact if_pos hlimit

/-- **A shorter series is the start of a longer one.**  For the same investment over less time the
series is not refused either, and consists of the first samples.  A series that is not too long is
refused only for its rate or a value that is not finite, and otherwise has a sample at the start
and one after each whole period.  Beyond the limit it is refused for its length, whatever the
amounts are. -/
theorem growthSeries_take (p : Problem α) :
    (∀ n n' v v' : α, Scalar.isFinite n = true → 0 ≤ n → Scalar.floor n ≤ Scalar.floor n' →
      ∀ s, growthSeries (p.lasting n' v') = .ok s →
        growthSeries (p.lasting n v) = .ok (s.take (wholePeriods n + 1))) ∧
    (∀ n v : α, IsSpan n →
      ((∃ s, growthSeries (p.lasting n v) = .ok s) ↔
        Scalar.isFinite p.rate = true ∧ ∀ i : ℕ, i ≤ wholePeriods n →
          Scalar.isFinite (totalFV p.presentValue p.payment p.rate (i : α) p.timing) = true) ∧
      ∀ s, growthSeries (p.lasting n v) = .ok s → s.length = wholePeriods n + 1 ∧
        ∀ i : ℕ, i ≤ wholePeriods n →
          s[i]? = some ⟨(i : α), totalFV p.presentValue p.payment p.rate (i : α) p.timing⟩) ∧
    ∀ n v : α, Scalar.isFinite p.rate = true → Scalar.isFinite n = true → 0 ≤ n →
      10000 < Scalar.floor n →
        growthSeries (p.lasting n v) =
          .error (.tooManySamples .growthSeries (Scalar.floor n + 1) 10001) := by
  refine ⟨?shorter, fun n v hn => ⟨?accepted, ?samples⟩, ?beyond⟩
  case shorter =>
    intro n n' v v' hfinite hnonneg hfloor s hs
    exact growthSeries_of_floor_le hfinite hnonneg hfloor hs
  case accepted =>
    constructor
    · rintro ⟨s, hs⟩
      exact ((growthSeries_lasting_eq_ok_iff hn).1 hs).1
    · exact fun h => ⟨_, (growthSeries_lasting_eq_ok_iff hn).2 ⟨h, rfl⟩⟩
  case samples =>
    intro s hs
    obtain ⟨-, rfl⟩ := (growthSeries_lasting_eq_ok_iff hn).1 hs
    refine ⟨by rw [List.length_map, List.length_range], fun i hi => ?_⟩
    rw [List.getElem?_map, List.getElem?_range (Nat.lt_succ_of_le hi)]
    rfl
  case beyond => exact fun n v => growthSeries_of_limit_lt

/-- A greatest number changes nothing in the order. -/
theorem Scalar.ordered_upTo (greatest : ℝ) : @Scalar.Ordered ℝ (.upTo greatest) :=
  let _ := Scalar.upTo greatest
  { le_trans := fun h h' => Scalar.Ordered.real.le_trans h h'
    lt_of_lt_of_le := fun h h' => Scalar.Ordered.real.lt_of_lt_of_le h h'
    not_lt_of_le := fun h => Scalar.Ordered.real.not_lt_of_le h
    toNat_le_toNat := fun h => Scalar.Ordered.real.toNat_le_toNat h }

/-- Six thousand that double in each period, where numbers beyond twenty thousand count as infinite.
One and a half periods have two samples, and part of a period has the first of them.  Two periods
come to too much, and fifteen thousand periods are too many. -/
theorem growthSeries_take_doubled :
    ∃ s, @growthSeries ℝ (.upTo 20000) ⟨1, 1.5, 6000, 0, 0, .ordinary⟩ = .ok s ∧ s.length = 2 ∧
      @growthSeries ℝ (.upTo 20000) ⟨1, 0.7, 6000, 0, 0, .ordinary⟩ = .ok (s.take 1) ∧
      (¬ ∃ s, @growthSeries ℝ (.upTo 20000) ⟨1, 2, 6000, 0, 0, .ordinary⟩ = .ok s) ∧
      @growthSeries ℝ (.upTo 20000) ⟨1, 15000, 6000, 0, 0, .ordinary⟩ =
        .error (.tooManySamples .growthSeries (15000 + 1) 10001) := by
  let _ := Scalar.upTo 20000
  have _ := Scalar.ordered_upTo 20000
  have hfinite : ∀ x : ℝ, |x| ≤ 20000 → Scalar.isFinite x = true := fun x hx => decide_eq_true hx
  have hfloor : ∀ (x : ℝ) (k : ℕ), k ≤ x ∧ x < k + 1 → Scalar.floor x = (k : ℝ) := by
    intro x k hk
    have hint : ⌊x⌋ = (k : ℤ) := Int.floor_eq_iff.2 (by exact_mod_cast hk)
    show ((⌊x⌋ : ℤ) : ℝ) = k
    rw [hint, Int.cast_natCast]
  have hwhole : ∀ (x : ℝ) (k : ℕ), k ≤ x ∧ x < k + 1 → wholePeriods x = k := by
    intro x k hk
    rw [wholePeriods, hfloor x k hk]
    exact Nat.floor_natCast k
  have hspan : ∀ (x : ℝ) (k : ℕ), k ≤ x ∧ x < k + 1 → |x| ≤ 20000 → (k : ℝ) ≤ 10000 → IsSpan x :=
    fun x k hk hx hle => ⟨hfinite x hx, k.cast_nonneg.trans hk.1, (hfloor x k hk).trans_le hle⟩
  have hone : IsSpan (1.5 : ℝ) := hspan 1.5 1 (by norm_num) (by norm_num) (by norm_num)
  have htwo : IsSpan (2 : ℝ) := hspan 2 2 (by norm_num) (by norm_num) (by norm_num)
  obtain ⟨hshorter, hsamples, hbeyond⟩ :=
    growthSeries_take (⟨1, 0, 6000, 0, 0, .ordinary⟩ : Problem ℝ)
  obtain ⟨s, hs⟩ : ∃ s, growthSeries (⟨1, 1.5, 6000, 0, 0, .ordinary⟩ : Problem ℝ) = .ok s := by
    refine (hsamples 1.5 0 hone).1.2 ⟨hfinite 1 (by norm_num), ?_⟩
    rw [hwhole 1.5 1 (by norm_num)]
    intro i hi
    obtain rfl | rfl := Nat.le_one_iff_eq_zero_or_eq_one.1 hi
    · exact hfinite _ (by norm_num [totalFV, compoundFV])
    · exact hfinite _ (by norm_num [totalFV, compoundFV])
  refine ⟨s, hs, ?_, ?_, ?_, ?_⟩
  · rw [((hsamples 1.5 0 hone).2 s hs).1, hwhole 1.5 1 (by norm_num)]
  · have htake := hshorter 0.7 1.5 0 0 (hfinite _ (by norm_num)) (by norm_num)
      (by rw [hfloor 0.7 0 (by norm_num), hfloor 1.5 1 (by norm_num)]; norm_num) s hs
    rwa [hwhole 0.7 0 (by norm_num)] at htake
  · intro hok
    have hlast := ((hsamples 2 0 htwo).1.1 hok).2 2 (hwhole 2 2 (by norm_num)).ge
    have hgreat : |totalFV 6000 0 1 ((2 : ℕ) : ℝ) .ordinary| ≤ 20000 := of_decide_eq_true hlast
    norm_num [totalFV, compoundFV] at hgreat
  · have hmany := hbeyond 15000 0 (hfinite _ (by norm_num)) (hfinite _ (by norm_num)) (by norm_num)
    rw [hfloor 15000 15000 (by norm_num)] at hmany
    exact_mod_cast hmany (by norm_num)

end TimeValue
