import TimeValue.Decimal.Shortest
import TimeValue.Proofs.Order

/-!
# The numbers that round to a floating point number

Ratios and intervals are compared in natural numbers.  Here they are read as real numbers: the grid
point that a search takes is a multiple of a power of ten between two ends, and it is taken only if
it lies there.  On a fine grid one of the two points next to a number does, for one of them is no
farther away than half a step.

## Main definitions

* `Ratio.value` — the number that a ratio is.
* `Interval.Contains` — the numbers of an interval.
* `reach` — how far below a mantissa the numbers reach that round to it.

## Main results

* `Interval.contains_around_iff` — the numbers that round to a floating point number.
* `Interval.contains_of_nearestOn` — what is found on a grid lies in the interval.
* `Interval.isSome_nearestOn_around` — on a fine grid something is found.
-/

namespace TimeValue.Decimal

/-! ### Ratios -/

namespace Ratio

/-- The number that a ratio is. -/
noncomputable def value (r : Ratio) : ℝ :=
  r.num / r.den

theorem den_ofBinary_pos (m : ℕ) (q : ℤ) : 0 < (ofBinary m q).den := by
  cases q with
  | ofNat q => exact Nat.one_pos
  | negSucc q => exact Nat.two_pow_pos (q + 1)

theorem value_ofBinary (m : ℕ) (q : ℤ) : (ofBinary m q).value = m * 2 ^ q := by
  cases q with
  | ofNat q => simp [ofBinary, value]
  | negSucc q => simp [ofBinary, value, zpow_negSucc, div_eq_mul_inv]

theorem den_perGrid_pos {r : Ratio} (h : 0 < r.den) (k : ℤ) : 0 < (r.perGrid k).den := by
  cases k with
  | ofNat k => exact Nat.mul_pos h (Nat.pow_pos (by decide))
  | negSucc k => exact h

/-- On a grid numbers are counted in its steps. -/
theorem value_perGrid (r : Ratio) (k : ℤ) : (r.perGrid k).value = r.value / 10 ^ k := by
  cases k with
  | ofNat k => simp [perGrid, value, div_div]
  | negSucc k => simp [perGrid, value, zpow_negSucc, div_eq_mul_inv, mul_right_comm]

theorem le_value_iff {r : Ratio} (h : 0 < r.den) {c : ℕ} :
    (c : ℝ) ≤ r.value ↔ c * r.den ≤ r.num := by
  rw [value, le_div_iff₀ (by exact_mod_cast h)]
  exact_mod_cast Iff.rfl

theorem value_le_iff {r : Ratio} (h : 0 < r.den) {c : ℕ} :
    r.value ≤ c ↔ r.num ≤ c * r.den := by
  rw [value, div_le_iff₀ (by exact_mod_cast h)]
  exact_mod_cast Iff.rfl

theorem atLeast_iff {r : Ratio} (h : 0 < r.den) {c : ℕ} : r.atLeast c = true ↔ (c : ℝ) ≤ r.value :=
  decide_eq_true_iff.trans (le_value_iff h).symm

theorem floor_le {r : Ratio} (h : 0 < r.den) : (r.floor : ℝ) ≤ r.value :=
  (le_value_iff h).2 (Nat.div_mul_le_self _ _)

theorem lt_floor_add_one {r : Ratio} (h : 0 < r.den) : r.value < r.floor + 1 := by
  -- in natural numbers, where the quotient is taken
  have hlt : r.num < (r.floor + 1) * r.den := Nat.lt_mul_of_div_lt (Nat.lt_succ_self _) h
  have hvalue := (not_congr (le_value_iff h)).2 hlt.not_ge
  push_cast at hvalue
  exact not_le.1 hvalue

/-- A ratio is rounded to one of the natural numbers next to it. -/
theorem round_eq_or (tie : Tie) (r : Ratio) :
    r.round tie = r.floor ∨ r.round tie = r.floor + 1 := by
  unfold round roundDiv floor
  dsimp only
  split_ifs <;> simp

end Ratio

/-! ### Intervals -/

/-- How far below a mantissa the numbers reach that round to it.  It is half the way to the lower
neighbour, which for a power of two is nearer than the upper one. -/
noncomputable def reach (m : ℕ) (q : ℤ) : ℝ :=
  if m = Binary64.hiddenBit ∧ Binary64.minExponent < q then 1 / 4 else 1 / 2

theorem reach_le (m : ℕ) (q : ℤ) : reach m q ≤ 1 / 2 := by
  unfold reach
  split_ifs <;> norm_num

namespace Interval

/-- The number belongs to the interval. -/
def Contains (i : Interval) (x : ℝ) : Prop :=
  if i.closed then i.low.value ≤ x ∧ x ≤ i.high.value else i.low.value < x ∧ x < i.high.value

/-- Between the ends there are only numbers of the interval. -/
theorem Contains.of_lt {i : Interval} {x : ℝ} (hlow : i.low.value < x) (hhigh : x < i.high.value) :
    i.Contains x := by
  unfold Contains
  split_ifs
  · exact ⟨hlow.le, hhigh.le⟩
  · exact ⟨hlow, hhigh⟩

/-- The grid points of an interval. -/
theorem holds_iff {i : Interval} (hlow : 0 < i.low.den) (hhigh : 0 < i.high.den) (c : ℕ) (k : ℤ) :
    i.holds c k = true ↔ i.Contains (c * 10 ^ k) := by
  have hten : (0 : ℝ) < 10 ^ k := by positivity
  have hlow' := Ratio.den_perGrid_pos hlow k
  have hhigh' := Ratio.den_perGrid_pos hhigh k
  unfold holds Contains
  dsimp only
  split_ifs
  -- on the grid both the ends and the point are counted in steps
  · rw [decide_eq_true_iff, ← Ratio.value_le_iff hlow', ← Ratio.le_value_iff hhigh',
      Ratio.value_perGrid, Ratio.value_perGrid, div_le_iff₀ hten, le_div_iff₀ hten]
  · rw [decide_eq_true_iff, ← not_le, ← not_le, ← Ratio.le_value_iff hlow',
      ← Ratio.value_le_iff hhigh', not_le, not_le, Ratio.value_perGrid, Ratio.value_perGrid,
      div_lt_iff₀ hten, lt_div_iff₀ hten]

/-! ### Around a floating point number -/

theorem den_low_around_pos (m : ℕ) (q : ℤ) : 0 < (around m q).low.den := by
  unfold around
  dsimp only
  split_ifs <;> exact Ratio.den_ofBinary_pos _ _

theorem den_high_around_pos (m : ℕ) (q : ℤ) : 0 < (around m q).high.den :=
  Ratio.den_ofBinary_pos _ _

theorem two_zpow_sub_two (q : ℤ) : (2 : ℝ) ^ (q - 2) = 2 ^ q / 4 := by
  rw [zpow_sub₀ two_ne_zero]
  norm_num

theorem value_low_around {m : ℕ} (hm : 0 < m) (q : ℤ) :
    (around m q).low.value = (m - reach m q) * 2 ^ q := by
  unfold around reach
  dsimp only
  -- the low end is a quarter below a power of two, and half a step below any other mantissa
  split_ifs
  all_goals
    rw [Ratio.value_ofBinary, two_zpow_sub_two, Nat.cast_sub (by omega)]
    push_cast
    ring

theorem value_high_around (m : ℕ) (q : ℤ) :
    (around m q).high.value = (m + 1 / 2) * 2 ^ q := by
  rw [around, Ratio.value_ofBinary, two_zpow_sub_two]
  push_cast
  ring

/-- The numbers that round to `m * 2 ^ q`.  The ends are halves, which go to the even mantissa. -/
theorem contains_around_iff {m : ℕ} (hm : 0 < m) (q : ℤ) (x : ℝ) :
    (around m q).Contains x ↔
      if m % 2 = 0 then m - reach m q ≤ x / 2 ^ q ∧ x / 2 ^ q ≤ m + 1 / 2
      else m - reach m q < x / 2 ^ q ∧ x / 2 ^ q < m + 1 / 2 := by
  have htwo : (0 : ℝ) < 2 ^ q := by positivity
  have hclosed : (around m q).closed = true ↔ m % 2 = 0 := beq_iff_eq
  rw [Contains, value_low_around hm, value_high_around, le_div_iff₀ htwo, div_le_iff₀ htwo,
    lt_div_iff₀ htwo, div_lt_iff₀ htwo]
  simp only [hclosed]

/-- Only positive numbers round to a positive one. -/
theorem pos_of_contains_around {m : ℕ} (hm : 0 < m) {q : ℤ} {x : ℝ}
    (h : (around m q).Contains x) : 0 < x := by
  have hone : (1 : ℝ) ≤ m := by exact_mod_cast hm
  -- the least mantissa is one, and numbers reach it from half of it at most
  have hlow : 0 < (around m q).low.value := by
    rw [value_low_around hm]
    have hreach := reach_le m q
    have hpos : (0 : ℝ) < m - reach m q := by linarith
    positivity
  unfold Contains at h
  split_ifs at h
  · exact hlow.trans_le h.1
  · exact hlow.trans h.1

/-- No digits round to a positive number if they are all zero. -/
theorem natCast_pos_of_contains_around {m : ℕ} (hm : 0 < m) {q : ℤ} {c : ℕ} {x : ℝ}
    (h : (around m q).Contains (c * x)) : 0 < c := by
  refine Nat.pos_of_ne_zero ?_
  rintro rfl
  have hpos := pos_of_contains_around hm h
  simp at hpos

/-! ### Grids -/

section Grid

variable {i : Interval} (hlow : 0 < i.low.den) (hhigh : 0 < i.high.den) {tie : Tie} {v : Ratio}
  {k : ℤ}

include hlow hhigh

/-- What is found on a grid lies in the interval. -/
theorem contains_of_nearestOn {c : ℕ} (h : i.nearestOn tie v k = some c) :
    i.Contains (c * 10 ^ k) := by
  rw [← holds_iff hlow hhigh]
  unfold nearestOn at h
  dsimp only at h
  split at h
  -- where both neighbours lie in the interval, so does the one rounded to
  · next hbelow habove =>
    obtain rfl := Option.some.inj h
    obtain hround | hround := Ratio.round_eq_or tie (v.perGrid k)
    · rwa [hround]
    · rwa [hround]
  · next hbelow _ =>
    obtain rfl := Option.some.inj h
    exact hbelow
  · next _ habove =>
    obtain rfl := Option.some.inj h
    exact habove
  · simp at h

/-- If one of the points next to the number lies in the interval, something is found. -/
theorem isSome_nearestOn (h : i.Contains ((v.perGrid k).floor * 10 ^ k) ∨
    i.Contains (((v.perGrid k).floor + 1 : ℕ) * 10 ^ k)) : (i.nearestOn tie v k).isSome := by
  rw [← holds_iff hlow hhigh, ← holds_iff hlow hhigh] at h
  unfold nearestOn
  dsimp only
  split <;> simp_all

end Grid

/-- Something is found on a grid whose steps are less than the interval is wide.  The point next to
the number that is nearer is half a step away at most. -/
theorem isSome_nearestOn_around {m : ℕ} (hm : 0 < m) {q k : ℤ} (tie : Tie)
    (hstep : (10 : ℝ) ^ k < 2 * reach m q * 2 ^ q) :
    ((around m q).nearestOn tie (.ofBinary m q) k).isSome := by
  have hten : (0 : ℝ) < 10 ^ k := by positivity
  have htwo : (0 : ℝ) < 2 ^ q := by positivity
  have hpos := Ratio.den_perGrid_pos (Ratio.den_ofBinary_pos m q) k
  have hbelow := Ratio.floor_le hpos
  have habove := Ratio.lt_floor_add_one hpos
  rw [Ratio.value_perGrid, Ratio.value_ofBinary, le_div_iff₀ hten] at hbelow
  rw [Ratio.value_perGrid, Ratio.value_ofBinary, div_lt_iff₀ hten] at habove
  have hlow := value_low_around hm q
  have hhigh := value_high_around m q
  have hreach := mul_le_mul_of_nonneg_right (reach_le m q) htwo.le
  refine isSome_nearestOn (den_low_around_pos m q) (den_high_around_pos m q) ?_
  -- in steps of the grid the number is between `c` and `c + 1`
  generalize (((Ratio.ofBinary m q).perGrid k).floor) = c at hbelow habove ⊢
  push_cast
  -- the nearer of the two is half a step away at most, and that is less than numbers reach
  by_cases hhalf : (m : ℝ) * 2 ^ q - c * 10 ^ k ≤ 10 ^ k / 2
  · exact .inl (.of_lt (by linarith) (by linarith))
  · exact .inr (.of_lt (by linarith) (by linarith))

end Interval

end TimeValue.Decimal
