import TimeValue.Proofs.Decimal.Interval

/-!
# Shortest digits are near enough

The search for shortest digits goes from coarse to fine grids and takes the first point that it
finds.  That it finds one at all is a matter of seventeen digits: the step of the last grid is then
less than the way to a neighbour.  Of the exponent of the first digit, which is estimated by a
logarithm of few places, this needs only that it is not too great.

## Main results

* `ten_zpow_leadingExponent_le` — the estimate is not too great.
* `exists_ofGrid_shortest` — **the shortest digits of a number round to it.**
-/

namespace TimeValue.Decimal

open Unpacked (IsNormal)

/-! ### The exponent of the first digit -/

/-- The least exponent of ten for an exponent of two, if a whole power of ten is left over.  A
logarithm of five places does for all exponents that there are. -/
theorem ten_zpow_le_two_zpow {g e : ℤ} (h : 100000 * g ≤ 30103 * e) (he : -1100 ≤ e)
    (he' : e ≤ 1100) : (10 : ℝ) ^ (g - 1) ≤ 2 ^ e := by
  obtain hg | hg := le_total 1 g
  · -- fifty-nine times the logarithm of ten is less than a hundred and ninety-six
    obtain ⟨n, hn⟩ := Int.eq_ofNat_of_zero_le (by omega : 0 ≤ g - 1)
    obtain ⟨k, rfl⟩ := Int.eq_ofNat_of_zero_le (by omega : 0 ≤ e)
    rw [hn, zpow_natCast, zpow_natCast]
    refine le_of_pow_le_pow_left₀ (by decide : 59 ≠ 0) (by positivity) ?_
    calc ((10 : ℝ) ^ n) ^ 59 = (10 ^ 59) ^ n := pow_right_comm _ _ _
      _ ≤ (2 ^ 196) ^ n := by gcongr; norm_num
      _ = 2 ^ (196 * n) := (pow_mul _ _ _).symm
      _ ≤ 2 ^ (k * 59) := pow_le_pow_right₀ one_le_two (by omega)
      _ = (2 ^ k) ^ 59 := pow_mul _ _ _
  · obtain ⟨n, hn⟩ := Int.eq_ofNat_of_zero_le (by omega : 0 ≤ 1 - g)
    obtain hpos | hneg := le_total 0 e
    · exact (zpow_le_one_of_nonpos₀ (by norm_num) (by omega)).trans
        (one_le_zpow₀ one_le_two hpos)
    · -- and ninety-three times the logarithm of two is less than twenty-eight
      obtain ⟨k, hk⟩ := Int.eq_ofNat_of_zero_le (by omega : 0 ≤ -e)
      have hle : (2 : ℝ) ^ k ≤ 10 ^ n := by
        refine le_of_pow_le_pow_left₀ (by decide : 93 ≠ 0) (by positivity) ?_
        calc ((2 : ℝ) ^ k) ^ 93 = (2 ^ 93) ^ k := pow_right_comm _ _ _
          _ ≤ (10 ^ 28) ^ k := by gcongr; norm_num
          _ = 10 ^ (28 * k) := (pow_mul _ _ _).symm
          _ ≤ 10 ^ (n * 93) := pow_le_pow_right₀ (by norm_num) (by omega)
          _ = (10 ^ n) ^ 93 := pow_mul _ _ _
      rw [← neg_sub, ← neg_neg e, hn, hk, zpow_neg, zpow_neg, zpow_natCast, zpow_natCast]
      exact inv_anti₀ (by positivity) hle

/-- The exponent of the first digit is not too great. -/
theorem ten_zpow_leadingExponent_le {m : ℕ} (hm : 0 < m) {q : ℤ} (hlow : -1100 ≤ m.log2 + q)
    (hhigh : m.log2 + q ≤ 1100) : (10 : ℝ) ^ leadingExponent m q ≤ m * 2 ^ q := by
  have hden (k : ℤ) := Ratio.den_perGrid_pos (Ratio.den_ofBinary_pos m q) k
  have hatLeast {k : ℤ} (h : ((Ratio.ofBinary m q).perGrid k).atLeast 1 = true) :
      (10 : ℝ) ^ k ≤ m * 2 ^ q := by
    have hone := (Ratio.atLeast_iff (hden k)).1 h
    rwa [Ratio.value_perGrid, Ratio.value_ofBinary, le_div_iff₀ (by positivity), Nat.cast_one,
      one_mul] at hone
  have hguess := Int.mul_ediv_self_le (x := (m.log2 + q) * 30103) (k := 100000) (by decide)
  unfold leadingExponent
  rw [Int.fdiv_eq_ediv_of_nonneg _ (by decide)]
  dsimp only
  -- only the exponent below the guess is taken unchecked, so that it rests on the estimate
  split_ifs with hless hmore
  · have hleading : (2 : ℝ) ^ (m.log2 : ℤ) ≤ m := by
      rw [zpow_natCast]
      exact_mod_cast Nat.log2_self_le hm.ne'
    calc _ ≤ (2 : ℝ) ^ ((m.log2 : ℤ) + q) := ten_zpow_le_two_zpow (by omega) hlow hhigh
      _ = 2 ^ (m.log2 : ℤ) * 2 ^ q := zpow_add₀ two_ne_zero _ _
      _ ≤ m * 2 ^ q := by gcongr
  · exact hatLeast hmore
  · exact hatLeast (by simpa using hless)

/-! ### The search -/

/-- With seventeen digits a grid is fine enough for every mantissa. -/
theorem ten_zpow_last_lt {m : ℕ} (hm : m < 2 ^ 53) {q top : ℤ} (htop : (10 : ℝ) ^ top ≤ m * 2 ^ q) :
    (10 : ℝ) ^ (top - (maxDigits - 1 : ℕ)) < 2 * reach m q * 2 ^ q := by
  have htwo : (0 : ℝ) < 2 ^ q := by positivity
  -- a power of two reaches half as far down, but its mantissa is the least
  have hmantissa : (m : ℝ) < 2 * reach m q * 10 ^ 16 := by
    unfold reach
    split_ifs with hpower
    · rw [hpower.1]
      norm_num [Binary64.hiddenBit]
    · have hm : (m : ℝ) < 2 ^ 53 := by exact_mod_cast hm
      exact hm.trans (by norm_num)
  have hlast : (10 : ℝ) ^ (top - (maxDigits - 1 : ℕ)) = 10 ^ top / 10 ^ 16 :=
    zpow_sub₀ (by norm_num) _ _
  rw [hlast, div_lt_iff₀ (by norm_num)]
  calc (10 : ℝ) ^ top ≤ m * 2 ^ q := htop
    _ < 2 * reach m q * 10 ^ 16 * 2 ^ q := by gcongr
    _ = 2 * reach m q * 2 ^ q * 10 ^ 16 := by ring

/-- The exponents of numbers in normal form are in the range of the estimate. -/
theorem log2_add_bounds {m : ℕ} {q : ℤ} (h : IsNormal m q) (hq : q ≤ 971) :
    -1100 ≤ m.log2 + q ∧ m.log2 + q ≤ 1100 := by
  have hlow := h.exponent_ge
  have hlog : m.log2 < 53 := by
    obtain rfl | hm := Nat.eq_zero_or_pos m
    · decide
    · exact (Nat.log2_lt hm.ne').2 h.mantissa_lt
  omega

/-- **The shortest digits of a number round to it.**  They are those of a grid point that is nearer
to the number than to its neighbours. -/
theorem exists_ofGrid_shortest (tie : Tie) {m : ℕ} (hm : 0 < m) {q : ℤ} (h : IsNormal m q)
    (hq : q ≤ 971) : ∃ c k, shortest tie m q = Digits.ofGrid c k ∧
      (Interval.around m q).Contains (c * 10 ^ k) := by
  obtain ⟨hlow, hhigh⟩ := log2_add_bounds h hq
  have hlast := Interval.isSome_nearestOn_around hm tie
    (ten_zpow_last_lt h.mantissa_lt (ten_zpow_leadingExponent_le hm hlow hhigh))
  unfold shortest
  dsimp only
  cases hfound : (List.range maxDigits).findSome? fun i : ℕ =>
      ((Interval.around m q).nearestOn tie (.ofBinary m q) (leadingExponent m q - i)).map fun c =>
        Digits.ofGrid c (leadingExponent m q - i) with
  | none =>
    -- the last of the grids holds a point of the interval
    have hnone := List.findSome?_eq_none_iff.1 hfound (maxDigits - 1) (by decide)
    rw [Option.map_eq_none_iff] at hnone
    simp [hnone] at hlast
  | some digits =>
    obtain ⟨i, -, hi⟩ := List.exists_of_findSome?_eq_some hfound
    obtain ⟨c, hc, rfl⟩ := Option.map_eq_some_iff.1 hi
    exact ⟨c, _, rfl, Interval.contains_of_nearestOn (Interval.den_low_around_pos m q)
      (Interval.den_high_around_pos m q) hc⟩

end TimeValue.Decimal
