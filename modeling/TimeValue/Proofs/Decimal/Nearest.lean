import TimeValue.Proofs.Decimal.Interval

/-!
# Rounding to the nearest floating point number

A number that is too exact for its format is given by a mantissa and what is known of the rest: that
there is none, or where the number lies between the mantissa and the next one, before the half, on
it, or behind it.  Shifting the mantissa keeps this knowledge, and it is enough to round.  So
whatever lies between the halves around a floating point number is rounded to it, also just below
a power of two, where the mantissa is rounded up and shifted once more.

## Main definitions

* `Locates` — what a mantissa and the two bits behind it say of a number.
* `Rounds` — the natural number nearest to a number, the even one for a half.

## Main results

* `Locates.shiftRight` — a shift keeps what is known.
* `Locates.roundedMantissa_eq` — what is known is enough to round.
* `roundWithAccuracy_eq` — **the numbers around a floating point number are rounded to it.**
-/

namespace TimeValue.Unpacked

open Decimal
open Float.Model (UnpackedFloat Format totalExponent)
open Float.Model.UnpackedFloat

/-! ### Mantissas and the rest -/

/-- A mantissa and the two bits behind it say where a number lies. -/
inductive Locates : ExtendedMantissa → ℝ → Prop
  /-- At the mantissa. -/
  | exact {m : ℕ} {x : ℝ} (h : x = m) : Locates ⟨m, false, false⟩ x
  /-- Before the half to the next mantissa. -/
  | belowHalf {m : ℕ} {x : ℝ} (hlow : m < x) (hhigh : x < m + 1 / 2) : Locates ⟨m, false, true⟩ x
  /-- On the half. -/
  | half {m : ℕ} {x : ℝ} (h : x = m + 1 / 2) : Locates ⟨m, true, false⟩ x
  /-- Behind the half. -/
  | aboveHalf {m : ℕ} {x : ℝ} (hlow : m + 1 / 2 < x) (hhigh : x < m + 1) : Locates ⟨m, true, true⟩ x

/-- The natural number is the nearest one to the number.  For a half it is even. -/
structure Rounds (x : ℝ) (m : ℕ) : Prop where
  low : m - 1 / 2 ≤ x
  high : x ≤ m + 1 / 2
  odd : m % 2 = 1 → m - 1 / 2 < x ∧ x < m + 1 / 2

theorem mantissa_ofMantissaAndAccuracy (m : ℕ) (accuracy : Accuracy) :
    (ExtendedMantissa.ofMantissaAndAccuracy m accuracy).mantissa = m := by
  obtain _ | _ | _ | _ := accuracy <;> rfl

namespace Locates

variable {em : ExtendedMantissa} {x : ℝ}

/-- There is nothing behind the mantissa, or the number lies before the next one. -/
theorem eq_or_between (h : Locates em x) :
    (em.roundBit || em.stickyBit) = false ∧ x = em.mantissa ∨
      (em.roundBit || em.stickyBit) = true ∧ em.mantissa < x ∧ x < em.mantissa + 1 := by
  cases h with
  | exact h => exact .inl ⟨rfl, h⟩
  | belowHalf hlow hhigh => exact .inr ⟨rfl, hlow, by dsimp only; linarith⟩
  | half h => exact .inr ⟨rfl, by dsimp only; linarith, by dsimp only; linarith⟩
  | aboveHalf hlow hhigh => exact .inr ⟨rfl, by dsimp only; linarith, hhigh⟩

theorem mantissa_le (h : Locates em x) : em.mantissa ≤ x := by
  obtain ⟨-, rfl⟩ | ⟨-, hlow, -⟩ := h.eq_or_between
  · exact le_refl _
  · exact hlow.le

theorem lt_mantissa_add_one (h : Locates em x) : x < em.mantissa + 1 := by
  obtain ⟨-, rfl⟩ | ⟨-, -, hhigh⟩ := h.eq_or_between
  · exact lt_add_one _
  · exact hhigh

/-- A shift by one place keeps what is known.  The bit that is shifted out says on which side of the
half the number comes to lie. -/
theorem shiftRightOne (h : Locates em x) : Locates em.shiftRightOne (x / 2) := by
  have hrest := h.eq_or_between
  obtain ⟨m, round, sticky⟩ := em
  dsimp only at hrest
  -- the bit that is shifted out is zero or one
  obtain ⟨k, rfl | rfl⟩ := Nat.even_or_odd' m
  · have hshift : ExtendedMantissa.shiftRightOne ⟨2 * k, round, sticky⟩ =
        ⟨k, false, round || sticky⟩ := by
      simp [ExtendedMantissa.shiftRightOne]
    push_cast at hrest
    rw [hshift]
    obtain ⟨hknown, rfl⟩ | ⟨hknown, hlow, hhigh⟩ := hrest <;> rw [hknown]
    · exact .exact (by ring)
    · exact .belowHalf (by linarith) (by linarith)
  · have hshift : ExtendedMantissa.shiftRightOne ⟨2 * k + 1, round, sticky⟩ =
        ⟨k, true, round || sticky⟩ := by
      simp [ExtendedMantissa.shiftRightOne]
      omega
    push_cast at hrest
    rw [hshift]
    obtain ⟨hknown, rfl⟩ | ⟨hknown, hlow, hhigh⟩ := hrest <;> rw [hknown]
    · exact .half (by ring)
    · exact .aboveHalf (by linarith) (by linarith)

/-- A shift keeps what is known. -/
theorem shiftRight (h : Locates em x) (n : ℕ) : Locates (em >>> n) (x / 2 ^ n) := by
  induction n with
  | zero =>
    rw [pow_zero, div_one]
    exact h
  | succ n ih =>
    rw [pow_succ, ← div_div]
    exact ih.shiftRightOne

/-- What is known is enough to round. -/
theorem roundedMantissa_eq (h : Locates em x) {m : ℕ} (hm : Rounds x m) :
    em.roundedMantissa = m := by
  obtain ⟨hlow, hhigh, hodd⟩ := hm
  -- on each side of the half only one natural number is near enough
  cases h with
  | @exact n _ h =>
    have hle : n < m + 1 := by exact_mod_cast (by linarith : (n : ℝ) < m + 1)
    have hge : m < n + 1 := by exact_mod_cast (by linarith : (m : ℝ) < n + 1)
    show n = m
    omega
  | @belowHalf n _ hbelow habove =>
    have hle : n < m + 1 := by exact_mod_cast (by linarith : (n : ℝ) < m + 1)
    have hge : m < n + 1 := by exact_mod_cast (by linarith : (m : ℝ) < n + 1)
    show n = m
    omega
  | @aboveHalf n _ hbelow habove =>
    have hle : n < m := by exact_mod_cast (by linarith : (n : ℝ) < m)
    have hge : m < n + 2 := by exact_mod_cast (by linarith : (m : ℝ) < n + 2)
    show n + 1 = m
    omega
  | @half n _ h =>
    -- both neighbours are equally near, and the even one is meant
    have hle : n ≤ m := by exact_mod_cast (by linarith : (n : ℝ) ≤ m)
    have hge : m ≤ n + 1 := by exact_mod_cast (by linarith : (m : ℝ) ≤ n + 1)
    have heven : m % 2 = 0 := by
      by_contra hne
      obtain ⟨hlow, hhigh⟩ := hodd (by omega)
      have hlt : n < m := by exact_mod_cast (by linarith : (n : ℝ) < m)
      have hgt : m < n + 1 := by exact_mod_cast (by linarith : (m : ℝ) < n + 1)
      omega
    show n + n % 2 = m
    omega

end Locates

/-! ### Exponents -/

theorem targetExponent_eq (total : ℤ) :
    Format.binary64.targetExponent total = max (total - 53) (-1074) :=
  rfl

/-- The first digit of a number that its mantissa does not exhaust. -/
theorem lt_two_zpow_totalExponent {x : ℝ} {m : ℕ} {e : ℤ} (h : x / 2 ^ e < m + 1) :
    x < 2 ^ totalExponent m e := by
  have htwo : (0 : ℝ) < 2 ^ e := by positivity
  have hnext : (m : ℝ) + 1 ≤ 2 ^ (m.log2 + 1) := by exact_mod_cast Nat.lt_log2_self
  calc x < (m + 1) * 2 ^ e := (div_lt_iff₀ htwo).1 h
    _ ≤ 2 ^ (m.log2 + 1) * 2 ^ e := by gcongr
    _ = 2 ^ totalExponent m e := by
      rw [← zpow_natCast, ← zpow_add₀ two_ne_zero]
      rfl

theorem two_zpow_totalExponent_le {x : ℝ} {m : ℕ} (hm : 0 < m) {e : ℤ} (h : m ≤ x / 2 ^ e) :
    2 ^ (totalExponent m e - 1) ≤ x := by
  have htwo : (0 : ℝ) < 2 ^ e := by positivity
  have hleading : (2 : ℝ) ^ m.log2 ≤ m := by exact_mod_cast Nat.log2_self_le hm.ne'
  have htotal : totalExponent m e - 1 = (m.log2 : ℤ) + e := by
    unfold totalExponent
    omega
  calc (2 : ℝ) ^ (totalExponent m e - 1) = 2 ^ m.log2 * 2 ^ e := by
        rw [htotal, zpow_add₀ two_ne_zero, zpow_natCast]
    _ ≤ m * 2 ^ e := by gcongr
    _ ≤ x := (le_div_iff₀ htwo).1 h

section Around

variable {m : ℕ} (hm : 0 < m) {q : ℤ} {x : ℝ} (h : (Interval.around m q).Contains x)

include hm h

theorem le_of_contains_around : m - reach m q ≤ x / 2 ^ q ∧ x / 2 ^ q ≤ m + 1 / 2 := by
  rw [Interval.contains_around_iff hm] at h
  split_ifs at h
  · exact h
  · exact ⟨h.1.le, h.2.le⟩

/-- Between the halves around it a number counts for its mantissa. -/
theorem rounds_of_contains_around : Rounds (x / 2 ^ q) m := by
  have hreach := reach_le m q
  obtain ⟨hbelow, habove⟩ := le_of_contains_around hm h
  refine ⟨by linarith, habove, fun hodd => ?_⟩
  rw [Interval.contains_around_iff hm, if_neg (by omega)] at h
  exact ⟨by linarith, h.2⟩

/-- Just below a power of two a number counts for the double of its mantissa if it is doubled. -/
theorem rounds_two_mul_of_lt (hpower : m = 2 ^ 52) (hq : -1074 < q) (hless : x / 2 ^ q < m) :
    Rounds (x / 2 ^ (q - 1)) (2 * m) := by
  have hreach : reach m q = 1 / 4 := if_pos ⟨hpower, hq⟩
  have hx : x / 2 ^ (q - 1) = 2 * (x / 2 ^ q) := by
    rw [zpow_sub_one₀ two_ne_zero]
    field_simp
  obtain ⟨hbelow, -⟩ := le_of_contains_around hm h
  rw [hx]
  refine ⟨?_, ?_, fun hodd => ?_⟩
  · push_cast
    linarith
  · push_cast
    linarith
  · omega

/-- A number around a floating point number has no more digits than the latter. -/
theorem lt_of_two_zpow_le (hlt : m < 2 ^ 53) {e : ℤ} (hlow : 2 ^ e ≤ x) : e < 53 + q := by
  have htwo : (0 : ℝ) < 2 ^ q := by positivity
  have hmantissa : (m : ℝ) + 1 ≤ 2 ^ 53 := by exact_mod_cast hlt
  obtain ⟨-, habove⟩ := le_of_contains_around hm h
  have hpower : (2 : ℝ) ^ e < 2 ^ (53 + q) :=
    calc (2 : ℝ) ^ e ≤ x := hlow
      _ ≤ (m + 1 / 2) * 2 ^ q := (div_le_iff₀ htwo).1 habove
      _ < 2 ^ 53 * 2 ^ q := by gcongr; linarith
      _ = 2 ^ (53 + q) := by rw [zpow_add₀ two_ne_zero]; norm_num
  exact (zpow_lt_zpow_iff_right₀ (one_lt_two : (1 : ℝ) < 2)).1 hpower

/-- It has at most one less, if the latter has a leading bit. -/
theorem lt_of_lt_two_zpow (hleading : 2 ^ 52 ≤ m) {e : ℤ} (hhigh : x < 2 ^ e) : 51 + q < e := by
  have htwo : (0 : ℝ) < 2 ^ q := by positivity
  have hreach := reach_le m q
  have hmantissa : (2 : ℝ) ^ 52 ≤ m := by exact_mod_cast hleading
  obtain ⟨hbelow, -⟩ := le_of_contains_around hm h
  have hpower : (2 : ℝ) ^ (51 + q) < 2 ^ e :=
    calc (2 : ℝ) ^ (51 + q) = 2 ^ 51 * 2 ^ q := by rw [zpow_add₀ two_ne_zero]; norm_num
      _ < (m - reach m q) * 2 ^ q := by gcongr; linarith
      _ ≤ x := (le_div_iff₀ htwo).1 hbelow
      _ < 2 ^ e := hhigh
  exact (zpow_lt_zpow_iff_right₀ (one_lt_two : (1 : ℝ) < 2)).1 hpower

/-- If it has one less, then the latter is a power of two, and the number is smaller. -/
theorem eq_two_pow_of_lt (hleading : 2 ^ 52 ≤ m) (hhigh : x < 2 ^ (52 + q)) :
    m = 2 ^ 52 ∧ x / 2 ^ q < m := by
  have hreach := reach_le m q
  have hmantissa : (2 : ℝ) ^ 52 ≤ m := by exact_mod_cast hleading
  obtain ⟨hbelow, -⟩ := le_of_contains_around hm h
  have hx : x / 2 ^ q < 2 ^ 52 := by
    rw [div_lt_iff₀ (by positivity)]
    calc x < 2 ^ (52 + q) := hhigh
      _ = 2 ^ 52 * 2 ^ q := by rw [zpow_add₀ two_ne_zero]; norm_num
  have hlt : m < 2 ^ 52 + 1 := by exact_mod_cast (by linarith : (m : ℝ) < 2 ^ 52 + 1)
  exact ⟨by omega, by linarith⟩

/-- The exponent for a number around a floating point number is that of the latter.  Only just below
a power of two it may be one less. -/
theorem target_eq_or (hnormal : IsNormal m q) {total : ℤ} (hhigh : x < 2 ^ total)
    (hlow : Format.binary64.targetExponent total = -1074 ∨ 2 ^ (total - 1) ≤ x) :
    Format.binary64.targetExponent total = q ∨
      Format.binary64.targetExponent total = q - 1 ∧ m = 2 ^ 52 ∧ -1074 < q ∧
        x / 2 ^ q < m := by
  have hge := hnormal.exponent_ge
  rw [targetExponent_eq] at hlow ⊢
  have hle : max (total - 53) (-1074) ≤ q := by
    obtain hlow | hlow := hlow
    · omega
    · have htotal := lt_of_two_zpow_le hm h hnormal.mantissa_lt hlow
      omega
  -- the least exponent cannot be gone below, and with a leading bit one digit less is all there is
  obtain hleast | hleading := hnormal.leading
  · omega
  · have htotal := lt_of_lt_two_zpow hm h hleading hhigh
    obtain heq | ⟨rfl, hpred⟩ : max (total - 53) (-1074) = q ∨
        total = 52 + q ∧ max (total - 53) (-1074) = q - 1 := by omega
    · exact .inl heq
    · obtain ⟨hpower, hless⟩ := eq_two_pow_of_lt hm h hleading hhigh
      exact .inr ⟨hpred, hpower, by omega, hless⟩

end Around

/-! ### Rounding -/

/-- A shift to a greater exponent keeps what is known. -/
theorem exists_shiftToExponent {m : ℕ} {e target : ℤ} {accuracy : Accuracy} {x : ℝ}
    (h : Locates (.ofMantissaAndAccuracy m accuracy) (x / 2 ^ e)) (he : e ≤ target) :
    ∃ em, shiftToExponent m e accuracy target = (em, target) ∧ Locates em (x / 2 ^ target) := by
  obtain ⟨n, rfl⟩ := Int.le.dest he
  have hshift : (e + n - e).toNat = n := by omega
  have hx : x / 2 ^ (e + n) = x / 2 ^ e / 2 ^ n := by
    rw [zpow_add₀ two_ne_zero, zpow_natCast, div_div]
  unfold shiftToExponent
  rw [hshift, hx]
  exact ⟨_, rfl, h.shiftRight n⟩

theorem shiftToTargetExponent_eq {m n : ℕ} {e : ℤ} (accuracy : Accuracy)
    (h : (Format.binary64.targetExponent (totalExponent m e) - e).toNat = n) :
    shiftToTargetExponent .binary64 m e accuracy =
      (ExtendedMantissa.ofMantissaAndAccuracy m accuracy >>> n, e + (n : ℤ)) := by
  subst h
  rfl

/-- A mantissa that fits stays as it is. -/
theorem shiftToTargetExponent_of_lt {m : ℕ} {q : ℤ} (hm : m < 2 ^ 53) (hq : -1074 ≤ q) :
    shiftToTargetExponent .binary64 m q .exact = (.ofMantissaAndAccuracy m .exact, q) := by
  have hlog : m.log2 < 53 := by
    obtain rfl | hpos := Nat.eq_zero_or_pos m
    · decide
    · exact (Nat.log2_lt hpos.ne').2 hm
  have hshift : (Format.binary64.targetExponent (totalExponent m q) - q).toNat = 0 := by
    rw [targetExponent_eq, totalExponent]
    omega
  rw [shiftToTargetExponent_eq .exact hshift]
  exact Prod.ext rfl (add_zero q)

/-- A mantissa that was rounded up to the next power of two loses its last digit. -/
theorem shiftToTargetExponent_two_pow {q : ℤ} (hq : -1074 < q) :
    shiftToTargetExponent .binary64 (2 ^ 53) (q - 1) .exact =
      (.ofMantissaAndAccuracy (2 ^ 52) .exact, q) := by
  have hshift :
      (Format.binary64.targetExponent (totalExponent (2 ^ 53) (q - 1)) - (q - 1)).toNat = 1 := by
    rw [targetExponent_eq, totalExponent, Nat.log2_two_pow]
    omega
  rw [shiftToTargetExponent_eq .exact hshift]
  exact Prod.ext rfl (sub_add_cancel q 1)

/-- Rounding is two shifts with the rounding of a mantissa between them. -/
theorem roundWithAccuracy_of_shifts {s : Sign} {m m' : ℕ} {e t q : ℤ} {accuracy : Accuracy}
    {em : ExtendedMantissa} (hfirst : shiftToTargetExponent .binary64 m e accuracy = (em, t))
    (hsecond : shiftToTargetExponent .binary64 em.roundedMantissa t .exact =
      (.ofMantissaAndAccuracy m' .exact, q)) (hm' : 0 < m') :
    roundWithAccuracy .binary64 s m e accuracy = .finite s m' q hm' := by
  have hne : (ExtendedMantissa.ofMantissaAndAccuracy m' .exact).mantissa ≠ 0 := hm'.ne'
  rw [roundWithAccuracy, hfirst]
  dsimp only
  rw [hsecond]
  exact dif_neg hne

/-- **The numbers around a floating point number are rounded to it**, if their mantissas have enough
digits. -/
theorem roundWithAccuracy_eq {m : ℕ} (hm : 0 < m) {q : ℤ} (hnormal : IsNormal m q) {x : ℝ}
    (h : (Interval.around m q).Contains x) {n : ℕ} {e : ℤ} {accuracy : Accuracy}
    (hx : Locates (.ofMantissaAndAccuracy n accuracy) (x / 2 ^ e))
    (he : e ≤ Format.binary64.targetExponent (totalExponent n e)) (s : Sign) :
    roundWithAccuracy .binary64 s n e accuracy = .finite s m q hm := by
  have hbelow := hx.mantissa_le
  have habove := hx.lt_mantissa_add_one
  rw [mantissa_ofMantissaAndAccuracy] at hbelow habove
  -- without any digit the exponent aimed at is the least
  have hlow : Format.binary64.targetExponent (totalExponent n e) = -1074 ∨
      2 ^ (totalExponent n e - 1) ≤ x := by
    obtain rfl | hn := Nat.eq_zero_or_pos n
    · rw [targetExponent_eq, totalExponent, Nat.log2_zero] at he ⊢
      omega
    · exact .inr (two_zpow_totalExponent_le hn hbelow)
  obtain ⟨em, hfirst, hshifted⟩ := exists_shiftToExponent hx he
  have hfirst : shiftToTargetExponent .binary64 n e accuracy = (em, _) := hfirst
  -- one digit more is kept below a power of two, which rounding up then takes away again
  obtain htarget | ⟨htarget, rfl, hq, hless⟩ :=
    target_eq_or hm h hnormal (lt_two_zpow_totalExponent habove) hlow
  · rw [htarget] at hshifted hfirst
    refine roundWithAccuracy_of_shifts hfirst ?_ hm
    rw [hshifted.roundedMantissa_eq (rounds_of_contains_around hm h)]
    exact shiftToTargetExponent_of_lt hnormal.mantissa_lt hnormal.exponent_ge
  · rw [htarget] at hshifted hfirst
    refine roundWithAccuracy_of_shifts hfirst ?_ hm
    rw [hshifted.roundedMantissa_eq (rounds_two_mul_of_lt hm h rfl hq hless), ← pow_succ']
    exact shiftToTargetExponent_two_pow hq

end TimeValue.Unpacked
