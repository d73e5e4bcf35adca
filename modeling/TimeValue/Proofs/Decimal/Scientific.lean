import TimeValue.Proofs.Decimal.Nearest

/-!
# Reading a decimal

A decimal is a natural number divided by a power of ten.  Small ones are read by a division of two
floating point numbers, which are exactly the natural number and the power of ten; all others by a
division of natural numbers with as many digits as the mantissa needs.  Either way the quotient is
rounded once, so a decimal around a floating point number is read as it.

## Main definitions

* `HasValue` — a floating point number that is exactly a number.

## Main results

* `HasValue.div_eq` — a quotient is rounded once.
* `ofScientific_eq` — **a decimal around a floating point number is read as it.**
-/

namespace TimeValue.Unpacked

open Decimal
open Float.Model (UnpackedFloat Format totalExponent)
open Float.Model.UnpackedFloat

/-! ### Quotients -/

/-- The remainder of a division says where the quotient lies. -/
theorem locates_accuracyOfFraction (a : ℕ) {b : ℕ} (hb : 0 < b) :
    Locates (.ofMantissaAndAccuracy (a / b) (accuracyOfFraction (a % b) b)) ((a : ℝ) / b) := by
  have hb' : (0 : ℝ) < b := by exact_mod_cast hb
  have hdivision : (a : ℝ) = b * (a / b : ℕ) + (a % b : ℕ) := by
    exact_mod_cast (Nat.div_add_mod a b).symm
  have hquotient : (a : ℝ) / b = (a / b : ℕ) + (a % b : ℕ) / b := by
    rw [hdivision]
    field_simp
  have hless : ((a % b : ℕ) : ℝ) / b < 1 := by
    rw [div_lt_one hb']
    exact_mod_cast Nat.mod_lt a hb
  rw [hquotient]
  -- the quotient is as far behind the natural number as the remainder is part of the divisor
  generalize a / b = n, a % b = r at hless
  unfold accuracyOfFraction
  split_ifs with hr
  · exact .exact (by simp [hr])
  · have hpos : 0 < (r : ℝ) / b := by
      have hr' : (0 : ℝ) < r := by exact_mod_cast Nat.pos_of_ne_zero hr
      positivity
    -- twice the remainder is compared with the divisor instead of the part with a half
    obtain hlt | heq | hgt := lt_trichotomy (2 * r) b
    · have hhalf : (r : ℝ) / b < 1 / 2 := by
        have hlt : 2 * (r : ℝ) < b := by exact_mod_cast hlt
        rw [div_lt_iff₀ hb']
        linarith
      rw [compare_lt_iff_lt.2 hlt]
      exact .belowHalf (by linarith) (by linarith)
    · have hhalf : (r : ℝ) / b = 1 / 2 := by
        have heq : 2 * (r : ℝ) = b := by exact_mod_cast heq
        rw [div_eq_iff hb'.ne']
        linarith
      rw [compare_eq_iff_eq.2 heq, hhalf]
      exact .half rfl
    · have hhalf : 1 / 2 < (r : ℝ) / b := by
        have hgt : (b : ℝ) < 2 * r := by exact_mod_cast hgt
        rw [lt_div_iff₀ hb']
        linarith
      rw [compare_gt_iff_gt.2 hgt]
      exact .aboveHalf (by linarith) (by linarith)

/-- The floating point number is positive, and exactly the number. -/
inductive HasValue : UnpackedFloat → ℝ → Prop
  /-- Mantissa and exponent are those of the number. -/
  | finite {m : ℕ} {e : ℤ} {x : ℝ} (hm : 0 < m) (h : m * 2 ^ e = x) :
    HasValue (.finite .positive m e hm) x

/-- A division by a greater power of two is a shift of the dividend. -/
theorem div_div_two_zpow {e e' target : ℤ} {k : ℕ} (hk : e - e' - target = k) (a b : ℕ) :
    (a : ℝ) * 2 ^ e / (b * 2 ^ e') / 2 ^ target = ((a <<< k : ℕ) : ℝ) / b := by
  have hexponent : (2 : ℝ) ^ e = 2 ^ e' * 2 ^ target * 2 ^ k := by
    rw [← zpow_natCast (2 : ℝ) k, ← zpow_add₀ two_ne_zero, ← zpow_add₀ two_ne_zero]
    congr 1
    omega
  rw [Nat.shiftLeft_eq, hexponent]
  push_cast
  field_simp

/-- A quotient has as many digits as the dividend has more than the divisor, or one more. -/
theorem totalExponent_le_add {a b n : ℕ} (ha : 0 < a) (hb : 0 < b) {e e' target : ℤ}
    (h : (a : ℝ) * 2 ^ e / (b * 2 ^ e') / 2 ^ target < n + 1) :
    totalExponent a e ≤ totalExponent n target + totalExponent b e' := by
  have hb' : (0 : ℝ) < b := by exact_mod_cast hb
  have hdividend : (2 : ℝ) ^ (totalExponent a e - 1) ≤ a * 2 ^ e :=
    two_zpow_totalExponent_le ha (by field_simp; rfl)
  have hdivisor : (b : ℝ) * 2 ^ e' < 2 ^ totalExponent b e' :=
    lt_two_zpow_totalExponent (by field_simp; linarith)
  have hpower : (2 : ℝ) ^ (totalExponent a e - 1) <
      2 ^ (totalExponent n target + totalExponent b e') :=
    calc (2 : ℝ) ^ (totalExponent a e - 1) ≤ a * 2 ^ e := hdividend
      _ = a * 2 ^ e / (b * 2 ^ e') * (b * 2 ^ e') := by field_simp
      _ < 2 ^ totalExponent n target * 2 ^ totalExponent b e' :=
        mul_lt_mul'' (lt_two_zpow_totalExponent h) hdivisor (by positivity) (by positivity)
      _ = _ := (zpow_add₀ two_ne_zero _ _).symm
  have hexponent := (zpow_lt_zpow_iff_right₀ (one_lt_two : (1 : ℝ) < 2)).1 hpower
  omega

/-- A quotient is rounded once. -/
theorem HasValue.div_eq {u u' : UnpackedFloat} {x x' : ℝ} (hu : HasValue u x) (hu' : HasValue u' x')
    {m : ℕ} (hm : 0 < m) {q : ℤ} (hnormal : IsNormal m q)
    (h : (Interval.around m q).Contains (x / x')) :
    UnpackedFloat.div .binary64 u u' = .finite .positive m q hm := by
  obtain @⟨a, e, _, ha, rfl⟩ := hu
  obtain @⟨b, e', _, hb, rfl⟩ := hu'
  -- the exponent of the quotient is not greater than the one that is aimed at
  obtain ⟨k, hk⟩ : ∃ k : ℕ, e - e' - min (e - e')
      (Format.binary64.targetExponent (totalExponent a e - totalExponent b e')) = k :=
    Int.eq_ofNat_of_zero_le (by omega)
  generalize htarget : min (e - e') (Format.binary64.targetExponent
    (totalExponent a e - totalExponent b e')) = target at hk
  have hdiv : UnpackedFloat.div .binary64 (.finite .positive a e ha) (.finite .positive b e' hb) =
      roundWithAccuracy .binary64 .positive (a <<< k / b) target
        (accuracyOfFraction (a <<< k % b) b) := by
    simp only [UnpackedFloat.div, divCore, htarget, hk, Int.toNat_natCast]
    rfl
  have hlocates := locates_accuracyOfFraction (a <<< k) hb
  rw [← div_div_two_zpow hk] at hlocates
  have hquotient := hlocates.lt_mantissa_add_one
  rw [mantissa_ofMantissaAndAccuracy] at hquotient
  have htotal := totalExponent_le_add ha hb hquotient
  refine hdiv.trans (roundWithAccuracy_eq hm hnormal h hlocates ?_ .positive)
  rw [targetExponent_eq] at htarget ⊢
  omega

/-! ### Decimals with many digits -/

/-- A decimal around a floating point number has a digit that is not zero. -/
theorem pos_of_contains_quotient {m : ℕ} (hm : 0 < m) {q : ℤ} {n places : ℕ}
    (h : (Interval.around m q).Contains ((n : ℝ) / 10 ^ places)) : 0 < n := by
  rw [div_eq_mul_inv] at h
  exact Interval.natCast_pos_of_contains_around hm h

/-- A decimal around a floating point number is not so small that it would not be read. -/
theorem places_le {m : ℕ} (hm : 0 < m) {q : ℤ} (hnormal : IsNormal m q) {n places : ℕ}
    (h : (Interval.around m q).Contains ((n : ℝ) / 10 ^ places)) : places ≤ 2048 + n.log2 := by
  have hten : (0 : ℝ) < 10 ^ places := by positivity
  have htwo : (0 : ℝ) < 2 ^ q := by positivity
  have hreach := reach_le m q
  have hone : (1 : ℝ) ≤ m := by exact_mod_cast hm
  have hleast : (2 : ℝ) ^ (-1074 : ℤ) ≤ 2 ^ q :=
    zpow_le_zpow_right₀ one_le_two hnormal.exponent_ge
  obtain ⟨hbelow, -⟩ := le_of_contains_around hm h
  -- a half of the least number is reached at most, and each place divides by more than two
  have hpower : (2 : ℝ) ^ ((places : ℤ) + (-1 + -1074)) < 2 ^ ((n.log2 + 1 : ℕ) : ℤ) :=
    calc (2 : ℝ) ^ ((places : ℤ) + (-1 + -1074)) = 2 ^ places * (2⁻¹ * 2 ^ (-1074 : ℤ)) := by
          rw [zpow_add₀ two_ne_zero, zpow_add₀ two_ne_zero, zpow_natCast, zpow_neg_one]
      _ ≤ 10 ^ places * ((m - reach m q) * 2 ^ q) := by gcongr <;> linarith
      _ ≤ n := by
        rw [mul_comm, ← le_div_iff₀ hten]
        exact (le_div_iff₀ htwo).1 hbelow
      _ < 2 ^ ((n.log2 + 1 : ℕ) : ℤ) := by
        rw [zpow_natCast]
        exact_mod_cast Nat.lt_log2_self
  have hexponent := (zpow_lt_zpow_iff_right₀ (one_lt_two : (1 : ℝ) < 2)).1 hpower
  omega

/-- A natural number is rounded once. -/
theorem mul_one_eq {n : ℕ} (hn : 0 < n) {m : ℕ} (hm : 0 < m) {q : ℤ} (hnormal : IsNormal m q)
    (h : (Interval.around m q).Contains n) (hshift : 0 < n <<< 53) :
    UnpackedFloat.mul .binary64 (.finite .positive (n <<< 53) (-53) hshift)
      (.finite .positive 1 0 Nat.one_pos) = .finite .positive m q hm := by
  have hmul : UnpackedFloat.mul .binary64 (.finite .positive (n <<< 53) (-53) hshift)
      (.finite .positive 1 0 Nat.one_pos) =
      roundWithAccuracy .binary64 .positive (n <<< 53) (-53) .exact := by
    show roundWithAccuracy .binary64 .positive (n <<< 53 * 1) (-53 + 0) .exact = _
    rw [Nat.mul_one, Int.add_zero]
  have hlocates : Locates (.ofMantissaAndAccuracy (n <<< 53) .exact) ((n : ℝ) / 2 ^ (-53 : ℤ)) := by
    have hvalue : (n : ℝ) / (2 : ℝ) ^ (-53 : ℤ) = ((n <<< 53 : ℕ) : ℝ) := by
      rw [Nat.shiftLeft_eq, zpow_neg, div_inv_eq_mul]
      push_cast
      norm_num
    exact .exact hvalue
  -- the shift leaves digits enough, so that nothing is rounded before the one rounding
  have hlog : 53 ≤ (n <<< 53).log2 := by
    rw [Nat.le_log2 hshift.ne', Nat.shiftLeft_eq]
    exact Nat.le_mul_of_pos_left _ hn
  refine hmul.trans (roundWithAccuracy_eq hm hnormal h hlocates ?_ .positive)
  rw [targetExponent_eq, totalExponent]
  omega

/-- A decimal around a floating point number is read as it, however many digits it has. -/
theorem unpacked_ofScientific_eq {m : ℕ} (hm : 0 < m) {q : ℤ} (hnormal : IsNormal m q)
    {n places : ℕ} (h : (Interval.around m q).Contains ((n : ℝ) / 10 ^ places)) :
    UnpackedFloat.ofScientific .binary64 n (.negOfNat places) = .finite .positive m q hm := by
  have hn := pos_of_contains_quotient hm h
  have hplaces := places_le hm hnormal h
  have hshift : 0 < n <<< 53 := by
    rw [Nat.shiftLeft_eq]
    positivity
  have hnegative : Int.negOfNat places = -(places : ℤ) := Int.negOfNat_eq
  have hgreat : ¬ Int.negOfNat places > 2 ^ Format.binary64.exponentBits := by
    rw [hnegative]
    norm_num
  have hsmall : ¬ Int.negOfNat places < -((2 ^ Format.binary64.exponentBits : ℤ) + n.log2) := by
    rw [hnegative]
    norm_num
    omega
  unfold UnpackedFloat.ofScientific
  rw [dif_neg hn.ne', if_neg hgreat, if_neg hsmall]
  -- without places the number is multiplied by one, else divided by a power of ten
  obtain _ | places := places
  · have h : (Interval.around m q).Contains n := by simpa using h
    rw [if_pos (by decide)]
    exact mul_one_eq hn hm hnormal h hshift
  · have hdividend : HasValue (.finite .positive n 0 hn) n := .finite hn (by simp)
    have hdivisor : HasValue (.finite .positive (10 ^ (places + 1)) 0 (Nat.pow_pos (by decide)))
        ((10 : ℝ) ^ (places + 1)) := .finite _ (by simp)
    rw [if_neg (by rw [hnegative]; omega)]
    exact hdividend.div_eq hdivisor hm hnormal h

/-! ### Decimals with few digits -/

theorem finite_congr {s : Sign} {m m' : ℕ} {q q' : ℤ} (hm : 0 < m) (hm' : 0 < m') (h : m = m')
    (hq : q = q') : UnpackedFloat.finite s m q hm = .finite s m' q' hm' := by
  subst h hq
  rfl

/-- Packing keeps a number with a leading bit. -/
theorem unpack_pack {m : ℕ} (hm : 0 < m) {q : ℤ} (hleading : 2 ^ 52 ≤ m) (hlt : m < 2 ^ 53)
    (hq : -1074 ≤ q) (hq' : q ≤ 971) (s : Sign) :
    UnpackedFloat.unpack .binary64 (UnpackedFloat.pack .binary64 (.finite s m q hm)) =
      .finite s m q hm := by
  have hlog : m.log2 = 52 := (Nat.log2_eq_iff hm.ne').2 ⟨hleading, hlt⟩
  have hbits : 52 + 1 = Format.binary64.mantissaBits := rfl
  have hfield : (q + Format.binary64.exponentBias + (52 : ℕ)).toNat = (q + 1075).toNat :=
    congrArg Int.toNat (add_assoc q 1023 52)
  have hfield' : (BitVec.ofNat 11 (q + 1075).toNat).toNat = (q + 1075).toNat := by
    rw [BitVec.toNat_ofNat, Nat.mod_eq_of_lt (by omega)]
  have hfits : ¬ 2 ^ 11 ≤ (q + 1075).toNat + 1 := by omega
  -- the field of the exponent is neither that of infinity nor that of small numbers
  have hinfinite : BitVec.ofNat 11 (q + 1075).toNat ≠ -1#11 := by
    intro h
    have htoNat : (q + 1075).toNat = 2047 := hfield'.symm.trans (congrArg BitVec.toNat h)
    omega
  have hsubnormal : BitVec.ofNat 11 (q + 1075).toNat ≠ 0#11 := by
    intro h
    have htoNat : (q + 1075).toNat = 0 := hfield'.symm.trans (congrArg BitVec.toNat h)
    omega
  unfold UnpackedFloat.pack
  simp only [hlog, hfield]
  rw [if_neg hfits, if_pos hbits]
  unfold UnpackedFloat.unpack
  simp only [unpackExponent_packComponents, unpackMantissa_packComponents,
    unpackSign_packComponents, Sign.ofBitVec_toBitVec]
  rw [if_neg hinfinite, if_neg hsubnormal]
  refine finite_congr _ hm ?_ ?_
  · rw [toNat_one_append, BitVec.toNat_ofNat]
    omega
  · rw [hfield']
    show ((q + 1075).toNat : ℤ) - (1023 + 52) = q
    omega

/-- A natural number below the greatest mantissa is a floating point number, with zeros behind
it. -/
theorem exists_round_natural {n : ℕ} (hn : 0 < n) (hlt : n < 2 ^ 53) :
    ∃ (k : ℕ) (hm : 0 < n * 2 ^ k), k ≤ 52 ∧ 2 ^ 52 ≤ n * 2 ^ k ∧ n * 2 ^ k < 2 ^ 53 ∧
      UnpackedFloat.round .binary64 .positive n 0 = .finite .positive (n * 2 ^ k) (-k) hm := by
  have hlog : n.log2 < 53 := (Nat.log2_lt hn.ne').2 hlt
  -- as many zeros as are missing to the leading bit
  obtain ⟨k, hk⟩ : ∃ k, n.log2 + k = 52 := ⟨52 - n.log2, by omega⟩
  have hleading : 2 ^ 52 ≤ n * 2 ^ k := by
    rw [← hk, pow_add]
    exact Nat.mul_le_mul_right _ (Nat.log2_self_le hn.ne')
  have hmantissa : n * 2 ^ k < 2 ^ 53 := by
    rw [show 53 = n.log2 + 1 + k by omega, pow_add]
    exact Nat.mul_lt_mul_of_pos_right Nat.lt_log2_self (by positivity)
  have hm : 0 < n * 2 ^ k := by positivity
  have hshift : (0 - Format.binary64.targetExponent (totalExponent n 0)).toNat = k := by
    rw [targetExponent_eq, totalExponent]
    omega
  refine ⟨k, hm, by omega, hleading, hmantissa, ?_⟩
  unfold UnpackedFloat.round decreaseExponent
  dsimp only
  rw [hshift, Nat.shiftLeft_eq, zero_sub]
  have hkeep := shiftToTargetExponent_of_lt hmantissa (by omega : (-1074 : ℤ) ≤ -k)
  exact roundWithAccuracy_of_shifts hkeep hkeep hm

theorem hasValue_toFloat {n : ℕ} (hn : 0 < n) (hlt : n < 2 ^ 53) :
    HasValue n.toUInt64.toFloat.toModel.unpack n := by
  obtain ⟨k, hm, hk, hleading, hmantissa, hround⟩ := exists_round_natural hn hlt
  have hword : n.toUInt64.toNat = n := by
    show n % 2 ^ 64 = n
    omega
  have hsign : compare (n : ℤ) 0 = .gt := compare_gt_iff_gt.2 (by omega)
  have hunpack : n.toUInt64.toFloat.toModel.unpack =
      UnpackedFloat.unpack .binary64 (UnpackedFloat.pack .binary64
        (normalize .binary64 (n.toUInt64.toNat : ℤ) 0 .positive)) := rfl
  rw [hunpack, hword]
  unfold UnpackedFloat.normalize
  rw [hsign]
  dsimp only
  rw [Int.toNat_natCast, hround, unpack_pack hm hleading hmantissa (by omega) (by omega)]
  refine .finite hm ?_
  push_cast
  rw [zpow_neg, zpow_natCast]
  field_simp

/-- Whether a number is exactly a natural number. -/
def isExactly (n : ℕ) : UnpackedFloat → Bool
  | .finite .positive m e _ => m * 2 ^ e.toNat == n * 2 ^ (-e).toNat
  | _ => false

theorem hasValue_of_isExactly {n : ℕ} {u : UnpackedFloat} (h : isExactly n u = true) :
    HasValue u n := by
  obtain _ | _ | _ | ⟨_ | _, m, e, hm⟩ := u
  case finite.positive =>
    have heq : (m : ℝ) * 2 ^ e.toNat = n * 2 ^ (-e).toNat := by exact_mod_cast beq_iff_eq.1 h
    refine .finite hm ?_
    -- one of the two exponents compared is zero, whatever the sign of `e` is
    obtain ⟨k, rfl | rfl⟩ := e.eq_nat_or_neg
    · simpa using heq
    · rw [zpow_neg, zpow_natCast, ← div_eq_mul_inv, div_eq_iff (by positivity)]
      simpa using heq
  all_goals cases h

/-- The small powers of ten are floating point numbers. -/
theorem isExactly_power : ∀ k : Fin 23,
    isExactly (10 ^ k.val)
      (getElem Float.exactlyRepresentablePowersOfTen k.val k.isLt).toModel.unpack = true := by
  decide +kernel

/-- **A decimal around a floating point number is read as it.** -/
theorem ofScientific_eq {m : ℕ} (hm : 0 < m) {q : ℤ} (hnormal : IsNormal m q)
    {n places : ℕ} (h : (Interval.around m q).Contains ((n : ℝ) / 10 ^ places)) :
    (OfScientific.ofScientific n true places : Float) =
      .ofModel (.pack (.finite .positive m q hm)) := by
  have hn : 0 < n := pos_of_contains_quotient hm h
  show Float.ofScientific n true places = _
  unfold Float.ofScientific
  simp only [if_true]
  -- with few digits and few places one division of two exact numbers is enough
  split_ifs with hfew
  · obtain ⟨hlt, hplaces⟩ := hfew
    have hpower := hasValue_of_isExactly (isExactly_power ⟨places, by omega⟩)
    push_cast at hpower
    have hdiv := (hasValue_toFloat hn hlt).div_eq hpower hm hnormal h
    exact congrArg (Float.ofModel ∘ Float.Model.pack) hdiv
  · exact congrArg (Float.ofModel ∘ Float.Model.pack) (unpacked_ofScientific_eq hm hnormal h)

end TimeValue.Unpacked
