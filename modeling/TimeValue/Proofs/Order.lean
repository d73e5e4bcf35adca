import Mathlib
import TimeValue.Proofs.Exact.Real

/-!
# Laws of order

A check against a limit needs little of the numbers that it compares: that the comparisons go
together, and that a greater number counts as a greater natural number.  Over the reals both are
plain.  Floating point numbers obey the same laws, although some of them are infinite, some are no
numbers at all, and zero has two signs.  They are compared by class, exponent and mantissa, and it
is their normal form that makes this the order of their values: the leading bit of a mantissa is
missing only where the exponent is the least.

## Main definitions

* `Scalar.Ordered` — the laws.
* `Unpacked.rank` — the place of a floating point number in the order.
* `Unpacked.IsNormal` — the normal form of mantissa and exponent.

## Main results

* `Unpacked.lt_iff`, `Unpacked.le_iff` — the comparisons are those of the ranks.
* `Unpacked.roundToInt_eq` — the whole part of a floating point number.
* `Unpacked.toUInt64_le_toUInt64` — a greater number has no smaller whole part.
* `Scalar.Ordered.real`, `Scalar.Ordered.float` — **the reals and the floating point numbers obey
  the laws.**
-/

namespace TimeValue

/-- Laws of order.  They leave room for numbers that are out of order with all others. -/
class Scalar.Ordered (α : Type) [Scalar α] : Prop where
  le_trans : ∀ {x y z : α}, x ≤ y → y ≤ z → x ≤ z
  lt_of_lt_of_le : ∀ {x y z : α}, x < y → y ≤ z → x < z
  not_lt_of_le : ∀ {x y : α}, x ≤ y → ¬ y < x
  toNat_le_toNat : ∀ {x y : α}, x ≤ y → Scalar.toNat x ≤ Scalar.toNat y

instance Scalar.Ordered.real : Scalar.Ordered ℝ where
  le_trans := fun h h' => h.trans h'
  lt_of_lt_of_le := fun h h' => h.trans_le h'
  not_lt_of_le := fun h => not_lt_of_ge h
  toNat_le_toNat := fun h => Nat.floor_mono h

namespace Unpacked

open Float.Model (UnpackedFloat)
open Float.Model.UnpackedFloat

/-! ### Ranks -/

/-- The place of a number in the order: its class, and within the class exponent and mantissa.
What is no number has none. -/
def rank : UnpackedFloat → Option (ℤ ×ₗ ℤ ×ₗ ℤ)
  | .notANumber => none
  | .infinity .negative => some (toLex (-2, toLex (0, 0)))
  | .finite .negative m e _ => some (toLex (-1, toLex (-e, -m)))
  | .zero _ => some (toLex (0, toLex (0, 0)))
  | .finite .positive m e _ => some (toLex (1, toLex (e, m)))
  | .infinity .positive => some (toLex (2, toLex (0, 0)))

theorem compare_neg_neg (x y : ℤ) : compare (-x) (-y) = (compare x y).swap := by
  obtain h | rfl | h := lt_trichotomy x y
  · rw [Int.compare_eq_lt.2 h, Int.compare_eq_gt.2 (Int.neg_lt_neg h), Ordering.swap_lt]
  · rw [Int.compare_eq_eq.2 rfl, Int.compare_eq_eq.2 rfl, Ordering.swap_eq]
  · rw [Int.compare_eq_gt.2 h, Int.compare_eq_lt.2 (Int.neg_lt_neg h), Ordering.swap_gt]

theorem compare_natCast (m n : ℕ) : compare (m : ℤ) n = compare m n := by
  simp only [compare, compareOfLessAndEq, Nat.cast_lt, Nat.cast_inj]

/-- Numbers are compared by their ranks. -/
theorem compare_eq (a b : UnpackedFloat) : a.compare b = Option.map₂ compare (rank a) (rank b) := by
  rcases a with (_ | _) | _ | _ | ⟨_ | _, m, e, _⟩ <;>
    rcases b with (_ | _) | _ | _ | ⟨_ | _, m', e', _⟩ <;> try rfl
  -- only within a class do exponent and mantissa count
  case finite.negative.finite.negative =>
    show some ((compare e e').then (compare m m')).swap =
      some ((compare (-e) (-e')).then (compare (-m : ℤ) (-m')))
    rw [compare_neg_neg, compare_neg_neg, compare_natCast, Ordering.swap_then]
  case finite.positive.finite.positive =>
    show some ((compare e e').then (compare m m')) =
      some ((compare e e').then (compare (m : ℤ) m'))
    rw [compare_natCast]

theorem lt_iff {a b : UnpackedFloat} : a.lt b = true ↔ ∃ r ∈ rank a, ∃ r' ∈ rank b, r < r' := by
  rw [UnpackedFloat.lt, compare_eq]
  cases rank a <;> cases rank b <;> simp [compare_lt_iff_lt]

theorem le_iff {a b : UnpackedFloat} : a.le b = true ↔ ∃ r ∈ rank a, ∃ r' ∈ rank b, r ≤ r' := by
  rw [UnpackedFloat.le, compare_eq]
  cases rank a <;> cases rank b <;> simp [Ordering.isLE_iff_ne_gt, compare_le_iff_le]

/-! ### Whole parts -/

/-- A mantissa that is shifted to the right loses its last bits. -/
theorem mantissa_shiftRight (m k : ℕ) :
    (ExtendedMantissa.ofMantissaAndAccuracy m .exact >>> k).mantissa = m / 2 ^ k := by
  induction k with
  | zero => simp [HShiftRight.hShiftRight, Nat.repeat, ExtendedMantissa.ofMantissaAndAccuracy]
  | succ k ih =>
    rw [pow_succ, ← Nat.div_div_eq_div_mul, ← ih]
    rfl

/-- The whole part of a number is that of its value. -/
theorem roundToInt_eq (s : Sign) (m : ℕ) (e : ℤ) :
    roundToInt s m e = s.apply ⌊(m : ℝ) * 2 ^ e⌋₊ := by
  have hshift : roundToInt s m e =
      s.apply ((m <<< e.toNat / 2 ^ (0 - (e - e.toNat)).toNat : ℕ)) := by
    unfold roundToInt decreaseExponent shiftToExponent
    simp only [mantissa_shiftRight, Int.sub_zero]
  rw [hshift, Nat.shiftLeft_eq]
  congr 2
  obtain ⟨k, rfl | rfl⟩ := e.eq_nat_or_neg
  · have hright : (0 - ((k : ℤ) - ((k : ℤ).toNat : ℤ))).toNat = 0 := by omega
    rw [hright, pow_zero, Nat.div_one, Int.toNat_natCast, zpow_natCast]
    exact_mod_cast (Nat.floor_natCast (m * 2 ^ k)).symm
  · have hleft : (-(k : ℤ)).toNat = 0 := by omega
    have hright : (0 - (-(k : ℤ) - ((0 : ℕ) : ℤ))).toNat = k := by omega
    rw [hleft, hright, pow_zero, mul_one, zpow_neg, zpow_natCast, ← div_eq_mul_inv]
    exact_mod_cast (Nat.floor_div_eq_div m (2 ^ k)).symm

/-- Mantissa and exponent are in normal form: the leading bit is missing only where the exponent is
the least. -/
structure IsNormal (m : ℕ) (e : ℤ) : Prop where
  mantissa_lt : m < 2 ^ 53
  exponent_ge : -1074 ≤ e
  leading : e = -1074 ∨ 2 ^ 52 ≤ m

/-- A number that is in normal form, if it has a mantissa at all. -/
def Normal : UnpackedFloat → Prop
  | .finite _ m e _ => IsNormal m e
  | _ => True

/-- The leading bit that is not stored. -/
theorem toNat_one_append {w : ℕ} (b : BitVec w) : (1#1 ++ b).toNat = 2 ^ w + b.toNat := by
  rw [BitVec.toNat_append, ← Nat.shiftLeft_add_eq_or_of_lt b.isLt, BitVec.toNat_ofNat,
    Nat.shiftLeft_eq, pow_one, Nat.mod_eq_of_lt one_lt_two, one_mul]

/-- What is unpacked is in normal form. -/
theorem normal_unpack (bits : BitVec Float.Model.Format.binary64.numBits) :
    Normal (unpack .binary64 bits) := by
  have hbias : Float.Model.Format.binary64.exponentBias = 1023 := rfl
  have hwidth : Float.Model.Format.binary64.mantissaBitsWithoutImplicit = 52 := rfl
  have hfraction : (unpackMantissa bits).toNat < 2 ^ 52 := (unpackMantissa bits).isLt
  rw [UnpackedFloat.unpack]
  -- the cases are those of the exponent field: infinities, subnormal numbers, and the others
  split
  · split <;> exact trivial
  · split
    · next hexponent =>
      split
      · exact trivial
      · have hleast : (unpackExponent bits).toNat = 0 := congrArg BitVec.toNat hexponent
        exact ⟨by omega, by omega, .inl (by omega)⟩
    · next hexponent =>
      have hpos : (unpackExponent bits).toNat ≠ 0 :=
        fun hzero => hexponent (BitVec.eq_of_toNat_eq hzero)
      have hleading : (1#1 ++ unpackMantissa bits).toNat = 2 ^ 52 + (unpackMantissa bits).toNat :=
        toNat_one_append _
      exact ⟨by omega, by omega, .inr (by omega)⟩

/-- In normal form a greater exponent makes a greater value, whatever the mantissa. -/
theorem IsNormal.value_le {m m' : ℕ} {e e' : ℤ} (h : IsNormal m e) (h' : IsNormal m' e')
    (hle : e < e' ∨ e = e' ∧ m ≤ m') : (m : ℝ) * 2 ^ e ≤ m' * 2 ^ e' := by
  obtain hlt | ⟨rfl, hm⟩ := hle
  · have hleading : 2 ^ 52 ≤ m' := h'.leading.resolve_left (by have := h.exponent_ge; omega)
    have hmantissa : (m : ℝ) ≤ m' * 2 := by
      have hlt' := h.mantissa_lt
      exact_mod_cast (by omega : m ≤ m' * 2)
    calc (m : ℝ) * 2 ^ e ≤ m' * 2 * 2 ^ e := by gcongr
      _ = m' * 2 ^ (e + 1) := by rw [zpow_add_one₀ two_ne_zero, mul_assoc, mul_comm (2 : ℝ)]
      _ ≤ m' * 2 ^ e' := by gcongr <;> [norm_num; omega]
  · gcongr

/-- The whole part as far as a machine word holds it. -/
theorem toNat_toUInt64 (a : UnpackedFloat) :
    a.toUInt64.toNat = min (toInt 0 (2 ^ 64 - 1) a).toNat (2 ^ 64 - 1) := by
  have hclamp : ∀ n, (UInt64.ofNatClamp n).toNat = min n (2 ^ 64 - 1) := by
    intro n
    unfold UInt64.ofNatClamp
    split
    · next hlt => exact (Nat.min_eq_left (Nat.le_sub_one_of_lt hlt)).symm
    · next hge =>
      exact (Nat.min_eq_right ((Nat.sub_le _ _).trans (Nat.le_of_not_lt hge))).symm
  exact hclamp _

/-- The whole part of a number that is not positive counts as zero. -/
theorem toNat_toInt_negative (m : ℕ) (e : ℤ) (hm : 0 < m) :
    (toInt 0 (2 ^ 64 - 1) (.finite .negative m e hm)).toNat = 0 := by
  have hwhole : toInt 0 (2 ^ 64 - 1) (.finite .negative m e hm) = -(⌊(m : ℝ) * 2 ^ e⌋₊ : ℤ) :=
    roundToInt_eq .negative m e
  rw [hwhole, Int.toNat_neg_natCast]

theorem toNat_toInt_positive (m : ℕ) (e : ℤ) (hm : 0 < m) :
    (toInt 0 (2 ^ 64 - 1) (.finite .positive m e hm)).toNat = ⌊(m : ℝ) * 2 ^ e⌋₊ := by
  have hwhole : toInt 0 (2 ^ 64 - 1) (.finite .positive m e hm) = (⌊(m : ℝ) * 2 ^ e⌋₊ : ℤ) :=
    roundToInt_eq .positive m e
  rw [hwhole, Int.toNat_natCast]

/-- A greater number has no smaller whole part. -/
theorem toUInt64_le_toUInt64 {a b : UnpackedFloat} (ha : Normal a) (hb : Normal b)
    (h : a.le b = true) : a.toUInt64.toNat ≤ b.toUInt64.toNat := by
  rw [toNat_toUInt64, toNat_toUInt64]
  rcases a with (_ | _) | _ | _ | ⟨_ | _, m, e, hm⟩
  case infinity.negative | notANumber | zero => exact (min_le_left _ _).trans (Nat.zero_le _)
  case finite.negative =>
    rw [toNat_toInt_negative]
    exact (min_le_left _ _).trans (Nat.zero_le _)
  case infinity.positive =>
    -- nothing but itself is as great
    rcases b with (_ | _) | _ | _ | ⟨_ | _, m', e', hm'⟩
    case infinity.positive => rfl
    all_goals cases h
  case finite.positive =>
    rcases b with (_ | _) | _ | _ | ⟨_ | _, m', e', hm'⟩
    case infinity.positive => exact min_le_right _ _
    case finite.positive =>
      obtain ⟨_, ⟨⟩, _, ⟨⟩, hle⟩ := le_iff.1 h
      have hlex : e < e' ∨ e = e' ∧ m ≤ m' := by simpa [Prod.Lex.toLex_le_toLex] using hle
      rw [toNat_toInt_positive, toNat_toInt_positive]
      exact min_le_min_right _ (Nat.floor_mono (IsNormal.value_le ha hb hlex))
    all_goals cases h

end Unpacked

theorem float_le_iff {x y : Float} :
    x ≤ y ↔ ∃ r ∈ Unpacked.rank x.toModel.unpack, ∃ r' ∈ Unpacked.rank y.toModel.unpack, r ≤ r' :=
  decide_eq_true_iff.trans Unpacked.le_iff

theorem float_lt_iff {x y : Float} :
    x < y ↔ ∃ r ∈ Unpacked.rank x.toModel.unpack, ∃ r' ∈ Unpacked.rank y.toModel.unpack, r < r' :=
  decide_eq_true_iff.trans Unpacked.lt_iff

/-- Floating point numbers obey the laws, infinities and undefined ones included. -/
instance Scalar.Ordered.float : Scalar.Ordered Float where
  le_trans := by
    intro x y z h h'
    obtain ⟨r₁, hr₁, r₂, hr₂, hle⟩ := float_le_iff.1 h
    obtain ⟨r₂', hr₂', r₃, hr₃, hle'⟩ := float_le_iff.1 h'
    obtain rfl := Option.mem_unique hr₂ hr₂'
    exact float_le_iff.2 ⟨r₁, hr₁, r₃, hr₃, hle.trans hle'⟩
  lt_of_lt_of_le := by
    intro x y z h h'
    obtain ⟨r₁, hr₁, r₂, hr₂, hlt⟩ := float_lt_iff.1 h
    obtain ⟨r₂', hr₂', r₃, hr₃, hle⟩ := float_le_iff.1 h'
    obtain rfl := Option.mem_unique hr₂ hr₂'
    exact float_lt_iff.2 ⟨r₁, hr₁, r₃, hr₃, hlt.trans_le hle⟩
  not_lt_of_le := by
    intro x y h h'
    obtain ⟨r₁, hr₁, r₂, hr₂, hle⟩ := float_le_iff.1 h
    obtain ⟨r₂', hr₂', r₁', hr₁', hlt⟩ := float_lt_iff.1 h'
    obtain rfl := Option.mem_unique hr₁ hr₁'
    obtain rfl := Option.mem_unique hr₂ hr₂'
    exact hle.not_gt hlt
  toNat_le_toNat := by
    intro x y h
    exact Unpacked.toUInt64_le_toUInt64 (Unpacked.normal_unpack _) (Unpacked.normal_unpack _)
      (of_decide_eq_true h)

end TimeValue
