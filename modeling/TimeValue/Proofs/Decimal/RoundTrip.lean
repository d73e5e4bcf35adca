import TimeValue.Proofs.Decimal.Layout
import TimeValue.Proofs.Decimal.Scientific
import TimeValue.Proofs.Decimal.Shortest

/-!
# Numbers are read back from their texts

What a message writes of a finite number, as few digits as possible, is read back as the number.
The digits are near enough to it, their text is a literal of them, and a literal so near is read as
the number.

## Main definitions

* `exact` — the exact reading of an unpacked number.

## Main results

* `ofFloat_eq` — the bits of a number say what it is unpacked to.
* `literal?_plain` — **a number is read back from its text.**
-/

namespace TimeValue

open Decimal Expression Unpacked
open Float.Model (UnpackedFloat Format)
open Float.Model.UnpackedFloat

/-! ### Bits -/

namespace Decimal

/-- The sign as a bit. -/
def isNegative : Sign → Bool
  | .negative => true
  | .positive => false

/-- The exact reading of an unpacked number. -/
def exact : UnpackedFloat → Binary64
  | .notANumber => .nan
  | .infinity s => .infinite (isNegative s)
  | .zero s => .finite (isNegative s) 0 Binary64.minExponent
  | .finite s m q _ => .finite (isNegative s) m q

section Bits

variable (bits : BitVec Format.binary64.numBits)

theorem toNat_unpackMantissa :
    (unpackMantissa bits).toNat = bits.toNat % Binary64.hiddenBit := by
  rw [unpackMantissa_def, BitVec.extractLsb'_toNat]
  rfl

theorem toNat_unpackExponent :
    (unpackExponent bits).toNat = bits.toNat / Binary64.hiddenBit % (Binary64.maxField + 1) := by
  rw [unpackExponent_def, BitVec.extractLsb'_toNat, Nat.shiftRight_eq_div_pow]
  rfl

theorem isNegative_unpackSign :
    isNegative (Sign.ofBitVec (unpackSign bits)) = (bits.toNat / Binary64.signBit == 1) := by
  have hbits : bits.toNat < 2 ^ 64 := bits.isLt
  have hsign : (unpackSign bits).toNat = bits.toNat / 2 ^ 63 := by
    rw [unpackSign_def, BitVec.extractLsb'_toNat, Nat.shiftRight_eq_div_pow]
    show bits.toNat / 2 ^ 63 % 2 ^ 1 = bits.toNat / 2 ^ 63
    omega
  show _ = (bits.toNat / 2 ^ 63 == 1)
  rw [← hsign]
  generalize unpackSign bits = sign
  revert sign
  decide

/-- The bits of a number say what it is unpacked to. -/
theorem ofBits_eq :
    Binary64.ofBits (.ofBitVec bits) = exact (UnpackedFloat.unpack .binary64 bits) := by
  have hmantissa := toNat_unpackMantissa bits
  have hexponent := toNat_unpackExponent bits
  have hsign := isNegative_unpackSign bits
  have hfield : (unpackExponent bits).toNat < 2 ^ 11 := (unpackExponent bits).isLt
  unfold Binary64.ofBits UnpackedFloat.unpack
  rw [UInt64.toNat_ofBitVec]
  dsimp only
  rw [← hmantissa, ← hexponent, ← hsign]
  -- the fields of all bits set, of no bit set, and all others, on both sides
  by_cases hall : unpackExponent bits = -1#_
  · have hall' : (unpackExponent bits).toNat = 2047 := congrArg BitVec.toNat hall
    rw [if_neg (by omega), if_neg (by rw [hall']; decide), if_pos hall]
    have hfraction : (unpackMantissa bits).toNat = 0 ↔ unpackMantissa bits = 0#_ :=
      ⟨fun h => BitVec.eq_of_toNat_eq h, congrArg BitVec.toNat⟩
    by_cases hzero : unpackMantissa bits = 0#_
    · rw [if_pos hzero, if_pos (hfraction.2 hzero)]
      rfl
    · rw [if_neg hzero, if_neg (mt hfraction.1 hzero)]
      rfl
  · have hless : (unpackExponent bits).toNat < Binary64.maxField := by
      have hne : (unpackExponent bits).toNat ≠ 2047 := fun h => hall (BitVec.eq_of_toNat_eq h)
      show (unpackExponent bits).toNat < 2047
      omega
    rw [if_neg hall]
    by_cases hsubnormal : unpackExponent bits = 0#_
    · have hfield : (unpackExponent bits).toNat = 0 := congrArg BitVec.toNat hsubnormal
      rw [if_pos hfield, if_pos hsubnormal]
      by_cases hzero : unpackMantissa bits = 0#_
      · rw [dif_pos hzero, hzero]
        rfl
      · rw [dif_neg hzero, hfield]
        rfl
    · have hpos : (unpackExponent bits).toNat ≠ 0 :=
        fun h => hsubnormal (BitVec.eq_of_toNat_eq h)
      -- one side counts exponents from the least, the other from the bias
      have hexponent : Binary64.minExponent + ((unpackExponent bits).toNat - 1 : ℕ) =
          (unpackExponent bits).toNat -
            ((Format.binary64.exponentBias : ℤ) + (52 : ℕ)) := by
        show (-1074 : ℤ) + _ = _ - (1023 + 52)
        omega
      rw [if_neg hpos, if_pos hless, if_neg hsubnormal, exact, toNat_one_append, hexponent]
      rfl

end Bits

/-- The bits of a number say what it is unpacked to. -/
theorem ofFloat_eq (x : Float) : Binary64.ofFloat x = exact x.toModel.unpack :=
  ofBits_eq x.toModel.toBits.toBitVec

/-- The exponents of finite numbers are bounded. -/
theorem exponent_le_of_unpack {bits : BitVec Format.binary64.numBits} {s : Sign} {m : ℕ} {q : ℤ}
    {hm : 0 < m} (h : UnpackedFloat.unpack .binary64 bits = .finite s m q hm) : q ≤ 971 := by
  have hbits := ofBits_eq bits
  rw [h] at hbits
  unfold Binary64.ofBits at hbits
  dsimp only at hbits
  split_ifs at hbits with hsubnormal hless
  · obtain ⟨-, -, rfl⟩ := Binary64.finite.inj hbits
    decide
  · obtain ⟨-, -, rfl⟩ := Binary64.finite.inj hbits
    unfold Binary64.maxField at hless ⊢
    unfold Binary64.minExponent
    omega
  · cases hbits
  · cases hbits

/-- A finite number without a minus is zero or has a mantissa. -/
theorem exists_unpack_of_isFinite {x : Float} (hfinite : x.isFinite = true)
    (hsign : x.toBits.toNat < Binary64.signBit) :
    x.toModel.unpack = .zero .positive ∨
      ∃ m q, ∃ hm : 0 < m, x.toModel.unpack = .finite .positive m q hm := by
  -- below the sign bit no reading has a minus
  have hpositive (m : ℕ) (q : ℤ) : exact x.toModel.unpack ≠ .finite true m q := by
    rw [← ofFloat_eq, Binary64.ofFloat]
    unfold Binary64.ofBits
    dsimp only
    rw [Nat.div_eq_of_lt hsign]
    split_ifs <;> simp
  have hfinite : x.toModel.unpack.isFinite = true := hfinite
  generalize x.toModel.unpack = u at hpositive hfinite
  obtain _ | _ | (_ | _) | ⟨_ | _, m, q, hm⟩ := u
  case zero.positive => exact .inl rfl
  case finite.positive => exact .inr ⟨m, q, hm, rfl⟩
  case zero.negative => exact absurd rfl (hpositive 0 Binary64.minExponent)
  case finite.negative => exact absurd rfl (hpositive m q)
  all_goals cases hfinite

/-- A number is what its unpacked form is packed to. -/
theorem eq_ofModel_pack {x : Float} {u : UnpackedFloat} (h : x.toModel.unpack = u) :
    x = .ofModel (.pack u) := by
  subst h
  obtain ⟨bits, hvalid⟩ := x
  -- the bits of a number are valid, so that packing undoes unpacking
  have hpack : UnpackedFloat.pack .binary64 (UnpackedFloat.unpack .binary64 bits.toBitVec) =
      bits.toBitVec := pack_unpack_of_valid hvalid
  refine congrArg Float.ofModel ((Float.Model.mk.injEq ..).mpr ?_)
  exact congrArg UInt64.ofBitVec hpack.symm

end Decimal

section Unpack

variable {x : Float} {m : ℕ} {q : ℤ} {hm : 0 < m}

theorem isNormal_of_unpack (h : x.toModel.unpack = .finite .positive m q hm) : IsNormal m q := by
  have hnormal := normal_unpack x.toModel.toBits.toBitVec
  rwa [show UnpackedFloat.unpack .binary64 x.toModel.toBits.toBitVec = _ from h] at hnormal

theorem plain_of_unpack_zero (h : x.toModel.unpack = .zero .positive) :
    NumberText.plain x = "0" := by
  show Style.plain.write x = "0"
  unfold Style.write
  rw [ofFloat_eq, h]
  rfl

theorem plain_of_unpack (h : x.toModel.unpack = .finite .positive m q hm) :
    NumberText.plain x = (shortest .up m q).positional "" := by
  show Style.plain.write x = _
  unfold Style.write
  rw [ofFloat_eq, h, exact]
  dsimp only
  rw [if_neg hm.ne']
  exact String.empty_append

end Unpack

/-- **A number is read back from its text.** -/
theorem literal?_plain {x : Float} (hfinite : x.isFinite = true)
    (hsign : x.toBits.toNat < Binary64.signBit) :
    literal? (NumberText.plain x).toList = some x := by
  obtain hzero | ⟨m, q, hm, hunpack⟩ := exists_unpack_of_isFinite hfinite hsign
  -- zero has no digits to find, and its text is one of its own
  · rw [plain_of_unpack_zero hzero, eq_ofModel_pack hzero]
    rfl
  · have hnormal := isNormal_of_unpack hunpack
    -- the text is that of a decimal around the number, and such a decimal is read as it
    obtain ⟨c, k, hshortest, hcontains⟩ :=
      exists_ofGrid_shortest .up hm hnormal (exponent_le_of_unpack hunpack)
    have hc := Interval.natCast_pos_of_contains_around hm hcontains
    obtain ⟨l, hchars, hvalue⟩ :=
      Digits.exists_literal_positional (Digits.isDecimal_ofGrid hc k)
    rw [Digits.value_ofGrid, Literal.value_real] at hvalue
    rw [← hvalue] at hcontains
    refine literal?_eq_some_iff.2 ⟨l, ?_, ?_⟩
    · rw [hchars, plain_of_unpack hunpack, hshortest]
    · rw [eq_ofModel_pack hunpack]
      exact ofScientific_eq hm hnormal hcontains

end TimeValue
