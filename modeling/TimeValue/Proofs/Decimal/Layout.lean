import TimeValue.Decimal.Layout
import TimeValue.Proofs.Exact.Real
import TimeValue.Proofs.Expression.Lexeme

/-!
# Digits as text

Digits stand for a number, and their text with the point among them is a literal of that number.
The point moves nothing: zeros before the first digit and behind the last one count places only.

## Main definitions

* `Digits.value` — the number that digits stand for.

## Main results

* `Digits.value_ofGrid` — the digits of a grid point stand for it.
* `Digits.exists_literal_positional` — the text of digits is a literal of their number.
-/

namespace TimeValue

open Text Decimal Expression

/-! ### Digits -/

namespace Text

theorem decimalValue_eq_ofDigitChars (ds : List Char) :
    decimalValue ds = Nat.ofDigitChars 10 ds 0 :=
  Nat.ofDigitChars_eq_foldl.symm

/-- Zeros behind a number move it to the left. -/
theorem decimalValue_append_zeros (ds : List Char) (n : ℕ) :
    decimalValue (ds ++ List.replicate n '0') = decimalValue ds * 10 ^ n := by
  rw [decimalValue_eq_ofDigitChars, Nat.ofDigitChars_append, Nat.ofDigitChars_replicate_zero,
    decimalValue_eq_ofDigitChars, mul_comm]

/-- Zeros before a number do not count. -/
theorem decimalValue_zeros_append (n : ℕ) (ds : List Char) :
    decimalValue (List.replicate n '0' ++ ds) = decimalValue ds := by
  rw [decimalValue_eq_ofDigitChars, Nat.ofDigitChars_append, Nat.ofDigitChars_replicate_zero,
    decimalValue_eq_ofDigitChars, mul_zero]

theorem decimalValue_toDigits (n : ℕ) : decimalValue (Nat.toDigits 10 n) = n := by
  rw [decimalValue_eq_ofDigitChars, Nat.ofDigitChars_toDigits (by decide) (by decide)]

theorem isDigit_of_mem_toDigits {n : ℕ} {c : Char} (h : c ∈ Nat.toDigits 10 n) :
    isDigit c = true := by
  have hdigit := Nat.isDigit_of_mem_toDigits (by decide) (by decide) h
  simpa [Char.isDigit, isDigit, Char.le_def] using hdigit

end Text

namespace Decimal.Digits

/-- The number that digits stand for. -/
noncomputable def value (d : Digits) : ℝ :=
  decimalValue d.digits * 10 ^ (d.exponent + 1 - d.digits.length)

/-- There are digits, and nothing else. -/
structure IsDecimal (d : Digits) : Prop where
  ne_nil : d.digits ≠ []
  isDigit : ∀ c ∈ d.digits, Text.isDigit c = true

/-- The digits of a grid point, and the zeros behind them that they are without. -/
theorem exists_append_zeros (c : ℕ) (k : ℤ) :
    ∃ n, (ofGrid c k).digits ++ List.replicate n '0' = Nat.toDigits 10 c := by
  refine ⟨((Nat.toDigits 10 c).reverse.takeWhile (· == '0')).length, ?_⟩
  have hzeros : ∀ d ∈ (Nat.toDigits 10 c).reverse.takeWhile (· == '0'), d = '0' := by
    intro d hd
    simpa using List.all_eq_true.1 List.all_takeWhile d hd
  -- the zeros at the end are those at the head of the reversed digits
  have hsplit := congrArg List.reverse
    (List.takeWhile_append_dropWhile (p := (· == '0')) (l := (Nat.toDigits 10 c).reverse))
  rw [List.reverse_append, List.reverse_reverse, List.eq_replicate_of_mem hzeros,
    List.reverse_replicate] at hsplit
  exact hsplit

/-- The digits of a grid point stand for it. -/
theorem value_ofGrid (c : ℕ) (k : ℤ) : (ofGrid c k).value = c * 10 ^ k := by
  obtain ⟨n, hn⟩ := exists_append_zeros c k
  have hlength := congrArg List.length hn
  have hpos := List.length_pos_iff.2 (Nat.toDigits_ne_nil (n := c) (b := 10))
  rw [List.length_append, List.length_replicate] at hlength
  -- the places counted from the first digit are those of the grid and of the zeros left out
  have hexponent : (ofGrid c k).exponent + 1 - (ofGrid c k).digits.length = n + k := by
    show k + ((Nat.toDigits 10 c).length - 1 : ℕ) + 1 - ((ofGrid c k).digits.length : ℤ) = n + k
    omega
  have hvalue : decimalValue (ofGrid c k).digits * 10 ^ n = c := by
    rw [← decimalValue_append_zeros, hn, decimalValue_toDigits]
  rw [value, hexponent, zpow_add₀ (by norm_num), zpow_natCast, ← mul_assoc]
  congr 1
  exact_mod_cast hvalue

/-- A grid point other than zero has digits. -/
theorem isDecimal_ofGrid {c : ℕ} (hc : 0 < c) (k : ℤ) : (ofGrid c k).IsDecimal := by
  obtain ⟨n, hn⟩ := exists_append_zeros c k
  refine ⟨fun hnil => ?_, fun d hd => isDigit_of_mem_toDigits (n := c) ?_⟩
  -- zeros alone would stand for zero
  · have hvalue := decimalValue_append_zeros (ofGrid c k).digits n
    rw [hn, decimalValue_toDigits, hnil] at hvalue
    exact hc.ne' (hvalue.trans (Nat.zero_mul _))
  · rw [← hn]
    exact List.mem_append_left _ hd

end Decimal.Digits

/-! ### Texts -/

/-- Among the reals a literal has the value of its digits, moved by as many places as it has. -/
theorem Expression.Literal.value_real (l : Literal) :
    (l.value : ℝ) =
      decimalValue (l.whole ++ l.places?.getD []) / 10 ^ (l.places?.getD []).length := by
  have hrat (m e : ℕ) : (OfScientific.ofScientific m true e : ℚ) = m / 10 ^ e := by
    show Rat.ofScientific m true e = _
    rw [Rat.ofScientific_true_def, Rat.mkRat_eq_div]
    push_cast
    rfl
  show OfScientific.ofScientific _ true _ = _
  rw [← Rat.cast_ofScientific, hrat]
  push_cast
  rfl

namespace Decimal.Digits

theorem toList_zeros (n : ℕ) : (zeros n).toList = List.replicate n '0' :=
  String.toList_ofList

/-- The text of a number below one. -/
theorem exists_literal_negSucc {digits : List Char} (before : ℕ)
    (hd : (⟨digits, .negSucc before⟩ : Digits).IsDecimal) :
    ∃ l : Literal, l.chars = (positional "" ⟨digits, .negSucc before⟩).toList ∧
      (l.value : ℝ) = value ⟨digits, .negSucc before⟩ := by
  have hplaces : ∀ c ∈ List.replicate before '0' ++ digits, Text.isDigit c = true := by
    intro c hc
    obtain hc | hc := List.mem_append.1 hc
    · rw [List.eq_of_mem_replicate hc]
      decide
    · exact hd.isDigit c hc
  have hwhole : ∀ c ∈ ['0'], Text.isDigit c = true := by
    intro c hc
    obtain rfl := List.mem_singleton.1 hc
    decide
  refine ⟨⟨['0'], some (List.replicate before '0' ++ digits), hwhole, hplaces, by simp⟩, ?_, ?_⟩
  · simp [Literal.chars, positional, toList_zeros]
  -- the zero before the point is one more that does not count
  · have hdigits : decimalValue (['0'] ++ (List.replicate before '0' ++ digits)) =
        decimalValue digits :=
      decimalValue_zeros_append (before + 1) digits
    have hexponent : Int.negSucc before + 1 - (digits.length : ℤ) =
        -((before + digits.length : ℕ) : ℤ) := by
      omega
    rw [Literal.value_real, value, hexponent, zpow_neg, zpow_natCast, ← div_eq_mul_inv]
    simp only [Option.getD_some, hdigits, List.length_append, List.length_replicate]

/-- The text of a number with no digit behind the point. -/
theorem exists_literal_of_length_le {digits : List Char} {whole : ℕ}
    (hlength : digits.length ≤ whole + 1) (hd : (⟨digits, whole⟩ : Digits).IsDecimal) :
    ∃ l : Literal, l.chars = (positional "" ⟨digits, whole⟩).toList ∧
      (l.value : ℝ) = value ⟨digits, whole⟩ := by
  have hwhole : ∀ c ∈ digits ++ List.replicate (whole + 1 - digits.length) '0',
      Text.isDigit c = true := by
    intro c hc
    obtain hc | hc := List.mem_append.1 hc
    · exact hd.isDigit c hc
    · rw [List.eq_of_mem_replicate hc]
      decide
  refine ⟨⟨digits ++ List.replicate (whole + 1 - digits.length) '0', none, hwhole, by simp, ?_⟩,
    ?_, ?_⟩
  · simpa using fun hnil => absurd hnil hd.ne_nil
  · simp [Literal.chars, positional, toList_zeros, List.take_of_length_le hlength,
      List.drop_of_length_le hlength]
  · have hexponent : (whole : ℤ) + 1 - digits.length = ((whole + 1 - digits.length : ℕ) : ℤ) := by
      omega
    rw [Literal.value_real, value, hexponent, zpow_natCast]
    simp only [Option.getD_none, List.append_nil, List.length_nil, pow_zero, div_one,
      decimalValue_append_zeros]
    push_cast
    rfl

/-- The text of a number with digits on both sides of the point. -/
theorem exists_literal_of_lt_length {digits : List Char} {whole : ℕ}
    (hlength : whole + 1 < digits.length) (hd : (⟨digits, whole⟩ : Digits).IsDecimal) :
    ∃ l : Literal, l.chars = (positional "" ⟨digits, whole⟩).toList ∧
      (l.value : ℝ) = value ⟨digits, whole⟩ := by
  have hplaces : digits.drop (whole + 1) ≠ [] := by simpa using hlength
  refine ⟨⟨digits.take (whole + 1), some (digits.drop (whole + 1)),
    fun c hc => hd.isDigit c (List.mem_of_mem_take hc),
    fun c hc => hd.isDigit c (List.mem_of_mem_drop hc), ?_⟩, ?_, ?_⟩
  · simpa using fun hnil => absurd hnil hd.ne_nil
  · have hmissing : whole + 1 - digits.length = 0 := by omega
    simp [Literal.chars, positional, toList_zeros, hmissing, hplaces]
  · have hexponent : (whole : ℤ) + 1 - digits.length =
        -((digits.length - (whole + 1) : ℕ) : ℤ) := by
      omega
    rw [Literal.value_real, value, hexponent, zpow_neg, zpow_natCast, ← div_eq_mul_inv]
    simp only [Option.getD_some, List.take_append_drop, List.length_drop]

/-- The text of digits is a literal of their number. -/
theorem exists_literal_positional {d : Digits} (hd : d.IsDecimal) :
    ∃ l : Literal, l.chars = (d.positional "").toList ∧ (l.value : ℝ) = d.value := by
  obtain ⟨digits, whole | before⟩ := d
  · obtain hlength | hlength := le_or_gt digits.length (whole + 1)
    · exact exists_literal_of_length_le hlength hd
    · exact exists_literal_of_lt_length hlength hd
  · exact exists_literal_negSucc before hd

end Decimal.Digits

end TimeValue
