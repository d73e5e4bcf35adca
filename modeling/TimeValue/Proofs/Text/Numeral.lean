import TimeValue.Text.Numeral

/-!
# What is read as a whole number

A whole number is an optional plus sign and digits, at least one of them.  Leading zeros do not
count, and the limit applies to the value: once the digits read exceed it no further digit can make
up for that, so reading may give up there.

## Main definitions

* `IsWhole` — a whole number as text, with its value.

## Main results

* `readDigits_eq_ok_iff` — digits that follow others.
* `readWhole_eq_ok_iff` — **exactly the whole numbers within the limit are read, with their
  values.**
-/

namespace TimeValue.Text

/-- An optional plus sign and at least one digit, worth `n`. -/
def IsWhole (cs : List Char) (n : Nat) : Prop :=
  ∃ digits, (cs = digits ∨ cs = '+' :: digits) ∧ digits ≠ [] ∧
    (∀ c ∈ digits, isDigit c = true) ∧ decimalValue digits = n

/-- To the base ten a letter is no digit. -/
theorem digitValue?_ten_eq_some_iff {c : Char} {d : Nat} :
    digitValue? 10 c = some d ↔ isDigit c = true ∧ c.toNat - '0'.toNat = d := by
  simp only [digitValue?, Option.filter_eq_some_iff, decide_eq_true_eq, isDigit]
  by_cases hdigit : '0' ≤ c ∧ c ≤ '9'
  · have hle : c.toNat ≤ '9'.toNat := hdigit.2
    have hnine : '9'.toNat - '0'.toNat < 10 := by decide
    rw [if_pos hdigit, Option.some_inj]
    exact ⟨fun h => ⟨hdigit, h.1⟩, fun h => ⟨h.2, by omega⟩⟩
  · rw [if_neg hdigit]
    refine iff_of_false ?_ fun h => hdigit h.1
    -- the value of a letter is ten or more
    rintro ⟨hletter, hlt⟩
    split at hletter
    · exact absurd (Option.some.inj hletter) (by omega)
    · split at hletter
      · exact absurd (Option.some.inj hletter) (by omega)
      · cases hletter

/-- A digit never makes a number smaller. -/
theorem le_foldl_digits (value : Nat) (digits : List Char) :
    value ≤ digits.foldl (fun n c => 10 * n + (c.toNat - '0'.toNat)) value := by
  induction digits generalizing value with
  | nil => exact Nat.le_refl value
  | cons c digits ih =>
    have hstep : value ≤ 10 * value + (c.toNat - '0'.toNat) := by omega
    exact Nat.le_trans hstep (ih _)

/-- After digits worth `value`, exactly digits are read, up to a number within the limit. -/
theorem readDigits_eq_ok_iff {limit value : Nat} (hvalue : value ≤ limit) {digits : List Char}
    {n : Nat} :
    readDigits 10 limit value digits = .ok n ↔
      (∀ c ∈ digits, isDigit c = true) ∧
        digits.foldl (fun n c => 10 * n + (c.toNat - '0'.toNat)) value = n ∧ n ≤ limit := by
  induction digits generalizing value with
  | nil =>
    simp only [readDigits, Except.ok.injEq, List.not_mem_nil, false_implies, implies_true,
      List.foldl_nil, true_and]
    exact ⟨fun h => ⟨h, h ▸ hvalue⟩, And.left⟩
  | cons c digits ih =>
    rw [readDigits, List.forall_mem_cons, List.foldl_cons]
    cases hd : digitValue? 10 c with
    | none =>
      have hnot : ¬ isDigit c = true := by
        intro hdigit
        rw [digitValue?_ten_eq_some_iff.2 ⟨hdigit, rfl⟩] at hd
        cases hd
      simp [hnot]
    | some d =>
      obtain ⟨hdigit, rfl⟩ := digitValue?_ten_eq_some_iff.1 hd
      dsimp only
      rw [Nat.mul_comm value 10]
      split
      · next hle => simp only [ih hle, hdigit, true_and]
      · next hlimit =>
        -- too large already, and digits to come only add to it
        refine iff_of_false (by simp) ?_
        rintro ⟨-, rfl, hle⟩
        exact hlimit (Nat.le_trans (le_foldl_digits _ digits) hle)

/-- **Exactly the whole numbers within the limit are read**, with their values. -/
theorem readWhole_eq_ok_iff {limit : Nat} {cs : List Char} {n : Nat} :
    readWhole 10 limit cs = .ok n ↔ IsWhole cs n ∧ n ≤ limit := by
  have hdigits : ∀ digits : List Char, digits ≠ [] →
      (readDigits 10 limit 0 digits = .ok n ↔
        (digits ≠ [] ∧ (∀ c ∈ digits, isDigit c = true) ∧ decimalValue digits = n) ∧
          n ≤ limit) := by
    intro digits hne
    rw [readDigits_eq_ok_iff (Nat.zero_le limit), decimalValue]
    simp only [hne, ne_eq, not_false_eq_true, true_and, and_assoc]
  unfold readWhole
  split
  · exact iff_of_false (by simp) (by simp [IsWhole])
  · refine iff_of_false (by simp) ?_
    rintro ⟨⟨digits, rfl | hplus, hne, hdigit, -⟩, -⟩
    · exact absurd (hdigit '+' List.mem_cons_self) (by decide)
    · exact hne (List.cons.inj hplus).2.symm
  · next digits hne =>
    have hne : digits ≠ [] := fun hnil => hne (by rw [hnil])
    rw [hdigits digits hne]
    refine and_congr_left fun _ => ⟨fun h => ⟨digits, .inr rfl, h⟩, ?_⟩
    rintro ⟨digits', rfl | hplus, h⟩
    · exact absurd (h.2.1 '+' List.mem_cons_self) (by decide)
    · exact (List.cons.inj hplus).2 ▸ h
  · next hne _ hplus =>
    rw [hdigits cs hne]
    refine and_congr_left fun _ => ⟨fun h => ⟨cs, .inl rfl, h⟩, ?_⟩
    rintro ⟨digits', rfl | rfl, h⟩
    · exact h
    · exact absurd rfl (hplus digits')

end TimeValue.Text
