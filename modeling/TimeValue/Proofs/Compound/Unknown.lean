import TimeValue.Compound.Solve

/-!
# The quantity that is asked for

Solving a problem takes no account of the value that the problem gives to the quantity asked for,
be it infinite or undefined.  The one exception is a payment of zero, which says that nothing is
paid.  Nor does a closed formula look at the limits of the root finder, or at the timing of
payments that are not made.

Two problems with the same values for the other quantities differ in a replaced value and perhaps
in the timing, so each definition is looked at once, with a value replaced.

## Main results

* `Problem.eq_set_of_agree` — what is left of a problem that agrees with another.
* `checkProblem_set`, `solvePeriods_set`, `solveRate_set`, `presentValueOf_set`, `paymentOf_set`,
  `futureValueOf_set` — what the value of the quantity asked for, and the timing, have no part in.
* `solve_eq_of_agree` — **two runs that agree on what matters have one answer.**
-/

namespace TimeValue

variable {α : Type}

/-- The problem with another timing. -/
def Problem.setTiming (p : Problem α) (t : PaymentTiming) : Problem α :=
  { p with timing := t }

/-- A problem that agrees on all quantities but one is the same problem with another value for
that quantity, and perhaps another timing. -/
theorem Problem.eq_set_of_agree {asked : Quantity} {p p' : Problem α}
    (h : ∀ q, q ≠ asked → p.get q = p'.get q) :
    p' = (p.set asked (p'.get asked)).setTiming p'.timing := by
  have hget : ∀ q, p'.get q = (p.set asked (p'.get asked)).get q := by
    intro q
    by_cases hq : q = asked
    · rw [hq, get_set_self]
    · rw [get_set_of_ne p hq, h q hq]
  rw [Problem.mk.injEq]
  exact ⟨hget .rate, hget .periods, hget .presentValue, hget .payment, hget .futureValue, rfl⟩

variable [Scalar α]

/-! ### Checks -/

/-- The quantity asked for is not in the list that is checked, and neither is the timing. -/
theorem checkProblem_set (asked : Quantity) (p : Problem α) (x : α) (t : PaymentTiming) :
    checkProblem asked ((p.set asked x).setTiming t) = checkProblem asked p := by
  cases asked <;> rfl

/-! ### Answers -/

/-- The timing plays no part in the number of periods. -/
theorem solvePeriods_set (p : Problem α) (x : α) (t : PaymentTiming) :
    solvePeriods ((p.set .periods x).setTiming t) = solvePeriods p := rfl

/-- The limits of the root finder play no part in a closed form. -/
theorem solveRate_set {config config' : SolverConfig α} {p : Problem α}
    (h : config = config' ∨ hasClosedRate p = true) (x : α) :
    solveRate config' (p.set .rate x) = solveRate config p := by
  have hclosed : hasClosedRate (p.set .rate x) = hasClosedRate p := rfl
  unfold solveRate
  rw [hclosed]
  rcases h with rfl | h
  · rfl
  · rw [if_pos h, if_pos h]
    rfl

theorem presentValueOf_set {p : Problem α} {t : PaymentTiming}
    (h : p.timing = t ∨ (p.payment == 0) = true) (x : α) :
    presentValueOf ((p.set .presentValue x).setTiming t) = presentValueOf p := by
  rcases h with rfl | h
  · rfl
  · exact (if_pos h).trans (if_pos h).symm

/-- Of the payment it matters only whether it is zero. -/
theorem paymentOf_set {p : Problem α} {x : α} {t : PaymentTiming}
    (hx : (p.payment == 0) = (x == 0)) (h : p.timing = t ∨ (p.payment == 0) = true) :
    paymentOf ((p.set .payment x).setTiming t) = paymentOf p := by
  -- the payment itself is only compared with zero
  change (if (x == 0) = true then 0 else _) = _
  rw [← hx]
  rcases h with rfl | h
  · rfl
  · exact (if_pos h).trans (if_pos h).symm

theorem futureValueOf_set {p : Problem α} {t : PaymentTiming}
    (h : p.timing = t ∨ (p.payment == 0) = true) (x : α) :
    futureValueOf ((p.set .futureValue x).setTiming t) = futureValueOf p := by
  rcases h with rfl | h
  · rfl
  · exact (if_pos h).trans (if_pos h).symm

/-! ### Two runs -/

/-- **Two runs that agree on what matters have one answer**, be it a value or an error.  The
problems agree on the quantities other than the one asked for, and for a payment on whether it is
zero.  The limits of the root finder may differ where there is a closed form; so may the timing
where the number of periods is asked for, or an amount without payments. -/
theorem solve_eq_of_agree {asked : Quantity} {config config' : SolverConfig α} {p p' : Problem α}
    (hget : ∀ q, q ≠ asked → p.get q = p'.get q)
    (hpayment : asked = .payment → (p.payment == 0) = (p'.payment == 0))
    (hconfig : config = config' ∨ asked ≠ .rate ∨ ((p.payment == 0) = true ∧
      (p.presentValue == 0) = false ∧ 0 < p.futureValue / p.presentValue))
    (htiming : p.timing = p'.timing ∨ asked = .periods ∨
      (asked ≠ .rate ∧ (p.payment == 0) = true)) :
    solve asked config p = solve asked config' p' := by
  have hp' := Problem.eq_set_of_agree hget
  generalize p'.get asked = x, p'.timing = t at hp' htiming
  subst hp'
  -- the checks come out alike, and what is left is one definition for each quantity
  simp only [solve, checkProblem_set]
  cases asked with
  | rate =>
    obtain rfl : p.timing = t := by simpa using htiming
    have hclosed : config = config' ∨ hasClosedRate p = true := by
      simpa [hasClosedRate, and_assoc] using hconfig
    have hrate : solveRate config p = solveRate config' (p.set .rate x) :=
      (solveRate_set hclosed x).symm
    rw [hrate]
    rfl
  | periods => simp only [solvePeriods_set]
  | presentValue =>
    have ht : p.timing = t ∨ (p.payment == 0) = true := by simpa using htiming
    simp only [presentValueOf_set ht]
  | payment =>
    have ht : p.timing = t ∨ (p.payment == 0) = true := by simpa using htiming
    have hx : (p.payment == 0) = (x == 0) := hpayment rfl
    simp only [paymentOf_set hx ht]
  | futureValue =>
    have ht : p.timing = t ∨ (p.payment == 0) = true := by simpa using htiming
    simp only [futureValueOf_set ht]

/-- An undefined payment and an infinite one are solved alike, whatever the root finder may do. -/
theorem solve_eq_of_agree_undefinedPayment :
    Scalar.isFinite (0 / 0 : Float) = false ∧ Scalar.isFinite (1 / 0 : Float) = false ∧
      solve .payment .standard (⟨0.05, 10, 1000, 0 / 0, 0, .due⟩ : Problem Float) =
        solve .payment { SolverConfig.standard with maxIterations := 0 }
          ⟨0.05, 10, 1000, 1 / 0, 0, .due⟩ := by
  refine ⟨by decide, by decide, solve_eq_of_agree ?_ (fun _ => rfl) (.inr (.inl nofun)) (.inl rfl)⟩
  rintro (_ | _ | _ | _ | _) hq
  all_goals first | rfl | exact absurd rfl hq

end TimeValue
