import TimeValue.Proofs.Compound.RateEquation
import TimeValue.Proofs.Series.Growth

/-!
# The account behind a growth series

An account that starts at the present value, bears interest in each period and takes the payment
of each period goes through the samples of the growth series.  The series knows nothing of this:
every sample is a closed formula in its own number of periods.  What ties them is that the annuity
factor of one more period is the factor so far, grown for one period, and one unit.

## Main definitions

* `Problem.nextBalance` — a balance one period later.

## Main results

* `totalFV_natCast` — the closed formula with the factor written out as a sum.
* `growthSample_succ` — one step of the account.
* `growthSeries_isAccount` — **the growth series is the account, period by period.**
-/

namespace TimeValue

variable {p : Problem ℝ}

/-- A balance one period later: with interest on it, and with the payment of the period, which has
borne interest as well if it fell at the start. -/
noncomputable def Problem.nextBalance (p : Problem ℝ) (balance : ℝ) : ℝ :=
  balance * (1 + p.rate) +
    p.payment *
      match p.timing with
      | .due => 1 + p.rate
      | .ordinary => 1

/-- What an amount and payments grow to, with the payments one by one. -/
theorem totalFV_natCast (hrate : p.rate = 0 ∨ zeroRate ≤ |p.rate|) (n : ℕ) :
    totalFV p.presentValue p.payment p.rate (n : ℝ) p.timing =
      p.presentValue * (1 + p.rate) ^ n +
        p.payment * (∑ i ∈ Finset.range n, (1 + p.rate) ^ i) * p.timing.adjustment p.rate := by
  unfold totalFV compoundFV
  rw [fvAnnuityFactorWithSlope_eq n hrate, eval_annuityPolynomial, Real.rpow_natCast]
  split
  · next hpay =>
    have hzero : p.payment = 0 := by simpa using hpay
    rw [hzero, zero_mul, zero_mul, add_zero]
  · rfl

theorem growthSample_zero (hrate : p.rate = 0 ∨ zeroRate ≤ |p.rate|) :
    growthSample p 0 = ⟨0, p.presentValue⟩ := by
  rw [growthSample, totalFV_natCast hrate]
  simp

/-- **One step of the account**: each sample follows from the one before. -/
theorem growthSample_succ (hrate : p.rate = 0 ∨ zeroRate ≤ |p.rate|) (i : ℕ) :
    growthSample p (i + 1) =
      ⟨(growthSample p i).x + 1, p.nextBalance (growthSample p i).y⟩ := by
  have hvalue : (growthSample p (i + 1)).y = p.nextBalance (growthSample p i).y := by
    -- the sum of one power more is the old one grown by a period, and one
    simp only [growthSample, totalFV_natCast hrate, geom_sum_succ]
    unfold Problem.nextBalance PaymentTiming.adjustment
    cases p.timing <;> ring
  rw [← hvalue]
  exact congrArg (fun x => Sample.mk x _) (Nat.cast_succ i)

/-- **The growth series is the account, period by period.**  At a zero rate, and at every rate that
is not very near to it, a series that is not refused starts at the present value, and each sample
is one period of interest and one payment further than the one before. -/
theorem growthSeries_isAccount (hrate : p.rate = 0 ∨ zeroRate ≤ |p.rate|) {s : List (Sample ℝ)}
    (hs : growthSeries p = .ok s) :
    s.head? = some ⟨0, p.presentValue⟩ ∧
      s.IsChain fun a b => b.x = a.x + 1 ∧ b.y = p.nextBalance a.y := by
  obtain ⟨-, -, rfl⟩ := growthSeries_eq_ok_iff.1 hs
  refine ⟨?_, ?_⟩
  · rw [List.head?_map, List.head?_range]
    simp [growthSample_zero hrate]
  · rw [List.isChain_map, List.isChain_range_succ]
    intro i _
    rw [growthSample_succ hrate]
    exact ⟨rfl, rfl⟩

/-- Five hundred, and fifty at the starts of two periods at 10 %. -/
theorem growthSeries_isAccount_deposits :
    ∃ s, growthSeries (⟨0.1, 2, 500, 50, 0, .due⟩ : Problem ℝ) = .ok s ∧ s.length = 3 ∧
      s.head? = some ⟨0, 500⟩ ∧
      s.IsChain fun a b => b.x = a.x + 1 ∧ b.y = a.y * (1 + 0.1) + 50 * (1 + 0.1) := by
  have hs := growthSeries_of_whole (p := ⟨0.1, 2, 500, 50, 0, .due⟩) (n := 2) rfl (by decide)
  have hrate : (0.1 : ℝ) = 0 ∨ zeroRate ≤ |(0.1 : ℝ)| := .inr (by norm_num [zeroRate])
  obtain ⟨hhead, hchain⟩ := growthSeries_isAccount hrate hs
  exact ⟨_, hs, by simp, hhead, hchain⟩

end TimeValue
