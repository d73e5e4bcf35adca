import Mathlib.Analysis.SpecialFunctions.Pow.Real
import TimeValue.Compound.Solve

/-!
# The exact reading

The formulas of the library are written over any type of numbers.  Over the reals they mean what
they say: nothing is rounded, every number is finite, and powers and logarithms obey their laws.

## Main definitions

* `Scalar.real` — the reals as numbers for formulas.

## Main results

* `ensureFinite_real` — no result is refused.
* `checkProblem_real` — which problems are refused.
-/

namespace TimeValue

/-- The reals: every number is finite, and equality and order are exact. -/
noncomputable instance Scalar.real : Scalar ℝ where
  log := Real.log
  abs x := |x|
  floor x := (⌊x⌋ : ℝ)
  toNat x := ⌊x⌋₊
  isFinite _ := true
  isNaN _ := false
  decLt := inferInstance
  decLe := inferInstance

namespace Scalar

@[simp] theorem log_real (x : ℝ) : Scalar.log x = Real.log x := rfl

@[simp] theorem abs_real (x : ℝ) : Scalar.abs x = |x| := rfl

@[simp] theorem floor_real (x : ℝ) : Scalar.floor x = (⌊x⌋ : ℝ) := rfl

@[simp] theorem toNat_real (x : ℝ) : Scalar.toNat x = ⌊x⌋₊ := rfl

@[simp] theorem isFinite_real (x : ℝ) : Scalar.isFinite x = true := rfl

@[simp] theorem isNaN_real (x : ℝ) : Scalar.isNaN x = false := rfl

@[simp] theorem isUsable_real (x : ℝ) : Scalar.isUsable x = true ↔ x ≠ 0 := by
  simp [Scalar.isUsable]

end Scalar

@[simp] theorem ensureFinite_real (operation : Operation) (x : ℝ) :
    ensureFinite operation x = .ok x := rfl

theorem rateToPercent_real (x : ℝ) : rateToPercent x = x * 100 := by
  norm_num [rateToPercent]

theorem percentToRate_real (x : ℝ) : percentToRate x = x / 100 := by
  norm_num [percentToRate]

@[simp] theorem percentToRate_rateToPercent (x : ℝ) : percentToRate (rateToPercent x) = x := by
  rw [rateToPercent_real, percentToRate_real]
  ring

/-- Only a zero rate and zero periods are refused, where they are given. -/
theorem checkProblem_real {asked : Quantity} {p : Problem ℝ} (hrate : asked ≠ .rate → p.rate ≠ 0)
    (hperiods : asked ≠ .periods → p.periods ≠ 0) : checkProblem asked p = .ok () := by
  have hquantity : ∀ q, q ≠ asked → requireQuantity p q = .ok () := by
    intro q hq
    cases q with
    | rate =>
      have h : Scalar.isUsable p.rate = true := (Scalar.isUsable_real _).2 (hrate hq.symm)
      simp [requireQuantity, requireUsable, Problem.get, h]
    | periods =>
      have h : Scalar.isUsable p.periods = true := (Scalar.isUsable_real _).2 (hperiods hq.symm)
      simp [requireQuantity, requireUsable, Problem.get, h]
    | presentValue => rfl
    | payment => rfl
    | futureValue => rfl
  -- the checks are made one by one, so that each list of quantities passes if its members do
  have hall : ∀ qs : List Quantity, (∀ q ∈ qs, q ≠ asked) →
      qs.forM (requireQuantity p) = .ok () := by
    intro qs
    induction qs with
    | nil => intro _; rfl
    | cons q qs ih =>
      intro hqs
      have hrest : qs.forM (requireQuantity p) = .ok () :=
        ih fun q' hq' => hqs q' (List.mem_cons_of_mem q hq')
      simp only [List.forM_eq_forM] at hrest ⊢
      rw [List.forM_cons, hquantity q (hqs q List.mem_cons_self), hrest]
      rfl
  refine hall _ fun q hq => ?_
  simpa using (List.mem_filter.1 hq).2

end TimeValue
