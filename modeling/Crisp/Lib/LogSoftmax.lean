import Mathlib.Algebra.BigOperators.Field
import Mathlib.Analysis.SpecialFunctions.Log.Deriv
import Mathlib.Analysis.SpecialFunctions.ExpDeriv
import Mathlib.Analysis.Calculus.FDeriv.Add
import Mathlib.Analysis.Calculus.FDeriv.Pi
import Mathlib.Analysis.Calculus.Deriv.Comp
import Mathlib.Topology.Algebra.Module.ModuleTopology

/-!
# Log-softmax over a finite index

The log-softmax of a finite family of reals, with the three facts every
implementation of it leans on: shifting the inputs changes nothing, reindexing
them reindexes the outputs, and the outputs exponentiate to one in total. The
last section differentiates any sum of functions of the outputs, one of each,
which is all a reduction over the vocabulary is.
-/

namespace Crisp.Lib

open Finset

variable {κ κ' : Type} [Fintype κ] [Fintype κ']

noncomputable def logSumExp (x : κ → ℝ) : ℝ :=
  Real.log (∑ c, Real.exp (x c))

noncomputable def logSoftmax (x : κ → ℝ) (c : κ) : ℝ :=
  x c - logSumExp x

theorem sum_exp_pos [Nonempty κ] (x : κ → ℝ) : 0 < ∑ c, Real.exp (x c) :=
  sum_pos (fun c _ => Real.exp_pos (x c)) univ_nonempty

theorem exp_logSumExp [Nonempty κ] (x : κ → ℝ) :
    Real.exp (logSumExp x) = ∑ c, Real.exp (x c) :=
  Real.exp_log (sum_exp_pos x)

theorem logSumExp_sub [Nonempty κ] (x : κ → ℝ) (m : ℝ) :
    logSumExp (fun c => x c - m) = logSumExp x - m := by
  have hfactor : ∑ c, Real.exp (x c - m) =
      (∑ c, Real.exp (x c)) * Real.exp (-m) := by
    rw [sum_mul]
    refine sum_congr rfl fun c _ => ?_
    rw [← Real.exp_add, sub_eq_add_neg]
  unfold logSumExp
  rw [hfactor, Real.log_mul (ne_of_gt (sum_exp_pos x)) (Real.exp_ne_zero _),
    Real.log_exp, sub_eq_add_neg]

/-- The maximum an implementation subtracts first is immaterial. -/
theorem logSoftmax_sub [Nonempty κ] (x : κ → ℝ) (m : ℝ) (c : κ) :
    logSoftmax (fun c => x c - m) c = logSoftmax x c := by
  unfold logSoftmax
  rw [logSumExp_sub]
  ring

theorem exp_logSoftmax [Nonempty κ] (x : κ → ℝ) (c : κ) :
    Real.exp (logSoftmax x c) = Real.exp (x c) / ∑ d, Real.exp (x d) := by
  unfold logSoftmax
  rw [Real.exp_sub, exp_logSumExp]

theorem sum_exp_logSoftmax [Nonempty κ] (x : κ → ℝ) :
    ∑ c, Real.exp (logSoftmax x c) = 1 := by
  simp only [exp_logSoftmax]
  rw [← sum_div, div_self (ne_of_gt (sum_exp_pos x))]

theorem logSoftmax_comp_equiv (e : κ' ≃ κ) (x : κ → ℝ) (c : κ') :
    logSoftmax (fun c => x (e c)) c = logSoftmax x (e c) := by
  unfold logSoftmax logSumExp
  rw [Equiv.sum_comp e fun c => Real.exp (x c)]

/-- The distribution of the outputs. -/
noncomputable def softmax (x : κ → ℝ) (c : κ) : ℝ :=
  Real.exp (logSoftmax x c)

theorem softmax_pos (x : κ → ℝ) (c : κ) : 0 < softmax x c :=
  Real.exp_pos _

@[simp] theorem log_softmax (x : κ → ℝ) (c : κ) : Real.log (softmax x c) = logSoftmax x c :=
  Real.log_exp _

/-! ## Derivatives -/

/-- The coordinate a logit is. -/
noncomputable abbrev coord (c : κ) : (κ → ℝ) →L[ℝ] ℝ :=
  ContinuousLinearMap.proj c

theorem hasFDerivAt_scaled (T : ℝ) (x : κ → ℝ) (c : κ) :
    HasFDerivAt (fun x : κ → ℝ => x c / T) (T⁻¹ • coord c) x := by
  have h := (coord c).hasFDerivAt (x := x)
  have hscaled := h.const_smul T⁻¹
  refine hscaled.congr_of_eventuallyEq (Filter.Eventually.of_forall fun y => ?_)
  show y c / T = T⁻¹ * y c
  rw [div_eq_inv_mul]

theorem hasFDerivAt_logSumExp_scaled [Nonempty κ] (T : ℝ) (x : κ → ℝ) :
    HasFDerivAt (fun x : κ → ℝ => logSumExp fun v => x v / T)
      (∑ v, (Real.exp (logSoftmax (fun v => x v / T) v) * T⁻¹) • coord v) x := by
  have hsum : HasFDerivAt (fun x : κ → ℝ => ∑ v, Real.exp (x v / T))
      (∑ v, Real.exp (x v / T) • (T⁻¹ • coord v)) x :=
    HasFDerivAt.fun_sum fun v _ => (hasFDerivAt_scaled T x v).exp
  have hlog := hsum.log (ne_of_gt (sum_exp_pos fun v => x v / T))
  refine hlog.congr_fderiv ?_
  rw [smul_sum]
  refine sum_congr rfl fun v _ => ?_
  rw [exp_logSoftmax, smul_smul, smul_smul]
  congr 1
  ring

theorem hasFDerivAt_logSoftmax_scaled [Nonempty κ] (T : ℝ) (x : κ → ℝ) (c : κ) :
    HasFDerivAt (fun x : κ → ℝ => logSoftmax (fun v => x v / T) c)
      (T⁻¹ • coord c -
        ∑ v, (Real.exp (logSoftmax (fun v => x v / T) v) * T⁻¹) • coord v) x :=
  (hasFDerivAt_scaled T x c).sub (hasFDerivAt_logSumExp_scaled T x)

/-- The weight logit `v` has in the derivative of a sum whose terms have slopes
`slope` in the log-probabilities. -/
noncomputable def logitSlope (T : ℝ) (logProbs slope : κ → ℝ) (v : κ) : ℝ :=
  (slope v - Real.exp (logProbs v) * ∑ c, slope c) / T

/-- **The chain rule of a vocabulary reduction.** -/
theorem hasFDerivAt_sum_logSoftmax [Nonempty κ] {T : ℝ} {x : κ → ℝ}
    {φ : κ → ℝ → ℝ} {slope : κ → ℝ}
    (h : ∀ c, HasDerivAt (φ c) (slope c) (logSoftmax (fun v => x v / T) c)) :
    HasFDerivAt (fun x : κ → ℝ => ∑ c, φ c (logSoftmax (fun v => x v / T) c))
      (∑ v, logitSlope T (logSoftmax fun v => x v / T) slope v • coord v) x := by
  have hterms : HasFDerivAt
      (fun x : κ → ℝ => ∑ c, φ c (logSoftmax (fun v => x v / T) c))
      (∑ c, slope c • (T⁻¹ • coord c -
        ∑ v, (Real.exp (logSoftmax (fun v => x v / T) v) * T⁻¹) • coord v)) x :=
    HasFDerivAt.fun_sum fun c _ =>
      (h c).comp_hasFDerivAt x (hasFDerivAt_logSoftmax_scaled T x c)
  refine hterms.congr_fderiv ?_
  simp only [smul_sub, sum_sub_distrib, ← sum_smul]
  rw [smul_sum, ← sum_sub_distrib]
  refine sum_congr rfl fun v _ => ?_
  ext y
  simp only [logitSlope, sub_apply, smul_apply,
    smul_eq_mul]
  ring

end Crisp.Lib
