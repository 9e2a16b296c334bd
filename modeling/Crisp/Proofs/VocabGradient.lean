import Crisp.Proofs.VocabParallel
import Mathlib.Analysis.Calculus.Deriv.Mul

/-!
# The hand-written gradients are the gradient

A loss is a sum of one function of each log-probability, so its derivative is
known once the slope of each function is. The file computes the slopes of the
three divergences, clipped and not, shows that what autograd passes back to a
log-probability is that slope times the upstream gradient, and then that the
backward pass of either log-softmax, and the gradient the fused forward KL
saves, turn slopes into the derivative of the full row.
-/

namespace Crisp.Proofs

open Crisp.Lib Crisp.Ref Crisp.Ref.OpsdMath

variable {S W vocabSize : Nat}

/-! ## The slope of one contribution -/

/-- The derivative of a contribution in the student's log-probability. -/
noncomputable def vocabSlope (beta student teacher : ℝ) : ℝ :=
  vocabTermBackward beta student teacher 1

theorem vocabTermBackward_eq (beta student teacher gradOutput : ℝ) :
    vocabTermBackward beta student teacher gradOutput =
      vocabSlope beta student teacher * gradOutput := by
  unfold vocabSlope vocabTermBackward klDivInputGrad klDivTargetGrad
  split
  · ring
  · split
    · ring
    · ring

theorem hasDerivAt_klDiv_input (teacher s : ℝ) :
    HasDerivAt (fun s => klDiv s teacher) (-Real.exp teacher) s := by
  have h := ((hasDerivAt_id s).const_sub teacher).const_mul (Real.exp teacher)
  refine h.congr_deriv ?_
  ring

theorem hasDerivAt_klDiv_target (input s : ℝ) :
    HasDerivAt (fun s => klDiv input s) (Real.exp s * (s - input + 1)) s := by
  have h := (Real.hasDerivAt_exp s).mul ((hasDerivAt_id s).sub_const input)
  refine h.congr_deriv ?_
  simp only [id_eq]
  ring

theorem hasDerivAt_mixture (beta teacher s : ℝ) :
    HasDerivAt (fun s => mixture beta s teacher)
      (Real.exp (s + Real.log (1 + -beta) - mixture beta s teacher)) s := by
  have hpos : 0 < Real.exp (s + Real.log (1 + -beta)) +
      Real.exp (teacher + Real.log beta) :=
    add_pos (Real.exp_pos _) (Real.exp_pos _)
  have hexp := ((hasDerivAt_id s).add_const (Real.log (1 + -beta))).exp
  have h := (hexp.add_const (Real.exp (teacher + Real.log beta))).log (ne_of_gt hpos)
  refine h.congr_deriv ?_
  rw [Real.exp_sub, mixture, Real.exp_log hpos]
  simp

theorem hasDerivAt_vocabTerm (beta teacher s : ℝ) :
    HasDerivAt (fun s => vocabTerm beta s teacher) (vocabSlope beta s teacher) s := by
  unfold vocabTerm vocabSlope vocabTermBackward klDivInputGrad klDivTargetGrad
  by_cases hzero : beta = 0
  · simp only [if_pos hzero, mul_one]
    exact hasDerivAt_klDiv_input teacher s
  · by_cases hone : beta = 1
    · simp only [if_neg hzero, if_pos hone, mul_one]
      exact hasDerivAt_klDiv_target teacher s
    · simp only [if_neg hzero, if_neg hone, mul_one]
      -- Interior: the mixture moves too, so the student enters three times.
      have hm := hasDerivAt_mixture beta teacher s
      have hteacher : HasDerivAt
          (fun s => klDiv (mixture beta s teacher) teacher)
          (Real.exp teacher *
            -Real.exp (s + Real.log (1 + -beta) - mixture beta s teacher)) s :=
        (hm.const_sub teacher).const_mul (Real.exp teacher)
      have hstudent : HasDerivAt
          (fun s => klDiv (mixture beta s teacher) s)
          (Real.exp s * (s - mixture beta s teacher) + Real.exp s *
            (1 - Real.exp (s + Real.log (1 + -beta) - mixture beta s teacher))) s :=
        (Real.hasDerivAt_exp s).mul ((hasDerivAt_id s).sub hm)
      refine ((hteacher.const_mul beta).add (hstudent.const_mul (1 - beta))).congr_deriv ?_
      ring

/-! ## Clipping -/

/-- The slope of a contribution after clipping. -/
noncomputable def clampedSlope (config : OPSDLossConfig ℝ) (student teacher : ℝ) : ℝ :=
  clampedBackward config.tokenClip (vocabTerm config.beta student teacher)
    (vocabSlope config.beta student teacher)

/-- What autograd passes back to a log-probability is the clipped slope times
the upstream gradient. -/
theorem clampedBackward_eq (config : OPSDLossConfig ℝ) (student teacher gradOutput : ℝ) :
    vocabTermBackward config.beta student teacher
        (clampedBackward config.tokenClip (vocabTerm config.beta student teacher)
          gradOutput) =
      clampedSlope config student teacher * gradOutput := by
  rw [vocabTermBackward_eq]
  unfold clampedSlope clampedBackward
  cases config.tokenClip with
  | none => rfl
  | some clip =>
      simp only []
      split
      · rfl
      · rw [mul_zero, zero_mul]

/-- Off the clip the clipped contribution has that slope. -/
theorem hasDerivAt_clamped {config : OPSDLossConfig ℝ} {teacher s : ℝ}
    (hclip : ∀ clip, config.tokenClip = some clip →
      vocabTerm config.beta s teacher ≠ clip) :
    HasDerivAt (fun s => clamped config.tokenClip (vocabTerm config.beta s teacher))
      (clampedSlope config s teacher) s := by
  have h := hasDerivAt_vocabTerm config.beta teacher s
  unfold clampedSlope clamped clampedBackward
  cases hc : config.tokenClip with
  | none => exact h
  | some clip =>
      simp only []
      rcases lt_or_gt_of_ne (hclip clip hc) with hlt | hgt
      · rw [if_pos hlt.le]
        refine h.congr_of_eventuallyEq ?_
        filter_upwards [h.continuousAt.eventually (eventually_lt_nhds hlt)] with y hy
        exact min_eq_left (le_of_lt hy)
      · rw [if_neg (not_le.mpr hgt)]
        refine (hasDerivAt_const s clip).congr_of_eventuallyEq ?_
        filter_upwards [h.continuousAt.eventually (eventually_gt_nhds hgt)] with y hy
        exact min_eq_right (le_of_lt hy)

/-! ## The derivative of the full row -/

/-- The slopes of a row, one a column. -/
noncomputable def rowSlope {κ : Type} [Fintype κ] (config : OPSDLossConfig ℝ)
    (logits teacher : κ → ℝ) (v : κ) : ℝ :=
  clampedSlope config (logSoftmax (fun v => logits v / config.temperature) v) (teacher v)

/-- The derivative of a row's divergence in one logit. -/
noncomputable def rowGradient {κ : Type} [Fintype κ] (config : OPSDLossConfig ℝ)
    (logits teacher : κ → ℝ) (v : κ) : ℝ :=
  logitSlope config.temperature (logSoftmax fun v => logits v / config.temperature)
    (rowSlope config logits teacher) v

/-- No contribution of the row is exactly the clip. -/
def OffClip {κ : Type} [Fintype κ] (config : OPSDLossConfig ℝ)
    (logits teacher : κ → ℝ) : Prop :=
  ∀ clip, config.tokenClip = some clip → ∀ v,
    vocabTerm config.beta (logSoftmax (fun v => logits v / config.temperature) v)
      (teacher v) ≠ clip

theorem hasFDerivAt_divergence {κ : Type} [Fintype κ] [Nonempty κ]
    {config : OPSDLossConfig ℝ} {logits teacher : κ → ℝ}
    (hoff : OffClip config logits teacher) :
    HasFDerivAt (fun x => divergence config x teacher)
      (∑ v, rowGradient config logits teacher v • coord v) logits :=
  hasFDerivAt_sum_logSoftmax fun v =>
    hasDerivAt_clamped fun clip hc => hoff clip hc v

/-! ## What each rank is given -/

/-- Both log-softmaxes pass back the same: with one rank there is nothing to
reduce. -/
theorem logSoftmaxBackward_eq {logProbs gradOutput : Shards S W vocabSize} (r : Fin S)
    (c : Fin (validWidth ⟨r, S⟩ vocabSize W)) :
    (if S = 1 then logSoftmaxBackward logProbs gradOutput
      else vocabLogSoftmaxBackward logProbs gradOutput) r c =
      gradOutput r c - Real.exp (logProbs r c) * ∑ r, ∑ c, gradOutput r c := by
  split
  · next hone =>
      subst hone
      obtain rfl : r = 0 := Subsingleton.elim r 0
      rw [Fin.sum_univ_one]
      rfl
  · rfl

theorem lt_validWidth {r : Fin S} {c : Fin W} (h : r * W + c < vocabSize) :
    (c : Nat) < validWidth ⟨r, S⟩ vocabSize W := by
  have hc := c.isLt
  simp only [validWidth]
  omega

theorem padded_eq (values : Shards S W vocabSize) (r : Fin S) (c : Fin W) :
    padded values r c =
      if h : r * W + c < vocabSize then values r ⟨c, lt_validWidth h⟩ else 0 := by
  have hc := c.isLt
  unfold padded
  by_cases h : r * W + c < vocabSize
  · rw [dif_pos h, dif_pos]
  · rw [dif_neg h, dif_neg]
    simp only [validWidth]
    omega

/-- Summing what the ranks hold of a row sums the row. -/
theorem sum_shard (hfit : vocabSize ≤ W * S) (row : Fin vocabSize → ℝ) :
    ∑ r, ∑ c, (shard row : Shards S W vocabSize) r c = ∑ v, row v := by
  rw [← Equiv.sum_comp (vocabEquiv hfit), Fintype.sum_sigma]
  rfl

theorem reducedMass_shard (hfit : vocabSize ≤ W * S) (row : Fin vocabSize → ℝ)
    (r : Fin S) :
    reducedMass (shard row : Shards S W vocabSize) r = ∑ v, Real.exp (row v) := by
  unfold reducedMass
  rw [reduced_eq_sum]
  exact sum_shard hfit fun v => Real.exp (row v)

/-- The fused forward KL saves the gradient of the row, whatever mass the
teacher row has. -/
theorem unclippedForwardKLGradient_eq (hfit : vocabSize ≤ W * S)
    [Nonempty (Fin vocabSize)] {config : OPSDLossConfig ℝ} (hbeta : config.beta = 0)
    (hclip : config.tokenClip = none) (logits : Fin S → Fin W → ℝ)
    (teacher : Fin vocabSize → ℝ) :
    unclippedForwardKLGradient vocabSize config.temperature logits (shard teacher) =
      shard (rowGradient config (firstColumns hfit logits) teacher) := by
  have hmass : (∑ v, Real.exp (teacher v)) ≠ 0 := ne_of_gt (sum_exp_pos teacher)
  have hslope : ∀ v, rowSlope config (firstColumns hfit logits) teacher v =
      -Real.exp (teacher v) := by
    intro v
    simp [rowSlope, clampedSlope, clampedBackward, hclip, vocabSlope, vocabTermBackward,
      klDivInputGrad, hbeta]
  funext r c
  unfold unclippedForwardKLGradient
  simp only [vocabLogSoftmax_eq_shard hfit, reducedMass_shard hfit, sum_exp_logSoftmax,
    div_one]
  simp only [shard, rowGradient, logitSlope, hslope, Finset.sum_neg_distrib]
  rw [sub_mul, div_mul_div_comm, mul_comm (∑ v, Real.exp (teacher v)) config.temperature,
    mul_div_mul_right _ _ hmass]
  ring

/-- The gradient a rank obtains in one of its columns. -/
theorem studentGradient_eq (hfit : vocabSize ≤ W * S) [Nonempty (Fin vocabSize)]
    (config : OPSDLossConfig ℝ) (logits : Fin S → Fin W → ℝ)
    (teacher : Fin vocabSize → ℝ) (gradOutput : ℝ) (r : Fin S) (c : Fin W) :
    studentGradient config vocabSize logits (shard teacher) (fun _ => gradOutput) r c =
      if h : r * W + c < vocabSize then
        gradOutput * rowGradient config (firstColumns hfit logits) teacher ⟨r * W + c, h⟩
      else 0 := by
  unfold studentGradient
  split
  · next hfused =>
      obtain ⟨hbeta, hclip⟩ := hfused
      unfold unclippedForwardKLBackward
      rw [padded_eq, unclippedForwardKLGradient_eq hfit hbeta hclip]
      simp only [shard, mul_comm]
  · have hinto : (fun r c => vocabTermBackward config.beta
        (vocabLogSoftmax vocabSize config.temperature logits r c)
        ((shard teacher : Shards S W vocabSize) r c)
        (clampedBackward config.tokenClip
          (vocabTerm config.beta (vocabLogSoftmax vocabSize config.temperature logits r c)
            ((shard teacher : Shards S W vocabSize) r c)) gradOutput) :
        Shards S W vocabSize) =
        shard fun v => rowSlope config (firstColumns hfit logits) teacher v * gradOutput := by
      funext r c
      rw [clampedBackward_eq, vocabLogSoftmax_eq_shard hfit]
      rfl
    simp only [sumVocabBackward, ite_self, hinto, logSoftmaxBackward_eq]
    rw [padded_eq, sum_shard hfit, vocabLogSoftmax_eq_shard hfit]
    simp only [shard, rowGradient, logitSlope, ← Finset.sum_mul]
    split
    · ring
    · rfl

/-- **The hand-written gradients are the gradient.** Off the clip the unsharded
loss is differentiable; what each rank obtains is the upstream gradient times
its own columns of that derivative, zero on padding; and the fused gradient
vanishes where the normalized distributions coincide. -/
theorem vocab_parallel_gradient (hfit : vocabSize ≤ W * S) (hpos : 0 < vocabSize)
    (config : OPSDLossConfig ℝ) (logits : Fin S → Fin W → ℝ)
    (teacher : Fin vocabSize → ℝ)
    (hoff : OffClip config (firstColumns hfit logits) teacher) :
    DifferentiableAt ℝ (unshardedLoss config teacher) (firstColumns hfit logits) ∧
    (∀ gradOutput r c,
      studentGradient config vocabSize logits (shard teacher) (fun _ => gradOutput) r c =
        if h : r * W + c < vocabSize then
          gradOutput * fderiv ℝ (unshardedLoss config teacher) (firstColumns hfit logits)
            (Pi.single ⟨r * W + c, h⟩ 1)
        else 0) ∧
    (config.beta = 0 → config.tokenClip = none →
      (∀ v, Real.exp (logSoftmax
            (fun v => firstColumns hfit logits v / config.temperature) v) /
          ∑ v, Real.exp (logSoftmax
            (fun v => firstColumns hfit logits v / config.temperature) v) =
        Real.exp (teacher v) / ∑ v, Real.exp (teacher v)) →
      ∀ gradOutput r c,
        studentGradient config vocabSize logits (shard teacher) (fun _ => gradOutput) r c =
          0) := by
  have hne : Nonempty (Fin vocabSize) := ⟨⟨0, hpos⟩⟩
  have hloss : unshardedLoss config teacher = fun row => divergence config row teacher :=
    funext (unshardedLoss_eq config teacher)
  have hderiv := hasFDerivAt_divergence hoff
  rw [← hloss] at hderiv
  have hcoord : ∀ v, fderiv ℝ (unshardedLoss config teacher) (firstColumns hfit logits)
      (Pi.single v 1) = rowGradient config (firstColumns hfit logits) teacher v := by
    intro v
    rw [hderiv.fderiv]
    simp [Pi.single_apply]
  refine ⟨hderiv.differentiableAt, ?_, ?_⟩
  · intro gradOutput r c
    rw [studentGradient_eq hfit]
    simp only [hcoord]
  · intro hbeta hclip hsame gradOutput r c
    unfold studentGradient
    rw [if_pos ⟨hbeta, hclip⟩, unclippedForwardKLBackward, padded_eq]
    split
    · next h =>
        unfold unclippedForwardKLGradient
        simp only [vocabLogSoftmax_eq_shard hfit, reducedMass_shard hfit]
        simp only [shard, hsame, sub_self, zero_mul]
    · rfl

/-- Three columns on two shards of two, the student and the teacher both
uniform: differentiable, and no gradient anywhere. -/
theorem vocab_parallel_gradient_uniform :
    DifferentiableAt ℝ (unshardedLoss ⟨0, 1, none⟩ fun _ : Fin 3 => 0)
        (firstColumns (by decide) fun (_ : Fin 2) (_ : Fin 2) => 0) ∧
      ∀ gradOutput r c,
        studentGradient ⟨0, 1, none⟩ 3 (fun (_ : Fin 2) (_ : Fin 2) => 0)
          (shard fun _ : Fin 3 => 0) (fun _ => gradOutput) r c = 0 := by
  obtain ⟨hdiff, -, hzero⟩ :=
    @vocab_parallel_gradient 2 2 3 (by decide) (by decide) ⟨0, 1, none⟩ (fun _ _ => 0)
      (fun _ => 0) (fun clip hclip => by cases hclip)
  refine ⟨hdiff, hzero rfl rfl ?_⟩
  intro v
  rw [sum_exp_logSoftmax, div_one, exp_logSoftmax]
  simp [firstColumns]

end Crisp.Proofs
