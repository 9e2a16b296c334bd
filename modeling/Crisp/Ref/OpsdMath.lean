import Crisp.Lib.LogSoftmax
import Crisp.Ref.Targets

/-!
# The vocabulary-parallel divergence

`opsd_math` on one response position, as all ranks of a tensor-parallel group
run it together: a value that differs by rank is a function of the rank, and a
collective is a function of all of them. Arithmetic is exact and real. Every
operation of the file acts on the last dimension, so a `[positions, columns]`
tensor is one of these rows for every position.

The backward passes are written beside the forward ones. What autograd adds
around the three custom functions is PyTorch's own formula for each operation,
composed in the order the forward pass applied them.
-/

namespace Crisp.Ref.OpsdMath

open Crisp.Lib

variable {S W : Nat}

/-- The real columns of one position: rank `r` holds as many as its shard has. -/
abbrev Shards (S W vocabSize : Nat) :=
  (r : Fin S) → Fin (validWidth ⟨r, S⟩ vocabSize W) → ℝ

variable {vocabSize : Nat}

/-- `dist.all_reduce(local, group=group)`. -/
noncomputable def allReduceSum (values : Fin S → ℝ) : Fin S → ℝ :=
  fun _ => ∑ r, values r

/-- `dist.all_reduce(local, op=dist.ReduceOp.MAX, group=group)`. -/
noncomputable def allReduceMax (values : Fin S → WithBot ℝ) : Fin S → WithBot ℝ :=
  fun _ => Finset.univ.sup values

/-! ## Log-softmax -/

/-- `_VocabLogSoftmax.forward`. The maximum of a shard without columns is
`-inf`, which no column is ever compared with. -/
noncomputable def vocabLogSoftmaxForward (logits : Shards S W vocabSize) :
    Shards S W vocabSize :=
  let maximum := allReduceMax fun r => Finset.univ.sup fun c => (logits r c : WithBot ℝ)
  let shifted : Shards S W vocabSize := fun r c => logits r c - (maximum r).unbotD 0
  let denominator := allReduceSum fun r => ∑ c, Real.exp (shifted r c)
  fun r c => shifted r c - Real.log (denominator r)

/-- `_VocabLogSoftmax.backward`. -/
noncomputable def vocabLogSoftmaxBackward (logProbs gradOutput : Shards S W vocabSize) :
    Shards S W vocabSize :=
  let totalGrad := allReduceSum fun r => ∑ c, gradOutput r c
  fun r c => gradOutput r c - Real.exp (logProbs r c) * totalGrad r

/-- The gradient of `F.log_softmax`, one shard on its own. -/
noncomputable def logSoftmaxBackward (logProbs gradOutput : Shards S W vocabSize) :
    Shards S W vocabSize :=
  fun r c => gradOutput r c - Real.exp (logProbs r c) * ∑ d, gradOutput r d

/-- `logits[:, :valid_width] / temperature`. -/
noncomputable def scaledValues (vocabSize : Nat) (temperature : ℝ)
    (logits : Fin S → Fin W → ℝ) : Shards S W vocabSize :=
  fun r c => logits r ⟨c, lt_of_lt_of_le c.isLt (Nat.min_le_left _ _)⟩ / temperature

/-- `vocab_log_softmax`, past its argument checks. -/
noncomputable def vocabLogSoftmax (vocabSize : Nat) (temperature : ℝ)
    (logits : Fin S → Fin W → ℝ) : Shards S W vocabSize :=
  let values := scaledValues vocabSize temperature logits
  if S = 1 then fun r => logSoftmax (values r) else vocabLogSoftmaxForward values

/-! ## The divergence -/

/-- `F.kl_div(input, target, reduction="none", log_target=True)`. -/
noncomputable def klDiv (input target : ℝ) : ℝ :=
  Real.exp target * (target - input)

/-- `torch.logsumexp` of the two weighted log-probabilities. -/
noncomputable def mixture (beta student teacher : ℝ) : ℝ :=
  Real.log (Real.exp (student + Real.log (1 + -beta)) +
    Real.exp (teacher + Real.log beta))

/-- One vocabulary contribution before clipping. -/
noncomputable def vocabTerm (beta student teacher : ℝ) : ℝ :=
  if beta = 0 then klDiv student teacher
  else if beta = 1 then klDiv teacher student
  else
    beta * klDiv (mixture beta student teacher) teacher +
      (1 - beta) * klDiv (mixture beta student teacher) student

/-- `terms.clamp(max=config.token_clip)`, where there is a clip. -/
noncomputable def clamped (tokenClip : Option ℝ) (term : ℝ) : ℝ :=
  match tokenClip with
  | none => term
  | some clip => min term clip

/-- `_SumVocab.forward`. -/
noncomputable def sumVocab (values : Fin S → ℝ) : Fin S → ℝ :=
  allReduceSum values

/-- `_SumVocab.backward`. The scalar loss is replicated, so its gradient is
not reduced again. -/
def sumVocabBackward (gradOutput : Fin S → ℝ) : Fin S → ℝ :=
  gradOutput

/-- Both masses of `_UnclippedForwardKL`, reduced when there are shards. -/
noncomputable def reducedMass (logProbs : Shards S W vocabSize) : Fin S → ℝ :=
  let mass := fun r => ∑ c, Real.exp (logProbs r c)
  if 1 < S then allReduceSum mass else mass

/-- The gradient `_UnclippedForwardKL.forward` saves. -/
noncomputable def unclippedForwardKLGradient (vocabSize : Nat) (temperature : ℝ)
    (logits : Fin S → Fin W → ℝ) (teacher : Shards S W vocabSize) :
    Shards S W vocabSize :=
  let student := vocabLogSoftmax vocabSize temperature logits
  let p : Shards S W vocabSize := fun r c => Real.exp (student r c)
  let q : Shards S W vocabSize := fun r c => Real.exp (teacher r c)
  fun r c =>
    (p r c / reducedMass student r - q r c / reducedMass teacher r) *
      (reducedMass teacher r / temperature)

/-- `_UnclippedForwardKL.forward`. -/
noncomputable def unclippedForwardKL (vocabSize : Nat) (temperature : ℝ)
    (logits : Fin S → Fin W → ℝ) (teacher : Shards S W vocabSize) : Fin S → ℝ :=
  let student := vocabLogSoftmax vocabSize temperature logits
  let loss := fun r => ∑ c, Real.exp (teacher r c) * (teacher r c - student r c)
  if 1 < S then allReduceSum loss else loss

/-- `opsd_per_token_loss` at one position, past its shape check. -/
noncomputable def opsdPerTokenLoss (config : OPSDLossConfig ℝ) (vocabSize : Nat)
    (logits : Fin S → Fin W → ℝ) (teacher : Shards S W vocabSize) : Fin S → ℝ :=
  if config.beta = 0 ∧ config.tokenClip = none then
    unclippedForwardKL vocabSize config.temperature logits teacher
  else
    let student := vocabLogSoftmax vocabSize config.temperature logits
    let values := fun r => ∑ c,
      clamped config.tokenClip (vocabTerm config.beta (student r c) (teacher r c))
    if S = 1 then values else sumVocab values

/-! ## The gradient of the student logits -/

/-- Zeros of the padded width, with the real columns written over them. -/
noncomputable def padded (values : Shards S W vocabSize) : Fin S → Fin W → ℝ :=
  fun r c => if h : (c : Nat) < validWidth ⟨r, S⟩ vocabSize W then values r ⟨c, h⟩ else 0

/-- `_UnclippedForwardKL.backward`. -/
noncomputable def unclippedForwardKLBackward (gradient : Shards S W vocabSize)
    (gradOutput : Fin S → ℝ) : Fin S → Fin W → ℝ :=
  padded fun r c => gradient r c * gradOutput r

/-- The gradient of `F.kl_div` with `log_target=True` in its input. -/
noncomputable def klDivInputGrad (target gradOutput : ℝ) : ℝ :=
  -Real.exp target * gradOutput

/-- The gradient of `F.kl_div` with `log_target=True` in its target. -/
noncomputable def klDivTargetGrad (input target gradOutput : ℝ) : ℝ :=
  Real.exp target * (target - input + 1) * gradOutput

/-- Autograd through the unclipped contribution, into the student's
log-probability; the teacher's is detached. -/
noncomputable def vocabTermBackward (beta student teacher gradOutput : ℝ) : ℝ :=
  if beta = 0 then klDivInputGrad teacher gradOutput
  else if beta = 1 then klDivTargetGrad teacher student gradOutput
  else
    let m := mixture beta student teacher
    let intoMixture := klDivInputGrad teacher (beta * gradOutput) +
      klDivInputGrad student ((1 - beta) * gradOutput)
    intoMixture * Real.exp (student + Real.log (1 + -beta) - m) +
      klDivTargetGrad m student ((1 - beta) * gradOutput)

/-- The gradient of `clamp(max=…)`: it passes where the value is within. -/
noncomputable def clampedBackward (tokenClip : Option ℝ) (term gradOutput : ℝ) : ℝ :=
  match tokenClip with
  | none => gradOutput
  | some clip => if term ≤ clip then gradOutput else 0

/-- What `loss.backward()` leaves in every rank's logits, from the upstream
gradient each rank holds of its own copy of the loss. -/
noncomputable def studentGradient (config : OPSDLossConfig ℝ) (vocabSize : Nat)
    (logits : Fin S → Fin W → ℝ) (teacher : Shards S W vocabSize)
    (gradOutput : Fin S → ℝ) : Fin S → Fin W → ℝ :=
  if config.beta = 0 ∧ config.tokenClip = none then
    unclippedForwardKLBackward
      (unclippedForwardKLGradient vocabSize config.temperature logits teacher) gradOutput
  else
    let student := vocabLogSoftmax vocabSize config.temperature logits
    let intoSum := if S = 1 then gradOutput else sumVocabBackward gradOutput
    let intoLogProbs : Shards S W vocabSize := fun r c =>
      vocabTermBackward config.beta (student r c) (teacher r c)
        (clampedBackward config.tokenClip
          (vocabTerm config.beta (student r c) (teacher r c)) (intoSum r))
    let intoValues :=
      if S = 1 then logSoftmaxBackward student intoLogProbs
      else vocabLogSoftmaxBackward student intoLogProbs
    padded fun r c => intoValues r c / config.temperature

/-! ## Sharding a row -/

theorem column_lt {r : Fin S} (c : Fin (validWidth ⟨r, S⟩ vocabSize W)) :
    r * W + c < vocabSize := by
  have hc := c.isLt
  simp only [validWidth] at hc
  omega

/-- The columns of a full row that rank `r` holds. -/
def shard (row : Fin vocabSize → ℝ) : Shards S W vocabSize :=
  fun r c => row ⟨r * W + c, column_lt c⟩

/-- The first `vocabSize` columns of a padded row of `S` shards of width `W`. -/
def firstColumns (hfit : vocabSize ≤ W * S) (logits : Fin S → Fin W → ℝ) :
    Fin vocabSize → ℝ :=
  fun v =>
    have hlt : (v : Nat) < W * S := lt_of_lt_of_le v.isLt hfit
    have hpos : 0 < W := Nat.pos_of_mul_pos_right (lt_of_le_of_lt (Nat.zero_le _) hlt)
    logits ⟨v / W, Nat.div_lt_of_lt_mul hlt⟩ ⟨v % W, Nat.mod_lt _ hpos⟩

/-- The kernels a rank's loops call, for every rank's row at a position. A
cached row is what each rank keeps of it. -/
noncomputable def kernel (rank : Fin S) :
    RowKernel ℝ (Fin S → Fin W → ℝ) (Fin S → List ℝ) ℝ :=
  { logSoftmax := fun vocabSize temperature logits r =>
      List.ofFn (vocabLogSoftmax vocabSize temperature logits r)
    loss := fun config vocabSize logits teacher =>
      opsdPerTokenLoss config vocabSize logits
        (fun r c => (teacher r).getD c 0) rank }

end Crisp.Ref.OpsdMath
