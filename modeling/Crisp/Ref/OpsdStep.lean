import Crisp.Lib.LogSoftmax
import Crisp.Ref.OpsdTrainer
import Crisp.Ref.OpsdWorker

/-!
# The objective of an update

`_opsd_update` pads the batch to a multiple of the data-parallel size and the
dispatcher hands every rank one contiguous part. A rank cuts its part into
micro-batches and calls `backward` on each one's mean token loss over the number
of micro-batches, and the ranks' gradients are averaged. What is modelled is the
scalar all of these differentiate, in exact arithmetic; the student's parameters
enter through the model of the student's forward passes.
-/

namespace Crisp.Ref

open Crisp.Lib

variable {Λ : Type} {V : Nat}

/-! ## Divergence losses -/

/-- The loop of the losses that slice their logits: token losses summed chunk by
chunk, and the sum divided by the number of tokens, which is returned beside it. -/
noncomputable def chunkedMean (chunkSize : Nat) (tokenLoss : Λ → Λ → ℝ)
    (teacherLogits studentLogits : List Λ) : ℝ × Nat :=
  let nTokens := teacherLogits.length
  if nTokens = 0 then (0, 0)
  else
    let total := ((List.range ((nTokens + chunkSize - 1) / chunkSize)).map fun i =>
      (List.zipWith tokenLoss (microbatch chunkSize i teacherLogits)
        (microbatch chunkSize i studentLogits)).sum).sum
    (total / nTokens, nTokens)

/-- `logits.split(chunk_size, dim=0)`: the last chunk has the rest. -/
def splitRows (chunkSize : Nat) (logits : List Λ) : List (List Λ) :=
  (List.range ((logits.length + chunkSize - 1) / chunkSize)).map fun i =>
    microbatch chunkSize i logits

/-- The loop of the losses that split the teacher's logits first and take, for
each chunk, as many of the student's rows as it has. -/
noncomputable def splitMean (chunkSize : Nat) (tokenLoss : Λ → Λ → ℝ)
    (teacherLogits studentLogits : List Λ) : ℝ × Nat :=
  let nTokens := teacherLogits.length
  if nTokens = 0 then (0, 0)
  else
    let total := ((splitRows chunkSize teacherLogits).zipIdx.map fun (tChunk, i) =>
      let start := i * chunkSize
      (List.zipWith tokenLoss tChunk
        ((studentLogits.drop start).take tChunk.length)).sum).sum
    (total / nTokens, nTokens)

theorem zipWith_take_length {α β γ : Type} (f : α → β → γ) {xs : List α} {ys : List β} {n : Nat}
    (h : xs.length ≤ n) :
    List.zipWith f xs (ys.take xs.length) = List.zipWith f xs (ys.take n) := by
  induction xs generalizing ys n with
  | nil => rfl
  | cons x xs ih =>
      cases ys with
      | nil => simp
      | cons y ys =>
          cases n with
          | zero => exact absurd h (Nat.not_succ_le_zero _)
          | succ n =>
              simp only [List.length_cons, List.take_succ_cons, List.zipWith_cons_cons]
              rw [ih (Nat.le_of_succ_le_succ h)]

theorem map_zipIdx_range {α β : Type} (n : Nat) (chunk : Nat → α) (f : α × Nat → β) :
    ((List.range n).map chunk).zipIdx.map f = (List.range n).map fun i => f (chunk i, i) := by
  apply List.ext_getElem
  · simp
  · intro i _ _
    simp

/-- The two loops go over the same chunks. -/
theorem splitMean_eq (chunkSize : Nat) (tokenLoss : Λ → Λ → ℝ) :
    splitMean chunkSize tokenLoss = chunkedMean chunkSize tokenLoss := by
  funext teacherLogits studentLogits
  have hchunk : ∀ i, List.zipWith tokenLoss (microbatch chunkSize i teacherLogits)
      ((studentLogits.drop (i * chunkSize)).take
        (microbatch chunkSize i teacherLogits).length) =
      List.zipWith tokenLoss (microbatch chunkSize i teacherLogits)
        (microbatch chunkSize i studentLogits) := fun i =>
    zipWith_take_length tokenLoss (List.length_take_le _ _)
  unfold splitMean chunkedMean splitRows
  dsimp only
  rw [map_zipIdx_range]
  simp only [hchunk]

/-- One token of `_compute_jsd_loss`, with the mixture clamped before its
logarithm. -/
noncomputable def jsdToken (beta : ℝ) (teacher student : Fin V → ℝ) : ℝ :=
  let tLogProbs := logSoftmax teacher
  let sLogProbs := logSoftmax student
  let mLogProbs := fun c => Real.log (max
    (beta * Real.exp (tLogProbs c) + (1 - beta) * Real.exp (sLogProbs c)) 1e-8)
  let klT := ∑ c, Real.exp (tLogProbs c) * (tLogProbs c - mLogProbs c)
  let klS := ∑ c, Real.exp (sLogProbs c) * (sLogProbs c - mLogProbs c)
  beta * klT + (1 - beta) * klS

/-- `F.kl_div(input, target, reduction="none", log_target=True)`. -/
noncomputable def fKlDiv (input target : ℝ) : ℝ :=
  Real.exp target * (target - input)

/-- `exp(log_prob + log(weight))`, where the logarithm of a weight that is not
positive is `-inf`. -/
noncomputable def weightedProb (weight logProb : ℝ) : ℝ :=
  if 0 < weight then Real.exp (logProb + Real.log weight) else 0

/-- One token of `_compute_jsd_loss_liger`, with the mixture as a `logsumexp`. -/
noncomputable def jsdTokenLiger (beta : ℝ) (teacher student : Fin V → ℝ) : ℝ :=
  let tLp := logSoftmax teacher
  let sLp := logSoftmax student
  let logM := fun c => Real.log (weightedProb beta (tLp c) +
    weightedProb (1 - beta) (sLp c))
  let klT := ∑ c, fKlDiv (logM c) (tLp c)
  let klS := ∑ c, fKlDiv (logM c) (sLp c)
  beta * klT + (1 - beta) * klS

/-- One token of `_compute_reverse_kl_loss`. -/
noncomputable def reverseKlToken (teacher student : Fin V → ℝ) : ℝ :=
  let tLogProbs := logSoftmax teacher
  let sLogProbs := logSoftmax student
  ∑ c, Real.exp (sLogProbs c) * (sLogProbs c - tLogProbs c)

/-- One token of `_compute_reverse_kl_loss_liger`: the teacher is the input of
`F.kl_div`. -/
noncomputable def reverseKlTokenLiger (teacher student : Fin V → ℝ) : ℝ :=
  let tLp := logSoftmax teacher
  let sLp := logSoftmax student
  ∑ c, fKlDiv (tLp c) (sLp c)

/-- Teacher's and student's rows to the loss and the number of tokens. -/
abbrev LossFn (V : Nat) := List (Fin V → ℝ) → List (Fin V → ℝ) → ℝ × Nat

/-- `_compute_jsd_loss`. -/
noncomputable def computeJsdLoss (beta : ℝ) (chunkSize : Nat := 128) : LossFn V :=
  chunkedMean chunkSize (jsdToken beta)

/-- `_compute_jsd_loss_liger`. -/
noncomputable def computeJsdLossLiger (beta : ℝ) (chunkSize : Nat := 64) : LossFn V :=
  splitMean chunkSize (jsdTokenLiger beta)

/-- `_compute_reverse_kl_loss`. The interpolation parameter is unused. -/
noncomputable def computeReverseKlLoss (_beta : ℝ) (chunkSize : Nat := 128) : LossFn V :=
  chunkedMean chunkSize reverseKlToken

/-- `_compute_reverse_kl_loss_liger`. -/
noncomputable def computeReverseKlLossLiger (_beta : ℝ) (chunkSize : Nat := 64) : LossFn V :=
  splitMean chunkSize reverseKlTokenLiger

/-- `H(p) = -sum(p * log(p))` of one token. -/
noncomputable def tokenEntropy (logits : Fin V → ℝ) : ℝ :=
  -∑ c, Real.exp (logSoftmax logits c) * logSoftmax logits c

/-- The two sums of the entropy loop, over the rows of one chunk after the other. -/
noncomputable def entropyMeans (chunkSize : Nat) (studentLogits teacherLogits : List (Fin V → ℝ)) :
    ℝ × ℝ :=
  let nTokens := studentLogits.length
  if nTokens = 0 then (0, 0)
  else
    let total := fun (logits : List (Fin V → ℝ)) =>
      ((List.range ((nTokens + chunkSize - 1) / chunkSize)).map fun i =>
        ((microbatch chunkSize i logits).map tokenEntropy).sum).sum
    (total studentLogits / nTokens, total teacherLogits / nTokens)

/-- `_compute_entropy`. -/
noncomputable def computeEntropy (chunkSize : Nat := 128) :
    List (Fin V → ℝ) → List (Fin V → ℝ) → ℝ × ℝ :=
  entropyMeans chunkSize

/-- `_compute_entropy_liger`. It differs in the size of its chunks only. -/
noncomputable def computeEntropyLiger (chunkSize : Nat := 64) :
    List (Fin V → ℝ) → List (Fin V → ℝ) → ℝ × ℝ :=
  entropyMeans chunkSize

/-- `opsd_loss_type`; anything else is known by its `repr` only. -/
inductive LossType where
  | jsd
  | reverseKl
  | other (repr : String)
  deriving DecidableEq, Repr

/-- The settings of a training step. -/
structure StepConfig where
  useRemovePadding : Bool
  useLiger : Bool
  lossType : LossType
  beta : ℝ

/-- `loss_fn_map`. -/
noncomputable def StepConfig.lossFn (config : StepConfig) : Except PyError (LossFn V) :=
  match config.lossType with
  | .jsd =>
      .ok (if config.useLiger then computeJsdLossLiger config.beta
        else computeJsdLoss config.beta)
  | .reverseKl =>
      .ok (if config.useLiger then computeReverseKlLossLiger config.beta
        else computeReverseKlLoss config.beta)
  | .other repr =>
      .error (valueError ("Unknown loss_type: " ++ repr ++
        ". Expected one of ['jsd', 'reverse_kl']"))

/-! ## Gradient accumulation -/

/-- The loop over the micro-batches: the sum of the scaled losses `backward` is
called on. A micro-batch without response tokens is passed over. -/
noncomputable def accumulate (config : StepConfig) (unpad : UnpadInput)
    (refModule actorModule : ForwardModel (Fin V → ℝ)) (gradAccum : Nat) :
    List OpsdBatch → Except PyError ℝ
  | [] => .ok 0
  | microBatch :: microBatches => do
      let (teacherLogits, studentLogits) ←
        alignedLogits config.useRemovePadding unpad refModule actorModule microBatch
      if teacherLogits.length = 0 then
        accumulate config unpad refModule actorModule gradAccum microBatches
      else do
        let lossFn ← config.lossFn
        let loss := (lossFn teacherLogits studentLogits).1
        let rest ← accumulate config unpad refModule actorModule gradAccum microBatches
        .ok (loss / gradAccum + rest)

/-- `_opsd_training_step`. -/
noncomputable def opsdTrainingStep (config : StepConfig) (unpad : UnpadInput)
    (refModule actorModule : ForwardModel (Fin V → ℝ)) (microBatchSize : Nat)
    (data : OpsdBatch) : Except PyError ℝ :=
  if data.batchSize = 0 then .ok 0
  else
    let microBatches := data.split microBatchSize
    accumulate config unpad refModule actorModule (max 1 microBatches.length)
      microBatches

/-! ## Data parallelism -/

/-- The equal contiguous parts of a batch whose size the ranks divide. -/
def OpsdBatch.chunk (nDp : Nat) (batch : OpsdBatch) : List OpsdBatch :=
  (List.range nDp).map fun r => batch.microBatch (batch.batchSize / nDp) r

/-- The mean over the ranks of what each one differentiates in `update_opsd`. -/
noncomputable def updateObjective (config : StepConfig) (unpad : UnpadInput)
    (refModule actorModule : ForwardModel (Fin V → ℝ)) (nDp microBatchSize : Nat)
    (batch : OpsdBatch) : Except PyError ℝ := do
  let objectives ← ((batch.dpPad nDp).chunk nDp).mapM
    (opsdTrainingStep config unpad refModule actorModule microBatchSize)
  .ok (objectives.sum / nDp)

end Crisp.Ref
