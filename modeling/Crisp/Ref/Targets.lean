import Crisp.Lib.Raise
import Crisp.Lib.Segments
import Crisp.Ref.Args
import Mathlib.Algebra.Field.Defs

/-!
# Dense targets and the reference loss

The teacher's side of an update prepares privileged sequences and collects one
target per sample; the student's side packs the same responses behind its own
prefixes and pairs its prediction rows with those targets. Both find their rows
in a packed microbatch through `response_logits`.

What the kernels compute from one row of logits is a parameter here: a row is
whatever the tensor-parallel ranks hold for one position, and no kernel looks
at two positions. The checks around them are the source's.
-/

namespace Crisp.Ref

open Crisp.Lib

/-! ## The rollout batch -/

/-- The columns of a local rollout these functions read, one entry a sample.
The teacher prefixes are absent from what is not an OPSD rollout. -/
structure RolloutData where
  tokens : List (List Int)
  totalLengths : List Int
  responseLengths : List Int
  lossMasks : List (List Int)
  sampleIndices : List (Option Int)
  teacherPromptIds : Option (List (List Int))

/-- One sample of a rollout. -/
structure Sample where
  index : Option Int
  tokens : List Int
  totalLength : Int
  responseLength : Int
  lossMask : List Int
  teacherPromptIds : List Int

/-- The columns the rollout manager builds from its samples. -/
def rolloutData (samples : List Sample) : RolloutData :=
  { tokens := samples.map Sample.tokens
    totalLengths := samples.map Sample.totalLength
    responseLengths := samples.map Sample.responseLength
    lossMasks := samples.map Sample.lossMask
    sampleIndices := samples.map Sample.index
    teacherPromptIds := some (samples.map Sample.teacherPromptIds) }

/-- The keyword arguments of `teacher_batch`. -/
structure TargetLimits where
  seqLength : Nat
  localVocabWidth : Nat
  cacheBytes : Nat
  microbatchBytes : Nat
  microBatchSize : Nat

/-- The loop of `teacher_batch` that builds the privileged sequences. -/
def privilegedSequences (seqLength : Nat) :
    List (List Int) → List (List Int) → List Int → List Int →
      Except PyError (List (List Int))
  | tokens :: ts, teacherPrefix :: ps, response :: rs, total :: ns => do
      check ((tokens.length : Int) = total ∧ (0 ≤ response ∧ response < total) ∧
          teacherPrefix ≠ [])
        (valueError "Invalid OPSD prefix/response boundaries")
      let sequence := teacherPrefix ++ pyFrom tokens (total - response)
      check (max total sequence.length ≤ seqLength)
        (valueError ("OPSD student or teacher sequence exceeds --seq-length; " ++
          "no truncation is permitted"))
      let rest ← privilegedSequences seqLength ts ps rs ns
      .ok (sequence :: rest)
  | [], [], [], [] => .ok []
  | ts, ps, rs, ns =>
      .error (zipMismatch [ts.isEmpty, ps.isEmpty, rs.isEmpty, ns.isEmpty])

/-- `teacher_batch`. -/
def teacherBatch (data : RolloutData) (limits : TargetLimits) :
    Except PyError RolloutData :=
  match data.teacherPromptIds with
  | none =>
      .error (valueError "OPSD requires a separately templated teacher prefix for every sample")
  | some prefixes => do
      check (prefixes.length = data.tokens.length)
        (valueError "OPSD requires a separately templated teacher prefix for every sample")
      let indices := data.sampleIndices
      check ((∀ index ∈ indices, index ≠ none) ∧ indices.Nodup)
        (valueError "OPSD requires unique stable sample indices within a rollout")
      let size := limits.microBatchSize
      check (size ≠ 0) zeroModulo
      check (indices.length % size = 0)
        (valueError "OPSD local rollout must contain whole fixed microbatches")
      let targetBytes := data.responseLengths.map fun response =>
        response * (limits.localVocabWidth : Int) * 4
      check (targetBytes.sum ≤ limits.cacheBytes)
        (valueError "OPSD teacher targets exceed --opsd-target-cache-gib")
      (List.range (indices.length / size)).forM fun j => do
        check ((microbatch size j targetBytes).sum ≤ limits.microbatchBytes)
          (valueError "OPSD teacher targets exceed --opsd-target-microbatch-gib")
        check (((microbatch size j data.lossMasks).map List.sum).sum ≠ 0)
          (valueError "OPSD reference reduction requires valid tokens in every microbatch")
      let tokens ← privilegedSequences limits.seqLength data.tokens prefixes
        data.responseLengths data.totalLengths
      .ok
        { tokens
          totalLengths := tokens.map fun sequence => (sequence.length : Int)
          responseLengths := data.responseLengths
          lossMasks := data.lossMasks
          sampleIndices := indices
          teacherPromptIds := none }

/-- The token stream `get_batch` packs for one microbatch without context
parallelism: the sequences end to end, padded to a whole multiple. -/
def packedTokens (padSize : Nat) (tokens : List (List Int)) : List Int :=
  tokens.flatten ++
    List.replicate ((padSize - tokens.flatten.length % padSize) % padSize) 0

/-! ## Prediction rows -/

/-- A tensor-parallel group: this rank's position and the number of ranks. -/
structure Tp where
  rank : Nat
  size : Nat

/-- A model output on one rank: its shape and its rows `logits[0]`. -/
structure Logits (ρ : Type) where
  ndim : Nat
  size0 : Nat
  localVocab : Nat
  isFloating : Bool
  rows : List ρ

variable {𝕜 ρ τ ν : Type}

/-- What `response_logits` checks when its first block is asked for. -/
def responseLogitsHead (logits : Logits ρ) : Except PyError Unit :=
  check (logits.ndim = 3 ∧ logits.size0 = 1)
    (valueError "OPSD expects THD logits shaped [1, packed_tokens, local_vocab]")

/-- One block of `response_logits`, for the segment that starts at `offset`. -/
def responseLogitsNext (logits : Logits ρ) (offset total response : Int) :
    Except PyError (List ρ) := do
  check (0 ≤ response ∧ response < total)
    (valueError "OPSD requires a nonempty prefix and a valid response length")
  let stop := offset + total
  check (stop ≤ logits.rows.length)
    (valueError "OPSD packed lengths exceed the model output")
  .ok (pySlice logits.rows (stop - response - 1) (stop - 1))

/-! ## The kernels -/

/-- `OPSDLossConfig`. -/
structure OPSDLossConfig (𝕜 : Type) where
  beta : 𝕜
  temperature : 𝕜
  tokenClip : Option 𝕜

/-- The two kernels at one position, as the rank at hand evaluates them. -/
structure RowKernel (𝕜 ρ τ ν : Type) where
  logSoftmax : (vocabSize : Nat) → (temperature : 𝕜) → ρ → τ
  loss : OPSDLossConfig 𝕜 → (vocabSize : Nat) → ρ → τ → ν

/-- The columns of this rank that are real vocabulary. -/
def validWidth (tp : Tp) (vocabSize width : Nat) : Nat :=
  min width (vocabSize - tp.rank * width)

/-- The argument checks of `vocab_log_softmax`. -/
def checkVocab [LinearOrder 𝕜] [Zero 𝕜] (tp : Tp) (vocabSize width : Nat)
    (isFloating : Bool) (temperature : 𝕜) : Except PyError Unit := do
  check (isFloating = true)
    (valueError "OPSD logits must be a floating [positions, local_vocab] tensor")
  check (0 < temperature)
    (valueError "OPSD loss temperature must be finite and positive")
  check (0 < vocabSize ∧ vocabSize ≤ width * tp.size)
    (valueError "Real vocabulary must fit the padded vocabulary shards")

/-- A cached `[positions, local vocab]` tensor. -/
structure CachedRows (τ : Type) where
  rows : List τ
  cols : Nat
  onCpu : Bool
  requiresGrad : Bool

/-- `OPSDTarget`. -/
structure OPSDTarget (𝕜 τ : Type) where
  sampleIndex : Int
  rolloutId : Int
  responseIds : List Int
  temperature : 𝕜
  vocabSize : Nat
  vocabStart : Nat
  logProbs : CachedRows τ

/-- The fields of a target a consumer compares. -/
structure TargetIdentity (𝕜 : Type) where
  sampleIndex : Option Int
  rolloutId : Int
  responseIds : List Int
  temperature : 𝕜
  vocabSize : Nat
  vocabStart : Nat
  deriving DecidableEq

/-- `_target_identity`. -/
def OPSDTarget.identity (target : OPSDTarget 𝕜 τ) : TargetIdentity 𝕜 :=
  { sampleIndex := some target.sampleIndex
    rolloutId := target.rolloutId
    responseIds := target.responseIds
    temperature := target.temperature
    vocabSize := target.vocabSize
    vocabStart := target.vocabStart }

/-- `tuple(tokens[-response:].tolist()) if response else ()`. -/
def responseIds (tokens : List Int) (response : Int) : List Int :=
  if response ≠ 0 then pyFrom tokens (-response) else []

/-! ## Collecting targets -/

section Collect

variable [LinearOrder 𝕜] [Zero 𝕜]

/-- `int(index)`. -/
def pyInt : Option Int → Except PyError Int
  | some index => .ok index
  | none =>
      .error (typeError ("int() argument must be a string, a bytes-like object or a real " ++
        "number, not 'NoneType'"))

@[simp] theorem pyInt_eq_ok {index : Option Int} {i : Int} :
    pyInt index = .ok i ↔ index = some i := by
  cases index <;> simp [pyInt]

/-- The loop of `_collect_targets`, from the segment at `offset` on. -/
def collectTargetsFrom (kernel : RowKernel 𝕜 ρ τ ν) (tp : Tp) (vocabSize : Nat)
    (temperature : 𝕜) (rolloutId : Int) (logits : Logits ρ) :
    (offset : Int) → List Int → List Int → List (List Int) → List (Option Int) →
      Except PyError (List (OPSDTarget 𝕜 τ))
  | offset, total :: totals, response :: responses, tokens, indices => do
      let block ← responseLogitsNext logits offset total response
      match tokens, indices with
      | sequence :: tokens, index :: indices =>
          checkVocab tp vocabSize logits.localVocab logits.isFloating temperature
          let index ← pyInt index
          let rest ← collectTargetsFrom kernel tp vocabSize temperature rolloutId
            logits (offset + total) totals responses tokens indices
          .ok
            ({ sampleIndex := index
               rolloutId
               responseIds := responseIds sequence response
               temperature
               vocabSize
               vocabStart := tp.rank * logits.localVocab
               logProbs :=
                { rows := block.map (kernel.logSoftmax vocabSize temperature)
                  cols := validWidth tp vocabSize logits.localVocab
                  onCpu := true
                  requiresGrad := false } } :: rest)
      | tokens, indices => .error (zipMismatch [false, tokens.isEmpty, false, indices.isEmpty])
  | _, [], [], [], [] => .ok []
  | _, [], [], tokens, indices =>
      .error (zipMismatch [true, tokens.isEmpty, true, indices.isEmpty])
  -- the generator's own `zip`
  | _, totals, responses, _, _ => .error (zipMismatch [totals.isEmpty, responses.isEmpty])

/-- `_collect_targets`. -/
def collectTargets (kernel : RowKernel 𝕜 ρ τ ν) (tp : Tp) (vocabSize : Nat)
    (temperature : 𝕜) (rolloutId : Int) (localVocabWidth : Nat) (logits : Logits ρ)
    (unconcatTokens : List (List Int)) (totalLengths responseLengths : List Int)
    (sampleIndices : List (Option Int)) :
    Except PyError (List (OPSDTarget 𝕜 τ)) := do
  check (logits.localVocab = localVocabWidth)
    (valueError "OPSD logits must match the constructed model's vocabulary shard")
  responseLogitsHead logits
  collectTargetsFrom kernel tp vocabSize temperature rolloutId logits 0 totalLengths
    responseLengths unconcatTokens sampleIndices

/-- The forward of a scoring pass: every microbatch of the schedule in turn, the
results concatenated. -/
def forwardTargets (kernel : RowKernel 𝕜 ρ τ ν) (tp : Tp) (vocabSize : Nat)
    (temperature : 𝕜) (rolloutId : Int) (localVocabWidth microBatchSize : Nat)
    (data : RolloutData) (logits : Nat → Except PyError (Logits ρ)) :
    Except PyError (List (OPSDTarget 𝕜 τ)) := do
  let blocks ← (List.range (data.tokens.length / microBatchSize)).mapM fun j => do
    let output ← logits j
    collectTargets kernel tp vocabSize temperature rolloutId localVocabWidth output
      (microbatch microBatchSize j data.tokens)
      (microbatch microBatchSize j data.totalLengths)
      (microbatch microBatchSize j data.responseLengths)
      (microbatch microBatchSize j data.sampleIndices)
  .ok blocks.flatten

/-- What `score_teacher` returns for a frozen teacher: one pass, and the order of
the samples checked. -/
def scoreTargets (kernel : RowKernel 𝕜 ρ τ ν) (tp : Tp) (vocabSize : Nat)
    (temperature : 𝕜) (rolloutId : Int) (localVocabWidth microBatchSize : Nat)
    (data : RolloutData) (logits : Nat → Logits ρ) :
    Except PyError (List (OPSDTarget 𝕜 τ)) := do
  let targets ← forwardTargets kernel tp vocabSize temperature rolloutId localVocabWidth
    microBatchSize data fun j => .ok (logits j)
  check (targets.map (fun target => some target.sampleIndex) = data.sampleIndices)
    (valueError "OPSD teacher prepass changed sample ordering")
  .ok targets

end Collect

/-! ## The reference loss -/

/-- The columns of one training microbatch. -/
structure LossBatch (𝕜 τ : Type) where
  totalLengths : List Int
  responseLengths : List Int
  opsdTargets : List (OPSDTarget 𝕜 τ)
  sampleIndices : List (Option Int)
  unconcatTokens : List (List Int)
  lossMasks : List (List Int)
  opsdRolloutIds : List Int

/-- The `j`-th microbatch of the rollout `score_teacher` has put its targets
into, every column cut alike. -/
def trainingMicrobatch (microBatchSize j : Nat) (data : RolloutData) (rolloutId : Int)
    (targets : List (OPSDTarget 𝕜 τ)) : LossBatch 𝕜 τ :=
  { totalLengths := microbatch microBatchSize j data.totalLengths
    responseLengths := microbatch microBatchSize j data.responseLengths
    opsdTargets := microbatch microBatchSize j targets
    sampleIndices := microbatch microBatchSize j data.sampleIndices
    unconcatTokens := microbatch microBatchSize j data.tokens
    lossMasks := microbatch microBatchSize j data.lossMasks
    opsdRolloutIds :=
      microbatch microBatchSize j (List.replicate targets.length rolloutId) }

section Loss

variable [LinearOrder 𝕜] [Zero 𝕜]

/-- `opsd_per_token_loss` on the response rows of one sample. -/
def opsdPerTokenLosses (kernel : RowKernel 𝕜 ρ τ ν) (tp : Tp) (vocabSize : Nat)
    (config : OPSDLossConfig 𝕜) (logits : Logits ρ) (student : List ρ)
    (teacher : CachedRows τ) : Except PyError (List ν) := do
  checkVocab tp vocabSize logits.localVocab logits.isFloating config.temperature
  check (teacher.rows.length = student.length ∧
      teacher.cols = validWidth tp vocabSize logits.localVocab)
    (valueError "Teacher target shape must match response positions and real local vocabulary")
  .ok (List.zipWith (kernel.loss config vocabSize) student teacher.rows)

def maskError : PyError :=
  valueError "OPSD requires one binary loss mask per response token"

/-- A mask of one response: one entry a token, each zero or one. -/
def BinaryMask (mask : List Int) (response : Nat) : Prop :=
  mask.length = response ∧ ∀ entry ∈ mask, entry = 0 ∨ entry = 1

instance (mask : List Int) (response : Nat) : Decidable (BinaryMask mask response) := by
  unfold BinaryMask; infer_instance

/-- The body of the loop of `reference_loss`, for one sample. -/
def referenceSample (kernel : RowKernel 𝕜 ρ τ ν) (tp : Tp) (vocabSize vocabStart : Nat)
    (config : OPSDLossConfig 𝕜) (logits : Logits ρ) (student : List ρ)
    (target : OPSDTarget 𝕜 τ) (sampleIndex : Option Int) (tokens : List Int)
    (mask : List Int) (rolloutId : Int) : Except PyError (List ν × List Bool) := do
  let response := student.length
  let actualIds := responseIds tokens response
  check (some target.sampleIndex = sampleIndex ∧ target.rolloutId = rolloutId ∧
      target.responseIds = actualIds)
    (valueError "OPSD target sample/response alignment mismatch")
  check (target.temperature = config.temperature ∧ target.vocabSize = vocabSize ∧
      target.vocabStart = vocabStart)
    (valueError "OPSD teacher/student distribution contract mismatch")
  check (target.logProbs.onCpu = true ∧ target.logProbs.requiresGrad = false)
    (valueError "OPSD cached targets must be detached CPU tensors")
  check (BinaryMask mask response) maskError
  let losses ← opsdPerTokenLosses kernel tp vocabSize config logits student target.logProbs
  .ok (losses, mask.map fun entry => decide (entry ≠ 0))

/-- The loop of `reference_loss`, from the segment at `offset` on. -/
def referenceRowsFrom (kernel : RowKernel 𝕜 ρ τ ν) (tp : Tp)
    (vocabSize vocabStart : Nat) (config : OPSDLossConfig 𝕜) (logits : Logits ρ) :
    (offset : Int) → List Int → List Int → List (OPSDTarget 𝕜 τ) →
      List (Option Int) → List (List Int) → List (List Int) → List Int →
      Except PyError (List (List ν × List Bool))
  | offset, total :: totals, response :: responses, targets, indices, tokens, masks,
      rolloutIds => do
      let student ← responseLogitsNext logits offset total response
      match targets, indices, tokens, masks, rolloutIds with
      | target :: targets, index :: indices, sequence :: tokens, mask :: masks,
          rolloutId :: rolloutIds =>
          let row ← referenceSample kernel tp vocabSize vocabStart config logits
            student target index sequence mask rolloutId
          let rest ← referenceRowsFrom kernel tp vocabSize vocabStart config logits
            (offset + total) totals responses targets indices tokens masks rolloutIds
          .ok (row :: rest)
      | targets, indices, tokens, masks, rolloutIds =>
          .error (zipMismatch [false, targets.isEmpty, indices.isEmpty, tokens.isEmpty,
            masks.isEmpty, rolloutIds.isEmpty])
  | _, [], [], [], [], [], [], [] => .ok []
  | _, [], [], targets, indices, tokens, masks, rolloutIds =>
      .error (zipMismatch [true, targets.isEmpty, indices.isEmpty, tokens.isEmpty, masks.isEmpty,
        rolloutIds.isEmpty])
  | _, totals, responses, _, _, _, _, _ =>
      .error (zipMismatch [totals.isEmpty, responses.isEmpty])

/-- The losses and masks `reference_loss` gathers before it reduces them. -/
def referenceRows (kernel : RowKernel 𝕜 ρ τ ν) (tp : Tp) (vocabSize vocabStart : Nat)
    (config : OPSDLossConfig 𝕜) (logits : Logits ρ) (batch : LossBatch 𝕜 τ) :
    Except PyError (List (List ν × List Bool)) := do
  responseLogitsHead logits
  referenceRowsFrom kernel tp vocabSize vocabStart config logits 0 batch.totalLengths
    batch.responseLengths batch.opsdTargets batch.sampleIndices batch.unconcatTokens
    batch.lossMasks batch.opsdRolloutIds

/-- `values[mask]`. -/
def masked (values : List ν) (mask : List Bool) : List ν :=
  ((values.zip mask).filter Prod.snd).map Prod.fst

def mean [DivisionRing ν] (values : List ν) : ν :=
  values.sum / (values.length : ν)

/-- `reference_loss`. Mean over valid tokens in this microbatch. -/
def referenceLoss [DivisionRing ν] (kernel : RowKernel 𝕜 ρ τ ν) (tp : Tp)
    (vocabSize vocabStart : Nat) (config : OPSDLossConfig 𝕜) (reduction : Reduction)
    (logits : Logits ρ) (batch : LossBatch 𝕜 τ) : Except PyError (ν × Nat) := do
  let rows ← referenceRows kernel tp vocabSize vocabStart config logits batch
  check (rows ≠ []) (runtimeError "torch.cat(): expected a non-empty list of Tensors")
  let mask := (rows.map Prod.snd).flatten
  let count := mask.count true
  check (count ≠ 0)
    (valueError "OPSD reference reduction is undefined for a microbatch with zero valid tokens")
  match reduction with
  | .sampleMean => do
      check (∀ row ∈ rows, row.2.any id = true)
        (valueError "OPSD sample mean requires valid tokens in every response")
      .ok (mean (rows.map fun row => mean (masked row.1 row.2)), count)
  | .reference =>
      .ok ((masked (rows.map Prod.fst).flatten mask).sum / (count : ν), count)

end Loss

end Crisp.Ref
