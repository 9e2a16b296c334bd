import Crisp.Lib.Raise
import Crisp.Lib.Segments
import Crisp.Ref.LossMetrics
import Crisp.Ref.TrainShards

/-!
# Context parallelism

A sequence is cut into twice as many chunks as there are ranks, and a rank holds the
chunk of its number from the front and the one from the back. What is kept for a
response is what its tokens are predicted from, so every offset into it is one less
than the token's. `context_parallel.py`: the cut, the way back, and sums over the parts.
-/

namespace Crisp.Ref

open Crisp.Lib

/-- `qkv_format`, with the padded length that `bshd` asks for. -/
inductive QkvLayout where
  | thd
  | bshd (maxSeqLen : Nat)
  deriving DecidableEq, Repr

/-- What is cut: the length that is divided into chunks. -/
def QkvLayout.length (layout : QkvLayout) (totalLength : Nat) : Nat :=
  match layout with
  | .thd => totalLength
  | .bshd maxSeqLen => maxSeqLen

/-- Two intervals, the front chunk's and the back chunk's. -/
structure TwoOffsets where
  front : Int × Int
  back : Int × Int
  deriving DecidableEq, Repr

/-- An empty slice in place of a slice that ends before it starts. -/
def logitsOffset (chunk : Int × Int) (promptLength totalLength : Int) : Int × Int :=
  let logits := (max chunk.1 (promptLength - 1), min chunk.2 (totalLength - 1))
  if logits.1 < logits.2 then logits else (0, 0)

def tokensOffset (chunk : Int × Int) (promptLength totalLength : Int) : Int × Int :=
  let logits := (max chunk.1 (promptLength - 1), min chunk.2 (totalLength - 1))
  if logits.1 < logits.2 then (logits.1 + 1, logits.2 + 1) else (0, 0)

section Offsets

variable (layout : QkvLayout) (totalLength responseLength cpRank cpSize : Nat)

def chunkSize : Nat :=
  (layout.length totalLength + 2 * cpSize - 1) / (2 * cpSize)

/-- The chunks of `get_logits_and_tokens_offset_with_cp`. -/
def cpChunks : TwoOffsets :=
  let size : Int := chunkSize layout totalLength cpSize
  ⟨(cpRank * size, (cpRank + 1) * size),
    ((2 * cpSize - cpRank - 1) * size, (2 * cpSize - cpRank) * size)⟩

/-- Its offsets of logits. -/
def cpLogitsOffset : TwoOffsets :=
  let chunks := cpChunks layout totalLength cpRank cpSize
  let promptLength : Int := totalLength - responseLength
  ⟨logitsOffset chunks.front promptLength totalLength,
    logitsOffset chunks.back promptLength totalLength⟩

/-- Its offsets of tokens. -/
def cpTokensOffset : TwoOffsets :=
  let chunks := cpChunks layout totalLength cpRank cpSize
  let promptLength : Int := totalLength - responseLength
  ⟨tokensOffset chunks.front promptLength totalLength,
    tokensOffset chunks.back promptLength totalLength⟩

variable {K : Type}

/-- `slice_log_prob_with_cp`. -/
def sliceLogProbWithCp (logProb : List K) : Except PyError (List K) := do
  check (logProb.length = responseLength) (assertionError "")
  if cpSize = 1 then .ok logProb
  else
    let offset := cpLogitsOffset layout totalLength responseLength cpRank cpSize
    let start : Int := totalLength - responseLength - 1
    .ok (pySlice logProb (offset.front.1 - start) (offset.front.2 - start) ++
      pySlice logProb (offset.back.1 - start) (offset.back.2 - start))

/-- `_slice_loss_mask_for_local_cp`. -/
def sliceLossMaskForLocalCp (lossMask : List K) : List K :=
  let offset := cpTokensOffset layout totalLength responseLength cpRank cpSize
  let promptLength : Int := totalLength - responseLength
  pySlice lossMask (offset.front.1 - promptLength) (offset.front.2 - promptLength) ++
    pySlice lossMask (offset.back.1 - promptLength) (offset.back.2 - promptLength)

/-! ## The way back -/

variable [Zero K]

/-- `torch.zeros([len])` -/
def zeros (len : Int) : Except PyError (List K) :=
  if len < 0 then
    .error (runtimeError s!"Trying to create tensor with negative dimension {len}: [{len}]")
  else .ok (List.replicate len.toNat 0)

/-- `all_gather_with_cp` up to the `all_reduce`: the rank's part at its place, noughts
elsewhere. -/
def fullTensor (tensor : List K) : Except PyError (List K) := do
  let offset := cpLogitsOffset layout totalLength responseLength cpRank cpSize
  let promptLength : Int := totalLength - responseLength
  let chunk0 := pyUntil tensor (offset.front.2 - offset.front.1)
  let chunk1 := pyFrom tensor (offset.front.2 - offset.front.1)
  check ((chunk1.length : Int) = offset.back.2 - offset.back.1) (assertionError "")
  let full ←
    if chunk0 = [] ∧ chunk1 = [] then zeros responseLength
    else if chunk1 = [] then do
      let left ← zeros (offset.front.1 - (promptLength - 1))
      let right ← zeros (totalLength - 1 - offset.front.2)
      .ok (left ++ chunk0 ++ right)
    else if chunk0 = [] then do
      let left ← zeros (offset.back.1 - (promptLength - 1))
      let right ← zeros (totalLength - 1 - offset.back.2)
      .ok (left ++ chunk1 ++ right)
    else do
      let left ← zeros (offset.front.1 - (promptLength - 1))
      let mid ← zeros (offset.back.1 - offset.front.2)
      let right ← zeros (totalLength - 1 - offset.back.2)
      .ok (left ++ chunk0 ++ mid ++ chunk1 ++ right)
  check (full.length = responseLength)
    (assertionError s!"Expected {responseLength}, got torch.Size([{full.length}])")
  .ok full

end Offsets

section Group

variable {K : Type} [DivisionRing K] (layout : QkvLayout) (totalLength responseLength cpSize : Nat)

/-- `all_gather_with_cp`: what every rank gets, from the ranks' parts in order. -/
def allGatherWithCp (tensors : List (List K)) : Except PyError (List K) := do
  if cpSize = 1 then .ok (tensors.headD [])
  else
    let fulls ← tensors.zipIdx.mapM fun item =>
      fullTensor layout totalLength responseLength item.2 cpSize item.1
    .ok (allReduceSum fulls)

/-- `out[start:stop] = vals`, where one value is spread over the slice. -/
def assignSlice (out : List K) (start stop : Int) (vals : List K) : Except PyError (List K) :=
  let a := pyBound out.length start
  let b := max a (pyBound out.length stop)
  let sized := if vals.length = 1 then List.replicate (b - a) (vals.headD 0) else vals
  if sized.length = b - a then .ok (out.take a ++ sized ++ out.drop b)
  else .error (runtimeError
    s!"The expanded size of the tensor ({b - a}) must match the existing size ({vals.length})")

/-- One of the two intervals of a rank: `out` and how much of the chunk is taken. -/
def assembleInterval (chunk : List K) (state : List K × Nat) (interval : Int × Int) :
    Except PyError (List K × Nat) := do
  let promptLength : Int := totalLength - responseLength
  let start := interval.1 - (promptLength - 1)
  let stop := interval.2 - (promptLength - 1)
  let width := stop - start
  if width ≤ 0 then .ok state
  else
    let out ← assignSlice state.1 start stop (pySlice chunk state.2 (state.2 + width))
    .ok (out, state.2 + width.toNat)

/-- The loop of `assemble_log_prob_from_cp` over `chunks.items()`. -/
def assembleChunk (out : List K) (item : Nat × List K) : Except PyError (List K) := do
  let offset := cpLogitsOffset layout totalLength responseLength item.1 cpSize
  let first ← assembleInterval totalLength responseLength item.2 (out, 0) offset.front
  let second ← assembleInterval totalLength responseLength item.2 first offset.back
  check (second.2 = item.2.length)
    (assertionError s!"cp rank {item.1}: consumed {second.2} of {item.2.length} values")
  .ok second.1

/-- `assemble_log_prob_from_cp`. -/
def assembleLogProbFromCp (chunks : List (Nat × List K)) : Except PyError (List K) := do
  check (1 < cpSize) (assertionError "no reassembly needed at cp_size=1")
  let missing := (List.range cpSize).filter fun cpRank => cpRank ∉ chunks.map Prod.fst
  check (missing = [])
    (assertionError s!"cp ranks {missing} missing; cannot reassemble a partial group")
  chunks.foldlM (assembleChunk layout totalLength responseLength cpSize)
    (List.replicate responseLength 0)

end Group

/-! ## Sums over local parts -/

section Sums

variable {K : Type} [Field K] [LinearOrder K]

/-- A response of the batch: its lengths, its whole mask and what it is divided by. -/
structure RolloutResponse (K : Type) where
  layout : QkvLayout
  totalLength : Nat
  responseLength : Nat
  lossMask : List Nat
  denominator : K

/-- `get_local_response_loss_masks`, for one response. -/
def localLossMask (cpRank cpSize : Nat) (response : RolloutResponse K) : List Nat :=
  if cpSize = 1 then response.lossMask
  else sliceLossMaskForLocalCp response.layout response.totalLength response.responseLength cpRank
    cpSize response.lossMask

/-- `(x_i * loss_mask_i).sum()`. -/
def maskedTokenSum (x : List K) (lossMask : List Nat) : K :=
  (List.zipWith (fun (v : K) (m : Nat) => v * m) x lossMask).sum

/-- `x.split(cp_chunk_lengths)`, where one rank splits by `response_lengths`. -/
def localLengths (cpRank cpSize : Nat) (responses : List (RolloutResponse K)) : List Nat :=
  responses.map fun response =>
    if cpSize = 1 then response.responseLength else (localLossMask cpRank cpSize response).length

/-- What `get_sum_of_sample_mean` returns, applied to the local `x`: the means, or with
`calculate_per_token_loss` the sums. -/
def getSumOfSampleMean (calculatePerTokenLoss : Bool) (cpRank cpSize : Nat)
    (responses : List (RolloutResponse K)) (x : List K) : K :=
  (List.zipWith
    (fun x response =>
      let total := maskedTokenSum x (localLossMask cpRank cpSize response)
      if calculatePerTokenLoss then total else total / max response.denominator 1)
    (splitLengths (localLengths cpRank cpSize responses) x) responses).sum

end Sums

end Crisp.Ref
