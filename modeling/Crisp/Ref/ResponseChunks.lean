import Crisp.Ref.ContextParallel

/-!
# The rows of a model's output that predict a response

`slice_with_cp` gives a rank its part of a sequence, and `_iter_response_chunks` finds in
the model's output, sample by sample, the rows that predict the response, the tokens they
predict and where these stand in the response. There are three layouts of the output: one
rank has everything, zigzag ranks have two chunks of every sample, and with `allgather_cp`
a rank has one contiguous chunk, whose values `allgather_cp_redistribute` turns into the
zigzag layout.
-/

namespace Crisp.Ref

open Crisp.Lib

/-- `args.qkv_format`. -/
inductive QkvFormat where
  | thd
  | bshd
  deriving DecidableEq, Repr

/-- The format with the padded length of a sample. -/
def QkvFormat.layout (format : QkvFormat) (maxSeqLen : Nat) : QkvLayout :=
  match format with
  | .thd => .thd
  | .bshd => .bshd maxSeqLen

/-- `parallel_state.cp` and `args.allgather_cp`. -/
structure CpState where
  rank : Nat
  size : Nat
  allgatherCp : Bool
  deriving DecidableEq, Repr

/-- A sample of the batch, prompt and response. -/
structure CpSample (α : Type) where
  tokens : List α
  totalLength : Nat
  responseLength : Nat
  maxSeqLen : Nat

/-- What is yielded for a sample. -/
structure ResponseChunk (V α : Type) where
  logits : List V
  tokens : List α
  responseIndices : List Int

section Slice

variable {V : Type} (padValue : V) (format : QkvFormat) (maxSeqLen cpRank cpSize : Nat)

/-- `pad_tokens`: `F.pad` at the end, which crops where the padding is negative. -/
def padTokens (tokens : List V) (pad : Int) : List V :=
  if pad < 0 then pyUntil tokens pad else tokens ++ List.replicate pad.toNat padValue

/-- `slice_with_cp`. -/
def sliceWithCp (tokens : List V) : List V :=
  if cpSize = 1 then
    match format with
    | .thd => tokens
    | .bshd => padTokens padValue tokens (maxSeqLen - tokens.length)
  else
    let size : Int := chunkSize (format.layout maxSeqLen) tokens.length cpSize
    let tokens := padTokens padValue tokens (2 * cpSize * size - tokens.length)
    pySlice tokens (size * cpRank) (size * (cpRank + 1)) ++
      pySlice tokens (size * (2 * cpSize - cpRank - 1)) (size * (2 * cpSize - cpRank))

end Slice

/-! ## `_iter_response_chunks` -/

section Chunks

variable {V α : Type} (format : QkvFormat) (cp : CpState) (logits : List V)

/-- `range(start, stop)`. -/
def pyRange (start stop : Int) : List Int :=
  (List.range (stop - start).toNat).map fun (i : Nat) => start + i

/-- One rank: the chunk, and the new `end`. -/
def plainChunk (i : Nat) (stop : Int) (sample : CpSample α) : ResponseChunk V α × Int :=
  let stop : Int := match format with
    | .bshd => sample.maxSeqLen * i + sample.totalLength
    | .thd => stop + sample.totalLength
  let start := stop - sample.responseLength
  (⟨pySlice logits (start - 1) (stop - 1),
    if sample.responseLength = 0 then [] else pyFrom sample.tokens (-sample.responseLength),
    pyRange 0 sample.responseLength⟩, stop)

/-- `allgather_cp`: the part of the response in this rank's chunk of the batch, or in
`bshd` of the sample. -/
def allgatherChunk (i : Nat) (seqStart : Int) (sample : CpSample α) :
    Except PyError (ResponseChunk V α) := do
  let logitsLocalLen : Int := match format with
    | .bshd => sample.maxSeqLen / cp.size
    | .thd => logits.length
  let logitsOffset : Int := match format with
    | .bshd => i * logitsLocalLen
    | .thd => 0
  let sampleStart := match format with
    | .bshd => 0
    | .thd => seqStart
  let chunkStart := cp.rank * logitsLocalLen
  let chunkEnd := chunkStart + logitsLocalLen
  let promptLength : Int := sample.totalLength - sample.responseLength
  let logitGlobalStart := sampleStart + promptLength - 1
  let logitGlobalEnd := sampleStart + sample.totalLength - 1
  let s := max logitGlobalStart chunkStart
  let e := min logitGlobalEnd chunkEnd
  let chunk : ResponseChunk V α :=
    if e ≤ s then ⟨[], [], []⟩
    else ⟨pySlice logits (logitsOffset + s - chunkStart) (logitsOffset + e - chunkStart),
      pySlice sample.tokens (s + 1 - sampleStart) (e + 1 - sampleStart),
      pyRange (s - logitGlobalStart) (e - logitGlobalStart)⟩
  check (chunk.logits.length = chunk.tokens.length)
    (assertionError s!"{chunk.logits.length} vs {chunk.tokens.length}")
  .ok chunk

/-- Zigzag ranks: the chunk, and the new `end`. -/
def zigzagChunk (stop : Int) (sample : CpSample α) :
    Except PyError (ResponseChunk V α × Int) := do
  let layout := format.layout sample.maxSeqLen
  let size : Int := chunkSize layout sample.totalLength cp.size
  let chunks := cpChunks layout sample.totalLength cp.rank cp.size
  let logitsAt := cpLogitsOffset layout sample.totalLength sample.responseLength cp.rank cp.size
  let tokensAt := cpTokensOffset layout sample.totalLength sample.responseLength cp.rank cp.size
  let logits0 := pySlice (pySlice logits stop (stop + size))
    (logitsAt.front.1 - chunks.front.1) (logitsAt.front.2 - chunks.front.1)
  let tokens0 := pySlice sample.tokens tokensAt.front.1 tokensAt.front.2
  let logits1 := pySlice (pySlice logits (stop + size) (stop + 2 * size))
    (logitsAt.back.1 - chunks.back.1) (logitsAt.back.2 - chunks.back.1)
  let tokens1 := pySlice sample.tokens tokensAt.back.1 tokensAt.back.2
  check (logits0.length = tokens0.length)
    (assertionError s!"{logits0.length} vs {tokens0.length}")
  check (logits1.length = tokens1.length)
    (assertionError s!"{logits1.length} vs {tokens1.length}")
  let promptLength : Int := sample.totalLength - sample.responseLength
  .ok (⟨logits0 ++ logits1, tokens0 ++ tokens1,
    pyRange (tokensAt.front.1 - promptLength) (tokensAt.front.2 - promptLength) ++
      pyRange (tokensAt.back.1 - promptLength) (tokensAt.back.2 - promptLength)⟩, stop + 2 * size)

/-- One turn of the loop. -/
def responseChunk (i : Nat) (stop seqStart : Int) (sample : CpSample α) :
    Except PyError (ResponseChunk V α × Int) :=
  if cp.size = 1 then .ok (plainChunk format logits i stop sample)
  else if cp.allgatherCp then do
    let chunk ← allgatherChunk format cp logits i seqStart sample
    .ok (chunk, stop)
  else zigzagChunk format cp logits stop sample

/-- The loop, with `include_response_indices`. -/
def iterResponseChunksFrom (i : Nat) (stop seqStart : Int) :
    List (CpSample α) → Except PyError (List (ResponseChunk V α))
  | [] => .ok []
  | sample :: samples => do
      let (chunk, stop) ← responseChunk format cp logits i stop seqStart sample
      check (chunk.responseIndices.length = chunk.tokens.length) (assertionError "")
      let chunks ← iterResponseChunksFrom (i + 1) stop (seqStart + sample.totalLength) samples
      .ok (chunk :: chunks)

/-- `_iter_response_chunks`. -/
def iterResponseChunks (samples : List (CpSample α)) : Except PyError (List (ResponseChunk V α)) :=
  iterResponseChunksFrom format cp logits 0 0 0 samples

end Chunks

/-- What is computed row by row of a chunk: a row of logits and the token it predicts. -/
def ResponseChunk.rows {V α K : Type} (value : V → α → K) (chunk : ResponseChunk V α) : List K :=
  List.zipWith value chunk.logits chunk.tokens

end Crisp.Ref
