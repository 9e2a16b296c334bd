import Crisp.Lib.Raise
import Mathlib.Algebra.Field.Defs

/-!
# Generalized advantage estimation

`vanilla_gae` and `chunked_gae`. Every operation of theirs acts on each row of the batch
alone, so one row is modelled: its rewards and, of the same length, its values.
-/

namespace Crisp.Ref

open Crisp.Lib

variable {K : Type} [Field K]

/-- One turn of the loop of `vanilla_gae`: `lastgaelam` and `adv_rev`. -/
def gaeStep (rewards values : List K) (gamma lambd : K) (state : K × List K) (t : Nat) :
    K × List K :=
  let nextValue := if t + 1 < rewards.length then values.getD (t + 1) 0 else 0
  let delta := rewards.getD t 0 + gamma * nextValue - values.getD t 0
  let lastgaelam := delta + gamma * lambd * state.1
  (lastgaelam, state.2 ++ [lastgaelam])

/-- `vanilla_gae`: advantages and returns. -/
def vanillaGae (rewards values : List K) (gamma lambd : K) : Except PyError (List K × List K) := do
  let advRev := ((List.range rewards.length).reverse.foldl
    (gaeStep rewards values gamma lambd) (0, [])).2
  check (advRev ≠ []) (runtimeError "stack expects a non-empty TensorList")
  let fullAdvantages := advRev.reverse
  .ok (fullAdvantages, List.zipWith (· + ·) fullAdvantages values)

/-- The deltas of `chunked_gae`. -/
def gaeDeltas (rewards values : List K) (gamma : K) : List K :=
  let nextValues := values.drop 1 ++ [0]
  List.zipWith (· - ·) (List.zipWith (fun reward next => reward + gamma * next) rewards nextValues)
    values

section Chunks

variable [DecidableEq K] (w : K) (chunkSize : Nat)

/-- The kernel `M` of the scan within a chunk. -/
def scanKernel (row col : Nat) : K :=
  if row ≤ col then
    if w = 0 then if col - row = 0 then 1 else 0 else w ^ (col - row)
  else 0

/-- `pow_vec`. -/
def powVec : List K :=
  if w = 0 then List.replicate chunkSize 0 else (List.range chunkSize).map fun t => w ^ (t + 1)

/-- A row of `deltas_flat @ M`. -/
def scanLocal (deltas : List K) : List K :=
  (List.range chunkSize).map fun col =>
    ((List.range chunkSize).map fun row => deltas.getD row 0 * scanKernel w row col).sum

/-- One turn of the loop over the chunks: `S_rev` and `s_prev`. -/
def chunkStep (chunks : List (List K)) (lengths : List Nat) (state : List K × K) (c : Nat) :
    List K × K :=
  let length := lengths.getD c 0
  let start := c * chunkSize
  let scanned := (scanLocal w chunkSize (chunks.getD c [])).take length
  let scannedFrom := List.zipWith (fun total power => total + state.2 * power) scanned
    ((powVec w chunkSize).take length)
  (state.1.take start ++ scannedFrom ++ state.1.drop (start + length), scannedFrom.getLastD 0)

/-- `chunked_gae`: advantages and returns. -/
def chunkedGae (rewards values : List K) (gamma lambd : K) :
    Except PyError (List K × List K) := do
  check (values.length = rewards.length) (assertionError "")
  let w := gamma * lambd
  let deltasRev := (gaeDeltas rewards values gamma).reverse
  check (chunkSize ≠ 0) zeroModulo
  let pad := if rewards.length % chunkSize ≠ 0 then chunkSize - rewards.length % chunkSize else 0
  let padded := deltasRev ++ List.replicate pad 0
  let nChunks := padded.length / chunkSize
  let chunks := (List.range nChunks).map fun c => (padded.drop (c * chunkSize)).take chunkSize
  let lengths := if 0 < pad then
      (List.replicate nChunks chunkSize).set (nChunks - 1) (chunkSize - pad)
    else List.replicate nChunks chunkSize
  let scanned := ((List.range nChunks).foldl (chunkStep w chunkSize chunks lengths)
    (List.replicate padded.length 0, 0)).1
  let advantages := (if 0 < pad then scanned.take rewards.length else scanned).reverse
  .ok (advantages, List.zipWith (· + ·) advantages values)

end Chunks

end Crisp.Ref
