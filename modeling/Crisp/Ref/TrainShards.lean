import Crisp.Ref.DpSchedule

/-!
# From the rollout batch to a micro-batch

`train_data_conversion.py` packages one shard a rank, and `data/rollout.py` completes a shard
and iterates it. The keys the arithmetic reads have columns of their own; any other key that
is split is one of `others`. A column indexed past its end raises, which is `none` here.
-/

namespace Crisp.Ref

open Crisp.Lib

variable {V : Type}

/-- A batch of rows, one column a key. -/
structure RolloutColumns (V : Type) where
  tokens : List (List Nat)
  totalLengths : List Nat
  responseLengths : List Nat
  lossMasks : List (List Nat)
  rolloutIds : List Int
  rolloutMaskSums : List Nat
  others : List (String × List V)

/-- `[vals[i] for i in indices]`. -/
def selectRows {α : Type} (vals : List α) (indices : List Nat) : Option (List α) :=
  indices.mapM fun i => vals[i]?

/-- Every column by one function, which may raise. -/
def RolloutColumns.mapColumns (f : (α : Type) → List α → Option (List α))
    (columns : RolloutColumns V) : Option (RolloutColumns V) := do
  let tokens ← f _ columns.tokens
  let totalLengths ← f _ columns.totalLengths
  let responseLengths ← f _ columns.responseLengths
  let lossMasks ← f _ columns.lossMasks
  let rolloutIds ← f _ columns.rolloutIds
  let rolloutMaskSums ← f _ columns.rolloutMaskSums
  let others ← columns.others.mapM fun column => do
    let vals ← f _ column.2
    some (column.1, vals)
  some { tokens, totalLengths, responseLengths, lossMasks, rolloutIds, rolloutMaskSums, others }

/-- The keys `_package_shards` splits that have no column of their own here. -/
def splitKeys : List String :=
  ["multimodal_train_inputs", "rewards", "truncated", "round_number", "sample_indices",
    "rollout_log_probs", "rollout_topk_token_ids", "rollout_topk_lengths", "rollout_topk_log_probs",
    "rollout_sampling_mask_ids", "rollout_sampling_mask_offsets", "rollout_routed_experts",
    "rollout_indexer_topk", "prompt", "teacher_log_probs", "teacher_prompt_ids", "opd_reverse_kl",
    "seq_witness_ids", "weight_versions", "adapter_slots", "loss_weights", "advantages",
    "target_tokens"]

/-- `_compute_rollout_mask_sums`. -/
def computeRolloutMaskSums (rolloutIds : List Int) (lossMasks : List (List Nat)) : List Nat :=
  let totals := (rolloutIds.zip lossMasks).foldl
    (fun totals row => Function.update totals row.1 (totals row.1 + row.2.sum)) fun _ => 0
  rolloutIds.map totals

/-- One shard of `_package_shards`. The keys that are split at the train side come whole. -/
structure RolloutShard (V : Type) where
  partition : List Nat
  columns : RolloutColumns V
  microBatchIndices : Option (List (List Nat))
  numMicrobatches : List Nat
  numRollouts : List Nat

/-- `_package_shards`, for one partition. -/
def packageShard (data : RolloutColumns V) (partition : List Nat) : Option (RolloutShard V) := do
  let known := { data with others := data.others.filter fun column => column.1 ∈ splitKeys }
  let columns ← known.mapColumns fun _ vals => selectRows vals partition
  some ⟨partition, { columns with totalLengths := data.totalLengths }, none, [], []⟩

/-- `split_train_data_by_dp_scheduled_raw`. -/
def splitTrainDataByDpScheduledRaw (args : ScheduleArgs) (config : ParallelConfig)
    (globalBatchSize : Nat) (data : RolloutColumns V) :
    Except PyError (Fin config.dpSize → Option (RolloutShard V)) := do
  let totalLengths := data.tokens.map List.length
  let schedule ← buildDpSchedule args config totalLengths globalBatchSize data.rolloutIds
  .ok fun rank => do
    let shard ← packageShard { data with totalLengths } (schedule.ranks rank).partition
    some { shard with
      microBatchIndices := some (schedule.ranks rank).microBatchIndices
      numMicrobatches := schedule.numMicrobatches
      numRollouts := schedule.numRollouts }

/-- `process_rollout_data_shard`. -/
def processRolloutDataShard (shard : RolloutShard V) : Option (RolloutColumns V) := do
  let totalLengths ← selectRows shard.columns.totalLengths shard.partition
  some { shard.columns with totalLengths }

/-! ## The iterator -/

/-- `micro_batch_size`, or `micro_batch_indices`. -/
inductive BatchPlan where
  | size (microBatchSize : Nat)
  | indices (microBatchIndices : List (List Nat))

/-- `DataIterator`. -/
structure DataIterator (V : Type) where
  rolloutData : RolloutColumns V
  plan : BatchPlan
  offset : Nat

/-- `vals[offset : offset + size]`, past its assertion. -/
def sliceRows {α : Type} (offset size : Nat) (vals : List α) : Option (List α) :=
  if offset + size ≤ vals.length then some ((vals.drop offset).take size) else none

/-- `get_next`, with the iterator it leaves. -/
def DataIterator.getNext (iterator : DataIterator V) :
    Option (RolloutColumns V × DataIterator V) :=
  match iterator.plan with
  | .indices microBatchIndices => do
      let rows ← microBatchIndices[iterator.offset]?
      let batch ← iterator.rolloutData.mapColumns fun _ vals => selectRows vals rows
      some (batch, { iterator with offset := iterator.offset + 1 })
  | .size microBatchSize => do
      let batch ← iterator.rolloutData.mapColumns fun _ vals =>
        sliceRows iterator.offset microBatchSize vals
      some (batch, { iterator with offset := iterator.offset + microBatchSize })

/-- `num_microbatches[step_id]` times `get_next`. -/
def takeBatches : Nat → DataIterator V → Option (List (RolloutColumns V) × DataIterator V)
  | 0, iterator => some ([], iterator)
  | count + 1, iterator => do
      let (batch, iterator) ← iterator.getNext
      let (batches, iterator) ← takeBatches count iterator
      some (batch :: batches, iterator)

/-- The loop over the steps, every one of which goes on where the last stopped. -/
def takeSteps : List Nat → DataIterator V → Option (List (List (RolloutColumns V)))
  | [], _ => some []
  | count :: counts, iterator => do
      let (batches, iterator) ← takeBatches count iterator
      let later ← takeSteps counts iterator
      some (batches :: later)

/-- What the train side makes of a shard that carries its schedule. -/
def trainShard (shard : RolloutShard V) : Option (List (List (RolloutColumns V))) := do
  let microBatchIndices ← shard.microBatchIndices
  let rolloutData ← processRolloutDataShard shard
  takeSteps shard.numMicrobatches ⟨rolloutData, .indices microBatchIndices, 0⟩

/-- `x.split(lengths)`. -/
def splitLengths {α : Type} : List Nat → List α → List (List α)
  | [], _ => []
  | n :: lengths, x => x.take n :: splitLengths lengths (x.drop n)

end Crisp.Ref
