import Crisp.Lib.Grouping
import Crisp.Ref.SeqlenBalancing

/-!
# The micro-batch schedule of a rollout

`dp_schedule.py`: the samples of each training step are packed into micro-batches
first, and the micro-batches dealt to the data-parallel ranks second. What
`calculate_fwd_flops` answers for one sequence is a parameter of the arguments, and the
lists `partitions` and `micro_batch_indices` are read as one record a rank, since both
only ever grow together.
-/

namespace Crisp.Ref

open Crisp.Lib

/-- What the schedule reads of `args`. -/
structure ScheduleArgs where
  useDynamicBatchSize : Bool
  maxTokensPerGpu : Option Nat
  microBatchSize : Option Nat
  balanceData : Bool
  balanceByFlops : Bool
  allowPartialTrainStep : Bool
  calculateFwdFlops : Nat → Nat

/-- A `train_parallel_config` with every key of `SCHEDULE_CONFIG_KEYS`. -/
structure ParallelConfig where
  dpSize : Nat
  cpSize : Nat
  vppSize : Option Nat
  microbatchGroupSizePerVpStage : Nat
  dp_pos : 0 < dpSize
  group_pos : 0 < microbatchGroupSizePerVpStage

/-- The factor of `align_to` that is not `dp_size`. -/
def ParallelConfig.group (config : ParallelConfig) : Nat :=
  if 1 < config.vppSize.getD 1 then config.microbatchGroupSizePerVpStage else 1

/-- `align_to`. -/
def ParallelConfig.alignTo (config : ParallelConfig) : Nat := config.dpSize * config.group

/-- One rank's entry of `partitions` and of `micro_batch_indices`: the micro-batches
number the rows of the partition in order. -/
structure RankSchedule where
  partition : List Nat
  microBatchIndices : List (List Nat)
  tiles : microBatchIndices.flatten = List.range partition.length

def RankSchedule.empty : RankSchedule := ⟨[], [], rfl⟩

/-- One micro-batch more. -/
def RankSchedule.extend (rank : RankSchedule) (samples : List Nat) : RankSchedule where
  partition := rank.partition ++ samples
  microBatchIndices :=
    rank.microBatchIndices ++ [List.range' rank.partition.length samples.length]
  tiles := by
    have hsplit := @List.range'_append_1 0 rank.partition.length samples.length
    rw [Nat.zero_add] at hsplit
    rw [List.flatten_append, rank.tiles, List.flatten_singleton, List.length_append,
      List.range_eq_range', List.range_eq_range', hsplit]

/-- What `build_dp_schedule` returns. -/
structure DpSchedule (dpSize : Nat) where
  ranks : Fin dpSize → RankSchedule
  numMicrobatches : List Nat
  numRollouts : List Nat

variable (args : ScheduleArgs) (config : ParallelConfig)

/-- `rollout_id_to_sample_index.values()`. -/
def rolloutGroups (rolloutIndices : List Int) : List (List Nat) :=
  (groupItems Prod.fst rolloutIndices.zipIdx []).map fun group => group.2.map Prod.snd

/-- `num_rollouts`. -/
def planRollouts (groups : List (List Nat)) (globalBatchSize : Nat) :
    Except PyError (List Nat) := do
  check (globalBatchSize ≠ 0) zeroFloorDivision
  let numFullSteps := groups.length / globalBatchSize
  check (1 ≤ numFullSteps)
    (assertionError (s!"total rollouts ({groups.length}) < global_batch_size " ++
      s!"({globalBatchSize}); need at least one rollout per step."))
  let leftover := groups.length - numFullSteps * globalBatchSize
  let leftoverSamples := ((pyFrom groups (-leftover)).map List.length).sum
  if leftover ≠ 0 ∧ args.allowPartialTrainStep ∧ args.useDynamicBatchSize ∧
      config.dpSize ≤ leftoverSamples then
    .ok (List.replicate numFullSteps globalBatchSize ++ [leftover])
  else .ok (List.replicate numFullSteps globalBatchSize)

/-- `max_per_bin`, which nothing reads on the static path. -/
def maxPerBin : Except PyError Nat :=
  if args.useDynamicBatchSize then
    match args.maxTokensPerGpu with
    | none => .error (assertionError "")
    | some tokens => .ok (tokens * config.cpSize)
  else .ok 0

/-- `micro_batch_count`. -/
def microBatchCount (cap : Nat) (stepLengths : List Nat) : Nat :=
  max 1 ((stepLengths.sum + cap - 1) / cap)

/-- `step_micro_batches` before it is grown. -/
def packStep (cap : Nat) (stepLengths : List Nat) : Except PyError (List (List Nat)) :=
  if args.balanceByFlops then do
    check (cap ≠ 0) zeroFloorDivision
    if stepLengths.length ≤ microBatchCount cap stepLengths then
      .ok ((List.range stepLengths.length).map fun i => [i])
    else
      getSeqlenBalancedPartitions (stepLengths.map args.calculateFwdFlops)
        (microBatchCount cap stepLengths) false
  else .ok (firstFitDecreasingPack stepLengths cap)

/-- `max((n + align_to - 1) // align_to * align_to, align_to)`. -/
def alignUp (alignTo n : Nat) : Nat := max ((n + alignTo - 1) / alignTo * alignTo) alignTo

/-- The dynamic path. -/
def dynamicMicroBatches (cap step : Nat) (stepLengths : List Nat) :
    Except PyError (List (List Nat)) := do
  let packed ← packStep args cap stepLengths
  let target := alignUp config.alignTo packed.length
  if target ≠ packed.length then do
    let expanded := expandBinsBySplitting stepLengths target packed
    check (expanded.length = target)
      (assertionError (s!"dynamic path: could only produce {expanded.length} micro-batches " ++
        s!"after maximal splitting; need {target}. step {step} has {stepLengths.length} " ++
        s!"samples, below the alignment threshold ({config.alignTo})."))
    .ok expanded
  else .ok packed

/-- The static path. -/
def staticMicroBatches (stepLengths : List Nat) : Except PyError (List (List Nat)) :=
  match args.microBatchSize with
  | none => .error (assertionError "")
  | some size => do
      check (size ≠ 0) (valueError "range() arg 3 must not be zero")
      let n := stepLengths.length
      let chunks := (List.range ((n + size - 1) / size)).map fun j =>
        microbatch size j (List.range n)
      check (chunks.length % config.alignTo = 0)
        (assertionError (s!"static path: micro-batch count ({chunks.length}) is not a " ++
          s!"multiple of dp_size * mb_group ({config.alignTo}); got step_size={n}, " ++
          s!"micro_batch_size={size}, dp_size={config.dpSize}, mb_group={config.group}. " ++
          "Splitting static micro-batches would break the fixed-size invariant; adjust the " ++
          "config so step_size % (dp_size * micro_batch_size * mb_group) == 0."))
      .ok chunks

/-- `step_micro_batches`. -/
def stepMicroBatches (cap step : Nat) (stepLengths : List Nat) :
    Except PyError (List (List Nat)) :=
  if args.useDynamicBatchSize then dynamicMicroBatches args config cap step stepLengths
  else staticMicroBatches args config stepLengths

/-- `list(range(start, stop, step))`. -/
def strided (start stop step : Nat) : List Nat :=
  (List.range ((stop - start + step - 1) / step)).map fun j => start + step * j

/-- `rank_micro_batch_ids`. -/
def rankMicroBatchIds (stepLengths : List Nat) (microBatches : List (List Nat)) :
    Except PyError (List (List Nat)) :=
  if args.balanceData ∨ args.balanceByFlops then
    let costs := if args.balanceByFlops then stepLengths.map args.calculateFwdFlops else stepLengths
    getSeqlenBalancedPartitions (microBatches.map (tokensOf costs)) config.dpSize true
  else .ok ((List.range config.dpSize).map fun rank =>
    strided rank microBatches.length config.dpSize)

variable {config}

/-- The two nested loops over the ranks and their micro-batches. -/
def DpSchedule.deal (schedule : DpSchedule config.dpSize) (sampleIndices : List Nat)
    (microBatches ids : List (List Nat)) : DpSchedule config.dpSize where
  ranks rank := (ids.getD rank []).foldl (fun known k =>
    known.extend ((microBatches.getD k []).map fun i => sampleIndices.getD i 0))
      (schedule.ranks rank)
  numMicrobatches := schedule.numMicrobatches ++ [microBatches.length / config.dpSize]
  numRollouts := schedule.numRollouts

variable (config)

/-- The body of the loop over the steps. -/
def scheduleStep (cap : Nat) (totalLengths : List Nat) (step stepNumRollouts : Nat)
    (sampleIndices : List Nat) (schedule : DpSchedule config.dpSize) :
    Except PyError (DpSchedule config.dpSize) := do
  let stepLengths := sampleIndices.map fun i => totalLengths.getD i 0
  check (config.dpSize ≤ sampleIndices.length)
    (assertionError (s!"step of {stepNumRollouts} rollouts has {sampleIndices.length} " ++
      s!"samples < dp_size {config.dpSize}; each step needs at least one sample per rank."))
  let microBatches ← stepMicroBatches args config cap step stepLengths
  let ids ← rankMicroBatchIds args config stepLengths microBatches
  .ok (schedule.deal sampleIndices microBatches ids)

/-- The loop over the steps. `groups` are the rollouts from `step_start` on. -/
def scheduleSteps (cap : Nat) (totalLengths : List Nat) :
    Nat → List Nat → List (List Nat) → DpSchedule config.dpSize →
      Except PyError (DpSchedule config.dpSize)
  | _, [], _, schedule => .ok schedule
  | step, stepNumRollouts :: counts, groups, schedule => do
      let schedule ← scheduleStep args config cap totalLengths step stepNumRollouts
        (groups.take stepNumRollouts).flatten schedule
      scheduleSteps cap totalLengths (step + 1) counts (groups.drop stepNumRollouts) schedule

/-- `build_dp_schedule`. -/
def buildDpSchedule (totalLengths : List Nat) (globalBatchSize : Nat) (rolloutIndices : List Int) :
    Except PyError (DpSchedule config.dpSize) := do
  let cap ← maxPerBin args config
  let groups := rolloutGroups rolloutIndices
  let numRollouts ← planRollouts args config groups globalBatchSize
  scheduleSteps args config cap totalLengths 0 numRollouts groups
    ⟨fun _ => .empty, [], numRollouts⟩

end Crisp.Ref
