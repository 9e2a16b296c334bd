import Crisp.Proofs.ContextParallel
import Crisp.Proofs.SampleMean
import Crisp.Proofs.TrainShards
import Crisp.Ref.LossFunction
import Mathlib.Algebra.BigOperators.Fin
import Mathlib.Algebra.Field.Rat
import Mathlib.Algebra.Order.Ring.Cast
import Mathlib.Algebra.Order.Ring.Rat
import Mathlib.Tactic.FieldSimp

/-!
# One mean per rollout

A row is divided by the tokens of its rollout, wherever it went, so the rows of a rollout
add up to the rollout's mean. `loss_function` multiplies by the micro-batches of the step
and by the workers, which is what Megatron's averages divide by, and what is left over the
workers is every row of the step once: its parts over the context-parallel ranks add up to
the row, and the data-parallel ranks share out the rows.
-/

namespace Crisp.Proofs

open Crisp.Lib Crisp.Ref

variable {V K : Type}

/-! ## The rows of a batch -/

section Rows

variable [Field K]

/-- A row as a response to be averaged. -/
def rowResponse (data : RolloutColumns V) (layout : QkvLayout) (i : Nat) : RolloutResponse K where
  layout := layout
  totalLength := (data.tokens.getD i []).length
  responseLength := data.responseLengths.getD i 0
  lossMask := data.lossMasks.getD i []
  denominator := (data.rolloutMaskSums.getD i 0 : Nat)

/-- A row with its values. -/
def valuedRow (data : RolloutColumns V) (layout : QkvLayout) (values : Nat → List K) (i : Nat) :
    RolloutResponse K × List K :=
  (rowResponse data layout i, values i)

theorem selectRows_eq_some {α : Type} {vals ws : List α} {indices : List Nat} (d : α)
    (h : selectRows vals indices = some ws) : ws = indices.map fun i => vals.getD i d := by
  have hmap := congrArg (List.map fun w : Option α => w.getD d) (option_mapM_eq_some.mp h)
  rw [List.map_map, List.map_map] at hmap
  have hid : (fun w : Option α => w.getD d) ∘ some = id := rfl
  rw [hid, List.map_id] at hmap
  rw [← hmap]
  refine List.map_congr_left fun i _ => ?_
  rw [List.getD_eq_getElem?_getD]
  rfl

theorem batchResponses_rows {data batch : RolloutColumns V} {samples : List Nat}
    (layout : QkvLayout) (hbatch : rowsOf (shippedColumns data) samples = some batch) :
    batchResponses layout batch = samples.map (rowResponse (K := K) data layout) := by
  simp only [rowsOf, RolloutColumns.mapColumns, Option.bind_eq_bind,
    Option.bind_eq_some_iff] at hbatch
  obtain ⟨_, -, totals, htotals, responses, hresponses, masks, hmasks, _, -, sums, hsums, _, -,
    h⟩ := hbatch
  obtain rfl := Option.some.inj h
  have htotals := selectRows_eq_some 0 htotals
  have hresponses := selectRows_eq_some 0 hresponses
  have hmasks := selectRows_eq_some [] hmasks
  have hsums := selectRows_eq_some 0 hsums
  simp only [batchResponses, htotals, hresponses, hmasks, hsums, shippedColumns, List.zip_map',
    List.map_map]
  refine List.map_congr_left fun i _ => ?_
  simp only [Function.comp_apply, rowResponse, List.getD_eq_getElem?_getD, List.getElem?_map]
  cases data.tokens[i]? with
  | none => rfl
  | some tokens => rfl

end Rows

/-! ## One micro-batch -/

section MicroBatch

variable {cpRank cpSize : Nat}

/-- What a context-parallel rank holds of a row's values. -/
def valuePart (cpRank cpSize : Nat) (row : RolloutResponse K × List K) : List K :=
  if cpSize = 1 then row.2 else valueShare cpRank cpSize row

theorem sliceLogProbWithCp_part (row : RolloutResponse K × List K)
    (hfits : FitsResponse row.1 row.2) (hrank : cpRank < cpSize) :
    sliceLogProbWithCp row.1.layout row.1.totalLength row.1.responseLength cpRank cpSize row.2 =
      .ok (valuePart cpRank cpSize row) := by
  unfold valuePart
  by_cases hone : cpSize = 1
  · rw [if_pos hone, sliceLogProbWithCp, check_of hfits.values, except_ok_bind, if_pos hone]
  · rw [if_neg hone, sliceLogProbWithCp_eq hfits.covers hrank hone hfits.values]
    rfl

variable [Field K] [LinearOrder K]

/-- What a context-parallel rank adds for a row. -/
def partMean (cpRank cpSize : Nat) (row : RolloutResponse K × List K) : K :=
  weighResponse false row.1
    (maskedTokenSum (valuePart cpRank cpSize row) (localLossMask cpRank cpSize row.1))

theorem getSumOfSampleMean_parts {rows : List (RolloutResponse K × List K)}
    (hrows : ∀ row ∈ rows, FitsResponse row.1 row.2) (hrank : cpRank < cpSize) :
    getSumOfSampleMean false cpRank cpSize (rows.map Prod.fst)
        (rows.map (valuePart cpRank cpSize)).flatten = (rows.map (partMean cpRank cpSize)).sum := by
  by_cases hone : cpSize = 1
  · subst hone
    obtain rfl : cpRank = 0 := by omega
    exact getSumOfSampleMean_whole hrows
  · have hparts : ∀ row : RolloutResponse K × List K,
        valuePart cpRank cpSize row = valueShare cpRank cpSize row := fun row => if_neg hone
    have hmeans : ∀ row : RolloutResponse K × List K, partMean cpRank cpSize row =
        weighResponse false row.1 (maskedTokenSum (valueShare cpRank cpSize row)
          (localLossMask cpRank cpSize row.1)) := fun row => by rw [partMean, hparts]
    rw [List.map_congr_left fun row _ => hparts row, List.map_congr_left fun row _ => hmeans row]
    exact getSumOfSampleMean_shares hrows hrank (by omega)

theorem sum_partMean (row : RolloutResponse K × List K) (hfits : FitsResponse row.1 row.2)
    (hsize : 0 < cpSize) :
    (∑ cpRank ∈ Finset.range cpSize, partMean cpRank cpSize row) =
      weighResponse false row.1 (maskedTokenSum row.2 row.1.lossMask) := by
  by_cases hone : cpSize = 1
  · subst hone
    rw [Finset.sum_range_one]
    rfl
  · have hparts : ∀ r, valuePart r cpSize row = valueShare r cpSize row := fun r => if_neg hone
    simp only [partMean, hparts]
    rw [sum_weighResponse, sum_maskedTokenSum hfits (by omega)]

end MicroBatch

/-! ## The denominators -/

section Denominators

/-- The tokens that count in one row. -/
def maskSum (data : RolloutColumns V) (i : Nat) : Nat := (data.lossMasks.getD i []).sum

theorem foldl_totals (rows : List (Int × List Nat)) (rid : Int) : ∀ totals : Int → Nat,
    rows.foldl (fun totals row => Function.update totals row.1 (totals row.1 + row.2.sum)) totals
      rid = totals rid + ((rows.filter fun row => row.1 = rid).map fun row => row.2.sum).sum := by
  induction rows with
  | nil => simp
  | cons row rows ih =>
      intro totals
      rw [List.foldl_cons, ih]
      by_cases hrow : row.1 = rid
      · rw [List.filter_cons_of_pos (by simpa using hrow), hrow, Function.update_self,
          List.map_cons, List.sum_cons, Nat.add_assoc]
      · rw [List.filter_cons_of_neg (by simpa using hrow), Function.update_of_ne (Ne.symm hrow)]

theorem group_perm {rolloutIds : List Int} {group : List Nat} {i : Nat}
    (hgroup : group ∈ rolloutGroups rolloutIds) (hi : i ∈ group) :
    group.Perm ((List.range rolloutIds.length).filter fun j =>
      rolloutIds.getD j 0 = rolloutIds.getD i 0) := by
  have hflat := rolloutGroups_perm rolloutIds
  have hnodup := hflat.nodup_iff.mpr List.nodup_range
  have hlt : ∀ j ∈ group, j < rolloutIds.length := fun j hj =>
    List.mem_range.mp (hflat.mem_iff.mp (List.mem_flatten.mpr ⟨group, hgroup, hj⟩))
  refine (List.perm_ext_iff_of_nodup ((List.nodup_flatten.mp hnodup).1 group hgroup)
    (List.nodup_range.filter _)).mpr fun j => ?_
  rw [List.mem_filter, List.mem_range, decide_eq_true_iff]
  refine ⟨fun hj => ⟨hlt j hj, ?_⟩, fun hj => ?_⟩
  · have hsame := rolloutGroups_same hgroup hi hj
    rw [List.getD_eq_getElem?_getD, List.getD_eq_getElem?_getD, hsame]
  · refine rolloutGroups_together hgroup hi hj.1 ?_
    have hid := hj.2
    simp only [List.getD_eq_getElem?_getD, List.getElem?_eq_getElem hj.1,
      List.getElem?_eq_getElem (hlt i hi), Option.getD_some] at hid
    rw [List.getElem?_eq_getElem hj.1, List.getElem?_eq_getElem (hlt i hi), hid]

/-- Every sample of a rollout brings the tokens that count over all of the rollout. -/
theorem computeRolloutMaskSums_getD {data : RolloutColumns V} {n i : Nat} {group : List Nat}
    (hdata : Rectangular n data)
    (hsums : data.rolloutMaskSums = computeRolloutMaskSums data.rolloutIds data.lossMasks)
    (hgroup : group ∈ rolloutGroups data.rolloutIds) (hi : i ∈ group) :
    data.rolloutMaskSums.getD i 0 = (group.map (maskSum data)).sum := by
  have hperm := group_perm hgroup hi
  have hlt : i < data.rolloutIds.length := by
    have hmem := hperm.mem_iff.mp hi
    exact List.mem_range.mp (List.mem_of_mem_filter hmem)
  have hrows : data.rolloutIds.zip data.lossMasks = (List.range data.rolloutIds.length).map fun j =>
      (data.rolloutIds.getD j 0, data.lossMasks.getD j []) := by
    have hlength : data.lossMasks.length = data.rolloutIds.length := by
      rw [hdata.lossMasks, hdata.rolloutIds]
    refine List.ext_getElem (by simp [hlength]) fun j hj _ => ?_
    rw [List.length_zip, hlength, Nat.min_self] at hj
    simp [List.getD_eq_getElem?_getD, List.getElem?_eq_getElem hj,
      List.getElem?_eq_getElem (hlength ▸ hj)]
  have hget : data.rolloutMaskSums.getD i 0 = ((data.rolloutIds.zip data.lossMasks).foldl
      (fun totals row => Function.update totals row.1 (totals row.1 + row.2.sum)) (fun _ => 0))
        (data.rolloutIds.getD i 0) := by
    rw [hsums, computeRolloutMaskSums]
    simp [List.getD_eq_getElem?_getD, List.getElem?_eq_getElem hlt]
  rw [hget, foldl_totals, Nat.zero_add, hrows, List.filter_map, List.map_map,
    (hperm.map (maskSum data)).sum_eq]
  rfl

end Denominators

/-! ## A step -/

section Step

/-- The rollouts of a step. -/
def stepGroups (rolloutIds : List Int) (counts : List Nat) (step : Nat) : List (List Nat) :=
  ((rolloutGroups rolloutIds).drop (segmentOffset counts step)).take (counts.getD step 0)

theorem stepSamples_getElem? {counts : List Nat} : ∀ {groups : List (List Nat)} {step : Nat},
    step < counts.length → (stepSamples counts groups)[step]? =
      some ((groups.drop (segmentOffset counts step)).take (counts.getD step 0)).flatten := by
  induction counts with
  | nil =>
      intro groups step h
      exact absurd h (Nat.not_lt_zero step)
  | cons count counts ih =>
      intro groups step h
      cases step with
      | zero => simp [stepSamples]
      | succ step =>
          rw [stepSamples, List.getElem?_cons_succ, ih (Nat.lt_of_succ_lt_succ h),
            segmentOffset_cons_succ, List.drop_drop, List.getD_cons_succ]

variable [Field K]

theorem sum_map_flatten {α : Type} (f : α → K) (blocks : List (List α)) :
    (blocks.flatten.map f).sum = (blocks.map fun block => (block.map f).sum).sum := by
  induction blocks with
  | nil => simp
  | cons block blocks ih =>
      rw [List.flatten_cons, List.map_append, List.sum_append, ih, List.map_cons, List.sum_cons]

theorem sum_map_div {α : Type} (f : α → K) (d : K) (xs : List α) :
    (xs.map fun x => f x / d).sum = (xs.map f).sum / d := by
  induction xs with
  | nil => simp
  | cons x xs ih => rw [List.map_cons, List.sum_cons, ih, List.map_cons, List.sum_cons, add_div]

variable [LinearOrder K]

/-- The token-weighted mean over all rows of one rollout. -/
def rolloutMean (data : RolloutColumns V) (values : Nat → List K) (group : List Nat) : K :=
  (group.map fun i => maskedTokenSum (values i) (data.lossMasks.getD i [])).sum /
    max (((group.map (maskSum data)).sum : Nat) : K) 1

/-- What a row counts for. -/
def rowMean (data : RolloutColumns V) (values : Nat → List K) (i : Nat) : K :=
  maskedTokenSum (values i) (data.lossMasks.getD i []) /
    max ((data.rolloutMaskSums.getD i 0 : Nat) : K) 1

/-- The rows of a rollout add up to its mean. -/
theorem sum_rowMean {data : RolloutColumns V} {values : Nat → List K} {n : Nat}
    {group : List Nat} (hdata : Rectangular n data)
    (hsums : data.rolloutMaskSums = computeRolloutMaskSums data.rolloutIds data.lossMasks)
    (hgroup : group ∈ rolloutGroups data.rolloutIds) :
    (group.map (rowMean data values)).sum = rolloutMean data values group := by
  rw [rolloutMean, ← sum_map_div]
  congr 1
  refine List.map_congr_left fun i hi => ?_
  rw [rowMean, computeRolloutMaskSums_getD hdata hsums hgroup hi]

end Step

/-! ## The workers -/

section Workers

variable [Field K] {config : ParallelConfig}

theorem mapM_of_mapM {α β γ δ : Type} {f : α → Option β} {k : β → Except PyError γ} {l : γ → δ}
    {g : α → δ} {xs : List α} {ys : List β} (h : xs.mapM f = some ys)
    (hk : ∀ x ∈ xs, ∀ y, f x = some y → ∃ z, k y = .ok z ∧ l z = g x) :
    ∃ zs, ys.mapM k = .ok zs ∧ zs.map l = xs.map g := by
  induction xs generalizing ys with
  | nil =>
      rw [← Option.some.inj h]
      exact ⟨[], rfl, rfl⟩
  | cons x xs ih =>
      obtain ⟨hx, hxs⟩ := List.forall_mem_cons.mp hk
      simp only [List.mapM_cons, Option.bind_eq_bind, Option.bind_eq_some_iff, Option.pure_def,
        Option.some.injEq] at h
      obtain ⟨y, hy, ys, hys, rfl⟩ := h
      obtain ⟨z, hz, hl⟩ := hx y hy
      obtain ⟨zs, hzs, hls⟩ := ih hys hxs
      refine ⟨z :: zs, ?_, ?_⟩
      · rw [List.mapM_cons, hz, except_ok_bind, hzs]
        rfl
      · rw [List.map_cons, List.map_cons, hl, hls]

theorem allWorkers_length : (allWorkers config).length = config.dpSize * config.cpSize := by
  rw [allWorkers, List.length_product, List.length_finRange, List.length_range]

theorem mem_allWorkers {worker : Fin config.dpSize × Nat} :
    worker ∈ allWorkers config ↔ worker.2 < config.cpSize := by
  rw [allWorkers, List.mem_product, List.mem_range]
  exact and_iff_right (List.mem_finRange worker.1)

theorem sum_allWorkers (f : Fin config.dpSize × Nat → K) :
    ((allWorkers config).map f).sum =
      ∑ rank, ∑ cpRank ∈ Finset.range config.cpSize, f (rank, cpRank) := by
  rw [Fin.sum_univ_def]
  change ((List.flatMap _ _).map f).sum = _
  rw [List.flatMap_def, sum_map_flatten, List.map_map]
  refine congrArg List.sum (List.map_congr_left fun rank _ => ?_)
  rw [Function.comp_apply, List.map_map]
  rfl

/-- The losses are means, and every context-parallel rank has a part of a row. -/
structure AveragesLosses (workers : TrainWorkers config V K) : Prop where
  mean : workers.args.calculatePerTokenLoss = false
  client : workers.args.multiLora = false
  parts : ∀ cpRank, (workers.args.trueOnPolicyMode && (workers.state cpRank).isUlyssesCp) = false
  cp_pos : 0 < config.cpSize

/-- What a worker reduces of a batch is its part of the rows' values. -/
def ReducesParts (workers : TrainWorkers config V K) (data : RolloutColumns V)
    (values : Nat → List K) : Prop :=
  ∀ rank, ∀ cpRank < config.cpSize, ∀ samples batch parts,
    rowsOf (shippedColumns data) samples = some batch →
    (samples.mapM fun i => sliceLogProbWithCp (workers.layout rank) (data.tokens.getD i []).length
      (data.responseLengths.getD i 0) cpRank config.cpSize (values i)) = .ok parts →
    ∀ reduce, (workers.func rank cpRank batch reduce).1 = reduce parts.flatten

theorem rescaleLoss_averages {workers : TrainWorkers config V K}
    (haverages : AveragesLosses workers) (cpRank numMicrobatches numRollouts : Nat) (loss : K) :
    rescaleLoss workers.args (workers.state cpRank) true numMicrobatches numRollouts loss =
      loss * numMicrobatches / numRollouts * (config.dpSize * config.cpSize : Nat) := by
  rw [rescaleLoss, haverages.mean, haverages.parts]
  rfl

/-- What is left of a worker's losses in the average: their own sum, over the rollouts. -/
theorem averagedLoss_rescaled [CharZero K] {ι β : Type} {workers : List ι} {batches : ι → List β}
    {f : ι → β → K} {numMicrobatches numRollouts numWorkers : Nat} (hpos : 0 < numWorkers)
    (hworkers : workers.length = numWorkers)
    (hbatches : ∀ worker ∈ workers, (batches worker).length = numMicrobatches) :
    averagedLoss (workers.map fun worker => (batches worker).map fun batch =>
        f worker batch * numMicrobatches / numRollouts * numWorkers) =
      (workers.map fun worker => ((batches worker).map (f worker)).sum).sum / numRollouts := by
  have hne : (numWorkers : K) ≠ 0 := Nat.cast_ne_zero.mpr hpos.ne'
  have hmean : ∀ worker ∈ workers, mean ((batches worker).map fun batch =>
      f worker batch * numMicrobatches / numRollouts * (numWorkers : K)) =
        ((batches worker).map (f worker)).sum / numRollouts * numWorkers := by
    intro worker hworker
    have hlength := hbatches worker hworker
    rw [mean_of_sum ((List.length_map _).trans hlength), List.sum_map_mul_right, sum_map_div,
      List.sum_map_mul_right]
    cases numMicrobatches with
    | zero =>
        rw [List.length_eq_zero_iff.mp hlength]
        simp
    | succ m =>
        have hm : ((m + 1 : Nat) : K) ≠ 0 := Nat.cast_ne_zero.mpr m.succ_ne_zero
        field_simp
  rw [averagedLoss, List.map_map, mean_of_sum ((List.length_map _).trans hworkers)]
  simp only [Function.comp_def]
  rw [List.map_congr_left hmean, List.sum_map_mul_right, sum_map_div, mul_div_cancel_right₀ _ hne]

variable [LinearOrder K]

/-- What a worker's loss of a micro-batch comes to. -/
def workerLoss (workers : TrainWorkers config V K) (data : RolloutColumns V)
    (values : Nat → List K) (numMicrobatches numRollouts : Nat)
    (worker : Fin config.dpSize × Nat) (samples : List Nat) : K :=
  (samples.map fun i => partMean worker.2 config.cpSize
    (valuedRow data (workers.layout worker.1) values i)).sum * numMicrobatches / numRollouts *
      (config.dpSize * config.cpSize : Nat)

/-- One micro-batch of one worker. -/
theorem forwardStep_eq {workers : TrainWorkers config V K} {data batch : RolloutColumns V}
    {values : Nat → List K} {samples : List Nat} {worker : Fin config.dpSize × Nat}
    (numMicrobatches numRollouts : Nat) (haverages : AveragesLosses workers)
    (hreduces : ReducesParts workers data values) (hworker : worker ∈ allWorkers config)
    (hfits : ∀ i ∈ samples,
      FitsResponse (K := K) (rowResponse data (workers.layout worker.1) i) (values i))
    (hbatch : rowsOf (shippedColumns data) samples = some batch) :
    ∃ output, workers.forwardStep numMicrobatches numRollouts worker batch = .ok output ∧
      (output.loss, output.normalizer) =
        (workerLoss workers data values numMicrobatches numRollouts worker samples, 1) := by
  have hrank := mem_allWorkers.mp hworker
  have hparts : (samples.mapM fun i => sliceLogProbWithCp (workers.layout worker.1)
      (data.tokens.getD i []).length (data.responseLengths.getD i 0) worker.2 config.cpSize
        (values i)) = .ok (samples.map fun i => valuePart worker.2 config.cpSize
          (valuedRow data (workers.layout worker.1) values i)) :=
    except_mapM_eq_ok fun i hi => sliceLogProbWithCp_part
      (valuedRow data (workers.layout worker.1) values i) (hfits i hi) hrank
  have hloss := hreduces worker.1 worker.2 hrank samples batch _ hbatch hparts
  have hsum := @getSumOfSampleMean_parts K worker.2 config.cpSize _ _
    (samples.map (valuedRow data (workers.layout worker.1) values)) (by
      intro row hrow
      obtain ⟨i, hi, rfl⟩ := List.mem_map.mp hrow
      exact hfits i hi) hrank
  rw [List.map_map, List.map_map, List.map_map] at hsum
  refine ⟨_, rfl, ?_⟩
  simp only [haverages.mean, haverages.client, Bool.false_eq_true, if_false]
  rw [Prod.mk.injEq]
  refine ⟨?_, rfl⟩
  rw [rescaleLoss_averages haverages, hloss, batchResponses_rows _ hbatch]
  exact congrArg (fun s : K => s * numMicrobatches / numRollouts *
    (config.dpSize * config.cpSize : Nat)) hsum

variable {data : RolloutColumns V} {schedule : DpSchedule config.dpSize} {values : Nat → List K}

omit [Field K] [LinearOrder K] in
theorem scheduledShard_partition {rank : Fin config.dpSize} {shard : RolloutShard V}
    (h : scheduledShard data schedule rank = some shard) :
    shard.partition = (schedule.ranks rank).partition := by
  simp only [scheduledShard, packageShard, Option.bind_eq_bind, Option.bind_eq_some_iff] at h
  obtain ⟨_, ⟨_, -, h₁⟩, h₂⟩ := h
  obtain rfl := Option.some.inj h₁
  obtain rfl := Option.some.inj h₂
  rfl

omit [Field K] [LinearOrder K] in
theorem shard_partition_lt {args : ScheduleArgs} {globalBatchSize n : Nat}
    {shards : Fin config.dpSize → Option (RolloutShard V)} (hdata : Rectangular n data)
    (hpos : ∀ tokens ∈ data.tokens, tokens ≠ [])
    (h : splitTrainDataByDpScheduledRaw args config globalBatchSize data = .ok shards)
    {rank : Fin config.dpSize} {shard : RolloutShard V} (hshard : shards rank = some shard) :
    ∀ i ∈ shard.partition, i < n := by
  obtain ⟨schedule, hschedule, rfl⟩ := splitTrainDataByDpScheduledRaw_eq_ok h
  rw [scheduledShard_partition hshard, ← hdata.rolloutIds]
  exact (scheduled_dealt hdata hpos hschedule).partition_lt rank

omit [Field K] [LinearOrder K] in
/-- What a rank reads in a step. -/
theorem reads_step {rank : Fin config.dpSize} {reads : List (List (RolloutColumns V))} {step : Nat}
    (hreads : ((List.range schedule.numRollouts.length).mapM fun step =>
      (stepBatches schedule step rank).mapM (rowsOf (shippedColumns data))) = some reads)
    (hstep : step < schedule.numRollouts.length) :
    (stepBatches schedule step rank).mapM (rowsOf (shippedColumns data)) =
      some (reads.getD step []) := by
  have hget := congrArg (·[step]?) (option_mapM_eq_some.mp hreads)
  simp only [List.getElem?_map, List.getElem?_range hstep, Option.map_some] at hget
  cases hsome : reads[step]? with
  | none => rw [hsome] at hget; cases hget
  | some batches =>
      rw [hsome, Option.map_some, Option.some.injEq] at hget
      rw [hget, List.getD_eq_getElem?_getD, hsome, Option.getD_some]

/-- What the workers hold of the rows of a step is every row of its rollouts. -/
theorem sum_partMean_workers {args : ScheduleArgs} {globalBatchSize n step : Nat}
    (layout : Fin config.dpSize → QkvLayout) (hcp : 0 < config.cpSize)
    (hdata : Rectangular n data)
    (hsums : data.rolloutMaskSums = computeRolloutMaskSums data.rolloutIds data.lossMasks)
    (hdealt : DealtSchedule args config (data.tokens.map List.length) globalBatchSize
      data.rolloutIds schedule)
    (hfits : ∀ rank, ∀ i ∈ (schedule.ranks rank).partition,
      FitsResponse (K := K) (rowResponse data (layout rank) i) (values i))
    (hstep : step < schedule.numRollouts.length) :
    ((allWorkers config).map fun worker => ((stepBatches schedule step worker.1).map fun samples =>
        (samples.map fun i => partMean worker.2 config.cpSize
          (valuedRow data (layout worker.1) values i)).sum).sum).sum =
      ((stepGroups data.rolloutIds schedule.numRollouts step).map
        (rolloutMean data values)).sum := by
  have hranks : ∀ rank, (∑ cpRank ∈ Finset.range config.cpSize,
      ((stepBatches schedule step rank).map fun samples => (samples.map fun i =>
        partMean cpRank config.cpSize (valuedRow data (layout rank) values i)).sum).sum) =
          ((stepBatches schedule step rank).flatten.map (rowMean data values)).sum := by
    intro rank
    rw [sum_map_flatten]
    refine sum_rows _ _ _ fun samples hsamples => sum_rows _ _ _ fun i hi => ?_
    exact sum_partMean (valuedRow data (layout rank) values i)
      (hfits rank i (mem_stepBatches hsamples hi)) hcp
  have hsamples := (hdealt.dealt step _ (stepSamples_getElem? hstep)).perm
  calc _ = ∑ rank, ((stepBatches schedule step rank).flatten.map (rowMean data values)).sum := by
        rw [sum_allWorkers]
        exact Finset.sum_congr rfl fun rank _ => hranks rank
    _ = (((List.finRange config.dpSize).flatMap fun rank =>
          (stepBatches schedule step rank).flatten).map (rowMean data values)).sum := by
        rw [Fin.sum_univ_def, List.flatMap_def, sum_map_flatten, List.map_map]
        rfl
    _ = ((stepGroups data.rolloutIds schedule.numRollouts step).flatten.map
          (rowMean data values)).sum := by
        rw [(hsamples.map (rowMean data values)).sum_eq]
        rfl
    _ = ((stepGroups data.rolloutIds schedule.numRollouts step).map
          (rolloutMean data values)).sum := by
        rw [sum_map_flatten]
        refine congrArg List.sum (List.map_congr_left fun group hgroup => ?_)
        exact sum_rowMean hdata hsums (List.mem_of_mem_drop (List.mem_of_mem_take hgroup))

theorem stepGroups_length {args : ScheduleArgs} {globalBatchSize step count : Nat}
    {totalLengths : List Nat} {rolloutIds : List Int}
    (hdealt : DealtSchedule args config totalLengths globalBatchSize rolloutIds schedule)
    (hcount : schedule.numRollouts[step]? = some count) :
    (stepGroups rolloutIds schedule.numRollouts step).length = count := by
  obtain ⟨hstep, hget⟩ := List.getElem?_eq_some_iff.mp hcount
  have hle := segmentOffset_add_le hstep
  have hgroups := hdealt.planned.le
  rw [hget] at hle
  rw [stepGroups, List.length_take, List.length_drop, List.getD_eq_getElem?_getD, hcount,
    Option.getD_some]
  omega

theorem stepBatches_length {args : ScheduleArgs} {globalBatchSize step numMicrobatches : Nat}
    {totalLengths : List Nat} {rolloutIds : List Int}
    (hdealt : DealtSchedule args config totalLengths globalBatchSize rolloutIds schedule)
    (hmicro : schedule.numMicrobatches[step]? = some numMicrobatches)
    (rank : Fin config.dpSize) : (stepBatches schedule step rank).length = numMicrobatches := by
  obtain ⟨hstep, hget⟩ := List.getElem?_eq_some_iff.mp hmicro
  have hle := segmentOffset_add_le hstep
  have hcounted := hdealt.counted rank
  rw [hget] at hle
  rw [stepBatches_eq_map, List.length_map, List.length_take, List.length_drop,
    List.getD_eq_getElem?_getD, hmicro, Option.getD_some]
  omega

/-- **One mean per rollout.** In every step each worker's losses are defined, and what Megatron
averages them to is the mean over the rollouts of the step, each by its tokens, whichever
ranks and micro-batches its rows went to. -/
theorem splitTrainDataByDpScheduledRaw_loss [IsStrictOrderedRing K] (args : ScheduleArgs)
    (config : ParallelConfig) (globalBatchSize n : Nat) (data : RolloutColumns V)
    (values : Nat → List K) (shards : Fin config.dpSize → Option (RolloutShard V))
    (workers : TrainWorkers config V K) (hdata : Rectangular n data)
    (hpos : ∀ tokens ∈ data.tokens, tokens ≠ [])
    (hsums : data.rolloutMaskSums = computeRolloutMaskSums data.rolloutIds data.lossMasks)
    (hfits : ∀ rank shard, shards rank = some shard → ∀ i ∈ shard.partition,
      FitsResponse (K := K) (rowResponse data (workers.layout rank) i) (values i))
    (haverages : AveragesLosses workers) (hreduces : ReducesParts workers data values)
    (h : splitTrainDataByDpScheduledRaw args config globalBatchSize data = .ok shards) :
    ∃ (schedule : DpSchedule config.dpSize)
      (reads : Fin config.dpSize → List (List (RolloutColumns V))),
      buildDpSchedule args config (data.tokens.map List.length) globalBatchSize data.rolloutIds =
        .ok schedule ∧
      (∀ rank, (shards rank).bind trainShard = some (reads rank)) ∧
      ∀ step numRollouts numMicrobatches, schedule.numRollouts[step]? = some numRollouts →
        schedule.numMicrobatches[step]? = some numMicrobatches →
        (stepGroups data.rolloutIds schedule.numRollouts step).length = numRollouts ∧
        ∃ outputs : Fin config.dpSize × Nat → List (LossOutput K),
          (∀ worker ∈ allWorkers config, ((reads worker.1).getD step []).mapM
              (workers.forwardStep numMicrobatches numRollouts worker) = .ok (outputs worker) ∧
            ∀ output ∈ outputs worker, output.normalizer = 1) ∧
          averagedLoss ((allWorkers config).map fun worker =>
              (outputs worker).map LossOutput.loss) =
            ((stepGroups data.rolloutIds schedule.numRollouts step).map
              (rolloutMean data values)).sum / numRollouts := by
  obtain ⟨schedule, hschedule, rfl⟩ := splitTrainDataByDpScheduledRaw_eq_ok h
  have hdealt := scheduled_dealt hdata hpos hschedule
  have hall := scheduledShard_reads hdata hdealt
  choose reads hread using fun rank => Option.isSome_iff_exists.mp (hall rank).1
  refine ⟨schedule, reads, hschedule, hread,
    fun step numRollouts numMicrobatches hcount hmicro => ?_⟩
  refine ⟨stepGroups_length hdealt hcount, ?_⟩
  have hstep : step < schedule.numRollouts.length := (List.getElem?_eq_some_iff.mp hcount).1
  have hfitted : ∀ rank, ∀ i ∈ (schedule.ranks rank).partition,
      FitsResponse (K := K) (rowResponse data (workers.layout rank) i) (values i) := by
    intro rank i hi
    obtain ⟨shard, hshard, -⟩ := Option.bind_eq_some_iff.mp (hread rank)
    exact hfits rank shard hshard i (scheduledShard_partition hshard ▸ hi)
  -- every worker goes through its micro-batches
  have houtputs : ∀ worker, ∃ outputs, worker ∈ allWorkers config →
      ((reads worker.1).getD step []).mapM
        (workers.forwardStep numMicrobatches numRollouts worker) = .ok outputs ∧
      outputs.map (fun output => (output.loss, output.normalizer)) =
        (stepBatches schedule step worker.1).map fun samples =>
          (workerLoss workers data values numMicrobatches numRollouts worker samples, 1) := by
    intro worker
    by_cases hworker : worker ∈ allWorkers config
    · have hbatches := reads_step ((hall worker.1).2.symm.trans (hread worker.1)) hstep
      obtain ⟨outputs, hrun, hlosses⟩ := mapM_of_mapM hbatches fun samples hsamples batch hbatch =>
        forwardStep_eq numMicrobatches numRollouts haverages hreduces hworker
          (fun i hi => hfitted worker.1 i (mem_stepBatches hsamples hi)) hbatch
      exact ⟨outputs, fun _ => ⟨hrun, hlosses⟩⟩
    · exact ⟨[], fun hmem => absurd hmem hworker⟩
  choose outputs houtputs using houtputs
  refine ⟨outputs,
    fun worker hworker => ⟨(houtputs worker hworker).1, fun output houtput => ?_⟩, ?_⟩
  · have hmem := List.mem_map_of_mem (f := fun output : LossOutput K =>
      (output.loss, output.normalizer)) houtput
    rw [(houtputs worker hworker).2] at hmem
    obtain ⟨samples, -, hsamples⟩ := List.mem_map.mp hmem
    exact (congrArg Prod.snd hsamples).symm
  · have hlosses : ∀ worker ∈ allWorkers config, (outputs worker).map LossOutput.loss =
        (stepBatches schedule step worker.1).map
          (workerLoss workers data values numMicrobatches numRollouts worker) := by
      intro worker hworker
      have hfst := congrArg (List.map Prod.fst) (houtputs worker hworker).2
      rw [List.map_map, List.map_map] at hfst
      exact hfst
    unfold workerLoss at hlosses
    rw [List.map_congr_left hlosses, averagedLoss_rescaled
      (Nat.mul_pos config.dp_pos haverages.cp_pos) allWorkers_length fun worker _ =>
        stepBatches_length hdealt hmicro worker.1]
    rw [sum_partMean_workers workers.layout haverages.cp_pos hdata hsums hdealt hfitted hstep]

end Workers

/-! ## Four rows over four workers -/

section Square

/-- Two data-parallel ranks of two context-parallel ranks. -/
def squareConfig : ParallelConfig := ⟨2, 2, none, 1, Nat.zero_lt_two, Nat.zero_lt_one⟩

/-- Two rollouts of two rows. -/
def fourRows : RolloutColumns Nat where
  tokens := [[1, 2, 3], [4, 5], [6, 7], [8, 9, 10]]
  totalLengths := [3, 2, 2, 3]
  responseLengths := [2, 1, 1, 2]
  lossMasks := [[1, 1], [1], [1], [0, 1]]
  rolloutIds := [7, 7, 8, 8]
  rolloutMaskSums := [3, 3, 2, 2]
  others := []

/-- The values of a row: its tokens past the first. -/
def tailValues (tokens : List Nat) : List ℚ := tokens.tail.map fun token => (token : ℚ)

/-- Workers that reduce their parts of these values. -/
def tailWorkers : TrainWorkers squareConfig Nat ℚ where
  args := ⟨false, false, false, false, 2⟩
  cpCommType := none
  dynamicGlobalBatchSize := none
  layout := fun _ => .thd
  func := fun _ cpRank batch reduce =>
    match (batch.tokens.zip batch.responseLengths).mapM fun row =>
        sliceLogProbWithCp .thd row.1.length row.2 cpRank 2 (tailValues row.1) with
    | .ok parts => (reduce parts.flatten, [("loss", reduce parts.flatten)])
    | .error _ => (0, [])

theorem tailWorkers_reduces :
    ReducesParts tailWorkers fourRows fun i => tailValues (fourRows.tokens.getD i []) := by
  intro rank cpRank _ samples batch parts hbatch hparts reduce
  simp only [rowsOf, RolloutColumns.mapColumns, Option.bind_eq_bind,
    Option.bind_eq_some_iff] at hbatch
  obtain ⟨tokens, htokens, _, -, responses, hresponses, _, -, _, -, _, -, _, -, h⟩ := hbatch
  obtain rfl := Option.some.inj h
  have htokens := selectRows_eq_some [] htokens
  have hresponses := selectRows_eq_some 0 hresponses
  have hrun : ((tokens.zip responses).mapM fun row =>
      sliceLogProbWithCp .thd row.1.length row.2 cpRank 2 (tailValues row.1)) = .ok parts := by
    rw [htokens, hresponses, List.zip_map', List.mapM_map]
    exact hparts
  simp only [tailWorkers, hrun]

theorem fourRows_rectangular : Rectangular 4 fourRows :=
  ⟨rfl, rfl, rfl, rfl, rfl, rfl, by simp [fourRows]⟩

theorem splitTrainDataByDpScheduledRaw_loss_four : ∃ (schedule : DpSchedule squareConfig.dpSize)
    (reads : Fin squareConfig.dpSize → List (List (RolloutColumns Nat))),
    buildDpSchedule rowEach squareConfig [3, 2, 2, 3] 2 [7, 7, 8, 8] = .ok schedule ∧
      ∀ step numRollouts numMicrobatches, schedule.numRollouts[step]? = some numRollouts →
        schedule.numMicrobatches[step]? = some numMicrobatches →
        ∃ outputs : Fin squareConfig.dpSize × Nat → List (LossOutput ℚ),
          (∀ worker ∈ allWorkers squareConfig, ((reads worker.1).getD step []).mapM
            (tailWorkers.forwardStep numMicrobatches numRollouts worker) = .ok (outputs worker)) ∧
          averagedLoss ((allWorkers squareConfig).map fun worker =>
              (outputs worker).map LossOutput.loss) =
            ((stepGroups fourRows.rolloutIds schedule.numRollouts step).map
              (rolloutMean fourRows fun i => tailValues (fourRows.tokens.getD i []))).sum /
                numRollouts := by
  have hpos : ∀ tokens ∈ fourRows.tokens, tokens ≠ [] := by simp [fourRows]
  have hfits : ∀ i < 4, FitsResponse (K := ℚ) (rowResponse fourRows .thd i)
      (tailValues (fourRows.tokens.getD i [])) := by
    intro i hi
    obtain rfl | rfl | rfl | rfl : i = 0 ∨ i = 1 ∨ i = 2 ∨ i = 3 := by omega
    all_goals exact ⟨⟨by decide, by decide⟩, rfl, rfl⟩
  have hshards : ∃ shards,
      splitTrainDataByDpScheduledRaw rowEach squareConfig 2 fourRows = .ok shards := ⟨_, rfl⟩
  obtain ⟨shards, hshards⟩ := hshards
  obtain ⟨schedule, reads, hschedule, -, hmean⟩ := splitTrainDataByDpScheduledRaw_loss rowEach
    squareConfig 2 4 fourRows (fun i => tailValues (fourRows.tokens.getD i [])) shards tailWorkers
    fourRows_rectangular hpos rfl
    (fun rank shard hshard i hi =>
      hfits i (shard_partition_lt fourRows_rectangular hpos hshards hshard i hi))
    ⟨rfl, rfl, fun _ => rfl, Nat.zero_lt_two⟩ tailWorkers_reduces hshards
  refine ⟨schedule, reads, hschedule, fun step numRollouts numMicrobatches hcount hmicro => ?_⟩
  obtain ⟨-, outputs, houtputs, haverage⟩ := hmean step numRollouts numMicrobatches hcount hmicro
  exact ⟨outputs, fun worker hworker => (houtputs worker hworker).1, haverage⟩

end Square

end Crisp.Proofs
