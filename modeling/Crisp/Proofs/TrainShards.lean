import Crisp.Proofs.DpSchedule
import Crisp.Ref.TrainShards

/-!
# The ranks train on the batch

Selecting rows twice is selecting them once, by the rows the first selection chose. So what
a rank reads through its shard, its micro-batches and its iterator are rows of the batch:
the micro-batches of the schedule, column by column, and in the steps the schedule has.
-/

namespace Crisp.Proofs

open Crisp.Lib Crisp.Ref

variable {V : Type}

/-! ## Selecting rows -/

section Rows

theorem option_mapM_eq_some {α β : Type} {f : α → Option β} {xs : List α} {ys : List β} :
    xs.mapM f = some ys ↔ xs.map f = ys.map some := by
  induction xs generalizing ys with
  | nil =>
      rw [List.mapM_nil, List.map_nil, Option.pure_def, Option.some.injEq, eq_comm,
        eq_comm (a := []), List.map_eq_nil_iff]
  | cons x xs ih =>
      simp only [List.mapM_cons, Option.bind_eq_bind, Option.bind_eq_some_iff, Option.pure_def,
        Option.some.injEq, List.map_cons]
      refine ⟨fun h => ?_, fun h => ?_⟩
      · obtain ⟨y, hy, zs, hzs, rfl⟩ := h
        rw [hy, ih.mp hzs, List.map_cons]
      · cases ys with
        | nil => cases h
        | cons y ys =>
            obtain ⟨hy, hys⟩ := List.cons.inj h
            exact ⟨y, hy, ys, ih.mpr hys, rfl⟩

theorem option_mapM_isSome {α β : Type} {f : α → Option β} {xs : List α}
    (h : ∀ x ∈ xs, (f x).isSome) : (xs.mapM f).isSome := by
  induction xs with
  | nil => rfl
  | cons x xs ih =>
      obtain ⟨hx, hxs⟩ := List.forall_mem_cons.mp h
      obtain ⟨y, hy⟩ := Option.isSome_iff_exists.mp hx
      obtain ⟨ys, hys⟩ := Option.isSome_iff_exists.mp (ih hxs)
      simp [hy, hys]

theorem option_mapM_congr {α β : Type} {f g : α → Option β} {xs : List α}
    (h : ∀ x ∈ xs, f x = g x) : xs.mapM f = xs.mapM g := by
  induction xs with
  | nil => rfl
  | cons x xs ih =>
      obtain ⟨hx, hxs⟩ := List.forall_mem_cons.mp h
      rw [List.mapM_cons, List.mapM_cons, hx, ih hxs]

variable {α : Type} {vals ws : List α} {indices rows : List Nat}

theorem selectRows_isSome (h : ∀ i ∈ indices, i < vals.length) :
    (selectRows vals indices).isSome :=
  option_mapM_isSome fun i hi => by rw [List.getElem?_eq_getElem (h i hi)]; rfl

/-- Selecting from what was selected. -/
theorem selectRows_comp (h : selectRows vals indices = some ws)
    (hrows : ∀ r ∈ rows, r < indices.length) :
    selectRows ws rows = selectRows vals (rows.map fun r => indices.getD r 0) := by
  have hmap := option_mapM_eq_some.mp h
  rw [selectRows, selectRows, List.mapM_map]
  refine option_mapM_congr fun r hr => ?_
  have hget := congrArg (·[r]?) hmap
  simp only [List.getElem?_map, List.getElem?_eq_getElem (hrows r hr), Option.map_some] at hget
  rw [Function.comp_apply, List.getD_eq_getElem?_getD, List.getElem?_eq_getElem (hrows r hr),
    Option.getD_some]
  cases hws : ws[r]? with
  | none => rw [hws] at hget; cases hget
  | some w => rw [hws, Option.map_some] at hget; exact (Option.some.inj hget).symm

end Rows

/-! ## Columns -/

section Columns

variable {columns picked : RolloutColumns V} {f g k : (α : Type) → List α → Option (List α)}

theorem mapColumns_comp (h : columns.mapColumns f = some picked)
    (hfg : ∀ (α : Type) (vals ws : List α), f α vals = some ws → g α ws = k α vals) :
    picked.mapColumns g = columns.mapColumns k := by
  have hothers : ∀ {others chosen : List (String × List V)},
      others.mapM (fun column => (f _ column.2).bind fun vals => some (column.1, vals)) =
        some chosen →
      chosen.mapM (fun column => (g _ column.2).bind fun vals => some (column.1, vals)) =
        others.mapM fun column => (k _ column.2).bind fun vals => some (column.1, vals) := by
    intro others
    induction others with
    | nil =>
        intro chosen h
        rw [← Option.some.inj h]
        rfl
    | cons column others ih =>
        intro chosen h
        simp only [List.mapM_cons, Option.bind_eq_bind, Option.bind_eq_some_iff, Option.pure_def,
          Option.some.injEq] at h
        obtain ⟨_, ⟨vals, hvals, rfl⟩, rest, hrest, rfl⟩ := h
        rw [List.mapM_cons, List.mapM_cons, ih hrest, hfg _ _ _ hvals]
  simp only [RolloutColumns.mapColumns, Option.bind_eq_bind, Option.bind_eq_some_iff] at h
  obtain ⟨tokens, htokens, totals, htotals, responses, hresponses, masks, hmasks, ids, hids, sums,
    hsums, others, hrest, h⟩ := h
  obtain rfl := Option.some.inj h
  simp only [RolloutColumns.mapColumns, Option.bind_eq_bind, hfg _ _ _ htokens, hfg _ _ _ htotals,
    hfg _ _ _ hresponses, hfg _ _ _ hmasks, hfg _ _ _ hids, hfg _ _ _ hsums, hothers hrest]

/-- Every column has `n` rows. -/
structure Rectangular (n : Nat) (columns : RolloutColumns V) : Prop where
  tokens : columns.tokens.length = n
  totalLengths : columns.totalLengths.length = n
  responseLengths : columns.responseLengths.length = n
  lossMasks : columns.lossMasks.length = n
  rolloutIds : columns.rolloutIds.length = n
  rolloutMaskSums : columns.rolloutMaskSums.length = n
  others : ∀ column ∈ columns.others, column.2.length = n

/-- The rows of `columns` at `indices`. -/
def rowsOf (columns : RolloutColumns V) (indices : List Nat) : Option (RolloutColumns V) :=
  columns.mapColumns fun _ vals => selectRows vals indices

theorem rowsOf_isSome {n : Nat} {indices : List Nat} (hcolumns : Rectangular n columns)
    (h : ∀ i ∈ indices, i < n) : (rowsOf columns indices).isSome := by
  have hselect : ∀ {α : Type} {vals : List α}, vals.length = n → ∃ ws,
      selectRows vals indices = some ws := fun hlength =>
    Option.isSome_iff_exists.mp (selectRows_isSome fun i hi => hlength ▸ h i hi)
  obtain ⟨_, htokens⟩ := hselect hcolumns.tokens
  obtain ⟨_, htotals⟩ := hselect hcolumns.totalLengths
  obtain ⟨_, hresponses⟩ := hselect hcolumns.responseLengths
  obtain ⟨_, hmasks⟩ := hselect hcolumns.lossMasks
  obtain ⟨_, hids⟩ := hselect hcolumns.rolloutIds
  obtain ⟨_, hsums⟩ := hselect hcolumns.rolloutMaskSums
  have hothers : (columns.others.mapM fun column => (selectRows column.2 indices).bind fun vals =>
      some (column.1, vals)).isSome := by
    refine option_mapM_isSome fun column hcolumn => ?_
    obtain ⟨_, hvals⟩ := hselect (hcolumns.others column hcolumn)
    rw [hvals]
    rfl
  obtain ⟨_, hothers⟩ := Option.isSome_iff_exists.mp hothers
  simp only [rowsOf, RolloutColumns.mapColumns, Option.bind_eq_bind, htokens, htotals, hresponses,
    hmasks, hids, hsums, hothers, Option.bind_some, Option.isSome_some]

theorem rowsOf_comp {indices rows : List Nat} (h : rowsOf columns indices = some picked)
    (hrows : ∀ r ∈ rows, r < indices.length) :
    rowsOf picked rows = rowsOf columns (rows.map fun r => indices.getD r 0) :=
  mapColumns_comp h fun _ _ _ hselect => selectRows_comp hselect hrows

end Columns

/-! ## What a rank reads -/

section Reads

variable {rolloutData : RolloutColumns V} {microBatchIndices : List (List Nat)}

theorem splitLengths_eq {α : Type} (lengths : List Nat) : ∀ xs : List α,
    splitLengths lengths xs = (List.range lengths.length).map fun s =>
      (xs.drop (segmentOffset lengths s)).take (lengths.getD s 0) := by
  induction lengths with
  | nil => exact fun _ => rfl
  | cons n lengths ih =>
      intro xs
      rw [splitLengths, ih, List.length_cons, List.range_succ_eq_map, List.map_cons, List.map_map]
      refine congrArg₂ List.cons (by simp) (List.map_congr_left fun s _ => ?_)
      rw [Function.comp_apply, segmentOffset_cons_succ, ← List.drop_drop, List.getD_cons_succ]

theorem takeBatches_indices (count : Nat) : ∀ offset : Nat,
    offset + count ≤ microBatchIndices.length →
      takeBatches count ⟨rolloutData, .indices microBatchIndices, offset⟩ =
        (((microBatchIndices.drop offset).take count).mapM (rowsOf rolloutData)).bind fun batches =>
          some (batches, ⟨rolloutData, .indices microBatchIndices, offset + count⟩) := by
  induction count with
  | zero => exact fun _ _ => rfl
  | succ count ih =>
      intro offset h
      have hlt : offset < microBatchIndices.length := by omega
      have hrest := ih (offset + 1) (by omega)
      rw [takeBatches, List.drop_eq_getElem_cons hlt, List.take_succ_cons, List.mapM_cons]
      simp only [DataIterator.getNext, List.getElem?_eq_getElem hlt, Option.bind_eq_bind,
        Option.bind_some, Option.pure_def]
      show (rowsOf rolloutData microBatchIndices[offset] >>= fun batch => some (batch, _)) >>= _ = _
      cases hbatch : rowsOf rolloutData microBatchIndices[offset] with
      | none => rfl
      | some batch =>
          simp only [Option.bind_eq_bind, Option.bind_some, hrest, Option.bind_assoc]
          rw [Nat.add_assoc, Nat.add_comm 1 count]

theorem takeSteps_indices (counts : List Nat) : ∀ offset : Nat,
    offset + counts.sum ≤ microBatchIndices.length →
      takeSteps counts ⟨rolloutData, .indices microBatchIndices, offset⟩ =
        (splitLengths counts (microBatchIndices.drop offset)).mapM fun batches =>
          batches.mapM (rowsOf rolloutData) := by
  induction counts with
  | nil => exact fun _ _ => rfl
  | cons count counts ih =>
      intro offset h
      rw [List.sum_cons] at h
      rw [takeSteps, takeBatches_indices count offset (by omega), splitLengths, List.mapM_cons,
        List.drop_drop, ← ih (offset + count) (by omega)]
      cases ((microBatchIndices.drop offset).take count).mapM (rowsOf rolloutData) with
      | none => rfl
      | some batches => rfl

/-- The columns a shard ships, over the whole batch. -/
def shippedColumns (data : RolloutColumns V) : RolloutColumns V :=
  { data with
    totalLengths := data.tokens.map List.length
    others := data.others.filter fun column => column.1 ∈ splitKeys }

/-- A shard, completed at the train side, is rows of the batch: the lengths that came
whole end up in the order of the other columns. -/
theorem processRolloutDataShard_packageShard {data : RolloutColumns V} {partition : List Nat}
    {shard : RolloutShard V} (h : packageShard { data with
      totalLengths := data.tokens.map List.length } partition = some shard) :
    processRolloutDataShard shard = rowsOf (shippedColumns data) partition := by
  simp only [packageShard, Option.bind_eq_bind, Option.bind_eq_some_iff] at h
  obtain ⟨columns, hcolumns, h⟩ := h
  obtain rfl := Option.some.inj h
  have hrows : rowsOf (shippedColumns data) partition = some columns := hcolumns
  have htotals : selectRows (data.tokens.map List.length) partition =
      some columns.totalLengths := by
    simp only [RolloutColumns.mapColumns, Option.bind_eq_bind, Option.bind_eq_some_iff] at hcolumns
    obtain ⟨_, -, totals, htotals, _, -, _, -, _, -, _, -, _, -, h⟩ := hcolumns
    obtain rfl := Option.some.inj h
    exact htotals
  rw [hrows, processRolloutDataShard, htotals]
  rfl

theorem shippedColumns_rectangular {data : RolloutColumns V} {n : Nat} (h : Rectangular n data) :
    Rectangular n (shippedColumns data) where
  tokens := h.tokens
  totalLengths := by
    rw [shippedColumns, List.length_map]
    exact h.tokens
  responseLengths := h.responseLengths
  lossMasks := h.lossMasks
  rolloutIds := h.rolloutIds
  rolloutMaskSums := h.rolloutMaskSums
  others := fun column hcolumn => h.others column (List.mem_of_mem_filter hcolumn)

variable {config : ParallelConfig} {schedule : DpSchedule config.dpSize}

/-- The micro-batches of a step are runs of the rank's own, by the samples they hold. -/
theorem stepBatches_eq_map (schedule : DpSchedule config.dpSize) (step : Nat)
    (rank : Fin config.dpSize) : stepBatches schedule step rank =
      (((schedule.ranks rank).microBatchIndices.drop
        (segmentOffset schedule.numMicrobatches step)).take
          (schedule.numMicrobatches.getD step 0)).map fun rows =>
            rows.map fun i => (schedule.ranks rank).partition.getD i 0 := by
  rw [stepBatches, batchesOf, ← List.map_drop, ← List.map_take]

theorem mem_stepBatches {step : Nat} {rank : Fin config.dpSize} {batch : List Nat} {i : Nat}
    (hbatch : batch ∈ stepBatches schedule step rank) (hi : i ∈ batch) :
    i ∈ (schedule.ranks rank).partition := by
  rw [← batchesOf_flatten]
  exact List.mem_flatten.mpr ⟨batch, List.mem_of_mem_drop (List.mem_of_mem_take hbatch), hi⟩

/-- A rank that reads its shard by its schedule reads rows of the batch. -/
theorem takeSteps_eq {data : RolloutColumns V} {rank : Fin config.dpSize}
    (hcolumns : rowsOf data (schedule.ranks rank).partition = some rolloutData)
    (hcounted : (schedule.ranks rank).microBatchIndices.length = schedule.numMicrobatches.sum) :
    takeSteps schedule.numMicrobatches
        ⟨rolloutData, .indices (schedule.ranks rank).microBatchIndices, 0⟩ =
      (List.range schedule.numMicrobatches.length).mapM fun step =>
        (stepBatches schedule step rank).mapM (rowsOf data) := by
  rw [takeSteps_indices _ _ (by omega), List.drop_zero, splitLengths_eq, List.mapM_map]
  refine option_mapM_congr fun step _ => ?_
  rw [stepBatches_eq_map, List.mapM_map]
  refine option_mapM_congr fun rows hrows => rowsOf_comp hcolumns fun r hr => ?_
  have hmem : r ∈ (schedule.ranks rank).microBatchIndices.flatten :=
    List.mem_flatten.mpr ⟨rows, List.mem_of_mem_drop (List.mem_of_mem_take hrows), hr⟩
  rw [(schedule.ranks rank).tiles] at hmem
  exact List.mem_range.mp hmem

theorem DealtSchedule.partition_lt {args : ScheduleArgs} {totalLengths : List Nat}
    {globalBatchSize : Nat} {rolloutIds : List Int}
    (h : DealtSchedule args config totalLengths globalBatchSize rolloutIds schedule)
    (rank : Fin config.dpSize) : ∀ i ∈ (schedule.ranks rank).partition, i < rolloutIds.length := by
  intro i hi
  have hkept := h.kept.mem_iff.mp (List.mem_flatMap.mpr ⟨rank, List.mem_finRange rank, hi⟩)
  obtain ⟨group, hgroup, hi⟩ := List.mem_flatten.mp hkept
  exact List.mem_range.mp ((rolloutGroups_perm rolloutIds).mem_iff.mp
    (List.mem_flatten.mpr ⟨group, List.mem_of_mem_take hgroup, hi⟩))

/-- A rank's shard of a schedule. -/
def scheduledShard (data : RolloutColumns V) (schedule : DpSchedule config.dpSize)
    (rank : Fin config.dpSize) : Option (RolloutShard V) :=
  (packageShard { data with totalLengths := data.tokens.map List.length }
      (schedule.ranks rank).partition).bind fun shard => some { shard with
    microBatchIndices := some (schedule.ranks rank).microBatchIndices
    numMicrobatches := schedule.numMicrobatches
    numRollouts := schedule.numRollouts }

theorem splitTrainDataByDpScheduledRaw_eq_ok {args : ScheduleArgs} {globalBatchSize : Nat}
    {data : RolloutColumns V} {shards : Fin config.dpSize → Option (RolloutShard V)}
    (h : splitTrainDataByDpScheduledRaw args config globalBatchSize data = .ok shards) :
    ∃ schedule, buildDpSchedule args config (data.tokens.map List.length) globalBatchSize
      data.rolloutIds = .ok schedule ∧ shards = scheduledShard data schedule := by
  simp only [splitTrainDataByDpScheduledRaw, except_bind_eq_ok] at h
  obtain ⟨schedule, hschedule, h⟩ := h
  exact ⟨schedule, hschedule, (Except.ok.inj h).symm⟩

theorem scheduled_dealt {args : ScheduleArgs} {globalBatchSize n : Nat} {data : RolloutColumns V}
    (hdata : Rectangular n data) (hpos : ∀ tokens ∈ data.tokens, tokens ≠ [])
    (hschedule : buildDpSchedule args config (data.tokens.map List.length) globalBatchSize
      data.rolloutIds = .ok schedule) :
    DealtSchedule args config (data.tokens.map List.length) globalBatchSize data.rolloutIds
      schedule := by
  refine buildDpSchedule_dealt ?_ ?_ hschedule
  · rw [List.length_map, hdata.rolloutIds, hdata.tokens]
  · intro m hm
    obtain ⟨tokens, htokens, rfl⟩ := List.mem_map.mp hm
    exact List.length_pos_iff.mpr (hpos tokens htokens)

/-- A shard yields the micro-batches its rank was dealt, as rows of the batch. -/
theorem scheduledShard_reads {args : ScheduleArgs} {globalBatchSize n : Nat}
    {data : RolloutColumns V} (hdata : Rectangular n data)
    (hdealt : DealtSchedule args config (data.tokens.map List.length) globalBatchSize
      data.rolloutIds schedule) (rank : Fin config.dpSize) :
    ((scheduledShard data schedule rank).bind trainShard).isSome ∧
      (scheduledShard data schedule rank).bind trainShard =
        (List.range schedule.numRollouts.length).mapM fun step =>
          (stepBatches schedule step rank).mapM (rowsOf (shippedColumns data)) := by
  have hknown := shippedColumns_rectangular hdata
  have hpartition : ∀ i ∈ (schedule.ranks rank).partition, i < n := by
    rw [← hdata.rolloutIds]
    exact hdealt.partition_lt rank
  obtain ⟨columns, hcolumns⟩ := Option.isSome_iff_exists.mp (rowsOf_isSome hknown hpartition)
  have hreads : ((List.range schedule.numRollouts.length).mapM fun step =>
      (stepBatches schedule step rank).mapM (rowsOf (shippedColumns data))).isSome :=
    option_mapM_isSome fun step _ => option_mapM_isSome fun batch hbatch =>
      rowsOf_isSome hknown fun i hi => hpartition i (mem_stepBatches hbatch hi)
  have hpackage : ∃ shard, packageShard { data with totalLengths := data.tokens.map List.length }
      (schedule.ranks rank).partition = some shard := by
    have hmap : packageShard { data with totalLengths := data.tokens.map List.length }
        (schedule.ranks rank).partition = (rowsOf (shippedColumns data)
          (schedule.ranks rank).partition).bind fun columns =>
            some ⟨(schedule.ranks rank).partition,
              { columns with totalLengths := data.tokens.map List.length }, none, [], []⟩ := rfl
    rw [hmap, hcolumns]
    exact ⟨_, rfl⟩
  obtain ⟨shard, hshard⟩ := hpackage
  have hprocess := processRolloutDataShard_packageShard hshard
  have htrain : (scheduledShard data schedule rank).bind trainShard =
      (List.range schedule.numRollouts.length).mapM fun step =>
        (stepBatches schedule step rank).mapM (rowsOf (shippedColumns data)) := by
    rw [scheduledShard, hshard, ← hdealt.steps, ← takeSteps_eq hcolumns (hdealt.counted rank)]
    show (processRolloutDataShard shard >>= fun rolloutData => takeSteps _ _) = _
    rw [hprocess, hcolumns]
    rfl
  exact ⟨htrain ▸ hreads, htrain⟩

/-- Every rank goes through its steps, and in each it reads the micro-batches it was dealt,
row by row of the batch and in every column. -/
theorem splitTrainDataByDpScheduledRaw_reads (args : ScheduleArgs) (config : ParallelConfig)
    (globalBatchSize n : Nat) (data : RolloutColumns V)
    (shards : Fin config.dpSize → Option (RolloutShard V)) (hdata : Rectangular n data)
    (hpos : ∀ tokens ∈ data.tokens, tokens ≠ [])
    (h : splitTrainDataByDpScheduledRaw args config globalBatchSize data = .ok shards) :
    ∃ schedule, buildDpSchedule args config (data.tokens.map List.length) globalBatchSize
        data.rolloutIds = .ok schedule ∧
      DealtSchedule args config (data.tokens.map List.length) globalBatchSize data.rolloutIds
        schedule ∧
      ∀ rank, ((shards rank).bind trainShard).isSome ∧
        (shards rank).bind trainShard = (List.range schedule.numRollouts.length).mapM fun step =>
          (stepBatches schedule step rank).mapM (rowsOf (shippedColumns data)) := by
  obtain ⟨schedule, hschedule, rfl⟩ := splitTrainDataByDpScheduledRaw_eq_ok h
  have hdealt := scheduled_dealt hdata hpos hschedule
  exact ⟨schedule, hschedule, hdealt, scheduledShard_reads hdata hdealt⟩

/-- Two rollouts of one row each. -/
def twoRows : RolloutColumns Nat where
  tokens := [[1, 2], [3, 4]]
  totalLengths := [2, 2]
  responseLengths := [1, 1]
  lossMasks := [[1], [1]]
  rolloutIds := [7, 8]
  rolloutMaskSums := [1, 1]
  others := [("rewards", [5, 6])]

theorem twoRows_rectangular : Rectangular 2 twoRows :=
  ⟨rfl, rfl, rfl, rfl, rfl, rfl, by simp [twoRows]⟩

theorem splitTrainDataByDpScheduledRaw_two : ∃ shards schedule,
    splitTrainDataByDpScheduledRaw rowEach pairConfig 2 twoRows = .ok shards ∧
      buildDpSchedule rowEach pairConfig [2, 2] 2 [7, 8] = .ok schedule ∧
      ∀ rank, ((shards rank).bind trainShard).isSome ∧
        (shards rank).bind trainShard = (List.range schedule.numRollouts.length).mapM fun step =>
          (stepBatches schedule step rank).mapM (rowsOf (shippedColumns twoRows)) := by
  obtain ⟨schedule, hschedule, -, hreads⟩ := splitTrainDataByDpScheduledRaw_reads rowEach pairConfig
    2 2 twoRows _ twoRows_rectangular (by simp [twoRows]) rfl
  exact ⟨_, schedule, rfl, hschedule, hreads⟩

end Reads

end Crisp.Proofs
