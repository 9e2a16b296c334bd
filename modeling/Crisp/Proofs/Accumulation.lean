import Crisp.Lib.SliceSums
import Crisp.Proofs.RowPairing
import Crisp.Ref.OpsdStep

/-!
# What gradient accumulation and padding weigh

A micro-batch contributes the mean loss of its response tokens over the number of
micro-batches, so a token weighs less the more response tokens share its
micro-batch, and every clone the padding adds weighs like a sample. The objective
is a weighted mean of the samples' token losses whose weights depend on the
response lengths, the micro-batch size and the number of ranks only; it is the
mean over all tokens exactly where these weights are uniform.

The model of a forward pass is assumed to read one sample at a time. Without that
the logits themselves would change with the slice a sample is trained in.
-/

namespace Crisp.Proofs

open Crisp.Lib Crisp.Ref

variable {Λ : Type} {V : Nat}

/-! ## Models that read one sample at a time -/

/-- A row without its padding. -/
def Row.attended (row : Row) : List Int := row.prompt ++ row.response

theorem Row.attended_length (row : Row) :
    row.attended.length = row.prompt.length + row.response.length :=
  List.length_append

/-- The logits of a sample depend on its own tokens: whatever it is padded or
packed with, position `t` of a sample with tokens `ids` has `out ids t`. -/
structure RowLocal (model : ForwardModel Λ) (out : List Int → Nat → Λ) : Prop where
  padded : ∀ rows : List Row, ∃ g : Nat → Nat → Λ,
    model.padded (columnsOf rows).inputIds (columnsOf rows).attentionMask
        (columnsOf rows).positionIds = outputGrid g (columnsOf rows).inputIds ∧
      ∀ i row, rows[i]? = some row → ∀ t < row.attended.length,
        g i t = out row.attended t
  packed : ∀ rows : List Row,
    model.packed (rows.flatMap Row.attended)
        (rows.flatMap fun row => List.range row.attended.length) =
      rows.flatMap fun row => (List.range row.attended.length).map (out row.attended)

/-- The logits a sample is trained on. -/
def responseOutputs (out : List Int → Nat → Λ) (row : Row) : List Λ :=
  (List.range row.response.length).map
    fun k => out row.attended (row.prompt.length - 1 + k)

@[simp] theorem responseOutputs_length {out : List Int → Nat → Λ} {row : Row} :
    (responseOutputs out row).length = row.response.length := by
  simp [responseOutputs]

theorem predicted_local {out : List Int → Nat → Λ} {rows : List Row}
    (hprompts : ∀ row ∈ rows, row.prompt ≠ []) :
    ∀ {g : Nat → Nat → Λ},
      (∀ i row, rows[i]? = some row → ∀ t < row.attended.length,
        g i t = out row.attended t) →
      predicted g rows = rows.flatMap (responseOutputs out) := by
  induction rows with
  | nil => intro g _; rfl
  | cons row rows ih =>
      intro g hg
      have hpos : 0 < row.prompt.length := List.length_pos_iff.mpr (hprompts row (by simp))
      have hhead : ∀ k ∈ List.range row.response.length,
          g 0 (row.prompt.length - 1 + k) =
            out row.attended (row.prompt.length - 1 + k) := by
        intro k hk
        have := List.mem_range.mp hk
        exact hg 0 row rfl _ (by rw [row.attended_length]; omega)
      rw [predicted, List.flatMap_cons, List.map_congr_left hhead,
        ih (fun r hr => hprompts r (by simp [hr]))
          fun i r hr => hg (i + 1) r (by simpa using hr)]
      rfl

theorem attendedOutputs_local {out : List Int → Nat → Λ} {rows : List Row} :
    ∀ {g : Nat → Nat → Λ},
      (∀ i row, rows[i]? = some row → ∀ t < row.attended.length,
        g i t = out row.attended t) →
      attendedOutputs g rows =
        rows.flatMap fun row => (List.range row.attended.length).map (out row.attended) := by
  induction rows with
  | nil => intro g _; rfl
  | cons row rows ih =>
      intro g hg
      have hhead : ∀ t ∈ List.range row.attended.length, g 0 t = out row.attended t :=
        fun t ht => hg 0 row rfl t (List.mem_range.mp ht)
      rw [attendedOutputs, List.flatMap_cons, ← row.attended_length,
        List.map_congr_left hhead,
        ih fun i r hr => hg (i + 1) r (by simpa using hr)]

section Forward

variable {model : ForwardModel Λ} {out : List Int → Nat → Λ}

theorem forwardLogitsPadded_local (hlocal : RowLocal model out) {rows : List Row}
    (hprompts : ∀ row ∈ rows, row.prompt ≠ []) :
    forwardLogitsPadded model (columnsOf rows) =
      rows.flatMap (responseOutputs out) := by
  obtain ⟨g, hcall, hg⟩ := hlocal.padded rows
  have hgrid : forwardLogitsPadded model (columnsOf rows) =
      forwardLogitsPadded (rowOutputs UnpadInput.rowMajor (columnsOf rows) g)
        (columnsOf rows) := by
    unfold forwardLogitsPadded
    rw [hcall]
    rfl
  rw [hgrid, forwardLogitsPadded_eq hprompts, predicted_local hprompts hg]

/-- Unpadding keeps the samples' tokens, each sample's positions from zero. -/
theorem unpad_columns (unpad : UnpadInput) (rows : List Row) :
    (unpad.call (columnsOf rows).inputIds (columnsOf rows).attentionMask).1 =
        rows.flatMap Row.attended ∧
      gather (columnsOf rows).positionIds.flatten
          (nonzero (columnsOf rows).attentionMask.flatten) =
        rows.flatMap fun row => List.range row.attended.length := by
  have hids : (columnsOf rows).inputIds =
      rows.map fun row => row.attended ++ row.padding := by
    rw [columnsOf_inputIds]
    refine List.map_congr_left fun row _ => ?_
    rw [Row.attended, List.append_assoc]
    rfl
  have hpositions : (columnsOf rows).positionIds =
      rows.map fun row => List.range row.attended.length ++
        List.replicate row.padding.length 0 := by
    simp only [columnsOf, stack, List.map_map]
    refine List.map_congr_left fun row _ => ?_
    rw [row.attended_length]
    rfl
  obtain ⟨hidsLen, hidsKeep⟩ := @keep_attended_column _ Row.attended Row.padding
    Row.attended_length (fun _ => rfl) rows
  obtain ⟨hposLen, hposKeep⟩ := @keep_attended_column _
    (fun row => List.range row.attended.length)
    (fun row => List.replicate row.padding.length 0)
    (fun row => List.length_range.trans row.attended_length) (fun _ => List.length_replicate)
    rows
  constructor
  · rw [unpad.entries, hids, gather_nonzero hidsLen, hidsKeep]
  · rw [hpositions, gather_nonzero hposLen, hposKeep]

theorem forwardLogitsUnpadded_local (unpad : UnpadInput) (hlocal : RowLocal model out)
    {rows : List Row} (hprompts : ∀ row ∈ rows, row.prompt ≠ []) :
    forwardLogitsUnpadded unpad model (columnsOf rows) =
      rows.flatMap (responseOutputs out) := by
  -- the packed call as a grid
  let g : Nat → Nat → Λ := fun i t => out ((rows[i]?.map Row.attended).getD []) t
  have hg : ∀ i row, rows[i]? = some row → ∀ t < row.attended.length,
      g i t = out row.attended t := by
    intro i row hrow t _
    simp only [g, hrow, Option.map_some, Option.getD_some]
  obtain ⟨hids, hpositions⟩ := unpad_columns unpad rows
  obtain ⟨hmaskLen, hmask⟩ := @keep_attended_mask rows
  obtain ⟨hlen, hkeep⟩ := @keep_shifted_attended _ rows hprompts g
  unfold forwardLogitsUnpadded
  simp only [unpad.indices]
  rw [hids, hpositions, hlocal.packed, ← attendedOutputs_local hg,
    gather_nonzero hmaskLen, hmask, gather_nonzero hlen, hkeep,
    predicted_local hprompts hg]

theorem forwardLogits_local (unpad : UnpadInput) (useRemovePadding : Bool)
    (hlocal : RowLocal model out) {rows : List Row}
    (hprompts : ∀ row ∈ rows, row.prompt ≠ []) :
    forwardLogits useRemovePadding unpad model (columnsOf rows) =
      rows.flatMap (responseOutputs out) := by
  cases useRemovePadding with
  | false => exact forwardLogitsPadded_local hlocal hprompts
  | true => exact forwardLogitsUnpadded_local unpad hlocal hprompts

end Forward

/-! ## Losses -/

/-- A loss that is the mean of a token loss. -/
def MeanOf (tokenLoss : Λ → Λ → ℝ) (lossFn : List Λ → List Λ → ℝ × Nat) : Prop :=
  ∀ teacher student, (lossFn teacher student).1 =
    (List.zipWith tokenLoss teacher student).sum / teacher.length

/-- Chunks only bound the memory of an intermediate. -/
theorem chunkedMean_mean {tokenLoss : Λ → Λ → ℝ} (chunkSize : Nat)
    (hchunk : 0 < chunkSize) : MeanOf tokenLoss (chunkedMean chunkSize tokenLoss) := by
  intro teacher student
  have hcover : (List.zipWith tokenLoss teacher student).length ≤
      (teacher.length + chunkSize - 1) / chunkSize * chunkSize := by
    have := @le_ceil_mul teacher.length _ hchunk
    rw [List.length_zipWith]
    omega
  have hchunks := congrArg List.sum (flatten_microbatches hcover)
  rw [List.sum_flatten, List.map_map] at hchunks
  simp only [microbatch_zipWith, Function.comp_def] at hchunks
  unfold chunkedMean
  dsimp only
  split
  · next hnone =>
      rw [List.length_eq_zero_iff.mp hnone]
      simp
  · rw [hchunks]

theorem splitMean_mean {tokenLoss : Λ → Λ → ℝ} (chunkSize : Nat) (hchunk : 0 < chunkSize) :
    MeanOf tokenLoss (splitMean chunkSize tokenLoss) := by
  rw [splitMean_eq]
  exact chunkedMean_mean chunkSize hchunk

/-- Whichever loss is configured, it is a mean over tokens. -/
theorem lossFn_mean {config : StepConfig} {lossFn : LossFn V}
    (h : config.lossFn = .ok lossFn) : ∃ tokenLoss, MeanOf tokenLoss lossFn := by
  unfold StepConfig.lossFn at h
  split at h
  · have hfn := Except.ok.inj h
    split at hfn
    · rw [← hfn]
      exact ⟨_, splitMean_mean 64 (by decide)⟩
    · rw [← hfn]
      exact ⟨_, chunkedMean_mean 128 (by decide)⟩
  · have hfn := Except.ok.inj h
    split at hfn
    · rw [← hfn]
      exact ⟨_, splitMean_mean 64 (by decide)⟩
    · rw [← hfn]
      exact ⟨_, chunkedMean_mean 128 (by decide)⟩
  · cases h

/-! ## Batches of kept samples -/

section Samples

variable {tok : Tokenizer}

def batchOf (kept : List (KeptSample tok)) : OpsdBatch :=
  { teacher := columnsOf (kept.map KeptSample.teacher)
    student := columnsOf (kept.map KeptSample.student) }

@[simp] theorem batchOf_batchSize {kept : List (KeptSample tok)} :
    (batchOf kept).batchSize = kept.length := by
  simp [OpsdBatch.batchSize, batchOf]

theorem batchOf_microBatch {kept : List (KeptSample tok)} {m j : Nat} :
    (batchOf kept).microBatch m j = batchOf (microbatch m j kept) := by
  unfold OpsdBatch.microBatch batchOf
  simp only [columnsOf_microBatch, microbatch_map]

theorem padLast_map {α β : Type} {f : α → β} {count : Nat} {xs : List α} :
    padLast count (xs.map f) = (padLast count xs).map f := by
  unfold padLast
  rw [List.map_append, List.getLast?_map]
  cases xs.getLast? with
  | none => simp
  | some x => simp

theorem columnsOf_padLast {count : Nat} {rows : List Row} :
    (columnsOf rows).padLast count = columnsOf (padLast count rows) := by
  simp only [columnsOf, stack, SequenceColumns.padLast, padLast_map]

theorem padLast_zero {α : Type} {xs : List α} : padLast 0 xs = xs := by
  unfold padLast
  cases xs.getLast? with
  | none => simp
  | some x => simp

theorem batchOf_dpPad {kept : List (KeptSample tok)} {nDp : Nat} :
    (batchOf kept).dpPad nDp = batchOf (padLast (padCount kept.length nDp) kept) := by
  unfold OpsdBatch.dpPad
  rw [batchOf_batchSize]
  dsimp only
  split
  · next hzero => rw [hzero, padLast_zero]
  · simp only [batchOf, columnsOf_padLast, padLast_map]

/-- The response tokens of a sample. -/
def KeptSample.tokens (k : KeptSample tok) : Nat := k.student.response.length

/-- Every response is closed by a token. -/
theorem KeptSample.tokens_pos (k : KeptSample tok) : 0 < k.tokens := by
  rw [KeptSample.tokens, tensor_length k.student_response, List.length_pos_iff]
  unfold Tokenizer.responseIds
  dsimp only
  split
  · simp
  · next h => exact fun hnil => h (.inl hnil)

/-- Neither prompt of a sample is empty. -/
def KeptSample.Prompted (k : KeptSample tok) : Prop :=
  k.teacher.prompt ≠ [] ∧ k.student.prompt ≠ []

/-- The summed token losses of a sample. -/
noncomputable def sampleLoss (tokenLoss : Λ → Λ → ℝ)
    (refOut actorOut : List Int → Nat → Λ) (k : KeptSample tok) : ℝ :=
  (List.zipWith tokenLoss (responseOutputs refOut k.teacher)
    (responseOutputs actorOut k.student)).sum

/-- Samples of a micro-batch do not meet in the sum. -/
theorem sum_zipWith_outputs {tokenLoss : Λ → Λ → ℝ}
    {refOut actorOut : List Int → Nat → Λ} {kept : List (KeptSample tok)} :
    (List.zipWith tokenLoss
        ((kept.map KeptSample.teacher).flatMap (responseOutputs refOut))
        ((kept.map KeptSample.student).flatMap (responseOutputs actorOut))).sum =
      (kept.map (sampleLoss tokenLoss refOut actorOut)).sum := by
  induction kept with
  | nil => rfl
  | cons k kept ih =>
      have hlen : (responseOutputs refOut k.teacher).length =
          (responseOutputs actorOut k.student).length := by
        rw [responseOutputs_length, responseOutputs_length, k.response_eq]
      simp only [List.map_cons, List.flatMap_cons, List.sum_cons]
      rw [List.zipWith_append hlen, List.sum_append, ih, sampleLoss]

theorem outputs_length {out : List Int → Nat → Λ} {kept : List (KeptSample tok)}
    {side : KeptSample tok → Row}
    (hside : ∀ k, (side k).response.length = k.tokens) :
    ((kept.map side).flatMap (responseOutputs out)).length =
      (kept.map KeptSample.tokens).sum := by
  induction kept with
  | nil => rfl
  | cons k kept ih =>
      simp only [List.map_cons, List.flatMap_cons, List.sum_cons, List.length_append]
      rw [ih, responseOutputs_length, hside]

theorem KeptSample.teacher_tokens (k : KeptSample tok) :
    k.teacher.response.length = k.tokens :=
  congrArg List.length k.response_eq

/-- What a micro-batch's mean loss is, zero where there are no tokens. -/
noncomputable def meanLoss (loss : KeptSample tok → ℝ) (block : List (KeptSample tok)) :
    ℝ :=
  (block.map loss).sum / ((block.map KeptSample.tokens).sum : Nat)

/-! ## The objective of an update -/

section Objective

variable {config : StepConfig} {lossFn : LossFn V}
  {tokenLoss : (Fin V → ℝ) → (Fin V → ℝ) → ℝ}
  {refModule actorModule : ForwardModel (Fin V → ℝ)}
  {refOut actorOut : List Int → Nat → Fin V → ℝ}

/-- The forwards of a step read one sample at a time, and its loss is the mean of
`tokenLoss`. -/
structure StepReads (config : StepConfig) (lossFn : LossFn V)
    (tokenLoss : (Fin V → ℝ) → (Fin V → ℝ) → ℝ)
    (refModule actorModule : ForwardModel (Fin V → ℝ))
    (refOut actorOut : List Int → Nat → Fin V → ℝ) : Prop where
  reference : RowLocal refModule refOut
  actor : RowLocal actorModule actorOut
  loss : config.lossFn = .ok lossFn
  mean : MeanOf tokenLoss lossFn

theorem alignedLogits_local (unpad : UnpadInput)
    (h : StepReads config lossFn tokenLoss refModule actorModule refOut actorOut)
    {kept : List (KeptSample tok)} (hkept : ∀ k ∈ kept, k.Prompted) :
    alignedLogits config.useRemovePadding unpad refModule actorModule (batchOf kept) =
      .ok ((kept.map KeptSample.teacher).flatMap (responseOutputs refOut),
        (kept.map KeptSample.student).flatMap (responseOutputs actorOut)) := by
  have hteacher : ∀ row ∈ kept.map KeptSample.teacher, row.prompt ≠ [] := by
    intro row hrow
    obtain ⟨k, hk, rfl⟩ := List.mem_map.mp hrow
    exact (hkept k hk).1
  have hstudent : ∀ row ∈ kept.map KeptSample.student, row.prompt ≠ [] := by
    intro row hrow
    obtain ⟨k, hk, rfl⟩ := List.mem_map.mp hrow
    exact (hkept k hk).2
  unfold alignedLogits batchOf
  rw [forwardLogits_local unpad _ h.reference hteacher,
    forwardLogits_local unpad _ h.actor hstudent]
  dsimp only
  rw [check_of, except_ok_bind]
  rw [outputs_length KeptSample.teacher_tokens, outputs_length fun _ => rfl]

theorem accumulate_eq (unpad : UnpadInput)
    (h : StepReads config lossFn tokenLoss refModule actorModule refOut actorOut)
    {gradAccum : Nat} {blocks : List (List (KeptSample tok))}
    (hblocks : ∀ block ∈ blocks, ∀ k ∈ block, k.Prompted) :
    accumulate config unpad refModule actorModule gradAccum (blocks.map batchOf) =
      .ok (blocks.map fun block =>
        meanLoss (sampleLoss tokenLoss refOut actorOut) block / gradAccum).sum := by
  induction blocks with
  | nil => rfl
  | cons block blocks ih =>
      have hrest := ih fun b hb => hblocks b (by simp [hb])
      have hlen := @outputs_length _ tok refOut block _ KeptSample.teacher_tokens
      rw [List.map_cons, accumulate, alignedLogits_local unpad h (hblocks block (by simp)),
        except_ok_bind]
      dsimp only
      rw [hlen, hrest, List.map_cons, List.sum_cons]
      split
      · next hnone =>
          rw [meanLoss, hnone]
          simp
      · rw [h.loss, except_ok_bind, except_ok_bind, h.mean, sum_zipWith_outputs, hlen]
        rfl

theorem opsdTrainingStep_eq (unpad : UnpadInput)
    (h : StepReads config lossFn tokenLoss refModule actorModule refOut actorOut)
    {m : Nat} (hm : 0 < m) {kept : List (KeptSample tok)}
    (hkept : ∀ k ∈ kept, k.Prompted) :
    let count := (kept.length + m - 1) / m
    opsdTrainingStep config unpad refModule actorModule m (batchOf kept) =
      .ok (∑ j ∈ Finset.range count,
        meanLoss (sampleLoss tokenLoss refOut actorOut) (microbatch m j kept) / count) := by
  intro count
  unfold opsdTrainingStep
  rw [batchOf_batchSize]
  split
  · next hempty =>
      have hcount : count = 0 := by
        simp only [count, hempty]
        exact Nat.div_eq_of_lt (by omega)
      rw [hcount, Finset.range_zero, Finset.sum_empty]
  · next hsome =>
      have hcount : 0 < count := Nat.div_pos (by omega) hm
      have hsplit : (batchOf kept).split m =
          ((List.range count).map fun j => microbatch m j kept).map batchOf := by
        unfold OpsdBatch.split
        rw [batchOf_batchSize, List.map_map]
        exact List.map_congr_left fun j _ => batchOf_microBatch
      have hblocks : ∀ block ∈ (List.range count).map fun j => microbatch m j kept,
          ∀ k ∈ block, k.Prompted := by
        intro block hblock k hk
        obtain ⟨j, -, rfl⟩ := List.mem_map.mp hblock
        exact hkept k (mem_of_mem_microbatch hk)
      dsimp only
      rw [hsplit, accumulate_eq unpad h hblocks]
      simp only [List.length_map, List.length_range, List.map_map]
      rw [Nat.max_eq_right hcount]
      rfl

theorem mem_padLast {α : Type} {count : Nat} {xs : List α} {x : α}
    (h : x ∈ padLast count xs) : x ∈ xs := by
  unfold padLast at h
  rcases List.mem_append.mp h with hold | hclone
  · exact hold
  · obtain ⟨last, hlast, hx⟩ := List.mem_flatMap.mp hclone
    rw [(List.mem_replicate.mp hx).2]
    exact List.mem_of_getLast? (Option.mem_toList.mp hlast)

theorem updateObjective_eq (unpad : UnpadInput)
    (h : StepReads config lossFn tokenLoss refModule actorModule refOut actorOut)
    {nDp m : Nat} (hm : 0 < m) {kept : List (KeptSample tok)}
    (hkept : ∀ k ∈ kept, k.Prompted) :
    let padded := padLast (padCount kept.length nDp) kept
    let size := padded.length / nDp
    updateObjective config unpad refModule actorModule nDp m (batchOf kept) =
      .ok ((∑ r ∈ Finset.range nDp,
        ∑ j ∈ Finset.range (((microbatch size r padded).length + m - 1) / m),
          meanLoss (sampleLoss tokenLoss refOut actorOut)
              (microbatch m j (microbatch size r padded)) /
            (((microbatch size r padded).length + m - 1) / m : Nat)) / nDp) := by
  intro padded size
  have hchunk : (batchOf padded).chunk nDp =
      ((List.range nDp).map fun r => microbatch size r padded).map batchOf := by
    unfold OpsdBatch.chunk
    rw [batchOf_batchSize, List.map_map]
    exact List.map_congr_left fun r _ => batchOf_microBatch
  have hsteps : ∀ part ∈ (List.range nDp).map fun r => microbatch size r padded,
      (opsdTrainingStep config unpad refModule actorModule m ∘ batchOf) part =
        .ok (∑ j ∈ Finset.range ((part.length + m - 1) / m),
          meanLoss (sampleLoss tokenLoss refOut actorOut) (microbatch m j part) /
            ((part.length + m - 1) / m : Nat)) := by
    intro part hpart
    obtain ⟨r, -, rfl⟩ := List.mem_map.mp hpart
    exact opsdTrainingStep_eq unpad h hm fun k hk =>
      hkept k (mem_padLast (mem_of_mem_microbatch hk))
  unfold updateObjective
  rw [batchOf_dpPad, hchunk, List.mapM_map, except_mapM_eq_ok hsteps, except_ok_bind,
    List.map_map]
  rfl

end Objective

end Samples

end Crisp.Proofs
