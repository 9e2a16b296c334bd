import Crisp.Proofs.PackedRows
import Mathlib.Tactic.NormNum

/-!
# Two packings, one response

A sample is packed twice, behind the teacher's prefix and behind its own, and
the two packings share nothing but the response at the end. What
`teacher_batch` accepts is exactly what makes both of them segments with that
response, so the scoring pass and the reference loss find the same tokens from
opposite sides.
-/

namespace Crisp.Proofs

open Crisp.Lib Crisp.Ref

variable {𝕜 ρ τ ν : Type}

/-! ## What `teacher_batch` accepts -/

/-- A sample that passed: its lengths agree, its response is a proper suffix
and its teacher prefix is not empty. -/
structure Accepted (sample : Sample) : Prop where
  indexed : some (sample.index.getD 0) = sample.index
  total : sample.totalLength = sample.tokens.length
  nonneg : 0 ≤ sample.responseLength
  proper : sample.responseLength < sample.tokens.length
  prefix_ne : sample.teacherPromptIds ≠ []

/-- The sequence the student is trained on. -/
def studentSegment (sample : Sample) : Segment :=
  { index := sample.index.getD 0
    tokens := sample.tokens
    response := sample.responseLength.toNat }

/-- The sequence the teacher scores. -/
def teacherSegment (sample : Sample) : Segment :=
  { index := sample.index.getD 0
    tokens := sample.teacherPromptIds ++
      sample.tokens.drop (sample.tokens.length - sample.responseLength.toNat)
    response := sample.responseLength.toNat }

theorem Accepted.student {sample : Sample} (h : Accepted sample) :
    (studentSegment sample).Valid := by
  have hproper := h.proper
  have hnonneg := h.nonneg
  show sample.responseLength.toNat < sample.tokens.length
  omega

theorem teacherSegment_length {sample : Sample} (h : Accepted sample) :
    (teacherSegment sample).tokens.length =
      sample.teacherPromptIds.length + sample.responseLength.toNat := by
  have hstudent : sample.responseLength.toNat < sample.tokens.length := h.student
  simp only [teacherSegment, List.length_append, List.length_drop]
  omega

theorem Accepted.teacher {sample : Sample} (h : Accepted sample) :
    (teacherSegment sample).Valid := by
  have hprefix := List.length_pos_iff.mpr h.prefix_ne
  have hlen := teacherSegment_length h
  show sample.responseLength.toNat < (teacherSegment sample).tokens.length
  omega

/-- Both sequences of a sample end in the same response. -/
theorem responseTokens_eq {sample : Sample} (h : Accepted sample) :
    (teacherSegment sample).responseTokens = (studentSegment sample).responseTokens := by
  have hlen := teacherSegment_length h
  have hresponse : (teacherSegment sample).tokens.length -
      (teacherSegment sample).response = sample.teacherPromptIds.length := by
    rw [hlen]
    exact Nat.add_sub_cancel _ _
  rw [Segment.responseTokens, hresponse]
  exact List.drop_left

theorem privilegedSequences_ok {seqLength : Nat} {samples : List Sample} :
    ∀ {out : List (List Int)},
      privilegedSequences seqLength (samples.map Sample.tokens)
        (samples.map Sample.teacherPromptIds) (samples.map Sample.responseLength)
        (samples.map Sample.totalLength) = .ok out →
      (∀ sample ∈ samples, sample.index ≠ none → Accepted sample) ∧
        out = samples.map fun sample => (teacherSegment sample).tokens := by
  induction samples with
  | nil =>
      intro out h
      injection h with h
      exact ⟨fun sample hs => absurd hs List.not_mem_nil, h.symm⟩
  | cons sample samples ih =>
      intro out h
      simp only [List.map_cons, privilegedSequences, except_bind_eq_ok, check_eq_ok] at h
      obtain ⟨-, ⟨hlen, ⟨hnonneg, hlt⟩, hprefix⟩, -, -, rest, hrest, hout⟩ := h
      obtain ⟨haccepted, hrest⟩ := ih hrest
      injection hout with hout
      have hsuffix : pyFrom sample.tokens (sample.totalLength - sample.responseLength) =
          sample.tokens.drop (sample.tokens.length - sample.responseLength.toNat) :=
        pyFrom_of_le (by omega) (by omega)
      refine ⟨?_, ?_⟩
      · rw [List.forall_mem_cons]
        refine ⟨fun hindex => ?_, haccepted⟩
        refine
          { indexed := ?_, total := hlen.symm, nonneg := hnonneg
            proper := by omega, prefix_ne := hprefix }
        cases hi : sample.index with
        | none => exact absurd hi hindex
        | some index => rfl
      · rw [← hout, hrest, hsuffix]
        rfl

theorem teacherBatch_checks {data out : RolloutData} {limits : TargetLimits}
    {prefixes : List (List Int)} (hprefixes : data.teacherPromptIds = some prefixes)
    (h : teacherBatch data limits = .ok out) :
    (∀ index ∈ data.sampleIndices, index ≠ none) ∧
      0 < limits.microBatchSize ∧
      data.sampleIndices.length % limits.microBatchSize = 0 ∧
      (∀ j < data.sampleIndices.length / limits.microBatchSize,
        ((microbatch limits.microBatchSize j data.lossMasks).map List.sum).sum ≠ 0) ∧
      ∃ tokens,
        privilegedSequences limits.seqLength data.tokens prefixes data.responseLengths
          data.totalLengths = .ok tokens ∧
        out =
          { tokens
            totalLengths := tokens.map fun sequence => (sequence.length : Int)
            responseLengths := data.responseLengths
            lossMasks := data.lossMasks
            sampleIndices := data.sampleIndices
            teacherPromptIds := none } := by
  simp only [teacherBatch, hprefixes, except_bind_eq_ok, check_eq_ok,
    except_forM_eq_ok] at h
  obtain ⟨-, -, -, ⟨hindices, -⟩, -, hsize, -, hwhole, -, -, -, hmasks, tokens, htokens,
    hout⟩ := h
  injection hout with hout
  refine ⟨hindices, by omega, hwhole, ?_, tokens, htokens, hout.symm⟩
  intro j hj
  obtain ⟨-, -, hsum⟩ := hmasks j (List.mem_range.mpr hj)
  exact hsum

/-- What a batch that passes is, and what it is turned into. -/
theorem teacherBatch_ok {samples : List Sample} {limits : TargetLimits}
    {data : RolloutData} (h : teacherBatch (rolloutData samples) limits = .ok data) :
    (∀ sample ∈ samples, Accepted sample) ∧
      0 < limits.microBatchSize ∧
      samples.length % limits.microBatchSize = 0 ∧
      (∀ j < samples.length / limits.microBatchSize,
        ((microbatch limits.microBatchSize j (samples.map Sample.lossMask)).map
          List.sum).sum ≠ 0) ∧
      data =
        { tokens := samples.map fun sample => (teacherSegment sample).tokens
          totalLengths := samples.map fun sample =>
            ((teacherSegment sample).tokens.length : Int)
          responseLengths := samples.map Sample.responseLength
          lossMasks := samples.map Sample.lossMask
          sampleIndices := samples.map Sample.index
          teacherPromptIds := none } := by
  obtain ⟨hindices, hsize, hwhole, hmasks, tokens, htokens, hdata⟩ :=
    teacherBatch_checks rfl h
  obtain ⟨haccepted, rfl⟩ := privilegedSequences_ok htokens
  simp only [rolloutData, List.length_map] at hwhole hmasks
  refine ⟨?_, hsize, hwhole, hmasks, ?_⟩
  · intro sample hs
    exact haccepted sample hs (hindices _ (List.mem_map_of_mem hs))
  · rw [hdata, List.map_map]
    rfl

/-! ## A microbatch of either pass -/

/-- What a model returns for a packed microbatch: a floating
`[1, packed tokens, width]` output. -/
structure OfPacked (logits : Logits ρ) (width : Nat) (packed : List Int) : Prop where
  ndim : logits.ndim = 3
  size0 : logits.size0 = 1
  localVocab : logits.localVocab = width
  floating : logits.isFloating = true
  rows : logits.rows.length = packed.length

theorem packedLength_le {padSize : Nat} {segs : List Segment} :
    packedLength segs ≤ (packedTokens padSize (segs.map Segment.tokens)).length := by
  have hflat : (segs.map Segment.tokens).flatten.length = packedLength segs := by
    rw [List.length_flatten, List.map_map]
    rfl
  unfold packedTokens
  rw [List.length_append, hflat]
  omega

theorem OfPacked.head {logits : Logits ρ} {width : Nat} {packed : List Int}
    (h : OfPacked logits width packed) : responseLogitsHead logits = .ok () :=
  check_of ⟨h.ndim, h.size0⟩

theorem OfPacked.vocab [LinearOrder 𝕜] [Zero 𝕜] {logits : Logits ρ} {width : Nat}
    {packed : List Int} (h : OfPacked logits width packed) {tp : Tp} {vocabSize : Nat}
    (hvocab : 0 < vocabSize ∧ vocabSize ≤ width * tp.size) {temperature : 𝕜}
    (htemp : 0 < temperature) :
    checkVocab tp vocabSize logits.localVocab logits.isFloating temperature = .ok () := by
  unfold checkVocab
  rw [check_of h.floating, except_ok_bind, check_of htemp, except_ok_bind, h.localVocab,
    check_of hvocab]

/-- Segment `s` sits at its offset in the packed stream. -/
theorem segment_of_packed {padSize : Nat} {segs : List Segment} {s : Nat}
    (hs : s < segs.length) :
    ((packedTokens padSize (segs.map Segment.tokens)).drop
      (segmentOffset (segs.map fun seg => seg.tokens.length) s)).take
        segs[s].tokens.length = segs[s].tokens := by
  have hfind := @segment_of_flatten Int (segs.map Segment.tokens)
    (List.replicate ((padSize - (segs.map Segment.tokens).flatten.length % padSize) %
      padSize) 0) s (by simpa using hs)
  rw [List.map_map, List.getElem_map] at hfind
  exact hfind

section Samples

variable {samples : List Sample} {logits : Logits ρ} {width padSize : Nat}

/-- A pass over packed samples has a row for every position of theirs. -/
theorem OfPacked.packed_le (segment : Sample → Segment)
    (h : OfPacked logits width
      (packedTokens padSize (samples.map fun s => (segment s).tokens))) :
    packedLength (samples.map segment) ≤ logits.rows.length := by
  have hle := @packedLength_le padSize (samples.map segment)
  rw [List.map_map] at hle
  rw [h.rows]
  exact hle

/-- The rows of one sample lie within the pass. -/
theorem OfPacked.segment_le (segment : Sample → Segment)
    (h : OfPacked logits width
      (packedTokens padSize (samples.map fun s => (segment s).tokens)))
    {i : Nat} (hi : i < samples.length) :
    segmentOffset (samples.map fun s => (segment s).tokens.length) i +
      (segment samples[i]).tokens.length ≤ logits.rows.length := by
  have hend := @segmentOffset_add_le
    (samples.map fun s => (segment s).tokens.length) i (by simpa using hi)
  rw [List.getElem_map] at hend
  have hpacked := h.packed_le segment
  unfold packedLength at hpacked
  rw [List.map_map] at hpacked
  exact hend.trans hpacked

theorem sample_of_packed (segment : Sample → Segment) {i : Nat}
    (hi : i < samples.length) :
    ((packedTokens padSize (samples.map fun s => (segment s).tokens)).drop
      (segmentOffset (samples.map fun s => (segment s).tokens.length) i)).take
        (segment samples[i]).tokens.length = (segment samples[i]).tokens := by
  have hfind := @segment_of_packed padSize (samples.map segment) i (by simpa using hi)
  rw [List.map_map, List.map_map, List.getElem_map] at hfind
  exact hfind

end Samples

section Passes

variable [LinearOrder 𝕜] [Zero 𝕜]
  {kernel : RowKernel 𝕜 ρ τ ν} {tp : Tp} {vocabSize width padSize : Nat}
  {config : OPSDLossConfig 𝕜} {rolloutId : Int} {logits : Logits ρ}
  {samples : List Sample}

theorem collectTargets_ok {temperature : 𝕜} (haccepted : ∀ s ∈ samples, Accepted s)
    (hvocab : 0 < vocabSize ∧ vocabSize ≤ width * tp.size) (htemp : 0 < temperature)
    (hlogits : OfPacked logits width
      (packedTokens padSize (samples.map fun s => (teacherSegment s).tokens))) :
    collectTargets kernel tp vocabSize temperature rolloutId width logits
        (samples.map fun s => (teacherSegment s).tokens)
        (samples.map fun s => ((teacherSegment s).tokens.length : Int))
        (samples.map Sample.responseLength) (samples.map Sample.index) =
      .ok (collected kernel tp vocabSize width temperature rolloutId logits.rows 0
        (samples.map teacherSegment)) := by
  have hresponses : samples.map Sample.responseLength =
      (samples.map teacherSegment).map fun seg => (seg.response : Int) := by
    rw [List.map_map]
    apply List.map_congr_left
    intro s hs
    exact (Int.toNat_of_nonneg (haccepted s hs).nonneg).symm
  have hindices : samples.map Sample.index =
      (samples.map teacherSegment).map fun seg => some seg.index := by
    rw [List.map_map]
    apply List.map_congr_left
    intro s hs
    exact (haccepted s hs).indexed.symm
  have hvalid : ∀ seg ∈ samples.map teacherSegment, seg.Valid := by
    intro seg hseg
    obtain ⟨s, hs, rfl⟩ := List.mem_map.mp hseg
    exact (haccepted s hs).teacher
  have hrows : 0 + packedLength (samples.map teacherSegment) ≤ logits.rows.length := by
    rw [Nat.zero_add]
    exact hlogits.packed_le teacherSegment
  have hloop := @collectTargetsFrom_ok 𝕜 ρ τ ν _ _ kernel tp vocabSize temperature
    rolloutId logits (hlogits.vocab hvocab htemp) _ hvalid 0 hrows
  rw [← hresponses, ← hindices, List.map_map, List.map_map, hlogits.localVocab] at hloop
  unfold collectTargets
  rw [check_of hlogits.localVocab, except_ok_bind, hlogits.head, except_ok_bind]
  exact hloop

omit [LinearOrder 𝕜] [Zero 𝕜] in
/-- The targets the scoring pass collects for a microbatch fit the student's
segments of the same samples. -/
theorem collected_fits (haccepted : ∀ s ∈ samples, Accepted s)
    {rows : List ρ} :
    ∀ {offset : Nat}, offset + packedLength (samples.map teacherSegment) ≤ rows.length →
      List.Forall₂ (Fits config vocabSize (tp.rank * width)
          (validWidth tp vocabSize width) rolloutId)
        (samples.map studentSegment)
        (collected kernel tp vocabSize width config.temperature rolloutId rows offset
          (samples.map teacherSegment)) := by
  induction samples with
  | nil => intro offset _; exact List.Forall₂.nil
  | cons s ss ih =>
      intro offset hrows
      rw [List.map_cons, packedLength_cons] at hrows
      have hs : Accepted s := haccepted s (by simp)
      refine List.Forall₂.cons ?_ (ih (fun t ht => haccepted t (by simp [ht])) (by omega))
      refine ⟨?_, ?_, rfl, rfl, rfl⟩
      · simp only [targetAt, OPSDTarget.identity, expectedIdentity, responseTokens_eq hs]
        rfl
      · show (List.map _ (predictionBlock rows offset (teacherSegment s))).length = _
        rw [List.length_map, predictionBlock_length hs.teacher (by omega)]
        rfl

/-- The columns of a microbatch of accepted samples, as the loops read them. -/
structure BatchOf (samples : List Sample) (rolloutId : Int) (batch : LossBatch 𝕜 τ) :
    Prop where
  totals : batch.totalLengths =
    (samples.map studentSegment).map fun seg => (seg.tokens.length : Int)
  responses : batch.responseLengths =
    (samples.map studentSegment).map fun seg => (seg.response : Int)
  indices : batch.sampleIndices =
    (samples.map studentSegment).map fun seg => some seg.index
  tokens : batch.unconcatTokens = (samples.map studentSegment).map Segment.tokens
  masks : batch.lossMasks = samples.map Sample.lossMask
  rolloutIds : batch.opsdRolloutIds =
    (samples.map studentSegment).map fun _ => rolloutId

omit [LinearOrder 𝕜] [Zero 𝕜] in
theorem batchOf_trainingMicrobatch (haccepted : ∀ s ∈ samples, Accepted s)
    {m j : Nat} {targets : List (OPSDTarget 𝕜 τ)}
    (htargets : targets.length = samples.length) :
    BatchOf (microbatch m j samples) rolloutId
      (trainingMicrobatch m j (rolloutData samples) rolloutId targets) := by
  have hmem : ∀ s ∈ microbatch m j samples, Accepted s := fun s hs =>
    haccepted s (mem_of_mem_microbatch hs)
  refine ⟨?_, ?_, ?_, ?_, microbatch_map _ _ _ _, ?_⟩
  · rw [List.map_map]
    refine (microbatch_map _ _ _ _).trans (List.map_congr_left fun s hs => ?_)
    exact (hmem s hs).total
  · rw [List.map_map]
    refine (microbatch_map _ _ _ _).trans (List.map_congr_left fun s hs => ?_)
    exact (Int.toNat_of_nonneg (hmem s hs).nonneg).symm
  · rw [List.map_map]
    refine (microbatch_map _ _ _ _).trans (List.map_congr_left fun s hs => ?_)
    exact (hmem s hs).indexed.symm
  · rw [List.map_map]
    exact microbatch_map _ _ _ _
  · rw [List.map_map]
    have hreplicate : List.replicate targets.length rolloutId =
        samples.map fun _ => rolloutId := by
      rw [htargets, List.map_const']
    show microbatch m j (List.replicate targets.length rolloutId) = _
    rw [hreplicate]
    exact microbatch_map _ _ _ _

omit [LinearOrder 𝕜] [Zero 𝕜] in
theorem masksFit_iff :
    MasksFit (samples.map Sample.lossMask) (samples.map studentSegment) ↔
      ∀ s ∈ samples, BinaryMask s.lossMask s.responseLength.toNat := by
  induction samples with
  | nil => simp [MasksFit]
  | cons s ss ih =>
      rw [List.map_cons, List.map_cons, masksFit_cons, ih, List.forall_mem_cons]
      rfl

/-- The reference loop over a microbatch of accepted samples whose targets fit:
the masks decide whether it returns. -/
theorem referenceRows_of_fits (haccepted : ∀ s ∈ samples, Accepted s)
    (hvocab : 0 < vocabSize ∧ vocabSize ≤ width * tp.size)
    (htemp : 0 < config.temperature) {student : Logits ρ}
    (hstudent : OfPacked student width
      (packedTokens padSize (samples.map Sample.tokens)))
    {batch : LossBatch 𝕜 τ} (hbatch : BatchOf samples rolloutId batch)
    (hfits : List.Forall₂ (Fits config vocabSize (tp.rank * width)
      (validWidth tp vocabSize width) rolloutId) (samples.map studentSegment)
      batch.opsdTargets) :
    referenceRows kernel tp vocabSize (tp.rank * width) config student batch =
      if ∀ s ∈ samples, BinaryMask s.lossMask s.responseLength.toNat then
        .ok (paired kernel vocabSize config student.rows 0 (samples.map studentSegment)
          batch.opsdTargets batch.lossMasks)
      else .error maskError := by
  have hvalid : ∀ seg ∈ samples.map studentSegment, seg.Valid := by
    intro seg hseg
    obtain ⟨s, hs, rfl⟩ := List.mem_map.mp hseg
    exact (haccepted s hs).student
  have hrows : 0 + packedLength (samples.map studentSegment) ≤ student.rows.length := by
    rw [Nat.zero_add]
    exact hstudent.packed_le studentSegment
  rw [← hstudent.localVocab] at hfits
  have hmasks : batch.lossMasks.length = (samples.map studentSegment).length := by
    rw [hbatch.masks, List.length_map, List.length_map]
  have hloop := @referenceRowsFrom_of_fits 𝕜 ρ τ ν _ _ kernel tp vocabSize _ config
    rolloutId student (hstudent.vocab hvocab htemp) _ hvalid 0 _ _ hfits hmasks hrows
  unfold referenceRows
  rw [hstudent.head, except_ok_bind, hbatch.totals, hbatch.responses, hbatch.indices,
    hbatch.tokens, hbatch.rolloutIds, ← hstudent.localVocab]
  refine hloop.trans ?_
  by_cases hall : ∀ s ∈ samples, BinaryMask s.lossMask s.responseLength.toNat
  · rw [if_pos hall, if_pos (by rw [hbatch.masks]; exact masksFit_iff.mpr hall)]
  · rw [if_neg hall, if_neg (by
      rw [hbatch.masks]
      exact fun h => hall (masksFit_iff.mp h))]

/-- The reference loop over the targets its own scoring pass collected. -/
theorem referenceRows_batch (haccepted : ∀ s ∈ samples, Accepted s)
    (hvocab : 0 < vocabSize ∧ vocabSize ≤ width * tp.size)
    (htemp : 0 < config.temperature) {teacher student : Logits ρ}
    (hteacher : OfPacked teacher width
      (packedTokens padSize (samples.map fun s => (teacherSegment s).tokens)))
    (hstudent : OfPacked student width
      (packedTokens padSize (samples.map Sample.tokens)))
    {batch : LossBatch 𝕜 τ} (hbatch : BatchOf samples rolloutId batch)
    (htargets : batch.opsdTargets =
      collected kernel tp vocabSize width config.temperature rolloutId teacher.rows 0
        (samples.map teacherSegment)) :
    referenceRows kernel tp vocabSize (tp.rank * width) config student batch =
      if ∀ s ∈ samples, BinaryMask s.lossMask s.responseLength.toNat then
        .ok (paired kernel vocabSize config student.rows 0 (samples.map studentSegment)
          batch.opsdTargets batch.lossMasks)
      else .error maskError := by
  have hteacherRows :
      0 + packedLength (samples.map teacherSegment) ≤ teacher.rows.length := by
    rw [Nat.zero_add]
    exact hteacher.packed_le teacherSegment
  have hfits := @collected_fits 𝕜 ρ τ ν kernel tp vocabSize width config rolloutId
    samples haccepted teacher.rows 0 hteacherRows
  rw [← htargets] at hfits
  exact referenceRows_of_fits haccepted hvocab htemp hstudent hbatch hfits

/-- How the losses of one sample pair the rows of its two packings. -/
structure AlignedRow (kernel : RowKernel 𝕜 ρ τ ν) (vocabSize : Nat)
    (config : OPSDLossConfig 𝕜) (teacher student : Logits ρ)
    (teacherPacked studentPacked : List Int) (teacherOffset studentOffset : Nat)
    (sample : Sample) (losses : List ν) : Prop where
  one_per_token : losses.length = sample.responseLength.toNat
  rows : ∀ k (hk : k < losses.length), ∃ p q x y token,
    Predicts teacherPacked teacherOffset (teacherSegment sample) k p token ∧
    Predicts studentPacked studentOffset (studentSegment sample) k q token ∧
    teacher.rows[p]? = some x ∧ student.rows[q]? = some y ∧
    losses[k] = kernel.loss config vocabSize y
      (kernel.logSoftmax vocabSize config.temperature x)

omit [LinearOrder 𝕜] [Zero 𝕜] in
theorem alignedRow_of_blocks {teacher student : Logits ρ}
    {teacherPacked studentPacked : List Int} {teacherOffset studentOffset : Nat}
    {sample : Sample} (haccepted : Accepted sample)
    (hteacherSegment :
      (teacherPacked.drop teacherOffset).take (teacherSegment sample).tokens.length =
        (teacherSegment sample).tokens)
    (hstudentSegment :
      (studentPacked.drop studentOffset).take (studentSegment sample).tokens.length =
        (studentSegment sample).tokens)
    (hteacherRows :
      teacherOffset + (teacherSegment sample).tokens.length ≤ teacher.rows.length)
    (hstudentRows :
      studentOffset + (studentSegment sample).tokens.length ≤ student.rows.length) :
    AlignedRow kernel vocabSize config teacher student teacherPacked studentPacked
      teacherOffset studentOffset sample
      (List.zipWith (kernel.loss config vocabSize)
        (predictionBlock student.rows studentOffset (studentSegment sample))
        ((predictionBlock teacher.rows teacherOffset (teacherSegment sample)).map
          (kernel.logSoftmax vocabSize config.temperature))) := by
  have hs := predictionBlock_length haccepted.student hstudentRows
  have ht := predictionBlock_length haccepted.teacher hteacherRows
  have hsr : (studentSegment sample).response = sample.responseLength.toNat := rfl
  have htr : (teacherSegment sample).response = sample.responseLength.toNat := rfl
  have hlen : (List.zipWith (kernel.loss config vocabSize)
      (predictionBlock student.rows studentOffset (studentSegment sample))
      ((predictionBlock teacher.rows teacherOffset (teacherSegment sample)).map
        (kernel.logSoftmax vocabSize config.temperature))).length =
      sample.responseLength.toNat := by
    rw [List.length_zipWith, List.length_map, hs, ht, hsr, htr, Nat.min_self]
  refine ⟨hlen, ?_⟩
  intro k hk
  rw [hlen] at hk
  have hks : k < (predictionBlock student.rows studentOffset
      (studentSegment sample)).length := by rw [hs]; exact hk
  have hkt : k < (predictionBlock teacher.rows teacherOffset
      (teacherSegment sample)).length := by rw [ht]; exact hk
  have hproper := haccepted.student
  have hresponse : k < (studentSegment sample).responseTokens.length := by
    unfold Segment.Valid at hproper
    rw [Segment.responseTokens, List.length_drop]
    omega
  have htoken := List.getElem?_eq_getElem hresponse
  refine ⟨_, _,
    (predictionBlock teacher.rows teacherOffset (teacherSegment sample))[k],
    (predictionBlock student.rows studentOffset (studentSegment sample))[k], _,
    predicts_of_packed haccepted.teacher hteacherSegment hk
      (by rw [responseTokens_eq haccepted]; exact htoken),
    predicts_of_packed haccepted.student hstudentSegment hk htoken, ?_, ?_, ?_⟩
  · rw [← predictionBlock_getElem? haccepted.teacher hk, List.getElem?_eq_getElem hkt]
  · rw [← predictionBlock_getElem? haccepted.student hk, List.getElem?_eq_getElem hks]
  · rw [List.getElem_zipWith, List.getElem_map]

/-- Unmasked labels survive the reduction's conversion to booleans. -/
theorem count_true_ne_zero {masks : List (List Int)}
    (h : (masks.map List.sum).sum ≠ 0) :
    (masks.map fun mask => mask.map fun entry => decide (entry ≠ 0)).flatten.count
      true ≠ 0 := by
  intro hcount
  apply h
  have hzero : ∀ mask ∈ masks, ∀ entry ∈ mask, entry = 0 := by
    intro mask hmask entry hentry
    by_contra hne
    refine List.count_eq_zero.mp hcount (List.mem_flatten.mpr ⟨_, List.mem_map_of_mem hmask, ?_⟩)
    exact List.mem_map.mpr ⟨entry, hentry, by simp [hne]⟩
  refine List.sum_eq_zero fun total htotal => ?_
  obtain ⟨mask, hmask, rfl⟩ := List.mem_map.mp htotal
  exact List.sum_eq_zero (hzero mask hmask)

/-- The scoring pass over a whole accepted batch. -/
theorem scoreTargets_ok {temperature : 𝕜} {m : Nat}
    (hwhole : samples.length % m = 0) (haccepted : ∀ s ∈ samples, Accepted s)
    (hvocab : 0 < vocabSize ∧ vocabSize ≤ width * tp.size) (htemp : 0 < temperature)
    {data : RolloutData}
    (hdata : data =
      { tokens := samples.map fun sample => (teacherSegment sample).tokens
        totalLengths := samples.map fun sample =>
          ((teacherSegment sample).tokens.length : Int)
        responseLengths := samples.map Sample.responseLength
        lossMasks := samples.map Sample.lossMask
        sampleIndices := samples.map Sample.index
        teacherPromptIds := none })
    {teacher : Nat → Logits ρ}
    (hteacher : ∀ j < samples.length / m, OfPacked (teacher j) width
      (packedTokens padSize (microbatch m j data.tokens))) :
    ∃ targets,
      scoreTargets kernel tp vocabSize temperature rolloutId width m data teacher =
        .ok targets ∧
      targets.length = samples.length ∧
      ∀ j < samples.length / m, microbatch m j targets =
        collected kernel tp vocabSize width temperature rolloutId (teacher j).rows 0
          ((microbatch m j samples).map teacherSegment) := by
  subst hdata
  have hlen : samples.length / m * m = samples.length :=
    Nat.div_mul_cancel (Nat.dvd_of_mod_eq_zero hwhole)
  let block : Nat → List (OPSDTarget 𝕜 τ) := fun j =>
    collected kernel tp vocabSize width temperature rolloutId (teacher j).rows 0
      ((microbatch m j samples).map teacherSegment)
  have hsize : ∀ b ∈ (List.range (samples.length / m)).map block, b.length = m := by
    intro b hb
    obtain ⟨j, hj, rfl⟩ := List.mem_map.mp hb
    have hle : (j + 1) * m ≤ samples.length := by
      rw [← hlen]
      exact Nat.mul_le_mul_right m (List.mem_range.mp hj)
    show (collected _ _ _ _ _ _ _ _ _).length = m
    rw [collected_length, List.length_map, microbatch_length hle]
  have hblocks : ∀ j ∈ List.range (samples.length / m),
      collectTargets kernel tp vocabSize temperature rolloutId width (teacher j)
        (microbatch m j (samples.map fun s => (teacherSegment s).tokens))
        (microbatch m j (samples.map fun s => ((teacherSegment s).tokens.length : Int)))
        (microbatch m j (samples.map Sample.responseLength))
        (microbatch m j (samples.map Sample.index)) = .ok (block j) := by
    intro j hj
    have hlogits := hteacher j (List.mem_range.mp hj)
    simp only [microbatch_map] at hlogits ⊢
    exact collectTargets_ok
      (fun s hs => haccepted s (mem_of_mem_microbatch hs)) hvocab htemp hlogits
  have horder : (((List.range (samples.length / m)).map block).flatten).map
      (fun target => some target.sampleIndex) = samples.map Sample.index := by
    have hindex : ∀ j, (block j).map (fun target => some target.sampleIndex) =
        microbatch m j (samples.map Sample.index) := by
      intro j
      show (collected _ _ _ _ _ _ _ _ _).map _ = _
      rw [collected_index, List.map_map, microbatch_map]
      apply List.map_congr_left
      intro s hs
      exact (haccepted s (mem_of_mem_microbatch hs)).indexed
    rw [List.map_flatten, List.map_map]
    have hmap : (List.range (samples.length / m)).map
        ((List.map fun target => some target.sampleIndex) ∘ block) =
        (List.range (samples.length / m)).map fun j =>
          microbatch m j (samples.map Sample.index) :=
      List.map_congr_left fun j _ => hindex j
    rw [hmap, flatten_microbatches (by rw [List.length_map, hlen])]
  refine ⟨((List.range (samples.length / m)).map block).flatten, ?_, ?_, ?_⟩
  · unfold scoreTargets forwardTargets
    simp only [except_ok_bind]
    rw [List.length_map, except_mapM_eq_ok hblocks, except_ok_bind, except_ok_bind]
    simp only [check_of horder, except_ok_bind]
  · have := congrArg List.length horder
    rw [List.length_map, List.length_map] at this
    exact this
  · intro j hj
    rw [microbatch_flatten hsize (by simpa using hj), List.getElem_map,
      List.getElem_range]

/-- What both passes make of one microbatch of an accepted batch: with a mask
per response the reference loop pairs the rows of every sample and the loss is
defined, without one the mask check is what raises, and targets of any other
identity are refused. -/
structure MicrobatchAligned [DivisionRing ν] (kernel : RowKernel 𝕜 ρ τ ν) (tp : Tp)
    (vocabSize padSize : Nat) (config : OPSDLossConfig 𝕜) (teacher student : Logits ρ)
    (samples : List Sample) (batch : LossBatch 𝕜 τ) : Prop where
  paired : (∀ s ∈ samples, BinaryMask s.lossMask s.responseLength.toNat) →
    ∃ rows,
      referenceRows kernel tp vocabSize (tp.rank * student.localVocab) config student
        batch = .ok rows ∧
      (∃ result, referenceLoss kernel tp vocabSize (tp.rank * student.localVocab) config
        .reference student batch = .ok result) ∧
      rows.length = samples.length ∧
      ∀ i (hi : i < samples.length) (hr : i < rows.length),
        AlignedRow kernel vocabSize config teacher student
          (packedTokens padSize (samples.map fun s => (teacherSegment s).tokens))
          (packedTokens padSize (samples.map Sample.tokens))
          (segmentOffset (samples.map fun s => (teacherSegment s).tokens.length) i)
          (segmentOffset (samples.map fun s => s.tokens.length) i)
          samples[i] rows[i].1
  unmasked : (¬ ∀ s ∈ samples, BinaryMask s.lossMask s.responseLength.toNat) →
    referenceRows kernel tp vocabSize (tp.rank * student.localVocab) config student
      batch = .error maskError
  refused : ∀ other reduction result,
    referenceLoss kernel tp vocabSize (tp.rank * student.localVocab) config reduction
        student { batch with opsdTargets := other } = .ok result →
      other.map OPSDTarget.identity = batch.opsdTargets.map OPSDTarget.identity

omit [LinearOrder 𝕜] [Zero 𝕜] in
/-- The identities a microbatch asks for are the ones its targets carry. -/
theorem expectedIdentities_of_fits {vocabStart cols : Nat} {segs : List Segment} :
    ∀ {targets : List (OPSDTarget 𝕜 τ)}, (∀ seg ∈ segs, seg.Valid) →
      List.Forall₂ (Fits config vocabSize vocabStart cols rolloutId) segs targets →
      targets.map OPSDTarget.identity =
        expectedIdentities config vocabSize vocabStart
          (segs.map fun seg => some seg.index) (segs.map fun _ => rolloutId)
          (segs.map Segment.tokens) (segs.map fun seg => (seg.response : Int)) := by
  induction segs with
  | nil => intro targets _ h; cases h; rfl
  | cons seg segs ih =>
      intro targets hvalid h
      cases h with
      | cons hfit hfits =>
          simp only [List.map_cons, expectedIdentities]
          rw [hfit.identity, responseIds_segment (hvalid seg (by simp)),
            ih (fun s hs => hvalid s (by simp [hs])) hfits]

omit [LinearOrder 𝕜] [Zero 𝕜] in
/-- The losses of one sample against the targets its own scoring pass
collected. -/
theorem paired_alignedRow {kernel : RowKernel 𝕜 ρ τ ν}
    (haccepted : ∀ s ∈ samples, Accepted s) {teacher student : Logits ρ}
    (hteacher : OfPacked teacher width
      (packedTokens padSize (samples.map fun s => (teacherSegment s).tokens)))
    (hstudent : OfPacked student width
      (packedTokens padSize (samples.map Sample.tokens)))
    {batch : LossBatch 𝕜 τ} (hbatch : BatchOf samples rolloutId batch)
    (htargets : batch.opsdTargets =
      collected kernel tp vocabSize width config.temperature rolloutId teacher.rows 0
        (samples.map teacherSegment)) {i : Nat} (hi : i < samples.length)
    (hr : i < (paired kernel vocabSize config student.rows 0
      (samples.map studentSegment) batch.opsdTargets batch.lossMasks).length) :
    AlignedRow kernel vocabSize config teacher student
      (packedTokens padSize (samples.map fun s => (teacherSegment s).tokens))
      (packedTokens padSize (samples.map Sample.tokens))
      (segmentOffset (samples.map fun s => (teacherSegment s).tokens.length) i)
      (segmentOffset (samples.map fun s => s.tokens.length) i)
      samples[i]
      (paired kernel vocabSize config student.rows 0 (samples.map studentSegment)
        batch.opsdTargets batch.lossMasks)[i].1 := by
  have hsegment : i < (samples.map studentSegment).length := by simpa using hi
  have hsome : i < batch.opsdTargets.length := by
    rw [htargets, collected_length, List.length_map]
    exact hi
  have hmask : i < batch.lossMasks.length := by
    rw [hbatch.masks, List.length_map]
    exact hi
  have hentry := @paired_getElem? 𝕜 ρ τ ν kernel vocabSize config student.rows
    (samples.map studentSegment) 0 i _ _ hsegment hsome hmask
  rw [List.getElem?_eq_getElem hr, Option.map_some, Option.some_inj] at hentry
  have htarget := @collected_getElem? 𝕜 ρ τ ν kernel tp vocabSize width
    config.temperature rolloutId teacher.rows (samples.map teacherSegment) 0 i
    (by simpa using hi)
  rw [← htargets, List.getElem?_eq_getElem hsome, Option.some_inj] at htarget
  rw [hentry, htarget]
  simp only [List.map_map, List.getElem_map, Nat.zero_add, targetAt]
  exact alignedRow_of_blocks (haccepted _ (List.getElem_mem hi))
    (sample_of_packed teacherSegment hi) (sample_of_packed studentSegment hi)
    (hteacher.segment_le teacherSegment hi) (hstudent.segment_le studentSegment hi)

/-- The reduction is defined once some label of the batch is unmasked. -/
theorem referenceLoss_of_rows [DivisionRing ν] {kernel : RowKernel 𝕜 ρ τ ν}
    {vocabStart : Nat} {student : Logits ρ} {batch : LossBatch 𝕜 τ}
    {rows : List (List ν × List Bool)} (hne : rows ≠ [])
    (hrows : referenceRows kernel tp vocabSize vocabStart config student batch = .ok rows)
    (hcount : (rows.map Prod.snd).flatten.count true ≠ 0) :
    ∃ result, referenceLoss kernel tp vocabSize vocabStart config .reference student
      batch = .ok result := by
  unfold referenceLoss
  rw [hrows, except_ok_bind]
  simp only [check_of hne, check_of hcount, except_ok_bind]
  exact ⟨_, rfl⟩

theorem microbatchAligned [DivisionRing ν] {kernel : RowKernel 𝕜 ρ τ ν}
    (hne : samples ≠ []) (haccepted : ∀ s ∈ samples, Accepted s)
    (hmasks : ((samples.map Sample.lossMask).map List.sum).sum ≠ 0)
    (hvocab : 0 < vocabSize ∧ vocabSize ≤ width * tp.size)
    (htemp : 0 < config.temperature) {teacher student : Logits ρ}
    (hteacher : OfPacked teacher width
      (packedTokens padSize (samples.map fun s => (teacherSegment s).tokens)))
    (hstudent : OfPacked student width
      (packedTokens padSize (samples.map Sample.tokens)))
    {batch : LossBatch 𝕜 τ} (hbatch : BatchOf samples rolloutId batch)
    (htargets : batch.opsdTargets =
      collected kernel tp vocabSize width config.temperature rolloutId teacher.rows 0
        (samples.map teacherSegment)) :
    MicrobatchAligned kernel tp vocabSize padSize config teacher student samples
      batch := by
  have hrows := referenceRows_batch haccepted hvocab htemp hteacher hstudent hbatch
    htargets
  rw [← hstudent.localVocab] at hrows
  refine ⟨?_, ?_, ?_⟩
  · intro hall
    rw [if_pos hall] at hrows
    have hlen : batch.opsdTargets.length = (samples.map studentSegment).length := by
      rw [htargets, collected_length, List.length_map, List.length_map]
    have hmasklen : batch.lossMasks.length = (samples.map studentSegment).length := by
      rw [hbatch.masks, List.length_map, List.length_map]
    have hpaired := @paired_length 𝕜 ρ τ ν kernel vocabSize config student.rows
      (samples.map studentSegment) 0 _ _ hlen hmasklen
    have hsnd := @paired_masks 𝕜 ρ τ ν kernel vocabSize config student.rows
      (samples.map studentSegment) 0 _ _ hlen hmasklen
    have hnonempty : paired kernel vocabSize config student.rows 0
        (samples.map studentSegment) batch.opsdTargets batch.lossMasks ≠ [] := by
      rw [← List.length_pos_iff, hpaired, List.length_map, List.length_pos_iff]
      exact hne
    have hcount := count_true_ne_zero (hbatch.masks ▸ hmasks)
    rw [← hsnd] at hcount
    refine ⟨_, hrows, referenceLoss_of_rows hnonempty hrows hcount,
      by rw [hpaired, List.length_map], ?_⟩
    intro i hi hr
    exact paired_alignedRow haccepted hteacher hstudent hbatch htargets hi hr
  · intro hall
    rw [hrows, if_neg hall]
  · intro other reduction result h
    have hvalid : ∀ seg ∈ samples.map studentSegment, seg.Valid := by
      intro seg hseg
      obtain ⟨s, hs, rfl⟩ := List.mem_map.mp hseg
      exact (haccepted s hs).student
    have hteacherRows : 0 + packedLength (samples.map teacherSegment) ≤
        teacher.rows.length := by
      rw [Nat.zero_add]
      exact hteacher.packed_le teacherSegment
    have hfits := @collected_fits 𝕜 ρ τ ν kernel tp vocabSize width config rolloutId
      samples haccepted teacher.rows 0 hteacherRows
    rw [← htargets, ← hstudent.localVocab] at hfits
    rw [expectedIdentities_of_fits hvalid hfits, ← hbatch.indices, ← hbatch.tokens,
      ← hbatch.rolloutIds, ← hbatch.responses]
    simp only [referenceLoss, referenceRows, except_bind_eq_ok] at h
    obtain ⟨out, ⟨-, -, hout⟩, -⟩ := h
    exact referenceRowsFrom_identity le_rfl hout

end Passes

/-- **Teacher/student alignment.** Whatever batch `teacher_batch` accepts, the
scoring pass collects its targets, and on every microbatch the reference loss
pairs, for each response token, the teacher row and the student row before that
token in its own packed segment. -/
theorem teacher_student_alignment [LinearOrder 𝕜] [Zero 𝕜] [DivisionRing ν]
    {kernel : RowKernel 𝕜 ρ τ ν} {tp : Tp} {vocabSize width padSize : Nat}
    {config : OPSDLossConfig 𝕜} {rolloutId : Int} {samples : List Sample}
    {limits : TargetLimits} {data : RolloutData}
    (hbatch : teacherBatch (rolloutData samples) limits = .ok data)
    (hvocab : 0 < vocabSize ∧ vocabSize ≤ width * tp.size)
    (htemp : 0 < config.temperature) {teacher student : Nat → Logits ρ}
    (hteacher : ∀ j < samples.length / limits.microBatchSize,
      OfPacked (teacher j) width
        (packedTokens padSize (microbatch limits.microBatchSize j data.tokens)))
    (hstudent : ∀ j < samples.length / limits.microBatchSize,
      OfPacked (student j) width
        (packedTokens padSize
          (microbatch limits.microBatchSize j (rolloutData samples).tokens))) :
    ∃ targets : List (OPSDTarget 𝕜 τ),
      scoreTargets kernel tp vocabSize config.temperature rolloutId width
        limits.microBatchSize data teacher = .ok targets ∧
      ∀ j < samples.length / limits.microBatchSize,
        MicrobatchAligned kernel tp vocabSize padSize config (teacher j) (student j)
          (microbatch limits.microBatchSize j samples)
          (trainingMicrobatch limits.microBatchSize j (rolloutData samples) rolloutId
            targets) := by
  obtain ⟨haccepted, hm, hwhole, hmasks, hdata⟩ := teacherBatch_ok hbatch
  obtain ⟨targets, hscore, hlength, hblock⟩ :=
    @scoreTargets_ok 𝕜 ρ τ ν _ _ kernel tp vocabSize width padSize rolloutId samples _ _
      hwhole haccepted hvocab htemp _ hdata _ hteacher
  refine ⟨targets, hscore, ?_⟩
  intro j hj
  have hle : (j + 1) * limits.microBatchSize ≤ samples.length := by
    rw [← Nat.div_mul_cancel (Nat.dvd_of_mod_eq_zero hwhole)]
    exact Nat.mul_le_mul_right _ hj
  have hT := hteacher j hj
  have hS := hstudent j hj
  rw [hdata] at hT
  simp only [rolloutData, microbatch_map] at hT hS
  refine microbatchAligned ?_ (fun s hs => haccepted s (mem_of_mem_microbatch hs)) ?_
    hvocab htemp hT hS (batchOf_trainingMicrobatch haccepted hlength) (hblock j hj)
  · rw [← List.length_pos_iff, microbatch_length hle]
    exact hm
  · rw [← microbatch_map]
    exact hmasks j hj

/-- Two samples with prefixes of different lengths, on both sides. -/
def twoSamples : List Sample :=
  [ { index := some 17, tokens := [1, 2, 3, 4], totalLength := 4, responseLength := 2
      lossMask := [1, 1], teacherPromptIds := [4, 3, 2] },
    { index := some 8, tokens := [2, 1, 3, 2, 4], totalLength := 5, responseLength := 1
      lossMask := [1], teacherPromptIds := [1] } ]

def twoSampleLimits : TargetLimits :=
  { seqLength := 16, localVocabWidth := 5, cacheBytes := 1024, microbatchBytes := 1024
    microBatchSize := 2 }

/-- What `teacher_batch` makes of them. -/
def twoSampleTeacher : RolloutData :=
  { tokens := [[4, 3, 2, 3, 4], [1, 4]]
    totalLengths := [5, 2]
    responseLengths := [2, 1]
    lossMasks := [[1, 1], [1]]
    sampleIndices := [some 17, some 8]
    teacherPromptIds := none }

/-- A model output whose rows are their own positions. -/
def positions (packed : List Int) : Logits Nat :=
  { ndim := 3, size0 := 1, localVocab := 5, isFloating := true
    rows := List.range packed.length }

/-- Kernels that keep the positions they are given apart. -/
def positionKernel : RowKernel ℚ Nat Nat ℚ :=
  { logSoftmax := fun _ _ row => row
    loss := fun _ _ student teacher => 100 * student + teacher }

theorem teacher_student_alignment_twoSamples :
    ∃ targets : List (OPSDTarget ℚ Nat),
      scoreTargets positionKernel ⟨0, 1⟩ 5 (11 / 10) 7 5 2 twoSampleTeacher
        (fun j => positions (packedTokens 8 (microbatch 2 j twoSampleTeacher.tokens))) =
        .ok targets ∧
      ∀ j < twoSamples.length / 2,
        MicrobatchAligned positionKernel ⟨0, 1⟩ 5 8 ⟨0, 11 / 10, none⟩
          (positions (packedTokens 8 (microbatch 2 j twoSampleTeacher.tokens)))
          (positions (packedTokens 8
            (microbatch 2 j (rolloutData twoSamples).tokens)))
          (microbatch 2 j twoSamples)
          (trainingMicrobatch 2 j (rolloutData twoSamples) 7 targets) :=
  @teacher_student_alignment ℚ Nat Nat ℚ _ _ _ positionKernel ⟨0, 1⟩ 5 5 8
    ⟨0, 11 / 10, none⟩ 7 twoSamples twoSampleLimits twoSampleTeacher rfl
    ⟨by decide, by decide⟩ (by norm_num)
    (fun j => positions (packedTokens 8 (microbatch 2 j twoSampleTeacher.tokens)))
    (fun j => positions (packedTokens 8
      (microbatch 2 j (rolloutData twoSamples).tokens)))
    (fun _ _ => ⟨rfl, rfl, rfl, rfl, List.length_range⟩)
    (fun _ _ => ⟨rfl, rfl, rfl, rfl, List.length_range⟩)

end Crisp.Proofs
