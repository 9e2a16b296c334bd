import Crisp.Proofs.Alignment
import Crisp.Ref.Scoring

/-!
# What admission promises the loss

`teacher_batch` looks at the masks of a whole microbatch, before any scoring;
the loss looks at them again, and under one of its reductions at those of every
sample. In between, `score_teacher` may make up to three more passes and mix
their rows, but whatever the target mode, what it returns fits the samples that
were admitted: `Fits` is read off the pass that returned, not off the model's
output, so nothing has to be assumed of the teacher.
-/

namespace Crisp.Proofs

open Crisp.Lib Crisp.Ref

variable {ι α ρ τ ν : Type} {kernel : RowKernel ℚ ρ τ ν} {tp : Tp} {vocabSize : Nat}
  {temperature : ℚ} {rolloutId : Int} {width : Nat} {config : OPSDLossConfig ℚ}

/-! ## A pass that returned -/

/-- What every checked row of a pass says of the vocabulary. -/
structure VocabChecked (tp : Tp) (vocabSize width : Nat) (temperature : ℚ) : Prop where
  temperature : 0 < temperature
  vocab : 0 < vocabSize ∧ vocabSize ≤ width * tp.size

theorem vocabChecked_of_ok {isFloating : Bool} {u : Unit}
    (h : checkVocab tp vocabSize width isFloating temperature = .ok u) :
    VocabChecked tp vocabSize width temperature := by
  unfold checkVocab at h
  simp only [except_bind_eq_ok, check_eq_ok] at h
  obtain ⟨-, -, -, htemp, hvocab⟩ := h
  exact ⟨htemp, hvocab⟩

/-- The targets of a pass that returned fit the samples it was given. -/
theorem collectTargetsFrom_fits {samples : List Sample} {logits : Logits ρ}
    (haccepted : ∀ s ∈ samples, Accepted s) (htemp : config.temperature = temperature) :
    ∀ {offset : Int} {targets : List (OPSDTarget ℚ τ)}, 0 ≤ offset →
      collectTargetsFrom kernel tp vocabSize temperature rolloutId logits offset
          (samples.map fun s => ((teacherSegment s).tokens.length : Int))
          (samples.map Sample.responseLength)
          (samples.map fun s => (teacherSegment s).tokens) (samples.map Sample.index) =
        .ok targets →
      List.Forall₂ (Fits config vocabSize (tp.rank * logits.localVocab)
        (validWidth tp vocabSize logits.localVocab) rolloutId)
        (samples.map studentSegment) targets ∧
      (samples ≠ [] → VocabChecked tp vocabSize logits.localVocab temperature) := by
  induction samples with
  | nil =>
      intro offset targets _ h
      rw [← Except.ok.inj h]
      exact ⟨.nil, fun hne => absurd rfl hne⟩
  | cons s ss ih =>
      intro offset targets hoffset h
      have hs : Accepted s := haccepted s (by simp)
      simp only [List.map_cons, collectTargetsFrom, except_bind_eq_ok] at h
      obtain ⟨block, hblock, h⟩ := h
      obtain ⟨hlength, hpos⟩ := responseLogitsNext_length hoffset hblock
      rw [← hs.indexed] at h
      obtain ⟨_, hcheck, _, hindex, rest, hrest, h⟩ := h
      obtain rfl := Option.some.inj (pyInt_eq_ok.mp hindex)
      rw [← Except.ok.inj h]
      obtain ⟨hfits, -⟩ := ih (fun t ht => haccepted t (by simp [ht])) (by omega) hrest
      refine ⟨.cons ⟨?_, ?_, rfl, rfl, rfl⟩ hfits, fun _ => vocabChecked_of_ok hcheck⟩
      · have hresponse : (s.responseLength : Int) = (teacherSegment s).response :=
          (Int.toNat_of_nonneg hs.nonneg).symm
        simp only [OPSDTarget.identity, expectedIdentity, htemp, ← responseTokens_eq hs]
        rw [hresponse, responseIds_segment hs.teacher]
        rfl
      · rw [List.length_map]
        show block.length = s.responseLength.toNat
        omega

theorem collectTargets_fits {samples : List Sample} {logits : Logits ρ}
    (haccepted : ∀ s ∈ samples, Accepted s) (htemp : config.temperature = temperature)
    {targets : List (OPSDTarget ℚ τ)}
    (h : collectTargets kernel tp vocabSize temperature rolloutId width logits
        (samples.map fun s => (teacherSegment s).tokens)
        (samples.map fun s => ((teacherSegment s).tokens.length : Int))
        (samples.map Sample.responseLength) (samples.map Sample.index) = .ok targets) :
    List.Forall₂ (Fits config vocabSize (tp.rank * width)
      (validWidth tp vocabSize width) rolloutId) (samples.map studentSegment) targets ∧
    (samples ≠ [] → VocabChecked tp vocabSize width temperature) := by
  unfold collectTargets at h
  simp only [except_bind_eq_ok, check_eq_ok] at h
  obtain ⟨-, rfl, -, -, h⟩ := h
  exact collectTargetsFrom_fits haccepted htemp le_rfl h

/-- What `teacher_batch` turns accepted samples into. -/
def teacherData (samples : List Sample) : RolloutData :=
  { tokens := samples.map fun sample => (teacherSegment sample).tokens
    totalLengths := samples.map fun sample => ((teacherSegment sample).tokens.length : Int)
    responseLengths := samples.map Sample.responseLength
    lossMasks := samples.map Sample.lossMask
    sampleIndices := samples.map Sample.index
    teacherPromptIds := none }

theorem forwardTargets_fits {samples : List Sample} {m : Nat} (hm : 0 < m)
    (hwhole : samples.length % m = 0) (haccepted : ∀ s ∈ samples, Accepted s)
    (htemp : config.temperature = temperature) {logits : Nat → Except PyError (Logits ρ)}
    {targets : List (OPSDTarget ℚ τ)}
    (h : forwardTargets kernel tp vocabSize temperature rolloutId width m
      (teacherData samples) logits = .ok targets) :
    List.Forall₂ (Fits config vocabSize (tp.rank * width)
      (validWidth tp vocabSize width) rolloutId) (samples.map studentSegment) targets ∧
    (samples ≠ [] → VocabChecked tp vocabSize width temperature) := by
  unfold forwardTargets teacherData at h
  simp only [except_bind_eq_ok, List.length_map, microbatch_map] at h
  obtain ⟨blocks, hblocks, h⟩ := h
  rw [← Except.ok.inj h]
  have hlen : samples.length / m * m = samples.length :=
    Nat.div_mul_cancel (Nat.dvd_of_mod_eq_zero hwhole)
  have hall := except_mapM_forall₂ hblocks
  have hblock : ∀ j block, (∃ output, logits j = .ok output ∧
      collectTargets kernel tp vocabSize temperature rolloutId width output
        ((microbatch m j samples).map fun s => (teacherSegment s).tokens)
        ((microbatch m j samples).map fun s => ((teacherSegment s).tokens.length : Int))
        ((microbatch m j samples).map Sample.responseLength)
        ((microbatch m j samples).map Sample.index) = .ok block) →
      List.Forall₂ (Fits config vocabSize (tp.rank * width)
        (validWidth tp vocabSize width) rolloutId)
        ((microbatch m j samples).map studentSegment) block ∧
      (microbatch m j samples ≠ [] → VocabChecked tp vocabSize width temperature) := by
    rintro j block ⟨output, -, hcollect⟩
    exact collectTargets_fits (fun s hs => haccepted s (mem_of_mem_microbatch hs)) htemp
      hcollect
  have hfits : List.Forall₂ (List.Forall₂ (Fits config vocabSize (tp.rank * width)
      (validWidth tp vocabSize width) rolloutId))
      ((List.range (samples.length / m)).map fun j =>
        (microbatch m j samples).map studentSegment) blocks :=
    List.forall₂_map_left_iff.mpr (hall.imp fun j block hj =>
      (hblock j block (except_bind_eq_ok.mp hj)).1)
  refine ⟨?_, fun hne => ?_⟩
  · have hflat := List.rel_flatten hfits
    have hcut : ((List.range (samples.length / m)).map fun j =>
        (microbatch m j samples).map studentSegment).flatten = samples.map studentSegment := by
      simp only [← microbatch_map]
      exact flatten_microbatches (by rw [List.length_map, hlen])
    rwa [hcut] at hflat
  · have hmany : samples.length / m ≠ 0 := fun hzero => by
      rw [hzero, Nat.zero_mul] at hlen
      exact hne (List.length_eq_zero_iff.mp hlen.symm)
    obtain ⟨q, hq⟩ := Nat.exists_eq_succ_of_ne_zero hmany
    rw [hq, List.range_succ_eq_map] at hall
    cases hall with
    | cons hfirst _ =>
        refine (hblock 0 _ (except_bind_eq_ok.mp hfirst)).2 fun hnil => ?_
        have hsize : (microbatch m 0 samples).length = m :=
          microbatch_length (by
            rw [← hlen]
            exact Nat.mul_le_mul_right m (by omega))
        rw [hnil] at hsize
        exact absurd hsize (by simpa using hm.ne)

/-! ## The modes of `score_teacher` -/

/-- Mixing the rows of three passes keeps the first one's identity and shape. -/
theorem transportTargets_fits {transportRow : τ → τ → τ → τ} {vocabStart cols : Nat}
    {segs : List Segment} :
    ∀ {qs rs ps out : List (OPSDTarget ℚ τ)},
      List.Forall₂ (Fits config vocabSize vocabStart cols rolloutId) segs qs →
      transportTargets transportRow qs rs ps = .ok out →
      List.Forall₂ (Fits config vocabSize vocabStart cols rolloutId) segs out := by
  induction segs with
  | nil =>
      intro qs rs ps out hfits h
      cases hfits
      cases rs with
      | cons r rs => cases ps <;> cases h
      | nil =>
          cases ps with
          | cons p ps => cases h
          | nil =>
              rw [← Except.ok.inj h]
              exact .nil
  | cons seg segs ih =>
      intro qs rs ps out hfits h
      obtain _ | ⟨hfit, hfits⟩ := hfits
      cases rs with
      | nil => cases ps <;> cases h
      | cons r rs =>
          cases ps with
          | nil => cases h
          | cons p ps =>
              simp only [transportTargets, except_bind_eq_ok, check_eq_ok] at h
              obtain ⟨-, -, -, ⟨⟨hqr, -⟩, hrp, -⟩, rest, hrest, h⟩ := h
              rw [← Except.ok.inj h]
              refine .cons ⟨hfit.identity, ?_, hfit.columns, hfit.cached⟩ (ih hfits hrest)
              dsimp only
              rw [List.length_map, List.length_zip, List.length_zip, ← hrp, ← hqr,
                Nat.min_self, Nat.min_self]
              exact hfit.positions

/-- What `score_teacher` owes the loss: the samples were admitted, and there is a
target for each that fits it. -/
structure Scored (env : ScoringEnv ρ τ ν) (args : Args) (config : OPSDLossConfig ℚ)
    (rolloutId : Int) (samples : List Sample) (targets : List (OPSDTarget ℚ τ)) : Prop where
  accepted : ∀ s ∈ samples, Accepted s
  size : 0 < args.microBatchSize
  whole : samples.length % args.microBatchSize = 0
  masks : ∀ j < samples.length / args.microBatchSize,
    ((microbatch args.microBatchSize j (samples.map Sample.lossMask)).map List.sum).sum ≠ 0
  fits : List.Forall₂ (Fits config args.vocabSize (env.tp.rank * env.width)
    (validWidth env.tp args.vocabSize env.width) rolloutId)
    (samples.map studentSegment) targets
  vocab : samples ≠ [] →
    VocabChecked env.tp args.vocabSize env.width args.opsdTemperature

/-- A pass returns what its forward does. -/
theorem returns_score {env : ScoringEnv ρ τ ν} {args : Args} {data : RolloutData}
    {width : Nat} {tag : Tag} {call : ScoringCall ι α ρ}
    {Q : List (OPSDTarget ℚ τ) → Prop}
    (h : ∀ logits targets, forwardTargets env.kernel env.tp args.vocabSize
      args.opsdTemperature rolloutId width args.microBatchSize data logits = .ok targets →
      Q targets) :
    Returns (score env args data rolloutId width tag call) Q := by
  refine Returns.any.bind fun actor _ => Returns.try_finally (Returns.any.bind fun _ _ => ?_)
  exact Returns.any.bind fun _ _ => Returns.any.bind fun actor _ =>
    (Returns.lift fun targets ht => h (call.logits actor.live) targets ht).bind
      fun targets ht => Returns.any.bind fun _ _ => Returns.any.bind fun _ _ =>
        Returns.pure ht

/-- `score_teacher`, in any target mode. -/
theorem returns_scoreTeacher [DecidableEq τ] {env : ScoringEnv ρ τ ν} {args : Args}
    {samples : List Sample} {numMicrobatches : List Nat}
    {calls : Nat → ScoringCall ι α ρ} (htemp : config.temperature = args.opsdTemperature) :
    Returns (scoreTeacher env args (rolloutData samples) numMicrobatches rolloutId calls)
      (Scored env args config rolloutId samples) := by
  refine Returns.any.bind fun actor _ => Returns.any.bind fun _ _ =>
    (Returns.lift fun data hdata => hdata).bind fun data hdata => ?_
  obtain ⟨haccepted, hm, hwhole, hmasks, rfl⟩ := teacherBatch_ok hdata
  refine (Returns.noted (returns_score fun logits targets ht => ?_)).bind
    fun targets (hscored : Scored env args config rolloutId samples targets) => ?_
  · obtain ⟨hfits, hvocab⟩ := forwardTargets_fits hm hwhole haccepted htemp ht
    exact ⟨haccepted, hm, hwhole, hmasks, hfits, hvocab⟩
  · refine Returns.any.bind fun _ _ => Returns.bind (Q := Scored env args config rolloutId samples)
      ?_ fun out hout => Returns.any.bind fun _ _ => Returns.pure hout
    refine Returns.ite (fun _ => ?_) fun _ => Returns.pure hscored
    refine Returns.any.bind fun reference _ => Returns.any.bind fun student _ =>
      Returns.lift fun out hout => ?_
    exact { hscored with fits := transportTargets_fits hscored.fits hout }

/-! ## One microbatch of the loss -/

/-- A response with a valid token, as the reduction sees it. -/
theorem any_valid_iff {mask : List Int} {response : Nat} (h : BinaryMask mask response) :
    (mask.map fun entry => decide (entry ≠ 0)).any id = true ↔ (1 : Int) ∈ mask := by
  rw [List.any_map, List.any_eq_true]
  constructor
  · rintro ⟨entry, hentry, hvalid⟩
    have hne : entry ≠ 0 := of_decide_eq_true hvalid
    rcases h.2 entry hentry with hzero | hone
    · exact absurd hzero hne
    · exact hone ▸ hentry
  · exact fun hone => ⟨1, hone, rfl⟩

/-- The loss of a microbatch whose targets fit and whose labels are not all
masked: only the mean over samples asks for more. -/
theorem referenceLoss_ok_iff [DivisionRing ν] {padSize : Nat} {samples : List Sample}
    (hne : samples ≠ []) (haccepted : ∀ s ∈ samples, Accepted s)
    (hvalid : ((samples.map Sample.lossMask).map List.sum).sum ≠ 0)
    (hmasks : ∀ s ∈ samples, BinaryMask s.lossMask s.responseLength.toNat)
    (hvocab : VocabChecked tp vocabSize width config.temperature) {student : Logits ρ}
    (hstudent : OfPacked student width (packedTokens padSize (samples.map Sample.tokens)))
    {batch : LossBatch ℚ τ} (hbatch : BatchOf samples rolloutId batch)
    (hfits : List.Forall₂ (Fits config vocabSize (tp.rank * width)
      (validWidth tp vocabSize width) rolloutId) (samples.map studentSegment)
      batch.opsdTargets) (reduction : Reduction) :
    (∃ result, referenceLoss kernel tp vocabSize (tp.rank * width) config reduction student
        batch = .ok result) ↔
      (reduction = .reference ∨ ∀ s ∈ samples, (1 : Int) ∈ s.lossMask) := by
  have hrows := @referenceRows_of_fits ℚ ρ τ ν _ _ kernel tp vocabSize width padSize config
    rolloutId samples haccepted hvocab.vocab hvocab.temperature _ hstudent _ hbatch hfits
  rw [if_pos hmasks] at hrows
  have hlen : batch.opsdTargets.length = (samples.map studentSegment).length :=
    hfits.length_eq.symm
  have hmasklen : batch.lossMasks.length = (samples.map studentSegment).length := by
    rw [hbatch.masks, List.length_map, List.length_map]
  have hcols := @paired_masks ℚ ρ τ ν kernel vocabSize config student.rows
    (samples.map studentSegment) 0 _ _ hlen hmasklen
  have hcount := count_true_ne_zero (hbatch.masks ▸ hvalid)
  rw [← hcols] at hcount
  have hnonempty : paired kernel vocabSize config student.rows 0
      (samples.map studentSegment) batch.opsdTargets batch.lossMasks ≠ [] := by
    have hpaired := @paired_length ℚ ρ τ ν kernel vocabSize config student.rows
      (samples.map studentSegment) 0 _ _ hlen hmasklen
    rw [← List.length_pos_iff, hpaired, List.length_map, List.length_pos_iff]
    exact hne
  have hsamples : (∀ row ∈ paired kernel vocabSize config student.rows 0
      (samples.map studentSegment) batch.opsdTargets batch.lossMasks,
        row.2.any id = true) ↔ ∀ s ∈ samples, (1 : Int) ∈ s.lossMask := by
    have hmap : (∀ mask ∈ (paired kernel vocabSize config student.rows 0
        (samples.map studentSegment) batch.opsdTargets batch.lossMasks).map Prod.snd,
          mask.any id = true) ↔ ∀ s ∈ samples, (1 : Int) ∈ s.lossMask := by
      rw [hcols, hbatch.masks, List.map_map, List.forall_mem_map]
      exact forall₂_congr fun s hs => any_valid_iff (hmasks s hs)
    rw [List.forall_mem_map] at hmap
    exact hmap
  unfold referenceLoss
  rw [hrows, except_ok_bind]
  simp only [check_of hnonempty, check_of hcount, except_ok_bind]
  cases reduction with
  | reference => exact ⟨fun _ => Or.inl rfl, fun _ => ⟨_, rfl⟩⟩
  | sampleMean =>
      dsimp only
      constructor
      · rintro ⟨result, h⟩
        rw [except_bind_eq_ok] at h
        obtain ⟨_, hall, -⟩ := h
        exact Or.inr (hsamples.mp (check_eq_ok.mp hall))
      · rintro (hreference | hall)
        · cases hreference
        · rw [check_of (hsamples.mpr hall), except_ok_bind]
          exact ⟨_, rfl⟩

/-! ## The whole rollout -/

/-- **Admission before scoring.** A rollout that was admitted and scored, with
binary masks, is accepted by the loss in every microbatch exactly when the
reduction is the reference one or every single response has a valid token. -/
theorem admission_sound [DecidableEq τ] [DivisionRing ν] {env : ScoringEnv ρ τ ν}
    {args : Args} {padSize : Nat} {samples : List Sample} {numMicrobatches : List Nat}
    {calls : Nat → ScoringCall ι α ρ} {h h' : History CallKind (Actor ι α)}
    {targets : List (OPSDTarget ℚ τ)}
    (hscore : scoreTeacher env args (rolloutData samples) numMicrobatches rolloutId calls h =
      .ok targets h')
    (hmasks : ∀ s ∈ samples, BinaryMask s.lossMask s.responseLength.toNat)
    (htemp : config.temperature = args.opsdTemperature) {student : Nat → Logits ρ}
    (hstudent : ∀ j < samples.length / args.microBatchSize,
      OfPacked (student j) env.width
        (packedTokens padSize
          (microbatch args.microBatchSize j (rolloutData samples).tokens)))
    (reduction : Reduction) :
    (∀ j < samples.length / args.microBatchSize, ∃ result,
      referenceLoss env.kernel env.tp args.vocabSize
        (env.tp.rank * (student j).localVocab) config reduction (student j)
        (trainingMicrobatch args.microBatchSize j (rolloutData samples) rolloutId
          targets) = .ok result) ↔
      (reduction = .reference ∨ ∀ s ∈ samples, (1 : Int) ∈ s.lossMask) := by
  have hscored : Scored env args config rolloutId samples targets :=
    (returns_scoreTeacher htemp).apply hscore
  have hlength : targets.length = samples.length := by
    rw [← hscored.fits.length_eq, List.length_map]
  have hcover : samples.length / args.microBatchSize * args.microBatchSize = samples.length :=
    Nat.div_mul_cancel (Nat.dvd_of_mod_eq_zero hscored.whole)
  have hone : ∀ j < samples.length / args.microBatchSize,
      ((∃ result, referenceLoss env.kernel env.tp args.vocabSize
        (env.tp.rank * (student j).localVocab) config reduction (student j)
        (trainingMicrobatch args.microBatchSize j (rolloutData samples) rolloutId
          targets) = .ok result) ↔
      (reduction = .reference ∨
        ∀ s ∈ microbatch args.microBatchSize j samples, (1 : Int) ∈ s.lossMask)) := by
    intro j hj
    have hle : (j + 1) * args.microBatchSize ≤ samples.length := by
      rw [← hcover]
      exact Nat.mul_le_mul_right _ hj
    have hne : microbatch args.microBatchSize j samples ≠ [] := by
      rw [← List.length_pos_iff, microbatch_length hle]
      exact hscored.size
    have hsamples : samples ≠ [] := by
      rintro rfl
      exact hne (by simp [microbatch])
    have hmem : ∀ s ∈ microbatch args.microBatchSize j samples, s ∈ samples :=
      fun s hs => mem_of_mem_microbatch hs
    have hS := hstudent j hj
    rw [show microbatch args.microBatchSize j (rolloutData samples).tokens =
      (microbatch args.microBatchSize j samples).map Sample.tokens from microbatch_map ..] at hS
    have hfits := List.forall₂_take args.microBatchSize
      (List.forall₂_drop (j * args.microBatchSize) hscored.fits)
    rw [show ((samples.map studentSegment).drop (j * args.microBatchSize)).take
        args.microBatchSize = (microbatch args.microBatchSize j samples).map studentSegment
      from microbatch_map ..] at hfits
    rw [hS.localVocab]
    refine referenceLoss_ok_iff hne (fun s hs => hscored.accepted s (hmem s hs)) ?_
      (fun s hs => hmasks s (hmem s hs)) (htemp ▸ hscored.vocab hsamples) hS
      (batchOf_trainingMicrobatch hscored.accepted hlength) hfits reduction
    rw [← microbatch_map]
    exact hscored.masks j hj
  constructor
  · intro hall
    by_cases hreference : reduction = .reference
    · exact Or.inl hreference
    · refine Or.inr fun s hs => ?_
      have hflat := flatten_microbatches hcover.ge
      rw [← hflat] at hs
      obtain ⟨block, hblock, hin⟩ := List.mem_flatten.mp hs
      obtain ⟨j, hj, rfl⟩ := List.mem_map.mp hblock
      have hj' := List.mem_range.mp hj
      exact ((hone j hj').mp (hall j hj')).resolve_left hreference s hin
  · intro hcondition j hj
    refine (hone j hj).mpr (hcondition.imp id fun hall s hs => ?_)
    exact hall s (mem_of_mem_microbatch hs)

/-! ## Two samples in one microbatch -/

def admissionArgs : Args :=
  { numRollout := 4
    opsdContext := .worked
    rolloutBatchSize := 2
    nSamplesPerPrompt := 1
    globalBatchSize := 2
    microBatchSize := 2
    seqLength := 16
    vocabSize := 5
    lr := 1 / 10
    lrDecayStyle := .constant }

def admissionEnv : ScoringEnv Nat Nat ℚ :=
  { kernel := positionKernel
    tp := ⟨0, 1⟩
    parallelOutput := true
    modelVocabSize := 5
    transportRow := fun q _ _ => q }

def admissionActor : Actor Unit ℚ :=
  { live := fun _ => 0
    training := [true]
    backups := fun _ => some fun _ => 0
    activeModelTag := .actor
    opsdEma := none
    chainedOptimizers := []
    paramGroups := []
    numSteps := 0
    opsdCyclicCompletedUpdates := 0
    opsdCyclicOptimizerUpdates := 0
    opsdCyclicTeacherSourceUpdate := 0
    opsdCyclicAppliedLr := 0 }

/-- Scoring of samples whose teacher sequences are those of `twoSamples`. -/
def admissionScore (samples : List Sample) :
    EStateM.Result PyError (History CallKind (Actor Unit ℚ)) (List (OPSDTarget ℚ Nat)) :=
  scoreTeacher admissionEnv admissionArgs (rolloutData samples) [1] 7
    (fun _ =>
      { logits := fun _ j =>
          .ok (positions (packedTokens 8 (microbatch 2 j twoSampleTeacher.tokens)))
        aggregate := .ok () })
    ⟨admissionActor, []⟩

def admissionTargets (samples : List Sample) : List (OPSDTarget ℚ Nat) :=
  match admissionScore samples with
  | .ok targets _ => targets
  | .error _ _ => []

theorem admissionScore_eq {samples : List Sample}
    (h : (match admissionScore samples with
      | .ok _ _ => true
      | .error _ _ => false) = true) :
    ∃ after, admissionScore samples = .ok (admissionTargets samples) after := by
  unfold admissionTargets
  cases hscore : admissionScore samples with
  | ok targets after => exact ⟨after, rfl⟩
  | error error after =>
      rw [hscore] at h
      cases h

def admissionConfig : OPSDLossConfig ℚ := ⟨0, admissionArgs.opsdTemperature, none⟩

def studentPositions (samples : List Sample) (j : Nat) : Logits Nat :=
  positions (packedTokens 8 (microbatch 2 j (rolloutData samples).tokens))

/-- Both responses have a valid token: the mean over samples is defined. -/
theorem admission_sound_unmasked :
    ∃ result,
      referenceLoss admissionEnv.kernel admissionEnv.tp 5 0 admissionConfig .sampleMean
        (studentPositions twoSamples 0)
        (trainingMicrobatch 2 0 (rolloutData twoSamples) 7 (admissionTargets twoSamples)) =
        .ok result := by
  obtain ⟨after, hscore⟩ := @admissionScore_eq twoSamples (by decide +kernel)
  exact (@admission_sound Unit ℚ Nat Nat ℚ 7 admissionConfig _ _ admissionEnv admissionArgs 8
    twoSamples [1] _ _ _ _ hscore (by decide) rfl (studentPositions twoSamples)
    (fun _ _ => ⟨rfl, rfl, rfl, rfl, List.length_range⟩) .sampleMean).mpr
    (Or.inr (by decide)) 0 (by decide)

/-- The first response is masked throughout. -/
def maskedSamples : List Sample :=
  [ { index := some 17, tokens := [1, 2, 3, 4], totalLength := 4, responseLength := 2
      lossMask := [0, 0], teacherPromptIds := [4, 3, 2] },
    { index := some 8, tokens := [2, 1, 3, 2, 4], totalLength := 5, responseLength := 1
      lossMask := [1], teacherPromptIds := [1] } ]

/-- A microbatch with one masked response is admitted and scored, and then
refused by the mean over samples. -/
theorem admission_sound_masked :
    ¬ ∀ (env : ScoringEnv Nat Nat ℚ) (args : Args) (config : OPSDLossConfig ℚ)
        (rolloutId : Int) (padSize : Nat) (samples : List Sample) (numMicrobatches : List Nat)
        (calls : Nat → ScoringCall Unit ℚ Nat) (h h' : History CallKind (Actor Unit ℚ))
        (targets : List (OPSDTarget ℚ Nat)) (student : Nat → Logits Nat)
        (reduction : Reduction),
      scoreTeacher env args (rolloutData samples) numMicrobatches rolloutId calls h =
        .ok targets h' →
      (∀ s ∈ samples, BinaryMask s.lossMask s.responseLength.toNat) →
      config.temperature = args.opsdTemperature →
      (∀ j < samples.length / args.microBatchSize, OfPacked (student j) env.width
        (packedTokens padSize
          (microbatch args.microBatchSize j (rolloutData samples).tokens))) →
      ∀ j < samples.length / args.microBatchSize, ∃ result,
        referenceLoss env.kernel env.tp args.vocabSize
          (env.tp.rank * (student j).localVocab) config reduction (student j)
          (trainingMicrobatch args.microBatchSize j (rolloutData samples) rolloutId
            targets) = .ok result := by
  intro hclaim
  obtain ⟨after, hscore⟩ := @admissionScore_eq maskedSamples (by decide +kernel)
  obtain ⟨result, hresult⟩ := hclaim admissionEnv admissionArgs admissionConfig 7 8
    maskedSamples [1] _ _ _ _ (studentPositions maskedSamples) .sampleMean hscore (by decide)
    rfl (fun _ _ => ⟨rfl, rfl, rfl, rfl, List.length_range⟩) 0 (by decide)
  have hraises : (match referenceLoss admissionEnv.kernel admissionEnv.tp 5 0 admissionConfig
      .sampleMean (studentPositions maskedSamples 0)
      (trainingMicrobatch 2 0 (rolloutData maskedSamples) 7
        (admissionTargets maskedSamples)) with
    | .ok _ => false
    | .error _ => true) = true := by decide +kernel
  rw [show referenceLoss admissionEnv.kernel admissionEnv.tp 5 0 admissionConfig
      .sampleMean (studentPositions maskedSamples 0)
      (trainingMicrobatch 2 0 (rolloutData maskedSamples) 7
        (admissionTargets maskedSamples)) = .ok result from hresult] at hraises
  cases hraises

end Crisp.Proofs
