import Crisp.Lib.Simulate
import Crisp.Proofs.Admission
import Crisp.Proofs.Snapshots
import Crisp.Ref.TargetMemory
import Mathlib.Algebra.BigOperators.Ring.List
import Mathlib.Data.List.Infix
import Mathlib.Tactic.Linarith
import Mathlib.Tactic.Ring

/-!
# The memory of dense targets

Admission is decided before any pass, from the response lengths and the rank's real width.
Every list of targets a pass returns has exactly the bytes that estimate is made of, so
the peak of a mode is that estimate times the lists its locals hold at once: one for a
frozen or a current teacher, four for a transported one. The first update of an EMA keeps
the original teacher's list beside its own, and its budget counts one.
-/

namespace Crisp.Proofs

open Crisp.Lib Crisp.Ref

variable {ι α ρ τ ν : Type} {rolloutId : Int}

/-! ## The bytes of a pass -/

@[simp] theorem targetBytes_nil : targetBytes ([] : List (OPSDTarget ℚ τ)) = 0 := rfl

theorem targetBytes_of_rows {width : Nat} {targets : List (OPSDTarget ℚ τ)} {responses : List Int}
    (hrows : targets.map (fun t => (t.logProbs.rows.length : Int)) = responses)
    (hcols : ∀ t ∈ targets, t.logProbs.cols = width) :
    (targetBytes targets : Int) = 4 * responses.sum * width := by
  rw [← hrows]
  clear hrows
  induction targets with
  | nil => simp [targetBytes]
  | cons t ts ih =>
      have hrest := ih fun u hu => hcols u (by simp [hu])
      simp only [targetBytes, List.map_cons, List.sum_cons, Nat.cast_add] at hrest ⊢
      rw [hrest, OPSDTarget.bytes, hcols t (by simp)]
      push_cast
      ring

/-- A target has a row for every position of its response, and the rank's real columns. -/
theorem collectTargetsFrom_rows {kernel : RowKernel ℚ ρ τ ν} {tp : Tp} {vocabSize : Nat}
    {temperature : ℚ} {logits : Logits ρ} :
    ∀ {totals responses : List Int} {tokens : List (List Int)} {indices : List (Option Int)}
      {offset : Int} {targets : List (OPSDTarget ℚ τ)}, 0 ≤ offset →
      collectTargetsFrom kernel tp vocabSize temperature rolloutId logits offset totals
        responses tokens indices = .ok targets →
      targets.map (fun t => (t.logProbs.rows.length : Int)) = responses ∧
        ∀ t ∈ targets, t.logProbs.cols = validWidth tp vocabSize logits.localVocab
  | [], [], [], [], _, _, _, h => by
      rw [← Except.ok.inj h]
      exact ⟨rfl, by simp⟩
  | total :: totals, response :: responses, sequence :: tokens, index :: indices, offset,
      targets, hoffset, h => by
      simp only [collectTargetsFrom, except_bind_eq_ok] at h
      obtain ⟨block, hblock, h⟩ := h
      obtain ⟨hlength, hpos⟩ := responseLogitsNext_length hoffset hblock
      obtain ⟨_, -, _, -, rest, hrest, h⟩ := h
      obtain ⟨hrows, hcols⟩ := collectTargetsFrom_rows (by omega) hrest
      rw [← Except.ok.inj h]
      refine ⟨?_, ?_⟩
      · rw [List.map_cons, hrows, List.length_map, hlength]
      · rw [List.forall_mem_cons]
        exact ⟨rfl, hcols⟩
  | total :: totals, response :: responses, [], indices, offset, targets, _, h => by
      simp only [collectTargetsFrom, except_bind_eq_ok] at h
      obtain ⟨block, -, h⟩ := h
      cases h
  | total :: totals, response :: responses, sequence :: tokens, [], offset, targets, _, h => by
      simp only [collectTargetsFrom, except_bind_eq_ok] at h
      obtain ⟨block, -, h⟩ := h
      cases h
  | _ :: _, [], _, _, _, _, _, h => by cases h
  | [], _ :: _, _, _, _, _, _, h => by cases h
  | [], [], _ :: _, _, _, _, _, h => by cases h
  | [], [], [], _ :: _, _, _, _, h => by cases h

theorem forwardTargets_rows {kernel : RowKernel ℚ ρ τ ν} {tp : Tp} {vocabSize width m : Nat}
    {temperature : ℚ} {data : RolloutData} {logits : Nat → Except PyError (Logits ρ)}
    {targets : List (OPSDTarget ℚ τ)} (hm : data.tokens.length % m = 0)
    (hlength : data.responseLengths.length = data.tokens.length)
    (h : forwardTargets kernel tp vocabSize temperature rolloutId width m data logits =
      .ok targets) :
    targets.map (fun t => (t.logProbs.rows.length : Int)) = data.responseLengths ∧
      ∀ t ∈ targets, t.logProbs.cols = validWidth tp vocabSize width := by
  simp only [forwardTargets, except_bind_eq_ok] at h
  obtain ⟨blocks, hblocks, h⟩ := h
  rw [← Except.ok.inj h]
  have hblock : ∀ j block, (∃ output, logits j = .ok output ∧
      collectTargets kernel tp vocabSize temperature rolloutId width output
        (microbatch m j data.tokens) (microbatch m j data.totalLengths)
        (microbatch m j data.responseLengths) (microbatch m j data.sampleIndices) =
          .ok block) →
      block.map (fun t => (t.logProbs.rows.length : Int)) =
          microbatch m j data.responseLengths ∧
        ∀ t ∈ block, t.logProbs.cols = validWidth tp vocabSize width := by
    rintro j block ⟨output, -, hcollect⟩
    simp only [collectTargets, except_bind_eq_ok, check_eq_ok] at hcollect
    obtain ⟨-, rfl, -, -, hcollect⟩ := hcollect
    exact collectTargetsFrom_rows le_rfl hcollect
  have hall := except_mapM_forall₂ hblocks
  have hrows : blocks.map (List.map fun t => (t.logProbs.rows.length : Int)) =
      (List.range (data.tokens.length / m)).map fun j => microbatch m j data.responseLengths := by
    have hmap := hall.imp fun j block hj => (hblock j block (except_bind_eq_ok.mp hj)).1
    exact (List.forall₂_eq_eq_eq ▸ List.forall₂_map_left_iff.mpr
      (List.forall₂_map_right_iff.mpr (hmap.flip.imp fun _ _ heq => heq)))
  refine ⟨?_, fun t ht => ?_⟩
  · rw [List.map_flatten, hrows]
    refine flatten_microbatches ?_
    rw [hlength, Nat.div_mul_cancel (Nat.dvd_of_mod_eq_zero hm)]
  · obtain ⟨block, hin, hmem⟩ := List.mem_flatten.mp ht
    obtain ⟨j, hj, -⟩ := mem_zip_of_forall₂ hall.flip hin
    exact (hblock j block (except_bind_eq_ok.mp hj)).2 t hmem

/-! ## What was admitted -/

theorem privilegedSequences_length {seqLength : Nat} :
    ∀ {tokens prefixes : List (List Int)} {responses totals : List Int} {out : List (List Int)},
      privilegedSequences seqLength tokens prefixes responses totals = .ok out →
      responses.length = tokens.length ∧ out.length = tokens.length
  | [], [], [], [], out, h => by
      rw [← Except.ok.inj h]
      exact ⟨rfl, rfl⟩
  | t :: ts, p :: ps, r :: rs, n :: ns, out, h => by
      simp only [privilegedSequences, except_bind_eq_ok] at h
      obtain ⟨-, -, -, -, rest, hrest, h⟩ := h
      obtain ⟨hresponses, hout⟩ := privilegedSequences_length hrest
      rw [← Except.ok.inj h, List.length_cons, List.length_cons, List.length_cons, hresponses,
        hout]
      exact ⟨rfl, rfl⟩
  | _ :: _, [], _, _, _, h => by cases h
  | _ :: _, _ :: _, [], _, _, h => by cases h
  | _ :: _, _ :: _, _ :: _, [], _, h => by cases h
  | [], _ :: _, _, _, _, h => by cases h
  | [], [], _ :: _, _, _, h => by cases h
  | [], [], [], _ :: _, _, h => by cases h

/-- What admission says of the estimate. -/
structure Estimated (rollout data : RolloutData) (limits : TargetLimits) : Prop where
  responses : data.responseLengths = rollout.responseLengths
  columns : rollout.responseLengths.length = rollout.tokens.length
  tokens : data.tokens.length = rollout.tokens.length
  cached : rollout.responseLengths.sum * limits.localVocabWidth * 4 ≤ limits.cacheBytes

theorem teacherBatch_estimated {rollout data : RolloutData} {limits : TargetLimits}
    (h : teacherBatch rollout limits = .ok data) : Estimated rollout data limits := by
  cases hprefixes : rollout.teacherPromptIds with
  | none => simp [teacherBatch, hprefixes] at h
  | some prefixes =>
      obtain ⟨-, -, -, -, tokens, htokens, rfl⟩ := teacherBatch_checks hprefixes h
      simp only [teacherBatch, hprefixes, except_bind_eq_ok, check_eq_ok] at h
      obtain ⟨-, -, -, -, -, -, -, -, -, hcache, -⟩ := h
      obtain ⟨hresponses, hlength⟩ := privilegedSequences_length htokens
      refine ⟨rfl, hresponses, hlength, ?_⟩
      rw [List.sum_map_mul_right, List.sum_map_mul_right, List.map_id'] at hcache
      exact hcache

/-! ## The record is only a record -/

theorem erases_untracked {β : Type} (x : ScoringM ι α β) :
    Erases (Tracked.history (τ := τ)) (untracked x) x := by
  intro s
  rw [untracked]
  cases x s.history <;> rfl

theorem erases_assigned
    (assign : List (OPSDTarget ℚ τ) → TargetLocals τ → TargetLocals τ)
    (x : ScoringM ι α (List (OPSDTarget ℚ τ))) :
    Erases (Tracked.history (τ := τ)) (assigned assign x) x := by
  intro s
  have h := erases_untracked (τ := τ) x s
  rw [assigned]
  cases hx : untracked x s with
  | ok made t =>
      rw [hx] at h
      rw [bind_of_ok hx]
      exact h
  | error e t =>
      rw [hx] at h
      rw [bind_of_error hx]
      exact h

/-- Without the record of its locals, it is `score_teacher`. -/
theorem erases_trackScoreTeacher [DecidableEq τ] (env : ScoringEnv ρ τ ν) (args : Args)
    (rollout : RolloutData) (numMicrobatches : List Nat) (rolloutId : Int)
    (calls : Nat → ScoringCall ι α ρ) :
    Erases Tracked.history
      (trackScoreTeacher env args rollout numMicrobatches rolloutId calls)
      (scoreTeacher env args rollout numMicrobatches rolloutId calls) := by
  have hinitial : ∀ data targets, Erases Tracked.history
      (trackInitialEma env args data rolloutId (calls 1) targets)
      (scoreInitialEma env args data rolloutId (calls 1) targets) := fun data targets =>
    (erases_untracked _).bind fun _ => Erases.ite
      (fun _ => (erases_assigned _ _).bind fun _ => erases_untracked _) fun _ => Erases.pure
  have htransported : ∀ targets, Erases Tracked.history
      (trackTransported env args rollout rolloutId (calls 2) (calls 3) targets)
      (scoreTransported env args rollout rolloutId (calls 2) (calls 3) targets) := fun targets =>
    Erases.ite (fun _ => (erases_assigned _ _).bind fun _ => (erases_assigned _ _).bind fun _ =>
      erases_assigned _ _) fun _ => Erases.pure
  exact (erases_untracked _).bind fun _ => (erases_untracked _).bind fun _ =>
    (erases_untracked _).bind fun data => (erases_assigned _ _).bind fun targets =>
      (hinitial data targets).bind fun _ => (htransported targets).bind fun _ =>
        (erases_untracked _).bind fun _ => Erases.pure

/-! ## The peak -/

/-- Every point so far is within the bound. -/
def PointsWithin (bound : ℚ) (s : Tracked ι α τ) : Prop :=
  ∀ bytes ∈ s.points, (bytes : ℚ) ≤ bound

theorem untracked_returned {β : Type} {x : ScoringM ι α β} {s t : Tracked ι α τ} {b : β}
    (h : untracked x s = .ok b t) :
    x s.history = .ok b t.history ∧ t.locals = s.locals ∧ t.points = s.points := by
  rw [untracked] at h
  cases hx : x s.history with
  | ok b' h' =>
      rw [hx] at h
      cases h
      exact ⟨rfl, rfl, rfl⟩
  | error e h' =>
      rw [hx] at h
      cases h

theorem targetBytes_le_of_isPrefix {sofar made : List (OPSDTarget ℚ τ)} (h : sofar <+: made) :
    targetBytes sofar ≤ targetBytes made := by
  obtain ⟨rest, rfl⟩ := h
  rw [targetBytes, targetBytes, List.map_append, List.sum_append]
  exact Nat.le_add_right _ _

/-- While a list is produced, the most there is at once is all of it beside the locals. -/
theorem assigned_returned {assign : List (OPSDTarget ℚ τ) → TargetLocals τ → TargetLocals τ}
    {x : ScoringM ι α (List (OPSDTarget ℚ τ))} {s t : Tracked ι α τ}
    {made : List (OPSDTarget ℚ τ)} (h : assigned assign x s = .ok made t) :
    x s.history = .ok made t.history ∧ t.locals = assign made s.locals ∧
      ∀ bound, PointsWithin bound t ↔
        PointsWithin bound s ∧ ((s.locals.bytes + targetBytes made : Nat) : ℚ) ≤ bound := by
  obtain ⟨made', mid, hx, hrest⟩ := run_bind h
  obtain ⟨hmade, hlocals, hpoints⟩ := untracked_returned hx
  cases hrest
  refine ⟨hmade, ?_, fun bound => ?_⟩
  · show assign made mid.locals = _
    rw [hlocals]
  have hall : ∀ sofar ∈ made.inits,
      mid.locals.bytes + targetBytes sofar ≤ mid.locals.bytes + targetBytes made :=
    fun sofar hsofar =>
      Nat.add_le_add_left (targetBytes_le_of_isPrefix ((List.mem_inits _ _).mp hsofar)) _
  constructor
  · intro hwithin
    refine ⟨fun bytes hbytes => hwithin bytes ?_, hwithin _ ?_⟩
    · exact List.mem_append_left _ (hpoints ▸ hbytes)
    · rw [← hlocals]
      exact List.mem_append_right _ (List.mem_map.mpr
        ⟨made, (List.mem_inits _ _).mpr (List.prefix_refl made), rfl⟩)
  · rintro ⟨hold, hnew⟩ bytes hbytes
    rcases List.mem_append.mp hbytes with hin | hin
    · exact hold bytes (hpoints ▸ hin)
    · obtain ⟨sofar, hsofar, rfl⟩ := List.mem_map.mp hin
      refine le_trans ?_ hnew
      rw [← hlocals]
      exact_mod_cast hall sofar hsofar

theorem score_keepsEma {env : ScoringEnv ρ τ ν} {args : Args} {data : RolloutData} {width : Nat}
    {tag : Tag} {call : ScoringCall ι α ρ} {ema : Option (OpsdEma ι α)} :
    Preserves (fun s : Actor ι α => s.opsdEma = ema)
      (score env args data rolloutId width tag call) := by
  have hswitch : ∀ tag, Preserves (fun s : Actor ι α => s.opsdEma = ema) (switchModel tag) := by
    intro tag s hs
    rw [switchModel, bind_of_ok get_run]
    cases s.backups tag <;> exact hs
  have htraining : ∀ mode, Preserves (fun s : Actor ι α => s.opsdEma = ema) (setTraining mode) :=
    fun mode => Preserves.modify fun _ hs => hs
  refine Preserves.get.bind fun actor => Preserves.try_finally ?_ ?_
  · exact (hswitch tag).bind fun _ => (htraining false).bind fun _ => Preserves.get.bind fun _ =>
      Preserves.lift.bind fun _ => (htraining true).bind fun _ => Preserves.lift.bind fun _ =>
        Preserves.pure
  · exact (hswitch .actor).bind fun _ => Preserves.modify fun _ hs => hs

/-- Every pass over the admitted responses returns the estimated bytes. -/
theorem score_bytes {env : ScoringEnv ρ τ ν} {args : Args} {data : RolloutData} {tag : Tag}
    {call : ScoringCall ι α ρ} (hm : data.tokens.length % args.microBatchSize = 0)
    (hlength : data.responseLengths.length = data.tokens.length) :
    Returns (noted CallKind.score (score env args data rolloutId env.width tag call) :
        ScoringM ι α (List (OPSDTarget ℚ τ)))
      fun made => (targetBytes made : Int) =
        4 * data.responseLengths.sum * validWidth env.tp args.vocabSize env.width := by
  refine Returns.noted (returns_score fun logits targets ht => ?_)
  obtain ⟨hrows, hcols⟩ := forwardTargets_rows hm hlength ht
  exact targetBytes_of_rows hrows hcols

/-- Mixing keeps the bytes of the privileged pass. -/
theorem transportTargets_bytes {transportRow : τ → τ → τ → τ} :
    ∀ {qs rs ps out : List (OPSDTarget ℚ τ)}, transportTargets transportRow qs rs ps = .ok out →
      targetBytes out = targetBytes qs
  | [], [], [], out, h => by rw [← Except.ok.inj h]
  | q :: qs, r :: rs, p :: ps, out, h => by
      simp only [transportTargets, except_bind_eq_ok, check_eq_ok] at h
      obtain ⟨-, -, -, ⟨⟨hqr, -⟩, hrp, -⟩, rest, hrest, h⟩ := h
      have hbytes := transportTargets_bytes hrest
      rw [← Except.ok.inj h]
      simp only [targetBytes, List.map_cons, List.sum_cons] at hbytes ⊢
      rw [hbytes]
      simp only [OPSDTarget.bytes, List.length_map, List.length_zip, ← hrp, ← hqr, Nat.min_self]
  | [], [], _ :: _, _, h => by cases h
  | [], _ :: _, _, _, h => by cases h
  | _ :: _, [], _, _, h => by cases h
  | _ :: _, _ :: _, [], _, h => by cases h

/-- The update whose averages are still the original teacher. -/
def FirstEmaUpdate (actor : Actor ι α) : Prop :=
  (actor.opsdEma.any fun ema => ema.updates == 0) = true

instance (actor : Actor ι α) : Decidable (FirstEmaUpdate actor) := by
  unfold FirstEmaUpdate
  infer_instance

section Peak

variable [DecidableEq τ] {env : ScoringEnv ρ τ ν} {args : Args} {data rollout : RolloutData}
  {s t : Tracked ι α τ} {targets original : List (OPSDTarget ℚ τ)} {estimate : Nat}

omit [DecidableEq τ] in
theorem untracked_get_bind {β : Type} {f : Actor ι α → TrackedM ι α τ β} :
    (untracked (quiet get) >>= f) s = f s.history.state s := rfl

theorem trackInitialEma_returned {call : ScoringCall ι α ρ} {u : Unit}
    (hpass : Returns (noted CallKind.score
      (score env args data rolloutId env.width .teacher call) :
        ScoringM ι α (List (OPSDTarget ℚ τ))) fun made => targetBytes made = estimate)
    (hlocals : s.locals = { targets }) (hbytes : targetBytes targets = estimate)
    (h : trackInitialEma env args data rolloutId call targets s = .ok u t) :
    ∃ original, t.locals = { targets, originalTargets := original } ∧
      targetBytes original = (if FirstEmaUpdate s.history.state then estimate else 0) ∧
      ∀ bound, PointsWithin bound t ↔ PointsWithin bound s ∧
        (FirstEmaUpdate s.history.state → ((2 * estimate : Nat) : ℚ) ≤ bound) := by
  rw [trackInitialEma, untracked_get_bind] at h
  by_cases hfirst : FirstEmaUpdate s.history.state
  · rw [if_pos (show (_ : Bool) = true from hfirst)] at h
    obtain ⟨original, mid, hassigned, h⟩ := run_bind h
    obtain ⟨hmade, hassign, hwithin⟩ := assigned_returned hassigned
    obtain ⟨-, hkept, hpoints⟩ := untracked_returned h
    have hestimate := hpass.apply hmade
    refine ⟨original, by rw [hkept, hassign, hlocals], by rw [if_pos hfirst, hestimate], ?_⟩
    intro bound
    have hsum : s.locals.bytes + targetBytes original = 2 * estimate := by
      rw [hlocals, hestimate]
      simp only [TargetLocals.bytes, hbytes, targetBytes_nil]
      omega
    rw [PointsWithin, hpoints, ← PointsWithin, hwithin bound, hsum]
    simp [hfirst]
  · rw [if_neg (show ¬(_ : Bool) = true from hfirst)] at h
    cases h
    exact ⟨[], hlocals, by rw [if_neg hfirst]; rfl, by simp [hfirst]⟩

omit [DecidableEq τ] in
/-- The four lists of a transported target, beside what was there before. -/
theorem trackTransported_returned {reference student : ScoringCall ι α ρ}
    {made : List (OPSDTarget ℚ τ)}
    (hpass : ∀ tag call, Returns (noted CallKind.score (score env args
      { rollout with teacherPromptIds := none } rolloutId env.width tag call) :
        ScoringM ι α (List (OPSDTarget ℚ τ))) fun made => targetBytes made = estimate)
    (hlocals : s.locals = { targets, originalTargets := original })
    (hbytes : targetBytes targets = estimate)
    (h : trackTransported env args rollout rolloutId reference student targets s = .ok made t)
    (bound : ℚ) :
    PointsWithin bound t ↔ PointsWithin bound s ∧ (args.opsdTarget = .transported →
      ((4 * estimate + targetBytes original : Nat) : ℚ) ≤ bound) := by
  rw [trackTransported] at h
  by_cases htransported : args.opsdTarget = .transported
  · rw [if_pos htransported] at h
    obtain ⟨references, mid, hreference, h⟩ := run_bind h
    obtain ⟨students, last, hstudent, h⟩ := run_bind h
    obtain ⟨hmade, hassign, hwithin⟩ := assigned_returned hreference
    obtain ⟨hmade', hassign', hwithin'⟩ := assigned_returned hstudent
    obtain ⟨hmixed, -, hwithin''⟩ := assigned_returned h
    have href := (hpass _ _).apply hmade
    have hstu := (hpass _ _).apply hmade'
    have hout := transportTargets_bytes (lift_returned hmixed).1
    have hfirst : s.locals.bytes + targetBytes references =
        2 * estimate + targetBytes original := by
      rw [hlocals, href]
      simp only [TargetLocals.bytes, hbytes, targetBytes_nil]
      omega
    have hsecond : mid.locals.bytes + targetBytes students =
        3 * estimate + targetBytes original := by
      rw [hassign, hlocals, hstu]
      simp only [TargetLocals.bytes, hbytes, href, targetBytes_nil]
      omega
    have hthird : last.locals.bytes + targetBytes made = 4 * estimate + targetBytes original := by
      rw [hassign', hassign, hlocals, hout]
      simp only [TargetLocals.bytes, hbytes, href, hstu]
      omega
    have hle : ∀ k ≤ 4, ((4 * estimate + targetBytes original : Nat) : ℚ) ≤ bound →
        ((k * estimate + targetBytes original : Nat) : ℚ) ≤ bound := by
      intro k hk hbound
      refine le_trans ?_ hbound
      exact_mod_cast Nat.add_le_add_right (Nat.mul_le_mul_right estimate hk) _
    rw [hwithin'', hwithin', hwithin, hfirst, hsecond, hthird]
    constructor
    · exact fun hall => ⟨hall.1.1.1, fun _ => hall.2⟩
    · intro hall
      have hbound := hall.2 htransported
      exact ⟨⟨⟨hall.1, hle 2 (by omega) hbound⟩, hle 3 (by omega) hbound⟩, hbound⟩
  · rw [if_neg htransported] at h
    cases h
    simp [htransported]

omit [DecidableEq τ] in
theorem checkScoringModel_ok {numMicrobatches : List Nat} {modelChunks : Nat} {u : Unit}
    (h : checkScoringModel env args rollout numMicrobatches modelChunks = .ok u) :
    rollout.tokens.length % args.microBatchSize = 0 ∧ (args.opsdTarget = .transported →
      ((4 * rollout.responseLengths.sum *
          validWidth env.tp args.vocabSize env.width * 4 : Int) : ℚ) ≤
        args.opsdAggregateStagingGib * 1024 ^ 3) := by
  simp only [checkScoringModel, except_bind_eq_ok, check_eq_ok] at h
  obtain ⟨-, hcover, -, -, -, -, hstaging⟩ := h
  refine ⟨by rw [← hcover]; exact Nat.mul_mod_left _ _, fun htransported => ?_⟩
  rw [if_pos htransported, check_eq_ok] at hstaging
  exact hstaging

/-- The bytes of one list of targets, as admission estimates them from the responses. -/
def targetEstimate (env : ScoringEnv ρ τ ν) (args : Args) (rollout : RolloutData) : Nat :=
  (4 * rollout.responseLengths.sum * validWidth env.tp args.vocabSize env.width : Int).toNat

/-- What a rollout that was scored took, against any bound. -/
theorem trackScoreTeacher_returned {numMicrobatches : List Nat}
    {calls : Nat → ScoringCall ι α ρ} {h : History CallKind (Actor ι α)}
    (hrun : trackScoreTeacher env args rollout numMicrobatches rolloutId calls ⟨h, {}, []⟩ =
      .ok targets t) :
    targetEstimate env args rollout ≤ gibBytes args.opsdTargetCacheGib ∧
      (args.opsdTarget = .transported →
        ((4 * targetEstimate env args rollout : Nat) : ℚ) ≤
          args.opsdAggregateStagingGib * 1024 ^ 3) ∧
      ∀ bound, PointsWithin bound t ↔
        ((targetEstimate env args rollout : ℚ) ≤ bound ∧ (FirstEmaUpdate h.state →
            ((2 * targetEstimate env args rollout : Nat) : ℚ) ≤ bound)) ∧
          (args.opsdTarget = .transported →
            ((4 * targetEstimate env args rollout +
              if FirstEmaUpdate h.state then targetEstimate env args rollout else 0 : Nat) : ℚ) ≤
                bound) := by
  rw [trackScoreTeacher, untracked_get_bind] at hrun
  obtain ⟨_, s₁, hmodel, hrun⟩ := run_bind hrun
  obtain ⟨data, s₂, hbatch, hrun⟩ := run_bind hrun
  obtain ⟨scored, s₃, hscored, hrun⟩ := run_bind hrun
  obtain ⟨_, s₄, hinitial, hrun⟩ := run_bind hrun
  obtain ⟨out, s₅, htransported, hrun⟩ := run_bind hrun
  obtain ⟨_, s₆, horder, hrun⟩ := run_bind hrun
  cases hrun
  -- what was admitted
  obtain ⟨hmodel, hlocals₁, hpoints₁⟩ := untracked_returned hmodel
  obtain ⟨hbatch, hlocals₂, hpoints₂⟩ := untracked_returned hbatch
  obtain ⟨hmodel, hstate₁⟩ := lift_returned hmodel
  obtain ⟨hbatch, hstate₂⟩ := lift_returned hbatch
  obtain ⟨hwhole, hstaging⟩ := checkScoringModel_ok hmodel
  have hestimated := teacherBatch_estimated hbatch
  -- what the passes return
  have hdata : data.responseLengths.length = data.tokens.length := by
    rw [hestimated.responses, hestimated.columns, hestimated.tokens]
  have hscoreData : ∀ tag call, Returns (noted CallKind.score
      (score env args data rolloutId env.width tag call) :
        ScoringM ι α (List (OPSDTarget ℚ τ))) fun made => targetBytes made =
      targetEstimate env args rollout := by
    intro tag call
    refine (score_bytes (hestimated.tokens ▸ hwhole) hdata).consequence (fun _ h => h) ?_
      fun _ _ h => h
    intro made _ hmade
    rw [targetEstimate, ← hestimated.responses, ← hmade, Int.toNat_natCast]
  have hscoreRollout : ∀ tag call, Returns (noted CallKind.score (score env args
      { rollout with teacherPromptIds := none } rolloutId env.width tag call) :
        ScoringM ι α (List (OPSDTarget ℚ τ))) fun made => targetBytes made =
      targetEstimate env args rollout := by
    intro tag call
    refine (score_bytes hwhole hestimated.columns).consequence (fun _ h => h) ?_ fun _ _ h => h
    intro made _ hmade
    rw [targetEstimate, show rollout.responseLengths = _ from rfl, ← hmade, Int.toNat_natCast]
  -- what the locals held
  obtain ⟨hmade, hassign, hwithin₃⟩ := assigned_returned hscored
  have hlocals₃ : s₃.locals = { targets := scored } := by
    rw [hassign, hlocals₂, hlocals₁]
  have hbytes := (hscoreData _ _).apply hmade
  have hfirst : FirstEmaUpdate s₃.history.state ↔ FirstEmaUpdate h.state := by
    obtain ⟨after, hscore, hafter⟩ := noted_returned hmade
    have hema := score_keepsEma.ok rfl hscore
    rw [FirstEmaUpdate, FirstEmaUpdate, hafter, hema, hstate₂, hstate₁]
  obtain ⟨original, hlocals₄, horiginal, hwithin₄⟩ :=
    trackInitialEma_returned (hscoreData _ _) hlocals₃ hbytes hinitial
  have hwithin₅ := trackTransported_returned hscoreRollout hlocals₄ hbytes htransported
  obtain ⟨-, -, hpoints₆⟩ := untracked_returned horder
  have hempty : ∀ bound, PointsWithin bound s₂ := by
    intro bound bytes hbytes
    rw [hpoints₂, hpoints₁] at hbytes
    cases hbytes
  have hnonneg : 0 ≤ 4 * rollout.responseLengths.sum *
      (validWidth env.tp args.vocabSize env.width : Int) := by
    have hcast : (targetBytes scored : Int) = 4 * data.responseLengths.sum *
        validWidth env.tp args.vocabSize env.width :=
      (score_bytes (hestimated.tokens ▸ hwhole) hdata).apply hmade
    rw [← hestimated.responses, ← hcast]
    exact Int.natCast_nonneg _
  refine ⟨?_, fun htransported => ?_, fun bound => ?_⟩
  · have hcached := hestimated.cached
    rw [targetEstimate]
    simp only [ScoringEnv.limits] at hcached
    have hswap : rollout.responseLengths.sum *
        (validWidth env.tp args.vocabSize env.width : Int) * 4 =
          4 * rollout.responseLengths.sum * validWidth env.tp args.vocabSize env.width := by ring
    omega
  · refine le_trans (le_of_eq ?_) (hstaging htransported)
    have hcast : ((targetEstimate env args rollout : Nat) : Int) =
        4 * rollout.responseLengths.sum * validWidth env.tp args.vocabSize env.width :=
      Int.toNat_of_nonneg hnonneg
    have hfour : ((4 * targetEstimate env args rollout : Nat) : Int) =
        4 * rollout.responseLengths.sum * validWidth env.tp args.vocabSize env.width * 4 := by
      push_cast
      rw [hcast]
      ring
    exact_mod_cast hfour
  · rw [PointsWithin, hpoints₆, ← PointsWithin, hwithin₅, hwithin₄, hwithin₃, horiginal, hbytes,
      hlocals₂, hlocals₁]
    simp only [hfirst, hempty, true_and, TargetLocals.bytes, targetBytes_nil, Nat.add_zero,
      Nat.zero_add]

omit [DecidableEq τ] in
theorem gibBytes_le {gib : ℚ} (hgib : 0 < gib) : (gibBytes gib : ℚ) ≤ gib * 1024 ^ 3 := by
  have hpos : 0 ≤ gib * 1024 ^ 3 := by positivity
  have hfloor : ((gibBytes gib : Nat) : Int) = (gib * 1024 ^ 3).floor :=
    Int.toNat_of_nonneg (Rat.le_floor_iff.mpr (by exact_mod_cast hpos))
  calc (gibBytes gib : ℚ) = (((gibBytes gib : Nat) : Int) : ℚ) := (Int.cast_natCast _).symm
    _ = ((gib * 1024 ^ 3).floor : ℚ) := by rw [hfloor]
    _ ≤ gib * 1024 ^ 3 := Rat.floor_le _

/-- **Dense-target memory.** A scored rollout stays within its mode's budget at every point
exactly when, if it is the first update of an EMA, the budget has room for the original
teacher's list beside the others. -/
theorem target_memory_iff {numMicrobatches : List Nat} {calls : Nat → ScoringCall ι α ρ}
    {h h' : History CallKind (Actor ι α)} (hcache : 0 < args.opsdTargetCacheGib)
    (haccepted : scoreTeacher env args rollout numMicrobatches rolloutId calls h =
      .ok targets h') :
    (∀ bytes ∈ targetMemory env args rollout numMicrobatches rolloutId calls h,
        (bytes : ℚ) ≤ targetBudget args) ↔
      (FirstEmaUpdate h.state →
        (((if args.opsdTarget = .transported then 5 else 2) *
          targetEstimate env args rollout : Nat) : ℚ) ≤ targetBudget args) := by
  obtain ⟨t, hrun, -⟩ := (erases_trackScoreTeacher env args rollout numMicrobatches rolloutId
    calls).returns (s := ⟨h, {}, []⟩) haccepted
  obtain ⟨hcached, hstaging, hwithin⟩ := trackScoreTeacher_returned hrun
  have hpoints := hwithin (targetBudget args)
  have hestimate : (targetEstimate env args rollout : ℚ) ≤ args.opsdTargetCacheGib * 1024 ^ 3 :=
    le_trans (by exact_mod_cast hcached) (gibBytes_le hcache)
  rw [targetMemory, hrun]
  refine hpoints.trans ?_
  by_cases htransported : args.opsdTarget = .transported
  · have hfour := hstaging htransported
    rw [targetBudget, if_pos htransported, if_pos htransported]
    have hless : ∀ k ≤ 4, ((k * targetEstimate env args rollout : Nat) : ℚ) ≤
        args.opsdAggregateStagingGib * 1024 ^ 3 := fun k hk => by
      refine le_trans ?_ hfour
      exact_mod_cast Nat.mul_le_mul_right (targetEstimate env args rollout) hk
    constructor
    · intro hall hfirst
      have hbound := hall.2 htransported
      rw [if_pos hfirst] at hbound
      rw [show 5 * targetEstimate env args rollout =
        4 * targetEstimate env args rollout + targetEstimate env args rollout by ring]
      exact hbound
    · intro hfive
      refine ⟨⟨by simpa using hless 1 (by omega), fun _ => hless 2 (by omega)⟩, fun _ => ?_⟩
      split
      · next hfirst =>
          have hbound := hfive hfirst
          rwa [show 5 * targetEstimate env args rollout =
            4 * targetEstimate env args rollout + targetEstimate env args rollout by ring] at hbound
      · exact hless 4 le_rfl
  · simp only [targetBudget, htransported, if_false, false_implies, and_true] at hestimate ⊢
    exact ⟨fun hall => hall.2, fun hfirst => ⟨hestimate, hfirst⟩⟩

end Peak

/-! ## One sample over eight columns -/

/-- The first scoring of an EMA run. -/
def emaScoring (args : Args) : EStateM.Result PyError (History CallKind (Actor Unit ℚ))
    (List (OPSDTarget ℚ ℚ)) :=
  scoreTeacher emaEnv args (emaAttempt false .discarded).rollout [1] 0
    (emaAttempt false .discarded).calls ⟨emaLoaded, []⟩

def emaMemory (args : Args) : List Nat :=
  targetMemory emaEnv args (emaAttempt false .discarded).rollout [1] 0
    (emaAttempt false .discarded).calls ⟨emaLoaded, []⟩

theorem emaScoring_accepted {args : Args}
    (h : (match emaScoring args with
      | .ok _ _ => true
      | .error _ _ => false) = true) : ∃ targets h', emaScoring args = .ok targets h' := by
  cases hscore : emaScoring args with
  | ok targets h' => exact ⟨targets, h', rfl⟩
  | error e h' =>
      rw [hscore] at h
      cases h

/-- Under the default budget both lists fit. -/
theorem target_memory_default :
    (∃ targets h', emaScoring emaArgs = .ok targets h') ∧
      ∀ bytes ∈ emaMemory emaArgs, (bytes : ℚ) ≤ targetBudget emaArgs := by
  obtain ⟨targets, h', haccepted⟩ := @emaScoring_accepted emaArgs (by decide +kernel)
  refine ⟨⟨targets, h', haccepted⟩, ?_⟩
  exact (target_memory_iff (by decide +kernel) haccepted).mpr fun _ => by decide +kernel

/-- A budget of exactly one list. -/
def tightArgs : Args := { emaArgs with opsdTargetCacheGib := 32 / 1024 ^ 3 }

/-- Its 32 bytes are admitted, and the first update of the EMA holds 64. -/
theorem target_memory_doubled :
    (∃ targets h', emaScoring tightArgs = .ok targets h') ∧
      ¬∀ bytes ∈ emaMemory tightArgs, (bytes : ℚ) ≤ targetBudget tightArgs :=
  ⟨emaScoring_accepted (by decide +kernel), by decide +kernel⟩

end Crisp.Proofs
