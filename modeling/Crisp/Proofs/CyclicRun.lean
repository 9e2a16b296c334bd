import Crisp.Ref.Actor
import Mathlib.Tactic.FieldSimp
import Mathlib.Tactic.Ring
import Mathlib.Tactic.Linarith

/-!
# A cyclic run never trips its own checks

The hooks compare four counters kept in four places: the completed updates,
the update the teacher was taken from, the optimizer updates since a reset and
the scheduler's sample count. `CyclicInv` says what each of them and both
weight backups are after any number of completed updates; one update keeps it,
and everything a run promises is read off it.

The scheduler is Megatron's. `SchedulerFollows` is what its constructor
asserts and what its `get_lr` documents for the two decay styles the argument
validator lets through; nothing else of it is used.
-/

namespace Crisp.Proofs

open Crisp.Lib Crisp.Ref

variable {ι α : Type}

/-- Megatron's `OptimizerParamScheduler` without warmup: the constructor
asserts `lr_decay_steps > 0`, the constant style always answers the peak rate,
and the linear style falls from it to the floor over the decay steps. -/
structure SchedulerFollows (args : Args) (getLr : Nat → ℚ) : Prop where
  decay_steps_pos : 0 < lrDecaySteps args
  constant : args.lrDecayStyle = .constant → ∀ n, getLr n = args.lr
  linear : args.lrDecayStyle = .linear → ∀ n, getLr n =
    if lrDecaySteps args < n then args.minLr
    else args.minLr +
      (1 - (n : ℚ) / (lrDecaySteps args : ℚ)) * (args.lr - args.minLr)

/-! ## What acceptance gives -/

/-- The facts `_validate_cyclic_args` establishes that a run depends on. -/
structure CyclicArgs (args : Args) : Prop where
  pi_pos : 1 ≤ args.opsdCyclicPiUpdates
  opd_pos : 1 ≤ args.opsdCyclicOpdUpdates
  planned_pos : 1 ≤ args.numRollout
  whole_cycles : args.numRollout % args.cycleLength = 0
  no_offload : args.offloadOptimizerStates = false
  no_chunked : args.chunkedOptimizerStateOffload = false
  no_fp16 : args.fp16 = false
  no_stream : args.streamOptimizerStateToDisk = false
  schedule :
    (args.opsdCyclicLrSchedule = .constant ∧ args.lrDecayStyle = .constant) ∨
      (args.opsdCyclicLrSchedule = .globalLinear ∧ args.lrDecayStyle = .linear ∧
        args.lrDecayIters = some (args.numRollout - 1))

theorem cyclicArgs_of_validate {args : Args}
    (h : validateCyclicArgs args = .ok ()) : CyclicArgs args := by
  obtain ⟨⟨hpi, hopd, hn, hmod⟩, htable⟩ := validateCyclicArgs_eq_ok.mp h
  simp only [cyclicRequirements, List.forall_mem_cons, Bool.and_eq_true,
    Bool.or_eq_true, beq_iff_eq, Bool.not_eq_true', Bool.or_eq_false_iff] at htable
  obtain ⟨-, -, -, -, -, -, -, -, hflags, -, hlr, -⟩ := htable
  obtain ⟨⟨⟨⟨⟨⟨⟨-, -⟩, hfp16⟩, hoff⟩, -⟩, hstream⟩, hchunk⟩, -⟩ := hflags.1
  refine
    { pi_pos := hpi, opd_pos := hopd, planned_pos := hn, whole_cycles := hmod
      no_offload := hoff, no_chunked := hchunk, no_fp16 := hfp16
      no_stream := hstream, schedule := ?_ }
  rcases hlr with hconst | hlinear
  · exact Or.inl hconst
  · obtain ⟨⟨⟨⟨hsched, hstyle⟩, -⟩, -⟩, hiters⟩ := hlinear
    refine Or.inr ⟨hsched, hstyle, ?_⟩
    cases hi : args.lrDecayIters with
    | none => rw [hi] at hiters; cases hiters
    | some iters =>
        rw [hi] at hiters
        have := beq_iff_eq.mp hiters
        rw [Option.some_inj]
        omega

theorem CyclicArgs.cycle_pos {args : Args} (h : CyclicArgs args) :
    0 < args.cycleLength := by
  have := h.pi_pos
  unfold Args.cycleLength
  omega

/-- A whole number of cycles is at least one of them, so two updates. -/
theorem CyclicArgs.two_le {args : Args} (h : CyclicArgs args) :
    2 ≤ args.numRollout := by
  have hpi := h.pi_pos
  have hopd := h.opd_pos
  have hdvd := Nat.dvd_of_mod_eq_zero h.whole_cycles
  have hle := Nat.le_of_dvd h.planned_pos hdvd
  unfold Args.cycleLength at hle
  omega

/-- The rate the schedule asks for after `k` updates is the rate Megatron's
scheduler writes after `k` global batches, floor included. -/
theorem cyclicLearningRate_eq {args : Args} (h : CyclicArgs args)
    {getLr : Nat → ℚ} (hlr : SchedulerFollows args getLr) (k : Nat) :
    cyclicLearningRate args k = .ok (getLr (k * args.globalBatchSize)) := by
  rcases h.schedule with ⟨hsched, hstyle⟩ | ⟨hsched, hstyle, hiters⟩
  · simp only [cyclicLearningRate, hsched, hlr.constant hstyle]
  · have htwo := h.two_le
    have hsteps : lrDecaySteps args =
        (args.numRollout - 1) * args.globalBatchSize := by
      simp [lrDecaySteps, hiters]
    have hpos := hlr.decay_steps_pos
    rw [hsteps] at hpos
    have hgbs : 0 < args.globalBatchSize := Nat.pos_of_mul_pos_left hpos
    have hcast : ((args.numRollout : ℚ) - 1) = ((args.numRollout - 1 : Nat) : ℚ) := by
      rw [Nat.cast_sub (by omega), Nat.cast_one]
    have hn : (0 : ℚ) < ((args.numRollout - 1 : Nat) : ℚ) := by
      exact_mod_cast (show 0 < args.numRollout - 1 by omega)
    have hg : (0 : ℚ) < (args.globalBatchSize : ℚ) := by exact_mod_cast hgbs
    have hne : (args.numRollout : ℚ) - 1 ≠ 0 := by rw [hcast]; exact ne_of_gt hn
    have hexpected : cyclicLearningRate args k =
        .ok (args.minLr + (args.lr - args.minLr) *
          (1 - min ((k : ℚ) / ((args.numRollout : ℚ) - 1)) 1)) := by
      simp only [cyclicLearningRate, hsched, check_of hne, except_ok_bind]
    rw [hexpected, hcast, hlr.linear hstyle, hsteps]
    congr 1
    by_cases hk : args.numRollout - 1 < k
    · have hover : (args.numRollout - 1) * args.globalBatchSize <
          k * args.globalBatchSize := Nat.mul_lt_mul_of_pos_right hk hgbs
      have hone : (1 : ℚ) ≤ (k : ℚ) / ((args.numRollout - 1 : Nat) : ℚ) := by
        rw [le_div_iff₀ hn, one_mul]
        exact_mod_cast hk.le
      rw [if_pos hover, min_eq_right hone]
      ring
    · have hunder : ¬ (args.numRollout - 1) * args.globalBatchSize <
          k * args.globalBatchSize := by
        rw [Nat.mul_lt_mul_right hgbs]
        exact hk
      have hone : (k : ℚ) / ((args.numRollout - 1 : Nat) : ℚ) ≤ 1 := by
        rw [div_le_iff₀ hn, one_mul]
        exact_mod_cast Nat.le_of_not_lt hk
      have hratio : ((k * args.globalBatchSize : Nat) : ℚ) /
          (((args.numRollout - 1) * args.globalBatchSize : Nat) : ℚ) =
            (k : ℚ) / ((args.numRollout - 1 : Nat) : ℚ) := by
        rw [Nat.cast_mul, Nat.cast_mul, mul_div_mul_right _ _ (ne_of_gt hg)]
      rw [if_neg hunder, min_eq_left hone, hratio]
      ring

/-! ## The run

One update as the trainer makes it: the hook that begins the step, the scoring
pass under the teacher's weights and back, the optimizer update, the backup of
what it left, and the hook that completes the step. -/

/-- What an update brings from outside: its rollout, and the live weights the
optimizer leaves. -/
structure CyclicUpdate (ι α : Type) where
  rollout : CyclicRollout
  weights : ι → α

/-- What an update shows: the weights its teacher scored with, the metrics its
completion reported and the actor as it left it. -/
structure CyclicRecord (ι α : Type) where
  scoringWeights : ι → α
  metrics : CyclicMetrics
  after : Actor ι α

def cyclicUpdate (args : Args) (getLr : Nat → ℚ) (r : Nat) (u : CyclicUpdate ι α) :
    ActorM ι α (CyclicRecord ι α) := do
  beginCyclicStep args u.rollout r 1
  switchModel .teacher
  let scoring ← get
  switchModel .actor
  successfulUpdate getLr u.weights args.globalBatchSize
  backupWeights .actor
  let metrics ← completeCyclicStep args r
  let after ← get
  pure
    { scoringWeights := scoring.live
      metrics
      after }

def cyclicRun (args : Args) (getLr : Nat → ℚ) :
    Nat → List (CyclicUpdate ι α) → ActorM ι α (List (CyclicRecord ι α))
  | _, [] => pure []
  | r, u :: us => do
      let record ← cyclicUpdate args getLr r u
      let records ← cyclicRun args getLr (r + 1) us
      pure (record :: records)

/-- Rollout `r` follows the schedule: one teacher prefix and one response
length a sample, and a prefix equal to the student's exactly in the updates
without privileged information. -/
def FollowsSchedule (args : Args) (r : Nat) (rollout : CyclicRollout) : Prop :=
  rollout.responseLengths.length = rollout.tokens.length ∧
  rollout.teacherPromptIds.length = rollout.tokens.length ∧
  ∀ i (h : i < rollout.tokens.length) (hr : i < rollout.responseLengths.length)
    (hp : i < rollout.teacherPromptIds.length),
    (rollout.teacherPromptIds[i] =
        studentPrefix rollout.tokens[i] rollout.responseLengths[i] ↔
      (stepAt args r).context = .none)

/-- The actor snapshots a run has had, the entry student first. -/
def snapshots (entry : ι → α) (updates : List (CyclicUpdate ι α)) : List (ι → α) :=
  entry :: updates.map CyclicUpdate.weights

/-- Every live optimizer state holds `k` steps, and there is one to hold them. -/
structure OptimizersAt (chained : List ChainedOptimizer) (k : Nat) : Prop where
  steps : ∀ c ∈ chained, c.isStub = false → c.stateSteps = k
  exist : 0 < (chained.filter fun c => !c.isStub).length
  own : 0 < ((chained.filter fun c => !c.isStub).map ChainedOptimizer.params).sum

/-- The actor between updates, after `done.length` of them: every counter, the
clock, the optimizer state and both snapshots, as functions of that number. -/
structure CyclicInv (args : Args) (getLr : Nat → ℚ) (entry original : ι → α)
    (done : List (CyclicUpdate ι α)) (actor : Actor ι α) : Prop where
  completed : actor.opsdCyclicCompletedUpdates = done.length
  optimizerUpdates :
    actor.opsdCyclicOptimizerUpdates = updatesSinceReset args done.length
  source : actor.opsdCyclicTeacherSourceUpdate =
    (stepAt args done.length).teacherSourceUpdate
  actorSnapshot : actor.backups .actor = (snapshots entry done)[done.length]?
  teacherSnapshot : actor.backups .teacher =
    if args.opsdCyclicTeacherPolicy = some .cycleRefresh then
      (snapshots entry done)[(stepAt args done.length).teacherSourceUpdate]?
    else some original
  clock : actor.numSteps = done.length * args.globalBatchSize
  rates_ne : actor.paramGroups ≠ []
  rates : ∀ rate ∈ actor.paramGroups, rate = getLr (done.length * args.globalBatchSize)
  optimizers : OptimizersAt actor.chainedOptimizers (updatesSinceReset args done.length)

theorem checkPrefixes_ok {step : CyclicStep} :
    ∀ {tokens : List (List Int)} {lengths : List Nat} {prefixes : List (List Int)},
      lengths.length = tokens.length → prefixes.length = tokens.length →
      (∀ i (h : i < tokens.length) (hr : i < lengths.length)
        (hp : i < prefixes.length),
        (prefixes[i] = studentPrefix tokens[i] lengths[i] ↔ step.context = .none)) →
      checkPrefixes step tokens lengths prefixes = .ok () := by
  intro tokens
  induction tokens with
  | nil =>
      intro lengths prefixes hl hp _
      rw [List.length_nil] at hl hp
      rw [List.length_eq_zero_iff.mp hl, List.length_eq_zero_iff.mp hp]
      rfl
  | cons t ts ih =>
      intro lengths prefixes hl hp h
      match lengths, prefixes with
      | l :: ls, p :: ps =>
          have hhead := h 0 (by simp) (by simp) (by simp)
          simp only [List.getElem_cons_zero] at hhead
          rw [checkPrefixes, check_of hhead, except_ok_bind]
          refine ih (by simpa using hl) (by simpa using hp) ?_
          intro i hi hr hq
          have := h (i + 1) (by simpa using hi) (by simpa using hr) (by simpa using hq)
          simpa using this
      | [], _ => simp at hl
      | _ :: _, [] => simp at hp

theorem checkedLearningRate_ok {args : Args} (h : CyclicArgs args)
    {getLr : Nat → ℚ} (hlr : SchedulerFollows args getLr) {k : Nat}
    {actor : Actor ι α} (hclock : actor.numSteps = k * args.globalBatchSize)
    (hne : actor.paramGroups ≠ [])
    (hrates : ∀ rate ∈ actor.paramGroups, rate = getLr (k * args.globalBatchSize)) :
    checkedLearningRate args k actor =
      .ok (getLr (k * args.globalBatchSize)) actor := by
  have hclose : ∀ rate ∈ actor.paramGroups,
      isClose rate (getLr (k * args.globalBatchSize)) := by
    intro rate hrate
    rw [hrates rate hrate]
    exact isClose_refl _
  unfold checkedLearningRate
  rw [bind_of_ok get_run, bind_of_ok (require_of hclock),
    cyclicLearningRate_eq h hlr, bind_of_ok lift_ok, bind_of_ok (require_of hclose)]
  match hg : actor.paramGroups with
  | [] => exact absurd hg hne
  | rate :: rest =>
      simp only [pure_run]
      rw [hrates rate (by rw [hg]; simp)]

/-! Clearing keeps which optimizers exist and what they own, so the self-check
after it passes whenever there was an optimizer to clear. -/

theorem OptimizersAt.map {chained : List ChainedOptimizer} {k m : Nat}
    (h : OptimizersAt chained k) (f : Nat → Nat) (hf : f k = m) :
    OptimizersAt
      (chained.map fun c => if c.isStub then c else { c with stateSteps := f c.stateSteps })
      m := by
  have hfilter :
      (chained.map fun c =>
          if c.isStub then c else { c with stateSteps := f c.stateSteps }).filter
        (fun c => !c.isStub) =
      (chained.filter fun c => !c.isStub).map
        fun c => { c with stateSteps := f c.stateSteps } := by
    clear h
    induction chained with
    | nil => rfl
    | cons c cs ih =>
        rw [List.map_cons, List.filter_cons, List.filter_cons, ih]
        cases hc : c.isStub with
        | true => simp [hc]
        | false => simp [hc]
  refine ⟨?_, ?_, ?_⟩
  · intro c hc hstub
    obtain ⟨d, hd, rfl⟩ := List.mem_map.mp hc
    cases hdstub : d.isStub with
    | true => rw [hdstub, if_pos rfl] at hstub; rw [hdstub] at hstub; cases hstub
    | false =>
        rw [if_neg (by simp)]
        show f d.stateSteps = m
        rw [h.steps d hd hdstub, hf]
  · rw [hfilter, List.length_map]
    exact h.exist
  · rw [hfilter, List.map_map]
    exact h.own

theorem resetOptimizerState_ok {args : Args} (h : CyclicArgs args)
    {actor : Actor ι α} {k : Nat} (hopt : OptimizersAt actor.chainedOptimizers k) :
    resetOptimizerState args actor =
      .ok () { actor with
        chainedOptimizers := clearedOptimizers actor.chainedOptimizers } := by
  have hcleared : OptimizersAt (clearedOptimizers actor.chainedOptimizers) 0 :=
    hopt.map (fun _ => 0) rfl
  unfold resetOptimizerState
  rw [bind_of_ok (require_of h.no_offload), bind_of_ok (require_of h.no_chunked),
    bind_of_ok (require_of h.no_fp16), bind_of_ok (require_of h.no_stream),
    bind_of_ok modify_run, bind_of_ok get_run,
    bind_of_ok (require_of hcleared.exist), require_of hcleared.own]

/-- The actor a successful `begin_cyclic_step` leaves. -/
def begun (args : Args) (getLr : Nat → ℚ) (r : Nat) (actor : Actor ι α) :
    Actor ι α :=
  if (stepAt args r).optimizerReset then
    { actor with
      opsdCyclicAppliedLr := getLr (r * args.globalBatchSize)
      chainedOptimizers := clearedOptimizers actor.chainedOptimizers
      opsdCyclicOptimizerUpdates := 0 }
  else
    { actor with opsdCyclicAppliedLr := getLr (r * args.globalBatchSize) }

theorem enterCyclicStep_ok {args : Args} {rolloutId : Int} {numOptimizerSteps : Nat}
    {step : CyclicStep} {s : Actor ι α}
    (hsequential : rolloutId = s.opsdCyclicCompletedUpdates ∧ numOptimizerSteps = 1)
    (hstep : cyclicStep args rolloutId = .ok step)
    (hteacher : s.opsdCyclicTeacherSourceUpdate = step.teacherSourceUpdate) :
    enterCyclicStep args rolloutId numOptimizerSteps s = .ok step s := by
  rw [enterCyclicStep, bind_of_ok get_run, bind_of_ok (require_of hsequential), hstep,
    bind_of_ok lift_ok, bind_of_ok (require_of hteacher)]
  rfl

theorem beginCyclicStep_ok {args : Args} (h : CyclicArgs args)
    {getLr : Nat → ℚ} (hlr : SchedulerFollows args getLr)
    {entry original : ι → α} {done : List (CyclicUpdate ι α)} {actor : Actor ι α}
    (hinv : CyclicInv args getLr entry original done actor)
    (hlt : done.length < args.numRollout) {rollout : CyclicRollout}
    (hfollow : FollowsSchedule args done.length rollout) :
    beginCyclicStep args rollout done.length 1 actor =
      .ok () (begun args getLr done.length actor) := by
  have hseq : ((done.length : Int) = actor.opsdCyclicCompletedUpdates ∧ 1 = 1) := by
    rw [hinv.completed]; exact ⟨rfl, rfl⟩
  obtain ⟨hlengths, hprefixes, hphase⟩ := hfollow
  unfold beginCyclicStep
  rw [bind_of_ok (enterCyclicStep_ok hseq (cyclicStep_of_lt hlt h.cycle_pos) hinv.source),
    checkPrefixes_ok hlengths hprefixes hphase, bind_of_ok lift_ok, Int.toNat_natCast,
    bind_of_ok (checkedLearningRate_ok h hlr hinv.clock hinv.rates_ne hinv.rates),
    bind_of_ok modify_run]
  unfold begun
  split
  · next hreset =>
      have hcleared : resetOptimizerState args
          { actor with
            opsdCyclicAppliedLr := getLr (done.length * args.globalBatchSize) } =
          .ok ()
            { actor with
              opsdCyclicAppliedLr := getLr (done.length * args.globalBatchSize)
              chainedOptimizers := clearedOptimizers actor.chainedOptimizers } :=
        resetOptimizerState_ok h hinv.optimizers
      rw [bind_of_ok hcleared]
      rfl
  · next hreset => rfl

/-- What `begin_cyclic_step` leaves of the invariant: the counters of the
update about to be made, one short of what its completion will report. -/
theorem begun_optimizers {args : Args} {getLr : Nat → ℚ}
    {entry original : ι → α} {done : List (CyclicUpdate ι α)} {actor : Actor ι α}
    (hinv : CyclicInv args getLr entry original done actor) :
    (begun args getLr done.length actor).opsdCyclicOptimizerUpdates + 1 =
        updatesSinceReset args (done.length + 1) ∧
      OptimizersAt
        ((begun args getLr done.length actor).chainedOptimizers.map fun c =>
          if c.isStub then c else { c with stateSteps := c.stateSteps + 1 })
        (updatesSinceReset args (done.length + 1)) := by
  have hopt := hinv.optimizers
  unfold begun
  rw [updatesSinceReset]
  split
  · next hreset =>
      have hcleared : OptimizersAt (clearedOptimizers actor.chainedOptimizers) 0 :=
        hopt.map (fun _ => 0) rfl
      exact ⟨rfl, hcleared.map (fun n => n + 1) rfl⟩
  · next hreset =>
      refine ⟨?_, hopt.map (fun n => n + 1) rfl⟩
      show actor.opsdCyclicOptimizerUpdates + 1 = _
      rw [hinv.optimizerUpdates]

/-- Whether completing rollout `r` promotes the student to teacher. -/
def refreshes (args : Args) (r : Nat) : Bool :=
  (stepAt args r).cycleEnd && args.opsdCyclicTeacherPolicy == some .cycleRefresh

/-- The actor a successful `complete_cyclic_step` leaves. -/
def completed (args : Args) (r : Nat) (actor : Actor ι α) : Actor ι α :=
  { actor with
    backups := if refreshes args r then actor.backups.copy .actor .teacher
      else actor.backups
    opsdCyclicTeacherSourceUpdate :=
      if refreshes args r then r + 1 else actor.opsdCyclicTeacherSourceUpdate
    opsdCyclicCompletedUpdates := r + 1
    opsdCyclicOptimizerUpdates := actor.opsdCyclicOptimizerUpdates + 1 }

theorem completeCyclicStep_ok {args : Args} (h : CyclicArgs args)
    {getLr : Nat → ℚ} (hlr : SchedulerFollows args getLr) {r : Nat}
    (hlt : r < args.numRollout) {actor : Actor ι α}
    (hcompleted : actor.opsdCyclicCompletedUpdates = r)
    (hclock : actor.numSteps = (r + 1) * args.globalBatchSize)
    (hne : actor.paramGroups ≠ [])
    (hrates : ∀ rate ∈ actor.paramGroups,
      rate = getLr ((r + 1) * args.globalBatchSize))
    (hopt : actor.opsdCyclicOptimizerUpdates + 1 = updatesSinceReset args (r + 1)) :
    completeCyclicStep args r actor =
      .ok
        { trainStep := r
          step := stepAt args r
          teacherRefreshed := refreshes args r
          completedUpdates := r + 1
          optimizerUpdates := updatesSinceReset args (r + 1)
          appliedLr := actor.opsdCyclicAppliedLr
          nextLr := getLr ((r + 1) * args.globalBatchSize) }
        (completed args r actor) := by
  have hseq : (r : Int) = actor.opsdCyclicCompletedUpdates := by rw [hcompleted]
  unfold completeCyclicStep
  simp only [Int.toNat_natCast]
  rw [bind_of_ok get_run, bind_of_ok (require_of hseq),
    bind_of_ok (checkedLearningRate_ok h hlr hclock hne hrates),
    cyclicOptimizerUpdates_eq h.pi_pos h.opd_pos, bind_of_ok lift_ok,
    bind_of_ok (require_of hopt), cyclicStep_of_lt hlt h.cycle_pos,
    bind_of_ok lift_ok]
  unfold completed
  cases hrefresh : refreshes args r with
  | true =>
      have hr := hrefresh
      unfold refreshes at hr
      rw [if_pos hr]
      simp only [copyWeights, hr, ← hopt]
      rfl
  | false =>
      have hr := hrefresh
      unfold refreshes at hr
      rw [if_neg (by rw [hr]; simp)]
      simp only [hr, ← hopt]
      rfl

/-- What the record of update `r` must say, given every update of the run. -/
structure RecordAt (args : Args) (getLr : Nat → ℚ) (entry original : ι → α)
    (updates : List (CyclicUpdate ι α)) (r : Nat) (record : CyclicRecord ι α) :
    Prop where
  /-- The weights that scored this update: the actor snapshot its step names
  under a refresh policy, the loaded teacher otherwise. -/
  teacher : some record.scoringWeights =
    if args.opsdCyclicTeacherPolicy = some .cycleRefresh then
      (snapshots entry updates)[(stepAt args r).teacherSourceUpdate]?
    else some original
  step : cyclicStep args r = .ok record.metrics.step
  trainStep : record.metrics.trainStep = r
  refreshed : record.metrics.teacherRefreshed = refreshes args r
  completed : record.after.opsdCyclicCompletedUpdates = r + 1
  optimizerUpdates : cyclicOptimizerUpdates args (r + 1) =
    .ok record.after.opsdCyclicOptimizerUpdates
  /-- The steps every Adam state has taken since its last reset. -/
  sinceReset : OptimizersAt record.after.chainedOptimizers
    record.after.opsdCyclicOptimizerUpdates
  reported : record.metrics.completedUpdates =
      record.after.opsdCyclicCompletedUpdates ∧
    record.metrics.optimizerUpdates = record.after.opsdCyclicOptimizerUpdates
  appliedLr : cyclicLearningRate args r = .ok record.metrics.appliedLr
  nextLr : cyclicLearningRate args (r + 1) = .ok record.metrics.nextLr

theorem snapshots_append {entry : ι → α} {done rest : List (CyclicUpdate ι α)}
    {k : Nat} (hk : k ≤ done.length) :
    (snapshots entry (done ++ rest))[k]? = (snapshots entry done)[k]? := by
  have hsplit : snapshots entry (done ++ rest) =
      snapshots entry done ++ rest.map CyclicUpdate.weights := by
    simp [snapshots]
  rw [hsplit, List.getElem?_append_left]
  simp only [snapshots, List.length_cons, List.length_map]
  omega

theorem snapshots_last {entry : ι → α} {done : List (CyclicUpdate ι α)}
    {u : CyclicUpdate ι α} :
    (snapshots entry (done ++ [u]))[done.length + 1]? = some u.weights := by
  simp [snapshots]

/-- The teacher source moves only to a snapshot that exists. -/
theorem snapshots_source {args : Args} {entry : ι → α}
    {done rest : List (CyclicUpdate ι α)} :
    (snapshots entry (done ++ rest))[(stepAt args done.length).teacherSourceUpdate]? =
      (snapshots entry done)[(stepAt args done.length).teacherSourceUpdate]? :=
  snapshots_append (stepAt_teacherSource_le done.length)

theorem CyclicInv.teacher_some {args : Args} {getLr : Nat → ℚ}
    {entry original : ι → α} {done : List (CyclicUpdate ι α)} {actor : Actor ι α}
    (hinv : CyclicInv args getLr entry original done actor) :
    ∃ weights, actor.backups .teacher = some weights := by
  rw [hinv.teacherSnapshot]
  split
  · have hle := @stepAt_teacherSource_le args done.length
    rw [List.getElem?_eq_getElem
      (by simp only [snapshots, List.length_cons, List.length_map]; omega)]
    exact ⟨_, rfl⟩
  · exact ⟨original, rfl⟩

theorem CyclicInv.actor_some {args : Args} {getLr : Nat → ℚ}
    {entry original : ι → α} {done : List (CyclicUpdate ι α)} {actor : Actor ι α}
    (hinv : CyclicInv args getLr entry original done actor) :
    ∃ weights, actor.backups .actor = some weights := by
  rw [hinv.actorSnapshot, List.getElem?_eq_getElem
    (by simp only [snapshots, List.length_cons, List.length_map]; omega)]
  exact ⟨_, rfl⟩

/-- The actor between the optimizer update and the completing hook: trained,
switched back to its own weights and backed up. -/
def trained (getLr : Nat → ℚ) (u : CyclicUpdate ι α) (increment : Nat)
    (actor : Actor ι α) : Actor ι α :=
  { actor with
    live := u.weights
    activeModelTag := .actor
    backups := actor.backups.backup .actor u.weights
    chainedOptimizers := actor.chainedOptimizers.map fun c =>
      if c.isStub then c else { c with stateSteps := c.stateSteps + 1 }
    numSteps := actor.numSteps + increment
    paramGroups := actor.paramGroups.map fun _ => getLr (actor.numSteps + increment) }

theorem switchModel_ok {tag : Tag} {actor : Actor ι α} {weights : ι → α}
    (h : actor.backups tag = some weights) :
    switchModel tag actor =
      .ok () { actor with live := weights, activeModelTag := tag } := by
  unfold switchModel
  rw [bind_of_ok get_run, h]
  rfl

/-- The middle of an update: it scores under the teacher snapshot, and the
weights it backs up are the ones the optimizer left. -/
theorem cyclicUpdate_eq {args : Args} {getLr : Nat → ℚ} {r : Nat}
    {u : CyclicUpdate ι α} {actor b actor' : Actor ι α} {teacher student : ι → α}
    {metrics : CyclicMetrics}
    (hbegin : beginCyclicStep args u.rollout r 1 actor = .ok () b)
    (hteacher : b.backups .teacher = some teacher)
    (hstudent : b.backups .actor = some student)
    (hcomplete : completeCyclicStep args r (trained getLr u args.globalBatchSize b) =
      .ok metrics actor') :
    cyclicUpdate args getLr r u actor =
      .ok
        { scoringWeights := teacher
          metrics
          after := actor' } actor' := by
  have hback : switchModel .actor
      { b with live := teacher, activeModelTag := .teacher } =
      .ok () { b with live := student, activeModelTag := .actor } :=
    switchModel_ok hstudent
  unfold cyclicUpdate
  rw [bind_of_ok hbegin, bind_of_ok (switchModel_ok hteacher), bind_of_ok get_run,
    bind_of_ok hback]
  unfold successfulUpdate backupWeights
  rw [bind_of_ok modify_run, bind_of_ok modify_run]
  exact (bind_of_ok hcomplete).trans rfl

/-- Both snapshots after the completing hook, for any earlier teacher. -/
theorem completed_backups {args : Args} {getLr : Nat → ℚ} {r increment : Nat}
    {u : CyclicUpdate ι α} {b : Actor ι α} {teacher : ι → α}
    (hteacher : b.backups .teacher = some teacher) :
    (completed args r (trained getLr u increment b)).backups .actor =
        some u.weights ∧
      (completed args r (trained getLr u increment b)).backups .teacher =
        if refreshes args r then some u.weights else some teacher := by
  have hne : Tag.teacher ≠ Tag.actor := by decide
  unfold completed trained
  cases hrefresh : refreshes args r with
  | true =>
      have hold : (b.backups.backup .actor u.weights) .teacher = some teacher := by
        rw [Backups.backup_of_ne _ _ hne, hteacher]
      simp only [if_true, Backups.copy_of_some hold (Backups.backup_self _ _ _),
        Backups.backup_self, Backups.backup_of_ne _ _ hne.symm, and_self]
  | false =>
      simp only [Bool.false_eq_true, if_false, Backups.backup_self,
        Backups.backup_of_ne _ _ hne, hteacher, and_self]

/-- The teacher snapshot follows the schedule over one update. -/
theorem teacherSnapshot_succ {args : Args} (h : CyclicArgs args)
    {entry original teacher : ι → α} {done : List (CyclicUpdate ι α)}
    {u : CyclicUpdate ι α}
    (hteacher : some teacher =
      if args.opsdCyclicTeacherPolicy = some .cycleRefresh then
        (snapshots entry done)[(stepAt args done.length).teacherSourceUpdate]?
      else some original) :
    (if refreshes args done.length then some u.weights else some teacher) =
      if args.opsdCyclicTeacherPolicy = some .cycleRefresh then
        (snapshots entry (done ++ [u]))[
          (stepAt args (done.length + 1)).teacherSourceUpdate]?
      else some original := by
  by_cases hpolicy : args.opsdCyclicTeacherPolicy = some .cycleRefresh
  · have hrefresh : refreshes args done.length = (stepAt args done.length).cycleEnd := by
      simp [refreshes, hpolicy]
    rw [if_pos hpolicy, stepAt_teacherSource_succ h.cycle_pos hpolicy, hrefresh]
    split
    · exact snapshots_last.symm
    · rw [hteacher, if_pos hpolicy, snapshots_source]
  · have hrefresh : refreshes args done.length = false := by
      simp [refreshes, hpolicy]
    rw [hrefresh, hteacher, if_neg hpolicy, if_neg hpolicy, if_neg (by simp)]

/-- The source counter follows the schedule over one update. -/
theorem teacherSource_succ {args : Args} (h : CyclicArgs args) (r : Nat) :
    (if refreshes args r then r + 1 else (stepAt args r).teacherSourceUpdate) =
      (stepAt args (r + 1)).teacherSourceUpdate := by
  by_cases hpolicy : args.opsdCyclicTeacherPolicy = some .cycleRefresh
  · rw [stepAt_teacherSource_succ h.cycle_pos hpolicy]
    simp [refreshes, hpolicy]
  · simp [refreshes, stepAt, hpolicy]

/-- What `begin_cyclic_step` leaves alone. -/
theorem begun_frame (args : Args) (getLr : Nat → ℚ) (r : Nat) (actor : Actor ι α) :
    (begun args getLr r actor).backups = actor.backups ∧
      (begun args getLr r actor).numSteps = actor.numSteps ∧
      (begun args getLr r actor).paramGroups = actor.paramGroups ∧
      (begun args getLr r actor).opsdCyclicCompletedUpdates =
        actor.opsdCyclicCompletedUpdates ∧
      (begun args getLr r actor).opsdCyclicTeacherSourceUpdate =
        actor.opsdCyclicTeacherSourceUpdate ∧
      (begun args getLr r actor).opsdCyclicAppliedLr =
        getLr (r * args.globalBatchSize) := by
  unfold begun
  split <;> exact ⟨rfl, rfl, rfl, rfl, rfl, rfl⟩

/-- One update keeps the invariant, raises nothing, and records what it
should. -/
theorem cyclicUpdate_ok {args : Args} (h : CyclicArgs args)
    {getLr : Nat → ℚ} (hlr : SchedulerFollows args getLr)
    {entry original : ι → α} {done : List (CyclicUpdate ι α)} {actor : Actor ι α}
    (hinv : CyclicInv args getLr entry original done actor)
    (hlt : done.length < args.numRollout) {u : CyclicUpdate ι α}
    (hfollow : FollowsSchedule args done.length u.rollout) :
    ∃ record actor',
      cyclicUpdate args getLr done.length u actor = .ok record actor' ∧
      CyclicInv args getLr entry original (done ++ [u]) actor' ∧
      RecordAt args getLr entry original (done ++ [u]) done.length record := by
  have hbegun := beginCyclicStep_ok h hlr hinv hlt hfollow
  obtain ⟨hcount, hopt⟩ := begun_optimizers hinv
  obtain ⟨hbackups, hsteps, hgroups, hdone, hsource, happlied⟩ :=
    begun_frame args getLr done.length actor
  generalize begun args getLr done.length actor = b at *
  obtain ⟨teacher, hteacher⟩ := hinv.teacher_some
  obtain ⟨student, hstudent⟩ := hinv.actor_some
  have hlast : (done ++ [u]).length = done.length + 1 := by simp
  have hclock : b.numSteps + args.globalBatchSize =
      (done.length + 1) * args.globalBatchSize := by
    rw [hsteps, hinv.clock, Nat.succ_mul]
  -- The rates are written from the clock the update has just advanced.
  have hne : (trained getLr u args.globalBatchSize b).paramGroups ≠ [] := by
    intro hnil
    rw [trained, List.map_eq_nil_iff, hgroups] at hnil
    exact hinv.rates_ne hnil
  have hrates : ∀ rate ∈ (trained getLr u args.globalBatchSize b).paramGroups,
      rate = getLr ((done.length + 1) * args.globalBatchSize) := by
    intro rate hrate
    obtain ⟨_, -, rfl⟩ := List.mem_map.mp hrate
    rw [hclock]
  have hcomplete := @completeCyclicStep_ok ι α args h getLr hlr done.length hlt
    (trained getLr u args.globalBatchSize b) (hdone.trans hinv.completed) hclock
    hne hrates hcount
  have hrun := cyclicUpdate_eq hbegun (hbackups ▸ hteacher) (hbackups ▸ hstudent)
    hcomplete
  obtain ⟨hactor', hteacher'⟩ :=
    @completed_backups ι α args getLr done.length args.globalBatchSize u b teacher
      (hbackups ▸ hteacher)
  have hscored := hteacher.symm.trans hinv.teacherSnapshot
  refine ⟨_, _, hrun, ?_, ?_⟩
  · refine
      { completed := by rw [hlast]; rfl
        optimizerUpdates := by rw [hlast]; exact hcount
        source := ?_
        actorSnapshot := by rw [hactor', hlast, snapshots_last]
        teacherSnapshot := ?_
        clock := by rw [hlast]; exact hclock
        rates_ne := hne
        rates := by rw [hlast]; exact hrates
        optimizers := by rw [hlast]; exact hopt }
    · rw [hlast, ← teacherSource_succ h]
      show (if refreshes args done.length then done.length + 1 else
        b.opsdCyclicTeacherSourceUpdate) = _
      rw [hsource, hinv.source]
    · rw [hteacher', hlast]
      exact teacherSnapshot_succ h hscored
  · exact
      { teacher := by rw [snapshots_source]; exact hscored
        step := cyclicStep_of_lt hlt h.cycle_pos
        trainStep := rfl
        refreshed := rfl
        completed := rfl
        optimizerUpdates := by
          rw [cyclicOptimizerUpdates_eq h.pi_pos h.opd_pos]
          exact congrArg _ hcount.symm
        sinceReset := by rw [← hcount] at hopt; exact hopt
        reported := ⟨rfl, hcount.symm⟩
        appliedLr := by
          rw [cyclicLearningRate_eq h hlr]
          exact congrArg _ happlied.symm
        nextLr := cyclicLearningRate_eq h hlr _ }

/-- A record names only snapshots that exist when it is made, so later updates
do not change what it says. -/
theorem RecordAt.append {args : Args} {getLr : Nat → ℚ} {entry original : ι → α}
    {done rest : List (CyclicUpdate ι α)} {u : CyclicUpdate ι α}
    {record : CyclicRecord ι α}
    (h : RecordAt args getLr entry original (done ++ [u]) done.length record) :
    RecordAt args getLr entry original (done ++ u :: rest) done.length record := by
  refine { h with teacher := ?_ }
  have hsame : (snapshots entry (done ++ u :: rest))[
      (stepAt args done.length).teacherSourceUpdate]? =
      (snapshots entry (done ++ [u]))[
        (stepAt args done.length).teacherSourceUpdate]? := by
    rw [snapshots_source, snapshots_source]
  rw [hsame]
  exact h.teacher

/-- A run from any point of it: by induction on the updates still to come. -/
theorem cyclicRun_ok {args : Args} (h : CyclicArgs args)
    {getLr : Nat → ℚ} (hlr : SchedulerFollows args getLr)
    {entry original : ι → α} (rest : List (CyclicUpdate ι α)) :
    ∀ {done : List (CyclicUpdate ι α)} {actor : Actor ι α},
      CyclicInv args getLr entry original done actor →
      done.length + rest.length ≤ args.numRollout →
      (∀ k (hk : k < rest.length),
        FollowsSchedule args (done.length + k) rest[k].rollout) →
      ∃ records actor',
        cyclicRun args getLr done.length rest actor = .ok records actor' ∧
        CyclicInv args getLr entry original (done ++ rest) actor' ∧
        records.length = rest.length ∧
        ∀ k (hk : k < records.length),
          RecordAt args getLr entry original (done ++ rest) (done.length + k)
            records[k] := by
  induction rest with
  | nil =>
      intro done actor hinv _ _
      refine ⟨[], actor, rfl, by rw [List.append_nil]; exact hinv, rfl, ?_⟩
      intro k hk
      exact absurd hk (Nat.not_lt_zero k)
  | cons u us ih =>
      intro done actor hinv hle hfollow
      rw [List.length_cons] at hle
      have hhead : FollowsSchedule args done.length u.rollout := hfollow 0 (by simp)
      obtain ⟨record, next, hstep, hinv', hrecord⟩ :=
        cyclicUpdate_ok h hlr hinv (by omega) hhead
      have hlast : (done ++ [u]).length = done.length + 1 := by simp
      have hsplit : done ++ u :: us = done ++ [u] ++ us := by simp
      obtain ⟨records, actor', hrun, hend, hlen, hrecords⟩ :=
        ih hinv' (by rw [hlast]; omega) (by
          intro k hk
          have := hfollow (k + 1) (by simpa using hk)
          rw [List.getElem_cons_succ] at this
          rw [hlast, Nat.add_assoc, Nat.add_comm 1 k]
          exact this)
      refine ⟨record :: records, actor', ?_, by rw [hsplit]; exact hend,
        by rw [List.length_cons, List.length_cons, hlen], ?_⟩
      · rw [cyclicRun, bind_of_ok hstep, ← hlast, bind_of_ok hrun]
        rfl
      · intro k hk
        cases k with
        | zero => exact hrecord.append
        | succ k =>
            rw [List.length_cons] at hk
            have := hrecords k (by omega)
            rw [hlast, Nat.add_assoc, Nat.add_comm 1 k] at this
            rw [hsplit]
            exact this

/-! ## From a fresh actor -/

/-- The actor `initialize_cyclic` is called on: both weight backups taken, the
optimizer and its scheduler new. -/
structure FreshActor (getLr : Nat → ℚ) (entry original : ι → α)
    (actor : Actor ι α) : Prop where
  actorSnapshot : actor.backups .actor = some entry
  teacherSnapshot : actor.backups .teacher = some original
  clock : actor.numSteps = 0
  rates_ne : actor.paramGroups ≠ []
  rates : ∀ rate ∈ actor.paramGroups, rate = getLr 0
  optimizers : OptimizersAt actor.chainedOptimizers 0

theorem initializeCyclic_ok {args : Args} {getLr : Nat → ℚ} {entry original : ι → α}
    {actor : Actor ι α} (hfresh : FreshActor getLr entry original actor) :
    ∃ actor', initializeCyclic args actor = .ok () actor' ∧
      CyclicInv args getLr entry original [] actor' := by
  have hrates : ∀ rate ∈ actor.paramGroups,
      rate = getLr (([] : List (CyclicUpdate ι α)).length * args.globalBatchSize) := by
    rw [List.length_nil, Nat.zero_mul]
    exact hfresh.rates
  have hsource : (0 : Nat) = (stepAt args 0).teacherSourceUpdate := by
    simp [stepAt]
  have hclock : actor.numSteps =
      ([] : List (CyclicUpdate ι α)).length * args.globalBatchSize := by
    rw [List.length_nil, Nat.zero_mul, hfresh.clock]
  by_cases hpolicy : args.opsdCyclicTeacherPolicy = some .cycleRefresh
  · refine ⟨{ actor with
      opsdCyclicCompletedUpdates := 0
      opsdCyclicOptimizerUpdates := 0
      opsdCyclicTeacherSourceUpdate := 0
      backups := actor.backups.copy .actor .teacher }, ?_, ?_⟩
    · unfold initializeCyclic
      rw [bind_of_ok modify_run, if_pos hpolicy]
      rfl
    · have hcopy := Backups.copy_of_some hfresh.teacherSnapshot hfresh.actorSnapshot
      refine
        { completed := rfl, optimizerUpdates := rfl, source := hsource
          actorSnapshot := ?_, teacherSnapshot := ?_
          clock := hclock, rates_ne := hfresh.rates_ne, rates := hrates
          optimizers := hfresh.optimizers }
      · show actor.backups.copy .actor .teacher .actor = some entry
        rw [hcopy, Backups.backup_of_ne _ _ (by decide), hfresh.actorSnapshot]
      · show actor.backups.copy .actor .teacher .teacher = _
        rw [hcopy, Backups.backup_self, if_pos hpolicy, List.length_nil, ← hsource]
        rfl
  · refine ⟨{ actor with
      opsdCyclicCompletedUpdates := 0
      opsdCyclicOptimizerUpdates := 0
      opsdCyclicTeacherSourceUpdate := 0 }, ?_, ?_⟩
    · unfold initializeCyclic
      rw [bind_of_ok modify_run, if_neg hpolicy]
      rfl
    · exact
        { completed := rfl, optimizerUpdates := rfl, source := hsource
          actorSnapshot := hfresh.actorSnapshot
          teacherSnapshot := by rw [if_neg hpolicy]; exact hfresh.teacherSnapshot
          clock := hclock, rates_ne := hfresh.rates_ne, rates := hrates
          optimizers := hfresh.optimizers }

/-- **Cyclic run safety.** Under accepted arguments, from a fresh actor and for
any updates that follow the schedule, nothing a hook checks ever fails, and
every update scores with, counts and reports what the schedule says. -/
theorem cyclic_run_safe {args : Args} (hargs : validateCyclicArgs args = .ok ())
    {getLr : Nat → ℚ} (hlr : SchedulerFollows args getLr)
    {entry original : ι → α} {actor : Actor ι α}
    (hfresh : FreshActor getLr entry original actor)
    {updates : List (CyclicUpdate ι α)} (hle : updates.length ≤ args.numRollout)
    (hfollow : ∀ r (hr : r < updates.length),
      FollowsSchedule args r updates[r].rollout) :
    ∃ records actor',
      (do initializeCyclic args; cyclicRun args getLr 0 updates) actor =
        .ok records actor' ∧
      records.length = updates.length ∧
      ∀ r (hr : r < records.length),
        RecordAt args getLr entry original updates r records[r] := by
  have h := cyclicArgs_of_validate hargs
  obtain ⟨begun, hinit, hinv⟩ := @initializeCyclic_ok ι α args _ _ _ _ hfresh
  obtain ⟨records, actor', hrun, -, hlen, hrecords⟩ :=
    cyclicRun_ok h hlr updates hinv
      (by rw [List.length_nil, Nat.zero_add]; exact hle)
      (by
        intro k hk
        rw [List.length_nil, Nat.zero_add]
        exact hfollow k hk)
  refine ⟨records, actor', (bind_of_ok hinit).trans hrun, hlen, ?_⟩
  intro r hr
  have := hrecords r hr
  rw [List.length_nil, Nat.zero_add, List.nil_append] at this
  exact this

/-- One worked and one plain update a cycle, over two cycles. -/
def twoCycles : Args :=
  { numRollout := 4
    opsdCyclicTeacherPolicy := some .cycleRefresh
    opsdCyclicPiUpdates := 1
    opsdCyclicOpdUpdates := 1
    opsdContext := .worked
    opsdReduction := .sampleMean
    opsdTemperature := 1
    opsdTokenClip := 0
    rolloutBatchSize := 2
    nSamplesPerPrompt := 1
    globalBatchSize := 2
    seqLength := 16
    vocabSize := 8
    lr := 1 / 10
    lrDecayStyle := .constant
    noLoadOptim := true
    startRolloutId := some 0 }

/-- An actor of one scalar parameter, with a student at 5 and a teacher at 3. -/
def scalarActor : Actor Unit Nat :=
  { live := fun _ => 5
    training := [true]
    backups := fun tag =>
      match tag with
      | .actor => some fun _ => 5
      | .teacher => some fun _ => 3
      | _ => none
    activeModelTag := .actor
    opsdEma := none
    chainedOptimizers := [{ isStub := false, params := 1, stateSteps := 0 }]
    paramGroups := [1 / 10]
    numSteps := 0
    opsdCyclicCompletedUpdates := 0
    opsdCyclicOptimizerUpdates := 0
    opsdCyclicTeacherSourceUpdate := 0
    opsdCyclicAppliedLr := 0 }

/-- The scalar's updates: a worked prefix, then the student's own. -/
def scalarUpdates : List (CyclicUpdate Unit Nat) :=
  let rollout (teacherPrefix : List Int) : CyclicRollout :=
    { tokens := [[1, 2, 3]], responseLengths := [1], teacherPromptIds := [teacherPrefix] }
  [ ⟨rollout [9, 9], fun _ => 6⟩, ⟨rollout [1, 2], fun _ => 7⟩,
    ⟨rollout [9, 9], fun _ => 8⟩, ⟨rollout [1, 2], fun _ => 9⟩ ]

theorem twoCycles_scheduler : SchedulerFollows twoCycles fun _ => 1 / 10 :=
  { decay_steps_pos := by decide
    constant := fun _ _ => rfl
    linear := fun h => absurd h (by decide) }

theorem scalarActor_fresh :
    FreshActor (fun _ => 1 / 10) (fun _ => 5) (fun _ => 3) scalarActor :=
  { actorSnapshot := rfl
    teacherSnapshot := rfl
    clock := rfl
    rates_ne := by simp [scalarActor]
    rates := by simp [scalarActor]
    optimizers := ⟨by decide, by decide, by decide⟩ }

theorem scalarUpdates_follow (r : Nat) (hr : r < scalarUpdates.length) :
    FollowsSchedule twoCycles r scalarUpdates[r].rollout := by
  have hprefix : ∀ r : Fin 4, FollowsSchedule twoCycles r scalarUpdates[r].rollout := by
    unfold FollowsSchedule
    decide
  exact hprefix ⟨r, hr⟩

theorem cyclic_run_safe_twoCycles :
    ∃ records actor',
      (do initializeCyclic twoCycles
          cyclicRun twoCycles (fun _ => 1 / 10) 0 scalarUpdates) scalarActor =
        .ok records actor' ∧
      records.length = scalarUpdates.length ∧
      ∀ r (hr : r < records.length),
        RecordAt twoCycles (fun _ => 1 / 10) (fun _ => 5) (fun _ => 3)
          scalarUpdates r records[r] :=
  cyclic_run_safe (by decide) twoCycles_scheduler scalarActor_fresh (by decide)
    scalarUpdates_follow

end Crisp.Proofs
