import Crisp.Lib.Simulate
import Crisp.Proofs.CyclicRun
import Crisp.Proofs.Snapshots

/-!
# A cyclic update may fail and be tried again

Both hooks read before they write: a check of their own that raises leaves the actor as it
was. What a begun attempt has written, the applied rate and at a phase start the cleared
optimizer with its count, a second begin writes again; so however many attempts
raise before their optimizer step, the one that completes leaves the actor it would
have left without them.
-/

namespace Crisp.Proofs

open Crisp.Lib Crisp.Ref

variable {ι α ρ τ ν : Type} {args : Args}

/-! ## Checks before effects -/

theorem checkedLearningRate_reads {s : Actor ι α} {completedUpdates : Nat} :
    Preserves (· = s) (checkedLearningRate args completedUpdates) := by
  refine Preserves.get.bind fun actor => Preserves.require.bind fun _ =>
    Preserves.lift.bind fun _ => Preserves.require.bind fun _ => ?_
  cases actor.paramGroups with
  | nil => exact Preserves.throw
  | cons rate rates => exact Preserves.pure

/-- The rate is read off the clock and the groups alone. -/
theorem checkedLearningRate_congr {s t : Actor ι α} {completedUpdates : Nat} {rate : ℚ}
    (hclock : t.numSteps = s.numSteps) (hgroups : t.paramGroups = s.paramGroups)
    (h : checkedLearningRate args completedUpdates s = .ok rate s) :
    checkedLearningRate args completedUpdates t = .ok rate t := by
  have hreads : Simulates
      (fun s t : Actor ι α => t.numSteps = s.numSteps ∧ t.paramGroups = s.paramGroups)
      (fun _ _ => True) (checkedLearningRate args completedUpdates)
      (checkedLearningRate args completedUpdates) := by
    refine Simulates.get_bind fun s t hst => ?_
    rw [hst.1, hst.2]
    refine Simulates.require.bind fun _ => Simulates.lift.bind fun _ =>
      Simulates.require.bind fun _ => ?_
    cases s.paramGroups with
    | nil => exact fun _ _ _ _ _ hx => nomatch hx
    | cons rate rates => exact Simulates.pure fun _ _ _ => trivial
  obtain ⟨t', ht', -⟩ := hreads s t rate s ⟨hclock, hgroups⟩ h
  obtain rfl : t' = t := checkedLearningRate_reads.ok rfl ht'
  exact ht'

/-- What `begin_cyclic_step` has checked when it first writes. -/
structure BeginPasses (args : Args) (rollout : CyclicRollout) (rolloutId : Int)
    (numOptimizerSteps : Nat) (step : CyclicStep) (rate : ℚ) (s : Actor ι α) : Prop where
  sequential : rolloutId = s.opsdCyclicCompletedUpdates ∧ numOptimizerSteps = 1
  scheduled : cyclicStep args rolloutId = .ok step
  teacher : s.opsdCyclicTeacherSourceUpdate = step.teacherSourceUpdate
  samples : checkPrefixes step rollout.tokens rollout.responseLengths
    rollout.teacherPromptIds = .ok ()
  rate : checkedLearningRate args rolloutId.toNat s = .ok rate s

/-- What it does then. -/
def beginEffect (args : Args) (step : CyclicStep) : ActorM ι α Unit :=
  if step.optimizerReset then do
    resetOptimizerState args
    modify fun actor => { actor with opsdCyclicOptimizerUpdates := 0 }
  else pure ()

section Begin

variable {rollout : CyclicRollout} {rolloutId : Int} {numOptimizerSteps : Nat}
  {step : CyclicStep} {rate : ℚ} {s t : Actor ι α}

theorem BeginPasses.run (h : BeginPasses args rollout rolloutId numOptimizerSteps step rate s) :
    beginCyclicStep args rollout rolloutId numOptimizerSteps s =
      beginEffect args step { s with opsdCyclicAppliedLr := rate } := by
  rw [beginCyclicStep, bind_of_ok (enterCyclicStep_ok h.sequential h.scheduled h.teacher),
    h.samples, bind_of_ok lift_ok, bind_of_ok h.rate, bind_of_ok modify_run]
  rfl

/-- Either every check passes, or one raises and nothing has been written. -/
theorem beginPasses_or (args : Args) (rollout : CyclicRollout) (rolloutId : Int)
    (numOptimizerSteps : Nat) (s : Actor ι α) :
    (∃ step rate, BeginPasses args rollout rolloutId numOptimizerSteps step rate s) ∨
      ∃ e, beginCyclicStep args rollout rolloutId numOptimizerSteps s = .error e s := by
  by_cases hsequential : rolloutId = s.opsdCyclicCompletedUpdates ∧ numOptimizerSteps = 1
  case neg =>
    refine Or.inr (Exists.intro ?_ ?_)
    rotate_left
    · rw [beginCyclicStep, bind_of_error]
      rw [enterCyclicStep, bind_of_ok get_run, bind_of_error (require_of_not hsequential)]
  cases hstep : cyclicStep args rolloutId with
  | error e =>
      refine Or.inr ⟨e, ?_⟩
      rw [beginCyclicStep, bind_of_error]
      rw [enterCyclicStep, bind_of_ok get_run, bind_of_ok (require_of hsequential), hstep,
        bind_of_error lift_error]
  | ok step =>
      by_cases hteacher : s.opsdCyclicTeacherSourceUpdate = step.teacherSourceUpdate
      case neg =>
        refine Or.inr (Exists.intro ?_ ?_)
        rotate_left
        · rw [beginCyclicStep, bind_of_error]
          rw [enterCyclicStep, bind_of_ok get_run, bind_of_ok (require_of hsequential), hstep,
            bind_of_ok lift_ok, bind_of_error (require_of_not hteacher)]
      have henter := enterCyclicStep_ok hsequential hstep hteacher
      cases hsamples : checkPrefixes step rollout.tokens rollout.responseLengths
          rollout.teacherPromptIds with
      | error e =>
          refine Or.inr ⟨e, ?_⟩
          rw [beginCyclicStep, bind_of_ok henter, hsamples, bind_of_error lift_error]
      | ok _ =>
          cases hrate : checkedLearningRate args rolloutId.toNat s with
          | error e t =>
              obtain rfl : t = s := checkedLearningRate_reads.error rfl hrate
              refine Or.inr ⟨e, ?_⟩
              rw [beginCyclicStep, bind_of_ok henter, hsamples, bind_of_ok lift_ok,
                bind_of_error hrate]
          | ok rate t =>
              obtain rfl : t = s := checkedLearningRate_reads.ok rfl hrate
              exact Or.inl ⟨step, rate, hsequential, hstep, hteacher, hsamples, hrate⟩

/-- The optimizer's own reset refuses with assertions. -/
theorem resetOptimizerState_kind {e : PyError} (h : resetOptimizerState args s = .error e t) :
    e.kind = .assertion := by
  have hkind : Triple (fun _ => True) (resetOptimizerState args : ActorM ι α Unit)
      (fun _ _ => True) (fun e _ => e.kind = .assertion) := by
    have hrequire : ∀ (ok : Prop) [Decidable ok] (message : String),
        Triple (fun _ => True) (require ok (assertionError message) : ActorM ι α Unit)
          (fun _ _ => True) (fun e _ => e.kind = .assertion) := fun ok _ message =>
      Triple.require (fun _ _ _ => trivial) fun _ _ _ => rfl
    refine (hrequire _ _).bind fun _ => (hrequire _ _).bind fun _ => (hrequire _ _).bind fun _ =>
      (hrequire _ _).bind fun _ => Triple.bind (Q := fun _ _ => True) (fun _ _ => trivial)
        fun _ => Triple.bind (Q := fun _ _ => True) (fun _ _ => trivial) fun _ =>
          (hrequire _ _).bind fun _ => hrequire _ _
  exact hkind.error trivial h

/-- `begin_cyclic_step` raises before it writes, but for the reset's own assertions. -/
theorem beginCyclicStep_raises {e : PyError}
    (h : beginCyclicStep args rollout rolloutId numOptimizerSteps s = .error e t) :
    t = s ∨ ∃ rate, e.kind = .assertion ∧
      resetOptimizerState args { s with opsdCyclicAppliedLr := rate } = .error e t := by
  rcases beginPasses_or args rollout rolloutId numOptimizerSteps s with
    ⟨step, rate, hpasses⟩ | ⟨e', hraises⟩
  · rw [hpasses.run, beginEffect] at h
    split at h
    · cases hreset : resetOptimizerState args { s with opsdCyclicAppliedLr := rate } with
      | ok u mid =>
          rw [bind_of_ok hreset] at h
          cases h
      | error e' mid =>
          rw [bind_of_error hreset] at h
          cases h
          exact Or.inr ⟨rate, resetOptimizerState_kind hreset, hreset⟩
    · cases h
  · rw [hraises] at h
    cases h
    exact Or.inl rfl

end Begin

/-- `complete_cyclic_step` raises before it writes. -/
theorem completeCyclicStep_raises {rolloutId : Int} {s t : Actor ι α} {e : PyError}
    (h : completeCyclicStep args rolloutId s = .error e t) : t = s := by
  have hraises : Triple (· = s) (completeCyclicStep args rolloutId : ActorM ι α CyclicMetrics)
      (fun _ _ => True) (fun _ t => t = s) := by
    refine triple_get_then (triple_require_then (fun _ => ?_) fun _ hs _ => hs)
    refine Triple.bind (Q := fun _ t => t = s) checkedLearningRate_reads fun nextLr => ?_
    refine triple_lift_then (fun expected _ => ?_) fun _ _ hs _ => hs
    refine triple_require_then (fun _ => ?_) fun _ hs _ => hs
    refine triple_lift_then (fun step _ => ?_) fun _ _ hs _ => hs
    -- from here on it only writes
    intro u _
    cases (step.cycleEnd && args.opsdCyclicTeacherPolicy == some .cycleRefresh) <;> trivial
  exact hraises.error rfl h

/-! ## Between a begun update and its optimizer step -/

/-- The next update begins a phase that starts with a fresh optimizer. -/
def PhaseReset (args : Args) (s : Actor ι α) : Prop :=
  ∃ step, cyclicStep args s.opsdCyclicCompletedUpdates = .ok step ∧ step.optimizerReset = true

/-- What attempts that never stepped leave of the actor they started from: the parameters
may be lent out, the rate noted, and at a phase start the optimizer cleared. -/
structure Retried (args : Args) (s t : Actor ι α) : Prop where
  backups : t.backups = s.backups
  opsdEma : t.opsdEma = s.opsdEma
  clock : t.numSteps = s.numSteps
  groups : t.paramGroups = s.paramGroups
  completed : t.opsdCyclicCompletedUpdates = s.opsdCyclicCompletedUpdates
  source : t.opsdCyclicTeacherSourceUpdate = s.opsdCyclicTeacherSourceUpdate
  chunks : t.training.length = s.training.length
  optimizers : t.chainedOptimizers = s.chainedOptimizers ∨
    PhaseReset args s ∧ t.chainedOptimizers = clearedOptimizers s.chainedOptimizers
  updates : t.opsdCyclicOptimizerUpdates = s.opsdCyclicOptimizerUpdates ∨
    PhaseReset args s ∧ t.opsdCyclicOptimizerUpdates = 0

theorem clearedOptimizers_idem (chained : List ChainedOptimizer) :
    clearedOptimizers (clearedOptimizers chained) = clearedOptimizers chained := by
  rw [clearedOptimizers, clearedOptimizers, List.map_map]
  refine List.map_congr_left fun c _ => ?_
  cases hstub : c.isStub <;> simp [hstub]

/-- Clearing what may have been cleared before. -/
theorem Retried.cleared {s t : Actor ι α} (h : Retried args s t) :
    clearedOptimizers t.chainedOptimizers = clearedOptimizers s.chainedOptimizers := by
  rcases h.optimizers with heq | ⟨-, heq⟩
  · rw [heq]
  · rw [heq, clearedOptimizers_idem]

theorem Retried.refl (s : Actor ι α) : Retried args s s :=
  ⟨rfl, rfl, rfl, rfl, rfl, rfl, rfl, .inl rfl, .inl rfl⟩

section Kept

variable {home : Actor ι α}

theorem retried_switchModel {tag : Tag} : Preserves (Retried args home) (switchModel tag) := by
  intro s hs
  rw [switchModel, bind_of_ok get_run]
  cases htag : s.backups tag with
  | none => exact hs
  | some weights => exact { hs with }

theorem retried_setTraining {mode : Bool} :
    Preserves (Retried args home) (setTraining mode) :=
  Preserves.modify fun s hs => { hs with chunks := by rw [List.length_map, hs.chunks] }

theorem retried_score {env : ScoringEnv ρ τ ν} {data : RolloutData} {rolloutId : Int}
    {width : Nat} {tag : Tag} {call : ScoringCall ι α ρ} :
    Preserves (Retried args home) (score env args data rolloutId width tag call) := by
  intro s hs
  rw [score, bind_of_ok get_run]
  refine Preserves.try_finally ?_ ?_ s hs
  · refine retried_switchModel.bind fun _ => retried_setTraining.bind fun _ =>
      Preserves.get.bind fun _ => Preserves.lift.bind fun _ =>
        retried_setTraining.bind fun _ => Preserves.lift.bind fun _ => Preserves.pure
  · exact retried_switchModel.bind fun _ =>
      Preserves.modify fun t ht => { ht with chunks := hs.chunks }

theorem retried_scoreTeacher [DecidableEq τ] {env : ScoringEnv ρ τ ν} {rollout : RolloutData}
    {numMicrobatches : List Nat} {rolloutId : Int} {calls : Nat → ScoringCall ι α ρ} :
    Preserves (fun h => Retried args home h.state)
      (scoreTeacher env args rollout numMicrobatches rolloutId calls) := by
  have hinitial : ∀ data targets, Preserves (fun h => Retried args home h.state)
      (scoreInitialEma env args data rolloutId (calls 1) targets) := fun data targets =>
    Preserves.get.quiet_state.bind fun actor => Preserves.ite
      (fun _ => retried_score.noted_state.bind fun _ => Preserves.lift) fun _ => Preserves.pure
  have htransported : ∀ targets, Preserves (fun h => Retried args home h.state)
      (scoreTransported env args rollout rolloutId (calls 2) (calls 3) targets) := fun targets =>
    Preserves.ite (fun _ => retried_score.noted_state.bind fun _ =>
      retried_score.noted_state.bind fun _ => Preserves.lift) fun _ => Preserves.pure
  exact Preserves.get.quiet_state.bind fun _ => Preserves.lift.bind fun _ =>
    Preserves.lift.bind fun data => retried_score.noted_state.bind fun targets =>
      (hinitial data targets).bind fun _ => (htransported targets).bind fun _ =>
        Preserves.require.bind fun _ => Preserves.pure

theorem retried_resetOptimizerState (hreset : PhaseReset args home) :
    Preserves (Retried args home) (resetOptimizerState args) :=
  Preserves.require.bind fun _ => Preserves.require.bind fun _ =>
    Preserves.require.bind fun _ => Preserves.require.bind fun _ =>
      (Preserves.modify fun _ hs =>
        { hs with optimizers := Or.inr ⟨hreset, hs.cleared⟩ }).bind fun _ =>
        Preserves.get.bind fun _ => Preserves.require.bind fun _ => Preserves.require

theorem retried_beginCyclicStep {rollout : CyclicRollout} {rolloutId : Int}
    {numOptimizerSteps : Nat} :
    Preserves (Retried args home)
      (beginCyclicStep args rollout rolloutId numOptimizerSteps) := by
  intro s hs
  rcases beginPasses_or args rollout rolloutId numOptimizerSteps s with
    ⟨step, rate, hpasses⟩ | ⟨e, hraises⟩
  · have heffect : Preserves (Retried args home) (beginEffect args step) := by
      refine Preserves.ite (fun hstep => ?_) fun _ => Preserves.pure
      have hreset : PhaseReset args home := by
        refine ⟨step, ?_, hstep⟩
        rw [← hs.completed, ← hpasses.sequential.1]
        exact hpasses.scheduled
      exact (retried_resetOptimizerState hreset).bind fun _ =>
        Preserves.modify fun t ht => { ht with updates := Or.inr ⟨hreset, rfl⟩ }
    rw [hpasses.run]
    exact heffect _ { hs with }
  · rw [hraises]
    exact hs

theorem retried_beginAttempt {attempt : Attempt ι α ρ} :
    Preserves (Retried args home) (beginAttempt args attempt) := by
  refine Preserves.ite (fun _ => ?_) fun _ => Preserves.pure
  split
  · exact retried_beginCyclicStep
  · exact enterCyclicStep_preserves.bind fun _ => Preserves.throw

/-- However the part of an attempt before its update ends, nothing else has moved. -/
theorem retried_prepareUpdate [DecidableEq τ] {env : ScoringEnv ρ τ ν}
    {attempt : Attempt ι α ρ} :
    Preserves (fun h => Retried args home h.state) (prepareUpdate env args attempt) :=
  retried_beginAttempt.quiet_state.bind fun _ => Preserves.get.quiet_state.bind fun _ =>
    Preserves.require.bind fun _ => Preserves.require.bind fun _ =>
      Preserves.require.bind fun _ => retried_scoreTeacher

end Kept

/-! ## The same attempt from either actor -/

/-- Two actors that differ in what a scoring pass lends out. -/
structure Lent (s t : Actor ι α) : Prop where
  frame : t =
    { s with live := t.live, activeModelTag := t.activeModelTag, training := t.training }
  chunks : t.training.length = s.training.length

/-- Two actors that differ in their train flags. -/
structure Primed (s t : Actor ι α) : Prop where
  frame : t = { s with training := t.training }
  chunks : t.training.length = s.training.length

theorem Lent.symm {s t : Actor ι α} (h : Lent s t) : Lent t s :=
  ⟨by rw [h.frame], h.chunks.symm⟩

theorem Primed.lent {s t : Actor ι α} (h : Primed s t) : Lent s t :=
  ⟨by rw [h.frame], h.chunks⟩

theorem BeginPasses.of_retried {rollout : CyclicRollout} {rolloutId : Int}
    {numOptimizerSteps : Nat} {step : CyclicStep} {rate : ℚ} {s t : Actor ι α}
    (h : Retried args s t) : BeginPasses args rollout rolloutId numOptimizerSteps step rate t ↔
      BeginPasses args rollout rolloutId numOptimizerSteps step rate s := by
  constructor
  · intro hpasses
    exact
      { sequential := by rw [← h.completed]; exact hpasses.sequential
        scheduled := hpasses.scheduled
        teacher := by rw [← h.source]; exact hpasses.teacher
        samples := hpasses.samples
        rate := checkedLearningRate_congr h.clock.symm h.groups.symm hpasses.rate }
  · intro hpasses
    exact
      { sequential := by rw [h.completed]; exact hpasses.sequential
        scheduled := hpasses.scheduled
        teacher := by rw [h.source]; exact hpasses.teacher
        samples := hpasses.samples
        rate := checkedLearningRate_congr h.clock h.groups hpasses.rate }

/-- What the reset checks of the optimizers it has cleared, and of the arguments. -/
def ResetPasses (args : Args) (cleared : List ChainedOptimizer) : Prop :=
  (args.offloadOptimizerStates = false ∧ args.chunkedOptimizerStateOffload = false ∧
      args.fp16 = false ∧ args.streamOptimizerStateToDisk = false) ∧
    0 < (cleared.filter fun c => !c.isStub).length ∧
      0 < ((cleared.filter fun c => !c.isStub).map ChainedOptimizer.params).sum

theorem resetOptimizerState_eq_ok {s t : Actor ι α} :
    resetOptimizerState args s = .ok () t ↔
      ResetPasses args (clearedOptimizers s.chainedOptimizers) ∧
        t = { s with chainedOptimizers := clearedOptimizers s.chainedOptimizers } := by
  constructor
  · intro h
    have hpasses : Triple (· = s) (resetOptimizerState args : ActorM ι α Unit)
        (fun _ t => ResetPasses args (clearedOptimizers s.chainedOptimizers) ∧
          t = { s with chainedOptimizers := clearedOptimizers s.chainedOptimizers })
        (fun _ _ => True) := by
      refine triple_require_then (fun hoffload => ?_) fun _ _ _ => trivial
      refine triple_require_then (fun hchunked => ?_) fun _ _ _ => trivial
      refine triple_require_then (fun hfp16 => ?_) fun _ _ _ => trivial
      refine triple_require_then (fun hstream => ?_) fun _ _ _ => trivial
      refine triple_modify_then (triple_get_then ?_)
      refine triple_require_then (fun hexist => ?_) fun _ _ _ => trivial
      exact Triple.require
        (fun _ ht hown => ⟨⟨⟨hoffload, hchunked, hfp16, hstream⟩, hexist, hown⟩, ht⟩)
        fun _ _ _ => trivial
    exact hpasses.ok rfl h
  · rintro ⟨⟨⟨hoffload, hchunked, hfp16, hstream⟩, hexist, hown⟩, rfl⟩
    rw [resetOptimizerState, bind_of_ok (require_of hoffload), bind_of_ok (require_of hchunked),
      bind_of_ok (require_of hfp16), bind_of_ok (require_of hstream), bind_of_ok modify_run,
      bind_of_ok get_run, bind_of_ok (require_of hexist), require_of hown]

/-- The actor once its checks have passed. -/
def begunActor (step : CyclicStep) (rate : ℚ) (s : Actor ι α) : Actor ι α :=
  if step.optimizerReset then
    { s with
      opsdCyclicAppliedLr := rate
      chainedOptimizers := clearedOptimizers s.chainedOptimizers
      opsdCyclicOptimizerUpdates := 0 }
  else { s with opsdCyclicAppliedLr := rate }

theorem beginCyclicStep_eq_ok {rollout : CyclicRollout} {rolloutId : Int}
    {numOptimizerSteps : Nat} {s t : Actor ι α} :
    beginCyclicStep args rollout rolloutId numOptimizerSteps s = .ok () t ↔
      ∃ step rate, BeginPasses args rollout rolloutId numOptimizerSteps step rate s ∧
        (step.optimizerReset = true →
          ResetPasses args (clearedOptimizers s.chainedOptimizers)) ∧
        t = begunActor step rate s := by
  have heffect : ∀ step rate,
      beginEffect args step { s with opsdCyclicAppliedLr := rate } = .ok () t ↔
        (step.optimizerReset = true →
          ResetPasses args (clearedOptimizers s.chainedOptimizers)) ∧
        t = begunActor step rate s := by
    intro step rate
    rw [beginEffect, begunActor]
    cases hstep : step.optimizerReset with
    | false => simp [eq_comm]
    | true =>
        simp only [if_true, forall_const]
        constructor
        · intro h
          obtain ⟨⟨⟩, mid, hreset, hcount⟩ := run_bind h
          obtain ⟨hpasses, rfl⟩ := resetOptimizerState_eq_ok.mp hreset
          cases hcount
          exact ⟨hpasses, rfl⟩
        · rintro ⟨hpasses, rfl⟩
          have hreset : resetOptimizerState args { s with opsdCyclicAppliedLr := rate } =
              .ok () { s with
                opsdCyclicAppliedLr := rate
                chainedOptimizers := clearedOptimizers s.chainedOptimizers } :=
            resetOptimizerState_eq_ok.mpr ⟨hpasses, rfl⟩
          rw [bind_of_ok hreset]
          rfl
  constructor
  · intro h
    rcases beginPasses_or args rollout rolloutId numOptimizerSteps s with
      ⟨step, rate, hpasses⟩ | ⟨e, hraises⟩
    · rw [hpasses.run] at h
      exact ⟨step, rate, hpasses, (heffect step rate).mp h⟩
    · rw [hraises] at h
      cases h
  · rintro ⟨step, rate, hpasses, hafter⟩
    rw [hpasses.run]
    exact (heffect step rate).mpr hafter

/-- A second begin writes what the first did. -/
theorem Retried.begun {step : CyclicStep} {rate : ℚ} {s t : Actor ι α} (h : Retried args s t)
    (hstep : cyclicStep args s.opsdCyclicCompletedUpdates = .ok step) :
    Lent (begunActor step rate s) (begunActor step rate t) := by
  have hcleared := h.cleared
  obtain ⟨hbackups, hema, hclock, hgroups, hcompleted, hsource, hchunks, hoptimizers, hupdates⟩ := h
  rw [begunActor, begunActor]
  split
  · refine ⟨?_, hchunks⟩
    cases s
    cases t
    simp_all
  · next hno =>
      have hphase : ¬PhaseReset args s := by
        rintro ⟨step', hstep', hreset⟩
        rw [hstep] at hstep'
        cases hstep'
        exact hno hreset
      refine ⟨?_, hchunks⟩
      cases s
      cases t
      simp_all

theorem simulates_beginCyclicStep {rollout : CyclicRollout} {rolloutId : Int}
    {numOptimizerSteps : Nat} :
    Simulates (Retried args) (Lent (ι := ι) (α := α))
        (beginCyclicStep args rollout rolloutId numOptimizerSteps)
        (beginCyclicStep args rollout rolloutId numOptimizerSteps) ∧
      Simulates (fun t s => Retried args s t) (Lent (ι := ι) (α := α))
        (beginCyclicStep args rollout rolloutId numOptimizerSteps)
        (beginCyclicStep args rollout rolloutId numOptimizerSteps) := by
  have hscheduled : ∀ {step rate} {s : Actor ι α},
      BeginPasses args rollout rolloutId numOptimizerSteps step rate s →
        cyclicStep args s.opsdCyclicCompletedUpdates = .ok step := by
    intro step rate s hpasses
    rw [← hpasses.sequential.1]
    exact hpasses.scheduled
  constructor
  · rintro s t ⟨⟩ s' h hbegin
    obtain ⟨step, rate, hpasses, hreset, rfl⟩ := beginCyclicStep_eq_ok.mp hbegin
    refine ⟨begunActor step rate t, beginCyclicStep_eq_ok.mpr ⟨step, rate,
      (BeginPasses.of_retried h).mpr hpasses, ?_, rfl⟩, h.begun (hscheduled hpasses)⟩
    rw [h.cleared]
    exact hreset
  · rintro t s ⟨⟩ t' h hbegin
    obtain ⟨step, rate, hpasses, hreset, rfl⟩ := beginCyclicStep_eq_ok.mp hbegin
    have hpasses := (BeginPasses.of_retried h).mp hpasses
    refine ⟨begunActor step rate s, beginCyclicStep_eq_ok.mpr ⟨step, rate, hpasses, ?_, rfl⟩,
      (h.begun (hscheduled hpasses)).symm⟩
    rw [← h.cleared]
    exact hreset

section Simulated

theorem simulates_switchModel {tag : Tag} :
    Simulates Lent Primed (switchModel tag : ActorM ι α Unit) (switchModel tag) := by
  refine Simulates.get_bind fun s t hst => ?_
  rw [show t.backups = s.backups by rw [hst.frame]]
  cases s.backups tag with
  | none => exact fun _ _ _ _ _ hx => nomatch hx
  | some weights =>
      intro _ _ _ _ _ hx
      cases hx
      exact ⟨_, rfl, by rw [hst.frame], hst.chunks⟩

theorem simulates_setTraining {mode : Bool} :
    Simulates Primed Primed (setTraining mode : ActorM ι α Unit) (setTraining mode) :=
  Simulates.modify fun s t hst =>
    ⟨by rw [hst.frame], by rw [List.length_map, List.length_map, hst.chunks]⟩

theorem simulates_forwardOnly {β : Type} {pass : (ι → α) → Except PyError β}
    {aggregate : Except PyError Unit} :
    Simulates Primed Primed (forwardOnly pass aggregate) (forwardOnly pass aggregate) := by
  refine simulates_setTraining.bind fun _ => Simulates.get_bind fun s t hst => ?_
  rw [show t.live = s.live by rw [hst.frame]]
  exact Simulates.lift.bind fun _ => simulates_setTraining.bind fun _ =>
    Simulates.lift.bind fun _ => Simulates.pure fun _ _ h => h

/-- A pass reads the snapshots, and puts the actor's own back. -/
theorem simulates_score {env : ScoringEnv ρ τ ν} {data : RolloutData} {rolloutId : Int}
    {width : Nat} {tag : Tag} {call : ScoringCall ι α ρ} :
    Simulates Lent Primed (score env args data rolloutId width tag call)
      (score env args data rolloutId width tag call) := by
  refine Simulates.get_bind fun s t hst => ?_
  refine Simulates.try_finally (simulates_switchModel.bind fun _ => simulates_forwardOnly) ?_
  refine (simulates_switchModel.weaken fun _ _ h => h.lent).bind fun _ => ?_
  exact Simulates.modify fun s' t' hst' => ⟨by rw [hst'.frame], hst.chunks⟩

theorem simulates_scoreTeacher [DecidableEq τ] {env : ScoringEnv ρ τ ν} {rollout : RolloutData}
    {numMicrobatches : List Nat} {rolloutId : Int} {calls : Nat → ScoringCall ι α ρ} :
    Simulates (OnStates Lent) (OnStates Primed)
      (scoreTeacher env args rollout numMicrobatches rolloutId calls)
      (scoreTeacher env args rollout numMicrobatches rolloutId calls) := by
  have hscore : ∀ data tag call,
      Simulates (OnStates Primed) (OnStates Primed)
        (noted CallKind.score (score env args data rolloutId env.width tag call) : ScoringM ι α _)
        (noted CallKind.score (score env args data rolloutId env.width tag call)) :=
    fun data tag call => (simulates_score.weaken fun _ _ h => h.lent).noted
  have hinitial : ∀ data targets, Simulates (OnStates Primed) (OnStates Primed)
      (scoreInitialEma env args data rolloutId (calls 1) targets)
      (scoreInitialEma env args data rolloutId (calls 1) targets) := by
    intro data targets
    refine Simulates.quiet_get_bind fun s t hst => ?_
    rw [show t.opsdEma = s.opsdEma by rw [hst.frame]]
    exact Simulates.ite (fun _ => (hscore _ _ _).bind fun _ => Simulates.lift)
      fun _ => Simulates.pure fun _ _ h => h
  have htransported : ∀ targets, Simulates (OnStates Primed) (OnStates Primed)
      (scoreTransported env args rollout rolloutId (calls 2) (calls 3) targets)
      (scoreTransported env args rollout rolloutId (calls 2) (calls 3) targets) := fun targets =>
    Simulates.ite (fun _ => (hscore _ _ _).bind fun _ => (hscore _ _ _).bind fun _ =>
      Simulates.lift) fun _ => Simulates.pure fun _ _ h => h
  refine Simulates.quiet_get_bind fun s t hst => ?_
  rw [hst.chunks]
  exact Simulates.lift.bind fun _ => Simulates.lift.bind fun data =>
    simulates_score.noted.bind fun targets => (hinitial data targets).bind fun _ =>
      (htransported targets).bind fun _ => Simulates.require.bind fun _ =>
        Simulates.pure fun _ _ h => h

/-- Training starts from the train flags it sets. -/
theorem simulates_train {trainEnd : TrainEnd ι α} :
    Simulates Primed Eq (train trainEnd) (train trainEnd) := by
  have hflags : Simulates Primed Eq (setTraining true : ActorM ι α Unit) (setTraining true) := by
    refine Simulates.modify fun s t hst => ?_
    have hmap : t.training.map (fun _ => true) = s.training.map fun _ => true := by
      rw [List.map_const', List.map_const', hst.chunks]
    rw [hmap, hst.frame]
  exact hflags.bind fun _ => Simulates.refl

section Attempts

variable [Fintype ι] [TensorOps α] [DecidableEq τ]
variable {env : ScoringEnv ρ τ ν} {dtype : ι → DType} {attempt : Attempt ι α ρ}

/-- An attempt that begins alike ends alike. -/
theorem simulates_trainActor {R : Actor ι α → Actor ι α → Prop}
    (hbegin : Simulates R Lent (beginAttempt args attempt) (beginAttempt args attempt)) :
    Simulates (OnStates R) (OnStates Eq) (trainActor env args dtype attempt)
      (trainActor env args dtype attempt) := by
  have hprepare : Simulates (OnStates R) (OnStates Primed) (prepareUpdate env args attempt)
      (prepareUpdate env args attempt) := by
    refine hbegin.quiet.bind fun _ => Simulates.quiet_get_bind fun s t hst => ?_
    rw [show t.opsdEma = s.opsdEma by rw [hst.frame]]
    exact Simulates.require.bind fun _ => Simulates.require.bind fun _ =>
      Simulates.require.bind fun _ => simulates_scoreTeacher
  have hfinish : Simulates (OnStates Primed) (OnStates Eq) (finishUpdate args dtype attempt)
      (finishUpdate args dtype attempt) := by
    refine simulates_train.noted.bind fun outcome => ?_
    cases outcome with
    | normal => exact Simulates.refl.quiet.bind fun _ => Simulates.pure fun _ _ h => h
    | discardedShouldRetry => exact Simulates.pure fun _ _ h => h
  exact hprepare.bind fun _ => hfinish

omit [Fintype ι] [TensorOps α] [DecidableEq τ] in
theorem simulates_beginAttempt (hcyclic : args.opsdCyclicTeacherPolicy.isSome = true) :
    Simulates (Retried args) Lent (beginAttempt args attempt : ActorM ι α Unit)
        (beginAttempt args attempt) ∧
      Simulates (fun t s => Retried args s t) Lent (beginAttempt args attempt : ActorM ι α Unit)
        (beginAttempt args attempt) := by
  rw [beginAttempt, if_pos hcyclic]
  split
  · exact simulates_beginCyclicStep
  · exact ⟨Simulates.bind_throw, Simulates.bind_throw⟩

/-! ## Failing and trying again -/

/-- What `train` leaves when it raises before `optimizer.step()`. -/
def unstepped (actor : Actor ι α) : Trained ι α :=
  { weights := actor.live
    chainedOptimizers := actor.chainedOptimizers
    paramGroups := actor.paramGroups
    numSteps := actor.numSteps }

/-- An attempt that takes the actor from `s` to `t` without an optimizer step: it raised in
or after its begin, raised in `train` before the step, or was discarded there. -/
inductive StopsBeforeStep (env : ScoringEnv ρ τ ν) (args : Args) (attempt : Attempt ι α ρ)
    (s t : Actor ι α) : Prop where
  | prepare {e entries} (h : prepareUpdate env args attempt ⟨s, []⟩ = .error e ⟨t, entries⟩)
  | train {targets begun entries e}
      (hprepare : prepareUpdate env args attempt ⟨s, []⟩ = .ok targets ⟨begun, entries⟩)
      (hend : attempt.train = .raised e (unstepped begun))
      (h : Crisp.Ref.train attempt.train begun = .error e t)
  | discarded {targets begun entries}
      (hprepare : prepareUpdate env args attempt ⟨s, []⟩ = .ok targets ⟨begun, entries⟩)
      (hend : attempt.train = .discarded)
      (h : Crisp.Ref.train attempt.train begun = .ok .discardedShouldRetry t)

/-- Any number of them, one after the other. -/
inductive StopsEachTime (env : ScoringEnv ρ τ ν) (args : Args) :
    Actor ι α → List (Attempt ι α ρ) → Actor ι α → Prop
  | nil {s} : StopsEachTime env args s [] s
  | cons {s t u attempt attempts} (h : StopsBeforeStep env args attempt s t)
      (hrest : StopsEachTime env args t attempts u) :
      StopsEachTime env args s (attempt :: attempts) u

/-- `_train_actor` made its update and left the actor at `u`. -/
def Completes (env : ScoringEnv ρ τ ν) (args : Args) (dtype : ι → DType)
    (attempt : Attempt ι α ρ) (s u : Actor ι α) : Prop :=
  ∃ entries, trainActor env args dtype attempt ⟨s, []⟩ = .ok .normal ⟨u, entries⟩

omit [Fintype ι] [TensorOps α] in
theorem Retried.stops {home s t : Actor ι α} (h : Retried args home s)
    (hstops : StopsBeforeStep env args attempt s t) : Retried args home t := by
  have htrain : ∀ {begun : Actor ι α}, Retried args home begun → attempt.train = .discarded ∨
      (∃ e, attempt.train = .raised e (unstepped begun)) →
        (∀ u t, Crisp.Ref.train attempt.train begun = .ok u t → Retried args home t) ∧
          ∀ e t, Crisp.Ref.train attempt.train begun = .error e t → Retried args home t := by
    intro begun hbegun hend
    have hflags : Retried args home
        { begun with training := begun.training.map fun _ => true } :=
      { hbegun with chunks := by rw [List.length_map, hbegun.chunks] }
    rcases hend with hend | ⟨e, hend⟩
    · rw [hend]
      constructor
      · intro u t ht
        cases ht
        exact hflags
      · intro e t ht
        cases ht
    · rw [hend]
      constructor
      · intro u t ht
        cases ht
      · intro e t ht
        cases ht
        exact hflags
  cases hstops with
  | prepare hraises => exact retried_prepareUpdate.error h hraises
  | train hprepare hend hraises =>
      exact (htrain (retried_prepareUpdate.ok h hprepare) (Or.inr ⟨_, hend⟩)).2 _ _ hraises
  | discarded hprepare hend hreturns =>
      exact (htrain (retried_prepareUpdate.ok h hprepare) (Or.inl hend)).1 _ _ hreturns

omit [Fintype ι] [TensorOps α] in
theorem Retried.stopsEachTime {home s t : Actor ι α} {failed : List (Attempt ι α ρ)}
    (h : Retried args home s) (hfailed : StopsEachTime env args s failed t) :
    Retried args home t := by
  induction hfailed with
  | nil => exact h
  | cons hstops _ ih => exact ih (h.stops hstops)

theorem Retried.completes (hcyclic : args.opsdCyclicTeacherPolicy.isSome = true)
    {s t u : Actor ι α} (h : Retried args s t) :
    Completes env args dtype attempt t u ↔ Completes env args dtype attempt s u := by
  constructor
  · rintro ⟨entries, hrun⟩
    obtain ⟨⟨u', entries'⟩, hrun', rfl⟩ :=
      simulates_trainActor (simulates_beginAttempt hcyclic).2 ⟨t, []⟩ ⟨s, []⟩ _ _ h hrun
    exact ⟨entries', hrun'⟩
  · rintro ⟨entries, hrun⟩
    obtain ⟨⟨u', entries'⟩, hrun', rfl⟩ :=
      simulates_trainActor (simulates_beginAttempt hcyclic).1 ⟨s, []⟩ ⟨t, []⟩ _ _ h hrun
    exact ⟨entries', hrun'⟩

/-- **Cyclic hooks fail and retry safely.** From any actor: a check of either hook that
raises changes nothing, and after any number of attempts that stopped before their
optimizer step, an attempt completes just when it would have without them, and leaves the
very same actor. -/
theorem cyclic_hooks_retry (env : ScoringEnv ρ τ ν) {args : Args}
    (hcyclic : args.opsdCyclicTeacherPolicy.isSome = true) (dtype : ι → DType)
    (s : Actor ι α) :
    (∀ rollout rolloutId numOptimizerSteps e t,
      beginCyclicStep args rollout rolloutId numOptimizerSteps s = .error e t →
        t = s ∨ ∃ rate, e.kind = .assertion ∧
          resetOptimizerState args { s with opsdCyclicAppliedLr := rate } = .error e t) ∧
    (∀ rolloutId e t, completeCyclicStep args rolloutId s = .error e t → t = s) ∧
    ∀ (failed : List (Attempt ι α ρ)) (t : Actor ι α), StopsEachTime env args s failed t →
      ∀ attempt u, Completes env args dtype attempt t u ↔ Completes env args dtype attempt s u :=
  ⟨fun _ _ _ _ _ => beginCyclicStep_raises, fun _ _ _ => completeCyclicStep_raises,
    fun _ _ hfailed _ _ => ((Retried.refl s).stopsEachTime hfailed).completes hcyclic⟩

end Attempts

end Simulated

/-- A student at 5 whose teacher is at 3, with old Adam state. -/
def cyclicStudent : Actor Unit ℚ :=
  { emaStudent with
    backups := fun tag =>
      match tag with
      | .actor => some fun _ => 5
      | .teacher => some fun _ => 3
      | _ => none
    chainedOptimizers := [{ isStub := false, params := 1, stateSteps := 7 }]
    paramGroups := [1 / 10] }

/-- The update that takes it to 6. -/
def cyclicTrained : Trained Unit ℚ :=
  { weights := fun _ => 6
    chainedOptimizers := [{ isStub := false, params := 1, stateSteps := 1 }]
    paramGroups := [1 / 10]
    numSteps := 2 }

/-- A scoring pass runs out of memory after the reset; the second attempt completes. -/
theorem cyclic_hooks_retry_outOfMemory :
    ∃ t u, StopsEachTime emaEnv twoCycles cyclicStudent [emaAttempt true .discarded] t ∧
      Completes emaEnv twoCycles (fun _ => .float32) (emaAttempt false (.normal cyclicTrained))
        t u ∧
      t.chainedOptimizers = [{ isStub := false, params := 1, stateSteps := 0 }] ∧
      t.opsdCyclicCompletedUpdates = 0 ∧ u.opsdCyclicCompletedUpdates = 1 ∧
      u.opsdCyclicOptimizerUpdates = 1 := by
  have hfails : (match prepareUpdate emaEnv twoCycles (emaAttempt true .discarded)
      ⟨cyclicStudent, []⟩ with
    | .error _ h => decide
        (h.state.chainedOptimizers = [{ isStub := false, params := 1, stateSteps := 0 }] ∧
          h.state.opsdCyclicCompletedUpdates = 0)
    | .ok _ _ => false) = true := by decide +kernel
  have hruns : (match trainActor emaEnv twoCycles (fun _ => .float32)
      (emaAttempt false (.normal cyclicTrained)) ⟨cyclicStudent, []⟩ with
    | .ok .normal h => decide
        (h.state.opsdCyclicCompletedUpdates = 1 ∧ h.state.opsdCyclicOptimizerUpdates = 1)
    | _ => false) = true := by decide +kernel
  cases hprepare : prepareUpdate emaEnv twoCycles (emaAttempt true .discarded)
      ⟨cyclicStudent, []⟩ with
  | ok targets h =>
      rw [hprepare] at hfails
      cases hfails
  | error e h =>
      cases hrun : trainActor emaEnv twoCycles (fun _ => .float32)
          (emaAttempt false (.normal cyclicTrained)) ⟨cyclicStudent, []⟩ with
      | error e h' =>
          rw [hrun] at hruns
          cases hruns
      | ok outcome h' =>
          rw [hprepare] at hfails
          rw [hrun] at hruns
          cases outcome with
          | discardedShouldRetry => cases hruns
          | normal =>
              have hstops : StopsEachTime emaEnv twoCycles cyclicStudent
                  [emaAttempt true .discarded] h.state :=
                .cons (.prepare hprepare) .nil
              obtain ⟨hcleared, hcompleted⟩ := of_decide_eq_true hfails
              obtain ⟨hdone, hupdates⟩ := of_decide_eq_true hruns
              refine ⟨h.state, h'.state, hstops, ?_, hcleared, hcompleted, hdone, hupdates⟩
              exact ((cyclic_hooks_retry emaEnv (by decide) _ cyclicStudent).2.2 _ _ hstops _
                _).mpr ⟨h'.entries, hrun⟩

end Crisp.Proofs
