import Crisp.Lib.Runs
import Crisp.Ref.TrainActor

/-!
# The snapshot discipline of train attempts

One set of live parameters serves as teacher, as average, as reference and as
student in turn. Between the calls that borrow them they equal the actor's
snapshot, and that is the invariant everything else hangs on: `_score` restores
it however a pass ends, scoring touches no snapshot, and the only writes to
snapshots are those of a completed update.

The first part is about one attempt, the second about what a completed update
writes, the third about runs from a loaded actor.
-/

namespace Crisp.Proofs

open Crisp.Lib Crisp.Ref

variable {ι α ρ τ ν : Type}

/-! ## Borrowed parameters -/

/-- The live parameters are the actor's own. -/
def AtRest (actor : Actor ι α) : Prop := actor.backups .actor = some actor.live

/-- Everything but the live parameters and the train flags is as in `home`. -/
def Borrowed (home actor : Actor ι α) : Prop :=
  actor =
    { home with
      live := actor.live
      activeModelTag := actor.activeModelTag
      training := actor.training }

theorem borrowed_switchModel {home : Actor ι α} {tag : Tag} :
    Preserves (Borrowed home) (switchModel tag) := by
  intro s hs
  unfold switchModel
  rw [bind_of_ok get_run]
  cases htag : s.backups tag with
  | none => exact hs
  | some weights =>
      show Borrowed home { s with live := weights, activeModelTag := tag }
      unfold Borrowed at hs ⊢
      rw [hs]

theorem borrowed_setTraining {home : Actor ι α} {mode : Bool} :
    Preserves (Borrowed home) (setTraining mode) := by
  refine Preserves.modify ?_
  intro s hs
  unfold Borrowed at hs ⊢
  rw [hs]

theorem borrowed_forwardOnly {β : Type} {home : Actor ι α}
    {pass : (ι → α) → Except PyError β} {aggregate : Except PyError Unit} :
    Preserves (Borrowed home) (forwardOnly pass aggregate) :=
  borrowed_setTraining.bind fun _ => Preserves.get.bind fun _ =>
    Preserves.lift.bind fun _ => borrowed_setTraining.bind fun _ =>
      Preserves.lift.bind fun _ => Preserves.pure

/-- The actor as `_score` hands it back: only the tag it names may differ. -/
def scored (actor : Actor ι α) : Actor ι α := { actor with activeModelTag := .actor }

/-- The `finally` of `_score` undoes any borrowing. -/
theorem restore_borrowed {home : Actor ι α} (hrest : AtRest home) :
    Triple (Borrowed home)
      (do
        switchModel .actor
        modify fun actor => { actor with training := home.training } :
        ActorM ι α Unit)
      (fun _ t => t = scored home) (fun _ t => t = scored home) := by
  intro s hs
  have hactor : s.backups .actor = some home.live := by
    unfold Borrowed at hs
    rw [hs]
    exact hrest
  have hswitch : switchModel .actor s =
      .ok () { s with live := home.live, activeModelTag := .actor } := by
    unfold switchModel
    rw [bind_of_ok get_run, hactor]
    rfl
  rw [bind_of_ok hswitch, modify_run]
  unfold Borrowed at hs
  show _ = scored home
  rw [hs]
  rfl

/-- However a forward pass ends, `_score` leaves the actor as it was. -/
theorem score_restores {env : ScoringEnv ρ τ ν} {args : Args} {data : RolloutData}
    {rolloutId : Int} {width : Nat} {tag : Tag} {call : ScoringCall ι α ρ}
    {home : Actor ι α} (hrest : AtRest home) :
    Triple (fun s => s = home) (score env args data rolloutId width tag call)
      (fun _ t => t = scored home) (fun _ t => t = scored home) := by
  rintro s rfl
  unfold score
  rw [bind_of_ok get_run]
  exact Triple.try_finally
    (borrowed_switchModel.bind fun _ => borrowed_forwardOnly)
    (fun _ => restore_borrowed hrest) (fun _ => restore_borrowed hrest) s rfl

/-! ## Scoring -/

/-- The actor of an attempt that has not reached its update: the parameters,
the train flags, every snapshot and the averages are those it started with. -/
structure Untouched (home actor : Actor ι α) : Prop where
  live : actor.live = home.live
  training : actor.training = home.training
  backups : actor.backups = home.backups
  opsdEma : actor.opsdEma = home.opsdEma

theorem Untouched.rest {home actor : Actor ι α} (h : Untouched home actor)
    (hrest : AtRest home) : AtRest actor := by
  unfold AtRest
  rw [h.backups, h.live]
  exact hrest

/-- What every noted call of a run is: a score that changes no weights, flags
or snapshots, or an update that starts from the actor's snapshot; and the
teacher of a run without a cyclic policy is the one it started with. -/
structure GoodCall (policy : Option TeacherPolicy) (teacher : Option (ι → α))
    (e : Entry CallKind (Actor ι α)) : Prop where
  rest : AtRest e.before
  score : e.kind = .score → Untouched e.before e.after
  snapshots : e.after.backups = e.before.backups
  teacher : policy = none → e.before.backups .teacher = teacher

variable {policy : Option TeacherPolicy} {teacher : Option (ι → α)} {home : Actor ι α}

/-- A noted `_score` is a good call and leaves the attempt untouched. -/
theorem noted_score {env : ScoringEnv ρ τ ν} {args : Args} {data : RolloutData}
    {rolloutId : Int} {width : Nat} {tag : Tag} {call : ScoringCall ι α ρ}
    (hrest : AtRest home) (hteacher : policy = none → home.backups .teacher = teacher) :
    Preserves (Good (Untouched home) (GoodCall policy teacher))
      (noted .score (score env args data rolloutId width tag call)) := by
  refine Preserves.noted ?_
  intro s hs
  have hrestores := @score_restores _ _ _ _ _ env args data rolloutId width tag call s
    (hs.rest hrest)
  have hentry : Untouched home (scored s) ∧ GoodCall policy teacher
      ⟨.score, s, scored s⟩ :=
    ⟨⟨hs.live, hs.training, hs.backups, hs.opsdEma⟩,
      { rest := hs.rest hrest
        score := fun _ => ⟨rfl, rfl, rfl, rfl⟩
        snapshots := rfl
        teacher := fun h => by
          show s.backups .teacher = teacher
          rw [hs.backups, hteacher h] }⟩
  cases hscore : score env args data rolloutId width tag call s with
  | ok targets t =>
      rw [hrestores.ok rfl hscore]
      exact hentry
  | error e t =>
      rw [hrestores.error rfl hscore]
      exact hentry

/-- `score_teacher` in any target mode, whichever of its passes or checks
raises. -/
theorem scoreTeacher_preserves [DecidableEq τ] {env : ScoringEnv ρ τ ν} {args : Args}
    {rollout : RolloutData} {numMicrobatches : List Nat} {rolloutId : Int}
    {calls : Nat → ScoringCall ι α ρ} (hrest : AtRest home)
    (hteacher : policy = none → home.backups .teacher = teacher) :
    Preserves (Good (Untouched home) (GoodCall policy teacher))
      (scoreTeacher env args rollout numMicrobatches rolloutId calls) := by
  have hinitial : ∀ data targets,
      Preserves (Good (Untouched home) (GoodCall policy teacher))
        (scoreInitialEma env args data rolloutId (calls 1) targets) := by
    intro data targets
    refine (Preserves.quiet Preserves.get).bind fun actor => Preserves.ite ?_ ?_
    · exact fun _ => (noted_score hrest hteacher).bind fun _ => Preserves.lift
    · exact fun _ => Preserves.pure
  have htransported : ∀ targets,
      Preserves (Good (Untouched home) (GoodCall policy teacher))
        (scoreTransported env args rollout rolloutId (calls 2) (calls 3) targets) := by
    intro targets
    refine Preserves.ite ?_ ?_
    · exact fun _ => (noted_score hrest hteacher).bind fun _ =>
        (noted_score hrest hteacher).bind fun _ => Preserves.lift
    · exact fun _ => Preserves.pure
  exact (Preserves.quiet Preserves.get).bind fun _ => Preserves.lift.bind fun _ =>
    Preserves.lift.bind fun data => (noted_score hrest hteacher).bind fun targets =>
      (hinitial data targets).bind fun _ => (htransported targets).bind fun _ =>
        Preserves.require.bind fun _ => Preserves.pure

theorem untouched_checkedLearningRate {args : Args} {completedUpdates : Nat} :
    Preserves (Untouched home) (checkedLearningRate args completedUpdates) := by
  refine Preserves.get.bind fun actor => Preserves.require.bind fun _ =>
    Preserves.lift.bind fun _ => Preserves.require.bind fun _ => ?_
  cases actor.paramGroups with
  | nil => exact Preserves.throw
  | cons rate rates => exact Preserves.pure

theorem untouched_resetOptimizerState {args : Args} :
    Preserves (Untouched home) (resetOptimizerState args) := by
  refine Preserves.require.bind fun _ => Preserves.require.bind fun _ =>
    Preserves.require.bind fun _ => Preserves.require.bind fun _ =>
      (Preserves.modify ?_).bind fun _ => Preserves.get.bind fun _ =>
        Preserves.require.bind fun _ => Preserves.require
  exact fun s hs => ⟨hs.live, hs.training, hs.backups, hs.opsdEma⟩

/-- The first checks of the hook write nothing. -/
theorem enterCyclicStep_preserves {I : Actor ι α → Prop} {args : Args} {rolloutId : Int}
    {numOptimizerSteps : Nat} : Preserves I (enterCyclicStep args rolloutId numOptimizerSteps) :=
  Preserves.get.bind fun _ => Preserves.require.bind fun _ => Preserves.lift.bind fun _ =>
    Preserves.require.bind fun _ => Preserves.pure

theorem untouched_beginCyclicStep {args : Args} {rollout : CyclicRollout}
    {rolloutId : Int} {numOptimizerSteps : Nat} :
    Preserves (Untouched home)
      (beginCyclicStep args rollout rolloutId numOptimizerSteps) := by
  refine enterCyclicStep_preserves.bind fun _ => Preserves.lift.bind fun _ =>
    untouched_checkedLearningRate.bind fun rate =>
      (Preserves.modify ?_).bind fun _ => Preserves.ite ?_ ?_
  · exact fun s hs => ⟨hs.live, hs.training, hs.backups, hs.opsdEma⟩
  · intro _
    refine untouched_resetOptimizerState.bind fun _ => Preserves.modify ?_
    exact fun s hs => ⟨hs.live, hs.training, hs.backups, hs.opsdEma⟩
  · exact fun _ => Preserves.pure

theorem untouched_beginAttempt {args : Args} {attempt : Attempt ι α ρ} :
    Preserves (Untouched home) (beginAttempt args attempt) := by
  refine Preserves.ite (fun _ => ?_) fun _ => Preserves.pure
  split
  · exact untouched_beginCyclicStep
  · exact enterCyclicStep_preserves.bind fun _ => Preserves.throw

/-- Nothing before the update touches weights, flags or snapshots. -/
theorem prepareUpdate_preserves [DecidableEq τ] {env : ScoringEnv ρ τ ν} {args : Args}
    {attempt : Attempt ι α ρ} (hrest : AtRest home)
    (hteacher : policy = none → home.backups .teacher = teacher) :
    Preserves (Good (Untouched home) (GoodCall policy teacher))
      (prepareUpdate env args attempt) :=
  (Preserves.quiet untouched_beginAttempt).bind fun _ =>
    (Preserves.quiet Preserves.get).bind fun _ => Preserves.require.bind fun _ =>
      Preserves.require.bind fun _ => Preserves.require.bind fun _ =>
        scoreTeacher_preserves hrest hteacher

/-! ## The update -/

/-- The state `train` leaves: new parameters perhaps, and nothing else that a
snapshot or an average is made of. -/
structure AfterTrain (home actor : Actor ι α) : Prop where
  backups : actor.backups = home.backups
  opsdEma : actor.opsdEma = home.opsdEma

/-- Between the actor's backup and the averages: the actor's snapshot is new,
and only a cyclic refresh has touched another. -/
structure BackedUp (policy : Option TeacherPolicy) (home actor : Actor ι α) : Prop where
  live : actor.live = home.live
  opsdEma : actor.opsdEma = home.opsdEma
  actorSnapshot : actor.backups .actor = some home.live
  emaTeacher : actor.backups .emaTeacher = home.backups .emaTeacher
  teacher : policy = none → actor.backups .teacher = home.backups .teacher

/-- What a completed update has written: the actor's snapshot, the published
averages, perhaps a reference model or a refreshed cyclic teacher. -/
structure Completed [Fintype ι] [TensorOps α] (dtype : ι → DType)
    (policy : Option TeacherPolicy) (home actor : Actor ι α) : Prop where
  rest : AtRest actor
  teacher : policy = none → actor.backups .teacher = home.backups .teacher
  noEma : home.opsdEma = none → actor.opsdEma = none
  ema : ∀ ema scoring, home.opsdEma = some ema →
    home.backups .emaTeacher = some scoring →
    actor.opsdEma = some (ema.accumulate (named dtype actor.live)) ∧
      actor.backups .emaTeacher =
        some ((ema.accumulate (named dtype actor.live)).published dtype scoring)

theorem train_ok {trainEnd : TrainEnd ι α} {s t : Actor ι α}
    {outcome : TrainStepOutcome} (h : train trainEnd s = .ok outcome t) :
    AfterTrain s t ∧
      (outcome = .discardedShouldRetry → t.live = s.live) := by
  unfold train setTraining at h
  rw [bind_of_ok modify_run] at h
  cases trainEnd with
  | normal result =>
      cases h
      exact ⟨⟨rfl, rfl⟩, nofun⟩
  | discarded =>
      cases h
      exact ⟨⟨rfl, rfl⟩, fun _ => rfl⟩
  | raised error result => cases h

theorem train_backups {trainEnd : TrainEnd ι α} {s : Actor ι α} :
    match train trainEnd s with
    | .ok _ t => t.backups = s.backups
    | .error _ t => t.backups = s.backups := by
  unfold train setTraining
  rw [bind_of_ok modify_run]
  cases trainEnd with
  | normal result => rfl
  | discarded => rfl
  | raised error result => rfl

theorem BackedUp.of_counters {s t : Actor ι α} (h : BackedUp policy home s)
    (hlive : t.live = s.live) (hema : t.opsdEma = s.opsdEma)
    (hbackups : t.backups = s.backups) : BackedUp policy home t :=
  { live := hlive.trans h.live
    opsdEma := hema.trans h.opsdEma
    actorSnapshot := by rw [hbackups]; exact h.actorSnapshot
    emaTeacher := by rw [hbackups]; exact h.emaTeacher
    teacher := fun hpolicy => by rw [hbackups]; exact h.teacher hpolicy }

theorem backedUp_backupWeights :
    Triple (fun s => s = home) (backupWeights .actor : ActorM ι α Unit)
      (fun _ => BackedUp policy home) (fun _ _ => True) := by
  rintro s rfl
  have hema : Tag.emaTeacher ≠ .actor := by decide
  have hteacher : Tag.teacher ≠ .actor := by decide
  exact
    { live := rfl
      opsdEma := rfl
      actorSnapshot := Backups.backup_self s.backups .actor s.live
      emaTeacher := Backups.backup_of_ne s.backups s.live hema
      teacher := fun _ => Backups.backup_of_ne s.backups s.live hteacher }

theorem backedUp_checkedLearningRate {args : Args} {completedUpdates : Nat} :
    Preserves (BackedUp policy home) (checkedLearningRate args completedUpdates) := by
  refine Preserves.get.bind fun actor => Preserves.require.bind fun _ =>
    Preserves.lift.bind fun _ => Preserves.require.bind fun _ => ?_
  cases actor.paramGroups with
  | nil => exact Preserves.throw
  | cons rate rates => exact Preserves.pure

/-- A refresh writes the teacher and nothing else. -/
theorem backedUp_copyWeights (hpolicy : policy ≠ none) :
    Preserves (BackedUp policy home) (copyWeights .actor .teacher) := by
  refine Preserves.modify ?_
  intro s hs
  have hactor : Tag.actor ≠ .teacher := by decide
  have hema : Tag.emaTeacher ≠ .teacher := by decide
  exact
    { live := hs.live
      opsdEma := hs.opsdEma
      actorSnapshot := (Backups.copy_of_ne hactor).trans hs.actorSnapshot
      emaTeacher := (Backups.copy_of_ne hema).trans hs.emaTeacher
      teacher := fun h => absurd h hpolicy }

theorem backedUp_completeCyclic {args : Args} {rolloutId : Int} :
    Preserves (BackedUp args.opsdCyclicTeacherPolicy home)
      (completeCyclic args rolloutId) := by
  refine Preserves.ite ?_ fun _ => Preserves.pure
  intro hsome
  have hpolicy : args.opsdCyclicTeacherPolicy ≠ none := by
    intro h
    rw [h] at hsome
    cases hsome
  have hstep : Preserves (BackedUp args.opsdCyclicTeacherPolicy home)
      (completeCyclicStep args rolloutId : ActorM ι α CyclicMetrics) := by
    refine Preserves.get.bind fun actor => Preserves.require.bind fun _ =>
      backedUp_checkedLearningRate.bind fun nextLr => Preserves.lift.bind fun _ =>
        Preserves.require.bind fun _ => Preserves.lift.bind fun step =>
          Preserves.ite (fun _ => (backedUp_copyWeights hpolicy).bind fun _ =>
            (Preserves.modify ?_).bind fun _ => (Preserves.modify ?_).bind fun _ =>
              Preserves.pure) fun _ => (Preserves.modify ?_).bind fun _ => Preserves.pure
    · exact fun s hs => hs.of_counters rfl rfl rfl
    · exact fun s hs => hs.of_counters rfl rfl rfl
    · exact fun s hs => hs.of_counters rfl rfl rfl
  exact hstep.bind fun _ => Preserves.pure

theorem getSnapshot_ok {tag : Tag} {actor : Actor ι α} {weights : ι → α}
    (h : actor.backups tag = some weights) :
    getSnapshot tag actor = .ok weights actor := by
  unfold getSnapshot
  rw [bind_of_ok get_run, h]
  rfl

section Ema

variable [Fintype ι] [TensorOps α] {dtype : ι → DType}

theorem update_ok {ema ema' : OpsdEma ι α} {student : NamedTensors ι α}
    (h : ema.update student = .ok ema') : ema' = ema.accumulate student := by
  obtain ⟨_, _, hema⟩ := except_bind_eq_ok.mp h
  cases hema
  rfl

theorem publish_ok {ema : OpsdEma ι α} {scoring published : ι → α}
    (h : ema.publish dtype scoring = .ok published) :
    published = ema.published dtype scoring := by
  obtain ⟨_, _, hpublished⟩ := except_bind_eq_ok.mp h
  cases hpublished
  rfl

/-- Publishing writes one snapshot, from the averages and what it held. -/
theorem publishEma_ok {ema : OpsdEma ι α} {s t : Actor ι α}
    (h : publishEma dtype ema s = .ok () t) :
    ∃ scoring, s.backups .emaTeacher = some scoring ∧
      t =
        { s with
          backups := s.backups.backup .emaTeacher (ema.published dtype scoring) } := by
  unfold publishEma at h
  cases hscoring : s.backups .emaTeacher with
  | none =>
      have hget : getSnapshot .emaTeacher s =
          .error (assertionError s!"tag '{Tag.emaTeacher.name}' was never backed up") s := by
        unfold getSnapshot
        rw [bind_of_ok get_run, hscoring]
        rfl
      rw [bind_of_error hget] at h
      cases h
  | some scoring =>
      rw [bind_of_ok (getSnapshot_ok hscoring)] at h
      cases hpublish : ema.publish dtype scoring with
      | error e =>
          rw [hpublish, bind_of_error lift_error] at h
          cases h
      | ok published =>
          rw [hpublish, bind_of_ok lift_ok] at h
          cases h
          rw [publish_ok hpublish]
          exact ⟨scoring, rfl, rfl⟩

/-- The averages follow the actor's new snapshot and are published. -/
theorem completeEma_completed :
    Triple (BackedUp policy home) (completeEma dtype)
      (fun _ => Completed dtype policy home) (fun _ _ => True) := by
  intro s hs
  unfold completeEma
  rw [bind_of_ok get_run]
  cases hema : s.opsdEma with
  | none =>
      have hnone : home.opsdEma = none := hs.opsdEma.symm.trans hema
      exact
        { rest := by unfold AtRest; rw [hs.live]; exact hs.actorSnapshot
          teacher := hs.teacher
          noEma := fun _ => hema
          ema := fun ema scoring h => by rw [hnone] at h; cases h }
  | some ema =>
      have hsome : home.opsdEma = some ema := hs.opsdEma.symm.trans hema
      dsimp only
      rw [bind_of_ok (getSnapshot_ok hs.actorSnapshot)]
      cases hupdate : ema.update (named dtype home.live) with
      | error e => trivial
      | ok ema' =>
          obtain rfl := update_ok hupdate
          rw [bind_of_ok lift_ok, bind_of_ok modify_run]
          cases hpublish : publishEma dtype (ema.accumulate (named dtype home.live))
              { s with opsdEma := some (ema.accumulate (named dtype home.live)) } with
          | error e t => trivial
          | ok u t =>
              obtain ⟨scoring, hscoring, rfl⟩ := publishEma_ok hpublish
              have hscoring' : home.backups .emaTeacher = some scoring :=
                hs.emaTeacher.symm.trans hscoring
              have hactor : Tag.actor ≠ .emaTeacher := by decide
              have hteacher : Tag.teacher ≠ .emaTeacher := by decide
              let averages := ema.accumulate (named dtype home.live)
              let published := averages.published dtype scoring
              refine
                { rest := ?_, teacher := ?_
                  noEma := fun h => by rw [hsome] at h; cases h
                  ema := ?_ }
              · show s.backups.backup .emaTeacher published .actor = some s.live
                rw [Backups.backup_of_ne _ _ hactor, hs.live, hs.actorSnapshot]
              · intro hpolicy
                show s.backups.backup .emaTeacher published .teacher = _
                rw [Backups.backup_of_ne _ _ hteacher, hs.teacher hpolicy]
              · intro ema₀ scoring₀ hema₀ hscoring₀
                rw [hsome] at hema₀
                rw [hscoring'] at hscoring₀
                cases hema₀
                cases hscoring₀
                show some averages = some (ema.accumulate (named dtype s.live)) ∧
                  s.backups.backup .emaTeacher published .emaTeacher =
                    some ((ema.accumulate (named dtype s.live)).published dtype scoring)
                rw [hs.live, Backups.backup_self]
                exact ⟨rfl, rfl⟩

/-- Renewing the reference model is none of the other snapshots' business. -/
theorem completed_updateRef {args : Args} {rolloutId : Int} :
    Preserves (Completed dtype policy home) (updateRef args rolloutId) := by
  unfold updateRef
  cases args.refUpdateInterval with
  | none => exact Preserves.pure
  | some interval =>
      refine Preserves.require.bind fun _ => Preserves.get.bind fun _ =>
        Preserves.ite (fun _ => Preserves.modify ?_) fun _ => Preserves.pure
      intro s hs
      have hactor : Tag.actor ≠ .ref := by decide
      have hteacher : Tag.teacher ≠ .ref := by decide
      have hema : Tag.emaTeacher ≠ .ref := by decide
      refine { rest := ?_, teacher := ?_, noEma := hs.noEma, ema := ?_ }
      · exact (Backups.backup_of_ne s.backups s.live hactor).trans hs.rest
      · exact fun hpolicy =>
          (Backups.backup_of_ne s.backups s.live hteacher).trans (hs.teacher hpolicy)
      · intro ema scoring h h'
        obtain ⟨hema', hpublished⟩ := hs.ema ema scoring h h'
        exact ⟨hema', (Backups.backup_of_ne s.backups s.live hema).trans hpublished⟩

theorem completeUpdate_completed {args : Args} {rolloutId : Int} :
    Triple (fun s => s = home) (completeUpdate args dtype rolloutId)
      (fun _ => Completed dtype args.opsdCyclicTeacherPolicy home)
      (fun _ _ => True) := by
  have hcyclic := @backedUp_completeCyclic ι α home args rolloutId
  have href := @completed_updateRef ι α args.opsdCyclicTeacherPolicy home _ _ dtype args
    rolloutId
  exact backedUp_backupWeights.bind fun _ =>
    (hcyclic.consequence (fun _ h => h) (fun _ _ h => h) fun _ _ _ => trivial).bind
      fun _ => completeEma_completed.bind fun _ =>
        href.consequence (fun _ h => h) (fun _ _ h => h) fun _ _ _ => trivial

end Ema

/-! ## Runs -/

/-- How an attempt ends: inside or after its scoring, discarded, with its update
complete, or with an exception once the update has begun. -/
inductive AttemptEnd (ι α : Type) where
  | raisedBeforeUpdate (error : PyError)
  | discarded
  | completed (after : Actor ι α)
  | raisedInUpdate (error : PyError)

/-- An actor with the calls and the attempts behind it. -/
structure Run (ι α : Type) where
  history : History CallKind (Actor ι α)
  ends : List (AttemptEnd ι α)

/-- The actor snapshots of the completed updates, the first one first. -/
def Run.successes (run : Run ι α) : List (ι → α) :=
  run.ends.filterMap fun attemptEnd =>
    match attemptEnd with
    | .completed after => after.backups .actor
    | _ => none

/-- No attempt ended with an exception inside its update. -/
def Run.Orderly (run : Run ι α) : Prop :=
  ∀ error, AttemptEnd.raisedInUpdate error ∉ run.ends

/-- The update of an attempt, from the untouched actor its scoring leaves. -/
theorem noted_train {h : History CallKind (Actor ι α)} {trainEnd : TrainEnd ι α}
    (hrest : AtRest h.state) (hteacher : policy = none → h.state.backups .teacher = teacher)
    (hcalls : ∀ e ∈ h.entries, GoodCall policy teacher e) :
    match noted .train (train trainEnd) h with
    | .ok outcome h' =>
        AfterTrain h.state h'.state ∧
          (outcome = .discardedShouldRetry → h'.state.live = h.state.live) ∧
          ∀ e ∈ h'.entries, GoodCall policy teacher e
    | .error _ h' => ∀ e ∈ h'.entries, GoodCall policy teacher e := by
  have hgood : Good (fun _ => True) (GoodCall policy teacher) h := ⟨trivial, hcalls⟩
  have hbackups := @train_backups ι α trainEnd h.state
  have hentry : ∀ t : Actor ι α, t.backups = h.state.backups →
      GoodCall policy teacher ⟨.train, h.state, t⟩ := fun t ht =>
    { rest := hrest, score := nofun, snapshots := ht, teacher := hteacher }
  unfold noted
  cases htrain : train trainEnd h.state with
  | ok outcome t =>
      rw [htrain] at hbackups
      obtain ⟨hafter, hdiscarded⟩ := train_ok htrain
      exact ⟨hafter, hdiscarded, (hgood.append trivial (hentry t hbackups)).entries⟩
  | error e t =>
      rw [htrain] at hbackups
      exact (hgood.append trivial (hentry t hbackups)).entries

section Runs

variable [Fintype ι] [TensorOps α] [DecidableEq τ]
variable {env : ScoringEnv ρ τ ν} {args : Args} {dtype : ι → DType}

/-- One more attempt. The actor survives an exception. -/
def attemptStep (env : ScoringEnv ρ τ ν) (args : Args) (dtype : ι → DType)
    (run : Run ι α) (attempt : Attempt ι α ρ) : Run ι α :=
  match prepareUpdate env args attempt run.history with
  | .error e h => ⟨h, run.ends ++ [.raisedBeforeUpdate e]⟩
  | .ok _ h =>
      match finishUpdate args dtype attempt h with
      | .ok .normal h => ⟨h, run.ends ++ [.completed h.state]⟩
      | .ok .discardedShouldRetry h => ⟨h, run.ends ++ [.discarded]⟩
      | .error e h => ⟨h, run.ends ++ [.raisedInUpdate e]⟩

/-- What a step runs is `_train_actor`. -/
theorem attemptStep_history {run : Run ι α} {attempt : Attempt ι α ρ} :
    match trainActor env args dtype attempt run.history with
    | .ok _ h => (attemptStep env args dtype run attempt).history = h
    | .error _ h => (attemptStep env args dtype run attempt).history = h := by
  unfold attemptStep trainActor
  cases hprepare : prepareUpdate env args attempt run.history with
  | error e h => rw [bind_of_error hprepare]
  | ok targets h =>
      rw [bind_of_ok hprepare]
      cases hfinish : finishUpdate args dtype attempt h with
      | error e h' => simp only [hfinish]
      | ok outcome h' =>
          cases outcome with
          | normal => simp only [hfinish]
          | discardedShouldRetry => simp only [hfinish]

/-- What one attempt can do to a run. -/
inductive AttemptMove (env : ScoringEnv ρ τ ν) (args : Args) (dtype : ι → DType)
    (run : Run ι α) (attempt : Attempt ι α ρ) : Run ι α → Prop
  | raises {e h} (hprepare : prepareUpdate env args attempt run.history = .error e h) :
      AttemptMove env args dtype run attempt ⟨h, run.ends ++ [.raisedBeforeUpdate e]⟩
  | trainRaises {targets h e h'}
      (hprepare : prepareUpdate env args attempt run.history = .ok targets h)
      (htrain : noted .train (train attempt.train) h = .error e h') :
      AttemptMove env args dtype run attempt ⟨h', run.ends ++ [.raisedInUpdate e]⟩
  | discards {targets h h'}
      (hprepare : prepareUpdate env args attempt run.history = .ok targets h)
      (htrain : noted .train (train attempt.train) h = .ok .discardedShouldRetry h') :
      AttemptMove env args dtype run attempt ⟨h', run.ends ++ [.discarded]⟩
  | completionRaises {targets h h' e t}
      (hprepare : prepareUpdate env args attempt run.history = .ok targets h)
      (htrain : noted .train (train attempt.train) h = .ok .normal h')
      (hcomplete : completeUpdate args dtype attempt.rolloutId h'.state = .error e t) :
      AttemptMove env args dtype run attempt
        ⟨{ h' with state := t }, run.ends ++ [.raisedInUpdate e]⟩
  | completes {targets h h' u t}
      (hprepare : prepareUpdate env args attempt run.history = .ok targets h)
      (htrain : noted .train (train attempt.train) h = .ok .normal h')
      (hcomplete : completeUpdate args dtype attempt.rolloutId h'.state = .ok u t) :
      AttemptMove env args dtype run attempt
        ⟨{ h' with state := t }, run.ends ++ [.completed t]⟩

theorem attemptStep_cases {run : Run ι α} {attempt : Attempt ι α ρ} :
    AttemptMove env args dtype run attempt (attemptStep env args dtype run attempt) := by
  cases hprepare : prepareUpdate env args attempt run.history with
  | error e h =>
      simp only [attemptStep, hprepare]
      exact .raises hprepare
  | ok targets h =>
      cases htrain : noted .train (train attempt.train) h with
      | error e h' =>
          simp only [attemptStep, hprepare, finishUpdate, bind_of_error htrain]
          exact .trainRaises hprepare htrain
      | ok outcome h' =>
          cases outcome with
          | discardedShouldRetry =>
              simp only [attemptStep, hprepare, finishUpdate, bind_of_ok htrain, pure_run]
              exact .discards hprepare htrain
          | normal =>
              cases hcomplete : completeUpdate args dtype attempt.rolloutId h'.state with
              | error e t =>
                  have hquiet : quiet (completeUpdate args dtype attempt.rolloutId) h' =
                      .error e { h' with state := t } := by
                    simp only [quiet, hcomplete]
                  simp only [attemptStep, hprepare, finishUpdate, bind_of_ok htrain,
                    bind_of_error hquiet]
                  exact .completionRaises hprepare htrain hcomplete
              | ok u t =>
                  have hquiet : quiet (completeUpdate args dtype attempt.rolloutId) h' =
                      .ok u { h' with state := t } := by
                    simp only [quiet, hcomplete]
                  simp only [attemptStep, hprepare, finishUpdate, bind_of_ok htrain,
                    bind_of_ok hquiet, pure_run]
                  exact .completes hprepare htrain hcomplete

/-- The averages after a list of student snapshots. -/
def emaAfter (dtype : ι → DType) (ema : OpsdEma ι α) (students : List (ι → α)) :
    OpsdEma ι α :=
  students.foldl (fun ema student => ema.accumulate (named dtype student)) ema

omit [Fintype ι] in
theorem emaAfter_updates {ema : OpsdEma ι α} {students : List (ι → α)} :
    (emaAfter dtype ema students).updates = ema.updates + students.length := by
  induction students generalizing ema with
  | nil => rfl
  | cons student students ih =>
      rw [emaAfter, List.foldl_cons, ← emaAfter, ih, List.length_cons]
      show ema.updates + 1 + students.length = _
      omega

omit [Fintype ι] in
theorem emaAfter_append {ema : OpsdEma ι α} {students : List (ι → α)}
    {student : ι → α} : emaAfter dtype ema (students ++ [student]) =
      (emaAfter dtype ema students).accumulate (named dtype student) := by
  rw [emaAfter, List.foldl_append]
  rfl

/-- An actor between attempts, `first` being the one the run started with. -/
structure RunInv (policy : Option TeacherPolicy) (dtype : ι → DType)
    (first : Actor ι α) (run : Run ι α) : Prop where
  rest : AtRest run.history.state
  calls : ∀ e ∈ run.history.entries, GoodCall policy (first.backups .teacher) e
  completed : ∀ after, .completed after ∈ run.ends → AtRest after
  teacher : policy = none →
    run.history.state.backups .teacher = first.backups .teacher
  noEma : first.opsdEma = none → run.history.state.opsdEma = none
  ema : ∀ ema scoring, first.opsdEma = some ema →
    first.backups .emaTeacher = some (ema.published dtype scoring) →
    run.history.state.opsdEma = some (emaAfter dtype ema run.successes) ∧
      run.history.state.backups .emaTeacher =
        some ((emaAfter dtype ema run.successes).published dtype scoring)

omit [Fintype ι] in
/-- An attempt without a completed update leaves the run where it was. -/
theorem RunInv.of_unchanged {first : Actor ι α} {run run' : Run ι α}
    (hinv : RunInv policy dtype first run)
    (hcalls : ∀ e ∈ run'.history.entries, GoodCall policy (first.backups .teacher) e)
    (hlive : run'.history.state.live = run.history.state.live)
    (hbackups : run'.history.state.backups = run.history.state.backups)
    (hema : run'.history.state.opsdEma = run.history.state.opsdEma)
    (hends : ∀ after, .completed after ∈ run'.ends → .completed after ∈ run.ends)
    (hsuccesses : run'.successes = run.successes) :
    RunInv policy dtype first run' where
  rest := by
    unfold AtRest
    rw [hbackups, hlive]
    exact hinv.rest
  calls := hcalls
  completed := fun after hafter => hinv.completed after (hends after hafter)
  teacher := by rw [hbackups]; exact hinv.teacher
  noEma := by rw [hema]; exact hinv.noEma
  ema := by rw [hema, hbackups, hsuccesses]; exact hinv.ema

/-- A completed update is one more snapshot for the averages. -/
theorem RunInv.of_completed {first mid : Actor ι α} {run run' : Run ι α}
    (hinv : RunInv policy dtype first run)
    (hcalls : ∀ e ∈ run'.history.entries, GoodCall policy (first.backups .teacher) e)
    (hmid : AfterTrain run.history.state mid)
    (hcompleted : Completed dtype policy mid run'.history.state)
    (hends : run'.ends = run.ends ++ [.completed run'.history.state])
    (hsuccesses : run'.successes = run.successes ++ [run'.history.state.live]) :
    RunInv policy dtype first run' where
  rest := hcompleted.rest
  calls := hcalls
  completed := by
    intro after hafter
    rw [hends] at hafter
    rcases List.mem_append.mp hafter with hold | hnew
    · exact hinv.completed after hold
    · cases List.mem_singleton.mp hnew
      exact hcompleted.rest
  teacher := by
    intro hpolicy
    rw [hcompleted.teacher hpolicy, hmid.backups, hinv.teacher hpolicy]
  noEma := by
    intro hnone
    exact hcompleted.noEma (hmid.opsdEma.trans (hinv.noEma hnone))
  ema := by
    intro ema scoring hema hscoring
    obtain ⟨hrunEma, hrunScoring⟩ := hinv.ema ema scoring hema hscoring
    obtain ⟨hnext, hpublished⟩ := hcompleted.ema _ _ (hmid.opsdEma.trans hrunEma)
      ((congrFun hmid.backups _).trans hrunScoring)
    rw [hsuccesses, emaAfter_append]
    refine ⟨hnext, ?_⟩
    rw [hpublished, OpsdEma.published_published]
    exact fun i => (OpsdEma.accumulate_isSome i).symm

/-- An exception inside an update is never forgotten. -/
theorem AttemptMove.orderly {run run' : Run ι α} {attempt : Attempt ι α ρ}
    (hmove : AttemptMove env args dtype run attempt run') (h : run'.Orderly) :
    run.Orderly := by
  have hends : ∃ attemptEnd, run'.ends = run.ends ++ [attemptEnd] := by
    cases hmove with
    | _ => exact ⟨_, rfl⟩
  obtain ⟨attemptEnd, hends⟩ := hends
  intro error hmem
  apply h error
  rw [hends]
  exact List.mem_append_left _ hmem

/-- One attempt keeps the invariant, unless it raises inside its update. -/
theorem AttemptMove.inv {first : Actor ι α} {run run' : Run ι α} {attempt : Attempt ι α ρ}
    (hmove : AttemptMove env args dtype run attempt run')
    (hinv : RunInv args.opsdCyclicTeacherPolicy dtype first run) (horderly : run'.Orderly) :
    RunInv args.opsdCyclicTeacherPolicy dtype first run' := by
  have hprepares := @prepareUpdate_preserves _ _ _ _ _ _ _ _ _ env args attempt hinv.rest
    hinv.teacher
  have hgood : Good (Untouched run.history.state)
      (GoodCall args.opsdCyclicTeacherPolicy (first.backups .teacher)) run.history :=
    ⟨⟨rfl, rfl, rfl, rfl⟩, hinv.calls⟩
  -- The update starts from the untouched actor that its scoring leaves.
  have hupdate : ∀ {targets h},
      prepareUpdate env args attempt run.history = .ok targets h →
      Untouched run.history.state h.state ∧
        match noted .train (train attempt.train) h with
        | .ok outcome h' =>
            AfterTrain h.state h'.state ∧
              (outcome = .discardedShouldRetry → h'.state.live = h.state.live) ∧
              ∀ e ∈ h'.entries, GoodCall args.opsdCyclicTeacherPolicy (first.backups .teacher) e
        | .error _ h' =>
            ∀ e ∈ h'.entries, GoodCall args.opsdCyclicTeacherPolicy (first.backups .teacher) e := by
    intro targets h hprepare
    obtain ⟨huntouched, hcalls⟩ := hprepares.ok hgood hprepare
    refine ⟨huntouched, noted_train (huntouched.rest hinv.rest) (fun hpolicy => ?_) hcalls⟩
    rw [huntouched.backups]
    exact hinv.teacher hpolicy
  cases hmove with
  | raises hprepare =>
      obtain ⟨huntouched, hcalls⟩ := hprepares.error hgood hprepare
      refine hinv.of_unchanged hcalls huntouched.live huntouched.backups
        huntouched.opsdEma (by simp) ?_
      simp [Run.successes]
  | @trainRaises _ _ e => exact absurd (by simp) (horderly e)
  | discards hprepare htrain =>
      obtain ⟨huntouched, htrains⟩ := hupdate hprepare
      rw [htrain] at htrains
      obtain ⟨hafter, hdiscarded, hcalls⟩ := htrains
      refine hinv.of_unchanged hcalls ((hdiscarded rfl).trans huntouched.live)
        (hafter.backups.trans huntouched.backups)
        (hafter.opsdEma.trans huntouched.opsdEma) (by simp) ?_
      simp [Run.successes]
  | @completionRaises _ _ _ e => exact absurd (by simp) (horderly e)
  | @completes _ _ _ u t hprepare htrain hcomplete =>
      obtain ⟨huntouched, htrains⟩ := hupdate hprepare
      rw [htrain] at htrains
      obtain ⟨hafter, -, hcalls⟩ := htrains
      have hcompleted := completeUpdate_completed.ok rfl hcomplete
      have hmid := (⟨hafter.backups.trans huntouched.backups,
        hafter.opsdEma.trans huntouched.opsdEma⟩ : AfterTrain run.history.state _)
      refine hinv.of_completed hcalls hmid hcompleted rfl ?_
      have hrest : t.backups .actor = some t.live := hcompleted.rest
      simp [Run.successes, List.filterMap_append, hrest]

end Runs

/-! ## Loading -/

/-- The updates an EMA source brings along. -/
def loadedUpdates (source : Option (EmaSource ι α × String)) : Nat :=
  match source with
  | none => 0
  | some (state, _) => state.updates.toNat

section Loading

variable [Fintype ι] [TensorOps α] {dtype : ι → DType} {args : Args}
variable {checkpoints : Checkpoints ι α} {original : ι → α}

/-- The averages a run starts with: those of the loaded teacher, or the ones
its source accumulated, published over the teacher's weights. -/
structure EmaLoaded (args : Args) (dtype : ι → DType) (checkpoints : Checkpoints ι α)
    (original : ι → α) (actor : Actor ι α) : Prop where
  none : args.opsdTeacherEmaDecay = none → actor.opsdEma = none
  some : ∀ decay, args.opsdTeacherEmaDecay = some decay →
    ∃ fresh ema, OpsdEma.init (named dtype original) decay = .ok fresh ∧
      loadEmaSource checkpoints.emaSource fresh = .ok ema ∧
      actor.opsdEma = some ema ∧
      ema.updates = loadedUpdates checkpoints.emaSource ∧
      actor.backups .emaTeacher = some (ema.published dtype original)

/-- An actor whose teacher has just been loaded. -/
structure TeacherLoaded (original : ι → α) (actor : Actor ι α) : Prop where
  actorSnapshot : (actor.backups .actor).isSome
  live : actor.live = original
  teacher : actor.backups .teacher = some original
  opsdEma : actor.opsdEma = none

/-- A loaded actor, before its old weights are. -/
structure ActorLoaded (args : Args) (dtype : ι → DType) (checkpoints : Checkpoints ι α)
    (original : ι → α) (actor : Actor ι α) : Prop where
  actorSnapshot : (actor.backups .actor).isSome
  teacher : args.opsdCyclicTeacherPolicy = none →
    actor.backups .teacher = some original
  ema : EmaLoaded args dtype checkpoints original actor

omit [Fintype ι] [TensorOps α] in
theorem loadOtherCheckpoint_ok {tag : Tag} {s t : Actor ι α} {u : Unit}
    (h : loadOtherCheckpoint checkpoints tag s = .ok u t) :
    ∃ weights, checkpoints.load tag = .ok weights ∧
      t = { s with
        live := weights, activeModelTag := tag
        backups := s.backups.backup tag weights } := by
  unfold loadOtherCheckpoint at h
  cases hload : checkpoints.load tag with
  | error e =>
      rw [hload, bind_of_error lift_error] at h
      cases h
  | ok weights =>
      rw [hload, bind_of_ok lift_ok, bind_of_ok modify_run] at h
      unfold backupWeights at h
      rw [bind_of_ok modify_run] at h
      cases h
      exact ⟨weights, rfl, rfl⟩

omit [Fintype ι] [TensorOps α] in
theorem teacherLoaded_loadOther :
    Triple (fun s => (s.backups .actor).isSome ∧ s.opsdEma = none)
      (loadOtherCheckpoint checkpoints .teacher)
      (fun _ t => ∃ original, checkpoints.load .teacher = .ok original ∧
        TeacherLoaded original t) (fun _ _ => True) := by
  rintro s ⟨hactor, hema⟩
  cases h : loadOtherCheckpoint checkpoints .teacher s with
  | error e t => trivial
  | ok u t =>
      obtain ⟨weights, hload, rfl⟩ := loadOtherCheckpoint_ok h
      have hne : Tag.actor ≠ .teacher := by decide
      refine ⟨weights, hload, ?_, rfl,
        Backups.backup_self s.backups .teacher weights, hema⟩
      show (s.backups.backup .teacher weights .actor).isSome
      rw [Backups.backup_of_ne _ _ hne]
      exact hactor

theorem init_updates {weights : NamedTensors ι α} {decay : ℚ} {ema : OpsdEma ι α}
    (h : OpsdEma.init weights decay = .ok ema) : ema.updates = 0 := by
  obtain ⟨_, _, h⟩ := except_bind_eq_ok.mp h
  obtain ⟨_, _, h⟩ := except_bind_eq_ok.mp h
  cases h
  rfl

theorem loadEmaSource_updates {source : Option (EmaSource ι α × String)}
    {fresh ema : OpsdEma ι α} (hfresh : fresh.updates = 0)
    (h : loadEmaSource source fresh = .ok ema) : ema.updates = loadedUpdates source := by
  unfold loadEmaSource at h
  cases source with
  | none =>
      cases h
      exact hfresh
  | some entry =>
      obtain ⟨_, _, h⟩ := except_bind_eq_ok.mp h
      obtain ⟨_, _, h⟩ := except_bind_eq_ok.mp h
      obtain ⟨_, _, h⟩ := except_bind_eq_ok.mp h
      obtain ⟨_, _, h⟩ := except_bind_eq_ok.mp h
      cases h
      rfl

/-- `initialize_ema`, called while the teacher's weights are the live ones. -/
theorem actorLoaded_initializeEma :
    Triple (TeacherLoaded original) (initializeEma args dtype checkpoints.emaSource)
      (fun _ => ActorLoaded args dtype checkpoints original) (fun _ _ => True) := by
  intro s hs
  unfold initializeEma
  rw [bind_of_ok modify_run]
  cases hdecay : args.opsdTeacherEmaDecay with
  | none =>
      exact
        { actorSnapshot := hs.actorSnapshot
          teacher := fun _ => hs.teacher
          ema :=
            { none := fun _ => rfl
              some := fun decay h => by rw [hdecay] at h; cases h } }
  | some decay =>
      have hteacherNe : Tag.teacher ≠ .emaTeacher := by decide
      have hactorNe : Tag.actor ≠ .emaTeacher := by decide
      let backed : Actor ι α :=
        { s with opsdEma := none, backups := s.backups.backup .emaTeacher s.live }
      have hget : getSnapshot .teacher backed = .ok original backed :=
        getSnapshot_ok
          ((Backups.backup_of_ne s.backups s.live hteacherNe).trans hs.teacher)
      dsimp only
      rw [bind_of_ok (show backupWeights .emaTeacher _ = .ok () backed from rfl),
        bind_of_ok hget]
      cases hinit : OpsdEma.init (named dtype original) decay with
      | error e => trivial
      | ok fresh =>
          rw [bind_of_ok lift_ok]
          cases hsource : loadEmaSource checkpoints.emaSource fresh with
          | error e => trivial
          | ok ema =>
              rw [bind_of_ok lift_ok, bind_of_ok modify_run]
              cases hpublish : publishEma dtype ema { backed with opsdEma := some ema } with
              | error e t => trivial
              | ok u t =>
                  obtain ⟨scoring, hscoring, rfl⟩ := publishEma_ok hpublish
                  have horiginal : scoring = original := by
                    have : s.backups.backup .emaTeacher s.live .emaTeacher =
                        some scoring := hscoring
                    rw [Backups.backup_self, hs.live] at this
                    exact (Option.some.inj this).symm
                  subst horiginal
                  refine
                    { actorSnapshot := ?_, teacher := fun _ => ?_
                      ema :=
                        { none := fun h => by rw [hdecay] at h; cases h
                          some := ?_ } }
                  · have := (Backups.backup_of_ne backed.backups
                      (ema.published dtype scoring) hactorNe).trans
                        (Backups.backup_of_ne s.backups s.live hactorNe)
                    exact this.symm ▸ hs.actorSnapshot
                  · exact (Backups.backup_of_ne backed.backups
                      (ema.published dtype scoring) hteacherNe).trans
                        ((Backups.backup_of_ne s.backups s.live hteacherNe).trans
                          hs.teacher)
                  · intro decay' hdecay'
                    rw [hdecay] at hdecay'
                    cases hdecay'
                    exact ⟨fresh, ema, hinit, hsource, rfl,
                      loadEmaSource_updates (init_updates hinit) hsource,
                      Backups.backup_self backed.backups .emaTeacher
                        (ema.published dtype scoring)⟩

/-- Writing another snapshot keeps an actor loaded. -/
theorem ActorLoaded.backup {tag : Tag} {weights : ι → α} {s t : Actor ι α}
    (h : ActorLoaded args dtype checkpoints original s)
    (hactor : tag ≠ .actor) (hema : tag ≠ .emaTeacher)
    (hteacher : args.opsdCyclicTeacherPolicy = none → tag ≠ .teacher)
    (hbackups : t.backups = s.backups.backup tag weights)
    (hopsdEma : t.opsdEma = s.opsdEma) :
    ActorLoaded args dtype checkpoints original t where
  actorSnapshot := by
    rw [hbackups, Backups.backup_of_ne _ _ hactor.symm]
    exact h.actorSnapshot
  teacher := by
    intro hpolicy
    rw [hbackups, Backups.backup_of_ne _ _ (hteacher hpolicy).symm]
    exact h.teacher hpolicy
  ema :=
    { none := by rw [hopsdEma]; exact h.ema.none
      some := by
        rw [hopsdEma, hbackups, Backups.backup_of_ne _ _ hema.symm]
        exact h.ema.some }

theorem actorLoaded_initializeCyclic :
    Preserves (ActorLoaded args dtype checkpoints original) (initializeCyclic args) := by
  refine (Preserves.modify ?_).bind fun _ => Preserves.ite ?_ fun _ => Preserves.pure
  · exact fun s hs => ⟨hs.actorSnapshot, hs.teacher, ⟨hs.ema.none, hs.ema.some⟩⟩
  · intro hrefresh
    refine Preserves.modify ?_
    intro s hs
    cases hteacher : s.backups .teacher with
    | none =>
        have hcopy : s.backups.copy .actor .teacher = s.backups := by
          simp [Backups.copy, hteacher]
        rw [hcopy]
        exact hs
    | some old =>
        obtain ⟨weights, hactor⟩ := Option.isSome_iff_exists.mp hs.actorSnapshot
        refine @ActorLoaded.backup _ _ _ _ _ _ _ _ .teacher weights s _ hs (by decide)
          (by decide) ?_ (Backups.copy_of_some hteacher hactor) rfl
        intro hpolicy
        rw [hrefresh] at hpolicy
        cases hpolicy

theorem actorLoaded_loadOldActor :
    Triple (ActorLoaded args dtype checkpoints original) (loadOldActor args checkpoints)
      (fun _ => ActorLoaded args dtype checkpoints original) (fun _ _ => True) := by
  have hload : Triple (ActorLoaded args dtype checkpoints original)
      (loadOtherCheckpoint checkpoints .oldActor)
      (fun _ => ActorLoaded args dtype checkpoints original) (fun _ _ => True) := by
    intro s hs
    cases h : loadOtherCheckpoint checkpoints .oldActor s with
    | error e t => trivial
    | ok u t =>
        obtain ⟨weights, -, rfl⟩ := loadOtherCheckpoint_ok h
        exact @ActorLoaded.backup _ _ _ _ _ _ _ _ .oldActor weights s _ hs (by decide)
          (by decide) (fun _ => by decide) rfl rfl
  refine Triple.ite (fun _ => hload.bind fun _ => Triple.ite (fun _ => ?_)
    fun _ => Triple.pure fun _ h => h) fun _ => Triple.pure fun _ h => h
  intro s hs
  exact @ActorLoaded.backup _ _ _ _ _ _ _ _ .rolloutActor s.live s _ hs (by decide)
    (by decide) (fun _ => by decide) rfl rfl

theorem actorLoaded_switchModel :
    Triple (ActorLoaded args dtype checkpoints original) (switchModel .actor)
      (fun _ t => ActorLoaded args dtype checkpoints original t ∧ AtRest t)
      (fun _ _ => True) := by
  intro s hs
  unfold switchModel
  rw [bind_of_ok get_run]
  cases hactor : s.backups .actor with
  | none => trivial
  | some weights =>
      exact ⟨⟨hs.actorSnapshot, hs.teacher, ⟨hs.ema.none, hs.ema.some⟩⟩, hactor⟩

/-- An actor that has backed up its own weights and loaded nothing else. -/
def Started (actor : Actor ι α) : Prop :=
  (actor.backups .actor).isSome ∧ actor.opsdEma = none

omit [Fintype ι] [TensorOps α] in
theorem started_loadRef :
    Triple Started (loadRef checkpoints) (fun _ => Started) (fun _ _ => True) := by
  refine Triple.ite (fun _ => ?_) fun _ => Triple.pure fun _ h => h
  rintro s ⟨hactor, hema⟩
  cases h : loadOtherCheckpoint checkpoints .ref s with
  | error e t => trivial
  | ok u t =>
      obtain ⟨weights, -, rfl⟩ := loadOtherCheckpoint_ok h
      have hne : Tag.actor ≠ .ref := by decide
      have hsame := Backups.backup_of_ne s.backups weights hne
      exact ⟨hsame.symm ▸ hactor, hema⟩

omit [Fintype ι] [TensorOps α] in
theorem getSnapshot_preserves {tag : Tag} {P : Actor ι α → Prop} :
    Preserves P (getSnapshot tag) := by
  refine Preserves.get.bind fun actor => ?_
  cases actor.backups tag with
  | none => exact Preserves.throw
  | some weights => exact Preserves.pure

variable [DecidableEq α]

/-- What an OPSD actor has once its checkpoints are loaded. -/
theorem loadAuxiliaryCheckpoints_loaded {s actor : Actor ι α} {u : Unit}
    (h : loadAuxiliaryCheckpoints args dtype checkpoints s = .ok u actor) :
    ∃ original, checkpoints.load .teacher = .ok original ∧
      ActorLoaded args dtype checkpoints original actor ∧ AtRest actor := by
  have hrest : ∀ original : ι → α, Triple (TeacherLoaded original)
      (do
        let actor ← getSnapshot .actor
        let teacher ← getSnapshot .teacher
        lift (verifyTeacherBase checkpoints.names (args.loraRank == 0) checkpoints.isAdapter
          actor teacher)
        initializeEma args dtype checkpoints.emaSource
        initializeCyclic args
        loadOldActor args checkpoints
        switchModel .actor)
      (fun _ t => ActorLoaded args dtype checkpoints original t ∧ AtRest t)
      (fun _ _ => True) := by
    intro original
    have hget : ∀ tag, Triple (TeacherLoaded original) (getSnapshot tag)
        (fun _ => TeacherLoaded original) (fun _ _ => True) := fun tag =>
      getSnapshot_preserves.consequence (fun _ h => h) (fun _ _ h => h)
        fun _ _ _ => trivial
    have hcyclic : Triple (ActorLoaded args dtype checkpoints original)
        (initializeCyclic args) (fun _ => ActorLoaded args dtype checkpoints original)
        (fun _ _ => True) :=
      actorLoaded_initializeCyclic.consequence (fun _ h => h) (fun _ _ h => h)
        fun _ _ _ => trivial
    exact (hget _).bind fun _ => (hget _).bind fun _ =>
      (Triple.lift (fun _ _ h _ => h) fun _ _ _ _ => trivial).bind fun _ =>
        actorLoaded_initializeEma.bind fun _ => hcyclic.bind fun _ =>
          actorLoaded_loadOldActor.bind fun _ => actorLoaded_switchModel
  have hload : Triple (fun _ => True) (loadAuxiliaryCheckpoints args dtype checkpoints)
      (fun _ t => ∃ original, checkpoints.load .teacher = .ok original ∧
        ActorLoaded args dtype checkpoints original t ∧ AtRest t) (fun _ _ => True) := by
    have hbackup : Triple (fun s : Actor ι α => s.opsdEma = none) (backupWeights .actor)
        (fun _ => Started) (fun _ _ => True) := fun s hs =>
      ⟨Option.isSome_iff_exists.mpr
        ⟨s.live, Backups.backup_self s.backups .actor s.live⟩, hs⟩
    refine Triple.bind (Triple.modify fun _ _ => rfl) fun _ => hbackup.bind fun _ =>
      started_loadRef.bind fun _ => teacherLoaded_loadOther.bind fun _ => ?_
    rintro t ⟨original, horiginal, hloaded⟩
    exact (hrest original).consequence (fun _ h => h)
      (fun _ _ h => ⟨original, horiginal, h⟩) (fun _ _ h => h) t hloaded
  exact hload.ok trivial h

end Loading

/-! ## The discipline -/

section Discipline

variable [Fintype ι] [TensorOps α] [DecidableEq α] [DecidableEq τ]
variable {dtype : ι → DType} {args : Args} {checkpoints : Checkpoints ι α}

/-- The run of an actor over a list of attempts. -/
def attemptRun (env : ScoringEnv ρ τ ν) (args : Args) (dtype : ι → DType)
    (actor : Actor ι α) (attempts : List (Attempt ι α ρ)) : Run ι α :=
  runFrom (attemptStep env args dtype) ⟨⟨actor, []⟩, []⟩ attempts

omit [DecidableEq α] in
theorem attemptRun_inv {env : ScoringEnv ρ τ ν} {actor : Actor ι α} (hrest : AtRest actor)
    {attempts : List (Attempt ι α ρ)}
    (horderly : (attemptRun env args dtype actor attempts).Orderly) :
    RunInv args.opsdCyclicTeacherPolicy dtype actor
      (attemptRun env args dtype actor attempts) := by
  have hstart : RunInv args.opsdCyclicTeacherPolicy dtype actor ⟨⟨actor, []⟩, []⟩ :=
    { rest := hrest
      calls := fun _ he => absurd he List.not_mem_nil
      completed := fun _ he => absurd he List.not_mem_nil
      teacher := fun _ => rfl
      noEma := fun h => h
      ema := fun ema scoring hema hscoring => ⟨hema, hscoring⟩ }
  have hrun := @invariant_run _ _ (attemptStep env args dtype)
    (fun run => run.Orderly → RunInv args.opsdCyclicTeacherPolicy dtype actor run)
    (fun run attempt hinv horderly =>
      attemptStep_cases.inv (hinv (attemptStep_cases.orderly horderly)) horderly)
    _ (fun _ => hstart) attempts
  exact hrun horderly

/-- **Snapshot discipline.** From a loaded actor, over any attempts of which
none raises once its update has begun: every `_score` gives back the actor's
weights, the train flags and the snapshots, every update starts from the actor's
snapshot, the teacher never moves without a cyclic policy, and the EMA teacher
is the published average of the snapshots of the completed updates. -/
theorem weight_snapshot_discipline {s actor : Actor ι α} {u : Unit}
    (hload : loadAuxiliaryCheckpoints args dtype checkpoints s = .ok u actor)
    (env : ScoringEnv ρ τ ν) (attempts : List (Attempt ι α ρ))
    (horderly : (attemptRun env args dtype actor attempts).Orderly) :
    let run := attemptRun env args dtype actor attempts
    (∀ e ∈ run.history.entries, e.kind = .score →
      e.after.backups .actor = some e.after.live ∧
        e.after.training = e.before.training ∧ e.after.backups = e.before.backups) ∧
    (∀ e ∈ run.history.entries, e.kind = .train →
      e.before.backups .actor = some e.before.live) ∧
    run.history.state.backups .actor = some run.history.state.live ∧
    (args.opsdCyclicTeacherPolicy = none →
      ∃ original, checkpoints.load .teacher = .ok original ∧
        run.history.state.backups .teacher = some original ∧
        ∀ e ∈ run.history.entries, e.before.backups .teacher = some original ∧
          e.after.backups .teacher = some original) ∧
    (∀ decay, args.opsdTeacherEmaDecay = some decay →
      ∃ original fresh ema, checkpoints.load .teacher = .ok original ∧
        OpsdEma.init (named dtype original) decay = .ok fresh ∧
        loadEmaSource checkpoints.emaSource fresh = .ok ema ∧
        (∀ after, AttemptEnd.completed after ∈ run.ends →
          (after.backups .actor).isSome) ∧
        run.history.state.opsdEma = some (emaAfter dtype ema run.successes) ∧
        (emaAfter dtype ema run.successes).updates =
          loadedUpdates checkpoints.emaSource + run.successes.length ∧
        run.history.state.backups .emaTeacher =
          some ((emaAfter dtype ema run.successes).published dtype original)) := by
  obtain ⟨original, horiginal, hloaded, hrest⟩ := loadAuxiliaryCheckpoints_loaded hload
  have hinv := attemptRun_inv hrest horderly
  intro run
  refine ⟨?_, ?_, hinv.rest, ?_, ?_⟩
  · intro e he hscore
    have hcall := hinv.calls e he
    have huntouched := hcall.score hscore
    exact ⟨huntouched.rest hcall.rest, huntouched.training, hcall.snapshots⟩
  · exact fun e he _ => (hinv.calls e he).rest
  · intro hpolicy
    have hteacher := hloaded.teacher hpolicy
    refine ⟨original, horiginal, (hinv.teacher hpolicy).trans hteacher, ?_⟩
    intro e he
    have hcall := hinv.calls e he
    have hbefore := (hcall.teacher hpolicy).trans hteacher
    exact ⟨hbefore, (congrFun hcall.snapshots _).trans hbefore⟩
  · intro decay hdecay
    obtain ⟨fresh, ema, hinit, hsource, hema, hupdates, hscoring⟩ :=
      hloaded.ema.some decay hdecay
    obtain ⟨hrunEma, hrunScoring⟩ := hinv.ema ema original hema hscoring
    refine ⟨original, fresh, ema, horiginal, hinit, hsource, ?_, hrunEma, ?_, hrunScoring⟩
    · intro after hafter
      rw [hinv.completed after hafter]
      rfl
    · rw [emaAfter_updates, hupdates]

end Discipline

/-- Rational scalars, for runs on concrete weights. -/
instance rationalScalars : TensorOps ℚ where
  shape _ := []
  isFinite _ := true
  toFloat32 x := x
  lerp average value weight := average + weight * (value - average)
  castTo _ x := x

/-- An EMA run with every default. -/
def emaArgs : Args :=
  { numRollout := 4
    opsdContext := .worked
    opsdTeacherEmaDecay := some (1 / 2)
    rolloutBatchSize := 1
    nSamplesPerPrompt := 1
    globalBatchSize := 1
    seqLength := 16
    vocabSize := 8
    lr := 1 / 10
    lrDecayStyle := .constant }

/-- A student at 5 before anything is loaded. -/
def emaStudent : Actor Unit ℚ :=
  { live := fun _ => 5
    training := [true]
    backups := fun _ => none
    activeModelTag := .actor
    opsdEma := none
    chainedOptimizers := []
    paramGroups := []
    numSteps := 0
    opsdCyclicCompletedUpdates := 0
    opsdCyclicOptimizerUpdates := 0
    opsdCyclicTeacherSourceUpdate := 0
    opsdCyclicAppliedLr := 0 }

/-- A teacher at 3 with no other checkpoint. -/
def emaCheckpoints : Checkpoints Unit ℚ :=
  { names := [()]
    all_names := fun _ => List.mem_singleton.mpr rfl
    withRef := false
    load := fun _ => .ok fun _ => 3
    emaSource := none
    isAdapter := fun _ => false }

def emaEnv : ScoringEnv ℚ ℚ ℚ :=
  { kernel := { logSoftmax := fun _ _ row => row, loss := fun _ _ row _ => row }
    tp := { rank := 0, size := 1 }
    parallelOutput := true
    modelVocabSize := 8
    transportRow := fun q _ _ => q }

/-- One sample, scored by a model that answers with its weights. -/
def emaAttempt (fails : Bool) (trainEnd : TrainEnd Unit ℚ) : Attempt Unit ℚ ℚ :=
  { rolloutId := 0
    rollout :=
      { tokens := [[1, 2]], totalLengths := [2], responseLengths := [1]
        lossMasks := [[1]], sampleIndices := [some 0], teacherPromptIds := some [[7]] }
    hasLogProbs := false
    numMicrobatches := [[1]]
    calls := fun _ =>
      { logits := fun live _ =>
          if fails then .error (runtimeError "out of memory")
          else .ok
            { ndim := 3, size0 := 1, localVocab := 8, isFloating := true
              rows := [live (), live ()] }
        aggregate := .ok () }
    train := trainEnd }

def emaTrained (weight : ℚ) : Trained Unit ℚ :=
  { weights := fun _ => weight, chainedOptimizers := [], paramGroups := [], numSteps := 1 }

def emaAttempts : List (Attempt Unit ℚ ℚ) :=
  [ emaAttempt true (.normal (emaTrained 9)), emaAttempt false .discarded,
    emaAttempt false (.normal (emaTrained 6)) ]

/-- The student once its teacher and averages are loaded. -/
def emaLoaded : Actor Unit ℚ :=
  match loadAuxiliaryCheckpoints emaArgs (fun _ => .float32) emaCheckpoints emaStudent with
  | .ok _ actor => actor
  | .error _ actor => actor

/-- A failed scoring, a discarded step and an update to 6: the average of a
teacher at 3 moves half the way. -/
theorem weight_snapshot_discipline_emaRun :
    let run := attemptRun emaEnv emaArgs (fun _ => .float32) emaLoaded emaAttempts
    run.history.state.backups .actor = some run.history.state.live ∧
      run.history.state.live () = 6 ∧ run.history.entries.length = 7 ∧
      (run.history.state.backups .emaTeacher).map (fun weights => weights ()) =
        some (9 / 2) := by
  have hok : (match loadAuxiliaryCheckpoints emaArgs (fun _ => .float32) emaCheckpoints
      emaStudent with
    | .ok _ _ => true
    | .error _ _ => false) = true := by decide +kernel
  have hload : loadAuxiliaryCheckpoints emaArgs (fun _ => .float32) emaCheckpoints
      emaStudent = .ok () emaLoaded := by
    unfold emaLoaded
    cases h : loadAuxiliaryCheckpoints emaArgs (fun _ => .float32) emaCheckpoints
        emaStudent with
    | ok u actor => rfl
    | error e actor => rw [h] at hok; cases hok
  have hends : (attemptRun emaEnv emaArgs (fun _ => .float32) emaLoaded
      emaAttempts).ends.all (fun attemptEnd =>
        match attemptEnd with
        | .raisedInUpdate _ => false
        | _ => true) = true := by decide +kernel
  have horderly : (attemptRun emaEnv emaArgs (fun _ => .float32) emaLoaded
      emaAttempts).Orderly := by
    intro error hmem
    have := List.all_eq_true.mp hends _ hmem
    cases this
  exact ⟨(weight_snapshot_discipline hload emaEnv emaAttempts horderly).2.2.1,
    by decide +kernel, by decide +kernel, by decide +kernel⟩

end Crisp.Proofs
