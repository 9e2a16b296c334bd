import Crisp.Ref.StudyRun

/-!
# Which updates of a study run are evaluated

Four predicates decide what happens after an update: the loop's save rule, the
cyclic filter of the save hook, the cadence of the enqueue and the job's
temporary flag. `Launched` is what an accepted launch fixes of the arguments
they read, and `saveModel_launched` is all a save can do under it; the run is
then an induction over the rollouts, in which the early exit of the loop and
the final step of the enqueue turn out to be one number.

The save rule is the only one that looks at the snapshot interval, so a
milestone off that cadence is not exported: the warm-up runs of the study ask
for exactly that. A cyclic run has interval one and exports nothing it does not
evaluate.
-/

namespace Crisp.Proofs

open Crisp.Lib Crisp.Ref

/-! ## What a launch fixes -/

/-- The arguments of an accepted launch with a queue and without recovery
checkpoints, as far as saving and enqueueing read them. -/
structure Launched (s : ScriptArgs) (args : Args) : Prop where
  numRollout : args.numRollout = s.numRollout.toNat
  positive : 1 ≤ s.numRollout
  interval : args.saveInterval = some s.snapshotInterval.toNat
  interval_pos : 1 ≤ s.snapshotInterval
  save : args.save = none
  saveHf : args.saveHf = some (s.outputDir ++ [s.runId, "eval-snapshots"])
  start : args.startRolloutId = some 0
  stop : args.debugExitAfterRollout = s.stopAfterRollout.map Int.toNat
  stop_range : ∀ stop ∈ s.stopAfterRollout, 1 ≤ stop ∧ stop ≤ s.numRollout
  queue : args.opsdEvalQueue.isSome = true
  retain : args.opsdRetainFinalEvalSnapshot = s.retainFinalSnapshot
  ema : args.opsdTeacherEmaDecay = s.teacherEmaDecay
  runId : args.wandbOpsdProfile = true → args.useWandb = true →
    args.wandbRunId.getD "" ≠ ""
  policy : args.opsdCyclicTeacherPolicy.isSome = s.cyclicTeacherPolicy.isSome
  cyclic : s.cyclicTeacherPolicy.isSome = true →
    args.opsdCyclicPiUpdates = s.cyclicPiUpdates.toNat ∧
    args.opsdCyclicOpdUpdates = s.cyclicOpdUpdates.toNat ∧
    1 ≤ s.cyclicPiUpdates ∧ 1 ≤ s.cyclicOpdUpdates ∧
    s.numRollout % (s.cyclicPiUpdates + s.cyclicOpdUpdates) = 0 ∧
    s.snapshotInterval = 1 ∧ s.stopAfterRollout = none

/-- The checks of `__post_init__` that bear on saving. -/
theorem postInit_eq_ok {s : ScriptArgs} (h : s.postInit = .ok ()) :
    1 ≤ s.numRollout ∧ (∀ stop ∈ s.stopAfterRollout, 1 ≤ stop ∧ stop ≤ s.numRollout) ∧
      1 ≤ s.snapshotInterval ∧
      ∀ policy, s.cyclicTeacherPolicy = some policy → s.validateCyclic policy = .ok () := by
  unfold ScriptArgs.postInit at h
  simp only [except_bind_eq_ok, check_eq_ok] at h
  obtain ⟨-, -, -, -, -, ⟨hnum, -, -⟩, -, hstop, -, -, -, -, -, ⟨hinterval, -⟩, -, -, hpolicy⟩ := h
  refine ⟨hnum, hstop, hinterval, fun policy hp => ?_⟩
  rw [hp] at hpolicy
  exact hpolicy

theorem validateCyclic_eq_ok {s : ScriptArgs} {policy : String}
    (h : s.validateCyclic policy = .ok ()) :
    1 ≤ s.cyclicPiUpdates ∧ 1 ≤ s.cyclicOpdUpdates ∧
      s.numRollout % (s.cyclicPiUpdates + s.cyclicOpdUpdates) = 0 ∧
      s.snapshotInterval = 1 ∧ s.stopAfterRollout = none := by
  unfold ScriptArgs.validateCyclic at h
  simp only [except_bind_eq_ok, check_eq_ok] at h
  obtain ⟨-, -, -, -, -, -, -, hphases, -, hcycles, -, -, -, -, -, -, -, ⟨-, -, hstop⟩,
    -, hinterval⟩ := h
  refine ⟨by omega, by omega, hcycles, hinterval, ?_⟩
  exact Option.isNone_iff_eq_none.mp hstop

theorem launched {s : ScriptArgs} {env : LaunchEnv} {args : Args}
    (hinit : s.postInit = .ok ()) (hqueue : s.evaluationQueue.isSome = true)
    (hsave : s.saveCheckpoints = false) (hexec : s.execute env = .ok args) :
    Launched s args := by
  obtain ⟨hnum, hstop, hinterval, hcyclic⟩ := postInit_eq_ok hinit
  unfold ScriptArgs.execute at hexec
  simp only [except_bind_eq_ok, check_eq_ok] at hexec
  obtain ⟨-, -, -, -, -, -, -, -, hargs⟩ := hexec
  rw [Except.ok.injEq] at hargs
  subst hargs
  refine
    { numRollout := rfl
      positive := hnum
      interval := by simp [hqueue]
      interval_pos := hinterval
      save := by simp [hsave]
      saveHf := by simp [ScriptArgs.saveHf, hqueue, hsave]
      start := rfl
      stop := rfl
      stop_range := hstop
      queue := hqueue
      retain := by simp [hqueue]
      ema := rfl
      runId := fun htracked _ => ?_
      policy := by simp
      cyclic := fun hsome => ?_ }
  · dsimp only at htracked ⊢
    rw [if_pos (by simpa using htracked)]
    exact env.wandbRunId_ne
  · obtain ⟨policy, hpolicy⟩ := Option.isSome_iff_exists.mp hsome
    have hchecked := validateCyclic_eq_ok (hcyclic policy hpolicy)
    exact ⟨if_pos hsome, if_pos hsome, hchecked⟩

theorem Launched.finalStep {s : ScriptArgs} {args : Args} (h : Launched s args) :
    args.finalStep = min args.numRollout ((s.stopAfterRollout.map Int.toNat).getD
      args.numRollout) := by
  unfold Args.finalStep
  rw [h.stop, h.start]
  cases s.stopAfterRollout with
  | none => simp
  | some stop => simp

theorem Launched.finalStep_pos {s : ScriptArgs} {args : Args} (h : Launched s args) :
    1 ≤ args.finalStep := by
  have hnum := h.numRollout
  have hpos := h.positive
  rw [h.finalStep]
  cases hs : s.stopAfterRollout with
  | none => simp only [Option.map_none, Option.getD_none]; omega
  | some stop =>
      have hstop := h.stop_range stop hs
      simp only [Option.map_some, Option.getD_some]
      omega

/-! ## What one save does -/

theorem evaluationSteps_eq_ok {updates : Int} (h : 1 ≤ updates) :
    ∃ steps, evaluationSteps updates = .ok steps := by
  unfold evaluationSteps
  rw [check_of (show 0 < updates by omega)]
  exact ⟨_, rfl⟩

theorem cyclicEvaluationSuites_eq_ok {completed planned pi opd : Nat}
    (hle : completed ≤ planned) (hcycle : pi + opd ≠ 0) :
    ∃ suites, cyclicEvaluationSuites completed planned pi opd = .ok suites := by
  unfold cyclicEvaluationSuites
  rw [check_of hle, check_of hcycle]
  exact ⟨_, rfl⟩

/-- An update that completes a phase has a suite. -/
theorem cyclicEvaluationSuites_endpoint {completed planned pi opd : Nat}
    {suites : List SuiteName} (h : cyclicEvaluationSuites completed planned pi opd = .ok suites)
    (hend : completed % (pi + opd) = 0 ∨ completed % (pi + opd) = pi) : suites ≠ [] := by
  unfold cyclicEvaluationSuites at h
  simp only [except_bind_eq_ok, check_eq_ok] at h
  obtain ⟨-, -, -, -, hsuites⟩ := h
  rw [Except.ok.injEq] at hsuites
  rw [← hsuites, if_pos hend]
  simp

/-- Where the export of an update goes. -/
def snapshotDir (s : ScriptArgs) (rolloutId : Nat) : Path :=
  s.outputDir ++ [s.runId, "eval-snapshots"] ++ ["step_" ++ toString rolloutId]

theorem Launched.hfCheckpointDir {s : ScriptArgs} {args : Args} (h : Launched s args)
    (rolloutId : Nat) : args.hfCheckpointDir rolloutId = some (snapshotDir s rolloutId) := by
  unfold Args.hfCheckpointDir snapshotDir
  rw [h.saveHf]
  rfl

/-- The job an accepted launch makes of an export. -/
theorem Launched.job {s : ScriptArgs} {args : Args} (h : Launched s args)
    (rolloutId : Nat) (suites : List SuiteName) (checkpoint : Path) (digest : String) :
    ∃ call, evaluationJob args rolloutId suites checkpoint digest = .ok call ∧
      call.job.completedUpdates = rolloutId + 1 ∧ call.job.checkpoint = checkpoint ∧
      call.job.checkpointSha256 = digest ∧ call.job.evaluationSuites = suites ∧
      (call.job.temporarySnapshot = false ↔
        rolloutId + 1 = args.finalStep ∧ s.retainFinalSnapshot = true) := by
  have htracked : ¬ ((args.wandbOpsdProfile && args.useWandb) = true ∧
      args.wandbRunId.getD "" = "") := by
    rintro ⟨hboth, hempty⟩
    rw [Bool.and_eq_true] at hboth
    exact h.runId hboth.1 hboth.2 hempty
  unfold evaluationJob
  simp only [check_of htracked, except_ok_bind]
  refine ⟨_, rfl, rfl, rfl, rfl, rfl, ?_⟩
  simp [h.save, h.retain]

/-- The suites of an update in range, and for a cyclic run also what its save
hook asks. -/
theorem Launched.suites {s : ScriptArgs} {args : Args} (h : Launched s args)
    {rolloutId : Nat} (hr : rolloutId < args.numRollout) :
    ∃ suites, evaluationSuites args (rolloutId + 1) = .ok suites ∧
      (s.cyclicTeacherPolicy.isSome = true →
        cyclicEvaluationSuites (rolloutId + 1) args.numRollout args.opsdCyclicPiUpdates
          args.opsdCyclicOpdUpdates = .ok suites) := by
  have hpositive : (1 : Int) ≤ args.numRollout := by omega
  obtain ⟨steps, hsteps⟩ := evaluationSteps_eq_ok hpositive
  unfold evaluationSuites
  simp only [hsteps, except_ok_bind, ← h.policy]
  cases hpolicy : args.opsdCyclicTeacherPolicy with
  | none => exact ⟨_, rfl, fun hsome => by simp at hsome⟩
  | some policy =>
      have hsome : s.cyclicTeacherPolicy.isSome = true := by rw [← h.policy, hpolicy]; rfl
      obtain ⟨hpi, hopd, hpi1, hopd1, -⟩ := h.cyclic hsome
      obtain ⟨suites, hsuites⟩ := cyclicEvaluationSuites_eq_ok
        (show rolloutId + 1 ≤ args.numRollout by omega)
        (show args.opsdCyclicPiUpdates + args.opsdCyclicOpdUpdates ≠ 0 by omega)
      exact ⟨suites, hsuites, fun _ => hsuites⟩

/-- All a save does under a launch: nothing where the cyclic filter stops it,
otherwise one export, the EMA state that belongs to it, and a job where the
update has suites. -/
theorem saveModel_launched {s : ScriptArgs} {args : Args} (h : Launched s args)
    {rolloutId : Nat} (hr : rolloutId < args.numRollout) {suites : List SuiteName}
    (hsuites : evaluationSuites args (rolloutId + 1) = .ok suites) (digest : String) :
    ∃ calls : Option Enqueue,
      (calls = none ↔ suites = []) ∧
      (∀ call ∈ calls,
        evaluationJob args rolloutId suites (snapshotDir s rolloutId) digest = .ok call) ∧
      saveModel args digest rolloutId = .ok
        (if s.cyclicTeacherPolicy.isSome = true ∧ suites = [] then []
        else
          [.exported (snapshotDir s rolloutId)] ++
            (if args.savesEmaSource rolloutId then
              [.emaSource (snapshotDir s rolloutId) digest] else []) ++
            calls.toList.map .enqueued) := by
  obtain ⟨suites', hsuites', hcyclic⟩ := h.suites hr
  obtain rfl : suites = suites' := by rw [hsuites] at hsuites'; exact Except.ok.inj hsuites'
  obtain ⟨call, hcall, -⟩ := h.job rolloutId suites (snapshotDir s rolloutId) digest
  have hskipped : skipsSave args rolloutId =
      .ok (decide (s.cyclicTeacherPolicy.isSome = true ∧ suites = [])) := by
    unfold skipsSave
    cases hpolicy : args.opsdCyclicTeacherPolicy with
    | none => simp [← h.policy, hpolicy]
    | some policy =>
        have hsome : s.cyclicTeacherPolicy.isSome = true := by rw [← h.policy, hpolicy]; rfl
        simp [hcyclic hsome, hsome]
  have hstart : startEnqueue args
      (exportedSnapshot digest (some (snapshotDir s rolloutId))) rolloutId
      (some (snapshotDir s rolloutId)) =
      .ok (if suites = [] then none else some call) := by
    unfold startEnqueue
    rw [hsuites, except_ok_bind]
    split
    · rfl
    · simp [check_of h.queue, exportedSnapshot, checkpointDigest, hcall]
  have hqueue : args.opsdEvalQueue ≠ none := Option.isSome_iff_ne_none.mp h.queue
  refine ⟨if suites = [] then none else some call, by split <;> simp [*], ?_, ?_⟩
  · intro c hc
    split at hc
    · cases hc
    · obtain rfl : call = c := by simpa using hc
      exact hcall
  · unfold saveModel
    rw [hskipped, except_ok_bind]
    simp only [decide_eq_true_eq]
    split
    · rfl
    · simp only [h.hfCheckpointDir, hstart, h.save, except_ok_bind]
      simp [hqueue]

/-! ## The run -/

/-- The save cadence: multiples of the snapshot interval, ends of epochs and
the last planned update. -/
def OnCadence (s : ScriptArgs) (run : RunEnv) (update : Nat) : Prop :=
  update % s.snapshotInterval.toNat = 0 ∨
    (∃ perEpoch ∈ run.numRolloutPerEpoch, update % perEpoch = 0) ∨
    update = s.numRollout.toNat

theorem shouldRunPeriodicAction_launched {s : ScriptArgs} {args : Args} {run : RunEnv}
    (h : Launched s args) (hepoch : ∀ perEpoch ∈ run.numRolloutPerEpoch, 0 < perEpoch)
    (rolloutId : Nat) :
    ∃ due, shouldRunPeriodicAction rolloutId args.saveInterval run.numRolloutPerEpoch
        (some args.numRollout) = .ok due ∧
      (due = true ↔ OnCadence s run (rolloutId + 1)) := by
  have hinterval := h.interval_pos
  unfold shouldRunPeriodicAction OnCadence
  rw [h.interval]
  simp only [Option.any_some, decide_eq_true_eq, h.numRollout,
    check_of (show s.snapshotInterval.toNat ≠ 0 by omega), except_ok_bind]
  split
  · next hlast => exact ⟨true, rfl, by simp [hlast]⟩
  · next hlast =>
      split
      · next hmultiple => exact ⟨true, rfl, by simp [hmultiple]⟩
      · next hmultiple =>
          cases hper : run.numRolloutPerEpoch with
          | none => exact ⟨false, rfl, by simp [hmultiple, hlast]⟩
          | some perEpoch =>
              have hne : perEpoch ≠ 0 := Nat.pos_iff_ne_zero.mp (hepoch perEpoch (by simp [hper]))
              refine ⟨decide ((rolloutId + 1) % perEpoch = 0), ?_, ?_⟩
              · simp only [check_of hne, except_ok_bind]
              · simp [hmultiple, hlast]

/-- The loop runs every rollout up to the one it exits after. -/
theorem trainLoop_range {args : Args} {run : RunEnv} {effects : Nat → List SaveEffect}
    {last : Nat} (hexits : ∀ r, args.exitsAfter r = true → last ≤ r + 1) :
    ∀ n a, a + n = last →
      (∀ r, a ≤ r → r < last → saveIfPeriodic args run r = .ok (effects r)) →
      ∀ rest, (rest = [] ∨ args.exitsAfter (last - 1) = true ∧ n ≠ 0) →
      trainLoop args run (List.range' a n ++ rest) =
        .ok ((List.range' a n).map fun r => ⟨r, effects r⟩) := by
  intro n
  induction n with
  | zero =>
      intro a _ _ rest hrest
      rcases hrest with rfl | ⟨-, hne⟩
      · rfl
      · exact absurd rfl hne
  | succ n ih =>
      intro a ha hsaves rest hrest
      rw [List.range'_succ, List.cons_append, trainLoop, hsaves a (Nat.le_refl a) (by omega),
        except_ok_bind]
      by_cases hexit : args.exitsAfter a = true
      · have hlast := hexits a hexit
        obtain rfl : n = 0 := by omega
        rw [if_pos hexit]
        rfl
      · rw [if_neg hexit]
        have hrest' : rest = [] ∨ args.exitsAfter (last - 1) = true ∧ n ≠ 0 := by
          rcases hrest with hnil | ⟨hexits', -⟩
          · exact Or.inl hnil
          · refine Or.inr ⟨hexits', ?_⟩
            rintro rfl
            rw [show last - 1 = a by omega] at hexits'
            exact hexit hexits'
        rw [ih (a + 1) (by omega) (fun r hr hlt => hsaves r (by omega) hlt) rest hrest']
        rfl

/-- The last update a run executes. -/
def lastUpdate (s : ScriptArgs) : Nat :=
  (min s.numRollout (s.stopAfterRollout.getD s.numRollout)).toNat

/-- The loop's last update is the one the enqueue takes for final. -/
theorem Launched.finalStep_eq {s : ScriptArgs} {args : Args} (h : Launched s args) :
    args.finalStep = lastUpdate s := by
  have hnum := h.numRollout
  rw [h.finalStep, lastUpdate]
  cases s.stopAfterRollout with
  | none => simp only [Option.map_none, Option.getD_none]; omega
  | some stop => simp only [Option.map_some, Option.getD_some]; omega

theorem Launched.exitsAfter {s : ScriptArgs} {args : Args} (h : Launched s args)
    {rolloutId : Nat} :
    args.exitsAfter rolloutId = true ↔
      ∃ stop ∈ s.stopAfterRollout, stop.toNat ≤ rolloutId + 1 := by
  unfold Args.exitsAfter
  rw [h.stop, h.start]
  cases s.stopAfterRollout with
  | none => simp
  | some stop => simp

/-- A run whose saves all return executes its updates up to the last one. -/
theorem train_launched {s : ScriptArgs} {args : Args} {run : RunEnv}
    (h : Launched s args) {effects : Nat → List SaveEffect}
    (hsaves : ∀ r, r < args.numRollout → saveIfPeriodic args run r = .ok (effects r)) :
    Driver.train args run =
      .ok ((List.range' 0 args.finalStep).map fun r => ⟨r, effects r⟩) := by
  have hle : args.finalStep ≤ args.numRollout := by rw [h.finalStep]; exact Nat.min_le_left ..
  have hpos := h.finalStep_pos
  have hexits : ∀ r, args.exitsAfter r = true → args.finalStep ≤ r + 1 := by
    intro r hr
    obtain ⟨stop, hstop, hreached⟩ := h.exitsAfter.mp hr
    rw [h.finalStep, Option.mem_def.mp hstop, Option.map_some, Option.getD_some]
    omega
  have hsplit : List.range' 0 (args.numRollout - 0) =
      List.range' 0 args.finalStep ++
        List.range' args.finalStep (args.numRollout - args.finalStep) := by
    have happend := @List.range'_append_1 0 args.finalStep (args.numRollout - args.finalStep)
    rw [Nat.zero_add] at happend
    rw [happend]
    congr 1
    omega
  unfold Driver.train
  rw [h.start, Option.getD_some]
  dsimp only
  rw [hsplit]
  refine trainLoop_range hexits args.finalStep 0 (by omega)
    (fun r _ hr => hsaves r (by omega)) _ ?_
  by_cases hend : args.finalStep = args.numRollout
  · exact Or.inl (by rw [hend, Nat.sub_self]; rfl)
  · refine Or.inr ⟨?_, by omega⟩
    rw [h.exitsAfter]
    rw [h.finalStep] at hend ⊢
    cases hs : s.stopAfterRollout with
    | none => rw [hs] at hend; simp at hend
    | some stop =>
        have hstop := h.stop_range stop hs
        rw [hs] at hend
        simp only [Option.map_some, Option.getD_some] at hend ⊢
        exact ⟨stop, rfl, by omega⟩

/-! ## Coverage -/

/-- What is to be evaluated of a run: the percentage milestones of the plan, or
the phase endpoints and benchmark steps of a cyclic one, and the last executed
update. -/
def Milestone (s : ScriptArgs) (update : Nat) : Prop :=
  update = lastUpdate s ∨
    match s.cyclicTeacherPolicy with
    | none => ∃ steps, evaluationSteps s.numRollout = .ok steps ∧ update ∈ steps
    | some _ => ∃ suites, cyclicEvaluationSuites update s.numRollout.toNat
        s.cyclicPiUpdates.toNat s.cyclicOpdUpdates.toNat = .ok suites ∧ suites ≠ []

/-- The update's save enqueued a job of its own for what is at the path. -/
def Owned (u : Update) (path : Path) : Prop :=
  ∃ call, .enqueued call ∈ u.effects ∧
    call.job.completedUpdates = u.completedUpdates ∧ call.job.checkpoint = path

/-- A milestone is an update with a suite: the enqueue's cadence and the save
hook's filter ask the same. -/
theorem suites_ne_nil_iff {s : ScriptArgs} {args : Args} (h : Launched s args)
    {rolloutId : Nat} {suites : List SuiteName}
    (hsuites : evaluationSuites args (rolloutId + 1) = .ok suites) :
    suites ≠ [] ↔ Milestone s (rolloutId + 1) := by
  have hnum : (args.numRollout : Int) = s.numRollout := by
    have := h.positive
    rw [h.numRollout]
    omega
  obtain ⟨steps, hsteps⟩ := evaluationSteps_eq_ok h.positive
  unfold evaluationSuites at hsuites
  rw [hnum, hsteps, except_ok_bind] at hsuites
  unfold Milestone
  rw [← h.finalStep_eq]
  cases hpolicy : s.cyclicTeacherPolicy with
  | none =>
      have hnone : args.opsdCyclicTeacherPolicy = none := by
        rw [← Option.isNone_iff_eq_none, ← Option.not_isSome, h.policy, hpolicy]
        rfl
      rw [hnone] at hsuites
      rw [← Except.ok.inj hsuites]
      simp only [hsteps, Except.ok.injEq]
      by_cases hstep : rolloutId + 1 ∈ steps ∨ rolloutId + 1 = args.finalStep
      · rw [if_pos hstep]
        simp only [ne_eq, List.cons_ne_nil, not_false_eq_true, true_iff]
        rcases hstep with hmem | hfinal
        · exact Or.inr ⟨steps, rfl, hmem⟩
        · exact Or.inl hfinal
      · rw [if_neg hstep]
        simp only [ne_eq, not_true_eq_false, false_iff]
        rintro (hfinal | ⟨steps', rfl, hmem⟩)
        · exact hstep (Or.inr hfinal)
        · exact hstep (Or.inl hmem)
  | some policy =>
      have hsome : s.cyclicTeacherPolicy.isSome = true := by rw [hpolicy]; rfl
      obtain ⟨hpi, hopd, hpi1, hopd1, hcycles, -, hstop⟩ := h.cyclic hsome
      obtain ⟨policy', hpolicy'⟩ : ∃ p, args.opsdCyclicTeacherPolicy = some p :=
        Option.isSome_iff_exists.mp (by rw [h.policy, hsome])
      rw [hpolicy'] at hsuites
      rw [← h.numRollout, ← hpi, ← hopd]
      dsimp only at hsuites ⊢
      rw [hsuites]
      constructor
      · exact fun hne => Or.inr ⟨suites, rfl, hne⟩
      · rintro (hfinal | ⟨suites', hsame, hne⟩)
        · refine cyclicEvaluationSuites_endpoint hsuites (Or.inl ?_)
          rw [hfinal, h.finalStep, hstop]
          simp only [Option.map_none, Option.getD_none, Nat.min_self]
          rw [hpi, hopd]
          have hcast : ((args.numRollout %
              (s.cyclicPiUpdates.toNat + s.cyclicOpdUpdates.toNat) : Nat) : Int) = 0 := by
            rw [Int.natCast_emod, Int.natCast_add, hnum, Int.toNat_of_nonneg (by omega),
              Int.toNat_of_nonneg (by omega)]
            exact hcycles
          exact Int.natCast_eq_zero.mp hcast
        · rw [Except.ok.inj hsame]
          exact hne

/-- What a launched run leaves of one update. -/
structure UpdateSpec (s : ScriptArgs) (run : RunEnv) (u : Update) : Prop where
  exported : ∀ path, .exported path ∈ u.effects ↔
    path = snapshotDir s u.rolloutId ∧ OnCadence s run u.completedUpdates ∧
      (s.cyclicTeacherPolicy.isSome = true → Milestone s u.completedUpdates)
  enqueued : (∃ call, .enqueued call ∈ u.effects) ↔
    OnCadence s run u.completedUpdates ∧ Milestone s u.completedUpdates
  job : ∀ call, .enqueued call ∈ u.effects →
    call.job.completedUpdates = u.completedUpdates ∧
    call.job.checkpoint = snapshotDir s u.rolloutId ∧
    call.job.checkpointSha256 = run.digest u.rolloutId ∧
    (call.job.temporarySnapshot = false ↔
      u.completedUpdates = lastUpdate s ∧ s.retainFinalSnapshot = true)
  emaSource : ∀ path sha, .emaSource path sha ∈ u.effects ↔
    .exported path ∈ u.effects ∧ sha = run.digest u.rolloutId ∧
      s.teacherEmaDecay.isSome = true ∧ s.retainFinalSnapshot = true ∧
      u.completedUpdates = s.numRollout.toNat

theorem Launched.savesEmaSource {s : ScriptArgs} {args : Args} (h : Launched s args)
    (rolloutId : Nat) :
    args.savesEmaSource rolloutId = true ↔
      s.teacherEmaDecay.isSome = true ∧ s.retainFinalSnapshot = true ∧
        rolloutId + 1 = s.numRollout.toNat := by
  unfold Args.savesEmaSource
  simp only [Bool.and_eq_true, decide_eq_true_eq, h.ema, h.retain, h.numRollout, and_assoc]

theorem saveIfPeriodic_launched {s : ScriptArgs} {args : Args} {run : RunEnv}
    (h : Launched s args) (hepoch : ∀ perEpoch ∈ run.numRolloutPerEpoch, 0 < perEpoch)
    {rolloutId : Nat} (hr : rolloutId < args.numRollout) :
    ∃ effects, saveIfPeriodic args run rolloutId = .ok effects ∧
      UpdateSpec s run ⟨rolloutId, effects⟩ := by
  obtain ⟨due, hdue, hcadence⟩ := shouldRunPeriodicAction_launched h hepoch rolloutId
  obtain ⟨suites, hsuites, -⟩ := h.suites hr
  have hmilestone := suites_ne_nil_iff h hsuites
  obtain ⟨calls, hcalls, hjob, hsave⟩ := saveModel_launched h hr hsuites (run.digest rolloutId)
  have hema := h.savesEmaSource rolloutId
  unfold saveIfPeriodic
  rw [hdue, except_ok_bind]
  cases due with
  | false =>
      have hoff : ¬ OnCadence s run (rolloutId + 1) := fun hon => by simpa using hcadence.mpr hon
      refine ⟨[], rfl, ?_⟩
      exact
        { exported := fun path => by simp [Update.completedUpdates, hoff]
          enqueued := by simp [Update.completedUpdates, hoff]
          job := fun call hcall => by simp at hcall
          emaSource := fun path sha => by simp }
  | true =>
      have hon : OnCadence s run (rolloutId + 1) := hcadence.mp rfl
      refine ⟨_, by rw [if_pos rfl, hsave], ?_⟩
      by_cases hfiltered : s.cyclicTeacherPolicy.isSome = true ∧ suites = []
      · have hnot : ¬ Milestone s (rolloutId + 1) := fun hm => hmilestone.mpr hm hfiltered.2
        rw [if_pos hfiltered]
        exact
          { exported := fun path => by simp [Update.completedUpdates, hnot, hfiltered.1]
            enqueued := by simp [Update.completedUpdates, hnot]
            job := fun call hcall => by simp at hcall
            emaSource := fun path sha => by simp }
      · have hexports : s.cyclicTeacherPolicy.isSome = true → Milestone s (rolloutId + 1) :=
          fun hsome => hmilestone.mp fun hnil => hfiltered ⟨hsome, hnil⟩
        rw [if_neg hfiltered]
        exact
          { exported := fun path => by
              simp only [List.mem_append, List.mem_singleton, List.mem_ite_nil_right,
                List.mem_map, SaveEffect.exported.injEq, reduceCtorEq, and_false, exists_false,
                or_false, Update.completedUpdates]
              exact ⟨fun hpath => ⟨hpath, hon, hexports⟩, fun hpath => hpath.1⟩
            enqueued := by
              rw [Update.completedUpdates, ← hmilestone, ne_eq, ← hcalls]
              cases calls with
              | none => simp
              | some call => simp [hon]
            job := fun call hcall => by
              have hmem : call ∈ calls := by simpa using hcall
              obtain ⟨call', hcall', hspec⟩ :=
                h.job rolloutId suites (snapshotDir s rolloutId) (run.digest rolloutId)
              obtain rfl : call = call' := by
                rw [hjob call hmem] at hcall'
                exact Except.ok.inj hcall'
              rw [← h.finalStep_eq]
              exact ⟨hspec.1, hspec.2.1, hspec.2.2.1, hspec.2.2.2.2⟩
            emaSource := fun path sha => by
              rw [Update.completedUpdates, ← hema]
              by_cases hsaves : args.savesEmaSource rolloutId = true
              · simp [hsaves]
              · simp [hsaves] }

/-- Under a launch a run returns, executes its updates in order up to the last
one, and leaves of each what its cadence and its suites ask for. -/
theorem train_spec {s : ScriptArgs} {args : Args} {run : RunEnv} (h : Launched s args)
    (hepoch : ∀ perEpoch ∈ run.numRolloutPerEpoch, 0 < perEpoch) :
    ∃ updates, Driver.train args run = .ok updates ∧
      updates.map Update.completedUpdates = List.range' 1 (lastUpdate s) ∧
      ∀ u ∈ updates, UpdateSpec s run u := by
  have hsaves : ∀ r, ∃ effects, r < args.numRollout →
      saveIfPeriodic args run r = .ok effects ∧ UpdateSpec s run ⟨r, effects⟩ := by
    intro r
    by_cases hr : r < args.numRollout
    · obtain ⟨effects, hok, hspec⟩ := saveIfPeriodic_launched h hepoch hr
      exact ⟨effects, fun _ => ⟨hok, hspec⟩⟩
    · exact ⟨[], fun hlt => absurd hlt hr⟩
  choose effects hsaves using hsaves
  have hle : args.finalStep ≤ args.numRollout := by rw [h.finalStep]; exact Nat.min_le_left ..
  refine ⟨_, train_launched h fun r hr => (hsaves r hr).1, ?_, ?_⟩
  · rw [List.map_map, h.finalStep_eq]
    rw [show 1 = 1 + 0 from rfl, ← List.map_add_range']
    exact List.map_congr_left fun r _ => Nat.add_comm r 1
  · intro u hu
    obtain ⟨r, hr, rfl⟩ := List.mem_map.mp hu
    have hlt : r < args.numRollout := by
      have := (List.mem_range'_1.mp hr).2
      omega
    exact (hsaves r hlt).2

/-- What the study is to guarantee of a run: every milestone is exported and
evaluated, and every temporary export belongs to a job. -/
def EvaluationCovered (s : ScriptArgs) (updates : List Update) : Prop :=
  ∀ u ∈ updates,
    (Milestone s u.completedUpdates →
      ∃ path, .exported path ∈ u.effects ∧ Owned u path) ∧
    ∀ path, .exported path ∈ u.effects → pathName (pathParent path) = "eval-snapshots" →
      Owned u path

theorem UpdateSpec.owned {s : ScriptArgs} {run : RunEnv} {u : Update}
    (h : UpdateSpec s run u) (hon : OnCadence s run u.completedUpdates)
    (hmilestone : Milestone s u.completedUpdates) : Owned u (snapshotDir s u.rolloutId) := by
  obtain ⟨call, hcall⟩ := h.enqueued.mpr ⟨hon, hmilestone⟩
  obtain ⟨hstep, hpath, -⟩ := h.job call hcall
  exact ⟨call, hcall, hstep, hpath⟩

/-- Every milestone on the save cadence is exported and evaluated; an export is
owned by a job where its update is a milestone, and in a cyclic run always; and
the one snapshot that is not temporary is the last update's. -/
theorem evaluation_coverage {s : ScriptArgs} {env : LaunchEnv} {args : Args} {run : RunEnv}
    (hinit : s.postInit = .ok ()) (hqueue : s.evaluationQueue.isSome = true)
    (hsave : s.saveCheckpoints = false) (hexec : s.execute env = .ok args)
    (hepoch : ∀ perEpoch ∈ run.numRolloutPerEpoch, 0 < perEpoch) :
    ∃ updates, Driver.train args run = .ok updates ∧
      updates.map Update.completedUpdates = List.range' 1 (lastUpdate s) ∧
      (s.cyclicTeacherPolicy.isSome = true → EvaluationCovered s updates) ∧
      ∀ u ∈ updates,
        (Milestone s u.completedUpdates → OnCadence s run u.completedUpdates →
          ∃ path, .exported path ∈ u.effects ∧ Owned u path) ∧
        (∀ path, .exported path ∈ u.effects → Milestone s u.completedUpdates →
          Owned u path) ∧
        ∀ call, .enqueued call ∈ u.effects →
          .exported call.job.checkpoint ∈ u.effects ∧
          (call.job.temporarySnapshot = false ↔
            u.completedUpdates = lastUpdate s ∧ s.retainFinalSnapshot = true) := by
  have h := launched hinit hqueue hsave hexec
  obtain ⟨updates, htrain, hsteps, hspec⟩ := train_spec h hepoch
  have hexports : ∀ u ∈ updates, Milestone s u.completedUpdates →
      OnCadence s run u.completedUpdates →
      .exported (snapshotDir s u.rolloutId) ∈ u.effects := fun u hu hmilestone hon =>
    ((hspec u hu).exported _).mpr ⟨rfl, hon, fun _ => hmilestone⟩
  have howned : ∀ u ∈ updates, ∀ path, .exported path ∈ u.effects →
      Milestone s u.completedUpdates → Owned u path := by
    intro u hu path hpath hmilestone
    obtain ⟨rfl, hon, -⟩ := ((hspec u hu).exported path).mp hpath
    exact (hspec u hu).owned hon hmilestone
  refine ⟨updates, htrain, hsteps, fun hsome u hu => ⟨fun hmilestone => ?_, ?_⟩,
    fun u hu => ⟨fun hmilestone hon => ?_, howned u hu, fun call hcall => ?_⟩⟩
  · -- A cyclic run saves at interval one.
    have hon : OnCadence s run u.completedUpdates := by
      obtain ⟨-, -, -, -, -, hinterval, -⟩ := h.cyclic hsome
      exact Or.inl (by rw [hinterval]; exact Nat.mod_one _)
    exact ⟨_, hexports u hu hmilestone hon, (hspec u hu).owned hon hmilestone⟩
  · intro path hpath _
    exact howned u hu path hpath ((((hspec u hu).exported path).mp hpath).2.2 hsome)
  · exact ⟨_, hexports u hu hmilestone hon, (hspec u hu).owned hon hmilestone⟩
  · obtain ⟨hon, hmilestone⟩ := (hspec u hu).enqueued.mp ⟨call, hcall⟩
    obtain ⟨-, hpath, -, htemporary⟩ := (hspec u hu).job call hcall
    rw [hpath]
    exact ⟨hexports u hu hmilestone hon, htemporary⟩

/-- A study that its launcher accepts, for what is said at fixed inputs. -/
def plainStudy (numRollout snapshotInterval : Int) : ScriptArgs :=
  { runId := "run"
    numRollout
    snapshotInterval
    evaluationQueue := some ["queue"] }

def untrackedLaunch : LaunchEnv :=
  { externalRay := true
    wandbProject := ""
    wandbEntity := ""
    wandbRunId := "offline"
    wandbRunId_ne := by decide
    vocabSize := 8 }

def countedRun : RunEnv := { numRolloutPerEpoch := none, digest := fun _ => "weights" }

/-- A study that stops early, at interval one, evaluates every update. -/
theorem evaluation_coverage_earlyStop :
    ∃ args updates,
      ({ plainStudy 7 1 with stopAfterRollout := some 5 } : ScriptArgs).execute
        untrackedLaunch = .ok args ∧
      Driver.train args countedRun = .ok updates ∧
      updates.map Update.completedUpdates = [1, 2, 3, 4, 5] ∧
      ∀ u ∈ updates, Milestone { plainStudy 7 1 with stopAfterRollout := some 5 }
          u.completedUpdates →
        ∃ path, .exported path ∈ u.effects ∧ Owned u path := by
  obtain ⟨updates, htrain, hsteps, -, hall⟩ := @evaluation_coverage
    { plainStudy 7 1 with stopAfterRollout := some 5 } untrackedLaunch _ countedRun
    (by decide +kernel) rfl rfl rfl (fun _ h => by cases h)
  exact ⟨_, updates, rfl, htrain, hsteps,
    fun u hu hmilestone => (hall u hu).1 hmilestone (Or.inl (Nat.mod_one _))⟩

/-- The warm-up of the study plans seven updates, each of them a percentage
milestone, and exports only the seventh. -/
theorem evaluation_coverage_warmUp :
    ¬ ∀ (s : ScriptArgs) (env : LaunchEnv) (args : Args) (run : RunEnv)
        (updates : List Update),
      s.postInit = .ok () → s.evaluationQueue.isSome = true → s.saveCheckpoints = false →
      s.execute env = .ok args → (∀ perEpoch ∈ run.numRolloutPerEpoch, 0 < perEpoch) →
      Driver.train args run = .ok updates → EvaluationCovered s updates := by
  intro hclaim
  have hinit : (plainStudy 7 7).postInit = .ok () := by decide +kernel
  have hepoch : ∀ perEpoch ∈ countedRun.numRolloutPerEpoch, 0 < perEpoch :=
    fun _ h => by cases h
  have hlaunched : Launched (plainStudy 7 7) _ :=
    @launched (plainStudy 7 7) untrackedLaunch _ hinit rfl rfl rfl
  obtain ⟨updates, htrain, hsteps, hspec⟩ := train_spec hlaunched hepoch
  have hcovered := hclaim (plainStudy 7 7) untrackedLaunch _ countedRun updates hinit rfl rfl
    rfl hepoch htrain
  obtain ⟨u, hu, hfirst⟩ : ∃ u ∈ updates, u.completedUpdates = 1 := by
    have hmem : 1 ∈ updates.map Update.completedUpdates := by rw [hsteps]; decide
    exact List.mem_map.mp hmem
  have hmilestone : Milestone (plainStudy 7 7) u.completedUpdates := by
    rw [hfirst]
    exact Or.inr ⟨[1, 2, 3, 4, 5, 6, 7], by decide, by decide⟩
  obtain ⟨path, hpath, -⟩ := (hcovered u hu).1 hmilestone
  have hon := (((hspec u hu).exported path).mp hpath).2.1
  rw [hfirst] at hon
  rcases hon with hmultiple | ⟨perEpoch, hper, -⟩ | hlast
  · revert hmultiple
    decide
  · cases hper
  · revert hlast
    decide

end Crisp.Proofs
