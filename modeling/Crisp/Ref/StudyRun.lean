import Crisp.Ref.EvaluationQueue

/-!
# A study run, from its launcher to its exports

The launcher checks its own arguments and turns them into the trainer's. The
trainer's loop decides after every update whether to save, the save hook of a
cyclic run decides once more, and what is enqueued is decided a third time. A
run is the list of updates it executed, each with what its save did.

Every export of the study is a full checkpoint: an export that fails raises, so
one that returned left its completion marker.
-/

namespace Crisp.Ref

open Crisp.Lib

/-! ## The launcher -/

/-- `ScriptArgs`. -/
structure ScriptArgs where
  runId : String
  modelName : String := "Qwen3-4B"
  task : String := "math"
  teacherEmaDecay : Option ℚ := none
  emaSource : Option Path := none
  cyclicTeacherPolicy : Option String := none
  cyclicPiUpdates : Int := 7
  cyclicOpdUpdates : Int := 4
  cyclicOptimizerPolicy : String := "reset_each_phase"
  cyclicLrSchedule : String := "constant"
  outputDir : Path := ["/root", "shared_data"]
  numNodes : Int := 1
  numGpusPerNode : Int := 2
  numRollout : Int := 2
  stopAfterRollout : Option Int := none
  microBatchSize : Int := 1
  context : String := "worked"
  target : String := "frozen"
  replayPath : Option String := none
  captureFullUpdate : Bool := false
  evaluationQueue : Option Path := none
  saveCheckpoints : Bool := false
  snapshotInterval : Int := 1
  retainFinalSnapshot : Bool := false

/-- `_validate_cyclic`. -/
def ScriptArgs.validateCyclic (args : ScriptArgs) (policy : String) :
    Except PyError Unit := do
  check (policy ∈ ["fixed_original", "cycle_refresh"])
    (valueError "Unknown cyclic teacher policy")
  check (args.cyclicOptimizerPolicy ∈ ["reset_each_phase", "carry"])
    (valueError "Unknown cyclic optimizer policy")
  check (args.cyclicLrSchedule ∈ ["constant", "global_linear"])
    (valueError "Unknown cyclic LR schedule")
  check (¬ min args.cyclicPiUpdates args.cyclicOpdUpdates < 1)
    (valueError "Cyclic phase lengths must be positive")
  check (args.numRollout % (args.cyclicPiUpdates + args.cyclicOpdUpdates) = 0)
    (valueError "A cyclic job must end after a complete PI/OPD cycle")
  check (args.modelName ∈ ["Qwen3-4B", "Qwen3-8B"] ∧ args.task = "math")
    (valueError "The cyclic screen supports 4B/8B math only")
  check (args.context = "worked" ∧ args.target = "frozen" ∧ args.microBatchSize = 1)
    (valueError
      "Cyclic training requires worked/frozen launch context and microbatch one")
  check (args.teacherEmaDecay.isNone ∧ args.emaSource.isNone ∧ args.replayPath.isNone)
    (valueError "Cyclic training cannot combine EMA or replay")
  check (args.saveCheckpoints = false ∧ args.retainFinalSnapshot = false ∧
      args.stopAfterRollout.isNone)
    (valueError
      "Cyclic jobs require complete cycles and temporary evaluation snapshots only")
  check (args.evaluationQueue.isSome ∧ args.snapshotInterval = 1)
    (valueError
      "Cyclic evaluation requires its queue and the per-update snapshot decision")

/-- `__post_init__`. -/
def ScriptArgs.postInit (args : ScriptArgs) : Except PyError Unit := do
  check (args.modelName ∈ ["Qwen3-1.7B", "Qwen3-4B", "Qwen3-8B"] ∧
      args.task ∈ ["math", "code"])
    (valueError "Use a supported Qwen3 model and math/code task")
  check (args.numNodes = 1 ∧ args.numGpusPerNode = 2)
    (valueError "Study training requires one TP2/DP1 actor per node")
  let limit : Int := if args.cyclicTeacherPolicy.isSome then 88 else 64
  check (1 ≤ args.numRollout ∧ args.numRollout ≤ limit ∧
      args.microBatchSize ∈ [1, 2, 4])
    (valueError s!"Use 1–{limit} updates and microbatch 1, 2 or 4 with effective batch four")
  check (∀ stop ∈ args.stopAfterRollout, 1 ≤ stop ∧ stop ≤ args.numRollout)
    (valueError "Early stopping must be within the planned optimizer updates")
  check (args.context ∈ ["none", "answer", "worked", "unrelated", "empty"])
    (valueError "Unknown study context")
  check (args.target ∈ ["frozen", "current", "transported"])
    (valueError "Unknown study target")
  check (1 ≤ args.snapshotInterval ∧ args.snapshotInterval ≤ args.numRollout)
    (valueError "Snapshot interval must fit the planned updates")
  check (¬ (args.retainFinalSnapshot = true ∧ args.evaluationQueue.isNone = true))
    (valueError "Retaining a paired source requires its evaluation queue")
  match args.cyclicTeacherPolicy with
  | some policy => args.validateCyclic policy
  | none =>
      check (args.cyclicOptimizerPolicy = "reset_each_phase" ∧
          args.cyclicLrSchedule = "constant")
        (valueError "Cyclic optimizer/LR policies require a cyclic teacher policy")

/-- What a launch finds around it. The tracking service names a run. -/
structure LaunchEnv where
  externalRay : Bool
  wandbProject : String
  wandbEntity : String
  wandbRunId : String
  wandbRunId_ne : wandbRunId ≠ ""
  vocabSize : Nat

/-- `--opsd-context` and `--opsd-target`, as the trainer's parser reads them. -/
def parseContext : String → Context
  | "none" => .none
  | "answer" => .answer
  | "worked" => .worked
  | "unrelated" => .unrelated
  | "empty" => .empty
  | _ => .original

def parseTarget : String → TargetMode
  | "current" => .current
  | "transported" => .transported
  | _ => .frozen

/-- `--save-hf` of `execute`, up to its last component. -/
def ScriptArgs.saveHf (args : ScriptArgs) : Option Path :=
  if args.saveCheckpoints ∨ args.evaluationQueue.isSome then
    some (args.outputDir ++
      [args.runId, if args.saveCheckpoints then "hf" else "eval-snapshots"])
  else none

/-- `execute`: the arguments the trainer starts with. -/
def ScriptArgs.execute (args : ScriptArgs) (env : LaunchEnv) : Except PyError Args := do
  check (env.externalRay = true)
    (valueError ("Create an isolated Ray cluster and set MILES_SCRIPT_EXTERNAL_RAY=1 and " ++
      "RAY_ADDRESS"))
  check (¬ (args.captureFullUpdate = true ∧
      (args.replayPath.isNone = true ∨ args.target ≠ "frozen")))
    (valueError "Full-update capture is only for a frozen-teacher correctness replay")
  check (¬ (args.replayPath.isSome = true ∧ args.numRollout ≠ 1))
    (valueError "Capacity replay permits one update only; study updates require fresh rollouts")
  let tracked := env.wandbProject ≠ ""
  check (¬ (tracked ∧ (env.wandbEntity = "" ∨ args.runId = "")))
    (valueError "OPSD W&B requires WANDB_ENTITY and an explicit neutral run ID")
  let saves := args.saveCheckpoints ∨ args.evaluationQueue.isSome
  let linear : Bool := args.cyclicLrSchedule = "global_linear"
  .ok
    { numRollout := args.numRollout.toNat
      opsdCyclicTeacherPolicy := args.cyclicTeacherPolicy.map fun policy =>
        if policy = "cycle_refresh" then .cycleRefresh else .fixedOriginal
      opsdCyclicPiUpdates :=
        if args.cyclicTeacherPolicy.isSome then args.cyclicPiUpdates.toNat else 7
      opsdCyclicOpdUpdates :=
        if args.cyclicTeacherPolicy.isSome then args.cyclicOpdUpdates.toNat else 4
      opsdCyclicOptimizerPolicy :=
        if args.cyclicTeacherPolicy.isSome ∧ args.cyclicOptimizerPolicy = "carry" then
          .carry
        else .resetEachPhase
      opsdCyclicLrSchedule :=
        if args.cyclicTeacherPolicy.isSome ∧ linear then .globalLinear else .constant
      opsdTarget := parseTarget args.target
      opsdContext := parseContext args.context
      opsdReduction := .sampleMean
      opsdBeta := 0
      opsdTemperature := 1
      opsdTokenClip := 0
      opsdTeacherEmaDecay := args.teacherEmaDecay
      opsdTargetCacheGib := 8
      opsdTargetMicrobatchGib := 2 * args.microBatchSize
      rolloutBatchSize := 4
      nSamplesPerPrompt := 1
      globalBatchSize := 4
      microBatchSize := args.microBatchSize.toNat
      seqLength := 8192
      vocabSize := env.vocabSize
      lr := 5 / 10 ^ 6
      minLr := if linear then 5 / 10 ^ 7 else 0
      lrDecayStyle := if linear then .linear else .constant
      lrDecayIters := if linear then some (args.numRollout.toNat - 1) else none
      noLoadOptim := true
      startRolloutId := some 0
      save :=
        if args.saveCheckpoints then
          some (args.outputDir ++ [args.runId, "checkpoints"])
        else none
      saveHf := args.saveHf
      saveInterval := if saves then some args.snapshotInterval.toNat else none
      debugExitAfterRollout := args.stopAfterRollout.map Int.toNat
      opsdEvalQueue := args.evaluationQueue
      opsdRetainFinalEvalSnapshot :=
        args.evaluationQueue.isSome && args.retainFinalSnapshot
      wandbOpsdProfile := tracked
      useWandb := tracked
      wandbTeam := if tracked then some env.wandbEntity else none
      wandbProject := if tracked then some env.wandbProject else none
      wandbRunId := if tracked then some env.wandbRunId else none }

/-! ## The trainer's loop -/

/-- `should_run_periodic_action`. -/
def shouldRunPeriodicAction (rolloutId : Nat) (interval numRolloutPerEpoch numRollout :
    Option Nat) : Except PyError Bool :=
  match interval with
  | none => .ok false
  | some interval =>
      if numRollout.any fun total => rolloutId + 1 = total then .ok true
      else do
        let step := rolloutId + 1
        check (interval ≠ 0) zeroModulo
        if step % interval = 0 then .ok true
        else
          match numRolloutPerEpoch with
          | none => .ok false
          | some perEpoch => do
              check (perEpoch ≠ 0) zeroModulo
              .ok (decide (step % perEpoch = 0))

/-- What a save leaves. -/
inductive SaveEffect where
  /-- A recovery checkpoint. -/
  | saved
  /-- An HF export. -/
  | exported (path : Path)
  /-- The EMA state of every rank, beside the export it was hashed from. -/
  | emaSource (path : Path) (studentSha256 : String)
  | enqueued (call : Enqueue)
  deriving DecidableEq, Repr

/-- `args.save_hf.format(rollout_id=rollout_id)`. -/
def Args.hfCheckpointDir (args : Args) (rolloutId : Nat) : Option Path :=
  args.saveHf.map fun template => template ++ ["step_" ++ toString rolloutId]

/-- Whether `save_ema_source` writes anything. -/
def Args.savesEmaSource (args : Args) (rolloutId : Nat) : Bool :=
  args.opsdTeacherEmaDecay.isSome && args.opsdRetainFinalEvalSnapshot &&
    rolloutId + 1 = args.numRollout

/-- The exports a save hook sees: the one just written. -/
def exportedSnapshot (digest : String) (exported : Option Path) : Path → Option Snapshot :=
  fun path =>
    if exported = some path then some { complete := true, isSymlink := false, digest }
    else none

/-- The cyclic filter of `save_model`: an update without suites is not saved. -/
def skipsSave (args : Args) (rolloutId : Nat) : Except PyError Bool :=
  match args.opsdCyclicTeacherPolicy with
  | none => .ok false
  | some _ => do
      let suites ← cyclicEvaluationSuites (rolloutId + 1) args.numRollout
        args.opsdCyclicPiUpdates args.opsdCyclicOpdUpdates
      .ok (decide (suites = []))

/-- `save_model` of the actor, with the digest of what it exports. The hook is
called where the arguments name one; the study names `enqueue_evaluation`
exactly where it names a queue. -/
def saveModel (args : Args) (digest : String) (rolloutId : Nat) :
    Except PyError (List SaveEffect) := do
  let skipped ← skipsSave args rolloutId
  if skipped = true then .ok []
  else
    let saved := if args.save.isSome then [SaveEffect.saved] else []
    let directory := args.hfCheckpointDir rolloutId
    let exported := directory.toList.map SaveEffect.exported
    let emaSource :=
      if args.savesEmaSource rolloutId then
        directory.toList.map fun path => SaveEffect.emaSource path digest
      else []
    if args.opsdEvalQueue.isNone then .ok (saved ++ exported ++ emaSource)
    else do
      let call ← startEnqueue args (exportedSnapshot digest directory) rolloutId directory
      .ok (saved ++ exported ++ emaSource ++ call.toList.map SaveEffect.enqueued)

/-- An executed update and what its save did. -/
structure Update where
  rolloutId : Nat
  effects : List SaveEffect
  deriving DecidableEq, Repr

def Update.completedUpdates (update : Update) : Nat := update.rolloutId + 1

/-- What surrounds the loop: the epoch length, where rollouts are counted in
epochs, and the digest of each update's weights. -/
structure RunEnv where
  numRolloutPerEpoch : Option Nat
  digest : Nat → String

/-- The save of one update, where the loop asks for one. -/
def saveIfPeriodic (args : Args) (env : RunEnv) (rolloutId : Nat) :
    Except PyError (List SaveEffect) := do
  let due ← shouldRunPeriodicAction rolloutId args.saveInterval env.numRolloutPerEpoch
    (some args.numRollout)
  if due = true then saveModel args (env.digest rolloutId) rolloutId else .ok []

/-- `debug_exit_after_rollout` is reached. -/
def Args.exitsAfter (args : Args) (rolloutId : Nat) : Bool :=
  args.debugExitAfterRollout.any fun stopAfter =>
    rolloutId + 1 ≥ args.startRolloutId.getD 0 + stopAfter

/-- The training loop over the rollouts left. -/
def trainLoop (args : Args) (env : RunEnv) : List Nat → Except PyError (List Update)
  | [] => .ok []
  | rolloutId :: rolloutIds => do
      let effects ← saveIfPeriodic args env rolloutId
      if args.exitsAfter rolloutId = true then .ok [⟨rolloutId, effects⟩]
      else do
        let rest ← trainLoop args env rolloutIds
        .ok (⟨rolloutId, effects⟩ :: rest)

/-- `train` of the driver: the updates a run executes. -/
def Driver.train (args : Args) (env : RunEnv) : Except PyError (List Update) :=
  let start := args.startRolloutId.getD 0
  trainLoop args env (List.range' start (args.numRollout - start))

end Crisp.Ref
