import Crisp.Lib.Raise
import Crisp.Ref.Args
import Mathlib.Data.List.Dedup
import Mathlib.Data.List.Sort

/-!
# What a study evaluates

Which updates are evaluated and with which suites, and the job a save hook
makes of an export: everything of `enqueue_evaluation` that happens before it
looks at the queue. The queue itself, and the processes that share it, are the
next module's.
-/

namespace Crisp.Ref

open Crisp.Lib

/-- The suites an evaluation worker can be asked for. -/
inductive SuiteName where
  | benchmark
  | validation
  deriving DecidableEq, Repr

/-- `sorted` of a set of numbers. -/
def sortedSet (xs : List Nat) : List Nat :=
  xs.dedup.insertionSort (· ≤ ·)

@[simp] theorem mem_sortedSet {xs : List Nat} {n : Nat} : n ∈ sortedSet xs ↔ n ∈ xs := by
  unfold sortedSet
  rw [List.mem_insertionSort, List.mem_dedup]

/-- `evaluation_steps`. -/
def evaluationSteps (updates : Int) : Except PyError (List Nat) := do
  check (0 < updates) (valueError "Planned updates must be positive")
  .ok (sortedSet ((List.range 10).map fun k => ((k + 1) * updates.toNat + 9) / 10))

/-- `cyclic_evaluation_suites`. Validation follows phase endpoints; benchmark
cadence uses the planned horizon. -/
def cyclicEvaluationSuites (completedUpdates plannedUpdates piUpdates opdUpdates : Nat) :
    Except PyError (List SuiteName) := do
  check (completedUpdates ≤ plannedUpdates)
    (valueError "Cyclic evaluation update lies outside the planned run")
  check (piUpdates + opdUpdates ≠ 0) zeroModulo
  let offset := completedUpdates % (piUpdates + opdUpdates)
  let validation := if offset = 0 ∨ offset = piUpdates then [SuiteName.validation] else []
  let benchmarkSteps :=
    0 :: (List.range 10).map fun k => ((k + 1) * plannedUpdates + 9) / 10
  let benchmark := if completedUpdates ∈ benchmarkSteps then [SuiteName.benchmark] else []
  .ok (validation ++ benchmark)

/-- `final_step` of `enqueue_evaluation`. -/
def Args.finalStep (args : Args) : Nat :=
  match args.debugExitAfterRollout with
  | none => args.numRollout
  | some stopAfter => min args.numRollout (args.startRolloutId.getD 0 + stopAfter)

/-- The suites of one update. -/
def evaluationSuites (args : Args) (step : Nat) : Except PyError (List SuiteName) := do
  let steps ← evaluationSteps args.numRollout
  let suites := if step ∈ steps ∨ step = args.finalStep then [SuiteName.benchmark] else []
  match args.opsdCyclicTeacherPolicy with
  | none => .ok suites
  | some _ =>
      cyclicEvaluationSuites step args.numRollout args.opsdCyclicPiUpdates
        args.opsdCyclicOpdUpdates

/-- The tracking identity a job carries. -/
structure WandbIdentity where
  entity : Option String
  project : Option String
  runId : String
  deriving DecidableEq, Repr

/-- An evaluation job, as its JSON file holds it. -/
structure Job where
  completedUpdates : Nat
  rolloutId : Nat
  checkpoint : Path
  checkpointSha256 : String
  checkpointKind : String
  plannedUpdates : Nat
  evaluationSuites : List SuiteName
  temporarySnapshot : Bool
  wandb : Option WandbIdentity
  deriving DecidableEq, Repr

/-- `f"{step:04d}"`. -/
def padFour (step : Nat) : String :=
  String.ofList (List.replicate (4 - (toString step).length) '0') ++ toString step

/-- `f"{run_dir.name}-step-{step:04d}.json"`. -/
def jobName (runName : String) (step : Nat) : String :=
  runName ++ "-step-" ++ padFour step ++ ".json"

/-- One call's job, under its name, and whether it is the run's last. -/
structure Enqueue where
  name : String
  job : Job
  final : Bool
  deriving DecidableEq, Repr

/-- The job of an export, once its suites and its digest are known. -/
def evaluationJob (args : Args) (rolloutId : Nat) (suites : List SuiteName)
    (checkpoint : Path) (digest : String) : Except PyError Enqueue := do
  let step := rolloutId + 1
  let runDir :=
    match args.save with
    | some save => pathParent save
    | none => pathParent (pathParent checkpoint)
  let tracked : Bool := args.wandbOpsdProfile && args.useWandb
  check (¬ (tracked = true ∧ args.wandbRunId.getD "" = ""))
    (runtimeError "Tracked OPSD evaluation requires the initialized trainer run ID")
  .ok
    { name := jobName (pathName runDir) step
      job :=
        { completedUpdates := step
          rolloutId
          checkpoint
          checkpointSha256 := digest
          checkpointKind := "full_model"
          plannedUpdates := args.numRollout
          evaluationSuites := suites
          temporarySnapshot := args.save.isNone &&
            !(step = args.finalStep && args.opsdRetainFinalEvalSnapshot)
          wandb :=
            if tracked then
              some
                { entity := args.wandbTeam
                  project := args.wandbProject
                  runId := args.wandbRunId.getD "" }
            else none }
      final := step = args.finalStep }

end Crisp.Ref
