import Crisp.Lib.Raise
import Mathlib.Data.Rat.Defs
import Mathlib.Algebra.Order.Field.Rat

/-!
# The run-wide arguments

One record for the argparse namespace, holding the fields the modelled
functions read and nothing else. The closed choice lists are inductive types;
a Python `float` is an exact rational, and an argument that defaults to `None`
is an option.
-/

namespace Crisp.Ref

open Crisp.Lib

/-- `--opsd-cyclic-teacher-policy`. -/
inductive TeacherPolicy where
  | fixedOriginal
  | cycleRefresh
  deriving DecidableEq, Repr

/-- `--opsd-cyclic-optimizer-policy`. -/
inductive OptimizerPolicy where
  | resetEachPhase
  | carry
  deriving DecidableEq, Repr

/-- `--opsd-cyclic-lr-schedule`. -/
inductive LrSchedule where
  | constant
  | globalLinear
  deriving DecidableEq, Repr

/-- Megatron's `--lr-decay-style`. -/
inductive LrDecayStyle where
  | constant
  | linear
  | cosine
  | inverseSquareRoot
  | wsd
  deriving DecidableEq, Repr

/-- `--opsd-context`. -/
inductive Context where
  | original
  | none
  | answer
  | worked
  | unrelated
  | empty
  deriving DecidableEq, Repr

/-- `--opsd-target`. -/
inductive TargetMode where
  | frozen
  | current
  | transported
  deriving DecidableEq, Repr

/-- `--opsd-reduction`. -/
inductive Reduction where
  | reference
  | sampleMean
  deriving DecidableEq, Repr

/-- A path by its components, the root first. -/
abbrev Path := List String

/-- `path.name`. -/
def pathName (path : Path) : String := path.getLastD ""

/-- `path.parent`. -/
def pathParent (path : Path) : Path := path.dropLast

structure Args where
  numRollout : Nat
  opsdCyclicTeacherPolicy : Option TeacherPolicy := none
  opsdCyclicPiUpdates : Nat := 7
  opsdCyclicOpdUpdates : Nat := 4
  opsdCyclicOptimizerPolicy : OptimizerPolicy := .resetEachPhase
  opsdCyclicLrSchedule : LrSchedule := .constant
  /-- `use_legacy_rollout_v1()`, which reads the environment. -/
  useLegacyRolloutV1 : Bool := false
  rolloutFunctionPath : Option String := none
  loraRank : Nat := 0
  opsdTarget : TargetMode := .frozen
  opsdContext : Context := .original
  opsdReduction : Reduction := .reference
  opsdBeta : ℚ := 0
  opsdTemperature : ℚ := 11 / 10
  opsdTokenClip : ℚ := 1 / 20
  opsdTeacherEmaDecay : Option ℚ := none
  opsdTargetCacheGib : ℚ := 8
  opsdTargetMicrobatchGib : ℚ := 1
  opsdAggregateStagingGib : ℚ := 24
  rolloutBatchSize : Nat
  nSamplesPerPrompt : Nat
  globalBatchSize : Nat
  microBatchSize : Nat := 1
  seqLength : Nat
  vocabSize : Nat
  optimizer : String := "adam"
  lr : ℚ
  minLr : ℚ := 0
  lrDecayStyle : LrDecayStyle
  lrDecayIters : Option Nat := none
  lrWarmupIters : Nat := 0
  lrWarmupFraction : Option ℚ := none
  debugDisableOptimizer : Bool := false
  checkForNanInLossAndGrad : Bool := true
  noLoadOptim : Bool := false
  startRolloutId : Option Nat := none
  useFaultTolerance : Bool := false
  indepDp : Bool := false
  resetOptimizerStates : Bool := false
  fp16 : Bool := false
  offloadOptimizerStates : Bool := false
  optimizerCpuOffload : Bool := false
  streamOptimizerStateToDisk : Bool := false
  chunkedOptimizerStateOffload : Bool := false
  usePrecisionAwareOptimizer : Bool := false
  rematerializeParamFromMasterWeight : Bool := false
  skipActorForwardOnly : Bool := false
  refUpdateInterval : Option Nat := none
  keepOldActor : Bool := false
  updateWeightsInterval : Nat := 1
  save : Option Path := none
  /-- The `--save-hf` template up to its `step_{rollout_id}` component. -/
  saveHf : Option Path := none
  saveInterval : Option Nat := none
  debugExitAfterRollout : Option Nat := none
  opsdEvalQueue : Option Path := none
  opsdRetainFinalEvalSnapshot : Bool := false
  wandbOpsdProfile : Bool := false
  useWandb : Bool := false
  wandbTeam : Option String := none
  wandbProject : Option String := none
  wandbRunId : Option String := none

/-- The rollout function an explicit `--rollout-function-path` may name. -/
def standardRollout : String :=
  "miles.rollout.inference_rollout.inference_rollout_common.InferenceRolloutFn"

/-- The requirements of `_validate_cyclic_args`, each under the description
its error quotes, in the order they are tested. -/
def cyclicRequirements (args : Args) : List (String × Bool) :=
  [ ("standard synchronous rollout with an explicit rollout ID",
      !args.useLegacyRolloutV1 &&
        (args.rolloutFunctionPath == none ||
          args.rolloutFunctionPath == some standardRollout)),
    ("full-parameter frozen direct targets starting in worked PI",
      args.loraRank == 0 && args.opsdTarget == .frozen &&
        args.opsdContext == .worked),
    ("sample-mean forward KL at scoring temperature one without token clipping",
      args.opsdReduction == .sampleMean && args.opsdBeta == 0 &&
        args.opsdTemperature == 1 && args.opsdTokenClip == 0),
    ("a separate cyclic policy without EMA", args.opsdTeacherEmaDecay == none),
    ("one optimizer update per fresh rollout",
      args.rolloutBatchSize * args.nSamplesPerPrompt == args.globalBatchSize),
    ("an explicit optimizer reset or carry policy",
      args.opsdCyclicOptimizerPolicy == .resetEachPhase ||
        args.opsdCyclicOptimizerPolicy == .carry),
    ("checked Adam updates without warmup",
      args.optimizer == "adam" && args.lrWarmupIters == 0 &&
        (args.lrWarmupFraction == none || args.lrWarmupFraction == some 0) &&
        !args.debugDisableOptimizer && args.checkForNanInLossAndGrad),
    ("fresh optimizer and rollout zero",
      args.noLoadOptim && args.startRolloutId == some 0),
    ("no recovery or per-update optimizer reset",
      !(args.useFaultTolerance || args.indepDp || args.resetOptimizerStates ||
        args.fp16 || args.offloadOptimizerStates || args.optimizerCpuOffload ||
        args.streamOptimizerStateToDisk || args.chunkedOptimizerStateOffload ||
        args.usePrecisionAwareOptimizer ||
        args.rematerializeParamFromMasterWeight)),
    ("temporary evaluation snapshots only", args.save == none),
    ("matching global LR arguments",
      (args.opsdCyclicLrSchedule == .constant && args.lrDecayStyle == .constant) ||
        (args.opsdCyclicLrSchedule == .globalLinear &&
          args.lrDecayStyle == .linear && args.lr == 5 / 10 ^ 6 &&
          args.minLr == 5 / 10 ^ 7 &&
          (match args.lrDecayIters with
            | some iters => iters + 1 == args.numRollout
            | none => false))) ]

/-- `_validate_cyclic_args`. -/
def validateCyclicArgs (args : Args) : Except PyError Unit := do
  let pi := args.opsdCyclicPiUpdates
  let opd := args.opsdCyclicOpdUpdates
  check (¬ (min pi opd < 1 ∨ args.numRollout < 1 ∨ args.numRollout % (pi + opd) ≠ 0))
    (valueError "Cyclic OPSD requires positive phase lengths and complete planned cycles")
  (cyclicRequirements args).forM fun (description, satisfied) =>
    check (satisfied = true) (valueError s!"Cyclic OPSD requires {description}")

/-- Acceptance is exactly the arithmetic on the phase lengths and every
requirement of the table. -/
theorem validateCyclicArgs_eq_ok {args : Args} :
    validateCyclicArgs args = .ok () ↔
      (1 ≤ args.opsdCyclicPiUpdates ∧ 1 ≤ args.opsdCyclicOpdUpdates ∧
        1 ≤ args.numRollout ∧
        args.numRollout % (args.opsdCyclicPiUpdates + args.opsdCyclicOpdUpdates) = 0) ∧
      ∀ r ∈ cyclicRequirements args, r.2 = true := by
  simp only [validateCyclicArgs, except_bind_eq_ok, check_eq_ok,
    except_forM_eq_ok]
  constructor
  · rintro ⟨-, hphases, htable⟩
    refine ⟨by omega, fun r hr => htable r hr⟩
  · rintro ⟨hphases, htable⟩
    exact ⟨⟨⟩, by omega, fun r hr => htable r hr⟩

end Crisp.Ref
