import Crisp.Lib.Segments
import Crisp.Ref.Cyclic
import Crisp.Ref.Weights

/-!
# The training actor and its cyclic hooks

The actor owns one set of live parameters, the tagged backups they are swapped
with, the optimizer, the LR scheduler and the cyclic counters. This module has
the parts of it every OPSD run shares, `_switch_model` and the optimizer reset,
and the three hooks a cyclic run adds around an update.

Megatron's optimizer and scheduler are outside the repository. What the hooks
read of them is kept: the rate of every parameter group, the number of samples
the scheduler has counted, and for every chained optimizer how many steps its
Adam state holds since it was last cleared.
-/

namespace Crisp.Ref

open Crisp.Lib

/-- One entry of `optimizer.chained_optimizers`: whether it is a stub, how
many parameters it owns, and the steps taken since its state was cleared. -/
structure ChainedOptimizer where
  isStub : Bool
  params : Nat
  stateSteps : Nat
  deriving DecidableEq, Repr

structure Actor (ι α : Type) where
  /-- The parameters of `actor.model`. -/
  live : ι → α
  /-- The train flag of every model chunk. -/
  training : List Bool
  backups : Backups ι α
  activeModelTag : Tag
  opsdEma : Option (OpsdEma ι α)
  chainedOptimizers : List ChainedOptimizer
  /-- The rate in every entry of `optimizer.param_groups`. -/
  paramGroups : List ℚ
  /-- `opt_param_scheduler.num_steps`. -/
  numSteps : Nat
  opsdCyclicCompletedUpdates : Nat
  opsdCyclicOptimizerUpdates : Nat
  opsdCyclicTeacherSourceUpdate : Nat
  opsdCyclicAppliedLr : ℚ

/-- A method of the actor. -/
abbrev ActorM (ι α β : Type) := EStateM PyError (Actor ι α) β

section Methods

variable {ι α : Type}

/-- `_switch_model`, for an actor that keeps weight backups. -/
def switchModel (targetTag : Tag) : ActorM ι α Unit := do
  let actor ← get
  match actor.backups targetTag with
  | none => throw (valueError s!"Cannot switch to unknown model tag: {targetTag.name}")
  | some weights => set { actor with live := weights, activeModelTag := targetTag }

/-- `weights_backuper.backup(tag)`. -/
def backupWeights (tag : Tag) : ActorM ι α Unit :=
  modify fun actor => { actor with backups := actor.backups.backup tag actor.live }

/-- `weights_backuper.copy(src_tag=…, dst_tag=…)`. -/
def copyWeights (src dst : Tag) : ActorM ι α Unit :=
  modify fun actor => { actor with backups := actor.backups.copy src dst }

/-- The optimizers `reset_optimizer_state` clears, cleared. -/
def clearedOptimizers (chained : List ChainedOptimizer) : List ChainedOptimizer :=
  chained.map fun c => if c.isStub then c else { c with stateSteps := 0 }

/-- `reset_optimizer_state`. The optimizer is a `ChainedOptimizer` here, so its first
assertion holds. The four refusals come before the clearing; the self-check after it is
kept as far as it is about the optimizers that exist, not about the state keys the
third-party optimizer leaves behind. -/
def resetOptimizerState (args : Args) : ActorM ι α Unit := do
  require (args.offloadOptimizerStates = false) (assertionError "")
  require (args.chunkedOptimizerStateOffload = false)
    (assertionError ("--chunked-optimizer-state-offload keeps the canonical moments outside " ++
      "the optimizer state this clears"))
  require (args.fp16 = false)
    (assertionError ("an fp16 optimizer keeps a loss scaler with a scale and a growth tracker " ++
      "beside the state this clears, so the reset would leave the trainer with the scaler of " ++
      "the rollouts it just discarded"))
  require (args.streamOptimizerStateToDisk = false)
    (assertionError ("--stream-optimizer-state-to-disk keeps the moments in its own store " ++
      "rather than in the master optimizer state this walks, so the reset would clear nothing " ++
      "and the self-check would pass on an empty walk"))
  modify fun actor =>
    { actor with chainedOptimizers := clearedOptimizers actor.chainedOptimizers }
  let actor ← get
  let checked := actor.chainedOptimizers.filter fun c => !c.isStub
  require (0 < checked.length) (assertionError "")
  require (0 < (checked.map ChainedOptimizer.params).sum) (assertionError "")

/-- `args.train_iters`, as `get_optimizer_param_scheduler` sets it. -/
def trainIters (args : Args) : Nat :=
  args.numRollout * args.rolloutBatchSize * args.nSamplesPerPrompt /
    args.globalBatchSize

/-- The `lr_decay_steps` the scheduler is built with. -/
def lrDecaySteps (args : Args) : Nat :=
  args.lrDecayIters.getD (trainIters args) * args.globalBatchSize

/-- One successful `train_one_step`: `optimizer.step()` leaves new live
weights and one more step in every Adam state, and the scheduler counts
`increment` samples and writes its rate for that count into every group. -/
def successfulUpdate (getLr : Nat → ℚ) (weights : ι → α) (increment : Nat) :
    ActorM ι α Unit :=
  modify fun actor =>
    { actor with
      live := weights
      chainedOptimizers := actor.chainedOptimizers.map fun c =>
        if c.isStub then c else { c with stateSteps := c.stateSteps + 1 }
      numSteps := actor.numSteps + increment
      paramGroups := actor.paramGroups.map fun _ => getLr (actor.numSteps + increment) }

/-! ## The cyclic hooks -/

/-- `initialize_cyclic`. The actor was backed up before the original teacher
was loaded, so under a refresh policy cycle one uses its entry student. -/
def initializeCyclic (args : Args) : ActorM ι α Unit := do
  modify fun actor =>
    { actor with
      opsdCyclicCompletedUpdates := 0
      opsdCyclicOptimizerUpdates := 0
      opsdCyclicTeacherSourceUpdate := 0 }
  if args.opsdCyclicTeacherPolicy = some .cycleRefresh then
    copyWeights .actor .teacher

/-- `math.isclose(a, b, rel_tol=1e-6, abs_tol=0)`. -/
def isClose (a b : ℚ) : Prop :=
  |a - b| ≤ 1 / 10 ^ 6 * max |a| |b|

instance (a b : ℚ) : Decidable (isClose a b) := by
  unfold isClose; infer_instance

theorem isClose_refl (a : ℚ) : isClose a a := by
  simp [isClose]

/-- `_checked_learning_rate`. Read the actual rate and reject a restarted,
skipped or mismatched global clock. -/
def checkedLearningRate (args : Args) (completedUpdates : Nat) : ActorM ι α ℚ := do
  let actor ← get
  require (actor.numSteps = completedUpdates * args.globalBatchSize)
    (valueError "Cyclic OPSD LR clock must advance once per successful global update")
  let expected ← lift (cyclicLearningRate args completedUpdates)
  require (∀ rate ∈ actor.paramGroups, isClose rate expected)
    (valueError "Cyclic OPSD parameter-group LR disagrees with the global schedule")
  match actor.paramGroups with
  | rate :: _ => pure rate
  | [] =>
      throw (valueError "Cyclic OPSD parameter-group LR disagrees with the global schedule")

/-- The rollout fields `begin_cyclic_step` reads, one entry a sample. -/
structure CyclicRollout where
  tokens : List (List Int)
  responseLengths : List Nat
  teacherPromptIds : List (List Int)

/-- `tokens[:len(tokens) - response_length]`. -/
def studentPrefix (tokens : List Int) (responseLength : Nat) : List Int :=
  pyUntil tokens ((tokens.length : Int) - responseLength)

/-- The loop over `zip(tokens, response_lengths, teacher_prompt_ids,
strict=True)`: every prefix is compared before a missing entry is noticed. -/
def checkPrefixes (step : CyclicStep) :
    List (List Int) → List Nat → List (List Int) → Except PyError Unit
  | tokens :: ts, response :: rs, teacherPrefix :: ps => do
      check ((teacherPrefix = studentPrefix tokens response) ↔ step.context = .none)
        (valueError "Cyclic OPSD teacher prefix disagrees with the scheduled PI/OPD phase")
      checkPrefixes step ts rs ps
  | [], [], [] => .ok ()
  | ts, rs, ps => .error (zipMismatch [ts.isEmpty, rs.isEmpty, ps.isEmpty])

/-- What `begin_cyclic_step` checks before it reads the rollout. -/
def enterCyclicStep (args : Args) (rolloutId : Int) (numOptimizerSteps : Nat) :
    ActorM ι α CyclicStep := do
  let actor ← get
  require (rolloutId = actor.opsdCyclicCompletedUpdates ∧ numOptimizerSteps = 1)
    (valueError "Cyclic OPSD requires exactly one sequential successful update per fresh rollout")
  let step ← lift (cyclicStep args rolloutId)
  require (actor.opsdCyclicTeacherSourceUpdate = step.teacherSourceUpdate)
    (valueError "Cyclic OPSD teacher is not the required cycle-entry source")
  pure step

/-- `begin_cyclic_step`. -/
def beginCyclicStep (args : Args) (rollout : CyclicRollout) (rolloutId : Int)
    (numOptimizerSteps : Nat) : ActorM ι α Unit := do
  let step ← enterCyclicStep args rolloutId numOptimizerSteps
  lift (checkPrefixes step rollout.tokens rollout.responseLengths rollout.teacherPromptIds)
  let rate ← checkedLearningRate args rolloutId.toNat
  modify fun actor => { actor with opsdCyclicAppliedLr := rate }
  if step.optimizerReset then
    resetOptimizerState args
    modify fun actor => { actor with opsdCyclicOptimizerUpdates := 0 }

/-- What `complete_cyclic_step` reports. -/
structure CyclicMetrics where
  trainStep : Nat
  step : CyclicStep
  teacherRefreshed : Bool
  completedUpdates : Nat
  optimizerUpdates : Nat
  appliedLr : ℚ
  nextLr : ℚ
  deriving DecidableEq, Repr

/-- `complete_cyclic_step`. Called only after a successful optimizer update
and the actor weight backup. -/
def completeCyclicStep (args : Args) (rolloutId : Int) :
    ActorM ι α CyclicMetrics := do
  let actor ← get
  require (rolloutId = actor.opsdCyclicCompletedUpdates)
    (valueError "Cyclic OPSD cannot complete an out-of-order update")
  let completed := rolloutId.toNat + 1
  let nextLr ← checkedLearningRate args completed
  let optimizerUpdates := actor.opsdCyclicOptimizerUpdates + 1
  let expected ← lift (cyclicOptimizerUpdates args completed)
  require (optimizerUpdates = expected)
    (valueError "Cyclic OPSD optimizer update count disagrees with its reset policy")
  let step ← lift (cyclicStep args rolloutId)
  let refresh : Bool :=
    step.cycleEnd && args.opsdCyclicTeacherPolicy == some .cycleRefresh
  if refresh then
    copyWeights .actor .teacher
    modify fun actor => { actor with opsdCyclicTeacherSourceUpdate := completed }
  modify fun actor =>
    { actor with
      opsdCyclicCompletedUpdates := completed
      opsdCyclicOptimizerUpdates := optimizerUpdates }
  pure
    { trainStep := rolloutId.toNat
      step
      teacherRefreshed := refresh
      completedUpdates := completed
      optimizerUpdates
      appliedLr := actor.opsdCyclicAppliedLr
      nextLr }

end Methods

end Crisp.Ref
