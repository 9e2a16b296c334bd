import Crisp.Ref.Scoring

/-!
# The OPSD train attempt

`_load_auxiliary_checkpoints` fills the tagged backups and `_train_actor` makes
one attempt: the cyclic hook, the scoring, the optimizer's update, and after an
update that counts the backup of the actor, the completing hook and the EMA.
`validate_opsd_args` refuses the advantage branch of `_train_actor`, replay and
pipeline stages, so none of them is here.

What the optimizer leaves behind is the attempt's own; the rest of the actor's
state is changed by this module alone.
-/

namespace Crisp.Ref

open Crisp.Lib

variable {ι α ρ τ ν : Type}

/-- `weights_backuper.get(tag)`. -/
def getSnapshot (tag : Tag) : ActorM ι α (ι → α) := do
  let actor ← get
  match actor.backups tag with
  | some weights => pure weights
  | none => throw (assertionError s!"tag '{tag.name}' was never backed up")

/-! ## Checkpoints -/

/-- What `_load_auxiliary_checkpoints` finds outside: the order of the parameters,
which other models it loads, what `load_checkpoint` leaves in the parameters for each
(with the adapters of a LoRA teacher zeroed), and the EMA source this rank was given
with the digest of the student it belongs to. -/
structure Checkpoints (ι α : Type) where
  names : List ι
  all_names : ∀ i, i ∈ names
  withRef : Bool
  load : Tag → Except PyError (ι → α)
  emaSource : Option (EmaSource ι α × String)
  isAdapter : ι → Bool

/-- `load_other_checkpoint`. -/
def loadOtherCheckpoint (checkpoints : Checkpoints ι α) (tag : Tag) :
    ActorM ι α Unit := do
  let weights ← lift (checkpoints.load tag)
  modify fun actor => { actor with live := weights }
  backupWeights tag
  modify fun actor => { actor with activeModelTag := tag }

section Ema

variable [Fintype ι] [TensorOps α] [DecidableEq α]

/-- `verify_teacher_base`. A LoRA run shares its frozen base with the teacher;
a full-parameter one only asks for finite weights of the same shapes. -/
def verifyTeacherBase (names : List ι) (fullParameter : Bool) (isAdapter : ι → Bool)
    (actor teacher : ι → α) : Except PyError Unit :=
  names.forM fun i => do
    check (TensorOps.shape (actor i) = TensorOps.shape (teacher i))
      (valueError "OPSD actor and teacher snapshots have incompatible tensors")
    if fullParameter then
      check (TensorOps.isFinite (teacher i) = true)
        (valueError "OPSD frozen teacher contains nonfinite parameters")
    else
      check (isAdapter i = false → actor i = teacher i)
        (valueError ("OPSD teacher base differs from the frozen actor base; checkpoint " ++
          "ablations require a separate recipe"))

/-- `opsd_ema.publish(weights_backuper.get("ema_teacher"))`. -/
def publishEma (dtype : ι → DType) (ema : OpsdEma ι α) : ActorM ι α Unit := do
  let scoring ← getSnapshot .emaTeacher
  let published ← lift (ema.publish dtype scoring)
  modify fun actor =>
    { actor with backups := actor.backups.backup .emaTeacher published }

/-- `opsd_ema.load`, when a source was given. -/
def loadEmaSource (source : Option (EmaSource ι α × String)) (ema : OpsdEma ι α) :
    Except PyError (OpsdEma ι α) :=
  match source with
  | none => .ok ema
  | some (state, studentSha256) => ema.load state studentSha256

/-- `initialize_ema`. -/
def initializeEma (args : Args) (dtype : ι → DType)
    (source : Option (EmaSource ι α × String)) : ActorM ι α Unit := do
  modify fun actor => { actor with opsdEma := none }
  match args.opsdTeacherEmaDecay with
  | none => pure ()
  | some decay => do
      backupWeights .emaTeacher
      let teacher ← getSnapshot .teacher
      let ema ← lift (OpsdEma.init (named dtype teacher) decay)
      let ema ← lift (loadEmaSource source ema)
      modify fun actor => { actor with opsdEma := some ema }
      publishEma dtype ema

/-- The reference model, when there is one. -/
def loadRef (checkpoints : Checkpoints ι α) : ActorM ι α Unit :=
  if checkpoints.withRef then loadOtherCheckpoint checkpoints .ref else pure ()

/-- `keep_old_actor`. -/
def loadOldActor (args : Args) (checkpoints : Checkpoints ι α) : ActorM ι α Unit :=
  if args.keepOldActor then do
    loadOtherCheckpoint checkpoints .oldActor
    if args.updateWeightsInterval = 1 then backupWeights .rolloutActor else pure ()
  else pure ()

/-- `_load_auxiliary_checkpoints` of an OPSD actor, and the switch back to its
own weights that follows it. -/
def loadAuxiliaryCheckpoints (args : Args) (dtype : ι → DType)
    (checkpoints : Checkpoints ι α) : ActorM ι α Unit := do
  modify fun actor => { actor with opsdEma := none }
  backupWeights .actor
  loadRef checkpoints
  loadOtherCheckpoint checkpoints .teacher
  let actor ← getSnapshot .actor
  let teacher ← getSnapshot .teacher
  lift (verifyTeacherBase checkpoints.names (args.loraRank == 0) checkpoints.isAdapter actor
    teacher)
  initializeEma args dtype checkpoints.emaSource
  initializeCyclic args
  loadOldActor args checkpoints
  switchModel .actor

end Ema

/-! ## Attempts -/

inductive TrainStepOutcome where
  | normal
  | discardedShouldRetry
  deriving DecidableEq, Repr

/-- What `train` leaves: the weights, the optimizer and the clock. -/
structure Trained (ι α : Type) where
  weights : ι → α
  chainedOptimizers : List ChainedOptimizer
  paramGroups : List ℚ
  numSteps : Nat

/-- How `train` ends. A step is discarded before the optimizer runs; an
exception may leave anything. -/
inductive TrainEnd (ι α : Type) where
  | normal (result : Trained ι α)
  | discarded
  | raised (error : PyError) (result : Trained ι α)

/-- One attempt's input: its rollout and schedule, its forward passes and the
end of its optimizer step. -/
structure Attempt (ι α ρ : Type) where
  rolloutId : Int
  rollout : RolloutData
  hasLogProbs : Bool
  numMicrobatches : List (List Nat)
  calls : Nat → ScoringCall ι α ρ
  train : TrainEnd ι α

/-- `train`. -/
def train (trainEnd : TrainEnd ι α) : ActorM ι α TrainStepOutcome := do
  setTraining true
  let install (result : Trained ι α) : ActorM ι α Unit :=
    modify fun actor =>
      { actor with
        live := result.weights
        chainedOptimizers := result.chainedOptimizers
        paramGroups := result.paramGroups
        numSteps := result.numSteps }
  match trainEnd with
  | .normal result => do
      install result
      pure .normal
  | .discarded => pure .discardedShouldRetry
  | .raised error result => do
      install result
      throw error

/-- The columns `begin_cyclic_step` reads of a rollout. -/
def cyclicRollout (rollout : RolloutData) : Except PyError CyclicRollout :=
  match rollout.teacherPromptIds with
  | some teacherPromptIds =>
      .ok
        { tokens := rollout.tokens
          -- `tokens[:len(tokens) - n]` is all of `tokens` for a negative `n`
          responseLengths := rollout.responseLengths.map Int.toNat
          teacherPromptIds }
  | none => .error (keyError "'teacher_prompt_ids'")

/-- The cyclic hook before an attempt scores. -/
def beginAttempt (args : Args) (attempt : Attempt ι α ρ) : ActorM ι α Unit :=
  if args.opsdCyclicTeacherPolicy.isSome then
    let numOptimizerSteps := attempt.numMicrobatches.length
    match cyclicRollout attempt.rollout with
    | .ok rollout => beginCyclicStep args rollout attempt.rolloutId numOptimizerSteps
    | .error error => do
        -- the missing column is looked up after the checks that need none
        let _ ← enterCyclicStep args attempt.rolloutId numOptimizerSteps
        throw error
  else pure ()

/-- The part of `_train_actor` before the update. -/
def prepareUpdate [DecidableEq τ] (env : ScoringEnv ρ τ ν) (args : Args)
    (attempt : Attempt ι α ρ) : ScoringM ι α (List (OPSDTarget ℚ τ)) := do
  let numOptimizerSteps := attempt.numMicrobatches.length
  quiet (beginAttempt args attempt)
  let actor ← quiet get
  require (actor.opsdEma.isSome = true → numOptimizerSteps = 1)
    (valueError "EMA OPSD requires exactly one optimizer update per fresh rollout")
  require (args.skipActorForwardOnly = true → numOptimizerSteps = 1)
    (assertionError
      s!"--skip-actor-forward-only requires 1 optimizer step, got {numOptimizerSteps}")
  require (args.skipActorForwardOnly = true → attempt.hasLogProbs = false)
    (assertionError "--skip-actor-forward-only requires rollout data without actor log probs")
  scoreTeacher env args attempt.rollout attempt.numMicrobatches.flatten
    attempt.rolloutId attempt.calls

section Finish

variable [Fintype ι] [TensorOps α]

/-- The EMA's part of a successful update. -/
def completeEma (dtype : ι → DType) : ActorM ι α Unit := do
  let actor ← get
  match actor.opsdEma with
  | none => pure ()
  | some ema => do
      let student ← getSnapshot .actor
      let ema ← lift (ema.update (named dtype student))
      modify fun actor => { actor with opsdEma := some ema }
      publishEma dtype ema

/-- `ref_update_interval` divides the updates completed. -/
def updateRef (args : Args) (rolloutId : Int) : ActorM ι α Unit :=
  match args.refUpdateInterval with
  | none => pure ()
  | some interval => do
      require (interval ≠ 0) zeroModulo
      let actor ← get
      if (rolloutId + 1) % interval = 0 ∧ (actor.backups .ref).isSome then
        backupWeights .ref
      else pure ()

/-- The completing hook of a cyclic run. -/
def completeCyclic (args : Args) (rolloutId : Int) : ActorM ι α Unit :=
  if args.opsdCyclicTeacherPolicy.isSome then do
    let _ ← completeCyclicStep args rolloutId
    pure ()
  else pure ()

/-- What `_train_actor` does after an update that counts. -/
def completeUpdate (args : Args) (dtype : ι → DType) (rolloutId : Int) :
    ActorM ι α Unit := do
  backupWeights .actor
  completeCyclic args rolloutId
  completeEma dtype
  updateRef args rolloutId

/-- The part of `_train_actor` from the update on. -/
def finishUpdate (args : Args) (dtype : ι → DType) (attempt : Attempt ι α ρ) :
    ScoringM ι α TrainStepOutcome := do
  let outcome ← noted .train (train attempt.train)
  match outcome with
  | .normal => do
      quiet (completeUpdate args dtype attempt.rolloutId)
      pure .normal
  | .discardedShouldRetry => pure .discardedShouldRetry

/-- `_train_actor`. -/
def trainActor [DecidableEq τ] (env : ScoringEnv ρ τ ν) (args : Args)
    (dtype : ι → DType) (attempt : Attempt ι α ρ) : ScoringM ι α TrainStepOutcome := do
  let _ ← prepareUpdate env args attempt
  finishUpdate args dtype attempt

end Finish

end Crisp.Ref
