import Crisp.Lib.History
import Crisp.Ref.SdVerifier

/-!
# The training loop of the original pipeline

`fit` moves four pieces of state in different phases of a step: the student,
the teacher, the rollout replicas and the step counter. A batch is generated on
the replicas, the replicas sleep while the workers train, the teacher may be
refreshed, and the replicas are woken with the student's weights.

Weights are opaque. What the replicas answer, what the optimizer makes of a
batch, and whether any of it raises is the environment's; it may depend on the
step, which stands for sampling and for the optimizer's own state.
-/

namespace Crisp.Ref

open Crisp.Lib

variable {W : Type}

/-- The rollout replicas. Asleep they hold no weights. -/
inductive Replicas (W : Type) where
  | asleep
  | awake (weights : W)
  deriving DecidableEq, Repr

structure FitState (W : Type) where
  globalSteps : Nat
  student : W
  teacher : W
  replicas : Replicas W

/-- The calls of a run that read or move weights. -/
inductive FitCall where
  | generate
  | update
  | validate
  | save
  deriving DecidableEq, Repr

abbrev FitM (W α : Type) := EStateM PyError (FitState W) α

/-- A phase of `fit` beside the history of those calls. -/
abbrev FitRunM (W α : Type) := EStateM PyError (History FitCall (FitState W)) α

/-- A row of the validation set, by the `style` of its `reward_model`. -/
structure TestRow where
  rewardModelStyle : Option String
  deriving DecidableEq, Repr

/-- What `fit` reads of the configuration. `valDataloader` is what
`_build_val_dataloader` made: the validation batches, if there is a dataset. -/
structure FitConfig where
  teacherUpdateFreq : Nat
  testFreq : Int
  saveFreq : Int
  logFreq : Int
  totalTrainingSteps : Int
  valBeforeTrain : Bool
  hasValRewardFn : Bool
  valDataloader : Option (List (List TestRow))
  rewardModelEnable : Bool
  valN : Nat
  dpWorld : Nat
  sftMaxLength : Int
  tokenizer : Tokenizer

/-- `_create_dataloader`: the steps of a run, which the configuration may set
whatever the dataloader and the epochs come to. -/
def createDataloader (loaderLength totalEpochs : Nat) (configured : Option Int) :
    Except PyError Int := do
  check (1 ≤ loaderLength) (assertionError "Train dataloader is empty!")
  .ok (configured.getD (loaderLength * totalEpochs))

/-- One batch of the dataloader: the teacher's and the student's prompts. -/
structure TrainBatch where
  sdPrompt : List String
  sftPrompt : List String

/-- What happens outside `fit`. `step` is the workers' optimizer step from the
teacher's and the student's weights; it returns no weights when the gradient
norm is not finite. `score` is the rollout and the reward of a validation batch,
by its place in the dataloader, and `report` the metrics and the dump. -/
structure FitEnv (W : Type) where
  generate : Nat → W → TrainBatch → Except PyError (List String)
  verify : Nat → List String → Except PyError Unit
  step : Nat → W → W → OpsdBatch → Except PyError (Option W)
  score : Nat → Nat → W → (rows : List TestRow) →
    Except PyError { scores : List Rat // scores.length = rows.length }
  report : Nat → List Rat → Except PyError Unit
  save : Nat → W → Except PyError Unit

/-! ## The checkpoint manager -/

/-- `checkpoint_manager.update_weights`. -/
def updateWeights : FitM W Unit :=
  modify fun state => { state with replicas := .awake state.student }

/-- `checkpoint_manager.sleep_replicas`. -/
def sleepReplicas : FitM W Unit :=
  modify fun state => { state with replicas := .asleep }

/-- The weights a rollout runs under. Replicas that sleep answer nothing. -/
def rolloutWeights : FitM W W := do
  let state ← get
  match state.replicas with
  | .awake weights => pure weights
  | .asleep => throw (runtimeError "rollout replicas are asleep")

/-- `async_rollout_manager.generate_sequences`. -/
def generateSequences (env : FitEnv W) (batch : TrainBatch) : FitM W (List String) := do
  let weights ← rolloutWeights
  let state ← get
  lift (env.generate state.globalSteps weights batch)

/-! ## Validation -/

/-- `test_batch.repeat(repeat_times=val_n, interleave=True)`. -/
def repeatRows (valN : Nat) (testBatch : List TestRow) : List TestRow :=
  testBatch.flatMap (List.replicate valN)

/-- Whether the first row of a batch is left to a reward model. -/
def modelScored (config : FitConfig) (rows : List TestRow) : Except PyError Bool :=
  if config.rewardModelEnable = true then
    match rows with
    | [] => .error (indexError "index 0 is out of bounds for dimension 0 with size 0")
    | row :: _ => .ok (decide (row.rewardModelStyle = some "model"))
  else .ok false

/-- The loop of `_validate`: `sample_scores` at its end, or its early return. -/
def validateBatches (config : FitConfig) (env : FitEnv W) :
    Nat → List (List TestRow) → List Rat → FitM W (Option (List Rat))
  | _, [], sampleScores => pure (some sampleScores)
  | i, testBatch :: testBatches, sampleScores => do
      let rows := repeatRows config.valN testBatch
      let byModel ← lift (modelScored config rows)
      if byModel = true then pure none
      else do
        let weights ← rolloutWeights
        let state ← get
        let scores ← lift (env.score state.globalSteps i weights rows)
        validateBatches config env (i + 1) testBatches (sampleScores ++ scores.1)

/-- `_validate`. It returns the scores its metrics are made of, none of them
where it returns `{}`. -/
def validate (config : FitConfig) (env : FitEnv W) : FitM W (List Rat) :=
  match config.valDataloader with
  | none => pure []
  | some testBatches =>
      if config.hasValRewardFn = true then do
        let outcome ← validateBatches config env 0 testBatches []
        let sampleScores := outcome.getD []
        if sampleScores = [] then pure []
        else do
          let state ← get
          lift (env.report state.globalSteps sampleScores)
          pure sampleScores
      else pure []

/-! ## The update -/

/-- `torch.cat([tensor, tensor[-1:].expand(count, …).clone()])`. -/
def padLast {α : Type} (count : Nat) (rows : List α) : List α :=
  rows ++ rows.getLast?.toList.flatMap (List.replicate count)

def SequenceColumns.padLast (count : Nat) (columns : SequenceColumns) :
    SequenceColumns :=
  { inputIds := Ref.padLast count columns.inputIds
    attentionMask := Ref.padLast count columns.attentionMask
    positionIds := Ref.padLast count columns.positionIds
    lossMask := Ref.padLast count columns.lossMask }

/-- The rows `_opsd_update` appends for the dispatcher. -/
def padCount (nSamples nDp : Nat) : Nat :=
  if nSamples % nDp ≠ 0 then (nSamples / nDp + 1) * nDp - nSamples else 0

/-- The batch made divisible by the number of DP ranks. -/
def OpsdBatch.dpPad (nDp : Nat) (batch : OpsdBatch) : OpsdBatch :=
  let count := padCount batch.batchSize nDp
  if count = 0 then batch
  else
    { teacher := batch.teacher.padLast count
      student := batch.student.padLast count }

/-- `_opsd_update`. Nothing is dispatched when no sample was kept, and a step
with a non-finite gradient leaves the student where it was. -/
def opsdUpdate (config : FitConfig) (env : FitEnv W) (batch : TrainBatch)
    (responses : List String) : FitM W Unit := do
  let opsdBatch ← lift (buildOpsdBatch batch.sdPrompt batch.sftPrompt responses
    config.tokenizer config.sftMaxLength)
  match opsdBatch with
  | none => pure ()
  | some opsdBatch => do
      let state ← get
      let stepped ← lift (env.step state.globalSteps state.teacher state.student
        (opsdBatch.dpPad config.dpWorld))
      match stepped with
      | none => pure ()
      | some student => modify fun state => { state with student }

/-- `_update_teacher_weights`, when it is due. -/
def updateTeacherIfDue (config : FitConfig) : FitM W Unit := do
  let state ← get
  if config.teacherUpdateFreq > 0 ∧ state.globalSteps % config.teacherUpdateFreq = 0 then
    modify fun state => { state with teacher := state.student }
  else pure ()

/-! ## The loop -/

/-- The samples are logged every `log_freq` steps. -/
def logSamples (config : FitConfig) : FitM W Unit :=
  require (config.logFreq ≠ 0) zeroModulo

/-- A call of `_validate`. -/
def runValidation (config : FitConfig) (env : FitEnv W) : FitRunM W Unit := do
  let _ ← noted .validate (validate config env)
  pure ()

/-- Phase 4. -/
def validateIfDue (config : FitConfig) (env : FitEnv W) (isLastStep : Bool) :
    FitRunM W Unit := do
  let state ← quiet get
  let isValStep := config.testFreq > 0 ∧ (state.globalSteps : Int) % config.testFreq = 0
  if config.hasValRewardFn = true ∧ (isValStep ∨ isLastStep = true) then
    runValidation config env
  else pure ()

/-- `_save_checkpoint`. -/
def saveCheckpoint (env : FitEnv W) : FitM W Unit := do
  let state ← get
  lift (env.save state.globalSteps state.student)

def saveIfDue (config : FitConfig) (env : FitEnv W) (isLastStep : Bool) :
    FitRunM W Unit := do
  let state ← quiet get
  if config.saveFreq > 0 ∧
      (isLastStep = true ∨ (state.globalSteps : Int) % config.saveFreq = 0) then
    noted .save (saveCheckpoint env)
  else pure ()

/-- The body of the inner loop. It answers whether this was the last step. -/
def fitBatch (config : FitConfig) (env : FitEnv W) (batch : TrainBatch) :
    FitRunM W Bool := do
  let responses ← noted .generate (generateSequences env batch)
  quiet sleepReplicas
  let state ← quiet get
  lift (env.verify state.globalSteps responses)
  noted .update (opsdUpdate config env batch responses)
  quiet (updateTeacherIfDue config)
  quiet updateWeights
  quiet (logSamples config)
  let isLastStep : Bool := decide ((state.globalSteps : Int) ≥ config.totalTrainingSteps)
  validateIfDue config env isLastStep
  saveIfDue config env isLastStep
  quiet (modify fun state => { state with globalSteps := state.globalSteps + 1 })
  pure isLastStep

/-- One pass over the dataloader, left early after the last step. -/
def fitEpoch (config : FitConfig) (env : FitEnv W) : List TrainBatch → FitRunM W Bool
  | [] => pure false
  | batch :: batches => do
      let isLastStep ← fitBatch config env batch
      if isLastStep = true then pure true else fitEpoch config env batches

/-- The epochs, each with what the dataloader yields in it. -/
def fitEpochs (config : FitConfig) (env : FitEnv W) :
    List (List TrainBatch) → FitRunM W Unit
  | [] => pure ()
  | batches :: epochs => do
      let done ← fitEpoch config env batches
      if done = true then pure () else fitEpochs config env epochs

/-- `val_before_train`. -/
def validateBefore (config : FitConfig) (env : FitEnv W) : FitRunM W Unit :=
  if config.hasValRewardFn = true ∧ config.valBeforeTrain = true then
    runValidation config env
  else pure ()

/-- `fit`. -/
def fit (config : FitConfig) (env : FitEnv W) (epochs : List (List TrainBatch)) :
    FitRunM W Unit := do
  quiet (modify fun state => { state with globalSteps := 0 })
  quiet updateWeights
  quiet (modify fun state => { state with globalSteps := state.globalSteps + 1 })
  validateBefore config env
  fitEpochs config env epochs

end Crisp.Ref
