import Crisp.Ref.ContextParallel

/-!
# The loss of a scheduled micro-batch

`loss_function` of `objective.py` past its branch for `opsd_loss`, which has its own
function: it hands the configured loss a reduction over the rows of the micro-batch and
scales what comes back, so that Megatron's averages over micro-batches and ranks leave a
mean over the rollouts of the step. A batch of a scheduled rollout carries no Tinker
`loss_fn`, and the zero that is added to reach every parameter is left out.
-/

namespace Crisp.Ref

open Crisp.Lib

/-- What `loss_function` reads of the arguments. -/
structure LossArgs where
  calculatePerTokenLoss : Bool
  multiLora : Bool
  trueOnPolicyMode : Bool
  useDynamicGlobalBatchSize : Bool
  globalBatchSize : Nat

/-- What it reads of the `ParallelState`. -/
structure LossState where
  cpRank : Nat
  cpSize : Nat
  intraDpSize : Nat
  intraDpCpSize : Nat
  cpCommType : Option String

/-- `is_ulysses_cp`. -/
def LossState.isUlyssesCp (state : LossState) : Bool :=
  1 < state.cpSize && state.cpCommType == some "a2a"

section Scaling

variable {K : Type} [Field K]

/-- The `global_batch_size` of a call. -/
def lossBatchSize (args : LossArgs) (numRollouts dynamicGlobalBatchSize : Option Nat) :
    Except PyError Nat :=
  match numRollouts with
  | some count => .ok count
  | none => do
      check (args.useDynamicGlobalBatchSize = dynamicGlobalBatchSize.isSome) (assertionError "")
      .ok (dynamicGlobalBatchSize.getD args.globalBatchSize)

/-- The scaling of `loss`. -/
def rescaleLoss (args : LossArgs) (state : LossState) (applyMegatronLossScaling : Bool)
    (numMicrobatches lossNormalizer : Nat) (loss : K) : K :=
  if !args.calculatePerTokenLoss then
    if applyMegatronLossScaling then
      let lossParallelSize :=
        if args.trueOnPolicyMode && state.isUlyssesCp then state.intraDpSize
        else state.intraDpCpSize
      loss * numMicrobatches / lossNormalizer * lossParallelSize
    else loss / lossNormalizer * state.intraDpSize
  else if applyMegatronLossScaling then loss * state.cpSize
  else loss

end Scaling

section LossFunction

variable {V K : Type}

/-- What `get_loss_function` returns, past the arguments and the logits: from a batch and
its reduction the loss and the log. -/
abbrev LossFunc (V K : Type) : Type :=
  RolloutColumns V → (List K → K) → K × List (String × K)

variable [Field K] [LinearOrder K]

/-- The responses of a batch, each divided by the tokens of its rollout. -/
def batchResponses (layout : QkvLayout) (batch : RolloutColumns V) : List (RolloutResponse K) :=
  let rows := batch.totalLengths.zip
    (batch.responseLengths.zip (batch.lossMasks.zip batch.rolloutMaskSums))
  rows.map fun row => ⟨layout, row.1, row.2.1, row.2.2.1, (row.2.2.2 : Nat)⟩

/-- `loss_function`. -/
def lossFunction (args : LossArgs) (state : LossState) (layout : QkvLayout) (func : LossFunc V K)
    (applyMegatronLossScaling : Bool) (numMicrobatches : Nat)
    (numRollouts dynamicGlobalBatchSize : Option Nat) (batch : RolloutColumns V) :
    Except PyError (LossOutput K) := do
  let numTokens := (batch.lossMasks.map fun lossMask => max lossMask.sum 1).sum
  let numSamples := batch.responseLengths.length
  let sumOfSampleMean := getSumOfSampleMean args.calculatePerTokenLoss state.cpRank state.cpSize
    (batchResponses layout batch)
  let (loss, log) := func batch sumOfSampleMean
  let globalBatchSize ← lossBatchSize args numRollouts dynamicGlobalBatchSize
  let lossNormalizer := if args.multiLora then 1 else globalBatchSize
  let count := if !args.calculatePerTokenLoss then numSamples else numTokens
  .ok
    { loss := rescaleLoss args state applyMegatronLossScaling numMicrobatches lossNormalizer loss
      normalizer := if args.calculatePerTokenLoss then numTokens else 1
      log :=
        { keys := log.map Prod.fst
          values := (count : K) :: log.map Prod.snd } }

/-- The workers of a Megatron run, by their data-parallel and context-parallel ranks. The
padded length of `bshd` is a data-parallel rank's own. -/
structure TrainWorkers (config : ParallelConfig) (V K : Type) where
  args : LossArgs
  cpCommType : Option String
  dynamicGlobalBatchSize : Option Nat
  layout : Fin config.dpSize → QkvLayout
  func : Fin config.dpSize → Nat → LossFunc V K

variable {config : ParallelConfig}

def TrainWorkers.state (workers : TrainWorkers config V K) (cpRank : Nat) : LossState where
  cpRank := cpRank
  cpSize := config.cpSize
  intraDpSize := config.dpSize
  intraDpCpSize := config.dpSize * config.cpSize
  cpCommType := workers.cpCommType

/-- The call that `forward_step` leaves to Megatron. -/
def TrainWorkers.forwardStep (workers : TrainWorkers config V K) (numMicrobatches numRollouts : Nat)
    (worker : Fin config.dpSize × Nat) (batch : RolloutColumns V) : Except PyError (LossOutput K) :=
  lossFunction workers.args (workers.state worker.2) (workers.layout worker.1)
    (workers.func worker.1 worker.2) true numMicrobatches (some numRollouts)
    workers.dynamicGlobalBatchSize batch

/-- The group `intra_dp_cp`. -/
def allWorkers (config : ParallelConfig) : List (Fin config.dpSize × Nat) :=
  List.finRange config.dpSize ×ˢ List.range config.cpSize

end LossFunction

end Crisp.Ref
