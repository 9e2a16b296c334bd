import Crisp.Ref.Targets
import Mathlib.Algebra.Field.Defs

/-!
# The loss of a microbatch and what is logged of it

`opsd_loss_function` hands a microbatch's loss to Megatron, which averages over
microbatches and ranks, and beside it a vector of metric sums, which
`aggregate_train_losses` adds up over both and divides by the number of rollouts.
The two ways to one number are kept apart here as they are in the source.

The backward pass and the process groups are outside. The objective is what
Megatron's averaging makes of the losses, and an all-reduce is the sum over the
ranks of the group, inner and outer groups together.
-/

namespace Crisp.Ref

open Crisp.Lib

variable {ρ τ ν : Type}

/-- The configuration `opsd_loss_function` builds from the arguments. -/
def opsdLossConfig (args : Args) : OPSDLossConfig ℚ :=
  { beta := args.opsdBeta
    temperature := args.opsdTemperature
    tokenClip := if args.opsdTokenClip = 0 then none else some args.opsdTokenClip }

/-- The logging dictionary of a microbatch. -/
structure LossLog (ν : Type) where
  keys : List String
  values : List ν

/-- What `opsd_loss_function` returns: the loss, the normalizer and the log. -/
structure LossOutput (ν : Type) where
  loss : ν
  normalizer : Nat
  log : LossLog ν

section Loss

variable [DivisionRing ν]

/-- `opsd_loss_function`. -/
def opsdLossFunction (kernel : RowKernel ℚ ρ τ ν) (tp : Tp) (args : Args)
    (batch : LossBatch ℚ τ) (logits : Logits ρ) : Except PyError (LossOutput ν) := do
  let (loss, count) ← referenceLoss kernel tp args.vocabSize (tp.rank * logits.localVocab)
    (opsdLossConfig args) args.opsdReduction logits batch
  let samples := batch.responseLengths.length
  .ok
    { loss
      normalizer := 1
      log :=
        { keys := ["opsd_loss", "opsd_valid_tokens"]
          values := [(samples : ν), loss * (samples : ν), (count : ν)] } }

/-- Megatron's averaging, over the microbatches of a rank and then over ranks. -/
def averagedLoss (losses : List (List ν)) : ν :=
  mean (losses.map mean)

/-! ## `aggregate_train_losses` -/

/-- `values += log_dict["values"]`. -/
def addValues (values : List ν) (log : LossLog ν) : Except PyError (List ν) := do
  check (log.values.length = values.length)
    (runtimeError "The size of the tensors must match")
  .ok (List.zipWith (· + ·) values log.values)

/-- The values of one rank's microbatches. A rank that has none returns before
the reduction, and its group waits for it. -/
def sumValues : List (LossLog ν) → Except PyError (List ν)
  | [] => .error ⟨.timeout, "all_reduce timed out"⟩
  | first :: rest => do
      let values ← rest.foldlM addValues first.values
      check (first.keys.length + 1 = values.length)
        (assertionError s!"Expected {first.keys.length + 1} values, got {values.length}")
      .ok values

/-- `all_reduce(values, op=SUM)` over the values of every rank. -/
def allReduceSum : List (List ν) → List ν
  | [] => []
  | first :: rest => rest.foldl (List.zipWith (· + ·)) first

/-- `aggregate_train_losses`, on the first rank of the group. -/
def aggregateTrainLosses (cpSize : Nat) (numRollouts : Option Nat)
    (ranks : List (List (LossLog ν))) : Except PyError (List (String × ν)) :=
  match ranks.head?.bind List.head? with
  | none => .ok []
  | some first => do
      let totals ← ranks.mapM sumValues
      let values := allReduceSum totals
      let (numSamplesOrTokens, cpFactor) :=
        match numRollouts with
        | some numRollouts => ((numRollouts : ν), (1 : ν))
        | none => (values.headD 0, (cpSize : ν))
      .ok ((first.keys.zip (values.drop 1)).map fun (key, value) =>
        (key, value * cpFactor / numSamplesOrTokens))

end Loss

end Crisp.Ref
