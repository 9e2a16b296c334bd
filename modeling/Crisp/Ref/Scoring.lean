import Crisp.Lib.History
import Crisp.Ref.Actor
import Crisp.Ref.Targets

/-!
# Scoring under another set of weights

`score_teacher` runs up to three forward passes before the student's first
graph, each under the weights of some tag, and `_score` brings the live
parameters and the train flags back after every one of them. What a pass
returns is the model's business: a call has its logits as a function of the
live weights, and may raise in any microbatch or after the last.

Every call of `_score` is noted in the history, so that what holds of each of
them can be said of whole runs.
-/

namespace Crisp.Ref

open Crisp.Lib

/-- The calls of an attempt that move weights. -/
inductive CallKind where
  | score
  | train
  deriving DecidableEq, Repr

/-- An actor's method beside the history of those calls. -/
abbrev ScoringM (ι α β : Type) := EStateM PyError (History CallKind (Actor ι α)) β

/-- What the scoring functions read and do not own: the kernels, the
tensor-parallel group, the constructed output head, and one row of the
transported target from the rows of its three passes. -/
structure ScoringEnv (ρ τ ν : Type) where
  kernel : RowKernel ℚ ρ τ ν
  tp : Tp
  parallelOutput : Bool
  modelVocabSize : Nat
  transportRow : τ → τ → τ → τ

/-- One forward pass: the logits of every microbatch under given weights, and
what happens between the last of them and the aggregated result. -/
structure ScoringCall (ι α ρ : Type) where
  logits : (ι → α) → Nat → Except PyError (Logits ρ)
  aggregate : Except PyError Unit

section Score

variable {ι α ρ τ ν : Type}

/-- `module.train(mode)` for every model chunk. -/
def setTraining (mode : Bool) : ActorM ι α Unit :=
  modify fun actor => { actor with training := actor.training.map fun _ => mode }

/-- `forward_only`. Evaluation mode is left only after the last microbatch. -/
def forwardOnly {β : Type} (pass : (ι → α) → Except PyError β)
    (aggregate : Except PyError Unit) : ActorM ι α β := do
  setTraining false
  let actor ← get
  let collected ← lift (pass actor.live)
  setTraining true
  lift aggregate
  pure collected

/-- `_score`. -/
def score (env : ScoringEnv ρ τ ν) (args : Args) (data : RolloutData)
    (rolloutId : Int) (width : Nat) (modelTag : Tag) (call : ScoringCall ι α ρ) :
    ActorM ι α (List (OPSDTarget ℚ τ)) := do
  let actor ← get
  let priorModes := actor.training
  tryFinally
    (do
      switchModel modelTag
      forwardOnly
        (fun live => forwardTargets env.kernel env.tp args.vocabSize
          args.opsdTemperature rolloutId width args.microBatchSize data (call.logits live))
        call.aggregate)
    (do
      switchModel .actor
      modify fun actor => { actor with training := priorModes })

end Score

section Targets

variable {τ : Type}

/-- `_transport_targets`, with the normalization of a row left to the rank. -/
def transportTargets (transportRow : τ → τ → τ → τ) :
    List (OPSDTarget ℚ τ) → List (OPSDTarget ℚ τ) → List (OPSDTarget ℚ τ) →
      Except PyError (List (OPSDTarget ℚ τ))
  | q :: qs, r :: rs, p :: ps => do
      check (q.identity = r.identity ∧ r.identity = p.identity)
        (valueError "Transported OPSD target alignment mismatch")
      check ((q.logProbs.rows.length = r.logProbs.rows.length ∧
            q.logProbs.cols = r.logProbs.cols) ∧
          (r.logProbs.rows.length = p.logProbs.rows.length ∧
            r.logProbs.cols = p.logProbs.cols))
        (valueError "Transported OPSD target shape mismatch")
      let rows := (q.logProbs.rows.zip (r.logProbs.rows.zip p.logProbs.rows)).map
        fun row => transportRow row.1 row.2.1 row.2.2
      let rest ← transportTargets transportRow qs rs ps
      .ok ({ q with logProbs := { q.logProbs with rows } } :: rest)
  | [], [], [] => .ok []
  | qs, rs, ps => .error (zipMismatch [qs.isEmpty, rs.isEmpty, ps.isEmpty])

/-- The first update of an EMA: the averages must reproduce the original
teacher's targets exactly. -/
def checkInitialEma [DecidableEq τ] :
    List (OPSDTarget ℚ τ) → List (OPSDTarget ℚ τ) → Except PyError Unit
  | averaged :: as, original :: os => do
      check (averaged.identity = original.identity)
        (valueError "Initial EMA target identity differs from the original teacher")
      check (averaged.logProbs.cols = original.logProbs.cols ∧
          averaged.logProbs.rows = original.logProbs.rows)
        (assertionError "Tensor-likes are not equal!")
      checkInitialEma as os
  | [], [] => .ok ()
  | as, os => .error (zipMismatch [as.isEmpty, os.isEmpty])

end Targets

section ScoreTeacher

variable {ι α ρ τ ν : Type} [DecidableEq τ]

/-- `int(gib * 1024**3)`. -/
def gibBytes (gib : ℚ) : Nat := (gib * 1024 ^ 3).floor.toNat

/-- The local width of the constructed output head. -/
def ScoringEnv.width (env : ScoringEnv ρ τ ν) : Nat :=
  env.modelVocabSize / env.tp.size

/-- What `score_teacher` checks before it looks at the rollout. -/
def checkScoringModel (env : ScoringEnv ρ τ ν) (args : Args) (rollout : RolloutData)
    (numMicrobatches : List Nat) (modelChunks : Nat) : Except PyError Unit := do
  check (numMicrobatches.sum * args.microBatchSize = rollout.tokens.length)
    (valueError "OPSD requires the fixed microbatch schedule to cover the entire local rollout")
  check (modelChunks = 1 ∧ env.parallelOutput = true)
    (valueError "OPSD requires one model chunk with vocabulary-parallel output")
  check (args.vocabSize ≤ env.modelVocabSize ∧ env.modelVocabSize % env.tp.size = 0)
    (valueError "OPSD model vocabulary must cover the HF vocabulary and divide evenly across TP")
  if args.opsdTarget = .transported then
    let realWidth := validWidth env.tp args.vocabSize env.width
    check ((4 * rollout.responseLengths.sum * realWidth * 4 : Int) ≤
        args.opsdAggregateStagingGib * 1024 ^ 3)
      (valueError "Transported OPSD targets exceed the aggregate CPU staging budget")
  else .ok ()

/-- The keyword arguments `score_teacher` gives `teacher_batch`. -/
def ScoringEnv.limits (env : ScoringEnv ρ τ ν) (args : Args) : TargetLimits :=
  { seqLength := args.seqLength
    localVocabWidth := validWidth env.tp args.vocabSize env.width
    cacheBytes := gibBytes args.opsdTargetCacheGib
    microbatchBytes := gibBytes args.opsdTargetMicrobatchGib
    microBatchSize := args.microBatchSize }

/-- The tag whose weights are the teacher. -/
def teacherTag (args : Args) : Tag :=
  if args.opsdTarget = .current then .actor
  else if args.opsdTeacherEmaDecay.isSome then .emaTeacher
  else .teacher

/-- An EMA initialized at the original checkpoint must produce the exact
frozen-teacher targets, so its first update scores twice. -/
def scoreInitialEma (env : ScoringEnv ρ τ ν) (args : Args) (data : RolloutData)
    (rolloutId : Int) (call : ScoringCall ι α ρ) (targets : List (OPSDTarget ℚ τ)) :
    ScoringM ι α Unit := do
  let actor ← quiet get
  if actor.opsdEma.any fun ema => ema.updates == 0 then
    let original ← noted .score (score env args data rolloutId env.width .teacher call)
    lift (checkInitialEma targets original)
  else pure ()

/-- The two passes of a transported target. They use the exact student
sequence, never an empty context wrapper. -/
def scoreTransported (env : ScoringEnv ρ τ ν) (args : Args) (rollout : RolloutData)
    (rolloutId : Int) (reference student : ScoringCall ι α ρ)
    (targets : List (OPSDTarget ℚ τ)) : ScoringM ι α (List (OPSDTarget ℚ τ)) :=
  if args.opsdTarget = .transported then do
    let unprivileged := { rollout with teacherPromptIds := none }
    let reference ← noted .score
      (score env args unprivileged rolloutId env.width .teacher reference)
    let student ← noted .score
      (score env args unprivileged rolloutId env.width .actor student)
    lift (transportTargets env.transportRow targets reference student)
  else pure targets

/-- `score_teacher`. `calls` are its forward passes in the order it makes
them. -/
def scoreTeacher (env : ScoringEnv ρ τ ν) (args : Args) (rollout : RolloutData)
    (numMicrobatches : List Nat) (rolloutId : Int)
    (calls : Nat → ScoringCall ι α ρ) : ScoringM ι α (List (OPSDTarget ℚ τ)) := do
  let actor ← quiet get
  lift (checkScoringModel env args rollout numMicrobatches actor.training.length)
  let data ← lift (teacherBatch rollout (env.limits args))
  let targets ← noted .score
    (score env args data rolloutId env.width (teacherTag args) (calls 0))
  scoreInitialEma env args data rolloutId (calls 1) targets
  let targets ← scoreTransported env args rollout rolloutId (calls 2) (calls 3) targets
  require (targets.map (fun target => some target.sampleIndex) = data.sampleIndices)
    (valueError "OPSD teacher prepass changed sample ordering")
  pure targets

end ScoreTeacher

end Crisp.Ref
