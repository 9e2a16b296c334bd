import Crisp.Ref.Scoring

/-!
# Which targets `score_teacher` keeps

The body of `score_teacher` beside a record of its locals. A list of targets is produced
one target after the other, by a pass or by `_transport_targets`, while the locals still
refer to what they did; then it is assigned to a local, and what that one
referred to is gone. Every point notes the bytes of all targets there are.
-/

namespace Crisp.Ref

open Crisp.Lib

variable {ι α ρ τ ν : Type}

/-- Four bytes an entry of `log_probs`. -/
def OPSDTarget.bytes (target : OPSDTarget ℚ τ) : Nat :=
  4 * (target.logProbs.rows.length * target.logProbs.cols)

def targetBytes (targets : List (OPSDTarget ℚ τ)) : Nat := (targets.map OPSDTarget.bytes).sum

/-- The lists the locals of `score_teacher` refer to. -/
structure TargetLocals (τ : Type) where
  targets : List (OPSDTarget ℚ τ) := []
  originalTargets : List (OPSDTarget ℚ τ) := []
  reference : List (OPSDTarget ℚ τ) := []
  student : List (OPSDTarget ℚ τ) := []

def TargetLocals.bytes (locals : TargetLocals τ) : Nat :=
  targetBytes locals.targets + targetBytes locals.originalTargets +
    targetBytes locals.reference + targetBytes locals.student

/-- An actor with its history, the locals, and the bytes at every point so far. -/
structure Tracked (ι α τ : Type) where
  history : History CallKind (Actor ι α)
  locals : TargetLocals τ
  points : List Nat

abbrev TrackedM (ι α τ β : Type) := EStateM PyError (Tracked ι α τ) β

/-- A statement that produces no target. -/
def untracked {β : Type} (x : ScoringM ι α β) : TrackedM ι α τ β := fun s =>
  match x s.history with
  | .ok b h => .ok b { s with history := h }
  | .error e h => .error e { s with history := h }

/-- `local = x()`, where `x` produces the list one target after the other. -/
def assigned (assign : List (OPSDTarget ℚ τ) → TargetLocals τ → TargetLocals τ)
    (x : ScoringM ι α (List (OPSDTarget ℚ τ))) : TrackedM ι α τ (List (OPSDTarget ℚ τ)) := do
  let made ← untracked x
  modify fun s =>
    { s with
      locals := assign made s.locals
      points := s.points ++ made.inits.map fun sofar => s.locals.bytes + targetBytes sofar }
  pure made

section Track

variable [DecidableEq τ]

/-- `scoreInitialEma`. -/
def trackInitialEma (env : ScoringEnv ρ τ ν) (args : Args) (data : RolloutData)
    (rolloutId : Int) (call : ScoringCall ι α ρ) (targets : List (OPSDTarget ℚ τ)) :
    TrackedM ι α τ Unit := do
  let actor ← untracked (quiet get)
  if actor.opsdEma.any fun ema => ema.updates == 0 then
    let original ← assigned (fun made locals => { locals with originalTargets := made })
      (noted .score (score env args data rolloutId env.width .teacher call))
    untracked (lift (checkInitialEma targets original))
  else pure ()

/-- `scoreTransported`. -/
def trackTransported (env : ScoringEnv ρ τ ν) (args : Args) (rollout : RolloutData)
    (rolloutId : Int) (reference student : ScoringCall ι α ρ)
    (targets : List (OPSDTarget ℚ τ)) : TrackedM ι α τ (List (OPSDTarget ℚ τ)) :=
  if args.opsdTarget = .transported then do
    let unprivileged := { rollout with teacherPromptIds := none }
    let reference ← assigned (fun made locals => { locals with reference := made })
      (noted .score (score env args unprivileged rolloutId env.width .teacher reference))
    let student ← assigned (fun made locals => { locals with student := made })
      (noted .score (score env args unprivileged rolloutId env.width .actor student))
    assigned (fun made locals => { locals with targets := made })
      (lift (transportTargets env.transportRow targets reference student))
  else pure targets

/-- `scoreTeacher`. -/
def trackScoreTeacher (env : ScoringEnv ρ τ ν) (args : Args) (rollout : RolloutData)
    (numMicrobatches : List Nat) (rolloutId : Int) (calls : Nat → ScoringCall ι α ρ) :
    TrackedM ι α τ (List (OPSDTarget ℚ τ)) := do
  let actor ← untracked (quiet get)
  untracked (lift (checkScoringModel env args rollout numMicrobatches actor.training.length))
  let data ← untracked (lift (teacherBatch rollout (env.limits args)))
  let targets ← assigned (fun made locals => { locals with targets := made })
    (noted .score (score env args data rolloutId env.width (teacherTag args) (calls 0)))
  trackInitialEma env args data rolloutId (calls 1) targets
  let targets ← trackTransported env args rollout rolloutId (calls 2) (calls 3) targets
  untracked (require (targets.map (fun target => some target.sampleIndex) = data.sampleIndices)
    (valueError "OPSD teacher prepass changed sample ordering"))
  pure targets

/-- The bytes of all targets there are, at every point of `score_teacher`. -/
def targetMemory (env : ScoringEnv ρ τ ν) (args : Args) (rollout : RolloutData)
    (numMicrobatches : List Nat) (rolloutId : Int) (calls : Nat → ScoringCall ι α ρ)
    (h : History CallKind (Actor ι α)) : List Nat :=
  match trackScoreTeacher env args rollout numMicrobatches rolloutId calls ⟨h, {}, []⟩ with
  | .ok _ s => s.points
  | .error _ s => s.points

end Track

/-- What the mode's option allows, in bytes. -/
def targetBudget (args : Args) : ℚ :=
  if args.opsdTarget = .transported then args.opsdAggregateStagingGib * 1024 ^ 3
  else args.opsdTargetCacheGib * 1024 ^ 3

end Crisp.Ref
