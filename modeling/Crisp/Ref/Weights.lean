import Crisp.Lib.Raise
import Mathlib.Data.Fintype.Basic
import Mathlib.Data.Rat.Defs

/-!
# Weight snapshots and the EMA accumulator

The parameters of one actor are named by `ι`; a set of weights gives every
name the contents of its tensor. Names, dtypes and shapes belong to the model
and never change while it trains, so what moves between the live parameters
and the tagged backups is contents alone, and a copy between two sets of
weights of the same model is exact. The one place a dtype matters is the EMA:
it accumulates in FP32 and publishes into the model's own dtypes.
-/

namespace Crisp.Ref

open Crisp.Lib

inductive DType where
  | float32
  | bfloat16
  | float16
  | float64
  | int64
  | uint8
  deriving DecidableEq, Repr

def DType.isFloating : DType → Bool
  | .float32 | .bfloat16 | .float16 | .float64 => true
  | .int64 | .uint8 => false

/-- The tensor operations the EMA uses, on contents. No law is assumed of
them; `lerp average value weight` is `average + weight * (value - average)`
in FP32 and `castTo` is what `copy_` does to contents of another dtype. -/
class TensorOps (α : Type) where
  shape : α → List Nat
  isFinite : α → Bool
  toFloat32 : α → α
  lerp : α → α → ℚ → α
  castTo : DType → α → α

/-- The tags under which weights are kept. -/
inductive Tag where
  | actor
  | ref
  | teacher
  | emaTeacher
  | oldActor
  | rolloutActor
  deriving DecidableEq, Repr

def Tag.name : Tag → String
  | actor => "actor"
  | ref => "ref"
  | teacher => "teacher"
  | emaTeacher => "ema_teacher"
  | oldActor => "old_actor"
  | rolloutActor => "rollout_actor"

/-- `_TensorBackuperNormal._backups`: a tag that was never backed up has no
entry. -/
abbrev Backups (ι α : Type) := Tag → Option (ι → α)

/-- `backup_dict[name].copy_(param)` for every name of the source. -/
def Backups.backup {ι α : Type} (b : Backups ι α) (tag : Tag) (live : ι → α) :
    Backups ι α :=
  fun t => if t = tag then some live else b t

@[simp] theorem Backups.backup_self {ι α : Type} (b : Backups ι α) (tag : Tag)
    (live : ι → α) : b.backup tag live tag = some live := by
  simp [Backups.backup]

@[simp] theorem Backups.backup_of_ne {ι α : Type} (b : Backups ι α)
    {tag t : Tag} (live : ι → α) (h : t ≠ tag) : b.backup tag live t = b t := by
  simp [Backups.backup, h]

/-- `copy`: every name the destination holds is overwritten from the source.
A destination that was never backed up holds no names. -/
def Backups.copy {ι α : Type} (b : Backups ι α) (src dst : Tag) : Backups ι α :=
  match b dst, b src with
  | some _, some weights => b.backup dst weights
  | _, _ => b

theorem Backups.copy_of_some {ι α : Type} {b : Backups ι α} {src dst : Tag}
    {old weights : ι → α} (hdst : b dst = some old) (hsrc : b src = some weights) :
    b.copy src dst = b.backup dst weights := by
  simp [Backups.copy, hdst, hsrc]

theorem Backups.copy_of_ne {ι α : Type} {b : Backups ι α} {src dst t : Tag}
    (h : t ≠ dst) : b.copy src dst t = b t := by
  unfold Backups.copy
  cases b dst with
  | none => rfl
  | some old =>
      cases b src with
      | none => rfl
      | some weights => exact Backups.backup_of_ne b weights h

/-! ## The EMA accumulator -/

section Ema

variable {ι α : Type} [Fintype ι] [TensorOps α]

/-- A mapping from names to tensors, as `_validate` receives one. -/
abbrev NamedTensors (ι α : Type) := ι → Option (DType × α)

/-- A model's weights as such a mapping. -/
def named (dtype : ι → DType) (weights : ι → α) : NamedTensors ι α :=
  fun i => some (dtype i, weights i)

/-- `OPSDEMA`. The averages exist for the floating names only. -/
structure OpsdEma (ι α : Type) where
  decay : ℚ
  updates : Nat
  tensors : ι → Option α

/-- `OPSDEMA.__init__`. -/
def OpsdEma.init (original : NamedTensors ι α) (decay : ℚ) :
    Except PyError (OpsdEma ι α) := do
  check (0 ≤ decay ∧ decay < 1) (valueError "EMA decay must be finite and in [0, 1)")
  let tensors : ι → Option α := fun i =>
    match original i with
    | some (dtype, value) =>
        if dtype.isFloating then some (TensorOps.toFloat32 value) else none
    | none => none
  check (∃ i, (tensors i).isSome) (valueError "EMA requires floating model tensors")
  .ok { decay, updates := 0, tensors }

/-- The floating names of a mapping. -/
def isFloatingName (weights : NamedTensors ι α) (i : ι) : Bool :=
  match weights i with
  | some (dtype, _) => dtype.isFloating
  | none => false

/-- One average against the value of its name. -/
def matchesAverage (weights : NamedTensors ι α) (i : ι) (average : α) : Bool :=
  match weights i with
  | some (_, value) =>
      TensorOps.shape value == TensorOps.shape average && TensorOps.isFinite value
  | none => false

/-- `OPSDEMA._validate`. -/
def OpsdEma.validate (ema : OpsdEma ι α) (weights : NamedTensors ι α) :
    Except PyError Unit := do
  check (∀ i, isFloatingName weights i = (ema.tensors i).isSome)
    (valueError "EMA parameter names changed")
  check (∀ i, ∀ average ∈ ema.tensors i, matchesAverage weights i average = true)
    (valueError "EMA requires matching shapes and finite parameters")

/-- One accepted update of every average. -/
def OpsdEma.accumulate (ema : OpsdEma ι α) (student : NamedTensors ι α) :
    OpsdEma ι α :=
  { ema with
    updates := ema.updates + 1
    tensors := fun i =>
      match ema.tensors i, student i with
      | some average, some (_, value) =>
          some (TensorOps.lerp average (TensorOps.toFloat32 value) (1 - ema.decay))
      | average, _ => average }

/-- `OPSDEMA.update`. -/
def OpsdEma.update (ema : OpsdEma ι α) (student : NamedTensors ι α) :
    Except PyError (OpsdEma ι α) := do
  ema.validate student
  .ok (ema.accumulate student)

/-- The contents `publish` leaves in the scoring weights: every average in the
dtype of its name, and what is not floating as it was. -/
def OpsdEma.published (ema : OpsdEma ι α) (dtype : ι → DType) (scoring : ι → α) :
    ι → α :=
  fun i =>
    match ema.tensors i with
    | some average => TensorOps.castTo (dtype i) average
    | none => scoring i

/-- `OPSDEMA.publish`. -/
def OpsdEma.publish (ema : OpsdEma ι α) (dtype : ι → DType) (scoring : ι → α) :
    Except PyError (ι → α) := do
  ema.validate (named dtype scoring)
  .ok (ema.published dtype scoring)

/-- What `OPSDEMA.save` writes and `OPSDEMA.load` reads. -/
structure EmaSource (ι α : Type) where
  decay : ℚ
  updates : Int
  tensors : NamedTensors ι α
  studentSha256 : String

/-- `OPSDEMA.load`. -/
def OpsdEma.load (ema : OpsdEma ι α) (state : EmaSource ι α)
    (studentSha256 : String) : Except PyError (OpsdEma ι α) := do
  check (state.decay = ema.decay ∧ state.studentSha256 = studentSha256)
    (valueError "EMA source belongs to a different decay or student fork")
  check (0 ≤ state.updates) (valueError "Invalid EMA update count")
  ema.validate state.tensors
  check (∀ i, ∀ entry ∈ state.tensors i, entry.1 = .float32)
    (valueError "EMA source must preserve FP32 accumulation")
  .ok
    { ema with
      tensors := fun i => (state.tensors i).map Prod.snd
      updates := state.updates.toNat }

omit [Fintype ι] in
/-- Publishing again over published weights forgets the earlier averages: only
the names are kept. -/
theorem OpsdEma.published_published {ema ema' : OpsdEma ι α} {dtype : ι → DType}
    {scoring : ι → α} (h : ∀ i, (ema.tensors i).isSome = (ema'.tensors i).isSome) :
    ema'.published dtype (ema.published dtype scoring) =
      ema'.published dtype scoring := by
  funext i
  unfold OpsdEma.published
  have hi := h i
  cases ht' : ema'.tensors i with
  | some average => rfl
  | none =>
      rw [ht'] at hi
      cases ht : ema.tensors i with
      | some average => rw [ht] at hi; exact absurd hi (by simp)
      | none => rfl

omit [Fintype ι] in
/-- Accumulating never changes which names are averaged. -/
theorem OpsdEma.accumulate_isSome {ema : OpsdEma ι α} {student : NamedTensors ι α}
    (i : ι) : ((ema.accumulate student).tensors i).isSome =
      (ema.tensors i).isSome := by
  unfold OpsdEma.accumulate
  cases ht : ema.tensors i with
  | some average =>
      cases hs : student i with
      | some entry => simp [ht, hs]
      | none => simp [ht, hs]
  | none => simp [ht]

end Ema

end Crisp.Ref
