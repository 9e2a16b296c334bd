import Crisp.Lib.Select
import Crisp.Ref.SdVerifier

/-!
# The worker's training step

Both forward paths of the worker return the logits of the positions before
response tokens, flattened over the micro-batch. The padded path shifts each
row's mask against its logits; the unpadded path first concatenates what the
attention mask keeps and shifts once, across all samples.

A model is whatever it returns for a call. `unpad_input` comes from a package
and is a parameter with the behaviour the unpadded path relies on.

The last section is the teacher's update, a copy of one rank's shards in lock-step
with the actor's. What the offload calls around it move, they move unchanged.
-/

namespace Crisp.Ref

open Crisp.Lib

variable {Λ : Type}

/-- A call with padded rows, or with one packed row. `Λ` is a row of logits. -/
structure ForwardModel (Λ : Type) where
  padded : List (List Int) → List (List Nat) → List (List Nat) → List (List Λ)
  packed : List Int → List Nat → List Λ

/-- `unpad_input(input_ids, attention_mask)`: the attended entries in row-major
order, and their flat indices. -/
structure UnpadInput where
  call : List (List Int) → List (List Nat) → List Int × List Nat
  indices : ∀ ids mask, (call ids mask).2 = nonzero mask.flatten
  entries : ∀ ids mask, (call ids mask).1 = gather ids.flatten (nonzero mask.flatten)

/-- The package's own. -/
def UnpadInput.rowMajor : UnpadInput where
  call := fun ids mask =>
    (gather ids.flatten (nonzero mask.flatten), nonzero mask.flatten)
  indices := fun _ _ => rfl
  entries := fun _ _ => rfl

/-- `_forward_logits_padded`. -/
def forwardLogitsPadded (model : ForwardModel Λ) (columns : SequenceColumns) :
    List Λ :=
  let logits := model.padded columns.inputIds columns.attentionMask
    columns.positionIds
  -- logits[t] predicts token[t + 1]
  let shiftLogits := logits.map List.dropLast
  let shiftLossMask := columns.lossMask.map (List.drop 1)
  let responseIndices := nonzero shiftLossMask.flatten
  gather shiftLogits.flatten responseIndices

/-- `_forward_logits_unpadded`. -/
def forwardLogitsUnpadded (unpad : UnpadInput) (model : ForwardModel Λ)
    (columns : SequenceColumns) : List Λ :=
  let (inputIdsRmpad, indices) := unpad.call columns.inputIds columns.attentionMask
  let positionIdsRmpad := gather columns.positionIds.flatten indices
  let logitsRmpad := model.packed inputIdsRmpad positionIdsRmpad
  let lossMaskRmpad := gather columns.lossMask.flatten indices
  let responseIndices := nonzero (shiftMask lossMaskRmpad)
  gather logitsRmpad responseIndices

/-- The path `use_remove_padding` picks. -/
def forwardLogits (useRemovePadding : Bool) (unpad : UnpadInput)
    (model : ForwardModel Λ) (columns : SequenceColumns) : List Λ :=
  if useRemovePadding then forwardLogitsUnpadded unpad model columns
  else forwardLogitsPadded model columns

def alignmentMessage (teacher student : Nat) : String :=
  "teacher/student response-token count mismatch: " ++ toString teacher ++ " vs " ++
    toString student ++
    ". Upstream invariant (filter_overlong_prompts + build_opsd_batch) was violated; " ++
    "check data.max_prompt_length and opsd.sft_max_length."

/-- The two forwards of a micro-batch and the assertion that follows them. -/
def alignedLogits (useRemovePadding : Bool) (unpad : UnpadInput)
    (refModule actorModule : ForwardModel Λ) (microBatch : OpsdBatch) :
    Except PyError (List Λ × List Λ) := do
  let teacherLogits := forwardLogits useRemovePadding unpad refModule microBatch.teacher
  let studentLogits := forwardLogits useRemovePadding unpad actorModule microBatch.student
  check (teacherLogits.length = studentLogits.length)
    (assertionError (alignmentMessage teacherLogits.length studentLogits.length))
  .ok (teacherLogits, studentLogits)

/-! ## The teacher's hard copy -/

section HardCopy

variable {δ α : Type}

/-- One rank's shard of a parameter. -/
structure Shard (δ α : Type) where
  shape : List Nat
  dtype : δ
  data : List α
  size : data.length = shape.prod

/-- `p_teacher.data.copy_(p_student.data)`: every value, in the teacher's dtype. -/
def Shard.copyData (round : δ → α → α) (teacher student : Shard δ α)
    (h : student.shape = teacher.shape) : Shard δ α :=
  { teacher with
    data := student.data.map (round teacher.dtype)
    size := by rw [List.length_map, student.size, h] }

/-- `tuple(shape)` as text. -/
def shapeText : List Nat → String
  | [n] => "(" ++ toString n ++ ",)"
  | shape => "(" ++ String.intercalate ", " (shape.map toString) ++ ")"

def shardMessage (nParams : Nat) (student teacher : Shard δ α) : String :=
  "update_teacher shard mismatch at param " ++ toString nParams ++ ": actor shard " ++
    shapeText student.shape ++ " vs ref shard " ++ shapeText teacher.shape ++
    ". Both FSDP modules must be wrapped with the same policy on the same mesh."

/-- The loop over both parameter lists: how it ended, and the teacher's shards as
it left them. `zip` stops at the end of the shorter list. -/
def copyShards (round : δ → α → α) (nParams : Nat) :
    List (Shard δ α) → List (Shard δ α) → Except PyError Unit × List (Shard δ α)
  | student :: students, teacher :: teachers =>
      if h : student.shape = teacher.shape then
        let (result, rest) := copyShards round (nParams + 1) students teachers
        (result, teacher.copyData round student h :: rest)
      else (.error (runtimeError (shardMessage nParams student teacher)), teacher :: teachers)
  | _, teachers => (.ok ⟨⟩, teachers)

/-- What a rank holds of both modules. -/
structure HybridWorker (δ α : Type) where
  isActor : Bool
  actorModuleFsdp : List (Shard δ α)
  refModuleFsdp : Option (List (Shard δ α))

/-- `update_teacher`, and the `meta_info` it returns. -/
def updateTeacher (round : δ → α → α) :
    EStateM PyError (HybridWorker δ α) (List (String × Bool)) := do
  let worker ← get
  require (worker.isActor = true) (assertionError "update_teacher requires actor role")
  match worker.refModuleFsdp with
  | none => throw (assertionError "update_teacher requires ref_module_fsdp (ref model)")
  | some teachers =>
      let (result, copied) := copyShards round 0 worker.actorModuleFsdp teachers
      modify fun worker => { worker with refModuleFsdp := some copied }
      lift result
      return [("teacher_updated", true)]

end HardCopy

end Crisp.Ref
