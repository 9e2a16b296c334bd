import Crisp.Lib.Raise
import Crisp.Lib.Segments

/-!
# The paired batch of the original pipeline

`build_opsd_batch` tokenizes every sample twice, once behind the teacher's
prompt and once behind the student's, and pads both to one length. A sample
survives only when both of its sequences fit; nothing is truncated.

The chat template and the encoder are the tokenizer's own and stay abstract.
Either id it may lack is an `Option`, and `torch.tensor` is where a missing one
is noticed.
-/

namespace Crisp.Ref

open Crisp.Lib

/-- What is asked of a tokenizer. `applyChatTemplate` parses the prompt's JSON
and renders it with the generation prompt; `encode` adds no special token. -/
structure Tokenizer where
  applyChatTemplate : String → Except PyError (List Int)
  encode : String → List Int
  eosTokenId : Option Int
  padTokenId : Option Int

/-- `torch.tensor(ids, dtype=torch.long)`. -/
def tensor (ids : List (Option Int)) : Except PyError (List Int) :=
  ids.mapM fun id =>
    match id with
    | some id => .ok id
    | none =>
        .error (typeError "'NoneType' object cannot be interpreted as an integer")

/-- One padded sequence. -/
structure Sequence where
  inputIds : List Int
  attentionMask : List Nat
  positionIds : List Nat
  lossMask : List Nat
  deriving DecidableEq, Repr

/-- The response's tokens, closed with the end-of-sequence id. -/
def Tokenizer.responseIds (tok : Tokenizer) (responseText : String) :
    List (Option Int) :=
  let responseIds := (tok.encode responseText).map some
  if responseIds = [] ∨ responseIds.getLast? ≠ some tok.eosTokenId then
    responseIds ++ [tok.eosTokenId]
  else responseIds

/-- `_tokenize_sequence`. -/
def tokenizeSequence (promptStr responseText : String) (tok : Tokenizer)
    (maxLength : Int) (padTokenId : Option Int) :
    Except PyError (Option Sequence) := do
  let promptIds ← tok.applyChatTemplate promptStr
  let responseIds := tok.responseIds responseText
  let fullIds := promptIds.map some ++ responseIds
  let lossMask := List.replicate promptIds.length 0 ++
    List.replicate responseIds.length 1
  if (fullIds.length : Int) > maxLength then .ok none
  else
    let seqLen := fullIds.length
    if seqLen < 2 then .ok none
    else
      let padLen := (maxLength - seqLen).toNat
      let inputIds ← tensor (fullIds ++ List.replicate padLen padTokenId)
      .ok (some
        { inputIds
          attentionMask := List.replicate seqLen 1 ++ List.replicate padLen 0
          positionIds := List.range seqLen ++ List.replicate padLen 0
          lossMask := lossMask ++ List.replicate padLen 0 })

/-- One sample of a rollout: its two prompts and the student's response. -/
structure OpsdSample where
  teacherPrompt : String
  studentPrompt : String
  response : String
  deriving DecidableEq, Repr

/-- `zip(teacher_prompts, student_prompts, responses)`. -/
def zipSamples : List String → List String → List String → List OpsdSample
  | t :: ts, s :: ss, r :: rs => ⟨t, s, r⟩ :: zipSamples ts ss rs
  | _, _, _ => []

/-- The loop of `build_opsd_batch`. A sample is dropped when either of its
sequences is. -/
def pairedSequences (tok : Tokenizer) (maxLength : Int) (padTokenId : Option Int) :
    List OpsdSample → Except PyError (List (Sequence × Sequence))
  | [] => .ok []
  | sample :: samples => do
      let tSeq ← tokenizeSequence sample.teacherPrompt sample.response tok
        maxLength padTokenId
      let sSeq ← tokenizeSequence sample.studentPrompt sample.response tok
        maxLength padTokenId
      let rest ← pairedSequences tok maxLength padTokenId samples
      match tSeq, sSeq with
      | some tSeq, some sSeq => .ok ((tSeq, sSeq) :: rest)
      | _, _ => .ok rest

/-- The four stacked columns of one side of the batch. -/
structure SequenceColumns where
  inputIds : List (List Int)
  attentionMask : List (List Nat)
  positionIds : List (List Nat)
  lossMask : List (List Nat)
  deriving DecidableEq, Repr

/-- `torch.stack`, column by column. -/
def stack (seqs : List Sequence) : SequenceColumns :=
  { inputIds := seqs.map Sequence.inputIds
    attentionMask := seqs.map Sequence.attentionMask
    positionIds := seqs.map Sequence.positionIds
    lossMask := seqs.map Sequence.lossMask }

/-- The `DataProto` of an update. -/
structure OpsdBatch where
  teacher : SequenceColumns
  student : SequenceColumns
  deriving DecidableEq, Repr

/-- `build_opsd_batch`. -/
def buildOpsdBatch (teacherPrompts studentPrompts responses : List String)
    (tok : Tokenizer) (maxLength : Int) : Except PyError (Option OpsdBatch) :=
  if teacherPrompts = [] then .ok none
  else do
    let padTokenId :=
      match tok.padTokenId with
      | some id => some id
      | none => tok.eosTokenId
    let pairs ← pairedSequences tok maxLength padTokenId
      (zipSamples teacherPrompts studentPrompts responses)
    if pairs = [] then .ok none
    else
      .ok (some
        { teacher := stack (pairs.map Prod.fst)
          student := stack (pairs.map Prod.snd) })

/-! ## Slices of a batch -/

/-- The rows of micro-batch `j` of one side. -/
def SequenceColumns.microBatch (m j : Nat) (columns : SequenceColumns) :
    SequenceColumns :=
  { inputIds := microbatch m j columns.inputIds
    attentionMask := microbatch m j columns.attentionMask
    positionIds := microbatch m j columns.positionIds
    lossMask := microbatch m j columns.lossMask }

def OpsdBatch.microBatch (m j : Nat) (batch : OpsdBatch) : OpsdBatch :=
  { teacher := batch.teacher.microBatch m j
    student := batch.student.microBatch m j }

/-- `data.batch["student_input_ids"].shape[0]`. -/
def OpsdBatch.batchSize (batch : OpsdBatch) : Nat := batch.student.inputIds.length

/-- `data.split(micro_batch_size)`: consecutive slices of that many rows, the
last of them possibly short. -/
def OpsdBatch.split (m : Nat) (batch : OpsdBatch) : List OpsdBatch :=
  (List.range ((batch.batchSize + m - 1) / m)).map fun j => batch.microBatch m j

end Crisp.Ref
