import Crisp.Lib.Raise
import Crisp.Lib.Runs
import Mathlib.Algebra.Order.Ring.Rat
import Mathlib.Algebra.BigOperators.Group.List.Basic

/-!
# Evaluating one checkpoint

`evaluate_checkpoint.py`. All responses are requested at once, each behind the
semaphore of its server; the event loop decides which waiting request goes
through next and the servers which pending one is answered, so `_generate_rows` is
a machine whose inputs are those choices and the answers. What `hashlib.sha256`
makes of a text and what `json.loads` finds in a body are parameters.
-/

namespace Crisp.Ref

open Crisp.Lib

/-! ## One request -/

/-- A line of the prompts file. -/
structure EvalPrompt where
  id : String
  dataset : String
  problem : String
  deriving DecidableEq, Repr

/-- `sampling` in `_evaluate`. -/
structure EvalSampling where
  temperature : ℚ
  topP : ℚ
  topK : Int
  minP : ℚ
  maxNewTokens : Nat
  deriving DecidableEq, Repr

structure EvalPayload where
  inputIds : List Int
  sampling : EvalSampling
  samplingSeed : Nat
  repetitionPenalty : ℚ
  presencePenalty : ℚ
  frequencyPenalty : ℚ
  loraPath : Option String
  deriving DecidableEq, Repr

/-- What a 200 answer to `/generate` holds; the version as its text. -/
structure GenerateReply where
  text : String
  completionTokens : Nat
  finishReason : String
  weightVersion : Option String
  deriving DecidableEq, Repr

/-- What comes back from a `POST`: a status and a body, or an exception of the client. -/
inductive HttpReply where
  | response (status : Nat) (body : String)
  | lost (error : PyError)
  deriving DecidableEq, Repr

/-- `_post`. -/
def postReply {α : Type} (decode : String → Except PyError α) : HttpReply → Except PyError α
  | .lost error => .error error
  | .response status body =>
      if status ≠ 200 then
        .error (runtimeError s!"SGLang HTTP {status}: {String.ofList (body.toList.take 500)}")
      else decode body

/-- The outcome fields of a row, once graded. -/
structure EvalGrade where
  correct : Bool
  parseFailure : Bool
  graderTimeout : Bool
  /-- Code rows only. -/
  testFailure : Option Bool
  deriving DecidableEq, Repr

structure ResponseRow where
  id : String
  dataset : String
  draw : Nat
  seed : Nat
  text : String
  tokens : Nat
  finishReason : String
  latencySeconds : ℚ
  weightVersion : Option String
  deriving DecidableEq, Repr

section Sample

variable (sha256 : String → List UInt8)

/-- `int.from_bytes(digest[:4], "big") % (2**31)` -/
def evaluationSeed (seedNamespace questionId : String) (draw : Nat) : Nat :=
  ((sha256 s!"{seedNamespace}:{questionId}:{draw}").take 4).foldl
    (fun n byte => n * 256 + byte.toNat) 0 % 2 ^ 31

/-- What `_generate_rows` hands every `_sample`. -/
structure SampleArgs where
  urls : List String
  concurrency : Nat
  responses : Nat
  seedNamespace : String
  adapterName : Option String
  sampling : EvalSampling
  /-- `weight_version` -/
  checkpointHash : Option String
  deriving DecidableEq, Repr

/-- One call of `_sample`, and which of the servers it goes to. -/
structure EvalTask where
  row : EvalPrompt
  pfx : List Int
  draw : Nat
  server : Nat
  deriving DecidableEq, Repr

def EvalTask.payload (args : SampleArgs) (task : EvalTask) : EvalPayload where
  inputIds := task.pfx
  sampling := args.sampling
  samplingSeed := evaluationSeed sha256 args.seedNamespace task.row.id task.draw
  repetitionPenalty := 1
  presencePenalty := 0
  frequencyPenalty := 0
  loraPath := args.adapterName

/-- `url + "/generate"` and the payload. -/
def EvalTask.post (args : SampleArgs) (task : EvalTask) : String × EvalPayload :=
  (args.urls.getD task.server "" ++ "/generate", task.payload sha256 args)

/-- `str(meta.get("weight_version"))` -/
def GenerateReply.versionText (reply : GenerateReply) : String :=
  reply.weightVersion.getD "None"

/-- `_sample` after the answer: the version, and the row. -/
def EvalTask.finish (args : SampleArgs) (task : EvalTask) (elapsed : ℚ) (reply : GenerateReply) :
    Except PyError ResponseRow := do
  check (∀ version, args.checkpointHash = some version → reply.versionText = version)
    (valueError "Evaluation response came from a different full-model checkpoint")
  .ok {
    id := task.row.id
    dataset := task.row.dataset
    draw := task.draw
    seed := evaluationSeed sha256 args.seedNamespace task.row.id task.draw
    text := reply.text
    tokens := reply.completionTokens
    finishReason := reply.finishReason
    latencySeconds := elapsed
    weightVersion := reply.weightVersion }

end Sample

/-! ## `_generate_rows` -/

/-- The inner loop: the draws of one prompt. -/
def promptTasks (args : SampleArgs) (requests : List EvalTask) (item : EvalPrompt × List Int) :
    List EvalTask :=
  (List.range args.responses).foldl
    (fun requests draw =>
      requests ++ [⟨item.1, item.2, draw, requests.length % args.urls.length⟩])
    requests

/-- `requests`. The two lists are of one length, or `zip` raises. -/
def evalTasks (args : SampleArgs) (prompts : List EvalPrompt) (prefixes : List (List Int)) :
    List EvalTask :=
  (prompts.zip prefixes).foldl (promptTasks args) []

inductive TaskPhase where
  /-- At the semaphore of its server. -/
  | waiting
  /-- Inside `async with semaphore`. -/
  | posted
  | done (row : ResponseRow)
  | failed (error : PyError)
  deriving DecidableEq, Repr

/-- The tasks, the requests sent, the file they write to and what `gather` has raised. -/
structure Generation where
  tasks : List (EvalTask × TaskPhase)
  posts : List (String × EvalPayload)
  sink : List ResponseRow
  raised : Option PyError
  closed : Bool

/-- What the event loop does next. -/
inductive GenerationInput where
  | enter (i : Nat)
  | answer (i : Nat) (elapsed : ℚ) (reply : HttpReply)
  /-- The caller closes the file, after `gather` has returned or raised. -/
  | close

def Generation.start (tasks : List EvalTask) : Generation :=
  ⟨tasks.map fun task => (task, .waiting), [], [], none, false⟩

/-- How many requests a server has to answer. -/
def Generation.inFlight (s : Generation) (server : Nat) : Nat :=
  s.tasks.countP fun item => item.1.server = server ∧ item.2 = .posted

/-- The row of a task that returned. -/
def TaskPhase.row? : TaskPhase → Option ResponseRow
  | .done row => some row
  | _ => none

/-- `gather`, which returns when every task has and raises with the first that does. -/
def Generation.gathered (s : Generation) : Option (Except PyError (List ResponseRow)) :=
  match s.raised with
  | some error => some (.error error)
  | none =>
      if ∀ item ∈ s.tasks, item.2.row?.isSome then
        some (.ok (s.tasks.filterMap fun item => item.2.row?))
      else none

def Generation.fail (s : Generation) (i : Nat) (task : EvalTask) (error : PyError) : Generation :=
  { s with tasks := s.tasks.set i (task, .failed error), raised := s.raised <|> some error }

section Step

variable (sha256 : String → List UInt8) (decode : String → Except PyError GenerateReply)
  (args : SampleArgs)

/-- What a task does with an answer, up to its return. -/
def Generation.answered (s : Generation) (i : Nat) (task : EvalTask) (elapsed : ℚ)
    (reply : HttpReply) : Generation :=
  match postReply decode reply >>= task.finish sha256 args elapsed with
  | .error error => s.fail i task error
  | .ok row =>
      if s.closed then s.fail i task (valueError "I/O operation on closed file.")
      else { s with tasks := s.tasks.set i (task, .done row), sink := s.sink ++ [row] }

def generationStep (s : Generation) : GenerationInput → Generation
  | .enter i =>
      match s.tasks[i]? with
      | some (task, .waiting) =>
          if s.inFlight task.server < args.concurrency then
            { s with
              tasks := s.tasks.set i (task, .posted)
              posts := s.posts ++ [task.post sha256 args] }
          else s
      | _ => s
  | .answer i elapsed reply =>
      match s.tasks[i]? with
      | some (task, .posted) => s.answered sha256 decode args i task elapsed reply
      | _ => s
  | .close => if s.gathered.isSome then { s with closed := true } else s

/-- The state of `_generate_rows` after any order of its steps. -/
def generateRows (prompts : List EvalPrompt) (prefixes : List (List Int))
    (inputs : List GenerationInput) : Generation :=
  runFrom (generationStep sha256 decode args) (.start (evalTasks args prompts prefixes)) inputs

end Step

end Crisp.Ref
