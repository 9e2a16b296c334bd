import Crisp.Lib.Distinct
import Crisp.Ref.Eligible
import Crisp.Ref.EvaluateCheckpoint

/-!
# The record of an evaluation

`_evaluate`: what it reads and asks, in its order, around `_generate_rows`, and what
`_grade` and `_save_results` make of the rows. Servers and files may change at any
time, so what they answer is a function of how often they have been asked.
-/

namespace Crisp.Ref

open Crisp.Lib

/-- What `_evaluate` reads of the plan. -/
structure EvaluationPlan where
  task : String
  thinking : Bool
  pi : Bool
  samplesPerQuestion : Nat
  temperature : ℚ
  topP : ℚ
  topK : Int
  minP : ℚ
  responseCap : Nat
  templatedPrefixCap : Nat
  totalContextCap : Nat
  deriving DecidableEq, Repr

structure EvaluateArgs where
  model : String
  /-- Whether there is a `--checkpoint`. -/
  checkpoint : Bool
  /-- Whether there is an `--adapter`. -/
  adapter : Bool
  urls : List String
  concurrency : Nat
  responses : Nat
  seedNamespace : String
  limitQuestions : Option Int
  deriving DecidableEq, Repr

/-- What `/server_info` says, as far as it is checked. -/
structure ServerInfo where
  modelPath : String
  contextLength : Nat
  enableLora : Bool
  deriving DecidableEq, Repr

/-- What is asked of the outside while an evaluation runs. -/
inductive EvalCall where
  /-- `checkpoint_digest` -/
  | digest
  /-- `_file_hash` of the adapter. -/
  | adapterHash
  | updateWeights (url : String)
  | weightVersion (url : String)
  | serverInfo (url : String)
  | loadAdapter (url : String)
  | unloadAdapter (url : String)
  | generate
  | grade
  | save
  deriving DecidableEq, Repr

/-- What it answers the call of a given number. -/
structure EvalEnv where
  sha256 : String → List UInt8
  decode : String → Except PyError GenerateReply
  tokenizer : ChatTokenizer
  /-- `Path.resolve` -/
  resolve : String → String
  /-- `open("x")` of the file of responses. -/
  openSink : Except PyError Unit
  /-- Its `close`, which writes what is left in its buffer. -/
  closeSink : Except PyError Unit
  digest : Nat → Except PyError String
  adapterHash : Nat → Except PyError String
  /-- Whether `success` is `True`. -/
  updateWeights : Nat → String → Except PyError Bool
  weightVersion : Nat → String → Except PyError String
  serverInfo : Nat → String → Except PyError ServerInfo
  /-- The answer as text, where its `success` is `False`. -/
  loadAdapter : Nat → String → Except PyError (Option String)
  unloadAdapter : Nat → String → Except PyError Unit
  generation : Nat → List GenerationInput
  /-- Whether the alarm went off at a row. -/
  alarm : Nat → Nat → Bool
  /-- What `grade_code` writes into the row of a question and a draw. -/
  gradeCode : Nat → List ResponseRow → Except PyError (String × Nat → EvalGrade)
  gradeAnswerMathd : String → String → Bool
  gradeAnswerSympy : String → String → Bool
  /-- `Decimal(mathd_normalize_answer(text))`, where it is a finite number. -/
  decimal : String → Option ℚ
  save : Nat → Except PyError Unit
  /-- The summary on the standard output. -/
  printSummary : Except PyError Unit

/-! ## `_grade` -/

/-- `_integer_answer`, where it returns. -/
def integerAnswer (env : EvalEnv) (text : String) : Option Int :=
  if text.contains '=' then none
  else
    match env.decimal text with
    | some value => if value.den = 1 then some value.num else none
    | none => none

/-- `_grade_one`. -/
def gradeOne (env : EvalEnv) (row : ResponseRow) (gold : String) : EvalGrade :=
  let answer := extractBoxedAnswer row.text
  let gold := if "\\boxed".toList <:+: gold.toList then extractBoxedAnswer gold else some gold
  let correct :=
    match answer, gold with
    | some answer, some gold =>
        if "AIME".toList <+: row.dataset.toList then
          match integerAnswer env answer, integerAnswer env gold with
          | some x, some y => decide (x = y)
          | _, _ => false
        else env.gradeAnswerMathd answer gold || env.gradeAnswerSympy answer gold
    | _, _ => false
  ⟨correct, answer.isNone, false, none⟩

/-- `_grade`: a row at which the alarm goes off counts as one without an answer. -/
def gradeRows (env : EvalEnv) (now : Nat) (labels : String → String) (rows : List ResponseRow) :
    List (ResponseRow × EvalGrade) :=
  rows.zipIdx.map fun item =>
    (item.1, if env.alarm now item.2 then ⟨false, true, true, none⟩
      else gradeOne env item.1 (labels item.1.id))

/-! ## `_save_results` -/

/-- The entry of one dataset. -/
structure DatasetMetrics where
  avgAt8 : ℚ
  completions : Nat
  capHitFraction : ℚ
  parseFailureFraction : ℚ
  graderTimeouts : Nat
  unexpectedThinkingDelimiters : Nat
  /-- `pass_at_8` and `test_failure_fraction`. -/
  code : Option (ℚ × ℚ)
  deriving DecidableEq, Repr

def fraction {α : Type} (p : α → Bool) (subset : List α) : ℚ :=
  (subset.countP p : ℚ) / subset.length

def thinkingDelimiter (row : ResponseRow) : Bool :=
  "<think>".toList <:+: row.text.toList ∨ "</think>".toList <:+: row.text.toList

/-- The questions of a set of rows with a draw that passed. -/
def passAt8 (subset : List (ResponseRow × EvalGrade)) : ℚ :=
  let questionIds := firstOccurrences (subset.map fun item => item.1.id)
  (questionIds.countP fun q => subset.any fun item => item.2.correct && item.1.id == q : ℚ) /
    questionIds.length

def datasetMetrics (responseCap : Nat) (subset : List (ResponseRow × EvalGrade)) :
    DatasetMetrics where
  avgAt8 := fraction (fun item => item.2.correct) subset
  completions := subset.length
  capHitFraction := fraction (fun item => responseCap ≤ item.1.tokens) subset
  parseFailureFraction := fraction (fun item => item.2.parseFailure) subset
  graderTimeouts := subset.countP fun item => item.2.graderTimeout
  unexpectedThinkingDelimiters := subset.countP fun item => thinkingDelimiter item.1
  code :=
    if (subset.head?.bind fun item => item.2.testFailure).isSome then
      some (passAt8 subset, fraction (fun item => item.2.testFailure.getD false) subset)
    else none

/-- `metrics` -/
def evaluationMetrics (responseCap : Nat) (graded : List (ResponseRow × EvalGrade)) :
    List (String × DatasetMetrics) :=
  (firstOccurrences (graded.map fun item => item.1.dataset)).map fun dataset =>
    (dataset, datasetMetrics responseCap (graded.filter fun item => item.1.dataset = dataset))

/-- What is written, without the timings and the provenance. -/
structure EvaluationRecord where
  adapterSha256 : Option String
  checkpointSha256 : Option String
  concurrencyPerServer : Nat
  servers : Nat
  completions : Nat
  metrics : List (String × DatasetMetrics)
  responses : List (ResponseRow × EvalGrade)

def evaluationRecord (args : EvaluateArgs) (plan : EvaluationPlan)
    (graded : List (ResponseRow × EvalGrade)) (adapterHash checkpointHash : Option String) :
    EvaluationRecord where
  adapterSha256 := adapterHash
  checkpointSha256 := checkpointHash
  concurrencyPerServer := args.concurrency
  servers := args.urls.length
  completions := graded.length
  metrics := evaluationMetrics plan.responseCap graded
  responses := graded

/-! ## `_evaluate` -/

/-- What the process has open, loaded, asked and written. -/
structure EvalWorld where
  sinkOpen : Bool := false
  loaded : List String := []
  calls : List EvalCall := []
  saved : Option EvaluationRecord := none

/-- One question to the outside. -/
def askOne {α : Type} (call : EvalCall) (answer : Nat → Except PyError α) :
    EStateM PyError EvalWorld α := do
  let w ← get
  modify fun w => { w with calls := w.calls ++ [call] }
  lift (answer w.calls.length)

/-- `asyncio.gather` over the servers: all are asked, also where one raises. -/
def askAll {α : Type} (call : String → EvalCall) (answer : Nat → String → Except PyError α)
    (urls : List String) : EStateM PyError EvalWorld (List α) := do
  let w ← get
  modify fun w => { w with calls := w.calls ++ urls.map call }
  lift ((urls.zipIdx w.calls.length).mapM fun item => answer item.2 item.1)

/-- `prompts[:limit]` -/
def limitPrompts (limit : Option Int) (prompts : List EvalPrompt) : List EvalPrompt :=
  match limit with
  | none => prompts
  | some (.ofNat n) => prompts.take n
  | some (.negSucc n) => prompts.take (prompts.length - (n + 1))

variable (env : EvalEnv) (args : EvaluateArgs) (plan : EvaluationPlan)

/-- The checks that read only the plan and the inputs. -/
def checkEvaluationInputs (prompts : List EvalPrompt) (labels : List (String × String)) :
    Except PyError Unit := do
  check (plan.task = "math" ∨ plan.task = "code") (valueError "Unknown evaluation task")
  check (plan.thinking = false ∧ plan.pi = false ∧ plan.samplesPerQuestion = args.responses)
    (valueError
      "This evaluator requires non-thinking, unprivileged, eight-response evaluation")
  check ((labels.map Prod.fst).Nodup ∧ (prompts.map EvalPrompt.id).Nodup)
    (valueError "Evaluation inputs contain duplicate question IDs")
  check (∀ row ∈ prompts, row.id ∈ labels.map Prod.fst) (valueError "Missing evaluation labels")

/-- The prefixes of the prompts, all within the context budget. -/
def evaluationPrefixes (prompts : List EvalPrompt) : Except PyError (List (List Int)) := do
  let paired ← prompts.mapM fun row =>
    makeStudyPrefixes env.tokenizer row.problem none plan.task
  let prefixes := paired.map PairedPrefixes.studentIds
  check (∀ pfx ∈ prefixes, pfx.length ≤ plan.templatedPrefixCap ∧
      pfx.length + plan.responseCap ≤ plan.totalContextCap)
    (valueError "Evaluation prefix and response exceed the declared context budget")
  .ok prefixes

/-- `_verify_full_versions`. -/
def verifyFullVersions (expected : String) : EStateM PyError EvalWorld Unit := do
  let versions ← askAll .weightVersion env.weightVersion args.urls
  require (versions ≠ [] ∧ ∀ version ∈ versions, version = expected)
    (valueError "Evaluator fleet did not retain the requested full-model checkpoint")

/-- `_pin_full_checkpoint`. -/
def pinFullCheckpoint (version : String) : EStateM PyError EvalWorld Unit := do
  let results ← askAll .updateWeights env.updateWeights args.urls
  require (∀ success ∈ results, success = true)
    (runtimeError "Failed to load the full-model checkpoint on every evaluator")
  verifyFullVersions env args version

/-- `_server_configuration`, after the answer. -/
def serverConfiguration (info : ServerInfo) : Except PyError Unit := do
  check (env.resolve info.modelPath = env.resolve args.model)
    (valueError "Evaluator endpoint serves a different local base checkpoint")
  check (plan.totalContextCap ≤ info.contextLength)
    (valueError "Evaluator server context would shorten the declared response budget")
  check (args.adapter = true → info.enableLora = true)
    (valueError "Evaluator endpoint has no adapter support")

/-- One round of the loop that loads the adapter. -/
def loadAdapterOn (url : String) : EStateM PyError EvalWorld Unit := do
  let refused ← askOne (.loadAdapter url) fun now => env.loadAdapter now url
  require (refused = none) (runtimeError s!"Adapter load failed: {refused.getD default}")
  modify fun w => { w with loaded := w.loaded ++ [url] }

/-- `if args.adapter:` and the loop. -/
def loadAdapters : EStateM PyError EvalWorld Unit :=
  if args.adapter then args.urls.forM (loadAdapterOn env) else pure ⟨⟩

/-- `await _generate_rows(…)`. A request has a deadline: where the choices given stop short
of it, that is what is raised. -/
def awaitRows (prompts : List EvalPrompt) (prefixes : List (List Int))
    (checkpointHash adapterName : Option String) : EStateM PyError EvalWorld (List ResponseRow) :=
  askOne .generate fun now =>
    let sample : SampleArgs :=
      ⟨args.urls, args.concurrency, args.responses, args.seedNamespace, adapterName,
        ⟨plan.temperature, plan.topP, plan.topK, plan.minP, plan.responseCap⟩, checkpointHash⟩
    let s := generateRows env.sha256 env.decode sample prompts prefixes (env.generation now)
    s.gathered.getD (.error ⟨.timeout, ""⟩)

/-- The body of the `try`. -/
def evaluationBody (prompts : List EvalPrompt) (prefixes : List (List Int))
    (checkpointHash adapterHash : Option String) :
    EStateM PyError EvalWorld (List ResponseRow) := do
  checkpointHash.forM (pinFullCheckpoint env args)
  let _ ← askAll .serverInfo (fun now url =>
    env.serverInfo now url >>= serverConfiguration env args plan) args.urls
  loadAdapters env args
  let rows ← awaitRows env args plan prompts prefixes checkpointHash
    (adapterHash.map fun hash => "opsd-" ++ String.ofList (hash.toList.take 16))
  checkpointHash.forM (verifyFullVersions env args)
  pure rows

/-- The `finally`. A file whose `close` raises is closed all the same. -/
def evaluationExit : EStateM PyError EvalWorld Unit := do
  modify fun w => { w with sinkOpen := false }
  lift env.closeSink
  let w ← get
  w.loaded.forM fun url => askOne (.unloadAdapter url) fun now => env.unloadAdapter now url

/-- The grades, by task. -/
def gradeEvaluation (labels : List (String × String)) (rows : List ResponseRow) :
    EStateM PyError EvalWorld (List (ResponseRow × EvalGrade)) :=
  askOne .grade fun now =>
    if plan.task = "code" then
      (env.gradeCode now rows).map fun grade => rows.map fun row => (row, grade (row.id, row.draw))
    else .ok (gradeRows env now (fun id => (tableOf labels id).getD "") rows)

/-- `… if args.checkpoint else None` -/
def hashIf (condition : Bool) (call : EvalCall) (answer : Nat → Except PyError String) :
    EStateM PyError EvalWorld (Option String) :=
  if condition then some <$> askOne call answer else pure none

/-- The file is read again, and has to be what it was. -/
def sameHash (call : EvalCall) (answer : Nat → Except PyError String) (message hash : String) :
    EStateM PyError EvalWorld Unit := do
  let now ← askOne call answer
  require (hash = now) (valueError message)

/-- The effects of `_save_results`: the record is in its place before it is printed. -/
def saveResults (graded : List (ResponseRow × EvalGrade))
    (adapterHash checkpointHash : Option String) : EStateM PyError EvalWorld Unit := do
  askOne .save env.save
  modify fun w => { w with
    saved := some (evaluationRecord args plan graded adapterHash checkpointHash) }
  lift env.printSummary

/-- `_evaluate`. -/
def evaluate (allPrompts : List EvalPrompt) (labels : List (String × String)) :
    EStateM PyError EvalWorld Unit := do
  let prompts := limitPrompts args.limitQuestions allPrompts
  lift (checkEvaluationInputs args plan prompts labels)
  let checkpointHash ← hashIf args.checkpoint .digest env.digest
  let prefixes ← lift (evaluationPrefixes env plan prompts)
  let adapterHash ← hashIf args.adapter .adapterHash env.adapterHash
  lift env.openSink
  modify fun w => { w with sinkOpen := true }
  let rows ← tryFinally (evaluationBody env args plan prompts prefixes checkpointHash adapterHash)
    (evaluationExit env)
  adapterHash.forM (sameHash .adapterHash env.adapterHash "Adapter changed during evaluation")
  checkpointHash.forM
    (sameHash .digest env.digest "Full-model checkpoint changed during evaluation")
  let graded ← gradeEvaluation env plan labels rows
  saveResults env args plan graded adapterHash checkpointHash

end Crisp.Ref
