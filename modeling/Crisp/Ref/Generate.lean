import Crisp.Ref.TrainActor

/-!
# Token-in/token-out generation

The rollout process templates two prefixes from one problem, sends the
student's to the engine and keeps the engine's token IDs behind it. In a cyclic
run the schedule owns the context of a training request; the trainer only sees
token lists, and finds the phase again by comparing prefixes.

The tokenizer and the engine are outside the repository. A tokenizer renders
one user message and encodes text; an engine answers a payload with text and
token IDs, and the bookkeeping of everything else in its answer may raise.
-/

namespace Crisp.Ref

open Crisp.Lib

/-! ## Paired prefixes -/

/-- What the prefixes ask of a tokenizer: `apply_chat_template` of one user
message with the generation prompt, and `encode` without special tokens. -/
structure ChatTokenizer where
  applyChatTemplate : (content : String) → (enableThinking : Bool) → String
  encode : String → List Int
  padTokenId : Option Int

/-- `_ANSWER_INSTRUCTION`. -/
def answerInstruction : String :=
  "Please reason step by step, and put your final answer within \\boxed\x7b\x7d."

/-- `_TASK_INSTRUCTIONS[task]`. -/
def taskInstruction : String → Except PyError String
  | "math" => .ok answerInstruction
  | "code" =>
      .ok ("Return a complete Python implementation in one Python code block, including the " ++
        "required function signature and imports.")
  | task => .error (keyError s!"'{task}'")

/-- `_TRANSITION`. -/
def transition : String :=
  "\n\nAfter reading the reference solution above, make sure you truly understand " ++
  "the reasoning behind each step — do not copy or paraphrase it. Now, using your " ++
  "own words and independent reasoning, derive the same final answer to the problem above. " ++
  "Think step by step, explore different approaches, and don't be afraid to backtrack " ++
  "or reconsider if something doesn't work out:\n"

structure PairedPrefixes where
  studentIds : List Int
  teacherIds : List Int

/-- `_encode_prefix`. -/
def encodePrefix (tokenizer : ChatTokenizer) (content : String) (thinking : Bool) : List Int :=
  tokenizer.encode (tokenizer.applyChatTemplate content thinking)

/-- The student's message, under a task's instruction. -/
def studentMessage (problem instruction : String) : String :=
  s!"Problem: {problem}\n\n{instruction}"

/-- `make_opsd_prefixes`. An absent solution is permitted for unprivileged
evaluation only. -/
def makeOpsdPrefixes (tokenizer : ChatTokenizer) (problem : String)
    (solution : Option String) : PairedPrefixes :=
  { studentIds :=
      encodePrefix tokenizer (studentMessage problem answerInstruction) false
    teacherIds :=
      match solution with
      | none => []
      | some solution =>
          encodePrefix tokenizer
            (s!"Problem: {problem}\n\n" ++
              "Here is a reference solution to this problem:\n" ++
              s!"=== Reference Solution Begin ===\n{solution}\n=== Reference Solution End ===\n" ++
              s!"{transition}\n{answerInstruction}") true }

/-- The teacher's message of a study arm: the same neutral wrapper for every
context. -/
def contextMessage (problem context instruction : String) : String :=
  s!"Problem: {problem}\n\nAdditional reference context:\n" ++
    s!"=== Context Begin ===\n{context}\n=== Context End ===\n\n" ++
    s!"Solve the problem independently using any relevant information above.\n{instruction}"

/-- `make_study_prefixes`. No context means the exact student prefix; an empty
one keeps the wrapper. -/
def makeStudyPrefixes (tokenizer : ChatTokenizer) (problem : String)
    (context : Option String) (task : String) : Except PyError PairedPrefixes := do
  let instruction ← taskInstruction task
  let student := encodePrefix tokenizer (studentMessage problem instruction) false
  match context with
  | none => .ok ⟨student, student⟩
  | some context =>
      .ok ⟨student, encodePrefix tokenizer (contextMessage problem context instruction) false⟩

/-- `validate_response_ids`. -/
def validateResponseIds (tokens studentPrefix : List Int) (responseLength : Nat) :
    Except PyError Unit := do
  check (responseLength ≤ tokens.length ∧
      tokens.length - responseLength = studentPrefix.length)
    (valueError "OPSD generation changed the student prefix length")
  check (tokens.take studentPrefix.length = studentPrefix)
    (valueError "OPSD generation changed the student prefix token IDs")

/-! ## Requests -/

/-- The arguments only the rollout process reads. -/
structure RolloutArgs extends Args where
  opsdTask : String := "math"
  evalMaxContextLen : Option Nat := none
  rolloutMaxContextLen : Option Nat := none
  sglangRouterPolicy : String := "round_robin"

/-- A raw problem, or the messages of a conversation. -/
inductive Prompt where
  | text (problem : String)
  | messages

/-- A value of `sample.metadata`. -/
inductive MetadataValue where
  | text (value : String)
  | number (value : Int)
  | other

inductive SampleStatus where
  | pending
  | completed
  | truncated
  | aborted
  | failed
  deriving DecidableEq, Repr

/-- A `Sample` of the rollout process, as far as generation and the conversion
to training data read it. Of two entries of the metadata under one key the first
counts. -/
structure RolloutSample where
  index : Option Int := none
  prompt : Prompt
  multimodalInputs : Bool := false
  tokens : List Int := []
  response : String := ""
  responseLength : Nat := 0
  reward : Option ℚ := none
  lossMask : Option (List Int) := none
  removeSample : Bool := false
  teacherPromptIds : Option (List Int) := none
  status : SampleStatus := .pending
  metadata : List (String × MetadataValue) := []
  routingKey : Option String := none

/-- `GenerateFnInput`, with `sampling_params["max_new_tokens"]`. -/
structure GenerateFnInput where
  args : RolloutArgs
  tokenizer : ChatTokenizer
  sample : RolloutSample
  maxNewTokens : Int
  evaluation : Bool
  rolloutId : Option Int := none

/-- What is sent of a request. -/
structure Payload where
  inputIds : List Int
  maxNewTokens : Int

/-- What is read of an answer: `output["text"]` and the IDs in
`output_token_logprobs`, none where that is missing. -/
structure EngineOutput where
  text : String
  outputTokenIds : List Int

/-- One request's dealings outside: whether the options of its payload are
accepted, the answer, and how `update_sample_from_response` gets on with the
rest of the answer, which also gives the sample its status. -/
structure Engine where
  requestOptions : Except PyError Unit
  post : Payload → Except PyError EngineOutput
  recordAnswer : RolloutSample → EngineOutput → Except PyError SampleStatus

/-- The new tokens a request may ask for, within the context length of a rollout. -/
def allowedNewTokens (args : RolloutArgs) (inputIds : List Int) (maxNewTokens : Int) : Int :=
  match args.rolloutMaxContextLen with
  | none => maxNewTokens
  | some cap => if cap = 0 then maxNewTokens else min maxNewTokens (cap - inputIds.length)

/-- `compute_request_payload`. No payload means that the request is halted. -/
def computeRequestPayload (engine : Engine) (args : RolloutArgs) (inputIds : List Int)
    (maxNewTokens : Int) : Except PyError (Option Payload) :=
  let maxNewTokens := allowedNewTokens args inputIds maxNewTokens
  if maxNewTokens ≤ 0 then .ok none
  else do
    engine.requestOptions
    .ok (some { inputIds, maxNewTokens })

/-- An index as an error prints it. -/
def indexText : Option Int → String
  | none => "None"
  | some index => toString index

/-- `compute_routing_headers`, as far as it refuses. -/
def computeRoutingHeaders (args : RolloutArgs) (sample : RolloutSample) : Except PyError Unit :=
  check (args.sglangRouterPolicy = "consistent_hashing" ∨ args.sglangRouterPolicy = "manual" →
      sample.routingKey ≠ none ∧ sample.routingKey ≠ some "")
    (valueError (s!"router policy {args.sglangRouterPolicy} routes by X-SMG-Routing-Key, but " ++
      s!"sample (index={indexText sample.index}) has no routing_key set"))

/-- `update_sample_from_response`. -/
def updateSampleFromResponse (engine : Engine) (sample : RolloutSample) (payload : Payload)
    (output : EngineOutput) : Except PyError RolloutSample := do
  let tokens :=
    if sample.response = "" ∧ sample.tokens = [] then payload.inputIds else sample.tokens
  let sample :=
    { sample with
      tokens := tokens ++ output.outputTokenIds
      responseLength := sample.responseLength + output.outputTokenIds.length
      response := sample.response ++ output.text }
  let status ← engine.recordAnswer sample output
  .ok { sample with status }

/-! ## `generate` -/

/-- `str.isspace` of one character. -/
def isSpace (c : Char) : Bool :=
  let n := c.toNat
  (9 ≤ n && n ≤ 13) || (28 ≤ n && n ≤ 32) || n == 0x85 || n == 0xA0 || n == 0x1680 ||
    (0x2000 ≤ n && n ≤ 0x200A) || n == 0x2028 || n == 0x2029 || n == 0x202F || n == 0x205F ||
    n == 0x3000

/-- `isinstance(value, str) and value.strip()`. -/
def nonblank (error : PyError) : MetadataValue → Except PyError String
  | .text value => do
      check (value.toList.all isSpace = false) error
      .ok value
  | _ => .error error

/-- `sample.metadata[key]`. -/
def RolloutSample.metadataItem (sample : RolloutSample) (key : String) :
    Except PyError MetadataValue :=
  match sample.metadata.lookup key with
  | some value => .ok value
  | none => .error (keyError s!"'{key}'")

/-- The text a study arm's error and the command line name a context by. -/
def Context.name : Context → String
  | .original => "original"
  | .none => "none"
  | .answer => "answer"
  | .worked => "worked"
  | .unrelated => "unrelated"
  | .empty => "empty"

/-- The metadata key of a context that is read from the data. -/
def Context.key : Context → Option String
  | .answer => some "answer"
  | .worked => some "solution"
  | .unrelated => some "unrelated_context"
  | _ => .none

/-- The context of a request, and the sample with what the schedule writes into
its metadata. Under a cyclic policy data rows cannot override it. -/
def scheduledContext (input : GenerateFnInput) : Except PyError (Context × RolloutSample) :=
  if input.args.opsdCyclicTeacherPolicy.isSome ∧ input.evaluation = false then
    match input.rolloutId with
    | none => .error (valueError "Cyclic OPSD requires an in-range rollout ID")
    | some rolloutId => do
        let step ← cyclicStep input.args.toArgs rolloutId
        .ok (step.context,
          { input.sample with
            metadata :=
              [ ("opsd_cyclic_rollout_id", .number rolloutId),
                ("opsd_cyclic_context", .text step.context.name),
                ("opsd_cyclic_teacher_source_update", .number step.teacherSourceUpdate) ] ++
              input.sample.metadata })
  else .ok (input.args.opsdContext, input.sample)

/-- The privileged text of a study arm. -/
def studyContext (mode : Context) (sample : RolloutSample) (evaluation : Bool) :
    Except PyError (Option String) :=
  if evaluation then .ok none
  else
    match mode.key with
    | some key => do
        let value ← sample.metadataItem key
        let text ← nonblank (valueError s!"OPSD {mode.name} context must be nonempty text") value
        .ok (some text)
    | none => .ok (if mode = .empty then some "" else none)

/-- The two prefixes of a request. -/
def pairedPrefixes (input : GenerateFnInput) (mode : Context) (sample : RolloutSample)
    (problem : String) : Except PyError PairedPrefixes :=
  if mode = .original then
    if input.evaluation then .ok (makeOpsdPrefixes input.tokenizer problem none)
    else do
      let value ← sample.metadataItem "solution"
      let solution ← nonblank
        (valueError "OPSD training requires a nonempty metadata.solution") value
      .ok (makeOpsdPrefixes input.tokenizer problem (some solution))
  else do
    let context ← studyContext mode sample input.evaluation
    makeStudyPrefixes input.tokenizer problem context input.args.opsdTask

/-- The tokens a prefix and its response may have together. -/
def sequenceCap (args : RolloutArgs) (evaluation : Bool) : Nat :=
  if evaluation then
    match args.evalMaxContextLen with
    | none => args.seqLength
    | some cap => if cap = 0 then args.seqLength else cap
  else args.seqLength

/-- The two refusals of templated prefixes: packed sequences have no
per-token attention holes, and no teacher-only truncation is allowed. -/
def checkPaired (input : GenerateFnInput) (prefixes : PairedPrefixes) : Except PyError Unit := do
  check (∀ ids ∈ [prefixes.studentIds, prefixes.teacherIds],
      ∀ token ∈ ids, some token ≠ input.tokenizer.padTokenId)
    (valueError ("OPSD packed prompts must not contain PAD IDs; use distinct PAD/EOS and " ++
      "filter literal PAD text"))
  check (∀ ids ∈ [prefixes.studentIds, prefixes.teacherIds],
      ids ≠ [] → ids.length + input.maxNewTokens ≤ sequenceCap input.args input.evaluation)
    (valueError "OPSD prefix plus response cap exceeds --seq-length; filter the dataset first")

/-- A request that is ready: its sample, its prefixes and its payload, absent
when it was halted. -/
structure Request where
  sample : RolloutSample
  prefixes : PairedPrefixes
  payload : Option Payload

/-- The raw text problem of a fresh single-turn sample. -/
def rawProblem (sample : RolloutSample) : Except PyError String :=
  match sample.prompt, sample.multimodalInputs, sample.responseLength with
  | .text problem, false, 0 => .ok problem
  | _, _, _ =>
      .error (valueError "OPSD requires a raw text problem and a fresh single-turn sample")

/-- `generate` up to its payload. -/
def prepareRequest (engine : Engine) (input : GenerateFnInput) : Except PyError Request := do
  let problem ← rawProblem input.sample
  let (mode, sample) ← scheduledContext input
  let prefixes ← pairedPrefixes input mode sample problem
  checkPaired input prefixes
  let sample :=
    { sample with
      teacherPromptIds := if prefixes.teacherIds = [] then none else some prefixes.teacherIds }
  let payload ← computeRequestPayload engine input.args prefixes.studentIds input.maxNewTokens
  .ok { sample, prefixes, payload }

/-- A PAD with something else behind it: `pad_token_id in response and
any(token != pad_token_id for token in response[response.index(pad_token_id):])`. -/
def interiorPad (padTokenId : Option Int) (response : List Int) : Bool :=
  match padTokenId with
  | none => false
  | some pad =>
      response.contains pad && (response.drop (response.idxOf pad)).any fun token => token != pad

/-- `[int(token != pad_token_id) for token in response]`. -/
def responseMask (padTokenId : Option Int) (response : List Int) : List Int :=
  response.map fun token => if some token = padTokenId then 0 else 1

/-- `generate` behind the engine's answer. -/
def acceptResponse (input : GenerateFnInput) (prefixes : PairedPrefixes)
    (sample : RolloutSample) : Except PyError RolloutSample := do
  validateResponseIds sample.tokens prefixes.studentIds sample.responseLength
  let response := sample.tokens.drop prefixes.studentIds.length
  check (interiorPad input.tokenizer.padTokenId response = false)
    (valueError ("OPSD packed responses permit PAD only at the end; interior PAD changes " ++
      "teacher attention"))
  let sample := { sample with lossMask := some (responseMask input.tokenizer.padTokenId response) }
  .ok (if input.evaluation then sample else { sample with reward := some 0 })

/-- `generate`. -/
def generate (engine : Engine) (input : GenerateFnInput) : Except PyError RolloutSample := do
  let request ← prepareRequest engine input
  match request.payload with
  | none => .ok { request.sample with status := .truncated }
  | some payload => do
      computeRoutingHeaders input.args request.sample
      let output ← engine.post payload
      let sample ← updateSampleFromResponse engine request.sample payload output
      acceptResponse input request.prefixes sample

/-! ## Training data -/

/-- The mask of a sample in the training data. -/
def convertLossMask (sample : RolloutSample) : Except PyError (List Int) := do
  let lossMask := sample.lossMask.getD (List.replicate sample.responseLength 1)
  check (lossMask.length = sample.responseLength)
    (assertionError
      s!"loss mask length {lossMask.length} != response length {sample.responseLength}")
  .ok (if sample.removeSample then List.replicate sample.responseLength 0 else lossMask)

/-- The column of teacher prefixes, when any sample has one. -/
def convertTeacherPrefixes (samples : List RolloutSample) :
    Except PyError (Option (List (List Int))) :=
  if ∃ sample ∈ samples, sample.teacherPromptIds ≠ none then do
    check (∀ sample ∈ samples, sample.teacherPromptIds.getD [] ≠ [])
      (valueError "OPSD teacher prefixes must be present for every training sample")
    .ok (some (samples.map fun sample => sample.teacherPromptIds.getD []))
  else .ok none

/-- The columns of `convert_samples_to_train_data` the trainer's OPSD code reads. -/
def convertSamplesToTrainData (samples : List RolloutSample) : Except PyError RolloutData := do
  let lossMasks ← samples.mapM convertLossMask
  let teacherPromptIds ← convertTeacherPrefixes samples
  .ok
    { tokens := samples.map RolloutSample.tokens
      totalLengths := samples.map fun sample => (sample.tokens.length : Int)
      responseLengths := samples.map fun sample => (sample.responseLength : Int)
      lossMasks
      sampleIndices := samples.map RolloutSample.index
      teacherPromptIds }

/-- The prefix check of `begin_cyclic_step`, on the rollout of these samples. -/
def checkPhase (args : Args) (rolloutId : Int) (samples : List RolloutSample) :
    Except PyError Unit := do
  let data ← convertSamplesToTrainData samples
  let step ← cyclicStep args rolloutId
  let rollout ← cyclicRollout data
  checkPrefixes step rollout.tokens rollout.responseLengths rollout.teacherPromptIds

end Crisp.Ref
