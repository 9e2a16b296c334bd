import Crisp.Ref.Generate

/-!
# Generator and trainer agree on the phase

The rollout process computes the phase of an update from its ID; the trainer
computes it again and believes only token lists. In between the context has gone
through a message, a template and a tokenizer, and the response through an
engine and the length bookkeeping. What survives is small: a returned sample is
the student prefix with the response behind it (`validate_response_ids` saw to
that, whatever the engine did), and its teacher prefix is the student's in
exactly the updates without privileged information.

An empty teacher prefix is the one thing that does not survive. It is stored as
no prefix at all, and no rollout with such a sample reaches an update.
-/

namespace Crisp.Proofs

open Crisp.Lib Crisp.Ref

/-! ## PAD in a response -/

/-- Some PAD stands before a token that is not PAD. -/
def PadBeforeToken (padTokenId : Option Int) (response : List Int) : Prop :=
  ∃ (i j : Nat) (a b : Int), i < j ∧ response[i]? = some a ∧ response[j]? = some b ∧
    some a = padTokenId ∧ some b ≠ padTokenId

theorem interiorPad_cons {pad t : Int} {ts : List Int} :
    interiorPad (some pad) (t :: ts) =
      if t = pad then ts.any (· != pad) else interiorPad (some pad) ts := by
  unfold interiorPad
  by_cases h : t = pad
  · simp [h]
  · have hne : ¬ pad = t := fun heq => h heq.symm
    simp [h, hne]

theorem not_padBeforeToken_nil {padTokenId : Option Int} : ¬ PadBeforeToken padTokenId [] := by
  rintro ⟨i, j, a, b, -, hi, -⟩
  simp at hi

/-- Behind a first token, PAD comes too early if it does so among the rest, or if
the first token is PAD and some other is not. -/
theorem padBeforeToken_cons {padTokenId : Option Int} {t : Int} {ts : List Int} :
    PadBeforeToken padTokenId (t :: ts) ↔
      (some t = padTokenId ∧ ∃ b ∈ ts, some b ≠ padTokenId) ∨
        PadBeforeToken padTokenId ts := by
  constructor
  · rintro ⟨i, j, a, b, hij, hi, hj, ha, hb⟩
    obtain ⟨k, rfl⟩ := Nat.exists_eq_succ_of_ne_zero (show j ≠ 0 by omega)
    rw [List.getElem?_cons_succ] at hj
    cases i with
    | zero =>
        rw [List.getElem?_cons_zero] at hi
        rw [← Option.some.inj hi] at ha
        exact Or.inl ⟨ha, b, List.mem_of_getElem? hj, hb⟩
    | succ i =>
        rw [List.getElem?_cons_succ] at hi
        exact Or.inr ⟨i, k, a, b, by omega, hi, hj, ha, hb⟩
  · rintro (⟨ht, b, hmem, hb⟩ | ⟨i, j, a, b, hij, hi, hj, ha, hb⟩)
    · obtain ⟨k, hk⟩ := List.mem_iff_getElem?.mp hmem
      exact ⟨0, k + 1, t, b, by omega, rfl, hk, ht, hb⟩
    · exact ⟨i + 1, j + 1, a, b, by omega, hi, hj, ha, hb⟩

theorem interiorPad_iff {padTokenId : Option Int} {response : List Int} :
    interiorPad padTokenId response = true ↔ PadBeforeToken padTokenId response := by
  cases padTokenId with
  | none =>
      constructor
      · intro h
        cases h
      · rintro ⟨i, j, a, b, -, -, -, ha, -⟩
        cases ha
  | some pad =>
      induction response with
      | nil => exact ⟨nofun, fun h => absurd h not_padBeforeToken_nil⟩
      | cons t ts ih =>
          rw [interiorPad_cons, padBeforeToken_cons]
          by_cases ht : t = pad
          · rw [if_pos ht, ← ih, ht]
            constructor
            · intro hany
              obtain ⟨b, hmem, hb⟩ := List.any_eq_true.mp hany
              exact Or.inl ⟨rfl, b, hmem, by simpa using hb⟩
            · rintro (⟨-, b, hmem, hb⟩ | hrest)
              · exact List.any_eq_true.mpr ⟨b, hmem, by simpa using hb⟩
              · rw [ih] at hrest
                obtain ⟨i, j, a, b, -, -, hj, -, hb⟩ := hrest
                exact List.any_eq_true.mpr ⟨b, List.mem_of_getElem? hj, by simpa using hb⟩
          · rw [if_neg ht, ih]
            constructor
            · exact Or.inr
            · rintro (⟨heq, -⟩ | hrest)
              · exact absurd (Option.some.inj heq) ht
              · exact hrest

/-- The mask of a response without interior PAD: ones, then zeros. -/
theorem responseMask_trailing {padTokenId : Option Int} :
    ∀ {response : List Int}, ¬ PadBeforeToken padTokenId response →
      ∃ a b, responseMask padTokenId response = List.replicate a 1 ++ List.replicate b 0 := by
  intro response
  induction response with
  | nil => exact fun _ => ⟨0, 0, rfl⟩
  | cons t ts ih =>
      intro h
      rw [padBeforeToken_cons, not_or] at h
      obtain ⟨hfirst, hrest⟩ := h
      by_cases ht : some t = padTokenId
      · have hall : ∀ b ∈ ts, some b = padTokenId := fun b hb => by
          by_contra hne
          exact hfirst ⟨ht, b, hb, hne⟩
        refine ⟨0, ts.length + 1, ?_⟩
        rw [List.replicate_zero, List.nil_append]
        unfold responseMask
        rw [List.eq_replicate_iff]
        refine ⟨by simp, fun entry hentry => ?_⟩
        obtain ⟨token, hmem, rfl⟩ := List.mem_map.mp hentry
        refine if_pos ?_
        rcases List.mem_cons.mp hmem with rfl | htail
        · exact ht
        · exact hall token htail
      · obtain ⟨a, b, hmask⟩ := ih hrest
        refine ⟨a + 1, b, ?_⟩
        unfold responseMask at hmask ⊢
        rw [List.map_cons, if_neg ht, hmask, List.replicate_succ, List.cons_append]

theorem responseMask_getElem {padTokenId : Option Int} {response : List Int} {i : Nat}
    (h : i < response.length) :
    (responseMask padTokenId response)[i]? = some 1 ↔ some response[i] ≠ padTokenId := by
  unfold responseMask
  rw [List.getElem?_map, List.getElem?_eq_getElem h, Option.map_some]
  by_cases hpad : some response[i] = padTokenId
  · simp [hpad]
  · simp [hpad]

/-! ## A request of a cyclic run -/

/-- The contexts a schedule can name. -/
theorem stepAt_context (args : Args) (r : Nat) :
    (stepAt args r).context = .worked ∨ (stepAt args r).context = .none := by
  unfold stepAt
  dsimp only
  split
  · exact Or.inl rfl
  · exact Or.inr rfl

/-- What a ready training request of update `r` holds: the student's prefix, and
beside it the prefix the schedule asks for. -/
structure Scheduled (args : Args) (r : Nat) (input : GenerateFnInput) (problem : String)
    (request : Request) : Prop where
  responseLength : request.sample.responseLength = 0
  tokens : request.sample.tokens = input.sample.tokens
  response : request.sample.response = input.sample.response
  student : ∃ instruction, taskInstruction input.args.opsdTask = .ok instruction ∧
    request.prefixes.studentIds =
      encodePrefix input.tokenizer (studentMessage problem instruction) false ∧
    ((stepAt args r).context = .none →
      request.prefixes.teacherIds = request.prefixes.studentIds) ∧
    ((stepAt args r).context = .worked → ∃ solution,
      input.sample.metadata.lookup "solution" = some (.text solution) ∧
      request.prefixes.teacherIds =
        encodePrefix input.tokenizer (contextMessage problem solution instruction) false)
  teacher : request.sample.teacherPromptIds =
    if request.prefixes.teacherIds = [] then none else some request.prefixes.teacherIds

theorem nonblank_ok {error : PyError} {value : MetadataValue} {text : String}
    (h : nonblank error value = .ok text) : value = .text text := by
  cases value with
  | text written =>
      simp only [nonblank, except_bind_eq_ok] at h
      obtain ⟨_, _, h⟩ := h
      rw [Except.ok.inj h]
  | number _ => cases h
  | other => cases h

theorem metadataItem_ok {sample : RolloutSample} {key : String} {value : MetadataValue}
    (h : sample.metadataItem key = .ok value) : sample.metadata.lookup key = some value := by
  unfold RolloutSample.metadataItem at h
  split at h
  · next hlookup => rw [hlookup, Except.ok.inj h]
  · cases h

/-- The prefixes of a study arm with nothing read from the data. -/
theorem pairedPrefixes_none {input : GenerateFnInput} {sample : RolloutSample}
    {problem : String} {prefixes : PairedPrefixes} (htrain : input.evaluation = false)
    (h : pairedPrefixes input .none sample problem = .ok prefixes) :
    ∃ instruction, taskInstruction input.args.opsdTask = .ok instruction ∧
      prefixes.studentIds =
        encodePrefix input.tokenizer (studentMessage problem instruction) false ∧
      prefixes.teacherIds = prefixes.studentIds := by
  simp only [pairedPrefixes, studyContext, Context.key, htrain, makeStudyPrefixes,
    reduceCtorEq, if_false, except_ok_bind, except_bind_eq_ok, Bool.false_eq_true] at h
  obtain ⟨instruction, hinstruction, h⟩ := h
  rw [← Except.ok.inj h]
  exact ⟨instruction, hinstruction, rfl, rfl⟩

/-- The prefixes of an arm that reads the solution. -/
theorem pairedPrefixes_worked {input : GenerateFnInput} {sample : RolloutSample}
    {problem : String} {prefixes : PairedPrefixes} (htrain : input.evaluation = false)
    (h : pairedPrefixes input .worked sample problem = .ok prefixes) :
    ∃ instruction solution, taskInstruction input.args.opsdTask = .ok instruction ∧
      sample.metadata.lookup "solution" = some (.text solution) ∧
      prefixes.studentIds =
        encodePrefix input.tokenizer (studentMessage problem instruction) false ∧
      prefixes.teacherIds =
        encodePrefix input.tokenizer (contextMessage problem solution instruction) false := by
  simp only [pairedPrefixes, studyContext, Context.key, htrain, makeStudyPrefixes,
    reduceCtorEq, if_false, except_bind_eq_ok, Bool.false_eq_true] at h
  obtain ⟨_, ⟨value, hvalue, solution, hsolution, hsome⟩, instruction, hinstruction, h⟩ := h
  rw [← Except.ok.inj hsome] at h
  rw [← Except.ok.inj h]
  have htext := nonblank_ok hsolution
  exact ⟨instruction, solution, hinstruction, htext ▸ metadataItem_ok hvalue, rfl, rfl⟩

theorem rawProblem_ok {sample : RolloutSample} {problem : String}
    (h : rawProblem sample = .ok problem) :
    sample.prompt = .text problem ∧ sample.responseLength = 0 := by
  unfold rawProblem at h
  split at h
  · next hprompt _ hlength => exact ⟨by rw [hprompt, Except.ok.inj h], hlength⟩
  · cases h

theorem prepareRequest_scheduled {args : RolloutArgs} {r : Nat}
    (hpolicy : args.opsdCyclicTeacherPolicy.isSome) (hcycle : 0 < args.cycleLength)
    (hr : r < args.numRollout) {engine : Engine} {input : GenerateFnInput} {request : Request}
    (hargs : input.args = args) (htrain : input.evaluation = false)
    (hid : input.rolloutId = some (r : Int))
    (h : prepareRequest engine input = .ok request) :
    ∃ problem, input.sample.prompt = .text problem ∧
      Scheduled args.toArgs r input problem request := by
  unfold prepareRequest at h
  simp only [except_bind_eq_ok] at h
  obtain ⟨problem, hproblem, ⟨mode, sample⟩, hcontext, prefixes, hprefixes, _, _, payload, _,
    h⟩ := h
  obtain ⟨hprompt, hfresh⟩ := rawProblem_ok hproblem
  unfold scheduledContext at hcontext
  rw [if_pos ⟨hargs ▸ hpolicy, htrain⟩, hid] at hcontext
  simp only [hargs, cyclicStep_of_lt hr hcycle, except_ok_bind] at hcontext
  obtain ⟨rfl, rfl⟩ := Prod.mk.inj (Except.ok.inj hcontext)
  rw [← Except.ok.inj h]
  refine ⟨problem, hprompt, hfresh, rfl, rfl, ?_, rfl⟩
  rcases stepAt_context args.toArgs r with hworked | hnone
  · rw [hworked] at hprefixes ⊢
    obtain ⟨instruction, solution, hinstruction, hlookup, hstudent, hteacher⟩ :=
      pairedPrefixes_worked htrain hprefixes
    refine ⟨instruction, hinstruction, hstudent, ?_, fun _ => ⟨solution, hlookup, hteacher⟩⟩
    intro hnone
    cases hnone
  · rw [hnone] at hprefixes ⊢
    obtain ⟨instruction, hinstruction, hstudent, hteacher⟩ :=
      pairedPrefixes_none htrain hprefixes
    refine ⟨instruction, hinstruction, hstudent, fun _ => hteacher, ?_⟩
    intro hworked
    cases hworked

/-! ## The engine's answer -/

/-- A returned sample: the student prefix, the response behind it, its mask. -/
structure Split (padTokenId : Option Int) (studentIds response : List Int)
    (sample : RolloutSample) : Prop where
  tokens : sample.tokens = studentIds ++ response
  length : sample.responseLength = response.length
  mask : sample.lossMask = some (responseMask padTokenId response)
  trailing : ¬ PadBeforeToken padTokenId response

theorem acceptResponse_ok {input : GenerateFnInput} {prefixes : PairedPrefixes}
    {sample out : RolloutSample} (h : acceptResponse input prefixes sample = .ok out) :
    out.teacherPromptIds = sample.teacherPromptIds ∧
      ∃ response, Split input.tokenizer.padTokenId prefixes.studentIds response out := by
  unfold acceptResponse validateResponseIds at h
  simp only [except_bind_eq_ok, check_eq_ok] at h
  obtain ⟨_, ⟨_, ⟨hle, hlength⟩, hprefix⟩, _, hpad, h⟩ := h
  have hsplit : sample.tokens =
      prefixes.studentIds ++ sample.tokens.drop prefixes.studentIds.length := by
    conv_lhs => rw [← List.take_append_drop prefixes.studentIds.length sample.tokens, hprefix]
  have hrest : sample.responseLength =
      (sample.tokens.drop prefixes.studentIds.length).length := by
    rw [List.length_drop]
    omega
  have htrailing : ¬ PadBeforeToken input.tokenizer.padTokenId
      (sample.tokens.drop prefixes.studentIds.length) := by
    rw [← interiorPad_iff, hpad]
    exact Bool.false_ne_true
  rw [← Except.ok.inj h]
  refine ⟨?_, sample.tokens.drop prefixes.studentIds.length, ?_, ?_, ?_, htrailing⟩
  · split <;> rfl
  · split <;> exact hsplit
  · split <;> exact hrest
  · split <;> rfl

/-- With the answer behind the student prefix, PAD alone decides. -/
theorem acceptResponse_iff {input : GenerateFnInput} {prefixes : PairedPrefixes}
    {sample : RolloutSample} {response : List Int}
    (htokens : sample.tokens = prefixes.studentIds ++ response)
    (hlength : sample.responseLength = response.length) :
    (∃ out, acceptResponse input prefixes sample = .ok out) ↔
      ¬ PadBeforeToken input.tokenizer.padTokenId response := by
  have hbounds : sample.responseLength ≤ sample.tokens.length ∧
      sample.tokens.length - sample.responseLength = prefixes.studentIds.length := by
    rw [htokens, List.length_append, hlength]
    omega
  have hprefix : sample.tokens.take prefixes.studentIds.length = prefixes.studentIds := by
    rw [htokens, List.take_left]
  have hvalid : validateResponseIds sample.tokens prefixes.studentIds sample.responseLength =
      .ok () := by
    simp only [validateResponseIds, check_of hbounds, except_ok_bind]
    exact check_of hprefix
  unfold acceptResponse
  rw [hvalid, except_ok_bind, htokens, List.drop_left]
  by_cases hpad : PadBeforeToken input.tokenizer.padTokenId response
  · have hinterior := interiorPad_iff.mpr hpad
    constructor
    · rintro ⟨out, h⟩
      simp only [except_bind_eq_ok, check_eq_ok, hinterior] at h
      obtain ⟨_, hfalse, _⟩ := h
      cases hfalse
    · exact fun hnot => absurd hpad hnot
  · have hinterior : interiorPad input.tokenizer.padTokenId response = false :=
      Bool.eq_false_iff.mpr fun htrue => hpad (interiorPad_iff.mp htrue)
    refine ⟨fun _ => hpad, fun _ => ?_⟩
    dsimp only
    rw [check_of hinterior]
    exact ⟨_, rfl⟩

theorem updateSampleFromResponse_ok {engine : Engine} {sample updated : RolloutSample}
    {payload : Payload} {output : EngineOutput}
    (h : updateSampleFromResponse engine sample payload output = .ok updated) :
    updated.teacherPromptIds = sample.teacherPromptIds ∧
    updated.responseLength = sample.responseLength + output.outputTokenIds.length ∧
    updated.tokens =
      (if sample.response = "" ∧ sample.tokens = [] then payload.inputIds else sample.tokens) ++
        output.outputTokenIds := by
  unfold updateSampleFromResponse at h
  simp only [except_bind_eq_ok] at h
  obtain ⟨status, _, h⟩ := h
  rw [← Except.ok.inj h]
  exact ⟨rfl, rfl, rfl⟩

theorem computeRequestPayload_some {engine : Engine} {args : RolloutArgs}
    {inputIds : List Int} {maxNewTokens : Int} {payload : Payload}
    (h : computeRequestPayload engine args inputIds maxNewTokens = .ok (some payload)) :
    payload.inputIds = inputIds := by
  unfold computeRequestPayload at h
  dsimp only at h
  split at h
  · cases h
  · rw [except_bind_eq_ok] at h
    obtain ⟨_, _, h⟩ := h
    rw [← Option.some.inj (Except.ok.inj h)]

theorem prepareRequest_payload {engine : Engine} {input : GenerateFnInput} {request : Request}
    {payload : Payload} (h : prepareRequest engine input = .ok request)
    (hpayload : request.payload = some payload) :
    payload.inputIds = request.prefixes.studentIds ∧ request.sample.responseLength = 0 ∧
    request.sample.tokens = input.sample.tokens ∧
    request.sample.response = input.sample.response := by
  unfold prepareRequest at h
  simp only [except_bind_eq_ok] at h
  obtain ⟨problem, hproblem, ⟨mode, sample⟩, hcontext, prefixes, _, _, _, halted, hhalted, h⟩ := h
  have hsame : sample.responseLength = input.sample.responseLength ∧
      sample.tokens = input.sample.tokens ∧ sample.response = input.sample.response := by
    unfold scheduledContext at hcontext
    split at hcontext
    · split at hcontext
      · cases hcontext
      · rw [except_bind_eq_ok] at hcontext
        obtain ⟨step, _, hcontext⟩ := hcontext
        obtain ⟨_, rfl⟩ := Prod.mk.inj (Except.ok.inj hcontext)
        exact ⟨rfl, rfl, rfl⟩
    · obtain ⟨_, rfl⟩ := Prod.mk.inj (Except.ok.inj hcontext)
      exact ⟨rfl, rfl, rfl⟩
  rw [← Except.ok.inj h] at hpayload ⊢
  dsimp only at hpayload
  rw [hpayload] at hhalted
  exact ⟨computeRequestPayload_some hhalted, hsame.1.trans (rawProblem_ok hproblem).2, hsame.2⟩

/-- `generate` returned for update `r`: a training request that was not halted. -/
structure Generated (args : RolloutArgs) (r : Nat) (input : GenerateFnInput)
    (sample : RolloutSample) : Prop where
  args : input.args = args
  training : input.evaluation = false
  rollout : input.rolloutId = some (r : Int)
  returned : ∃ engine request payload, prepareRequest engine input = .ok request ∧
    request.payload = some payload ∧ generate engine input = .ok sample

theorem generate_split {engine : Engine} {input : GenerateFnInput} {request : Request}
    {payload : Payload} {sample : RolloutSample}
    (hprepare : prepareRequest engine input = .ok request)
    (hpayload : request.payload = some payload) (h : generate engine input = .ok sample) :
    sample.teacherPromptIds = request.sample.teacherPromptIds ∧
      ∃ response, Split input.tokenizer.padTokenId request.prefixes.studentIds response
        sample := by
  unfold generate at h
  rw [hprepare, except_ok_bind, hpayload] at h
  simp only [except_bind_eq_ok] at h
  obtain ⟨_, _, output, _, updated, hupdated, h⟩ := h
  obtain ⟨hteacher, hsplit⟩ := acceptResponse_ok h
  exact ⟨hteacher.trans (updateSampleFromResponse_ok hupdated).1, hsplit⟩

/-- The engine answered a fresh sample, and the endpoint helper took its answer. -/
structure Answered (engine : Engine) (input : GenerateFnInput) (output : EngineOutput) :
    Prop where
  tokens : input.sample.tokens = []
  response : input.sample.response = ""
  exchange : ∃ request payload updated, prepareRequest engine input = .ok request ∧
    request.payload = some payload ∧
    computeRoutingHeaders input.args request.sample = .ok () ∧
    engine.post payload = .ok output ∧
    updateSampleFromResponse engine request.sample payload output = .ok updated

theorem Answered.returns_iff {engine : Engine} {input : GenerateFnInput}
    {output : EngineOutput} (h : Answered engine input output) :
    (∃ sample, generate engine input = .ok sample) ↔
      ¬ PadBeforeToken input.tokenizer.padTokenId output.outputTokenIds := by
  obtain ⟨request, payload, updated, hprepare, hpayload, hheaders, hpost, hupdate⟩ := h.exchange
  obtain ⟨hinput, hlength, htokens, hresponse⟩ := prepareRequest_payload hprepare hpayload
  obtain ⟨-, hupdatedLength, hupdatedTokens⟩ := updateSampleFromResponse_ok hupdate
  rw [if_pos ⟨hresponse.trans h.response, htokens.trans h.tokens⟩, hinput] at hupdatedTokens
  rw [hlength, Nat.zero_add] at hupdatedLength
  unfold generate
  rw [hprepare, except_ok_bind, hpayload]
  dsimp only
  rw [hheaders, except_ok_bind, hpost, except_ok_bind, hupdate, except_ok_bind]
  exact acceptResponse_iff hupdatedTokens hupdatedLength

/-! ## The trainer's check -/

theorem studentPrefix_append {studentIds response : List Int} :
    studentPrefix (studentIds ++ response) response.length = studentIds := by
  have hcut : ((studentIds ++ response).length : Int) - response.length =
      (studentIds.length : Int) := by
    rw [List.length_append]
    omega
  unfold studentPrefix pyUntil
  rw [pyBound_of_le hcut (by simp), List.take_left]

/-- A sample's teacher prefix exists, and is the student's exactly in the
updates without privileged information. -/
def FollowsPhase (step : CyclicStep) (sample : RolloutSample) : Prop :=
  ∃ ids, sample.teacherPromptIds = some ids ∧ ids ≠ [] ∧
    (ids = studentPrefix sample.tokens sample.responseLength ↔ step.context = .none)

theorem checkPrefixes_samples {step : CyclicStep} {samples : List RolloutSample} :
    checkPrefixes step (samples.map RolloutSample.tokens)
        (samples.map RolloutSample.responseLength)
        (samples.map fun sample => sample.teacherPromptIds.getD []) = .ok () ↔
      ∀ sample ∈ samples, (sample.teacherPromptIds.getD [] =
        studentPrefix sample.tokens sample.responseLength ↔ step.context = .none) := by
  induction samples with
  | nil => simp [checkPrefixes]
  | cons sample samples ih =>
      simp only [List.map_cons, checkPrefixes, except_bind_eq_ok, check_eq_ok, ih,
        List.forall_mem_cons]
      constructor
      · rintro ⟨-, hfirst, hrest⟩
        exact ⟨hfirst, hrest⟩
      · rintro ⟨hfirst, hrest⟩
        exact ⟨⟨⟩, hfirst, hrest⟩

theorem convertTeacherPrefixes_ok {samples : List RolloutSample} {prefixes : List (List Int)} :
    convertTeacherPrefixes samples = .ok (some prefixes) ↔
      (∃ sample ∈ samples, sample.teacherPromptIds ≠ none) ∧
      (∀ sample ∈ samples, sample.teacherPromptIds.getD [] ≠ []) ∧
      prefixes = samples.map fun sample => sample.teacherPromptIds.getD [] := by
  unfold convertTeacherPrefixes
  split
  · next hany =>
      simp only [except_bind_eq_ok, check_eq_ok, Except.ok.injEq, Option.some.injEq]
      constructor
      · rintro ⟨-, hall, heq⟩
        exact ⟨hany, hall, heq.symm⟩
      · rintro ⟨-, hall, heq⟩
        exact ⟨⟨⟩, hall, heq.symm⟩
  · next hnone =>
      constructor
      · intro h
        cases Except.ok.inj h
      · rintro ⟨hany, -⟩
        exact absurd hany hnone

theorem getD_ne_nil {ids : Option (List Int)} :
    ids.getD [] ≠ [] ↔ ∃ known, ids = some known ∧ known ≠ [] := by
  cases ids with
  | none => exact ⟨fun h => absurd rfl h, nofun⟩
  | some known =>
      exact ⟨fun h => ⟨known, rfl, h⟩, fun ⟨_, heq, h⟩ => Option.some.inj heq ▸ h⟩

/-- The check passes exactly the rollouts whose every sample follows the phase. -/
theorem checkPhase_iff {args : Args} (hcycle : 0 < args.cycleLength) {r : Nat}
    (hr : r < args.numRollout) {samples : List RolloutSample} (hne : samples ≠ [])
    (hmasks : ∀ sample ∈ samples, ∃ mask, convertLossMask sample = .ok mask) :
    checkPhase args r samples = .ok () ↔
      ∀ sample ∈ samples, FollowsPhase (stepAt args r) sample := by
  have hlengths : (samples.map fun sample => (sample.responseLength : Int)).map Int.toNat =
      samples.map RolloutSample.responseLength := by
    rw [List.map_map]
    exact List.map_congr_left fun sample _ => Int.toNat_natCast _
  obtain ⟨masks, hmasks⟩ : ∃ masks, samples.mapM convertLossMask = .ok masks :=
    except_mapM_returns hmasks
  unfold checkPhase convertSamplesToTrainData
  simp only [hmasks, except_ok_bind, cyclicStep_of_lt hr hcycle, except_bind_eq_ok]
  constructor
  · rintro ⟨data, ⟨prefixes, hprefixes, hdata⟩, rollout, hrollout, hcheck⟩
    rw [← Except.ok.inj hdata] at hrollout
    cases prefixes with
    | none => cases hrollout
    | some prefixes =>
        obtain ⟨-, hall, rfl⟩ := convertTeacherPrefixes_ok.mp hprefixes
        rw [← Except.ok.inj hrollout] at hcheck
        dsimp only at hcheck
        rw [hlengths, checkPrefixes_samples] at hcheck
        intro sample hmem
        obtain ⟨ids, hids, hnonempty⟩ := getD_ne_nil.mp (hall sample hmem)
        have hphase := hcheck sample hmem
        rw [hids, Option.getD_some] at hphase
        exact ⟨ids, hids, hnonempty, hphase⟩
  · intro hphases
    obtain ⟨first, hfirst⟩ := List.exists_mem_of_ne_nil samples hne
    have hall : ∀ sample ∈ samples, sample.teacherPromptIds.getD [] ≠ [] := fun sample hmem => by
      obtain ⟨ids, hids, hnonempty, _⟩ := hphases sample hmem
      exact getD_ne_nil.mpr ⟨ids, hids, hnonempty⟩
    have hany : ∃ sample ∈ samples, sample.teacherPromptIds ≠ none := by
      obtain ⟨ids, hids, _⟩ := hphases first hfirst
      exact ⟨first, hfirst, by rw [hids]; exact Option.some_ne_none ids⟩
    refine ⟨_, ⟨_, convertTeacherPrefixes_ok.mpr ⟨hany, hall, rfl⟩, rfl⟩, _, rfl, ?_⟩
    dsimp only
    rw [hlengths, checkPrefixes_samples]
    intro sample hmem
    obtain ⟨ids, hids, _, hphase⟩ := hphases sample hmem
    rw [hids, Option.getD_some]
    exact hphase

theorem Split.convertLossMask {padTokenId : Option Int} {studentIds response : List Int}
    {sample : RolloutSample} (h : Split padTokenId studentIds response sample) :
    ∃ mask, convertLossMask sample = .ok mask := by
  have hlength : (sample.lossMask.getD (List.replicate sample.responseLength 1)).length =
      sample.responseLength := by
    rw [h.mask, Option.getD_some, h.length]
    exact List.length_map _
  unfold Ref.convertLossMask
  dsimp only
  rw [check_of hlength]
  exact ⟨_, rfl⟩

/-! ## Both sides -/

/-- The tokenizer tells the context message from the student's. -/
def Separates (input : GenerateFnInput) : Prop :=
  ∀ problem solution instruction, input.sample.prompt = .text problem →
    input.sample.metadata.lookup "solution" = some (.text solution) →
    taskInstruction input.args.opsdTask = .ok instruction →
    encodePrefix input.tokenizer (contextMessage problem solution instruction) false ≠
      encodePrefix input.tokenizer (studentMessage problem instruction) false

/-- The teacher's message of update `r` encodes to something. -/
def EncodesTeacher (args : Args) (r : Nat) (input : GenerateFnInput) : Prop :=
  ∀ problem instruction, input.sample.prompt = .text problem →
    taskInstruction input.args.opsdTask = .ok instruction →
    ((stepAt args r).context = .none →
      encodePrefix input.tokenizer (studentMessage problem instruction) false ≠ []) ∧
    ((stepAt args r).context = .worked → ∀ solution,
      input.sample.metadata.lookup "solution" = some (.text solution) →
      encodePrefix input.tokenizer (contextMessage problem solution instruction) false ≠ [])

theorem Scheduled.encodesTeacher {args : Args} {r : Nat} {input : GenerateFnInput}
    {problem : String} {request : Request} (h : Scheduled args r input problem request)
    (hprompt : input.sample.prompt = .text problem) :
    EncodesTeacher args r input ↔ request.prefixes.teacherIds ≠ [] := by
  obtain ⟨instruction, hinstruction, hstudent, hnone, hworked⟩ := h.student
  constructor
  · intro hencodes
    obtain ⟨hno, hpi⟩ := hencodes problem instruction hprompt hinstruction
    rcases stepAt_context args r with hphase | hphase
    · obtain ⟨solution, hlookup, hteacher⟩ := hworked hphase
      rw [hteacher]
      exact hpi hphase solution hlookup
    · rw [hnone hphase, hstudent]
      exact hno hphase
  · intro hne problem' instruction' hprompt' hinstruction'
    obtain rfl : problem = problem' := Prompt.text.inj (hprompt.symm.trans hprompt')
    obtain rfl : instruction = instruction' :=
      Except.ok.inj (hinstruction.symm.trans hinstruction')
    refine ⟨fun hphase => ?_, fun hphase solution' hlookup' => ?_⟩
    · rw [← hstudent, ← hnone hphase]
      exact hne
    · obtain ⟨solution, hlookup, hteacher⟩ := hworked hphase
      obtain rfl : solution = solution' :=
        MetadataValue.text.inj (Option.some.inj (hlookup.symm.trans hlookup'))
      rw [← hteacher]
      exact hne

/-- The prefixes of a scheduled request differ exactly under privileged
information. -/
theorem Scheduled.teacherIds_eq_iff {args : Args} {r : Nat} {input : GenerateFnInput}
    {problem : String} {request : Request} (h : Scheduled args r input problem request)
    (hprompt : input.sample.prompt = .text problem) (hseparates : Separates input) :
    request.prefixes.teacherIds = request.prefixes.studentIds ↔
      (stepAt args r).context = .none := by
  obtain ⟨instruction, hinstruction, hstudent, hnone, hworked⟩ := h.student
  rcases stepAt_context args r with hphase | hphase
  · obtain ⟨solution, hlookup, hteacher⟩ := hworked hphase
    rw [hteacher, hstudent, hphase]
    exact ⟨fun heq => absurd heq
      (hseparates problem solution instruction hprompt hlookup hinstruction), nofun⟩
  · exact ⟨fun _ => hphase, hnone⟩

theorem Generated.convertLossMask {args : RolloutArgs} {r : Nat} {input : GenerateFnInput}
    {sample : RolloutSample} (h : Generated args r input sample) :
    ∃ mask, Ref.convertLossMask sample = .ok mask := by
  obtain ⟨engine, request, payload, hprepare, hpayload, hreturned⟩ := h.returned
  obtain ⟨-, response, hsplit⟩ := generate_split hprepare hpayload hreturned
  exact hsplit.convertLossMask

/-- One generated sample follows the phase of another update exactly when both
are of one kind. -/
theorem Generated.followsPhase {args : RolloutArgs} {r r' : Nat} {input : GenerateFnInput}
    {sample : RolloutSample} (h : Generated args r input sample)
    (hpolicy : args.opsdCyclicTeacherPolicy.isSome) (hcycle : 0 < args.cycleLength)
    (hr : r < args.numRollout) (hseparates : Separates input) :
    FollowsPhase (stepAt args.toArgs r') sample ↔
      (stepAt args.toArgs r').context = (stepAt args.toArgs r).context ∧
        EncodesTeacher args.toArgs r input := by
  obtain ⟨engine, request, payload, hprepare, hpayload, hreturned⟩ := h.returned
  obtain ⟨problem, hprompt, hscheduled⟩ :=
    prepareRequest_scheduled hpolicy hcycle hr h.args h.training h.rollout hprepare
  obtain ⟨hteacher, response, hsplit⟩ := generate_split hprepare hpayload hreturned
  have hkind := hscheduled.teacherIds_eq_iff hprompt hseparates
  have hcontexts : ((stepAt args.toArgs r).context = .none ↔
      (stepAt args.toArgs r').context = .none) ↔
      (stepAt args.toArgs r').context = (stepAt args.toArgs r).context := by
    rcases stepAt_context args.toArgs r with hr | hr <;>
      rcases stepAt_context args.toArgs r' with hr' | hr' <;> simp [hr, hr']
  have hprefix : studentPrefix sample.tokens sample.responseLength =
      request.prefixes.studentIds := by
    rw [hsplit.tokens, hsplit.length, studentPrefix_append]
  rw [hscheduled.encodesTeacher hprompt, ← hcontexts, ← hkind]
  unfold FollowsPhase
  rw [hteacher, hscheduled.teacher, hprefix]
  by_cases hnil : request.prefixes.teacherIds = []
  · rw [if_pos hnil]
    constructor
    · rintro ⟨ids, hids, -⟩
      cases hids
    · exact fun ⟨_, hne⟩ => absurd hnil hne
  · rw [if_neg hnil]
    constructor
    · rintro ⟨ids, hids, -, hphase⟩
      rw [← Option.some.inj hids] at hphase
      exact ⟨hphase, hnil⟩
    · exact fun ⟨hphase, _⟩ => ⟨_, rfl, hnil, hphase⟩

/-- A sample split where its student prefix ends, with a mask that is one on a
leading run of the response and there exactly on what is not PAD. -/
def MaskedResponse (input : GenerateFnInput) (sample : RolloutSample) : Prop :=
  ∃ problem instruction response a b,
    input.sample.prompt = .text problem ∧
    taskInstruction input.args.opsdTask = .ok instruction ∧
    sample.tokens =
      encodePrefix input.tokenizer (studentMessage problem instruction) false ++ response ∧
    sample.responseLength = response.length ∧
    sample.lossMask = some (List.replicate a 1 ++ List.replicate b 0) ∧
    a + b = response.length ∧
    ∀ i (h : i < response.length),
      (List.replicate a (1 : Int) ++ List.replicate b 0)[i]? = some 1 ↔
        some response[i] ≠ input.tokenizer.padTokenId

theorem Generated.maskedResponse {args : RolloutArgs} {r : Nat} {input : GenerateFnInput}
    {sample : RolloutSample} (h : Generated args r input sample)
    (hpolicy : args.opsdCyclicTeacherPolicy.isSome) (hcycle : 0 < args.cycleLength)
    (hr : r < args.numRollout) : MaskedResponse input sample := by
  obtain ⟨engine, request, payload, hprepare, hpayload, hreturned⟩ := h.returned
  obtain ⟨problem, hprompt, hscheduled⟩ :=
    prepareRequest_scheduled hpolicy hcycle hr h.args h.training h.rollout hprepare
  obtain ⟨instruction, hinstruction, hstudent, -⟩ := hscheduled.student
  obtain ⟨-, response, hsplit⟩ := generate_split hprepare hpayload hreturned
  obtain ⟨a, b, hmask⟩ := responseMask_trailing hsplit.trailing
  refine ⟨problem, instruction, response, a, b, hprompt, hinstruction, ?_, hsplit.length, ?_,
    ?_, fun i hi => ?_⟩
  · rw [hsplit.tokens, hstudent]
  · rw [hsplit.mask, hmask]
  · have hlength : (responseMask input.tokenizer.padTokenId response).length =
        response.length := List.length_map _
    rw [hmask, List.length_append, List.length_replicate, List.length_replicate] at hlength
    exact hlength
  · rw [← hmask]
    exact responseMask_getElem hi

theorem forall₂_forall_iff {α β : Type} {R : α → β → Prop} {P : β → Prop} {Q : α → Prop}
    {xs : List α} {ys : List β} (hpaired : List.Forall₂ R xs ys)
    (h : ∀ x y, R x y → (P y ↔ Q x)) : (∀ y ∈ ys, P y) ↔ ∀ x ∈ xs, Q x := by
  induction hpaired with
  | nil => exact ⟨fun _ => nofun, fun _ => nofun⟩
  | cons hpair _ ih =>
      rw [List.forall_mem_cons, List.forall_mem_cons, ih, h _ _ hpair]

/-- **Generator and trainer agree on the phase.** The samples generated for an
update pass the trainer's check for any update of the same kind and for no other,
as long as no teacher message encodes to nothing; each is split where the student
prefix ends and masked on its trailing PAD; and of fresh requests that were
answered, exactly those with an early PAD are refused. -/
theorem generate_agrees {args : RolloutArgs}
    (hpolicy : args.opsdCyclicTeacherPolicy.isSome = true)
    (hpi : 1 ≤ args.opsdCyclicPiUpdates) {r : Nat} (hr : r < args.numRollout)
    {inputs : List GenerateFnInput} {samples : List RolloutSample} (hne : samples ≠ [])
    (hgenerated : List.Forall₂ (Generated args r) inputs samples)
    (hseparates : ∀ input ∈ inputs, Separates input) :
    (∀ r' < args.numRollout, checkPhase args.toArgs r' samples = .ok () ↔
      (stepAt args.toArgs r').context = (stepAt args.toArgs r).context ∧
        ∀ input ∈ inputs, EncodesTeacher args.toArgs r input) ∧
    List.Forall₂ MaskedResponse inputs samples ∧
    ∀ engine input output, Answered engine input output →
      ((∃ sample, generate engine input = .ok sample) ↔
        ¬ PadBeforeToken input.tokenizer.padTokenId output.outputTokenIds) := by
  have hcycle : 0 < args.cycleLength := by
    unfold Args.cycleLength
    omega
  refine ⟨fun r' hr' => ?_, hgenerated.imp fun input sample h => h.maskedResponse hpolicy hcycle hr,
    fun engine input output h => h.returns_iff⟩
  have hpaired := (List.forall₂_and_left inputs samples).mpr ⟨hseparates, hgenerated⟩
  have hmasks : ∀ sample ∈ samples, ∃ mask, convertLossMask sample = .ok mask :=
    (forall₂_forall_iff (Q := fun _ => True) hpaired fun _ _ ⟨_, h⟩ =>
      iff_true_intro h.convertLossMask).mpr fun _ _ => ⟨⟩
  rw [checkPhase_iff hcycle hr' hne hmasks, forall₂_forall_iff hpaired
    fun input sample ⟨hsep, h⟩ => h.followsPhase hpolicy hcycle hr hsep]
  obtain ⟨first, hfirst⟩ : ∃ input, input ∈ inputs := by
    cases hgenerated with
    | nil => exact absurd rfl hne
    | cons _ _ => exact ⟨_, List.mem_cons_self⟩
  constructor
  · exact fun h => ⟨(h first hfirst).1, fun input hmem => (h input hmem).2⟩
  · exact fun ⟨hkind, hencodes⟩ input hmem => ⟨hkind, hencodes input hmem⟩

/-! ## One update of each kind -/

def phaseArgs : RolloutArgs :=
  { numRollout := 2
    opsdCyclicTeacherPolicy := some .fixedOriginal
    opsdCyclicPiUpdates := 1
    opsdCyclicOpdUpdates := 1
    rolloutBatchSize := 1
    nSamplesPerPrompt := 1
    globalBatchSize := 1
    seqLength := 1024
    vocabSize := 128
    lr := 1 / 10
    lrDecayStyle := .constant }

/-- A tokenizer of two texts: the student's message, which becomes the given
tokens, and any other. -/
def tokenizerOf (studentIds : List Int) : ChatTokenizer :=
  { applyChatTemplate := fun content _ => content
    encode := fun text =>
      if text = studentMessage "What is 1 + 1?" answerInstruction then studentIds else [4, 5]
    padTokenId := some 0 }

def phaseInput (tokenizer : ChatTokenizer) (r : Nat) : GenerateFnInput :=
  { args := phaseArgs
    tokenizer
    sample :=
      { index := some 7
        prompt := .text "What is 1 + 1?"
        metadata := [("solution", .text "It is 2.")] }
    maxNewTokens := 4
    evaluation := false
    rolloutId := some (r : Int) }

/-- Three tokens and a trailing PAD. -/
def phaseEngine : Engine :=
  { requestOptions := .ok ()
    post := fun _ => .ok ⟨"2.", [50, 46, 0]⟩
    recordAnswer := fun _ _ => .ok .completed }

/-- What `generate` returned, where it did. -/
theorem generated_phaseInput {tokenizer : ChatTokenizer} {r : Nat}
    (hprepare : (match prepareRequest phaseEngine (phaseInput tokenizer r) with
      | .ok ⟨_, _, some _⟩ => true
      | _ => false) = true)
    {P : RolloutSample → Bool}
    (hgenerate : (match generate phaseEngine (phaseInput tokenizer r) with
      | .ok sample => P sample
      | .error _ => false) = true) :
    ∃ sample, Generated phaseArgs r (phaseInput tokenizer r) sample ∧ P sample = true := by
  cases hrequest : prepareRequest phaseEngine (phaseInput tokenizer r) with
  | error e =>
      rw [hrequest] at hprepare
      cases hprepare
  | ok request =>
      obtain ⟨requestSample, prefixes, payload⟩ := request
      cases payload with
      | none =>
          rw [hrequest] at hprepare
          cases hprepare
      | some payload =>
          cases hreturned : generate phaseEngine (phaseInput tokenizer r) with
          | error e =>
              rw [hreturned] at hgenerate
              cases hgenerate
          | ok sample =>
              rw [hreturned] at hgenerate
              exact ⟨sample, ⟨rfl, rfl, rfl, _, _, payload, hrequest, rfl, hreturned⟩, hgenerate⟩

/-- What the problem, its solution and the task of these requests are. -/
theorem separates_phaseInput {tokenizer : ChatTokenizer} {r : Nat}
    (h : encodePrefix tokenizer (contextMessage "What is 1 + 1?" "It is 2." answerInstruction)
        false ≠
      encodePrefix tokenizer (studentMessage "What is 1 + 1?" answerInstruction) false) :
    Separates (phaseInput tokenizer r) := by
  intro problem solution instruction hproblem hsolution hinstruction
  rw [← Prompt.text.inj hproblem, ← MetadataValue.text.inj (Option.some.inj hsolution),
    ← Except.ok.inj hinstruction]
  exact h

/-- A sample with privileged information passes in its own update and not in the
other one. -/
theorem generate_agrees_worked :
    ∃ sample, checkPhase phaseArgs.toArgs 0 [sample] = .ok () ∧
      checkPhase phaseArgs.toArgs 1 [sample] ≠ .ok () := by
  obtain ⟨sample, hgenerated, -⟩ := @generated_phaseInput (tokenizerOf [4]) 0 (by decide +kernel)
    (fun _ => true) (by decide +kernel)
  obtain ⟨hphases, -, -⟩ := @generate_agrees phaseArgs rfl (by decide) 0 (by decide)
    [phaseInput (tokenizerOf [4]) 0] [sample] (List.cons_ne_nil _ _) (.cons hgenerated .nil)
    (by
      intro input hmem
      rw [List.mem_singleton.mp hmem]
      exact separates_phaseInput (by decide +kernel))
  refine ⟨sample, (hphases 0 (by decide)).mpr ⟨rfl, ?_⟩, fun h => ?_⟩
  · intro input hmem
    rw [List.mem_singleton.mp hmem]
    intro problem instruction hproblem hinstruction
    rw [← Prompt.text.inj hproblem, ← Except.ok.inj hinstruction]
    refine ⟨fun hnone => (by cases hnone), fun _ solution hsolution => ?_⟩
    rw [← MetadataValue.text.inj (Option.some.inj hsolution)]
    decide +kernel
  · obtain ⟨hkind, -⟩ := (hphases 1 (by decide)).mp h
    revert hkind
    decide

/-- A student message that encodes to nothing leaves an update without
privileged information no teacher prefix to compare. -/
theorem generate_agrees_empty :
    ¬ ∀ (args : RolloutArgs) (r : Nat) (inputs : List GenerateFnInput)
        (samples : List RolloutSample),
      args.opsdCyclicTeacherPolicy.isSome = true → 1 ≤ args.opsdCyclicPiUpdates →
      1 ≤ args.opsdCyclicOpdUpdates → r < args.numRollout → samples ≠ [] →
      List.Forall₂ (Generated args r) inputs samples → (∀ input ∈ inputs, Separates input) →
      checkPhase args.toArgs r samples = .ok () := by
  intro hclaim
  obtain ⟨sample, hgenerated, hrefused⟩ := @generated_phaseInput (tokenizerOf []) 1
    (by decide +kernel)
    (fun sample =>
      match checkPhase phaseArgs.toArgs 1 [sample] with
      | .ok _ => false
      | .error _ => true) (by decide +kernel)
  have hpasses := hclaim phaseArgs 1 [phaseInput (tokenizerOf []) 1] [sample] rfl (by decide)
    (by decide) (by decide) (List.cons_ne_nil _ _) (.cons hgenerated .nil) (by
      intro input hmem
      rw [List.mem_singleton.mp hmem]
      exact separates_phaseInput (by decide +kernel))
  rw [show checkPhase phaseArgs.toArgs 1 [sample] = .ok () from hpasses] at hrefused
  cases hrefused

end Crisp.Proofs
