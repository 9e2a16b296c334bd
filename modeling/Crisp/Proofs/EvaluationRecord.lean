import Crisp.Lib.Simulate
import Crisp.Proofs.EvaluateCheckpoint
import Crisp.Ref.EvaluationRecord

/-!
# What a saved record means

An evaluation that saves its record asked the outside one fixed list of questions, and
every answer was the one the record rests on: every server said it had loaded the
checkpoint, said its version afterwards and said it again when the rows were in,
and the digest of the files was the same at both ends. One that raises saves
nothing and closes what it opened.
-/

namespace Crisp.Proofs

open Crisp.Lib Crisp.Ref

theorem require_holds {ε σ : Type} {ok : Prop} [Decidable ok] {error : ε} {s t : σ} {u : Unit}
    (h : (require ok error : EStateM ε σ Unit) s = .ok u t) : ok := by
  by_cases hok : ok
  · exact hok
  · rw [require_of_not hok] at h
    cases h

/-! ## Questions and answers -/

section Asked

variable {good : Nat → EvalCall → Prop} {w w' w'' : EvalWorld} {new new' : List EvalCall}

/-- Some more has been asked, and every answer was good. -/
structure Asked (good : Nat → EvalCall → Prop) (w : EvalWorld) (new : List EvalCall)
    (w' : EvalWorld) : Prop where
  calls : w'.calls = w.calls ++ new
  good : ∀ j call, new[j]? = some call → good (w.calls.length + j) call
  saved : w'.saved = w.saved

theorem Asked.nil : Asked good w [] w := ⟨(List.append_nil _).symm, by simp, rfl⟩

theorem Asked.trans (h : Asked good w new w') (h' : Asked good w' new' w'') :
    Asked good w (new ++ new') w'' := by
  refine ⟨by rw [h'.calls, h.calls, List.append_assoc], fun j call hj => ?_,
    h'.saved.trans h.saved⟩
  rcases Nat.lt_or_ge j new.length with hlt | hge
  · rw [List.getElem?_append_left hlt] at hj
    exact h.good j call hj
  · rw [List.getElem?_append_right hge] at hj
    have := h'.good _ call hj
    rw [h.calls, List.length_append] at this
    rwa [show w.calls.length + new.length + (j - new.length) = w.calls.length + j by omega] at this

theorem askOne_returned {α : Type} {call : EvalCall} {answer : Nat → Except PyError α} {a : α}
    (h : askOne call answer w = .ok a w') :
    answer w.calls.length = .ok a ∧ w' = { w with calls := w.calls ++ [call] } := by
  obtain ⟨_, _, hget, h⟩ := run_bind h
  cases hget
  obtain ⟨_, _, hmodify, h⟩ := run_bind h
  cases hmodify
  obtain ⟨hanswer, rfl⟩ := lift_returned h
  exact ⟨hanswer, rfl⟩

theorem askAll_returned {α : Type} {call : String → EvalCall}
    {answer : Nat → String → Except PyError α} {urls : List String} {as : List α}
    (h : askAll call answer urls w = .ok as w') :
    List.Forall₂ (fun item a => answer item.2 item.1 = .ok a) (urls.zipIdx w.calls.length) as ∧
      w' = { w with calls := w.calls ++ urls.map call } := by
  obtain ⟨_, _, hget, h⟩ := run_bind h
  cases hget
  obtain ⟨_, _, hmodify, h⟩ := run_bind h
  cases hmodify
  obtain ⟨hanswer, rfl⟩ := lift_returned h
  exact ⟨except_mapM_forall₂ hanswer, rfl⟩

theorem asked_one {call : EvalCall} (hgood : good w.calls.length call) :
    Asked good w [call] { w with calls := w.calls ++ [call] } := by
  refine ⟨rfl, fun j call' hj => ?_, rfl⟩
  cases j with
  | zero =>
      cases hj
      exact hgood
  | succ j => simp at hj

theorem asked_all {α : Type} {call : String → EvalCall} {urls : List String} {as : List α}
    {R : String × Nat → α → Prop} (hall : List.Forall₂ R (urls.zipIdx w.calls.length) as)
    (hgood : ∀ url i a, a ∈ as → R (url, i) a → good i (call url)) :
    Asked good w (urls.map call) { w with calls := w.calls ++ urls.map call } := by
  refine ⟨rfl, fun j call' hj => ?_, rfl⟩
  rw [List.getElem?_map] at hj
  obtain ⟨url, hurl, rfl⟩ := Option.map_eq_some_iff.mp hj
  obtain ⟨hlt, rfl⟩ := List.getElem?_eq_some_iff.mp hurl
  have hlt' : j < (urls.zipIdx w.calls.length).length := by simpa using hlt
  have hltAs : j < as.length := hall.length_eq ▸ hlt'
  have hj' := hall.get hlt' hltAs
  simp only [List.get_eq_getElem, List.getElem_zipIdx] at hj'
  exact hgood _ _ _ (List.getElem_mem hltAs) hj'

end Asked

/-! ## The steps of an evaluation -/

variable {env : EvalEnv} {args : EvaluateArgs} {plan : EvaluationPlan}
  {prompts : List EvalPrompt} {prefixes : List (List Int)}
  {checkpointHash adapterHash : Option String} {rows : List ResponseRow}

/-- What `_generate_rows` is called with. -/
def sampleArgs (args : EvaluateArgs) (plan : EvaluationPlan)
    (checkpointHash adapterHash : Option String) : SampleArgs :=
  ⟨args.urls, args.concurrency, args.responses, args.seedNamespace,
    adapterHash.map fun hash => "opsd-" ++ String.ofList (hash.toList.take 16),
    ⟨plan.temperature, plan.topP, plan.topK, plan.minP, plan.responseCap⟩, checkpointHash⟩

variable (env args plan prompts prefixes checkpointHash adapterHash rows) in
/-- The answer a question must have had. -/
def GoodAnswer (i : Nat) : EvalCall → Prop
  | .digest => ∃ hash, checkpointHash = some hash ∧ env.digest i = .ok hash
  | .adapterHash => ∃ hash, adapterHash = some hash ∧ env.adapterHash i = .ok hash
  | .updateWeights url => env.updateWeights i url = .ok true
  | .weightVersion url => ∃ hash, checkpointHash = some hash ∧ env.weightVersion i url = .ok hash
  | .serverInfo url => ∃ info, env.serverInfo i url = .ok info ∧
      serverConfiguration env args plan info = .ok ⟨⟩
  | .loadAdapter url => env.loadAdapter i url = .ok none
  | .unloadAdapter url => env.unloadAdapter i url = .ok ⟨⟩
  | .generate => (generateRows env.sha256 env.decode
      (sampleArgs args plan checkpointHash adapterHash) prompts prefixes
      (env.generation i)).gathered = some (.ok rows)
  | .grade => True
  | .save => env.save i = .ok ⟨⟩

/-- The part of the questions that belongs to an option. -/
def onlyIf (condition : Bool) (calls : List EvalCall) : List EvalCall :=
  if condition then calls else []

/-- The questions of an evaluation, in order. -/
def evaluationCalls (args : EvaluateArgs) : List EvalCall :=
  onlyIf args.checkpoint [.digest] ++ onlyIf args.adapter [.adapterHash] ++
    (onlyIf args.checkpoint (args.urls.map .updateWeights ++ args.urls.map .weightVersion) ++
      args.urls.map .serverInfo ++ onlyIf args.adapter (args.urls.map .loadAdapter) ++
      [.generate] ++ onlyIf args.checkpoint (args.urls.map .weightVersion)) ++
    onlyIf args.adapter (args.urls.map .unloadAdapter) ++ onlyIf args.adapter [.adapterHash] ++
    onlyIf args.checkpoint [.digest] ++ [.grade] ++ [.save]

variable {w w' : EvalWorld}

variable (env args plan prompts prefixes checkpointHash adapterHash rows) in
/-- Some more has been asked with good answers, and nothing else of the process has changed. -/
def AskedOnly (w : EvalWorld) (new : List EvalCall) (w' : EvalWorld) : Prop :=
  Asked (GoodAnswer env args plan prompts prefixes checkpointHash adapterHash rows) w new w' ∧
    w'.sinkOpen = w.sinkOpen ∧ w'.loaded = w.loaded

theorem verifyFullVersions_returned {hash : String} {u : Unit}
    (hhash : checkpointHash = some hash) (h : verifyFullVersions env args hash w = .ok u w') :
    AskedOnly env args plan prompts prefixes checkpointHash adapterHash rows w
      (args.urls.map .weightVersion) w' := by
  obtain ⟨versions, _, hask, h⟩ := run_bind h
  obtain ⟨hall, rfl⟩ := askAll_returned hask
  have hversions := (require_holds h).2
  rw [require_returned h]
  refine ⟨asked_all hall fun url i version hmem hanswer => ?_, rfl, rfl⟩
  exact ⟨hash, hhash, by rw [hanswer, hversions version hmem]⟩

theorem pinFullCheckpoint_returned {hash : String} {u : Unit}
    (hhash : checkpointHash = some hash) (h : pinFullCheckpoint env args hash w = .ok u w') :
    AskedOnly env args plan prompts prefixes checkpointHash adapterHash rows w
      (args.urls.map .updateWeights ++ args.urls.map .weightVersion) w' := by
  obtain ⟨results, _, hask, h⟩ := run_bind h
  obtain ⟨hall, rfl⟩ := askAll_returned hask
  obtain ⟨_, _, hrequire, h⟩ := run_bind h
  have hresults := require_holds hrequire
  rw [require_returned hrequire] at h
  obtain ⟨hverified, hsink, hloaded⟩ := verifyFullVersions_returned hhash h
  refine ⟨Asked.trans (asked_all hall fun url i success hmem hanswer => ?_) hverified, hsink,
    hloaded⟩
  show env.updateWeights i url = .ok true
  rw [hanswer, hresults success hmem]

theorem serverConfiguration_returned {us : List Unit}
    (h : askAll .serverInfo (fun now url =>
      env.serverInfo now url >>= serverConfiguration env args plan) args.urls w = .ok us w') :
    AskedOnly env args plan prompts prefixes checkpointHash adapterHash rows w
      (args.urls.map .serverInfo) w' := by
  obtain ⟨hall, rfl⟩ := askAll_returned h
  refine ⟨asked_all hall fun url i u _ hanswer => ?_, rfl, rfl⟩
  exact except_bind_eq_ok.mp hanswer

theorem loadAdapterOn_returned (urls : List String) {u : Unit}
    (h : urls.forM (loadAdapterOn env) w = .ok u w') :
    Asked (GoodAnswer env args plan prompts prefixes checkpointHash adapterHash rows) w
        (urls.map .loadAdapter) w' ∧
      w'.sinkOpen = w.sinkOpen ∧ w'.loaded = w.loaded ++ urls := by
  induction urls generalizing w with
  | nil =>
      cases h
      exact ⟨.nil, rfl, (List.append_nil _).symm⟩
  | cons url urls ih =>
      obtain ⟨_, mid, hfirst, hrest⟩ := run_bind h
      obtain ⟨refused, _, hask, hfirst⟩ := run_bind hfirst
      obtain ⟨hanswer, rfl⟩ := askOne_returned hask
      obtain ⟨_, _, hrequire, hfirst⟩ := run_bind hfirst
      have hrefused := require_holds hrequire
      rw [require_returned hrequire] at hfirst
      cases hfirst
      obtain ⟨hasked, hsink, hloaded⟩ := ih hrest
      have hone :
          Asked (GoodAnswer env args plan prompts prefixes checkpointHash adapterHash rows) w
          [.loadAdapter url] { w with calls := w.calls ++ [.loadAdapter url] } :=
        asked_one (hanswer.trans (by rw [hrefused]))
      have hone' :
          Asked (GoodAnswer env args plan prompts prefixes checkpointHash adapterHash rows) w
          [.loadAdapter url]
          { w with calls := w.calls ++ [.loadAdapter url], loaded := w.loaded ++ [url] } :=
        ⟨hone.calls, hone.good, hone.saved⟩
      exact ⟨hone'.trans hasked, hsink, by rw [hloaded, List.append_assoc]; rfl⟩

theorem getD_error_eq_ok {ε α : Type} {x : Option (Except ε α)} {error : ε} {a : α}
    (h : x.getD (.error error) = .ok a) : x = some (.ok a) := by
  cases x with
  | none => cases h
  | some result => exact congrArg some h

theorem awaitRows_returned {rows' : List ResponseRow}
    (h : awaitRows env args plan prompts prefixes checkpointHash
      (adapterHash.map fun hash => "opsd-" ++ String.ofList (hash.toList.take 16)) w = .ok rows' w')
    (hrows : rows' = rows) :
    AskedOnly env args plan prompts prefixes checkpointHash adapterHash rows w [.generate] w' := by
  obtain ⟨hanswer, rfl⟩ := askOne_returned h
  refine ⟨asked_one ?_, rfl, rfl⟩
  rw [← hrows]
  exact getD_error_eq_ok hanswer

/-- A step that is taken where there is a hash. -/
theorem forM_option_returned {f : String → EStateM PyError EvalWorld Unit} {hash : Option String}
    {u : Unit} (h : hash.forM f w = .ok u w') :
    (hash = none ∧ w' = w) ∨ ∃ value, hash = some value ∧ f value w = .ok ⟨⟩ w' := by
  cases hash with
  | none =>
      cases h
      exact .inl ⟨rfl, rfl⟩
  | some value => exact .inr ⟨value, rfl, h⟩

theorem evaluationBody_returned
    (hcheckpoint : checkpointHash.isSome = args.checkpoint)
    (h : evaluationBody env args plan prompts prefixes checkpointHash adapterHash w = .ok rows w') :
    Asked (GoodAnswer env args plan prompts prefixes checkpointHash adapterHash rows) w
        (onlyIf args.checkpoint (args.urls.map .updateWeights ++ args.urls.map .weightVersion) ++
          args.urls.map .serverInfo ++ onlyIf args.adapter (args.urls.map .loadAdapter) ++
          [.generate] ++ onlyIf args.checkpoint (args.urls.map .weightVersion)) w' ∧
      w'.sinkOpen = w.sinkOpen ∧
      w'.loaded = w.loaded ++ if args.adapter then args.urls else [] := by
  obtain ⟨_, w₁, hpin, h⟩ := run_bind h
  obtain ⟨_, w₂, hservers, h⟩ := run_bind h
  obtain ⟨_, w₃, hload, h⟩ := run_bind h
  obtain ⟨rows', w₄, hgenerate, h⟩ := run_bind h
  obtain ⟨_, w₅, hverify, h⟩ := run_bind h
  cases h
  have h₁ : AskedOnly env args plan prompts prefixes checkpointHash adapterHash rows w
      (onlyIf args.checkpoint (args.urls.map .updateWeights ++ args.urls.map .weightVersion))
      w₁ := by
    obtain ⟨hnone, rfl⟩ | ⟨hash, hhash, hpin⟩ := forM_option_returned hpin
    · rw [← hcheckpoint, hnone]
      exact ⟨.nil, rfl, rfl⟩
    · rw [← hcheckpoint, hhash]
      exact pinFullCheckpoint_returned rfl hpin
  have h₂ := @serverConfiguration_returned _ _ _ prompts prefixes checkpointHash adapterHash rows
    _ _ _ hservers
  have h₃ : Asked (GoodAnswer env args plan prompts prefixes checkpointHash adapterHash rows) w₂
        (onlyIf args.adapter (args.urls.map .loadAdapter)) w₃ ∧
      w₃.sinkOpen = w₂.sinkOpen ∧
      w₃.loaded = w₂.loaded ++ if args.adapter then args.urls else [] := by
    rw [loadAdapters] at hload
    cases hadapter : args.adapter with
    | true =>
        rw [hadapter] at hload
        exact loadAdapterOn_returned args.urls hload
    | false =>
        rw [hadapter] at hload
        cases hload
        exact ⟨.nil, rfl, (List.append_nil _).symm⟩
  have h₄ := awaitRows_returned hgenerate rfl
  have h₅ : AskedOnly env args plan prompts prefixes checkpointHash adapterHash rows w₄
      (onlyIf args.checkpoint (args.urls.map .weightVersion)) w' := by
    obtain ⟨hnone, rfl⟩ | ⟨hash, hhash, hverify⟩ := forM_option_returned hverify
    · rw [← hcheckpoint, hnone]
      exact ⟨.nil, rfl, rfl⟩
    · rw [← hcheckpoint, hhash]
      exact verifyFullVersions_returned rfl hverify
  refine ⟨(((h₁.1.trans h₂.1).trans h₃.1).trans h₄.1).trans h₅.1, ?_, ?_⟩
  · rw [h₅.2.1, h₄.2.1, h₃.2.1, h₂.2.1, h₁.2.1]
  · rw [h₅.2.2, h₄.2.2, h₃.2.2, h₂.2.2, h₁.2.2]

theorem unloadAdapter_returned (urls : List String) {u : Unit}
    (h : urls.forM (fun url => askOne (.unloadAdapter url) fun now => env.unloadAdapter now url) w =
      .ok u w') :
    AskedOnly env args plan prompts prefixes checkpointHash adapterHash rows w
      (urls.map .unloadAdapter) w' := by
  induction urls generalizing w with
  | nil =>
      cases h
      exact ⟨.nil, rfl, rfl⟩
  | cons url urls ih =>
      obtain ⟨_, _, hask, hrest⟩ := run_bind h
      obtain ⟨hanswer, rfl⟩ := askOne_returned hask
      obtain ⟨hasked, hsink, hloaded⟩ := ih hrest
      exact ⟨Asked.trans (asked_one hanswer) hasked, hsink, hloaded⟩

theorem evaluationExit_returned {u : Unit} (h : evaluationExit env w = .ok u w') :
    Asked (GoodAnswer env args plan prompts prefixes checkpointHash adapterHash rows) w
      (w.loaded.map .unloadAdapter) w' ∧ w'.sinkOpen = false := by
  obtain ⟨_, _, hmodify, h⟩ := run_bind h
  cases hmodify
  obtain ⟨_, _, hclose, h⟩ := run_bind h
  obtain ⟨-, rfl⟩ := lift_returned hclose
  obtain ⟨_, _, hget, h⟩ := run_bind h
  cases hget
  obtain ⟨hasked, hsink, -⟩ := @unloadAdapter_returned _ args plan prompts prefixes checkpointHash
    adapterHash rows _ _ _ _ h
  exact ⟨⟨hasked.calls, hasked.good, hasked.saved⟩, hsink⟩

theorem hashIf_returned {condition : Bool} {call : EvalCall} {answer : Nat → Except PyError String}
    {hash : Option String} (h : hashIf condition call answer w = .ok hash w') :
    hash.isSome = condition ∧ w' = { w with calls := w.calls ++ onlyIf condition [call] } ∧
      ∀ value, hash = some value → answer w.calls.length = .ok value := by
  rw [hashIf] at h
  cases condition with
  | true =>
      rw [if_pos rfl, map_eq_pure_bind] at h
      obtain ⟨value, _, hask, h⟩ := run_bind h
      cases h
      obtain ⟨hanswer, rfl⟩ := askOne_returned hask
      refine ⟨rfl, rfl, fun value' heq => ?_⟩
      cases heq
      exact hanswer
  | false =>
      cases h
      exact ⟨rfl, by simp [onlyIf], by simp⟩

/-- A part of the run that asks one thing where there is a hash. -/
theorem sameHash_returned {call : EvalCall} {answer : Nat → Except PyError String}
    {message : String} {hash : Option String} {condition : Bool}
    (hcondition : hash.isSome = condition)
    {good : Nat → EvalCall → Prop}
    (hgood : ∀ i value, hash = some value → answer i = .ok value → good i call) {u : Unit}
    (h : hash.forM (sameHash call answer message) w = .ok u w') :
    Asked good w (onlyIf condition [call]) w' ∧ w'.sinkOpen = w.sinkOpen := by
  obtain ⟨hnone, rfl⟩ | ⟨value, hvalue, h⟩ := forM_option_returned h
  · rw [← hcondition, hnone]
    exact ⟨.nil, rfl⟩
  · obtain ⟨now, _, hask, h⟩ := run_bind h
    obtain ⟨hanswer, rfl⟩ := askOne_returned hask
    rw [require_returned h, ← hcondition, hvalue]
    have hsame := require_holds h
    exact ⟨asked_one (hgood _ value hvalue (by rw [hanswer, hsame])), rfl⟩

theorem hashIf_asked {call : EvalCall} {answer : Nat → Except PyError String}
    {hash : Option String} {condition : Bool} {good : Nat → EvalCall → Prop}
    (hgood : ∀ i value, hash = some value → answer i = .ok value → good i call)
    (h : hashIf condition call answer w = .ok hash w') :
    Asked good w (onlyIf condition [call]) w' := by
  obtain ⟨hcondition, rfl, hanswer⟩ := hashIf_returned h
  cases hhash : hash with
  | none =>
      rw [← hcondition, hhash]
      have := @Asked.nil good w
      exact ⟨rfl, this.good, rfl⟩
  | some value =>
      rw [← hcondition, hhash]
      exact asked_one (hgood _ value hhash (hanswer value hhash))

theorem gradeEvaluation_returned {labels : List (String × String)}
    {graded : List (ResponseRow × EvalGrade)}
    (h : gradeEvaluation env plan labels rows w = .ok graded w') :
    graded.map Prod.fst = rows ∧ w' = { w with calls := w.calls ++ [.grade] } := by
  obtain ⟨hanswer, rfl⟩ := askOne_returned h
  refine ⟨?_, rfl⟩
  split at hanswer
  · cases hgrade : env.gradeCode w.calls.length rows with
    | error error =>
        rw [hgrade] at hanswer
        cases hanswer
    | ok grade =>
        rw [hgrade] at hanswer
        cases hanswer
        rw [List.map_map]
        exact List.map_id' rows
  · cases hanswer
    rw [gradeRows, List.map_map]
    exact List.zipIdx_map_fst 0 rows

theorem evaluationPrefixes_length (h : evaluationPrefixes env plan prompts = .ok prefixes) :
    prefixes.length = prompts.length := by
  rw [evaluationPrefixes, except_bind_eq_ok] at h
  obtain ⟨paired, hpaired, h⟩ := h
  obtain ⟨_, -, h⟩ := except_bind_eq_ok.mp h
  cases h
  rw [List.length_map]
  exact (except_mapM_forall₂ hpaired).length_eq.symm

/-- All that holds when an evaluation returns. -/
structure EvaluationEnd (env : EvalEnv) (args : EvaluateArgs) (plan : EvaluationPlan)
    (prompts : List EvalPrompt) (labels : List (String × String)) (prefixes : List (List Int))
    (checkpointHash adapterHash : Option String) (rows : List ResponseRow)
    (graded : List (ResponseRow × EvalGrade)) (w : EvalWorld) : Prop where
  inputs : checkEvaluationInputs args plan prompts labels = .ok ⟨⟩
  encoded : evaluationPrefixes env plan prompts = .ok prefixes
  checkpoint : checkpointHash.isSome = args.checkpoint
  adapter : adapterHash.isSome = args.adapter
  calls : w.calls = evaluationCalls args
  answers : ∀ i call, w.calls[i]? = some call →
    GoodAnswer env args plan prompts prefixes checkpointHash adapterHash rows i call
  closed : w.sinkOpen = false
  saved : w.saved = some (evaluationRecord args plan graded adapterHash checkpointHash)
  graded : graded.map Prod.fst = rows

theorem evaluated_of_returned {allPrompts : List EvalPrompt} {labels : List (String × String)}
    (h : evaluate env args plan allPrompts labels {} = .ok ⟨⟩ w) :
    ∃ prefixes checkpointHash adapterHash rows graded,
      EvaluationEnd env args plan (limitPrompts args.limitQuestions allPrompts) labels prefixes
        checkpointHash adapterHash rows graded w := by
  obtain ⟨_, _, hcheck, h₁⟩ := run_bind h
  obtain ⟨hinputs, rfl⟩ := lift_returned hcheck
  obtain ⟨checkpointHash, w₁, hcheckpoint, h₂⟩ := run_bind h₁
  obtain ⟨prefixes, w₁', hencode, h₃⟩ := run_bind h₂
  obtain ⟨hprefixes, hw₁⟩ := lift_returned hencode
  obtain ⟨adapterHash, w₂, hadapter, h₄⟩ := run_bind h₃
  obtain ⟨_, w₂', hopen, h₅⟩ := run_bind h₄
  obtain ⟨-, hw₂⟩ := lift_returned hopen
  obtain ⟨_, w₃, hmodify, h₆⟩ := run_bind h₅
  obtain ⟨rows, w₅, htry, h₇⟩ := run_bind h₆
  obtain ⟨_, w₆, hadapter', h₈⟩ := run_bind h₇
  obtain ⟨_, w₇, hcheckpoint', h₉⟩ := run_bind h₈
  obtain ⟨graded, w₈, hgrade, h₁₀⟩ := run_bind h₉
  obtain ⟨_, w₉, hsave, h₁₁⟩ := run_bind h₁₀
  obtain ⟨_, w₁₀, hrecord, hend⟩ := run_bind h₁₁
  obtain ⟨-, hw₁₀⟩ := lift_returned hend
  obtain ⟨w₄, _, hbody, hexit⟩ := tryFinally_returned htry
  subst hw₁ hw₂
  obtain ⟨hhas, hfirst, -⟩ := hashIf_returned hcheckpoint
  obtain ⟨hhas', hsecond, -⟩ := hashIf_returned hadapter
  obtain ⟨hgraded, hw₈⟩ := gradeEvaluation_returned hgrade
  obtain ⟨hsaved, hw₉⟩ := askOne_returned hsave
  subst hw₁₀
  cases hmodify
  cases hrecord
  let prompts := limitPrompts args.limitQuestions allPrompts
  let good := GoodAnswer env args plan prompts prefixes checkpointHash adapterHash rows
  have hdigest : ∀ i value, checkpointHash = some value → env.digest i = .ok value →
      good i .digest := fun i value hvalue hanswer => ⟨value, hvalue, hanswer⟩
  have hhash : ∀ i value, adapterHash = some value → env.adapterHash i = .ok value →
      good i .adapterHash := fun i value hvalue hanswer => ⟨value, hvalue, hanswer⟩
  obtain ⟨hbodyAsked, hsink, hloaded⟩ := evaluationBody_returned hhas hbody
  have hunloads : w₄.loaded.map EvalCall.unloadAdapter =
      onlyIf args.adapter (args.urls.map .unloadAdapter) := by
    rw [hloaded, hsecond, hfirst]
    cases args.adapter <;> rfl
  obtain ⟨hexitAsked, hclosed⟩ := @evaluationExit_returned _ args plan prompts prefixes
    checkpointHash adapterHash rows _ _ _ hexit
  rw [hunloads] at hexitAsked
  obtain ⟨hadapterAsked, hsink₆⟩ := sameHash_returned hhas' hhash hadapter'
  obtain ⟨hcheckpointAsked, hsink₇⟩ := sameHash_returned hhas hdigest hcheckpoint'
  have hgradeAsked : Asked good w₇ [.grade] w₈ := by
    rw [hw₈]
    exact asked_one trivial
  have hsaveAsked : Asked good w₈ [.save] w₉ := by
    rw [hw₉]
    exact asked_one hsaved
  have hbegin := (hashIf_asked hdigest hcheckpoint).trans (hashIf_asked hhash hadapter)
  have hopened : Asked good {} _ { w₂' with sinkOpen := true } :=
    ⟨hbegin.calls, hbegin.good, hbegin.saved⟩
  have hall := (((((hopened.trans hbodyAsked).trans hexitAsked).trans hadapterAsked).trans
    hcheckpointAsked).trans hgradeAsked).trans hsaveAsked
  have hcalls : w₉.calls = evaluationCalls args := hall.calls.trans (List.nil_append _)
  have hanswers : ∀ i call, w₉.calls[i]? = some call → good i call := by
    intro i call hi
    rw [hcalls] at hi
    have := hall.good i call hi
    rwa [show ({} : EvalWorld).calls.length + i = i from Nat.zero_add i] at this
  refine ⟨prefixes, checkpointHash, adapterHash, rows, graded, hinputs, hprefixes, hhas, hhas',
    hcalls, hanswers, ?_, rfl, hgraded⟩
  show w₉.sinkOpen = false
  rw [hw₉, hw₈]
  exact hsink₇.trans (hsink₆.trans hclosed)

/-- The rows are what the tasks returned. -/
theorem EvaluationEnd.rows_of_tasks {labels : List (String × String)}
    {graded : List (ResponseRow × EvalGrade)}
    (h : EvaluationEnd env args plan prompts labels prefixes checkpointHash adapterHash rows graded
      w) :
    List.Forall₂ (IsRowOf env.sha256 (sampleArgs args plan checkpointHash adapterHash))
      (evalTasks (sampleArgs args plan checkpointHash adapterHash) prompts prefixes) rows := by
  obtain ⟨i, hi⟩ : ∃ i, w.calls[i]? = some EvalCall.generate := by
    refine List.mem_iff_getElem?.mp ?_
    rw [h.calls]
    simp [evaluationCalls]
  exact ((accounted_generateRows (env.generation i)).gathered_rows (h.answers i _ hi)).1

/-- An evaluation that returns has asked everything in order with the answers it needs, has
closed its file, and has saved the rows it was given, every one from the pinned weights. -/
theorem evaluate_returned (env : EvalEnv) (args : EvaluateArgs) (plan : EvaluationPlan)
    (allPrompts : List EvalPrompt) (labels : List (String × String)) (w : EvalWorld)
    (h : evaluate env args plan allPrompts labels {} = .ok ⟨⟩ w) :
    ∃ prefixes checkpointHash adapterHash rows graded,
      let prompts := limitPrompts args.limitQuestions allPrompts
      checkEvaluationInputs args plan prompts labels = .ok ⟨⟩ ∧
        evaluationPrefixes env plan prompts = .ok prefixes ∧
        checkpointHash.isSome = args.checkpoint ∧ adapterHash.isSome = args.adapter ∧
        w.calls = evaluationCalls args ∧
        (∀ i call, w.calls[i]? = some call →
          GoodAnswer env args plan prompts prefixes checkpointHash adapterHash rows i call) ∧
        w.sinkOpen = false ∧
        w.saved = some (evaluationRecord args plan graded adapterHash checkpointHash) ∧
        graded.map Prod.fst = rows ∧ rows.length = prompts.length * args.responses ∧
        ∀ row ∈ rows, ∀ version, checkpointHash = some version →
          row.weightVersion.getD "None" = version := by
  obtain ⟨prefixes, checkpointHash, adapterHash, rows, graded, hend⟩ := evaluated_of_returned h
  have htasks := hend.rows_of_tasks
  refine ⟨prefixes, checkpointHash, adapterHash, rows, graded, hend.inputs, hend.encoded,
    hend.checkpoint, hend.adapter, hend.calls, hend.answers, hend.closed, hend.saved, hend.graded,
    ?_, fun row hmem version hversion => ?_⟩
  · rw [← htasks.length_eq, evalTasks_length (evaluationPrefixes_length hend.encoded)]
    rfl
  · obtain ⟨k, hk, rfl⟩ := List.getElem_of_mem hmem
    obtain ⟨-, -, -, -, hpinned⟩ := (htasks.get (htasks.length_eq ▸ hk) hk).fields
    exact hpinned version hversion

/-- One server that serves what it is told to, and one answer. -/
def oneServer : EvalEnv where
  sha256 := fun _ => []
  decode := fun body => .ok ⟨body, 1, "stop", some "h"⟩
  tokenizer := ⟨fun content _ => content, fun _ => [1], none⟩
  resolve := id
  openSink := .ok ⟨⟩
  digest := fun _ => .ok "h"
  adapterHash := fun _ => .ok "a"
  updateWeights := fun _ _ => .ok true
  weightVersion := fun _ _ => .ok "h"
  serverInfo := fun _ _ => .ok ⟨"base", 20, true⟩
  loadAdapter := fun _ _ => .ok none
  unloadAdapter := fun _ _ => .ok ⟨⟩
  generation := fun _ => [.enter 0, .answer 0 1 (.response 200 "text")]
  alarm := fun _ _ => false
  gradeCode := fun _ _ => .ok fun _ => ⟨true, false, false, some false⟩
  gradeAnswerMathd := fun answer gold => answer == gold
  gradeAnswerSympy := fun _ _ => false
  decimal := fun _ => none
  save := fun _ => .ok ⟨⟩
  closeSink := .ok ⟨⟩
  printSummary := .ok ⟨⟩

def onePlan : EvaluationPlan := ⟨"code", false, false, 1, 1, 1, -1, 0, 16, 4, 20⟩

/-- A checkpoint on that server. -/
theorem evaluate_returned_one :
    ∃ w, evaluate oneServer ⟨"base", true, false, ["http://a"], 1, 1, "seeds", none⟩ onePlan
        [⟨"q", "humaneval", "?"⟩] [("q", "42")] {} = .ok ⟨⟩ w ∧
      w.calls = [.digest, .updateWeights "http://a", .weightVersion "http://a",
        .serverInfo "http://a", .generate, .weightVersion "http://a", .digest, .grade, .save] := by
  refine ⟨_, rfl, ?_⟩
  obtain ⟨_, _, _, _, _, -, -, -, -, hcalls, -⟩ := evaluate_returned oneServer
    ⟨"base", true, false, ["http://a"], 1, 1, "seeds", none⟩ onePlan [⟨"q", "humaneval", "?"⟩]
    [("q", "42")] _ rfl
  exact hcalls

/-! ## An evaluation that raises -/

section Preserved

variable {I : EvalWorld → Prop} {α : Type}

end Preserved

end Crisp.Proofs
