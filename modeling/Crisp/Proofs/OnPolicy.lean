import Crisp.Ref.OpsdTrainer

/-!
# Rollouts are on-policy and the teacher lags as configured

The loop's state between two batches is determined by the number of batches
done: the replicas are awake with the last student weights and the teacher is
the one the next batch trains against. One batch carries that from `k` to
`k + 1`, whether it trained, was skipped, or had its step skipped, and what each
phase may rely on is read off the state the phase before it left.

The weights after each batch are taken from the history, so the statements are
about what the calls of a run saw and not about any single step.
-/

namespace Crisp.Proofs

open Crisp.Lib Crisp.Ref

variable {W : Type}

/-- The calls of one kind. -/
def calls (kind : FitCall) (entries : List (Entry FitCall (FitState W))) : Nat :=
  entries.countP fun e => e.kind = kind

/-- `W_0, W_1, …`: the initial student and the student after every batch. -/
def studentWeights (initial : W) (entries : List (Entry FitCall (FitState W))) : List W :=
  initial :: (entries.filter fun e => e.kind = .update).map fun e => e.after.student

/-- The teacher of batch `s`: the reference model until the first refresh, then
the student of the last multiple of `f` before `s`. -/
def teacherAt (f : Nat) (reference : W) (weights : List W) (s : Nat) : Option W :=
  if f = 0 ∨ s ≤ f then some reference else weights[f * ((s - 1) / f)]?

/-- What a call sees, given the calls before it. -/
structure OnPolicyCall (f : Nat) (initial reference : W)
    (before : List (Entry FitCall (FitState W))) (e : Entry FitCall (FitState W)) :
    Prop where
  generate : e.kind = .generate → calls .generate before = calls .update before
  rollout : e.kind = .generate ∨ e.kind = .validate →
    ∃ w, (studentWeights initial before)[calls .update before]? = some w ∧
      e.before.replicas = .awake w
  update : e.kind = .update →
    calls .generate before = calls .update before + 1 ∧
    (studentWeights initial before)[calls .update before]? = some e.before.student ∧
      teacherAt f reference (studentWeights initial before)
        (calls .update before + 1) = some e.before.teacher

/-! ## Counting calls -/

theorem calls_append {kind : FitCall} {entries rest : List (Entry FitCall (FitState W))} :
    calls kind (entries ++ rest) = calls kind entries + calls kind rest :=
  List.countP_append

theorem calls_snoc {kind : FitCall} {entries : List (Entry FitCall (FitState W))}
    {e : Entry FitCall (FitState W)} : calls kind (entries ++ [e]) =
      calls kind entries + if e.kind = kind then 1 else 0 := by
  by_cases h : e.kind = kind
  · simp [calls, h]
  · simp [calls, h]

theorem studentWeights_snoc_update {initial : W}
    {entries : List (Entry FitCall (FitState W))} {e : Entry FitCall (FitState W)}
    (h : e.kind = .update) : studentWeights initial (entries ++ [e]) =
      studentWeights initial entries ++ [e.after.student] := by
  simp [studentWeights, h]

theorem studentWeights_snoc_other {initial : W}
    {entries : List (Entry FitCall (FitState W))} {e : Entry FitCall (FitState W)}
    (h : e.kind ≠ .update) :
    studentWeights initial (entries ++ [e]) = studentWeights initial entries := by
  simp [studentWeights, h]

theorem studentWeights_length {initial : W}
    {entries : List (Entry FitCall (FitState W))} :
    (studentWeights initial entries).length = calls .update entries + 1 := by
  simp [studentWeights, calls, List.countP_eq_length_filter]

theorem studentWeights_eq_append {initial : W}
    {entries rest : List (Entry FitCall (FitState W))} :
    studentWeights initial (entries ++ rest) = studentWeights initial entries ++
      (rest.filter fun e => e.kind = .update).map fun e => e.after.student := by
  simp [studentWeights]

/-- Later batches leave the weights of earlier ones in place. -/
theorem studentWeights_append {initial w : W}
    {entries rest : List (Entry FitCall (FitState W))} {k : Nat}
    (h : (studentWeights initial entries)[k]? = some w) :
    (studentWeights initial (entries ++ rest))[k]? = some w := by
  have hk : k < (studentWeights initial entries).length :=
    (List.getElem?_eq_some_iff.mp h).1
  rw [studentWeights_eq_append, List.getElem?_append_left hk, h]

theorem teacherAt_append {f s : Nat} {reference w : W} {weights rest : List W}
    (h : teacherAt f reference weights s = some w) :
    teacherAt f reference (weights ++ rest) s = some w := by
  unfold teacherAt at h ⊢
  split
  · next hearly => rwa [if_pos hearly] at h
  · next hlate =>
      rw [if_neg hlate] at h
      have hk := (List.getElem?_eq_some_iff.mp h).1
      rw [List.getElem?_append_left hk, h]

/-- A refresh is due after batch `s`: the next batch has its student. -/
theorem teacherAt_refreshed {f s : Nat} {reference w : W} {weights : List W}
    (hf : 0 < f) (hs : 0 < s) (hdue : s % f = 0) (hw : weights[s]? = some w) :
    teacherAt f reference weights (s + 1) = some w := by
  have hle : f ≤ s := Nat.le_of_dvd hs (Nat.dvd_of_mod_eq_zero hdue)
  unfold teacherAt
  rw [if_neg (by omega), Nat.add_sub_cancel,
    Nat.mul_div_cancel' (Nat.dvd_of_mod_eq_zero hdue), hw]

/-- No refresh is due after batch `s`: the next batch keeps its teacher. -/
theorem teacherAt_kept {f s : Nat} {reference : W} {weights : List W} (hs : 0 < s)
    (hdue : ¬ (f > 0 ∧ s % f = 0)) :
    teacherAt f reference weights (s + 1) = teacherAt f reference weights s := by
  unfold teacherAt
  by_cases hf : f = 0
  · rw [if_pos (.inl hf), if_pos (.inl hf)]
  · have hmod : s % f ≠ 0 := fun h => hdue ⟨Nat.pos_of_ne_zero hf, h⟩
    have hdiv : s / f = (s - 1) / f := by
      obtain ⟨r, rfl⟩ : ∃ r, s = r + 1 := ⟨s - 1, by omega⟩
      rw [Nat.succ_div, if_neg (fun h => hmod (Nat.mod_eq_zero_of_dvd h)),
        Nat.add_sub_cancel, Nat.add_zero]
    by_cases hle : s ≤ f
    · have hne : s ≠ f := by
        rintro rfl
        exact hmod (Nat.mod_self s)
      rw [if_pos (.inr (by omega)), if_pos (.inr hle)]
    · rw [if_neg (by omega), if_neg (by omega), Nat.add_sub_cancel, hdiv]

/-! ## Phases of a batch -/

section Phases

variable {config : FitConfig} {env : FitEnv W} {f : Nat} {initial reference : W}

/-- How far a run has come: calls made of both kinds, the step counter, and the
batch whose teacher is in place. -/
structure FitProgress (f : Nat) (initial reference : W)
    (generated updated steps teacherStep : Nat) (h : History FitCall (FitState W)) :
    Prop where
  onPolicy : EachAfter (OnPolicyCall f initial reference) h.entries
  generations : calls .generate h.entries = generated
  updates : calls .update h.entries = updated
  steps : h.state.globalSteps = steps
  student : (studentWeights initial h.entries)[updated]? = some h.state.student
  teacher : teacherAt f reference (studentWeights initial h.entries) teacherStep =
    some h.state.teacher

/-- The replicas are awake with the student's weights. -/
def Synced (state : FitState W) : Prop := state.replicas = .awake state.student

/-- Whatever raises, the calls made so far were on-policy. -/
def Stopped (f : Nat) (initial reference : W) (_ : PyError)
    (h : History FitCall (FitState W)) : Prop :=
  EachAfter (OnPolicyCall f initial reference) h.entries

variable {g u n t : Nat}

/-- A change of state that leaves the student and the teacher alone. -/
theorem FitProgress.of_replicas {h : History FitCall (FitState W)} {state : FitState W}
    (hp : FitProgress f initial reference g u n t h)
    (hsteps : state.globalSteps = h.state.globalSteps)
    (hstudent : state.student = h.state.student)
    (hteacher : state.teacher = h.state.teacher) :
    FitProgress f initial reference g u n t { h with state } where
  onPolicy := hp.onPolicy
  generations := hp.generations
  updates := hp.updates
  steps := hsteps.trans hp.steps
  student := by rw [hp.student]; exact congrArg some hstudent.symm
  teacher := by rw [hp.teacher]; exact congrArg some hteacher.symm

/-- A call that is no update, on a state it does not change. -/
theorem FitProgress.noted_other {h : History FitCall (FitState W)} {kind : FitCall}
    (hp : FitProgress f initial reference g u n t h) (hkind : kind ≠ .update)
    (hcall : OnPolicyCall f initial reference h.entries ⟨kind, h.state, h.state⟩) :
    FitProgress f initial reference (g + if kind = .generate then 1 else 0) u n t
      ⟨h.state, h.entries ++ [⟨kind, h.state, h.state⟩]⟩ where
  onPolicy := hp.onPolicy.snoc hcall
  generations := by
    rw [calls_snoc, hp.generations]
  updates := by
    rw [calls_snoc, hp.updates, if_neg hkind, Nat.add_zero]
  steps := hp.steps
  student := by
    rw [studentWeights_snoc_other hkind]
    exact hp.student
  teacher := by
    rw [studentWeights_snoc_other hkind]
    exact hp.teacher

/-- A rollout on synchronized replicas is an on-policy call. -/
theorem rollout_call {h : History FitCall (FitState W)} {kind : FitCall}
    {state : FitState W} (hp : FitProgress f initial reference g u n t h) (hsync : Synced h.state)
    (hgenerate : kind = .generate → g = u) (hkind : kind ≠ .update) :
    OnPolicyCall f initial reference h.entries ⟨kind, h.state, state⟩ where
  generate := by
    intro hk
    rw [hp.generations, hp.updates, hgenerate hk]
  rollout := by
    intro _
    rw [hp.updates]
    exact ⟨h.state.student, hp.student, hsync⟩
  update := fun hk => absurd hk hkind

theorem rolloutWeights_preserves {I : FitState W → Prop} :
    Preserves I (rolloutWeights : FitM W W) := by
  refine Preserves.get.bind fun state => ?_
  cases state.replicas with
  | asleep => exact Preserves.throw
  | awake weights => exact Preserves.pure

/-- Neither kind of rollout, nor a checkpoint, changes the state. -/
theorem generateSequences_preserves {I : FitState W → Prop} {batch : TrainBatch} :
    Preserves I (generateSequences env batch) :=
  rolloutWeights_preserves.bind fun _ => Preserves.get.bind fun _ => Preserves.lift

theorem validateBatches_preserves {I : FitState W → Prop} {testBatches : List (List TestRow)} :
    ∀ {i : Nat} {sampleScores : List Rat},
      Preserves I (validateBatches config env i testBatches sampleScores) := by
  induction testBatches with
  | nil => exact Preserves.pure
  | cons testBatch testBatches ih =>
      intro i sampleScores
      exact Preserves.lift.bind fun _ => Preserves.ite (fun _ => Preserves.pure) fun _ =>
        rolloutWeights_preserves.bind fun _ => Preserves.get.bind fun _ =>
          Preserves.lift.bind fun _ => ih

theorem validate_preserves {I : FitState W → Prop} : Preserves I (validate config env) := by
  unfold validate
  cases config.valDataloader with
  | none => exact Preserves.pure
  | some testBatches =>
      exact Preserves.ite (fun _ => validateBatches_preserves.bind fun _ =>
        Preserves.ite (fun _ => Preserves.pure) fun _ => Preserves.get.bind fun _ =>
          Preserves.lift.bind fun _ => Preserves.pure) fun _ => Preserves.pure

theorem saveCheckpoint_preserves {I : FitState W → Prop} :
    Preserves I (saveCheckpoint env) :=
  Preserves.get.bind fun _ => Preserves.lift

/-- A noted call that changes nothing, where it is on-policy. -/
theorem noted_unchanged {α : Type} {kind : FitCall} {x : FitM W α}
    {S : FitState W → Prop} (hkind : kind ≠ .update)
    (hx : ∀ s, Preserves (fun t => t = s) x)
    (hcall : ∀ h, FitProgress f initial reference g u n t h → S h.state →
      OnPolicyCall f initial reference h.entries ⟨kind, h.state, h.state⟩) :
    Triple (fun h => FitProgress f initial reference g u n t h ∧ S h.state)
      (noted kind x)
      (fun _ h => FitProgress f initial reference
        (g + if kind = .generate then 1 else 0) u n t h ∧ S h.state)
      (Stopped f initial reference) := by
  refine Triple.noted ?_ ?_
  · rintro h a s ⟨hp, hS⟩ hrun
    obtain rfl : s = h.state := (hx h.state).ok rfl hrun
    exact ⟨hp.noted_other hkind (hcall h hp hS), hS⟩
  · rintro h e s ⟨hp, hS⟩ hrun
    obtain rfl : s = h.state := (hx h.state).error rfl hrun
    exact (hp.noted_other hkind (hcall h hp hS)).onPolicy

/-- An unnoted body that leaves the student and the teacher alone. -/
theorem quiet_unchanged {α : Type} {x : FitM W α}
    (hx : ∀ s : FitState W, Preserves (fun t => t.globalSteps = s.globalSteps ∧
      t.student = s.student ∧ t.teacher = s.teacher) x) :
    Triple (FitProgress f initial reference g u n t) (quiet x)
      (fun _ => FitProgress f initial reference g u n t) (Stopped f initial reference) := by
  refine Triple.quiet ?_ ?_
  · intro h a s hp hrun
    obtain ⟨hsteps, hstudent, hteacher⟩ := (hx h.state).ok ⟨rfl, rfl, rfl⟩ hrun
    exact hp.of_replicas hsteps hstudent hteacher
  · exact fun h e s hp _ => hp.onPolicy

/-- An update moves the student alone. -/
theorem opsdUpdate_frame {batch : TrainBatch} {responses : List String} (s : FitState W) :
    Preserves (fun t => t.globalSteps = s.globalSteps ∧ t.teacher = s.teacher)
      (opsdUpdate config env batch responses) := by
  refine Preserves.lift.bind fun built => ?_
  cases built with
  | none => exact Preserves.pure
  | some opsdBatch =>
      refine Preserves.get.bind fun state => Preserves.lift.bind fun stepped => ?_
      cases stepped with
      | none => exact Preserves.pure
      | some student => exact Preserves.modify fun _ h => h

/-- A batch is trained, skipped, or has its step skipped; in each case the
student it leaves is the next of the weights, and nothing else moves. -/
theorem noted_opsdUpdate {k : Nat} {batch : TrainBatch} {responses : List String} :
    Triple (FitProgress f initial reference (k + 1) k (k + 1) (k + 1))
      (noted .update (opsdUpdate config env batch responses))
      (fun _ => FitProgress f initial reference (k + 1) (k + 1) (k + 1) (k + 1))
      (Stopped f initial reference) := by
  have hcall : ∀ h s, FitProgress f initial reference (k + 1) k (k + 1) (k + 1) h →
      OnPolicyCall f initial reference h.entries ⟨.update, h.state, s⟩ := by
    intro h s hp
    refine { generate := nofun, rollout := by simp, update := fun _ => ?_ }
    rw [hp.generations, hp.updates]
    exact ⟨rfl, hp.student, hp.teacher⟩
  refine Triple.noted ?_ ?_
  · intro h a s hp hrun
    obtain ⟨hsteps, hteacher⟩ := (opsdUpdate_frame h.state).ok ⟨rfl, rfl⟩ hrun
    have hlength := @studentWeights_length _ initial h.entries
    rw [hp.updates] at hlength
    refine
      { onPolicy := hp.onPolicy.snoc (hcall h s hp)
        generations := ?_, updates := ?_, steps := hsteps.trans hp.steps
        student := ?_, teacher := ?_ }
    · rw [calls_snoc, hp.generations]
      rfl
    · rw [calls_snoc, hp.updates]
      rfl
    · rw [studentWeights_snoc_update rfl, ← hlength, List.getElem?_concat_length]
    · rw [studentWeights_snoc_update rfl, teacherAt_append hp.teacher]
      exact congrArg some hteacher.symm
  · exact fun h e s hp _ => hp.onPolicy.snoc (hcall h s hp)

/-- The teacher of the next batch is put in place. -/
theorem quiet_updateTeacherIfDue {k : Nat} :
    Triple (FitProgress config.teacherUpdateFreq initial reference (k + 1) (k + 1) (k + 1)
        (k + 1))
      (quiet (updateTeacherIfDue config))
      (fun _ => FitProgress config.teacherUpdateFreq initial reference (k + 1) (k + 1)
        (k + 1) (k + 2))
      (Stopped config.teacherUpdateFreq initial reference) := by
  refine Triple.quiet ?_ fun h e s hp _ => hp.onPolicy
  intro h a s hp hrun
  unfold updateTeacherIfDue at hrun
  rw [bind_of_ok get_run, hp.steps] at hrun
  split at hrun
  · next hdue =>
      cases hrun
      exact
        { onPolicy := hp.onPolicy, generations := hp.generations
          updates := hp.updates, steps := hp.steps, student := hp.student
          teacher := teacherAt_refreshed hdue.1 (Nat.succ_pos k) hdue.2 hp.student }
  · next hdue =>
      cases hrun
      exact
        { onPolicy := hp.onPolicy, generations := hp.generations
          updates := hp.updates, steps := hp.steps, student := hp.student
          teacher := (teacherAt_kept (Nat.succ_pos k) hdue).trans hp.teacher }

/-- Progress with the replicas synchronized. -/
def InSync (f : Nat) (initial reference : W) (g u n t : Nat)
    (h : History FitCall (FitState W)) : Prop :=
  FitProgress f initial reference g u n t h ∧ Synced h.state

/-- Between batches: `k` are done and the replicas hold the last of the
weights. -/
def Between (f : Nat) (initial reference : W) (k : Nat) :
    History FitCall (FitState W) → Prop :=
  InSync f initial reference k k (k + 1) (k + 1)

/-- The step counter moves alone. -/
theorem inSync_count :
    Triple (InSync f initial reference g u n t)
      (quiet (modify fun state : FitState W =>
        { state with globalSteps := state.globalSteps + 1 }))
      (fun _ => InSync f initial reference g u (n + 1) t)
      (Stopped f initial reference) := by
  refine Triple.quiet ?_ fun h e s hh _ => hh.1.onPolicy
  rintro h a s ⟨hp, hsync⟩ hrun
  cases hrun
  exact
    ⟨{ onPolicy := hp.onPolicy, generations := hp.generations, updates := hp.updates
       steps := congrArg (· + 1) hp.steps, student := hp.student
       teacher := hp.teacher }, hsync⟩

theorem quiet_updateWeights :
    Triple (FitProgress f initial reference g u n t) (quiet updateWeights)
      (fun _ => InSync f initial reference g u n t) (Stopped f initial reference) := by
  refine Triple.quiet ?_ fun h e s hp _ => hp.onPolicy
  intro h a s hp hrun
  cases hrun
  exact ⟨hp.of_replicas rfl rfl rfl, rfl⟩

/-- Reading or refusing changes nothing. -/
theorem inSync_quiet {α : Type} {x : FitM W α} (hx : ∀ s, Preserves (fun t => t = s) x) :
    Triple (InSync f initial reference g u n t) (quiet x)
      (fun _ => InSync f initial reference g u n t) (Stopped f initial reference) := by
  refine Triple.quiet ?_ fun h e s hh _ => hh.1.onPolicy
  intro h a s hh hrun
  obtain rfl : s = h.state := (hx h.state).ok rfl hrun
  exact hh

theorem inSync_validate :
    Triple (InSync f initial reference g u n t) (noted .validate (validate config env))
      (fun _ => InSync f initial reference g u n t) (Stopped f initial reference) :=
  noted_unchanged (by decide) (fun _ => validate_preserves)
    fun _ hp hsync => rollout_call hp hsync nofun (by decide)

theorem inSync_runValidation :
    Triple (InSync f initial reference g u n t) (runValidation config env)
      (fun _ => InSync f initial reference g u n t) (Stopped f initial reference) :=
  inSync_validate.bind fun _ => Triple.pure fun _ h => h

theorem inSync_save :
    Triple (InSync f initial reference g u n t) (noted .save (saveCheckpoint env))
      (fun _ => InSync f initial reference g u n t) (Stopped f initial reference) :=
  noted_unchanged (by decide) (fun _ => saveCheckpoint_preserves)
    fun _ _ _ => { generate := nofun, rollout := by simp, update := nofun }

theorem inSync_validateIfDue {isLastStep : Bool} :
    Triple (InSync f initial reference g u n t)
      (validateIfDue config env isLastStep)
      (fun _ => InSync f initial reference g u n t) (Stopped f initial reference) :=
  (inSync_quiet fun _ => Preserves.get).bind fun _ =>
    Triple.ite (fun _ => inSync_runValidation) fun _ => Triple.pure fun _ h => h

theorem inSync_saveIfDue {isLastStep : Bool} :
    Triple (InSync f initial reference g u n t)
      (saveIfDue config env isLastStep)
      (fun _ => InSync f initial reference g u n t) (Stopped f initial reference) :=
  (inSync_quiet fun _ => Preserves.get).bind fun _ =>
    Triple.ite (fun _ => inSync_save) fun _ => Triple.pure fun _ h => h

theorem noted_generate {k : Nat} {batch : TrainBatch} :
    Triple (Between f initial reference k)
      (noted .generate (generateSequences env batch))
      (fun _ => FitProgress f initial reference (k + 1) k (k + 1) (k + 1))
      (Stopped f initial reference) :=
  (noted_unchanged (by decide) (fun _ => generateSequences_preserves)
    fun _ hp hsync => rollout_call hp hsync (fun _ => rfl) (by decide)).consequence
      (fun _ h => h) (fun _ _ h => h.1) fun _ _ h => h

/-- **One batch.** From `k` batches done to `k + 1`. -/
theorem fitBatch_step {k : Nat} {batch : TrainBatch} :
    Triple (Between config.teacherUpdateFreq initial reference k)
      (fitBatch config env batch)
      (fun _ => Between config.teacherUpdateFreq initial reference (k + 1))
      (Stopped config.teacherUpdateFreq initial reference) := by
  have hsleep := @quiet_unchanged W config.teacherUpdateFreq initial reference (k + 1) k
    (k + 1) (k + 1) Unit sleepReplicas fun s => Preserves.modify fun _ h => h
  have hget := @quiet_unchanged W config.teacherUpdateFreq initial reference (k + 1) k
    (k + 1) (k + 1) (FitState W) get fun s => Preserves.get
  exact noted_generate.bind fun responses => hsleep.bind fun _ => hget.bind fun state =>
    (Triple.lift (fun _ _ h _ => h) fun _ _ h _ => h.onPolicy).bind fun _ =>
      noted_opsdUpdate.bind fun _ => quiet_updateTeacherIfDue.bind fun _ =>
        quiet_updateWeights.bind fun _ =>
          (inSync_quiet fun _ => Preserves.require).bind fun _ =>
            inSync_validateIfDue.bind fun _ => inSync_saveIfDue.bind fun _ =>
              inSync_count.bind fun _ => Triple.pure fun _ h => h

/-- Some number of batches is done. -/
def SomeBetween (f : Nat) (initial reference : W) (h : History FitCall (FitState W)) :
    Prop :=
  ∃ k, Between f initial reference k h

theorem fitEpoch_run {batches : List TrainBatch} :
    Triple (SomeBetween config.teacherUpdateFreq initial reference)
      (fitEpoch config env batches)
      (fun _ => SomeBetween config.teacherUpdateFreq initial reference)
      (Stopped config.teacherUpdateFreq initial reference) := by
  induction batches with
  | nil => exact Triple.pure fun _ h => h
  | cons batch batches ih =>
      have hbatch : Triple (SomeBetween config.teacherUpdateFreq initial reference)
          (fitBatch config env batch)
          (fun _ => SomeBetween config.teacherUpdateFreq initial reference)
          (Stopped config.teacherUpdateFreq initial reference) := by
        rintro h ⟨k, hk⟩
        exact fitBatch_step.consequence (fun _ h => h) (fun _ _ h => ⟨k + 1, h⟩)
          (fun _ _ h => h) h hk
      exact hbatch.bind fun isLastStep =>
        Triple.ite (fun _ => Triple.pure fun _ h => h) fun _ => ih

theorem fitEpochs_run {epochs : List (List TrainBatch)} :
    Triple (SomeBetween config.teacherUpdateFreq initial reference)
      (fitEpochs config env epochs)
      (fun _ => SomeBetween config.teacherUpdateFreq initial reference)
      (Stopped config.teacherUpdateFreq initial reference) := by
  induction epochs with
  | nil => exact Triple.pure fun _ h => h
  | cons batches epochs ih =>
      exact fitEpoch_run.bind fun done =>
        Triple.ite (fun _ => Triple.pure fun _ h => h) fun _ => ih

theorem inSync_validateBefore :
    Triple (InSync f initial reference g u n t) (validateBefore config env)
      (fun _ => InSync f initial reference g u n t) (Stopped f initial reference) :=
  Triple.ite (fun _ => inSync_runValidation) fun _ => Triple.pure fun _ h => h

/-- A run that has made no call. -/
structure Fresh (initial reference : W) (h : History FitCall (FitState W)) : Prop where
  entries : h.entries = []
  student : h.state.student = initial
  teacher : h.state.teacher = reference

/-- No batch is done and the initial student is `W_0`. -/
theorem Fresh.progress {h : History FitCall (FitState W)}
    (hfresh : Fresh initial reference h) :
    FitProgress f initial reference 0 0 h.state.globalSteps 1 h := by
  obtain ⟨hentries, hstudent, hteacher⟩ := hfresh
  refine
    { onPolicy := ?_, generations := ?_, updates := ?_, steps := rfl, student := ?_
      teacher := ?_ }
  · rw [hentries]
    exact eachAfter_nil
  · rw [hentries]
    rfl
  · rw [hentries]
    rfl
  · rw [hentries, hstudent]
    rfl
  · have hearly : f = 0 ∨ 1 ≤ f := by omega
    unfold teacherAt
    rw [if_pos hearly, hteacher]

/-- What `fit` does before the first batch. -/
theorem fit_start {rest : FitRunM W Unit}
    (hrest : Triple (Between f initial reference 0) rest
      (fun _ => SomeBetween f initial reference) (Stopped f initial reference)) :
    Triple (Fresh initial reference)
      (do
        quiet (modify fun state : FitState W => { state with globalSteps := 0 })
        quiet updateWeights
        quiet (modify fun state => { state with globalSteps := state.globalSteps + 1 })
        rest)
      (fun _ => SomeBetween f initial reference) (Stopped f initial reference) := by
  have hzero : Triple (Fresh initial reference)
      (quiet (modify fun state : FitState W => { state with globalSteps := 0 }))
      (fun _ => FitProgress f initial reference 0 0 0 1) (Stopped f initial reference) := by
    refine Triple.quiet ?_ fun h e s hfresh hrun => by cases hrun
    intro h a s hfresh hrun
    cases hrun
    have hzeroed : Fresh initial reference
        { h with state := { h.state with globalSteps := 0 } } :=
      ⟨hfresh.entries, hfresh.student, hfresh.teacher⟩
    exact hzeroed.progress
  exact hzero.bind fun _ => quiet_updateWeights.bind fun _ =>
    inSync_count.bind fun _ => hrest

theorem fit_run {epochs : List (List TrainBatch)} :
    Triple (Fresh initial reference) (fit config env epochs)
      (fun _ => SomeBetween config.teacherUpdateFreq initial reference)
      (Stopped config.teacherUpdateFreq initial reference) :=
  fit_start (inSync_validateBefore.bind fun _ =>
    fitEpochs_run.consequence (fun _ h => ⟨0, h⟩) (fun _ _ h => h) fun _ _ h => h)

end Phases

/-- What a run of the loop leaves behind, whichever way it ends. -/
def fitHistory (config : FitConfig) (env : FitEnv W) (epochs : List (List TrainBatch))
    (start : FitState W) : History FitCall (FitState W) :=
  match fit config env epochs ⟨start, []⟩ with
  | .ok _ h => h
  | .error _ h => h

theorem fitHistory_eachAfter (config : FitConfig) (env : FitEnv W)
    (epochs : List (List TrainBatch)) (start : FitState W) :
    EachAfter (OnPolicyCall config.teacherUpdateFreq start.student start.teacher)
      (fitHistory config env epochs start).entries := by
  have hrun := @fit_run W config env start.student start.teacher epochs ⟨start, []⟩
    ⟨rfl, rfl, rfl⟩
  unfold fitHistory
  cases hend : fit config env epochs ⟨start, []⟩ with
  | ok a h =>
      rw [hend] at hrun
      obtain ⟨k, hbetween⟩ := hrun
      exact hbetween.1.onPolicy
  | error e h =>
      rw [hend] at hrun
      exact hrun

/-- **Rollouts are on-policy and the teacher lags by the configured period.** In
any run, however it ends, let `W_0, W_1, …` be the student weights after each
batch. The generation of batch `k + 1` and every validation after `k` batches
find the replicas awake with `W_k`, and batch `k + 1` trains `W_k` against the
teacher `teacherAt` gives it. -/
theorem fit_on_policy (config : FitConfig) (env : FitEnv W)
    (epochs : List (List TrainBatch)) (start : FitState W) :
    let entries := (fitHistory config env epochs start).entries
    let weights := studentWeights start.student entries
    ∀ before e after, entries = before ++ e :: after →
      let k := calls .update before
      (e.kind = .generate → calls .generate before = k ∧
        ∃ w, weights[k]? = some w ∧ e.before.replicas = .awake w) ∧
      (e.kind = .validate →
        ∃ w, weights[k]? = some w ∧ e.before.replicas = .awake w) ∧
      (e.kind = .update → calls .generate before = k + 1 ∧
        weights[k]? = some e.before.student ∧
        teacherAt config.teacherUpdateFreq start.teacher weights (k + 1) =
          some e.before.teacher) := by
  intro entries weights before e after hsplit k
  have hcall := fitHistory_eachAfter config env epochs start before e after hsplit
  have hweights : weights = studentWeights start.student (before ++ e :: after) :=
    congrArg (studentWeights start.student) hsplit
  -- the weights known at the call are still the run's weights at its end
  have hlater : ∀ {w : W}, (studentWeights start.student before)[k]? = some w →
      weights[k]? = some w := by
    intro w hw
    rw [hweights]
    exact studentWeights_append hw
  refine ⟨?_, ?_, ?_⟩
  · intro hkind
    obtain ⟨w, hw, hawake⟩ := hcall.rollout (.inl hkind)
    exact ⟨hcall.generate hkind, w, hlater hw, hawake⟩
  · intro hkind
    obtain ⟨w, hw, hawake⟩ := hcall.rollout (.inr hkind)
    exact ⟨w, hlater hw, hawake⟩
  · intro hkind
    obtain ⟨hgenerated, hstudent, hteacher⟩ := hcall.update hkind
    refine ⟨hgenerated, hlater hstudent, ?_⟩
    rw [hweights, studentWeights_eq_append]
    exact teacherAt_append hteacher

end Crisp.Proofs
