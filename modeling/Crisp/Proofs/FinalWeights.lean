import Crisp.Proofs.OnPolicy

/-!
# What is left of the final weights

A checkpoint and a validation are due when their frequency divides the step, or
when the step is the last one; and the last step is told by its number alone,
which the configuration may set beyond the end of the epochs. The loop then ends
between two steps, after a batch that no test called the last.

What a batch leaves behind depends on its number, so the run lemma only has to
say at which number a run stops: at the first that reaches the configured total,
or at the number of batches there are.
-/

namespace Crisp.Proofs

open Crisp.Lib Crisp.Ref

variable {W : Type} {config : FitConfig} {env : FitEnv W}

/-- The calls made after the last update. -/
def sinceUpdate (entries : List (Entry FitCall (FitState W))) :
    List (Entry FitCall (FitState W)) :=
  (entries.reverse.takeWhile fun e => decide (e.kind ≠ .update)).reverse

theorem sinceUpdate_append {before after : List (Entry FitCall (FitState W))}
    {e : Entry FitCall (FitState W)} (he : e.kind = .update)
    (hafter : ∀ e' ∈ after, e'.kind ≠ .update) :
    sinceUpdate (before ++ e :: after) = after := by
  have hall : ∀ e' ∈ after.reverse, decide (e'.kind ≠ .update) = true := fun e' hmem =>
    decide_eq_true (hafter e' (List.mem_reverse.mp hmem))
  unfold sinceUpdate
  rw [List.reverse_append, List.reverse_cons, List.append_assoc,
    List.takeWhile_append_of_pos hall]
  simp [he]

/-- The final weights are checkpointed and, where there is a validation reward
function, validated: after the last update, and by calls that returned. A
validation is one that has scores; a call of `_validate` may come back without. -/
structure FinalKept (config : FitConfig) (env : FitEnv W)
    (h : History FitCall (FitState W)) : Prop where
  saved : ∃ e ∈ sinceUpdate h.entries, e.kind = .save ∧
    e.before.student = h.state.student ∧
    env.save e.before.globalSteps h.state.student = .ok ()
  validated : config.hasValRewardFn = true → ∃ e ∈ sinceUpdate h.entries,
    e.kind = .validate ∧ e.before.replicas = .awake h.state.student ∧
    ∃ scores, scores ≠ [] ∧ validate config env e.before = .ok scores e.after

/-! ## One batch -/

def SaveDue (config : FitConfig) (k : Nat) : Prop :=
  config.totalTrainingSteps ≤ (k : Int) ∨ (k : Int) % config.saveFreq = 0

def ValidationDue (config : FitConfig) (k : Nat) : Prop :=
  config.totalTrainingSteps ≤ (k : Int) ∨ (config.testFreq > 0 ∧ (k : Int) % config.testFreq = 0)

theorem rolloutWeights_returned {s t : FitState W} {w : W}
    (h : rolloutWeights s = .ok w t) : s.replicas = .awake w ∧ t = s := by
  unfold rolloutWeights at h
  rw [bind_of_ok get_run] at h
  cases hreplicas : s.replicas with
  | asleep =>
      rw [hreplicas] at h
      cases h
  | awake weights =>
      rw [hreplicas] at h
      cases h
      exact ⟨rfl, rfl⟩

/-! ## One validation -/

/-- A batch whose first row is left to a reward model, which ends the validation. -/
def ByRewardModel (config : FitConfig) (rows : List TestRow) : Prop :=
  config.rewardModelEnable = true ∧ ∃ row ∈ rows.head?, row.rewardModelStyle = some "model"

/-- There is a validation dataset, it has a row to score, and none of its
batches is left to a reward model. -/
def ScoresRows (config : FitConfig) : Prop :=
  ∃ testBatches, config.valDataloader = some testBatches ∧
    (∀ testBatch ∈ testBatches, ¬ ByRewardModel config (repeatRows config.valN testBatch)) ∧
    ∃ testBatch ∈ testBatches, repeatRows config.valN testBatch ≠ []

theorem modelScored_returned {rows : List TestRow} {byModel : Bool}
    (h : modelScored config rows = .ok byModel) :
    byModel = true ↔ ByRewardModel config rows := by
  unfold modelScored at h
  split at h
  · next henable =>
      cases rows with
      | nil => cases h
      | cons row rows =>
          cases h
          simp [ByRewardModel, henable]
  · next hoff =>
      cases h
      simp [ByRewardModel, hoff]

/-- The loop ends early exactly when a batch is left to a reward model; otherwise
every row has its score. -/
theorem validateBatches_returned {testBatches : List (List TestRow)} :
    ∀ {i : Nat} {sampleScores : List Rat} {s t : FitState W} {outcome : Option (List Rat)},
      validateBatches config env i testBatches sampleScores s = .ok outcome t →
      t = s ∧
      ((∃ testBatch ∈ testBatches, ByRewardModel config (repeatRows config.valN testBatch)) →
        outcome = none) ∧
      ((∀ testBatch ∈ testBatches, ¬ ByRewardModel config (repeatRows config.valN testBatch)) →
        ∃ scores, outcome = some scores ∧ (scores = [] ↔ sampleScores = [] ∧
          ∀ testBatch ∈ testBatches, repeatRows config.valN testBatch = [])) := by
  induction testBatches with
  | nil =>
      intro i sampleScores s t outcome hrun
      cases hrun
      exact ⟨rfl, fun ⟨_, hmem, _⟩ => (List.not_mem_nil hmem).elim,
        fun _ => ⟨sampleScores, rfl, fun h => ⟨h, nofun⟩, fun h => h.1⟩⟩
  | cons testBatch testBatches ih =>
      intro i sampleScores s t outcome hrun
      unfold validateBatches at hrun
      obtain ⟨byModel, s₁, hmodel, hrest⟩ := run_bind hrun
      obtain ⟨hscored, rfl⟩ := lift_returned hmodel
      have hfirst := modelScored_returned hscored
      split at hrest
      · next hby =>
          cases hrest
          refine ⟨rfl, fun _ => rfl, fun hnone => ?_⟩
          exact absurd (hfirst.mp hby) (hnone testBatch List.mem_cons_self)
      · next hgo =>
          obtain ⟨w, s₂, hweights, hscoring⟩ := run_bind hrest
          obtain ⟨-, rfl⟩ := rolloutWeights_returned hweights
          rw [bind_of_ok get_run] at hscoring
          obtain ⟨scores, s₃, hscore, hmore⟩ := run_bind hscoring
          obtain ⟨-, rfl⟩ := lift_returned hscore
          obtain ⟨rfl, hearly, hall⟩ := ih hmore
          refine ⟨rfl, fun ⟨b, hmem, hby⟩ => hearly ⟨b, ?_, hby⟩, fun hnone => ?_⟩
          · rcases List.mem_cons.mp hmem with rfl | hmem
            · exact absurd (hfirst.mpr hby) hgo
            · exact hmem
          · obtain ⟨sampled, rfl, hempty⟩ :=
              hall fun b hmem => hnone b (List.mem_cons_of_mem _ hmem)
            have hrows : scores.1 = [] ↔ repeatRows config.valN testBatch = [] := by
              rw [← List.length_eq_zero_iff, scores.2, List.length_eq_zero_iff]
            refine ⟨sampled, rfl, ?_⟩
            rw [hempty, List.append_eq_nil_iff, hrows, List.forall_mem_cons, and_assoc]

/-- A call of `_validate` that returns has scores exactly where there are rows for it
to score. -/
theorem validate_returned {s t : FitState W} {scores : List Rat}
    (hfn : config.hasValRewardFn = true) (hrun : validate config env s = .ok scores t) :
    t = s ∧ (scores ≠ [] ↔ ScoresRows config) := by
  unfold validate at hrun
  unfold ScoresRows
  cases hloader : config.valDataloader with
  | none =>
      rw [hloader] at hrun
      cases hrun
      exact ⟨rfl, fun h => absurd rfl h, nofun⟩
  | some testBatches =>
      rw [hloader] at hrun
      simp only [hfn, if_true] at hrun
      obtain ⟨outcome, s₁, hloop, hrest⟩ := run_bind hrun
      obtain ⟨rfl, hearly, hall⟩ := validateBatches_returned hloop
      have hscores : t = s₁ ∧ scores = outcome.getD [] := by
        split at hrest
        · next hnone =>
            cases hrest
            exact ⟨rfl, hnone.symm⟩
        · rw [bind_of_ok get_run] at hrest
          obtain ⟨_, s₂, hreport, hend⟩ := run_bind hrest
          obtain ⟨-, rfl⟩ := lift_returned hreport
          cases hend
          exact ⟨rfl, rfl⟩
      obtain ⟨rfl, rfl⟩ := hscores
      refine ⟨rfl, fun hne => ?_, ?_⟩
      · have hnone : ∀ testBatch ∈ testBatches,
            ¬ ByRewardModel config (repeatRows config.valN testBatch) := by
          intro testBatch hmem hby
          rw [hearly ⟨testBatch, hmem, hby⟩] at hne
          exact hne rfl
        obtain ⟨scores, rfl, hempty⟩ := hall hnone
        refine ⟨testBatches, rfl, hnone, ?_⟩
        by_contra hrows
        refine hne (hempty.mpr ⟨rfl, fun testBatch hmem => ?_⟩)
        by_contra hrow
        exact hrows ⟨testBatch, hmem, hrow⟩
      · rintro ⟨_, hsome, hnone, testBatch, hmem, hrow⟩
        cases hsome
        obtain ⟨scores, rfl, hempty⟩ := hall hnone
        exact fun h => hrow ((hempty.mp h).2 testBatch hmem)

/-! ## The last phases of a batch -/

/-- What the validation phase of a batch adds to the history. -/
theorem validateIfDue_returned {isLastStep : Bool} {u : Unit}
    {h h' : History FitCall (FitState W)}
    (hrun : validateIfDue config env isLastStep h = .ok u h') :
    h'.state = h.state ∧ ∃ entries, h'.entries = h.entries ++ entries ∧
      (∀ e ∈ entries, e.kind = .validate ∧ e.before = h.state ∧
        ∃ scores, validate config env e.before = .ok scores e.after ∧
          (scores ≠ [] ↔ ScoresRows config)) ∧
      (entries ≠ [] ↔ config.hasValRewardFn = true ∧
        (isLastStep = true ∨
          (config.testFreq > 0 ∧ (h.state.globalSteps : Int) % config.testFreq = 0))) := by
  unfold validateIfDue at hrun
  obtain ⟨state, h₁, hget, hrun⟩ := run_bind hrun
  obtain ⟨s, hs, rfl⟩ := quiet_returned hget
  cases hs
  dsimp only at hrun
  split at hrun
  · next hdue =>
      obtain ⟨hfn, hdue⟩ := hdue
      unfold runValidation at hrun
      obtain ⟨scores, h₂, hnoted, hrun⟩ := run_bind hrun
      obtain ⟨t, hvalidate, rfl⟩ := noted_returned hnoted
      cases hrun
      obtain ⟨rfl, hscores⟩ := validate_returned hfn hvalidate
      refine ⟨rfl, _, rfl, ?_, fun _ => ⟨hfn, hdue.symm⟩, fun _ => List.cons_ne_nil _ _⟩
      intro e hmem
      rw [List.mem_singleton.mp hmem]
      exact ⟨rfl, rfl, scores, hvalidate, hscores⟩
  · next hnot =>
      cases hrun
      refine ⟨rfl, [], (List.append_nil _).symm, nofun, ?_⟩
      exact ⟨fun h => absurd rfl h, fun ⟨hfn, hdue⟩ => absurd ⟨hfn, hdue.symm⟩ hnot⟩

/-- What the checkpoint phase of a batch adds to the history. -/
theorem saveIfDue_returned {isLastStep : Bool} {u : Unit} {h h' : History FitCall (FitState W)}
    (hrun : saveIfDue config env isLastStep h = .ok u h') :
    h'.state = h.state ∧ ∃ entries, h'.entries = h.entries ++ entries ∧
      (∀ e ∈ entries, e.kind = .save ∧ e.before = h.state ∧
        env.save h.state.globalSteps h.state.student = .ok ()) ∧
      (entries ≠ [] ↔ config.saveFreq > 0 ∧
        (isLastStep = true ∨ (h.state.globalSteps : Int) % config.saveFreq = 0)) := by
  unfold saveIfDue at hrun
  obtain ⟨state, h₁, hget, hrun⟩ := run_bind hrun
  obtain ⟨s, hs, rfl⟩ := quiet_returned hget
  cases hs
  split at hrun
  · next hdue =>
      obtain ⟨t, hsave, rfl⟩ := noted_returned hrun
      unfold saveCheckpoint at hsave
      rw [bind_of_ok get_run] at hsave
      obtain ⟨hsaved, rfl⟩ := lift_returned hsave
      refine ⟨rfl, _, rfl, ?_, ⟨fun _ => hdue, fun _ => List.cons_ne_nil _ _⟩⟩
      intro e hmem
      rw [List.mem_singleton.mp hmem]
      exact ⟨rfl, rfl, hsaved⟩
  · next hnot =>
      cases hrun
      exact ⟨rfl, [], (List.append_nil _).symm, nofun,
        ⟨fun h => absurd rfl h, fun hdue => absurd hdue hnot⟩⟩

/-- `k` batches are done, and the last of them has left behind what was due at
its number. -/
structure Done (config : FitConfig) (env : FitEnv W) (k : Nat)
    (h : History FitCall (FitState W)) : Prop where
  steps : h.state.globalSteps = k + 1
  updates : calls .update h.entries = k
  kept : 0 < k → (FinalKept config env h ↔ SaveDue config k ∧
    (config.hasValRewardFn = true → ScoresRows config ∧ ValidationDue config k))

theorem generateSequences_returned {batch : TrainBatch} {s t : FitState W}
    {responses : List String} (h : generateSequences env batch s = .ok responses t) : t = s := by
  unfold generateSequences at h
  obtain ⟨w, s', hweights, hrest⟩ := run_bind h
  obtain ⟨-, rfl⟩ := rolloutWeights_returned hweights
  rw [bind_of_ok get_run] at hrest
  exact (lift_returned hrest).2

theorem updateTeacherIfDue_frame (s : FitState W) :
    Preserves (fun t : FitState W => t.globalSteps = s.globalSteps) (updateTeacherIfDue config) :=
  Preserves.get.bind fun _ =>
    Preserves.ite (fun _ => Preserves.modify fun _ h => h) fun _ => Preserves.pure

/-- What a batch adds to the history, up to the state its last two phases see. -/
theorem fitBatch_returned {batch : TrainBatch} {h h' : History FitCall (FitState W)}
    {isLastStep : Bool} (hrun : fitBatch config env batch h = .ok isLastStep h') :
    isLastStep = decide ((h.state.globalSteps : Int) ≥ config.totalTrainingSteps) ∧
    ∃ (mid mid' : History FitCall (FitState W)) (g u : Entry FitCall (FitState W)),
      mid.entries = h.entries ++ [g, u] ∧ g.kind = .generate ∧ u.kind = .update ∧
      mid.state.globalSteps = h.state.globalSteps ∧
      mid.state.replicas = .awake mid.state.student ∧
      validateIfDue config env isLastStep mid = .ok ⟨⟩ mid' ∧
      ∃ saved, saveIfDue config env isLastStep mid' = .ok ⟨⟩ saved ∧
        h' = { saved with
          state := { saved.state with globalSteps := saved.state.globalSteps + 1 } } := by
  unfold fitBatch at hrun
  obtain ⟨responses, h₁, hgenerate, hrun⟩ := run_bind hrun
  obtain ⟨t, ht, rfl⟩ := noted_returned hgenerate
  obtain rfl := generateSequences_returned ht
  obtain ⟨_, h₂, hsleep, hrun⟩ := run_bind hrun
  obtain ⟨t₂, ht₂, rfl⟩ := quiet_returned hsleep
  cases ht₂
  obtain ⟨state, h₃, hget, hrun⟩ := run_bind hrun
  obtain ⟨t₃, ht₃, rfl⟩ := quiet_returned hget
  cases ht₃
  obtain ⟨_, h₄, hverify, hrun⟩ := run_bind hrun
  obtain ⟨-, rfl⟩ := lift_returned hverify
  obtain ⟨_, h₅, hupdate, hrun⟩ := run_bind hrun
  obtain ⟨t₅, ht₅, rfl⟩ := noted_returned hupdate
  have hsteps₅ := ((opsdUpdate_frame _).ok ⟨rfl, rfl⟩ ht₅).1
  obtain ⟨_, h₆, hteacher, hrun⟩ := run_bind hrun
  obtain ⟨t₆, ht₆, rfl⟩ := quiet_returned hteacher
  have hsteps₆ := (updateTeacherIfDue_frame t₅).ok rfl ht₆
  obtain ⟨_, h₇, hweights, hrun⟩ := run_bind hrun
  obtain ⟨t₇, ht₇, rfl⟩ := quiet_returned hweights
  cases ht₇
  obtain ⟨_, h₈, hlog, hrun⟩ := run_bind hrun
  obtain ⟨t₈, ht₈, rfl⟩ := quiet_returned hlog
  obtain rfl := require_returned ht₈
  obtain ⟨_, h₉, hvalidate, hrun⟩ := run_bind hrun
  obtain ⟨_, h₁₀, hsave, hrun⟩ := run_bind hrun
  obtain ⟨_, h₁₁, hcount, hrun⟩ := run_bind hrun
  obtain ⟨t₁₁, ht₁₁, rfl⟩ := quiet_returned hcount
  cases ht₁₁
  cases hrun
  exact ⟨rfl, _, h₉, _, _, List.append_assoc _ _ _, rfl, rfl, hsteps₆.trans hsteps₅, rfl,
    hvalidate, h₁₀, hsave, rfl⟩

/-- The last two phases of batch `n`, taken from replicas that hold the student:
each leaves its call behind exactly when it is due. -/
theorem lastPhases_returned (hsave : 0 < config.saveFreq) {n : Nat} {isLastStep : Bool}
    (hlast : isLastStep = true ↔ config.totalTrainingSteps ≤ (n : Int))
    {mid mid' saved : History FitCall (FitState W)} (hsteps : mid.state.globalSteps = n)
    (hawake : mid.state.replicas = .awake mid.state.student)
    (hvalidate : validateIfDue config env isLastStep mid = .ok ⟨⟩ mid')
    (hsaved : saveIfDue config env isLastStep mid' = .ok ⟨⟩ saved) :
    saved.state = mid.state ∧ ∃ phases, saved.entries = mid.entries ++ phases ∧
      (∀ e ∈ phases, e.kind ≠ .update) ∧
      ((∃ e ∈ phases, e.kind = .save ∧ e.before.student = mid.state.student ∧
          env.save e.before.globalSteps mid.state.student = .ok ()) ↔ SaveDue config n) ∧
      (config.hasValRewardFn = true →
        ((∃ e ∈ phases, e.kind = .validate ∧ e.before.replicas = .awake mid.state.student ∧
            ∃ scores, scores ≠ [] ∧ validate config env e.before = .ok scores e.after) ↔
          ScoresRows config ∧ ValidationDue config n)) := by
  obtain ⟨hstate, validations, hvalidations, hvalid, hvalidDue⟩ :=
    validateIfDue_returned hvalidate
  obtain ⟨hstate', saves, hsaves, hsaveCall, hsaveDue⟩ := saveIfDue_returned hsaved
  rw [hlast, hsteps] at hvalidDue
  rw [hlast, hstate, hsteps] at hsaveDue
  rw [hstate] at hsaveCall
  refine ⟨hstate'.trans hstate, validations ++ saves, ?_, ?_, ?_, fun hfn => ?_⟩
  · rw [hsaves, hvalidations, List.append_assoc]
  · intro e hmem
    rcases List.mem_append.mp hmem with hval | hsav
    · rw [(hvalid e hval).1]
      decide
    · rw [(hsaveCall e hsav).1]
      decide
  · constructor
    · rintro ⟨e, hmem, hkind, -⟩
      rcases List.mem_append.mp hmem with hval | hsav
      · rw [(hvalid e hval).1] at hkind
        cases hkind
      · exact (hsaveDue.mp (List.ne_nil_of_mem hsav)).2
    · intro hdue
      obtain ⟨e, hmem⟩ := List.exists_mem_of_ne_nil saves (hsaveDue.mpr ⟨hsave, hdue⟩)
      obtain ⟨hkind, hbefore, hcall⟩ := hsaveCall e hmem
      exact ⟨e, List.mem_append_right _ hmem, hkind, by rw [hbefore], by rw [hbefore]; exact hcall⟩
  · constructor
    · rintro ⟨e, hmem, hkind, -, scores, hne, hcall⟩
      rcases List.mem_append.mp hmem with hval | hsav
      · obtain ⟨-, -, scores', hcall', hscores⟩ := hvalid e hval
        cases hcall.symm.trans hcall'
        exact ⟨hscores.mp hne, (hvalidDue.mp (List.ne_nil_of_mem hval)).2⟩
      · rw [(hsaveCall e hsav).1] at hkind
        cases hkind
    · rintro ⟨hrows, hdue⟩
      obtain ⟨e, hmem⟩ := List.exists_mem_of_ne_nil validations (hvalidDue.mpr ⟨hfn, hdue⟩)
      obtain ⟨hkind, hbefore, scores, hcall, hscores⟩ := hvalid e hmem
      exact ⟨e, List.mem_append_left _ hmem, hkind, by rw [hbefore, hawake], scores,
        hscores.mpr hrows, hcall⟩

/-- **One batch.** It is the last one exactly when its number reaches the total. -/
theorem fitBatch_done (hsave : 0 < config.saveFreq) {k : Nat} {batch : TrainBatch}
    {h h' : History FitCall (FitState W)} {isLastStep : Bool} (hdone : Done config env k h)
    (hrun : fitBatch config env batch h = .ok isLastStep h') :
    Done config env (k + 1) h' ∧
      (isLastStep = true ↔ config.totalTrainingSteps ≤ ((k + 1 : Nat) : Int)) := by
  obtain ⟨hlast, mid, mid', g, u, hentries, hg, hu, hsteps, hawake, hvalidate, saved, hsaved,
    rfl⟩ := fitBatch_returned hrun
  rw [hdone.steps] at hlast hsteps
  have hlastIff : isLastStep = true ↔ config.totalTrainingSteps ≤ ((k + 1 : Nat) : Int) := by
    rw [hlast, decide_eq_true_iff]
  obtain ⟨hstate, phases, hphases, hafter, hsaveIff, hvalidIff⟩ :=
    lastPhases_returned hsave hlastIff hsteps hawake hvalidate hsaved
  have hall : saved.entries = (h.entries ++ [g]) ++ u :: phases := by
    rw [hphases, hentries]
    simp
  have hsince : sinceUpdate saved.entries = phases := by
    rw [hall, sinceUpdate_append hu hafter]
  refine ⟨{ steps := ?_, updates := ?_, kept := fun _ => ?_ }, hlastIff⟩
  · show saved.state.globalSteps + 1 = k + 1 + 1
    rw [hstate, hsteps]
  · show calls .update saved.entries = k + 1
    have hrest : calls .update phases = 0 :=
      List.countP_eq_zero.mpr fun e hmem => by simpa using hafter e hmem
    have hsplit : saved.entries = h.entries ++ [g] ++ [u] ++ phases := by
      rw [hall]
      simp
    rw [hsplit, calls_append, hrest, calls_snoc, calls_snoc, hdone.updates, hg, hu]
    rfl
  · rw [← hsince, ← hstate] at hsaveIff hvalidIff
    constructor
    · rintro ⟨hsaves, hvalidates⟩
      exact ⟨hsaveIff.mp hsaves, fun hfn => (hvalidIff hfn).mp (hvalidates hfn)⟩
    · rintro ⟨hdue, hvalidDue⟩
      exact ⟨hsaveIff.mpr hdue, fun hfn => (hvalidIff hfn).mpr (hvalidDue hfn)⟩

/-! ## The run -/

/-- One pass over the dataloader stops behind a batch that reached the total, or
behind its last one. -/
theorem fitEpoch_done (hsave : 0 < config.saveFreq) {batches : List TrainBatch} :
    ∀ {k : Nat} {h h' : History FitCall (FitState W)} {done : Bool}, Done config env k h →
      fitEpoch config env batches h = .ok done h' →
      ∃ m ≤ batches.length, Done config env (k + m) h' ∧
        (done = true → 0 < m ∧ config.totalTrainingSteps ≤ ((k + m : Nat) : Int)) ∧
        (done = false → m = batches.length ∧
          (0 < m → ¬ config.totalTrainingSteps ≤ ((k + m : Nat) : Int))) := by
  induction batches with
  | nil =>
      intro k h h' done hdone hrun
      cases hrun
      exact ⟨0, Nat.le_refl 0, hdone, nofun, fun _ => ⟨rfl, nofun⟩⟩
  | cons batch batches ih =>
      intro k h h' done hdone hrun
      unfold fitEpoch at hrun
      obtain ⟨isLastStep, mid, hbatch, hrest⟩ := run_bind hrun
      obtain ⟨hnext, hlast⟩ := fitBatch_done hsave hdone hbatch
      split at hrest
      · next hstop =>
          cases hrest
          exact ⟨1, by simp, hnext, fun _ => ⟨Nat.one_pos, hlast.mp hstop⟩, nofun⟩
      · next hgo =>
          obtain ⟨m, hm, hend, htrue, hfalse⟩ := ih hnext hrest
          have hnumber : k + 1 + m = k + (m + 1) := by omega
          rw [hnumber] at hend htrue hfalse
          refine ⟨m + 1, by simpa using hm, hend, fun hd => ⟨Nat.succ_pos m, (htrue hd).2⟩,
            fun hd => ?_⟩
          obtain ⟨hall, hmore⟩ := hfalse hd
          refine ⟨by simpa using hall, fun _ => ?_⟩
          rcases Nat.eq_zero_or_pos m with rfl | hpos
          · exact fun hle => hgo (hlast.mpr hle)
          · exact hmore hpos

/-- The epochs stop behind a batch that reached the total, or when they are over. -/
theorem fitEpochs_done (hsave : 0 < config.saveFreq) {epochs : List (List TrainBatch)} :
    ∀ {k : Nat} {h h' : History FitCall (FitState W)} {u : Unit}, Done config env k h →
      (0 < k → ¬ config.totalTrainingSteps ≤ ((k : Nat) : Int)) →
      fitEpochs config env epochs h = .ok u h' →
      ∃ m ≤ (epochs.map List.length).sum, Done config env (k + m) h' ∧
        ((0 < k + m ∧ config.totalTrainingSteps ≤ ((k + m : Nat) : Int)) ∨
          (m = (epochs.map List.length).sum ∧
            (0 < k + m → ¬ config.totalTrainingSteps ≤ ((k + m : Nat) : Int)))) := by
  induction epochs with
  | nil =>
      intro k h h' u hdone hk hrun
      cases hrun
      exact ⟨0, Nat.le_refl 0, hdone, Or.inr ⟨rfl, hk⟩⟩
  | cons batches epochs ih =>
      intro k h h' u hdone hk hrun
      unfold fitEpochs at hrun
      obtain ⟨done, mid, hepoch, hrest⟩ := run_bind hrun
      obtain ⟨m, hm, hmid, htrue, hfalse⟩ := fitEpoch_done hsave hdone hepoch
      rw [List.map_cons, List.sum_cons]
      split at hrest
      · next hstop =>
          cases hrest
          obtain ⟨hpos, hreached⟩ := htrue hstop
          exact ⟨m, by omega, hmid, Or.inl ⟨by omega, hreached⟩⟩
      · next hgo =>
          obtain ⟨hall, hmore⟩ := hfalse (Bool.eq_false_iff.mpr hgo)
          have hbelow : 0 < k + m → ¬ config.totalTrainingSteps ≤ ((k + m : Nat) : Int) := by
            intro hpos
            rcases Nat.eq_zero_or_pos m with rfl | hm'
            · exact hk hpos
            · exact hmore hm'
          obtain ⟨m', hm', hend, hcases⟩ := ih hmid hbelow hrest
          rw [Nat.add_assoc] at hend hcases
          refine ⟨m + m', by omega, hend, ?_⟩
          rcases hcases with hreached | ⟨hlen, hlast⟩
          · exact Or.inl hreached
          · exact Or.inr ⟨by omega, hlast⟩

/-- What `fit` does before the first batch. -/
theorem fit_started {epochs : List (List TrainBatch)} {start : FitState W} {u : Unit}
    {h' : History FitCall (FitState W)} (hrun : fit config env epochs ⟨start, []⟩ = .ok u h') :
    ∃ h, Done config env 0 h ∧ fitEpochs config env epochs h = .ok u h' := by
  unfold fit at hrun
  obtain ⟨_, h₁, hzero, hrun⟩ := run_bind hrun
  obtain ⟨t₁, ht₁, rfl⟩ := quiet_returned hzero
  cases ht₁
  obtain ⟨_, h₂, hweights, hrun⟩ := run_bind hrun
  obtain ⟨t₂, ht₂, rfl⟩ := quiet_returned hweights
  cases ht₂
  obtain ⟨_, h₃, hcount, hrun⟩ := run_bind hrun
  obtain ⟨t₃, ht₃, rfl⟩ := quiet_returned hcount
  cases ht₃
  obtain ⟨_, h₄, hbefore, hrun⟩ := run_bind hrun
  refine ⟨h₄, ?_, hrun⟩
  unfold validateBefore runValidation at hbefore
  split at hbefore
  · next hdue =>
      obtain ⟨scores, h₅, hnoted, hbefore⟩ := run_bind hbefore
      obtain ⟨t, hvalidate, rfl⟩ := noted_returned hnoted
      cases hbefore
      obtain ⟨rfl, -⟩ := validate_returned hdue.1 hvalidate
      exact ⟨rfl, rfl, nofun⟩
  · cases hbefore
    exact ⟨rfl, rfl, nofun⟩

/-- **The final weights.** A run that returned after at least one batch has its
final weights checkpointed and validated exactly when the configured total is
within the batches there are, or the checkpoint and validation frequencies
happen to divide their number. In either case a validation needs rows to score,
and no reward model that they are left to. -/
theorem final_weights_kept {start : FitState W} {epochs : List (List TrainBatch)}
    {loaderLength : Nat} {configured : Option Int} (hsave : 0 < config.saveFreq)
    (hloader : createDataloader loaderLength epochs.length configured =
      .ok config.totalTrainingSteps)
    (hepochs : ∀ batches ∈ epochs, batches.length = loaderLength)
    {h : History FitCall (FitState W)} (hrun : fit config env epochs ⟨start, []⟩ = .ok ⟨⟩ h)
    (hbatch : 0 < calls .update h.entries) :
    FinalKept config env h ↔
      (config.hasValRewardFn = true → ScoresRows config) ∧
      (configured.getD (loaderLength * epochs.length) ≤ (loaderLength * epochs.length : Int) ∨
        ((loaderLength * epochs.length : Int) % config.saveFreq = 0 ∧
          (config.hasValRewardFn = true → 0 < config.testFreq ∧
            (loaderLength * epochs.length : Int) % config.testFreq = 0))) := by
  have htotal : config.totalTrainingSteps = configured.getD (loaderLength * epochs.length) := by
    unfold createDataloader at hloader
    rw [except_bind_eq_ok] at hloader
    obtain ⟨_, -, hloader⟩ := hloader
    exact (Except.ok.inj hloader).symm
  have hnumber : (epochs.map List.length).sum = loaderLength * epochs.length := by
    rw [List.map_congr_left hepochs, List.map_const', List.sum_replicate_nat,
      Nat.mul_comm]
  have hcast : (loaderLength * epochs.length : Int) =
      ((loaderLength * epochs.length : Nat) : Int) :=
    (Int.natCast_mul loaderLength epochs.length).symm
  obtain ⟨h₀, hstart, hepochsRun⟩ := fit_started hrun
  obtain ⟨m, hm, hdone, hend⟩ :=
    fitEpochs_done hsave hstart (fun h => absurd h (by omega)) hepochsRun
  rw [Nat.zero_add] at hdone hend
  rw [hdone.updates] at hbatch
  rw [hdone.kept hbatch, ← htotal, hcast]
  rw [hnumber] at hm hend
  unfold SaveDue ValidationDue
  rcases hend with ⟨-, hreached⟩ | ⟨rfl, hbelow⟩
  · have hwithin : config.totalTrainingSteps ≤ ((loaderLength * epochs.length : Nat) : Int) := by
      omega
    constructor
    · exact fun ⟨_, hvalidated⟩ => ⟨fun hfn => (hvalidated hfn).1, Or.inl hwithin⟩
    · exact fun ⟨hrows, _⟩ => ⟨Or.inl hreached, fun hfn => ⟨hrows hfn, Or.inl hreached⟩⟩
  · have hpast := hbelow hbatch
    constructor
    · rintro ⟨hsaved, hvalidated⟩
      refine ⟨fun hfn => (hvalidated hfn).1, Or.inr ⟨hsaved.resolve_left hpast, fun hfn => ?_⟩⟩
      exact (hvalidated hfn).2.resolve_left hpast
    · rintro ⟨hrows, hwhen⟩
      obtain ⟨hsaved, hvalidated⟩ := hwhen.resolve_left hpast
      exact ⟨Or.inr hsaved, fun hfn => ⟨hrows hfn, Or.inr (hvalidated hfn)⟩⟩

/-! ## One epoch of one batch -/

def oneBatch : List (List TrainBatch) := [[⟨["teacher"], ["student"]⟩]]

/-- Every update moves the student. -/
def countingEnv : FitEnv Nat :=
  { generate := fun _ _ _ => .ok ["response"]
    verify := fun _ _ => .ok ()
    step := fun _ _ student _ => .ok (some (student + 1))
    score := fun _ _ _ rows => .ok ⟨rows.map fun _ => 1, List.length_map _⟩
    report := fun _ _ => .ok ()
    save := fun _ _ => .ok () }

/-- A checkpoint every tenth step, and no validation. -/
def tenthStep (totalTrainingSteps : Int) : FitConfig :=
  { teacherUpdateFreq := 0
    testFreq := -1
    saveFreq := 10
    logFreq := 5
    totalTrainingSteps
    valBeforeTrain := false
    hasValRewardFn := false
    valDataloader := none
    rewardModelEnable := false
    valN := 1
    dpWorld := 1
    sftMaxLength := 8
    tokenizer :=
      { applyChatTemplate := fun _ => .ok [1]
        encode := fun _ => [2]
        eosTokenId := some 3
        padTokenId := some 0 } }

theorem tenthStep_returned {total : Int} {P : History FitCall (FitState Nat) → Bool}
    (h : (match fit (tenthStep total) countingEnv oneBatch ⟨⟨0, 0, 0, .asleep⟩, []⟩ with
      | .ok _ h => P h
      | .error _ _ => false) = true) :
    ∃ h, fit (tenthStep total) countingEnv oneBatch ⟨⟨0, 0, 0, .asleep⟩, []⟩ = .ok ⟨⟩ h ∧
      P h = true := by
  cases hrun : fit (tenthStep total) countingEnv oneBatch ⟨⟨0, 0, 0, .asleep⟩, []⟩ with
  | ok u after =>
      rw [hrun] at h
      exact ⟨after, rfl, h⟩
  | error e after =>
      rw [hrun] at h
      cases h

/-- With the total left to the dataloader the only batch is the last step. -/
theorem final_weights_kept_default :
    ∃ h, fit (tenthStep 1) countingEnv oneBatch ⟨⟨0, 0, 0, .asleep⟩, []⟩ = .ok ⟨⟩ h ∧
      FinalKept (tenthStep 1) countingEnv h := by
  obtain ⟨h, hrun, hbatch⟩ := @tenthStep_returned 1
    (fun h => decide (0 < calls .update h.entries)) (by decide +kernel)
  refine ⟨h, hrun, (@final_weights_kept Nat (tenthStep 1) countingEnv _ oneBatch 1 none
    (by decide) rfl (by decide) h hrun (of_decide_eq_true hbatch)).mpr ⟨nofun, Or.inl ?_⟩⟩
  decide

/-- A total of two steps where there is one batch: the run returns, and no
checkpoint is made. -/
theorem final_weights_kept_beyond :
    ¬ ∀ (config : FitConfig) (env : FitEnv Nat) (start : FitState Nat)
        (epochs : List (List TrainBatch)) (loaderLength : Nat) (configured : Option Int)
        (h : History FitCall (FitState Nat)),
      0 < config.saveFreq →
      createDataloader loaderLength epochs.length configured = .ok config.totalTrainingSteps →
      (∀ batches ∈ epochs, batches.length = loaderLength) →
      fit config env epochs ⟨start, []⟩ = .ok ⟨⟩ h → 0 < calls .update h.entries →
      FinalKept config env h := by
  intro hclaim
  obtain ⟨h, hrun, hfacts⟩ := @tenthStep_returned 2
    (fun h => decide (0 < calls .update h.entries) &&
      (sinceUpdate h.entries).all fun e => decide (e.kind ≠ .save)) (by decide +kernel)
  rw [Bool.and_eq_true] at hfacts
  obtain ⟨hbatch, hnone⟩ := hfacts
  obtain ⟨e, hmem, hkind, -⟩ := (hclaim (tenthStep 2) countingEnv _ oneBatch 1 (some 2) h
    (by decide) rfl (by decide) hrun (of_decide_eq_true hbatch)).saved
  exact of_decide_eq_true (List.all_eq_true.mp hnone e hmem) hkind

end Crisp.Proofs
