import Crisp.Ref.Cyclic
import Crisp.Ref.Study

/-!
# The schedule functions agree

A training hook reads the schedule by the rollout about to run, an evaluation
worker by the updates completed, and the two count phases and milestones with
formulas of their own. Over a horizon of whole cycles they name the same
boundaries. The milestones are tenths of the horizon, rounded up: below ten
updates they are all updates, and from ten on no two of them coincide.
-/

namespace Crisp.Proofs

open Crisp.Lib Crisp.Ref

/-! ## Milestones -/

/-- A tenth of the horizon, rounded up. -/
def milestone (updates k : Nat) : Nat :=
  ((k + 1) * updates + 9) / 10

theorem milestone_last (updates : Nat) : milestone updates 9 = updates := by
  unfold milestone
  omega

theorem milestone_mono (updates : Nat) {k l : Nat} (h : k ≤ l) :
    milestone updates k ≤ milestone updates l := by
  unfold milestone
  have hmul : (k + 1) * updates ≤ (l + 1) * updates :=
    Nat.mul_le_mul_right updates (Nat.succ_le_succ h)
  omega

theorem milestone_range {updates k : Nat} (hupdates : 1 ≤ updates) (hk : k < 10) :
    1 ≤ milestone updates k ∧ milestone updates k ≤ updates := by
  constructor
  · calc 1 ≤ milestone updates 0 := by unfold milestone; omega
      _ ≤ milestone updates k := milestone_mono updates (Nat.zero_le k)
  · calc milestone updates k ≤ milestone updates 9 := milestone_mono updates (by omega)
      _ = updates := milestone_last updates

/-- From ten updates on a tenth is at least one, so no two milestones coincide. -/
theorem milestone_strictMono {updates : Nat} (hupdates : 10 ≤ updates) {k l : Nat} (h : k < l) :
    milestone updates k < milestone updates l := by
  have hnext : milestone updates k < milestone updates (k + 1) := by
    unfold milestone
    have hmul : (k + 1 + 1) * updates = (k + 1) * updates + updates := Nat.succ_mul _ _
    omega
  exact Nat.lt_of_lt_of_le hnext (milestone_mono updates h)

/-- Up to ten updates a tenth is at most one, so no update is passed over. -/
theorem exists_milestone {updates u : Nat} (hupdates : updates ≤ 10) (hu : 1 ≤ u)
    (hle : u ≤ updates) : ∃ k < 10, milestone updates k = u := by
  refine ⟨10 * u / updates - 1, ?_, ?_⟩
  · have hquotient : 10 * u / updates ≤ 10 :=
      Nat.div_le_of_le_mul (by rw [Nat.mul_comm]; exact Nat.mul_le_mul_right 10 hle)
    omega
  · have hpos : 1 ≤ 10 * u / updates := (Nat.le_div_iff_mul_le (by omega)).mpr (by omega)
    have hdiv := Nat.div_add_mod (10 * u) updates
    have hmod := Nat.mod_lt (10 * u) (show 0 < updates by omega)
    unfold milestone
    rw [Nat.sub_add_cancel hpos, Nat.mul_comm]
    omega

theorem evaluationSteps_milestones {updates : Nat} (h : 1 ≤ updates) :
    evaluationSteps updates = .ok (sortedSet ((List.range 10).map (milestone updates))) := by
  unfold evaluationSteps
  rw [check_of (show (0 : Int) < updates by omega), Int.toNat_natCast]
  rfl

theorem mem_milestones {updates u : Nat} :
    u ∈ (List.range 10).map (milestone updates) ↔ ∃ k < 10, milestone updates k = u := by
  simp only [List.mem_map, List.mem_range]

theorem sortedSet_pairwise (xs : List Nat) : (sortedSet xs).Pairwise (· < ·) := by
  have hsorted : (sortedSet xs).Pairwise (· ≤ ·) := List.pairwise_insertionSort _ _
  have hnodup : (sortedSet xs).Nodup :=
    ((List.perm_insertionSort _ _).nodup_iff).mpr xs.nodup_dedup
  exact (hsorted.and hnodup).imp fun h => Nat.lt_of_le_of_ne h.1 h.2

/-- Two increasing lists with the same members are one list. -/
theorem sortedSet_eq {xs ys : List Nat} (hys : ys.Pairwise (· < ·))
    (hmem : ∀ u, u ∈ xs ↔ u ∈ ys) : sortedSet xs = ys := by
  have hperm : (sortedSet xs).Perm ys :=
    (List.perm_ext_iff_of_nodup ((sortedSet_pairwise xs).imp Nat.ne_of_lt)
      (hys.imp Nat.ne_of_lt)).mpr fun u => mem_sortedSet.trans (hmem u)
  exact hperm.eq_of_pairwise (fun a b _ _ hab hba => absurd hab (Nat.lt_asymm hba))
    (sortedSet_pairwise xs) hys

theorem sortedSet_milestones_small {updates : Nat} (hupdates : updates ≤ 10) (hpos : 1 ≤ updates) :
    sortedSet ((List.range 10).map (milestone updates)) = (List.range updates).map (· + 1) := by
  refine sortedSet_eq ?_ fun u => ?_
  · exact List.pairwise_lt_range.map _ fun a b h => Nat.succ_lt_succ h
  rw [mem_milestones]
  simp only [List.mem_map, List.mem_range]
  constructor
  · rintro ⟨k, hk, rfl⟩
    obtain ⟨hlow, hhigh⟩ := milestone_range hpos hk
    exact ⟨milestone updates k - 1, by omega, by omega⟩
  · rintro ⟨u, hu, rfl⟩
    exact exists_milestone hupdates (Nat.succ_le_succ (Nat.zero_le u)) hu

theorem sortedSet_milestones_large {updates : Nat} (hupdates : 10 ≤ updates) :
    (sortedSet ((List.range 10).map (milestone updates))).length = 10 := by
  have hpairwise : ((List.range 10).map (milestone updates)).Pairwise (· < ·) :=
    List.pairwise_lt_range.map _ fun k l h => milestone_strictMono hupdates h
  rw [sortedSet_eq hpairwise fun _ => Iff.rfl]
  simp

/-! ## Suites -/

theorem cyclicEvaluationSuites_mem {completed planned pi opd : Nat} (hle : completed ≤ planned)
    (hcycle : pi + opd ≠ 0) :
    ∃ suites, cyclicEvaluationSuites completed planned pi opd = .ok suites ∧
      (.validation ∈ suites ↔
        completed % (pi + opd) = 0 ∨ completed % (pi + opd) = pi) ∧
      (.benchmark ∈ suites ↔ completed = 0 ∨ ∃ k < 10, milestone planned k = completed) := by
  unfold cyclicEvaluationSuites
  rw [check_of hle, check_of hcycle]
  refine ⟨_, rfl, ?_, ?_⟩
  · rw [List.mem_append]
    split <;> split <;> simp_all
  · rw [← mem_milestones, ← List.mem_cons]
    show _ ↔ completed ∈ 0 :: (List.range 10).map fun k => ((k + 1) * planned + 9) / 10
    rw [List.mem_append]
    split <;> split <;> simp_all

/-! ## Agreement -/

section Cyclic

variable {args : Args}

/-- The suites after `u` updates of a run with these arguments. -/
def suitesAt (args : Args) (u : Nat) : Except PyError (List SuiteName) :=
  cyclicEvaluationSuites u args.numRollout args.opsdCyclicPiUpdates args.opsdCyclicOpdUpdates

/-- A phase starts where one has ended. -/
theorem phaseStart_iff_validation (hcycle : 0 < args.cycleLength) {u : Nat}
    (hu : u < args.numRollout) :
    ∃ step suites, cyclicStep args u = .ok step ∧
      suitesAt args u = .ok suites ∧ (.validation ∈ suites ↔ step.phaseStart = true) := by
  obtain ⟨suites, hsuites, hvalidation, -⟩ :=
    cyclicEvaluationSuites_mem (Nat.le_of_lt hu) (Nat.ne_of_gt hcycle)
  refine ⟨stepAt args u, suites, cyclicStep_of_lt hu hcycle, hsuites, hvalidation.trans ?_⟩
  simp only [stepAt, decide_eq_true_eq]
  rfl

theorem optimizerReset_iff_first (hpi : 1 ≤ args.opsdCyclicPiUpdates)
    (hopd : 1 ≤ args.opsdCyclicOpdUpdates)
    (hreset : args.opsdCyclicOptimizerPolicy = .resetEachPhase) {u : Nat}
    (hu : u < args.numRollout) :
    ∃ step updates, cyclicStep args u = .ok step ∧
      cyclicOptimizerUpdates args (u + 1) = .ok updates ∧
      (step.optimizerReset = true ↔ updates = 1) := by
  have hcycle : 0 < args.cycleLength := Nat.add_pos_left hpi _
  refine ⟨stepAt args u, updatesSinceReset args (u + 1), cyclicStep_of_lt hu hcycle,
    cyclicOptimizerUpdates_eq hpi hopd (u + 1), ?_⟩
  rw [stepAt_optimizerReset, updatesSinceReset_reset hreset hpi hopd]
  split <;> simp only [hreset, and_true] <;> omega

/-- A cycle ends where the next rollout has a new source. -/
theorem cycleEnd_iff_source (hcycle : 0 < args.cycleLength)
    (hpolicy : args.opsdCyclicTeacherPolicy = some .cycleRefresh) {u : Nat}
    (hu : u + 1 < args.numRollout) :
    ∃ step next, cyclicStep args u = .ok step ∧ cyclicStep args (u + 1 : Nat) = .ok next ∧
      (step.cycleEnd = true ↔
        step.teacherSourceUpdate ≠ u + 1 ∧ next.teacherSourceUpdate = u + 1) := by
  refine ⟨stepAt args u, stepAt args (u + 1), cyclicStep_of_lt (Nat.lt_of_succ_lt hu) hcycle,
    cyclicStep_of_lt hu hcycle, ?_⟩
  have hle : (stepAt args u).teacherSourceUpdate ≤ u := stepAt_teacherSource_le u
  have hnext := stepAt_teacherSource_succ hcycle hpolicy u
  constructor
  · intro hend
    rw [if_pos hend] at hnext
    exact ⟨by omega, hnext⟩
  · rintro ⟨-, hsource⟩
    by_contra hend
    rw [if_neg hend] at hnext
    omega

end Cyclic

/-- Over a horizon of whole cycles the step, the optimizer counter, the
evaluation suites and the milestones name the same boundaries, and the
milestones of any horizon increase to it. -/
theorem schedules_agree {args : Args} (hpi : 1 ≤ args.opsdCyclicPiUpdates)
    (hopd : 1 ≤ args.opsdCyclicOpdUpdates) (hpositive : 0 < args.numRollout)
    (hcycles : args.opsdCyclicPiUpdates + args.opsdCyclicOpdUpdates ∣ args.numRollout) :
    (∀ u : Nat, u < args.numRollout → ∃ step suites, cyclicStep args u = .ok step ∧
      suitesAt args u = .ok suites ∧ (.validation ∈ suites ↔ step.phaseStart = true)) ∧
    (∃ suites, suitesAt args args.numRollout = .ok suites ∧ .validation ∈ suites) ∧
    (∃ steps, evaluationSteps args.numRollout = .ok steps ∧
      ∀ u, 1 ≤ u → u ≤ args.numRollout →
        ∃ suites, suitesAt args u = .ok suites ∧ (.benchmark ∈ suites ↔ u ∈ steps)) ∧
    (∃ suites, suitesAt args 0 = .ok suites ∧ .benchmark ∈ suites) ∧
    (args.opsdCyclicOptimizerPolicy = .resetEachPhase → ∀ u : Nat, u < args.numRollout →
      ∃ step updates, cyclicStep args u = .ok step ∧
        cyclicOptimizerUpdates args (u + 1) = .ok updates ∧
        (step.optimizerReset = true ↔ updates = 1)) ∧
    (args.opsdCyclicTeacherPolicy = some .cycleRefresh → ∀ u : Nat, u + 1 < args.numRollout →
      ∃ step next, cyclicStep args u = .ok step ∧ cyclicStep args (u + 1 : Nat) = .ok next ∧
        (step.cycleEnd = true ↔
          step.teacherSourceUpdate ≠ u + 1 ∧ next.teacherSourceUpdate = u + 1)) ∧
    (∀ updates : Nat, 1 ≤ updates → ∃ steps, evaluationSteps updates = .ok steps ∧
      steps.Pairwise (· < ·) ∧ (∀ u ∈ steps, 1 ≤ u ∧ u ≤ updates) ∧ updates ∈ steps ∧
      (updates ≤ 10 → steps = (List.range updates).map (· + 1)) ∧
      (10 ≤ updates → steps.length = 10)) := by
  have hcycle : 0 < args.cycleLength := Nat.add_pos_left hpi _
  have hne := Nat.ne_of_gt hcycle
  refine ⟨fun u hu => phaseStart_iff_validation hcycle hu, ?_, ?_, ?_,
    fun hreset u hu => optimizerReset_iff_first hpi hopd hreset hu,
    fun hpolicy u hu => cycleEnd_iff_source hcycle hpolicy hu, ?_⟩
  · obtain ⟨suites, hsuites, hvalidation, -⟩ :=
      cyclicEvaluationSuites_mem (Nat.le_refl args.numRollout) hne
    exact ⟨suites, hsuites, hvalidation.mpr (Or.inl (Nat.mod_eq_zero_of_dvd hcycles))⟩
  · refine ⟨_, evaluationSteps_milestones hpositive, fun u hu hle => ?_⟩
    obtain ⟨suites, hsuites, -, hbenchmark⟩ := cyclicEvaluationSuites_mem hle hne
    refine ⟨suites, hsuites, hbenchmark.trans ?_⟩
    rw [mem_sortedSet, mem_milestones, or_iff_right (by omega)]
  · obtain ⟨suites, hsuites, -, hbenchmark⟩ :=
      cyclicEvaluationSuites_mem (Nat.zero_le args.numRollout) hne
    exact ⟨suites, hsuites, hbenchmark.mpr (Or.inl rfl)⟩
  · intro updates hupdates
    refine ⟨_, evaluationSteps_milestones hupdates, sortedSet_pairwise _, fun u hu => ?_, ?_,
      fun hsmall => sortedSet_milestones_small hsmall hupdates, sortedSet_milestones_large⟩
    · rw [mem_sortedSet, mem_milestones] at hu
      obtain ⟨k, hk, rfl⟩ := hu
      exact milestone_range hupdates hk
    · rw [mem_sortedSet, mem_milestones]
      exact ⟨9, by omega, milestone_last updates⟩

/-- Eight cycles of seven worked updates and four without. -/
def eightCycles : Args :=
  { numRollout := 88
    opsdCyclicTeacherPolicy := some .cycleRefresh
    opsdCyclicOptimizerPolicy := .resetEachPhase
    opsdCyclicPiUpdates := 7
    opsdCyclicOpdUpdates := 4
    rolloutBatchSize := 8
    nSamplesPerPrompt := 1
    globalBatchSize := 8
    seqLength := 16
    vocabSize := 8
    lr := 1 / 10
    lrDecayStyle := .constant }

theorem schedules_agree_eightCycles :
    (∃ suites, cyclicEvaluationSuites 88 88 7 4 = .ok suites ∧ .validation ∈ suites) ∧
    ∃ step updates, cyclicStep eightCycles (7 : Nat) = .ok step ∧
      cyclicOptimizerUpdates eightCycles 8 = .ok updates ∧
      (step.optimizerReset = true ↔ updates = 1) := by
  obtain ⟨-, hfinal, -, -, hreset, -⟩ :=
    @schedules_agree eightCycles (by decide) (by decide) (by decide) (by decide)
  exact ⟨hfinal, hreset rfl 7 (by decide)⟩

end Crisp.Proofs
