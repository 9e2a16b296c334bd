import Crisp.Proofs.EvaluationRecord
import Mathlib.Tactic.Positivity
import Mathlib.Tactic.FieldSimp
import Mathlib.Tactic.GCongr

/-!
# What the metrics of a record are related by

Every question has the same number of draws, so the share of draws that are correct
and the share of questions with a correct draw bound one another: a question is counted
by the second when one of its draws is by the first, and at most all of them are.
-/

namespace Crisp.Proofs

open Crisp.Lib Crisp.Ref

/-! ## One dataset -/

section Dataset

variable {subset : List (ResponseRow × EvalGrade)} {n : Nat}

/-- The questions of a set of rows. -/
def questionsOf (subset : List (ResponseRow × EvalGrade)) : List String :=
  firstOccurrences (subset.map fun item => item.1.id)

theorem id_mem_questionsOf : ∀ item ∈ subset, item.1.id ∈ questionsOf subset := by
  intro item hitem
  rw [questionsOf, mem_firstOccurrences]
  exact List.mem_map_of_mem hitem

/-- Every question has as many draws as every other. -/
theorem length_eq_questions
    (hdraws : ∀ item ∈ subset, subset.countP (fun other => other.1.id = item.1.id) = n) :
    subset.length = (questionsOf subset).length * n := by
  have hsum := countP_eq_sum (firstOccurrences_nodup (subset.map fun item => item.1.id))
    (fun item : ResponseRow × EvalGrade => item.1.id) (fun _ => true) id_mem_questionsOf
  rw [List.countP_true] at hsum
  rw [hsum, List.sum_eq_card_nsmul _ n, List.length_map, nsmul_eq_mul, Nat.cast_id]
  · rfl
  · intro count hcount
    obtain ⟨q, hq, rfl⟩ := List.mem_map.mp hcount
    rw [mem_firstOccurrences] at hq
    obtain ⟨item, hitem, rfl⟩ := List.mem_map.mp hq
    simpa using hdraws item hitem

/-- The questions that pass and the draws that are correct. -/
theorem passed_bounds
    (hdraws : ∀ item ∈ subset, subset.countP (fun other => other.1.id = item.1.id) = n) :
    let passed := (questionsOf subset).countP fun q =>
      subset.any fun item => item.2.correct && item.1.id == q
    let correct := subset.countP fun item => item.2.correct
    passed ≤ correct ∧ correct ≤ n * passed := by
  intro passed correct
  have hsum : correct = _ :=
    countP_eq_sum (firstOccurrences_nodup (subset.map fun item => item.1.id))
    (fun item : ResponseRow × EvalGrade => item.1.id) (fun item => item.2.correct)
      id_mem_questionsOf
  have hany : ∀ q, (subset.any fun item => item.2.correct && item.1.id == q) = true ↔
      0 < subset.countP fun item => item.2.correct && decide (item.1.id = q) := by
    intro q
    rw [List.countP_pos_iff, List.any_eq_true]
    simp [beq_eq_decide]
  rw [hsum]
  refine ⟨countP_le_sum fun q _ hq => (hany q).mp hq,
    sum_le_mul_countP (fun q hq => ?_) fun q _ hpos => (hany q).mpr hpos⟩
  rw [mem_firstOccurrences] at hq
  obtain ⟨item, hitem, rfl⟩ := List.mem_map.mp hq
  refine (List.countP_mono_left fun other _ h => ?_).trans_eq (hdraws item hitem)
  simp only [Bool.and_eq_true, decide_eq_true_eq] at h ⊢
  exact h.2

theorem fraction_nonneg {α : Type} (p : α → Bool) (subset : List α) : 0 ≤ fraction p subset := by
  rw [fraction]
  positivity

theorem fraction_le_one {α : Type} (p : α → Bool) (subset : List α) : fraction p subset ≤ 1 := by
  rw [fraction]
  refine div_le_one_of_le₀ ?_ (Nat.cast_nonneg _)
  exact_mod_cast List.countP_le_length

/-- The share of draws and the share of questions. -/
theorem passAt8_bounds (hn : 0 < n) (hsubset : subset ≠ [])
    (hdraws : ∀ item ∈ subset, subset.countP (fun other => other.1.id = item.1.id) = n) :
    fraction (fun item => item.2.correct) subset ≤ passAt8 subset ∧ passAt8 subset ≤ 1 ∧
      passAt8 subset ≤ n * fraction (fun item => item.2.correct) subset := by
  obtain ⟨hpassed, hcorrect⟩ := passed_bounds hdraws
  have hlength := length_eq_questions hdraws
  have hpos : 0 < (questionsOf subset).length := by
    have := List.length_pos_iff.mpr hsubset
    rw [hlength] at this
    exact Nat.pos_of_mul_pos_right this
  have hquestions : (0 : ℚ) < (questionsOf subset).length := by exact_mod_cast hpos
  have hn' : (0 : ℚ) < n := by exact_mod_cast hn
  have hpass : passAt8 subset = _ / ((questionsOf subset).length : ℚ) := rfl
  rw [hpass, fraction, hlength, Nat.cast_mul]
  refine ⟨?_, ?_, ?_⟩
  · rw [div_le_div_iff₀ (by positivity) hquestions, mul_comm ((questionsOf subset).length : ℚ),
      ← mul_assoc]
    gcongr
    rw [mul_comm]
    exact_mod_cast hcorrect
  · refine div_le_one_of_le₀ ?_ hquestions.le
    exact_mod_cast List.countP_le_length
  · rw [mul_comm ((questionsOf subset).length : ℚ), ← mul_div_assoc,
      mul_div_mul_left _ _ hn'.ne']
    gcongr
    exact_mod_cast hpassed

end Dataset

/-! ## Every dataset of a record -/

theorem map_row_foldl_promptTasks (args : SampleArgs) (items : List (EvalPrompt × List Int)) :
    (items.foldl (promptTasks args) []).map EvalTask.row =
      items.flatMap fun item => List.replicate args.responses item.1 := by
  induction items using List.reverseRecOn with
  | nil => rfl
  | append_singleton items item ih =>
      rw [List.foldl_append, List.foldl_cons, List.foldl_nil, promptTasks_eq, List.map_append, ih,
        List.flatMap_append, List.map_map]
      congr 1
      simp [Function.comp_def, List.map_const']

variable {env : EvalEnv} {args : EvaluateArgs} {plan : EvaluationPlan}
  {prompts : List EvalPrompt} {labels : List (String × String)} {prefixes : List (List Int)}
  {checkpointHash adapterHash : Option String} {rows : List ResponseRow}
  {graded : List (ResponseRow × EvalGrade)} {w : EvalWorld}

/-- A record holds its prompts one after another, each as often as it has draws. -/
theorem EvaluationEnd.keys
    (h : EvaluationEnd env args plan prompts labels prefixes checkpointHash adapterHash rows graded
      w) :
    graded.map (fun item => (item.1.id, item.1.dataset)) =
      prompts.flatMap fun prompt => List.replicate args.responses (prompt.id, prompt.dataset) := by
  have htasks := h.rows_of_tasks
  have hrows : rows.map (fun row => (row.id, row.dataset)) =
      ((evalTasks (sampleArgs args plan checkpointHash adapterHash) prompts prefixes).map
        EvalTask.row).map fun prompt => (prompt.id, prompt.dataset) := by
    refine List.ext_getElem (by simp [htasks.length_eq]) fun k hk hk' => ?_
    simp only [List.length_map] at hk hk'
    have hfields := (htasks.get hk' hk).fields
    simp only [List.getElem_map]
    exact Prod.ext hfields.1 hfields.2.1
  rw [← h.graded, List.map_map] at hrows
  refine hrows.trans ?_
  rw [evalTasks, map_row_foldl_promptTasks, List.map_flatMap]
  have hprompts : (prompts.zip prefixes).map Prod.fst = prompts :=
    List.map_fst_zip (evaluationPrefixes_length h.encoded).ge
  conv_rhs => rw [← hprompts, List.flatMap_map]
  simp [sampleArgs]

theorem countP_keys
    (h : EvaluationEnd env args plan prompts labels prefixes checkpointHash adapterHash rows graded
      w)
    (p : String × String → Bool) :
    graded.countP (fun item => p (item.1.id, item.1.dataset)) =
      args.responses * prompts.countP fun prompt => p (prompt.id, prompt.dataset) := by
  have hcount := congrArg (List.countP p) h.keys
  rw [List.countP_map, List.countP_flatMap] at hcount
  refine hcount.trans ?_
  clear hcount h
  induction prompts with
  | nil => rfl
  | cons prompt prompts ih =>
      rw [List.map_cons, List.sum_cons, ih, List.countP_cons, Nat.mul_add, Nat.add_comm]
      congr 1
      simp only [Function.comp_apply, List.countP_replicate]
      split <;> simp_all

theorem EvaluationEnd.ids_nodup
    (h : EvaluationEnd env args plan prompts labels prefixes checkpointHash adapterHash rows graded
      w) :
    (prompts.map EvalPrompt.id).Nodup := by
  have hinputs := h.inputs
  rw [checkEvaluationInputs, except_bind_eq_ok] at hinputs
  obtain ⟨_, -, hinputs⟩ := hinputs
  obtain ⟨_, -, hinputs⟩ := except_bind_eq_ok.mp hinputs
  obtain ⟨_, hunique, -⟩ := except_bind_eq_ok.mp hinputs
  exact (check_eq_ok.mp hunique).2

/-- A question that has rows in a dataset has all of them there. -/
theorem EvaluationEnd.draws
    (h : EvaluationEnd env args plan prompts labels prefixes checkpointHash adapterHash rows graded
      w)
    {dataset : String} (item : ResponseRow × EvalGrade)
    (hitem : item ∈ graded.filter fun item => item.1.dataset = dataset) :
    (graded.filter fun item => item.1.dataset = dataset).countP
      (fun other => other.1.id = item.1.id) = args.responses := by
  obtain ⟨hmem, hdataset⟩ := List.mem_filter.mp hitem
  rw [decide_eq_true_eq] at hdataset
  have hcount := countP_keys h fun key => decide (key.1 = item.1.id) && decide (key.2 = dataset)
  rw [List.countP_filter, hcount]
  have hone : prompts.countP (fun prompt =>
      decide (prompt.id = item.1.id) && decide (prompt.dataset = dataset)) = 1 := by
    refine Nat.le_antisymm ?_ ?_
    · have hle := List.nodup_iff_count_le_one.mp h.ids_nodup item.1.id
      rw [List.count, List.countP_map] at hle
      refine (List.countP_mono_left fun prompt _ hp => ?_).trans hle
      simp only [Bool.and_eq_true, decide_eq_true_eq] at hp
      simp [hp.1]
    · have hkey : (item.1.id, item.1.dataset) ∈
          graded.map fun item => (item.1.id, item.1.dataset) :=
        List.mem_map_of_mem (f := fun item : ResponseRow × EvalGrade =>
          (item.1.id, item.1.dataset)) hmem
      rw [h.keys] at hkey
      obtain ⟨prompt, hprompt, hreplicate⟩ := List.mem_flatMap.mp hkey
      obtain ⟨hid, hsame⟩ := Prod.mk.inj (List.eq_of_mem_replicate hreplicate)
      refine List.countP_pos_iff.mpr ⟨prompt, hprompt, ?_⟩
      simp [← hid, ← hsame, hdataset]
  rw [hone, Nat.mul_one]

/-- The number of completions that are there. -/
theorem EvaluationEnd.completions
    (h : EvaluationEnd env args plan prompts labels prefixes checkpointHash adapterHash rows graded
      w) :
    graded.length = args.responses * prompts.length := by
  have hall := countP_keys h fun _ => true
  rwa [List.countP_true, List.countP_true] at hall

/-- The datasets of the metrics are those of the questions. -/
theorem EvaluationEnd.mem_datasets
    (h : EvaluationEnd env args plan prompts labels prefixes checkpointHash adapterHash rows graded
      w)
    (hresponses : 0 < args.responses) (dataset : String) :
    dataset ∈ (evaluationMetrics plan.responseCap graded).map Prod.fst ↔
      ∃ prompt ∈ prompts, prompt.dataset = dataset := by
  have hcount := countP_keys h fun key => decide (key.2 = dataset)
  have hfst : (evaluationMetrics plan.responseCap graded).map Prod.fst =
      firstOccurrences (graded.map fun item => item.1.dataset) := by
    rw [evaluationMetrics, List.map_map]
    exact List.map_id' _
  have hgraded : (∃ item ∈ graded, item.1.dataset = dataset) ↔
      0 < graded.countP fun item => decide (item.1.dataset = dataset) := by
    simp [List.countP_pos_iff]
  have hprompts : (∃ prompt ∈ prompts, prompt.dataset = dataset) ↔
      0 < prompts.countP fun prompt => decide (prompt.dataset = dataset) := by
    simp [List.countP_pos_iff]
  rw [hfst, mem_firstOccurrences, List.mem_map, hgraded, hcount, hprompts]
  exact ⟨Nat.pos_of_mul_pos_left, Nat.mul_pos hresponses⟩

/-- The metrics of a saved record: it has every draw of every question, the datasets are those
of the questions, each once and with all its completions; shares lie between nought and one; and
the share of questions that a code task passes is at least the share of correct draws and at most
the number of draws times it. -/
theorem evaluate_metrics (env : EvalEnv) (args : EvaluateArgs) (plan : EvaluationPlan)
    (allPrompts : List EvalPrompt) (labels : List (String × String)) (w : EvalWorld)
    (hresponses : 0 < args.responses)
    (h : evaluate env args plan allPrompts labels {} = .ok ⟨⟩ w) :
    ∃ record, w.saved = some record ∧
      record.completions = args.responses * (limitPrompts args.limitQuestions allPrompts).length ∧
      (record.metrics.map Prod.fst).Nodup ∧
      (∀ dataset, dataset ∈ record.metrics.map Prod.fst ↔
        ∃ prompt ∈ limitPrompts args.limitQuestions allPrompts, prompt.dataset = dataset) ∧
      (record.metrics.map fun entry => entry.2.completions).sum = record.completions ∧
      ∀ dataset metrics, (dataset, metrics) ∈ record.metrics →
        metrics.completions = args.responses * (limitPrompts args.limitQuestions allPrompts).countP
          (fun prompt => prompt.dataset = dataset) ∧
        0 < metrics.completions ∧ 0 ≤ metrics.avgAt8 ∧ metrics.avgAt8 ≤ 1 ∧
        ∀ passed failed, metrics.code = some (passed, failed) →
          metrics.avgAt8 ≤ passed ∧ passed ≤ 1 ∧ passed ≤ args.responses * metrics.avgAt8 := by
  obtain ⟨prefixes, checkpointHash, adapterHash, rows, graded, hend⟩ := evaluated_of_returned h
  refine ⟨_, hend.saved, hend.completions, ?_, hend.mem_datasets hresponses, ?_,
    fun dataset metrics hmem => ?_⟩
  · show ((List.map _ (firstOccurrences _)).map Prod.fst).Nodup
    rw [List.map_map]
    exact (List.map_id' _).symm ▸ firstOccurrences_nodup _
  · have hsum := countP_eq_sum
      (firstOccurrences_nodup (graded.map fun item => item.1.dataset))
      (fun item : ResponseRow × EvalGrade => item.1.dataset) (fun _ => true)
      fun item hitem => mem_firstOccurrences.mpr (List.mem_map_of_mem hitem)
    rw [List.countP_true] at hsum
    refine Eq.trans ?_ hsum.symm
    show ((List.map _ (firstOccurrences _)).map _).sum = _
    rw [List.map_map]
    congr 1
    refine List.map_congr_left fun d _ => ?_
    show (graded.filter fun item => item.1.dataset = d).length = _
    rw [← List.countP_eq_length_filter]
    simp
  · obtain ⟨d, hd, heq⟩ := List.mem_map.mp hmem
    cases heq
    rw [mem_firstOccurrences] at hd
    obtain ⟨item, hitem, rfl⟩ := List.mem_map.mp hd
    have hsubset : graded.filter (fun other => other.1.dataset = item.1.dataset) ≠ [] :=
      List.ne_nil_of_mem (List.mem_filter.mpr ⟨hitem, by simp⟩)
    refine ⟨?_, List.length_pos_iff.mpr hsubset, fraction_nonneg _ _, fraction_le_one _ _,
      fun passed failed hcode => ?_⟩
    · show (graded.filter fun other => other.1.dataset = item.1.dataset).length = _
      rw [← List.countP_eq_length_filter]
      exact countP_keys hend fun key => decide (key.2 = item.1.dataset)
    · have hpass : passed =
          passAt8 (graded.filter fun other => other.1.dataset = item.1.dataset) := by
        simp only [datasetMetrics] at hcode
        split at hcode
        · cases hcode
          rfl
        · cases hcode
      rw [hpass]
      exact passAt8_bounds hresponses hsubset hend.draws

/-- Two questions of a code task, each drawn twice. -/
def twoDraws : EvalEnv :=
  { oneServer with
    generation := fun _ => [.enter 0, .enter 1, .answer 1 1 (.response 200 "b"),
      .answer 0 1 (.response 200 "a"), .enter 2, .enter 3, .answer 2 1 (.response 200 "c"),
      .answer 3 1 (.response 200 "d")] }

theorem evaluate_metrics_two :
    ∃ w record, evaluate twoDraws ⟨"base", true, false, ["http://a"], 2, 2, "seeds", none⟩
        { onePlan with samplesPerQuestion := 2 }
        [⟨"p", "humaneval", "?"⟩, ⟨"q", "mbpp", "?"⟩] [("p", "41"), ("q", "42")] {} = .ok ⟨⟩ w ∧
      w.saved = some record ∧ record.completions = 4 ∧
      "mbpp" ∈ record.metrics.map Prod.fst := by
  obtain ⟨record, hsaved, hcompletions, -, hdatasets, -⟩ := evaluate_metrics twoDraws
    ⟨"base", true, false, ["http://a"], 2, 2, "seeds", none⟩
    { onePlan with samplesPerQuestion := 2 }
    [⟨"p", "humaneval", "?"⟩, ⟨"q", "mbpp", "?"⟩] [("p", "41"), ("q", "42")] _ Nat.two_pos rfl
  exact ⟨_, record, rfl, hsaved, hcompletions,
    (hdatasets "mbpp").mpr ⟨⟨"q", "mbpp", "?"⟩, by simp [limitPrompts], rfl⟩⟩

end Crisp.Proofs
