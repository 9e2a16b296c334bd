import Crisp.Lib.Grouping
import Crisp.Proofs.Eligible
import Crisp.Ref.Pilot
import Mathlib.Data.Finset.Card
import Mathlib.Data.List.Find

/-!
# What the pilot selects

A problem group is a canonical text, and what becomes of it is a matter of its first text
row alone. The loop over the hashes keeps the groups whose first row fits, until there are
enough; so what is selected is the front of the eligible groups in the order of their
hashes, and the two pools are two pieces of that front. Hashes tell groups apart as long as
no two texts have one hash, which the results assume.
-/

namespace Crisp.Proofs

open Crisp.Lib Crisp.Ref

section Spec

variable {σ : Type} (ops : TextOps σ) (tokenizer : ChatTokenizer) (limits : PilotLimits)

/-- A row and its index, if both texts are there. -/
def textRow (item : PilotRow × Nat) : Option PilotGroup :=
  match item.1.problem, item.1.solution with
  | .text problem, .text solution =>
      some ⟨problemId ops problem, item.2, problem, solution, item.1.answer⟩
  | _, _ => none

/-- The text rows in their order. -/
def textRows (rows : List PilotRow) : List PilotGroup := rows.zipIdx.filterMap (textRow ops)

/-- The first text row of a problem group, which is a canonical text. -/
def firstTextRow (rows : List PilotRow) (problem : String) : Option PilotGroup :=
  (textRows ops rows).find? fun row => canonicalProblem ops row.problem = problem

/-- Both texts are nonempty, neither prefix has PAD, and both leave room for the response. -/
def KeepsRow (row : PilotGroup) : Prop :=
  blank ops row.problem = false ∧ blank ops row.solution = false ∧
  hasPad tokenizer (row.prefixes tokenizer).studentIds = false ∧
  hasPad tokenizer (row.prefixes tokenizer).teacherIds = false ∧
  (row.prefixes tokenizer).studentIds.length + limits.responseLength ≤ limits.sequenceLength ∧
  (row.prefixes tokenizer).teacherIds.length + limits.responseLength ≤ limits.sequenceLength

instance : DecidablePred (KeepsRow ops tokenizer limits) := fun _ =>
  inferInstanceAs (Decidable (_ ∧ _))

/-- The problem groups whose first text row is kept. -/
def eligibleGroups (rows : List PilotRow) : Finset String :=
  ((textRows ops rows).map fun row => canonicalProblem ops row.problem).toFinset.filter
    fun problem => ∃ row ∈ firstTextRow ops rows problem, KeepsRow ops tokenizer limits row

/-- Their hashes, the smallest first. -/
def eligibleHashes (rows : List PilotRow) : List String :=
  sortSet ((eligibleGroups ops tokenizer limits rows).image ops.sha256)

/-- `[row["metadata"]["problem_id"] for row in pool]`. -/
def poolIds (pool : List PilotExample) : List String := pool.map fun kept => kept.metadata.problemId

/-- What a pilot that was returned is made of. -/
structure PilotLaws (rows : List PilotRow) (pilot : Pilot) : Prop where
  train_ids : poolIds pilot.train =
    (eligibleHashes ops tokenizer limits rows).take limits.trainCount
  evaluation_ids : poolIds pilot.evaluation =
    ((eligibleHashes ops tokenizer limits rows).drop limits.trainCount).take limits.evalCount
  train_length : pilot.train.length = limits.trainCount
  evaluation_length : pilot.evaluation.length = limits.evalCount
  distinct : ((pilot.train ++ pilot.evaluation).map fun kept =>
    canonicalProblem ops kept.problem).Nodup
  train_rows : ∀ kept ∈ pilot.train, ∃ row,
    firstTextRow ops rows (canonicalProblem ops kept.problem) = some row ∧
    KeepsRow ops tokenizer limits row ∧ kept = row.selected tokenizer ∧
    kept.metadata.solution = some row.solution
  evaluation_rows : ∀ kept ∈ pilot.evaluation, ∃ row,
    firstTextRow ops rows (canonicalProblem ops kept.problem) = some row ∧
    KeepsRow ops tokenizer limits row ∧ kept = (row.selected tokenizer).withoutSolution ∧
    kept.metadata.solution = none

/-- Text rows of one group carry the same problem and solution. -/
def GroupsAgree (rows : List PilotRow) : Prop :=
  ∀ row ∈ textRows ops rows, ∀ other ∈ textRows ops rows,
    canonicalProblem ops row.problem = canonicalProblem ops other.problem →
      row.problem = other.problem ∧ row.solution = other.solution

/-- The problem ids of both pools, or what was raised. -/
def selectedIds (run : Except PyError Pilot) : Except PyError (List String × List String) :=
  run.map fun pilot => (poolIds pilot.train, poolIds pilot.evaluation)

end Spec

variable {σ : Type} {ops : TextOps σ} {tokenizer : ChatTokenizer} {limits : PilotLimits}
  {rows : List PilotRow}

/-! ## The groups -/

theorem groupRows_eq (items : List (PilotRow × Nat)) :
    ∀ found : List PilotGroup × List (String × Nat),
      (items.foldl (groupRow ops) found).1 =
        (items.filterMap (textRow ops)).foldl (addFirst PilotGroup.key) found.1 := by
  induction items with
  | nil => exact fun _ => rfl
  | cons item items ih =>
      intro found
      have hgroup : (groupRow ops found item).1 =
          (textRow ops item).elim found.1 (addFirst PilotGroup.key found.1) := by
        obtain ⟨⟨problem, solution, answer⟩, index⟩ := item
        cases problem with
        | text problem =>
            cases solution with
            | text solution =>
                show Prod.fst (ite _ _ _) = addFirst _ _ _
                rw [addFirst]
                split
                · rfl
                · rfl
            | none => rfl
            | other str => rfl
        | none => rfl
        | other str => rfl
      rw [List.foldl_cons, ih, hgroup, List.filterMap_cons]
      cases textRow ops item with
      | none => rfl
      | some group => rfl

/-- The groups are the first text rows of the hashes. -/
theorem groups_eq (rows : List PilotRow) :
    (rows.zipIdx.foldl (groupRow ops) ([], [])).1 = firsts PilotGroup.key (textRows ops rows) :=
  groupRows_eq _ _

theorem key_of_mem_textRows {row : PilotGroup} (h : row ∈ textRows ops rows) :
    row.key = ops.sha256 (canonicalProblem ops row.problem) := by
  obtain ⟨item, -, hitem⟩ := List.mem_filterMap.mp h
  rw [textRow] at hitem
  split at hitem
  · cases hitem
    rfl
  · cases hitem

theorem firstTextRow_eq_some {problem : String} {row : PilotGroup}
    (h : firstTextRow ops rows problem = some row) :
    row ∈ textRows ops rows ∧ canonicalProblem ops row.problem = problem := by
  rw [firstTextRow] at h
  exact ⟨List.mem_of_find?_eq_some h, by simpa using List.find?_some h⟩

/-- Where no two texts have one hash, they are the first text rows of the problem groups. -/
theorem mem_groups (hsha : Function.Injective ops.sha256) {row : PilotGroup} :
    row ∈ firsts PilotGroup.key (textRows ops rows) ↔
      row ∈ textRows ops rows ∧
        firstTextRow ops rows (canonicalProblem ops row.problem) = some row := by
  have hfind : row ∈ textRows ops rows →
      ((textRows ops rows).find? fun other => other.key = row.key) =
        firstTextRow ops rows (canonicalProblem ops row.problem) := by
    intro hrow
    refine List.find?_congr fun other hother => ?_
    rw [key_of_mem_textRows hother, key_of_mem_textRows hrow]
    exact decide_eq_decide.mpr hsha.eq_iff
  rw [mem_firsts]
  constructor
  · intro h
    have hrow := List.mem_of_find?_eq_some h
    exact ⟨hrow, (hfind hrow).symm.trans h⟩
  · rintro ⟨hrow, h⟩
    exact (hfind hrow).trans h

/-! ## The loop over the hashes -/

section Loop

variable {group : PilotGroup} {groups : List PilotGroup} {selected : List PilotExample}
  {rejected : List (String × Nat)}

theorem selectGroups_of_keepsRow (h : KeepsRow ops tokenizer limits group) :
    selectGroups ops tokenizer limits (group :: groups) selected rejected =
      if (selected ++ [group.selected tokenizer]).length = limits.trainCount + limits.evalCount then
        (selected ++ [group.selected tokenizer], rejected)
      else selectGroups ops tokenizer limits groups (selected ++ [group.selected tokenizer])
        rejected := by
  obtain ⟨hproblem, hsolution, hstudent, hteacher, hfront, hback⟩ := h
  have hroom : ¬ max (group.lengths tokenizer).student (group.lengths tokenizer).teacher +
      limits.responseLength > limits.sequenceLength := by
    simp only [PilotGroup.lengths]
    omega
  rw [selectGroups, if_neg (by simp [hproblem, hsolution]), if_neg (by simp [hstudent, hteacher]),
    if_neg hroom]

/-- A row that is not kept is passed over, whatever the reason. -/
theorem selectGroups_of_not_keepsRow (h : ¬ KeepsRow ops tokenizer limits group) :
    ∃ rejected', selectGroups ops tokenizer limits (group :: groups) selected rejected =
      selectGroups ops tokenizer limits groups selected rejected' := by
  rw [selectGroups]
  split
  · exact ⟨_, rfl⟩
  · next hblank =>
      split
      · exact ⟨_, rfl⟩
      · next hpad =>
          split
          · exact ⟨_, rfl⟩
          · next hroom =>
              refine absurd ?_ h
              simp only [not_or, Bool.not_eq_true] at hblank hpad
              simp only [PilotGroup.lengths] at hroom
              exact ⟨hblank.1, hblank.2, hpad.1, hpad.2, by omega, by omega⟩

end Loop

/-- The loop keeps the rows that can be kept until it has enough. -/
theorem selectGroups_eq (groups : List PilotGroup) :
    ∀ {selected : List PilotExample} {rejected : List (String × Nat)},
      selected.length < limits.trainCount + limits.evalCount →
      (selectGroups ops tokenizer limits groups selected rejected).1 =
        (selected ++ (groups.filter (KeepsRow ops tokenizer limits ·)).map
          (PilotGroup.selected tokenizer)).take (limits.trainCount + limits.evalCount) := by
  induction groups with
  | nil =>
      intro selected rejected h
      rw [selectGroups, List.filter_nil, List.map_nil, List.append_nil, List.take_of_length_le h.le]
  | cons group groups ih =>
      intro selected rejected h
      by_cases hkeep : KeepsRow ops tokenizer limits group
      · have hlength : (selected ++ [group.selected tokenizer]).length = selected.length + 1 := by
          simp
        rw [selectGroups_of_keepsRow hkeep, List.filter_cons_of_pos (by simp [hkeep]),
          List.map_cons, List.append_cons _ _ (List.map _ _)]
        split
        · next hfull => rw [← hfull, List.take_left]
        · next hmore => exact ih (by omega)
      · obtain ⟨rejected', hpass⟩ :=
          @selectGroups_of_not_keepsRow _ _ _ _ group groups selected rejected hkeep
        rw [hpass, List.filter_cons_of_neg (by simp [hkeep]), ih h]

/-! ## The selection -/

/-- The eligible groups in the order of their hashes. -/
def keptRows (ops : TextOps σ) (tokenizer : ChatTokenizer) (limits : PilotLimits)
    (rows : List PilotRow) : List PilotGroup :=
  (sortKeys PilotGroup.key (firsts PilotGroup.key (textRows ops rows))).filter
    (KeepsRow ops tokenizer limits ·)

theorem mem_keptRows (hsha : Function.Injective ops.sha256) {row : PilotGroup} :
    row ∈ keptRows ops tokenizer limits rows ↔
      row ∈ textRows ops rows ∧
        firstTextRow ops rows (canonicalProblem ops row.problem) = some row ∧
        KeepsRow ops tokenizer limits row := by
  rw [keptRows, List.mem_filter, mem_sortKeys, mem_groups hsha, and_assoc, decide_eq_true_eq]

theorem mem_eligibleGroups {problem : String} :
    problem ∈ eligibleGroups ops tokenizer limits rows ↔
      ∃ row, firstTextRow ops rows problem = some row ∧ KeepsRow ops tokenizer limits row := by
  rw [eligibleGroups, Finset.mem_filter, List.mem_toFinset, List.mem_map]
  constructor
  · exact fun h => h.2
  · rintro ⟨row, hrow, hkeep⟩
    exact ⟨⟨row, firstTextRow_eq_some hrow⟩, row, hrow, hkeep⟩

theorem keptRows_problems (hsha : Function.Injective ops.sha256) :
    ((keptRows ops tokenizer limits rows).map fun row =>
      canonicalProblem ops row.problem).toFinset = eligibleGroups ops tokenizer limits rows := by
  ext problem
  rw [List.mem_toFinset, List.mem_map, mem_eligibleGroups]
  constructor
  · rintro ⟨row, hrow, rfl⟩
    exact ⟨row, ((mem_keptRows hsha).mp hrow).2⟩
  · rintro ⟨row, hrow, hkeep⟩
    obtain ⟨hmem, rfl⟩ := firstTextRow_eq_some hrow
    exact ⟨row, (mem_keptRows hsha).mpr ⟨hmem, hrow, hkeep⟩, rfl⟩

theorem keptRows_keys (hsha : Function.Injective ops.sha256) :
    (keptRows ops tokenizer limits rows).map PilotGroup.key =
      ((keptRows ops tokenizer limits rows).map fun row =>
        canonicalProblem ops row.problem).map ops.sha256 := by
  rw [List.map_map]
  exact List.map_congr_left fun row hrow => key_of_mem_textRows ((mem_keptRows hsha).mp hrow).1

theorem keptRows_nodup (ops : TextOps σ) (tokenizer : ChatTokenizer) (limits : PilotLimits)
    (rows : List PilotRow) : ((keptRows ops tokenizer limits rows).map PilotGroup.key).Nodup := by
  have hperm := (sortKeys_perm PilotGroup.key (firsts PilotGroup.key (textRows ops rows))).map
    PilotGroup.key
  exact (hperm.nodup_iff.mpr (firsts_nodup _ _)).sublist (List.filter_sublist.map _)

/-- The kept rows have the eligible hashes, in order. -/
theorem keptRows_hashes (hsha : Function.Injective ops.sha256) :
    (keptRows ops tokenizer limits rows).map PilotGroup.key =
      eligibleHashes ops tokenizer limits rows := by
  have hsorted : ((keptRows ops tokenizer limits rows).map PilotGroup.key).Pairwise (· ≤ ·) :=
    List.pairwise_map.mpr ((sortKeys_pairwise _ _).filter _)
  refine (sortSet_eq hsorted (keptRows_nodup ops tokenizer limits rows) fun hash => ?_).symm
  rw [keptRows_keys hsha, ← keptRows_problems hsha, List.mem_map, Finset.mem_image]
  simp only [List.mem_toFinset]

theorem keptRows_length (hsha : Function.Injective ops.sha256) :
    (keptRows ops tokenizer limits rows).length =
      (eligibleGroups ops tokenizer limits rows).card := by
  have hnodup := keptRows_nodup ops tokenizer limits rows
  rw [keptRows_keys hsha] at hnodup
  rw [← keptRows_problems hsha, List.toFinset_card_of_nodup hnodup.of_map, List.length_map]

/-- The run in terms of the kept rows. -/
theorem selectExamples_eq (hcount : 0 < limits.trainCount + limits.evalCount) :
    selectExamples ops tokenizer limits rows =
      if limits.trainCount + limits.evalCount ≤ (keptRows ops tokenizer limits rows).length then
        .ok
          { train := ((keptRows ops tokenizer limits rows).take limits.trainCount).map
              (PilotGroup.selected tokenizer)
            evaluation := ((((keptRows ops tokenizer limits rows).drop limits.trainCount).take
              limits.evalCount).map (PilotGroup.selected tokenizer)).map
                PilotExample.withoutSolution
            uniqueProblems := (firsts PilotGroup.key (textRows ops rows)).length
            rejections := (selectGroups ops tokenizer limits
              (sortKeys PilotGroup.key (firsts PilotGroup.key (textRows ops rows))) []
              (rows.zipIdx.foldl (groupRow ops) ([], [])).2).2 }
      else .error
        (valueError "Not enough unique eligible examples; do not silently shrink the pilot") := by
  have hselected : ∀ rejected, (selectGroups ops tokenizer limits
      (sortKeys PilotGroup.key (firsts PilotGroup.key (textRows ops rows))) [] rejected).1 =
      ((keptRows ops tokenizer limits rows).take (limits.trainCount + limits.evalCount)).map
        (PilotGroup.selected tokenizer) := by
    intro rejected
    rw [selectGroups_eq _ (by rw [List.length_nil]; exact hcount), List.nil_append,
      List.map_take, keptRows]
  rw [selectExamples, groups_eq, hselected]
  split
  · next henough =>
      rw [check_of (by rw [List.length_map, List.length_take]; omega), except_ok_bind,
        ← List.map_take, ← List.map_drop, List.take_take, List.drop_take,
        Nat.min_eq_left (by omega), Nat.add_sub_cancel_left]
  · next hfew =>
      rw [check, if_neg (by rw [List.length_map, List.length_take]; omega), except_error_bind]

section Selected

variable {pool : List PilotGroup}

theorem poolIds_selected (pool : List PilotGroup) :
    poolIds (pool.map (PilotGroup.selected tokenizer)) = pool.map PilotGroup.key := by
  rw [poolIds, List.map_map]
  rfl

/-- Taking the solution out changes nothing else. -/
theorem poolIds_withoutSolution (pool : List PilotExample) :
    poolIds (pool.map PilotExample.withoutSolution) = poolIds pool := by
  rw [poolIds, List.map_map]
  rfl

end Selected

theorem selectExamples_laws (hsha : Function.Injective ops.sha256)
    (hcount : 0 < limits.trainCount + limits.evalCount) {pilot : Pilot}
    (h : selectExamples ops tokenizer limits rows = .ok pilot) :
    PilotLaws ops tokenizer limits rows pilot := by
  rw [selectExamples_eq hcount] at h
  split at h
  · next henough =>
      cases h
      have hkeep : ∀ row ∈ keptRows ops tokenizer limits rows,
          firstTextRow ops rows (canonicalProblem ops row.problem) = some row ∧
            KeepsRow ops tokenizer limits row :=
        fun row hrow => ((mem_keptRows hsha).mp hrow).2
      constructor
      case train_ids =>
        rw [poolIds_selected, List.map_take, keptRows_hashes hsha]
      case evaluation_ids =>
        rw [poolIds_withoutSolution, poolIds_selected, List.map_take, List.map_drop,
          keptRows_hashes hsha]
      case train_length =>
        rw [List.length_map, List.length_take]
        omega
      case evaluation_length =>
        rw [List.length_map, List.length_map, List.length_take, List.length_drop]
        omega
      case distinct =>
        have hproblems : ((keptRows ops tokenizer limits rows).map fun row =>
            canonicalProblem ops row.problem).Nodup := by
          have hnodup := keptRows_nodup ops tokenizer limits rows
          rw [keptRows_keys hsha] at hnodup
          exact hnodup.of_map
        rw [List.map_append, List.map_map, List.map_map, List.map_map]
        show (((keptRows ops tokenizer limits rows).take limits.trainCount).map
            (fun row => canonicalProblem ops row.problem) ++
          (((keptRows ops tokenizer limits rows).drop limits.trainCount).take
            limits.evalCount).map fun row => canonicalProblem ops row.problem).Nodup
        rw [← List.map_append, ← List.take_add]
        exact hproblems.sublist ((List.take_sublist _ _).map _)
      case train_rows =>
        intro kept hkept
        obtain ⟨row, hrow, rfl⟩ := List.mem_map.mp hkept
        obtain ⟨hfirst, hkeep⟩ := hkeep row (List.mem_of_mem_take hrow)
        exact ⟨row, hfirst, hkeep, rfl, rfl⟩
      case evaluation_rows =>
        intro kept hkept
        obtain ⟨kept', hkept', rfl⟩ := List.mem_map.mp hkept
        obtain ⟨row, hrow, rfl⟩ := List.mem_map.mp hkept'
        obtain ⟨hfirst, hkeep⟩ := hkeep row (List.mem_of_mem_drop (List.mem_of_mem_take hrow))
        exact ⟨row, hfirst, hkeep, rfl, rfl⟩
  · cases h

/-! ## The order of the rows -/

/-- What a text row says, whatever its place. -/
def rowTexts (row : PilotRow) : Option (String × String) :=
  match row.problem, row.solution with
  | .text problem, .text solution => some (problem, solution)
  | _, _ => none

theorem textRows_texts (ops : TextOps σ) (rows : List PilotRow) :
    (textRows ops rows).map (fun row => (row.problem, row.solution)) = rows.filterMap rowTexts := by
  have htexts : ∀ item : PilotRow × Nat,
      (textRow ops item).map (fun row => (row.problem, row.solution)) = rowTexts item.1 := by
    rintro ⟨⟨problem, solution, answer⟩, index⟩
    cases problem with
    | text problem => cases solution <;> rfl
    | none => rfl
    | other str => rfl
  rw [textRows, List.map_filterMap, List.filterMap_congr fun item _ => htexts item]
  calc rows.zipIdx.filterMap (fun item => rowTexts item.1)
      = (rows.zipIdx.map Prod.fst).filterMap rowTexts := by rw [List.filterMap_map]; rfl
    _ = rows.filterMap rowTexts := by rw [List.zipIdx_map_fst]

theorem keepsRow_congr {row other : PilotGroup} (hproblem : row.problem = other.problem)
    (hsolution : row.solution = other.solution) :
    KeepsRow ops tokenizer limits row ↔ KeepsRow ops tokenizer limits other := by
  rw [KeepsRow, KeepsRow, PilotGroup.prefixes, PilotGroup.prefixes, hproblem, hsolution]

/-- Where the rows of a group agree, a group is eligible when any row of it is kept. -/
theorem mem_eligibleGroups_of_agree (hagree : GroupsAgree ops rows) {problem : String} :
    problem ∈ eligibleGroups ops tokenizer limits rows ↔
      ∃ row ∈ textRows ops rows, canonicalProblem ops row.problem = problem ∧
        KeepsRow ops tokenizer limits row := by
  rw [mem_eligibleGroups]
  constructor
  · rintro ⟨row, hrow, hkeep⟩
    obtain ⟨hmem, hproblem⟩ := firstTextRow_eq_some hrow
    exact ⟨row, hmem, hproblem, hkeep⟩
  · rintro ⟨row, hmem, rfl, hkeep⟩
    have hsome : (firstTextRow ops rows (canonicalProblem ops row.problem)).isSome :=
      List.find?_isSome.mpr ⟨row, hmem, decide_eq_true rfl⟩
    obtain ⟨first, hfirst⟩ := Option.isSome_iff_exists.mp hsome
    obtain ⟨hmem', hproblem⟩ := firstTextRow_eq_some hfirst
    obtain ⟨heq, heq'⟩ := hagree first hmem' row hmem hproblem
    exact ⟨first, hfirst, (keepsRow_congr heq heq').mpr hkeep⟩

theorem textRows_of_perm {rows' : List PilotRow} (hperm : rows'.Perm rows) {row : PilotGroup}
    (hrow : row ∈ textRows ops rows') :
    ∃ other ∈ textRows ops rows, other.problem = row.problem ∧ other.solution = row.solution := by
  have hmem : (row.problem, row.solution) ∈ rows'.filterMap rowTexts := by
    rw [← textRows_texts ops]
    exact List.mem_map_of_mem hrow
  rw [(hperm.filterMap rowTexts).mem_iff, ← textRows_texts ops] at hmem
  obtain ⟨other, hother, htexts⟩ := List.mem_map.mp hmem
  exact ⟨other, hother, congrArg Prod.fst htexts, congrArg Prod.snd htexts⟩

theorem GroupsAgree.of_perm (hagree : GroupsAgree ops rows) {rows' : List PilotRow}
    (hperm : rows'.Perm rows) : GroupsAgree ops rows' := by
  intro row hrow other hother hcanonical
  obtain ⟨row', hrow', hproblem, hsolution⟩ := textRows_of_perm hperm hrow
  obtain ⟨other', hother', hproblem', hsolution'⟩ := textRows_of_perm hperm hother
  rw [← hproblem, ← hproblem', ← hsolution, ← hsolution']
  exact hagree row' hrow' other' hother' (by rw [hproblem, hproblem', hcanonical])

theorem eligibleGroups_perm (hagree : GroupsAgree ops rows) {rows' : List PilotRow}
    (hperm : rows'.Perm rows) : eligibleGroups ops tokenizer limits rows' =
      eligibleGroups ops tokenizer limits rows := by
  have hsubset : ∀ {rows rows' : List PilotRow}, GroupsAgree ops rows → rows'.Perm rows →
      eligibleGroups ops tokenizer limits rows' ⊆ eligibleGroups ops tokenizer limits rows := by
    intro rows rows' hagree hperm problem hproblem
    rw [mem_eligibleGroups_of_agree (hagree.of_perm hperm)] at hproblem
    obtain ⟨row, hrow, rfl, hkeep⟩ := hproblem
    obtain ⟨other, hother, hproblem, hsolution⟩ := textRows_of_perm hperm hrow
    rw [mem_eligibleGroups_of_agree hagree]
    exact ⟨other, hother, by rw [hproblem], (keepsRow_congr hproblem hsolution).mpr hkeep⟩
  exact (hsubset hagree hperm).antisymm (hsubset (hagree.of_perm hperm) hperm.symm)

/-- The ids of a run are those of the eligible groups, and so is whether there are any. -/
theorem selectedIds_eq (hsha : Function.Injective ops.sha256)
    (hcount : 0 < limits.trainCount + limits.evalCount) :
    selectedIds (selectExamples ops tokenizer limits rows) =
      if limits.trainCount + limits.evalCount ≤
          (eligibleGroups ops tokenizer limits rows).card then
        .ok ((eligibleHashes ops tokenizer limits rows).take limits.trainCount,
          ((eligibleHashes ops tokenizer limits rows).drop limits.trainCount).take limits.evalCount)
      else .error
        (valueError "Not enough unique eligible examples; do not silently shrink the pilot") := by
  cases hrun : selectExamples ops tokenizer limits rows with
  | ok pilot =>
      have hlaws := selectExamples_laws hsha hcount hrun
      rw [selectExamples_eq hcount, keptRows_length hsha] at hrun
      split at hrun
      · next henough =>
          rw [if_pos henough, selectedIds, Except.map, hlaws.train_ids, hlaws.evaluation_ids]
      · cases hrun
  | error e =>
      rw [selectExamples_eq hcount, keptRows_length hsha] at hrun
      split at hrun
      · cases hrun
      · next hfew =>
          rw [if_neg hfew, ← hrun]
          rfl

/-- The pilot is the eligible groups of smallest hash, in two pools that share none, or
there are not enough of them. -/
theorem selectExamples_laws_or_raises (ops : TextOps σ) (tokenizer : ChatTokenizer)
    (limits : PilotLimits) (rows : List PilotRow) (hsha : Function.Injective ops.sha256)
    (hcount : 0 < limits.trainCount + limits.evalCount) :
    ((∃ e, selectExamples ops tokenizer limits rows = .error e) ↔
      (eligibleGroups ops tokenizer limits rows).card < limits.trainCount + limits.evalCount) ∧
    (∀ pilot, selectExamples ops tokenizer limits rows = .ok pilot →
      PilotLaws ops tokenizer limits rows pilot) ∧
    (GroupsAgree ops rows → ∀ rows', rows'.Perm rows →
      selectedIds (selectExamples ops tokenizer limits rows') =
        selectedIds (selectExamples ops tokenizer limits rows)) := by
  refine ⟨?_, fun pilot => selectExamples_laws hsha hcount, ?_⟩
  · rw [selectExamples_eq hcount, keptRows_length hsha]
    split
    · next henough =>
        refine iff_of_false ?_ (by omega)
        rintro ⟨e, he⟩
        cases he
    · next hfew => exact iff_of_true ⟨_, rfl⟩ (by omega)
  · intro hagree rows' hperm
    rw [selectedIds_eq hsha hcount, selectedIds_eq hsha hcount, eligibleHashes, eligibleHashes,
      eligibleGroups_perm hagree hperm]

def pilotRow (problem : String) : PilotRow := ⟨.text problem, .text "short", some (.text "4")⟩

/-- Three rows of two problems, one for either pool. -/
theorem selectExamples_laws_or_raises_pair :
    ∃ pilot, selectExamples plainOps oneToken ⟨1, 1, 2, 1⟩
        [pilotRow "1", pilotRow "2", pilotRow "1"] = .ok pilot ∧
      PilotLaws plainOps oneToken ⟨1, 1, 2, 1⟩
        [pilotRow "1", pilotRow "2", pilotRow "1"] pilot ∧
      selectedIds (selectExamples plainOps oneToken ⟨1, 1, 2, 1⟩
        [pilotRow "2", pilotRow "1", pilotRow "1"]) =
        .ok ([plainOps.sha256 "2"], [plainOps.sha256 "1"]) := by
  obtain ⟨-, hlaws, horder⟩ := selectExamples_laws_or_raises plainOps oneToken
    ⟨1, 1, 2, 1⟩ [pilotRow "1", pilotRow "2", pilotRow "1"] plainOps_injective (by decide)
  have hids : selectedIds (selectExamples plainOps oneToken ⟨1, 1, 2, 1⟩
      [pilotRow "1", pilotRow "2", pilotRow "1"]) =
        .ok ([plainOps.sha256 "2"], [plainOps.sha256 "1"]) := by decide +kernel
  have hagree : GroupsAgree plainOps [pilotRow "1", pilotRow "2", pilotRow "1"] := by
    unfold GroupsAgree
    decide +kernel
  have hswapped := horder hagree [pilotRow "2", pilotRow "1", pilotRow "1"] (.swap _ _ _)
  rw [hids] at hswapped
  cases hrun : selectExamples plainOps oneToken ⟨1, 1, 2, 1⟩
      [pilotRow "1", pilotRow "2", pilotRow "1"] with
  | error e =>
      rw [hrun, selectedIds, Except.map] at hids
      cases hids
  | ok pilot => exact ⟨pilot, rfl, hlaws pilot hrun, hswapped⟩

end Crisp.Proofs
