import Crisp.Proofs.TextIndex
import Crisp.Ref.Eligible

/-!
# Greedy deduplication leaves no leak

The scan is taken apart into what it makes of every row and what it records of that.
Only rows that match nothing indexed before them get into the index, whether or not
they are selected in the end; so the indexed rows match neither a benchmark nor one
another, and the selected rows are among them. A row that cannot be looked up leaves no
trace in the index, and what is left of the scan goes by the texts in the order of
their digests.
-/

namespace Crisp.Proofs

open Crisp.Lib Crisp.Ref

section Fates

variable {σ : Type}

/-- The index after a row. -/
def indexAfter (index : TextIndex σ) : Verdict σ → TextIndex σ
  | .indexed _ index' _ => index'
  | _ => index

/-- Why a row was rejected, if it was. -/
def reasonOf : Verdict σ → Option Reason
  | .rejected reason => some reason
  | .duplicate reason _ => some reason
  | .indexed _ _ (.error reason) => some reason
  | .indexed _ _ (.ok _) => none

/-- The group a row was assigned. -/
def groupOf : Verdict σ → Option String
  | .rejected _ => none
  | .duplicate _ group => some group
  | .indexed group _ _ => some group

/-- The row that is selected. -/
def selectedOf (sourceIndex : Nat) : Verdict σ → Option SelectedRow
  | .indexed group _ (.ok row) =>
      some
        { problem := row.problem
          solution := row.solution
          answer := row.answer
          problemId := group
          sourceRow := sourceIndex
          workedPrefixLength := row.workedPrefixLength }
  | _ => none

/-- The text of a row's problem. -/
def problemText (row : SourceRow) : Option String :=
  match getField row.problem with
  | .text problem => some problem
  | _ => none

/-- What a row adds to the index, as `(key, problem)`. -/
def added (row : SourceRow) : Verdict σ → List (String × String)
  | .indexed group _ _ => (problemText row).toList.map fun problem => (group, problem)
  | _ => []

variable (ops : TextOps σ) (query : List (String × σ) → σ → List String)
  (tokenizer : ChatTokenizer) (normalize : Option String → Option String)

/-- What the scan makes of some rows. -/
def verdicts (index : TextIndex σ) : List SourceRow → Except PyError (List (Verdict σ))
  | [] => .ok []
  | row :: rows => do
      let verdict ← judge ops query tokenizer normalize index row
      let rest ← verdicts (indexAfter index verdict) rows
      .ok (verdict :: rest)

/-- What it records. -/
def recordAll (scan : Scan σ) (fates : List ((SourceRow × Nat) × Verdict σ)) : Scan σ :=
  fates.foldl (fun scan fate => scan.record fate.1.2 fate.2) scan

end Fates

variable {σ : Type} {ops : TextOps σ} {query : List (String × σ) → σ → List String}
  {tokenizer : ChatTokenizer} {normalize : Option String → Option String}
  {candidate : σ → σ → Prop} {entries : List (String × String)} {index : TextIndex σ}

/-! ## The scan -/

theorem record_index (scan : Scan σ) (sourceIndex : Nat) (verdict : Verdict σ) :
    (scan.record sourceIndex verdict).index = indexAfter scan.index verdict := by
  rcases verdict with _ | _ | ⟨_, _, _ | _⟩ <;> rfl

/-- The scan is its verdicts, recorded. -/
theorem scanRows_eq (items : List (SourceRow × Nat)) (scan : Scan σ) :
    items.foldlM (scanRow ops query tokenizer normalize) scan =
      (verdicts ops query tokenizer normalize scan.index (items.map Prod.fst)).map
        fun rest => recordAll scan (items.zip rest) := by
  induction items generalizing scan with
  | nil => rfl
  | cons item items ih =>
      rw [List.foldlM_cons, scanRow, List.map_cons, verdicts]
      cases hjudge : judge ops query tokenizer normalize scan.index item.1 with
      | error e => rfl
      | ok verdict =>
          simp only [except_ok_bind]
          rw [ih, record_index]
          cases verdicts ops query tokenizer normalize (indexAfter scan.index verdict)
              (items.map Prod.fst) with
          | error e => rfl
          | ok rest => rfl

theorem verdicts_length {rows : List SourceRow} :
    ∀ {index : TextIndex σ} {rest : List (Verdict σ)},
      verdicts ops query tokenizer normalize index rows = .ok rest → rest.length = rows.length := by
  induction rows with
  | nil =>
      intro index rest h
      cases h
      rfl
  | cons row rows ih =>
      intro index rest h
      simp only [verdicts, except_bind_eq_ok, Except.ok.injEq] at h
      obtain ⟨verdict, -, rest, hrest, rfl⟩ := h
      rw [List.length_cons, List.length_cons, ih hrest]

section Record

variable (fates : List ((SourceRow × Nat) × Verdict σ)) (scan : Scan σ)

theorem recordAll_selected : (recordAll scan fates).selected =
    scan.selected ++ fates.filterMap fun fate => selectedOf fate.1.2 fate.2 := by
  induction fates generalizing scan with
  | nil => simp [recordAll]
  | cons fate fates ih =>
      obtain ⟨item, verdict⟩ := fate
      have hstep : (scan.record item.2 verdict).selected =
          scan.selected ++ (selectedOf item.2 verdict).toList := by
        rcases verdict with _ | _ | ⟨_, _, _ | _⟩ <;>
          simp [Scan.record, Scan.reject, Scan.assign, selectedOf]
      show (recordAll (scan.record item.2 verdict) fates).selected = _
      rw [ih, hstep, List.append_assoc]
      congr 1
      cases h : selectedOf item.2 verdict <;> simp [h]

theorem recordAll_groups : (recordAll scan fates).groups =
    scan.groups ++ fates.filterMap fun fate =>
      (groupOf fate.2).map fun group => (toString fate.1.2, group) := by
  induction fates generalizing scan with
  | nil => simp [recordAll]
  | cons fate fates ih =>
      obtain ⟨item, verdict⟩ := fate
      have hstep : (scan.record item.2 verdict).groups = scan.groups ++
          ((groupOf verdict).map fun group => (toString item.2, group)).toList := by
        rcases verdict with _ | _ | ⟨_, _, _ | _⟩ <;>
          simp [Scan.record, Scan.reject, Scan.assign, groupOf]
      show (recordAll (scan.record item.2 verdict) fates).groups = _
      rw [ih, hstep, List.append_assoc]
      congr 1
      cases h : groupOf verdict <;> simp [h]

theorem recordAll_rejected (reason : Reason) : (recordAll scan fates).rejected reason =
    scan.rejected reason + fates.countP fun fate => reasonOf fate.2 = some reason := by
  induction fates generalizing scan with
  | nil => simp [recordAll]
  | cons fate fates ih =>
      obtain ⟨item, verdict⟩ := fate
      have hstep : (scan.record item.2 verdict).rejected reason =
          scan.rejected reason + if reasonOf verdict = some reason then 1 else 0 := by
        have hupdate : ∀ other : Reason,
            Function.update scan.rejected other (scan.rejected other + 1) reason =
              scan.rejected reason + if other = reason then 1 else 0 := by
          intro other
          by_cases h : other = reason
          · rw [h, Function.update_self, if_pos rfl]
          · rw [Function.update_of_ne (Ne.symm h), if_neg h, Nat.add_zero]
        rcases verdict with _ | _ | ⟨_, _, _ | _⟩ <;>
          simp [Scan.record, Scan.reject, Scan.assign, reasonOf, hupdate]
      show (recordAll (scan.record item.2 verdict) fates).rejected reason = _
      rw [ih, hstep, List.countP_cons]
      simp only [decide_eq_true_eq]
      omega

end Record

/-! ## One row -/

/-- The gates reject for reasons of their own, and pass the problem on. -/
theorem passGates_cases {problem solution answer : String} {outcome : Except Reason PassedRow}
    (h : passGates tokenizer normalize problem solution answer = .ok outcome) :
    (∀ reason, outcome = .error reason →
        reason ≠ .benchmarkOverlap ∧ reason ≠ .duplicateGroup) ∧
      ∀ passed, outcome = .ok passed → passed.problem = problem := by
  rw [passGates] at h
  generalize (if contains answer "\\boxed" then extractBoxedAnswer answer else some answer) =
    gold at h
  split at h
  · cases h
    simp
  · simp only [except_bind_eq_ok] at h
    obtain ⟨prefixes, -, answerPrefix, -, h⟩ := h
    split at h
    · cases h
      simp
    · split at h
      · cases h
        simp
      · cases h
        simp

/-- What a verdict says, where `entries` are indexed. -/
inductive Judged (ops : TextOps σ) (candidate : σ → σ → Prop) (entries : List (String × String))
    (row : SourceRow) : Verdict σ → Prop where
  | rejected {reason : Reason} (hreason : reason ≠ .benchmarkOverlap ∧ reason ≠ .duplicateGroup) :
      Judged ops candidate entries row (.rejected reason)
  | duplicate {reason : Reason} {group problem other : String}
      (hproblem : problemText row = some problem) (hother : (group, other) ∈ entries)
      (hlinked : Linked ops candidate problem other) :
      Judged ops candidate entries row (.duplicate reason group)
  | indexed {problem : String} {index : TextIndex σ} {outcome : Except Reason PassedRow}
      (hproblem : problemText row = some problem)
      (hfree : ∀ item ∈ entries, ¬ Linked ops candidate problem item.2)
      (hindex : Indexed ops (entries ++ [(digest ops (canonical ops problem), problem)]) index)
      (hreason : ∀ reason, outcome = .error reason →
        reason ≠ .benchmarkOverlap ∧ reason ≠ .duplicateGroup)
      (hrow : ∀ passed, outcome = .ok passed → passed.problem = problem) :
      Judged ops candidate entries row
        (.indexed (digest ops (canonical ops problem)) index outcome)

theorem judge_spec (hquery : Answers candidate query) (h : Indexed ops entries index)
    {row : SourceRow} {verdict : Verdict σ}
    (hjudge : judge ops query tokenizer normalize index row = .ok verdict) :
    Judged ops candidate entries row verdict := by
  rw [judge] at hjudge
  split at hjudge
  · next problem solution hproblem hsolution =>
      have htext : problemText row = some problem := by rw [problemText, hproblem]
      split at hjudge
      · cases hjudge
        exact .rejected (by decide)
      · split at hjudge
        · cases hjudge
          exact .rejected (by decide)
        · obtain ⟨found, hfound, hreal, hcover⟩ := matchesOf_eq hquery h problem
          rw [hfound, except_ok_bind] at hjudge
          cases hmin : found.min? with
          | some group =>
              rw [hmin] at hjudge
              cases hjudge
              obtain ⟨other, hother, hlinked⟩ := hreal group (List.min?_mem hmin)
              exact .duplicate htext hother hlinked
          | none =>
              rw [hmin] at hjudge
              simp only [except_bind_eq_ok, Except.ok.injEq] at hjudge
              obtain ⟨index', hinsert, outcome, houtcome, rfl⟩ := hjudge
              refine .indexed htext (fun item hitem hlinked => ?_) (h.insert hinsert).2
                (passGates_cases houtcome).1 (passGates_cases houtcome).2
              obtain ⟨key, hkey, -⟩ := hcover item hitem hlinked
              rw [List.min?_eq_none_iff.mp hmin] at hkey
              cases hkey
  · cases hjudge
    exact .rejected (by decide)

/-! ## All the rows -/

/-- The verdicts on some rows, each where the entries of the ones before are indexed. -/
def AllJudged (ops : TextOps σ) (candidate : σ → σ → Prop) :
    List (String × String) → List (SourceRow × Verdict σ) → Prop
  | _, [] => True
  | entries, (row, verdict) :: rest =>
      Judged ops candidate entries row verdict ∧
        AllJudged ops candidate (entries ++ added row verdict) rest

theorem mem_added {row : SourceRow} {verdict : Verdict σ} {key problem : String}
    (h : (key, problem) ∈ added row verdict) :
    problemText row = some problem ∧ ∃ index outcome, verdict = .indexed key index outcome := by
  rcases verdict with _ | _ | ⟨group, index, outcome⟩
  · cases h
  · cases h
  · obtain ⟨text, htext, heq⟩ := List.mem_map.mp h
    obtain ⟨rfl, rfl⟩ := Prod.mk.inj heq
    exact ⟨Option.mem_toList.mp htext, index, outcome, rfl⟩

/-- What some rows add to the index. -/
def addedBy (judged : List (SourceRow × Verdict σ)) : List (String × String) :=
  judged.flatMap fun item => added item.1 item.2

theorem Judged.indexed_after {row : SourceRow} {verdict : Verdict σ}
    (hjudged : Judged ops candidate entries row verdict) (h : Indexed ops entries index) :
    Indexed ops (entries ++ added row verdict) (indexAfter index verdict) := by
  cases hjudged with
  | rejected =>
      show Indexed ops (entries ++ []) index
      rwa [List.append_nil]
  | duplicate =>
      show Indexed ops (entries ++ []) index
      rwa [List.append_nil]
  | indexed hproblem _ hindex =>
      rw [added, hproblem]
      exact hindex

theorem verdicts_judged (hquery : Answers candidate query) {rows : List SourceRow} :
    ∀ {entries : List (String × String)} {index : TextIndex σ} {rest : List (Verdict σ)},
      Indexed ops entries index →
      verdicts ops query tokenizer normalize index rows = .ok rest →
        AllJudged ops candidate entries (rows.zip rest) := by
  induction rows with
  | nil => exact fun _ _ => trivial
  | cons row rows ih =>
      intro entries index rest hindex h
      simp only [verdicts, except_bind_eq_ok, Except.ok.injEq] at h
      obtain ⟨verdict, hjudge, rest, hrest, rfl⟩ := h
      have hjudged := judge_spec hquery hindex hjudge
      exact ⟨hjudged, ih (hjudged.indexed_after hindex) hrest⟩

theorem AllJudged.at {before after : List (SourceRow × Verdict σ)} {row : SourceRow}
    {verdict : Verdict σ} :
    ∀ {entries : List (String × String)},
      AllJudged ops candidate entries (before ++ (row, verdict) :: after) →
        Judged ops candidate (entries ++ addedBy before) row verdict := by
  induction before with
  | nil =>
      intro entries h
      rw [addedBy, List.flatMap_nil, List.append_nil]
      exact h.1
  | cons item before ih =>
      intro entries h
      have hrest := ih h.2
      rwa [List.append_assoc] at hrest

/-- What is added matches nothing that was indexed, and not one another. -/
theorem AllJudged.unlinked {judged : List (SourceRow × Verdict σ)} :
    ∀ {entries : List (String × String)}, AllJudged ops candidate entries judged →
      (∀ new ∈ addedBy judged, ∀ old ∈ entries, ¬ Linked ops candidate new.2 old.2) ∧
        (addedBy judged).Pairwise fun old new => ¬ Linked ops candidate new.2 old.2 := by
  induction judged with
  | nil => simp [addedBy]
  | cons item judged ih =>
      obtain ⟨row, verdict⟩ := item
      rintro entries ⟨hjudged, hrest⟩
      obtain ⟨hold, hpairwise⟩ := ih hrest
      have hhead : ∀ new ∈ added row verdict, ∀ old ∈ entries,
          ¬ Linked ops candidate new.2 old.2 := by
        cases hjudged with
        | rejected => simp [added]
        | duplicate => simp [added]
        | indexed hproblem hfree => simpa [added, hproblem] using hfree
      have hone : (added row verdict).Pairwise fun old new =>
          ¬ Linked ops candidate new.2 old.2 := by
        cases hjudged with
        | rejected => simp [added]
        | duplicate => simp [added]
        | indexed hproblem => simp [added, hproblem]
      have hcons : addedBy ((row, verdict) :: judged) = added row verdict ++ addedBy judged := rfl
      rw [hcons]
      constructor
      · intro new hnew old hmem
        rcases List.mem_append.mp hnew with hnew | hnew
        · exact hhead new hnew old hmem
        · exact hold new hnew old (List.mem_append_left _ hmem)
      · rw [List.pairwise_append]
        exact ⟨hone, hpairwise, fun old hmem new hnew =>
          hold new hnew old (List.mem_append_right _ hmem)⟩

/-! ## The laws -/

/-- The entries of the benchmarks. -/
def benchmarkEntries (benchmarks : List Benchmark) : List (String × String) :=
  benchmarks.map fun row => ("benchmark:" ++ row.id, row.problem)

theorem indexBenchmarks_indexed {benchmarks : List Benchmark} {index' : TextIndex σ}
    (h : indexBenchmarks ops benchmarks = .ok index') :
    Indexed ops (benchmarkEntries benchmarks) index' := by
  have hfold : ∀ (benchmarks : List Benchmark) {entries : List (String × String)}
      {index index' : TextIndex σ}, Indexed ops entries index →
        benchmarks.foldlM
          (fun index row => index.insert ops ("benchmark:" ++ row.id) row.problem) index =
        .ok index' →
        Indexed ops (entries ++ benchmarkEntries benchmarks) index' := by
    intro benchmarks
    induction benchmarks with
    | nil =>
        intro entries index index' hindex h
        cases h
        rwa [benchmarkEntries, List.map_nil, List.append_nil]
    | cons row benchmarks ih =>
        intro entries index index' hindex h
        simp only [List.foldlM_cons, except_bind_eq_ok] at h
        obtain ⟨index₁, hinsert, hrest⟩ := h
        have hrun := ih (hindex.insert hinsert).2 hrest
        rwa [List.append_assoc] at hrun
  exact hfold benchmarks indexed_empty h

/-- A row with what became of it. -/
abbrev Fate (σ : Type) : Type := (SourceRow × Nat) × Verdict σ

/-- The row and the verdict, without the index. -/
def Fate.judged (fate : Fate σ) : SourceRow × Verdict σ := (fate.1.1, fate.2)

/-- The selected problems are among those that were indexed, in their order. -/
theorem selected_sublist {fates : List (Fate σ)} :
    ∀ {entries : List (String × String)},
      AllJudged ops candidate entries (fates.map Fate.judged) →
        ((fates.filterMap fun fate => selectedOf fate.1.2 fate.2).map
          SelectedRow.problem).Sublist ((addedBy (fates.map Fate.judged)).map Prod.snd) := by
  induction fates with
  | nil => exact fun _ => .slnil
  | cons fate fates ih =>
      obtain ⟨⟨row, sourceIndex⟩, verdict⟩ := fate
      rintro entries ⟨hjudged, hrest⟩
      have hsub := ih hrest
      have hadded : addedBy (((⟨(row, sourceIndex), verdict⟩ : Fate σ) :: fates).map Fate.judged) =
          added row verdict ++ addedBy (fates.map Fate.judged) := rfl
      rw [hadded, List.map_append]
      replace hjudged : Judged ops candidate entries row verdict := hjudged
      cases hjudged with
      | rejected => exact hsub
      | duplicate => exact hsub
      | @indexed problem index' outcome hproblem _ _ _ hrow =>
          have hone : (added row (.indexed (digest ops (canonical ops problem)) index'
              outcome)).map Prod.snd = [problem] := by
            rw [added, hproblem]
            rfl
          rw [hone]
          cases outcome with
          | error reason => exact hsub.cons problem
          | ok passed =>
              rw [← hrow passed rfl]
              exact hsub.cons_cons passed.problem

/-- The reasons there are. -/
def reasons : List Reason :=
  [.missingText, .solvedPromptArtifact, .benchmarkOverlap, .duplicateGroup,
    .referenceFinalAnswerDisagreementOrUnparsed, .contextBudget, .padInPrefix]

/-- The rows with what became of them are those of the scan, in the order it took them. -/
structure Scanned (ops : TextOps σ) (query : List (String × σ) → σ → List String)
    (tokenizer : ChatTokenizer) (normalize : Option String → Option String)
    (rows : List SourceRow) (benchmarks : List Benchmark) (fates : List (Fate σ))
    (scan : Scan σ) : Prop where
  once : (fates.map Prod.fst).Perm rows.zipIdx
  judged : ∃ index, indexBenchmarks ops benchmarks = .ok index ∧
    verdicts ops query tokenizer normalize index (fates.map fun fate => fate.1.1) =
      .ok (fates.map Prod.snd)
  selected : scan.selected = fates.filterMap fun fate => selectedOf fate.1.2 fate.2
  rejected : ∀ reason, scan.rejected reason =
    fates.countP fun fate => reasonOf fate.2 = some reason
  groups : scan.groups = fates.filterMap fun fate =>
    (groupOf fate.2).map fun group => (toString fate.1.2, group)

/-- What holds of the rows that are selected, and of those that are not. -/
structure NoLeak (ops : TextOps σ) (candidate : σ → σ → Prop) (rows : List SourceRow)
    (benchmarks : List Benchmark) (fates : List (Fate σ)) (scan : Scan σ) : Prop where
  benchmark : ∀ row ∈ scan.selected, ∀ benchmark ∈ benchmarks,
    ¬ Linked ops candidate row.problem benchmark.problem
  selected : scan.selected.Pairwise fun row other =>
    ¬ Linked ops candidate row.problem other.problem
  duplicate : ∀ before item verdict after, fates = before ++ (item, verdict) :: after →
    reasonOf verdict = some .benchmarkOverlap ∨ reasonOf verdict = some .duplicateGroup →
      ∃ group problem, (toString item.2, group) ∈ scan.groups ∧
        problemText item.1 = some problem ∧
        ((∃ benchmark ∈ benchmarks, group = "benchmark:" ++ benchmark.id ∧
            Linked ops candidate problem benchmark.problem) ∨
          ∃ earlier ∈ before, ∃ other, problemText earlier.1.1 = some other ∧
            (∃ index outcome, earlier.2 = .indexed group index outcome) ∧
            Linked ops candidate problem other)
  counted : scan.selected.length + (reasons.map scan.rejected).sum = rows.length

theorem eligible_scanned {rows : List SourceRow} {benchmarks : List Benchmark} {scan : Scan σ}
    (h : eligible ops query tokenizer normalize rows benchmarks = .ok scan) :
    ∃ fates, Scanned ops query tokenizer normalize rows benchmarks fates scan := by
  simp only [eligible, except_bind_eq_ok] at h
  obtain ⟨index, hindex, -, -, hscan⟩ := h
  rw [scanRows_eq] at hscan
  cases hverdicts : verdicts ops query tokenizer normalize index
      ((digestOrder ops rows).map Prod.fst) with
  | error e => rw [hverdicts] at hscan; cases hscan
  | ok rest =>
      rw [hverdicts] at hscan
      cases hscan
      have hlength : rest.length = (digestOrder ops rows).length := by
        rw [verdicts_length hverdicts, List.length_map]
      have hfst : ((digestOrder ops rows).zip rest).map Prod.fst = digestOrder ops rows :=
        List.map_fst_zip hlength.ge
      have hsnd : ((digestOrder ops rows).zip rest).map Prod.snd = rest :=
        List.map_snd_zip hlength.le
      refine ⟨(digestOrder ops rows).zip rest, ?_, ⟨index, hindex, ?_⟩, ?_, fun reason => ?_, ?_⟩
      · rw [hfst]
        exact sortKeys_perm _ _
      · have hrows : ((digestOrder ops rows).zip rest).map (fun fate => fate.1.1) =
            (digestOrder ops rows).map Prod.fst := by
          conv_rhs => rw [← hfst, List.map_map]
          rfl
        rw [hrows, hsnd, hverdicts]
      · rw [recordAll_selected, List.nil_append]
      · rw [recordAll_rejected, Nat.zero_add]
      · rw [recordAll_groups, List.nil_append]

/-- The verdicts of a scan, each where it was given. -/
theorem Scanned.allJudged {rows : List SourceRow} {benchmarks : List Benchmark}
    {fates : List (Fate σ)} {scan : Scan σ} (hquery : Answers candidate query)
    (h : Scanned ops query tokenizer normalize rows benchmarks fates scan) :
    AllJudged ops candidate (benchmarkEntries benchmarks) (fates.map Fate.judged) := by
  obtain ⟨index, hindex, hverdicts⟩ := h.judged
  have hjudged := verdicts_judged hquery (indexBenchmarks_indexed hindex) hverdicts
  rwa [List.zip_map'] at hjudged

/-- Every row is selected or rejected for one reason. -/
theorem counted_once (fates : List (Fate σ)) :
    (fates.filterMap fun fate => selectedOf fate.1.2 fate.2).length +
      (reasons.map fun reason => fates.countP fun fate => reasonOf fate.2 = some reason).sum =
        fates.length := by
  have hone : ∀ reason : Option Reason, (if reason = none then 1 else 0) +
      (reasons.map fun other => if reason = some other then 1 else 0).sum = 1 := by
    rintro (_ | reason)
    · rfl
    · cases reason <;> rfl
  induction fates with
  | nil => simp [reasons]
  | cons fate fates ih =>
      obtain ⟨item, verdict⟩ := fate
      have hselected : ((((item, verdict) : Fate σ) :: fates).filterMap fun fate =>
          selectedOf fate.1.2 fate.2).length =
            (fates.filterMap fun fate => selectedOf fate.1.2 fate.2).length +
              if reasonOf verdict = none then 1 else 0 := by
        rcases verdict with _ | _ | ⟨_, _, _ | _⟩ <;>
          simp [selectedOf, reasonOf]
      have hrejected : (reasons.map fun reason =>
          (((item, verdict) : Fate σ) :: fates).countP fun fate =>
            reasonOf fate.2 = some reason).sum =
          (reasons.map fun reason => fates.countP fun fate => reasonOf fate.2 = some reason).sum +
            (reasons.map fun other => if reasonOf verdict = some other then 1 else 0).sum := by
        rw [← List.sum_map_add]
        congr 1
        refine List.map_congr_left fun reason _ => ?_
        rw [List.countP_cons]
        simp
      have := hone (reasonOf verdict)
      rw [hselected, hrejected, List.length_cons]
      omega

theorem Scanned.noLeak {rows : List SourceRow} {benchmarks : List Benchmark}
    {fates : List (Fate σ)} {scan : Scan σ} (hquery : Answers candidate query)
    (hsymm : ∀ a b, candidate a b → candidate b a)
    (h : Scanned ops query tokenizer normalize rows benchmarks fates scan) :
    NoLeak ops candidate rows benchmarks fates scan := by
  have hjudged := h.allJudged hquery
  obtain ⟨hold, hpairwise⟩ := hjudged.unlinked
  have hsub := selected_sublist hjudged
  rw [← h.selected] at hsub
  constructor
  case benchmark =>
    intro row hrow benchmark hbenchmark
    obtain ⟨new, hnew, hproblem⟩ := List.mem_map.mp (hsub.subset (List.mem_map_of_mem hrow))
    rw [← hproblem]
    exact hold new hnew _ (List.mem_map_of_mem hbenchmark)
  case selected =>
    have hunlinked : (scan.selected.map SelectedRow.problem).Pairwise fun old new =>
        ¬ Linked ops candidate new old :=
      (List.pairwise_map.mpr hpairwise).sublist hsub
    exact (List.pairwise_map.mp hunlinked).imp fun hne hlinked => hne (hlinked.symm hsymm)
  case duplicate =>
    intro before item verdict after hfates hreason
    have hat : Judged ops candidate
        (benchmarkEntries benchmarks ++ addedBy (before.map Fate.judged)) item.1 verdict := by
      rw [hfates, List.map_append] at hjudged
      exact hjudged.at
    cases hat with
    | @rejected reason hother =>
        rcases hreason with hreason | hreason
        · exact absurd (Option.some.inj hreason) hother.1
        · exact absurd (Option.some.inj hreason) hother.2
    | @indexed problem index outcome _ _ _ hother =>
        cases outcome with
        | error reason =>
            rcases hreason with hreason | hreason
            · exact absurd (Option.some.inj hreason) (hother reason rfl).1
            · exact absurd (Option.some.inj hreason) (hother reason rfl).2
        | ok passed => rcases hreason with hreason | hreason <;> cases hreason
    | @duplicate reason group problem other hproblem hother hlinked =>
        refine ⟨group, problem, ?_, hproblem, ?_⟩
        · rw [h.groups, hfates]
          exact List.mem_filterMap.mpr ⟨(item, .duplicate reason group), by simp, rfl⟩
        · rcases List.mem_append.mp hother with hother | hother
          · obtain ⟨benchmark, hbenchmark, heq⟩ := List.mem_map.mp hother
            obtain ⟨rfl, rfl⟩ := Prod.mk.inj heq
            exact .inl ⟨benchmark, hbenchmark, rfl, hlinked⟩
          · obtain ⟨_, hmem, hadded⟩ := List.mem_flatMap.mp hother
            obtain ⟨⟨row, earlier⟩, hearlier, rfl⟩ := List.mem_map.mp hmem
            refine .inr ⟨(row, earlier), hearlier, other, ?_⟩
            obtain ⟨htext, hindexed⟩ := mem_added hadded
            exact ⟨htext, hindexed, hlinked⟩
  case counted =>
    have hrejected : reasons.map scan.rejected =
        reasons.map fun reason => fates.countP fun fate => reasonOf fate.2 = some reason :=
      List.map_congr_left fun reason _ => h.rejected reason
    have hlength : fates.length = rows.length := by
      rw [← List.length_map (f := Prod.fst), h.once.length_eq, List.length_zipIdx]
    rw [h.selected, hrejected, counted_once, hlength]

/-! ## The order of the rows -/

/-- The problems that verdicts select. -/
def selectedTexts (rest : List (Verdict σ)) : List String :=
  rest.filterMap fun verdict => (selectedOf 0 verdict).map SelectedRow.problem

theorem recordAll_problems (fates : List (Fate σ)) (scan : Scan σ) :
    (recordAll scan fates).selected.map SelectedRow.problem =
      scan.selected.map SelectedRow.problem ++ selectedTexts (fates.map Prod.snd) := by
  rw [recordAll_selected, List.map_append, List.map_filterMap, selectedTexts, List.filterMap_map]
  congr 2
  funext ⟨item, verdict⟩
  rcases verdict with _ | _ | ⟨_, _, _ | _⟩ <;> rfl

/-- A row without a problem to read is passed over. -/
theorem judge_of_none {row : SourceRow} (h : problemText row = none) :
    judge ops query tokenizer normalize index row = .ok (.rejected .missingText) := by
  rw [judge]
  split
  · next problem solution hproblem _ =>
      rw [problemText, hproblem] at h
      cases h
  · rfl

/-- Such rows leave no trace in the texts that are selected, nor in what is raised. -/
theorem verdicts_filter (rows : List SourceRow) :
    ∀ index : TextIndex σ, (verdicts ops query tokenizer normalize index rows).map selectedTexts =
      (verdicts ops query tokenizer normalize index
        (rows.filter fun row => (problemText row).isSome)).map selectedTexts := by
  induction rows with
  | nil => exact fun _ => rfl
  | cons row rows ih =>
      intro index
      rw [verdicts]
      cases htext : problemText row with
      | none =>
          rw [judge_of_none htext, except_ok_bind, List.filter_cons_of_neg (by simp [htext]), ← ih]
          show (verdicts ops query tokenizer normalize index rows >>= _).map selectedTexts = _
          cases verdicts ops query tokenizer normalize index rows with
          | error e => rfl
          | ok rest => rfl
      | some problem =>
          rw [List.filter_cons_of_pos (by simp [htext]), verdicts]
          cases judge ops query tokenizer normalize index row with
          | error e => rfl
          | ok verdict =>
              have hcons : ∀ x : Except PyError (List (Verdict σ)),
                  (x >>= fun rest => .ok (verdict :: rest)).map selectedTexts =
                    (x.map selectedTexts).map (selectedTexts [verdict] ++ ·) := by
                rintro (e | rest)
                · rfl
                · show Except.ok _ = Except.ok _
                  rw [← List.singleton_append, selectedTexts, List.filterMap_append]
                  rfl
              rw [except_ok_bind, except_ok_bind, hcons, hcons, ih]

/-- The problems a run selects. -/
def selectedProblems (run : Except PyError (Scan σ)) : Except PyError (List String) :=
  run.map fun scan => scan.selected.map SelectedRow.problem

theorem digestOrder_eq (hsha : Function.Injective ops.sha256) {rows rows' : List SourceRow}
    (hperm : rows'.Perm rows)
    (hone : ∀ row ∈ rows, ∀ other ∈ rows, ∀ problem text, problemText row = some problem →
      problemText other = some text → canonical ops problem = canonical ops text → row = other) :
    ((digestOrder ops rows').map Prod.fst).filter (fun row => (problemText row).isSome) =
      ((digestOrder ops rows).map Prod.fst).filter fun row => (problemText row).isSome := by
  have hrows : ∀ rows : List SourceRow, ((digestOrder ops rows).map Prod.fst).Perm rows := by
    intro rows
    have hsorted := (sortKeys_perm (fun item : SourceRow × Nat =>
      digest ops (canonical ops (getField item.1.problem).str)) rows.zipIdx).map Prod.fst
    rwa [List.zipIdx_map_fst] at hsorted
  have hsorted : ∀ rows : List SourceRow, ((digestOrder ops rows).map Prod.fst).Pairwise
      fun row other => digest ops (canonical ops (getField row.problem).str) ≤
        digest ops (canonical ops (getField other.problem).str) := fun rows =>
    List.pairwise_map.mpr (sortKeys_pairwise _ _)
  refine List.Perm.eq_of_pairwise ?_ ((hsorted rows').filter _) ((hsorted rows).filter _)
    (((hrows rows').trans (hperm.trans (hrows rows).symm)).filter _)
  intro row other hrow hother hle hge
  rw [List.mem_filter, (hrows rows').mem_iff, hperm.mem_iff, Option.isSome_iff_exists] at hrow
  rw [List.mem_filter, (hrows rows).mem_iff, Option.isSome_iff_exists] at hother
  obtain ⟨hrow, problem, hproblem⟩ := hrow
  obtain ⟨hother, text, htext⟩ := hother
  have hstr : ∀ {row : SourceRow} {problem : String}, problemText row = some problem →
      (getField row.problem).str = problem := by
    intro row problem h
    rw [problemText] at h
    split at h
    · next hfield => rw [hfield]; exact Option.some.inj h
    · cases h
  refine hone row hrow other hother problem text hproblem htext (hsha ?_)
  rw [← hstr hproblem, ← hstr htext]
  exact le_antisymm hle hge

theorem eligible_perm (hsha : Function.Injective ops.sha256) {rows rows' : List SourceRow}
    (hperm : rows'.Perm rows)
    (hone : ∀ row ∈ rows, ∀ other ∈ rows, ∀ problem text, problemText row = some problem →
      problemText other = some text → canonical ops problem = canonical ops text → row = other)
    (benchmarks : List Benchmark) :
    selectedProblems (eligible ops query tokenizer normalize rows' benchmarks) =
      selectedProblems (eligible ops query tokenizer normalize rows benchmarks) := by
  have hscan : ∀ (rows : List SourceRow) (index : TextIndex σ),
      selectedProblems ((digestOrder ops rows).foldlM (scanRow ops query tokenizer normalize)
        { index, selected := [], rejected := fun _ => 0, groups := [] }) =
      (verdicts ops query tokenizer normalize index (((digestOrder ops rows).map Prod.fst).filter
        fun row => (problemText row).isSome)).map selectedTexts := by
    intro rows index
    rw [scanRows_eq, ← verdicts_filter]
    cases hverdicts : verdicts ops query tokenizer normalize index
        ((digestOrder ops rows).map Prod.fst) with
    | error e => rfl
    | ok rest =>
        have hlength := verdicts_length hverdicts
        rw [List.length_map] at hlength
        show Except.ok ((recordAll _ _).selected.map SelectedRow.problem) = Except.ok _
        rw [recordAll_problems, List.map_snd_zip hlength.le]
        rfl
  rw [eligible, eligible]
  cases indexBenchmarks ops benchmarks with
  | error e => rfl
  | ok index =>
      rw [except_ok_bind, except_ok_bind]
      -- a row without the key is found before any row is scanned
      have hcheck : check (∀ row ∈ rows', row.problem.isSome) (missingKey "problem") =
          check (∀ row ∈ rows, row.problem.isSome) (missingKey "problem") :=
        check_congr ⟨fun h row hrow => h row (hperm.mem_iff.mpr hrow),
          fun h row hrow => h row (hperm.mem_iff.mp hrow)⟩
      rw [hcheck]
      cases check (∀ row ∈ rows, row.problem.isSome) (missingKey "problem") with
      | error e => rfl
      | ok _ => rw [except_ok_bind, except_ok_bind, hscan, hscan, digestOrder_eq hsha hperm hone]

/-- The scan leaves no leak, and which problems it selects, or what it raises, is a matter
of the rows and not of their order. -/
theorem eligible_leaves_no_leak (ops : TextOps σ) (candidate : σ → σ → Prop)
    (query : List (String × σ) → σ → List String) (tokenizer : ChatTokenizer)
    (normalize : Option String → Option String) (rows : List SourceRow)
    (benchmarks : List Benchmark) (hquery : Answers candidate query)
    (hsymm : ∀ a b, candidate a b → candidate b a) (hsha : Function.Injective ops.sha256) :
    (∀ scan, eligible ops query tokenizer normalize rows benchmarks = .ok scan →
      ∃ fates, Scanned ops query tokenizer normalize rows benchmarks fates scan ∧
        NoLeak ops candidate rows benchmarks fates scan) ∧
    ((∀ row ∈ rows, ∀ other ∈ rows, ∀ problem text, problemText row = some problem →
        problemText other = some text → canonical ops problem = canonical ops text →
          row = other) →
      ∀ rows', rows'.Perm rows →
        selectedProblems (eligible ops query tokenizer normalize rows' benchmarks) =
          selectedProblems (eligible ops query tokenizer normalize rows benchmarks)) := by
  constructor
  · intro scan h
    obtain ⟨fates, hfates⟩ := eligible_scanned h
    exact ⟨fates, hfates, hfates.noLeak hquery hsymm⟩
  · intro hone rows' hperm
    exact eligible_perm hsha hperm hone benchmarks

def oneToken : ChatTokenizer where
  applyChatTemplate content _ := content
  encode _ := [1]
  padTokenId := some 0

def solvedRow : SourceRow where
  problem := some (.text "1")
  solution := some (.text "\\boxed\x7b4\x7d")
  answer := some (.text "4")

/-- A row that comes twice is selected once. -/
theorem eligible_leaves_no_leak_twice :
    ∃ scan fates, eligible plainOps sameSketch oneToken id [solvedRow, solvedRow] [⟨"a", "d"⟩] =
        .ok scan ∧
      NoLeak plainOps (· = ·) [solvedRow, solvedRow] [⟨"a", "d"⟩] fates scan ∧
      selectedProblems (eligible plainOps sameSketch oneToken id [solvedRow, solvedRow].reverse
        [⟨"a", "d"⟩]) = .ok ["1"] := by
  obtain ⟨hleak, horder⟩ := eligible_leaves_no_leak plainOps (· = ·) sameSketch oneToken id
    [solvedRow, solvedRow] [⟨"a", "d"⟩] sameSketch_answers (fun _ _ => Eq.symm) plainOps_injective
  have hone : ∀ row ∈ [solvedRow, solvedRow], row = solvedRow := by simp
  have hproblems : selectedProblems (eligible plainOps sameSketch oneToken id
      [solvedRow, solvedRow] [⟨"a", "d"⟩]) = .ok ["1"] := by decide +kernel
  cases hscan : eligible plainOps sameSketch oneToken id [solvedRow, solvedRow] [⟨"a", "d"⟩] with
  | error e =>
      rw [hscan] at hproblems
      cases hproblems
  | ok scan =>
      obtain ⟨fates, -, hfates⟩ := hleak scan hscan
      refine ⟨scan, fates, rfl, hfates, ?_⟩
      rw [horder
        (fun row hrow other hother _ _ _ _ _ => (hone row hrow).trans (hone other hother).symm)
        _ (List.reverse_perm _), hproblems]

end Crisp.Proofs
