import Crisp.Ref.EvaluateCheckpoint
import Mathlib.Data.Int.CardIntervalMod
import Mathlib.Data.List.Basic
import Mathlib.Data.List.Perm.Basic

/-!
# Eight responses to every question

The event loop and the servers decide who is answered when. What they cannot
decide is who asked what: the requests are dealt to the servers in turn, no server
ever has more than its number of them open, each is sent once, and what `gather`
returns stands in the order of the prompts whatever the order of the answers. The
file beside the record holds the same rows in the order they came.
-/

namespace Crisp.Proofs

open Crisp.Lib Crisp.Ref

/-! ## The requests -/

variable {args : SampleArgs}

theorem promptTasks_eq (args : SampleArgs) (requests : List EvalTask)
    (item : EvalPrompt × List Int) :
    promptTasks args requests item = requests ++ (List.range args.responses).map fun draw =>
      ⟨item.1, item.2, draw, (requests.length + draw) % args.urls.length⟩ := by
  rw [promptTasks]
  induction args.responses with
  | zero => simp
  | succ n ih =>
      rw [List.range_succ, List.foldl_append, ih]
      simp

/-- The draws of a prompt follow one another, and the prompts follow one another. -/
theorem foldl_promptTasks (args : SampleArgs) (items : List (EvalPrompt × List Int)) :
    (items.foldl (promptTasks args) []).length = items.length * args.responses ∧
      ∀ k task, (items.foldl (promptTasks args) [])[k]? = some task →
        ∃ item, items[k / args.responses]? = some item ∧
          task = ⟨item.1, item.2, k % args.responses, k % args.urls.length⟩ := by
  induction items using List.reverseRecOn with
  | nil => simp
  | append_singleton items item ih =>
      obtain ⟨hlength, hat⟩ := ih
      rw [List.foldl_append, List.foldl_cons, List.foldl_nil, promptTasks_eq]
      refine ⟨by simp [hlength, Nat.add_mul], fun k task hk => ?_⟩
      rcases Nat.lt_or_ge k (items.length * args.responses) with hlt | hge
      · rw [List.getElem?_append_left (by omega)] at hk
        obtain ⟨item', hitem', htask⟩ := hat k task hk
        have hdiv := Nat.div_lt_of_lt_mul (Nat.mul_comm items.length _ ▸ hlt)
        exact ⟨item', by rw [List.getElem?_append_left hdiv, hitem'], htask⟩
      · rw [List.getElem?_append_right (by omega), hlength, List.getElem?_map] at hk
        obtain ⟨draw, hdraw, rfl⟩ := Option.map_eq_some_iff.mp hk
        obtain ⟨hlt, rfl⟩ := List.getElem?_eq_some_iff.mp hdraw
        rw [List.length_range] at hlt
        rw [List.getElem_range]
        have hpos : 0 < args.responses := by omega
        have hdiv : k / args.responses = items.length :=
          Nat.div_eq_of_lt_le hge (by rw [Nat.add_mul]; omega)
        have hmod : k % args.responses = k - items.length * args.responses := by
          have := Nat.div_add_mod k args.responses
          rw [hdiv, Nat.mul_comm] at this
          omega
        refine ⟨item, by rw [hdiv, List.getElem?_concat_length], ?_⟩
        rw [hmod]
        congr 2
        omega

variable {prompts : List EvalPrompt} {prefixes : List (List Int)}

theorem evalTasks_length (hprefixes : prefixes.length = prompts.length) :
    (evalTasks args prompts prefixes).length = prompts.length * args.responses := by
  rw [evalTasks, (foldl_promptTasks args _).1, List.length_zip, hprefixes, Nat.min_self]

/-- Which prompt, which draw and which server a request is for. -/
theorem evalTasks_getElem {k : Nat} {task : EvalTask}
    (hk : (evalTasks args prompts prefixes)[k]? = some task) :
    prompts[k / args.responses]? = some task.row ∧ prefixes[k / args.responses]? = some task.pfx ∧
      task.draw = k % args.responses ∧ task.server = k % args.urls.length := by
  obtain ⟨item, hitem, rfl⟩ := (foldl_promptTasks args _).2 k task hk
  rw [List.getElem?_zip_eq_some] at hitem
  exact ⟨hitem.1, hitem.2, rfl, rfl⟩

/-! ## One step -/

variable {sha256 : String → List UInt8} {decode : String → Except PyError GenerateReply}

/-- A row is what its task makes of some answer. -/
def IsRowOf (sha256 : String → List UInt8) (args : SampleArgs) (task : EvalTask)
    (row : ResponseRow) : Prop :=
  ∃ elapsed reply, task.finish sha256 args elapsed reply = .ok row

variable (sha256) (args) in
/-- What holds of the tasks, whatever has been answered. -/
structure Accounted (tasks : List EvalTask) (s : Generation) : Prop where
  tasks : s.tasks.map Prod.fst = tasks
  flight : ∀ server, s.inFlight server ≤ args.concurrency
  posts : s.posts.Perm
    ((s.tasks.filter fun item => item.2 ≠ .waiting).map fun item => item.1.post sha256 args)
  sink : s.sink.Perm (s.tasks.filterMap fun item => item.2.row?)
  rows : ∀ item ∈ s.tasks, ∀ row, item.2 = .done row → IsRowOf sha256 args item.1 row
  raised : s.raised = none → ∀ item ∈ s.tasks, ∀ error, item.2 ≠ .failed error

theorem exists_split {α : Type} {l : List α} {i : Nat} {a : α} (h : l[i]? = some a) :
    ∃ before after, l = before ++ a :: after ∧ ∀ b, l.set i b = before ++ b :: after := by
  obtain ⟨hi, rfl⟩ := List.getElem?_eq_some_iff.mp h
  refine ⟨l.take i, l.drop (i + 1), ?_, fun b => ?_⟩
  · rw [List.getElem_cons_drop, List.take_append_drop]
  · rw [List.set_eq_take_append_cons_drop, if_pos hi]

theorem perm_append_middle {α : Type} (before after : List α) (a : α) :
    (before ++ after ++ [a]).Perm (before ++ a :: after) := by
  rw [List.append_assoc]
  exact (List.perm_append_singleton a after).append_left before

variable {tasks : List EvalTask} {s : Generation} {i : Nat} {task : EvalTask}

theorem accounted_start (tasks : List EvalTask) : Accounted args sha256 tasks (.start tasks) := by
  refine ⟨?_, fun server => ?_, ?_, ?_, ?_, ?_⟩
  · simp [Generation.start, Function.comp_def]
  · simp [Generation.start, Generation.inFlight, List.countP_map, Function.comp_def]
  · simp [Generation.start]
  · simp [Generation.start, TaskPhase.row?]
  · simp [Generation.start]
  · simp [Generation.start]

/-- A task goes through the semaphore and sends its request. -/
theorem Accounted.enter (h : Accounted args sha256 tasks s)
    (hi : s.tasks[i]? = some (task, .waiting)) (hroom : s.inFlight task.server < args.concurrency) :
    Accounted args sha256 tasks { s with
      tasks := s.tasks.set i (task, .posted)
      posts := s.posts ++ [task.post sha256 args] } := by
  obtain ⟨before, after, hsplit, hset⟩ := exists_split hi
  obtain ⟨htasks, hflight, hposts, hsink, hrows, hraised⟩ := h
  simp only [Generation.inFlight, hsplit] at htasks hflight hposts hsink hrows hraised hroom
  refine ⟨?_, fun server => ?_, ?_, ?_, ?_, ?_⟩ <;> simp only [Generation.inFlight, hset]
  · simpa using htasks
  · have := hflight server
    rw [List.countP_append, List.countP_cons] at this hroom ⊢
    by_cases hserver : task.server = server
    · subst hserver
      simp at hroom ⊢
      omega
    · simpa [hserver] using this
  · simp only [List.filter_append, List.filter_cons, List.map_append] at hposts ⊢
    simp only [ne_eq, not_true, decide_false, Bool.false_eq_true, if_false, reduceCtorEq,
      not_false_eq_true, decide_true, if_true, List.map_cons] at hposts ⊢
    exact (hposts.append_right _).trans (perm_append_middle _ _ _)
  · simpa [TaskPhase.row?] using hsink
  · intro item hitem row hrow
    refine hrows item ?_ row hrow
    simp only [List.mem_append, List.mem_cons] at hitem ⊢
    rcases hitem with hmem | rfl | hmem
    · exact .inl hmem
    · cases hrow
    · exact .inr (.inr hmem)
  · intro hnone item hitem error
    simp only [List.mem_append, List.mem_cons] at hitem
    rcases hitem with hmem | rfl | hmem
    · exact hraised hnone item (by simp [hmem]) error
    · simp
    · exact hraised hnone item (by simp [hmem]) error

/-- A request that was out is answered, one way or the other. -/
theorem inFlight_answered (hi : s.tasks[i]? = some (task, .posted)) {phase : TaskPhase}
    (hphase : phase ≠ .posted) (server : Nat) :
    ({ s with tasks := s.tasks.set i (task, phase) } : Generation).inFlight server ≤
      s.inFlight server := by
  obtain ⟨before, after, hsplit, hset⟩ := exists_split hi
  simp only [Generation.inFlight, hset]
  rw [hsplit, List.countP_append, List.countP_cons, List.countP_append, List.countP_cons]
  simp [hphase]

theorem posts_answered (hi : s.tasks[i]? = some (task, .posted)) {phase : TaskPhase}
    (hphase : phase ≠ .waiting) :
    ((s.tasks.set i (task, phase)).filter fun item => item.2 ≠ .waiting).map
        (fun item => item.1.post sha256 args) =
      (s.tasks.filter fun item => item.2 ≠ .waiting).map fun item => item.1.post sha256 args := by
  obtain ⟨before, after, hsplit, hset⟩ := exists_split hi
  rw [hset, hsplit]
  simp [List.filter_append, hphase]

theorem Accounted.done (h : Accounted args sha256 tasks s)
    (hi : s.tasks[i]? = some (task, .posted)) {row : ResponseRow}
    (hrow : IsRowOf sha256 args task row) :
    Accounted args sha256 tasks { s with
      tasks := s.tasks.set i (task, .done row)
      sink := s.sink ++ [row] } := by
  have hflight' := @inFlight_answered _ _ _ hi (.done row) (by simp)
  have hposts' := @posts_answered args sha256 _ _ _ hi (.done row) (by simp)
  obtain ⟨before, after, hsplit, hset⟩ := exists_split hi
  obtain ⟨htasks, hflight, hposts, hsink, hrows, hraised⟩ := h
  refine ⟨?_, fun server => (hflight' server).trans (hflight server), ?_, ?_, ?_, ?_⟩
  · rw [hsplit] at htasks
    simpa [hset] using htasks
  · exact hposts.trans (List.Perm.of_eq hposts'.symm)
  · rw [hsplit] at hsink
    simp only [hset, List.filterMap_append, List.filterMap_cons, TaskPhase.row?] at hsink ⊢
    exact (hsink.append_right _).trans (perm_append_middle _ _ _)
  · intro item hitem row' hrow'
    simp only [hset, List.mem_append, List.mem_cons] at hitem
    rcases hitem with hmem | rfl | hmem
    · exact hrows item (by simp [hsplit, hmem]) row' hrow'
    · cases hrow'
      exact hrow
    · exact hrows item (by simp [hsplit, hmem]) row' hrow'
  · intro hnone item hitem error
    simp only [hset, List.mem_append, List.mem_cons] at hitem
    rcases hitem with hmem | rfl | hmem
    · exact hraised hnone item (by simp [hsplit, hmem]) error
    · simp
    · exact hraised hnone item (by simp [hsplit, hmem]) error

theorem Accounted.fail (h : Accounted args sha256 tasks s)
    (hi : s.tasks[i]? = some (task, .posted)) (error : PyError) :
    Accounted args sha256 tasks (s.fail i task error) := by
  have hflight' := @inFlight_answered _ _ _ hi (.failed error) (by simp)
  have hposts' := @posts_answered args sha256 _ _ _ hi (.failed error) (by simp)
  obtain ⟨before, after, hsplit, hset⟩ := exists_split hi
  obtain ⟨htasks, hflight, hposts, hsink, hrows, hraised⟩ := h
  refine ⟨?_, fun server => (hflight' server).trans (hflight server), ?_, ?_, ?_, ?_⟩
  · rw [hsplit] at htasks
    simpa [Generation.fail, hset] using htasks
  · exact hposts.trans (List.Perm.of_eq hposts'.symm)
  · rw [hsplit] at hsink
    simpa [Generation.fail, hset, TaskPhase.row?] using hsink
  · intro item hitem row hrow
    simp only [Generation.fail, hset, List.mem_append, List.mem_cons] at hitem
    rcases hitem with hmem | rfl | hmem
    · exact hrows item (by simp [hsplit, hmem]) row hrow
    · cases hrow
    · exact hrows item (by simp [hsplit, hmem]) row hrow
  · intro hnone
    cases hbefore : s.raised <;> simp [Generation.fail, hbefore] at hnone

theorem Accounted.step (h : Accounted args sha256 tasks s) (input : GenerationInput) :
    Accounted args sha256 tasks (generationStep sha256 decode args s input) := by
  cases input with
  | enter i =>
      rw [generationStep]
      split
      · next task hi =>
          split
          · next hroom => exact h.enter hi hroom
          · exact h
      · exact h
  | answer i elapsed reply =>
      rw [generationStep]
      split
      · next task hi =>
          rw [Generation.answered]
          split
          · exact h.fail hi _
          · next row hrow =>
              obtain ⟨answer, -, hfinish⟩ := except_bind_eq_ok.mp hrow
              split
              · exact h.fail hi _
              · exact h.done hi ⟨elapsed, answer, hfinish⟩
      · exact h
  | close =>
      rw [generationStep]
      split
      · exact ⟨h.tasks, h.flight, h.posts, h.sink, h.rows, h.raised⟩
      · exact h

/-! ## Every order of steps -/

theorem accounted_generateRows (inputs : List GenerationInput) :
    Accounted args sha256 (evalTasks args prompts prefixes)
      (generateRows sha256 decode args prompts prefixes inputs) :=
  invariant_run (P := Accounted args sha256 (evalTasks args prompts prefixes))
    (fun _ input h => h.step input) (accounted_start _) inputs

/-! ## What comes of it -/

theorem TaskPhase.row?_eq_some {phase : TaskPhase} {row : ResponseRow} :
    phase.row? = some row ↔ phase = .done row := by
  cases phase <;> simp [TaskPhase.row?]

/-- The fields of a row that come from its request, and the version that was checked. -/
theorem IsRowOf.fields {row : ResponseRow} (h : IsRowOf sha256 args task row) :
    row.id = task.row.id ∧ row.dataset = task.row.dataset ∧ row.draw = task.draw ∧
      row.seed = evaluationSeed sha256 args.seedNamespace task.row.id task.draw ∧
      ∀ version, args.checkpointHash = some version → row.weightVersion.getD "None" = version := by
  obtain ⟨elapsed, reply, hfinish⟩ := h
  rw [EvalTask.finish, except_bind_eq_ok] at hfinish
  obtain ⟨_, hcheck, hrow⟩ := hfinish
  cases hrow
  exact ⟨rfl, rfl, rfl, rfl, check_eq_ok.mp hcheck⟩

/-- When every task has returned their rows stand at the places of the tasks. -/
theorem filterMap_row {items : List (EvalTask × TaskPhase)}
    (h : ∀ item ∈ items, item.2.row?.isSome) :
    List.Forall₂ (fun item row => item.2 = TaskPhase.done row) items
      (items.filterMap fun item => item.2.row?) := by
  induction items with
  | nil => exact .nil
  | cons item items ih =>
      obtain ⟨row, hrow⟩ := Option.isSome_iff_exists.mp (h item List.mem_cons_self)
      rw [List.filterMap_cons, hrow]
      exact .cons (TaskPhase.row?_eq_some.mp hrow)
        (ih fun item' hmem => h item' (List.mem_cons_of_mem _ hmem))

theorem Generation.gathered_eq_ok {s : Generation} {rows : List ResponseRow}
    (h : s.gathered = some (.ok rows)) :
    (∀ item ∈ s.tasks, item.2.row?.isSome) ∧
      s.tasks.filterMap (fun item => item.2.row?) = rows := by
  rw [Generation.gathered] at h
  split at h
  · simp at h
  · split at h
    · next hall => exact ⟨hall, by simpa using h⟩
    · simp at h

/-- `gather` returned: a row for every task, in their order. -/
theorem Accounted.gathered_rows (h : Accounted args sha256 tasks s) {rows : List ResponseRow}
    (hrows : s.gathered = some (.ok rows)) :
    List.Forall₂ (IsRowOf sha256 args) tasks rows ∧ s.sink.Perm rows := by
  obtain ⟨hall, rfl⟩ := Generation.gathered_eq_ok hrows
  refine ⟨?_, h.sink⟩
  rw [← h.tasks, List.forall₂_map_left_iff]
  refine (List.forall₂_and_left _ _ |>.mpr ⟨fun item hitem => hitem, filterMap_row hall⟩).imp ?_
  intro item row hitem
  exact h.rows item hitem.1 row hitem.2

/-- What is done is at most once what was asked. -/
theorem filterMap_row_sublist {α : Type} {items : List (EvalTask × TaskPhase)} {f : ResponseRow → α}
    {g : EvalTask → α}
    (h : ∀ item ∈ items, ∀ row, item.2 = .done row → f row = g item.1) :
    List.Sublist ((items.filterMap fun item => item.2.row?).map f)
      (items.map fun item => g item.1) := by
  induction items with
  | nil => exact .slnil
  | cons item items ih =>
      have hrest := ih fun item' hmem => h item' (List.mem_cons_of_mem _ hmem)
      cases hphase : item.2.row? with
      | none =>
          rw [List.filterMap_cons, hphase, List.map_cons]
          exact hrest.cons _
      | some row =>
          have hrow := h item List.mem_cons_self row (TaskPhase.row?_eq_some.mp hphase)
          rw [List.filterMap_cons, hphase, List.map_cons, List.map_cons, hrow]
          exact hrest.cons_cons _

theorem evalTasks_keys_nodup (hids : (prompts.map EvalPrompt.id).Nodup) :
    ((evalTasks args prompts prefixes).map fun task => (task.row.id, task.draw)).Nodup := by
  rw [List.nodup_iff_getElem?_ne_getElem?]
  intro i j hij hj heq
  rw [List.length_map] at hj
  have hi : i < (evalTasks args prompts prefixes).length := by omega
  rw [List.getElem?_map, List.getElem?_map, List.getElem?_eq_getElem hi,
    List.getElem?_eq_getElem hj, Option.map_some, Option.map_some, Option.some_inj] at heq
  obtain ⟨hrow, -, hdraw, -⟩ := evalTasks_getElem (List.getElem?_eq_getElem hi)
  obtain ⟨hrow', -, hdraw', -⟩ := evalTasks_getElem (List.getElem?_eq_getElem hj)
  obtain ⟨hid, hdraws⟩ := Prod.mk.inj heq
  rw [hdraw, hdraw'] at hdraws
  have hdiv : i / args.responses = j / args.responses := by
    obtain ⟨hlt, hat⟩ := List.getElem?_eq_some_iff.mp hrow
    obtain ⟨hlt', hat'⟩ := List.getElem?_eq_some_iff.mp hrow'
    have hat₁ : i / args.responses < (prompts.map EvalPrompt.id).length := by simpa using hlt
    have hat₂ : j / args.responses < (prompts.map EvalPrompt.id).length := by simpa using hlt'
    refine (@List.Nodup.getElem_inj_iff _ _ hids _ hat₁ _ hat₂).mp ?_
    rw [List.getElem_map, List.getElem_map, hat, hat', hid]
  have hi' := Nat.div_add_mod i args.responses
  have hj' := Nat.div_add_mod j args.responses
  rw [hdiv, hdraws] at hi'
  omega

/-- The requests are dealt to the servers in turn. -/
theorem evalTasks_balanced {server : Nat} (hserver : server < args.urls.length) :
    (evalTasks args prompts prefixes).countP (fun task => task.server = server) =
      (evalTasks args prompts prefixes).length / args.urls.length +
        if server < (evalTasks args prompts prefixes).length % args.urls.length then 1 else 0 := by
  have hservers : (evalTasks args prompts prefixes).map EvalTask.server =
      (List.range (evalTasks args prompts prefixes).length).map (· % args.urls.length) := by
    refine List.ext_getElem (by simp) fun k hk _ => ?_
    rw [List.length_map] at hk
    rw [List.getElem_map, List.getElem_map, List.getElem_range]
    exact (evalTasks_getElem (List.getElem?_eq_getElem hk)).2.2.2
  have hcount := Nat.count_modEq_card (evalTasks args prompts prefixes).length
    (Nat.zero_lt_of_lt hserver) server
  rw [Nat.mod_eq_of_lt hserver] at hcount
  rw [← hcount, Nat.count]
  have hmap := congrArg (List.countP fun n => decide (n = server)) hservers
  rw [List.countP_map, List.countP_map] at hmap
  refine hmap.trans (List.countP_congr fun k _ => ?_)
  simp [Nat.ModEq, Nat.mod_eq_of_lt hserver]

/-- A task that has not returned can go on, or the one it waits for can. -/
theorem Accounted.not_stuck (h : Accounted args sha256 tasks s)
    (hconcurrency : 0 < args.concurrency) (hgathered : s.gathered = none) :
    (∃ (i : Nat) (task : EvalTask), s.tasks[i]? = some (task, TaskPhase.posted)) ∨
      ∃ (i : Nat) (task : EvalTask), s.tasks[i]? = some (task, TaskPhase.waiting) ∧
        s.inFlight task.server < args.concurrency := by
  rw [Generation.gathered] at hgathered
  split at hgathered
  · cases hgathered
  next hraised =>
    split at hgathered
    · cases hgathered
    next hall =>
      push Not at hall
      obtain ⟨⟨task, phase⟩, hmem, hrow⟩ := hall
      obtain ⟨i, hi⟩ := List.mem_iff_getElem?.mp hmem
      cases hphase : phase with
      | posted => exact .inl ⟨i, task, hphase ▸ hi⟩
      | done row => simp [TaskPhase.row?, hphase] at hrow
      | failed error => exact absurd hphase (h.raised hraised _ hmem error)
      | waiting =>
          rcases Nat.lt_or_ge (s.inFlight task.server) args.concurrency with hlt | hge
          · exact .inr ⟨i, task, hphase ▸ hi, hlt⟩
          · obtain ⟨other, hother, hposted⟩ := List.countP_pos_iff.mp (hconcurrency.trans_le hge)
            obtain ⟨j, hj⟩ := List.mem_iff_getElem?.mp hother
            simp only [decide_eq_true_eq] at hposted
            exact .inl ⟨j, other.1, hposted.2 ▸ hj⟩

/-- Whatever the order of the steps and the answers: no server has more open than it may, the
servers get equal shares, every request is sent once, the file holds no draw twice, and what
is returned is every draw of every question in the order of the questions, under its own
seed and from the pinned weights. It never waits for nothing. -/
theorem generateRows_spec (sha256 : String → List UInt8)
    (decode : String → Except PyError GenerateReply) (args : SampleArgs)
    (prompts : List EvalPrompt) (prefixes : List (List Int))
    (hprefixes : prefixes.length = prompts.length) (inputs : List GenerationInput) :
    let s := generateRows sha256 decode args prompts prefixes inputs
    let tasks := evalTasks args prompts prefixes
    (∀ server, s.inFlight server ≤ args.concurrency) ∧
      (∀ server < args.urls.length,
        tasks.countP (fun task => task.server = server) = tasks.length / args.urls.length +
          if server < tasks.length % args.urls.length then 1 else 0) ∧
      (∃ sent, List.Sublist sent tasks ∧ s.posts.Perm (sent.map (EvalTask.post sha256 args))) ∧
      ((prompts.map EvalPrompt.id).Nodup → (s.sink.map fun row => (row.id, row.draw)).Nodup) ∧
      (∀ rows, s.gathered = some (.ok rows) →
        s.sink.Perm rows ∧ rows.length = prompts.length * args.responses ∧
        ∀ k row, rows[k]? = some row → ∃ prompt, prompts[k / args.responses]? = some prompt ∧
          row.id = prompt.id ∧ row.dataset = prompt.dataset ∧ row.draw = k % args.responses ∧
          row.seed = evaluationSeed sha256 args.seedNamespace prompt.id (k % args.responses) ∧
          ∀ version, args.checkpointHash = some version →
            row.weightVersion.getD "None" = version) ∧
      (0 < args.concurrency → s.gathered = none →
        (∃ (i : Nat) (task : EvalTask), s.tasks[i]? = some (task, TaskPhase.posted)) ∨
          ∃ (i : Nat) (task : EvalTask), s.tasks[i]? = some (task, TaskPhase.waiting) ∧
            s.inFlight task.server < args.concurrency) := by
  intro s tasks
  have h : Accounted args sha256 tasks s := accounted_generateRows inputs
  refine ⟨h.flight, fun server hserver => evalTasks_balanced hserver, ?_, fun hids => ?_,
    fun rows hrows => ?_, h.not_stuck⟩
  · refine ⟨(s.tasks.filter fun item => item.2 ≠ .waiting).map Prod.fst, ?_, ?_⟩
    · rw [← h.tasks]
      exact List.filter_sublist.map _
    · rw [List.map_map]
      exact h.posts
  · have hkeys := @evalTasks_keys_nodup args _ prefixes hids
    have htasks : s.tasks.map Prod.fst = evalTasks args prompts prefixes := h.tasks
    rw [← htasks, List.map_map] at hkeys
    have hsub := filterMap_row_sublist (f := fun row => (row.id, row.draw))
      (g := fun task => (task.row.id, task.draw)) fun item hitem row hrow => by
        have hfields := (h.rows item hitem row hrow).fields
        exact Prod.ext hfields.1 hfields.2.2.1
    exact ((h.sink.map _).nodup_iff).mpr (hsub.nodup hkeys)
  · obtain ⟨hall, hperm⟩ := h.gathered_rows hrows
    refine ⟨hperm, by rw [← hall.length_eq, evalTasks_length hprefixes], fun k row hk => ?_⟩
    obtain ⟨hlt, rfl⟩ := List.getElem?_eq_some_iff.mp hk
    have hlt' : k < tasks.length := by rw [hall.length_eq]; exact hlt
    obtain ⟨hid, hdataset, hdraw, hseed, hversion⟩ := (hall.get hlt' hlt).fields
    obtain ⟨hprompt, -, htaskDraw, -⟩ := evalTasks_getElem (List.getElem?_eq_getElem hlt')
    simp only [List.get_eq_getElem] at hid hdataset hdraw hseed hversion
    refine ⟨_, hprompt, hid, hdataset, hdraw.trans htaskDraw, ?_, hversion⟩
    rw [hseed, htaskDraw]

/-- Two draws of one question, the second answered first. -/
theorem generateRows_two :
    ∃ rows : List ResponseRow, (generateRows (fun _ => [])
        (fun body => .ok ⟨body, 1, "stop", some "v"⟩)
        ⟨["http://a"], 2, 2, "opsd-eval-17", none, ⟨1, 1, -1, 0, 16⟩, some "v"⟩
        [⟨"q", "AIME", "?"⟩] [[1]]
        [.enter 0, .enter 1, .answer 1 1 (.response 200 "second"),
          .answer 0 2 (.response 200 "first")]).gathered = some (.ok rows) ∧
      rows.length = 1 * 2 ∧ rows.map ResponseRow.text = ["first", "second"] := by
  have h := generateRows_spec (fun _ => []) (fun body => .ok ⟨body, 1, "stop", some "v"⟩)
    ⟨["http://a"], 2, 2, "opsd-eval-17", none, ⟨1, 1, -1, 0, 16⟩, some "v"⟩
    [⟨"q", "AIME", "?"⟩] [[1]] rfl
    [.enter 0, .enter 1, .answer 1 1 (.response 200 "second"), .answer 0 2 (.response 200 "first")]
  obtain ⟨-, -, -, -, hrows, -⟩ := h
  exact ⟨_, rfl, (hrows _ rfl).2.1, rfl⟩

end Crisp.Proofs
