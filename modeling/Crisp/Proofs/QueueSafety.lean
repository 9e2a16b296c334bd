import Crisp.Ref.EvaluationQueue

/-!
# No job is lost, doubled or retired early

The producer scans `pending`, `running` and `done` in the order a job moves
through them, so a job that was ever enqueued is ahead of the scan wherever the
worker carries it: that one fact is `ProducerInv` at the three scan points, and
it is why a scan that finds nothing may enqueue. The count that bounds the queue
is taken in the same order, so it can only be too high.

The worker's side is bookkeeping: `WorkerInv` is what its program counter knows
of the suites behind it. A step of one process respects the other's invariant
because of what the step cannot do, and that is stated once for each:
`WorkerEffect` and `Quiet`.
-/

namespace Crisp.Proofs

open Crisp.Lib Crisp.Ref

/-! ## What is said about a queue -/

/-- The names written to pending, newest first. -/
def enqueuedNames (log : List Event) : List String :=
  log.filterMap fun
    | .enqueued name _ => some name
    | _ => none

theorem mem_enqueuedNames {log : List Event} {name : String} :
    name ∈ enqueuedNames log ↔ ∃ job, .enqueued name job ∈ log := by
  unfold enqueuedNames
  rw [List.mem_filterMap]
  constructor
  · rintro ⟨event, hmem, hname⟩
    cases event with
    | enqueued n job => cases hname; exact ⟨job, hmem⟩
    | _ => cases hname
  · rintro ⟨job, hmem⟩
    exact ⟨_, hmem, rfl⟩

/-- The job is in one of the three directories it moves through. -/
def Somewhere (q : Queue) (name : String) : Prop :=
  name ∈ q.pending ∨ name ∈ q.running ∨ name ∈ q.done

/-- A suite of a job was evaluated: its source had the job's digest and the
pinned protocol, and its record passed every check. -/
def Evaluated (args : WorkerArgs) (log : List Event) (name : String) (job : Job)
    (suite : SuiteName) : Prop :=
  .pinned name suite job.checkpointSha256 args.protocol ∈ log ∧
  ∃ record, .verified name suite record ∈ log ∧ checkRecord args job suite record = .ok ()

/-- The same, and tracked where the job asks for it. -/
def Checked (args : WorkerArgs) (log : List Event) (name : String) (job : Job)
    (suite : SuiteName) : Prop :=
  Evaluated args log name job suite ∧ (job.wandb.isSome = true → .logged name suite ∈ log)

/-- What the directories and the history satisfy between any two steps. -/
structure SharedInv (args : WorkerArgs) (q : Queue) : Prop where
  kept : ∀ name ∈ enqueuedNames q.log, Somewhere q name
  once : (enqueuedNames q.log).Nodup
  capacity : Dir.count q.pending + Dir.count q.running ≤ 2
  owned : ∀ stage name job, (q.dir stage).lookup name = some job →
    .enqueued name job ∈ q.log
  evaluated : ∀ name job, q.done.lookup name = some job →
    ∀ suite ∈ job.evaluationSuites, Evaluated args q.log name job suite

/-- What the producer's program counter knows. A job that was ever enqueued is
still ahead of the scan. -/
def ProducerInv (q : Queue) : Prop :=
  match q.producer with
  | .scan call .running => call.name ∉ q.pending
  | .scan call .done => call.name ∈ enqueuedNames q.log → call.name ∈ q.done
  | .globPending call => call.name ∉ enqueuedNames q.log
  | .globRunning call pending =>
      call.name ∉ enqueuedNames q.log ∧ Dir.count q.pending ≤ pending
  | .writeTemporary call =>
      call.name ∉ enqueuedNames q.log ∧ Dir.count q.pending + Dir.count q.running ≤ 1
  | .rename call =>
      call.name ∉ enqueuedNames q.log ∧ Dir.count q.pending + Dir.count q.running ≤ 1
  | _ => True

/-- The suites of the job in hand that are not left to do are checked. -/
def Progress (args : WorkerArgs) (q : Queue) (name : String) (job : Job)
    (todo : List SuiteName) : Prop :=
  q.running.lookup name = some job ∧
  ∀ suite ∈ job.evaluationSuites, suite ∈ todo ∨ Checked args q.log name job suite

/-- What the worker's program counter knows. -/
def WorkerInv (args : WorkerArgs) (q : Queue) : Prop :=
  match q.worker with
  | .request name job => q.running.lookup name = some job
  | .pin name job suite rest => Progress args q name job (suite :: rest)
  | .evaluate name job suite rest =>
      Progress args q name job (suite :: rest) ∧
      .pinned name suite job.checkpointSha256 args.protocol ∈ q.log
  | .verify name job suite rest =>
      Progress args q name job (suite :: rest) ∧
      .pinned name suite job.checkpointSha256 args.protocol ∈ q.log
  | .track name job suite rest =>
      Progress args q name job (suite :: rest) ∧ Evaluated args q.log name job suite
  | .retire name job => Progress args q name job []
  | .remove name job => Progress args q name job [] ∧ job.temporarySnapshot = true
  | .writeDone name job => Progress args q name job []
  | .renameDone name job => Progress args q name job []
  | .unlink name _ => name ∈ q.done
  | _ => True

theorem Evaluated.mono {args : WorkerArgs} {log log' : List Event} {name : String}
    {job : Job} {suite : SuiteName} (hlog : ∀ e ∈ log, e ∈ log')
    (h : Evaluated args log name job suite) : Evaluated args log' name job suite := by
  obtain ⟨hpinned, record, hverified, hchecks⟩ := h
  exact ⟨hlog _ hpinned, record, hlog _ hverified, hchecks⟩

theorem Checked.mono {args : WorkerArgs} {log log' : List Event} {name : String}
    {job : Job} {suite : SuiteName} (hlog : ∀ e ∈ log, e ∈ log')
    (h : Checked args log name job suite) : Checked args log' name job suite :=
  ⟨h.1.mono hlog, fun ht => hlog _ (h.2 ht)⟩

theorem Progress.mono {args : WorkerArgs} {q q' : Queue} {name : String} {job : Job}
    {todo : List SuiteName} (hrunning : q'.running = q.running)
    (hlog : ∀ e ∈ q.log, e ∈ q'.log) (h : Progress args q name job todo) :
    Progress args q' name job todo := by
  refine ⟨by rw [hrunning]; exact h.1, fun suite hs => ?_⟩
  rcases h.2 suite hs with htodo | hchecked
  · exact Or.inl htodo
  · exact Or.inr (hchecked.mono hlog)

/-- Nothing but the worker moves what its invariant is about. -/
theorem WorkerInv.mono {args : WorkerArgs} {q q' : Queue} (hworker : q'.worker = q.worker)
    (hrunning : q'.running = q.running) (hdone : q'.done = q.done)
    (hlog : ∀ e ∈ q.log, e ∈ q'.log) (h : WorkerInv args q) : WorkerInv args q' := by
  unfold WorkerInv at h ⊢
  rw [hworker]
  split at h
  · rw [hrunning]; exact h
  · exact h.mono hrunning hlog
  · exact ⟨h.1.mono hrunning hlog, hlog _ h.2⟩
  · exact ⟨h.1.mono hrunning hlog, hlog _ h.2⟩
  · exact ⟨h.1.mono hrunning hlog, h.2.mono hlog⟩
  · exact h.mono hrunning hlog
  · exact ⟨h.1.mono hrunning hlog, h.2⟩
  · exact h.mono hrunning hlog
  · exact h.mono hrunning hlog
  · rw [hdone]; exact h
  · trivial

/-! ## The producer's steps -/

/-- Everything a step of the hook can be. -/
inductive ProducerMove (args : Args) (i : ProducerInput) (q : Queue) : Queue → Prop
  | raises (error) : ProducerMove args i q (q.raise error)
  | skips (hpc : q.producer = .idle)
      (hstart : startEnqueue args q.checkpoints i.rolloutId i.hfCheckpointDir = .ok none) :
      ProducerMove args i q q
  | begins {call} (hpc : q.producer = .idle)
      (hstart : startEnqueue args q.checkpoints i.rolloutId i.hfCheckpointDir =
        .ok (some call)) :
      ProducerMove args i q { q with producer := .globFailed false call }
  | noFailure {wait call} (hpc : q.producer = .globFailed wait call) :
      ProducerMove args i q { q with producer := .heartbeat wait call }
  | beats {call} (hpc : q.producer = .heartbeat false call) :
      ProducerMove args i q { q with producer := .scan call .pending }
  | beatsLast {call} (hpc : q.producer = .heartbeat true call) :
      ProducerMove args i q { q with producer := .waitDone call }
  | known {call stage} (hpc : q.producer = .scan call stage) (hname : call.name ∈ q.dir stage) :
      ProducerMove args i q { q with producer := .compareExists call .pending }
  | scans {call stage next} (hpc : q.producer = .scan call stage)
      (habsent : call.name ∉ q.dir stage) (hnext : stage.next = some next) :
      ProducerMove args i q { q with producer := .scan call next }
  | scansLast {call} (hpc : q.producer = .scan call .done) (habsent : call.name ∉ q.done) :
      ProducerMove args i q { q with producer := .globPending call }
  | finds {call stage} (hpc : q.producer = .compareExists call stage)
      (hname : call.name ∈ q.dir stage) :
      ProducerMove args i q { q with producer := .compareRead call stage }
  | passes {call stage} (hpc : q.producer = .compareExists call stage)
      (habsent : call.name ∉ q.dir stage) : ProducerMove args i q (q.compareNext call stage)
  | agrees {call stage previous} (hpc : q.producer = .compareRead call stage)
      (hjob : (q.dir stage).lookup call.name = some previous) :
      ProducerMove args i q (q.compareNext call stage)
  | countsPending {call} (hpc : q.producer = .globPending call) :
      ProducerMove args i q { q with producer := .globRunning call (Dir.count q.pending) }
  | hasRoom {call pending} (hpc : q.producer = .globRunning call pending)
      (hroom : pending + Dir.count q.running < 2) :
      ProducerMove args i q { q with producer := .writeTemporary call }
  | isFull {call pending} (hpc : q.producer = .globRunning call pending) :
      ProducerMove args i q { q with producer := .globFailed false call }
  | writes {call} (hpc : q.producer = .writeTemporary call) :
      ProducerMove args i q { q with producer := .rename call }
  | renames {call} (hpc : q.producer = .rename call) :
      ProducerMove args i q
        (Queue.leaveLoop
          { q with
            pending := q.pending.insert call.name call.job
            log := .enqueued call.name call.job :: q.log } call)
  | isDone {call} (hpc : q.producer = .waitDone call) (hname : call.name ∈ q.done) :
      ProducerMove args i q (q.finish call)
  | waits {call} (hpc : q.producer = .waitDone call) (habsent : call.name ∉ q.done) :
      ProducerMove args i q { q with producer := .globFailed true call }

theorem producerStep_cases (args : Args) (i : ProducerInput) (q : Queue) :
    ProducerMove args i q (producerStep args i q) := by
  unfold producerStep
  split
  · exact .raises _
  · next hpc =>
      split
      · exact .raises _
      · next hstart => exact .skips hpc hstart
      · next hstart => exact .begins hpc hstart
  · next hpc =>
      split
      · exact .raises _
      · exact .noFailure hpc
  · next wait _ _ hpc =>
      split
      · exact .raises _
      · split
        · exact .raises _
        · cases wait with
          | true => exact .beatsLast hpc
          | false => exact .beats hpc
  · next stage _ hpc =>
      split
      · next hname => exact .known hpc hname
      · next habsent =>
          cases stage with
          | pending => exact .scans hpc habsent rfl
          | running => exact .scans hpc habsent rfl
          | done => exact .scansLast hpc habsent
  · next hpc =>
      split
      · next hname => exact .finds hpc hname
      · next habsent => exact .passes hpc habsent
  · next hpc =>
      split
      · exact .raises _
      · next hjob =>
          split
          · exact .raises _
          · split
            · exact .raises _
            · exact .agrees hpc hjob
  · next hpc => exact .countsPending hpc
  · next hpc =>
      split
      · next hroom => exact .hasRoom hpc hroom
      · exact .isFull hpc
  · next hpc => exact .writes hpc
  · next hpc => exact .renames hpc
  · next hpc =>
      split
      · next hname => exact .isDone hpc hname
      · next habsent => exact .waits hpc habsent

/-- A step of the producer that moves no file: it may only end the call. -/
structure Quiet (q q' : Queue) : Prop where
  pending : q'.pending = q.pending
  running : q'.running = q.running
  done : q'.done = q.done
  checkpoints : q'.checkpoints = q.checkpoints
  worker : q'.worker = q.worker
  log : ∀ e ∈ q.log, e ∈ q'.log
  names : enqueuedNames q'.log = enqueuedNames q.log

theorem Quiet.move (q : Queue) (pc : ProducerPc) : Quiet q { q with producer := pc } :=
  ⟨rfl, rfl, rfl, rfl, rfl, fun _ h => h, rfl⟩

theorem Quiet.refl (q : Queue) : Quiet q q :=
  ⟨rfl, rfl, rfl, rfl, rfl, fun _ h => h, rfl⟩

theorem Quiet.raise (q : Queue) (error : PyError) : Quiet q (q.raise error) :=
  ⟨rfl, rfl, rfl, rfl, rfl, fun _ h => List.mem_cons_of_mem _ h, rfl⟩

theorem Quiet.finish (q : Queue) (call : Enqueue) : Quiet q (q.finish call) :=
  ⟨rfl, rfl, rfl, rfl, rfl, fun _ h => List.mem_cons_of_mem _ h, rfl⟩

theorem Quiet.leaveLoop (q : Queue) (call : Enqueue) : Quiet q (q.leaveLoop call) := by
  unfold Queue.leaveLoop
  split
  · exact Quiet.move q _
  · exact Quiet.finish q call

theorem Quiet.compareNext (q : Queue) (call : Enqueue) (stage : Stage) :
    Quiet q (q.compareNext call stage) := by
  unfold Queue.compareNext
  split
  · exact Quiet.move q _
  · exact Quiet.leaveLoop q call

/-- The one write of the producer: the job of its call goes to `pending`. -/
structure Writes (call : Enqueue) (q q' : Queue) : Prop where
  pending : q'.pending = q.pending.insert call.name call.job
  running : q'.running = q.running
  done : q'.done = q.done
  checkpoints : q'.checkpoints = q.checkpoints
  worker : q'.worker = q.worker
  log : ∀ e ∈ .enqueued call.name call.job :: q.log, e ∈ q'.log
  names : enqueuedNames q'.log = call.name :: enqueuedNames q.log

theorem Writes.leaveLoop (q : Queue) (call : Enqueue) :
    Writes call q (Queue.leaveLoop
      { q with
        pending := q.pending.insert call.name call.job
        log := .enqueued call.name call.job :: q.log } call) := by
  have h := Quiet.leaveLoop
    { q with
      pending := q.pending.insert call.name call.job
      log := .enqueued call.name call.job :: q.log } call
  exact ⟨h.pending, h.running, h.done, h.checkpoints, h.worker, h.log, h.names⟩

/-- What a step of the hook does to what is shared. -/
theorem ProducerMove.effect {args : Args} {i : ProducerInput} {q q' : Queue}
    (hmove : ProducerMove args i q q') :
    Quiet q q' ∨ ∃ call, q.producer = .rename call ∧ Writes call q q' := by
  cases hmove with
  | raises error => exact Or.inl (Quiet.raise q error)
  | skips _ _ => exact Or.inl (Quiet.refl q)
  | passes _ _ => exact Or.inl (Quiet.compareNext q _ _)
  | agrees _ _ => exact Or.inl (Quiet.compareNext q _ _)
  | renames hpc => exact Or.inr ⟨_, hpc, Writes.leaveLoop q _⟩
  | isDone _ _ => exact Or.inl (Quiet.finish q _)
  | _ => exact Or.inl (Quiet.move q _)

theorem producerStep_effect (args : Args) (i : ProducerInput) (q : Queue) :
    Quiet q (producerStep args i q) ∨
      ∃ call, q.producer = .rename call ∧ Writes call q (producerStep args i q) :=
  (producerStep_cases args i q).effect

theorem Quiet.dir {q q' : Queue} (h : Quiet q q') (stage : Stage) :
    q'.dir stage = q.dir stage := by
  cases stage with
  | pending => exact h.pending
  | running => exact h.running
  | done => exact h.done

theorem SharedInv.quiet {args : WorkerArgs} {q q' : Queue} (h : SharedInv args q)
    (hq : Quiet q q') : SharedInv args q' := by
  refine ⟨?_, ?_, ?_, ?_, ?_⟩
  · intro name hname
    rw [hq.names] at hname
    have := h.kept name hname
    unfold Somewhere at this ⊢
    rwa [hq.pending, hq.running, hq.done]
  · rw [hq.names]
    exact h.once
  · rw [hq.pending, hq.running]
    exact h.capacity
  · intro stage name job hjob
    rw [hq.dir] at hjob
    exact hq.log _ (h.owned stage name job hjob)
  · intro name job hjob suite hs
    rw [hq.done] at hjob
    exact (h.evaluated name job hjob suite hs).mono hq.log

theorem Writes.dir {call : Enqueue} {q q' : Queue} (h : Writes call q q') {stage : Stage}
    {name : String} {job : Job} (hjob : (q'.dir stage).lookup name = some job) :
    (q.dir stage).lookup name = some job ∨ name = call.name ∧ job = call.job := by
  cases stage with
  | pending =>
      rw [show q'.dir .pending = q.pending.insert call.name call.job from h.pending] at hjob
      rcases Dir.lookup_insert_eq hjob with hnew | hold
      · exact Or.inr hnew
      · exact Or.inl hold
  | running =>
      rw [show q'.dir .running = q.dir .running from h.running] at hjob
      exact Or.inl hjob
  | done =>
      rw [show q'.dir .done = q.dir .done from h.done] at hjob
      exact Or.inl hjob

theorem SharedInv.enqueue {args : WorkerArgs} {q q' : Queue} {call : Enqueue}
    (h : SharedInv args q) (hw : Writes call q q') (hfresh : call.name ∉ enqueuedNames q.log)
    (hroom : Dir.count q.pending + Dir.count q.running ≤ 1) : SharedInv args q' := by
  have hlog : ∀ e ∈ q.log, e ∈ q'.log := fun e he => hw.log e (List.mem_cons_of_mem _ he)
  refine ⟨?_, ?_, ?_, ?_, ?_⟩
  · intro name hname
    rw [hw.names] at hname
    unfold Somewhere
    rw [hw.pending, hw.running, hw.done, AList.mem_insert]
    rcases List.mem_cons.mp hname with rfl | hold
    · exact Or.inl (Or.inl rfl)
    · exact (h.kept name hold).imp_left Or.inr
  · rw [hw.names]
    exact List.nodup_cons.mpr ⟨hfresh, h.once⟩
  · have := Dir.count_insert_le q.pending call.name call.job
    rw [hw.pending, hw.running]
    omega
  · intro stage name job hjob
    rcases hw.dir hjob with hold | ⟨rfl, rfl⟩
    · exact hlog _ (h.owned stage name job hold)
    · exact hw.log _ List.mem_cons_self
  · intro name job hjob suite hs
    rw [hw.done] at hjob
    exact (h.evaluated name job hjob suite hs).mono hlog

/-- What the producer knows when it is about to write. -/
theorem ProducerInv.rename {q : Queue} {call : Enqueue} (h : ProducerInv q)
    (hpc : q.producer = .rename call) :
    call.name ∉ enqueuedNames q.log ∧ Dir.count q.pending + Dir.count q.running ≤ 1 := by
  unfold ProducerInv at h
  rw [hpc] at h
  exact h

theorem producerInv_finished {q : Queue} (h : q.producer = .idle ∨
    ∃ call, q.producer = .waitDone call) : ProducerInv q := by
  unfold ProducerInv
  rcases h with h | ⟨call, h⟩
  · rw [h]; trivial
  · rw [h]; trivial

theorem producerInv_leaveLoop (q : Queue) (call : Enqueue) :
    ProducerInv (q.leaveLoop call) := by
  unfold Queue.leaveLoop
  split
  · exact producerInv_finished (Or.inr ⟨call, rfl⟩)
  · exact producerInv_finished (Or.inl rfl)

theorem producerInv_compareNext (q : Queue) (call : Enqueue) (stage : Stage) :
    ProducerInv (q.compareNext call stage) := by
  unfold Queue.compareNext
  split
  · trivial
  · exact producerInv_leaveLoop q call

/-- A producer step keeps what the producer knows. -/
theorem ProducerMove.inv {args : WorkerArgs} {runArgs : Args} {i : ProducerInput}
    {q q' : Queue} (hmove : ProducerMove runArgs i q q') (hshared : SharedInv args q)
    (h : ProducerInv q) : ProducerInv q' := by
  have hinv := h
  unfold ProducerInv at h
  cases hmove with
  | raises error => exact producerInv_finished (Or.inl rfl)
  | skips _ _ => exact hinv
  | @scans call stage next hpc habsent hnext =>
      rw [hpc] at h
      -- What the scan has passed, an enqueued job has passed too.
      cases stage with
      | pending =>
          cases hnext
          exact habsent
      | running =>
          cases hnext
          intro hname
          rcases hshared.kept call.name hname with hp | hr | hd
          · exact absurd hp h
          · exact absurd hr habsent
          · exact hd
      | done => cases hnext
  | scansLast hpc habsent =>
      rw [hpc] at h
      exact fun hname => habsent (h hname)
  | passes _ _ => exact producerInv_compareNext q _ _
  | agrees _ _ => exact producerInv_compareNext q _ _
  | countsPending hpc =>
      rw [hpc] at h
      exact ⟨h, le_rfl⟩
  | hasRoom hpc hroom =>
      rw [hpc] at h
      obtain ⟨hfresh, hcount⟩ := h
      refine ⟨hfresh, ?_⟩
      show Dir.count q.pending + Dir.count q.running ≤ 1
      omega
  | writes hpc =>
      rw [hpc] at h
      exact h
  | renames _ => exact producerInv_leaveLoop _ _
  | isDone _ _ => exact producerInv_finished (Or.inl rfl)
  | _ => trivial

/-! ## The worker's steps -/

/-- Everything a step of the worker can be. Only the removal has something to
leave behind when it is interrupted. -/
inductive WorkerMove (args : WorkerArgs) (i : WorkerInput) (q : Queue) : Queue → Prop
  | interrupted {name job} (hpc : q.worker = .remove name job) :
      WorkerMove args i q
        { q with
          checkpoints := fun path =>
            if path = job.checkpoint then i.left else q.checkpoints path
          worker := .writeFailed name job
          log := .deleted name job.checkpoint :: q.log }
  | fails (hpc : ∀ name job, q.worker ≠ .remove name job) : WorkerMove args i q q.workerFails
  | turns {pc} (hpc : q.worker = .loop) (hnext : pc = .stopped ∨ pc = .globPending) :
      WorkerMove args i q { q with worker := pc }
  | rests (hpc : q.worker = .globPending) : WorkerMove args i q { q with worker := .loop }
  | picks {name} (hpc : q.worker = .globPending)
      (hfirst : firstSorted q.pending.keys = some name) :
      WorkerMove args i q { q with worker := .move name }
  | loses {name} (hpc : q.worker = .move name ∨ q.worker = .read name) :
      WorkerMove args i q { q with worker := .stopped }
  | takes {name job} (hpc : q.worker = .move name)
      (hjob : q.pending.lookup name = some job) :
      WorkerMove args i q
        { q with
          pending := q.pending.erase name
          running := q.running.insert name job
          worker := .read name }
  | reads {name job} (hpc : q.worker = .read name)
      (hjob : q.running.lookup name = some job) :
      WorkerMove args i q { q with worker := .request name job }
  | requests {name job names} (hpc : q.worker = .request name job)
      (hnames : requestedSuites args job = .ok names) :
      WorkerMove args i q { q with worker := .nextSuite name job names }
  | pins {name job suite rest} (hpc : q.worker = .pin name job suite rest)
      (hdigest : checkpointDigest (q.checkpoints job.checkpoint) = .ok job.checkpointSha256) :
      WorkerMove args i q
        { q with
          worker := .evaluate name job suite rest
          log := .pinned name suite job.checkpointSha256 args.protocol :: q.log }
  | evaluates {name job suite rest} (hpc : q.worker = .evaluate name job suite rest) :
      WorkerMove args i q { q with worker := .verify name job suite rest }
  | verifies {name job suite rest} (hpc : q.worker = .verify name job suite rest)
      (hrecord : checkRecord args job suite i.record = .ok ⟨⟩) :
      WorkerMove args i q
        { q with
          worker :=
            if job.wandb.isSome then .track name job suite rest
            else .nextSuite name job rest
          log := .verified name suite i.record :: q.log }
  | tracks {name job suite rest} (hpc : q.worker = .track name job suite rest) :
      WorkerMove args i q
        { q with worker := .nextSuite name job rest, log := .logged name suite :: q.log }
  | retires {name job} (hpc : q.worker = .retire name job)
      (hcheck : retireCheck q.checkpoints job = .ok true) :
      WorkerMove args i q { q with worker := .remove name job }
  | keeps {name job} (hpc : q.worker = .retire name job)
      (hcheck : retireCheck q.checkpoints job = .ok false) :
      WorkerMove args i q { q with worker := .writeDone name job }
  | removes {name job} (hpc : q.worker = .remove name job) :
      WorkerMove args i q
        { q with
          checkpoints := fun path =>
            if path = job.checkpoint then none else q.checkpoints path
          worker := .writeDone name job
          log := .deleted name job.checkpoint :: q.log }
  | writesDone {name job} (hpc : q.worker = .writeDone name job) :
      WorkerMove args i q { q with worker := .renameDone name job }
  | recordsDone {name job} (hpc : q.worker = .renameDone name job) :
      WorkerMove args i q
        { q with done := q.done.insert name job, worker := .unlink name job }
  | unlinks {name job} (hpc : q.worker = .unlink name job) :
      WorkerMove args i q { q with running := q.running.erase name, worker := .loop }
  | writesFailed {name job} (hpc : q.worker = .writeFailed name job) :
      WorkerMove args i q { q with worker := .renameFailed name job }
  | recordsFailed {name job} (hpc : q.worker = .renameFailed name job) :
      WorkerMove args i q { q with failed := q.failed.insert name job, worker := .stopped }
  | stays (hpc : q.worker = .stopped) : WorkerMove args i q q

theorem interruptedRemoval_move (args : WorkerArgs) (i : WorkerInput) (q : Queue) :
    WorkerMove args i q (q.interruptedRemoval i.left) := by
  unfold Queue.interruptedRemoval
  split
  · next hpc => exact .interrupted hpc
  · next hnot => exact .fails hnot

theorem workerStep_cases (args : WorkerArgs) (i : WorkerInput) (q : Queue) :
    WorkerMove args i q (workerStep args i q) := by
  have hfails : ∀ {pc}, q.worker = pc → (∀ name job, pc ≠ .remove name job) →
      WorkerMove args i q q.workerFails := fun hpc hnot => .fails (hpc ▸ hnot)
  unfold workerStep
  split
  · exact interruptedRemoval_move args i q
  · split
    · next hpc =>
        repeat' split
        · exact .turns hpc (Or.inl rfl)
        · exact .turns hpc (Or.inl rfl)
        · exact .turns hpc (Or.inr rfl)
    · next hpc =>
        split
        · exact .rests hpc
        · next hfirst => exact .picks hpc hfirst
    · next hpc =>
        split
        · exact .loses (Or.inl hpc)
        · next hjob => exact .takes hpc hjob
    · next hpc =>
        split
        · exact .loses (Or.inr hpc)
        · next hjob => exact .reads hpc hjob
    · next hpc =>
        split
        · exact hfails hpc nofun
        · next hnames =>
            split
            · exact .requests hpc hnames
            · exact hfails hpc nofun
    · next hpc =>
        split
        · exact hfails hpc nofun
        · next hdigest =>
            split
            · next hsource =>
                rw [hsource.1, hsource.2]
                exact .pins hpc (hsource.2 ▸ hdigest)
            · exact hfails hpc nofun
    · next hpc =>
        split
        · exact .evaluates hpc
        · exact hfails hpc nofun
    · next hpc =>
        split
        · exact hfails hpc nofun
        · next hrecord => exact .verifies hpc hrecord
    · next hpc => exact .tracks hpc
    · next hpc =>
        split
        · exact hfails hpc nofun
        · next hcheck => exact .retires hpc hcheck
        · next hcheck => exact .keeps hpc hcheck
    · next hpc => exact .removes hpc
    · next hpc => exact .writesDone hpc
    · next hpc => exact .recordsDone hpc
    · next hpc => exact .unlinks hpc
    · next hpc => exact .writesFailed hpc
    · next hpc => exact .recordsFailed hpc
    · next hpc => exact .stays hpc

/-- What a worker step may do to what is shared: jobs only move on, a job that
arrives in `done` has been evaluated, and the history gains no enqueue. -/
structure WorkerEffect (args : WorkerArgs) (q q' : Queue) : Prop where
  producer : q'.producer = q.producer
  log : ∀ e ∈ q.log, e ∈ q'.log
  names : enqueuedNames q'.log = enqueuedNames q.log
  pending : ∀ name ∈ q'.pending, name ∈ q.pending
  pending_count : Dir.count q'.pending ≤ Dir.count q.pending
  count : Dir.count q'.pending + Dir.count q'.running ≤
    Dir.count q.pending + Dir.count q.running
  done : ∀ name ∈ q.done, name ∈ q'.done
  kept : ∀ name, Somewhere q name → Somewhere q' name
  owned : ∀ stage name job, (q'.dir stage).lookup name = some job →
    ∃ before, (q.dir before).lookup name = some job
  completed : ∀ name job, q'.done.lookup name = some job →
    q.done.lookup name = some job ∨
      ∀ suite ∈ job.evaluationSuites, Evaluated args q.log name job suite

/-- A step that moves no job. -/
theorem WorkerEffect.still {args : WorkerArgs} {q q' : Queue}
    (hpending : q'.pending = q.pending) (hrunning : q'.running = q.running)
    (hdone : q'.done = q.done) (hproducer : q'.producer = q.producer)
    (hlog : ∀ e ∈ q.log, e ∈ q'.log) (hnames : enqueuedNames q'.log = enqueuedNames q.log) :
    WorkerEffect args q q' := by
  refine ⟨hproducer, hlog, hnames, ?_, ?_, ?_, ?_, ?_, ?_, ?_⟩
  · rw [hpending]; exact fun _ h => h
  · rw [hpending]
  · rw [hpending, hrunning]
  · rw [hdone]; exact fun _ h => h
  · unfold Somewhere
    rw [hpending, hrunning, hdone]
    exact fun _ h => h
  · intro stage name job h
    refine ⟨stage, ?_⟩
    cases stage with
    | pending => rw [← h]; exact congrArg _ hpending.symm
    | running => rw [← h]; exact congrArg _ hrunning.symm
    | done => rw [← h]; exact congrArg _ hdone.symm
  · rw [hdone]
    exact fun _ _ h => Or.inl h

theorem WorkerEffect.move_pc {args : WorkerArgs} (q : Queue) (pc : WorkerPc) :
    WorkerEffect args q { q with worker := pc } :=
  WorkerEffect.still rfl rfl rfl rfl (fun _ h => h) rfl

/-- `pending[0].replace(active)`. -/
theorem WorkerEffect.start {args : WorkerArgs} {q : Queue} {name : String} {job : Job}
    (h : q.pending.lookup name = some job) (pc : WorkerPc) :
    WorkerEffect args q
      { q with
        pending := q.pending.erase name
        running := q.running.insert name job
        worker := pc } := by
  have hmem := Dir.mem_of_lookup h
  refine ⟨rfl, fun _ he => he, rfl, ?_, Dir.count_erase_le _ _,
    Dir.count_rename_le hmem job, fun _ hd => hd, ?_, ?_, fun _ _ hd => Or.inl hd⟩
  · intro n hn
    exact (AList.mem_erase.mp hn).2
  · intro n hn
    by_cases heq : n = name
    · exact Or.inr (Or.inl ((AList.mem_insert _).mpr (Or.inl heq)))
    · rcases hn with hp | hr | hd
      · exact Or.inl (AList.mem_erase.mpr ⟨heq, hp⟩)
      · exact Or.inr (Or.inl ((AList.mem_insert _).mpr (Or.inr hr)))
      · exact Or.inr (Or.inr hd)
  · intro stage n j hj
    cases stage with
    | pending => exact ⟨.pending, (Dir.lookup_erase_eq hj).2⟩
    | running =>
        rcases Dir.lookup_insert_eq hj with ⟨rfl, rfl⟩ | hold
        · exact ⟨.pending, h⟩
        · exact ⟨.running, hold⟩
    | done => exact ⟨.done, hj⟩

/-- The rename that records a result. -/
theorem WorkerEffect.complete {args : WorkerArgs} {q : Queue} {name : String} {job : Job}
    (h : Progress args q name job []) (pc : WorkerPc) :
    WorkerEffect args q { q with done := q.done.insert name job, worker := pc } := by
  have hevaluated : ∀ suite ∈ job.evaluationSuites, Evaluated args q.log name job suite := by
    intro suite hs
    rcases h.2 suite hs with hnil | hchecked
    · cases hnil
    · exact hchecked.1
  refine ⟨rfl, fun _ he => he, rfl, fun _ hp => hp, le_rfl, le_rfl, ?_, ?_, ?_, ?_⟩
  · intro n hn
    exact (AList.mem_insert _).mpr (Or.inr hn)
  · intro n hn
    rcases hn with hp | hr | hd
    · exact Or.inl hp
    · exact Or.inr (Or.inl hr)
    · exact Or.inr (Or.inr ((AList.mem_insert _).mpr (Or.inr hd)))
  · intro stage n j hj
    cases stage with
    | pending => exact ⟨.pending, hj⟩
    | running => exact ⟨.running, hj⟩
    | done =>
        rcases Dir.lookup_insert_eq hj with ⟨rfl, rfl⟩ | hold
        · exact ⟨.running, h.1⟩
        · exact ⟨.done, hold⟩
  · intro n j hj
    rcases Dir.lookup_insert_eq hj with ⟨rfl, rfl⟩ | hold
    · exact Or.inr hevaluated
    · exact Or.inl hold

/-- `active.unlink()`, once the result is recorded. -/
theorem WorkerEffect.unlink {args : WorkerArgs} {q : Queue} {name : String}
    (h : name ∈ q.done) (pc : WorkerPc) :
    WorkerEffect args q { q with running := q.running.erase name, worker := pc } := by
  refine ⟨rfl, fun _ he => he, rfl, fun _ hp => hp, le_rfl, ?_, fun _ hd => hd, ?_, ?_,
    fun _ _ hd => Or.inl hd⟩
  · have := Dir.count_erase_le q.running name
    show Dir.count q.pending + Dir.count (q.running.erase name) ≤ _
    omega
  · intro n hn
    rcases hn with hp | hr | hd
    · exact Or.inl hp
    · by_cases heq : n = name
      · exact Or.inr (Or.inr (heq ▸ h))
      · exact Or.inr (Or.inl (AList.mem_erase.mpr ⟨heq, hr⟩))
    · exact Or.inr (Or.inr hd)
  · intro stage n j hj
    cases stage with
    | pending => exact ⟨.pending, hj⟩
    | running => exact ⟨.running, (Dir.lookup_erase_eq hj).2⟩
    | done => exact ⟨.done, hj⟩

/-- A step that only logs. -/
theorem WorkerEffect.logs {args : WorkerArgs} {q : Queue} {pc : WorkerPc} {event : Event}
    {checkpoints : Path → Option Snapshot}
    (hevent : enqueuedNames (event :: q.log) = enqueuedNames q.log) :
    WorkerEffect args q { q with checkpoints, worker := pc, log := event :: q.log } :=
  WorkerEffect.still rfl rfl rfl rfl (fun _ he => List.mem_cons_of_mem _ he) hevent

theorem WorkerMove.effect {args : WorkerArgs} {i : WorkerInput} {q q' : Queue}
    (hmove : WorkerMove args i q q') (h : WorkerInv args q) : WorkerEffect args q q' := by
  unfold WorkerInv at h
  cases hmove with
  | interrupted => exact WorkerEffect.logs rfl
  | takes _ hjob => exact WorkerEffect.start hjob _
  | pins => exact WorkerEffect.logs rfl
  | verifies => exact WorkerEffect.logs rfl
  | tracks => exact WorkerEffect.logs rfl
  | removes => exact WorkerEffect.logs rfl
  | recordsDone hpc =>
      rw [hpc] at h
      exact WorkerEffect.complete h _
  | unlinks hpc =>
      rw [hpc] at h
      exact WorkerEffect.unlink h _
  | recordsFailed => exact WorkerEffect.still rfl rfl rfl rfl (fun _ he => he) rfl
  | stays => exact WorkerEffect.move_pc q q.worker
  | _ => exact WorkerEffect.move_pc q _

/-- Everything a worker step can do to what is shared. -/
theorem workerStep_effect {args : WorkerArgs} {q : Queue} (h : WorkerInv args q)
    (i : WorkerInput) : WorkerEffect args q (workerStep args i q) :=
  (workerStep_cases args i q).effect h

theorem SharedInv.worker {args : WorkerArgs} {q q' : Queue} (h : SharedInv args q)
    (he : WorkerEffect args q q') : SharedInv args q' := by
  refine ⟨?_, ?_, he.count.trans h.capacity, ?_, ?_⟩
  · intro name hname
    rw [he.names] at hname
    exact he.kept name (h.kept name hname)
  · rw [he.names]
    exact h.once
  · intro stage name job hjob
    obtain ⟨before, hbefore⟩ := he.owned stage name job hjob
    exact he.log _ (h.owned before name job hbefore)
  · intro name job hjob suite hs
    rcases he.completed name job hjob with hold | hnew
    · exact (h.evaluated name job hold suite hs).mono he.log
    · exact (hnew suite hs).mono he.log

/-- What the producer knows survives the worker. -/
theorem ProducerInv.worker {args : WorkerArgs} {q q' : Queue} (h : ProducerInv q)
    (he : WorkerEffect args q q') : ProducerInv q' := by
  have hcount := he.count
  unfold ProducerInv at h ⊢
  rw [he.producer]
  split at h
  · exact fun hp => h (he.pending _ hp)
  · rw [he.names]
    exact fun hname => he.done _ (h hname)
  · rw [he.names]
    exact h
  · rw [he.names]
    exact ⟨h.1, he.pending_count.trans h.2⟩
  · rw [he.names]
    exact ⟨h.1, by omega⟩
  · rw [he.names]
    exact ⟨h.1, by omega⟩
  · trivial

/-- After a suite of the job in hand, the next one or its completion. -/
theorem workerInv_nextSuite {args : WorkerArgs} {q : Queue} {name : String} {job : Job}
    {rest : List SuiteName} (h : Progress args q name job rest)
    (hworker : q.worker = .nextSuite name job rest) : WorkerInv args q := by
  unfold WorkerInv
  rw [hworker]
  cases rest with
  | nil => exact h
  | cons suite rest => exact h

theorem workerInv_failure {args : WorkerArgs} {q : Queue} {pc : WorkerPc}
    (h : q.worker = pc.failure) : WorkerInv args q := by
  unfold WorkerInv
  rw [h]
  cases pc <;> trivial

/-- A step past the first suite to do. -/
theorem Progress.advance {args : WorkerArgs} {q q' : Queue} {name : String} {job : Job}
    {suite : SuiteName} {rest : List SuiteName}
    (h : Progress args q name job (suite :: rest)) (hrunning : q'.running = q.running)
    (hlog : ∀ e ∈ q.log, e ∈ q'.log) (hchecked : Checked args q'.log name job suite) :
    Progress args q' name job rest := by
  refine ⟨by rw [hrunning]; exact h.1, fun other hs => ?_⟩
  rcases h.2 other hs with htodo | hdone
  · rcases List.mem_cons.mp htodo with rfl | hrest
    · exact Or.inr hchecked
    · exact Or.inl hrest
  · exact Or.inr (hdone.mono hlog)

theorem requestedSuites_ok {args : WorkerArgs} {job : Job} {names : List SuiteName}
    (h : requestedSuites args job = .ok names) : names = job.evaluationSuites := by
  simp only [requestedSuites, except_bind_eq_ok, check_eq_ok] at h
  obtain ⟨-, -, -, -, hnames⟩ := h
  injection hnames with hnames
  exact hnames.symm

theorem retireCheck_true {checkpoints : Path → Option Snapshot} {job : Job}
    (h : retireCheck checkpoints job = .ok true) : job.temporarySnapshot = true := by
  unfold retireCheck at h
  split at h
  · cases h
  · next hkeep => exact Bool.eq_true_of_not_eq_false hkeep

theorem WorkerMove.inv {args : WorkerArgs} {i : WorkerInput} {q q' : Queue}
    (hmove : WorkerMove args i q q') (h : WorkerInv args q) : WorkerInv args q' := by
  have hsub : ∀ (event e : Event), e ∈ q.log → e ∈ event :: q.log := fun _ _ he =>
    List.mem_cons_of_mem _ he
  unfold WorkerInv at h
  cases hmove with
  | interrupted => trivial
  | fails => exact @workerInv_failure args _ q.worker rfl
  | turns _ hnext => rcases hnext with rfl | rfl <;> trivial
  | rests => trivial
  | picks => trivial
  | loses => trivial
  | takes => trivial
  | reads _ hjob => exact hjob
  | requests hpc hnames =>
      rw [hpc] at h
      obtain rfl := requestedSuites_ok hnames
      exact workerInv_nextSuite ⟨h, fun suite hs => Or.inl hs⟩ rfl
  | pins hpc =>
      rw [hpc] at h
      exact ⟨h.mono (rfl : q.running = q.running) (hsub _), List.mem_cons_self⟩
  | evaluates hpc =>
      rw [hpc] at h
      exact h
  | @verifies name job suite rest hpc hrecord =>
      rw [hpc] at h
      have hevaluated : Evaluated args (.verified name suite i.record :: q.log) name job suite :=
        ⟨hsub _ _ h.2, i.record, List.mem_cons_self, hrecord⟩
      by_cases htracked : job.wandb.isSome = true
      · simp only [htracked, if_true]
        exact ⟨h.1.mono (rfl : q.running = q.running) (hsub _), hevaluated⟩
      · simp only [htracked]
        exact workerInv_nextSuite
          (h.1.advance rfl (hsub _) ⟨hevaluated, fun ht => absurd ht htracked⟩) rfl
  | tracks hpc =>
      rw [hpc] at h
      refine workerInv_nextSuite (h.1.advance rfl (hsub _) ?_) rfl
      exact ⟨h.2.mono (hsub _), fun _ => List.mem_cons_self⟩
  | retires hpc hcheck =>
      rw [hpc] at h
      exact ⟨h, retireCheck_true hcheck⟩
  | keeps hpc =>
      rw [hpc] at h
      exact h
  | removes hpc =>
      rw [hpc] at h
      exact h.1.mono (rfl : q.running = q.running) (hsub _)
  | writesDone hpc =>
      rw [hpc] at h
      exact h
  | recordsDone => exact (AList.mem_insert _).mpr (Or.inl rfl)
  | unlinks => trivial
  | writesFailed => trivial
  | recordsFailed => trivial
  | stays hpc =>
      unfold WorkerInv
      rw [hpc]
      trivial

/-- A worker step keeps what the worker knows. -/
theorem workerStep_inv {args : WorkerArgs} {q : Queue} (h : WorkerInv args q)
    (i : WorkerInput) : WorkerInv args (workerStep args i q) :=
  (workerStep_cases args i q).inv h

/-! ## Runs -/

structure QueueInv (args : WorkerArgs) (q : Queue) : Prop where
  shared : SharedInv args q
  producer : ProducerInv q
  worker : WorkerInv args q

theorem queueInv_fresh (args : WorkerArgs) (checkpoints : Path → Option Snapshot) :
    QueueInv args (Queue.fresh checkpoints) := by
  refine ⟨⟨?_, List.nodup_nil, Nat.zero_le 2, ?_, ?_⟩, trivial, trivial⟩
  · intro name hname
    cases hname
  · intro stage name job hjob
    cases stage <;> cases hjob
  · intro name job hjob
    cases hjob

theorem QueueInv.step {workerArgs : WorkerArgs} {q : Queue} (args : Args)
    (input : QueueInput) (h : QueueInv workerArgs q) :
    QueueInv workerArgs (queueStep args workerArgs q input) := by
  cases input with
  | producer i =>
      have hproducer := (producerStep_cases args i q).inv h.shared h.producer
      rcases producerStep_effect args i q with hquiet | ⟨call, hpc, hwrite⟩
      · exact ⟨h.shared.quiet hquiet, hproducer,
          h.worker.mono hquiet.worker hquiet.running hquiet.done hquiet.log⟩
      · obtain ⟨hfresh, hroom⟩ := h.producer.rename hpc
        exact ⟨h.shared.enqueue hwrite hfresh hroom, hproducer,
          h.worker.mono hwrite.worker hwrite.running hwrite.done
            fun e he => hwrite.log e (List.mem_cons_of_mem _ he)⟩
  | worker i =>
      have heffect := workerStep_effect h.worker i
      exact ⟨h.shared.worker heffect, h.producer.worker heffect, workerStep_inv h.worker i⟩
  | exported path snapshot =>
      exact ⟨⟨h.shared.kept, h.shared.once, h.shared.capacity, h.shared.owned,
        h.shared.evaluated⟩, h.producer,
        h.worker.mono rfl rfl rfl fun _ he => he⟩

theorem queueRun_inv (args : Args) (workerArgs : WorkerArgs)
    (checkpoints : Path → Option Snapshot) (inputs : List QueueInput) :
    QueueInv workerArgs (queueRun args workerArgs checkpoints inputs) :=
  invariant_run (fun _ i h => h.step args i) (queueInv_fresh workerArgs checkpoints) inputs

/-- The only step that takes a snapshot away is the worker's removal. -/
theorem WorkerMove.checkpoints {args : WorkerArgs} {i : WorkerInput} {q q' : Queue}
    (hmove : WorkerMove args i q q') {path : Path}
    (h : q'.checkpoints path ≠ q.checkpoints path) :
    ∃ name job, q.worker = .remove name job ∧ path = job.checkpoint := by
  cases hmove with
  | @interrupted name job hpc =>
      refine ⟨name, job, hpc, ?_⟩
      by_contra hne
      exact h (if_neg hne)
  | @removes name job hpc =>
      refine ⟨name, job, hpc, ?_⟩
      by_contra hne
      exact h (if_neg hne)
  | _ => exact absurd rfl h

/-- **Queue safety.** In every state an interleaving reaches: an enqueued job is
in one of its directories, each name was written to pending once at most, at
most two jobs wait or run, whatever is in `done` was evaluated suite by suite,
and a step that is not an export of the trainer's takes a snapshot away only
for a running job that owns it and has every suite verified and tracked. -/
theorem queue_safe (args : Args) (workerArgs : WorkerArgs)
    (checkpoints : Path → Option Snapshot) (inputs : List QueueInput) :
    let q := queueRun args workerArgs checkpoints inputs
    (∀ name job, .enqueued name job ∈ q.log →
      name ∈ q.pending ∨ name ∈ q.running ∨ name ∈ q.done) ∧
    (enqueuedNames q.log).Nodup ∧
    Dir.count q.pending + Dir.count q.running ≤ 2 ∧
    (∀ name job, q.done.lookup name = some job → .enqueued name job ∈ q.log ∧
      ∀ suite ∈ job.evaluationSuites, Evaluated workerArgs q.log name job suite) ∧
    ∀ input path, (∀ snapshot, input ≠ .exported path snapshot) →
      (queueStep args workerArgs q input).checkpoints path ≠ q.checkpoints path →
      ∃ name job, q.running.lookup name = some job ∧ .enqueued name job ∈ q.log ∧
        job.checkpoint = path ∧ job.temporarySnapshot = true ∧
        ∀ suite ∈ job.evaluationSuites, Checked workerArgs q.log name job suite := by
  intro q
  have h : QueueInv workerArgs q := queueRun_inv args workerArgs checkpoints inputs
  refine ⟨?_, h.shared.once, h.shared.capacity, ?_, ?_⟩
  · intro name job hjob
    exact h.shared.kept name (mem_enqueuedNames.mpr ⟨job, hjob⟩)
  · intro name job hjob
    exact ⟨h.shared.owned .done name job hjob, h.shared.evaluated name job hjob⟩
  · intro input path hexport hchange
    cases input with
    | producer i =>
        exfalso
        apply hchange
        show (producerStep args i q).checkpoints path = q.checkpoints path
        rcases producerStep_effect args i q with hquiet | ⟨call, -, hwrite⟩
        · rw [hquiet.checkpoints]
        · rw [hwrite.checkpoints]
    | worker i =>
        obtain ⟨name, job, hpc, rfl⟩ := (workerStep_cases workerArgs i q).checkpoints hchange
        have hknown := h.worker
        unfold WorkerInv at hknown
        rw [hpc] at hknown
        obtain ⟨⟨hrunning, hchecked⟩, htemporary⟩ := hknown
        refine ⟨name, job, hrunning, h.shared.owned .running name job hrunning, rfl,
          htemporary, ?_⟩
        intro suite hs
        rcases hchecked suite hs with hnil | hdone
        · cases hnil
        · exact hdone
    | exported other snapshot =>
        exfalso
        apply hchange
        have hne : path ≠ other := by
          rintro rfl
          exact hexport snapshot rfl
        show (if path = other then some snapshot else q.checkpoints path) = _
        rw [if_neg hne]

end Crisp.Proofs
