import Crisp.Proofs.Reenqueue

/-!
# What a failed job leaves

Between taking a job and letting go of it the worker changes three things: it
removes the snapshot, writes the record of success, and takes the job out of
`running`. The handler around them writes `failed` whichever of them raised, so
a job that failed can be run again exactly where none of the three had taken
effect: `Processing` follows the job through its phases and carries, beside
what holds in each, whether every exception so far was one of those.
-/

namespace Crisp.Proofs

open Crisp.Lib Crisp.Ref

section Job

variable {args : Args} {workerArgs : WorkerArgs} {name : String} {job : Job}
  {ok : Prop} {q : Queue}

/-- The job can be evaluated again: it is not recorded as done, and its snapshot is
there, complete and the one it was enqueued with. -/
def Retryable (name : String) (job : Job) (q : Queue) : Prop :=
  name ∉ q.done ∧ checkpointDigest (q.checkpoints job.checkpoint) = .ok job.checkpointSha256

/-- Inside `_complete_job`, up to the removal of the snapshot. -/
inductive Serving (name : String) (job : Job) : WorkerPc → Prop
  | request : Serving name job (.request name job)
  | pin (suite rest) : Serving name job (.pin name job suite rest)
  | evaluate (suite rest) : Serving name job (.evaluate name job suite rest)
  | verify (suite rest) : Serving name job (.verify name job suite rest)
  | track (suite rest) : Serving name job (.track name job suite rest)
  | retire : Serving name job (.retire name job)

/-- The phases of a job in hand. `ok` is that every exception so far left the job
retryable. -/
inductive Processing (name : String) (job : Job) (ok : Prop)
    (q : Queue) : Prop
  | taking (hpc : q.worker = .move name) (hjob : q.pending.lookup name = some job)
      (hfailed : name ∉ q.failed) (h : Retryable name job q) (hok : ok)
  | reading (hpc : q.worker = .read name) (hjob : q.running.lookup name = some job)
      (hfailed : name ∉ q.failed) (h : Retryable name job q) (hok : ok)
  | serving (hpc : Serving name job q.worker) (hfailed : name ∉ q.failed)
      (h : Retryable name job q) (hok : ok)
  | removing (hpc : q.worker = .remove name job) (htemporary : job.temporarySnapshot = true)
      (hfailed : name ∉ q.failed) (h : Retryable name job q) (hok : ok)
  | recording (hpc : q.worker = .writeDone name job ∨ q.worker = .renameDone name job)
      (hfailed : name ∉ q.failed) (hdone : name ∉ q.done)
      (hsnapshot : checkpointDigest (q.checkpoints job.checkpoint) = .ok job.checkpointSha256 ↔
        job.temporarySnapshot = false) (hok : ok)
  | unlinking (hpc : q.worker = .unlink name job) (hfailed : name ∉ q.failed)
      (hdone : name ∈ q.done) (hok : ok)
  | failing (hpc : q.worker = .writeFailed name job ∨ q.worker = .renameFailed name job)
      (hfailed : name ∉ q.failed) (h : Retryable name job q ↔ ok)
  | past (hpc : q.worker = .loop ∨ q.worker = .stopped)
      (h : name ∈ q.failed → (Retryable name job q ↔ ok))

/-- An exception at this point leaves the job retryable: the removal has not
deleted anything that counts, or there is nothing to remove and nothing recorded yet. -/
def FailsSafely (q : Queue) : QueueInput → Prop
  | .worker i =>
      i.fails.isSome = true →
        match q.worker with
        | .remove _ job => checkpointDigest i.left = .ok job.checkpointSha256
        | .writeDone _ job => job.temporarySnapshot = false
        | .renameDone _ job => job.temporarySnapshot = false
        | .unlink _ _ => False
        | _ => True
  | _ => True

/-! ## The worker's steps -/

theorem serving_nextSuite (rest : List SuiteName) :
    Serving name job (.nextSuite name job rest) := by
  cases rest with
  | nil => exact .retire
  | cons suite rest => exact .pin suite rest

theorem Serving.failure {pc : WorkerPc} (h : Serving name job pc) :
    pc.failure = .writeFailed name job := by
  cases h <;> rfl

theorem Serving.not_remove {pc : WorkerPc} (h : Serving name job pc) :
    ∀ n j, pc ≠ .remove n j := by
  cases h <;> exact fun _ _ hpc => by cases hpc

theorem retireCheck_false {checkpoints : Path → Option Snapshot}
    (h : retireCheck checkpoints job = .ok false) : job.temporarySnapshot = false := by
  unfold retireCheck at h
  split at h
  · next hkeep => exact hkeep
  · simp only [except_bind_eq_ok, Except.ok.injEq, reduceCtorEq, and_false, exists_false] at h

/-- What a step before the removal leaves, and where it goes. -/
structure Served (name : String) (job : Job) (q q' : Queue) : Prop where
  done : q'.done = q.done
  failed : q'.failed = q.failed
  checkpoints : q'.checkpoints = q.checkpoints
  next : Serving name job q'.worker ∨ q'.worker = .writeFailed name job ∨
    q'.worker = .remove name job ∧ job.temporarySnapshot = true ∨
    q'.worker = .writeDone name job ∧ job.temporarySnapshot = false

theorem WorkerMove.served {i : WorkerInput} {q' : Queue} (hmove : WorkerMove workerArgs i q q')
    (h : Serving name job q.worker) : Served name job q q' := by
  cases hmove with
  | fails => exact ⟨rfl, rfl, rfl, Or.inr (Or.inl h.failure)⟩
  | requests hpc =>
      rw [hpc] at h
      cases h
      exact ⟨rfl, rfl, rfl, Or.inl (serving_nextSuite _)⟩
  | pins hpc =>
      rw [hpc] at h
      cases h
      exact ⟨rfl, rfl, rfl, Or.inl (.evaluate _ _)⟩
  | evaluates hpc =>
      rw [hpc] at h
      cases h
      exact ⟨rfl, rfl, rfl, Or.inl (.verify _ _)⟩
  | verifies hpc =>
      rw [hpc] at h
      cases h
      refine ⟨rfl, rfl, rfl, Or.inl ?_⟩
      dsimp only
      split
      · exact .track _ _
      · exact serving_nextSuite _
  | tracks hpc =>
      rw [hpc] at h
      cases h
      exact ⟨rfl, rfl, rfl, Or.inl (serving_nextSuite _)⟩
  | retires hpc hcheck =>
      rw [hpc] at h
      cases h
      exact ⟨rfl, rfl, rfl, Or.inr (Or.inr (Or.inl ⟨rfl, retireCheck_true hcheck⟩))⟩
  | keeps hpc hcheck =>
      rw [hpc] at h
      cases h
      exact ⟨rfl, rfl, rfl, Or.inr (Or.inr (Or.inr ⟨rfl, retireCheck_false hcheck⟩))⟩
  | loses hpc => rcases hpc with hpc | hpc <;> rw [hpc] at h <;> cases h
  | interrupted hpc => rw [hpc] at h; cases h
  | turns hpc => rw [hpc] at h; cases h
  | rests hpc => rw [hpc] at h; cases h
  | picks hpc => rw [hpc] at h; cases h
  | takes hpc => rw [hpc] at h; cases h
  | reads hpc => rw [hpc] at h; cases h
  | removes hpc => rw [hpc] at h; cases h
  | writesDone hpc => rw [hpc] at h; cases h
  | recordsDone hpc => rw [hpc] at h; cases h
  | unlinks hpc => rw [hpc] at h; cases h
  | writesFailed hpc => rw [hpc] at h; cases h
  | recordsFailed hpc => rw [hpc] at h; cases h
  | stays hpc => rw [hpc] at h; cases h

/-- A step that reaches the handler from a retryable job. -/
theorem Processing.fails {q' : Queue} (hpc : q'.worker = .writeFailed name job)
    (hfailed : name ∉ q'.failed) (h : Retryable name job q') (hok : ok) :
    Processing name job ok q' :=
  .failing (Or.inl hpc) hfailed ⟨fun _ => hok, fun _ => h⟩

theorem Processing.stops {q' : Queue} (hpc : q'.worker = .loop ∨ q'.worker = .stopped)
    (hfailed : name ∉ q'.failed) : Processing name job ok q' :=
  .past hpc fun h => absurd h hfailed

/-! ## An exception in the worker's step -/

/-- Away from the removal it moves the program counter only. -/
theorem workerStep_fails {i : WorkerInput} {error : PyError} (hraise : i.fails = some error)
    (haway : ∀ n j, q.worker ≠ .remove n j) :
    workerStep workerArgs i q = q.workerFails := by
  unfold workerStep Queue.interruptedRemoval
  rw [hraise]
  dsimp only
  split
  · next n j hpc => exact absurd hpc (haway n j)
  · rfl

/-- A removal that raises may have deleted part of the snapshot. -/
theorem workerStep_fails_remove {i : WorkerInput} {error : PyError}
    (hraise : i.fails = some error) (hpc : q.worker = .remove name job) :
    workerStep workerArgs i q =
      { q with
        checkpoints := fun path => if path = job.checkpoint then i.left else q.checkpoints path
        worker := .writeFailed name job
        log := .deleted name job.checkpoint :: q.log } := by
  unfold workerStep Queue.interruptedRemoval
  rw [hraise, hpc]

theorem failsSafely_remove {i : WorkerInput} (hraises : i.fails.isSome = true)
    (hpc : q.worker = .remove name job) :
    FailsSafely q (.worker i) ↔ checkpointDigest i.left = .ok job.checkpointSha256 := by
  unfold FailsSafely
  rw [hpc]
  exact ⟨fun hall => hall hraises, fun hleft _ => hleft⟩

theorem failsSafely_record {i : WorkerInput} (hraises : i.fails.isSome = true)
    (hpc : q.worker = .writeDone name job ∨ q.worker = .renameDone name job) :
    FailsSafely q (.worker i) ↔ job.temporarySnapshot = false := by
  unfold FailsSafely
  rcases hpc with hpc | hpc <;> rw [hpc] <;>
    exact ⟨fun hall => hall hraises, fun hkept _ => hkept⟩

theorem not_failsSafely_unlink {i : WorkerInput} (hraises : i.fails.isSome = true)
    (hpc : q.worker = .unlink name job) : ¬ FailsSafely q (.worker i) := by
  unfold FailsSafely
  rw [hpc]
  exact fun hall => hall hraises

theorem Processing.raise (h : Processing name job ok q) {i : WorkerInput}
    {error : PyError} (hraise : i.fails = some error) :
    Processing name job (ok ∧ FailsSafely q (.worker i))
      (workerStep workerArgs i q) := by
  have hraises : i.fails.isSome = true := by rw [hraise]; rfl
  cases h with
  | taking hpc _ hfailed _ _ =>
      rw [workerStep_fails hraise (by rw [hpc]; exact fun _ _ h => by cases h)]
      have hfailure : q.worker.failure = .stopped := by rw [hpc]; rfl
      exact .stops (Or.inr hfailure) hfailed
  | reading hpc _ hfailed _ _ =>
      rw [workerStep_fails hraise (by rw [hpc]; exact fun _ _ h => by cases h)]
      have hfailure : q.worker.failure = .stopped := by rw [hpc]; rfl
      exact .stops (Or.inr hfailure) hfailed
  | serving hpc hfailed h hok =>
      rw [workerStep_fails hraise hpc.not_remove]
      refine .fails hpc.failure hfailed h ⟨hok, fun _ => ?_⟩
      cases hpc' : q.worker with
      | remove n j => rw [hpc'] at hpc; cases hpc
      | writeDone n j => rw [hpc'] at hpc; cases hpc
      | renameDone n j => rw [hpc'] at hpc; cases hpc
      | unlink n j => rw [hpc'] at hpc; cases hpc
      | _ => trivial
  | removing hpc _ hfailed h hok =>
      rw [workerStep_fails_remove hraise hpc, failsSafely_remove hraises hpc]
      refine .failing (Or.inl rfl) hfailed ?_
      unfold Retryable
      dsimp only
      rw [if_pos rfl]
      exact ⟨fun hretry => ⟨hok, hretry.2⟩, fun hsafe => ⟨h.1, hsafe.2⟩⟩
  | recording hpc hfailed hdone hsnapshot hok =>
      rw [workerStep_fails hraise
          (by rcases hpc with hpc | hpc <;> rw [hpc] <;> exact fun _ _ h => by cases h),
        failsSafely_record hraises hpc, ← hsnapshot]
      have hfailure : q.worker.failure = .writeFailed name job := by
        rcases hpc with hpc | hpc <;> rw [hpc] <;> rfl
      refine .failing (Or.inl hfailure) hfailed ?_
      exact ⟨fun hretry => ⟨hok, hretry.2⟩, fun hall => ⟨hdone, hall.2⟩⟩
  | unlinking hpc hfailed hdone _ =>
      rw [workerStep_fails hraise (by rw [hpc]; exact fun _ _ h => by cases h)]
      have hfailure : q.worker.failure = .writeFailed name job := by rw [hpc]; rfl
      have hunsafe := not_failsSafely_unlink hraises hpc
      refine .failing (Or.inl hfailure) hfailed ?_
      exact ⟨fun hretry => absurd hdone hretry.1, fun hsafe => absurd hsafe.2 hunsafe⟩
  | failing hpc hfailed _ =>
      rw [workerStep_fails hraise
        (by rcases hpc with hpc | hpc <;> rw [hpc] <;> exact fun _ _ h => by cases h)]
      have hfailure : q.worker.failure = .stopped := by
        rcases hpc with hpc | hpc <;> rw [hpc] <;> rfl
      exact .stops (Or.inr hfailure) hfailed
  | past hpc h =>
      rw [workerStep_fails hraise
        (by rcases hpc with hpc | hpc <;> rw [hpc] <;> exact fun _ _ h => by cases h)]
      have hfailure : q.worker.failure = .stopped := by
        rcases hpc with hpc | hpc <;> rw [hpc] <;> rfl
      have hsafe : FailsSafely q (.worker i) := fun _ => by
        rcases hpc with hpc | hpc <;> rw [hpc] <;> trivial
      refine .past (Or.inr hfailure) fun hin => ?_
      have hiff := h hin
      exact ⟨fun hretry => ⟨hiff.mp hretry, hsafe⟩, fun hall => hiff.mpr hall.1⟩

/-- A step of the worker's in which nothing raises from outside. -/
theorem Processing.proceed (h : Processing name job ok q) {i : WorkerInput}
    (hnone : i.fails = none) (hbusy : q.worker ≠ .loop) :
    Processing name job ok (workerStep workerArgs i q) := by
  cases h with
  | taking hpc hjob hfailed h hok =>
      unfold workerStep
      rw [hnone, hpc]
      dsimp only
      rw [hjob]
      exact .reading rfl (AList.lookup_insert _) hfailed h hok
  | reading hpc hjob hfailed h hok =>
      unfold workerStep
      rw [hnone, hpc]
      dsimp only
      rw [hjob]
      exact .serving .request hfailed h hok
  | serving hpc hfailed h hok =>
      have hserved := (workerStep_cases workerArgs i q).served hpc
      have hretry : Retryable name job (workerStep workerArgs i q) := by
        unfold Retryable
        rw [hserved.done, hserved.checkpoints]
        exact h
      rw [← hserved.failed] at hfailed
      rcases hserved.next with hserving | hfails | ⟨hremove, htemporary⟩ | ⟨hrecord, hkept⟩
      · exact .serving hserving hfailed hretry hok
      · exact .fails hfails hfailed hretry hok
      · exact .removing hremove htemporary hfailed hretry hok
      · exact .recording (Or.inl hrecord) hfailed hretry.1 ⟨fun _ => hkept, fun _ => hretry.2⟩ hok
  | removing hpc htemporary hfailed h hok =>
      unfold workerStep
      rw [hnone, hpc]
      refine .recording (Or.inl rfl) hfailed h.1 ?_ hok
      dsimp only
      rw [if_pos rfl, htemporary]
      exact ⟨nofun, nofun⟩
  | recording hpc hfailed hdone hsnapshot hok =>
      unfold workerStep
      rw [hnone]
      rcases hpc with hpc | hpc
      · rw [hpc]
        exact .recording (Or.inr rfl) hfailed hdone hsnapshot hok
      · rw [hpc]
        exact .unlinking rfl hfailed ((AList.mem_insert _).mpr (Or.inl rfl)) hok
  | unlinking hpc hfailed _ _ =>
      unfold workerStep
      rw [hnone, hpc]
      exact .stops (Or.inl rfl) hfailed
  | failing hpc hfailed h =>
      unfold workerStep
      rw [hnone]
      rcases hpc with hpc | hpc
      · rw [hpc]
        exact .failing (Or.inr rfl) hfailed h
      · rw [hpc]
        exact .past (Or.inr rfl) fun _ => h
  | past hpc h =>
      rcases hpc with hpc | hpc
      · exact absurd hpc hbusy
      · unfold workerStep
        rw [hnone, hpc]
        exact .past (Or.inr hpc) h

theorem Processing.worker (h : Processing name job ok q) {i : WorkerInput}
    (hbusy : q.worker ≠ .loop) :
    Processing name job (ok ∧ FailsSafely q (.worker i))
      (workerStep workerArgs i q) := by
  cases hfails : i.fails with
  | some error => exact h.raise hfails
  | none =>
      have hsafe : FailsSafely q (.worker i) := fun hsome => by
        rw [hfails] at hsome
        cases hsome
      rw [show (ok ∧ FailsSafely q (.worker i)) = ok from
        propext ⟨fun hall => hall.1, fun hok => ⟨hok, hsafe⟩⟩]
      exact h.proceed hfails hbusy

/-! ## The other processes' steps -/

/-- The phases do not look at what the hook and the exports change. -/
theorem Processing.mono {q' : Queue} (h : Processing name job ok q)
    (hworker : q'.worker = q.worker) (hrunning : q'.running = q.running)
    (hdone : q'.done = q.done) (hfailed : q'.failed = q.failed)
    (hsnapshot : q'.checkpoints job.checkpoint = q.checkpoints job.checkpoint)
    (hpending : q'.pending.lookup name = q.pending.lookup name) :
    Processing name job ok q' := by
  have hretry : Retryable name job q' ↔ Retryable name job q := by
    unfold Retryable
    rw [hdone, hsnapshot]
  cases h with
  | taking hpc hjob hf h hok =>
      exact .taking (hworker.trans hpc) (hpending.trans hjob) (hfailed ▸ hf) (hretry.mpr h) hok
  | reading hpc hjob hf h hok =>
      exact .reading (hworker.trans hpc) (hrunning ▸ hjob) (hfailed ▸ hf) (hretry.mpr h) hok
  | serving hpc hf h hok => exact .serving (hworker ▸ hpc) (hfailed ▸ hf) (hretry.mpr h) hok
  | removing hpc ht hf h hok =>
      exact .removing (hworker.trans hpc) ht (hfailed ▸ hf) (hretry.mpr h) hok
  | recording hpc hf hd hs hok =>
      exact .recording (hworker ▸ hpc) (hfailed ▸ hf) (hdone ▸ hd) (hsnapshot ▸ hs) hok
  | unlinking hpc hf hd hok =>
      exact .unlinking (hworker.trans hpc) (hfailed ▸ hf) (hdone ▸ hd) hok
  | failing hpc hf h => exact .failing (hworker ▸ hpc) (hfailed ▸ hf) (hretry.trans h)
  | past hpc h => exact .past (hworker ▸ hpc) fun hin => hretry.trans (h (hfailed ▸ hin))

/-- The hook writes under no name that was enqueued before. -/
theorem producerStep_pending (hinv : QueueInv workerArgs q) (hknown : name ∈ enqueuedNames q.log)
    (i : ProducerInput) :
    (producerStep args i q).pending.lookup name = q.pending.lookup name := by
  rcases producerStep_effect args i q with hquiet | ⟨call, hpc, hwrite⟩
  · rw [hquiet.pending]
  · have hfresh := (hinv.producer.rename hpc).1
    rw [hwrite.pending]
    exact AList.lookup_insert_ne fun hsame => hfresh (hsame ▸ hknown)

theorem producerStep_checkpoints (args : Args) (i : ProducerInput) (q : Queue) :
    (producerStep args i q).checkpoints = q.checkpoints := by
  rcases producerStep_effect args i q with hquiet | ⟨call, -, hwrite⟩
  · exact hquiet.checkpoints
  · exact hwrite.checkpoints

/-- What was enqueued stays enqueued. -/
theorem enqueuedNames_queueStep (hinv : QueueInv workerArgs q) (input : QueueInput)
    (h : name ∈ enqueuedNames q.log) :
    name ∈ enqueuedNames (queueStep args workerArgs q input).log := by
  cases input with
  | producer i =>
      show name ∈ enqueuedNames (producerStep args i q).log
      rcases producerStep_effect args i q with hquiet | ⟨call, -, hwrite⟩
      · rw [hquiet.names]
        exact h
      · rw [hwrite.names]
        exact List.mem_cons_of_mem _ h
  | worker i =>
      show name ∈ enqueuedNames (workerStep workerArgs i q).log
      rw [(workerStep_effect hinv.worker i).names]
      exact h
  | exported path snapshot => exact h

/-! ## A job that waits was never touched -/

/-- The job the worker has moved out of `pending`. -/
def taken : WorkerPc → Option String
  | .move _ => none
  | pc => inHand pc

theorem inHand_of_taken {pc : WorkerPc} (h : taken pc = some name) : inHand pc = some name := by
  cases pc <;> first | exact h | cases h

theorem taken_or_move {pc : WorkerPc} (h : inHand pc = some name) :
    taken pc = some name ∨ pc = .move name := by
  cases pc with
  | move n => exact Or.inr (congrArg _ (Option.some.inj h))
  | _ => exact Or.inl h

/-- What waits in `pending` is nowhere else; what failed or is in hand was
enqueued. -/
structure Apart (q : Queue) : Prop where
  fresh : ∀ name ∈ q.pending, name ∉ q.running ∧ name ∉ q.done ∧ name ∉ q.failed ∧
    taken q.worker ≠ some name
  failed : ∀ name ∈ q.failed, name ∈ enqueuedNames q.log
  held : ∀ name, taken q.worker = some name → name ∈ enqueuedNames q.log

theorem enqueued_of_pending (hinv : QueueInv workerArgs q) (h : name ∈ q.pending) :
    name ∈ enqueuedNames q.log := by
  obtain ⟨job, hjob⟩ := Dir.lookup_of_mem h
  exact mem_enqueuedNames.mpr ⟨job, hinv.shared.owned .pending name job hjob⟩

/-- A record of failure is about the job in hand. -/
theorem WorkerMove.failed {i : WorkerInput} {q' : Queue} (hmove : WorkerMove workerArgs i q q')
    (h : name ∈ q'.failed) : name ∈ q.failed ∨ taken q.worker = some name := by
  cases hmove with
  | recordsFailed hpc =>
      rcases (AList.mem_insert _).mp h with rfl | hold
      · exact Or.inr (by rw [hpc]; rfl)
      · exact Or.inl hold
  | _ => exact Or.inl h

theorem workerStep_failed {i : WorkerInput} (h : name ∈ (workerStep workerArgs i q).failed) :
    name ∈ q.failed ∨ taken q.worker = some name :=
  (workerStep_cases workerArgs i q).failed h

/-- What the rename leaves in hand was pending. -/
theorem mem_pending_of_taken {i : WorkerInput} (hpc : q.worker = .move name)
    (h : taken (workerStep workerArgs i q).worker = some name) : name ∈ q.pending := by
  unfold workerStep Queue.interruptedRemoval Queue.workerFails at h
  rw [hpc] at h
  dsimp only at h
  split at h
  · cases h
  · split at h
    · cases h
    · next job hjob => exact Dir.mem_of_lookup hjob

/-- The rename takes the job out of `pending`, or does not happen. -/
theorem workerStep_move {i : WorkerInput} (hpc : q.worker = .move name)
    (h : name ∈ (workerStep workerArgs i q).pending) :
    (workerStep workerArgs i q).running = q.running ∧
      (workerStep workerArgs i q).done = q.done ∧
      (workerStep workerArgs i q).worker = .stopped := by
  unfold workerStep Queue.interruptedRemoval Queue.workerFails at h ⊢
  rw [hpc] at h ⊢
  dsimp only at h ⊢
  split at h
  · exact ⟨rfl, rfl, rfl⟩
  · split at h
    · exact ⟨rfl, rfl, rfl⟩
    · exact absurd rfl (AList.mem_erase.mp h).1

theorem Apart.worker (h : Apart q) (hinv : QueueInv workerArgs q) (i : WorkerInput) :
    Apart (workerStep workerArgs i q) := by
  have heffect := workerStep_effect hinv.worker i
  have hmoves := workerStep_handling workerArgs i q
  refine ⟨fun name hname => ?_, fun name hname => ?_, fun name hname => ?_⟩
  · obtain ⟨hrunning, hdone, hfailed, htaken⟩ := h.fresh name (heffect.pending name hname)
    have hfailed' : name ∉ (workerStep workerArgs i q).failed := fun hin =>
      (workerStep_failed hin).elim hfailed htaken
    by_cases hmove : q.worker = .move name
    · obtain ⟨hr, hd, hw⟩ := workerStep_move hmove hname
      refine ⟨hr ▸ hrunning, hd ▸ hdone, hfailed', ?_⟩
      rw [hw]
      exact fun hnone => by cases hnone
    · have hhand : inHand q.worker ≠ some name := fun hin =>
        (taken_or_move hin).elim htaken hmove
      refine ⟨fun hin => (hmoves.running name hin).elim hrunning hhand,
        fun hin => (hmoves.done name hin).elim hdone hhand, hfailed', fun hin => ?_⟩
      rcases hmoves.hand name (inHand_of_taken hin) with hold | ⟨hglob, hfirst⟩
      · exact hhand hold
      · -- The glob chooses a job without moving it.
        have hnext : taken (workerStep workerArgs i q).worker = none := by
          unfold workerStep Queue.interruptedRemoval Queue.workerFails
          rw [hglob]
          dsimp only
          rw [hfirst]
          split <;> rfl
        rw [hnext] at hin
        cases hin
  · rw [heffect.names]
    rcases workerStep_failed hname with hold | hin
    · exact h.failed name hold
    · exact h.held name hin
  · rw [heffect.names]
    rcases hmoves.hand name (inHand_of_taken hname) with hold | ⟨-, hfirst⟩
    · rcases taken_or_move hold with hin | hmove
      · exact h.held name hin
      · exact enqueued_of_pending hinv (mem_pending_of_taken hmove hname)
    · exact enqueued_of_pending hinv (AList.mem_keys.mpr (firstSorted_le hfirst).1)

theorem Apart.producer (h : Apart q) (hinv : QueueInv workerArgs q) (i : ProducerInput) :
    Apart (producerStep args i q) := by
  obtain ⟨hrunning, hdone, hworker⟩ := producerStep_frame args i q
  have hfailed := producerStep_failed args i q
  have hkept : ∀ name ∈ enqueuedNames q.log,
      name ∈ enqueuedNames (producerStep args i q).log :=
    fun name hname => @enqueuedNames_queueStep args _ _ _ hinv (.producer i) hname
  refine ⟨fun name hname => ?_, ?_, ?_⟩
  · rw [hrunning, hdone, hfailed, hworker]
    rcases producerStep_effect args i q with hquiet | ⟨call, hpc, hwrite⟩
    · exact h.fresh name (hquiet.pending ▸ hname)
    · rw [hwrite.pending] at hname
      have hnew := (hinv.producer.rename hpc).1
      rcases (AList.mem_insert _).mp hname with rfl | hold
      · -- Whatever is elsewhere was enqueued, and this name was not.
        have howned : ∀ stage, call.name ∉ q.dir stage := fun stage hin => by
          obtain ⟨job, hjob⟩ := Dir.lookup_of_mem hin
          exact hnew (mem_enqueuedNames.mpr ⟨job, hinv.shared.owned stage _ job hjob⟩)
        exact ⟨howned .running, howned .done, fun hin => hnew (h.failed _ hin),
          fun hin => hnew (h.held _ hin)⟩
      · exact h.fresh name hold
  · rw [hfailed]
    exact fun name hname => hkept name (h.failed name hname)
  · rw [hworker]
    exact fun name hname => hkept name (h.held name hname)

theorem queueRun_apart (args : Args) (workerArgs : WorkerArgs)
    (checkpoints : Path → Option Snapshot) (inputs : List QueueInput) :
    QueueInv workerArgs (queueRun args workerArgs checkpoints inputs) ∧
      Apart (queueRun args workerArgs checkpoints inputs) := by
  refine @invariant_run _ _ (queueStep args workerArgs)
    (fun q => QueueInv workerArgs q ∧ Apart q) ?_ _ ⟨queueInv_fresh workerArgs checkpoints, ?_⟩
    inputs
  · rintro q input ⟨hinv, hapart⟩
    refine ⟨hinv.step args input, ?_⟩
    cases input with
    | producer i => exact hapart.producer hinv i
    | worker i => exact hapart.worker hinv i
    | exported path snapshot => exact ⟨hapart.fresh, hapart.failed, hapart.held⟩
  · refine ⟨?_, ?_, ?_⟩
    · exact fun name hname => by cases hname
    · exact fun name hname => by cases hname
    · exact fun name hname => by cases hname

/-! ## The job from its rename to its record -/

instance (q : Queue) (input : QueueInput) : Decidable (FailsSafely q input) := by
  unfold FailsSafely
  repeat' split
  all_goals infer_instance

/-- An export of the trainer's that is not to the snapshot of this job. -/
def ExportsElsewhere (job : Job) (inputs : List QueueInput) : Prop :=
  ∀ path snapshot, .exported path snapshot ∈ inputs → path ≠ job.checkpoint

/-- What a step leaves of the job in hand. -/
theorem Processing.step (h : Processing name job ok q) (hinv : QueueInv workerArgs q)
    (hknown : name ∈ enqueuedNames q.log) {input : QueueInput}
    (hexports : ∀ path snapshot, input = .exported path snapshot → path ≠ job.checkpoint) :
    Processing name job (ok ∧ FailsSafely q input) (processStep args workerArgs q input) := by
  cases input with
  | producer i =>
      rw [show (ok ∧ FailsSafely q (.producer i)) = ok from and_true ok]
      obtain ⟨hrunning, hdone, hworker⟩ := producerStep_frame args i q
      exact h.mono hworker hrunning hdone (producerStep_failed args i q)
        (congrFun (producerStep_checkpoints args i q) _) (producerStep_pending hinv hknown i)
  | worker i =>
      by_cases hloop : q.worker = .loop
      · have hsafe : FailsSafely q (.worker i) := fun _ => by rw [hloop]; trivial
        have hstays : processStep args workerArgs q (.worker i) = q := by
          unfold processStep
          rw [hloop]
        rw [hstays, show (ok ∧ FailsSafely q (.worker i)) = ok from
          propext ⟨fun hall => hall.1, fun hok => ⟨hok, hsafe⟩⟩]
        exact h
      · have hmoves : processStep args workerArgs q (.worker i) = workerStep workerArgs i q := by
          unfold processStep queueStep
          dsimp only
          split
          · next hpc => exact absurd hpc hloop
          · rfl
        rw [hmoves]
        exact h.worker hloop
  | exported path snapshot =>
      rw [show (ok ∧ FailsSafely q (.exported path snapshot)) = ok from and_true ok]
      exact h.mono rfl rfl rfl rfl (if_neg (hexports path snapshot rfl).symm) rfl

theorem queueInv_processStep (hinv : QueueInv workerArgs q) (input : QueueInput) :
    QueueInv workerArgs (processStep args workerArgs q input) := by
  unfold processStep
  repeat' split
  · exact hinv
  · exact hinv.step args _
  · exact hinv.step args _

theorem enqueuedNames_processStep (hinv : QueueInv workerArgs q) (input : QueueInput)
    (h : name ∈ enqueuedNames q.log) :
    name ∈ enqueuedNames (processStep args workerArgs q input).log := by
  unfold processStep
  repeat' split
  · exact h
  · exact enqueuedNames_queueStep hinv _ h
  · exact enqueuedNames_queueStep hinv _ h

theorem Processing.run (h : Processing name job ok q) (hinv : QueueInv workerArgs q)
    (hknown : name ∈ enqueuedNames q.log) {inputs : List QueueInput}
    (hexports : ExportsElsewhere job inputs) :
    Processing name job (ok ∧ StepsMeet (processStep args workerArgs) FailsSafely q inputs)
      (runFrom (processStep args workerArgs) q inputs) := by
  induction inputs generalizing q ok with
  | nil =>
      rw [show (ok ∧ StepsMeet (processStep args workerArgs) FailsSafely q []) = ok from
        and_true ok]
      exact h
  | cons input inputs ih =>
      have hnext := @Processing.step args workerArgs name job ok q h hinv hknown input
        fun path snapshot heq => hexports path snapshot (heq ▸ List.mem_cons_self)
      have hrest := ih hnext (queueInv_processStep hinv input)
        (enqueuedNames_processStep hinv input hknown)
        fun path snapshot hmem => hexports path snapshot (List.mem_cons_of_mem _ hmem)
      rw [and_assoc] at hrest
      exact hrest

theorem Processing.failed (h : Processing name job ok q) (hfailed : name ∈ q.failed) :
    Retryable name job q ↔ ok := by
  cases h with
  | past _ h => exact h hfailed
  | _ => contradiction

/-- **A failed job is retryable** exactly when whatever raised while the worker
had it in hand raised before the removal of its snapshot took effect, or, where
the study keeps the snapshot, before the rename into `done`. -/
theorem failed_job_retryable (args : Args) (workerArgs : WorkerArgs)
    (checkpoints : Path → Option Snapshot) (before after : List QueueInput) (name : String)
    (job : Job) :
    let q := queueRun args workerArgs checkpoints before
    q.worker = .move name → q.pending.lookup name = some job →
    checkpointDigest (q.checkpoints job.checkpoint) = .ok job.checkpointSha256 →
    ExportsElsewhere job after →
    name ∈ (runFrom (processStep args workerArgs) q after).failed →
    (Retryable name job (runFrom (processStep args workerArgs) q after) ↔
      StepsMeet (processStep args workerArgs) FailsSafely q after) := by
  intro q hpc hjob hsnapshot hexports hfailed
  obtain ⟨hinv, hapart⟩ := queueRun_apart args workerArgs checkpoints before
  have hpending : name ∈ q.pending := Dir.mem_of_lookup hjob
  obtain ⟨-, hdone, hnever, -⟩ := hapart.fresh name hpending
  have hstart : Processing name job True q := .taking hpc hjob hnever ⟨hdone, hsnapshot⟩ trivial
  have hend := @Processing.run args workerArgs name job True q hstart hinv
    (enqueued_of_pending hinv hpending) after hexports
  rw [true_and] at hend
  exact hend.failed hfailed

end Job

/-! ## At one update -/

/-- The first update is enqueued, and the worker is about to take it. -/
def takenInputs : List QueueInput :=
  .exported ["root", "run", "eval-snapshots", "step_0"]
      { complete := true, isSymlink := false, digest := "weights" } ::
    .producer
      { rolloutId := 0
        hfCheckpointDir := some ["root", "run", "eval-snapshots", "step_0"] } ::
    List.replicate 9 (.producer {}) ++ List.replicate 2 (servingInput "weights")

/-- The same answers, and an operation that raises. -/
def raisingInput : QueueInput :=
  .worker
    { fails := some ⟨.os, "No space left on device"⟩
      observed := servingWorker.protocol
      record := ⟨"completed", "seeds", "weights", 1, "prompts", "labels"⟩ }

/-- Five steps into the job, its evaluation cannot be started. -/
theorem failed_job_retryable_evaluation :
    Retryable "run-step-0001.json" servedCall.job
      (runFrom (processStep (queuedStudy 7 none) servingWorker)
        (queueRun (queuedStudy 7 none) servingWorker (fun _ => none) takenInputs)
        (List.replicate 4 (servingInput "weights") ++ raisingInput ::
          List.replicate 2 (servingInput "weights"))) :=
  (failed_job_retryable (queuedStudy 7 none) servingWorker (fun _ => none) takenInputs
    (List.replicate 4 (servingInput "weights") ++ raisingInput ::
      List.replicate 2 (servingInput "weights")) "run-step-0001.json" servedCall.job
    (by decide +kernel) (by decide +kernel) (by decide +kernel)
    (by
      intro path snapshot hmem
      simp [servingInput, raisingInput] at hmem)
    (by decide +kernel)).mpr (by decide +kernel)

/-- The snapshot is removed, and then the record of success cannot be written. -/
theorem failed_job_retryable_removed :
    ¬ ∀ (args : Args) (workerArgs : WorkerArgs) (checkpoints : Path → Option Snapshot)
        (before after : List QueueInput) (name : String) (job : Job),
      let q := queueRun args workerArgs checkpoints before
      q.worker = .move name → q.pending.lookup name = some job →
      checkpointDigest (q.checkpoints job.checkpoint) = .ok job.checkpointSha256 →
      ExportsElsewhere job after →
      name ∈ (runFrom (processStep args workerArgs) q after).failed →
      Retryable name job (runFrom (processStep args workerArgs) q after) := by
  intro hclaim
  have hretry := hclaim (queuedStudy 7 none) servingWorker (fun _ => none) takenInputs
    (List.replicate 8 (servingInput "weights") ++ raisingInput ::
      List.replicate 2 (servingInput "weights")) "run-step-0001.json" servedCall.job
    (by decide +kernel) (by decide +kernel) (by decide +kernel)
    (by
      intro path snapshot hmem
      simp [servingInput, raisingInput] at hmem)
    (by decide +kernel)
  have hgone : checkpointDigest
      ((runFrom (processStep (queuedStudy 7 none) servingWorker)
        (queueRun (queuedStudy 7 none) servingWorker (fun _ => none) takenInputs)
        (List.replicate 8 (servingInput "weights") ++ raisingInput ::
          List.replicate 2 (servingInput "weights"))).checkpoints
        servedCall.job.checkpoint) ≠ .ok servedCall.job.checkpointSha256 := by
    decide +kernel
  exact hgone hretry.2

end Crisp.Proofs
