import Crisp.Lib.Decimal
import Crisp.Proofs.QueueSafety
import Crisp.Ref.StudyQueue

/-!
# The final update drains its run

Only the last job of a run is awaited. That covers the others for one reason:
the worker takes the pending job whose name sorts first, one at a time, so when
it takes the last one nothing else is pending or running, and `kept` of the
queue's invariant leaves `done` as the only place for the rest. `Reached` is
the moment from which that holds and `Drained` is what holds from then on.

The argument needs three things of the arguments, and they are `Drains`: the
run's last update is the one the hook takes for final, it has a suite, and its
job sorts after the others'. A step is padded to four digits, so the order is
right up to update 9999 and wrong where a run crosses a power of ten after it.
-/

namespace Crisp.Proofs

open Crisp.Lib Crisp.Ref

/-! ## One job in hand -/

/-- The job the worker is busy with. -/
def inHand : WorkerPc → Option String
  | .move name => some name
  | .read name => some name
  | .request name _ => some name
  | .pin name _ _ _ => some name
  | .evaluate name _ _ _ => some name
  | .verify name _ _ _ => some name
  | .track name _ _ _ => some name
  | .retire name _ => some name
  | .remove name _ => some name
  | .writeDone name _ => some name
  | .renameDone name _ => some name
  | .unlink name _ => some name
  | .writeFailed name _ => some name
  | .renameFailed name _ => some name
  | _ => none

/-- Where a worker step takes jobs from: what arrives was in hand before, and
what is taken in hand is the first of the pending ones. -/
structure Handling (q q' : Queue) : Prop where
  running : ∀ name ∈ q'.running, name ∈ q.running ∨ inHand q.worker = some name
  done : ∀ name ∈ q'.done, name ∈ q.done ∨ inHand q.worker = some name
  hand : ∀ name, inHand q'.worker = some name →
    inHand q.worker = some name ∨
      q.worker = .globPending ∧ firstSorted q.pending.keys = some name

/-- Whatever runs is in hand, unless the worker has stopped. -/
def Alone (q : Queue) : Prop :=
  ∀ name ∈ q.running, inHand q.worker = some name ∨ q.worker = .stopped

theorem inHand_failure (pc : WorkerPc) :
    inHand pc.failure = inHand pc ∨ pc.failure = .stopped := by
  cases pc with
  | loop => exact Or.inr rfl
  | globPending => exact Or.inr rfl
  | move => exact Or.inr rfl
  | read => exact Or.inr rfl
  | writeFailed => exact Or.inr rfl
  | renameFailed => exact Or.inr rfl
  | stopped => exact Or.inr rfl
  | _ => exact Or.inl rfl

theorem inHand_nextSuite (name : String) (job : Job) (rest : List SuiteName) :
    inHand (.nextSuite name job rest) = some name := by
  cases rest <;> rfl

/-- A step that keeps the job in hand or puts it down, and moves no file. -/
theorem Handling.keep {q q' : Queue} (hrunning : q'.running = q.running)
    (hdone : q'.done = q.done)
    (hhand : inHand q'.worker = inHand q.worker ∨ inHand q'.worker = none) :
    Handling q q' := by
  refine ⟨?_, ?_, ?_⟩
  · rw [hrunning]
    exact fun _ h => Or.inl h
  · rw [hdone]
    exact fun _ h => Or.inl h
  · intro name hname
    rcases hhand with heq | hnone
    · exact Or.inl (heq ▸ hname)
    · rw [hnone] at hname
      cases hname

theorem Handling.fails (q : Queue) : Handling q q.workerFails := by
  refine Handling.keep rfl rfl ?_
  rcases inHand_failure q.worker with heq | hstop
  · exact Or.inl heq
  · right
    show inHand q.worker.failure = none
    rw [hstop]
    rfl

/-- A step that keeps the job in hand or puts it down, by the points around it. -/
theorem Handling.moves {q : Queue} {pc pc' : WorkerPc} {log : List Event}
    {checkpoints : Path → Option Snapshot} (hpc : q.worker = pc)
    (hhand : inHand pc' = inHand pc ∨ inHand pc' = none) :
    Handling q { q with checkpoints, worker := pc', log } :=
  Handling.keep rfl rfl (hpc ▸ hhand)

theorem WorkerMove.handling {args : WorkerArgs} {i : WorkerInput} {q q' : Queue}
    (hmove : WorkerMove args i q q') : Handling q q' := by
  cases hmove with
  | interrupted hpc => exact Handling.moves hpc (Or.inl rfl)
  | fails => exact Handling.fails q
  | turns _ hnext => rcases hnext with rfl | rfl <;> exact Handling.keep rfl rfl (Or.inr rfl)
  | rests hpc => exact Handling.moves hpc (Or.inr rfl)
  | @picks name hpc hfirst =>
      refine ⟨fun _ h => Or.inl h, fun _ h => Or.inl h, fun other hother => ?_⟩
      obtain rfl : name = other := Option.some.inj hother
      exact Or.inr ⟨hpc, hfirst⟩
  | loses => exact Handling.keep rfl rfl (Or.inr rfl)
  | takes hpc =>
      refine ⟨fun other hother => ?_, fun _ h => Or.inl h, fun other hother => ?_⟩
      · rcases (AList.mem_insert _).mp hother with rfl | hold
        · exact Or.inr (by rw [hpc]; rfl)
        · exact Or.inl hold
      · exact Or.inl (by rw [hpc]; exact hother)
  | reads hpc => exact Handling.moves hpc (Or.inl rfl)
  | requests hpc => exact Handling.moves hpc (Or.inl (inHand_nextSuite _ _ _))
  | pins hpc => exact Handling.moves hpc (Or.inl rfl)
  | evaluates hpc => exact Handling.moves hpc (Or.inl rfl)
  | verifies hpc =>
      refine Handling.moves hpc (Or.inl ?_)
      split
      · rfl
      · exact inHand_nextSuite _ _ _
  | tracks hpc => exact Handling.moves hpc (Or.inl (inHand_nextSuite _ _ _))
  | retires hpc => exact Handling.moves hpc (Or.inl rfl)
  | keeps hpc => exact Handling.moves hpc (Or.inl rfl)
  | removes hpc => exact Handling.moves hpc (Or.inl rfl)
  | writesDone hpc => exact Handling.moves hpc (Or.inl rfl)
  | recordsDone hpc =>
      refine ⟨fun _ h => Or.inl h, fun other hother => ?_, fun other hother => ?_⟩
      · rcases (AList.mem_insert _).mp hother with rfl | hold
        · exact Or.inr (by rw [hpc]; rfl)
        · exact Or.inl hold
      · exact Or.inl (by rw [hpc]; exact hother)
  | unlinks =>
      refine ⟨fun other hother => ?_, fun _ h => Or.inl h, fun other hother => ?_⟩
      · exact Or.inl (AList.mem_erase.mp hother).2
      · cases hother
  | writesFailed hpc => exact Handling.moves hpc (Or.inl rfl)
  | recordsFailed => exact Handling.keep rfl rfl (Or.inr rfl)
  | stays => exact Handling.keep rfl rfl (Or.inl rfl)

theorem workerStep_handling (args : WorkerArgs) (i : WorkerInput) (q : Queue) :
    Handling q (workerStep args i q) :=
  (workerStep_cases args i q).handling

/-- The worker puts a job down only when it unlinks it or stops. -/
theorem WorkerMove.hand {args : WorkerArgs} {i : WorkerInput} {q q' : Queue}
    (hmove : WorkerMove args i q q') {name : String} (h : inHand q.worker = some name) :
    inHand q'.worker = some name ∨ q'.worker = .stopped ∨ name ∉ q'.running := by
  cases hmove with
  | fails =>
      rcases inHand_failure q.worker with heq | hstop
      · exact Or.inl (heq.trans h)
      · exact Or.inr (Or.inl hstop)
  | turns hpc => rw [hpc] at h; cases h
  | rests hpc => rw [hpc] at h; cases h
  | picks hpc => rw [hpc] at h; cases h
  | loses => exact Or.inr (Or.inl rfl)
  | requests hpc =>
      rw [hpc] at h
      exact Or.inl ((inHand_nextSuite _ _ _).trans h)
  | verifies hpc =>
      rw [hpc] at h
      refine Or.inl ?_
      dsimp only
      split
      · exact h
      · exact (inHand_nextSuite _ _ _).trans h
  | tracks hpc =>
      rw [hpc] at h
      exact Or.inl ((inHand_nextSuite _ _ _).trans h)
  | unlinks hpc =>
      rw [hpc] at h
      obtain rfl : _ = name := Option.some.inj h
      exact Or.inr (Or.inr fun hmem => (AList.mem_erase.mp hmem).1 rfl)
  | recordsFailed => exact Or.inr (Or.inl rfl)
  | stays => exact Or.inl h
  | interrupted hpc => rw [hpc] at h; exact Or.inl h
  | takes hpc => rw [hpc] at h; exact Or.inl h
  | reads hpc => rw [hpc] at h; exact Or.inl h
  | pins hpc => rw [hpc] at h; exact Or.inl h
  | evaluates hpc => rw [hpc] at h; exact Or.inl h
  | retires hpc => rw [hpc] at h; exact Or.inl h
  | keeps hpc => rw [hpc] at h; exact Or.inl h
  | removes hpc => rw [hpc] at h; exact Or.inl h
  | writesDone hpc => rw [hpc] at h; exact Or.inl h
  | recordsDone hpc => rw [hpc] at h; exact Or.inl h
  | writesFailed hpc => rw [hpc] at h; exact Or.inl h

theorem workerStep_stopped (args : WorkerArgs) (i : WorkerInput) {q : Queue}
    (h : q.worker = .stopped) : (workerStep args i q).worker = .stopped := by
  unfold workerStep
  split
  · unfold Queue.interruptedRemoval
    rw [h]
    show q.worker.failure = .stopped
    rw [h]
    rfl
  · rw [h]
    exact h

theorem Alone.worker {args : WorkerArgs} {i : WorkerInput} {q : Queue} (h : Alone q) :
    Alone (workerStep args i q) := by
  intro name hname
  have hhand : inHand q.worker = some name ∨ q.worker = .stopped := by
    rcases (workerStep_handling args i q).running name hname with hold | hhand
    · exact h name hold
    · exact Or.inl hhand
  rcases hhand with hhand | hstop
  · rcases (workerStep_cases args i q).hand hhand with hkeeps | hstop | hgone
    · exact Or.inl hkeeps
    · exact Or.inr hstop
    · exact absurd hname hgone
  · exact Or.inr (workerStep_stopped args i hstop)

/-! ## From the moment the last job is taken -/

/-- The worker has got to the job. -/
def Reached (q : Queue) (name : String) : Prop :=
  name ∈ q.running ∨ name ∈ q.done ∨ inHand q.worker = some name

/-- Every other job is done. -/
def Drained (q : Queue) (final : String) : Prop :=
  final ∈ enqueuedNames q.log ∧
    ∀ name ∈ enqueuedNames q.log, name ≠ final → name ∈ q.done

theorem firstSorted_le {names : List String} {first : String}
    (h : firstSorted names = some first) : first ∈ names ∧ ∀ name ∈ names, first ≤ name := by
  unfold firstSorted at h
  obtain ⟨rest, hrest⟩ : ∃ rest, names.insertionSort (fun a b => a ≤ b) = first :: rest := by
    cases hsorted : names.insertionSort fun a b => a ≤ b with
    | nil => rw [hsorted] at h; cases h
    | cons head rest =>
        rw [hsorted] at h
        exact ⟨rest, by rw [← Option.some.inj h]⟩
  have hmem : ∀ name, name ∈ first :: rest ↔ name ∈ names := fun name => by
    rw [← hrest]
    exact List.mem_insertionSort _
  have hordered := List.pairwise_insertionSort (fun a b : String => a ≤ b) names
  rw [hrest] at hordered
  refine ⟨(hmem first).mp List.mem_cons_self, fun name hname => ?_⟩
  rcases List.mem_cons.mp ((hmem name).mpr hname) with rfl | htail
  · exact le_refl _
  · exact List.rel_of_pairwise_cons hordered htail

/-- The worker takes the last job only when it is the only one left. -/
theorem drained_of_first {args : WorkerArgs} {q : Queue} {final : String}
    (h : SharedInv args q) (halone : Alone q) (hpc : q.worker = .globPending)
    (hfirst : firstSorted q.pending.keys = some final)
    (hlast : ∀ name ∈ enqueuedNames q.log, name ≠ final → name < final) :
    Drained q final := by
  obtain ⟨hmem, hmin⟩ := firstSorted_le hfirst
  have hpending : final ∈ q.pending := AList.mem_keys.mpr hmem
  obtain ⟨job, hjob⟩ := Dir.lookup_of_mem hpending
  refine ⟨mem_enqueuedNames.mpr ⟨job, h.owned .pending final job hjob⟩, ?_⟩
  intro name hname hne
  rcases h.kept name hname with hp | hr | hd
  · exact absurd (hmin name (AList.mem_keys.mp hp)) (not_le.mpr (hlast name hname hne))
  · rcases halone name hr with hhand | hstop
    · rw [hpc] at hhand; cases hhand
    · rw [hpc] at hstop; cases hstop
  · exact hd

theorem Drained.worker {args : WorkerArgs} {i : WorkerInput} {q : Queue} {final : String}
    (h : Drained q final) (heffect : WorkerEffect args q (workerStep args i q)) :
    Drained (workerStep args i q) final := by
  refine ⟨by rw [heffect.names]; exact h.1, fun name hname hne => ?_⟩
  rw [heffect.names] at hname
  exact heffect.done name (h.2 name hname hne)

/-- A worker step that gets to the last job finds the others done. -/
theorem workerStep_drained {args : WorkerArgs} {i : WorkerInput} {q : Queue}
    {final : String} (hinv : QueueInv args q) (halone : Alone q)
    (hlast : ∀ name ∈ enqueuedNames q.log, name ≠ final → name < final)
    (h : Reached q final → Drained q final)
    (hreached : Reached (workerStep args i q) final) :
    Drained (workerStep args i q) final := by
  have heffect := workerStep_effect hinv.worker i
  have hmoves := workerStep_handling args i q
  have hbefore : Reached q final ∨
      q.worker = .globPending ∧ firstSorted q.pending.keys = some final := by
    rcases hreached with hr | hd | hhand
    · rcases hmoves.running final hr with hold | hhand
      · exact Or.inl (Or.inl hold)
      · exact Or.inl (Or.inr (Or.inr hhand))
    · rcases hmoves.done final hd with hold | hhand
      · exact Or.inl (Or.inr (Or.inl hold))
      · exact Or.inl (Or.inr (Or.inr hhand))
    · rcases hmoves.hand final hhand with hold | htaken
      · exact Or.inl (Or.inr (Or.inr hold))
      · exact Or.inr htaken
  rcases hbefore with hold | ⟨hpc, hfirst⟩
  · exact (h hold).worker heffect
  · exact (drained_of_first hinv.shared halone hpc hfirst hlast).worker heffect

/-! ## The call in progress -/

/-- The job a call is about. -/
def callOf : ProducerPc → Option Enqueue
  | .idle => none
  | .globFailed _ call => some call
  | .heartbeat _ call => some call
  | .scan call _ => some call
  | .compareExists call _ => some call
  | .compareRead call _ => some call
  | .globPending call => some call
  | .globRunning call _ => some call
  | .writeTemporary call => some call
  | .rename call => some call
  | .waitDone call => some call

/-- How a call goes on: it stays the same call, or it is over, and then it
raised, was not the last one, or saw its job in `done`. -/
def Continues (q q' : Queue) (call : Enqueue) : Prop :=
  callOf q'.producer = some call ∨
    q'.producer = .idle ∧ (q'.raised = true ∨ call.final = false ∨ call.name ∈ q.done)

theorem Continues.raise (q : Queue) (call : Enqueue) (error : PyError) :
    Continues q (q.raise error) call := Or.inr ⟨rfl, Or.inl rfl⟩

theorem Continues.leaveLoop (q r : Queue) (call : Enqueue) :
    Continues q (r.leaveLoop call) call := by
  unfold Queue.leaveLoop
  split
  · exact Or.inl rfl
  · next hfinal => exact Or.inr ⟨rfl, Or.inr (Or.inl (Bool.eq_false_of_not_eq_true hfinal))⟩

theorem Continues.compareNext (q : Queue) (call : Enqueue) (stage : Stage) :
    Continues q (q.compareNext call stage) call := by
  unfold Queue.compareNext
  split
  · exact Or.inl rfl
  · exact Continues.leaveLoop q q call

theorem ProducerMove.call {args : Args} {i : ProducerInput} {q q' : Queue} {call : Enqueue}
    (hmove : ProducerMove args i q q') (h : callOf q.producer = some call) :
    Continues q q' call := by
  -- The call a step is about is the one in progress.
  have hsame : ∀ {pc : ProducerPc} {call' : Enqueue}, q.producer = pc →
      callOf pc = some call' → call' = call := fun hpc hcall =>
    Option.some.inj (hcall.symm.trans ((congrArg callOf hpc).symm.trans h))
  cases hmove with
  | raises error => exact Continues.raise q call error
  | skips hpc _ => rw [hpc] at h; cases h
  | begins hpc _ => rw [hpc] at h; cases h
  | noFailure hpc => exact Or.inl (congrArg some (hsame hpc rfl))
  | beats hpc => exact Or.inl (congrArg some (hsame hpc rfl))
  | beatsLast hpc => exact Or.inl (congrArg some (hsame hpc rfl))
  | known hpc _ => exact Or.inl (congrArg some (hsame hpc rfl))
  | scans hpc _ _ => exact Or.inl (congrArg some (hsame hpc rfl))
  | scansLast hpc _ => exact Or.inl (congrArg some (hsame hpc rfl))
  | finds hpc _ => exact Or.inl (congrArg some (hsame hpc rfl))
  | passes hpc _ =>
      obtain rfl := hsame hpc rfl
      exact Continues.compareNext q _ _
  | agrees hpc _ =>
      obtain rfl := hsame hpc rfl
      exact Continues.compareNext q _ _
  | countsPending hpc => exact Or.inl (congrArg some (hsame hpc rfl))
  | hasRoom hpc _ => exact Or.inl (congrArg some (hsame hpc rfl))
  | isFull hpc => exact Or.inl (congrArg some (hsame hpc rfl))
  | writes hpc => exact Or.inl (congrArg some (hsame hpc rfl))
  | renames hpc =>
      obtain rfl := hsame hpc rfl
      exact Continues.leaveLoop q _ _
  | isDone hpc hname =>
      obtain rfl := hsame hpc rfl
      exact Or.inr ⟨rfl, Or.inr (Or.inr hname)⟩
  | waits hpc _ => exact Or.inl (congrArg some (hsame hpc rfl))

/-- How a call begins. -/
theorem producerStep_idle {args : Args} {i : ProducerInput} {q : Queue}
    (h : q.producer = .idle) :
    (∃ error, producerStep args i q = q.raise error) ∨
    (startEnqueue args q.checkpoints i.rolloutId i.hfCheckpointDir = .ok none ∧
      producerStep args i q = q) ∨
    ∃ call, startEnqueue args q.checkpoints i.rolloutId i.hfCheckpointDir = .ok (some call) ∧
      producerStep args i q = { q with producer := .globFailed false call } := by
  unfold producerStep
  rw [h]
  cases hfails : i.fails with
  | some error => exact Or.inl ⟨error, rfl⟩
  | none =>
      dsimp only
      split
      · next error _ => exact Or.inl ⟨error, rfl⟩
      · next hnone => exact Or.inr (Or.inl ⟨hnone, rfl⟩)
      · next call hcall => exact Or.inr (Or.inr ⟨call, hcall, rfl⟩)

/-! ## The names of a run -/

/-- The update has a suite. -/
def Evaluates (args : Args) (update : Nat) : Prop :=
  ∃ suites, evaluationSuites args update = .ok suites ∧ suites ≠ []

/-- `run_dir.name`. -/
def runName (args : Args) : String :=
  match args.save with
  | some save => pathName (pathParent save)
  | none => pathName (pathParent (args.saveHf.getD []))

/-- What the hook makes of an update. -/
structure CallFor (args : Args) (update : Nat) (call : Enqueue) : Prop where
  name : call.name = jobName (runName args) update
  evaluates : Evaluates args update
  final : call.final = true ↔ update = args.finalStep

theorem startEnqueue_none {args : Args} {checkpoints : Path → Option Snapshot}
    {rolloutId : Nat} {directory : Option Path}
    (h : startEnqueue args checkpoints rolloutId directory = .ok none) :
    ¬ Evaluates args (rolloutId + 1) := by
  rintro ⟨suites, hsuites, hne⟩
  unfold startEnqueue at h
  rw [hsuites, except_ok_bind, if_neg hne] at h
  simp only [except_bind_eq_ok, check_eq_ok] at h
  obtain ⟨-, -, h⟩ := h
  cases directory with
  | none => cases h
  | some checkpoint =>
      simp only [except_bind_eq_ok, Except.ok.injEq, reduceCtorEq, and_false, exists_false] at h

theorem startEnqueue_some {args : Args} {checkpoints : Path → Option Snapshot}
    {rolloutId : Nat} {call : Enqueue}
    (h : startEnqueue args checkpoints rolloutId (args.hfCheckpointDir rolloutId) =
      .ok (some call)) : CallFor args (rolloutId + 1) call := by
  unfold startEnqueue at h
  rw [except_bind_eq_ok] at h
  obtain ⟨suites, hsuites, h⟩ := h
  split at h
  · cases h
  · next hne =>
      simp only [except_bind_eq_ok, check_eq_ok] at h
      obtain ⟨-, -, h⟩ := h
      unfold Args.hfCheckpointDir at h
      cases hdir : args.saveHf with
      | none => rw [hdir] at h; cases h
      | some template =>
          rw [hdir] at h
          simp only [Option.map_some, except_bind_eq_ok] at h
          obtain ⟨digest, -, call', hcall, hsame⟩ := h
          obtain rfl : call' = call := by simpa using hsame
          unfold evaluationJob at hcall
          simp only [except_bind_eq_ok, check_eq_ok] at hcall
          obtain ⟨-, -, hcall⟩ := hcall
          obtain rfl := Except.ok.inj hcall
          refine ⟨?_, ⟨suites, hsuites, hne⟩, by simp⟩
          dsimp only
          unfold runName
          rw [hdir]
          cases args.save with
          | none => simp [pathParent]
          | some save => rfl

/-- A job is enqueued for the update: the cadence saves after it, and it has a suite. -/
def Enqueues (args : Args) (saves : Nat → Bool) (update : Nat) : Prop :=
  saves (update - 1) = true ∧ Evaluates args update

/-- The last update drains its run: an early exit is after some update, the last
update has a suite, and its job sorts after those enqueued before it. -/
structure AwaitsLast (args : Args) (saves : Nat → Bool) : Prop where
  stop : args.debugExitAfterRollout ≠ some 0
  evaluates : Evaluates args args.finalStep
  order : ∀ update, 1 ≤ update → update < args.finalStep → Enqueues args saves update →
    jobName (runName args) update < jobName (runName args) args.finalStep

/-- What the arguments have to give: wherever the run has something to drain,
that its last update does. -/
def Drains (args : Args) (saves : Nat → Bool) : Prop :=
  (∃ update, 1 ≤ update ∧ args.executes (update - 1) = true ∧ Enqueues args saves update) →
    AwaitsLast args saves

/-- The padded names of two updates sort like the updates. -/
theorem jobName_lt (run : String) {update later : Nat} (h : update < later)
    (hlater : later < 10000) : jobName run update < jobName run later := by
  have hpadded : ∀ step, (padFour step).toList = zeroPadded 4 step := by
    intro step
    unfold padFour zeroPadded
    rw [String.toList_append, String.toList_ofList, Nat.toString_eq_repr, Nat.repr,
      String.toList_ofList, String.length_ofList]
  rw [String.lt_iff_toList_lt]
  unfold jobName
  simp only [String.toList_append, hpadded]
  rw [List.append_assoc, List.append_assoc, List.append_assoc, List.append_assoc]
  refine List.append_left_lt (List.append_left_lt ?_)
  refine lt_append_of_lt _ _ ?_ (zeroPadded_lt (by decide) h (by omega))
  rw [length_zeroPadded (by decide) (by omega), length_zeroPadded (by decide) (by omega)]

/-- A run of fewer than ten thousand updates whose last one has a suite. -/
theorem drains_of_lt {args : Args} {saves : Nat → Bool}
    (hstop : args.debugExitAfterRollout ≠ some 0)
    (hevaluates : Evaluates args args.finalStep) (hlt : args.finalStep < 10000) :
    Drains args saves := fun _ =>
  ⟨hstop, hevaluates, fun _ _ hbefore _ => jobName_lt _ hbefore hlt⟩

/-- Out of a cyclic schedule the last update always has a suite. -/
theorem evaluates_finalStep {args : Args} (hplain : args.opsdCyclicTeacherPolicy = none)
    (hpos : 1 ≤ args.numRollout) : Evaluates args args.finalStep := by
  unfold Evaluates evaluationSuites evaluationSteps
  rw [check_of (show (0 : Int) < args.numRollout by omega), hplain]
  exact ⟨_, rfl, by simp⟩

/-! ## The driver's loop -/

theorem exitsAfter_mono {args : Args} {rolloutId later : Nat} (hle : rolloutId ≤ later)
    (h : args.exitsAfter rolloutId = true) : args.exitsAfter later = true := by
  unfold Args.exitsAfter at h ⊢
  cases hexit : args.debugExitAfterRollout with
  | none => rw [hexit] at h; cases h
  | some stop =>
      simp only [hexit, Option.any_some, decide_eq_true_eq] at h ⊢
      omega

theorem mem_trainLoop {args : Args} {run : RunEnv} :
    ∀ {n a : Nat} {updates : List Update},
      trainLoop args run (List.range' a n) = .ok updates →
      ∀ r, (∃ u ∈ updates, u.rolloutId = r) ↔
        a ≤ r ∧ r < a + n ∧ (r = a ∨ args.exitsAfter (r - 1) = false) := by
  intro n
  induction n with
  | zero =>
      intro a updates h r
      obtain rfl := Except.ok.inj h
      constructor
      · rintro ⟨u, hu, -⟩
        cases hu
      · rintro ⟨hge, hlt, -⟩
        omega
  | succ n ih =>
      intro a updates h r
      rw [List.range'_succ, trainLoop, except_bind_eq_ok] at h
      obtain ⟨effects, -, h⟩ := h
      split at h
      · next hexit =>
          obtain rfl := Except.ok.inj h
          simp only [List.mem_singleton, exists_eq_left]
          constructor
          · rintro rfl
            exact ⟨Nat.le_refl _, by omega, Or.inl rfl⟩
          · rintro ⟨hge, -, heq | hstays⟩
            · exact heq.symm
            · by_contra hne
              rw [exitsAfter_mono (show a ≤ r - 1 by omega) hexit] at hstays
              cases hstays
      · next hstays =>
          rw [except_bind_eq_ok] at h
          obtain ⟨rest, hrest, h⟩ := h
          obtain rfl := Except.ok.inj h
          have hiff := ih hrest r
          simp only [List.mem_cons, exists_eq_or_imp, hiff]
          constructor
          · rintro (rfl | ⟨hge, hlt, heq | hbefore⟩)
            · exact ⟨Nat.le_refl _, by omega, Or.inl rfl⟩
            · refine ⟨by omega, by omega, Or.inr ?_⟩
              rw [heq, Nat.add_sub_cancel]
              exact Bool.eq_false_of_not_eq_true hstays
            · exact ⟨by omega, by omega, Or.inr hbefore⟩
          · rintro ⟨hge, hlt, hwhich⟩
            rcases Nat.eq_or_lt_of_le hge with heq | hgt
            · exact Or.inl heq
            · refine Or.inr ⟨hgt, by omega, ?_⟩
              rcases hwhich with heq | hbefore
              · omega
              · exact Or.inr hbefore

/-- The rollouts the hook may be called for are the driver's. -/
theorem mem_train {args : Args} {run : RunEnv} {updates : List Update}
    (h : Driver.train args run = .ok updates) (rolloutId : Nat) :
    (∃ u ∈ updates, u.rolloutId = rolloutId) ↔ args.executes rolloutId = true := by
  rw [mem_trainLoop h rolloutId]
  unfold Args.executes
  simp only [Bool.and_eq_true, Bool.or_eq_true, decide_eq_true_eq, Bool.not_eq_true']
  constructor
  · rintro ⟨hge, hlt, hwhich⟩
    exact ⟨⟨hge, by omega⟩, hwhich⟩
  · rintro ⟨⟨hge, hlt⟩, hwhich⟩
    exact ⟨hge, by omega, hwhich⟩

/-! ## Runs -/

section Run

variable {args : Args} (hstart : args.startRolloutId.getD 0 = 0)

include hstart

/-- The loop gets to every rollout before one it gets to. -/
theorem executes_mono {rolloutId earlier : Nat} (h : args.executes rolloutId = true)
    (hle : earlier ≤ rolloutId) : args.executes earlier = true := by
  unfold Args.executes Args.exitsAfter at h ⊢
  rw [hstart] at h ⊢
  cases hexit : args.debugExitAfterRollout with
  | none =>
      simp only [hexit, Option.any_none, Bool.not_false, Bool.or_true, Bool.and_eq_true,
        decide_eq_true_eq, and_true] at h ⊢
      omega
  | some stop =>
      simp only [hexit, Bool.and_eq_true, Bool.or_eq_true, decide_eq_true_eq, Option.any_some,
        Bool.not_eq_true', decide_eq_false_iff_not] at h ⊢
      omega

theorem executes_le (hstop : args.debugExitAfterRollout ≠ some 0) {rolloutId : Nat}
    (h : args.executes rolloutId = true) : rolloutId + 1 ≤ args.finalStep := by
  unfold Args.executes Args.exitsAfter at h
  unfold Args.finalStep
  rw [hstart] at h ⊢
  cases hexit : args.debugExitAfterRollout with
  | none =>
      simp only [hexit, Bool.and_eq_true, decide_eq_true_eq] at h ⊢
      omega
  | some stop =>
      have hpos : stop ≠ 0 := fun hzero => hstop (by rw [hexit, hzero])
      simp only [hexit, Bool.and_eq_true, Bool.or_eq_true, decide_eq_true_eq, Option.any_some,
        Bool.not_eq_true', decide_eq_false_iff_not] at h ⊢
      omega

theorem endsAfter_eq (hstop : args.debugExitAfterRollout ≠ some 0) {rolloutId : Nat}
    (h : args.executes rolloutId = true) (hends : args.endsAfter rolloutId = true) :
    rolloutId + 1 = args.finalStep := by
  have hle := executes_le hstart hstop h
  unfold Args.endsAfter Args.exitsAfter at hends
  unfold Args.finalStep at hle ⊢
  rw [hstart] at hends hle ⊢
  cases hexit : args.debugExitAfterRollout with
  | none =>
      simp only [hexit, Option.any_none, Bool.or_false, decide_eq_true_eq] at hends hle ⊢
      exact hends
  | some stop =>
      simp only [hexit, Option.any_some, Bool.or_eq_true, decide_eq_true_eq] at hends hle ⊢
      omega

end Run

/-- The name of the job that is awaited. -/
def finalName (args : Args) : String := jobName (runName args) args.finalStep

/-- What holds of a run between any two steps. -/
structure StudyInv (args : Args) (saves : Nat → Bool) (workerArgs : WorkerArgs)
    (s : StudyQueue) : Prop where
  queue : QueueInv workerArgs s.queue
  alone : Alone s.queue
  handed : ∀ update, 1 ≤ update → update ≤ s.next → args.executes (update - 1) = true
  names : ∀ name ∈ enqueuedNames s.queue.log, ∃ update, 1 ≤ update ∧ update ≤ s.next ∧
    Enqueues args saves update ∧ name = jobName (runName args) update
  call : ∀ call, callOf s.queue.producer = some call →
    1 ≤ s.next ∧ saves (s.next - 1) = true ∧ CallFor args s.next call

/-- What holds besides where the last update drains the run. -/
structure FinalInv (args : Args) (q : Queue) (returned : List Nat) : Prop where
  drained : Reached q (finalName args) → Drained q (finalName args)
  returned : ∀ rolloutId ∈ returned, rolloutId + 1 = args.finalStep →
    finalName args ∈ q.done

section Invariant

variable {args : Args} {saves : Nat → Bool} {workerArgs : WorkerArgs} {s : StudyQueue}

theorem StudyInv.next_le (h : StudyInv args saves workerArgs s)
    (hstart : args.startRolloutId.getD 0 = 0) (hawaits : AwaitsLast args saves) :
    s.next ≤ args.finalStep := by
  rcases Nat.eq_zero_or_pos s.next with hzero | hpos
  · omega
  · have := executes_le hstart hawaits.stop (h.handed s.next hpos (Nat.le_refl _))
    omega

/-- Every job of a run but the awaited one sorts before it. -/
theorem StudyInv.before_final (h : StudyInv args saves workerArgs s)
    (hstart : args.startRolloutId.getD 0 = 0) (hawaits : AwaitsLast args saves) :
    ∀ name ∈ enqueuedNames s.queue.log, name ≠ finalName args → name < finalName args := by
  intro name hname hne
  obtain ⟨update, hpos, hle, hevaluates, rfl⟩ := h.names name hname
  have hlt : update < args.finalStep := by
    rcases Nat.lt_or_ge update args.finalStep with hlt | hge
    · exact hlt
    · obtain rfl : update = args.finalStep :=
        Nat.le_antisymm (hle.trans (h.next_le hstart hawaits)) hge
      exact absurd rfl hne
  exact hawaits.order update hpos hlt hevaluates

/-- Once the awaited job was written, the run has handed over its last update. -/
theorem StudyInv.next_eq (h : StudyInv args saves workerArgs s)
    (hstart : args.startRolloutId.getD 0 = 0) (hawaits : AwaitsLast args saves)
    (hfinal : finalName args ∈ enqueuedNames s.queue.log) : s.next = args.finalStep := by
  obtain ⟨update, hpos, hle, hevaluates, hname⟩ := h.names _ hfinal
  refine Nat.le_antisymm (h.next_le hstart hawaits) ?_
  by_contra hlt
  have hsorted := hawaits.order update hpos (by omega) hevaluates
  rw [← hname] at hsorted
  exact lt_irrefl _ hsorted

/-- A step of the producer's leaves the awaited job's situation alone. -/
theorem StudyInv.producer_drained (h : StudyInv args saves workerArgs s)
    (hstart : args.startRolloutId.getD 0 = 0) (hawaits : AwaitsLast args saves)
    (hfinal : FinalInv args s.queue s.returned) (i : ProducerInput)
    (hreached : Reached (producerStep args i s.queue) (finalName args)) :
    Drained (producerStep args i s.queue) (finalName args) := by
  rcases producerStep_effect args i s.queue with hquiet | ⟨call, hpc, hwrite⟩
  · unfold Reached at hreached
    rw [hquiet.running, hquiet.done, hquiet.worker] at hreached
    unfold Drained
    rw [hquiet.names, hquiet.done]
    exact hfinal.drained hreached
  · -- A write past the awaited one would repeat its name.
    unfold Reached at hreached
    rw [hwrite.running, hwrite.done, hwrite.worker] at hreached
    have hdrained := hfinal.drained hreached
    have hcall := (h.call call (by rw [hpc]; rfl)).2.2
    refine absurd ?_ (h.queue.producer.rename hpc).1
    rw [hcall.name, h.next_eq hstart hawaits hdrained.1]
    exact hdrained.1

/-- What a producer step writes is the job of its call. -/
theorem StudyInv.producer_names (h : StudyInv args saves workerArgs s) (i : ProducerInput) :
    ∀ name ∈ enqueuedNames (producerStep args i s.queue).log,
      name ∈ enqueuedNames s.queue.log ∨
        Evaluates args s.next ∧ name = jobName (runName args) s.next := by
  intro name hname
  rcases producerStep_effect args i s.queue with hquiet | ⟨call, hpc, hwrite⟩
  · rw [hquiet.names] at hname
    exact Or.inl hname
  · rw [hwrite.names] at hname
    have hcall := (h.call call (by rw [hpc]; rfl)).2.2
    rcases List.mem_cons.mp hname with rfl | hold
    · exact Or.inr ⟨hcall.evaluates, hcall.name⟩
    · exact Or.inl hold

/-- The hook's step moves nothing of the worker's. -/
theorem producerStep_frame (args : Args) (i : ProducerInput) (q : Queue) :
    (producerStep args i q).running = q.running ∧ (producerStep args i q).done = q.done ∧
      (producerStep args i q).worker = q.worker := by
  rcases producerStep_effect args i q with hquiet | ⟨call, -, hwrite⟩
  · exact ⟨hquiet.running, hquiet.done, hquiet.worker⟩
  · exact ⟨hwrite.running, hwrite.done, hwrite.worker⟩

theorem Alone.producer {q : Queue} (h : Alone q) (i : ProducerInput) :
    Alone (producerStep args i q) := by
  obtain ⟨hrunning, -, hworker⟩ := producerStep_frame args i q
  unfold Alone
  rw [hrunning, hworker]
  exact h

/-- A call that has just returned is recorded; any other step records nothing. -/
theorem mem_returned_hook {rolloutId r : Nat} {q : Queue}
    (h : r ∈ (s.hook rolloutId q).returned) :
    r ∈ s.returned ∨ r = rolloutId ∧ q.producer = .idle ∧ q.raised = false := by
  unfold StudyQueue.hook at h
  dsimp only at h
  split at h
  · next hidle =>
      split at h
      · exact Or.inl h
      · next hraised =>
          rcases List.mem_cons.mp h with rfl | hold
          · exact Or.inr ⟨rfl, hidle, Bool.eq_false_of_not_eq_true hraised⟩
          · exact Or.inl hold
  · exact Or.inl h

/-- What a step of the hook for a rollout does to the run. -/
structure HookStep (args : Args) (saves : Nat → Bool) (s : StudyQueue) (i : ProducerInput)
    (rolloutId : Nat) : Prop where
  next : s.next ≤ rolloutId + 1
  executes : args.executes rolloutId = true
  saved : saves rolloutId = true
  names : ∀ name ∈ enqueuedNames (producerStep args i s.queue).log,
    name ∈ enqueuedNames s.queue.log ∨
      Evaluates args (rolloutId + 1) ∧ name = jobName (runName args) (rolloutId + 1)
  call : ∀ call, callOf (producerStep args i s.queue).producer = some call →
    CallFor args (rolloutId + 1) call
  returns : (producerStep args i s.queue).producer = .idle →
    (producerStep args i s.queue).raised = false → Evaluates args (rolloutId + 1) →
    rolloutId + 1 = args.finalStep → finalName args ∈ s.queue.done

/-- A call begins. -/
theorem hookStep_idle (hidle : s.queue.producer = .idle) {i : ProducerInput}
    (hnext : s.next ≤ i.rolloutId) (hexecutes : args.executes i.rolloutId = true)
    (hsaved : saves i.rolloutId = true)
    (hdirectory : i.hfCheckpointDir = args.hfCheckpointDir i.rolloutId) :
    HookStep args saves s i i.rolloutId := by
  have hcases := @producerStep_idle args i s.queue hidle
  rw [hdirectory] at hcases
  refine ⟨by omega, hexecutes, hsaved, ?_, ?_, ?_⟩
  · intro name hname
    rcases hcases with ⟨error, heq⟩ | ⟨-, heq⟩ | ⟨call, -, heq⟩
    all_goals
      rw [heq] at hname
      exact Or.inl hname
  · intro call hcall
    rcases hcases with ⟨error, heq⟩ | ⟨-, heq⟩ | ⟨call', hstart, heq⟩
    · rw [heq] at hcall
      cases hcall
    · rw [heq, hidle] at hcall
      cases hcall
    · rw [heq] at hcall
      obtain rfl := Option.some.inj hcall
      exact startEnqueue_some hstart
  · intro hover hraised hevaluates
    rcases hcases with ⟨error, heq⟩ | ⟨hnone, -⟩ | ⟨call, -, heq⟩
    · rw [heq] at hraised
      cases hraised
    · exact absurd hevaluates (startEnqueue_none hnone)
    · rw [heq] at hover
      cases hover

/-- A call goes on. -/
theorem StudyInv.hookStep_busy (h : StudyInv args saves workerArgs s)
    (hbusy : s.queue.producer ≠ .idle) (i : ProducerInput) :
    HookStep args saves s i (s.next - 1) := by
  obtain ⟨call, hcall⟩ : ∃ call, callOf s.queue.producer = some call := by
    cases hpc : s.queue.producer with
    | idle => exact absurd hpc hbusy
    | _ => exact ⟨_, rfl⟩
  obtain ⟨hpos, hsaved, hfor⟩ := h.call call hcall
  have hpred : s.next - 1 + 1 = s.next := by omega
  have hcontinues := (producerStep_cases args i _).call hcall
  refine ⟨by omega, h.handed s.next hpos (Nat.le_refl _), hsaved, ?_, ?_, ?_⟩
  · rw [hpred]
    exact h.producer_names i
  · rw [hpred]
    intro call' hin
    rcases hcontinues with hsame | ⟨hidle, -⟩
    · rw [hsame] at hin
      obtain rfl := Option.some.inj hin
      exact hfor
    · rw [hidle] at hin
      cases hin
  · rw [hpred]
    intro hidle hraised _ hfinal
    rcases hcontinues with hsame | ⟨-, hraise | hnot | hdone⟩
    · rw [hidle] at hsame
      cases hsame
    · rw [hraise] at hraised
      cases hraised
    · rw [hfor.final.mpr hfinal] at hnot
      cases hnot
    · rw [hfor.name, hfinal] at hdone
      exact hdone

/-- Everything the hook's process can do to a run. -/
theorem StudyInv.producer_cases (h : StudyInv args saves workerArgs s) (i : ProducerInput) :
    studyQueueStep args saves workerArgs s (.producer i) = s ∨
    ∃ i' rolloutId, HookStep args saves s i' rolloutId ∧
      studyQueueStep args saves workerArgs s (.producer i) =
        s.hook rolloutId (producerStep args i' s.queue) := by
  unfold studyQueueStep
  dsimp only
  split
  · next hidle =>
      split
      · exact Or.inl rfl
      · next hguard =>
          simp only [not_or, Bool.not_eq_false] at hguard
          obtain ⟨-, hnext, hexecutes, hsaved⟩ := hguard
          exact Or.inr
            ⟨{ i with hfCheckpointDir := args.hfCheckpointDir i.rolloutId }, i.rolloutId,
              hookStep_idle hidle (Nat.le_of_not_lt hnext) hexecutes hsaved rfl, rfl⟩
  · next hbusy => exact Or.inr ⟨i, _, h.hookStep_busy hbusy i, rfl⟩

theorem StudyInv.step (h : StudyInv args saves workerArgs s)
    (hstart : args.startRolloutId.getD 0 = 0) (input : QueueInput) :
    StudyInv args saves workerArgs (studyQueueStep args saves workerArgs s input) := by
  cases input with
  | producer i =>
      rcases h.producer_cases i with hsame | ⟨i', rolloutId, hstep, heq⟩
      · rw [hsame]
        exact h
      · rw [heq]
        exact
          { queue := h.queue.step args (.producer i')
            alone := h.alone.producer i'
            handed := fun update hpos hle =>
              executes_mono hstart hstep.executes (show update - 1 ≤ rolloutId by
                have : update ≤ rolloutId + 1 := hle
                omega)
            names := fun name hname => by
              rcases hstep.names name hname with hold | ⟨hevaluates, hnew⟩
              · obtain ⟨update, hpos, hbefore, hspec⟩ := h.names name hold
                exact ⟨update, hpos, hbefore.trans hstep.next, hspec⟩
              · exact ⟨rolloutId + 1, by omega, Nat.le_refl _, ⟨hstep.saved, hevaluates⟩, hnew⟩
            call := fun call hin =>
              ⟨Nat.succ_le_succ (Nat.zero_le _), hstep.saved, hstep.call call hin⟩ }
  | worker i =>
      have heffect := workerStep_effect h.queue.worker i
      exact
        { queue := h.queue.step args (.worker i)
          alone := h.alone.worker
          handed := h.handed
          names := fun name hname => by
            have hold : name ∈ enqueuedNames (workerStep workerArgs i s.queue).log := hname
            rw [heffect.names] at hold
            exact h.names name hold
          call := fun call hin => by
            have hold : callOf (workerStep workerArgs i s.queue).producer = some call := hin
            rw [heffect.producer] at hold
            exact h.call call hold }
  | exported path snapshot =>
      exact
        { queue := h.queue.step args (.exported path snapshot)
          alone := h.alone
          handed := h.handed
          names := h.names
          call := h.call }

theorem FinalInv.step (hfinal : FinalInv args s.queue s.returned)
    (h : StudyInv args saves workerArgs s) (hstart : args.startRolloutId.getD 0 = 0)
    (hawaits : AwaitsLast args saves) (input : QueueInput) :
    FinalInv args (studyQueueStep args saves workerArgs s input).queue
      (studyQueueStep args saves workerArgs s input).returned := by
  cases input with
  | producer i =>
      rcases h.producer_cases i with hsame | ⟨i', rolloutId, hstep, heq⟩
      · rw [hsame]
        exact hfinal
      · rw [heq]
        obtain ⟨-, hdone, -⟩ := producerStep_frame args i' s.queue
        refine ⟨h.producer_drained hstart hawaits hfinal i', fun r hr hlast => ?_⟩
        show finalName args ∈ (producerStep args i' s.queue).done
        rw [hdone]
        rcases mem_returned_hook hr with hold | ⟨rfl, hidle, hraised⟩
        · exact hfinal.returned r hold hlast
        · exact hstep.returns hidle hraised (hlast ▸ hawaits.evaluates) hlast
  | worker i =>
      have heffect := workerStep_effect h.queue.worker i
      exact
        { drained := workerStep_drained h.queue h.alone (h.before_final hstart hawaits)
            hfinal.drained
          returned := fun r hr hlast => heffect.done _ (hfinal.returned r hr hlast) }
  | exported path snapshot => exact ⟨hfinal.drained, hfinal.returned⟩

end Invariant

theorem studyInv_fresh (args : Args) (saves : Nat → Bool) (workerArgs : WorkerArgs)
    (checkpoints : Path → Option Snapshot) :
    StudyInv args saves workerArgs
      { queue := Queue.fresh checkpoints, next := 0, returned := [] } :=
  { queue := queueInv_fresh workerArgs checkpoints
    alone := fun name hname => by cases hname
    handed := fun update hpos hle => by
      have : update ≤ 0 := hle
      omega
    names := fun name hname => by cases hname
    call := fun call hcall => by cases hcall }

theorem finalInv_fresh (args : Args) (checkpoints : Path → Option Snapshot) :
    FinalInv args (Queue.fresh checkpoints) [] := by
  refine ⟨fun hreached => ?_, fun r hr => by cases hr⟩
  rcases hreached with hr | hd | hhand
  · cases hr
  · cases hd
  · cases hhand

/-- In every state an interleaving of a run's hook and the worker reaches: when
the call for the last update the run executes has returned, every job the run
ever enqueued is in `done`. -/
def FinalDrains (args : Args) (saves : Nat → Bool) : Prop :=
  ∀ (workerArgs : WorkerArgs) (checkpoints : Path → Option Snapshot)
    (inputs : List QueueInput) (rolloutId : Nat),
    args.executes rolloutId = true → args.endsAfter rolloutId = true →
    rolloutId ∈ (studyQueueRun args saves workerArgs checkpoints inputs).returned →
    ∀ name job,
      .enqueued name job ∈ (studyQueueRun args saves workerArgs checkpoints inputs).queue.log →
      name ∈ (studyQueueRun args saves workerArgs checkpoints inputs).queue.done

/-- **Final drain.** A run with something to drain is drained by its last update
where that update is recognised as final, has a suite, and sorts last. -/
theorem final_drain {args : Args} {saves : Nat → Bool}
    (hstart : args.startRolloutId.getD 0 = 0) (hdrains : Drains args saves) :
    FinalDrains args saves := by
  intro workerArgs checkpoints inputs rolloutId hexecutes hends hreturned name job hjob
  have hrun : ∀ inputs, StudyInv args saves workerArgs
      (studyQueueRun args saves workerArgs checkpoints inputs) :=
    invariant_run (fun _ input hs => hs.step hstart input)
      (studyInv_fresh args saves workerArgs checkpoints)
  have hname := mem_enqueuedNames.mpr ⟨job, hjob⟩
  -- There is something to drain: this job.
  have hawaits : AwaitsLast args saves := by
    obtain ⟨update, hpos, hle, hevaluates, -⟩ := (hrun inputs).names name hname
    exact hdrains ⟨update, hpos, (hrun inputs).handed update hpos hle, hevaluates⟩
  have hboth : ∀ inputs, StudyInv args saves workerArgs
      (studyQueueRun args saves workerArgs checkpoints inputs) ∧
      FinalInv args (studyQueueRun args saves workerArgs checkpoints inputs).queue
        (studyQueueRun args saves workerArgs checkpoints inputs).returned :=
    @invariant_run _ _ (studyQueueStep args saves workerArgs)
      (fun s => StudyInv args saves workerArgs s ∧ FinalInv args s.queue s.returned)
      (fun _ input hs => ⟨hs.1.step hstart input, hs.2.step hs.1 hstart hawaits input⟩) _
      ⟨studyInv_fresh args saves workerArgs checkpoints, finalInv_fresh args checkpoints⟩
  obtain ⟨-, hfinal⟩ := hboth inputs
  have hdone := hfinal.returned rolloutId hreturned
    (endsAfter_eq hstart hawaits.stop hexecutes hends)
  by_cases heq : name = finalName args
  · rw [heq]
    exact hdone
  · exact (hfinal.drained (Or.inr (Or.inl hdone))).2 name hname heq

/-- A study with temporary snapshots, for what is said at fixed inputs. -/
def queuedStudy (numRollout : Nat) (stop : Option Nat) : Args :=
  { numRollout
    debugExitAfterRollout := stop
    opsdContext := .worked
    opsdReduction := .sampleMean
    opsdTemperature := 1
    opsdTokenClip := 0
    rolloutBatchSize := 4
    nSamplesPerPrompt := 1
    globalBatchSize := 4
    seqLength := 8
    vocabSize := 4
    lr := 1
    lrDecayStyle := .constant
    noLoadOptim := true
    startRolloutId := some 0
    saveHf := some ["root", "run", "eval-snapshots"]
    saveInterval := some 1
    opsdEvalQueue := some ["queue"] }

/-- A save after every update, as the interval of one has it. -/
def savesAll (_ : Nat) : Bool := true

theorem final_drain_earlyExit : FinalDrains (queuedStudy 7 (some 5)) savesAll :=
  final_drain rfl
    (drains_of_lt (by decide) (evaluates_finalStep rfl (by decide)) (by decide))

/-- A worker whose evaluations succeed. -/
def servingWorker : WorkerArgs :=
  { seedNamespace := "seeds"
    expectedCompletions := fun _ => some 1
    protocol := ⟨"seeds", ⟨"prompts", "labels"⟩, some ⟨"prompts", "labels"⟩⟩ }

def servingInput (digest : String) : QueueInput :=
  .worker
    { observed := servingWorker.protocol
      record := ⟨"completed", "seeds", digest, 1, "prompts", "labels"⟩ }

/-- A call of the hook for one rollout, from its export to its write. -/
def hookInputs (rolloutId : Nat) : List QueueInput :=
  .exported ["root", "run", "eval-snapshots", "step_" ++ toString rolloutId]
      { complete := true, isSymlink := false, digest := "weights" } ::
    .producer { rolloutId } :: List.replicate 9 (.producer {})

/-- Updates 9000 and 10000 are both pending when the worker gets to them. -/
def crossingRun : StudyQueue :=
  studyQueueRun (queuedStudy 10000 none) savesAll servingWorker (fun _ => none)
    (hookInputs 8999 ++ hookInputs 9999 ++ List.replicate 12 (servingInput "weights") ++
      [.producer {}])

/-- An early exit at an update without a suite, after update seven was enqueued. -/
def unsuitedStudy : Args :=
  { queuedStudy 88 (some 8) with opsdCyclicTeacherPolicy := some .fixedOriginal }

def unsuitedRun : StudyQueue :=
  studyQueueRun unsuitedStudy savesAll servingWorker (fun _ => none) (hookInputs 6 ++ hookInputs 7)

/-- Past four digits a later job sorts before an earlier one, and an early exit
of a cyclic schedule may meet no suite: neither run is drained. -/
theorem final_drain_crossing :
    (validateCyclicArgs unsuitedStudy = .ok () ∧ ¬ FinalDrains unsuitedStudy savesAll) ∧
      ¬ FinalDrains (queuedStudy 10000 none) savesAll := by
  refine ⟨⟨by decide +kernel, fun h => ?_⟩, fun h => ?_⟩
  · obtain ⟨job, hjob⟩ : ∃ job, .enqueued "run-step-0007.json" job ∈ unsuitedRun.queue.log :=
      mem_enqueuedNames.mp (by decide +kernel)
    have hreturned : 7 ∈ unsuitedRun.returned := by decide +kernel
    have hpending : "run-step-0007.json" ∉ unsuitedRun.queue.done := by decide +kernel
    exact hpending (h _ _ _ 7 (by decide) (by decide) hreturned _ job hjob)
  · obtain ⟨job, hjob⟩ : ∃ job, .enqueued "run-step-9000.json" job ∈ crossingRun.queue.log :=
      mem_enqueuedNames.mp (by decide +kernel)
    have hreturned : 9999 ∈ crossingRun.returned := by decide +kernel
    have hpending : "run-step-9000.json" ∉ crossingRun.queue.done := by decide +kernel
    exact hpending (h _ _ _ 9999 (by decide) (by decide) hreturned _ job hjob)

end Crisp.Proofs
