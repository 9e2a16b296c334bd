import Crisp.Proofs.FinalDrain

/-!
# Enqueueing an update again

A job that was enqueued before is found by the scan wherever the worker carries
it, so the repeated call writes nothing: `ProducerInv` excludes every program
counter from the capacity glob on, and what is left of the call is `Quiet`. The
worker does not look at the producer or at the history, so what the queue holds
is what the worker alone makes of it.

The check itself is where the call can fail. It tests that an entry exists and
then reads it, and between the two the worker may rename or unlink the entry.
`ReadsFind` is that no such move falls between the two, and a call raises
exactly where one does.
-/

namespace Crisp.Proofs

open Crisp.Lib Crisp.Ref

/-! ## What the worker reads -/

/-- Two states that differ in the producer and the history only. -/
structure SameContents (q r : Queue) : Prop where
  pending : q.pending = r.pending
  running : q.running = r.running
  done : q.done = r.done
  failed : q.failed = r.failed
  checkpoints : q.checkpoints = r.checkpoints
  worker : q.worker = r.worker

theorem SameContents.refl (q : Queue) : SameContents q q := ⟨rfl, rfl, rfl, rfl, rfl, rfl⟩

theorem SameContents.trans {q r s : Queue} (h : SameContents q r) (h' : SameContents r s) :
    SameContents q s :=
  ⟨h.pending.trans h'.pending, h.running.trans h'.running, h.done.trans h'.done,
    h.failed.trans h'.failed, h.checkpoints.trans h'.checkpoints, h.worker.trans h'.worker⟩

/-- The worker goes on in the same way from both. -/
theorem SameContents.workerStep {q r : Queue} (h : SameContents q r) (args : WorkerArgs)
    (i : WorkerInput) :
    SameContents (workerStep args i q) (workerStep args i r) := by
  obtain ⟨pending, running, done, failed, checkpoints, producer, worker, log⟩ := q
  obtain ⟨pending', running', done', failed', checkpoints', producer', worker', log'⟩ := r
  obtain ⟨rfl, rfl, rfl, rfl, rfl, rfl⟩ := h
  unfold Crisp.Ref.workerStep Queue.interruptedRemoval Queue.workerFails
  dsimp only
  cases i.fails with
  | some error =>
      cases worker <;> exact ⟨rfl, rfl, rfl, rfl, rfl, rfl⟩
  | none =>
      cases worker <;> dsimp only
      all_goals
        repeat' split
        all_goals exact ⟨rfl, rfl, rfl, rfl, rfl, rfl⟩

theorem SameContents.run {q r : Queue} (h : SameContents q r) (args : WorkerArgs) :
    ∀ inputs, SameContents (runFrom (fun q i => Crisp.Ref.workerStep args i q) q inputs)
      (runFrom (fun q i => Crisp.Ref.workerStep args i q) r inputs) := by
  intro inputs
  induction inputs generalizing q r with
  | nil => exact h
  | cons i is ih => exact ih (h.workerStep args i)

theorem Quiet.sameContents {q q' : Queue} (h : Quiet q q') (hfailed : q'.failed = q.failed) :
    SameContents q' q :=
  ⟨h.pending, h.running, h.done, hfailed, h.checkpoints, h.worker⟩

/-! ## The repeated call -/

/-- An exception has left the hook that often. -/
def raises (q : Queue) : Nat :=
  q.log.countP fun
    | .raised _ => true
    | _ => false

/-- The call is in its second loop. -/
def waiting : ProducerPc → Bool
  | .waitDone _ => true
  | .globFailed wait _ => wait
  | .heartbeat wait _ => wait
  | _ => false

/-- The job of the call is in the queue already, with its digest and suites. -/
structure Enqueued (workerArgs : WorkerArgs) (q : Queue) (call : Enqueue) : Prop where
  inv : QueueInv workerArgs q
  known : call.name ∈ enqueuedNames q.log
  same : ∀ stage previous, (q.dir stage).lookup call.name = some previous →
    previous.checkpointSha256 = call.job.checkpointSha256 ∧
      previous.evaluationSuites = call.job.evaluationSuites
  only : ∀ call', callOf q.producer = some call' → call' = call
  wait : waiting q.producer = true → call.final = true

/-- Where a call for a job that is known can be. -/
inductive Repeating (call : Enqueue) : ProducerPc → Prop
  | idle : Repeating call .idle
  | globFailed (wait : Bool) : Repeating call (.globFailed wait call)
  | heartbeat (wait : Bool) : Repeating call (.heartbeat wait call)
  | scan (stage : Stage) : Repeating call (.scan call stage)
  | compareExists (stage : Stage) : Repeating call (.compareExists call stage)
  | compareRead (stage : Stage) : Repeating call (.compareRead call stage)
  | waitDone : Repeating call (.waitDone call)

section Call

variable {args : Args} {workerArgs : WorkerArgs} {q : Queue} {call : Enqueue}

/-- The program counters that lead to the write are out of reach. -/
theorem Enqueued.repeating (h : Enqueued workerArgs q call) : Repeating call q.producer := by
  have hinv := h.inv.producer
  have hcall := h.only
  unfold ProducerInv at hinv
  cases hpc : q.producer with
  | idle => exact .idle
  | globFailed wait call' =>
      rw [hpc] at hcall
      obtain rfl := hcall call' rfl
      exact .globFailed wait
  | heartbeat wait call' =>
      rw [hpc] at hcall
      obtain rfl := hcall call' rfl
      exact .heartbeat wait
  | scan call' stage =>
      rw [hpc] at hcall
      obtain rfl := hcall call' rfl
      exact .scan stage
  | compareExists call' stage =>
      rw [hpc] at hcall
      obtain rfl := hcall call' rfl
      exact .compareExists stage
  | compareRead call' stage =>
      rw [hpc] at hcall
      obtain rfl := hcall call' rfl
      exact .compareRead stage
  | waitDone call' =>
      rw [hpc] at hcall
      obtain rfl := hcall call' rfl
      exact .waitDone
  | globPending call' =>
      rw [hpc] at hcall hinv
      obtain rfl := hcall call' rfl
      exact absurd h.known hinv
  | globRunning call' =>
      rw [hpc] at hcall hinv
      obtain rfl := hcall call' rfl
      exact absurd h.known hinv.1
  | writeTemporary call' =>
      rw [hpc] at hcall hinv
      obtain rfl := hcall call' rfl
      exact absurd h.known hinv.1
  | rename call' =>
      rw [hpc] at hcall hinv
      obtain rfl := hcall call' rfl
      exact absurd h.known hinv.1

theorem Enqueued.quiet (h : Enqueued workerArgs q call) (i : ProducerInput) :
    Quiet q (producerStep args i q) := by
  rcases producerStep_effect args i q with hquiet | ⟨call', hpc, -⟩
  · exact hquiet
  · have hrepeating := h.repeating
    rw [hpc] at hrepeating
    cases hrepeating

theorem producerStep_failed (args : Args) (i : ProducerInput) (q : Queue) :
    (producerStep args i q).failed = q.failed := by
  unfold producerStep Queue.compareNext Queue.leaveLoop
  repeat' split
  all_goals rfl

theorem waiting_leaveLoop {call : Enqueue}
    (h : waiting (q.leaveLoop call).producer = true) : call.final = true := by
  unfold Queue.leaveLoop at h
  split at h
  · next hfinal => exact hfinal
  · cases h

theorem waiting_compareNext {call : Enqueue} {stage : Stage}
    (h : waiting (q.compareNext call stage).producer = true) : call.final = true := by
  unfold Queue.compareNext at h
  split at h
  · cases h
  · exact waiting_leaveLoop h

/-- Only the last update's call gets to the second loop. -/
theorem ProducerMove.final_of_waiting {i : ProducerInput} {q' : Queue}
    (hmove : ProducerMove args i q q') (h : waiting q'.producer = true) :
    waiting q.producer = true ∨
      ∃ call, callOf q.producer = some call ∧ call.final = true := by
  cases hmove with
  | skips _ _ => exact Or.inl h
  | noFailure hpc =>
      rw [hpc]
      exact Or.inl h
  | beatsLast hpc =>
      rw [hpc]
      exact Or.inl rfl
  | passes hpc _ =>
      rw [hpc]
      exact Or.inr ⟨_, rfl, waiting_compareNext h⟩
  | agrees hpc _ =>
      rw [hpc]
      exact Or.inr ⟨_, rfl, waiting_compareNext h⟩
  | renames hpc =>
      rw [hpc]
      exact Or.inr ⟨_, rfl, waiting_leaveLoop h⟩
  | waits hpc _ =>
      rw [hpc]
      exact Or.inl rfl
  | _ => cases h

/-- A call step is a step of the queue, or nothing. -/
theorem callStep_cases (args : Args) (workerArgs : WorkerArgs) (q : Queue)
    (i : Option WorkerInput) :
    (callStep args workerArgs q i = q ∧ i = none ∧ q.producer = .idle) ∨
    (callStep args workerArgs q i = producerStep args {} q ∧ i = none ∧ q.producer ≠ .idle) ∨
    ∃ input, i = some input ∧ callStep args workerArgs q i = workerStep workerArgs input q := by
  cases i with
  | some input => exact Or.inr (Or.inr ⟨input, rfl, rfl⟩)
  | none =>
      by_cases hpc : q.producer = .idle
      · exact Or.inl ⟨by unfold callStep; rw [hpc], rfl, hpc⟩
      · refine Or.inr (Or.inl ⟨?_, rfl, hpc⟩)
        unfold callStep
        cases hq : q.producer with
        | idle => exact absurd hq hpc
        | _ => rfl

theorem Enqueued.step (h : Enqueued workerArgs q call) (i : Option WorkerInput) :
    Enqueued workerArgs (callStep args workerArgs q i) call := by
  rcases callStep_cases args workerArgs q i with ⟨heq, -⟩ | ⟨heq, -, hbusy⟩ | ⟨input, -, heq⟩
  · rw [heq]
    exact h
  · rw [heq]
    have hquiet : Quiet q (producerStep args {} q) := h.quiet {}
    refine ⟨h.inv.step args (.producer {}), by rw [hquiet.names]; exact h.known, ?_, ?_, ?_⟩
    · intro stage previous hprevious
      rw [hquiet.dir] at hprevious
      exact h.same stage previous hprevious
    · intro call' hcall'
      obtain ⟨before, hbefore⟩ : ∃ before, callOf q.producer = some before := by
        cases hpc : q.producer with
        | idle => exact absurd hpc hbusy
        | _ => exact ⟨_, rfl⟩
      rcases (producerStep_cases args {} q).call hbefore with hsame | ⟨hidle, -⟩
      · rw [hsame] at hcall'
        obtain rfl := Option.some.inj hcall'
        exact h.only _ hbefore
      · rw [hidle] at hcall'
        cases hcall'
    · intro hwaits
      rcases (producerStep_cases args {} q).final_of_waiting hwaits with
        hbefore | ⟨call', hcall', hfinal⟩
      · exact h.wait hbefore
      · rw [← h.only call' hcall']
        exact hfinal
  · rw [heq]
    have heffect := workerStep_effect h.inv.worker input
    refine ⟨h.inv.step args (.worker input), by rw [heffect.names]; exact h.known, ?_, ?_,
      ?_⟩
    · intro stage previous hprevious
      obtain ⟨before, hbefore⟩ := heffect.owned stage _ previous hprevious
      exact h.same before previous hbefore
    · rw [heffect.producer]
      exact h.only
    · rw [heffect.producer]
      exact h.wait

theorem Enqueued.run (h : Enqueued workerArgs q call) (inputs : List (Option WorkerInput)) :
    Enqueued workerArgs (runFrom (callStep args workerArgs) q inputs) call :=
  @invariant_run _ _ (callStep args workerArgs) (fun q => Enqueued workerArgs q call)
    (fun _ i hq => hq.step i) q h inputs

/-! ## Where it raises -/

theorem raises_raise (q : Queue) (error : PyError) : raises (q.raise error) = raises q + 1 :=
  List.countP_cons_of_pos rfl

theorem raises_workerStep (args : WorkerArgs) (i : WorkerInput) (q : Queue) :
    raises (workerStep args i q) = raises q := by
  have hmove := workerStep_cases args i q
  generalize workerStep args i q = q' at hmove
  cases hmove <;> rfl

theorem raises_leaveLoop (q : Queue) (call : Enqueue) :
    raises (q.leaveLoop call) = raises q := by
  unfold Queue.leaveLoop
  split <;> rfl

theorem raises_compareNext (q : Queue) (call : Enqueue) (stage : Stage) :
    raises (q.compareNext call stage) = raises q := by
  unfold Queue.compareNext
  split
  · rfl
  · exact raises_leaveLoop q call

/-- The producer is about to read an entry that is not there. -/
def Missed (q : Queue) : Prop :=
  ∃ call stage, q.producer = .compareRead call stage ∧ call.name ∉ q.dir stage

instance (q : Queue) : Decidable (Missed q) :=
  match h : q.producer with
  | .compareRead call stage =>
      decidable_of_iff (call.name ∉ q.dir stage)
        ⟨fun hmissing => ⟨call, stage, h, hmissing⟩, fun ⟨call', stage', hpc, hmissing⟩ => by
          rw [h] at hpc
          cases hpc
          exact hmissing⟩
  | .idle | .globFailed _ _ | .heartbeat _ _ | .scan _ _ | .compareExists _ _ | .globPending _
  | .globRunning _ _ | .writeTemporary _ | .rename _ | .waitDone _ =>
      isFalse fun ⟨_, _, hpc, _⟩ => by rw [h] at hpc; cases hpc

/-- The entry that is read next, if one is, is still in its directory. -/
def ReadFinds (q : Queue) (i : Option WorkerInput) : Prop := i.isNone = true → ¬ Missed q

instance (q : Queue) (i : Option WorkerInput) : Decidable (ReadFinds q i) :=
  inferInstanceAs (Decidable (i.isNone = true → ¬ Missed q))

/-- Nothing failed so far. -/
def NothingFailed (q : Queue) (_ : Option WorkerInput) : Prop := Dir.count q.failed = 0

instance (q : Queue) (i : Option WorkerInput) : Decidable (NothingFailed q i) :=
  inferInstanceAs (Decidable (Dir.count q.failed = 0))

theorem Enqueued.raises_of_found (h : Enqueued workerArgs q call)
    (hbusy : q.producer ≠ .idle) (hfailed : Dir.count q.failed = 0) (hfinds : ¬ Missed q) :
    raises (producerStep args {} q) = raises q := by
  have hrepeating := h.repeating
  have hsame := h.same
  unfold producerStep
  cases hpc : q.producer with
  | idle => exact absurd hpc hbusy
  | globFailed wait call' =>
      rw [List.length_eq_zero_iff.mp hfailed]
      rfl
  | heartbeat wait call' => cases wait <;> rfl
  | scan call' stage =>
      dsimp only
      split
      · rfl
      · split <;> rfl
  | compareExists call' stage =>
      dsimp only
      split
      · rfl
      · exact raises_compareNext q call' stage
  | compareRead call' stage =>
      have hmem : call'.name ∈ q.dir stage := by
        by_contra hmissing
        exact hfinds ⟨call', stage, hpc, hmissing⟩
      obtain ⟨previous, hprevious⟩ := Dir.lookup_of_mem hmem
      have hcall' : call' = call := h.only call' (by rw [hpc]; rfl)
      obtain ⟨hsha, hsuites⟩ := hsame stage previous (hcall' ▸ hprevious)
      dsimp only
      rw [hprevious]
      dsimp only
      rw [hcall', if_neg (not_not.mpr hsha), if_neg (not_not.mpr hsuites)]
      exact raises_compareNext q call stage
  | waitDone call' =>
      dsimp only
      split <;> rfl
  | _ =>
      rw [hpc] at hrepeating
      cases hrepeating

theorem raises_of_missed (hmissed : Missed q) :
    raises (producerStep args {} q) = raises q + 1 := by
  obtain ⟨call, stage, hpc, hmissing⟩ := hmissed
  have hnone : (q.dir stage).lookup call.name = none := AList.lookup_eq_none.mpr hmissing
  unfold producerStep
  rw [hpc]
  dsimp only
  rw [hnone]
  exact raises_raise q _

/-- A step raises exactly where a read misses its entry. -/
theorem Enqueued.raises_callStep (h : Enqueued workerArgs q call) {i : Option WorkerInput}
    (hfailed : NothingFailed q i) :
    (ReadFinds q i → raises (callStep args workerArgs q i) = raises q) ∧
      (¬ ReadFinds q i → raises (callStep args workerArgs q i) = raises q + 1) := by
  rcases callStep_cases args workerArgs q i with ⟨heq, rfl, hidle⟩ | ⟨heq, rfl, hbusy⟩ |
    ⟨input, rfl, heq⟩
  · have hfinds : ReadFinds q none := fun _ hmissed => by
      obtain ⟨call', stage, hpc, -⟩ := hmissed
      rw [hidle] at hpc
      cases hpc
    rw [heq]
    exact ⟨fun _ => rfl, fun hnot => absurd hfinds hnot⟩
  · rw [heq]
    refine ⟨fun hfinds => h.raises_of_found hbusy hfailed (hfinds rfl), fun hnot => ?_⟩
    refine raises_of_missed ?_
    by_contra hfound
    exact hnot fun _ => hfound
  · rw [heq]
    exact ⟨fun _ => raises_workerStep workerArgs input q, fun hnot =>
      absurd (fun hnone => by cases hnone) hnot⟩

theorem Enqueued.raises_le (h : Enqueued workerArgs q call) :
    ∀ {inputs}, StepsMeet (callStep args workerArgs) NothingFailed q inputs →
      raises q ≤ raises (runFrom (callStep args workerArgs) q inputs) := by
  intro inputs hhealthy
  induction inputs generalizing q with
  | nil => exact Nat.le_refl _
  | cons i is ih =>
      have hrest := ih (h.step i) hhealthy.2
      obtain ⟨hfinds, hmisses⟩ := @Enqueued.raises_callStep args _ _ _ h _ hhealthy.1
      rw [runFrom_cons]
      by_cases hread : ReadFinds q i
      · have := hfinds hread
        omega
      · have := hmisses hread
        omega

/-- A run of the call raises exactly where a read of it misses its entry. -/
theorem Enqueued.raises_run (h : Enqueued workerArgs q call) :
    ∀ {inputs}, StepsMeet (callStep args workerArgs) NothingFailed q inputs →
      (raises (runFrom (callStep args workerArgs) q inputs) = raises q ↔
        StepsMeet (callStep args workerArgs) ReadFinds q inputs) := by
  intro inputs hhealthy
  induction inputs generalizing q with
  | nil => exact ⟨fun _ => trivial, fun _ => rfl⟩
  | cons i is ih =>
      have hnext : Enqueued workerArgs (callStep args workerArgs q i) call := h.step i
      have hle := hnext.raises_le hhealthy.2
      obtain ⟨hfinds, hmisses⟩ := @Enqueued.raises_callStep args _ _ _ h _ hhealthy.1
      rw [runFrom_cons]
      by_cases hread : ReadFinds q i
      · have hkept := hfinds hread
        rw [← hkept, ih (h.step i) hhealthy.2]
        exact ⟨fun hrest => ⟨hread, hrest⟩, fun hall => hall.2⟩
      · have hraised := hmisses hread
        exact ⟨fun hsame => by omega, fun hall => absurd hall.1 hread⟩

/-- What the queue holds is what the worker alone makes of it. -/
theorem Enqueued.sameContents_run (h : Enqueued workerArgs q call) :
    ∀ inputs, SameContents (runFrom (callStep args workerArgs) q inputs)
      (runFrom (fun q i => workerStep workerArgs i q) q (inputs.filterMap id)) := by
  intro inputs
  induction inputs generalizing q with
  | nil => exact SameContents.refl q
  | cons i is ih =>
      have hnext : Enqueued workerArgs (callStep args workerArgs q i) call := h.step i
      have hrest := ih hnext
      rw [runFrom_cons]
      rcases callStep_cases args workerArgs q i with ⟨heq, rfl, -⟩ | ⟨heq, rfl, -⟩ |
        ⟨input, rfl, heq⟩
      · rw [heq] at hrest ⊢
        exact hrest
      · rw [heq] at hrest ⊢
        refine hrest.trans (SameContents.run ?_ workerArgs _)
        exact (h.quiet {}).sameContents (producerStep_failed args {} q)
      · rw [heq] at hrest ⊢
        exact hrest

/-! ## That it ends -/

/-- A bound on the steps the call has left, once nothing is waited for. -/
def remaining : ProducerPc → Nat
  | .globFailed false _ => 13
  | .heartbeat false _ => 12
  | .scan _ .pending => 11
  | .scan _ .running => 10
  | .scan _ .done => 9
  | .compareExists _ .pending => 8
  | .compareRead _ .pending => 7
  | .compareExists _ .running => 6
  | .compareRead _ .running => 5
  | .compareExists _ .done => 4
  | .compareRead _ .done => 3
  | .globFailed true _ => 3
  | .heartbeat true _ => 2
  | .waitDone _ => 1
  | _ => 0

/-- The call need not wait. -/
def Settled (q : Queue) (call : Enqueue) : Prop := call.final = false ∨ call.name ∈ q.done

theorem remaining_leaveLoop (q : Queue) (call : Enqueue) :
    remaining (q.leaveLoop call).producer ≤ 1 := by
  unfold Queue.leaveLoop
  split
  · exact Nat.le_refl 1
  · exact Nat.zero_le 1

theorem remaining_compareNext (q : Queue) (call : Enqueue) (stage : Stage) :
    remaining (q.compareNext call stage).producer < remaining (.compareRead call stage) := by
  unfold Queue.compareNext
  have hleave := remaining_leaveLoop q call
  cases stage with
  | pending => exact (by decide : 6 < 7)
  | running => exact (by decide : 4 < 5)
  | done => exact Nat.lt_of_le_of_lt hleave (by decide : 1 < 3)

theorem remaining_compareRead (call : Enqueue) (stage : Stage) :
    remaining (.compareRead call stage) < remaining (.compareExists call stage) := by
  cases stage with
  | pending => exact (by decide : 7 < 8)
  | running => exact (by decide : 5 < 6)
  | done => exact (by decide : 3 < 4)

theorem Repeating.remaining_pos {pc : ProducerPc} (h : Repeating call pc) (hbusy : pc ≠ .idle) :
    0 < remaining pc := by
  cases h with
  | idle => exact absurd rfl hbusy
  | globFailed wait => cases wait <;> simp [remaining]
  | heartbeat wait => cases wait <;> simp [remaining]
  | scan stage => cases stage <;> simp [remaining]
  | compareExists stage => cases stage <;> simp [remaining]
  | compareRead stage => cases stage <;> simp [remaining]
  | waitDone => exact Nat.zero_lt_one

/-- Every step of the call brings its end nearer. -/
theorem ProducerMove.remaining_lt {i : ProducerInput} {q' : Queue}
    (hmove : ProducerMove args i q q') (h : Enqueued workerArgs q call)
    (hsettled : Settled q call) (hbusy : q.producer ≠ .idle) :
    remaining q'.producer < remaining q.producer := by
  have hrepeating := h.repeating
  have hpos := hrepeating.remaining_pos hbusy
  cases hmove with
  | raises error => exact hpos
  | skips hpc _ => exact absurd hpc hbusy
  | begins hpc _ => exact absurd hpc hbusy
  | @noFailure wait _ hpc =>
      rw [hpc]
      cases wait with
      | false => exact (by decide : 12 < 13)
      | true => exact (by decide : 2 < 3)
  | beats hpc =>
      rw [hpc]
      exact (by decide : 11 < 12)
  | beatsLast hpc =>
      rw [hpc]
      exact (by decide : 1 < 2)
  | @known _ stage hpc _ =>
      rw [hpc]
      cases stage with
      | pending => exact (by decide : 8 < 11)
      | running => exact (by decide : 8 < 10)
      | done => exact (by decide : 8 < 9)
  | @scans _ stage _ hpc _ hnext =>
      rw [hpc]
      cases stage with
      | pending => cases hnext; exact (by decide : 10 < 11)
      | running => cases hnext; exact (by decide : 9 < 10)
      | done => cases hnext
  | scansLast hpc _ =>
      rw [hpc]
      exact (by decide : 0 < 9)
  | finds hpc _ =>
      rw [hpc]
      exact remaining_compareRead _ _
  | passes hpc _ =>
      rw [hpc]
      exact (remaining_compareNext q _ _).trans (remaining_compareRead _ _)
  | agrees hpc _ =>
      rw [hpc]
      exact remaining_compareNext q _ _
  | isDone hpc _ => exact hpos
  | waits hpc habsent =>
      -- Only the last update's call waits, and its job is done already.
      have hcall := h.only _ (congrArg callOf hpc)
      have hfinal := h.wait (congrArg waiting hpc)
      rcases hsettled with hnot | hdone
      · rw [hfinal] at hnot
        cases hnot
      · exact absurd (hcall ▸ hdone) habsent
  | countsPending hpc => rw [hpc] at hrepeating; cases hrepeating
  | hasRoom hpc _ => rw [hpc] at hrepeating; cases hrepeating
  | isFull hpc => rw [hpc] at hrepeating; cases hrepeating
  | writes hpc => rw [hpc] at hrepeating; cases hrepeating
  | renames hpc => rw [hpc] at hrepeating; cases hrepeating

theorem Settled.step (h : Settled q call) (hinv : Enqueued workerArgs q call)
    (i : Option WorkerInput) : Settled (callStep args workerArgs q i) call := by
  rcases h with hnot | hdone
  · exact Or.inl hnot
  · right
    rcases callStep_cases args workerArgs q i with ⟨heq, -⟩ | ⟨heq, -⟩ | ⟨input, -, heq⟩
    · rw [heq]
      exact hdone
    · rw [heq, (hinv.quiet {}).done]
      exact hdone
    · rw [heq]
      exact (workerStep_effect hinv.inv.worker input).done _ hdone

/-- A settled call is over after as many steps of its own as it has left. -/
theorem Enqueued.idle_run (h : Enqueued workerArgs q call) (hsettled : Settled q call) :
    ∀ {inputs : List (Option WorkerInput)},
      remaining q.producer ≤ inputs.countP Option.isNone →
      (runFrom (callStep args workerArgs) q inputs).producer = .idle := by
  intro inputs hsteps
  induction inputs generalizing q with
  | nil =>
      have hrepeating := h.repeating
      have hzero : remaining q.producer = 0 := Nat.le_zero.mp hsteps
      rw [runFrom_nil]
      cases hpc : q.producer with
      | idle => rfl
      | globFailed wait call' => rw [hpc] at hzero; cases wait <;> cases hzero
      | heartbeat wait call' => rw [hpc] at hzero; cases wait <;> cases hzero
      | scan call' stage => rw [hpc] at hzero; cases stage <;> cases hzero
      | compareExists call' stage => rw [hpc] at hzero; cases stage <;> cases hzero
      | compareRead call' stage => rw [hpc] at hzero; cases stage <;> cases hzero
      | waitDone call' => rw [hpc] at hzero; cases hzero
      | _ =>
          rw [hpc] at hrepeating
          cases hrepeating
  | cons i is ih =>
      rw [runFrom_cons]
      refine ih (h.step i) (hsettled.step h i) ?_
      rcases callStep_cases args workerArgs q i with ⟨heq, rfl, hidle⟩ |
        ⟨heq, rfl, hbusy⟩ | ⟨input, rfl, heq⟩
      · rw [heq, hidle]
        exact Nat.zero_le _
      · have hless : remaining (producerStep args {} q).producer < remaining q.producer :=
          (producerStep_cases args {} q).remaining_lt h hsettled hbusy
        rw [List.countP_cons_of_pos (by rfl)] at hsteps
        rw [heq]
        omega
      · rw [heq]
        have hsame : (workerStep workerArgs input q).producer = q.producer :=
          (workerStep_effect h.inv.worker input).producer
        rw [hsame]
        rwa [List.countP_cons_of_neg (by simp)] at hsteps

end Call

/-! ## A second call for the same export -/

/-- What calling the hook again is to do, beside a worker that serves: it does not
raise, the queue holds what the worker alone would have left in it, and once the
job is done, or at once if the update is not the last, it returns within
thirteen steps of its own. -/
structure ReenqueueSucceeds (args : Args) (workerArgs : WorkerArgs) (q : Queue)
    (call : Enqueue) (inputs : List (Option WorkerInput)) : Prop where
  silent : raises (runFrom (callStep args workerArgs) q inputs) = raises q
  same : SameContents (runFrom (callStep args workerArgs) q inputs)
    (runFrom (fun q i => workerStep workerArgs i q) q (inputs.filterMap id))
  returns : ∀ before after, inputs = before ++ after →
    Settled (runFrom (callStep args workerArgs) q before) call →
    13 ≤ after.countP Option.isNone →
    (runFrom (callStep args workerArgs) q inputs).producer = .idle

/-- The hook has been called for an update whose job is in the queue already, with
the digest and the suites of the call. -/
structure CalledAgain (args : Args) (workerArgs : WorkerArgs) (q : Queue) (rolloutId : Nat)
    (hfCheckpointDir : Option Path) (call : Enqueue) : Prop where
  inv : QueueInv workerArgs q
  idle : q.producer = .idle
  starts : startEnqueue args q.checkpoints rolloutId hfCheckpointDir = .ok (some call)
  present : ∃ stage previous, (q.dir stage).lookup call.name = some previous ∧
    previous.checkpointSha256 = call.job.checkpointSha256 ∧
    previous.evaluationSuites = call.job.evaluationSuites

theorem remaining_le (pc : ProducerPc) : remaining pc ≤ 13 := by
  unfold remaining
  split <;> omega

/-- A name that was enqueued once was enqueued with one job. -/
theorem enqueued_unique {log : List Event} {name : String} {job job' : Job}
    (hnodup : (enqueuedNames log).Nodup) (hjob : .enqueued name job ∈ log)
    (hjob' : .enqueued name job' ∈ log) : job = job' := by
  induction log with
  | nil => cases hjob
  | cons event log ih =>
      have hrest : (enqueuedNames log).Nodup := by
        unfold enqueuedNames at hnodup ⊢
        rw [List.filterMap_cons] at hnodup
        split at hnodup
        · exact hnodup
        · exact (List.nodup_cons.mp hnodup).2
      have hhead : ∀ {j j' : Job}, event = .enqueued name j → .enqueued name j' ∈ log → False := by
        rintro j j' rfl hmem
        exact (List.nodup_cons.mp hnodup).1 (mem_enqueuedNames.mpr ⟨j', hmem⟩)
      rcases List.mem_cons.mp hjob with heq | hold
      · rcases List.mem_cons.mp hjob' with heq' | hold'
        · rw [← heq] at heq'
          exact ((Event.enqueued.inj heq').2).symm
        · exact (hhead heq.symm hold').elim
      · rcases List.mem_cons.mp hjob' with heq' | hold'
        · exact (hhead heq'.symm hold).elim
        · exact ih hrest hold hold'

/-- All files of one name hold the job that was once enqueued under it. -/
theorem CalledAgain.enqueued {args : Args} {workerArgs : WorkerArgs} {q : Queue}
    {rolloutId : Nat} {hfCheckpointDir : Option Path} {call : Enqueue}
    (h : CalledAgain args workerArgs q rolloutId hfCheckpointDir call) :
    Enqueued workerArgs { q with producer := .globFailed false call } call := by
  obtain ⟨stage, previous, hprevious, hsha, hsuites⟩ := h.present
  have howned := h.inv.shared.owned stage call.name previous hprevious
  have hunique : ∀ job, .enqueued call.name job ∈ q.log → job = previous := fun job hjob =>
    enqueued_unique h.inv.shared.once hjob howned
  refine ⟨⟨h.inv.shared.quiet (Quiet.move q _), trivial, ?_⟩, ?_, ?_, ?_, fun hwaits => ?_⟩
  · exact h.inv.worker.mono rfl rfl rfl fun _ he => he
  · exact mem_enqueuedNames.mpr ⟨previous, howned⟩
  · intro other job hjob
    have hdir : (q.dir other).lookup call.name = some job := by
      cases other <;> exact hjob
    rw [hunique job (h.inv.shared.owned other call.name job hdir)]
    exact ⟨hsha, hsuites⟩
  · intro call' hcall'
    exact (Option.some.inj hcall').symm
  · cases hwaits

/-- **Idempotent re-enqueue.** Beside a worker that fails nothing, a repeated call
succeeds exactly where no entry it has just found is moved away before it is
read. -/
theorem reenqueue_succeeds_iff {args : Args} {workerArgs : WorkerArgs} {q : Queue}
    {rolloutId : Nat} {hfCheckpointDir : Option Path} {call : Enqueue}
    (h : CalledAgain args workerArgs q rolloutId hfCheckpointDir call)
    {inputs : List (Option WorkerInput)}
    (hhealthy : StepsMeet (callStep args workerArgs) NothingFailed
      (producerStep args { rolloutId, hfCheckpointDir } q) inputs) :
    ReenqueueSucceeds args workerArgs (producerStep args { rolloutId, hfCheckpointDir } q)
        call inputs ↔
      StepsMeet (callStep args workerArgs) ReadFinds
        (producerStep args { rolloutId, hfCheckpointDir } q) inputs := by
  have hbegins : producerStep args { rolloutId, hfCheckpointDir } q =
      { q with producer := .globFailed false call } := by
    unfold producerStep
    rw [h.idle]
    dsimp only
    rw [h.starts]
  rw [hbegins] at hhealthy ⊢
  have henqueued := h.enqueued
  have hsilent := henqueued.raises_run hhealthy
  constructor
  · exact fun hsucceeds => hsilent.mp hsucceeds.silent
  · intro hfinds
    refine ⟨hsilent.mpr hfinds, henqueued.sameContents_run inputs, ?_⟩
    rintro before after rfl hsettled hsteps
    rw [runFrom_append]
    exact (henqueued.run before).idle_run hsettled ((remaining_le _).trans hsteps)

/-- The first update of a run has been enqueued, and the worker is idle. -/
def servedQueue : Queue :=
  queueRun (queuedStudy 7 none) servingWorker (fun _ => none)
    (.exported ["root", "run", "eval-snapshots", "step_0"]
        { complete := true, isSymlink := false, digest := "weights" } ::
      .producer
        { rolloutId := 0
          hfCheckpointDir := some ["root", "run", "eval-snapshots", "step_0"] } ::
      List.replicate 9 (.producer {}))

def servedCall : Enqueue :=
  { name := "run-step-0001.json"
    job :=
      { completedUpdates := 1
        rolloutId := 0
        checkpoint := ["root", "run", "eval-snapshots", "step_0"]
        checkpointSha256 := "weights"
        checkpointKind := "full_model"
        plannedUpdates := 7
        evaluationSuites := [.benchmark]
        temporarySnapshot := true
        wandb := none }
    final := false }

theorem servedQueue_calledAgain :
    CalledAgain (queuedStudy 7 none) servingWorker servedQueue 0
      (some ["root", "run", "eval-snapshots", "step_0"]) servedCall :=
  { inv := queueRun_inv ..
    idle := by decide +kernel
    starts := by decide +kernel
    present := ⟨.pending, servedCall.job, by decide +kernel, rfl, rfl⟩ }

def serving : Option WorkerInput :=
  some
    { observed := servingWorker.protocol
      record := ⟨"completed", "seeds", "weights", 1, "prompts", "labels"⟩ }

/-- The worker takes the job before the check gets to it, and serves it after. -/
theorem reenqueue_succeeds_iff_served :
    ReenqueueSucceeds (queuedStudy 7 none) servingWorker
      (producerStep (queuedStudy 7 none)
        { rolloutId := 0
          hfCheckpointDir := some ["root", "run", "eval-snapshots", "step_0"] } servedQueue)
      servedCall
      (List.replicate 2 none ++ List.replicate 4 serving ++ List.replicate 13 none ++
        List.replicate 8 serving) :=
  (reenqueue_succeeds_iff servedQueue_calledAgain (by decide +kernel)).mpr (by decide +kernel)

/-- The worker takes the job between the check and the read: the call raises. -/
theorem reenqueue_succeeds_iff_moved :
    ¬ ∀ (args : Args) (workerArgs : WorkerArgs) (q : Queue) (rolloutId : Nat)
        (hfCheckpointDir : Option Path) (call : Enqueue) (inputs : List (Option WorkerInput)),
      CalledAgain args workerArgs q rolloutId hfCheckpointDir call →
      StepsMeet (callStep args workerArgs) NothingFailed
        (producerStep args { rolloutId, hfCheckpointDir } q) inputs →
      ReenqueueSucceeds args workerArgs (producerStep args { rolloutId, hfCheckpointDir } q)
        call inputs := by
  intro hclaim
  have hraises := (hclaim _ _ _ _ _ _
    (List.replicate 4 none ++ List.replicate 3 serving ++ [none]) servedQueue_calledAgain
    (by decide +kernel)).silent
  revert hraises
  decide +kernel

end Crisp.Proofs
