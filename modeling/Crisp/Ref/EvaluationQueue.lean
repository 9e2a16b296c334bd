import Crisp.Lib.Dirs
import Crisp.Lib.Runs
import Crisp.Ref.Study

/-!
# The evaluation queue

Two processes share nothing but a directory tree: the save hook of the trainer,
which enqueues, and one worker, which serves. Each `exists`, glob, read,
rename, write and unlink is one step of the process that makes it, and between
any two of them the other may make as many as it likes. A process is its
program counter; what a file operation, an evaluation or the clock answers is
the input of the step.

A temporary file is the writer's own and is never globbed, so writing it
changes nothing the other process can see: the content waits in the program
counter for the rename. The log is history, kept for what is said about runs.
-/

namespace Crisp.Ref

open Crisp.Lib

/-! ## What the processes share -/

/-- An HF export directory, as far as the queue looks into it. -/
structure Snapshot where
  complete : Bool
  isSymlink : Bool
  digest : String
  deriving DecidableEq, Repr

/-- `checkpoint_digest` of what is at a path. -/
def checkpointDigest (snapshot : Option Snapshot) : Except PyError String :=
  match snapshot with
  | some s =>
      if s.complete then .ok s.digest
      else .error (valueError "Full OPSD evaluation checkpoint has no completion marker")
  | none => .error (valueError "Full OPSD evaluation checkpoint has no completion marker")

/-- The three directories a job moves through, in that order. -/
inductive Stage where
  | pending
  | running
  | done
  deriving DecidableEq, Repr

/-- The stage scanned after this one. -/
def Stage.next : Stage → Option Stage
  | .pending => some .running
  | .running => some .done
  | .done => none

/-- The hashes a protocol pins for one suite. -/
structure Assets where
  promptsSha256 : String
  labelsSha256 : String
  deriving DecidableEq, Repr

/-- What `_pin_protocol` returns. -/
structure Protocol where
  seedNamespace : String
  benchmark : Assets
  validation : Option Assets
  deriving DecidableEq, Repr

/-- `protocol[prefix + asset + "_sha256"]`. -/
def Protocol.assets (protocol : Protocol) : SuiteName → Option Assets
  | .benchmark => some protocol.benchmark
  | .validation => protocol.validation

/-- The record an evaluation process leaves. -/
structure Record where
  status : String
  seedNamespace : String
  checkpointSha256 : String
  completions : Nat
  promptsSha256 : String
  labelsSha256 : String
  deriving DecidableEq, Repr

/-- The worker's arguments, with the suites it has files for, the completions
each must yield and the protocol it pinned at the start. -/
structure WorkerArgs where
  seedNamespace : String
  expectedCompletions : SuiteName → Option Nat
  protocol : Protocol

/-- What happened, for what is said about runs. -/
inductive Event where
  | enqueued (name : String) (job : Job)
  | returned (name : String)
  | raised (error : PyError)
  /-- The source of a suite was what the job and the protocol say. -/
  | pinned (name : String) (suite : SuiteName) (digest : String) (protocol : Protocol)
  /-- A suite's record passed every check. -/
  | verified (name : String) (suite : SuiteName) (record : Record)
  | logged (name : String) (suite : SuiteName)
  | deleted (name : String) (checkpoint : Path)
  deriving DecidableEq

/-! ## The producer -/

/-- Where `enqueue_evaluation` is. `wait` says which of its two loops a check
of the worker belongs to. -/
inductive ProducerPc where
  | idle
  | globFailed (wait : Bool) (call : Enqueue)
  | heartbeat (wait : Bool) (call : Enqueue)
  /-- `any(path.exists() for path in existing)`. -/
  | scan (call : Enqueue) (stage : Stage)
  | compareExists (call : Enqueue) (stage : Stage)
  | compareRead (call : Enqueue) (stage : Stage)
  | globPending (call : Enqueue)
  | globRunning (call : Enqueue) (pending : Nat)
  | writeTemporary (call : Enqueue)
  | rename (call : Enqueue)
  /-- `while not (queue / "done" / job_name).exists()`. -/
  | waitDone (call : Enqueue)
  deriving DecidableEq

/-- What a producer step is given: the next call, whether the operation itself
raises, and what the clock and the heartbeat file say. -/
structure ProducerInput where
  rolloutId : Nat := 0
  hfCheckpointDir : Option Path := none
  fails : Option PyError := none
  heartbeatFresh : Bool := true
  timedOut : Bool := false

/-! ## The worker -/

/-- Where the serving loop is, with the job in hand and, inside a suite, the
suites left after it. -/
inductive WorkerPc where
  | loop
  | globPending
  | move (name : String)
  | read (name : String)
  | request (name : String) (job : Job)
  | pin (name : String) (job : Job) (suite : SuiteName) (rest : List SuiteName)
  | evaluate (name : String) (job : Job) (suite : SuiteName) (rest : List SuiteName)
  | verify (name : String) (job : Job) (suite : SuiteName) (rest : List SuiteName)
  | track (name : String) (job : Job) (suite : SuiteName) (rest : List SuiteName)
  | retire (name : String) (job : Job)
  | remove (name : String) (job : Job)
  | writeDone (name : String) (job : Job)
  | renameDone (name : String) (job : Job)
  | unlink (name : String) (job : Job)
  | writeFailed (name : String) (job : Job)
  | renameFailed (name : String) (job : Job)
  | stopped
  deriving DecidableEq

/-- What a worker step is given: whether the operation raises, the clock, the
hashes `_pin_protocol` finds, the exit code and the record of an evaluation,
and what an interrupted removal leaves. -/
structure WorkerInput where
  fails : Option PyError := none
  expired : Bool := false
  observed : Protocol
  returncode : Int := 0
  record : Record
  left : Option Snapshot := none

structure Queue where
  pending : Dir Job
  running : Dir Job
  done : Dir Job
  failed : Dir Job
  checkpoints : Path → Option Snapshot
  producer : ProducerPc
  worker : WorkerPc
  log : List Event

def Queue.dir (q : Queue) : Stage → Dir Job
  | .pending => q.pending
  | .running => q.running
  | .done => q.done

/-! ## The producer's steps -/

section Producer

variable (args : Args)

/-- The beginning of `enqueue_evaluation`, up to its first loop: nothing for
an update without suites, or the job to enqueue. -/
def startEnqueue (checkpoints : Path → Option Snapshot) (rolloutId : Nat)
    (hfCheckpointDir : Option Path) : Except PyError (Option Enqueue) := do
  let suites ← evaluationSuites args (rolloutId + 1)
  if suites = [] then
    .ok none
  else
    check (args.opsdEvalQueue.isSome = true)
      (valueError "Study save hook requires --opsd-eval-queue")
    match hfCheckpointDir with
    | none => .error (runtimeError "Full-parameter study evaluation requires --save-hf")
    | some checkpoint => do
        let digest ← checkpointDigest (checkpoints checkpoint)
        let call ← evaluationJob args rolloutId suites checkpoint digest
        .ok (some call)

/-- The call is over, one way or the other. -/
def Queue.raise (q : Queue) (error : PyError) : Queue :=
  { q with producer := .idle, log := .raised error :: q.log }

def Queue.finish (q : Queue) (call : Enqueue) : Queue :=
  { q with producer := .idle, log := .returned call.name :: q.log }

/-- After `break`: the last update of a run waits for its evaluation. -/
def Queue.leaveLoop (q : Queue) (call : Enqueue) : Queue :=
  if call.final then { q with producer := .waitDone call } else q.finish call

/-- What comes after an entry that was compared or was not there. -/
def Queue.compareNext (q : Queue) (call : Enqueue) (stage : Stage) : Queue :=
  match stage.next with
  | some next => { q with producer := .compareExists call next }
  | none => q.leaveLoop call

/-- What `_check_worker` raises, with the first file its glob lists. -/
def workerFailed (name : String) : PyError :=
  runtimeError
    ("Evaluation failed; inspect " ++
      String.intercalate "/" (args.opsdEvalQueue.getD [] ++ ["failed", name]))

def producerStep (i : ProducerInput) (q : Queue) : Queue :=
  match i.fails, q.producer with
  | some error, _ => q.raise error
  | none, .idle =>
      match startEnqueue args q.checkpoints i.rolloutId i.hfCheckpointDir with
      | .error error => q.raise error
      | .ok none => q
      | .ok (some call) => { q with producer := .globFailed false call }
  | none, .globFailed wait call =>
      match q.failed.keys with
      | name :: _ => q.raise (workerFailed args name)
      | [] => { q with producer := .heartbeat wait call }
  | none, .heartbeat wait call =>
      if i.heartbeatFresh = false then
        q.raise (runtimeError "Evaluation worker heartbeat is absent or stale; training must pause")
      else if i.timedOut then
        q.raise ⟨.timeout, if wait then "Final checkpoint evaluation did not complete"
          else "Evaluation queue exceeded its one-hour progress deadline"⟩
      else if wait then { q with producer := .waitDone call }
      else { q with producer := .scan call .pending }
  | none, .scan call stage =>
      if call.name ∈ q.dir stage then { q with producer := .compareExists call .pending }
      else
        match stage.next with
        | some next => { q with producer := .scan call next }
        | none => { q with producer := .globPending call }
  | none, .compareExists call stage =>
      if call.name ∈ q.dir stage then { q with producer := .compareRead call stage }
      else q.compareNext call stage
  | none, .compareRead call stage =>
      match (q.dir stage).lookup call.name with
      | none => q.raise ⟨.fileNotFound, call.name⟩
      | some previous =>
          if previous.checkpointSha256 ≠ call.job.checkpointSha256 then
            q.raise (valueError "Evaluation job identity collides with a different checkpoint")
          else if previous.evaluationSuites ≠ call.job.evaluationSuites then
            q.raise (valueError "Evaluation job identity collides with different required suites")
          else q.compareNext call stage
  | none, .globPending call =>
      { q with producer := .globRunning call (Dir.count q.pending) }
  | none, .globRunning call pending =>
      if pending + Dir.count q.running < 2 then { q with producer := .writeTemporary call }
      else { q with producer := .globFailed false call }
  | none, .writeTemporary call => { q with producer := .rename call }
  | none, .rename call =>
      Queue.leaveLoop
        { q with
          pending := q.pending.insert call.name call.job
          log := .enqueued call.name call.job :: q.log } call
  | none, .waitDone call =>
      if call.name ∈ q.done then q.finish call
      else { q with producer := .globFailed true call }

end Producer

/-! ## The worker's steps -/

section Worker

variable (args : WorkerArgs)

/-- `_requested_suites`. -/
def requestedSuites (job : Job) : Except PyError (List SuiteName) := do
  let names := job.evaluationSuites
  check (names ≠ [])
    (valueError "Evaluation suites must be a nonempty list of configured suite names")
  check (names.Nodup ∧ ∀ name ∈ names, (args.expectedCompletions name).isSome = true)
    (valueError "Evaluation suites contain duplicates or an unconfigured suite")
  .ok names

/-- The checks `_evaluate_suite` makes of a record. -/
def checkRecord (job : Job) (suite : SuiteName) (record : Record) :
    Except PyError Unit := do
  check (record.status = "completed")
    (valueError "Evaluation did not produce a completed result")
  check (record.seedNamespace = args.seedNamespace)
    (valueError "Evaluation seed bank mismatch")
  check (record.checkpointSha256 = job.checkpointSha256 ∧
      args.expectedCompletions suite = some record.completions)
    (valueError "Evaluation hash or completion-count mismatch")
  match args.protocol.assets suite with
  -- only the validation suite can be absent from a protocol
  | none => .error (keyError "'validation_prompts_sha256'")
  | some pinned =>
      check (pinned = ⟨record.promptsSha256, record.labelsSha256⟩)
        (valueError "Evaluation input hash differs from the pinned suite")

/-- `retire_evaluation_snapshot`, up to the removal: whether there is one. -/
def retireCheck (checkpoints : Path → Option Snapshot) (job : Job) :
    Except PyError Bool := do
  if job.temporarySnapshot = false then .ok false
  else
    let snapshot := checkpoints job.checkpoint
    check (¬ (snapshot.any Snapshot.isSymlink = true ∨
        pathName (pathParent job.checkpoint) ≠ "eval-snapshots"))
      (valueError "Temporary evaluation snapshot is outside the study export layout")
    check (pathName job.checkpoint = "step_" ++ toString job.rolloutId ∧
        snapshot.any Snapshot.complete = true)
      (valueError "Refusing to retire an incomplete or misidentified evaluation snapshot")
    .ok true

/-- The next suite of a job, or its completion. -/
def WorkerPc.nextSuite (name : String) (job : Job) : List SuiteName → WorkerPc
  | [] => .retire name job
  | suite :: rest => .pin name job suite rest

/-- `sorted(pending)[0]`. -/
def firstSorted (names : List String) : Option String :=
  (names.insertionSort fun a b => a ≤ b).head?

/-- An exception inside `_complete_job` is recorded; one outside it stops the
worker. -/
def WorkerPc.failure : WorkerPc → WorkerPc
  | .request name job => .writeFailed name job
  | .pin name job _ _ => .writeFailed name job
  | .evaluate name job _ _ => .writeFailed name job
  | .verify name job _ _ => .writeFailed name job
  | .track name job _ _ => .writeFailed name job
  | .retire name job => .writeFailed name job
  | .remove name job => .writeFailed name job
  | .writeDone name job => .writeFailed name job
  | .renameDone name job => .writeFailed name job
  | .unlink name job => .writeFailed name job
  | _ => .stopped

def Queue.workerFails (q : Queue) : Queue :=
  { q with worker := q.worker.failure }

/-- A removal that is interrupted leaves part of the directory. -/
def Queue.interruptedRemoval (q : Queue) (left : Option Snapshot) : Queue :=
  match q.worker with
  | .remove name job =>
      { q with
        checkpoints := fun path =>
          if path = job.checkpoint then left else q.checkpoints path
        worker := .writeFailed name job
        log := .deleted name job.checkpoint :: q.log }
  | _ => q.workerFails

def workerStep (i : WorkerInput) (q : Queue) : Queue :=
  match i.fails with
  | some _ => q.interruptedRemoval i.left
  | none =>
      match q.worker with
      | .loop =>
          if i.expired then { q with worker := .stopped }
          else if 0 < Dir.count q.failed then { q with worker := .stopped }
          else { q with worker := .globPending }
      | .globPending =>
          match firstSorted q.pending.keys with
          | none => { q with worker := .loop }
          | some name => { q with worker := .move name }
      | .move name =>
          match q.pending.lookup name with
          | none => { q with worker := .stopped }
          | some job =>
              { q with
                pending := q.pending.erase name
                running := q.running.insert name job
                worker := .read name }
      | .read name =>
          match q.running.lookup name with
          | none => { q with worker := .stopped }
          | some job => { q with worker := .request name job }
      | .request name job =>
          match requestedSuites args job with
          | .error _ => q.workerFails
          | .ok names =>
              if job.checkpointKind = "full_model" then
                { q with worker := .nextSuite name job names }
              else q.workerFails
      | .pin name job suite rest =>
          match checkpointDigest (q.checkpoints job.checkpoint) with
          | .error _ => q.workerFails
          | .ok digest =>
              if i.observed = args.protocol ∧ digest = job.checkpointSha256 then
                { q with
                  worker := .evaluate name job suite rest
                  log := .pinned name suite digest i.observed :: q.log }
              else q.workerFails
      | .evaluate name job suite rest =>
          if i.expired = false ∧ i.returncode = 0 then
            { q with worker := .verify name job suite rest }
          else q.workerFails
      | .verify name job suite rest =>
          match checkRecord args job suite i.record with
          | .error _ => q.workerFails
          | .ok _ =>
              { q with
                worker :=
                  if job.wandb.isSome then .track name job suite rest
                  else .nextSuite name job rest
                log := .verified name suite i.record :: q.log }
      | .track name job suite rest =>
          { q with
            worker := .nextSuite name job rest
            log := .logged name suite :: q.log }
      | .retire name job =>
          match retireCheck q.checkpoints job with
          | .error _ => q.workerFails
          | .ok true => { q with worker := .remove name job }
          | .ok false => { q with worker := .writeDone name job }
      | .remove name job =>
          { q with
            checkpoints := fun path =>
              if path = job.checkpoint then none else q.checkpoints path
            worker := .writeDone name job
            log := .deleted name job.checkpoint :: q.log }
      | .writeDone name job => { q with worker := .renameDone name job }
      | .renameDone name job =>
          { q with done := q.done.insert name job, worker := .unlink name job }
      | .unlink name _ => { q with running := q.running.erase name, worker := .loop }
      | .writeFailed name job => { q with worker := .renameFailed name job }
      | .renameFailed name job =>
          { q with failed := q.failed.insert name job, worker := .stopped }
      | .stopped => q

end Worker

/-! ## Both together -/

/-- One step of the system: the producer's, the worker's, or an export of the
trainer's, which replaces what is at a path. -/
inductive QueueInput where
  | producer (input : ProducerInput)
  | worker (input : WorkerInput)
  | exported (path : Path) (snapshot : Snapshot)

def queueStep (args : Args) (workerArgs : WorkerArgs) (q : Queue) :
    QueueInput → Queue
  | .producer input => producerStep args input q
  | .worker input => workerStep workerArgs input q
  | .exported path snapshot =>
      { q with checkpoints := fun p => if p = path then some snapshot else q.checkpoints p }

/-- A fresh queue, before either process has done anything. -/
def Queue.fresh (checkpoints : Path → Option Snapshot) : Queue :=
  { pending := ∅, running := ∅, done := ∅, failed := ∅, checkpoints
    producer := .idle, worker := .loop, log := [] }

/-- The states an interleaving of the two processes reaches. -/
def queueRun (args : Args) (workerArgs : WorkerArgs)
    (checkpoints : Path → Option Snapshot) (inputs : List QueueInput) : Queue :=
  runFrom (queueStep args workerArgs) (Queue.fresh checkpoints) inputs

end Crisp.Ref
