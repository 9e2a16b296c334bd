import Crisp.Ref.StudyRun

/-!
# One study run at its queue

The driver hands an update to the save hook at most once, in the order of the
updates, and stops at the first exception that leaves the hook; the worker and
the exports go on at their own pace. Which updates it may hand over is up to the
save cadence, `saves`, and any increasing choice of these is a run.
-/

namespace Crisp.Ref

open Crisp.Lib

/-- The driver's loop gets to the rollout. -/
def Args.executes (args : Args) (rolloutId : Nat) : Bool :=
  args.startRolloutId.getD 0 ≤ rolloutId && rolloutId < args.numRollout &&
    (rolloutId = args.startRolloutId.getD 0 || !args.exitsAfter (rolloutId - 1))

/-- The loop ends after the rollout. -/
def Args.endsAfter (args : Args) (rolloutId : Nat) : Bool :=
  rolloutId + 1 = args.numRollout || args.exitsAfter rolloutId

/-- The queue with the driver's place in its loop. -/
structure StudyQueue where
  queue : Queue
  /-- Every rollout handed over so far is below. -/
  next : Nat
  /-- The rollouts whose call returned, newest first. -/
  returned : List Nat

/-- An exception has left the hook. -/
def Queue.raised (q : Queue) : Bool :=
  q.log.any fun
    | .raised _ => true
    | _ => false

/-- The state after a step of the call for a rollout. -/
def StudyQueue.hook (s : StudyQueue) (rolloutId : Nat) (queue : Queue) : StudyQueue :=
  { queue
    next := rolloutId + 1
    returned :=
      match queue.producer with
      | .idle => if queue.raised = true then s.returned else rolloutId :: s.returned
      | _ => s.returned }

def studyQueueStep (args : Args) (saves : Nat → Bool) (workerArgs : WorkerArgs)
    (s : StudyQueue) : QueueInput → StudyQueue
  | .producer input =>
      match s.queue.producer with
      | .idle =>
          if s.queue.raised = true ∨ input.rolloutId < s.next ∨
              args.executes input.rolloutId = false ∨ saves input.rolloutId = false then s
          else
            s.hook input.rolloutId
              (producerStep args
                { input with hfCheckpointDir := args.hfCheckpointDir input.rolloutId }
                s.queue)
      | _ => s.hook (s.next - 1) (producerStep args input s.queue)
  | input => { s with queue := queueStep args workerArgs s.queue input }

/-- The states an interleaving of one run's hook and the worker reaches. -/
def studyQueueRun (args : Args) (saves : Nat → Bool) (workerArgs : WorkerArgs)
    (checkpoints : Path → Option Snapshot) (inputs : List QueueInput) : StudyQueue :=
  runFrom (studyQueueStep args saves workerArgs)
    { queue := Queue.fresh checkpoints, next := 0, returned := [] } inputs

/-! ## One call beside the worker -/

/-- A step of the call in progress, while its own I/O works, the heartbeat is
fresh and its deadline is ahead; or a step of the worker. -/
def callStep (args : Args) (workerArgs : WorkerArgs) (q : Queue) :
    Option WorkerInput → Queue
  | none =>
      match q.producer with
      | .idle => q
      | _ => producerStep args {} q
  | some input => workerStep workerArgs input q

/-! ## One job beside the hook -/

/-- A step while the worker processes a job; back in its loop it takes no other. -/
def processStep (args : Args) (workerArgs : WorkerArgs) (q : Queue) (input : QueueInput) :
    Queue :=
  match input with
  | .worker _ =>
      match q.worker with
      | .loop => q
      | _ => queueStep args workerArgs q input
  | _ => queueStep args workerArgs q input

end Crisp.Ref
