import Crisp.Lib.Raise
import Crisp.Lib.Runs
import Mathlib.Logic.Function.Basic

/-!
# The ticket lock over a store

`StoreTicketLock`: two counters of a shared store, `next` and `serving`, and one
local field. What other processes can come between is a store operation, so a
method is cut there: `acquire` into drawing a ticket and polling for its turn,
`release` into dropping the ticket and advancing the counter. Any operation may
raise, with or without having reached the store, and any process may die.
-/

namespace Crisp.Ref

open Crisp.Lib

/-- Where an object is: outside its methods, or at one of their store operations. -/
inductive LockPoint where
  | outside
  /-- `self._store.add(self._next_key, 1)` -/
  | drawing
  /-- `self._store.add(self._serving_key, 0)` -/
  | polling (ticket : Nat)
  /-- `self._store.add(self._serving_key, 1)` -/
  | advancing
  deriving DecidableEq, Repr

/-- One `StoreTicketLock`. -/
structure StoreTicketLock where
  heldTicket : Option Nat := none
  point : LockPoint := .outside
  deriving DecidableEq, Repr

/-- The store and the lock objects that use it. -/
structure LockWorld (C : Type) where
  store : String → Nat
  locks : C → StoreTicketLock

/-- What a process can see happen. -/
inductive LockEvent (C : Type) where
  | drew (c : C) (ticket : Nat)
  | entered (c : C) (ticket : Nat)
  | advanced (c : C)
  | raised (c : C) (error : PyError)
  /-- An exception of the store. -/
  | storeRaised (c : C)
  deriving DecidableEq, Repr

inductive LockCall where
  | acquire
  | release
  /-- `__exit__`; whether the block raised. -/
  | exit (raised : Bool)
  deriving DecidableEq, Repr

inductive LockInput where
  | call (call : LockCall)
  /-- The store operation the object stands at is carried out. -/
  | proceed
  /-- It raises instead; whether it had taken effect. -/
  | storeFails (applied : Bool)
  /-- The process dies and comes back with a new object. -/
  | crash
  deriving DecidableEq, Repr

def nextKey (pfx : String) : String := pfx ++ "/next"

def servingKey (pfx : String) : String := pfx ++ "/serving"

variable {C : Type} [DecidableEq C] (lockPrefix : C → String)

/-- `Store.add`. -/
def LockWorld.add (w : LockWorld C) (key : String) (amount : Nat) : LockWorld C :=
  { w with store := Function.update w.store key (w.store key + amount) }

def LockWorld.setLock (w : LockWorld C) (c : C) (lock : StoreTicketLock) : LockWorld C :=
  { w with locks := Function.update w.locks c lock }

def acquire (w : LockWorld C) (c : C) : LockWorld C × List (LockEvent C) :=
  match (w.locks c).heldTicket with
  | some ticket =>
      (w, [.raised c (assertionError s!"lock is already held with ticket {ticket}")])
  | none => (w.setLock c { w.locks c with point := .drawing }, [])

def release (w : LockWorld C) (c : C) : LockWorld C × List (LockEvent C) :=
  match (w.locks c).heldTicket with
  | some _ => (w.setLock c ⟨none, .advancing⟩, [])
  | none =>
      (w, [.raised c
        (assertionError s!"lock {servingKey (lockPrefix c)} is not held, cannot release")])

def lockCall (w : LockWorld C) (c : C) : LockCall → LockWorld C × List (LockEvent C)
  | .acquire => acquire w c
  | .release => release lockPrefix w c
  -- a block that raised keeps the lock
  | .exit raised => if raised then (w, []) else release lockPrefix w c

/-- The store operation a method stands at, and what it does with the answer. -/
def proceed (w : LockWorld C) (c : C) : LockWorld C × List (LockEvent C) :=
  let lock := w.locks c
  match lock.point with
  | .outside => (w, [])
  | .drawing =>
      let w' := w.add (nextKey (lockPrefix c)) 1
      let ticket := w'.store (nextKey (lockPrefix c)) - 1
      (w'.setLock c { lock with point := .polling ticket }, [.drew c ticket])
  | .polling ticket =>
      if w.store (servingKey (lockPrefix c)) ≠ ticket then (w, [])
      else (w.setLock c ⟨some ticket, .outside⟩, [.entered c ticket])
  | .advancing =>
      ((w.add (servingKey (lockPrefix c)) 1).setLock c { lock with point := .outside },
        [.advanced c])

/-- The same operation raising: the method is left where it stood. -/
def storeFails (w : LockWorld C) (c : C) (applied : Bool) : LockWorld C × List (LockEvent C) :=
  let lock := w.locks c
  match lock.point with
  | .outside => (w, [])
  | .drawing =>
      if applied then
        ((w.add (nextKey (lockPrefix c)) 1).setLock c { lock with point := .outside },
          [.drew c (w.store (nextKey (lockPrefix c))), .storeRaised c])
      else (w.setLock c { lock with point := .outside }, [.storeRaised c])
  | .polling _ => (w.setLock c { lock with point := .outside }, [.storeRaised c])
  | .advancing =>
      if applied then
        ((w.add (servingKey (lockPrefix c)) 1).setLock c { lock with point := .outside },
          [.advanced c, .storeRaised c])
      else (w.setLock c { lock with point := .outside }, [.storeRaised c])

/-- One step of one process. A process inside a method makes no other call. -/
def lockInput (w : LockWorld C) (c : C) : LockInput → LockWorld C × List (LockEvent C)
  | .call call => if (w.locks c).point = .outside then lockCall lockPrefix w c call else (w, [])
  | .proceed => proceed lockPrefix w c
  | .storeFails applied => storeFails lockPrefix w c applied
  | .crash => (w.setLock c {}, [])

/-- A world and what has happened in it. -/
structure LockRun (C : Type) where
  world : LockWorld C
  events : List (LockEvent C)

def LockRun.init : LockRun C := ⟨⟨fun _ => 0, fun _ => {}⟩, []⟩

def lockStep (r : LockRun C) (i : C × LockInput) : LockRun C :=
  let out := lockInput lockPrefix r.world i.1 i.2
  ⟨out.1, r.events ++ out.2⟩

/-- The world after any interleaving. -/
def lockRun (inputs : List (C × LockInput)) : LockRun C :=
  runFrom (lockStep lockPrefix) .init inputs

end Crisp.Ref
