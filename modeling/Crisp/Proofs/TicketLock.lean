import Crisp.Lib.Turns
import Crisp.Ref.TicketLock

/-!
# Mutual exclusion, in the order the tickets were drawn

The locks of one prefix take turns: whatever the interleaving, and whatever the
store or the processes do, each step of one of them is at most one step of the
queue of their tickets, and the steps of the others leave that queue alone. The
two counters are its length and its number of finished turns, and an object that
holds the lock, or is about to advance the counter, is the one whose turn it is.
A ticket that is lost stops the queue; it never lets a second one in.
-/

namespace Crisp.Proofs

open Crisp.Lib Crisp.Ref

variable {C : Type}

/-! ## Two counters a prefix -/

theorem nextKey_inj {p q : String} : nextKey p = nextKey q ↔ p = q := by
  refine ⟨fun h => ?_, fun h => congrArg nextKey h⟩
  have hchars := congrArg String.toList h
  simp only [nextKey, String.toList_append, List.append_left_inj] at hchars
  exact String.toList_inj.mp hchars

theorem servingKey_inj {p q : String} : servingKey p = servingKey q ↔ p = q := by
  refine ⟨fun h => ?_, fun h => congrArg servingKey h⟩
  have hchars := congrArg String.toList h
  simp only [servingKey, String.toList_append, List.append_left_inj] at hchars
  exact String.toList_inj.mp hchars

theorem nextKey_ne_servingKey (p q : String) : nextKey p ≠ servingKey q := by
  intro h
  have hchars := congrArg (fun s => s.toList.getLast?) h
  simp [nextKey, servingKey, String.toList_append] at hchars

/-! ## What has happened -/

/-- Who drew, in order. -/
def drawer : LockEvent C → Option C
  | .drew c _ => some c
  | _ => none

/-- Who entered, in order. -/
def enterer : LockEvent C → Option C
  | .entered c _ => some c
  | _ => none

/-- Who left, in order. -/
def leaver : LockEvent C → Option C
  | .advanced c => some c
  | _ => none

variable (lockPrefix : C → String) (p : String)

/-- The processes of one prefix that an event names, in order. -/
def namedBy (f : LockEvent C → Option C) (events : List (LockEvent C)) : List C :=
  (events.filterMap f).filter fun c => lockPrefix c = p

theorem named_append (f : LockEvent C → Option C) (es es' : List (LockEvent C)) :
    namedBy lockPrefix p f (es ++ es') =
      namedBy lockPrefix p f es ++ namedBy lockPrefix p f es' := by
  simp [namedBy]

/-! ## Locks as turns -/

/-- An object agrees with the queue about where it is in it. -/
def LockIn (T : Turns C) (c : C) (lock : StoreTicketLock) : Prop :=
  match lock.point with
  | .outside => ∀ ticket, lock.heldTicket = some ticket → ticket = T.left ∧ T.Holds c
  | .drawing => lock.heldTicket = none
  | .polling ticket => lock.heldTicket = none ∧ T.Waits ticket c
  | .advancing => lock.heldTicket = none ∧ T.Holds c

/-- The store, the objects and the past of one prefix are those of a queue. -/
structure TakesTurns (r : LockRun C) (T : Turns C) : Prop where
  next : r.world.store (nextKey p) = T.drawn.length
  serving : r.world.store (servingKey p) = T.left
  drawn : namedBy lockPrefix p drawer r.events = T.drawn
  entered : namedBy lockPrefix p enterer r.events = T.enteredList
  left : namedBy lockPrefix p leaver r.events = T.leftList
  locks : ∀ c, lockPrefix c = p → LockIn T c (r.world.locks c)

variable {lockPrefix p} {T : Turns C} {c d : C} {lock : StoreTicketLock}

theorem lockIn_fresh : LockIn T c {} := by
  intro ticket h
  cases h

/-- An object that is in no method and holds nothing is anywhere. -/
theorem lockIn_outside : LockIn T c ⟨none, .outside⟩ := lockIn_fresh

theorem LockIn.draw (h : LockIn T d lock) : LockIn (T.draw c) d lock := by
  rw [LockIn] at h ⊢
  cases hpoint : lock.point <;> simp only [hpoint] at h ⊢
  case outside => exact fun ticket hheld => ⟨(h ticket hheld).1, (h ticket hheld).2.draw c⟩
  case drawing => exact h
  case polling => exact ⟨h.1, h.2.draw c⟩
  case advancing => exact ⟨h.1, h.2.draw c⟩

theorem LockIn.enter (h : LockIn T d lock) (hw : T.Waits T.left c) (hne : d ≠ c) :
    LockIn (T.enter hw) d lock := by
  rw [LockIn] at h ⊢
  cases hpoint : lock.point <;> simp only [hpoint] at h ⊢
  case outside => exact fun ticket hheld => absurd (h ticket hheld).2 hw.not_holds
  case drawing => exact h
  case polling => exact ⟨h.1, h.2.enter hw hne⟩
  case advancing => exact absurd h.2 hw.not_holds

theorem LockIn.leave (h : LockIn T d lock) (hh : T.Holds c) (hne : d ≠ c) :
    LockIn (T.leave hh) d lock := by
  rw [LockIn] at h ⊢
  cases hpoint : lock.point <;> simp only [hpoint] at h ⊢
  case outside => exact fun ticket hheld => absurd ((h ticket hheld).2.unique hh) hne
  case drawing => exact h
  case polling => exact ⟨h.1, h.2⟩
  case advancing => exact absurd (h.2.unique hh) hne

/-! ## What a step can do -/

/-- An exception and nothing else. -/
def QuietEvent (e : LockEvent C) : Prop :=
  drawer e = none ∧ enterer e = none ∧ leaver e = none

/-- The store answers and the process lives. -/
def Healthy : LockInput → Prop
  | .call _ => True
  | .proceed => True
  | .storeFails _ => False
  | .crash => False

variable (lockPrefix) in
/-- The ways a step of one process ends. -/
inductive Effect [DecidableEq C] (healthy : Prop) (w : LockWorld C) (c : C) :
    LockWorld C × List (LockEvent C) → Prop where
  | still {es} (hes : ∀ e ∈ es, QuietEvent e) : Effect healthy w c (w, es)
  /-- The object is new, or has left a method on an exception. -/
  | gaveUp {held es} (hfailed : ¬ healthy) (hes : ∀ e ∈ es, QuietEvent e)
      (h : held = none ∨ held = (w.locks c).heldTicket ∧ (w.locks c).point ≠ .outside) :
      Effect healthy w c (w.setLock c ⟨held, .outside⟩, es)
  | asked (held : (w.locks c).heldTicket = none) (h : (w.locks c).point = .outside) :
      Effect healthy w c (w.setLock c ⟨none, .drawing⟩, [])
  | dropped {ticket} (held : (w.locks c).heldTicket = some ticket)
      (h : (w.locks c).point = .outside) :
      Effect healthy w c (w.setLock c ⟨none, .advancing⟩, [])
  | drew {point es} (hes : ∀ e ∈ es, QuietEvent e) (h : (w.locks c).point = .drawing)
      (hpoint : ¬ healthy ∧ point = .outside ∨
        point = .polling (w.store (nextKey (lockPrefix c)))) :
      Effect healthy w c
        ((w.add (nextKey (lockPrefix c)) 1).setLock c ⟨(w.locks c).heldTicket, point⟩,
          .drew c (w.store (nextKey (lockPrefix c))) :: es)
  | entered {ticket} (h : (w.locks c).point = .polling ticket)
      (hturn : w.store (servingKey (lockPrefix c)) = ticket) :
      Effect healthy w c (w.setLock c ⟨some ticket, .outside⟩, [.entered c ticket])
  | advanced {es} (hes : ∀ e ∈ es, QuietEvent e) (h : (w.locks c).point = .advancing) :
      Effect healthy w c
        ((w.add (servingKey (lockPrefix c)) 1).setLock c ⟨(w.locks c).heldTicket, .outside⟩,
          .advanced c :: es)

variable {w : LockWorld C} {es es' : List (LockEvent C)}

theorem quiet_nil : ∀ e ∈ ([] : List (LockEvent C)), QuietEvent e := by
  intro e he
  cases he

theorem quiet_raised (c : C) (error : PyError) :
    ∀ e ∈ ([.raised c error] : List (LockEvent C)), QuietEvent e := by
  intro e he
  rw [List.mem_singleton.mp he]
  exact ⟨rfl, rfl, rfl⟩

theorem quiet_storeRaised (c : C) :
    ∀ e ∈ ([.storeRaised c] : List (LockEvent C)), QuietEvent e := by
  intro e he
  rw [List.mem_singleton.mp he]
  exact ⟨rfl, rfl, rfl⟩

theorem add_self (w : LockWorld C) (key : String) (n : Nat) :
    (w.add key n).store key = w.store key + n :=
  Function.update_self ..

theorem add_of_ne (w : LockWorld C) {key key' : String} (n : Nat) (hne : key' ≠ key) :
    (w.add key n).store key' = w.store key' :=
  Function.update_of_ne hne ..

/-! ## What a step means to the queue -/

variable (lockPrefix p) in
/-- What some events add to the three lists of a prefix. -/
def Names (es : List (LockEvent C)) (drawn entered left : List C) : Prop :=
  namedBy lockPrefix p drawer es = drawn ∧ namedBy lockPrefix p enterer es = entered ∧
    namedBy lockPrefix p leaver es = left

theorem TakesTurns.still (h : TakesTurns lockPrefix p ⟨w, es⟩ T)
    (hes : Names lockPrefix p es' [] [] []) :
    TakesTurns lockPrefix p ⟨w, es ++ es'⟩ T := by
  refine ⟨h.next, h.serving, ?_, ?_, ?_, h.locks⟩
  · rw [named_append, hes.1, List.append_nil, h.drawn]
  · rw [named_append, hes.2.1, List.append_nil, h.entered]
  · rw [named_append, hes.2.2, List.append_nil, h.left]

theorem names_quiet (h : ∀ e ∈ es, QuietEvent e) : Names lockPrefix p es [] [] [] := by
  refine ⟨?_, ?_, ?_⟩ <;> rw [namedBy, List.filterMap_eq_nil_iff.mpr, List.filter_nil]
  · exact fun e he => (h e he).1
  · exact fun e he => (h e he).2.1
  · exact fun e he => (h e he).2.2

/-- One event before some that are no step of the queue. -/
theorem names_cons {e : LockEvent C} {drawn entered left : List C} (hes : ∀ e ∈ es, QuietEvent e)
    (he : Names lockPrefix p [e] drawn entered left) :
    Names lockPrefix p (e :: es) drawn entered left := by
  have hquiet := @names_quiet _ lockPrefix p _ hes
  rw [← List.singleton_append]
  refine ⟨?_, ?_, ?_⟩ <;> rw [named_append]
  · rw [he.1, hquiet.1, List.append_nil]
  · rw [he.2.1, hquiet.2.1, List.append_nil]
  · rw [he.2.2, hquiet.2.2, List.append_nil]

/-- The counters of another prefix are other counters. -/
theorem TakesTurns.add_other (h : TakesTurns lockPrefix p ⟨w, es⟩ T) {key : String}
    (hnext : key ≠ nextKey p) (hserving : key ≠ servingKey p) (n : Nat) :
    TakesTurns lockPrefix p ⟨w.add key n, es⟩ T := by
  refine ⟨?_, ?_, h.drawn, h.entered, h.left, h.locks⟩
  · show (w.add key n).store (nextKey p) = _
    rw [add_of_ne w n hnext.symm]
    exact h.next
  · show (w.add key n).store (servingKey p) = _
    rw [add_of_ne w n hserving.symm]
    exact h.serving

theorem takesTurns_init : TakesTurns lockPrefix p (.init : LockRun C) Turns.init :=
  ⟨rfl, rfl, rfl, rfl, rfl, fun _ _ => lockIn_fresh⟩

/-! ## Nothing lost

Without failures every place in the queue still has its process: it waits at its ticket,
or it is in its turn. -/

/-- The lock is held, or its holder has yet to advance the counter. -/
def InSection (lock : StoreTicketLock) : Prop :=
  (∃ ticket, lock.heldTicket = some ticket) ∨ lock.point = .advancing

/-- Every place that is not done is attended. -/
structure Attended (w : LockWorld C) (T : Turns C) : Prop where
  waits : ∀ c ticket, T.Waits ticket c → (w.locks c).point = .polling ticket
  holds : ∀ c, T.Holds c → InSection (w.locks c)

theorem LockIn.holds (h : LockIn T c lock) (hin : InSection lock) : T.Holds c := by
  rw [LockIn] at h
  obtain ⟨ticket, hheld⟩ | hat := hin
  · cases hpoint : lock.point <;> simp only [hpoint, hheld] at h
    case outside => exact (h ticket rfl).2
    all_goals simp at h
  · rw [hat] at h
    exact h.2

theorem attended_locks {w' : LockWorld C} (h : Attended w T) (hlocks : w'.locks = w.locks) :
    Attended w' T :=
  ⟨fun c ticket hc => hlocks ▸ h.waits c ticket hc, fun c hc => hlocks ▸ h.holds c hc⟩

theorem TakesTurns.prefix_of_drawn {r : LockRun C} (h : TakesTurns lockPrefix p r T) {i : Nat}
    (hi : T.drawn[i]? = some c) : lockPrefix c = p := by
  have hmem := List.mem_of_getElem? hi
  rw [← h.drawn, namedBy] at hmem
  simpa using (List.mem_filter.mp hmem).2

theorem attended_init : Attended (.init : LockRun C).world Turns.init := by
  refine ⟨fun c ticket hc => ?_, fun c hc => ?_⟩
  · cases hc.2
  · cases hc.2

/-- Whoever waits ahead of someone else's place is someone else. -/
theorem Attended.ne_of_waits {ticket : Nat} (hattended : Attended w T)
    (hlock : LockIn T c (w.locks c)) (hw : T.Waits ticket c) (hlt : T.left < ticket)
    (hd : T.drawn[T.left]? = some d) : c ≠ d := by
  intro heq
  have hat := hattended.waits c ticket hw
  rcases Nat.lt_or_ge T.left T.entered with hin | hle
  · have hholds : T.Holds c := ⟨by have := T.entered_le; omega, heq ▸ hd⟩
    rw [LockIn, hat] at hlock
    obtain ⟨held, hheld⟩ | hadvancing := hattended.holds c hholds
    · simp [hlock.1] at hheld
    · simp [hat] at hadvancing
  · have hfirst := hattended.waits c T.left ⟨hle, heq ▸ hd⟩
    rw [hat] at hfirst
    cases hfirst
    omega

/-! ## The steps -/

variable [DecidableEq C]

theorem setLock_self (w : LockWorld C) (lock : StoreTicketLock) :
    (w.setLock c lock).locks c = lock :=
  Function.update_self ..

theorem setLock_of_ne (w : LockWorld C) (lock : StoreTicketLock) (hne : d ≠ c) :
    (w.setLock c lock).locks d = w.locks d :=
  Function.update_of_ne hne ..

variable {healthy : Prop}

theorem acquire_effect (h : (w.locks c).point = .outside) :
    Effect lockPrefix healthy w c (acquire w c) := by
  rw [acquire]
  cases hheld : (w.locks c).heldTicket with
  | some ticket => exact .still (quiet_raised c _)
  | none =>
      simp only
      rw [hheld]
      exact .asked hheld h

theorem release_effect (h : (w.locks c).point = .outside) :
    Effect lockPrefix healthy w c (release lockPrefix w c) := by
  rw [release]
  cases hheld : (w.locks c).heldTicket with
  | some ticket => exact .dropped hheld h
  | none => exact .still (quiet_raised c _)

theorem lockCall_effect (h : (w.locks c).point = .outside) (call : LockCall) :
    Effect lockPrefix healthy w c (lockCall lockPrefix w c call) := by
  cases call with
  | acquire => exact acquire_effect h
  | release => exact release_effect h
  | exit raised =>
      rw [lockCall]
      split
      · exact .still quiet_nil
      · exact release_effect h

theorem proceed_effect : Effect lockPrefix healthy w c (proceed lockPrefix w c) := by
  rw [proceed]
  simp only
  cases h : (w.locks c).point with
  | outside => exact .still quiet_nil
  | drawing =>
      have hticket : (w.add (nextKey (lockPrefix c)) 1).store (nextKey (lockPrefix c)) - 1 =
          w.store (nextKey (lockPrefix c)) := by
        simp [LockWorld.add]
      simp only [hticket]
      exact .drew quiet_nil h (.inr rfl)
  | polling ticket =>
      simp only
      split
      · exact .still quiet_nil
      · next hturn => exact .entered h (not_not.mp hturn)
  | advancing => exact .advanced quiet_nil h

theorem storeFails_effect (hfailed : ¬ healthy) (applied : Bool) :
    Effect lockPrefix healthy w c (storeFails lockPrefix w c applied) := by
  rw [storeFails]
  cases h : (w.locks c).point with
  | outside => exact .still quiet_nil
  | drawing =>
      simp only
      split
      · exact .drew (quiet_storeRaised c) h (.inl ⟨hfailed, rfl⟩)
      · exact .gaveUp hfailed (quiet_storeRaised c) (.inr ⟨rfl, by simp [h]⟩)
  | polling ticket => exact .gaveUp hfailed (quiet_storeRaised c) (.inr ⟨rfl, by simp [h]⟩)
  | advancing =>
      simp only
      split
      · exact .advanced (quiet_storeRaised c) h
      · exact .gaveUp hfailed (quiet_storeRaised c) (.inr ⟨rfl, by simp [h]⟩)

theorem lockInput_effect (i : LockInput) :
    Effect lockPrefix (Healthy i) w c (lockInput lockPrefix w c i) := by
  cases i with
  | call call =>
      rw [lockInput]
      split
      · next h => exact lockCall_effect h call
      · exact .still quiet_nil
  | proceed => exact proceed_effect
  | storeFails applied => exact storeFails_effect id applied
  | crash => exact .gaveUp id quiet_nil (.inl rfl)

/-! ## One step -/

theorem TakesTurns.setLock (h : TakesTurns lockPrefix p ⟨w, es⟩ T)
    (hes : Names lockPrefix p es' [] [] []) (hlock : lockPrefix c = p → LockIn T c lock) :
    TakesTurns lockPrefix p ⟨w.setLock c lock, es ++ es'⟩ T := by
  have hstill := h.still hes
  refine ⟨hstill.next, hstill.serving, hstill.drawn, hstill.entered, hstill.left, fun d hd => ?_⟩
  show LockIn T d ((w.setLock c lock).locks d)
  rcases eq_or_ne d c with rfl | hne
  · rw [setLock_self]
    exact hlock hd
  · rw [setLock_of_ne w lock hne]
    exact h.locks d hd

theorem TakesTurns.draw (h : TakesTurns lockPrefix p ⟨w, es⟩ T)
    (hes : Names lockPrefix p es' [c] [] []) (hlock : LockIn (T.draw c) c lock) :
    TakesTurns lockPrefix p ⟨(w.add (nextKey p) 1).setLock c lock, es ++ es'⟩ (T.draw c) := by
  refine ⟨?_, ?_, ?_, ?_, ?_, fun d hd => ?_⟩
  · show (w.add (nextKey p) 1).store (nextKey p) = (T.drawn ++ [c]).length
    rw [add_self, h.next, List.length_append]
    rfl
  · show (w.add (nextKey p) 1).store (servingKey p) = T.left
    rw [add_of_ne w 1 (nextKey_ne_servingKey p p).symm, h.serving]
  · rw [named_append, hes.1, h.drawn]
    rfl
  · rw [named_append, hes.2.1, List.append_nil, h.entered, Turns.enteredList_draw]
  · rw [named_append, hes.2.2, List.append_nil, h.left, Turns.leftList_draw]
  · show LockIn (T.draw c) d (((w.add (nextKey p) 1).setLock c lock).locks d)
    rcases eq_or_ne d c with rfl | hne
    · rw [setLock_self]
      exact hlock
    · rw [setLock_of_ne _ lock hne]
      exact (h.locks d hd).draw

theorem TakesTurns.enter (h : TakesTurns lockPrefix p ⟨w, es⟩ T) (hc : lockPrefix c = p)
    (hw : T.Waits T.left c) :
    TakesTurns lockPrefix p
      ⟨w.setLock c ⟨some T.left, .outside⟩, es ++ [.entered c T.left]⟩ (T.enter hw) := by
  refine ⟨h.next, h.serving, ?_, ?_, ?_, fun d hd => ?_⟩
  · rw [named_append, h.drawn]
    exact List.append_nil _
  · rw [named_append, h.entered, Turns.enteredList_enter]
    simp [namedBy, enterer, hc]
  · rw [named_append, h.left]
    exact List.append_nil _
  · show LockIn (T.enter hw) d ((w.setLock c ⟨some T.left, .outside⟩).locks d)
    rcases eq_or_ne d c with rfl | hne
    · rw [setLock_self]
      intro ticket hticket
      exact ⟨Option.some.inj hticket.symm, Turns.holds_enter hw⟩
    · rw [setLock_of_ne _ _ hne]
      exact (h.locks d hd).enter hw hne

theorem TakesTurns.leave (h : TakesTurns lockPrefix p ⟨w, es⟩ T)
    (hes : Names lockPrefix p es' [] [] [c]) (hh : T.Holds c) :
    TakesTurns lockPrefix p
      ⟨(w.add (servingKey p) 1).setLock c ⟨none, .outside⟩, es ++ es'⟩ (T.leave hh) := by
  refine ⟨?_, ?_, ?_, ?_, ?_, fun d hd => ?_⟩
  · show (w.add (servingKey p) 1).store (nextKey p) = T.drawn.length
    rw [add_of_ne w 1 (nextKey_ne_servingKey p p), h.next]
  · show (w.add (servingKey p) 1).store (servingKey p) = T.left + 1
    rw [add_self, h.serving]
  · rw [named_append, hes.1, List.append_nil, h.drawn]
    rfl
  · rw [named_append, hes.2.1, List.append_nil, h.entered]
    rfl
  · rw [named_append, hes.2.2, h.left, Turns.leftList_leave]
  · show LockIn (T.leave hh) d
      (((w.add (servingKey p) 1).setLock c ⟨none, .outside⟩).locks d)
    rcases eq_or_ne d c with rfl | hne
    · rw [setLock_self]
      exact lockIn_outside
    · rw [setLock_of_ne _ _ hne]
      exact (h.locks d hd).leave hh hne

/-- A step of a lock of another prefix. -/
theorem TakesTurns.step_other (h : TakesTurns lockPrefix p ⟨w, es⟩ T) (hne : lockPrefix c ≠ p)
    {out : LockWorld C × List (LockEvent C)} (heffect : Effect lockPrefix healthy w c out) :
    TakesTurns lockPrefix p ⟨out.1, es ++ out.2⟩ T := by
  have hnext := @TakesTurns.add_other _ _ _ _ _ _ h (nextKey (lockPrefix c))
    (mt nextKey_inj.mp hne) (nextKey_ne_servingKey _ _) 1
  have hserving := @TakesTurns.add_other _ _ _ _ _ _ h (servingKey (lockPrefix c))
    (nextKey_ne_servingKey _ _).symm (mt servingKey_inj.mp hne) 1
  have habsent : ∀ {lock}, lockPrefix c = p → LockIn T c lock := fun heq => absurd heq hne
  cases heffect with
  | still hes => exact h.still (names_quiet hes)
  | gaveUp _ hes _ => exact h.setLock (names_quiet hes) habsent
  | asked _ _ => exact h.setLock (names_quiet quiet_nil) habsent
  | dropped _ _ => exact h.setLock (names_quiet quiet_nil) habsent
  | drew hes _ _ =>
      have hnames : Names lockPrefix p [.drew c (w.store (nextKey (lockPrefix c)))] [] [] [] := by
        simp [Names, namedBy, drawer, enterer, leaver, hne]
      exact hnext.setLock (names_cons hes hnames) habsent
  | entered _ _ =>
      exact h.setLock (by simp [Names, namedBy, drawer, enterer, leaver, hne]) habsent
  | advanced hes _ =>
      have hnames : Names lockPrefix p [.advanced c] [] [] [] := by
        simp [Names, namedBy, drawer, enterer, leaver, hne]
      exact hserving.setLock (names_cons hes hnames) habsent

theorem attended_setLock (h : Attended w T)
    (hwaits : ∀ ticket, T.Waits ticket c → lock.point = .polling ticket)
    (hholds : T.Holds c → InSection lock) : Attended (w.setLock c lock) T := by
  refine ⟨fun d ticket hd => ?_, fun d hd => ?_⟩
  · rcases eq_or_ne d c with rfl | hne
    · rw [setLock_self]
      exact hwaits ticket hd
    · rw [setLock_of_ne w lock hne]
      exact h.waits d ticket hd
  · rcases eq_or_ne d c with rfl | hne
    · rw [setLock_self]
      exact hholds hd
    · rw [setLock_of_ne w lock hne]
      exact h.holds d hd

theorem Attended.draw (h : Attended w T) (hlock : LockIn T c (w.locks c))
    (hat : (w.locks c).point = .drawing) {held : Option Nat} :
    Attended (w.setLock c ⟨held, .polling T.drawn.length⟩) (T.draw c) := by
  have hholds : ∀ {d}, (T.draw c).Holds d → T.Holds d := by
    intro d hd
    refine ⟨hd.1, ?_⟩
    have hlt : T.left < T.drawn.length := by
      have := T.entered_drawn
      have : T.entered = T.left + 1 := hd.1
      omega
    rw [← List.getElem?_append_left hlt]
    exact hd.2
  refine ⟨fun d ticket hd => ?_, fun d hd => ?_⟩
  · rcases Nat.lt_trichotomy ticket T.drawn.length with hlt | rfl | hgt
    · have hwaits : T.Waits ticket d :=
        ⟨hd.1, (List.getElem?_append_left hlt).symm.trans hd.2⟩
      have hpoint := h.waits d ticket hwaits
      have hne : d ≠ c := by
        intro heq
        rw [heq, hat] at hpoint
        cases hpoint
      rw [setLock_of_ne _ _ hne]
      exact hpoint
    · have hdc : d = c := Option.some.inj (hd.2.symm.trans List.getElem?_concat_length)
      rw [hdc, setLock_self]
    · have hnone := List.getElem?_eq_some_iff.mp hd.2
      obtain ⟨hlt, -⟩ := hnone
      simp [Turns.draw] at hlt
      omega
  · have hsection := h.holds d (hholds hd)
    have hne : d ≠ c := by
      intro heq
      rw [LockIn, hat] at hlock
      rw [heq] at hsection
      obtain ⟨ticket, hheld⟩ | hadvancing := hsection
      · simp [hlock] at hheld
      · simp [hat] at hadvancing
    rw [setLock_of_ne _ _ hne]
    exact hsection

theorem Attended.enter (h : Attended w T) (hw : T.Waits T.left c) :
    Attended (w.setLock c ⟨some T.left, .outside⟩) (T.enter hw) := by
  have hstart := h.waits c T.left hw
  refine ⟨fun d ticket hd => ?_, fun d hd => ?_⟩
  · have hle : T.left + 1 ≤ ticket := hd.1
    have hpoint := h.waits d ticket ⟨by have := hw.entered_eq; omega, hd.2⟩
    have hne : d ≠ c := by
      intro heq
      rw [heq, hstart] at hpoint
      cases hpoint
      omega
    rw [setLock_of_ne _ _ hne]
    exact hpoint
  · have hdc : d = c := hd.unique (Turns.holds_enter hw)
    rw [hdc, setLock_self]
    exact .inl ⟨_, rfl⟩

theorem Attended.leave (h : Attended w T) (hh : T.Holds c) (hat : (w.locks c).point = .advancing)
    {held : Option Nat} : Attended (w.setLock c ⟨held, .outside⟩) (T.leave hh) := by
  refine ⟨fun d ticket hd => ?_, fun d hd => ?_⟩
  · have hpoint := h.waits d ticket hd
    have hne : d ≠ c := by
      intro heq
      rw [heq, hat] at hpoint
      cases hpoint
    rw [setLock_of_ne _ _ hne]
    exact hpoint
  · have hentered : T.entered = T.left + 1 + 1 := hd.1
    have := T.entered_le
    omega

/-- A step of a lock of this prefix. -/
theorem TakesTurns.step_same (h : TakesTurns lockPrefix p ⟨w, es⟩ T) (hc : lockPrefix c = p)
    {out : LockWorld C × List (LockEvent C)} (heffect : Effect lockPrefix healthy w c out) :
    ∃ T', TakesTurns lockPrefix p ⟨out.1, es ++ out.2⟩ T' ∧
      (healthy → Attended w T → Attended out.1 T') := by
  have hin : LockIn T c (w.locks c) := h.locks c hc
  have hlock := hin
  rw [LockIn] at hlock
  cases heffect with
  | still hes => exact ⟨T, h.still (names_quiet hes), fun _ hattended => hattended⟩
  | gaveUp hfailed hes hheld =>
      refine ⟨T, h.setLock (names_quiet hes) fun _ => ?_, fun hhealthy => absurd hhealthy hfailed⟩
      obtain rfl | ⟨rfl, hpoint⟩ := hheld
      · exact lockIn_outside
      · have hnone : (w.locks c).heldTicket = none := by
          cases hat : (w.locks c).point <;> simp_all
        rw [hnone]
        exact lockIn_outside
  | asked hheld hpoint =>
      refine ⟨T, h.setLock (names_quiet quiet_nil) fun _ => rfl, fun _ hattended => ?_⟩
      refine attended_setLock hattended (fun ticket hwaits => ?_) fun hholds => ?_
      · exact absurd (hattended.waits c ticket hwaits) (by simp [hpoint])
      · exact absurd (hattended.holds c hholds) (by simp [InSection, hheld, hpoint])
  | dropped hheld hpoint =>
      rw [hpoint] at hlock
      refine ⟨T, h.setLock (names_quiet quiet_nil) fun _ => ⟨rfl, (hlock _ hheld).2⟩,
        fun _ hattended => ?_⟩
      refine attended_setLock hattended (fun ticket hwaits => ?_) fun _ => .inr rfl
      exact absurd (hattended.waits c ticket hwaits) (by simp [hpoint])
  | drew hes hat hpoint =>
      rw [hat] at hlock
      have hnames : Names lockPrefix p [.drew c (w.store (nextKey p))] [c] [] [] := by
        simp [Names, namedBy, drawer, enterer, leaver, hc]
      have hnext : w.store (nextKey p) = T.drawn.length := h.next
      rw [hc, hnext] at hpoint
      refine ⟨T.draw c, ?_, fun hhealthy hattended => ?_⟩
      · rw [hc]
        refine h.draw (names_cons hes hnames) ?_
        obtain ⟨-, rfl⟩ | rfl := hpoint
        · rw [hlock]
          exact lockIn_outside
        · exact ⟨hlock, Turns.waits_draw c⟩
      · obtain ⟨hfailed, -⟩ | rfl := hpoint
        · exact absurd hhealthy hfailed
        · have hadded := @attended_locks _ _ _ (w.add (nextKey (lockPrefix c)) 1) hattended rfl
          exact hadded.draw hin hat
  | entered hat hturn =>
      rw [hat] at hlock
      rw [hc] at hturn
      obtain rfl := hturn.symm.trans h.serving
      exact ⟨T.enter hlock.2, h.enter hc hlock.2, fun _ hattended => hattended.enter hlock.2⟩
  | advanced hes hat =>
      rw [hat] at hlock
      obtain ⟨hheld, hholds⟩ : _ ∧ T.Holds c := hlock
      have hnames : Names lockPrefix p [.advanced c] [] [] [c] := by
        simp [Names, namedBy, drawer, enterer, leaver, hc]
      refine ⟨T.leave hholds, ?_, fun _ hattended => ?_⟩
      · rw [hc, hheld]
        exact h.leave (names_cons hes hnames) hholds
      · have hadded := @attended_locks _ _ _ (w.add (servingKey (lockPrefix c)) 1) hattended rfl
        exact hadded.leave hholds hat

/-- What a lock of another prefix does is nothing to this one's places. -/
theorem TakesTurns.attended_other (h : TakesTurns lockPrefix p ⟨w, es⟩ T) (hne : lockPrefix c ≠ p)
    (hattended : Attended w T) {out : LockWorld C × List (LockEvent C)}
    (heffect : Effect lockPrefix healthy w c out) : Attended out.1 T := by
  have hother : ∀ {w' lock}, Attended w' T → Attended (w'.setLock c lock) T := by
    intro w' lock h'
    exact attended_setLock h' (fun ticket hwaits => absurd (h.prefix_of_drawn hwaits.2) hne)
      fun hholds => absurd (h.prefix_of_drawn hholds.2) hne
  cases heffect with
  | still _ => exact hattended
  | gaveUp _ _ _ => exact hother hattended
  | asked _ _ => exact hother hattended
  | dropped _ _ => exact hother hattended
  | drew _ _ _ => exact hother (attended_locks hattended rfl)
  | entered _ _ => exact hother hattended
  | advanced _ _ => exact hother (attended_locks hattended rfl)

/-! ## Every run -/

theorem takesTurns_step (r : LockRun C) (i : C × LockInput) (h : TakesTurns lockPrefix p r T) :
    ∃ T', TakesTurns lockPrefix p (lockStep lockPrefix r i) T' ∧
      (Healthy i.2 → Attended r.world T → Attended (lockStep lockPrefix r i).world T') := by
  have heffect := @lockInput_effect _ lockPrefix i.1 r.world _ i.2
  by_cases hc : lockPrefix i.1 = p
  · exact h.step_same hc heffect
  · exact ⟨T, h.step_other hc heffect, fun _ hattended => h.attended_other hc hattended heffect⟩

variable (lockPrefix p) in
theorem takesTurns_lockRun (inputs : List (C × LockInput)) :
    ∃ T, TakesTurns lockPrefix p (lockRun lockPrefix inputs) T := by
  refine invariant_run (P := fun r => ∃ T, TakesTurns lockPrefix p r T) ?_
    ⟨_, takesTurns_init⟩ inputs
  intro r i ⟨T, h⟩
  obtain ⟨T', h', -⟩ := takesTurns_step r i h
  exact ⟨T', h'⟩

/-- Whatever the order of steps and whatever fails: those who finished their turn, those who
began one and those who drew a ticket are each the first of the next, at most one turn is
begun and not finished, and an object with the lock is the one whose turn that is. -/
theorem lockRun_exclusive (lockPrefix : C → String) (p : String) (inputs : List (C × LockInput)) :
    let r := lockRun lockPrefix inputs
    let drawn := namedBy lockPrefix p drawer r.events
    let entered := namedBy lockPrefix p enterer r.events
    let left := namedBy lockPrefix p leaver r.events
    left <+: entered ∧ entered <+: drawn ∧ entered.length ≤ left.length + 1 ∧
      (∀ c, lockPrefix c = p → InSection (r.world.locks c) → entered = left ++ [c]) ∧
      (∀ c d, lockPrefix c = p → lockPrefix d = p → InSection (r.world.locks c) →
        InSection (r.world.locks d) → c = d) ∧
      (∀ c ticket, lockPrefix c = p → (r.world.locks c).point = .polling ticket →
        drawn[ticket]? = some c ∧ entered.length ≤ ticket) := by
  obtain ⟨T, h⟩ := takesTurns_lockRun lockPrefix p inputs
  simp only
  rw [h.drawn, h.entered, h.left]
  refine ⟨Turns.leftList_prefix, Turns.enteredList_prefix, ?_, fun c hc hin => ?_,
    fun c d hc hd hin hin' => ?_, fun c ticket hc hat => ?_⟩
  · rw [Turns.enteredList_length, Turns.leftList_length]
    exact T.entered_le
  · exact ((h.locks c hc).holds hin).enteredList
  · exact ((h.locks c hc).holds hin).unique ((h.locks d hd).holds hin')
  · have hlock := h.locks c hc
    rw [LockIn, hat] at hlock
    rw [Turns.enteredList_length]
    exact ⟨hlock.2.2, hlock.2.1⟩

end Crisp.Proofs
