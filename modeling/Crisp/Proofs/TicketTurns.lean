import Crisp.Proofs.TicketLock
import Mathlib.Tactic.IntervalCases

/-!
# Every ticket comes up

While no store operation fails and no process dies, every place in the queue is attended,
and the process at the count is polling, in the section, or about to advance the counter.
Each of the three leads to the next: its poll is answered, it leaves the section, its
operation is carried out. So the counter goes up as long as someone waits, and whoever
polls has its turn.
-/

namespace Crisp.Proofs

open Crisp.Lib Crisp.Ref

variable {C : Type} {lockPrefix : C → String} {p : String} {T : Turns C} {c d : C} [DecidableEq C]

/-! ## No turn is lost -/

theorem attended_run (inputs : List (C × LockInput)) (hhealthy : ∀ i ∈ inputs, Healthy i.2)
    {r : LockRun C} (h : TakesTurns lockPrefix p r T) (hattended : Attended r.world T) :
    ∃ T', TakesTurns lockPrefix p (runFrom (lockStep lockPrefix) r inputs) T' ∧
      Attended (runFrom (lockStep lockPrefix) r inputs).world T' := by
  induction inputs generalizing r T with
  | nil => exact ⟨T, h, hattended⟩
  | cons i is ih =>
      obtain ⟨T₁, h₁, hnext⟩ := takesTurns_step r i h
      have hfirst := hnext (hhealthy i List.mem_cons_self) hattended
      exact ih (fun j hj => hhealthy j (List.mem_cons_of_mem _ hj)) h₁ hfirst

variable (lockPrefix p) in
/-- One process brings its own turn to an end, in so many steps. -/
structure EndsTurn (r : LockRun C) (d : C) (inputs : List (C × LockInput)) (r' : LockRun C) :
    Prop where
  own : ∀ i ∈ inputs, i.1 = d ∧ Healthy i.2
  run : runFrom (lockStep lockPrefix) r inputs = r'
  serving : r'.world.store (servingKey p) = r.world.store (servingKey p) + 1
  drawn : namedBy lockPrefix p drawer r'.events = namedBy lockPrefix p drawer r.events
  others : ∀ c, c ≠ d → r'.world.locks c = r.world.locks c

theorem endsTurn_advancing {r : LockRun C} (hd : lockPrefix d = p)
    (hat : (r.world.locks d).point = .advancing) :
    ∃ r', EndsTurn lockPrefix p r d [(d, .proceed)] r' := by
  refine ⟨_, by simp [Healthy], rfl, ?_, ?_, ?_⟩
  all_goals simp only [runFrom_cons, runFrom_nil, lockStep, lockInput, proceed, hat]
  · rw [hd]
    exact add_self _ _ _
  · rw [named_append]
    exact List.append_nil _
  · exact fun c hne => setLock_of_ne _ _ hne

/-- A step of one's own before the rest. -/
theorem EndsTurn.cons {r r₁ r' : LockRun C} {i : LockInput} {inputs : List (C × LockInput)}
    (h : EndsTurn lockPrefix p r₁ d inputs r') (hi : Healthy i)
    (hstep : lockStep lockPrefix r (d, i) = r₁)
    (hserving : r₁.world.store (servingKey p) = r.world.store (servingKey p))
    (hdrawn : namedBy lockPrefix p drawer r₁.events = namedBy lockPrefix p drawer r.events)
    (hothers : ∀ c, c ≠ d → r₁.world.locks c = r.world.locks c) :
    EndsTurn lockPrefix p r d ((d, i) :: inputs) r' := by
  refine ⟨fun j hj => ?_, ?_, ?_, h.drawn.trans hdrawn, fun c hne => ?_⟩
  · rcases List.mem_cons.mp hj with rfl | hj
    · exact ⟨rfl, hi⟩
    · exact h.own j hj
  · rw [runFrom_cons, hstep, h.run]
  · rw [h.serving, hserving]
  · rw [h.others c hne, hothers c hne]

theorem endsTurn_held {r : LockRun C} {ticket : Nat} (hd : lockPrefix d = p)
    (hheld : (r.world.locks d).heldTicket = some ticket)
    (hat : (r.world.locks d).point = .outside) :
    ∃ r', EndsTurn lockPrefix p r d [(d, .call .release), (d, .proceed)] r' := by
  have hstep : lockStep lockPrefix r (d, .call .release) =
      ⟨r.world.setLock d ⟨none, .advancing⟩, r.events ++ []⟩ := by
    simp [lockStep, lockInput, lockCall, release, hat, hheld]
  obtain ⟨r', h⟩ := @endsTurn_advancing _ lockPrefix _ _ _
    ⟨r.world.setLock d ⟨none, .advancing⟩, r.events ++ []⟩ hd
    (by rw [setLock_self])
  exact ⟨r', h.cons trivial hstep rfl (by rw [List.append_nil])
    fun c hne => setLock_of_ne _ _ hne⟩

theorem endsTurn_polling {r : LockRun C} (hd : lockPrefix d = p)
    (hat : (r.world.locks d).point = .polling (r.world.store (servingKey p))) :
    ∃ r', EndsTurn lockPrefix p r d [(d, .proceed), (d, .call .release), (d, .proceed)] r' := by
  let ticket := r.world.store (servingKey p)
  have hstep : lockStep lockPrefix r (d, .proceed) =
      ⟨r.world.setLock d ⟨some ticket, .outside⟩, r.events ++ [.entered d ticket]⟩ := by
    simp [lockStep, lockInput, proceed, hat, hd, ticket]
  obtain ⟨r', h⟩ := @endsTurn_held _ lockPrefix _ _ _
    ⟨r.world.setLock d ⟨some ticket, .outside⟩, r.events ++ [.entered d ticket]⟩ ticket hd
    (by rw [setLock_self]) (by rw [setLock_self])
  refine ⟨r', h.cons trivial hstep rfl ?_ fun c hne => setLock_of_ne _ _ hne⟩
  rw [named_append]
  exact List.append_nil _

omit [DecidableEq C] in
/-- The process at the count polls, is in the section, or is about to advance the counter. -/
theorem Attended.stations {r : LockRun C} (hattended : Attended r.world T)
    (h : TakesTurns lockPrefix p r T) (hd : T.drawn[T.left]? = some d) :
    (r.world.locks d).point = .polling (r.world.store (servingKey p)) ∨
      (∃ ticket, (r.world.locks d).heldTicket = some ticket ∧
        (r.world.locks d).point = .outside) ∨
      (r.world.locks d).point = .advancing := by
  rcases Nat.lt_or_ge T.left T.entered with hlt | hle
  · have hholds : T.Holds d := ⟨by have := T.entered_le; omega, hd⟩
    obtain ⟨ticket, hheld⟩ | hat := hattended.holds d hholds
    · have hlock := h.locks d (h.prefix_of_drawn hd)
      have hat : (r.world.locks d).point = .outside := by
        rw [LockIn] at hlock
        cases hpoint : (r.world.locks d).point <;> simp_all
      exact .inr (.inl ⟨ticket, hheld, hat⟩)
    · exact .inr (.inr hat)
  · left
    rw [h.serving]
    exact hattended.waits d T.left ⟨hle, hd⟩

/-- Whoever is at the count ends its turn. -/
theorem exists_endsTurn {r : LockRun C} (h : TakesTurns lockPrefix p r T)
    (hattended : Attended r.world T) (hd : T.drawn[T.left]? = some d) :
    ∃ inputs r', inputs.length ≤ 3 ∧ EndsTurn lockPrefix p r d inputs r' := by
  have hprefix := h.prefix_of_drawn hd
  obtain hat | ⟨ticket, hheld, hat⟩ | hat := hattended.stations h hd
  · obtain ⟨r', hr'⟩ := endsTurn_polling hprefix hat
    exact ⟨_, r', by simp, hr'⟩
  · obtain ⟨r', hr'⟩ := endsTurn_held hprefix hheld hat
    exact ⟨_, r', by simp, hr'⟩
  · obtain ⟨r', hr'⟩ := endsTurn_advancing hprefix hat
    exact ⟨_, r', by simp, hr'⟩

theorem turn_reached {ticket : Nat} (hc : lockPrefix c = p) (n : Nat) :
    ∀ (r : LockRun C) (T : Turns C), TakesTurns lockPrefix p r T → Attended r.world T →
      T.Waits ticket c → ticket - T.left = n →
      ∃ more, (∀ i ∈ more, Healthy i.2 ∧
          ∃ k, T.left ≤ k ∧ k ≤ ticket ∧ T.drawn[k]? = some i.1) ∧
        more.length ≤ 3 * n + 1 ∧
        ((runFrom (lockStep lockPrefix) r more).world.locks c).heldTicket = some ticket := by
  induction n with
  | zero =>
      intro r T h hattended hw hn
      have hleft : T.left = ticket := by
        have := hw.1
        have := T.left_le
        omega
      have hat := hattended.waits c ticket hw
      have hserving := h.serving
      refine ⟨[(c, .proceed)], ?_, Nat.le_refl 1, ?_⟩
      · intro i hi
        rw [List.mem_singleton.mp hi]
        exact ⟨trivial, ticket, by omega, Nat.le_refl _, hw.2⟩
      · simp [lockStep, lockInput, proceed, hat, hc, hserving, hleft, setLock_self]
  | succ n ih =>
      intro r T h hattended hw hn
      have hlt : T.left < ticket := by omega
      have hlength := (List.getElem?_eq_some_iff.mp hw.2).1
      have hlock := h.locks c hc
      obtain ⟨d, hd⟩ : ∃ d, T.drawn[T.left]? = some d :=
        ⟨_, List.getElem?_eq_getElem (by omega)⟩
      have hne := hattended.ne_of_waits hlock hw hlt hd
      obtain ⟨inputs, r', hcount, hends⟩ := exists_endsTurn h hattended hd
      obtain ⟨T', h', hattended'⟩ :=
        attended_run inputs (fun i hi => (hends.own i hi).2) h hattended
      rw [hends.run] at h' hattended'
      have hleft' : T'.left = T.left + 1 := by
        rw [← h'.serving, hends.serving, h.serving]
      have hdrawn' : T'.drawn = T.drawn := by
        rw [← h'.drawn, hends.drawn, h.drawn]
      have hw' : T'.Waits ticket c := by
        have hlock' := h'.locks c hc
        rw [hends.others c hne, LockIn, hattended.waits c ticket hw] at hlock'
        exact hlock'.2
      obtain ⟨more, hmore, hlen, hheld⟩ := ih r' T' h' hattended' hw' (by omega)
      refine ⟨inputs ++ more, fun i hi => ?_, ?_, ?_⟩
      · rcases List.mem_append.mp hi with hi | hi
        · obtain ⟨rfl, hhealthy⟩ := hends.own i hi
          exact ⟨hhealthy, T.left, Nat.le_refl _, Nat.le_of_lt hlt, hd⟩
        · obtain ⟨hhealthy, k, hk, hk', hat⟩ := hmore i hi
          exact ⟨hhealthy, k, by omega, hk', hdrawn' ▸ hat⟩
      · rw [List.length_append]
        omega
      · rw [runFrom_append, hends.run, hheld]

theorem reaches_turn (inputs : List (C × LockInput)) (hhealthy : ∀ i ∈ inputs, Healthy i.2)
    {ticket : Nat} (hat : ((lockRun lockPrefix inputs).world.locks c).point = .polling ticket) :
    ∃ more, (∀ i ∈ more, Healthy i.2 ∧
        ∃ k, (lockRun lockPrefix inputs).world.store (servingKey (lockPrefix c)) ≤ k ∧ k ≤ ticket ∧
          (namedBy lockPrefix (lockPrefix c) drawer (lockRun lockPrefix inputs).events)[k]? =
            some i.1) ∧
      more.length ≤
        3 * (ticket - (lockRun lockPrefix inputs).world.store (servingKey (lockPrefix c))) + 1 ∧
      ((lockRun lockPrefix (inputs ++ more)).world.locks c).heldTicket = some ticket := by
  obtain ⟨T, h, hattended⟩ := attended_run inputs hhealthy
    (@takesTurns_init _ lockPrefix (lockPrefix c)) attended_init
  have hlock := h.locks c rfl
  rw [lockRun] at hat
  rw [LockIn, hat] at hlock
  obtain ⟨more, hmore, hlen, hheld⟩ := turn_reached rfl _ _ T h hattended hlock.2 rfl
  simp only [lockRun]
  rw [h.serving, h.drawn]
  refine ⟨more, hmore, hlen, ?_⟩
  rw [runFrom_append, hheld]

/-! ## One step -/

section Step

variable {r : LockRun C} {healthy : Prop} {w : LockWorld C}

theorem Effect.locks_of_ne {out : LockWorld C × List (LockEvent C)}
    (h : Effect lockPrefix healthy w c out) (hne : d ≠ c) : out.1.locks d = w.locks d := by
  cases h with
  | still _ => rfl
  | gaveUp _ _ _ => exact setLock_of_ne _ _ hne
  | asked _ _ => exact setLock_of_ne _ _ hne
  | dropped _ _ => exact setLock_of_ne _ _ hne
  | drew _ _ _ => exact setLock_of_ne _ _ hne
  | entered _ _ => exact setLock_of_ne _ _ hne
  | advanced _ _ => exact setLock_of_ne _ _ hne

/-- The counters only go up. -/
theorem Effect.store_le {out : LockWorld C × List (LockEvent C)}
    (h : Effect lockPrefix healthy w c out) (key : String) : w.store key ≤ out.1.store key := by
  have hadd : ∀ key', w.store key ≤ (w.add key' 1).store key := by
    intro key'
    by_cases heq : key = key'
    · rw [heq, add_self]
      exact Nat.le_succ _
    · exact Nat.le_of_eq (add_of_ne w 1 heq).symm
  cases h with
  | still _ => exact Nat.le_refl _
  | gaveUp _ _ _ => exact Nat.le_refl _
  | asked _ _ => exact Nat.le_refl _
  | dropped _ _ => exact Nat.le_refl _
  | drew _ _ _ => exact hadd _
  | entered _ _ => exact Nat.le_refl _
  | advanced _ _ => exact hadd _

theorem lockStep_of_ne (i : C × LockInput) (hne : d ≠ i.1) :
    (lockStep lockPrefix r i).world.locks d = r.world.locks d :=
  lockInput_effect i.2 |>.locks_of_ne hne

theorem serving_le_lockStep (i : C × LockInput) :
    r.world.store (servingKey p) ≤ (lockStep lockPrefix r i).world.store (servingKey p) :=
  lockInput_effect i.2 |>.store_le _

/-- A process inside a method makes no call. -/
theorem lockStep_busy (hbusy : (r.world.locks c).point ≠ .outside) (call : LockCall) :
    (lockStep lockPrefix r (c, .call call)).world = r.world := by
  simp [lockStep, lockInput, hbusy]

/-- How a process leaves its section. -/
def Leaves : LockInput → Prop
  | .call .release => True
  | .call (.exit false) => True
  | _ => False

/-- While it polls for a turn that has not come, it polls on. -/
theorem polls_step {ticket : Nat} {i : C × LockInput} (hi : Healthy i.2)
    (hat : (r.world.locks c).point = .polling ticket) :
    ((lockStep lockPrefix r i).world.locks c).point = .polling ticket ∨
      ((lockStep lockPrefix r i).world.locks c).heldTicket = some ticket ∧
        ((lockStep lockPrefix r i).world.locks c).point = .outside := by
  obtain ⟨d, input⟩ := i
  by_cases hdc : c = d
  · subst hdc
    cases input with
    | call call =>
        left
        rw [lockStep_busy (by simp [hat])]
        exact hat
    | proceed =>
        simp only [lockStep, lockInput, proceed, hat]
        split
        · exact .inl hat
        · right
          rw [setLock_self]
          exact ⟨rfl, rfl⟩
    | storeFails applied => exact absurd hi id
    | crash => exact absurd hi id
  · left
    rw [lockStep_of_ne (d, input) hdc]
    exact hat

theorem polls_proceed {ticket : Nat} (hc : lockPrefix c = p)
    (hat : (r.world.locks c).point = .polling ticket)
    (hturn : r.world.store (servingKey p) = ticket) :
    ((lockStep lockPrefix r (c, .proceed)).world.locks c).heldTicket = some ticket ∧
      ((lockStep lockPrefix r (c, .proceed)).world.locks c).point = .outside := by
  simp [lockStep, lockInput, proceed, hat, hc, hturn, setLock_self]

/-- Who has the lock keeps it until it leaves. -/
theorem holds_step {i : C × LockInput} (hi : Healthy i.2) {ticket : Nat}
    (hheld : (r.world.locks c).heldTicket = some ticket)
    (hat : (r.world.locks c).point = .outside) :
    ((lockStep lockPrefix r i).world.locks c).heldTicket = some ticket ∧
        ((lockStep lockPrefix r i).world.locks c).point = .outside ∨
      ((lockStep lockPrefix r i).world.locks c).point = .advancing := by
  obtain ⟨d, input⟩ := i
  by_cases hdc : c = d
  · subst hdc
    cases input with
    | call call =>
        cases call with
        | acquire =>
            left
            simp [lockStep, lockInput, lockCall, acquire, hheld, hat]
        | release =>
            right
            simp [lockStep, lockInput, lockCall, release, hheld, hat, setLock_self]
        | exit raised =>
            cases raised with
            | true =>
                left
                simp [lockStep, lockInput, lockCall, hheld, hat]
            | false =>
                right
                simp [lockStep, lockInput, lockCall, release, hheld, hat, setLock_self]
    | proceed =>
        left
        simp [lockStep, lockInput, proceed, hheld, hat]
    | storeFails applied => exact absurd hi id
    | crash => exact absurd hi id
  · left
    rw [lockStep_of_ne (d, input) hdc]
    exact ⟨hheld, hat⟩

theorem holds_leaves {input : LockInput} (hleaves : Leaves input) {ticket : Nat}
    (hheld : (r.world.locks c).heldTicket = some ticket)
    (hat : (r.world.locks c).point = .outside) :
    ((lockStep lockPrefix r (c, input)).world.locks c).point = .advancing := by
  have hrelease : ∀ call, call = .release ∨ call = .exit false →
      ((lockStep lockPrefix r (c, .call call)).world.locks c).point = .advancing := by
    rintro call (rfl | rfl)
    all_goals simp [lockStep, lockInput, lockCall, release, hheld, hat, setLock_self]
  cases input with
  | call call =>
      cases call with
      | acquire => exact absurd hleaves id
      | release => exact hrelease _ (.inl rfl)
      | exit raised =>
          cases raised with
          | true => exact absurd hleaves id
          | false => exact hrelease _ (.inr rfl)
  | proceed => exact absurd hleaves id
  | storeFails applied => exact absurd hleaves id
  | crash => exact absurd hleaves id

theorem advances_proceed (hat : (r.world.locks c).point = .advancing) (hc : lockPrefix c = p) :
    r.world.store (servingKey p) <
      (lockStep lockPrefix r (c, .proceed)).world.store (servingKey p) := by
  simp only [lockStep, lockInput, proceed, hat, hc]
  exact Nat.lt_of_lt_of_eq (Nat.lt_succ_self _) (add_self r.world _ 1).symm

/-- Whoever is to advance the counter stays there until it has. -/
theorem advances_step {i : C × LockInput} (hi : Healthy i.2)
    (hat : (r.world.locks c).point = .advancing) (hc : lockPrefix c = p) :
    ((lockStep lockPrefix r i).world.locks c).point = .advancing ∨
      r.world.store (servingKey p) < (lockStep lockPrefix r i).world.store (servingKey p) := by
  obtain ⟨d, input⟩ := i
  by_cases hdc : c = d
  · subst hdc
    cases input with
    | call call =>
        left
        rw [lockStep_busy (by simp [hat])]
        exact hat
    | proceed =>
        exact .inr (advances_proceed hat hc)
    | storeFails applied => exact absurd hi id
    | crash => exact absurd hi id
  · left
    rw [lockStep_of_ne (d, input) hdc]
    exact hat

end Step

/-! ## Fair runs -/

section Fair

variable {inputs : Nat → C × LockInput}

/-- An endless run in which no store operation fails and no process dies, every operation
a process stands at is carried out some time, and whoever has the lock leaves its section
some time, without an exception. -/
structure FairRun (lockPrefix : C → String) (inputs : Nat → C × LockInput) : Prop where
  healthy : ∀ n, Healthy (inputs n).2
  answered : ∀ n c,
    ((lockRun lockPrefix (firstInputs inputs n)).world.locks c).point ≠ .outside →
      ∃ m, n ≤ m ∧ inputs m = (c, .proceed)
  left : ∀ n c ticket,
    ((lockRun lockPrefix (firstInputs inputs n)).world.locks c).heldTicket = some ticket →
      ∃ m, n ≤ m ∧ (inputs m).1 = c ∧ Leaves (inputs m).2

theorem lockRun_succ (n : Nat) : lockRun lockPrefix (firstInputs inputs (n + 1)) =
    lockStep lockPrefix (lockRun lockPrefix (firstInputs inputs n)) (inputs n) :=
  runFrom_firstInputs_succ _ _ inputs n

theorem serving_le {n m : Nat} (h : n ≤ m) :
    (lockRun lockPrefix (firstInputs inputs n)).world.store (servingKey p) ≤
      (lockRun lockPrefix (firstInputs inputs m)).world.store (servingKey p) := by
  induction h with
  | refl => exact Nat.le_refl _
  | step _ ih =>
      rw [lockRun_succ]
      exact Nat.le_trans ih (serving_le_lockStep _)

theorem FairRun.turns (hfair : FairRun lockPrefix inputs) (p : String) (n : Nat) :
    ∃ T, TakesTurns lockPrefix p (lockRun lockPrefix (firstInputs inputs n)) T ∧
      Attended (lockRun lockPrefix (firstInputs inputs n)).world T := by
  refine attended_run _ (fun i hi => ?_) takesTurns_init attended_init
  obtain ⟨m, rfl⟩ := mem_firstInputs hi
  exact hfair.healthy m

/-- Whoever polls has not been passed over. -/
theorem FairRun.serving_le_ticket (hfair : FairRun lockPrefix inputs) {n ticket : Nat}
    (hc : lockPrefix c = p)
    (hat : ((lockRun lockPrefix (firstInputs inputs n)).world.locks c).point = .polling ticket) :
    (lockRun lockPrefix (firstInputs inputs n)).world.store (servingKey p) ≤ ticket := by
  obtain ⟨T, h, -⟩ := hfair.turns p n
  have hlock := h.locks c hc
  rw [LockIn, hat] at hlock
  rw [h.serving]
  exact Nat.le_trans T.left_le hlock.2.1

/-- It polls until it has its turn. -/
theorem FairRun.polls (hfair : FairRun lockPrefix inputs) {n m ticket : Nat} (hle : n ≤ m)
    (hat : ((lockRun lockPrefix (firstInputs inputs n)).world.locks c).point = .polling ticket) :
    ((lockRun lockPrefix (firstInputs inputs m)).world.locks c).point = .polling ticket ∨
      ∃ k, n < k ∧
        ((lockRun lockPrefix (firstInputs inputs k)).world.locks c).heldTicket = some ticket := by
  induction hle with
  | refl => exact .inl hat
  | @step m hle ih =>
      rcases ih with hpoll | hentered
      · have hstep := @polls_step _ lockPrefix _ _ _ _ _ (hfair.healthy m) hpoll
        rw [← lockRun_succ] at hstep
        exact hstep.imp_right fun hheld => ⟨m + 1, Nat.lt_succ_of_le hle, hheld.1⟩
      · exact .inr hentered

/-! The three stations of the process at the count. -/

theorem FairRun.enters (hfair : FairRun lockPrefix inputs) {n ticket : Nat}
    (hc : lockPrefix c = p)
    (hat : ((lockRun lockPrefix (firstInputs inputs n)).world.locks c).point = .polling ticket)
    (hturn : (lockRun lockPrefix (firstInputs inputs n)).world.store (servingKey p) = ticket) :
    ∃ m, n < m ∧
      ((lockRun lockPrefix (firstInputs inputs m)).world.locks c).heldTicket = some ticket ∧
      ((lockRun lockPrefix (firstInputs inputs m)).world.locks c).point = .outside := by
  refine eventually_of_helped (fun m => lockRun lockPrefix (firstInputs inputs m)) inputs
    (fun r => (r.world.locks c).point = .polling ticket)
    (fun r => (r.world.locks c).heldTicket = some ticket ∧ (r.world.locks c).point = .outside)
    (fun i => i = (c, .proceed)) (fun m _ hpoll => ?_) (fun m hm hpoll hhelps => ?_)
    (hfair.answered n c (by simp [hat])) hat
  · rw [lockRun_succ]
    exact polls_step (hfair.healthy m) hpoll
  · rw [lockRun_succ, hhelps]
    refine polls_proceed hc hpoll (Nat.le_antisymm (hfair.serving_le_ticket hc hpoll) ?_)
    rw [← hturn]
    exact serving_le hm

theorem FairRun.leaves (hfair : FairRun lockPrefix inputs) {n ticket : Nat}
    (hheld : ((lockRun lockPrefix (firstInputs inputs n)).world.locks c).heldTicket = some ticket)
    (hat : ((lockRun lockPrefix (firstInputs inputs n)).world.locks c).point = .outside) :
    ∃ m, n < m ∧
      ((lockRun lockPrefix (firstInputs inputs m)).world.locks c).point = .advancing := by
  refine eventually_of_helped (fun m => lockRun lockPrefix (firstInputs inputs m)) inputs
    (fun r => (r.world.locks c).heldTicket = some ticket ∧ (r.world.locks c).point = .outside)
    (fun r => (r.world.locks c).point = .advancing) (fun i => i.1 = c ∧ Leaves i.2)
    (fun m _ hholds => ?_) (fun m _ hholds hhelps => ?_) (hfair.left n c ticket hheld) ⟨hheld, hat⟩
  · rw [lockRun_succ]
    exact holds_step (hfair.healthy m) hholds.1 hholds.2
  · have hinput : inputs m = (c, (inputs m).2) := Prod.ext hhelps.1 rfl
    rw [lockRun_succ, hinput]
    exact holds_leaves hhelps.2 hholds.1 hholds.2

theorem FairRun.advances (hfair : FairRun lockPrefix inputs) {n : Nat} (hc : lockPrefix c = p)
    (hat : ((lockRun lockPrefix (firstInputs inputs n)).world.locks c).point = .advancing) :
    ∃ m, n < m ∧ (lockRun lockPrefix (firstInputs inputs n)).world.store (servingKey p) <
      (lockRun lockPrefix (firstInputs inputs m)).world.store (servingKey p) := by
  refine eventually_of_helped (fun m => lockRun lockPrefix (firstInputs inputs m)) inputs
    (fun r => (r.world.locks c).point = .advancing)
    (fun r => (lockRun lockPrefix (firstInputs inputs n)).world.store (servingKey p) <
      r.world.store (servingKey p)) (fun i => i = (c, .proceed))
    (fun m hm hadvancing => ?_) (fun m hm hadvancing hhelps => ?_)
    (hfair.answered n c (by simp [hat])) hat
  · rw [lockRun_succ]
    exact (advances_step (hfair.healthy m) hadvancing hc).imp_right
      fun hlt => Nat.lt_of_le_of_lt (serving_le hm) hlt
  · rw [lockRun_succ, hhelps]
    exact Nat.lt_of_le_of_lt (serving_le hm) (advances_proceed hadvancing hc)

/-- While someone waits behind it, the process at the count ends its turn. -/
theorem FairRun.serving_advances (hfair : FairRun lockPrefix inputs) {n ticket : Nat}
    (hc : lockPrefix c = p)
    (hat : ((lockRun lockPrefix (firstInputs inputs n)).world.locks c).point = .polling ticket)
    (hlt : (lockRun lockPrefix (firstInputs inputs n)).world.store (servingKey p) < ticket) :
    ∃ m, n < m ∧ (lockRun lockPrefix (firstInputs inputs n)).world.store (servingKey p) <
      (lockRun lockPrefix (firstInputs inputs m)).world.store (servingKey p) := by
  obtain ⟨T, h, hattended⟩ := hfair.turns p n
  have hlock := h.locks c hc
  rw [LockIn, hat] at hlock
  have hlength := (List.getElem?_eq_some_iff.mp hlock.2.2).1
  rw [h.serving] at hlt
  obtain ⟨d, hd⟩ : ∃ d, T.drawn[T.left]? = some d := ⟨_, List.getElem?_eq_getElem (by omega)⟩
  have hprefix := h.prefix_of_drawn hd
  have hadvances : ∀ {m}, n ≤ m →
      ((lockRun lockPrefix (firstInputs inputs m)).world.locks d).point = .advancing →
      ∃ m', n < m' ∧ (lockRun lockPrefix (firstInputs inputs n)).world.store (servingKey p) <
        (lockRun lockPrefix (firstInputs inputs m')).world.store (servingKey p) := by
    intro m hm hadvancing
    obtain ⟨m', hm', hmore⟩ := hfair.advances hprefix hadvancing
    exact ⟨m', by omega, Nat.lt_of_le_of_lt (serving_le hm) hmore⟩
  have hleaves : ∀ {m held}, n ≤ m →
      ((lockRun lockPrefix (firstInputs inputs m)).world.locks d).heldTicket = some held →
      ((lockRun lockPrefix (firstInputs inputs m)).world.locks d).point = .outside →
      ∃ m', n < m' ∧ (lockRun lockPrefix (firstInputs inputs n)).world.store (servingKey p) <
        (lockRun lockPrefix (firstInputs inputs m')).world.store (servingKey p) := by
    intro m held hm hheld hout
    obtain ⟨m', hm', hadvancing⟩ := hfair.leaves hheld hout
    exact hadvances (by omega) hadvancing
  obtain hpoll | ⟨held, hheld, hout⟩ | hadvancing := hattended.stations h hd
  · obtain ⟨m, hm, hheld, hout⟩ := hfair.enters hprefix hpoll rfl
    exact hleaves (by omega) hheld hout
  · exact hleaves (Nat.le_refl n) hheld hout
  · exact hadvances (Nat.le_refl n) hadvancing

/-- **Every ticket comes up.** In a fair run a process that polls enters with the ticket it
drew; and from any point of the run the steps of those who drew before it, and its own, are
enough: at most three for each of them and one more. -/
theorem lockRun_enters (lockPrefix : C → String) (inputs : Nat → C × LockInput)
    (hfair : FairRun lockPrefix inputs) (n : Nat) (c : C) (ticket : Nat)
    (hat : ((lockRun lockPrefix (firstInputs inputs n)).world.locks c).point =
      .polling ticket) :
    (∃ m, n < m ∧
      ((lockRun lockPrefix (firstInputs inputs m)).world.locks c).heldTicket = some ticket) ∧
    let r := lockRun lockPrefix (firstInputs inputs n)
    let serving := r.world.store (servingKey (lockPrefix c))
    let drawn := namedBy lockPrefix (lockPrefix c) drawer r.events
    ∃ more, (∀ i ∈ more, Healthy i.2 ∧
        ∃ k, serving ≤ k ∧ k ≤ ticket ∧ drawn[k]? = some i.1) ∧
      more.length ≤ 3 * (ticket - serving) + 1 ∧
      ((lockRun lockPrefix (firstInputs inputs n ++ more)).world.locks c).heldTicket =
        some ticket := by
  refine ⟨?_, reaches_turn _ (fun i hi => ?_) hat⟩
  · generalize hgap : ticket -
      (lockRun lockPrefix (firstInputs inputs n)).world.store (servingKey (lockPrefix c)) = gap
    induction gap using Nat.strongRecOn generalizing n with
    | ind gap ih =>
        have hle := hfair.serving_le_ticket rfl hat
        rcases Nat.lt_or_eq_of_le hle with hlt | hturn
        · obtain ⟨m, hm, hmore⟩ := hfair.serving_advances rfl hat hlt
          rcases hfair.polls (Nat.le_of_lt hm) hat with hpoll | hentered
          · obtain ⟨k, hk, hheld⟩ := ih _ (by omega) m hpoll rfl
            exact ⟨k, by omega, hheld⟩
          · exact hentered
        · obtain ⟨m, hm, hheld, -⟩ := hfair.enters rfl hat hturn
          exact ⟨m, hm, hheld⟩
  · obtain ⟨m, rfl⟩ := mem_firstInputs hi
    exact hfair.healthy m

end Fair

/-! ## Two processes -/

section Two

/-- The second process asks while the first is in the section; both leave, and the first
polls nothing for ever. -/
def twoTurns (n : Nat) : Bool × LockInput :=
  [(true, .call .acquire), (true, .proceed), (true, .proceed), (false, .call .acquire),
    (false, .proceed), (false, .proceed), (true, .call .release), (true, .proceed),
    (false, .proceed), (false, .call (.exit false)), (false, .proceed)].getD n (true, .proceed)

theorem twoTurns_rest (k : Nat) (c : Bool) :
    (lockRun (fun _ => "engine") (firstInputs twoTurns (11 + k))).world.locks c = {} := by
  induction k generalizing c with
  | zero => cases c <;> rfl
  | succ k ih =>
      have hidle : twoTurns (11 + k) = (true, .proceed) := by
        rw [Nat.add_comm]
        rfl
      rw [← Nat.add_assoc, lockRun_succ, hidle]
      simp [lockStep, lockInput, proceed, ih]

theorem twoTurns_fair : FairRun (fun _ => "engine") twoTurns where
  healthy n := by
    rcases Nat.lt_or_ge n 11 with hlt | hge
    · interval_cases n <;> trivial
    · obtain ⟨k, rfl⟩ := Nat.exists_eq_add_of_le' hge
      trivial
  answered n c hbusy := by
    cases c with
    | true => exact ⟨n + 11, Nat.le_add_right n 11, rfl⟩
    | false =>
        rcases Nat.lt_or_ge n 11 with hlt | hge
        · exact ⟨10, by omega, rfl⟩
        · obtain ⟨k, rfl⟩ := Nat.exists_eq_add_of_le hge
          rw [twoTurns_rest] at hbusy
          exact absurd rfl hbusy
  left n c ticket hheld := by
    rcases Nat.lt_or_ge n 11 with hlt | hge
    · cases c with
      | true =>
          rcases Nat.lt_or_ge n 7 with hearly | hlate
          · exact ⟨6, by omega, rfl, trivial⟩
          · interval_cases n <;> cases hheld
      | false =>
          rcases Nat.lt_or_ge n 10 with hearly | hlate
          · exact ⟨9, by omega, rfl, trivial⟩
          · obtain rfl : n = 10 := by omega
            cases hheld
    · obtain ⟨k, rfl⟩ := Nat.exists_eq_add_of_le hge
      rw [twoTurns_rest] at hheld
      cases hheld

theorem lockRun_enters_two :
    (∃ m, 5 < m ∧
      ((lockRun (fun _ => "engine") (firstInputs twoTurns m)).world.locks false).heldTicket =
        some 1) ∧
    ∃ more, more.length ≤ 4 ∧
      ((lockRun (fun _ => "engine") (firstInputs twoTurns 5 ++ more)).world.locks
        false).heldTicket = some 1 := by
  obtain ⟨henters, more, -, hlen, hheld⟩ :=
    lockRun_enters (fun _ : Bool => "engine") twoTurns twoTurns_fair 5 false 1 rfl
  exact ⟨henters, more, hlen, hheld⟩

end Two

end Crisp.Proofs
