import Mathlib.Data.List.Basic

/-!
# Turns taken in the order they were drawn

A queue that only grows: everyone who has drawn a place, in order, and two
counts into it, how many have had their turn begin and how many have had it
end. At most one turn is begun and not ended, so whoever is in their turn is
the one at the second count, and there is no second.
-/

namespace Crisp.Lib

/-- The places drawn, and how many turns have begun and ended. -/
structure Turns (C : Type) where
  drawn : List C
  entered : Nat
  left : Nat
  left_le : left ≤ entered
  entered_le : entered ≤ left + 1
  entered_drawn : entered ≤ drawn.length

namespace Turns

variable {C : Type} (T : Turns C) {c c' : C}

/-- Whose turn has begun and not ended. -/
def Holds (c : C) : Prop :=
  T.entered = T.left + 1 ∧ T.drawn[T.left]? = some c

/-- Who waits at a place whose turn has not begun. -/
def Waits (ticket : Nat) (c : C) : Prop :=
  T.entered ≤ ticket ∧ T.drawn[ticket]? = some c

def init : Turns C := ⟨[], 0, 0, Nat.le_refl _, Nat.zero_le _, Nat.le_refl _⟩

def draw (c : C) : Turns C :=
  { T with drawn := T.drawn ++ [c], entered_drawn := by have := T.entered_drawn; simp; omega }

/-- The turn of the place at the count begins. -/
def enter (h : T.Waits T.left c) : Turns C :=
  { T with
    entered := T.left + 1
    left_le := by omega
    entered_le := Nat.le_refl _
    entered_drawn := (List.getElem?_eq_some_iff.mp h.2).1 }

/-- The turn that has begun ends. -/
def leave (h : T.Holds c) : Turns C :=
  { T with
    left := T.left + 1
    left_le := Nat.le_of_eq h.1.symm
    entered_le := by have := h.1; omega }

variable {T}

theorem Holds.unique (h : T.Holds c) (h' : T.Holds c') : c = c' := by
  have := h.2.symm.trans h'.2
  exact Option.some.inj this

theorem Waits.draw {ticket : Nat} (h : T.Waits ticket c) (d : C) : (T.draw d).Waits ticket c := by
  refine ⟨h.1, ?_⟩
  have hlt := (List.getElem?_eq_some_iff.mp h.2).1
  show (T.drawn ++ [d])[ticket]? = some c
  rw [List.getElem?_append_left hlt, h.2]

theorem Holds.draw (h : T.Holds c) (d : C) : (T.draw d).Holds c := by
  refine ⟨h.1, ?_⟩
  have hlt := (List.getElem?_eq_some_iff.mp h.2).1
  show (T.drawn ++ [d])[T.left]? = some c
  rw [List.getElem?_append_left hlt, h.2]

/-- Whoever draws waits at the end. -/
theorem waits_draw (d : C) : (T.draw d).Waits T.drawn.length d :=
  ⟨T.entered_drawn, List.getElem?_concat_length⟩

theorem holds_enter (h : T.Waits T.left c) : (T.enter h).Holds c := ⟨rfl, h.2⟩

/-- Nobody is in their turn while the place at the count still waits. -/
theorem Waits.entered_eq (h : T.Waits T.left c) : T.entered = T.left :=
  Nat.le_antisymm h.1 T.left_le

theorem Waits.not_holds (h : T.Waits T.left c) : ¬ T.Holds c' := by
  intro h'
  have := h.entered_eq
  have := h'.1
  omega

/-- Everyone else waits on. -/
theorem Waits.enter {ticket : Nat} (h' : T.Waits ticket c') (h : T.Waits T.left c) (hne : c' ≠ c) :
    (T.enter h).Waits ticket c' := by
  refine ⟨?_, h'.2⟩
  have hticket : ticket ≠ T.left := by
    intro heq
    rw [heq, Waits, h.2] at h'
    exact hne (Option.some.inj h'.2.symm)
  have := h'.1
  have := h.entered_eq
  show T.left + 1 ≤ ticket
  omega

theorem Waits.leave {ticket : Nat} (h' : T.Waits ticket c') (h : T.Holds c) :
    (T.leave h).Waits ticket c' := h'

/-! ## Who has had a turn -/

variable (T)

/-- Those whose turn has begun, in order. -/
def enteredList : List C := T.drawn.take T.entered

/-- Those whose turn has ended, in order. -/
def leftList : List C := T.drawn.take T.left

variable {T}

theorem enteredList_prefix : T.enteredList <+: T.drawn := List.take_prefix _ _

theorem leftList_prefix : T.leftList <+: T.enteredList := by
  rw [leftList, enteredList]
  exact List.take_prefix_take_left T.left_le

theorem enteredList_length : T.enteredList.length = T.entered := by
  rw [enteredList, List.length_take, Nat.min_eq_left T.entered_drawn]

theorem leftList_length : T.leftList.length = T.left := by
  have := T.left_le
  have := T.entered_drawn
  simp only [leftList, List.length_take]
  omega

theorem Holds.enteredList (h : T.Holds c) : T.enteredList = T.leftList ++ [c] := by
  rw [Turns.enteredList, leftList, h.1, List.take_add_one, h.2]
  rfl

theorem enteredList_draw (d : C) : (T.draw d).enteredList = T.enteredList :=
  List.take_append_of_le_length T.entered_drawn

theorem leftList_draw (d : C) : (T.draw d).leftList = T.leftList :=
  List.take_append_of_le_length (Nat.le_trans T.left_le T.entered_drawn)

theorem enteredList_enter (h : T.Waits T.left c) :
    (T.enter h).enteredList = T.enteredList ++ [c] := by
  have hbefore : T.enteredList = T.leftList := by rw [Turns.enteredList, leftList, h.entered_eq]
  rw [hbefore]
  exact (holds_enter h).enteredList

theorem leftList_leave (h : T.Holds c) : (T.leave h).leftList = T.leftList ++ [c] := by
  rw [← h.enteredList, Turns.enteredList, h.1]
  rfl

end Turns

end Crisp.Lib
