import Mathlib.Algebra.BigOperators.Ring.Finset
import Mathlib.Algebra.Order.BigOperators.Group.Finset
import Mathlib.Algebra.Order.Ring.Nat
import Mathlib.Data.List.Count
import Mathlib.Data.List.Infix

/-!
# Greedy placement into bins of limited capacity

Items of several kinds go one by one into bins, each into an open bin that has the
fewest of its kind among the open ones. Whether the kinds end up balanced depends
on one thing: that no step found every bin with the fewest of its kind full. A bin
that is full stays as it is, so the first such step shows in the end.
-/

namespace Crisp.Lib

variable {κ ι : Type} [DecidableEq κ] [DecidableEq ι]

/-- How many of a kind were placed in a bin. -/
def tally (placed : List (κ × ι)) (bin : ι) (kind : κ) : Nat :=
  placed.count (kind, bin)

/-- How many were placed in a bin. -/
def load (placed : List (κ × ι)) (bin : ι) : Nat :=
  placed.countP fun item => item.2 = bin

theorem tally_append (before after : List (κ × ι)) (bin : ι) (kind : κ) :
    tally (before ++ after) bin kind = tally before bin kind + tally after bin kind :=
  List.count_append

omit [DecidableEq κ] in
theorem load_append (before after : List (κ × ι)) (bin : ι) :
    load (before ++ after) bin = load before bin + load after bin :=
  List.countP_append

omit [DecidableEq κ] in
theorem sum_load [Fintype ι] (placed : List (κ × ι)) : ∑ bin, load placed bin = placed.length := by
  induction placed with
  | nil => exact Finset.sum_eq_zero fun _ _ => rfl
  | cons item placed ih =>
      have hitem : ∀ bin, load (item :: placed) bin =
          load placed bin + if item.2 = bin then 1 else 0 := by
        intro bin
        unfold load
        rw [List.countP_cons]
        simp
      simp only [hitem]
      rw [Finset.sum_add_distrib, ih, Finset.sum_ite_eq Finset.univ item.2,
        if_pos (Finset.mem_univ _), List.length_cons]

/-- Any two bins have the same number of every kind, up to one. -/
def Balanced (placed : List (κ × ι)) : Prop :=
  ∀ kind i j, tally placed i kind ≤ tally placed j kind + 1

/-- Every item went into an open bin, one with the fewest of its kind among those. -/
def Greedy (capacity : Nat) (placed : List (κ × ι)) : Prop :=
  ∀ before kind bin after, placed = before ++ (kind, bin) :: after →
    load before bin < capacity ∧
      ∀ other, load before other < capacity → tally before bin kind ≤ tally before other kind

/-- No bin had fewer of its kind, full or not. -/
def Unobstructed (placed : List (κ × ι)) : Prop :=
  ∀ before kind bin after, placed = before ++ (kind, bin) :: after →
    ∀ other, tally before bin kind ≤ tally before other kind

variable {capacity : Nat} {placed : List (κ × ι)}

theorem Greedy.prefix {before after : List (κ × ι)} (h : Greedy capacity (before ++ after)) :
    Greedy capacity before := fun first kind bin rest hplaced =>
  h first kind bin (rest ++ after) (by rw [hplaced, List.append_assoc, List.cons_append])

theorem Unobstructed.prefix {before after : List (κ × ι)} (h : Unobstructed (before ++ after)) :
    Unobstructed before := fun first kind bin rest hplaced =>
  h first kind bin (rest ++ after) (by rw [hplaced, List.append_assoc, List.cons_append])

omit [DecidableEq κ] in
theorem load_singleton (item : κ × ι) (bin : ι) :
    load [item] bin = if item.2 = bin then 1 else 0 := by
  unfold load
  rw [List.countP_singleton]
  simp

theorem Greedy.load_le (h : Greedy capacity placed) (bin : ι) : load placed bin ≤ capacity := by
  induction placed using List.reverseRecOn with
  | nil => exact Nat.zero_le _
  | append_singleton placed item ih =>
      have hopen := (h placed item.1 item.2 [] rfl).1
      have hbefore := ih h.prefix
      rw [load_append, load_singleton]
      split
      · next heq =>
          rw [heq] at hopen
          omega
      · omega

/-- Bins that hold all they can hold together are all full. -/
theorem Greedy.full [Fintype ι] (h : Greedy capacity placed)
    (htotal : placed.length = Fintype.card ι * capacity) (bin : ι) :
    load placed bin = capacity := by
  by_contra hne
  have hlt : load placed bin < capacity := Nat.lt_of_le_of_ne (h.load_le bin) hne
  have hsum : ∑ other, load placed other < ∑ _ : ι, capacity :=
    Finset.sum_lt_sum (fun other _ => h.load_le other) ⟨bin, Finset.mem_univ bin, hlt⟩
  rw [sum_load, Finset.sum_const, Finset.card_univ, Nat.nsmul_eq_mul, htotal] at hsum
  exact Nat.lt_irrefl _ hsum

omit [DecidableEq κ] in
/-- Below that, one is open. -/
theorem exists_open [Fintype ι] (htotal : placed.length < Fintype.card ι * capacity) :
    ∃ bin, load placed bin < capacity := by
  by_contra hnone
  have hfull : ∀ bin, capacity ≤ load placed bin := fun bin =>
    Nat.le_of_not_lt fun hlt => hnone ⟨bin, hlt⟩
  have hsum : ∑ _ : ι, capacity ≤ ∑ bin, load placed bin :=
    Finset.sum_le_sum fun bin _ => hfull bin
  rw [sum_load, Finset.sum_const, Finset.card_univ, Nat.nsmul_eq_mul] at hsum
  omega

/-- One more item, where the choice was greedy. -/
theorem Greedy.snoc {kind : κ} {bin : ι} (h : Greedy capacity placed)
    (hopen : load placed bin < capacity)
    (hleast : ∀ other, load placed other < capacity →
      tally placed bin kind ≤ tally placed other kind) :
    Greedy capacity (placed ++ [(kind, bin)]) := by
  intro before k i after hplaced
  rcases List.eq_nil_or_concat after with rfl | ⟨rest, last, rfl⟩
  · obtain ⟨rfl, hlast⟩ := List.append_inj' hplaced rfl
    cases hlast
    exact ⟨hopen, hleast⟩
  · rw [List.concat_eq_append, ← List.cons_append, ← List.append_assoc] at hplaced
    obtain ⟨hbefore, -⟩ := List.append_inj' hplaced rfl
    exact h before k i rest hbefore

theorem tally_singleton (kind : κ) (bin : ι) (i : ι) (k : κ) :
    tally [(kind, bin)] i k = if k = kind ∧ i = bin then 1 else 0 := by
  unfold tally
  rw [List.count_singleton]
  refine if_congr ?_ rfl rfl
  rw [beq_iff_eq, Prod.mk.injEq, eq_comm, @eq_comm _ bin]

/-- A bin with the fewest of a kind gets one more of it. -/
theorem Balanced.snoc {kind : κ} {bin : ι} (h : Balanced placed)
    (hleast : ∀ other, tally placed bin kind ≤ tally placed other kind) :
    Balanced (placed ++ [(kind, bin)]) := by
  intro k i j
  rw [tally_append, tally_append, tally_singleton, tally_singleton]
  have hbefore := h k i j
  by_cases hi : k = kind ∧ i = bin
  · obtain ⟨rfl, rfl⟩ := hi
    have hj := hleast j
    split <;> split <;> omega
  · rw [if_neg hi]
    omega

theorem balanced_of_unobstructed (h : Unobstructed placed) : Balanced placed := by
  induction placed using List.reverseRecOn with
  | nil => exact fun _ _ _ => Nat.zero_le _
  | append_singleton placed item ih =>
      obtain ⟨kind, bin⟩ := item
      exact (ih h.prefix).snoc (h placed kind bin [] rfl)

/-- A full bin is left alone from then on. -/
theorem Greedy.full_stays {before after : List (κ × ι)} {bin : ι}
    (h : Greedy capacity (before ++ after)) (hfull : capacity ≤ load before bin) (kind : κ) :
    tally (before ++ after) bin kind = tally before bin kind := by
  rw [tally_append]
  refine Nat.add_eq_left.mpr (List.count_eq_zero.mpr fun hmem => ?_)
  obtain ⟨first, rest, rfl⟩ := List.append_of_mem hmem
  have hopen := (h (before ++ first) kind bin rest (by rw [List.append_assoc])).1
  rw [load_append] at hopen
  omega

/-- **The balance criterion.** Greedy placement is balanced exactly when no step was
kept from every bin with the fewest of its kind. -/
theorem balanced_iff_unobstructed (h : Greedy capacity placed) :
    Balanced placed ↔ Unobstructed placed := by
  refine ⟨fun hbalanced before kind bin after hplaced other => ?_, balanced_of_unobstructed⟩
  by_contra hfewer
  subst hplaced
  obtain ⟨-, hleast⟩ := h before kind bin after rfl
  have hfull : capacity ≤ load before other := by
    by_contra hopen
    exact hfewer (hleast other (Nat.lt_of_not_le hopen))
  have hother := h.full_stays hfull kind
  have hbin : tally before bin kind + 1 ≤ tally (before ++ (kind, bin) :: after) bin kind := by
    rw [tally_append]
    have hone : 0 < tally ((kind, bin) :: after) bin kind := by
      unfold tally
      exact List.count_pos_iff.mpr List.mem_cons_self
    omega
  have hspread := hbalanced kind bin other
  omega

end Crisp.Lib
