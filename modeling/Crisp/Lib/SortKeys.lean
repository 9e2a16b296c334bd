import Mathlib.Data.Finset.Basic
import Mathlib.Data.List.Sort
import Mathlib.Data.Prod.Lex
import Mathlib.Data.Set.Function

/-!
# Sorting by a key

`sorted(xs, key=key)`, which leaves entries of one key in the order it found them.
Where the key tells the entries apart the result is a matter of which entries there
are, and a program that sorts a set that way has forgotten the set's own order.
-/

namespace Crisp.Lib

variable {α κ : Type} [LinearOrder κ]

/-- `sorted(xs, key=key)`. -/
def sortKeys (key : α → κ) (xs : List α) : List α :=
  xs.insertionSort fun a b => key a ≤ key b

instance instTotalKey (key : α → κ) : Std.Total fun a b => key a ≤ key b :=
  ⟨fun a b => le_total (key a) (key b)⟩

instance instIsTransKey (key : α → κ) : IsTrans α fun a b => key a ≤ key b :=
  ⟨fun _ _ _ => le_trans⟩

theorem sortKeys_perm (key : α → κ) (xs : List α) : (sortKeys key xs).Perm xs :=
  List.perm_insertionSort _ xs

@[simp] theorem mem_sortKeys {key : α → κ} {xs : List α} {a : α} :
    a ∈ sortKeys key xs ↔ a ∈ xs :=
  List.mem_insertionSort _

@[simp] theorem length_sortKeys {key : α → κ} {xs : List α} :
    (sortKeys key xs).length = xs.length :=
  (sortKeys_perm key xs).length_eq

theorem sortKeys_pairwise (key : α → κ) (xs : List α) :
    (sortKeys key xs).Pairwise fun a b => key a ≤ key b :=
  List.pairwise_insertionSort _ xs

theorem sortKeys_nodup {key : α → κ} {xs : List α} (h : xs.Nodup) : (sortKeys key xs).Nodup :=
  (sortKeys_perm key xs).nodup_iff.mpr h

/-- Entries the key tells apart come out in one order, however they went in. -/
theorem sortKeys_eq_of_perm {key : α → κ} {xs ys : List α} (hperm : xs.Perm ys)
    (hkey : ∀ a ∈ xs, ∀ b ∈ xs, key a = key b → a = b) : sortKeys key xs = sortKeys key ys := by
  refine List.Perm.eq_of_pairwise ?_ (sortKeys_pairwise key xs) (sortKeys_pairwise key ys)
    ((sortKeys_perm key xs).trans (hperm.trans (sortKeys_perm key ys).symm))
  intro a b ha hb hab hba
  exact hkey a (mem_sortKeys.mp ha) b (hperm.mem_iff.mpr (mem_sortKeys.mp hb))
    (le_antisymm hab hba)

/-- `sorted(s)` of a set. -/
def sortSet (s : Finset κ) : List κ :=
  Quot.liftOn s.val (sortKeys id) fun _ _ hperm => sortKeys_eq_of_perm hperm fun _ _ _ _ h => h

@[simp] theorem mem_sortSet {s : Finset κ} {a : κ} : a ∈ sortSet s ↔ a ∈ s := by
  obtain ⟨⟨xs⟩, hnodup⟩ := s
  exact mem_sortKeys

theorem sortSet_nodup (s : Finset κ) : (sortSet s).Nodup := by
  obtain ⟨⟨xs⟩, hnodup⟩ := s
  exact sortKeys_nodup hnodup

theorem sortSet_pairwise (s : Finset κ) : (sortSet s).Pairwise (· ≤ ·) := by
  obtain ⟨⟨xs⟩, hnodup⟩ := s
  exact sortKeys_pairwise id xs

/-- Sorting finds a list that was sorted. -/
theorem sortSet_eq {s : Finset κ} {xs : List κ} (hsorted : xs.Pairwise (· ≤ ·)) (hnodup : xs.Nodup)
    (hmem : ∀ a, a ∈ xs ↔ a ∈ s) : sortSet s = xs := by
  have hperm : (sortSet s).Perm xs :=
    (List.perm_ext_iff_of_nodup (sortSet_nodup s) hnodup).mpr fun a =>
      mem_sortSet.trans (hmem a).symm
  exact hperm.eq_of_pairwise (fun _ _ _ _ => le_antisymm) (sortSet_pairwise s) hsorted

/-- In a list where `p` holds to the end once it holds, a prefix no longer than the
number of entries without `p` is free of it. -/
theorem not_mem_take {p : α → Bool} {xs : List α} (h : xs.Pairwise fun a b => p a → p b) :
    ∀ {k : Nat}, k ≤ (xs.filter fun a => !p a).length → ∀ a ∈ xs.take k, p a = false := by
  induction xs with
  | nil => simp
  | cons b xs ih =>
      obtain ⟨hb, hxs⟩ := List.pairwise_cons.mp h
      intro k hk a ha
      cases k with
      | zero => simp at ha
      | succ k =>
          cases hp : p b with
          | true =>
              -- everything from here on has `p`, so there is nothing to take
              have hnone : (b :: xs).filter (fun a => !p a) = [] := by
                rw [List.filter_eq_nil_iff]
                intro c hc
                rcases List.mem_cons.mp hc with rfl | hc
                · simp [hp]
                · simp [hb c hc hp]
              rw [hnone] at hk
              simp at hk
          | false =>
              rw [List.filter_cons_of_pos (by simp [hp]), List.length_cons] at hk
              rw [List.take_succ_cons, List.mem_cons] at ha
              rcases ha with rfl | ha
              · exact hp
              · exact ih hxs (by omega) a ha

end Crisp.Lib
