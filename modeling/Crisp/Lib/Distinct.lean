import Mathlib.Algebra.BigOperators.Group.List.Basic
import Mathlib.Algebra.GroupWithZero.Nat
import Mathlib.Data.List.Nodup

/-!
# Counting key by key

The distinct elements of a list in the order they first appear, and what a list
holds counted over its distinct keys: every item is counted at one of them, so a count
is the sum of the counts at the keys. Where no key has more than so many items, the keys
with an item are no more than the items and no fewer than their share.
-/

namespace Crisp.Lib

variable {κ ι : Type}

theorem countP_le_sum {keys : List κ} {f : κ → Nat} {q : κ → Bool}
    (h : ∀ k ∈ keys, q k = true → 0 < f k) : keys.countP q ≤ (keys.map f).sum := by
  induction keys with
  | nil => simp
  | cons k keys ih =>
      have hrest := ih fun k' hmem => h k' (List.mem_cons_of_mem _ hmem)
      have hfirst := h k List.mem_cons_self
      rw [List.countP_cons, List.map_cons, List.sum_cons]
      split
      · next hq => have := hfirst hq; omega
      · omega

theorem sum_le_mul_countP {keys : List κ} {f : κ → Nat} {q : κ → Bool} {n : Nat}
    (hle : ∀ k ∈ keys, f k ≤ n) (h : ∀ k ∈ keys, 0 < f k → q k = true) :
    (keys.map f).sum ≤ n * keys.countP q := by
  induction keys with
  | nil => simp
  | cons k keys ih =>
      have hrest := ih (fun k' hmem => hle k' (List.mem_cons_of_mem _ hmem))
        fun k' hmem => h k' (List.mem_cons_of_mem _ hmem)
      have hfirst := hle k List.mem_cons_self
      rw [List.countP_cons, List.map_cons, List.sum_cons, Nat.mul_add]
      split
      · omega
      · next hq =>
          have : f k = 0 := by
            by_contra hpos
            exact hq (h k List.mem_cons_self (by omega))
          omega

variable [DecidableEq κ]

/-- `dict.fromkeys` -/
def firstOccurrences : List κ → List κ
  | [] => []
  | a :: as => a :: (firstOccurrences as).filter (· ≠ a)

@[simp] theorem mem_firstOccurrences {as : List κ} {a : κ} : a ∈ firstOccurrences as ↔ a ∈ as := by
  induction as with
  | nil => simp [firstOccurrences]
  | cons b as ih =>
      rw [firstOccurrences, List.mem_cons, List.mem_cons, List.mem_filter, ih]
      by_cases h : a = b <;> simp [h]

theorem firstOccurrences_nodup (as : List κ) : (firstOccurrences as).Nodup := by
  induction as with
  | nil => simp [firstOccurrences]
  | cons b as ih =>
      rw [firstOccurrences, List.nodup_cons]
      exact ⟨by simp, ih.filter _⟩

theorem sum_map_eq_count (keys : List κ) (a : κ) :
    (keys.map fun k => if a = k then 1 else 0).sum = keys.count a := by
  induction keys with
  | nil => rfl
  | cons k keys ih =>
      rw [List.map_cons, List.sum_cons, ih, List.count_cons, Nat.add_comm]
      by_cases h : a = k
      · simp [h]
      · simp [h, Ne.symm h]

/-- An item is counted at its key. -/
theorem countP_eq_sum {keys : List κ} (hkeys : keys.Nodup) (key : ι → κ) (p : ι → Bool)
    {items : List ι} (h : ∀ item ∈ items, key item ∈ keys) :
    items.countP p =
      (keys.map fun k => items.countP fun item => p item && decide (key item = k)).sum := by
  induction items with
  | nil => simp
  | cons item items ih =>
      have hone : (keys.map fun k => if p item && decide (key item = k) then 1 else 0).sum =
          if p item then 1 else 0 := by
        cases hp : p item with
        | false => simp
        | true =>
            have hcount := List.count_eq_one_of_mem hkeys (h item List.mem_cons_self)
            simp only [Bool.true_and, decide_eq_true_eq, if_true]
            rw [sum_map_eq_count, hcount]
      rw [List.countP_cons, ih fun item' hmem => h item' (List.mem_cons_of_mem _ hmem), ← hone,
        ← List.sum_map_add]
      simp only [List.countP_cons]

end Crisp.Lib
