import Mathlib.Algebra.BigOperators.Intervals
import Mathlib.Algebra.BigOperators.Ring.Finset
import Crisp.Lib.Segments

/-!
# Sums over slices

A batch is cut into equal parts and each part into runs of `m` entries, the last
run possibly short. A sum that weighs every entry by the run it falls in is the
sum over positions, where position `p` falls in run `p % size / m` of part
`p / size`. Entries are read through a function that is zero past the end, so a
short run needs no case of its own.
-/

namespace Crisp.Lib

open Finset

variable {α R : Type} [CommSemiring R]

/-- The value of entry `p`, zero past the end. -/
def valueAt (f : α → R) (xs : List α) (p : Nat) : R := (xs[p]?).elim 0 f

theorem valueAt_eq {f : α → R} {xs : List α} {p : Nat} {x : α} (h : xs[p]? = some x) :
    valueAt f xs p = f x := by
  rw [valueAt, h]
  rfl

theorem valueAt_past {f : α → R} {xs : List α} {p : Nat} (h : xs.length ≤ p) :
    valueAt f xs p = 0 := by
  rw [valueAt, List.getElem?_eq_none h]
  rfl

theorem sum_map_eq_sum_range {f : α → R} {xs : List α} :
    (xs.map f).sum = ∑ p ∈ range xs.length, valueAt f xs p := by
  induction xs with
  | nil => rfl
  | cons x xs ih =>
      rw [List.map_cons, List.sum_cons, ih, List.length_cons, sum_range_succ',
        add_comm]
      rfl

/-- Positions past the end add nothing. -/
theorem sum_range_past {f : α → R} {xs : List α} {n : Nat} {w : Nat → R}
    (hn : xs.length ≤ n) : ∑ p ∈ range n, w p * valueAt f xs p =
      ∑ p ∈ range xs.length, w p * valueAt f xs p := by
  refine (sum_subset (range_subset_range.mpr hn) fun p _ hp => ?_).symm
  rw [valueAt_past (by simpa using hp), mul_zero]

theorem valueAt_microbatch {f : α → R} {xs : List α} {m j s : Nat} (hs : s < m) :
    valueAt f (microbatch m j xs) s = valueAt f xs (j * m + s) := by
  rw [valueAt, valueAt, microbatch_getElem? hs]

theorem sum_microbatch {f : α → R} {xs : List α} {m j : Nat} :
    ((microbatch m j xs).map f).sum =
      ∑ s ∈ range m, valueAt f xs (j * m + s) := by
  have hlen : (microbatch m j xs).length ≤ m := List.length_take_le _ _
  have hpast := @sum_range_past α R _ f (microbatch m j xs) m (fun _ => 1) hlen
  simp only [one_mul] at hpast
  rw [sum_map_eq_sum_range, ← hpast]
  exact sum_congr rfl fun s hs => valueAt_microbatch (mem_range.mp hs)

/-- A range cut into runs of `m`. -/
theorem sum_range_mul_runs {q m : Nat} {F : Nat → R} :
    ∑ p ∈ range (q * m), F p = ∑ j ∈ range q, ∑ s ∈ range m, F (j * m + s) := by
  induction q with
  | zero => simp
  | succ q ih => rw [Nat.succ_mul, sum_range_add, ih, sum_range_succ]

theorem run_div {m j s : Nat} (hs : s < m) : (j * m + s) / m = j := by
  rw [Nat.mul_comm, Nat.mul_add_div (Nat.zero_lt_of_lt hs), Nat.div_eq_of_lt hs,
    Nat.add_zero]

/-- Entries weighed by their run. -/
theorem sum_weighted_slices {f : α → R} {xs : List α} {m q : Nat} {w : Nat → R}
    (hlen : xs.length ≤ q * m) :
    ∑ j ∈ range q, w j * ((microbatch m j xs).map f).sum =
      ∑ p ∈ range xs.length, w (p / m) * valueAt f xs p := by
  rw [← sum_range_past hlen, sum_range_mul_runs]
  refine sum_congr rfl fun j _ => ?_
  rw [sum_microbatch, mul_sum]
  refine sum_congr rfl fun s hs => ?_
  rw [run_div (mem_range.mp hs)]

/-- Entries weighed by their part and their run in it. -/
theorem sum_nested_slices {f : α → R} {xs : List α} {m q parts size : Nat}
    {w : Nat → Nat → R} (hlen : xs.length = parts * size) (hq : size ≤ q * m) :
    ∑ r ∈ range parts, ∑ j ∈ range q,
        w r j * ((microbatch m j (microbatch size r xs)).map f).sum =
      ∑ p ∈ range xs.length, w (p / size) (p % size / m) * valueAt f xs p := by
  rw [hlen, sum_range_mul_runs]
  refine sum_congr rfl fun r hr => ?_
  have hpart : (microbatch size r xs).length = size :=
    microbatch_length (by rw [hlen]; exact Nat.mul_le_mul_right _ (mem_range.mp hr))
  rw [sum_weighted_slices (hpart.trans_le hq), hpart]
  refine sum_congr rfl fun s hs => ?_
  have hs := mem_range.mp hs
  rw [valueAt_microbatch hs, run_div hs, Nat.mul_add_mod_of_lt hs]

end Crisp.Lib
