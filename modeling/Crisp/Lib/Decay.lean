import Mathlib.Algebra.BigOperators.Intervals
import Mathlib.Algebra.Ring.Basic
import Mathlib.Tactic.Ring

/-!
# Decaying running sums

A running sum that decays by `w` at every entry. It is a scan, so it can be cut anywhere
and taken up again from the sum reached; and it is linear, so a piece of it that starts
from `s` is the piece that starts from nothing, with `s` added in its powers of `w`. These
two are what computing it in chunks rests on.
-/

namespace Crisp.Lib

open Finset (range)

section Decay

variable {K : Type} [CommRing K] {w s : K}

/-- The running sums, from `s`. -/
def decaySums (w : K) : K → List K → List K
  | _, [] => []
  | s, x :: xs => (x + w * s) :: decaySums w (x + w * s) xs

/-- The sum that is reached. -/
def decayTotal (w s : K) (xs : List K) : K :=
  xs.foldl (fun s x => x + w * s) s

@[simp] theorem decaySums_length (xs : List K) : (decaySums w s xs).length = xs.length := by
  induction xs generalizing s with
  | nil => rfl
  | cons x xs ih => simp [decaySums, ih]

theorem decaySums_append (xs ys : List K) :
    decaySums w s (xs ++ ys) = decaySums w s xs ++ decaySums w (decayTotal w s xs) ys := by
  induction xs generalizing s with
  | nil => rfl
  | cons x xs ih =>
      rw [List.cons_append, decaySums, ih]
      rfl

theorem decayTotal_append (xs ys : List K) :
    decayTotal w s (xs ++ ys) = decayTotal w (decayTotal w s xs) ys :=
  List.foldl_append

/-- The last of the sums is the one that is reached. -/
theorem getLastD_decaySums {xs : List K} (h : xs ≠ []) (d : K) :
    (decaySums w s xs).getLastD d = decayTotal w s xs := by
  induction xs generalizing s d with
  | nil => exact absurd rfl h
  | cons x xs ih =>
      rw [decaySums, List.getLastD_cons]
      cases xs with
      | nil => rfl
      | cons y ys => exact ih (by simp) _

theorem decaySums_getElem {xs : List K} {t : Nat} (ht : t < (decaySums w s xs).length) :
    (decaySums w s xs)[t] =
      (∑ k ∈ range (t + 1), w ^ (t - k) * xs.getD k 0) + w ^ (t + 1) * s := by
  induction xs generalizing s t with
  | nil => exact absurd ht (by simp)
  | cons x xs ih =>
      cases t with
      | zero => simp [decaySums]
      | succ t =>
          have hrest := @ih (x + w * s) t (by simpa using ht)
          simp only [decaySums, List.getElem_cons_succ]
          rw [hrest, Finset.sum_range_succ' _ (t + 1)]
          simp only [List.getD_cons_succ, List.getD_cons_zero, Nat.add_sub_add_right, Nat.sub_zero]
          ring

/-- From `s` the sums are those from nothing, and `s` in its powers besides. -/
theorem decaySums_from (xs : List K) :
    decaySums w s xs = List.zipWith (fun total power => total + s * power) (decaySums w 0 xs)
      ((List.range xs.length).map fun t => w ^ (t + 1)) := by
  apply List.ext_getElem (by simp)
  intro t _ _
  rw [List.getElem_zipWith, decaySums_getElem, decaySums_getElem, List.getElem_map,
    List.getElem_range]
  ring

end Decay

end Crisp.Lib
