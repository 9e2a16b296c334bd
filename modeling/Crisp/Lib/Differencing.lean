import Mathlib.Algebra.GroupWithZero.Nat
import Mathlib.Algebra.Order.Monoid.Defs
import Mathlib.Data.List.Basic

/-!
# Folding one sorted list against the reverse of another

The step of the largest differencing method: the largest of one list meets the
smallest of the other. Where both lists descend, the sums are no further apart than
the entries of one list were, because going along the folded list one summand falls
while the other rises. And where the empty entries of both lists come last, no entry
holds two things as long as another holds none.
-/

namespace Crisp.Lib

variable {α : Type}

/-- Later entries are no larger, read off two positions. -/
theorem getElem_le_of_le [Preorder α] {xs : List α} (h : xs.Pairwise (· ≥ ·)) {i j : Nat}
    (hi : i < xs.length) (hj : j < xs.length) (hij : i ≤ j) : xs[j] ≤ xs[i] := by
  rcases Nat.lt_or_eq_of_le hij with hlt | heq
  · exact List.pairwise_iff_getElem.mp h i j hi hj hlt
  · simp only [heq, le_refl]

/-- No two entries are further apart than `d`. -/
def Within [LE α] [Add α] (d : α) (xs : List α) : Prop := ∀ x ∈ xs, ∀ y ∈ xs, x ≤ y + d

theorem Within.perm [LE α] [Add α] {d : α} {xs ys : List α} (h : Within d xs)
    (hperm : xs.Perm ys) : Within d ys := fun x hx y hy =>
  h x (hperm.mem_iff.mpr hx) y (hperm.mem_iff.mpr hy)

theorem Within.mono [AddCommMonoid α] [PartialOrder α] [IsOrderedAddMonoid α] {d d' : α}
    {xs : List α} (h : Within d xs) (hd : d ≤ d') : Within d' xs := fun x hx y hy =>
  (h x hx y hy).trans (add_le_add_right hd y)

/-- **The differencing step.** -/
theorem Within.zipWith_reverse [AddCommMonoid α] [PartialOrder α] [IsOrderedAddMonoid α] {d : α}
    {xs ys : List α} (hlength : xs.length = ys.length) (hxs : xs.Pairwise (· ≥ ·))
    (hys : ys.Pairwise (· ≥ ·)) (hx : Within d xs) (hy : Within d ys) :
    Within d (List.zipWith (· + ·) xs ys.reverse) := by
  intro u hu v hv
  obtain ⟨i, hi, rfl⟩ := List.mem_iff_getElem.mp hu
  obtain ⟨j, hj, rfl⟩ := List.mem_iff_getElem.mp hv
  simp only [List.length_zipWith, List.length_reverse, lt_inf_iff] at hi hj
  simp only [List.getElem_zipWith, List.getElem_reverse]
  rcases Nat.le_total i j with hij | hij
  · -- the first summand falls by at most `d`, and the second does not fall
    have hfall := hx xs[i] (List.getElem_mem _) xs[j] (List.getElem_mem _)
    have hrise : ys[ys.length - 1 - i] ≤ ys[ys.length - 1 - j] :=
      getElem_le_of_le hys (by omega) (by omega) (by omega)
    calc xs[i] + ys[ys.length - 1 - i] ≤ (xs[j] + d) + ys[ys.length - 1 - j] :=
          add_le_add hfall hrise
      _ = xs[j] + ys[ys.length - 1 - j] + d := add_right_comm _ _ _
  · have hrise : xs[i] ≤ xs[j] := getElem_le_of_le hxs hj.1 hi.1 hij
    have hfall := hy ys[ys.length - 1 - i] (List.getElem_mem _) ys[ys.length - 1 - j]
      (List.getElem_mem _)
    calc xs[i] + ys[ys.length - 1 - i] ≤ xs[j] + (ys[ys.length - 1 - j] + d) :=
          add_le_add hrise hfall
      _ = xs[j] + ys[ys.length - 1 - j] + d := (add_assoc _ _ _).symm

/-! ## Sizes -/

/-- Either no size is zero, or none is above one. -/
def Thin (sizes : List Nat) : Prop := (∀ n ∈ sizes, n ≠ 0) ∨ ∀ n ∈ sizes, n ≤ 1

theorem Thin.perm {sizes sizes' : List Nat} (h : Thin sizes) (hperm : sizes.Perm sizes') :
    Thin sizes' :=
  h.imp (fun h n hn => h n (hperm.mem_iff.mpr hn)) fun h n hn => h n (hperm.mem_iff.mpr hn)

/-- Zeros come last. -/
def ZerosLast (sizes : List Nat) : Prop := sizes.Pairwise fun m n => m = 0 → n = 0

theorem ZerosLast.getElem {sizes : List Nat} (h : ZerosLast sizes) {i j : Nat}
    (hi : i < sizes.length) (hj : j < sizes.length) (hij : i ≤ j) (hzero : sizes[i] = 0) :
    sizes[j] = 0 := by
  rcases Nat.lt_or_eq_of_le hij with hlt | heq
  · exact List.pairwise_iff_getElem.mp h i j hi hj hlt hzero
  · simp only [← heq, hzero]

theorem Thin.zipWith_reverse {xs ys : List Nat} (hlength : xs.length = ys.length)
    (hxs : ZerosLast xs) (hys : ZerosLast ys) (hx : Thin xs) (hy : Thin ys) :
    Thin (List.zipWith (· + ·) xs ys.reverse) := by
  by_cases hfull : ∀ n ∈ List.zipWith (· + ·) xs ys.reverse, n ≠ 0
  · exact .inl hfull
  · right
    push Not at hfull
    obtain ⟨_, hmem, hzero⟩ := hfull
    obtain ⟨i, hi, rfl⟩ := List.mem_iff_getElem.mp hmem
    simp only [List.length_zipWith, List.length_reverse, lt_inf_iff] at hi
    simp only [List.getElem_zipWith, List.getElem_reverse, Nat.add_eq_zero_iff] at hzero
    -- both lists have a zero, so neither holds anything twice
    have honce : (∀ n ∈ xs, n ≤ 1) ∧ ∀ n ∈ ys, n ≤ 1 :=
      ⟨hx.resolve_left fun h => h _ (List.getElem_mem _) hzero.1,
        hy.resolve_left fun h => h _ (List.getElem_mem _) hzero.2⟩
    intro n hn
    obtain ⟨j, hj, rfl⟩ := List.mem_iff_getElem.mp hn
    simp only [List.length_zipWith, List.length_reverse, lt_inf_iff] at hj
    simp only [List.getElem_zipWith, List.getElem_reverse]
    have hone := honce.1 xs[j] (List.getElem_mem _)
    have hone' := honce.2 ys[ys.length - 1 - j] (List.getElem_mem _)
    rcases Nat.le_total i j with hij | hij
    · have := hxs.getElem hi.1 hj.1 hij hzero.1
      omega
    · have := hys.getElem (i := ys.length - 1 - i) (j := ys.length - 1 - j) (by omega) (by omega)
        (by omega) hzero.2
      omega

theorem sum_le_length {sizes : List Nat} (h : ∀ n ∈ sizes, n ≤ 1) : sizes.sum ≤ sizes.length := by
  induction sizes with
  | nil => exact Nat.le_refl 0
  | cons m sizes ih =>
      obtain ⟨hm, hsizes⟩ := List.forall_mem_cons.mp h
      have hrest := ih hsizes
      rw [List.sum_cons, List.length_cons]
      omega

/-- More things than places leave no place empty. -/
theorem Thin.ne_zero {sizes : List Nat} (h : Thin sizes) (hsum : sizes.length ≤ sizes.sum) :
    ∀ n ∈ sizes, n ≠ 0 := by
  rcases h with h | h
  · exact h
  · induction sizes with
    | nil =>
        intro n hn
        cases hn
    | cons m sizes ih =>
        obtain ⟨hm, hsizes⟩ := List.forall_mem_cons.mp h
        have hrest := sum_le_length hsizes
        rw [List.sum_cons, List.length_cons] at hsum
        refine List.forall_mem_cons.mpr ⟨?_, ih ?_ hsizes⟩
        · omega
        · omega

end Crisp.Lib
