import Mathlib.Algebra.BigOperators.Intervals
import Mathlib.Algebra.GroupWithZero.Nat

/-!
# Zigzag shares

A list is cut at rising positions into twice as many pieces as there are owners, and
owner `r` holds the piece of its number from the front and the one from the back.
Two facts follow whatever the cuts are: a quantity that adds up over a concatenation
adds up over the shares, and every position has exactly one owner, so that the list is
the sum of its shares, each at its place among noughts.
-/

namespace Crisp.Lib

open Finset (range)

section Pieces

variable {α β γ : Type} {cut : Nat → Nat}

/-- The piece between two neighbouring cuts. -/
def cutPiece (cut : Nat → Nat) (xs : List α) (j : Nat) : List α :=
  (xs.take (cut (j + 1))).drop (cut j)

/-- The number of the piece that is paired with piece `r`. -/
def mirror (n r : Nat) : Nat :=
  2 * n - 1 - r

/-- What owner `r` of `n` holds. -/
def zigzag (cut : Nat → Nat) (n r : Nat) (xs : List α) : List α :=
  cutPiece cut xs r ++ cutPiece cut xs (mirror n r)

theorem cutPiece_zipWith (f : α → β → γ) (xs : List α) (ys : List β) (j : Nat) :
    cutPiece cut (List.zipWith f xs ys) j =
      List.zipWith f (cutPiece cut xs j) (cutPiece cut ys j) := by
  simp only [cutPiece, List.drop_zipWith, List.take_zipWith]

theorem cutPiece_length {xs : List α} {j : Nat} (h : cut (j + 1) ≤ xs.length) :
    (cutPiece cut xs j).length = cut (j + 1) - cut j := by
  simp only [cutPiece, List.length_drop, List.length_take]
  omega

theorem zigzag_zipWith (f : α → β → γ) {n r : Nat} {xs : List α} {ys : List β}
    (hlen : xs.length = ys.length) :
    zigzag cut n r (List.zipWith f xs ys) =
      List.zipWith f (zigzag cut n r xs) (zigzag cut n r ys) := by
  unfold zigzag
  rw [cutPiece_zipWith, cutPiece_zipWith, List.zipWith_append]
  simp [cutPiece, hlen]

theorem take_cut_succ (hcut : Monotone cut) (xs : List α) (j : Nat) :
    xs.take (cut (j + 1)) = xs.take (cut j) ++ cutPiece cut xs j := by
  have hle : cut j ≤ cut (j + 1) := hcut (Nat.le_succ j)
  unfold cutPiece
  conv_lhs => rw [← List.take_append_drop (cut j) (xs.take (cut (j + 1)))]
  rw [List.take_take, Nat.min_eq_left hle]

end Pieces

/-! ## A window in equal segments -/

/-- Where segments of `size` cut the window from `lo` to `hi`, counted from `lo`. -/
def windowCut (size lo hi k : Nat) : Nat :=
  min (k * size) hi - lo

section Window

variable {size lo hi k : Nat}

theorem windowCut_mono : Monotone (windowCut size lo hi) := by
  refine monotone_nat_of_le_succ fun k => ?_
  have hstep : (k + 1) * size = k * size + size := Nat.succ_mul k size
  unfold windowCut
  omega

@[simp] theorem windowCut_zero : windowCut size lo hi 0 = 0 := by
  simp [windowCut]

theorem windowCut_last {m : Nat} (h : hi ≤ m * size) : windowCut size lo hi m = hi - lo := by
  unfold windowCut
  rw [Nat.min_eq_right h]

theorem windowCut_le : windowCut size lo hi k ≤ hi - lo := by
  unfold windowCut
  omega

/-- A segment that meets the window cuts it where the two intersect. -/
theorem windowCut_inside (h : max (k * size) lo < min ((k + 1) * size) hi) :
    windowCut size lo hi k + lo = max (k * size) lo ∧
      windowCut size lo hi (k + 1) + lo = min ((k + 1) * size) hi := by
  unfold windowCut
  omega

theorem windowCut_outside (h : ¬ max (k * size) lo < min ((k + 1) * size) hi) :
    windowCut size lo hi (k + 1) = windowCut size lo hi k := by
  have hstep : (k + 1) * size = k * size + size := Nat.succ_mul k size
  unfold windowCut
  rcases Nat.eq_zero_or_pos size with rfl | hsize
  · simp
  · omega

end Window

/-! ## Sums over the shares -/

section Sums

variable {α M : Type} [AddCommMonoid M] {cut : Nat → Nat}

/-- Front pieces and back pieces are all the pieces. -/
theorem sum_mirror (g : Nat → M) (n : Nat) :
    (∑ r ∈ range n, (g r + g (mirror n r))) = ∑ j ∈ range (2 * n), g j := by
  have hback : (∑ r ∈ range n, g (mirror n r)) = ∑ r ∈ range n, g (n + r) := by
    rw [← Finset.sum_range_reflect fun r => g (n + r)]
    refine Finset.sum_congr rfl fun r hr => ?_
    have hlt := Finset.mem_range.mp hr
    unfold mirror
    congr 1
    omega
  rw [Finset.sum_add_distrib, hback, ← Finset.sum_range_add]
  congr 2
  omega

theorem sum_cutPieces {f : List α → M} (hnil : f [] = 0)
    (happ : ∀ xs ys, f (xs ++ ys) = f xs + f ys) (hcut : Monotone cut) (hzero : cut 0 = 0)
    (xs : List α) (m : Nat) :
    (∑ j ∈ range m, f (cutPiece cut xs j)) = f (xs.take (cut m)) := by
  induction m with
  | zero => simp [hzero, hnil]
  | succ m ih => rw [Finset.sum_range_succ, ih, take_cut_succ hcut, happ]

/-- What adds up over a concatenation adds up over the shares. -/
theorem sum_zigzag {f : List α → M} (hnil : f [] = 0)
    (happ : ∀ xs ys, f (xs ++ ys) = f xs + f ys) (hcut : Monotone cut) (hzero : cut 0 = 0)
    {n : Nat} {xs : List α} (hlast : xs.length ≤ cut (2 * n)) :
    (∑ r ∈ range n, f (zigzag cut n r xs)) = f xs := by
  have hpairs := sum_mirror (fun j => f (cutPiece cut xs j)) n
  rw [sum_cutPieces hnil happ hcut hzero, List.take_of_length_le hlast] at hpairs
  rw [← hpairs]
  exact Finset.sum_congr rfl fun r _ => happ _ _

end Sums

/-! ## Shares at their places -/

section Places

/-- The positions from `a` on and before `b`. -/
def between (a b t : Nat) : Bool :=
  decide (a ≤ t) && decide (t < b)

@[simp] theorem between_iff {a b t : Nat} : between a b t = true ↔ a ≤ t ∧ t < b := by
  simp [between]

/-- Owner `r` holds position `t`. -/
def owns (cut : Nat → Nat) (n r t : Nat) : Bool :=
  between (cut r) (cut (r + 1)) t || between (cut (mirror n r)) (cut (mirror n r + 1)) t

variable {K : Type}

/-- The entries that are kept, and noughts for the others. -/
def kept [Zero K] (keep : Nat → Bool) (xs : List K) : List K :=
  xs.mapIdx fun t x => if keep t then x else 0

section Zero

variable [Zero K] {keep : Nat → Bool} {xs : List K}

@[simp] theorem kept_length : (kept keep xs).length = xs.length := by
  simp [kept]

theorem kept_congr {keep' : Nat → Bool} (h : ∀ t < xs.length, keep t = keep' t) :
    kept keep xs = kept keep' xs := by
  apply List.ext_getElem (by simp)
  intro t ht _
  simp only [kept, List.getElem_mapIdx, h t (by simpa using ht)]

theorem kept_all (h : ∀ t < xs.length, keep t = true) : kept keep xs = xs := by
  apply List.ext_getElem (by simp)
  intro t _ ht
  simp [kept, h t ht]

theorem kept_none (h : ∀ t < xs.length, keep t = false) :
    kept keep xs = List.replicate xs.length 0 := by
  apply List.ext_getElem (by simp)
  intro t ht _
  simp [kept, h t (by simpa using ht)]

theorem kept_between {a b : Nat} (hab : a ≤ b) (hlen : b ≤ xs.length) :
    kept (between a b) xs = List.replicate a 0 ++ (xs.take b).drop a ++
      List.replicate (xs.length - b) 0 := by
  apply List.ext_getElem
  · simp
    omega
  intro t ht _
  simp only [kept_length] at ht
  simp only [kept, List.getElem_mapIdx, List.getElem_append, List.length_replicate,
    List.getElem_replicate, List.length_append, List.length_drop, List.length_take,
    List.getElem_drop, List.getElem_take]
  by_cases hta : t < a
  · have hout : ¬ (a ≤ t ∧ t < b) := by omega
    simp [hta, hout, show t < a + (min b xs.length - a) by omega]
  · by_cases htb : t < b
    · have hin : a ≤ t ∧ t < b := by omega
      simp [hta, hin, show t < a + (min b xs.length - a) by omega,
        show a + (t - a) = t by omega]
    · simp [htb, show ¬ t < a + (min b xs.length - a) by omega]

theorem kept_append (xs ys : List K) :
    kept keep (xs ++ ys) = kept keep xs ++ kept (fun t => keep (xs.length + t)) ys := by
  simp [kept, List.mapIdx_append, Nat.add_comm]

theorem kept_between_between {a b c d : Nat} (hab : a ≤ b) (hbc : b ≤ c) (hcd : c ≤ d)
    (hlen : d ≤ xs.length) :
    kept (fun t => between a b t || between c d t) xs =
      List.replicate a 0 ++ (xs.take b).drop a ++ List.replicate (c - b) 0 ++
        (xs.take d).drop c ++ List.replicate (xs.length - d) 0 := by
  have hfront : kept (fun t => between a b t || between c d t) (xs.take c) =
      kept (between a b) (xs.take c) := by
    refine kept_congr fun t ht => ?_
    rw [List.length_take] at ht
    rw [Bool.eq_iff_iff, Bool.or_eq_true, between_iff, between_iff]
    omega
  have hback : kept (fun t => between a b ((xs.take c).length + t) ||
        between c d ((xs.take c).length + t)) (xs.drop c) =
      kept (between 0 (d - c)) (xs.drop c) := by
    refine kept_congr fun t _ => ?_
    rw [List.length_take, Bool.eq_iff_iff, Bool.or_eq_true, between_iff, between_iff, between_iff]
    omega
  have hsplit := @kept_append _ _ (fun t => between a b t || between c d t)
    (xs.take c) (xs.drop c)
  rw [List.take_append_drop] at hsplit
  rw [hsplit, hfront, hback, kept_between hab (by rw [List.length_take]; omega),
    kept_between (Nat.zero_le _) (by rw [List.length_drop]; omega), List.take_take,
    Nat.min_eq_left hbc, List.length_take, Nat.min_eq_left (by omega : c ≤ xs.length),
    List.length_drop, List.drop_zero, List.replicate_zero, List.nil_append,
    show xs.length - c - (d - c) = xs.length - d by omega, ← List.drop_take]
  simp only [List.append_assoc]

/-- A piece that is written over its own place is kept besides. -/
theorem kept_write {a b : Nat} (hab : a ≤ b) (hlen : b ≤ xs.length) :
    (kept keep xs).take a ++ (xs.take b).drop a ++ (kept keep xs).drop b =
      kept (fun t => keep t || between a b t) xs := by
  apply List.ext_getElem
  · simp
    omega
  intro t ht ht'
  rw [kept_length] at ht'
  simp only [kept, List.getElem_append, List.length_append, List.length_take, List.length_drop,
    List.length_mapIdx, List.getElem_take, List.getElem_drop, List.getElem_mapIdx]
  by_cases hta : t < a
  · have hout : ¬ (a ≤ t ∧ t < b) := by omega
    simp [hta, hout, show t < min a xs.length + (min b xs.length - a) by omega, ht']
  · by_cases htb : t < b
    · have hin : a ≤ t ∧ t < b := by omega
      simp [hta, hin, show t < min a xs.length + (min b xs.length - a) by omega,
        show a + (t - min a xs.length) = t by omega]
    · simp [htb, show ¬ t < min a xs.length + (min b xs.length - a) by omega,
        show b + (t - (min a xs.length + (min b xs.length - a))) = t by omega]

end Zero

section Sums

variable [AddCommMonoid K] {cut : Nat → Nat}

theorem sum_between (hcut : Monotone cut) (hzero : cut 0 = 0) (t m : Nat) (x : K) :
    (∑ j ∈ range m, if between (cut j) (cut (j + 1)) t then x else 0) =
      if t < cut m then x else 0 := by
  induction m with
  | zero => simp [hzero]
  | succ m ih =>
      have hle : cut m ≤ cut (m + 1) := hcut (Nat.le_succ m)
      rw [Finset.sum_range_succ, ih]
      by_cases hlt : t < cut m
      · simp [hlt, show ¬ cut m ≤ t by omega, show t < cut (m + 1) by omega]
      · simp [hlt, show cut m ≤ t by omega]

/-- The owners of a position contribute its entry once. -/
theorem sum_owns (hcut : Monotone cut) (hzero : cut 0 = 0) {n t : Nat} (ht : t < cut (2 * n))
    (x : K) : (∑ r ∈ range n, if owns cut n r t then x else 0) = x := by
  have hpair : ∀ r ∈ range n, (if owns cut n r t then x else 0) =
      (if between (cut r) (cut (r + 1)) t then x else 0) +
        if between (cut (mirror n r)) (cut (mirror n r + 1)) t then x else 0 := by
    intro r hr
    have hlt := Finset.mem_range.mp hr
    have hle : cut (r + 1) ≤ cut (mirror n r) := hcut (by unfold mirror; omega)
    unfold owns
    by_cases hfront : between (cut r) (cut (r + 1)) t = true
    · have hback : ¬ between (cut (mirror n r)) (cut (mirror n r + 1)) t = true := by
        rw [between_iff] at hfront ⊢
        omega
      simp [hfront, hback]
    · simp [hfront]
  rw [Finset.sum_congr rfl hpair,
    sum_mirror fun j => if between (cut j) (cut (j + 1)) t then x else 0,
    sum_between hcut hzero, if_pos ht]

theorem exists_owner (hcut : Monotone cut) (hzero : cut 0 = 0) {n t : Nat}
    (ht : t < cut (2 * n)) : ∃ r < n, owns cut n r t = true := by
  by_contra hnone
  have hsum := sum_owns hcut hzero ht (1 : Nat)
  rw [Finset.sum_eq_zero] at hsum
  · exact absurd hsum (by omega)
  intro r hr
  rw [if_neg]
  intro howns
  exact hnone ⟨r, Finset.mem_range.mp hr, howns⟩

theorem foldl_zipWith_mapIdx {ι : Type} (f : ι → Nat → K → K) (xs : List K) (rs : List ι) :
    ∀ g : Nat → K → K, (rs.map fun r => xs.mapIdx (f r)).foldl (List.zipWith (· + ·))
        (xs.mapIdx g) = xs.mapIdx fun t x => g t x + (rs.map fun r => f r t x).sum := by
  induction rs with
  | nil => simp
  | cons r rs ih =>
      intro g
      have hadd : List.zipWith (· + ·) (xs.mapIdx g) (xs.mapIdx (f r)) =
          xs.mapIdx fun t x => g t x + f r t x := by
        apply List.ext_getElem (by simp)
        intro t _ _
        simp
      rw [List.map_cons, List.foldl_cons, hadd, ih]
      simp [add_assoc]

end Sums

end Places

end Crisp.Lib
