import Mathlib.Algebra.Order.BigOperators.Group.List
import Mathlib.Algebra.Order.Ring.Nat
import Mathlib.Data.List.Induction

/-!
# Packing under a capacity

How many bins a greedy packing can need, against any packing that stays under the
capacity. Two things about the bins decide it, and how they were filled does not: no
item of a later bin fits in an earlier one, and, where items came in decreasing size,
the first item of a bin is no smaller than those of later bins.
-/

namespace Crisp.Lib

variable {α : Type} {size : α → Nat} {cap : Nat}

def binLoad (size : α → Nat) (bin : List α) : Nat := (bin.map size).sum

@[simp] theorem binLoad_nil : binLoad size [] = 0 := rfl

@[simp] theorem binLoad_cons (x : α) (bin : List α) :
    binLoad size (x :: bin) = size x + binLoad size bin := by
  simp [binLoad]

@[simp] theorem binLoad_append (bin bin' : List α) :
    binLoad size (bin ++ bin') = binLoad size bin + binLoad size bin' := by
  simp [binLoad]

theorem binLoad_perm {bin bin' : List α} (h : bin.Perm bin') :
    binLoad size bin = binLoad size bin' :=
  (h.map size).sum_eq

theorem size_le_binLoad {x : α} {bin : List α} (h : x ∈ bin) : size x ≤ binLoad size bin :=
  List.le_sum_of_mem (List.mem_map_of_mem h)

/-- No item of a later bin fits in an earlier one. -/
def NoRoom (size : α → Nat) (cap : Nat) (bins : List (List α)) : Prop :=
  bins.Pairwise fun b c => ∀ x ∈ c, cap < binLoad size b + size x

/-- No item of a later bin is larger than the first of an earlier one. -/
def Led (size : α → Nat) (bins : List (List α)) : Prop :=
  bins.Pairwise fun b c => ∀ x ∈ b.head?, ∀ y ∈ c, size y ≤ size x

/-! ## What a packing holds -/

theorem binLoad_flatten_le {packing : List (List α)} (h : ∀ bin ∈ packing, binLoad size bin ≤ cap) :
    binLoad size packing.flatten ≤ packing.length * cap := by
  induction packing with
  | nil => simp
  | cons bin packing ih =>
      simp only [List.forall_mem_cons] at h
      have hrest := ih h.2
      simp only [List.flatten_cons, binLoad_append, List.length_cons, Nat.succ_mul]
      omega

theorem countP_mul_le (bin : List α) :
    bin.countP (fun x => cap < 2 * size x) * (cap + 1) ≤ 2 * binLoad size bin := by
  induction bin with
  | nil => simp
  | cons x bin ih =>
      rw [List.countP_cons, binLoad_cons]
      split
      · next h =>
          have hbig : cap < 2 * size x := of_decide_eq_true h
          rw [Nat.add_mul]
          omega
      · rw [Nat.add_zero]
        omega

/-- Of the items above half the capacity each bin has at most one. -/
theorem countP_flatten_le {packing : List (List α)} (h : ∀ bin ∈ packing, binLoad size bin ≤ cap) :
    packing.flatten.countP (fun x => cap < 2 * size x) ≤ packing.length := by
  induction packing with
  | nil => simp
  | cons bin packing ih =>
      simp only [List.forall_mem_cons] at h
      have hrest := ih h.2
      have hone : bin.countP (fun x => cap < 2 * size x) < 2 := by
        refine Nat.lt_of_mul_lt_mul_right (a := cap + 1) ?_
        have hmul := @countP_mul_le _ size cap bin
        omega
      simp only [List.flatten_cons, List.countP_append, List.length_cons]
      omega

theorem length_le_countP {p : α → Bool} {bins : List (List α)} (h : ∀ b ∈ bins, ∃ x ∈ b, p x) :
    bins.length ≤ bins.flatten.countP p := by
  induction bins with
  | nil => simp
  | cons b bins ih =>
      simp only [List.forall_mem_cons] at h
      have hrest := ih h.2
      have hone : 0 < b.countP p := List.countP_pos_iff.mpr h.1
      simp only [List.flatten_cons, List.countP_append, List.length_cons]
      omega

/-! ## What the greedy bins hold -/

/-- Two neighbouring bins hold more than the capacity. -/
theorem NoRoom.pairs_load {bins : List (List α)} (h : NoRoom size cap bins)
    (hne : ∀ b ∈ bins, b ≠ []) : bins.length / 2 * (cap + 1) ≤ binLoad size bins.flatten := by
  induction bins using List.twoStepInduction with
  | nil => simp
  | singleton b => simp
  | cons_cons b c bins ih _ =>
      simp only [List.forall_mem_cons] at hne
      obtain ⟨hb, hcbins⟩ := List.pairwise_cons.mp h
      have hrest := ih (List.pairwise_cons.mp hcbins).2 hne.2.2
      obtain ⟨x, hx⟩ := List.exists_mem_of_ne_nil c hne.2.1
      have hover := hb c (by simp) x hx
      have hle := @size_le_binLoad _ size _ _ hx
      have hhalf : (b :: c :: bins).length / 2 = bins.length / 2 + 1 := by
        simp only [List.length_cons]
        omega
      rw [hhalf, Nat.succ_mul]
      simp only [List.flatten_cons, binLoad_append]
      omega

/-- Full bins and as many items that fit in none of them. -/
theorem front_load {front : List (List α)} {items : List α} (hlength : front.length ≤ items.length)
    (h : ∀ b ∈ front, ∀ x ∈ items, cap < binLoad size b + size x) :
    front.length * (cap + 1) ≤ binLoad size front.flatten + binLoad size items := by
  induction front generalizing items with
  | nil => simp
  | cons b front ih =>
      cases items with
      | nil => cases hlength
      | cons x items =>
          have hover := h b (by simp) x (by simp)
          have hrest := ih (Nat.le_of_succ_le_succ hlength) fun b hb x hx =>
            h b (List.mem_cons_of_mem _ hb) x (List.mem_cons_of_mem _ hx)
          simp only [List.length_cons, Nat.succ_mul, List.flatten_cons, binLoad_append,
            binLoad_cons]
          omega

/-- Where everything is at most half the capacity, only the last bin has one item. -/
theorem NoRoom.two_each {bins : List (List α)} (h : NoRoom size cap bins)
    (hne : ∀ b ∈ bins, b ≠ []) (hsmall : ∀ x ∈ bins.flatten, 2 * size x ≤ cap) :
    2 * bins.length ≤ bins.flatten.length + 1 := by
  induction bins with
  | nil => simp
  | cons b bins ih =>
      simp only [List.forall_mem_cons] at hne
      obtain ⟨hb, hbins⟩ := List.pairwise_cons.mp h
      simp only [List.flatten_cons, List.mem_append] at hsmall
      have hrest := ih hbins hne.2 fun x hx => hsmall x (.inr hx)
      have hpos := List.length_pos_iff.mpr hne.1
      simp only [List.flatten_cons, List.length_append, List.length_cons]
      cases bins with
      | nil =>
          simp only [List.flatten_nil, List.length_nil]
          omega
      | cons c bins =>
          have htwo : b.length ≠ 1 := by
            intro hone
            obtain ⟨x, rfl⟩ := List.length_eq_one_iff.mp hone
            obtain ⟨y, hy⟩ := List.exists_mem_of_ne_nil c (hne.2 c (by simp))
            have hover := hb c (by simp) y hy
            have hx := hsmall x (.inl (by simp))
            have hy := hsmall y (.inr (by simp [hy]))
            simp only [binLoad_cons, binLoad_nil] at hover
            omega
          omega

/-! ## How many bins there are -/

section Bounds

variable {bins packing : List (List α)}

theorem packing_pos (hne : ∀ b ∈ bins, b ≠ []) (hbins : bins ≠ [])
    (hperm : packing.flatten.Perm bins.flatten) : 0 < packing.length := by
  obtain ⟨b, hb⟩ := List.exists_mem_of_ne_nil bins hbins
  obtain ⟨x, hx⟩ := List.exists_mem_of_ne_nil b (hne b hb)
  have hmem := hperm.mem_iff.mpr (List.mem_flatten.mpr ⟨b, hb, hx⟩)
  obtain ⟨bin, hbin, -⟩ := List.mem_flatten.mp hmem
  exact List.length_pos_of_mem hbin

/-- A load above `n` capacities takes more than `n` bins. -/
theorem lt_packing {n : Nat} (hcap : ∀ bin ∈ packing, binLoad size bin ≤ cap)
    (hpos : 0 < packing.length) (hload : n * (cap + 1) ≤ binLoad size packing.flatten) :
    n < packing.length := by
  by_contra hle
  have hbound := binLoad_flatten_le hcap
  have hmul := Nat.mul_le_mul_right cap (Nat.le_of_not_lt hle)
  rw [Nat.mul_succ] at hload
  omega

/-- Bins that leave no room behind are fewer than twice those of any packing. -/
theorem NoRoom.length_lt (h : NoRoom size cap bins) (hne : ∀ b ∈ bins, b ≠ []) (hbins : bins ≠ [])
    (hperm : packing.flatten.Perm bins.flatten) (hcap : ∀ bin ∈ packing, binLoad size bin ≤ cap) :
    bins.length < 2 * packing.length := by
  have hload := h.pairs_load hne
  rw [← binLoad_perm hperm] at hload
  have hlt := lt_packing hcap (packing_pos hne hbins hperm) hload
  omega

/-- **Decreasing sizes.** The bins are at most three for every two of any packing. Look
at the bins from two thirds on. One of their items is above half the capacity, and then
so are the first items of all bins before them; or all are at most half, so they come
two a bin, enough to overfill every bin before them. -/
theorem NoRoom.length_le (h : NoRoom size cap bins) (hled : Led size bins)
    (hne : ∀ b ∈ bins, b ≠ []) (hperm : packing.flatten.Perm bins.flatten)
    (hcap : ∀ bin ∈ packing, binLoad size bin ≤ cap) : 2 * bins.length ≤ 3 * packing.length := by
  by_cases hbins : bins = []
  · simp [hbins]
  have hpos := packing_pos hne hbins hperm
  have hlength := List.length_pos_iff.mpr hbins
  have hthird : (2 * bins.length + 2) / 3 - 1 < bins.length := by omega
  -- `front` is what comes before the bin two thirds along
  obtain ⟨front, back, rfl, hfront⟩ : ∃ front back, bins = front ++ back ∧
      front.length = (2 * bins.length + 2) / 3 - 1 :=
    ⟨_, _, (List.take_append_drop _ bins).symm, List.length_take_of_le hthird.le⟩
  rw [List.length_append] at hfront hthird
  suffices front.length < packing.length by
    rw [List.length_append]
    omega
  obtain ⟨-, hback, hover⟩ : _ ∧ NoRoom size cap back ∧ _ := List.pairwise_append.mp h
  obtain ⟨-, -, hleads⟩ := List.pairwise_append.mp hled
  have hneback : ∀ b ∈ back, b ≠ [] := fun b hb => hne b (List.mem_append_right _ hb)
  by_cases hsmall : ∀ x ∈ back.flatten, 2 * size x ≤ cap
  · have htwo := hback.two_each hneback hsmall
    have hload := @front_load _ size cap front back.flatten
      (by omega) fun b hb x hx => by
        obtain ⟨c, hc, hx⟩ := List.mem_flatten.mp hx
        exact hover b hb c hc x hx
    rw [← binLoad_append, ← List.flatten_append, ← binLoad_perm hperm] at hload
    exact lt_packing hcap hpos hload
  · push Not at hsmall
    obtain ⟨y, hy, hbig⟩ := hsmall
    obtain ⟨c, hc, hy⟩ := List.mem_flatten.mp hy
    -- the first item of every bin of `front` is at least `y`, and `y` is one more such item
    have hfirst : ∀ b ∈ front, ∃ x ∈ b, decide (cap < 2 * size x) = true := by
      intro b hb
      obtain ⟨x, rest, rfl⟩ := List.exists_cons_of_ne_nil (hne b (List.mem_append_left _ hb))
      have hle := hleads _ hb c hc x (by simp) y hy
      exact ⟨x, by simp, decide_eq_true (by omega)⟩
    have hcount := length_le_countP hfirst
    have hone : 0 < back.flatten.countP fun x => cap < 2 * size x :=
      List.countP_pos_iff.mpr ⟨y, List.mem_flatten.mpr ⟨c, hc, hy⟩, decide_eq_true hbig⟩
    have hbound := countP_flatten_le hcap
    rw [hperm.countP_eq, List.flatten_append, List.countP_append] at hbound
    omega

end Bounds

end Crisp.Lib
