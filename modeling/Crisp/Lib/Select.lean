import Mathlib.Data.List.Basic

/-!
# Rows chosen by a mask

`mask.nonzero()` lists the positions a mask marks and indexing with the list
gathers those rows. Composed, the two are one filter that walks rows and mask
together, and the filter distributes over concatenation where the index list
does not. Every lemma here is about the filter; `gather_nonzero` is the bridge.
-/

namespace Crisp.Lib

variable {α β : Type}

/-- The marked positions of a mask that starts at position `k`. -/
def nonzeroFrom (k : Nat) : List Nat → List Nat
  | [] => []
  | m :: ms => if m = 0 then nonzeroFrom (k + 1) ms else k :: nonzeroFrom (k + 1) ms

/-- `mask.nonzero(as_tuple=True)[0]`. -/
def nonzero (mask : List Nat) : List Nat := nonzeroFrom 0 mask

/-- `rows[indices]`. The indices are those of a mask as long as the rows. -/
def gather (rows : List α) (indices : List Nat) : List α :=
  indices.filterMap fun k => rows[k]?

/-- The rows a mask marks. -/
def keep : List α → List Nat → List α
  | x :: xs, m :: ms => if m = 0 then keep xs ms else x :: keep xs ms
  | _, _ => []

theorem gather_nonzeroFrom {before : List α} :
    ∀ {mask : List Nat} {rows : List α}, rows.length = mask.length →
      gather (before ++ rows) (nonzeroFrom before.length mask) = keep rows mask := by
  intro mask
  induction mask generalizing before with
  | nil =>
      intro rows hlen
      rw [List.length_eq_zero_iff.mp hlen]
      rfl
  | cons m ms ih =>
      intro rows hlen
      cases rows with
      | nil => cases hlen
      | cons x xs =>
          have hrest := @ih (before ++ [x]) xs (by simpa using hlen)
          rw [List.length_append, List.length_singleton, List.append_assoc,
            List.singleton_append] at hrest
          rw [nonzeroFrom, keep]
          split
          · exact hrest
          · rw [gather, List.filterMap_cons]
            simp only [List.getElem?_append_right (Nat.le_refl _), Nat.sub_self,
              List.getElem?_cons_zero]
            exact congrArg (List.cons x) hrest

/-- Gathering a mask's positions keeps what the mask marks. -/
theorem gather_nonzero {rows : List α} {mask : List Nat}
    (hlen : rows.length = mask.length) :
    gather rows (nonzero mask) = keep rows mask :=
  @gather_nonzeroFrom α [] mask rows hlen

theorem keep_append {xs ys : List α} :
    ∀ {ms ns : List Nat}, xs.length = ms.length →
      keep (xs ++ ys) (ms ++ ns) = keep xs ms ++ keep ys ns := by
  induction xs with
  | nil =>
      intro ms ns hlen
      rw [List.length_eq_zero_iff.mp hlen.symm]
      rfl
  | cons x xs ih =>
      intro ms ns hlen
      cases ms with
      | nil => cases hlen
      | cons m ms =>
          have hrest := @ih ms ns (by simpa using hlen)
          simp only [List.cons_append, keep, hrest]
          split
          · rfl
          · rfl

@[simp] theorem keep_zeros {xs : List α} {n : Nat} :
    keep xs (List.replicate n 0) = [] := by
  induction xs generalizing n with
  | nil => rfl
  | cons x xs ih =>
      cases n with
      | zero => rfl
      | succ n => rw [List.replicate_succ, keep, if_pos rfl, ih]

theorem keep_ones {xs : List α} : keep xs (List.replicate xs.length 1) = xs := by
  induction xs with
  | nil => rfl
  | cons x xs ih =>
      rw [List.length_cons, List.replicate_succ, keep, if_neg (by decide), ih]

/-- A mask with one run of ones keeps one run of rows. -/
theorem keep_window {xs : List α} {a r b : Nat} (hlen : xs.length = a + r + b) :
    keep xs (List.replicate a 0 ++ (List.replicate r 1 ++ List.replicate b 0)) =
      (xs.drop a).take r := by
  have hfront : (xs.take a).length = (List.replicate a 0).length := by
    rw [List.length_take, List.length_replicate]
    omega
  have hrun : ((xs.drop a).take r).length = r := by
    rw [List.length_take, List.length_drop]
    omega
  have hones : keep ((xs.drop a).take r) (List.replicate r 1) = (xs.drop a).take r := by
    have := @keep_ones _ ((xs.drop a).take r)
    rwa [hrun] at this
  calc keep xs (List.replicate a 0 ++ (List.replicate r 1 ++ List.replicate b 0))
      = keep (xs.take a ++ ((xs.drop a).take r ++ (xs.drop a).drop r))
          (List.replicate a 0 ++ (List.replicate r 1 ++ List.replicate b 0)) := by
        rw [List.take_append_drop, List.take_append_drop]
    _ = (xs.drop a).take r := by
        rw [keep_append hfront, keep_zeros, List.nil_append,
          keep_append (by rw [hrun, List.length_replicate]), hones, keep_zeros,
          List.append_nil]

/-- `shifted = zeros_like(mask); shifted[:-1] = mask[1:]`. -/
def shiftMask : List Nat → List Nat
  | [] => []
  | _ :: ms => ms ++ [0]

@[simp] theorem shiftMask_length {ms : List Nat} :
    (shiftMask ms).length = ms.length := by
  cases ms with
  | nil => rfl
  | cons m ms => simp [shiftMask]

/-- The shift crosses a seam by pulling the right part's first entry over it,
so it acts on both parts separately when that entry is zero. -/
theorem shiftMask_append {ms ns : List Nat} (h : ∀ n ∈ ns.head?, n = 0) :
    shiftMask (ms ++ ns) = shiftMask ms ++ shiftMask ns := by
  cases ms with
  | nil => rfl
  | cons m ms =>
      cases ns with
      | nil => simp [shiftMask]
      | cons n ns =>
          have hn : n = 0 := h n rfl
          simp [shiftMask, hn]

end Crisp.Lib
