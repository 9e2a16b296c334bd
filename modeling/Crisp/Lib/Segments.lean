import Mathlib.Algebra.BigOperators.Group.List.Basic
import Mathlib.Algebra.GroupWithZero.Nat
import Mathlib.Data.List.GetD

/-!
# Slices, microbatches and packed sequences

Three ways a batch is cut. A Python slice takes bounds that may be negative or
out of range; a fixed microbatch schedule reads the columns of a batch in
contiguous runs of one size; and a packed sequence is the concatenation of its
segments, each found again at the sum of the lengths before it.
-/

namespace Crisp.Lib

variable {α β : Type}

/-! ## Python slices -/

/-- A slice bound as a position in a list of `n`: a negative bound counts from
the end, and either kind is clamped. -/
def pyBound (n : Nat) (i : Int) : Nat :=
  if i < 0 then ((n : Int) + i).toNat else min i.toNat n

/-- `xs[start:stop]`. -/
def pySlice (xs : List α) (start stop : Int) : List α :=
  (xs.take (pyBound xs.length stop)).drop (pyBound xs.length start)

/-- `xs[start:]`. -/
def pyFrom (xs : List α) (start : Int) : List α :=
  xs.drop (pyBound xs.length start)

/-- `xs[:stop]`. -/
def pyUntil (xs : List α) (stop : Int) : List α :=
  xs.take (pyBound xs.length stop)

theorem pyBound_of_le {n : Nat} {i : Int} {k : Nat} (hi : i = k) (hk : k ≤ n) :
    pyBound n i = k := by
  unfold pyBound
  rw [if_neg (by omega), hi, Int.toNat_natCast]
  omega

theorem pyBound_neg {n r : Nat} (hpos : 0 < r) (hr : r ≤ n) :
    pyBound n (-(r : Int)) = n - r := by
  unfold pyBound
  rw [if_pos (by omega)]
  omega

theorem pySlice_of_le {xs : List α} {start stop : Int} {a b : Nat}
    (ha : start = a) (hb : stop = b) (hab : a ≤ b) (hlen : b ≤ xs.length) :
    pySlice xs start stop = (xs.take b).drop a := by
  unfold pySlice
  rw [pyBound_of_le ha (by omega), pyBound_of_le hb hlen]

theorem pyFrom_of_le {xs : List α} {start : Int} {a : Nat} (ha : start = a)
    (hlen : a ≤ xs.length) : pyFrom xs start = xs.drop a := by
  unfold pyFrom
  rw [pyBound_of_le ha hlen]

/-- The slice `xs[-r:]` is the last `r` entries, for a positive `r` only. -/
theorem pyFrom_neg {xs : List α} {r : Nat} (hpos : 0 < r) (hr : r ≤ xs.length) :
    pyFrom xs (-(r : Int)) = xs.drop (xs.length - r) := by
  unfold pyFrom
  rw [pyBound_neg hpos hr]

/-! ## Microbatches -/

/-- The `j`-th contiguous run of `m` entries. -/
def microbatch (m j : Nat) (xs : List α) : List α :=
  (xs.drop (j * m)).take m

theorem microbatch_map (f : α → β) (m j : Nat) (xs : List α) :
    microbatch m j (xs.map f) = (microbatch m j xs).map f := by
  simp [microbatch, List.map_take, List.map_drop]

theorem microbatch_zipWith {γ : Type} (f : α → β → γ) (m j : Nat) (xs : List α)
    (ys : List β) : microbatch m j (List.zipWith f xs ys) =
      List.zipWith f (microbatch m j xs) (microbatch m j ys) := by
  simp only [microbatch, List.drop_zipWith, List.take_zipWith]

theorem microbatch_length {m j : Nat} {xs : List α} (h : (j + 1) * m ≤ xs.length) :
    (microbatch m j xs).length = m := by
  rw [Nat.succ_mul] at h
  simp only [microbatch, List.length_take, List.length_drop]
  omega

theorem mem_of_mem_microbatch {m j : Nat} {xs : List α} {x : α}
    (h : x ∈ microbatch m j xs) : x ∈ xs :=
  List.mem_of_mem_drop (List.mem_of_mem_take h)

/-- Entry `s` of microbatch `j` is entry `j * m + s` of the batch. -/
theorem microbatch_getElem? {m j s : Nat} {xs : List α} (hs : s < m) :
    (microbatch m j xs)[s]? = xs[j * m + s]? := by
  simp [microbatch, hs]

theorem microbatch_succ (m j : Nat) (xs : List α) :
    microbatch m (j + 1) xs = microbatch m j (xs.drop m) := by
  unfold microbatch
  rw [List.drop_drop, Nat.succ_mul, Nat.add_comm m]

/-- As many runs of `m` as are started cover `n` entries. -/
theorem le_ceil_mul {n m : Nat} (hm : 0 < m) : n ≤ (n + m - 1) / m * m := by
  have hmod := Nat.div_add_mod (n + m - 1) m
  have hlt := Nat.mod_lt (n + m - 1) hm
  rw [Nat.mul_comm] at hmod
  omega

/-- A run that is started starts within the entries. -/
theorem run_start_lt {n m j : Nat} (hj : j < (n + m - 1) / m) : j * m < n := by
  have hle := Nat.div_mul_le_self (n + m - 1) m
  have hmul := Nat.mul_le_mul_right m (Nat.succ_le_of_lt hj)
  rw [Nat.succ_mul] at hmul
  have hm : 0 < m := by
    refine Nat.pos_of_ne_zero fun hzero => ?_
    rw [hzero, Nat.div_zero] at hj
    exact absurd hj (Nat.not_lt_zero j)
  omega

/-- Enough microbatches cover the batch, the last of them possibly short and
any after it empty. -/
theorem flatten_microbatches {m : Nat} :
    ∀ {q : Nat} {xs : List α}, xs.length ≤ q * m →
      ((List.range q).map fun j => microbatch m j xs).flatten = xs := by
  intro q
  induction q with
  | zero =>
      intro xs hlen
      rw [Nat.zero_mul, Nat.le_zero] at hlen
      rw [List.length_eq_zero_iff.mp hlen]
      rfl
  | succ q ih =>
      intro xs hlen
      rw [Nat.succ_mul] at hlen
      have hrest : (xs.drop m).length ≤ q * m := by
        rw [List.length_drop]
        omega
      rw [List.range_succ_eq_map, List.map_cons, List.map_map, List.flatten_cons]
      have htail : (List.range q).map ((fun j => microbatch m j xs) ∘ Nat.succ) =
          (List.range q).map fun j => microbatch m j (xs.drop m) := by
        apply List.map_congr_left
        intro j _
        exact microbatch_succ m j xs
      rw [htail, ih hrest, microbatch, Nat.zero_mul, List.drop_zero,
        List.take_append_drop]

/-- Concatenated results of one size are cut back into the results. -/
theorem microbatch_flatten {m : Nat} :
    ∀ {blocks : List (List α)}, (∀ b ∈ blocks, b.length = m) →
      ∀ {j : Nat} (hj : j < blocks.length),
        microbatch m j blocks.flatten = blocks[j] := by
  intro blocks
  induction blocks with
  | nil => intro _ j hj; exact absurd hj (Nat.not_lt_zero j)
  | cons b bs ih =>
      intro hsize j hj
      have hb : b.length = m := hsize b (by simp)
      have hdrop : (b :: bs).flatten.drop m = bs.flatten := by
        rw [List.flatten_cons, ← hb, List.drop_left]
      cases j with
      | zero =>
          rw [microbatch, Nat.zero_mul, List.drop_zero, List.flatten_cons, ← hb,
            List.take_left]
          rfl
      | succ j =>
          rw [microbatch_succ, hdrop]
          exact ih (fun c hc => hsize c (by simp [hc])) (by simpa using hj)

/-! ## Packed sequences -/

/-- Where segment `s` of a packed sequence starts. -/
def segmentOffset (lengths : List Nat) (s : Nat) : Nat :=
  (lengths.take s).sum

@[simp] theorem segmentOffset_zero (lengths : List Nat) :
    segmentOffset lengths 0 = 0 := by
  simp [segmentOffset]

@[simp] theorem segmentOffset_cons_succ (n : Nat) (lengths : List Nat) (s : Nat) :
    segmentOffset (n :: lengths) (s + 1) = n + segmentOffset lengths s := by
  simp [segmentOffset]

/-- A segment ends within the sequence it is packed in. -/
theorem segmentOffset_add_le {lengths : List Nat} :
    ∀ {s : Nat} (hs : s < lengths.length),
      segmentOffset lengths s + lengths[s] ≤ lengths.sum := by
  induction lengths with
  | nil => intro s hs; exact absurd hs (Nat.not_lt_zero s)
  | cons n ns ih =>
      intro s hs
      cases s with
      | zero => simp
      | succ s =>
          have := @ih s (by simpa using hs)
          simp only [segmentOffset_cons_succ, List.getElem_cons_succ, List.sum_cons]
          omega

/-- A segment is found again at its offset, whatever follows the packing. -/
theorem segment_of_flatten {segments : List (List α)} {tail : List α} :
    ∀ {s : Nat} (hs : s < segments.length),
      ((segments.flatten ++ tail).drop
        (segmentOffset (segments.map List.length) s)).take segments[s].length =
        segments[s] := by
  induction segments with
  | nil => intro s hs; exact absurd hs (Nat.not_lt_zero s)
  | cons x xs ih =>
      intro s hs
      cases s with
      | zero =>
          rw [List.getElem_cons_zero, segmentOffset_zero, List.drop_zero,
            List.flatten_cons, List.append_assoc, List.take_left]
      | succ s =>
          rw [List.getElem_cons_succ, List.map_cons, segmentOffset_cons_succ,
            List.flatten_cons, List.append_assoc, ← List.drop_drop, List.drop_left]
          exact ih (by simpa using hs)

/-! ## Filling section by section -/

/-- `output[start : start + len(rows)] = rows`. -/
def writeSection (output : List α) (start : Nat) (rows : List α) : List α :=
  output.take start ++ rows ++ output.drop (start + rows.length)

/-- One more section of what is written over `output`. -/
theorem writeSection_microbatch {m k : Nat} {output rows : List α}
    (hlength : output.length = rows.length) (hk : k * m ≤ rows.length) :
    writeSection (rows.take (k * m) ++ output.drop (k * m)) (k * m) (microbatch m k rows) =
      rows.take ((k + 1) * m) ++ output.drop ((k + 1) * m) := by
  have hbefore : (rows.take (k * m)).length = k * m := by
    rw [List.length_take, Nat.min_eq_left hk]
  have hnext : (k + 1) * m = k * m + m := Nat.succ_mul k m
  have hrows : rows.take (k * m) ++ microbatch m k rows = rows.take ((k + 1) * m) := by
    rw [hnext, List.take_add]
    rfl
  have hrest : output.drop (k * m + (microbatch m k rows).length) =
      output.drop ((k + 1) * m) := by
    have hsection : (microbatch m k rows).length = min m (rows.length - k * m) := by
      unfold microbatch
      rw [List.length_take, List.length_drop]
    rcases Nat.le_total m (rows.length - k * m) with hfull | hlast
    · rw [hsection, Nat.min_eq_left hfull, hnext]
    · rw [List.drop_eq_nil_of_le (by omega), List.drop_eq_nil_of_le (by omega)]
  unfold writeSection
  rw [List.take_left' hbefore, List.drop_append, hbefore, Nat.add_sub_cancel_left,
    List.drop_drop, hrest, List.drop_eq_nil_of_le (by omega), List.nil_append, hrows]

/-- Whatever was there, all sections together leave the rows. -/
theorem foldl_writeSection {m : Nat} (hm : 0 < m) {output rows : List α}
    (hlength : output.length = rows.length) :
    (List.range ((rows.length + m - 1) / m)).foldl
      (fun output i => writeSection output (i * m) (microbatch m i rows)) output = rows := by
  have hfill : ∀ k, k ≤ (rows.length + m - 1) / m →
      (List.range k).foldl
        (fun output i => writeSection output (i * m) (microbatch m i rows)) output =
        rows.take (k * m) ++ output.drop (k * m) := by
    intro k hk
    induction k with
    | zero => simp
    | succ k ih =>
        have hstart : k * m < rows.length := run_start_lt (Nat.lt_of_succ_le hk)
        rw [List.range_succ, List.foldl_append, ih (Nat.le_of_succ_le hk)]
        exact writeSection_microbatch hlength (Nat.le_of_lt hstart)
  have hcover : rows.length ≤ (rows.length + m - 1) / m * m := le_ceil_mul hm
  rw [hfill _ (Nat.le_refl _), List.take_of_length_le hcover,
    List.drop_eq_nil_of_le (hlength ▸ hcover), List.append_nil]

end Crisp.Lib
