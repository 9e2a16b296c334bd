import Crisp.Lib.Decay
import Crisp.Ref.Advantages
import Mathlib.Data.List.GetD

/-!
# Advantages in chunks

Backwards in time the advantages are the decaying sums of the deltas. `vanilla_gae` adds
them up one after the other. `chunked_gae` computes the sums of each chunk from nothing, by
one product with a fixed kernel, and then adds what the chunk before it has reached, in its
powers; the loop's invariant is that the chunks so far hold the sums so far. The last
chunk is padded, and only its real entries are written and carried on.
-/

namespace Crisp.Proofs

open Crisp.Lib Crisp.Ref

section Vanilla

variable {K : Type} [Field K] {rewards values : List K} {gamma lambd : K}

/-- The delta at a position. -/
def deltaAt (rewards values : List K) (gamma : K) (t : Nat) : K :=
  rewards.getD t 0 + gamma * (if t + 1 < rewards.length then values.getD (t + 1) 0 else 0) -
    values.getD t 0

theorem gaeSteps_eq (ts : List Nat) : ∀ (s : K) (advRev : List K),
    ts.foldl (gaeStep rewards values gamma lambd) (s, advRev) =
      (decayTotal (gamma * lambd) s (ts.map (deltaAt rewards values gamma)),
        advRev ++ decaySums (gamma * lambd) s (ts.map (deltaAt rewards values gamma))) := by
  induction ts with
  | nil =>
      intro s advRev
      simp [decaySums, decayTotal]
  | cons t ts ih =>
      intro s advRev
      rw [List.foldl_cons]
      show ts.foldl _ (deltaAt rewards values gamma t + gamma * lambd * s,
        advRev ++ [deltaAt rewards values gamma t + gamma * lambd * s]) = _
      rw [ih, List.append_assoc]
      rfl

theorem gaeDeltas_eq (hlen : values.length = rewards.length) :
    gaeDeltas rewards values gamma =
      (List.range rewards.length).map (deltaAt rewards values gamma) := by
  have hcount : (values.drop 1 ++ [(0 : K)]).length = values.length - 1 + 1 := by simp
  apply List.ext_getElem
  · simp only [gaeDeltas, List.length_zipWith, hcount, List.length_map, List.length_range]
    omega
  intro t ht ht'
  have hlt : t < rewards.length := by simpa using ht'
  have hin : t < (values.drop 1 ++ [(0 : K)]).length := by omega
  have hnext : (values.drop 1 ++ [(0 : K)])[t] =
      if t + 1 < rewards.length then values.getD (t + 1) 0 else 0 := by
    rw [List.getElem_append]
    split
    · next hbefore =>
        rw [List.length_drop] at hbefore
        rw [if_pos (by omega), List.getElem_drop, List.getD_eq_getElem _ _ (by omega)]
        congr 1
        omega
    · next hout =>
        rw [List.length_drop] at hout
        rw [if_neg (by omega), List.getElem_singleton]
  simp only [gaeDeltas, List.getElem_zipWith, hnext, List.getElem_map, List.getElem_range, deltaAt,
    List.getD_eq_getElem _ _ hlt, List.getD_eq_getElem _ _ (hlen ▸ hlt)]

/-- The advantages: backwards, the decaying sums of the deltas. -/
def gaeAdvantages (rewards values : List K) (gamma lambd : K) : List K :=
  (decaySums (gamma * lambd) 0 (gaeDeltas rewards values gamma).reverse).reverse

theorem gaeDeltas_length (hlen : values.length = rewards.length) :
    (gaeDeltas rewards values gamma).length = rewards.length := by
  rw [gaeDeltas_eq hlen, List.length_map, List.length_range]

theorem gaeAdvantages_length (hlen : values.length = rewards.length) :
    (gaeAdvantages rewards values gamma lambd).length = rewards.length := by
  rw [gaeAdvantages, List.length_reverse, decaySums_length, List.length_reverse,
    gaeDeltas_length hlen]

theorem vanillaGae_eq (hlen : values.length = rewards.length) (hne : rewards ≠ []) :
    vanillaGae rewards values gamma lambd =
      .ok (gaeAdvantages rewards values gamma lambd,
        List.zipWith (· + ·) (gaeAdvantages rewards values gamma lambd) values) := by
  have hdeltas : (List.range rewards.length).reverse.map (deltaAt rewards values gamma) =
      (gaeDeltas rewards values gamma).reverse := by
    rw [gaeDeltas_eq hlen, List.map_reverse]
  have hpos : decaySums (gamma * lambd) 0 (gaeDeltas rewards values gamma).reverse ≠ [] := by
    rw [← List.length_pos_iff, decaySums_length, List.length_reverse, gaeDeltas_length hlen]
    exact List.length_pos_iff.mpr hne
  unfold vanillaGae
  rw [gaeSteps_eq, hdeltas, List.nil_append]
  simp only [check_of hpos, except_ok_bind]
  rfl

theorem vanillaGae_nil :
    vanillaGae [] [] gamma lambd =
      .error (runtimeError "stack expects a non-empty TensorList") := rfl

/-- The closed form: the deltas from a position on, in the powers of `γλ`. -/
theorem gaeAdvantages_getElem (hlen : values.length = rewards.length) {t : Nat}
    (ht : t < rewards.length) :
    (gaeAdvantages rewards values gamma lambd)[t]? =
      some (∑ k ∈ Finset.range (rewards.length - t),
        (gamma * lambd) ^ k * deltaAt rewards values gamma (t + k)) := by
  have hcount := @gaeDeltas_length K _ rewards values gamma hlen
  have hback : rewards.length - 1 - t <
      (decaySums (gamma * lambd) 0 (gaeDeltas rewards values gamma).reverse).length := by
    rw [decaySums_length, List.length_reverse]
    omega
  unfold gaeAdvantages
  rw [List.getElem?_reverse (by rw [decaySums_length, List.length_reverse]; omega),
    decaySums_length, List.length_reverse, hcount, List.getElem?_eq_getElem hback,
    decaySums_getElem hback, mul_zero, add_zero,
    show rewards.length - 1 - t + 1 = rewards.length - t by omega, ← Finset.sum_range_reflect]
  refine congrArg some (Finset.sum_congr rfl fun k hk => ?_)
  have hlt := Finset.mem_range.mp hk
  rw [show rewards.length - 1 - t - (rewards.length - t - 1 - k) = k by omega,
    List.getD_eq_getElem _ _ (by rw [List.length_reverse]; omega), List.getElem_reverse]
  simp only [gaeDeltas_eq hlen, List.getElem_map, List.getElem_range, List.length_map,
    List.length_range]
  congr 2
  omega

end Vanilla

/-! ## In chunks -/

section Chunked

variable {K : Type} [Field K] [DecidableEq K] {w : K} {chunkSize : Nat}

theorem scanKernel_eq (row col : Nat) :
    scanKernel w row col = if row ≤ col then w ^ (col - row) else 0 := by
  unfold scanKernel
  by_cases hw : w = 0
  · rw [if_pos hw, hw]
    congr 1
    by_cases hzero : col - row = 0
    · rw [if_pos hzero, hzero, pow_zero]
    · rw [if_neg hzero, zero_pow hzero]
  · rw [if_neg hw]

theorem powVec_eq :
    powVec w chunkSize = (List.range chunkSize).map fun t => w ^ (t + 1) := by
  unfold powVec
  by_cases hw : w = 0
  · rw [if_pos hw, hw]
    apply List.ext_getElem (by simp)
    intro t _ _
    simp
  · rw [if_neg hw]

/-- Within a chunk the product with the kernel is the running sums from nothing. -/
theorem scanLocal_take {chunk : List K} {n : Nat} (hn : n ≤ chunkSize) (hle : n ≤ chunk.length) :
    (scanLocal w chunkSize chunk).take n = decaySums w 0 (chunk.take n) := by
  have hcount : (scanLocal w chunkSize chunk).length = chunkSize := by simp [scanLocal]
  apply List.ext_getElem
  · rw [List.length_take, decaySums_length, List.length_take]
    omega
  intro t ht htake
  rw [List.length_take] at ht
  rw [decaySums_length] at htake
  rw [decaySums_getElem, mul_zero, add_zero, List.getElem_take]
  simp only [scanLocal, List.getElem_map, List.getElem_range]
  show (∑ row ∈ Finset.range chunkSize, chunk.getD row 0 * scanKernel w row t) = _
  rw [← Finset.sum_subset (Finset.range_subset_range.mpr (show t + 1 ≤ chunkSize by omega))]
  · refine Finset.sum_congr rfl fun row hrow => ?_
    have hlt := Finset.mem_range.mp hrow
    rw [scanKernel_eq, if_pos (by omega), mul_comm, List.getD_eq_getElem _ _ (by omega),
      List.getD_eq_getElem _ _ (by omega), List.getElem_take]
  · intro row _ hrow
    rw [Finset.mem_range] at hrow
    rw [scanKernel_eq, if_neg (by omega), mul_zero]

/-- One chunk: what was held stays, the sums of the chunk follow, and the last is carried. -/
theorem chunkStep_eq {chunks : List (List K)} {lengths : List Nat} {deltas chunk : List K}
    {c n total : Nat} (hchunk : chunks.getD c [] = chunk) (hlength : lengths.getD c 0 = n)
    (hpart : chunk.take n = (deltas.drop (c * chunkSize)).take chunkSize) (hpos : 0 < n)
    (hn : n ≤ chunkSize) (hle : n ≤ chunk.length)
    (hstart : c * chunkSize ≤ deltas.length) :
    chunkStep w chunkSize chunks lengths
        (decaySums w 0 (deltas.take (c * chunkSize)) ++
          List.replicate (total - c * chunkSize) 0,
          decayTotal w 0 (deltas.take (c * chunkSize))) c =
      (decaySums w 0 (deltas.take ((c + 1) * chunkSize)) ++
          List.replicate (total - (c * chunkSize + n)) 0,
        decayTotal w 0 (deltas.take ((c + 1) * chunkSize))) := by
  have hcount : (deltas.take (c * chunkSize)).length = c * chunkSize := by
    rw [List.length_take]
    omega
  have hpartCount : ((deltas.drop (c * chunkSize)).take chunkSize).length = n := by
    rw [← hpart, List.length_take]
    omega
  have hsplit : deltas.take ((c + 1) * chunkSize) = deltas.take (c * chunkSize) ++
      (deltas.drop (c * chunkSize)).take chunkSize := by
    rw [Nat.succ_mul, List.take_add]
  have hscanned : List.zipWith
      (fun total power => total + decayTotal w 0 (deltas.take (c * chunkSize)) * power)
      ((scanLocal w chunkSize chunk).take n) ((powVec w chunkSize).take n) =
      decaySums w (decayTotal w 0 (deltas.take (c * chunkSize)))
        ((deltas.drop (c * chunkSize)).take chunkSize) := by
    rw [scanLocal_take hn hle, hpart, powVec_eq, ← List.map_take, List.take_range,
      Nat.min_eq_left hn, decaySums_from (s := decayTotal w 0 _), hpartCount]
  have hne : (deltas.drop (c * chunkSize)).take chunkSize ≠ [] := by
    rw [← List.length_pos_iff]
    omega
  have hdrop : (decaySums w 0 (deltas.take (c * chunkSize))).drop (c * chunkSize + n) = [] := by
    apply List.drop_eq_nil_of_le
    rw [decaySums_length, hcount]
    omega
  unfold chunkStep
  simp only [hchunk, hlength, hscanned]
  rw [getLastD_decaySums hne, hsplit, decayTotal_append, decaySums_append,
    List.take_left' (by rw [decaySums_length, hcount]), List.drop_append, hdrop, List.nil_append,
    decaySums_length, hcount, List.drop_replicate]
  congr 3
  omega

/-- Every chunk has a real entry, and all but the last are full. -/
theorem lengths_eq {total pad n c : Nat} (hpad : pad < chunkSize)
    (htotal : total + pad = n * chunkSize) (hc : c < n) :
    (if 0 < pad then (List.replicate n chunkSize).set (n - 1) (chunkSize - pad)
      else List.replicate n chunkSize).getD c 0 = min chunkSize (total - c * chunkSize) := by
  have hstep : (c + 1) * chunkSize = c * chunkSize + chunkSize := Nat.succ_mul c chunkSize
  have hle : (c + 1) * chunkSize ≤ n * chunkSize := Nat.mul_le_mul_right _ hc
  have hin : c < (if 0 < pad then (List.replicate n chunkSize).set (n - 1) (chunkSize - pad)
      else List.replicate n chunkSize).length := by
    split
    · rwa [List.length_set, List.length_replicate]
    · rwa [List.length_replicate]
  rw [List.getD_eq_getElem _ _ hin]
  split
  · rw [List.getElem_set]
    split
    · next hlast =>
        have hn : n = c + 1 := by omega
        rw [hn] at htotal
        omega
    · next hmore =>
        have hstep' : (c + 2) * chunkSize = c * chunkSize + chunkSize + chunkSize := by
          rw [Nat.succ_mul, hstep]
        have hle' : (c + 2) * chunkSize ≤ n * chunkSize := Nat.mul_le_mul_right _ (by omega)
        rw [List.getElem_replicate]
        omega
  · rw [List.getElem_replicate]
    omega

/-- After `c` chunks the first `c * chunkSize` sums are there, and noughts behind them. -/
theorem chunkRun_eq {deltas : List K} {pad n : Nat} (hpad : pad < chunkSize)
    (htotal : deltas.length + pad = n * chunkSize) (c : Nat) (hc : c ≤ n) :
    (List.range c).foldl (chunkStep w chunkSize
        ((List.range n).map fun i =>
          ((deltas ++ List.replicate pad 0).drop (i * chunkSize)).take chunkSize)
        (if 0 < pad then (List.replicate n chunkSize).set (n - 1) (chunkSize - pad)
          else List.replicate n chunkSize))
        (List.replicate (n * chunkSize) 0, 0) =
      (decaySums w 0 (deltas.take (c * chunkSize)) ++
          List.replicate (n * chunkSize - min (c * chunkSize) deltas.length) 0,
        decayTotal w 0 (deltas.take (c * chunkSize))) := by
  induction c with
  | zero => simp [decaySums, decayTotal]
  | succ c ih =>
      have hstep : (c + 1) * chunkSize = c * chunkSize + chunkSize := Nat.succ_mul c chunkSize
      have hle : (c + 1) * chunkSize ≤ n * chunkSize := Nat.mul_le_mul_right _ hc
      have hchunk : (((List.range n).map fun i =>
          ((deltas ++ List.replicate pad 0).drop (i * chunkSize)).take chunkSize).getD c []) =
            ((deltas ++ List.replicate pad (0 : K)).drop (c * chunkSize)).take chunkSize := by
        rw [List.getD_eq_getElem _ _ (by rw [List.length_map, List.length_range]; omega),
          List.getElem_map, List.getElem_range]
      rw [List.range_succ, List.foldl_append, ih (by omega), List.foldl_cons, List.foldl_nil,
        Nat.min_eq_left (by omega : c * chunkSize ≤ deltas.length),
        chunkStep_eq hchunk (lengths_eq hpad htotal hc) ?_ (by omega) (by omega) ?_ (by omega)]
      · congr 3
        omega
      · rw [List.take_take, List.drop_append_of_le_length (by omega), Nat.min_eq_left (by omega),
          List.take_append_of_le_length (by rw [List.length_drop]; omega)]
        rw [← List.length_drop, ← List.take_take, List.take_length]
      · rw [List.length_take, List.length_drop, List.length_append, List.length_replicate]
        omega

theorem chunkedGae_eq {rewards values : List K} {gamma lambd : K} (hpos : 0 < chunkSize)
    (hlen : values.length = rewards.length) :
    chunkedGae chunkSize rewards values gamma lambd =
      .ok (gaeAdvantages rewards values gamma lambd,
        List.zipWith (· + ·) (gaeAdvantages rewards values gamma lambd) values) := by
  have hcount : (gaeDeltas rewards values gamma).reverse.length = rewards.length := by
    rw [List.length_reverse, gaeDeltas_length hlen]
  have hmod := Nat.div_add_mod rewards.length chunkSize
  have hlt := Nat.mod_lt rewards.length hpos
  have hwhole : ∃ n, rewards.length + (if rewards.length % chunkSize ≠ 0 then
        chunkSize - rewards.length % chunkSize else 0) = n * chunkSize ∧
      (if rewards.length % chunkSize ≠ 0 then chunkSize - rewards.length % chunkSize else 0) <
        chunkSize := by
    rw [Nat.mul_comm] at hmod
    split
    · refine ⟨rewards.length / chunkSize + 1, ?_, by omega⟩
      rw [Nat.succ_mul]
      omega
    · exact ⟨rewards.length / chunkSize, by omega, hpos⟩
  obtain ⟨n, htotal, hpad⟩ := hwhole
  unfold chunkedGae
  rw [check_of hlen, except_ok_bind]
  simp only [check_of hpos.ne', except_ok_bind, List.length_append, List.length_replicate, hcount]
  generalize (if rewards.length % chunkSize ≠ 0 then chunkSize - rewards.length % chunkSize
    else 0) = pad at *
  have hall : (gaeDeltas rewards values gamma).reverse.take (n * chunkSize) =
      (gaeDeltas rewards values gamma).reverse :=
    List.take_of_length_le (by omega)
  rw [htotal, Nat.mul_div_cancel _ hpos, chunkRun_eq hpad (hcount ▸ htotal) n (Nat.le_refl n),
    hall, hcount, Nat.min_eq_right (by omega), show n * chunkSize - rewards.length = pad by omega]
  have hscanned : (if 0 < pad then (decaySums (gamma * lambd) 0
        (gaeDeltas rewards values gamma).reverse ++ List.replicate pad 0).take rewards.length
      else decaySums (gamma * lambd) 0 (gaeDeltas rewards values gamma).reverse ++
        List.replicate pad 0) =
      decaySums (gamma * lambd) 0 (gaeDeltas rewards values gamma).reverse := by
    split
    · rw [List.take_left' (by rw [decaySums_length, hcount])]
    · next hzero =>
        rw [Nat.eq_zero_of_not_pos hzero, List.replicate_zero, List.append_nil]
  rw [hscanned]
  rfl

/-- **Chunks change nothing.** For every size of the chunks, `gamma * lambd = 0` and a padded
last chunk included, `chunked_gae` returns at each position the deltas from there on, in the
powers of `gamma * lambd`, and what that makes of the values. That is what `vanilla_gae`
returns, except that it cannot stack the advantages of empty rows. -/
theorem chunkedGae_vanilla (rewards values : List K) (gamma lambd : K) (chunkSize : Nat)
    (hlen : values.length = rewards.length) :
    (chunkSize = 0 → chunkedGae chunkSize rewards values gamma lambd = .error zeroModulo) ∧
    (rewards = [] → vanillaGae rewards values gamma lambd =
      .error (runtimeError "stack expects a non-empty TensorList")) ∧
    (0 < chunkSize → ∃ advantages,
      chunkedGae chunkSize rewards values gamma lambd =
          .ok (advantages, List.zipWith (· + ·) advantages values) ∧
        (rewards ≠ [] → vanillaGae rewards values gamma lambd =
          .ok (advantages, List.zipWith (· + ·) advantages values)) ∧
        advantages.length = rewards.length ∧
        ∀ t < rewards.length, advantages[t]? =
          some (∑ k ∈ Finset.range (rewards.length - t),
            (gamma * lambd) ^ k * deltaAt rewards values gamma (t + k))) := by
  refine ⟨fun hzero => ?_, fun hnil => ?_, fun hpos => ?_⟩
  · rw [chunkedGae, check_of hlen, hzero]
    rfl
  · subst hnil
    rw [List.length_eq_zero_iff.mp hlen, vanillaGae_nil]
  · exact ⟨gaeAdvantages rewards values gamma lambd, chunkedGae_eq hpos hlen,
      vanillaGae_eq hlen, gaeAdvantages_length hlen, fun t ht => gaeAdvantages_getElem hlen ht⟩

/-- Three rewards in chunks of two. -/
theorem chunkedGae_vanilla_three : ∃ advantages,
    chunkedGae 2 [(1 : ℚ), 2, 3] [1, 1, 1] 1 (1 / 2) =
        .ok (advantages, List.zipWith (· + ·) advantages [1, 1, 1]) ∧
      vanillaGae [(1 : ℚ), 2, 3] [1, 1, 1] 1 (1 / 2) =
        .ok (advantages, List.zipWith (· + ·) advantages [1, 1, 1]) ∧
      advantages.length = 3 ∧
      ∀ t < 3, advantages[t]? =
        some (∑ k ∈ Finset.range (3 - t),
          (1 * (1 / 2)) ^ k * deltaAt [1, 2, 3] [1, 1, 1] 1 (t + k)) := by
  obtain ⟨advantages, hchunked, hvanilla, hcount, hclosed⟩ :=
    (chunkedGae_vanilla [(1 : ℚ), 2, 3] [1, 1, 1] 1 (1 / 2) 2 rfl).2.2 (by decide)
  exact ⟨advantages, hchunked, hvanilla (by simp), hcount, hclosed⟩

end Chunked

end Crisp.Proofs
