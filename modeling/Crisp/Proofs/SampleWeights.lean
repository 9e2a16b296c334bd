import Crisp.Proofs.Accumulation

/-!
# The weight of a sample

Every token of a sample weighs the same in an update's objective: one over the
product of the number of ranks, the number of micro-batches of a rank and the
response tokens of the micro-batch the sample is in, once for the sample and once
more for every clone of it. The weights are fractions of naturals that do not
mention the models, and against the response lengths they sum to one.

So the objective is the mean over all tokens where every weight is one over the
number of tokens. Without clones that is the same as all micro-batches holding
equally many response tokens.
-/

namespace Crisp.Proofs

open Finset Crisp.Lib Crisp.Ref

/-- The response lengths of the padded batch. -/
def paddedTokens (nDp : Nat) (tokens : List Nat) : List Nat :=
  padLast (padCount tokens.length nDp) tokens

/-- Samples a rank receives, and micro-batches it cuts them into. -/
def rankSize (nDp : Nat) (tokens : List Nat) : Nat :=
  (paddedTokens nDp tokens).length / nDp

def rankBlocks (nDp m : Nat) (tokens : List Nat) : Nat :=
  (rankSize nDp tokens + m - 1) / m

/-- The response tokens of micro-batch `j` of rank `r`. -/
def blockTokens (nDp m : Nat) (tokens : List Nat) (r j : Nat) : Nat :=
  (microbatch m j
    (microbatch (rankSize nDp tokens) r (paddedTokens nDp tokens))).sum

/-- What a token of position `p` of the padded batch weighs. -/
def copyWeight (nDp m : Nat) (tokens : List Nat) (p : Nat) : ℚ :=
  1 / (nDp * rankBlocks nDp m tokens *
    blockTokens nDp m tokens (p / rankSize nDp tokens) (p % rankSize nDp tokens / m))

/-- What a token of sample `i` weighs, all copies of the sample together. -/
def sampleWeight (nDp m : Nat) (tokens : List Nat) (i : Nat) : ℚ :=
  ∑ p ∈ range (paddedTokens nDp tokens).length with min p (tokens.length - 1) = i,
    copyWeight nDp m tokens p

/-- Every token of the batch weighs the same. -/
def UniformWeights (nDp m : Nat) (tokens : List Nat) : Prop :=
  ∀ i < tokens.length, sampleWeight nDp m tokens i = 1 / tokens.sum

/-! ## Padding -/

section Padding

variable {α : Type} {xs : List α} {count : Nat}

theorem padLast_eq (hxs : xs ≠ []) :
    padLast count xs = xs ++ List.replicate count (xs.getLast hxs) := by
  unfold padLast
  rw [List.getLast?_eq_getLast_of_ne_nil hxs]
  simp

theorem padLast_length (hxs : xs ≠ []) :
    (padLast count xs).length = xs.length + count := by
  rw [padLast_eq hxs, List.length_append, List.length_replicate]

/-- A clone stands for the last sample. -/
theorem padLast_getElem? (hxs : xs ≠ []) {p : Nat} (hp : p < xs.length + count) :
    (padLast count xs)[p]? = xs[min p (xs.length - 1)]? := by
  rw [padLast_eq hxs]
  by_cases hfront : p < xs.length
  · rw [List.getElem?_append_left hfront, Nat.min_eq_left (by omega)]
  · have hback : p - xs.length < count := by omega
    rw [List.getElem?_append_right (by omega), List.getElem?_replicate, if_pos hback,
      Nat.min_eq_right (by omega), ← List.getLast?_eq_getElem?,
      List.getLast?_eq_getLast_of_ne_nil hxs]

/-- The padded batch divides into equal parts. -/
theorem dvd_add_padCount {n nDp : Nat} (hDp : 0 < nDp) : nDp ∣ n + padCount n nDp := by
  unfold padCount
  split
  · have hdiv := Nat.div_add_mod n nDp
    have hlt := Nat.mod_lt n hDp
    have htop : (n / nDp + 1) * nDp = nDp * (n / nDp) + nDp := by ring
    have hsum : n + ((n / nDp + 1) * nDp - n) = (n / nDp + 1) * nDp := by omega
    rw [hsum]
    exact Nat.dvd_mul_left _ _
  · next hzero => exact Nat.dvd_of_mod_eq_zero (by simpa using hzero)

theorem padCount_eq_zero {n nDp : Nat} (h : nDp ∣ n) : padCount n nDp = 0 := by
  unfold padCount
  rw [if_neg (by simpa using Nat.mod_eq_zero_of_dvd h)]

end Padding

section Weights

variable {nDp m : Nat} {tokens : List Nat}

theorem paddedTokens_length (htokens : tokens ≠ []) (hDp : 0 < nDp) :
    (paddedTokens nDp tokens).length = nDp * rankSize nDp tokens := by
  unfold rankSize
  refine (Nat.mul_div_cancel' ?_).symm
  rw [paddedTokens, padLast_length htokens]
  exact dvd_add_padCount hDp

theorem length_le_paddedTokens (htokens : tokens ≠ []) :
    tokens.length ≤ (paddedTokens nDp tokens).length := by
  rw [paddedTokens, padLast_length htokens]
  exact Nat.le_add_right _ _

theorem rankSize_pos (htokens : tokens ≠ []) (hDp : 0 < nDp) :
    0 < rankSize nDp tokens := by
  have hlen := paddedTokens_length htokens hDp
  have hle := @length_le_paddedTokens nDp tokens htokens
  have hpos := List.length_pos_iff.mpr htokens
  exact Nat.pos_of_ne_zero fun hzero => by rw [hlen, hzero] at hle; omega

/-- The slice of samples behind `blockTokens`. -/
def block {α : Type} (nDp m : Nat) (xs : List α) (r j : Nat) : List α :=
  let padded := padLast (padCount xs.length nDp) xs
  microbatch m j (microbatch (padded.length / nDp) r padded)

theorem block_map {α β : Type} {f : α → β} {xs : List α} {r j : Nat} :
    block nDp m (xs.map f) r j = (block nDp m xs r j).map f := by
  unfold block
  simp only [List.length_map, padLast_map, microbatch_map]

theorem blockTokens_eq {r j : Nat} :
    blockTokens nDp m tokens r j = (block nDp m tokens r j).sum := rfl

/-- The weights an objective gives its samples. -/
theorem sum_blocks_eq_weighted {α : Type} {f : α → ℝ} {count : α → Nat} {xs : List α}
    (hxs : xs ≠ []) (hDp : 0 < nDp) (hm : 0 < m) :
    (∑ r ∈ range nDp, ∑ j ∈ range (rankBlocks nDp m (xs.map count)),
        ((block nDp m xs r j).map f).sum /
          (((block nDp m xs r j).map count).sum : Nat) /
            (rankBlocks nDp m (xs.map count) : Nat)) / nDp =
      ∑ i ∈ range xs.length, (sampleWeight nDp m (xs.map count) i : ℝ) *
        valueAt f xs i := by
  have htokens : xs.map count ≠ [] := by simpa using hxs
  let padded := padLast (padCount xs.length nDp) xs
  let size := rankSize nDp (xs.map count)
  let blocks := rankBlocks nDp m (xs.map count)
  let w : Nat → Nat → ℝ := fun r j =>
    ((1 / (nDp * blocks * blockTokens nDp m (xs.map count) r j) : ℚ) : ℝ)
  have hpaddedTokens : paddedTokens nDp (xs.map count) = padded.map count := by
    rw [paddedTokens, List.length_map, padLast_map]
  have hsize : padded.length / nDp = size := by
    rw [← @List.length_map _ _ padded count, ← hpaddedTokens]
    rfl
  have hlen : padded.length = nDp * size := by
    rw [← @List.length_map _ _ padded count, ← hpaddedTokens]
    exact paddedTokens_length htokens hDp
  have hcopies : ∀ p ∈ range padded.length, min p (xs.length - 1) ∈ range xs.length := by
    intro p _
    have := List.length_pos_iff.mpr hxs
    exact mem_range.mpr (by omega)
  calc (∑ r ∈ range nDp, ∑ j ∈ range blocks, ((block nDp m xs r j).map f).sum /
          (((block nDp m xs r j).map count).sum : Nat) / (blocks : Nat)) / nDp
      = ∑ r ∈ range nDp, ∑ j ∈ range blocks,
          w r j * ((microbatch m j (microbatch size r padded)).map f).sum := by
        rw [sum_div]
        refine sum_congr rfl fun r _ => ?_
        rw [sum_div]
        refine sum_congr rfl fun j _ => ?_
        have hblock : block nDp m xs r j = microbatch m j (microbatch size r padded) := by
          rw [block, hsize]
        simp only [w, Rat.cast_div, Rat.cast_mul, Rat.cast_natCast, Rat.cast_one]
        rw [blockTokens_eq, block_map, ← hblock]
        ring
    _ = ∑ p ∈ range padded.length, w (p / size) (p % size / m) * valueAt f padded p :=
        sum_nested_slices hlen (le_ceil_mul hm)
    _ = ∑ p ∈ range padded.length, (copyWeight nDp m (xs.map count) p : ℝ) *
          valueAt f xs (min p (xs.length - 1)) := by
        refine sum_congr rfl fun p hp => ?_
        have hp := mem_range.mp hp
        rw [padLast_length hxs] at hp
        rw [valueAt, padLast_getElem? hxs hp]
        rfl
    _ = ∑ i ∈ range xs.length, ∑ p ∈ range padded.length with min p (xs.length - 1) = i,
          (copyWeight nDp m (xs.map count) p : ℝ) *
            valueAt f xs (min p (xs.length - 1)) := (sum_fiberwise_of_maps_to hcopies _).symm
    _ = ∑ i ∈ range xs.length, (sampleWeight nDp m (xs.map count) i : ℝ) *
          valueAt f xs i := by
        refine sum_congr rfl fun i _ => ?_
        rw [sampleWeight, hpaddedTokens, List.length_map, List.length_map, Rat.cast_sum,
          sum_mul]
        refine sum_congr rfl fun p hp => ?_
        rw [(mem_filter.mp hp).2]

/-! ## Weights against the response lengths -/

theorem blockTokens_pos (htokens : tokens ≠ []) (hDp : 0 < nDp)
    (hpos : ∀ t ∈ tokens, 0 < t) {r j : Nat} (hr : r < nDp)
    (hj : j < rankBlocks nDp m tokens) : 0 < blockTokens nDp m tokens r j := by
  let part := microbatch (rankSize nDp tokens) r (paddedTokens nDp tokens)
  have hpart : part.length = rankSize nDp tokens := by
    refine microbatch_length ?_
    rw [paddedTokens_length htokens hDp]
    exact Nat.mul_le_mul_right _ hr
  have hstart : j * m < rankSize nDp tokens := run_start_lt hj
  have hm : 0 < m := by
    refine Nat.pos_of_ne_zero fun hzero => ?_
    rw [rankBlocks, hzero, Nat.div_zero] at hj
    exact absurd hj (Nat.not_lt_zero j)
  have hfirst : part[j * m] ∈ microbatch m j part := by
    have hzero : (microbatch m j part)[0]? = some part[j * m] := by
      rw [microbatch_getElem? hm, Nat.add_zero, List.getElem?_eq_getElem]
    exact List.mem_of_getElem? hzero
  have hmem : part[j * m] ∈ tokens :=
    mem_padLast (mem_of_mem_microbatch (mem_of_mem_microbatch hfirst))
  exact Nat.lt_of_lt_of_le (hpos _ hmem) (List.le_sum_of_mem hfirst)

/-- Every position of the padded batch is in a micro-batch of a rank. -/
theorem position_block (htokens : tokens ≠ []) (hDp : 0 < nDp) (hm : 0 < m) {p : Nat}
    (hp : p < (paddedTokens nDp tokens).length) :
    p / rankSize nDp tokens < nDp ∧
      p % rankSize nDp tokens / m < rankBlocks nDp m tokens := by
  have hsize := rankSize_pos htokens hDp
  rw [paddedTokens_length htokens hDp] at hp
  constructor
  · exact Nat.div_lt_of_lt_mul (by rwa [Nat.mul_comm] at hp)
  · refine Nat.div_lt_of_lt_mul ?_
    rw [Nat.mul_comm]
    exact Nat.lt_of_lt_of_le (Nat.mod_lt _ hsize) (le_ceil_mul hm)

theorem sampleWeight_pos (htokens : tokens ≠ []) (hDp : 0 < nDp) (hm : 0 < m)
    (hpos : ∀ t ∈ tokens, 0 < t) {i : Nat} (hi : i < tokens.length) :
    0 < sampleWeight nDp m tokens i := by
  refine sum_pos (fun p hp => ?_) ⟨i, ?_⟩
  · obtain ⟨hr, hj⟩ :=
      position_block htokens hDp hm (mem_range.mp (mem_filter.mp hp).1)
    have htotal := blockTokens_pos htokens hDp hpos hr hj
    have hblocks : 0 < rankBlocks nDp m tokens := Nat.zero_lt_of_lt hj
    unfold copyWeight
    positivity
  · rw [mem_filter, mem_range]
    exact ⟨hi.trans_le (length_le_paddedTokens htokens), by omega⟩

theorem valueAt_natCast {i : Nat} :
    valueAt (Nat.cast : Nat → ℝ) tokens i = (tokens.getD i 0 : Nat) := by
  rw [valueAt, List.getD_eq_getElem?_getD]
  cases tokens[i]? with
  | none => simp
  | some t => rfl

/-- The objective is a mean: over all tokens the weights sum to one. -/
theorem sum_sampleWeight (htokens : tokens ≠ []) (hDp : 0 < nDp) (hm : 0 < m)
    (hpos : ∀ t ∈ tokens, 0 < t) :
    ∑ i ∈ range tokens.length,
      sampleWeight nDp m tokens i * (tokens.getD i 0 : Nat) = 1 := by
  have hblocks : 0 < rankBlocks nDp m tokens :=
    Nat.zero_lt_of_lt (position_block htokens hDp hm
      ((List.length_pos_iff.mpr htokens).trans_le (length_le_paddedTokens htokens))).2
  have hweighted := @sum_blocks_eq_weighted nDp m Nat (Nat.cast : Nat → ℝ) id tokens
    htokens hDp hm
  rw [List.map_id] at hweighted
  have hmean : ∀ r ∈ range nDp, ∑ j ∈ range (rankBlocks nDp m tokens),
      ((block nDp m tokens r j).map (Nat.cast : Nat → ℝ)).sum /
        (((block nDp m tokens r j).map id).sum : Nat) /
          (rankBlocks nDp m tokens : Nat) = 1 := by
    intro r hr
    have hterm : ∀ j ∈ range (rankBlocks nDp m tokens),
        ((block nDp m tokens r j).map (Nat.cast : Nat → ℝ)).sum /
          (((block nDp m tokens r j).map id).sum : Nat) /
            (rankBlocks nDp m tokens : Nat) = 1 / (rankBlocks nDp m tokens : Nat) := by
      intro j hj
      have htotal := blockTokens_pos htokens hDp hpos (mem_range.mp hr) (mem_range.mp hj)
      rw [blockTokens_eq] at htotal
      rw [List.map_id, ← Nat.cast_list_sum, div_self (by positivity)]
    rw [sum_congr rfl hterm, sum_const, card_range, nsmul_eq_mul,
      mul_one_div_cancel (by positivity)]
  rw [sum_congr rfl hmean, sum_const, card_range, nsmul_eq_mul, mul_one,
    div_self (by positivity)] at hweighted
  simp only [valueAt_natCast] at hweighted
  exact_mod_cast hweighted.symm

/-! ## Uniform weights -/

theorem paddedTokens_of_dvd (hdvd : nDp ∣ tokens.length) :
    paddedTokens nDp tokens = tokens := by
  rw [paddedTokens, padCount_eq_zero hdvd, padLast_zero]

/-- Without clones a sample is at one position. -/
theorem sampleWeight_of_dvd (hdvd : nDp ∣ tokens.length) {i : Nat}
    (hi : i < tokens.length) :
    sampleWeight nDp m tokens i = copyWeight nDp m tokens i := by
  have hsingle : (range tokens.length).filter (fun p => min p (tokens.length - 1) = i) =
      {i} := by
    ext p
    rw [mem_filter, mem_range, mem_singleton]
    omega
  rw [sampleWeight, paddedTokens_of_dvd hdvd, hsingle, sum_singleton]

/-- Without clones, every token weighs the same exactly when the micro-batches of
all ranks hold equally many response tokens. -/
theorem uniformWeights_iff (htokens : tokens ≠ []) (hDp : 0 < nDp) (hm : 0 < m)
    (hdvd : nDp ∣ tokens.length) :
    UniformWeights nDp m tokens ↔ ∀ r < nDp, ∀ j < rankBlocks nDp m tokens,
      nDp * rankBlocks nDp m tokens * blockTokens nDp m tokens r j = tokens.sum := by
  have hlen : tokens.length = nDp * rankSize nDp tokens := by
    have := paddedTokens_length htokens hDp
    rwa [paddedTokens_of_dvd hdvd] at this
  have hcopy : ∀ p, copyWeight nDp m tokens p = 1 / tokens.sum ↔
      nDp * rankBlocks nDp m tokens *
        blockTokens nDp m tokens (p / rankSize nDp tokens)
          (p % rankSize nDp tokens / m) = tokens.sum := by
    intro p
    rw [copyWeight, one_div, one_div, inv_inj]
    exact_mod_cast Iff.rfl
  constructor
  · intro huniform r hr j hj
    have hstart : j * m < rankSize nDp tokens := run_start_lt hj
    have hposition : r * rankSize nDp tokens + j * m < tokens.length := by
      have := Nat.mul_le_mul_right (rankSize nDp tokens) (Nat.succ_le_of_lt hr)
      rw [Nat.succ_mul] at this
      omega
    have hweight := huniform _ hposition
    rw [sampleWeight_of_dvd hdvd hposition, hcopy, run_div hstart,
      Nat.mul_add_mod_of_lt hstart, Nat.mul_div_cancel _ hm] at hweight
    exact hweight
  · intro hblocks i hi
    have hi' : i < (paddedTokens nDp tokens).length := by rwa [paddedTokens_of_dvd hdvd]
    obtain ⟨hr, hj⟩ := position_block htokens hDp hm hi'
    rw [sampleWeight_of_dvd hdvd hi, hcopy]
    exact hblocks _ hr _ hj

/-- One micro-batch on the unpadded batch is the mean over all tokens. -/
theorem uniformWeights_whole (htokens : tokens ≠ []) :
    UniformWeights 1 tokens.length tokens := by
  have hpos := List.length_pos_iff.mpr htokens
  have hsize : rankSize 1 tokens = tokens.length := by
    rw [rankSize, paddedTokens_of_dvd (Nat.one_dvd _), Nat.div_one]
  have hblocks : rankBlocks 1 tokens.length tokens = 1 := by
    rw [rankBlocks, hsize]
    exact Nat.div_eq_of_lt_le (by omega) (by omega)
  refine (uniformWeights_iff htokens (by decide) hpos (Nat.one_dvd _)).mpr ?_
  intro r hr j hj
  rw [hblocks] at hj
  obtain rfl : r = 0 := by omega
  obtain rfl : j = 0 := by omega
  rw [hblocks, blockTokens, hsize, paddedTokens_of_dvd (Nat.one_dvd _)]
  simp [microbatch]

/-- Responses of one length, with sizes that divide, weigh the same. -/
theorem uniformWeights_of_equal (htokens : tokens ≠ []) (hDp : 0 < nDp) (hm : 0 < m)
    (hdvd : nDp ∣ tokens.length) (hm_dvd : m ∣ tokens.length / nDp) {length : Nat}
    (hequal : ∀ t ∈ tokens, t = length) : UniformWeights nDp m tokens := by
  have hsize : rankSize nDp tokens = tokens.length / nDp := by
    rw [rankSize, paddedTokens_of_dvd hdvd]
  obtain ⟨q, hq⟩ := hm_dvd
  obtain ⟨s, hs⟩ := hdvd
  have hdiv : tokens.length / nDp = s := by rw [hs, Nat.mul_div_cancel_left _ hDp]
  have hblocks : rankBlocks nDp m tokens = q := by
    rw [rankBlocks, hsize, hq]
    exact Nat.div_eq_of_lt_le (by rw [Nat.mul_comm]; omega)
      (by rw [Nat.succ_mul, Nat.mul_comm q]; omega)
  refine (uniformWeights_iff htokens hDp hm ⟨s, hs⟩).mpr ?_
  intro r hr j hj
  rw [hblocks] at hj ⊢
  let part := microbatch (rankSize nDp tokens) r (paddedTokens nDp tokens)
  have hpart : part.length = m * q := by
    rw [← hq, ← hsize]
    refine microbatch_length ?_
    rw [paddedTokens_length htokens hDp]
    exact Nat.mul_le_mul_right _ hr
  have hrun : (microbatch m j part).length = m := by
    refine microbatch_length ?_
    rw [hpart, Nat.mul_comm m]
    exact Nat.mul_le_mul_right _ hj
  have hall : ∀ t ∈ microbatch m j part, t = length := fun t ht =>
    hequal t (mem_padLast (mem_of_mem_microbatch (mem_of_mem_microbatch ht)))
  rw [blockTokens, List.sum_eq_card_nsmul _ length hall, hrun,
    List.sum_eq_card_nsmul _ length hequal, hs, ← hdiv, hq, smul_eq_mul, smul_eq_mul]
  ring

end Weights

/-! ## The objective -/

section Objective

variable {V : Nat} {tok : Tokenizer} {config : StepConfig} {lossFn : LossFn V}
  {tokenLoss : (Fin V → ℝ) → (Fin V → ℝ) → ℝ}
  {refModule actorModule : ForwardModel (Fin V → ℝ)}
  {refOut actorOut : List Int → Nat → Fin V → ℝ}

theorem updateObjective_weighted (unpad : UnpadInput)
    (h : StepReads config lossFn tokenLoss refModule actorModule refOut actorOut)
    {nDp m : Nat} (hDp : 0 < nDp) (hm : 0 < m) {kept : List (KeptSample tok)}
    (hne : kept ≠ []) (hkept : ∀ k ∈ kept, k.Prompted) :
    updateObjective config unpad refModule actorModule nDp m (batchOf kept) =
      .ok (∑ i ∈ range kept.length,
        (sampleWeight nDp m (kept.map KeptSample.tokens) i : ℝ) *
          valueAt (sampleLoss tokenLoss refOut actorOut) kept i) := by
  let padded := padLast (padCount kept.length nDp) kept
  have htokens : kept.map KeptSample.tokens ≠ [] := by simpa using hne
  have hpadded : paddedTokens nDp (kept.map KeptSample.tokens) =
      padded.map KeptSample.tokens := by
    rw [paddedTokens, List.length_map, padLast_map]
  have hsize : rankSize nDp (kept.map KeptSample.tokens) = padded.length / nDp := by
    rw [rankSize, hpadded, List.length_map]
  have hpart : ∀ r ∈ range nDp, (microbatch (padded.length / nDp) r padded).length =
      padded.length / nDp := by
    intro r hr
    have hlen := paddedTokens_length htokens hDp
    rw [hpadded, List.length_map, hsize] at hlen
    refine microbatch_length ?_
    calc (r + 1) * (padded.length / nDp)
        ≤ nDp * (padded.length / nDp) := Nat.mul_le_mul_right _ (mem_range.mp hr)
      _ = padded.length := hlen.symm
  rw [updateObjective_eq unpad h hm hkept, ← sum_blocks_eq_weighted hne hDp hm]
  refine congrArg (fun total => Except.ok (total / (nDp : ℝ))) ?_
  refine sum_congr rfl fun r hr => ?_
  rw [hpart r hr, rankBlocks, hsize]
  rfl

/-- A sample on its own: its mean token loss. -/
theorem opsdTrainingStep_single (unpad : UnpadInput)
    (h : StepReads config lossFn tokenLoss refModule actorModule refOut actorOut)
    {k : KeptSample tok} (hk : k.Prompted) :
    opsdTrainingStep config unpad refModule actorModule 1 (batchOf [k]) =
      .ok (sampleLoss tokenLoss refOut actorOut k / k.tokens) := by
  rw [opsdTrainingStep_eq unpad h Nat.one_pos (by simpa using hk)]
  simp [microbatch, meanLoss]

theorem responseTokens_batchOf {kept : List (KeptSample tok)} :
    (batchOf kept).student.lossMask.map List.sum = kept.map KeptSample.tokens := by
  simp only [batchOf, columnsOf_lossMask, List.map_map]
  refine List.map_congr_left fun k _ => ?_
  simp [Row.sequence, KeptSample.tokens]

theorem updateObjective_means (unpad : UnpadInput)
    (h : StepReads config lossFn tokenLoss refModule actorModule refOut actorOut)
    {nDp m : Nat} (hDp : 0 < nDp) (hm : 0 < m) {kept : List (KeptSample tok)}
    (hne : kept ≠ []) (hkept : ∀ k ∈ kept, k.Prompted) :
    ∃ mean : Nat → ℝ,
      (∀ i < kept.length, opsdTrainingStep config unpad refModule actorModule 1
        ((batchOf kept).microBatch 1 i) = .ok (mean i)) ∧
      updateObjective config unpad refModule actorModule nDp m (batchOf kept) =
        .ok (∑ i ∈ range kept.length,
          (sampleWeight nDp m (kept.map KeptSample.tokens) i : ℝ) *
            (((kept.map KeptSample.tokens).getD i 0 : Nat) * mean i)) := by
  let tokens : Nat → Nat := fun i => (kept.map KeptSample.tokens).getD i 0
  have htokens : ∀ {i} (hi : i < kept.length), tokens i = kept[i].tokens := by
    intro i hi
    simp only [tokens]
    rw [List.getD_eq_getElem?_getD, List.getElem?_map, List.getElem?_eq_getElem hi]
    rfl
  refine ⟨fun i => valueAt (sampleLoss tokenLoss refOut actorOut) kept i / tokens i,
    ?_, ?_⟩
  · intro i hi
    have hsingle : microbatch 1 i kept = [kept[i]] := by
      rw [microbatch, Nat.mul_one, List.drop_eq_getElem_cons hi]
      rfl
    dsimp only
    rw [batchOf_microBatch, hsingle,
      opsdTrainingStep_single unpad h (hkept _ (List.getElem_mem hi)),
      valueAt_eq (List.getElem?_eq_getElem hi), htokens hi]
  · rw [updateObjective_weighted unpad h hDp hm hne hkept]
    refine congrArg Except.ok (sum_congr rfl fun i hi => ?_)
    have hpos : 0 < tokens i := by
      rw [htokens (mem_range.mp hi)]
      exact KeptSample.tokens_pos _
    have hcast : (tokens i : ℝ) ≠ 0 := by exact_mod_cast hpos.ne'
    rw [mul_div_cancel₀ _ hcast]

/-- Where the weights are uniform the update is the one of a single micro-batch
on the unpadded batch. -/
theorem updateObjective_of_uniform (unpad : UnpadInput)
    (h : StepReads config lossFn tokenLoss refModule actorModule refOut actorOut)
    {nDp m : Nat} (hDp : 0 < nDp) (hm : 0 < m) {kept : List (KeptSample tok)}
    (hne : kept ≠ []) (hkept : ∀ k ∈ kept, k.Prompted)
    (huniform : UniformWeights nDp m (kept.map KeptSample.tokens)) :
    updateObjective config unpad refModule actorModule nDp m (batchOf kept) =
      updateObjective config unpad refModule actorModule 1 kept.length (batchOf kept) := by
  have hlength : (kept.map KeptSample.tokens).length = kept.length := List.length_map _
  have htokens : kept.map KeptSample.tokens ≠ [] := by simpa using hne
  have hwhole := uniformWeights_whole htokens
  rw [hlength] at hwhole
  rw [updateObjective_weighted unpad h hDp hm hne hkept,
    updateObjective_weighted unpad h Nat.one_pos (List.length_pos_iff.mpr hne) hne hkept]
  refine congrArg Except.ok (sum_congr rfl fun i hi => ?_)
  have hi : i < (kept.map KeptSample.tokens).length := hlength ▸ mem_range.mp hi
  rw [huniform i hi, hwhole i hi]

/-- A batch that is built is a batch of kept samples. -/
theorem batchOf_of_build {maxLength : Int}
    {teacherPrompts studentPrompts responses : List String} {batch : OpsdBatch}
    (hteacher : ∀ p ∈ teacherPrompts, tok.applyChatTemplate p ≠ .ok [])
    (hstudent : ∀ p ∈ studentPrompts, tok.applyChatTemplate p ≠ .ok [])
    (hbatch : buildOpsdBatch teacherPrompts studentPrompts responses tok maxLength =
      .ok (some batch)) :
    ∃ kept : List (KeptSample tok), kept ≠ [] ∧ (∀ k ∈ kept, k.Prompted) ∧
      batch = batchOf kept := by
  obtain ⟨kept, hsub, hteacherCols, hstudentCols⟩ := buildOpsdBatch_some hbatch
  refine ⟨kept, ?_, ?_, ?_⟩
  · rintro rfl
    refine buildOpsdBatch_batchSize_ne hbatch ?_
    rw [OpsdBatch.batchSize, hstudentCols]
    rfl
  · intro k hk
    obtain ⟨ht, hs⟩ := mem_zipSamples (hsub.subset (List.mem_map.mpr ⟨k, hk, rfl⟩))
    exact ⟨fun hnil => hteacher _ ht (hnil ▸ k.teacher_prompt),
      fun hnil => hstudent _ hs (hnil ▸ k.student_prompt)⟩
  · cases batch with
    | mk teacher student =>
        cases hteacherCols
        cases hstudentCols
        rfl

/-- **What an update differentiates.** The mean over the ranks is a weighted mean
of the samples' own mean losses, with weights that do not depend on either model:
every one is positive and against the response lengths they sum to one. Where they
are uniform the micro-batch size and the number of ranks are immaterial. Without
padding that is so exactly when all micro-batches hold equally many response
tokens, which responses of one length do when the sizes divide. -/
theorem accumulated_objective {maxLength : Int}
    {teacherPrompts studentPrompts responses : List String} {batch : OpsdBatch}
    (hteacher : ∀ p ∈ teacherPrompts, tok.applyChatTemplate p ≠ .ok [])
    (hstudent : ∀ p ∈ studentPrompts, tok.applyChatTemplate p ≠ .ok [])
    (hbatch : buildOpsdBatch teacherPrompts studentPrompts responses tok maxLength =
      .ok (some batch))
    (hloss : config.lossFn = .ok lossFn) (hreference : RowLocal refModule refOut)
    (unpad : UnpadInput) {nDp m : Nat} (hDp : 0 < nDp) (hm : 0 < m) :
    let n := batch.batchSize
    let tokens := batch.student.lossMask.map List.sum
    (∀ actorModule actorOut, RowLocal actorModule actorOut →
      ∃ mean : Nat → ℝ,
        (∀ i < n, opsdTrainingStep config unpad refModule actorModule 1
          (batch.microBatch 1 i) = .ok (mean i)) ∧
        updateObjective config unpad refModule actorModule nDp m batch =
          .ok (∑ i ∈ range n, (sampleWeight nDp m tokens i : ℝ) *
            ((tokens.getD i 0 : Nat) * mean i))) ∧
    (∀ i < n, 0 < sampleWeight nDp m tokens i) ∧
    ∑ i ∈ range n, sampleWeight nDp m tokens i * (tokens.getD i 0 : Nat) = 1 ∧
    (UniformWeights nDp m tokens → ∀ actorModule actorOut, RowLocal actorModule actorOut →
      updateObjective config unpad refModule actorModule nDp m batch =
        updateObjective config unpad refModule actorModule 1 n batch) ∧
    (nDp ∣ n → (UniformWeights nDp m tokens ↔
      ∀ r < nDp, ∀ j < rankBlocks nDp m tokens,
        nDp * rankBlocks nDp m tokens * blockTokens nDp m tokens r j = tokens.sum)) ∧
    (∀ length, nDp ∣ n → m ∣ n / nDp → (∀ t ∈ tokens, t = length) →
      UniformWeights nDp m tokens) := by
  obtain ⟨kept, hne, hkept, rfl⟩ := batchOf_of_build hteacher hstudent hbatch
  obtain ⟨tokenLoss, hmean⟩ := lossFn_mean hloss
  intro n tokens
  have hn : n = kept.length := batchOf_batchSize
  have htokens : tokens = kept.map KeptSample.tokens := responseTokens_batchOf
  have hlength : tokens.length = n := by rw [htokens, hn, List.length_map]
  have htokensNe : tokens ≠ [] := by
    rw [htokens]
    simpa using hne
  have hpos : ∀ t ∈ tokens, 0 < t := by
    intro t ht
    rw [htokens] at ht
    obtain ⟨k, -, rfl⟩ := List.mem_map.mp ht
    exact k.tokens_pos
  refine ⟨?_, ?_, ?_, ?_, ?_, ?_⟩
  · intro actorModule actorOut hactor
    rw [hn, htokens]
    exact updateObjective_means unpad ⟨hreference, hactor, hloss, hmean⟩ hDp hm hne hkept
  · exact fun i hi => sampleWeight_pos htokensNe hDp hm hpos (hlength ▸ hi)
  · rw [← hlength]
    exact sum_sampleWeight htokensNe hDp hm hpos
  · intro huniform actorModule actorOut hactor
    rw [hn]
    rw [htokens] at huniform
    exact updateObjective_of_uniform unpad ⟨hreference, hactor, hloss, hmean⟩ hDp hm hne
      hkept huniform
  · exact fun hdvd => uniformWeights_iff htokensNe hDp hm (hlength ▸ hdvd)
  · exact fun length hdvd hmdvd hequal =>
      uniformWeights_of_equal htokensNe hDp hm (hlength ▸ hdvd) (hlength ▸ hmdvd) hequal

end Objective

/-! ## Unequal responses -/

section Uneven

variable {Λ : Type}

/-- A model whose logits at a position depend on the token there. -/
def pointwiseModel (f : Int → Λ) : ForwardModel Λ :=
  { padded := fun inputIds _ _ => inputIds.map (List.map f)
    packed := fun inputIds _ => inputIds.map f }

theorem map_range_getD {ids : List Int} {f : Int → Λ} :
    (List.range ids.length).map (fun t => f (ids.getD t 0)) = ids.map f := by
  refine List.ext_getElem (by simp) fun t h _ => ?_
  have ht : t < ids.length := by simpa using h
  simp [ht]

theorem pointwiseModel_local (f : Int → Λ) :
    RowLocal (pointwiseModel f) fun ids t => f (ids.getD t 0) := by
  constructor
  · intro rows
    refine ⟨fun i t => f (((rows[i]?.map fun row => row.sequence.inputIds).getD []).getD t 0),
      ?_, ?_⟩
    · refine List.ext_getElem (by simp [pointwiseModel, outputGrid]) fun i h _ => ?_
      have hi : i < rows.length := by simpa [pointwiseModel] using h
      simp only [pointwiseModel, outputGrid, columnsOf_inputIds, List.getElem_map,
        List.getElem_mapIdx, List.getElem?_eq_getElem hi, Option.map_some,
        Option.getD_some]
      exact map_range_getD.symm
    · intro i row hrow t ht
      have hids : row.sequence.inputIds = row.attended ++ row.padding := by
        rw [Row.attended, List.append_assoc]
        rfl
      simp only [hrow, Option.map_some, Option.getD_some, hids,
        List.getD_eq_getElem?_getD, List.getElem?_append_left ht]
  · intro rows
    simp only [pointwiseModel, map_range_getD, List.map_flatMap]

/-- One prompt for all, and a response that is its closing token or one more. -/
def unevenTokenizer : Tokenizer :=
  { applyChatTemplate := fun _ => .ok [7]
    encode := fun response => if response = "long" then [5] else []
    eosTokenId := some 2
    padTokenId := some 0 }

/-- Two rows of three, both sides alike. -/
def pairBatch (columns : SequenceColumns) : OpsdBatch :=
  { teacher := columns, student := columns }

/-- A response of one token beside a response of two. -/
def unevenBatch : OpsdBatch :=
  pairBatch
    { inputIds := [[7, 2, 0], [7, 5, 2]]
      attentionMask := [[1, 1, 0], [1, 1, 1]]
      positionIds := [[0, 1, 0], [0, 1, 2]]
      lossMask := [[0, 1, 0], [0, 1, 1]] }

/-- Two responses of two tokens. -/
def evenBatch : OpsdBatch :=
  pairBatch
    { inputIds := [[7, 5, 2], [7, 5, 2]]
      attentionMask := [[1, 1, 1], [1, 1, 1]]
      positionIds := [[0, 1, 2], [0, 1, 2]]
      lossMask := [[0, 1, 1], [0, 1, 1]] }

/-- The teacher departs from the student behind the token the longer response
has more. -/
noncomputable def unevenTeacher : ForwardModel (Fin 2 → ℝ) :=
  pointwiseModel fun id => if id = 5 then ![Real.log 3, 0] else ![0, 0]

noncomputable def unevenStudent : ForwardModel (Fin 2 → ℝ) :=
  pointwiseModel fun _ => ![0, 0]

noncomputable def unevenConfig : StepConfig :=
  { useRemovePadding := true, useLiger := false, lossType := .reverseKl, beta := 1 / 2 }

/-- Equal responses make the update transparent. -/
theorem accumulated_objective_evenBatch :
    updateObjective unevenConfig UnpadInput.rowMajor unevenTeacher unevenStudent 2 1
        evenBatch =
      updateObjective unevenConfig UnpadInput.rowMajor unevenTeacher unevenStudent 1 2
        evenBatch := by
  have hbuilt : buildOpsdBatch ["hint", "hint"] ["plain", "plain"] ["long", "long"]
      unevenTokenizer 3 = .ok (some evenBatch) := rfl
  have hprompts : ∀ p, unevenTokenizer.applyChatTemplate p ≠ .ok [] := by
    intro p
    simp [unevenTokenizer]
  have hloss : @StepConfig.lossFn 2 unevenConfig = .ok (computeReverseKlLoss (1 / 2)) :=
    rfl
  have hobjective := accumulated_objective (fun p _ => hprompts p) (fun p _ => hprompts p)
    hbuilt hloss (pointwiseModel_local fun id => if id = 5 then ![Real.log 3, 0] else ![0, 0])
    UnpadInput.rowMajor (by decide : 0 < 2) (by decide : 0 < 1)
  obtain ⟨-, -, -, htransparent, -, hequal⟩ := hobjective
  exact htransparent (hequal 2 ⟨1, rfl⟩ ⟨1, rfl⟩ (by decide)) _ _ (pointwiseModel_local _)

def shortSample : KeptSample unevenTokenizer :=
  { sample := ⟨"hint", "plain", "short"⟩
    teacher := ⟨[7], [2], [0]⟩
    student := ⟨[7], [2], [0]⟩
    teacher_prompt := rfl
    student_prompt := rfl
    teacher_response := rfl
    student_response := rfl }

def longSample : KeptSample unevenTokenizer :=
  { sample := ⟨"hint", "plain", "long"⟩
    teacher := ⟨[7], [5, 2], []⟩
    student := ⟨[7], [5, 2], []⟩
    teacher_prompt := rfl
    student_prompt := rfl
    teacher_response := rfl
    student_response := rfl }

/-- The loss behind the token the two models disagree on. -/
noncomputable def unevenLoss : ℝ := @reverseKlToken 2 ![Real.log 3, 0] ![0, 0]

theorem unevenLoss_pos : 0 < unevenLoss := by
  have hteacher : logSumExp (![Real.log 3, 0] : Fin 2 → ℝ) = Real.log 4 := by
    simp [logSumExp, Fin.sum_univ_two, Real.exp_log]
    norm_num
  have hstudent : logSumExp (![0, 0] : Fin 2 → ℝ) = Real.log 2 := by
    simp [logSumExp, Fin.sum_univ_two]
    norm_num
  have hhalf : Real.exp (-Real.log 2) = 1 / 2 := by
    rw [Real.exp_neg, Real.exp_log (by norm_num)]
    norm_num
  have hfour : Real.log 4 = 2 * Real.log 2 := by
    rw [show (4 : ℝ) = 2 ^ 2 by norm_num, Real.log_pow]
    norm_num
  have hlt : Real.log 3 < Real.log 4 := Real.log_lt_log (by norm_num) (by norm_num)
  have hvalue : unevenLoss = Real.log 4 - Real.log 2 - Real.log 3 / 2 := by
    simp only [unevenLoss, reverseKlToken, Fin.sum_univ_two, logSoftmax, hteacher, hstudent,
      Matrix.cons_val_zero, Matrix.cons_val_one, zero_sub, hhalf]
    ring
  rw [hvalue]
  linarith

theorem reverseKlToken_self {V : Nat} (x : Fin V → ℝ) : reverseKlToken x x = 0 := by
  simp [reverseKlToken]

/-- Only the longer response contributes. -/
theorem updateObjective_unevenBatch {nDp m : Nat} (hDp : 0 < nDp) (hm : 0 < m) :
    updateObjective unevenConfig UnpadInput.rowMajor unevenTeacher unevenStudent nDp m
        unevenBatch = .ok ((sampleWeight nDp m [1, 2] 1 : ℝ) * unevenLoss) := by
  have hreads : StepReads unevenConfig (computeReverseKlLoss (1 / 2)) reverseKlToken
      unevenTeacher unevenStudent
      (fun ids t => if ids.getD t 0 = 5 then ![Real.log 3, 0] else ![0, 0])
      (fun _ _ => ![0, 0]) :=
    { reference := pointwiseModel_local _
      actor := pointwiseModel_local _
      loss := rfl
      mean := chunkedMean_mean 128 (by decide) }
  have hbatch : unevenBatch = batchOf [shortSample, longSample] := rfl
  have hprompted : ∀ k ∈ [shortSample, longSample], k.Prompted := by
    simp [KeptSample.Prompted, shortSample, longSample]
  rw [hbatch, updateObjective_weighted UnpadInput.rowMajor hreads hDp hm (by simp) hprompted]
  refine congrArg Except.ok ?_
  have htokens : [shortSample, longSample].map KeptSample.tokens = [1, 2] := rfl
  have hshort : sampleLoss reverseKlToken
      (fun ids t => if ids.getD t 0 = 5 then ![Real.log 3, 0] else ![0, 0])
      (fun _ _ => ![0, 0]) shortSample = 0 := by
    simp [sampleLoss, responseOutputs, shortSample, Row.attended, reverseKlToken_self,
      List.range_succ]
  have hlong : sampleLoss reverseKlToken
      (fun ids t => if ids.getD t 0 = 5 then ![Real.log 3, 0] else ![0, 0])
      (fun _ _ => ![0, 0]) longSample = unevenLoss := by
    simp [sampleLoss, responseOutputs, longSample, Row.attended, reverseKlToken_self,
      List.range_succ, unevenLoss]
  have hfirst : [shortSample, longSample][0]? = some shortSample := rfl
  have hsecond : [shortSample, longSample][1]? = some longSample := rfl
  rw [htokens, List.length_cons, List.length_singleton, sum_range_succ, sum_range_one,
    valueAt_eq hfirst, valueAt_eq hsecond, hshort, hlong, mul_zero, zero_add]

/-- The micro-batch size and the number of ranks change the update: one response
of one token and one of two, where the losses are in the second. -/
theorem accumulated_objective_unevenBatch :
    buildOpsdBatch ["hint", "hint"] ["plain", "plain"] ["short", "long"] unevenTokenizer 3 =
        .ok (some unevenBatch) ∧
      (∃ out, RowLocal unevenTeacher out) ∧ (∃ out, RowLocal unevenStudent out) ∧
      updateObjective unevenConfig UnpadInput.rowMajor unevenTeacher unevenStudent 1 1
          unevenBatch ≠
        updateObjective unevenConfig UnpadInput.rowMajor unevenTeacher unevenStudent 1 2
          unevenBatch ∧
      updateObjective unevenConfig UnpadInput.rowMajor unevenTeacher unevenStudent 4 1
          unevenBatch ≠
        updateObjective unevenConfig UnpadInput.rowMajor unevenTeacher unevenStudent 1 2
          unevenBatch := by
  have hpos := unevenLoss_pos
  have hwhole : sampleWeight 1 2 [1, 2] 1 = 1 / 3 := by decide +kernel
  have hsplit : sampleWeight 1 1 [1, 2] 1 = 1 / 4 := by decide +kernel
  have hpadded : sampleWeight 4 1 [1, 2] 1 = 3 / 8 := by decide +kernel
  refine ⟨rfl, ⟨_, pointwiseModel_local _⟩, ⟨_, pointwiseModel_local _⟩, ?_, ?_⟩
  · rw [updateObjective_unevenBatch (by decide) (by decide),
      updateObjective_unevenBatch (by decide) (by decide), hwhole, hsplit]
    intro heq
    have := Except.ok.inj heq
    push_cast at this
    linarith
  · rw [updateObjective_unevenBatch (by decide) (by decide),
      updateObjective_unevenBatch (by decide) (by decide), hwhole, hpadded]
    intro heq
    have := Except.ok.inj heq
    push_cast at this
    linarith

end Uneven

end Crisp.Proofs
