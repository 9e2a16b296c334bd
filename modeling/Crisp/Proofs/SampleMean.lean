import Crisp.Proofs.Admission
import Crisp.Ref.LossMetrics
import Mathlib.Algebra.BigOperators.Fin
import Mathlib.Algebra.CharZero.Defs
import Mathlib.Algebra.Order.BigOperators.Group.List
import Mathlib.Data.List.OfFn

/-!
# The sample mean, however a batch is cut

A mean of means over equal parts is the mean of the whole, so under the sample
mean neither the microbatch size, nor the number of ranks, nor where a sample
lands matters: the packed rows a microbatch finds for a sample are the sample's
own. The logged number arrives there by sums, each microbatch weighed by its
samples, and meets the objective because both divide by the same count.
-/

namespace Crisp.Proofs

open Crisp.Lib Crisp.Ref

variable {ρ τ ν : Type}

/-! ## Means -/

section Mean

variable [Field ν]

theorem mean_of_sum {xs : List ν} {n : Nat} (h : xs.length = n) : mean xs = xs.sum / (n : ν) := by
  rw [mean, h]

/-- A mean of means over parts of one size. -/
theorem mean_flatten {blocks : List (List ν)} {m : Nat}
    (hlen : ∀ block ∈ blocks, block.length = m) :
    mean (blocks.map mean) = mean blocks.flatten := by
  have hsum : (blocks.map mean).sum = blocks.flatten.sum / (m : ν) := by
    induction blocks with
    | nil => simp
    | cons block blocks ih =>
        rw [List.map_cons, List.sum_cons, List.flatten_cons, List.sum_append,
          ih fun b hb => hlen b (List.mem_cons_of_mem block hb),
          mean_of_sum (hlen block List.mem_cons_self), add_div]
  have hlength : blocks.flatten.length = blocks.length * m := by
    rw [List.length_flatten, List.map_congr_left hlen, List.map_const', List.sum_replicate_nat]
  rw [mean_of_sum (List.length_map mean), mean_of_sum hlength, hsum, div_div, Nat.cast_mul,
    mul_comm]

theorem mean_perm {xs ys : List ν} (h : xs.Perm ys) : mean xs = mean ys := by
  rw [mean, mean, h.sum_eq, h.length_eq]

end Mean

/-! ## A sample and its rows -/

/-- A sample of a scored rollout with the student's logit rows for its tokens. -/
structure ScoredSample (ρ τ : Type) where
  sample : Sample
  target : OPSDTarget ℚ τ
  rows : List ρ

/-- The sample was admitted and its target fits; its mask is binary, with a valid
token. -/
structure ScoredSample.Ready (args : Args) (tp : Tp) (width : Nat) (rolloutId : Int)
    (s : ScoredSample ρ τ) : Prop where
  accepted : Accepted s.sample
  fits : Fits (opsdLossConfig args) args.vocabSize (tp.rank * width)
    (validWidth tp args.vocabSize width) rolloutId (studentSegment s.sample) s.target
  rows : s.rows.length = s.sample.tokens.length
  mask : BinaryMask s.sample.lossMask s.sample.responseLength.toNat
  valid : (1 : Int) ∈ s.sample.lossMask

/-- The per-token losses of a sample, from its own rows. -/
def ScoredSample.losses (kernel : RowKernel ℚ ρ τ ν) (args : Args) (s : ScoredSample ρ τ) :
    List ν :=
  List.zipWith (kernel.loss (opsdLossConfig args) args.vocabSize)
    (predictionBlock s.rows 0 (studentSegment s.sample)) s.target.logProbs.rows

def ScoredSample.validTokens (s : ScoredSample ρ τ) : List Bool :=
  s.sample.lossMask.map fun entry => decide (entry ≠ 0)

/-- The mean loss of a sample's valid tokens. -/
def ScoredSample.meanLoss [DivisionRing ν] (kernel : RowKernel ℚ ρ τ ν) (args : Args)
    (s : ScoredSample ρ τ) : ν :=
  mean (masked (s.losses kernel args) s.validTokens)

/-- The columns of a microbatch of these samples. -/
def lossBatch (rolloutId : Int) (samples : List (ScoredSample ρ τ)) : LossBatch ℚ τ :=
  trainingMicrobatch samples.length 0 (rolloutData (samples.map ScoredSample.sample)) rolloutId
    (samples.map ScoredSample.target)

/-- The model's output for a packed microbatch: every sample's rows, end to end,
and rows for the padding. -/
structure StudentOutput (width padSize : Nat) (samples : List (ScoredSample ρ τ))
    (logits : Logits ρ) : Prop where
  packed : OfPacked logits width (packedTokens padSize (samples.map fun s => s.sample.tokens))
  rows : ∃ padding, logits.rows = (samples.flatMap ScoredSample.rows) ++ padding

/-- A segment's prediction rows lie within its own. -/
theorem predictionBlock_append {before own after : List ρ} {seg : Segment}
    (hlen : own.length = seg.tokens.length) (hvalid : seg.Valid) :
    predictionBlock (before ++ (own ++ after)) before.length seg = predictionBlock own 0 seg := by
  unfold Segment.Valid at hvalid
  have hstop : before.length + seg.tokens.length - 1 = before.length + (seg.tokens.length - 1) := by
    omega
  have hstart : before.length + seg.tokens.length - seg.response - 1 =
      before.length + (seg.tokens.length - seg.response - 1) := by
    omega
  unfold predictionBlock
  rw [hstop, hstart, List.take_length_add_append, List.drop_length_add_append,
    List.take_append_of_le_length (by omega), Nat.zero_add]

/-- In a packed microbatch every sample is paired with its own rows. -/
theorem paired_own {kernel : RowKernel ℚ ρ τ ν} {args : Args}
    {samples : List (ScoredSample ρ τ)}
    (hrows : ∀ s ∈ samples, s.rows.length = s.sample.tokens.length)
    (haccepted : ∀ s ∈ samples, Accepted s.sample) {after : List ρ} :
    ∀ {before : List ρ},
      paired kernel args.vocabSize (opsdLossConfig args)
          (before ++ (samples.flatMap ScoredSample.rows ++ after)) before.length
          (samples.map fun s => studentSegment s.sample) (samples.map ScoredSample.target)
          (samples.map fun s => s.sample.lossMask) =
        samples.map fun s => (s.losses kernel args, s.validTokens) := by
  induction samples with
  | nil => exact fun {_} => rfl
  | cons s ss ih =>
      intro before
      have hown : s.rows.length = (studentSegment s.sample).tokens.length := hrows s (by simp)
      have hnext := @ih (fun t ht => hrows t (by simp [ht]))
        (fun t ht => haccepted t (by simp [ht]))
        (before ++ s.rows)
      rw [List.length_append, hown, List.append_assoc] at hnext
      simp only [List.map_cons, paired, List.flatMap_cons, List.append_assoc]
      rw [hnext, predictionBlock_append hown (haccepted s (by simp)).student]
      rfl

/-! ## One microbatch -/

/-- What the sample mean of gathered rows is. -/
theorem referenceLoss_sampleMean [DivisionRing ν] {kernel : RowKernel ℚ ρ τ ν} {tp : Tp}
    {vocabSize vocabStart : Nat} {config : OPSDLossConfig ℚ} {logits : Logits ρ}
    {batch : LossBatch ℚ τ} {rows : List (List ν × List Bool)} {result : ν × Nat}
    (hrows : referenceRows kernel tp vocabSize vocabStart config logits batch = .ok rows)
    (h : referenceLoss kernel tp vocabSize vocabStart config .sampleMean logits batch =
      .ok result) :
    result.1 = mean (rows.map fun row => mean (masked row.1 row.2)) := by
  unfold referenceLoss at h
  rw [hrows, except_ok_bind] at h
  simp only [except_bind_eq_ok] at h
  obtain ⟨_, _, _, _, _, _, h⟩ := h
  rw [← Except.ok.inj h]

theorem microbatch_whole {α : Type} (xs : List α) : microbatch xs.length 0 xs = xs := by
  simp [microbatch]

theorem validSum_ne_zero {samples : List Sample} (hne : samples ≠ [])
    (hmask : ∀ s ∈ samples, BinaryMask s.lossMask s.responseLength.toNat)
    (hvalid : ∀ s ∈ samples, (1 : Int) ∈ s.lossMask) :
    ((samples.map Sample.lossMask).map List.sum).sum ≠ 0 := by
  have hsample : ∀ s ∈ samples, 0 < s.lossMask.sum := by
    intro s hs
    have hnonneg : ∀ entry ∈ s.lossMask, 0 ≤ entry := fun entry hentry => by
      rcases (hmask s hs).2 entry hentry with h | h <;> omega
    have hle := List.single_le_sum hnonneg 1 (hvalid s hs)
    omega
  obtain ⟨first, hfirst⟩ := List.exists_mem_of_ne_nil samples hne
  have hsums : ∀ total ∈ (samples.map Sample.lossMask).map List.sum, 0 ≤ total := by
    intro total htotal
    rw [List.map_map] at htotal
    obtain ⟨s, hs, rfl⟩ := List.mem_map.mp htotal
    exact (hsample s hs).le
  have hle := List.single_le_sum hsums first.lossMask.sum (by
    rw [List.map_map]
    exact List.mem_map.mpr ⟨first, hfirst, rfl⟩)
  have hpos := hsample first hfirst
  omega

/-- The columns of a microbatch are its samples', and its targets theirs. -/
theorem batchOf_lossBatch {samples : List (ScoredSample ρ τ)} {rolloutId : Int}
    (haccepted : ∀ s ∈ samples, Accepted s.sample) :
    BatchOf (samples.map ScoredSample.sample) rolloutId (lossBatch rolloutId samples) ∧
      (lossBatch rolloutId samples).opsdTargets = samples.map ScoredSample.target := by
  have hlength : samples.length = (samples.map ScoredSample.sample).length :=
    (List.length_map _).symm
  constructor
  · have hwhole := @batchOf_trainingMicrobatch ℚ τ rolloutId (samples.map ScoredSample.sample)
      (List.forall_mem_map.mpr haccepted) samples.length 0 (samples.map ScoredSample.target)
      (by simp)
    rw [hlength, microbatch_whole, ← hlength] at hwhole
    exact hwhole
  · have hwhole := microbatch_whole (samples.map ScoredSample.target)
    rw [List.length_map] at hwhole
    exact hwhole

/-- The loss of a microbatch of ready samples: the mean of their means. -/
theorem referenceLoss_ready [DivisionRing ν] {kernel : RowKernel ℚ ρ τ ν} {tp : Tp}
    {args : Args} {width padSize : Nat} {rolloutId : Int} {samples : List (ScoredSample ρ τ)}
    (hne : samples ≠ []) (hready : ∀ s ∈ samples, s.Ready args tp width rolloutId)
    (hvocab : VocabChecked tp args.vocabSize width args.opsdTemperature) {logits : Logits ρ}
    (hlogits : StudentOutput width padSize samples logits) :
    ∃ count, referenceLoss kernel tp args.vocabSize (tp.rank * width) (opsdLossConfig args)
        .sampleMean logits (lossBatch rolloutId samples) =
      .ok (mean (samples.map (ScoredSample.meanLoss kernel args)), count) := by
  have haccepted : ∀ s ∈ samples.map ScoredSample.sample, Accepted s :=
    List.forall_mem_map.mpr fun s hs => (hready s hs).accepted
  have hmask : ∀ s ∈ samples.map ScoredSample.sample,
      BinaryMask s.lossMask s.responseLength.toNat :=
    List.forall_mem_map.mpr fun s hs => (hready s hs).mask
  have hvalid : ∀ s ∈ samples.map ScoredSample.sample, (1 : Int) ∈ s.lossMask :=
    List.forall_mem_map.mpr fun s hs => (hready s hs).valid
  obtain ⟨hbatch, htargets⟩ :=
    @batchOf_lossBatch _ _ samples rolloutId fun s hs => (hready s hs).accepted
  have hfits : List.Forall₂ (Fits (opsdLossConfig args) args.vocabSize (tp.rank * width)
      (validWidth tp args.vocabSize width) rolloutId)
      ((samples.map ScoredSample.sample).map studentSegment)
      (lossBatch rolloutId samples).opsdTargets := by
    rw [htargets, List.map_map, List.forall₂_map_left_iff, List.forall₂_map_right_iff,
      List.forall₂_same]
    exact fun s hs => (hready s hs).fits
  have hpacked : OfPacked logits width
      (packedTokens padSize ((samples.map ScoredSample.sample).map Sample.tokens)) := by
    rw [List.map_map]
    exact hlogits.packed
  obtain ⟨result, hresult⟩ := (@referenceLoss_ok_iff ρ τ ν kernel tp args.vocabSize rolloutId
    width (opsdLossConfig args) _ padSize (samples.map ScoredSample.sample)
    (by simpa using hne) haccepted (validSum_ne_zero (by simpa using hne) hmask hvalid) hmask
    hvocab _ hpacked _ hbatch hfits .sampleMean).mpr (Or.inr hvalid)
  have hrows := @referenceRows_of_fits ℚ ρ τ ν _ _ kernel tp args.vocabSize width padSize
    (opsdLossConfig args) rolloutId (samples.map ScoredSample.sample) haccepted hvocab.vocab
    hvocab.temperature _ hpacked _ hbatch hfits
  obtain ⟨padding, hpadding⟩ := hlogits.rows
  have hpaired := @paired_own ρ τ ν kernel args samples (fun s hs => (hready s hs).rows)
    (fun s hs => (hready s hs).accepted) padding []
  rw [List.nil_append, List.length_nil, ← hpadding] at hpaired
  rw [if_pos hmask, htargets, hbatch.masks, List.map_map, List.map_map] at hrows
  have hvalue := referenceLoss_sampleMean (hrows.trans (congrArg Except.ok hpaired)) hresult
  rw [List.map_map] at hvalue
  exact ⟨result.2, hresult.trans (congrArg Except.ok (Prod.ext hvalue rfl))⟩

/-- What the loss function returns for it, with the sums that are logged. -/
theorem opsdLossFunction_ready [DivisionRing ν] {kernel : RowKernel ℚ ρ τ ν} {tp : Tp}
    {args : Args} {width padSize : Nat} {rolloutId : Int} {samples : List (ScoredSample ρ τ)}
    (hne : samples ≠ []) (hready : ∀ s ∈ samples, s.Ready args tp width rolloutId)
    (hvocab : VocabChecked tp args.vocabSize width args.opsdTemperature)
    (hreduction : args.opsdReduction = .sampleMean) {logits : Logits ρ}
    (hlogits : StudentOutput width padSize samples logits) :
    ∃ count : Nat, opsdLossFunction kernel tp args (lossBatch rolloutId samples) logits =
      .ok
        { loss := mean (samples.map (ScoredSample.meanLoss kernel args))
          normalizer := 1
          log :=
            { keys := ["opsd_loss", "opsd_valid_tokens"]
              values := [(samples.length : ν),
                mean (samples.map (ScoredSample.meanLoss kernel args)) * (samples.length : ν),
                (count : ν)] } } := by
  obtain ⟨count, hloss⟩ :=
    @referenceLoss_ready ρ τ ν _ kernel tp args width padSize rolloutId samples hne hready hvocab
      logits hlogits
  have hbatch := (@batchOf_lossBatch _ _ samples rolloutId
    fun s hs => (hready s hs).accepted).1
  have hcount : (lossBatch rolloutId samples).responseLengths.length = samples.length := by
    rw [hbatch.responses, List.length_map, List.length_map, List.length_map]
  refine ⟨count, ?_⟩
  unfold opsdLossFunction
  rw [hlogits.packed.localVocab, hreduction, hloss, except_ok_bind]
  dsimp only
  rw [hcount]

/-! ## The logged sums -/

section Logged

variable [Field ν]

/-- The log of a microbatch with these sums. -/
def lossLog (samples loss tokens : ν) : LossLog ν where
  keys := ["opsd_loss", "opsd_valid_tokens"]
  values := [samples, loss, tokens]

/-- Adding logs up, entry by entry. -/
theorem foldlM_addValues {α : Type} {samples loss tokens : α → ν} (xs : List α) :
    ∀ (a b c : ν),
      (xs.map fun x => lossLog (samples x) (loss x) (tokens x)).foldlM addValues [a, b, c] =
        .ok [a + (xs.map samples).sum, b + (xs.map loss).sum, c + (xs.map tokens).sum] := by
  induction xs with
  | nil =>
      intro a b c
      simp only [List.map_nil, List.foldlM_nil, List.sum_nil, add_zero]
      rfl
  | cons x xs ih =>
      intro a b c
      have hadd : addValues [a, b, c] (lossLog (samples x) (loss x) (tokens x)) =
          .ok [a + samples x, b + loss x, c + tokens x] := rfl
      rw [List.map_cons, List.foldlM_cons, hadd, except_ok_bind, ih]
      simp only [List.map_cons, List.sum_cons, add_assoc]

/-- A rank's own sums. -/
theorem sumValues_ofFn {n : Nat} {samples loss tokens : Fin n → ν} (hn : n ≠ 0) :
    sumValues (List.ofFn fun j => lossLog (samples j) (loss j) (tokens j)) =
      .ok [∑ j, samples j, ∑ j, loss j, ∑ j, tokens j] := by
  obtain ⟨n, rfl⟩ := Nat.exists_eq_succ_of_ne_zero hn
  have hfold := @foldlM_addValues ν _ (Fin n) (fun j => samples j.succ) (fun j => loss j.succ)
    (fun j => tokens j.succ) (List.finRange n) (samples 0) (loss 0) (tokens 0)
  simp only [← List.ofFn_eq_map, List.sum_ofFn] at hfold
  rw [List.ofFn_succ, sumValues]
  show ((List.ofFn _).foldlM addValues [samples 0, loss 0, tokens 0] >>= _) = _
  rw [hfold, except_ok_bind]
  simp only [← Fin.sum_univ_succ]
  rfl

theorem foldl_zipWith_add {α : Type} {a b c : α → ν} (xs : List α) :
    ∀ (u v w : ν), (xs.map fun x => [a x, b x, c x]).foldl (List.zipWith (· + ·)) [u, v, w] =
      [u + (xs.map a).sum, v + (xs.map b).sum, w + (xs.map c).sum] := by
  induction xs with
  | nil => simp
  | cons x xs ih =>
      intro u v w
      rw [List.map_cons, List.foldl_cons]
      show (xs.map _).foldl _ [u + a x, v + b x, w + c x] = _
      rw [ih]
      simp only [List.map_cons, List.sum_cons, add_assoc]

/-- The sums of the whole group. -/
theorem allReduceSum_ofFn {D : Nat} {a b c : Fin D → ν} (hD : D ≠ 0) :
    allReduceSum (List.ofFn fun r => [a r, b r, c r]) = [∑ r, a r, ∑ r, b r, ∑ r, c r] := by
  obtain ⟨D, rfl⟩ := Nat.exists_eq_succ_of_ne_zero hD
  have hfold := @foldl_zipWith_add ν _ (Fin D) (fun r => a r.succ) (fun r => b r.succ)
    (fun r => c r.succ) (List.finRange D) (a 0) (b 0) (c 0)
  simp only [← List.ofFn_eq_map, List.sum_ofFn] at hfold
  rw [List.ofFn_succ, allReduceSum, hfold]
  simp only [← Fin.sum_univ_succ]

/-- What `aggregate_train_losses` returns, when every rank has a microbatch. -/
theorem aggregateTrainLosses_ofFn {D n cpSize numRollouts : Nat}
    {samples loss tokens : Fin D → Fin n → ν} (hD : D ≠ 0) (hn : n ≠ 0) :
    aggregateTrainLosses cpSize (some numRollouts)
        (List.ofFn fun r => List.ofFn fun j => lossLog (samples r j) (loss r j) (tokens r j)) =
      .ok [("opsd_loss", (∑ r, ∑ j, loss r j) / (numRollouts : ν)),
        ("opsd_valid_tokens", (∑ r, ∑ j, tokens r j) / (numRollouts : ν))] := by
  have htotals : (List.ofFn fun r => List.ofFn fun j =>
        lossLog (samples r j) (loss r j) (tokens r j)).mapM sumValues =
      .ok (List.ofFn fun r => [∑ j, samples r j, ∑ j, loss r j, ∑ j, tokens r j]) := by
    rw [List.ofFn_eq_map, List.mapM_map, List.ofFn_eq_map]
    exact except_mapM_eq_ok fun r _ => sumValues_ofFn hn
  have hfirst : ((List.ofFn fun r => List.ofFn fun j =>
        lossLog (samples r j) (loss r j) (tokens r j)).head?.bind List.head?) =
      some (lossLog (samples ⟨0, Nat.pos_of_ne_zero hD⟩ ⟨0, Nat.pos_of_ne_zero hn⟩)
        (loss ⟨0, Nat.pos_of_ne_zero hD⟩ ⟨0, Nat.pos_of_ne_zero hn⟩)
        (tokens ⟨0, Nat.pos_of_ne_zero hD⟩ ⟨0, Nat.pos_of_ne_zero hn⟩)) := by
    obtain ⟨D, rfl⟩ := Nat.exists_eq_succ_of_ne_zero hD
    obtain ⟨n, rfl⟩ := Nat.exists_eq_succ_of_ne_zero hn
    rw [List.ofFn_succ, List.ofFn_succ]
    rfl
  rw [aggregateTrainLosses, hfirst]
  dsimp only
  rw [htotals, except_ok_bind, allReduceSum_ofFn hD]
  simp [lossLog]

end Logged

/-! ## The whole batch -/

section Batch

variable [Field ν]

theorem mean_mul_length [CharZero ν] {xs : List ν} (hne : xs ≠ []) :
    mean xs * (xs.length : ν) = xs.sum := by
  have hlength : (xs.length : ν) ≠ 0 := Nat.cast_ne_zero.mpr (List.length_pos_iff.mpr hne).ne'
  rw [mean, div_mul_cancel₀ _ hlength]

/-- The mean over a batch cut into equal microbatches, on equal ranks. -/
theorem averagedLoss_partition {α : Type} {D n m : Nat} {assignment : Fin D → Fin n → List α}
    {batch : List α} {f : α → ν} (hsize : ∀ r j, (assignment r j).length = m)
    (hassign : (List.ofFn fun r => (List.ofFn (assignment r)).flatten).flatten.Perm batch) :
    averagedLoss (List.ofFn fun r => List.ofFn fun j => mean ((assignment r j).map f)) =
      mean (batch.map f) := by
  have hrank : ∀ r, mean (List.ofFn fun j => mean ((assignment r j).map f)) =
      mean (List.ofFn fun j => (assignment r j).map f).flatten := by
    intro r
    have hblocks : ∀ block ∈ List.ofFn (fun j => (assignment r j).map f), block.length = m := by
      rw [List.forall_mem_ofFn_iff]
      intro j
      rw [List.length_map, hsize r j]
    rw [← mean_flatten hblocks, List.map_ofFn]
    rfl
  have hranks : ∀ block ∈ List.ofFn (fun r => (List.ofFn fun j => (assignment r j).map f).flatten),
      block.length = n * m := by
    rw [List.forall_mem_ofFn_iff]
    intro r
    simp [List.length_flatten, List.map_ofFn, Function.comp_def, hsize r, List.ofFn_const]
  have hflatten : (List.ofFn fun r => (List.ofFn fun j => (assignment r j).map f).flatten).flatten =
      (List.ofFn fun r => (List.ofFn (assignment r)).flatten).flatten.map f := by
    rw [List.map_flatten, List.map_ofFn]
    simp only [Function.comp_def, List.map_flatten, List.map_ofFn]
  unfold averagedLoss
  rw [List.map_ofFn]
  simp only [Function.comp_def, hrank]
  rw [show (List.ofFn fun r => mean (List.ofFn fun j => (assignment r j).map f).flatten) =
      (List.ofFn fun r => (List.ofFn fun j => (assignment r j).map f).flatten).map mean from by
    rw [List.map_ofFn]; rfl]
  rw [mean_flatten hranks, hflatten, mean_perm (hassign.map f)]

/-- What the ranks' microbatches log for the loss adds up to the whole batch. -/
theorem logged_partition [CharZero ν] {α : Type} {D n : Nat}
    {assignment : Fin D → Fin n → List α} {batch : List α} {f : α → ν}
    (hblocks : ∀ r j, assignment r j ≠ [])
    (hassign : (List.ofFn fun r => (List.ofFn (assignment r)).flatten).flatten.Perm batch) :
    ∑ r, ∑ j, mean ((assignment r j).map f) * ((assignment r j).length : ν) =
      (batch.map f).sum := by
  have hblock : ∀ r j, mean ((assignment r j).map f) * ((assignment r j).length : ν) =
      ((assignment r j).map f).sum := by
    intro r j
    have hmapped : (assignment r j).map f ≠ [] := by simpa using hblocks r j
    have hmul := mean_mul_length hmapped
    rwa [List.length_map] at hmul
  have hsum := (hassign.map f).sum_eq
  simp only [List.map_flatten, List.sum_flatten, List.map_ofFn, Function.comp_def,
    List.sum_ofFn] at hsum
  rw [← hsum]
  exact Finset.sum_congr rfl fun r _ => Finset.sum_congr rfl fun j _ => hblock r j

/-- Every equal cut of a batch gives the batch's sample mean, averaged or logged. -/
theorem sample_mean_partition [CharZero ν] {kernel : RowKernel ℚ ρ τ ν} {tp : Tp} {args : Args}
    {width padSize cpSize : Nat} {rolloutId : Int}
    (hvocab : VocabChecked tp args.vocabSize width args.opsdTemperature)
    (hreduction : args.opsdReduction = .sampleMean)
    {batch : List (ScoredSample ρ τ)} (hne : batch ≠ [])
    (hready : ∀ s ∈ batch, s.Ready args tp width rolloutId) {D n m : Nat}
    {assignment : Fin D → Fin n → List (ScoredSample ρ τ)}
    (hsize : ∀ r j, (assignment r j).length = m)
    (hassign : (List.ofFn fun r => (List.ofFn (assignment r)).flatten).flatten.Perm batch)
    {student : Fin D → Fin n → Logits ρ}
    (hstudent : ∀ r j, StudentOutput width padSize (assignment r j) (student r j)) :
    ∃ outputs : Fin D → Fin n → LossOutput ν,
      (∀ r j, opsdLossFunction kernel tp args (lossBatch rolloutId (assignment r j))
          (student r j) = .ok (outputs r j)) ∧
      (∀ r j, ∃ count, referenceLoss kernel tp args.vocabSize (tp.rank * width)
          (opsdLossConfig args) .sampleMean (student r j)
          (lossBatch rolloutId (assignment r j)) = .ok ((outputs r j).loss, count)) ∧
      averagedLoss (List.ofFn fun r => List.ofFn fun j => (outputs r j).loss) =
        1 / (batch.length : ν) * (batch.map (ScoredSample.meanLoss kernel args)).sum ∧
      ∃ metrics,
        aggregateTrainLosses cpSize (some batch.length)
            (List.ofFn fun r => List.ofFn fun j => (outputs r j).log) = .ok metrics ∧
          metrics.lookup "opsd_loss" =
            some (1 / (batch.length : ν) *
              (batch.map (ScoredSample.meanLoss kernel args)).sum) := by
  have hmem : ∀ r j, ∀ s ∈ assignment r j, s ∈ batch := by
    intro r j s hs
    refine hassign.subset (List.mem_flatten.mpr ⟨_, List.mem_ofFn.mpr ⟨r, rfl⟩, ?_⟩)
    exact List.mem_flatten.mpr ⟨_, List.mem_ofFn.mpr ⟨j, rfl⟩, hs⟩
  have htotal : D * (n * m) = batch.length := by
    rw [← hassign.length_eq]
    simp [List.length_flatten, List.map_ofFn, Function.comp_def, hsize, List.ofFn_const]
  have hpos : 0 < D * (n * m) := htotal ▸ List.length_pos_iff.mpr hne
  have hD : D ≠ 0 := fun h => by simp [h] at hpos
  have hn : n ≠ 0 := fun h => by simp [h] at hpos
  have hblocks : ∀ r j, assignment r j ≠ [] := by
    intro r j h
    have hm := hsize r j
    rw [h, List.length_nil] at hm
    simp [← hm] at hpos
  -- each microbatch's output, from the theorem about one
  have hone := fun r j => @opsdLossFunction_ready ρ τ ν _ kernel tp args width padSize rolloutId
    (assignment r j) (hblocks r j) (fun s hs => hready s (hmem r j s hs)) hvocab hreduction
    (student r j) (hstudent r j)
  choose count hcount using hone
  refine ⟨_, hcount, ?_, ?_, ?_⟩
  · intro r j
    exact referenceLoss_ready (hblocks r j) (fun s hs => hready s (hmem r j s hs)) hvocab
      (hstudent r j)
  · rw [averagedLoss_partition hsize hassign, mean_of_sum (List.length_map _), one_div_mul_eq_div]
  · refine ⟨_, aggregateTrainLosses_ofFn hD hn, ?_⟩
    rw [logged_partition hblocks hassign, one_div_mul_eq_div]
    rfl

end Batch

/-! ## Two samples, a rank each -/

def cutArgs : Args := { admissionArgs with microBatchSize := 1, opsdReduction := .sampleMean }

/-- A sample as scored, with the student's rows for its tokens. -/
def scoredSample (sample : Sample) (teacher rows : List Nat) : ScoredSample Nat Nat where
  sample := sample
  target :=
    { sampleIndex := sample.index.getD 0
      rolloutId := 7
      responseIds := (studentSegment sample).responseTokens
      temperature := 11 / 10
      vocabSize := 5
      vocabStart := 0
      logProbs := { rows := teacher, cols := 5, onCpu := true, requiresGrad := false } }
  rows := rows

def scoredTwoSamples : List (ScoredSample Nat Nat) :=
  List.zipWith (fun sample rows => scoredSample sample rows.1 rows.2) twoSamples
    [([5, 6], [0, 1, 2, 3]), ([7], [4, 5, 6, 7, 8])]

/-- The second sample on the first rank, the first on the second. -/
def swappedRanks (r : Fin 2) (_ : Fin 1) : List (ScoredSample Nat Nat) :=
  (scoredTwoSamples.drop (1 - r.val)).take 1

/-- The samples' rows, and zeros for the padding to a multiple of eight. -/
def paddedRows (samples : List (ScoredSample Nat Nat)) : Logits Nat where
  ndim := 3
  size0 := 1
  localVocab := 5
  isFloating := true
  rows := samples.flatMap ScoredSample.rows ++ List.replicate
    ((packedTokens 8 (samples.map fun s => s.sample.tokens)).length -
      (samples.flatMap ScoredSample.rows).length) 0

theorem sample_mean_partition_swapped :
    ∃ outputs : Fin 2 → Fin 1 → LossOutput ℚ,
      (∀ r j, opsdLossFunction positionKernel ⟨0, 1⟩ cutArgs (lossBatch 7 (swappedRanks r j))
          (paddedRows (swappedRanks r j)) = .ok (outputs r j)) ∧
      (∀ r j, ∃ count, referenceLoss positionKernel ⟨0, 1⟩ 5 0 (opsdLossConfig cutArgs)
          .sampleMean (paddedRows (swappedRanks r j)) (lossBatch 7 (swappedRanks r j)) =
            .ok ((outputs r j).loss, count)) ∧
      averagedLoss (List.ofFn fun r => List.ofFn fun j => (outputs r j).loss) =
        1 / 2 * (scoredTwoSamples.map (ScoredSample.meanLoss positionKernel cutArgs)).sum ∧
      ∃ metrics,
        aggregateTrainLosses 1 (some 2)
            (List.ofFn fun r => List.ofFn fun j => (outputs r j).log) = .ok metrics ∧
          metrics.lookup "opsd_loss" = some (1 / 2 *
            (scoredTwoSamples.map (ScoredSample.meanLoss positionKernel cutArgs)).sum) := by
  have hready : ∀ s ∈ scoredTwoSamples, s.Ready cutArgs ⟨0, 1⟩ 5 7 := by
    intro s hs
    simp only [scoredTwoSamples, twoSamples, List.zipWith_cons_cons, List.zipWith_nil_left,
      List.mem_cons, List.not_mem_nil, or_false] at hs
    rcases hs with rfl | rfl
    · exact ⟨⟨rfl, rfl, by decide, by decide, by decide⟩, ⟨rfl, rfl, rfl, rfl, rfl⟩, rfl,
        by decide, by decide⟩
    · exact ⟨⟨rfl, rfl, by decide, by decide, by decide⟩, ⟨rfl, rfl, rfl, rfl, rfl⟩, rfl,
        by decide, by decide⟩
  have hstudent : ∀ r j, StudentOutput 5 8 (swappedRanks r j) (paddedRows (swappedRanks r j)) := by
    intro r j
    refine ⟨⟨rfl, rfl, rfl, rfl, ?_⟩, _, rfl⟩
    revert r j
    decide
  exact @sample_mean_partition Nat Nat ℚ _ _ positionKernel ⟨0, 1⟩ cutArgs 5 8 1 7
    ⟨by norm_num [cutArgs, admissionArgs], by decide, by decide⟩ rfl scoredTwoSamples
    (List.cons_ne_nil _ _) hready 2 1 1 swappedRanks (by decide) (List.Perm.swap _ _ [])
    (fun r j => paddedRows (swappedRanks r j)) hstudent

end Crisp.Proofs
