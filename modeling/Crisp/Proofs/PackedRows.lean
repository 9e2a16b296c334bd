import Crisp.Ref.Targets

/-!
# Rows of a packed microbatch

`predictionBlock` is what `response_logits` yields for a segment of a packed
microbatch. The file shows that its row `k` is the row before the segment's
`k`-th response token, and carries that through the two loops that read packed
outputs: the one that collects targets and the one that pairs them.

Both loops carry an offset, so each induction is over the segments still to
come with the offset of the first of them.
-/

namespace Crisp.Proofs

open Crisp.Lib Crisp.Ref

variable {𝕜 ρ τ ν : Type}

/-- A packed sequence: whose it is, its tokens, and how many of them at the
end are the response. -/
structure Segment where
  index : Int
  tokens : List Int
  response : Nat

def Segment.Valid (seg : Segment) : Prop :=
  seg.response < seg.tokens.length

/-- The response itself. -/
def Segment.responseTokens (seg : Segment) : List Int :=
  seg.tokens.drop (seg.tokens.length - seg.response)

/-- Position `p` of a packed sequence is the one before the `k`-th response
token of the segment that starts at `offset`, and both lie in that segment. -/
structure Predicts (packed : List Int) (offset : Nat) (seg : Segment) (k p : Nat)
    (token : Int) : Prop where
  segment : (packed.drop offset).take seg.tokens.length = seg.tokens
  inside : offset ≤ p ∧ p + 1 < offset + seg.tokens.length
  next : p + 1 = offset + (seg.tokens.length - seg.response) + k
  packed_next : packed[p + 1]? = some token
  response_token : seg.responseTokens[k]? = some token

/-! ## One block -/

/-- The rows of a segment that predict its response. -/
def predictionBlock (rows : List ρ) (offset : Nat) (seg : Segment) : List ρ :=
  (rows.take (offset + seg.tokens.length - 1)).drop
    (offset + seg.tokens.length - seg.response - 1)

theorem responseLogitsNext_ok {logits : Logits ρ} {offset : Nat} {seg : Segment}
    (hvalid : seg.Valid) (hrows : offset + seg.tokens.length ≤ logits.rows.length) :
    responseLogitsNext logits offset seg.tokens.length seg.response =
      .ok (predictionBlock logits.rows offset seg) := by
  unfold Segment.Valid at hvalid
  have hrange : (0 : Int) ≤ seg.response ∧ (seg.response : Int) < seg.tokens.length := by
    omega
  have hstop : (offset : Int) + seg.tokens.length ≤ logits.rows.length := by omega
  unfold responseLogitsNext
  rw [check_of hrange, except_ok_bind]
  simp only [check_of hstop, except_ok_bind]
  rw [@pySlice_of_le _ _ _ _ (offset + seg.tokens.length - seg.response - 1)
    (offset + seg.tokens.length - 1) (by omega) (by omega) (by omega) (by omega)]
  rfl

theorem predictionBlock_length {rows : List ρ} {offset : Nat} {seg : Segment}
    (hvalid : seg.Valid) (hrows : offset + seg.tokens.length ≤ rows.length) :
    (predictionBlock rows offset seg).length = seg.response := by
  unfold Segment.Valid at hvalid
  simp only [predictionBlock, List.length_drop, List.length_take]
  omega

/-- Row `k` of a block, in the packed output. -/
theorem predictionBlock_getElem? {rows : List ρ} {offset : Nat} {seg : Segment}
    (hvalid : seg.Valid) {k : Nat} (hk : k < seg.response) :
    (predictionBlock rows offset seg)[k]? =
      rows[offset + (seg.tokens.length - seg.response - 1 + k)]? := by
  unfold Segment.Valid at hvalid
  unfold predictionBlock
  rw [List.getElem?_drop, List.getElem?_take, if_pos (by omega)]
  congr 1
  omega

/-- What the source compares as the response, for a segment of either packing. -/
theorem responseIds_segment {seg : Segment} (hvalid : seg.Valid) :
    responseIds seg.tokens seg.response = seg.responseTokens := by
  unfold Segment.Valid at hvalid
  unfold responseIds Segment.responseTokens
  by_cases hzero : seg.response = 0
  · rw [if_neg (by omega), hzero, Nat.sub_zero, List.drop_length]
  · rw [if_pos (by omega), pyFrom_neg (by omega) (by omega)]

/-- The position before the `k`-th response token, in any packing that holds
the segment at its offset. -/
theorem predicts_of_packed {packed : List Int} {offset : Nat} {seg : Segment}
    (hvalid : seg.Valid)
    (hsegment : (packed.drop offset).take seg.tokens.length = seg.tokens)
    {k : Nat} (hk : k < seg.response) {token : Int}
    (htoken : seg.responseTokens[k]? = some token) :
    Predicts packed offset seg k
      (offset + (seg.tokens.length - seg.response - 1 + k)) token := by
  unfold Segment.Valid at hvalid
  refine ⟨hsegment, ⟨by omega, by omega⟩, by omega, ?_, htoken⟩
  have hin : seg.tokens[seg.tokens.length - seg.response + k]? = some token := by
    rw [← htoken, Segment.responseTokens, List.getElem?_drop]
  rw [← hsegment, List.getElem?_take, if_pos (by rw [hsegment]; omega),
    List.getElem?_drop] at hin
  rw [← hin, hsegment]
  congr 1
  omega

/-! ## The collecting loop -/

/-- The total lengths of the segments still to come. -/
def packedLength (segs : List Segment) : Nat :=
  (segs.map fun seg => seg.tokens.length).sum

theorem packedLength_cons {seg : Segment} {segs : List Segment} :
    packedLength (seg :: segs) = seg.tokens.length + packedLength segs := by
  simp [packedLength]

/-- The target `_collect_targets` builds for the segment at `offset`. -/
def targetAt (kernel : RowKernel 𝕜 ρ τ ν) (tp : Tp) (vocabSize width : Nat)
    (temperature : 𝕜) (rolloutId : Int) (rows : List ρ) (offset : Nat)
    (seg : Segment) : OPSDTarget 𝕜 τ :=
  { sampleIndex := seg.index
    rolloutId
    responseIds := seg.responseTokens
    temperature
    vocabSize
    vocabStart := tp.rank * width
    logProbs :=
      { rows := (predictionBlock rows offset seg).map
          (kernel.logSoftmax vocabSize temperature)
        cols := validWidth tp vocabSize width
        onCpu := true
        requiresGrad := false } }

def collected (kernel : RowKernel 𝕜 ρ τ ν) (tp : Tp) (vocabSize width : Nat)
    (temperature : 𝕜) (rolloutId : Int) (rows : List ρ) :
    Nat → List Segment → List (OPSDTarget 𝕜 τ)
  | _, [] => []
  | offset, seg :: segs =>
      targetAt kernel tp vocabSize width temperature rolloutId rows offset seg ::
        collected kernel tp vocabSize width temperature rolloutId rows
          (offset + seg.tokens.length) segs

section Collected

variable {kernel : RowKernel 𝕜 ρ τ ν} {tp : Tp} {vocabSize width : Nat}
  {temperature : 𝕜} {rolloutId : Int} {rows : List ρ}

theorem collected_length {segs : List Segment} :
    ∀ {offset : Nat},
      (collected kernel tp vocabSize width temperature rolloutId rows offset
        segs).length = segs.length := by
  induction segs with
  | nil => intro offset; rfl
  | cons seg segs ih => intro offset; rw [collected, List.length_cons, ih]; rfl

theorem collected_getElem? {segs : List Segment} :
    ∀ {offset s : Nat} (hs : s < segs.length),
      (collected kernel tp vocabSize width temperature rolloutId rows offset segs)[s]? =
        some (targetAt kernel tp vocabSize width temperature rolloutId rows
          (offset + segmentOffset (segs.map fun seg => seg.tokens.length) s)
          segs[s]) := by
  induction segs with
  | nil => intro offset s hs; exact absurd hs (Nat.not_lt_zero s)
  | cons seg segs ih =>
      intro offset s hs
      cases s with
      | zero => simp [collected]
      | succ s =>
          rw [collected, List.getElem?_cons_succ, ih (by simpa using hs),
            List.map_cons, segmentOffset_cons_succ, List.getElem_cons_succ,
            Nat.add_assoc]

theorem collected_index {segs : List Segment} :
    ∀ {offset : Nat},
      (collected kernel tp vocabSize width temperature rolloutId rows offset
        segs).map (fun target => some target.sampleIndex) =
        segs.map fun seg => some seg.index := by
  induction segs with
  | nil => intro offset; rfl
  | cons seg segs ih => intro offset; rw [collected, List.map_cons, List.map_cons, ih]; rfl

end Collected

theorem collectTargetsFrom_ok [LinearOrder 𝕜] [Zero 𝕜]
    {kernel : RowKernel 𝕜 ρ τ ν} {tp : Tp} {vocabSize : Nat} {temperature : 𝕜}
    {rolloutId : Int} {logits : Logits ρ}
    (hvocab : checkVocab tp vocabSize logits.localVocab logits.isFloating temperature =
      .ok ())
    {segs : List Segment} (hvalid : ∀ seg ∈ segs, seg.Valid) :
    ∀ {offset : Nat}, offset + packedLength segs ≤ logits.rows.length →
      collectTargetsFrom kernel tp vocabSize temperature rolloutId logits offset
          (segs.map fun seg => (seg.tokens.length : Int))
          (segs.map fun seg => (seg.response : Int))
          (segs.map Segment.tokens) (segs.map fun seg => some seg.index) =
        .ok (collected kernel tp vocabSize logits.localVocab temperature rolloutId
          logits.rows offset segs) := by
  induction segs with
  | nil => intro offset _; rfl
  | cons seg segs ih =>
      intro offset hrows
      rw [packedLength_cons] at hrows
      have hseg : seg.Valid := hvalid seg (by simp)
      have hrest := @ih (fun s hs => hvalid s (by simp [hs]))
        (offset + seg.tokens.length) (by omega)
      rw [Int.natCast_add] at hrest
      simp only [List.map_cons, collectTargetsFrom]
      rw [responseLogitsNext_ok hseg (by omega), except_ok_bind, hvocab,
        except_ok_bind, pyInt_eq_ok.mpr rfl, except_ok_bind, hrest, except_ok_bind,
        responseIds_segment hseg]
      rfl

/-! ## The reference loop -/

/-- What `reference_loss` expects of the target of a segment. -/
def expectedIdentity (config : OPSDLossConfig 𝕜) (vocabSize vocabStart : Nat)
    (sampleIndex : Option Int) (rolloutId : Int) (responseTokens : List Int) :
    TargetIdentity 𝕜 :=
  { sampleIndex, rolloutId, responseIds := responseTokens
    temperature := config.temperature, vocabSize, vocabStart }

/-- A target that fits the segment it is paired with. -/
structure Fits (config : OPSDLossConfig 𝕜) (vocabSize vocabStart cols : Nat)
    (rolloutId : Int) (seg : Segment) (target : OPSDTarget 𝕜 τ) : Prop where
  identity : target.identity =
    expectedIdentity config vocabSize vocabStart (some seg.index) rolloutId
      seg.responseTokens
  positions : target.logProbs.rows.length = seg.response
  columns : target.logProbs.cols = cols
  cached : target.logProbs.onCpu = true ∧ target.logProbs.requiresGrad = false

section Reference

variable [LinearOrder 𝕜] [Zero 𝕜]
  {kernel : RowKernel 𝕜 ρ τ ν} {tp : Tp} {vocabSize vocabStart : Nat}
  {config : OPSDLossConfig 𝕜} {rolloutId : Int} {logits : Logits ρ}

theorem opsdPerTokenLosses_ok
    (hvocab : checkVocab tp vocabSize logits.localVocab logits.isFloating
      config.temperature = .ok ())
    {student : List ρ} {teacher : CachedRows τ}
    (hshape : teacher.rows.length = student.length ∧
      teacher.cols = validWidth tp vocabSize logits.localVocab) :
    opsdPerTokenLosses kernel tp vocabSize config logits student teacher =
      .ok (List.zipWith (kernel.loss config vocabSize) student teacher.rows) := by
  unfold opsdPerTokenLosses
  rw [hvocab, except_ok_bind, check_of hshape, except_ok_bind]

/-- A fitting target passes every check of the loop body but the one on the
mask, which decides the outcome. -/
theorem referenceSample_of_fits
    (hvocab : checkVocab tp vocabSize logits.localVocab logits.isFloating
      config.temperature = .ok ())
    {seg : Segment} (hvalid : seg.Valid) {target : OPSDTarget 𝕜 τ}
    (hfits : Fits config vocabSize vocabStart
      (validWidth tp vocabSize logits.localVocab) rolloutId seg target)
    {student : List ρ} (hlen : student.length = seg.response) {mask : List Int} :
    referenceSample kernel tp vocabSize vocabStart config logits student target
        (some seg.index) seg.tokens mask rolloutId =
      if BinaryMask mask seg.response then
        .ok (List.zipWith (kernel.loss config vocabSize) student target.logProbs.rows,
          mask.map fun entry => decide (entry ≠ 0))
      else .error maskError := by
  have hid := hfits.identity
  simp only [OPSDTarget.identity, expectedIdentity, TargetIdentity.mk.injEq] at hid
  obtain ⟨hindex, hrollout, hresponse, htemp, hvocabSize, hstart⟩ := hid
  have hsample : some target.sampleIndex = some seg.index ∧
      target.rolloutId = rolloutId ∧
      target.responseIds = responseIds seg.tokens seg.response := by
    rw [responseIds_segment hvalid]
    exact ⟨hindex, hrollout, hresponse⟩
  unfold referenceSample
  simp only [hlen]
  rw [check_of hsample, except_ok_bind, check_of ⟨htemp, hvocabSize, hstart⟩,
    except_ok_bind, check_of hfits.cached, except_ok_bind]
  by_cases hmask : BinaryMask mask seg.response
  · rw [check_of hmask, except_ok_bind, if_pos hmask,
      opsdPerTokenLosses_ok hvocab ⟨by rw [hfits.positions, hlen], hfits.columns⟩,
      except_ok_bind]
  · rw [if_neg hmask]
    unfold check
    rw [if_neg hmask, except_error_bind]

/-- The rows the reference loop gathers when nothing raises. -/
def paired (kernel : RowKernel 𝕜 ρ τ ν) (vocabSize : Nat) (config : OPSDLossConfig 𝕜)
    (rows : List ρ) :
    Nat → List Segment → List (OPSDTarget 𝕜 τ) → List (List Int) →
      List (List ν × List Bool)
  | offset, seg :: segs, target :: targets, mask :: masks =>
      (List.zipWith (kernel.loss config vocabSize) (predictionBlock rows offset seg)
          target.logProbs.rows,
        mask.map fun entry => decide (entry ≠ 0)) ::
        paired kernel vocabSize config rows (offset + seg.tokens.length) segs targets
          masks
  | _, _, _, _ => []

/-- Every mask of a microbatch is one of its response. -/
def MasksFit (masks : List (List Int)) (segs : List Segment) : Prop :=
  ∀ pair ∈ masks.zip segs, BinaryMask pair.1 pair.2.response

instance (masks : List (List Int)) (segs : List Segment) :
    Decidable (MasksFit masks segs) := by
  unfold MasksFit; infer_instance

theorem masksFit_cons {mask : List Int} {masks : List (List Int)} {seg : Segment}
    {segs : List Segment} :
    MasksFit (mask :: masks) (seg :: segs) ↔
      BinaryMask mask seg.response ∧ MasksFit masks segs := by
  unfold MasksFit
  rw [List.zip_cons_cons, List.forall_mem_cons]

/-- The loop returns the paired rows when every mask is one, and raises over
the first that is not. -/
theorem referenceRowsFrom_of_fits
    (hvocab : checkVocab tp vocabSize logits.localVocab logits.isFloating
      config.temperature = .ok ())
    {segs : List Segment} (hvalid : ∀ seg ∈ segs, seg.Valid) :
    ∀ {offset : Nat} {targets : List (OPSDTarget 𝕜 τ)} {masks : List (List Int)},
      List.Forall₂ (Fits config vocabSize vocabStart
        (validWidth tp vocabSize logits.localVocab) rolloutId) segs targets →
      masks.length = segs.length →
      offset + packedLength segs ≤ logits.rows.length →
      referenceRowsFrom kernel tp vocabSize vocabStart config logits offset
          (segs.map fun seg => (seg.tokens.length : Int))
          (segs.map fun seg => (seg.response : Int)) targets
          (segs.map fun seg => some seg.index) (segs.map Segment.tokens) masks
          (segs.map fun _ => rolloutId) =
        if MasksFit masks segs then
          .ok (paired kernel vocabSize config logits.rows offset segs targets masks)
        else .error maskError := by
  induction segs with
  | nil =>
      intro offset targets masks hfits hmasks _
      cases hfits
      rw [List.length_eq_zero_iff.mp hmasks]
      rfl
  | cons seg segs ih =>
      intro offset targets masks hfits hmasks hrows
      rw [packedLength_cons] at hrows
      have hseg : seg.Valid := hvalid seg (by simp)
      have hblock : offset + seg.tokens.length ≤ logits.rows.length := by omega
      cases hfits with
      | @cons _ target _ targets hfit hfits =>
          match masks with
          | [] => cases hmasks
          | mask :: masks =>
              have hrest := @ih (fun s hs => hvalid s (by simp [hs]))
                (offset + seg.tokens.length) targets masks hfits (by simpa using hmasks)
                (by omega)
              rw [Int.natCast_add] at hrest
              simp only [List.map_cons, referenceRowsFrom]
              rw [responseLogitsNext_ok hseg hblock, except_ok_bind,
                referenceSample_of_fits hvocab hseg hfit
                  (predictionBlock_length hseg hblock), hrest]
              by_cases hmask : BinaryMask mask seg.response
              · rw [if_pos hmask, except_ok_bind]
                by_cases hall : MasksFit masks segs
                · rw [if_pos hall, if_pos (masksFit_cons.mpr ⟨hmask, hall⟩),
                    except_ok_bind]
                  rfl
                · rw [if_neg hall, if_neg (fun h => hall (masksFit_cons.mp h).2),
                    except_error_bind]
              · rw [if_neg hmask, if_neg (fun h => hmask (masksFit_cons.mp h).1),
                  except_error_bind]

omit [LinearOrder 𝕜] [Zero 𝕜] in
/-- Entry `s` of the paired rows. -/
theorem paired_getElem? {rows : List ρ} {segs : List Segment} :
    ∀ {offset s : Nat} {targets : List (OPSDTarget 𝕜 τ)} {masks : List (List Int)}
      (hs : s < segs.length) (ht : s < targets.length) (_ : s < masks.length),
      ((paired kernel vocabSize config rows offset segs targets masks)[s]?).map
          Prod.fst =
        some (List.zipWith (kernel.loss config vocabSize)
          (predictionBlock rows
            (offset + segmentOffset (segs.map fun seg => seg.tokens.length) s)
            segs[s])
          targets[s].logProbs.rows) := by
  induction segs with
  | nil => intro offset s _ _ hs; exact absurd hs (Nat.not_lt_zero s)
  | cons seg segs ih =>
      intro offset s targets masks hs ht hm
      match targets, masks with
      | target :: targets, mask :: masks =>
          cases s with
          | zero => simp [paired]
          | succ s =>
              rw [paired, List.getElem?_cons_succ,
                ih (by simpa using hs) (by simpa using ht) (by simpa using hm),
                List.map_cons, segmentOffset_cons_succ]
              simp only [List.getElem_cons_succ, Nat.add_assoc]
      | [], _ => exact absurd ht (Nat.not_lt_zero s)
      | _ :: _, [] => exact absurd hm (Nat.not_lt_zero s)

omit [LinearOrder 𝕜] [Zero 𝕜] in
theorem paired_length {rows : List ρ} {segs : List Segment} :
    ∀ {offset : Nat} {targets : List (OPSDTarget 𝕜 τ)} {masks : List (List Int)},
      targets.length = segs.length → masks.length = segs.length →
      (paired kernel vocabSize config rows offset segs targets masks).length =
        segs.length := by
  induction segs with
  | nil => intro offset targets masks _ _; rfl
  | cons seg segs ih =>
      intro offset targets masks ht hm
      match targets, masks with
      | target :: targets, mask :: masks =>
          rw [paired, List.length_cons, List.length_cons,
            ih (by simpa using ht) (by simpa using hm)]
      | [], _ => cases ht
      | _ :: _, [] => cases hm

omit [LinearOrder 𝕜] [Zero 𝕜] in
theorem paired_masks {rows : List ρ} {segs : List Segment} :
    ∀ {offset : Nat} {targets : List (OPSDTarget 𝕜 τ)} {masks : List (List Int)},
      targets.length = segs.length → masks.length = segs.length →
      (paired kernel vocabSize config rows offset segs targets masks).map Prod.snd =
        masks.map fun mask => mask.map fun entry => decide (entry ≠ 0) := by
  induction segs with
  | nil =>
      intro offset targets masks _ hm
      rw [List.length_eq_zero_iff.mp hm]
      rfl
  | cons seg segs ih =>
      intro offset targets masks ht hm
      match targets, masks with
      | target :: targets, mask :: masks =>
          rw [paired, List.map_cons, List.map_cons,
            ih (by simpa using ht) (by simpa using hm)]
      | [], _ => cases ht
      | _ :: _, [] => cases hm

/-! ### What a return implies

The loop is now read backwards: whatever columns it is given, it returns only
if every target carried the identity its sample expects. -/

theorem responseLogitsNext_length {offset total response : Int} {block : List ρ}
    (hoffset : 0 ≤ offset)
    (h : responseLogitsNext logits offset total response = .ok block) :
    (block.length : Int) = response ∧ 0 < total := by
  simp only [responseLogitsNext, except_bind_eq_ok, check_eq_ok] at h
  obtain ⟨-, hrange, -, hstop, hblock⟩ := h
  have hslice := @pySlice_of_le ρ logits.rows (offset + total - response - 1)
    (offset + total - 1) (offset + total - response - 1).toNat (offset + total - 1).toNat
    (by omega) (by omega) (by omega) (by omega)
  rw [hslice] at hblock
  injection hblock with hblock
  rw [← hblock, List.length_drop, List.length_take]
  omega

/-- The identities the columns of a batch ask of its targets. -/
def expectedIdentities (config : OPSDLossConfig 𝕜) (vocabSize vocabStart : Nat) :
    List (Option Int) → List Int → List (List Int) → List Int →
      List (TargetIdentity 𝕜)
  | index :: indices, rolloutId :: rolloutIds, sequence :: tokens,
      response :: responses =>
      expectedIdentity config vocabSize vocabStart index rolloutId
          (responseIds sequence response) ::
        expectedIdentities config vocabSize vocabStart indices rolloutIds tokens
          responses
  | _, _, _, _ => []

theorem referenceSample_identity {student : List ρ} {target : OPSDTarget 𝕜 τ}
    {sampleIndex : Option Int} {tokens mask : List Int} {row : List ν × List Bool}
    (h : referenceSample kernel tp vocabSize vocabStart config logits student target
      sampleIndex tokens mask rolloutId = .ok row) :
    target.identity = expectedIdentity config vocabSize vocabStart sampleIndex rolloutId
      (responseIds tokens student.length) := by
  simp only [referenceSample, except_bind_eq_ok, check_eq_ok] at h
  obtain ⟨-, ⟨hindex, hrollout, hresponse⟩, -, ⟨htemp, hvocab, hstart⟩, -⟩ := h
  simp only [OPSDTarget.identity, expectedIdentity, hindex, hrollout, hresponse, htemp,
    hvocab, hstart]

theorem referenceRowsFrom_identity {responses : List Int} :
    ∀ {offset : Int} {totals : List Int} {targets : List (OPSDTarget 𝕜 τ)}
      {indices : List (Option Int)} {tokens masks : List (List Int)}
      {rolloutIds : List Int} {out : List (List ν × List Bool)},
      0 ≤ offset →
      referenceRowsFrom kernel tp vocabSize vocabStart config logits offset totals
        responses targets indices tokens masks rolloutIds = .ok out →
      targets.map OPSDTarget.identity =
        expectedIdentities config vocabSize vocabStart indices rolloutIds tokens
          responses := by
  induction responses with
  | nil =>
      intro offset totals targets indices tokens masks rolloutIds out _ h
      cases totals with
      | nil =>
          cases targets with
          | nil => cases indices <;> cases rolloutIds <;> cases tokens <;> rfl
          | cons _ _ => cases h
      | cons _ _ => cases h
  | cons response responses ih =>
      intro offset totals targets indices tokens masks rolloutIds out hoffset h
      cases totals with
      | nil => cases h
      | cons total totals =>
          simp only [referenceRowsFrom, except_bind_eq_ok] at h
          obtain ⟨student, hstudent, h⟩ := h
          cases targets with
          | nil => cases h
          | cons target targets =>
          cases indices with
          | nil => cases h
          | cons index indices =>
          cases tokens with
          | nil => cases h
          | cons sequence tokens =>
          cases masks with
          | nil => cases h
          | cons mask masks =>
          cases rolloutIds with
          | nil => cases h
          | cons rolloutId rolloutIds =>
              simp only [except_bind_eq_ok] at h
              obtain ⟨row, hrow, rest, hrest, -⟩ := h
              obtain ⟨hlen, hpos⟩ := responseLogitsNext_length hoffset hstudent
              have hid := referenceSample_identity hrow
              rw [hlen] at hid
              rw [List.map_cons, expectedIdentities, hid, ih (by omega) hrest]

end Reference

end Crisp.Proofs
