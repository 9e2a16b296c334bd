import Crisp.Proofs.ContextParallel
import Crisp.Ref.ResponseChunks

/-!
# Every layout finds the same rows

The rows that predict a response are a window of the sample's output, one position before
the response. A zigzag rank holds two chunks of the padded output, and what it finds in
them is its share of that window, of the tokens and of their places. So a value that is
computed row by row comes out the same, gathered, as on one rank.
-/

namespace Crisp.Proofs

open Crisp.Lib Crisp.Ref

section Window

variable {V α : Type} {format : QkvFormat} {maxSeqLen : Nat}

/-- A sample and its rows of the output: the lengths fit, and `bshd` pads all alike. -/
structure FitsOutput (format : QkvFormat) (maxSeqLen : Nat) (item : CpSample α × List V) :
    Prop where
  covers : CoversResponse (format.layout item.1.maxSeqLen) item.1.totalLength
    item.1.responseLength
  tokens : item.1.tokens.length = item.1.totalLength
  logits : item.2.length = item.1.totalLength
  padded : format = .bshd → item.1.maxSeqLen = maxSeqLen

/-- The rows that predict the response, its tokens and their places. -/
def wholeChunk (item : CpSample α × List V) : ResponseChunk V α :=
  ⟨(item.2.take (item.1.totalLength - 1)).drop (item.1.totalLength - item.1.responseLength - 1),
    item.1.tokens.drop (item.1.totalLength - item.1.responseLength),
    pyRange 0 item.1.responseLength⟩

theorem pyRange_length (start stop : Int) : (pyRange start stop).length = (stop - start).toNat := by
  simp [pyRange]

theorem wholeChunk_lengths {item : CpSample α × List V}
    (hfits : FitsOutput format maxSeqLen item) :
    (wholeChunk item).logits.length = item.1.responseLength ∧
      (wholeChunk item).tokens.length = item.1.responseLength ∧
      (wholeChunk item).responseIndices.length = item.1.responseLength := by
  have hprompt := hfits.covers.prompt
  have htokens := hfits.tokens
  have hlogits := hfits.logits
  simp only [wholeChunk, List.length_drop, List.length_take, pyRange_length]
  omega

/-! ## One rank -/

theorem pySlice_append {xs front back : List V} {start stop : Int} {a b : Nat}
    (ha : start = front.length + a) (hb : stop = front.length + b) (hab : a ≤ b)
    (hlen : b ≤ xs.length) :
    pySlice (front ++ xs ++ back) start stop = (xs.take b).drop a := by
  rw [pySlice_of_le (a := front.length + a) (b := front.length + b) (by omega) (by omega)
    (by omega) (by simp; omega), List.append_assoc, List.take_length_add_append,
    List.drop_length_add_append, List.take_append_of_le_length hlen]

theorem sliceWithCp_one {padValue : V} {item : CpSample α × List V}
    (hfits : FitsOutput format maxSeqLen item) :
    ∃ padding, sliceWithCp padValue format item.1.maxSeqLen 0 1 item.2 = item.2 ++ padding ∧
      (format = .thd → padding = []) ∧
      (format = .bshd → (item.2 ++ padding).length = maxSeqLen) := by
  have hpad := hfits.covers.padded
  have hlogits := hfits.logits
  cases format with
  | thd => exact ⟨[], by simp [sliceWithCp], fun _ => rfl, (fun h => by cases h)⟩
  | bshd =>
      have hmax := hfits.padded rfl
      simp only [QkvFormat.layout, QkvLayout.length] at hpad
      refine ⟨List.replicate (item.1.maxSeqLen - item.2.length) padValue, ?_,
        (fun h => by cases h), fun _ => ?_⟩
      · simp only [sliceWithCp, padTokens, if_true]
        rw [if_neg (by omega)]
        congr 2
        omega
      · rw [List.length_append, List.length_replicate]
        omega

theorem plainChunk_eq {item : CpSample α × List V} (hfits : FitsOutput format maxSeqLen item)
    {front padding back : List V} {i : Nat} {stop : Int}
    (hthd : format = .thd → stop = front.length)
    (hbshd : format = .bshd → front.length = maxSeqLen * i) :
    plainChunk format (front ++ (item.2 ++ padding) ++ back) i stop item.1 =
      (wholeChunk item, (front.length : Int) + item.1.totalLength) := by
  have hprompt := hfits.covers.prompt
  have htokens := hfits.tokens
  have hlogits := hfits.logits
  have htail : (if item.1.responseLength = 0 then [] else
      pyFrom item.1.tokens (-(item.1.responseLength : Int))) =
        item.1.tokens.drop (item.1.totalLength - item.1.responseLength) := by
    split
    · next hzero =>
        symm
        rw [List.drop_eq_nil_iff]
        omega
    · next hpos => rw [pyFrom_neg (by omega) (by omega), htokens]
  have hwindow : pySlice (front ++ (item.2 ++ padding) ++ back)
        ((front.length : Int) + item.1.totalLength - item.1.responseLength - 1)
        ((front.length : Int) + item.1.totalLength - 1) =
      (item.2.take (item.1.totalLength - 1)).drop
        (item.1.totalLength - item.1.responseLength - 1) := by
    rw [pySlice_append (a := item.1.totalLength - item.1.responseLength - 1)
      (b := item.1.totalLength - 1) (by omega) (by omega) (by omega)
      (by rw [List.length_append]; omega), List.take_append_of_le_length (by omega)]
  cases format with
  | thd =>
      simp only [plainChunk, hthd rfl, htail]
      rw [hwindow]
      rfl
  | bshd =>
      have hcount : (maxSeqLen : Int) * i = front.length := by
        rw [hbshd rfl]
        push_cast
        rfl
      simp only [plainChunk, hfits.padded rfl, hcount, htail]
      rw [hwindow]
      rfl

/-- One turn of the loop. -/
theorem iterResponseChunksFrom_cons {cp : CpState} {logits : List V} {i : Nat}
    {stop stop' seqStart : Int} {sample : CpSample α} {chunk : ResponseChunk V α}
    (hchunk : responseChunk format cp logits i stop seqStart sample = .ok (chunk, stop'))
    (hlen : chunk.responseIndices.length = chunk.tokens.length) (samples : List (CpSample α)) :
    iterResponseChunksFrom format cp logits i stop seqStart (sample :: samples) =
      (iterResponseChunksFrom format cp logits (i + 1) stop' (seqStart + sample.totalLength)
        samples >>= fun chunks => .ok (chunk :: chunks)) := by
  rw [iterResponseChunksFrom, hchunk, except_ok_bind]
  show (check _ _ >>= fun _ => _) = _
  rw [check_of hlen, except_ok_bind]

theorem iterResponseChunks_plain {padValue : V} (tail : List V)
    (batch : List (CpSample α × List V))
    (hbatch : ∀ item ∈ batch, FitsOutput format maxSeqLen item) :
    ∀ (i : Nat) (stop seqStart : Int) (front : List V),
      (format = .thd → stop = front.length) → (format = .bshd → front.length = maxSeqLen * i) →
      iterResponseChunksFrom format ⟨0, 1, false⟩
          (front ++ ((batch.flatMap fun item =>
            sliceWithCp padValue format item.1.maxSeqLen 0 1 item.2) ++ tail))
          i stop seqStart (batch.map Prod.fst) = .ok (batch.map wholeChunk) := by
  induction batch with
  | nil =>
      intro i stop seqStart front _ _
      rfl
  | cons item batch ih =>
      intro i stop seqStart front hthd hbshd
      have hfits := hbatch item List.mem_cons_self
      obtain ⟨padding, hslice, hnone, hfull⟩ := @sliceWithCp_one _ _ _ _ padValue item hfits
      have hlengths := wholeChunk_lengths hfits
      have hlogits := hfits.logits
      have hturn := fun back => show responseChunk format ⟨0, 1, false⟩
          (front ++ (item.2 ++ padding) ++ back) i stop seqStart item.1 =
        .ok (wholeChunk item, (front.length : Int) + item.1.totalLength) by
          rw [responseChunk, if_pos rfl, plainChunk_eq hfits hthd hbshd]
      rw [List.flatMap_cons, hslice, List.append_assoc, ← List.append_assoc front, List.map_cons,
        iterResponseChunksFrom_cons (hturn _) (by omega),
        ih (fun item hitem => hbatch item (List.mem_cons_of_mem _ hitem)) (i + 1) _ _
          (front ++ (item.2 ++ padding)), except_ok_bind]
      · rfl
      · intro hformat
        rw [hnone hformat, List.append_nil, List.length_append]
        omega
      · intro hformat
        rw [List.length_append, hfull hformat, hbshd hformat, Nat.mul_succ]

/-! ## Zigzag ranks -/

variable {cpRank cpSize : Nat}

/-- A rank's share of the rows, the tokens and their places. -/
def shareChunk (format : QkvFormat) (cpRank cpSize : Nat) (item : CpSample α × List V) :
    ResponseChunk V α :=
  ⟨responseShare (format.layout item.1.maxSeqLen) item.1.totalLength item.1.responseLength cpRank
      cpSize (wholeChunk item).logits,
    responseShare (format.layout item.1.maxSeqLen) item.1.totalLength item.1.responseLength cpRank
      cpSize (wholeChunk item).tokens,
    responseShare (format.layout item.1.maxSeqLen) item.1.totalLength item.1.responseLength cpRank
      cpSize (wholeChunk item).responseIndices⟩

/-- The segment of a number. -/
def segmentOf (size : Nat) (xs : List V) (j : Nat) : List V :=
  (xs.take ((j + 1) * size)).drop (j * size)

theorem segmentOf_length {size j : Nat} {xs : List V} (h : (j + 1) * size ≤ xs.length) :
    (segmentOf size xs j).length = size := by
  have hstep : (j + 1) * size = j * size + size := Nat.succ_mul j size
  simp only [segmentOf, List.length_drop, List.length_take]
  omega

/-- A slice of a segment is a slice of the whole. -/
theorem pySlice_segmentOf {size j a b : Nat} {xs : List V} {start stop : Int}
    (ha : start + (j * size : Nat) = a) (hb : stop + (j * size : Nat) = b)
    (hfrom : j * size ≤ a) (hab : a ≤ b) (hto : b ≤ (j + 1) * size)
    (hlen : (j + 1) * size ≤ xs.length) :
    pySlice (segmentOf size xs j) start stop = (xs.take b).drop a := by
  have hlength := segmentOf_length hlen
  have hstep : (j + 1) * size = j * size + size := Nat.succ_mul j size
  rw [pySlice_of_le (a := a - j * size) (b := b - j * size) (by omega) (by omega) (by omega)
    (by omega), segmentOf, List.take_drop, List.take_take, List.drop_drop]
  congr 1
  · omega
  · congr 1
    omega

theorem sliceWithCp_segments {padValue : V} {item : CpSample α × List V}
    (hfits : FitsOutput format maxSeqLen item) (hrank : cpRank < cpSize) (hsize : cpSize ≠ 1) :
    ∃ padding, let size := chunkSize (format.layout item.1.maxSeqLen) item.1.totalLength cpSize
      sliceWithCp padValue format item.1.maxSeqLen cpRank cpSize item.2 =
          segmentOf size (item.2 ++ padding) cpRank ++
            segmentOf size (item.2 ++ padding) (mirror cpSize cpRank) ∧
        (item.2 ++ padding).length = 2 * cpSize * size := by
  have hcover : (format.layout item.1.maxSeqLen).length item.1.totalLength ≤
      chunkSize (format.layout item.1.maxSeqLen) item.1.totalLength cpSize * (2 * cpSize) :=
    le_ceil_mul (by omega)
  have hpad := hfits.covers.padded
  have hlogits := hfits.logits
  have hback : ((mirror cpSize cpRank : Nat) : Int) = 2 * cpSize - cpRank - 1 := by
    unfold mirror
    omega
  have hlast : mirror cpSize cpRank + 1 ≤ 2 * cpSize := by
    unfold mirror
    omega
  unfold sliceWithCp
  rw [if_neg hsize, hlogits]
  generalize chunkSize (format.layout item.1.maxSeqLen) item.1.totalLength cpSize = size at *
  have hcover' : item.1.totalLength ≤ 2 * cpSize * size := by
    rw [Nat.mul_comm]
    omega
  have htotal : 2 * (cpSize : Int) * size = (2 * cpSize * size : Nat) := by
    push_cast
    rfl
  have hlength : (item.2 ++ List.replicate (2 * cpSize * size - item.1.totalLength)
      padValue).length = 2 * cpSize * size := by
    rw [List.length_append, List.length_replicate]
    omega
  refine ⟨List.replicate (2 * cpSize * size - item.1.totalLength) padValue, ?_, hlength⟩
  have hpadded : padTokens padValue item.2 (2 * (cpSize : Int) * size - item.1.totalLength) =
      item.2 ++ List.replicate (2 * cpSize * size - item.1.totalLength) padValue := by
    rw [padTokens, if_neg (by omega)]
    congr 2
    omega
  simp only [hpadded]
  have hfront₁ := Nat.mul_le_mul_right size (show cpRank + 1 ≤ 2 * cpSize by omega)
  have hback₁ := Nat.mul_le_mul_right size hlast
  rw [pySlice_of_le (a := cpRank * size) (b := (cpRank + 1) * size) (by push_cast; rw [mul_comm])
      (by push_cast; rw [mul_comm]) (Nat.mul_le_mul_right size (Nat.le_succ _)) (by omega),
    pySlice_of_le (a := mirror cpSize cpRank * size) (b := (mirror cpSize cpRank + 1) * size)
      (by push_cast; rw [hback, mul_comm]) (by push_cast; rw [hback, sub_add_cancel, mul_comm])
      (Nat.mul_le_mul_right size (Nat.le_succ _)) (by omega)]
  rfl

/-- What a rank reads in one of its chunks, at the offsets of the logits. -/
theorem pySlice_logitsSegment {item : CpSample α × List V} {padding : List V} {j : Nat}
    (hfits : FitsOutput format maxSeqLen item)
    (hlen : (j + 1) * chunkSize (format.layout item.1.maxSeqLen) item.1.totalLength cpSize ≤
      (item.2 ++ padding).length) :
    let layout := format.layout item.1.maxSeqLen
    let chunk := chunkOf layout item.1.totalLength cpSize j
    let offset := logitsOffset chunk (item.1.totalLength - item.1.responseLength)
      item.1.totalLength
    pySlice (segmentOf (chunkSize layout item.1.totalLength cpSize) (item.2 ++ padding) j)
        (offset.1 - chunk.1) (offset.2 - chunk.1) =
      cutPiece (responseCut layout item.1.totalLength item.1.responseLength cpSize)
        (wholeChunk item).logits j := by
  have hprompt := hfits.covers.prompt
  have hlogits := hfits.logits
  have hle := @responseCut_le _ _ _ cpSize hfits.covers (j + 1)
  simp only
  rcases @logitsOffset_chunkOf _ _ _ cpSize hfits.covers j with
    ⟨hoffset, _, hlt, hfrom, hto⟩ | ⟨hoffset, _, hempty⟩
  · simp only [chunkOf] at hfrom hto
    rw [hoffset]
    generalize responseCut (format.layout item.1.maxSeqLen) item.1.totalLength
      item.1.responseLength cpSize = cut at *
    rw [pySlice_segmentOf (a := item.1.totalLength - item.1.responseLength - 1 + cut j)
      (b := item.1.totalLength - item.1.responseLength - 1 + cut (j + 1))
      (by simp only [chunkOf]; omega) (by simp only [chunkOf]; omega) (by omega) (by omega)
      (by omega) hlen, List.take_append_of_le_length (by omega), cutPiece, wholeChunk,
      List.take_drop, List.take_take, List.drop_drop]
    congr 2
    omega
  · rw [hoffset, pySlice_self, cutPiece_empty hempty]

/-- The tokens at the offsets of the tokens, which count from the start of the sample. -/
theorem pySlice_sampleTokens {item : CpSample α × List V} (hfits : FitsOutput format maxSeqLen item)
    (j : Nat) :
    let layout := format.layout item.1.maxSeqLen
    let offset := tokensOffset (chunkOf layout item.1.totalLength cpSize j)
      (item.1.totalLength - item.1.responseLength) item.1.totalLength
    pySlice item.1.tokens offset.1 offset.2 =
      cutPiece (responseCut layout item.1.totalLength item.1.responseLength cpSize)
        (wholeChunk item).tokens j := by
  have hprompt := hfits.covers.prompt
  have htokens := hfits.tokens
  have hle := @responseCut_le _ _ _ cpSize hfits.covers (j + 1)
  simp only
  rcases @logitsOffset_chunkOf _ _ _ cpSize hfits.covers j with
    ⟨_, hoffset, hlt, _, _⟩ | ⟨_, hoffset, hempty⟩
  · rw [hoffset]
    generalize responseCut (format.layout item.1.maxSeqLen) item.1.totalLength
      item.1.responseLength cpSize = cut at *
    rw [pySlice_of_le (a := item.1.totalLength - item.1.responseLength + cut j)
      (b := item.1.totalLength - item.1.responseLength + cut (j + 1)) (by simp only; omega)
      (by simp only; omega) (by omega) (by omega), cutPiece, wholeChunk, List.take_drop,
      List.drop_drop]
  · rw [hoffset, pySlice_self, cutPiece_empty hempty]

theorem pyRange_sampleIndices {item : CpSample α × List V}
    (hfits : FitsOutput format maxSeqLen item) (j : Nat) :
    let layout := format.layout item.1.maxSeqLen
    let promptLength : Int := item.1.totalLength - item.1.responseLength
    let offset := tokensOffset (chunkOf layout item.1.totalLength cpSize j) promptLength
      item.1.totalLength
    pyRange (offset.1 - promptLength) (offset.2 - promptLength) =
      cutPiece (responseCut layout item.1.totalLength item.1.responseLength cpSize)
        (wholeChunk item).responseIndices j := by
  have hle := @responseCut_le _ _ _ cpSize hfits.covers (j + 1)
  simp only
  rcases @logitsOffset_chunkOf _ _ _ cpSize hfits.covers j with
    ⟨_, hoffset, hlt, _, _⟩ | ⟨_, hoffset, hempty⟩
  · rw [hoffset]
    generalize responseCut (format.layout item.1.maxSeqLen) item.1.totalLength
      item.1.responseLength cpSize = cut at *
    have hcount : (wholeChunk item).responseIndices.length = item.1.responseLength := by
      simp [wholeChunk, pyRange_length]
    apply List.ext_getElem
    · rw [pyRange_length, cutPiece_length (by omega)]
      simp only
      omega
    intro t ht _
    simp [pyRange, cutPiece, wholeChunk]
    omega
  · rw [hoffset, cutPiece_empty hempty]
    simp [pyRange]

theorem cutPiece_length_eq {β γ : Type} {cut : Nat → Nat} {xs : List β} {ys : List γ}
    (h : xs.length = ys.length) (j : Nat) :
    (cutPiece cut xs j).length = (cutPiece cut ys j).length := by
  simp only [cutPiece, List.length_drop, List.length_take, h]

/-- In a zigzag rank's output the rows of a sample are its share. -/
theorem zigzagChunk_eq {padValue : V} {item : CpSample α × List V}
    (hfits : FitsOutput format maxSeqLen item) (hrank : cpRank < cpSize) (hsize : cpSize ≠ 1)
    (front back : List V) :
    zigzagChunk format ⟨cpRank, cpSize, false⟩
        (front ++ sliceWithCp padValue format item.1.maxSeqLen cpRank cpSize item.2 ++ back)
        front.length item.1 =
      .ok (shareChunk format cpRank cpSize item, ((front ++ sliceWithCp padValue format
        item.1.maxSeqLen cpRank cpSize item.2).length : Int)) := by
  obtain ⟨padding, hslice, hlength⟩ := @sliceWithCp_segments _ _ _ _ _ _ padValue item hfits hrank
    hsize
  have hlast : mirror cpSize cpRank + 1 ≤ 2 * cpSize := by
    unfold mirror
    omega
  have hfront := Nat.mul_le_mul_right
    (chunkSize (format.layout item.1.maxSeqLen) item.1.totalLength cpSize)
    (show cpRank + 1 ≤ 2 * cpSize by omega)
  have hback := Nat.mul_le_mul_right
    (chunkSize (format.layout item.1.maxSeqLen) item.1.totalLength cpSize) hlast
  have hlogits₀ := @pySlice_logitsSegment _ _ _ _ cpSize item padding cpRank hfits (by omega)
  have hlogits₁ := @pySlice_logitsSegment _ _ _ _ cpSize item padding (mirror cpSize cpRank) hfits
    (by omega)
  have htokens := @pySlice_sampleTokens _ _ _ _ cpSize item hfits
  have hindices := @pyRange_sampleIndices _ _ _ _ cpSize item hfits
  have hlength₀ := segmentOf_length (hfront.trans hlength.ge)
  have hlength₁ := segmentOf_length (hback.trans hlength.ge)
  obtain ⟨hrows, hsize, hplaces⟩ := wholeChunk_lengths hfits
  rw [hslice]
  simp only [zigzagChunk, cpLogitsOffset, cpTokensOffset, cpChunks_eq hrank]
  simp only at hlogits₀ hlogits₁ htokens hindices
  rw [htokens, htokens, hindices, hindices]
  generalize chunkSize (format.layout item.1.maxSeqLen) item.1.totalLength cpSize = size at *
  generalize segmentOf size (item.2 ++ padding) cpRank = seg₀ at *
  generalize segmentOf size (item.2 ++ padding) (mirror cpSize cpRank) = seg₁ at *
  rw [pySlice_append (a := 0) (b := size) (by omega) (by omega) (by omega)
      (by rw [List.length_append]; omega),
    pySlice_append (a := size) (b := 2 * size) (by omega) (by push_cast; omega) (by omega)
      (by rw [List.length_append]; omega), List.drop_zero, List.take_left' hlength₀,
    List.take_of_length_le (by rw [List.length_append]; omega), List.drop_left' hlength₀,
    hlogits₀, hlogits₁, check_of (cutPiece_length_eq (by omega) _), except_ok_bind,
    check_of (cutPiece_length_eq (by omega) _), except_ok_bind]
  refine congrArg Except.ok (Prod.ext rfl ?_)
  simp only [List.length_append]
  push_cast
  omega

theorem zigzag_length_eq {β γ : Type} {cut : Nat → Nat} {n r : Nat} {xs : List β} {ys : List γ}
    (h : xs.length = ys.length) : (zigzag cut n r xs).length = (zigzag cut n r ys).length := by
  rw [zigzag, zigzag, List.length_append, List.length_append, cutPiece_length_eq h,
    cutPiece_length_eq h]

theorem iterResponseChunks_shares {padValue : V} (tail : List V) (hrank : cpRank < cpSize)
    (hsize : cpSize ≠ 1)
    (batch : List (CpSample α × List V))
    (hbatch : ∀ item ∈ batch, FitsOutput format maxSeqLen item) :
    ∀ (i : Nat) (seqStart : Int) (front : List V),
      iterResponseChunksFrom format ⟨cpRank, cpSize, false⟩
          (front ++ ((batch.flatMap fun item =>
            sliceWithCp padValue format item.1.maxSeqLen cpRank cpSize item.2) ++ tail))
          i front.length seqStart (batch.map Prod.fst) =
        .ok (batch.map (shareChunk format cpRank cpSize)) := by
  induction batch with
  | nil =>
      intro i seqStart front
      rfl
  | cons item batch ih =>
      intro i seqStart front
      have hfits := hbatch item List.mem_cons_self
      obtain ⟨-, htokens, hindices⟩ := wholeChunk_lengths hfits
      have hturn := fun back => show responseChunk format ⟨cpRank, cpSize, false⟩
          (front ++ sliceWithCp padValue format item.1.maxSeqLen cpRank cpSize item.2 ++ back) i
          front.length seqStart item.1 = .ok (shareChunk format cpRank cpSize item, ((front ++
            sliceWithCp padValue format item.1.maxSeqLen cpRank cpSize item.2).length : Int)) by
          rw [responseChunk, if_neg hsize]
          exact zigzagChunk_eq hfits hrank hsize front back
      rw [List.flatMap_cons, List.append_assoc, ← List.append_assoc front, List.map_cons,
        iterResponseChunksFrom_cons (hturn _) (zigzag_length_eq (hindices.trans htokens.symm)),
        ih fun item hitem => hbatch item (List.mem_cons_of_mem _ hitem), except_ok_bind]
      rfl

variable {K : Type}

/-- What is computed row by row of a share is the share of what is computed of the whole. -/
theorem shareChunk_rows {item : CpSample α × List V} (hfits : FitsOutput format maxSeqLen item)
    (value : V → α → K) :
    (shareChunk format cpRank cpSize item).rows value =
      responseShare (format.layout item.1.maxSeqLen) item.1.totalLength item.1.responseLength
        cpRank cpSize ((wholeChunk item).rows value) := by
  obtain ⟨hlogits, htokens, -⟩ := wholeChunk_lengths hfits
  exact (zigzag_zipWith _ (hlogits.trans htokens.symm)).symm

/-- A part is what `slice_log_prob_with_cp` cuts from a chunk. -/
structure SlicedChunk (sample : CpSample α) (layout : QkvLayout) (cpRank cpSize : Nat)
    (chunk part : ResponseChunk V α) : Prop where
  logits : sliceLogProbWithCp layout sample.totalLength sample.responseLength cpRank cpSize
    chunk.logits = .ok part.logits
  tokens : sliceLogProbWithCp layout sample.totalLength sample.responseLength cpRank cpSize
    chunk.tokens = .ok part.tokens
  responseIndices : sliceLogProbWithCp layout sample.totalLength sample.responseLength cpRank
    cpSize chunk.responseIndices = .ok part.responseIndices

/-- **The zigzag layout.** Where every rank has its slice of the model's output, with any rows
behind that the batch is padded with, what it finds of each response is what
`slice_log_prob_with_cp` cuts from the rows, tokens and places that one rank finds; and a value
computed row by row is, gathered, the one rank's. -/
theorem iterResponseChunks_zigzag [DivisionRing K] (format : QkvFormat) (maxSeqLen cpSize : Nat)
    (padValue : V) (tail : List V) (tails : Nat → List V) (batch : List (CpSample α × List V))
    (hsize : 1 < cpSize) (hbatch : ∀ item ∈ batch, FitsOutput format maxSeqLen item) :
    ∃ (whole : List (ResponseChunk V α)) (parts : Nat → List (ResponseChunk V α)),
      iterResponseChunks format ⟨0, 1, false⟩ ((batch.flatMap fun item =>
          sliceWithCp padValue format item.1.maxSeqLen 0 1 item.2) ++ tail) (batch.map Prod.fst) =
        .ok whole ∧ whole.length = batch.length ∧
      (∀ cpRank < cpSize, iterResponseChunks format ⟨cpRank, cpSize, false⟩
          ((batch.flatMap fun item =>
            sliceWithCp padValue format item.1.maxSeqLen cpRank cpSize item.2) ++ tails cpRank)
          (batch.map Prod.fst) = .ok (parts cpRank) ∧ (parts cpRank).length = batch.length) ∧
      ∀ (i : Nat) (item : CpSample α × List V) (chunk : ResponseChunk V α),
        batch[i]? = some item → whole[i]? = some chunk →
        (∀ cpRank < cpSize, ∃ part, (parts cpRank)[i]? = some part ∧
          SlicedChunk item.1 (format.layout item.1.maxSeqLen) cpRank cpSize chunk part) ∧
        ∀ value : V → α → K, allGatherWithCp (format.layout item.1.maxSeqLen)
            item.1.totalLength item.1.responseLength cpSize
            ((List.range cpSize).map fun cpRank =>
              ((parts cpRank)[i]?.map (ResponseChunk.rows value)).getD []) =
          .ok (chunk.rows value) := by
  have hne : cpSize ≠ 1 := by omega
  refine ⟨batch.map wholeChunk, fun cpRank => batch.map (shareChunk format cpRank cpSize),
    ?_, List.length_map _, fun cpRank hrank => ⟨?_, List.length_map _⟩, ?_⟩
  · exact iterResponseChunks_plain tail batch hbatch 0 0 0 [] (fun _ => rfl) fun _ => rfl
  · exact iterResponseChunks_shares (tails cpRank) hrank hne batch hbatch 0 0 []
  intro i item chunk hitem hchunk
  rw [List.getElem?_map, hitem, Option.map_some, Option.some_inj] at hchunk
  obtain rfl := hchunk
  have hfits := hbatch item (List.mem_of_getElem? hitem)
  obtain ⟨hlogits, htokens, hindices⟩ := wholeChunk_lengths hfits
  refine ⟨fun cpRank hrank => ⟨shareChunk format cpRank cpSize item, ?_,
    sliceLogProbWithCp_eq hfits.covers hrank hne hlogits,
    sliceLogProbWithCp_eq hfits.covers hrank hne htokens,
    sliceLogProbWithCp_eq hfits.covers hrank hne hindices⟩, fun value => ?_⟩
  · rw [List.getElem?_map, hitem, Option.map_some]
  · have hparts : ((List.range cpSize).map fun cpRank =>
          (((batch.map (shareChunk format cpRank cpSize))[i]?).map
            (ResponseChunk.rows value)).getD []) =
        (List.range cpSize).map fun cpRank =>
          responseShare (format.layout item.1.maxSeqLen) item.1.totalLength
            item.1.responseLength cpRank cpSize ((wholeChunk item).rows value) := by
      refine List.map_congr_left fun cpRank _ => ?_
      rw [List.getElem?_map, hitem, Option.map_some, Option.map_some, Option.getD_some,
        shareChunk_rows hfits]
    rw [hparts]
    refine allGatherWithCp_shares hfits.covers hsize ?_
    rw [ResponseChunk.rows, List.length_zipWith]
    omega

/-- Two tokens behind one; a row of logits is its own position. -/
def twoOfThree : CpSample Nat × List Nat :=
  (⟨[7, 8, 9], 3, 2, 0⟩, [0, 1, 2])

theorem iterResponseChunks_zigzag_two :
    ∃ (whole : List (ResponseChunk Nat Nat)) (parts : Nat → List (ResponseChunk Nat Nat)),
      iterResponseChunks .thd ⟨0, 1, false⟩ (([twoOfThree].flatMap fun item =>
          sliceWithCp 0 .thd item.1.maxSeqLen 0 1 item.2) ++ [0]) ([twoOfThree].map Prod.fst) =
        .ok whole ∧ whole.length = 1 ∧
      ∀ cpRank < 2, iterResponseChunks .thd ⟨cpRank, 2, false⟩
          (([twoOfThree].flatMap fun item =>
            sliceWithCp 0 .thd item.1.maxSeqLen cpRank 2 item.2) ++ [cpRank])
          ([twoOfThree].map Prod.fst) = .ok (parts cpRank) ∧ (parts cpRank).length = 1 := by
  obtain ⟨whole, parts, hwhole, hcount, hparts, -⟩ :=
    @iterResponseChunks_zigzag Nat Nat ℚ _ .thd 0 2 0 [0] (fun cpRank => [cpRank]) [twoOfThree]
      (by decide) fun item hitem => by
      obtain rfl := List.mem_singleton.mp hitem
      exact ⟨⟨by decide, by decide⟩, rfl, rfl, fun h => by cases h⟩
  exact ⟨whole, parts, hwhole, hcount, hparts⟩

end Window

end Crisp.Proofs
