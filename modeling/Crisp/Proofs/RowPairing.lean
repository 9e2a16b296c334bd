import Crisp.Ref.OpsdWorker

/-!
# Teacher and student rows of a micro-batch pair up

A surviving sample gives two sequences with one response behind two prompts.
Read behind either mask, the rows of such a sequence that predict its response
are the window of one position per response token that starts just before the
response. The padded path finds the window in every row by itself. The unpadded
path shifts the concatenation of all rows, and that is the same thing because
the entry pulled over each seam belongs to a prompt, and no prompt is empty.

`predicted` lists the windows in order. Both paths compute it, and two lists of
rows with the same responses have windows that correspond entry by entry.
-/

namespace Crisp.Proofs

open Crisp.Lib Crisp.Ref

variable {Λ : Type}

/-! ## Tokenized rows -/

/-- A sequence before the masks: prompt, response and padding. -/
structure Row where
  prompt : List Int
  response : List Int
  padding : List Int

def Row.sequence (row : Row) : Sequence :=
  { inputIds := row.prompt ++ (row.response ++ row.padding)
    attentionMask := List.replicate (row.prompt.length + row.response.length) 1 ++
      List.replicate row.padding.length 0
    positionIds := List.range (row.prompt.length + row.response.length) ++
      List.replicate row.padding.length 0
    lossMask := List.replicate row.prompt.length 0 ++
      (List.replicate row.response.length 1 ++ List.replicate row.padding.length 0) }

theorem tensor_cons {id : Option Int} {ids : List (Option Int)} {out : List Int} :
    tensor (id :: ids) = .ok out ↔
      ∃ x xs, id = some x ∧ tensor ids = .ok xs ∧ out = x :: xs := by
  unfold tensor
  rw [List.mapM_cons, except_bind_eq_ok]
  constructor
  · rintro ⟨x, hx, hrest⟩
    obtain ⟨xs, hxs, hout⟩ := except_bind_eq_ok.mp hrest
    cases id with
    | none => cases hx
    | some y =>
        cases hx
        cases hout
        exact ⟨x, xs, rfl, hxs, rfl⟩
  · rintro ⟨x, xs, rfl, hxs, rfl⟩
    exact ⟨x, rfl, except_bind_eq_ok.mpr ⟨xs, hxs, rfl⟩⟩

theorem tensor_length {ids : List (Option Int)} :
    ∀ {out : List Int}, tensor ids = .ok out → out.length = ids.length := by
  induction ids with
  | nil =>
      intro out h
      cases h
      rfl
  | cons id ids ih =>
      intro out h
      obtain ⟨x, xs, -, hxs, rfl⟩ := tensor_cons.mp h
      simp [ih hxs]

/-- A tensor of a concatenation is the concatenation of the tensors. -/
theorem tensor_append {front back : List (Option Int)} :
    ∀ {out : List Int}, tensor (front ++ back) = .ok out →
      ∃ xs ys, tensor front = .ok xs ∧ tensor back = .ok ys ∧ out = xs ++ ys := by
  induction front with
  | nil => intro out h; exact ⟨[], out, rfl, h, rfl⟩
  | cons id ids ih =>
      intro out h
      obtain ⟨x, rest, rfl, hrest, rfl⟩ := tensor_cons.mp h
      obtain ⟨xs, ys, hxs, hys, rfl⟩ := ih hrest
      exact ⟨x :: xs, ys, tensor_cons.mpr ⟨x, xs, rfl, hxs, rfl⟩, hys, rfl⟩

theorem tensor_some {ids out : List Int} (h : tensor (ids.map some) = .ok out) :
    out = ids := by
  induction ids generalizing out with
  | nil => cases h; rfl
  | cons id ids ih =>
      obtain ⟨x, xs, hx, hxs, rfl⟩ := tensor_cons.mp h
      cases hx
      rw [ih hxs]

/-- What `_tokenize_sequence` returns when it does not drop the sequence. -/
theorem tokenizeSequence_some {tok : Tokenizer} {promptStr text : String}
    {maxLength : Int} {pad : Option Int} {seq : Sequence}
    (h : tokenizeSequence promptStr text tok maxLength pad = .ok (some seq)) :
    ∃ row : Row, tok.applyChatTemplate promptStr = .ok row.prompt ∧
      tensor (tok.responseIds text) = .ok row.response ∧ seq = row.sequence := by
  unfold tokenizeSequence at h
  obtain ⟨prompt, hprompt, h⟩ := except_bind_eq_ok.mp h
  simp only at h
  split at h
  · cases h
  split at h
  · cases h
  obtain ⟨ids, hids, h⟩ := except_bind_eq_ok.mp h
  cases h
  obtain ⟨front, padding, hfront, hpadding, rfl⟩ := tensor_append hids
  obtain ⟨prompt', response, hprompt', hresponse, rfl⟩ := tensor_append hfront
  obtain rfl := tensor_some hprompt'
  have hr := tensor_length hresponse
  have hp := tensor_length hpadding
  rw [List.length_replicate, List.length_append, List.length_map] at hp
  refine ⟨⟨prompt', response, padding⟩, hprompt, hresponse, ?_⟩
  simp only [Row.sequence, List.length_append, List.length_map, hr, hp,
    List.append_assoc]

/-- A sample both of whose sequences fit. -/
structure KeptSample (tok : Tokenizer) where
  sample : OpsdSample
  teacher : Row
  student : Row
  teacher_prompt : tok.applyChatTemplate sample.teacherPrompt = .ok teacher.prompt
  student_prompt : tok.applyChatTemplate sample.studentPrompt = .ok student.prompt
  teacher_response : tensor (tok.responseIds sample.response) = .ok teacher.response
  student_response : tensor (tok.responseIds sample.response) = .ok student.response

theorem KeptSample.response_eq {tok : Tokenizer} (k : KeptSample tok) :
    k.teacher.response = k.student.response := by
  have h := k.teacher_response.symm.trans k.student_response
  injection h

/-- The loop keeps samples in order and drops them whole. -/
theorem pairedSequences_ok {tok : Tokenizer} {maxLength : Int} {pad : Option Int}
    {samples : List OpsdSample} :
    ∀ {pairs : List (Sequence × Sequence)},
      pairedSequences tok maxLength pad samples = .ok pairs →
      ∃ kept : List (KeptSample tok),
        (kept.map KeptSample.sample).Sublist samples ∧
        pairs = kept.map fun k => (k.teacher.sequence, k.student.sequence) := by
  induction samples with
  | nil =>
      intro pairs h
      cases h
      exact ⟨[], List.Sublist.refl _, rfl⟩
  | cons sample samples ih =>
      intro pairs h
      rw [pairedSequences] at h
      obtain ⟨tSeq, ht, h⟩ := except_bind_eq_ok.mp h
      obtain ⟨sSeq, hs, h⟩ := except_bind_eq_ok.mp h
      obtain ⟨rest, hrest, h⟩ := except_bind_eq_ok.mp h
      obtain ⟨kept, hsub, rfl⟩ := ih hrest
      split at h
      · next tSeq sSeq =>
          cases h
          obtain ⟨tRow, htp, htr, rfl⟩ := tokenizeSequence_some ht
          obtain ⟨sRow, hsp, hsr, rfl⟩ := tokenizeSequence_some hs
          exact ⟨⟨sample, tRow, sRow, htp, hsp, htr, hsr⟩ :: kept,
            hsub.cons_cons sample, rfl⟩
      · cases h
        exact ⟨kept, hsub.cons sample, rfl⟩

theorem mem_zipSamples {ts ss rs : List String} {sample : OpsdSample}
    (h : sample ∈ zipSamples ts ss rs) :
    sample.teacherPrompt ∈ ts ∧ sample.studentPrompt ∈ ss := by
  induction ts generalizing ss rs with
  | nil => simp [zipSamples] at h
  | cons t ts ih =>
      cases ss with
      | nil => simp [zipSamples] at h
      | cons s ss =>
          cases rs with
          | nil => simp [zipSamples] at h
          | cons r rs =>
              rw [zipSamples] at h
              rcases List.mem_cons.mp h with rfl | hmem
              · simp
              · have := ih hmem
                simp [this]

/-! ## The windows -/

/-- Logits at every position of padded rows: position `t` of row `i` has
`g i t`. -/
def outputGrid (g : Nat → Nat → Λ) (inputIds : List (List Int)) : List (List Λ) :=
  inputIds.mapIdx fun i ids => (List.range ids.length).map (g i)

/-- The outputs of a call on `columns`, for the one path all of them and for
the other those of attended positions. -/
def rowOutputs (unpad : UnpadInput) (columns : SequenceColumns) (g : Nat → Nat → Λ) :
    ForwardModel Λ :=
  { padded := fun _ _ _ => outputGrid g columns.inputIds
    packed := fun _ _ => gather (outputGrid g columns.inputIds).flatten
      (unpad.call columns.inputIds columns.attentionMask).2 }

/-- The outputs of the positions just before response tokens, row by row. -/
def predicted (g : Nat → Nat → Λ) : List Row → List Λ
  | [] => []
  | row :: rows =>
      (List.range row.response.length).map (fun k => g 0 (row.prompt.length - 1 + k)) ++
        predicted (fun i => g (i + 1)) rows

/-- A run of consecutive outputs. -/
theorem window_eq {f : Nat → Λ} {a r b : Nat} :
    (((List.range (a + r + b)).map f).drop a).take r =
      (List.range r).map fun k => f (a + k) := by
  rw [List.range_add, List.range_add, List.map_append, List.map_append,
    List.append_assoc, List.drop_left' (by simp), List.take_left' (by simp),
    List.map_map]
  rfl

theorem length_inputIds {row : Row} : row.sequence.inputIds.length =
    row.prompt.length + row.response.length + row.padding.length := by
  simp only [Row.sequence, List.length_append]
  omega

/-- One row behind its shifted mask. -/
theorem keep_shifted_row {row : Row} {f : Nat → Λ} (hprompt : row.prompt ≠ []) :
    keep ((List.range row.sequence.inputIds.length).map f).dropLast
        (row.sequence.lossMask.drop 1) =
      (List.range row.response.length).map
        fun k => f (row.prompt.length - 1 + k) := by
  have hp : 0 < row.prompt.length := List.length_pos_iff.mpr hprompt
  have hmask : row.sequence.lossMask.drop 1 =
      List.replicate (row.prompt.length - 1) 0 ++
        (List.replicate row.response.length 1 ++
          List.replicate row.padding.length 0) := by
    simp only [Row.sequence]
    rw [List.drop_append_of_le_length (by rw [List.length_replicate]; exact hp),
      List.drop_replicate]
  have hrows : ((List.range row.sequence.inputIds.length).map f).dropLast =
      (List.range (row.prompt.length - 1 + row.response.length +
        row.padding.length)).map f := by
    rw [length_inputIds, ← List.map_dropLast]
    have : row.prompt.length + row.response.length + row.padding.length =
        row.prompt.length - 1 + row.response.length + row.padding.length + 1 := by
      omega
    rw [this, List.range_succ, List.dropLast_concat]
  rw [hmask, hrows, keep_window (by simp), window_eq]

/-- One row of the packed stream behind the mask shifted within it. -/
theorem keep_packed_row {row : Row} {f : Nat → Λ} (hprompt : row.prompt ≠ []) :
    keep ((List.range (row.prompt.length + row.response.length)).map f)
        (shiftMask (List.replicate row.prompt.length 0 ++
          List.replicate row.response.length 1)) =
      (List.range row.response.length).map
        fun k => f (row.prompt.length - 1 + k) := by
  obtain ⟨p, hp⟩ : ∃ p, row.prompt.length = p + 1 :=
    Nat.exists_eq_succ_of_ne_zero (by simpa using hprompt)
  have hmask : shiftMask (List.replicate row.prompt.length 0 ++
      List.replicate row.response.length 1) =
      List.replicate p 0 ++ (List.replicate row.response.length 1 ++
        List.replicate 1 0) := by
    rw [hp, List.replicate_succ, List.cons_append, shiftMask, List.append_assoc]
    rfl
  have hlen : p + 1 + row.response.length = p + row.response.length + 1 := by omega
  rw [hmask, hp, hlen, keep_window (by simp), window_eq, Nat.add_sub_cancel]

/-! ## Whole batches -/

/-- The columns a list of rows is stacked into. -/
def columnsOf (rows : List Row) : SequenceColumns := stack (rows.map Row.sequence)

@[simp] theorem columnsOf_inputIds {rows : List Row} :
    (columnsOf rows).inputIds = rows.map fun row => row.sequence.inputIds := by
  simp [columnsOf, stack]

@[simp] theorem columnsOf_attentionMask {rows : List Row} :
    (columnsOf rows).attentionMask = rows.map fun row => row.sequence.attentionMask := by
  simp [columnsOf, stack]

@[simp] theorem columnsOf_lossMask {rows : List Row} :
    (columnsOf rows).lossMask = rows.map fun row => row.sequence.lossMask := by
  simp [columnsOf, stack]

theorem outputGrid_cons {g : Nat → Nat → Λ} {ids : List Int} {rest : List (List Int)} :
    outputGrid g (ids :: rest) =
      (List.range ids.length).map (g 0) :: outputGrid (fun i => g (i + 1)) rest := by
  simp [outputGrid]

theorem length_dropLast_outputs {row : Row} {f : Nat → Λ} :
    ((List.range row.sequence.inputIds.length).map f).dropLast.length =
      (row.sequence.lossMask.drop 1).length := by
  simp only [List.length_dropLast, List.length_map, List.length_range,
    List.length_drop, Row.sequence, List.length_append, List.length_replicate]

/-- The padded path's rows and mask, walked together. -/
theorem keep_shifted_rows {rows : List Row}
    (hprompts : ∀ row ∈ rows, row.prompt ≠ []) :
    ∀ {g : Nat → Nat → Λ},
      let outputs := ((outputGrid g (columnsOf rows).inputIds).map List.dropLast).flatten
      let mask := ((columnsOf rows).lossMask.map (List.drop 1)).flatten
      outputs.length = mask.length ∧ keep outputs mask = predicted g rows := by
  simp only [columnsOf_inputIds, columnsOf_lossMask]
  induction rows with
  | nil => intro g; exact ⟨rfl, rfl⟩
  | cons row rows ih =>
      intro g
      obtain ⟨hlen, hkeep⟩ := @ih (fun r hr => hprompts r (by simp [hr]))
        (fun i => g (i + 1))
      simp only [List.map_cons, outputGrid_cons, List.flatten_cons]
      constructor
      · rw [List.length_append, List.length_append, hlen, length_dropLast_outputs]
      · rw [keep_append length_dropLast_outputs,
          keep_shifted_row (hprompts row (by simp)), hkeep, predicted]

/-- The padded path computes the windows. -/
theorem forwardLogitsPadded_eq {unpad : UnpadInput} {rows : List Row}
    {g : Nat → Nat → Λ} (hprompts : ∀ row ∈ rows, row.prompt ≠ []) :
    forwardLogitsPadded (rowOutputs unpad (columnsOf rows) g) (columnsOf rows) =
      predicted g rows := by
  obtain ⟨hlen, hkeep⟩ := @keep_shifted_rows _ rows hprompts g
  unfold forwardLogitsPadded rowOutputs
  rw [gather_nonzero hlen, hkeep]

/-- What the attention mask keeps of a column of one row. -/
theorem keep_attended {β : Type} {row : Row} {xs ys : List β}
    (hxs : xs.length = row.prompt.length + row.response.length) :
    keep (xs ++ ys) row.sequence.attentionMask = xs := by
  simp only [Row.sequence]
  rw [keep_append (by simpa using hxs), keep_zeros, List.append_nil, ← hxs,
    keep_ones]

/-- The rows that survive unpadding, and their loss mask. -/
def attendedOutputs (g : Nat → Nat → Λ) : List Row → List Λ
  | [] => []
  | row :: rows =>
      (List.range (row.prompt.length + row.response.length)).map (g 0) ++
        attendedOutputs (fun i => g (i + 1)) rows

def attendedMask (rows : List Row) : List Nat :=
  rows.flatMap fun row =>
    List.replicate row.prompt.length 0 ++ List.replicate row.response.length 1

theorem keep_attended_outputs {rows : List Row} : ∀ {g : Nat → Nat → Λ},
    let outputs := (outputGrid g (columnsOf rows).inputIds).flatten
    let mask := (columnsOf rows).attentionMask.flatten
    outputs.length = mask.length ∧ keep outputs mask = attendedOutputs g rows := by
  simp only [columnsOf_inputIds, columnsOf_attentionMask]
  induction rows with
  | nil => intro g; exact ⟨rfl, rfl⟩
  | cons row rows ih =>
      intro g
      obtain ⟨hlen, hkeep⟩ := @ih fun i => g (i + 1)
      have hrow : ((List.range row.sequence.inputIds.length).map (g 0)).length =
          row.sequence.attentionMask.length := by
        rw [List.length_map, List.length_range, length_inputIds]
        simp [Row.sequence]
      simp only [List.map_cons, outputGrid_cons, List.flatten_cons]
      constructor
      · rw [List.length_append, List.length_append, hlen, hrow]
      · rw [keep_append hrow, hkeep, attendedOutputs, length_inputIds, List.range_add,
          List.map_append, keep_attended (by simp)]

/-- What the attention mask keeps of a whole column, cut in every row where the
padding starts. -/
theorem keep_attended_column {β : Type} {front back : Row → List β}
    (hfront : ∀ row, (front row).length = row.prompt.length + row.response.length)
    (hback : ∀ row, (back row).length = row.padding.length) {rows : List Row} :
    let column := (rows.map fun row => front row ++ back row).flatten
    let mask := (columnsOf rows).attentionMask.flatten
    column.length = mask.length ∧ keep column mask = rows.flatMap front := by
  simp only [columnsOf_attentionMask]
  induction rows with
  | nil => exact ⟨rfl, rfl⟩
  | cons row rows ih =>
      obtain ⟨hlen, hkeep⟩ := ih
      have hrow : (front row ++ back row).length = row.sequence.attentionMask.length := by
        rw [List.length_append, hfront, hback]
        simp [Row.sequence]
      simp only [List.map_cons, List.flatten_cons, List.flatMap_cons]
      constructor
      · exact (List.length_append.trans (by rw [hlen, hrow])).trans List.length_append.symm
      · rw [keep_append hrow, hkeep, keep_attended (hfront row)]

theorem keep_attended_mask {rows : List Row} :
    let column := (columnsOf rows).lossMask.flatten
    let mask := (columnsOf rows).attentionMask.flatten
    column.length = mask.length ∧ keep column mask = attendedMask rows := by
  have hcolumn : (columnsOf rows).lossMask = rows.map fun row =>
      (List.replicate row.prompt.length 0 ++ List.replicate row.response.length 1) ++
        List.replicate row.padding.length 0 := by
    rw [columnsOf_lossMask]
    refine List.map_congr_left fun row _ => ?_
    rw [List.append_assoc]
    rfl
  rw [hcolumn]
  exact keep_attended_column (by simp) (by simp)

/-- The shift moves no mark from one sample to another. -/
theorem keep_shifted_attended {rows : List Row}
    (hprompts : ∀ row ∈ rows, row.prompt ≠ []) :
    ∀ {g : Nat → Nat → Λ},
      (attendedOutputs g rows).length = (shiftMask (attendedMask rows)).length ∧
        keep (attendedOutputs g rows) (shiftMask (attendedMask rows)) =
          predicted g rows := by
  induction rows with
  | nil => intro g; exact ⟨rfl, rfl⟩
  | cons row rows ih =>
      intro g
      have hrest : ∀ r ∈ rows, r.prompt ≠ [] := fun r hr => hprompts r (by simp [hr])
      obtain ⟨hlen, hkeep⟩ := @ih hrest fun i => g (i + 1)
      -- a mask begins with a prompt's zero, if it begins at all
      have hseam : ∀ n ∈ (attendedMask rows).head?, n = 0 := by
        intro n hn
        cases rows with
        | nil => cases hn
        | cons next rest =>
            obtain ⟨p, hp⟩ : ∃ p, next.prompt.length = p + 1 :=
              Nat.exists_eq_succ_of_ne_zero (by simpa using hrest next (by simp))
            rw [attendedMask, List.flatMap_cons, hp, List.replicate_succ] at hn
            simpa using hn.symm
      have hrow : ((List.range (row.prompt.length + row.response.length)).map
          (g 0)).length = (shiftMask (List.replicate row.prompt.length 0 ++
            List.replicate row.response.length 1)).length := by
        simp
      have hmask : attendedMask (row :: rows) = (List.replicate row.prompt.length 0 ++
          List.replicate row.response.length 1) ++ attendedMask rows := rfl
      rw [attendedOutputs, hmask, shiftMask_append hseam]
      constructor
      · rw [List.length_append, List.length_append, hlen, hrow]
      · rw [keep_append hrow, keep_packed_row (hprompts row (by simp)), hkeep,
          predicted]

/-- The unpadded path computes the windows. -/
theorem forwardLogitsUnpadded_eq {unpad : UnpadInput} {rows : List Row}
    {g : Nat → Nat → Λ} (hprompts : ∀ row ∈ rows, row.prompt ≠ []) :
    forwardLogitsUnpadded unpad (rowOutputs unpad (columnsOf rows) g)
      (columnsOf rows) = predicted g rows := by
  obtain ⟨houtLen, hout⟩ := @keep_attended_outputs _ rows g
  obtain ⟨hmaskLen, hmask⟩ := @keep_attended_mask rows
  obtain ⟨hlen, hkeep⟩ := @keep_shifted_attended _ rows hprompts g
  unfold forwardLogitsUnpadded rowOutputs
  simp only [unpad.indices]
  rw [gather_nonzero houtLen, gather_nonzero hmaskLen, hout, hmask,
    gather_nonzero hlen, hkeep]

/-! ## Pairing -/

theorem predicted_map {β : Type} {f : Λ → β} {rows : List Row} :
    ∀ {g : Nat → Nat → Λ},
      predicted (fun i t => f (g i t)) rows = (predicted g rows).map f := by
  induction rows with
  | nil => intro g; rfl
  | cons row rows ih =>
      intro g
      rw [predicted, predicted, List.map_append, List.map_map, ← ih]
      rfl

theorem predicted_length {rows : List Row} : ∀ {g : Nat → Nat → Λ},
    (predicted g rows).length = (rows.map fun row => row.response.length).sum := by
  induction rows with
  | nil => intro g; rfl
  | cons row rows ih => intro g; simp [predicted, ih]

/-- Entry by entry, the two sides' windows are at one offset of one sample. -/
theorem predicted_pair {tok : Tokenizer} {kept : List (KeptSample tok)} :
    ∀ {g h : Nat → Nat → Λ} {n : Nat} {a b : Λ},
      (predicted g (kept.map KeptSample.teacher))[n]? = some a →
      (predicted h (kept.map KeptSample.student))[n]? = some b →
      ∃ (i k : Nat) (sample : KeptSample tok), kept[i]? = some sample ∧
        k < sample.teacher.response.length ∧
        a = g i (sample.teacher.prompt.length - 1 + k) ∧
        b = h i (sample.student.prompt.length - 1 + k) := by
  induction kept with
  | nil => intro g h n a b ha; simp [predicted] at ha
  | cons sample kept ih =>
      intro g h n a b ha hb
      rw [List.map_cons, predicted] at ha hb
      rw [← sample.response_eq] at hb
      by_cases hn : n < sample.teacher.response.length
      · rw [List.getElem?_append_left (by simpa using hn)] at ha hb
        simp only [List.getElem?_map, List.getElem?_range hn, Option.map_some,
          Option.some.injEq] at ha hb
        exact ⟨0, n, sample, rfl, hn, ha.symm, hb.symm⟩
      · rw [List.getElem?_append_right (by simpa using hn), List.length_map,
          List.length_range] at ha hb
        obtain ⟨i, k, found, hfound, hk, ha, hb⟩ := ih ha hb
        exact ⟨i + 1, k, found, hfound, hk, ha, hb⟩

theorem columnsOf_microBatch {m j : Nat} {rows : List Row} :
    (columnsOf rows).microBatch m j = columnsOf (microbatch m j rows) := by
  simp only [columnsOf, stack, SequenceColumns.microBatch, microbatch_map]

/-- The rows a forward path selects, as `(sample, position)` pairs. -/
def selectedRows (useRemovePadding : Bool) (unpad : UnpadInput)
    (columns : SequenceColumns) : List (Nat × Nat) :=
  forwardLogits useRemovePadding unpad (rowOutputs unpad columns Prod.mk) columns

theorem forwardLogits_eq {useRemovePadding : Bool} {unpad : UnpadInput}
    {rows : List Row} {g : Nat → Nat → Λ} (hprompts : ∀ row ∈ rows, row.prompt ≠ []) :
    forwardLogits useRemovePadding unpad (rowOutputs unpad (columnsOf rows) g)
      (columnsOf rows) = predicted g rows := by
  cases useRemovePadding with
  | false => exact forwardLogitsPadded_eq hprompts
  | true => exact forwardLogitsUnpadded_eq hprompts

theorem map_selectedRows {useRemovePadding : Bool} {unpad : UnpadInput}
    {rows : List Row} {g : Nat → Nat → Λ} (hprompts : ∀ row ∈ rows, row.prompt ≠ []) :
    (selectedRows useRemovePadding unpad (columnsOf rows)).map
      (fun row => g row.1 row.2) = predicted g rows := by
  rw [selectedRows, forwardLogits_eq hprompts, ← predicted_map]

/-- Two selected rows stand before one token of `sample`'s response, and the
micro-batch has that token at the next position of both. -/
structure PredictSameToken (tok : Tokenizer) (sample : OpsdSample)
    (microBatch : OpsdBatch) (teacher student : Nat × Nat) : Prop where
  same_sample : teacher.1 = student.1
  token : ∃ (tPrompt sPrompt response : List Int) (k : Nat) (token : Int),
    tok.applyChatTemplate sample.teacherPrompt = .ok tPrompt ∧
    tok.applyChatTemplate sample.studentPrompt = .ok sPrompt ∧
    tensor (tok.responseIds sample.response) = .ok response ∧
    response[k]? = some token ∧
    teacher.2 + 1 = tPrompt.length + k ∧ student.2 + 1 = sPrompt.length + k ∧
    (∃ ids, microBatch.teacher.inputIds[teacher.1]? = some ids ∧
      ids[teacher.2 + 1]? = some token) ∧
    (∃ ids, microBatch.student.inputIds[student.1]? = some ids ∧
      ids[student.2 + 1]? = some token)

/-- The token after a window's `k`-th position is the response's `k`-th. -/
theorem next_token {row : Row} {k : Nat} {token : Int} (hprompt : row.prompt ≠ [])
    (hk : row.response[k]? = some token) :
    row.sequence.inputIds[row.prompt.length - 1 + k + 1]? = some token := by
  have hp : 0 < row.prompt.length := List.length_pos_iff.mpr hprompt
  have hlt : k < row.response.length := (List.getElem?_eq_some_iff.mp hk).1
  have hpos : row.prompt.length - 1 + k + 1 = row.prompt.length + k := by omega
  simp only [Row.sequence]
  rw [hpos, List.getElem?_append_right (by omega), Nat.add_sub_cancel_left,
    List.getElem?_append_left hlt, hk]

/-- A batch is its kept samples, teacher rows beside student rows. -/
theorem buildOpsdBatch_some {tok : Tokenizer} {maxLength : Int}
    {teacherPrompts studentPrompts responses : List String} {batch : OpsdBatch}
    (h : buildOpsdBatch teacherPrompts studentPrompts responses tok maxLength =
      .ok (some batch)) :
    ∃ kept : List (KeptSample tok),
      (kept.map KeptSample.sample).Sublist
        (zipSamples teacherPrompts studentPrompts responses) ∧
      batch.teacher = columnsOf (kept.map KeptSample.teacher) ∧
      batch.student = columnsOf (kept.map KeptSample.student) := by
  unfold buildOpsdBatch at h
  split at h
  · cases h
  obtain ⟨pairs, hpairs, h⟩ := except_bind_eq_ok.mp h
  obtain ⟨kept, hsub, rfl⟩ := pairedSequences_ok hpairs
  split at h
  · cases h
  cases h
  refine ⟨kept, hsub, ?_, ?_⟩
  · simp only [columnsOf, List.map_map]
    rfl
  · simp only [columnsOf, List.map_map]
    rfl

/-- A batch that is built holds a sample. -/
theorem buildOpsdBatch_batchSize_ne {tok : Tokenizer} {maxLength : Int}
    {teacherPrompts studentPrompts responses : List String} {batch : OpsdBatch}
    (h : buildOpsdBatch teacherPrompts studentPrompts responses tok maxLength =
      .ok (some batch)) : batch.batchSize ≠ 0 := by
  unfold buildOpsdBatch at h
  split at h
  · cases h
  obtain ⟨pairs, -, h⟩ := except_bind_eq_ok.mp h
  split at h
  · cases h
  · next hsome =>
      cases h
      simpa [OpsdBatch.batchSize, stack] using hsome

/-- The two sides of a slice select equally many rows. -/
theorem predicted_kept_length {tok : Tokenizer} {kept : List (KeptSample tok)}
    {g h : Nat → Nat → Λ} :
    (predicted g (kept.map KeptSample.teacher)).length =
      (predicted h (kept.map KeptSample.student)).length := by
  rw [predicted_length, predicted_length, List.map_map, List.map_map]
  apply congrArg List.sum
  apply List.map_congr_left
  intro k _
  exact congrArg List.length k.response_eq

theorem inputIds_of_kept {tok : Tokenizer} {kept : List (KeptSample tok)} {i : Nat}
    {found : KeptSample tok} {side : KeptSample tok → Row} (h : kept[i]? = some found) :
    (columnsOf (kept.map side)).inputIds[i]? = some (side found).sequence.inputIds := by
  rw [columnsOf_inputIds, List.getElem?_map, List.getElem?_map, h]
  rfl

/-- Windows at one offset of one sample stand before one token. -/
theorem predictSameToken_of_window {tok : Tokenizer} {kept : List (KeptSample tok)}
    {microBatch : OpsdBatch} {i k : Nat} {found : KeptSample tok}
    (hteacher : microBatch.teacher = columnsOf (kept.map KeptSample.teacher))
    (hstudent : microBatch.student = columnsOf (kept.map KeptSample.student))
    (hfound : kept[i]? = some found) (hk : k < found.teacher.response.length)
    (htp : found.teacher.prompt ≠ []) (hsp : found.student.prompt ≠ []) :
    PredictSameToken tok found.sample microBatch
      (i, found.teacher.prompt.length - 1 + k)
      (i, found.student.prompt.length - 1 + k) := by
  have htLen := List.length_pos_iff.mpr htp
  have hsLen := List.length_pos_iff.mpr hsp
  have htoken : found.teacher.response[k]? = some found.teacher.response[k] :=
    List.getElem?_eq_getElem hk
  have htoken' : found.student.response[k]? = some found.teacher.response[k] := by
    rw [← found.response_eq]
    exact htoken
  have hteacherNext : ∃ ids, microBatch.teacher.inputIds[i]? = some ids ∧
      ids[found.teacher.prompt.length - 1 + k + 1]? =
        some found.teacher.response[k] := by
    rw [hteacher]
    exact ⟨_, inputIds_of_kept hfound, next_token htp htoken⟩
  have hstudentNext : ∃ ids, microBatch.student.inputIds[i]? = some ids ∧
      ids[found.student.prompt.length - 1 + k + 1]? =
        some found.teacher.response[k] := by
    rw [hstudent]
    exact ⟨_, inputIds_of_kept hfound, next_token hsp htoken'⟩
  refine ⟨rfl, found.teacher.prompt, found.student.prompt, found.teacher.response, k,
    found.teacher.response[k], found.teacher_prompt, found.student_prompt,
    found.teacher_response, htoken, ?_, ?_, hteacherNext, hstudentNext⟩
  · show found.teacher.prompt.length - 1 + k + 1 = _
    omega
  · show found.student.prompt.length - 1 + k + 1 = _
    omega

/-- A slice of a batch is the slice of its kept samples. -/
theorem microBatch_of_kept {tok : Tokenizer} {kept : List (KeptSample tok)}
    {batch : OpsdBatch} {m j : Nat}
    (hteacher : batch.teacher = columnsOf (kept.map KeptSample.teacher))
    (hstudent : batch.student = columnsOf (kept.map KeptSample.student)) :
    (batch.microBatch m j).teacher =
        columnsOf ((microbatch m j kept).map KeptSample.teacher) ∧
      (batch.microBatch m j).student =
        columnsOf ((microbatch m j kept).map KeptSample.student) := by
  unfold OpsdBatch.microBatch
  constructor
  · rw [hteacher, columnsOf_microBatch, microbatch_map]
  · rw [hstudent, columnsOf_microBatch, microbatch_map]

/-- For every micro-batch of a built batch, both forward paths select the same
rows on either side, the alignment assertion holds whatever the logits are, and
corresponding rows predict the same response token of the same sample. -/
theorem row_pairing {tok : Tokenizer} {maxLength : Int}
    {teacherPrompts studentPrompts responses : List String} {batch : OpsdBatch}
    (unpad : UnpadInput)
    (hteacher : ∀ p ∈ teacherPrompts, tok.applyChatTemplate p ≠ .ok [])
    (hstudent : ∀ p ∈ studentPrompts, tok.applyChatTemplate p ≠ .ok [])
    (hbatch : buildOpsdBatch teacherPrompts studentPrompts responses tok maxLength =
      .ok (some batch)) (m j : Nat) :
    let microBatch := batch.microBatch m j
    let teacherRows := selectedRows false unpad microBatch.teacher
    let studentRows := selectedRows false unpad microBatch.student
    selectedRows true unpad microBatch.teacher = teacherRows ∧
      selectedRows true unpad microBatch.student = studentRows ∧
      teacherRows.length = studentRows.length ∧
      (∀ (useRemovePadding : Bool) {Λ : Type} (g h : Nat → Nat → Λ),
        alignedLogits useRemovePadding unpad (rowOutputs unpad microBatch.teacher g)
            (rowOutputs unpad microBatch.student h) microBatch =
          .ok (teacherRows.map fun row => g row.1 row.2,
            studentRows.map fun row => h row.1 row.2)) ∧
      ∃ kept : List OpsdSample,
        kept.Sublist (zipSamples teacherPrompts studentPrompts responses) ∧
        kept.length = batch.batchSize ∧
        ∀ (n : Nat) (teacher student : Nat × Nat), teacherRows[n]? = some teacher →
          studentRows[n]? = some student →
          ∃ sample, kept[j * m + teacher.1]? = some sample ∧
            PredictSameToken tok sample microBatch teacher student := by
  obtain ⟨kept, hsub, hteacherCols, hstudentCols⟩ := buildOpsdBatch_some hbatch
  obtain ⟨htCols, hsCols⟩ := @microBatch_of_kept _ _ _ m j hteacherCols hstudentCols
  have hprompts : ∀ k ∈ kept, k.teacher.prompt ≠ [] ∧ k.student.prompt ≠ [] := by
    intro k hk
    obtain ⟨ht, hs⟩ := mem_zipSamples (hsub.subset (List.mem_map.mpr ⟨k, hk, rfl⟩))
    exact ⟨fun hnil => hteacher _ ht (hnil ▸ k.teacher_prompt),
      fun hnil => hstudent _ hs (hnil ▸ k.student_prompt)⟩
  have htRows : ∀ row ∈ (microbatch m j kept).map KeptSample.teacher,
      row.prompt ≠ [] := by
    intro row hrow
    obtain ⟨k, hk, rfl⟩ := List.mem_map.mp hrow
    exact (hprompts k (mem_of_mem_microbatch hk)).1
  have hsRows : ∀ row ∈ (microbatch m j kept).map KeptSample.student,
      row.prompt ≠ [] := by
    intro row hrow
    obtain ⟨k, hk, rfl⟩ := List.mem_map.mp hrow
    exact (hprompts k (mem_of_mem_microbatch hk)).2
  intro microBatch teacherRows studentRows
  have hrowsT : ∀ u, selectedRows u unpad microBatch.teacher =
      predicted Prod.mk ((microbatch m j kept).map KeptSample.teacher) := by
    intro u
    rw [selectedRows, htCols, forwardLogits_eq htRows]
  have hrowsS : ∀ u, selectedRows u unpad microBatch.student =
      predicted Prod.mk ((microbatch m j kept).map KeptSample.student) := by
    intro u
    rw [selectedRows, hsCols, forwardLogits_eq hsRows]
  refine ⟨(hrowsT true).trans (hrowsT false).symm,
    (hrowsS true).trans (hrowsS false).symm, ?_, ?_, ?_⟩
  · rw [show teacherRows = _ from hrowsT false, show studentRows = _ from hrowsS false]
    exact predicted_kept_length
  · intro useRemovePadding Λ g h
    unfold alignedLogits
    simp only [teacherRows, studentRows, microBatch]
    rw [htCols, hsCols, forwardLogits_eq htRows, forwardLogits_eq hsRows,
      check_of predicted_kept_length, except_ok_bind, map_selectedRows htRows,
      map_selectedRows hsRows]
  · refine ⟨kept.map KeptSample.sample, hsub, ?_, ?_⟩
    · rw [OpsdBatch.batchSize, hstudentCols, columnsOf_inputIds]
      simp
    · intro n teacher student ht hs
      rw [show teacherRows = _ from hrowsT false] at ht
      rw [show studentRows = _ from hrowsS false] at hs
      obtain ⟨i, k, found, hfound, hk, rfl, rfl⟩ := predicted_pair ht hs
      have hi : i < m := by
        have := (List.getElem?_eq_some_iff.mp hfound).1
        rw [microbatch, List.length_take] at this
        omega
      have hkept : kept[j * m + i]? = some found := by
        rw [← microbatch_getElem? hi, hfound]
      obtain ⟨htp, hsp⟩ := hprompts found (List.mem_of_getElem? hkept)
      refine ⟨found.sample, ?_, predictSameToken_of_window htCols hsCols hfound hk htp hsp⟩
      rw [List.getElem?_map, hkept]
      rfl

/-- Prompts of three lengths, responses of one token, no padding id. -/
def tinyTokenizer : Tokenizer :=
  { applyChatTemplate := fun p =>
      if p = "long" then .ok [7, 8, 9, 6] else if p = "hint" then .ok [7, 8] else .ok [7]
    encode := fun _ => [5]
    eosTokenId := some 2
    padTokenId := none }

/-- What is left of three samples when the second is too long for its teacher. -/
def tinyBatch : OpsdBatch :=
  { teacher :=
      { inputIds := [[7, 8, 5, 2, 2], [7, 8, 5, 2, 2]]
        attentionMask := [[1, 1, 1, 1, 0], [1, 1, 1, 1, 0]]
        positionIds := [[0, 1, 2, 3, 0], [0, 1, 2, 3, 0]]
        lossMask := [[0, 0, 1, 1, 0], [0, 0, 1, 1, 0]] }
    student :=
      { inputIds := [[7, 5, 2, 2, 2], [7, 5, 2, 2, 2]]
        attentionMask := [[1, 1, 1, 0, 0], [1, 1, 1, 0, 0]]
        positionIds := [[0, 1, 2, 0, 0], [0, 1, 2, 0, 0]]
        lossMask := [[0, 1, 1, 0, 0], [0, 1, 1, 0, 0]] } }

theorem row_pairing_tinyBatch :
    buildOpsdBatch ["hint", "long", "hint"] ["plain", "plain", "plain"] ["a", "b", "c"]
        tinyTokenizer 5 = .ok (some tinyBatch) ∧
      selectedRows true UnpadInput.rowMajor (tinyBatch.microBatch 1 1).teacher =
        selectedRows false UnpadInput.rowMajor (tinyBatch.microBatch 1 1).teacher ∧
      selectedRows false UnpadInput.rowMajor tinyBatch.teacher =
        [(0, 1), (0, 2), (1, 1), (1, 2)] ∧
      selectedRows false UnpadInput.rowMajor tinyBatch.student =
        [(0, 0), (0, 1), (1, 0), (1, 1)] := by
  have hprompts : ∀ p, tinyTokenizer.applyChatTemplate p ≠ .ok [] := by
    intro p
    unfold tinyTokenizer
    simp only
    split
    · simp
    · split
      · simp
      · simp
  have hbatch : buildOpsdBatch ["hint", "long", "hint"] ["plain", "plain", "plain"]
      ["a", "b", "c"] tinyTokenizer 5 = .ok (some tinyBatch) := rfl
  exact ⟨hbatch,
    (row_pairing UnpadInput.rowMajor (fun p _ => hprompts p) (fun p _ => hprompts p)
      hbatch 1 1).1,
    by decide, by decide⟩

end Crisp.Proofs
