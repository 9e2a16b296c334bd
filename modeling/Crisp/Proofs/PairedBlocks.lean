import Crisp.Lib.Balance
import Crisp.Ref.StudyBlocks

/-!
# When the paired blocks are stratified

The passes over the strata end, and the placement fills eight blocks of sixteen,
whatever the strata. How evenly a stratum is spread is the greedy criterion: a
block leaves the choice when it is full, and a stratum whose emptiest blocks have
all left it is out of balance from then on.
-/

namespace Crisp.Proofs

open Crisp.Lib Crisp.Ref

variable {ρ : Type}

/-! ## The passes -/

/-- The rows still in their strata. -/
def leftRows (strata : List (Stratum × List (ClassifiedRow ρ))) : List (ClassifiedRow ρ) :=
  (strata.map Prod.snd).flatten

theorem takeTurn_perm (strata : List (Stratum × List (ClassifiedRow ρ))) :
    ((takeTurn strata).1 ++ leftRows (takeTurn strata).2).Perm (leftRows strata) := by
  induction strata with
  | nil => exact .refl _
  | cons stratum strata ih =>
      obtain ⟨key, rows⟩ := stratum
      cases rows with
      | nil => exact ih
      | cons row rows =>
          have hswap : ((takeTurn strata).1 ++ (rows ++ leftRows (takeTurn strata).2)).Perm
              (rows ++ ((takeTurn strata).1 ++ leftRows (takeTurn strata).2)) := by
            rw [← List.append_assoc, ← List.append_assoc]
            exact List.perm_append_comm.append_right _
          exact .cons row (hswap.trans (ih.append_left rows))

/-- A pass takes a row while there is one. -/
theorem takeTurn_ne_nil {strata : List (Stratum × List (ClassifiedRow ρ))}
    (h : leftRows strata ≠ []) : (takeTurn strata).1 ≠ [] := by
  induction strata with
  | nil => exact absurd rfl h
  | cons stratum strata ih =>
      obtain ⟨key, rows⟩ := stratum
      cases rows with
      | nil => exact ih h
      | cons row rows => exact List.cons_ne_nil _ _

/-- With 128 rows the passes end, and what they order comes from the rows. -/
theorem interleave_returns {fuel : Nat} {strata : List (Stratum × List (ClassifiedRow ρ))}
    {ordered : List (ClassifiedRow ρ)}
    (hrows : 128 ≤ ordered.length + (leftRows strata).length)
    (hfuel : 128 ≤ ordered.length + fuel) :
    ∃ out, interleave fuel strata ordered = some out ∧ 128 ≤ out.length ∧
      out.Subperm (ordered ++ leftRows strata) := by
  induction fuel generalizing strata ordered with
  | zero =>
      rw [interleave, if_neg (by omega)]
      exact ⟨ordered, rfl, by omega, (List.sublist_append_left _ _).subperm⟩
  | succ fuel ih =>
      rw [interleave]
      split
      · next hshort =>
          have hperm := takeTurn_perm strata
          have hlength := hperm.length_eq
          have hturn : 0 < (takeTurn strata).1.length := by
            refine List.length_pos_iff.mpr (takeTurn_ne_nil fun hnil => ?_)
            rw [hnil, List.length_nil] at hrows
            omega
          rw [List.length_append] at hlength
          obtain ⟨out, hout, hlong, hsub⟩ := @ih (takeTurn strata).2
            (ordered ++ (takeTurn strata).1) (by rw [List.length_append]; omega)
            (by rw [List.length_append]; omega)
          refine ⟨out, hout, hlong, hsub.trans ?_⟩
          rw [List.append_assoc]
          exact (hperm.append_left ordered).subperm
      · next hlong =>
          exact ⟨ordered, rfl, by omega, (List.sublist_append_left _ _).subperm⟩

/-- More passes than needed change nothing. -/
theorem interleave_mono {fuel more : Nat} {strata : List (Stratum × List (ClassifiedRow ρ))}
    {ordered out : List (ClassifiedRow ρ)} (h : interleave fuel strata ordered = some out)
    (hle : fuel ≤ more) : interleave more strata ordered = some out := by
  induction fuel generalizing more strata ordered with
  | zero =>
      rw [interleave] at h
      split at h
      · cases h
      · next hlong => cases more <;> rwa [interleave, if_neg hlong]
  | succ fuel ih =>
      obtain ⟨more, rfl⟩ := Nat.exists_eq_add_of_le' (Nat.le_trans (Nat.succ_pos fuel) hle)
      rw [interleave] at h ⊢
      split at h
      · next hshort =>
          rw [if_pos hshort]
          exact ih h (Nat.le_of_succ_le_succ hle)
      · next hlong => rwa [if_neg hlong]

theorem appendRow_perm (row : ClassifiedRow ρ)
    (strata : List (Stratum × List (ClassifiedRow ρ))) :
    (leftRows (appendRow row strata)).Perm (row :: leftRows strata) := by
  induction strata with
  | nil => exact .refl _
  | cons stratum strata ih =>
      obtain ⟨key, rows⟩ := stratum
      rw [appendRow]
      split
      · show (rows ++ [row] ++ leftRows strata).Perm (row :: (rows ++ leftRows strata))
        rw [List.append_assoc]
        exact List.perm_middle
      · exact (ih.append_left rows).trans List.perm_middle

/-- The strata hold the rows. -/
theorem sortedStrata_perm (rows : List (ClassifiedRow ρ)) :
    (leftRows (sortedStrata rows)).Perm rows := by
  have hgroup : ∀ strata : List (Stratum × List (ClassifiedRow ρ)),
      (leftRows (rows.foldl (fun strata row => appendRow row strata) strata)).Perm
        (leftRows strata ++ rows) := by
    induction rows with
    | nil => exact fun strata => by rw [List.append_nil]; exact .refl _
    | cons row rows ih =>
        intro strata
        refine (ih (appendRow row strata)).trans ?_
        exact ((appendRow_perm row strata).append_right rows).trans List.perm_middle.symm
  have hsorted : (leftRows (sortedStrata rows)).Perm
      (leftRows (rows.foldl (fun strata row => appendRow row strata) [])) :=
    ((List.perm_insertionSort _ _).map Prod.snd).flatten
  exact hsorted.trans (hgroup [])

/-! ## The placement -/

/-- The blocks after some rows went where `placed` says. -/
structure Placed (blocks : List (Block ρ)) (placed : List (Stratum × Fin 8)) : Prop where
  length : blocks.length = 8
  load : ∀ i : Fin 8, (blocks.getD i .empty).rows.length = load placed i
  counts : ∀ (i : Fin 8) key, (blocks.getD i .empty).counts key = tally placed i key
  rows : ∀ (i : Fin 8) key,
    (blocks.getD i .empty).rows.countP (·.stratum = key) = tally placed i key

theorem placed_empty : Placed (emptyBlocks : List (Block ρ)) [] := by
  have hget : ∀ i : Fin 8, (emptyBlocks : List (Block ρ)).getD i .empty = .empty := by
    intro i
    unfold emptyBlocks
    rw [List.getD_eq_getElem?_getD, List.getElem?_replicate_of_lt i.isLt, Option.getD_some]
  exact ⟨rfl, fun i => by rw [hget]; rfl, fun i _ => by rw [hget]; rfl,
    fun i _ => by rw [hget]; rfl⟩

/-- The block with room that `min` returns. -/
theorem chooseBlock_eq_some {key : Stratum} {blocks : List (Block ρ)} {i : Fin 8}
    (h : chooseBlock key blocks = some i) :
    (blocks.getD i .empty).rows.length < 16 ∧
      ∀ j : Fin 8, (blocks.getD j .empty).rows.length < 16 →
        (blocks.getD i .empty).counts key ≤ (blocks.getD j .empty).counts key := by
  have hmem := List.argmin_mem h
  refine ⟨by simpa using hmem, fun j hj => ?_⟩
  have hle := List.le_of_mem_argmin (a := j) (by simpa using hj) h
  rcases Prod.Lex.le_iff.mp hle with hlt | ⟨heq, -⟩
  · exact Nat.le_of_lt hlt
  · exact Nat.le_of_eq heq

theorem chooseBlock_isSome {key : Stratum} {blocks : List (Block ρ)} {i : Fin 8}
    (hopen : (blocks.getD i .empty).rows.length < 16) : ∃ j, chooseBlock key blocks = some j := by
  cases hchoose : chooseBlock key blocks with
  | some j => exact ⟨j, rfl⟩
  | none =>
      have hmem : i ∈ (List.finRange 8).filter fun i : Fin 8 =>
          (blocks.getD i .empty).rows.length < 16 := by simpa using hopen
      rw [List.argmin_eq_none.mp hchoose] at hmem
      cases hmem

/-- Where every row goes. -/
def placements : List (ClassifiedRow ρ) → List (Block ρ) → List (Stratum × Fin 8)
  | [], _ => []
  | row :: rows, blocks =>
      match chooseBlock row.stratum blocks with
      | none => []
      | some i =>
          (row.stratum, i) :: placements rows (blocks.set i ((blocks.getD i .empty).append row))

/-- The step lemma: one row more, where the choice was greedy. -/
theorem Placed.append {blocks : List (Block ρ)} {placed : List (Stratum × Fin 8)}
    (h : Placed blocks placed) (row : ClassifiedRow ρ) (i : Fin 8) :
    Placed (blocks.set i ((blocks.getD i .empty).append row)) (placed ++ [(row.stratum, i)]) := by
  have hget : ∀ j : Fin 8, (blocks.set i ((blocks.getD i .empty).append row)).getD j .empty =
      if j = i then (blocks.getD i .empty).append row else blocks.getD j .empty := by
    intro j
    have hlt : (i : Nat) < blocks.length := Nat.lt_of_lt_of_eq i.isLt h.length.symm
    rw [List.getD_eq_getElem?_getD, List.getElem?_set]
    by_cases hji : j = i
    · subst hji
      rw [if_pos rfl, if_pos hlt, if_pos rfl, Option.getD_some]
    · rw [if_neg fun heq => hji (Fin.ext heq.symm), if_neg hji, List.getD_eq_getElem?_getD]
  have htally : ∀ (j : Fin 8) key, tally [(row.stratum, i)] j key =
      if key = row.stratum ∧ j = i then 1 else 0 := tally_singleton row.stratum i
  refine ⟨by rw [List.length_set, h.length], fun j => ?_, fun j key => ?_, fun j key => ?_⟩
  · rw [hget, load_append, load_singleton]
    by_cases hji : j = i
    · subst hji
      rw [if_pos rfl, if_pos rfl, ← h.load]
      exact List.length_append
    · rw [if_neg hji, if_neg fun heq => hji heq.symm, h.load, Nat.add_zero]
  · rw [hget, tally_append, htally]
    by_cases hji : j = i
    · subst hji
      simp only [if_true, Block.append, and_true, h.counts]
      split <;> rfl
    · rw [if_neg hji, if_neg fun hboth => hji hboth.2, h.counts, Nat.add_zero]
  · rw [hget, tally_append, htally]
    by_cases hji : j = i
    · subst hji
      simp only [if_true, Block.append, List.countP_append, List.countP_singleton, h.rows,
        and_true]
      simp [eq_comm]
    · rw [if_neg hji, if_neg fun hboth => hji hboth.2, h.rows, Nat.add_zero]

/-- All rows of the blocks. -/
def placedRows (blocks : List (Block ρ)) : List (ClassifiedRow ρ) :=
  (blocks.map Block.rows).flatten

theorem placedRows_append {blocks : List (Block ρ)} {i : Nat} (hi : i < blocks.length)
    (row : ClassifiedRow ρ) :
    (placedRows (blocks.set i ((blocks.getD i .empty).append row))).Perm
      (placedRows blocks ++ [row]) := by
  unfold placedRows
  rw [List.getD_eq_getElem?_getD, List.getElem?_eq_getElem hi, Option.getD_some]
  have hsplit : blocks = blocks.take i ++ blocks[i] :: blocks.drop (i + 1) := by
    rw [← List.drop_eq_getElem_cons hi, List.take_append_drop]
  rw [List.set_eq_take_append_cons_drop, if_pos hi]
  conv_rhs => rw [hsplit]
  simp only [List.map_append, List.map_cons, List.flatten_append, List.flatten_cons,
    Block.append, List.append_assoc]
  refine .append_left _ (.append_left _ ?_)
  exact List.perm_append_comm

theorem placeRows_returns {rows : List (ClassifiedRow ρ)} {blocks : List (Block ρ)}
    {placed : List (Stratum × Fin 8)} (h : Placed blocks placed)
    (hroom : placed.length + rows.length ≤ 128) : ∃ out, placeRows rows blocks = .ok out := by
  induction rows generalizing blocks placed with
  | nil => exact ⟨blocks, rfl⟩
  | cons row rows ih =>
      rw [List.length_cons] at hroom
      obtain ⟨i, hi⟩ : ∃ i : Fin 8, load placed i < 16 :=
        exists_open (by rw [Fintype.card_fin]; omega)
      obtain ⟨j, hj⟩ := @chooseBlock_isSome ρ row.stratum blocks i (by rw [h.load]; exact hi)
      rw [placeRows, hj]
      exact ih (h.append row j) (by rw [List.length_append, List.length_singleton]; omega)

/-- The run lemma: the blocks are where the placements put the rows, and every
placement was greedy. -/
theorem placeRows_placed {rows : List (ClassifiedRow ρ)} {blocks out : List (Block ρ)}
    {placed : List (Stratum × Fin 8)} (h : Placed blocks placed) (hgreedy : Greedy 16 placed)
    (hrun : placeRows rows blocks = .ok out) :
    Placed out (placed ++ placements rows blocks) ∧
      Greedy 16 (placed ++ placements rows blocks) ∧
      (placements rows blocks).length = rows.length ∧
      (placedRows out).Perm (placedRows blocks ++ rows) := by
  induction rows generalizing blocks placed with
  | nil =>
      cases hrun
      simp only [placements, List.append_nil]
      exact ⟨h, hgreedy, rfl, .refl _⟩
  | cons row rows ih =>
      rw [placeRows] at hrun
      cases hchoose : chooseBlock row.stratum blocks with
      | none =>
          rw [hchoose] at hrun
          cases hrun
      | some i =>
          rw [hchoose] at hrun
          obtain ⟨hopen, hleast⟩ := chooseBlock_eq_some hchoose
          have hstep : Greedy 16 (placed ++ [(row.stratum, i)]) := by
            refine hgreedy.snoc (h.load i ▸ hopen) fun j hj => ?_
            rw [← h.counts, ← h.counts]
            exact hleast j (by rw [h.load]; exact hj)
          obtain ⟨hplaced, hgreedy', hlength, hrows⟩ := ih (h.append row i) hstep hrun
          rw [List.append_assoc] at hplaced hgreedy'
          have hplacements : placements (row :: rows) blocks = (row.stratum, i) ::
              placements rows (blocks.set i ((blocks.getD i .empty).append row)) := by
            rw [placements, hchoose]
          rw [hplacements]
          refine ⟨hplaced, hgreedy', by rw [List.length_cons, hlength, List.length_cons], ?_⟩
          have hi : (i : Nat) < blocks.length := Nat.lt_of_lt_of_eq i.isLt h.length.symm
          refine hrows.trans (((placedRows_append hi row).append_right rows).trans ?_)
          rw [List.append_assoc]
          exact .refl _

theorem placeRows_append {before after : List (ClassifiedRow ρ)} {blocks mid : List (Block ρ)}
    (h : placeRows before blocks = .ok mid) :
    placeRows (before ++ after) blocks = placeRows after mid ∧
      placements (before ++ after) blocks = placements before blocks ++ placements after mid := by
  induction before generalizing blocks with
  | nil =>
      cases h
      exact ⟨rfl, rfl⟩
  | cons row before ih =>
      rw [placeRows] at h
      rw [List.cons_append, placeRows, placements, placements]
      cases hchoose : chooseBlock row.stratum blocks with
      | none =>
          rw [hchoose] at h
          cases h
      | some i =>
          rw [hchoose] at h
          obtain ⟨hrun, hplacements⟩ := ih h
          exact ⟨hrun, congrArg (_ :: ·) hplacements⟩

/-- No row finds all blocks with the fewest of its stratum full. -/
def Unblocked (ordered : List (ClassifiedRow ρ)) : Prop :=
  ∀ before row after, ordered = before ++ row :: after →
    ∀ blocks, placeRows before emptyBlocks = .ok blocks →
      ∃ block ∈ blocks, block.rows.length < 16 ∧
        ∀ other ∈ blocks, block.counts row.stratum ≤ other.counts row.stratum

theorem Placed.mem_iff {blocks : List (Block ρ)} {placed : List (Stratum × Fin 8)}
    (h : Placed blocks placed) {block : Block ρ} :
    block ∈ blocks ↔ ∃ i : Fin 8, blocks.getD i .empty = block := by
  rw [List.mem_iff_getElem]
  constructor
  · rintro ⟨i, hi, rfl⟩
    exact ⟨⟨i, Nat.lt_of_lt_of_eq hi h.length⟩, by
      rw [List.getD_eq_getElem?_getD, List.getElem?_eq_getElem hi, Option.getD_some]⟩
  · rintro ⟨i, rfl⟩
    have hi : (i : Nat) < blocks.length := Nat.lt_of_lt_of_eq i.isLt h.length.symm
    exact ⟨i, hi, by
      rw [List.getD_eq_getElem?_getD, List.getElem?_eq_getElem hi, Option.getD_some]⟩

/-- What the head of the placements says. -/
theorem placements_eq_cons {rows : List (ClassifiedRow ρ)} {blocks : List (Block ρ)}
    {key : Stratum} {i : Fin 8} {rest : List (Stratum × Fin 8)}
    (h : placements rows blocks = (key, i) :: rest) :
    ∃ row after, rows = row :: after ∧ row.stratum = key ∧ chooseBlock key blocks = some i := by
  cases rows with
  | nil => cases h
  | cons row after =>
      rw [placements] at h
      cases hchoose : chooseBlock row.stratum blocks with
      | none =>
          rw [hchoose] at h
          cases h
      | some j =>
          rw [hchoose] at h
          cases h
          exact ⟨row, after, rfl, rfl, hchoose⟩

theorem placements_cons {row : ClassifiedRow ρ} {after : List (ClassifiedRow ρ)}
    {blocks out : List (Block ρ)} (h : placeRows (row :: after) blocks = .ok out) :
    ∃ i rest, chooseBlock row.stratum blocks = some i ∧
      placements (row :: after) blocks = (row.stratum, i) :: rest := by
  rw [placeRows] at h
  rw [placements]
  cases hchoose : chooseBlock row.stratum blocks with
  | none =>
      rw [hchoose] at h
      cases h
  | some i => exact ⟨i, _, rfl, rfl⟩

/-- The placement from empty blocks, with all its facts. -/
theorem placeRows_begin {rows : List (ClassifiedRow ρ)} (hrows : rows.length ≤ 128) :
    ∃ out, placeRows rows emptyBlocks = .ok out ∧ Placed out (placements rows emptyBlocks) ∧
      Greedy 16 (placements rows emptyBlocks) ∧
      (placements rows emptyBlocks).length = rows.length ∧ (placedRows out).Perm rows := by
  have hgreedy : Greedy 16 ([] : List (Stratum × Fin 8)) := fun before _ _ _ h => by simp at h
  obtain ⟨out, hout⟩ := @placeRows_returns ρ rows _ _ placed_empty (by simpa using hrows)
  obtain ⟨hplaced, hgreedy', hlength, hperm⟩ := placeRows_placed placed_empty hgreedy hout
  exact ⟨out, hout, hplaced, hgreedy', hlength, hperm⟩

/-- A choice among the open blocks was one among all exactly where one of the least
was open. -/
theorem unobstructed_iff {ordered : List (ClassifiedRow ρ)} (hordered : ordered.length ≤ 128) :
    Unobstructed (placements ordered emptyBlocks) ↔ Unblocked ordered := by
  obtain ⟨out, hout, -⟩ := placeRows_begin hordered
  constructor
  · intro h before row after hsplit blocks hblocks
    subst hsplit
    rw [List.length_append, List.length_cons] at hordered
    obtain ⟨_, hblocks', hplaced, -⟩ := @placeRows_begin ρ before (by omega)
    obtain rfl := Except.ok.inj (hblocks.symm.trans hblocks')
    obtain ⟨hrun, hplacements⟩ := @placeRows_append ρ _ (row :: after) _ _ hblocks
    obtain ⟨i, rest, hchoose, hcons⟩ := placements_cons (hrun ▸ hout)
    refine ⟨blocks.getD i .empty, hplaced.mem_iff.mpr ⟨i, rfl⟩,
      (chooseBlock_eq_some hchoose).1, fun other hother => ?_⟩
    obtain ⟨j, rfl⟩ := hplaced.mem_iff.mp hother
    rw [hplaced.counts, hplaced.counts]
    exact h _ _ _ _ (hplacements.trans (by rw [hcons])) j
  · intro h before key i after hsplit other
    have hbefore : before.length ≤ ordered.length := by
      obtain ⟨_, _, -, -, hlength, -⟩ := placeRows_begin hordered
      rw [← hlength, hsplit, List.length_append]
      omega
    have htake : (ordered.take before.length).length = before.length := by
      rw [List.length_take, Nat.min_eq_left hbefore]
    obtain ⟨blocks, hblocks, hplaced, -, hlength, -⟩ :=
      @placeRows_begin ρ (ordered.take before.length) (by omega)
    obtain ⟨-, hplacements⟩ :=
      @placeRows_append ρ _ (ordered.drop before.length) _ _ hblocks
    rw [List.take_append_drop, hsplit] at hplacements
    obtain ⟨hsame, hrest⟩ := List.append_inj hplacements (by rw [hlength, htake])
    rw [← hsame] at hplaced
    obtain ⟨row, later, hdrop, rfl, hchoose⟩ := placements_eq_cons hrest.symm
    obtain ⟨block, hblock, hopen, hleast⟩ := h _ row later
      (by rw [← hdrop, List.take_append_drop]) blocks hblocks
    obtain ⟨j, rfl⟩ := hplaced.mem_iff.mp hblock
    rw [← hplaced.counts, ← hplaced.counts]
    exact Nat.le_trans ((chooseBlock_eq_some hchoose).2 j hopen)
      (hleast _ (hplaced.mem_iff.mpr ⟨other, rfl⟩))

/-! ## All of it -/

/-- The rows the blocks get, in the order of the passes. -/
def orderedRows (lower : String → String) (rows : List (StudyRow ρ)) : List (ClassifiedRow ρ) :=
  ((interleave 128 (sortedStrata (rows.map (classify lower))) []).getD []).take 128

/-- Any two blocks have as many rows of every stratum, up to one. -/
def Stratified (blocks : List (List (ClassifiedRow ρ))) : Prop :=
  ∀ key, ∀ a ∈ blocks, ∀ b ∈ blocks,
    a.countP (·.stratum = key) ≤ b.countP (·.stratum = key) + 1

theorem orderedRows_spec {lower : String → String} {rows : List (StudyRow ρ)}
    (h : 128 ≤ rows.length) :
    (orderedRows lower rows).length = 128 ∧
      (orderedRows lower rows).Subperm (rows.map (classify lower)) ∧
      ∀ fuel, 128 ≤ fuel → ∃ ordered, orderedRows lower rows = ordered.take 128 ∧
        interleave fuel (sortedStrata (rows.map (classify lower))) [] = some ordered := by
  have hperm := sortedStrata_perm (rows.map (classify lower))
  have hlength := hperm.length_eq
  rw [List.length_map] at hlength
  obtain ⟨out, hout, hlong, hsub⟩ := @interleave_returns ρ 128
    (sortedStrata (rows.map (classify lower))) [] (by simpa [hlength] using h) (by simp)
  have hordered : orderedRows lower rows = out.take 128 := by
    unfold orderedRows
    rw [hout, Option.getD_some]
  refine ⟨by rw [hordered, List.length_take, Nat.min_eq_left hlong], ?_, fun fuel hfuel =>
    ⟨out, hordered, interleave_mono hout hfuel⟩⟩
  rw [hordered]
  exact (List.take_sublist 128 out).subperm.trans (hsub.trans hperm.subperm)

theorem stratified_iff_balanced {out : List (Block ρ)} {placed : List (Stratum × Fin 8)}
    (h : Placed out placed) : Stratified (out.map Block.rows) ↔ Balanced placed := by
  constructor
  · intro hstratified key i j
    rw [← h.rows, ← h.rows]
    exact hstratified key _ (List.mem_map_of_mem (h.mem_iff.mpr ⟨i, rfl⟩)) _
      (List.mem_map_of_mem (h.mem_iff.mpr ⟨j, rfl⟩))
  · intro hbalanced key a ha b hb
    obtain ⟨block, hblock, rfl⟩ := List.mem_map.mp ha
    obtain ⟨other, hother, rfl⟩ := List.mem_map.mp hb
    obtain ⟨i, rfl⟩ := h.mem_iff.mp hblock
    obtain ⟨j, rfl⟩ := h.mem_iff.mp hother
    rw [h.rows, h.rows]
    exact hbalanced key i j

/-- From 128 rows the blocks are made, sixteen rows each and no row twice, and they
are stratified exactly when every placement found a block with room among those
with the fewest rows of its stratum. -/
theorem paired_blocks_stratified_iff (lower : String → String) (rows : List (StudyRow ρ))
    (h : 128 ≤ rows.length) :
    ∃ blocks, (∀ fuel, 128 ≤ fuel → stratifiedBlocks fuel lower rows = some (.ok blocks)) ∧
      blocks.length = 8 ∧ (∀ block ∈ blocks, block.length = 16) ∧
      blocks.flatten.Subperm (rows.map (classify lower)) ∧
      ((rows.map (classify lower)).Nodup → blocks.Pairwise List.Disjoint) ∧
      (Stratified blocks ↔ Unblocked (orderedRows lower rows)) := by
  obtain ⟨hlength, hsub, hfuel⟩ := @orderedRows_spec ρ lower rows h
  obtain ⟨out, hout, hplaced, hgreedy, htotal, hperm⟩ :=
    @placeRows_begin ρ (orderedRows lower rows) (Nat.le_of_eq hlength)
  have hflat : (out.map Block.rows).flatten.Subperm (rows.map (classify lower)) :=
    hperm.subperm.trans hsub
  refine ⟨out.map Block.rows, fun fuel hmore => ?_, ?_, ?_, hflat, fun hnodup => ?_, ?_⟩
  · obtain ⟨ordered, htake, hinterleave⟩ := hfuel fuel hmore
    unfold stratifiedBlocks
    rw [if_neg (by omega), hinterleave, Option.map_some, ← htake, hout]
    rfl
  · rw [List.length_map, hplaced.length]
  · intro block hblock
    obtain ⟨b, hb, rfl⟩ := List.mem_map.mp hblock
    obtain ⟨i, rfl⟩ := hplaced.mem_iff.mp hb
    rw [hplaced.load]
    exact hgreedy.full (by rw [htotal, hlength, Fintype.card_fin]) i
  · have hnodup' : (out.map Block.rows).flatten.Nodup := by
      obtain ⟨rest, hrest, hsublist⟩ := hflat
      exact hrest.nodup_iff.mp (hsublist.nodup hnodup)
    exact (List.nodup_flatten.mp hnodup').2
  · rw [stratified_iff_balanced hplaced, balanced_iff_unobstructed hgreedy,
      unobstructed_iff (Nat.le_of_eq hlength)]

/-- Three strata of one topic, of 104, 22 and 2 rows. -/
def unevenRows : List (StudyRow Nat) :=
  (List.range 128).map fun i =>
    { problem := "x", workedPrefixLength := if i < 104 then 0 else if i < 126 then 1024 else 2048,
      rest := i }

/-- How many rows of the first stratum each block gets. -/
theorem unevenRows_counts :
    (stratifiedBlocks 128 id unevenRows).map (fun result => result.map fun blocks =>
      blocks.map fun block => block.countP (·.stratum = (.algebraOther, 0))) =
      some (.ok [13, 13, 13, 13, 13, 12, 14, 13]) := by
  decide +kernel

theorem unevenRows_not_stratified :
    ∃ blocks, stratifiedBlocks 128 id unevenRows = some (.ok blocks) ∧ ¬ Stratified blocks := by
  have hcounts := unevenRows_counts
  cases hresult : stratifiedBlocks 128 id unevenRows with
  | none =>
      rw [hresult] at hcounts
      cases hcounts
  | some result =>
      cases result with
      | error error =>
          rw [hresult] at hcounts
          cases hcounts
      | ok blocks =>
          refine ⟨blocks, rfl, fun hstratified => ?_⟩
          rw [hresult] at hcounts
          have hblocks : blocks.map (fun block => block.countP (·.stratum = (.algebraOther, 0))) =
              [13, 13, 13, 13, 13, 12, 14, 13] := Except.ok.inj (Option.some.inj hcounts)
          have hmem : ∀ n ∈ [13, 13, 13, 13, 13, 12, 14, 13], ∃ block ∈ blocks,
              block.countP (·.stratum = (.algebraOther, 0)) = n := by
            intro n hn
            rw [← hblocks] at hn
            exact List.mem_map.mp hn
          obtain ⟨most, hmost, hfourteen⟩ := hmem 14 (by decide)
          obtain ⟨fewest, hfewest, htwelve⟩ := hmem 12 (by decide)
          have hspread := hstratified (.algebraOther, 0) most hmost fewest hfewest
          omega

theorem paired_blocks_stratified_iff_uneven :
    ∃ blocks, (∀ fuel, 128 ≤ fuel → stratifiedBlocks fuel id unevenRows = some (.ok blocks)) ∧
      (Stratified blocks ↔ Unblocked (orderedRows id unevenRows)) := by
  obtain ⟨blocks, hblocks, -, -, -, -, hiff⟩ :=
    paired_blocks_stratified_iff id unevenRows (by simp [unevenRows])
  exact ⟨blocks, hblocks, hiff⟩

end Crisp.Proofs
