import Crisp.Proofs.VocabParallel
import Crisp.Ref.Transport

/-!
# What a transported target is

One position at a time the two collectives are a maximum and a sum over every
column of every rank, so the row is the log-softmax of `p + q - r` over all of
them, on any layout and with any section size: the sections only say in which
order an uninitialized output is overwritten. Alignment is the other half. A list
of aligned triples carries it by construction, and every other input raises.
-/

namespace Crisp.Proofs

open Crisp.Lib Crisp.Ref Crisp.Ref.OpsdMath Finset

variable {S : Nat} {𝕜 : Type}

/-! ## One position -/

section Row

variable {width : Fin S → Nat}

/-- What all ranks hold of a position, as one family. -/
def flatRow (row : ShardedRow width) : (Σ r : Fin S, Fin (width r)) → ℝ :=
  fun column => row column.1 column.2

/-- The distribution proportional to `p * q / r`. -/
noncomputable def transportedDistribution (q r p : ShardedRow width)
    (column : Σ r : Fin S, Fin (width r)) : ℝ :=
  let weight := fun column : Σ r : Fin S, Fin (width r) =>
    Real.exp (flatRow p column) * Real.exp (flatRow q column) / Real.exp (flatRow r column)
  weight column / ∑ other, weight other

/-- A group of one rank skips a collective that would change nothing. -/
theorem maximum_unreduced {values : Fin S → WithBot ℝ} (rank : Fin S) :
    ∃ m, (if 1 < S then allReduceMax values else values) rank = m ∧
      ∀ other, (if 1 < S then allReduceMax values else values) other = m := by
  split
  · exact ⟨_, rfl, fun _ => rfl⟩
  · next hone =>
      have hpos := rank.pos
      obtain rfl : S = 1 := by omega
      exact ⟨_, rfl, fun other => by rw [Subsingleton.elim other rank]⟩

theorem transportRow_eq_logSoftmax (q r p : ShardedRow width) (rank : Fin S)
    (c : Fin (width rank)) :
    transportRow q r p rank c =
      logSoftmax (fun column => flatRow p column + flatRow q column - flatRow r column)
        ⟨rank, c⟩ := by
  have hne : Nonempty (Σ r : Fin S, Fin (width r)) := ⟨⟨rank, c⟩⟩
  unfold transportRow
  dsimp only
  rw [reduced_eq_sum]
  obtain ⟨m, -, hall⟩ := @maximum_unreduced S (fun rank => Finset.univ.sup fun c =>
    ((p rank c + q rank c - r rank c : ℝ) : WithBot ℝ)) rank
  simp only [hall]
  rw [← logSoftmax_sub _ (m.unbotD 0)]
  unfold logSoftmax logSumExp
  rw [Fintype.sum_sigma]
  rfl

theorem transportRow_eq_log (q r p : ShardedRow width) (rank : Fin S) (c : Fin (width rank)) :
    transportRow q r p rank c = Real.log (transportedDistribution q r p ⟨rank, c⟩) := by
  have hne : Nonempty (Σ r : Fin S, Fin (width r)) := ⟨⟨rank, c⟩⟩
  rw [transportRow_eq_logSoftmax, ← log_softmax]
  unfold softmax transportedDistribution
  rw [exp_logSoftmax]
  simp only [Real.exp_sub, Real.exp_add]

theorem sum_transportedDistribution [Nonempty (Σ r : Fin S, Fin (width r))]
    (q r p : ShardedRow width) : ∑ column, transportedDistribution q r p column = 1 := by
  have hweight : ∀ column, 0 < Real.exp (flatRow p column) * Real.exp (flatRow q column) /
      Real.exp (flatRow r column) := fun column => by positivity
  have htotal := sum_pos (fun column _ => hweight column) univ_nonempty
  unfold transportedDistribution
  dsimp only
  rw [← sum_div, div_self (ne_of_gt htotal)]

/-- Equal privileged and reference rows leave the student's own distribution. -/
theorem transportRow_self {q p : ShardedRow width}
    (hp : ∑ column : Σ r : Fin S, Fin (width r), Real.exp (flatRow p column) = 1) :
    transportRow q q p = p := by
  funext rank c
  rw [transportRow_eq_logSoftmax]
  simp only [add_sub_cancel_right]
  unfold logSoftmax logSumExp
  rw [hp, Real.log_one, sub_zero]
  rfl

/-- All columns on one rank, in order. -/
def gatherRow (row : ShardedRow width) : ShardedRow fun _ : Fin 1 => ∑ r, width r :=
  fun _ c => flatRow row (finSigmaFinEquiv.symm c)

/-- The group computes what one rank with all columns would. -/
theorem transportRow_gatherRow (q r p : ShardedRow width) :
    transportRow (gatherRow q) (gatherRow r) (gatherRow p) = gatherRow (transportRow q r p) := by
  funext rank c
  let e : (Σ _ : Fin 1, Fin (∑ r, width r)) ≃ Σ r : Fin S, Fin (width r) :=
    (Equiv.uniqueSigma fun _ : Fin 1 => Fin (∑ r, width r)).trans finSigmaFinEquiv.symm
  have he : ∀ column, e column = finSigmaFinEquiv.symm column.2 := by
    rintro ⟨only, column⟩
    obtain rfl : only = 0 := Subsingleton.elim _ _
    rfl
  rw [transportRow_eq_logSoftmax]
  show _ = transportRow q r p (finSigmaFinEquiv.symm c).1 (finSigmaFinEquiv.symm c).2
  rw [transportRow_eq_logSoftmax]
  have hgather := logSoftmax_comp_equiv e
    (fun column => flatRow p column + flatRow q column - flatRow r column) ⟨rank, c⟩
  simp only [he] at hgather
  exact hgather

end Row

/-! ## One response -/

/-- Three targets of one response that are about the same thing: the same fields
on every rank, the same columns, and one row of each per position. -/
structure AlignedTriple (𝕜 : Type) (S : Nat) where
  identity : Fin S → TargetIdentity 𝕜
  width : Fin S → Nat
  rows : List (ShardedRow width × ShardedRow width × ShardedRow width)

namespace AlignedTriple

variable (t : AlignedTriple 𝕜 S)

def privileged : GroupTarget 𝕜 S :=
  { identity := t.identity, width := t.width, rows := t.rows.map fun row => row.1 }

def reference : GroupTarget 𝕜 S :=
  { identity := t.identity, width := t.width, rows := t.rows.map fun row => row.2.1 }

def student : GroupTarget 𝕜 S :=
  { identity := t.identity, width := t.width, rows := t.rows.map fun row => row.2.2 }

/-- The privileged target with its log-probabilities replaced. -/
noncomputable def transported : GroupTarget 𝕜 S :=
  { t.privileged with rows := t.rows.map fun row => transportRow row.1 row.2.1 row.2.2 }

end AlignedTriple

/-- Three targets that pass the checks are such a triple. -/
theorem exists_alignedTriple {q r p : GroupTarget 𝕜 S}
    (hidentity : q.identity = r.identity ∧ r.identity = p.identity)
    (hrows : q.rows.length = r.rows.length ∧ r.rows.length = p.rows.length)
    (hwidth : q.width = r.width ∧ r.width = p.width) :
    ∃ t : AlignedTriple 𝕜 S, t.privileged = q ∧ t.reference = r ∧ t.student = p := by
  obtain ⟨identity, width, qRows⟩ := q
  obtain ⟨rIdentity, rWidth, rRows⟩ := r
  obtain ⟨pIdentity, pWidth, pRows⟩ := p
  obtain ⟨rfl, rfl⟩ := hidentity
  obtain ⟨rfl, rfl⟩ := hwidth
  obtain ⟨hqr, hrp⟩ := hrows
  have hzip : (rRows.zip pRows).length = rRows.length := by
    rw [List.length_zip, ← hrp, Nat.min_self]
  have hq : (qRows.zip (rRows.zip pRows)).map Prod.fst = qRows :=
    List.map_fst_zip (Nat.le_of_eq (hqr.trans hzip.symm))
  have hrest : (qRows.zip (rRows.zip pRows)).map Prod.snd = rRows.zip pRows :=
    List.map_snd_zip (Nat.le_of_eq (hzip.trans hqr.symm))
  refine ⟨⟨identity, width, qRows.zip (rRows.zip pRows)⟩, ?_, ?_, ?_⟩
  · exact congrArg (GroupTarget.mk identity width) hq
  · have hr : (qRows.zip (rRows.zip pRows)).map (fun row => row.2.1) = rRows := by
      show (qRows.zip (rRows.zip pRows)).map (Prod.fst ∘ Prod.snd) = rRows
      rw [← List.map_map, hrest]
      exact List.map_fst_zip (Nat.le_of_eq hrp)
    exact congrArg (GroupTarget.mk identity width) hr
  · have hp : (qRows.zip (rRows.zip pRows)).map (fun row => row.2.2) = pRows := by
      show (qRows.zip (rRows.zip pRows)).map (Prod.snd ∘ Prod.snd) = pRows
      rw [← List.map_map, hrest]
      exact List.map_snd_zip (Nat.le_of_eq hrp.symm)
    exact congrArg (GroupTarget.mk identity width) hp

/-- The sections of a response, whatever its output held and however long they are. -/
theorem transportSections_eq {width : Fin S → Nat} {sectionSize : Nat} (hsize : 0 < sectionSize)
    (rows : List (ShardedRow width × ShardedRow width × ShardedRow width))
    {output : List (ShardedRow width)} (hlength : output.length = rows.length) :
    transportSections sectionSize (rows.map fun row => row.1) (rows.map fun row => row.2.1)
        (rows.map fun row => row.2.2) output =
      rows.map fun row => transportRow row.1 row.2.1 row.2.2 := by
  have hsection : ∀ i, ((microbatch sectionSize i (rows.map fun row => row.1)).zip
      ((microbatch sectionSize i (rows.map fun row => row.2.1)).zip
        (microbatch sectionSize i (rows.map fun row => row.2.2)))).map
          (fun row => transportRow row.1 row.2.1 row.2.2) =
      microbatch sectionSize i (rows.map fun row => transportRow row.1 row.2.1 row.2.2) := by
    intro i
    simp only [microbatch_map, List.zip_map', List.map_map]
    rfl
  have hmap : output.length =
      (rows.map fun row => transportRow row.1 row.2.1 row.2.2).length := by
    rw [hlength, List.length_map]
  unfold transportSections
  simp only [hsection]
  rw [hmap]
  exact foldl_writeSection hsize hmap

/-! ## All responses -/

/-- The three lists are of one length, and their entries about the same responses. -/
structure Aligned (qs rs ps : List (GroupTarget 𝕜 S)) : Prop where
  reference : qs.length = rs.length
  student : rs.length = ps.length
  entries : ∀ (i : Nat) (q r p : GroupTarget 𝕜 S),
    qs[i]? = some q → rs[i]? = some r → ps[i]? = some p →
    (q.identity = r.identity ∧ r.identity = p.identity) ∧
    (q.rows.length = r.rows.length ∧ r.rows.length = p.rows.length) ∧
    q.width = r.width ∧ r.width = p.width

/-- Aligned lists are the lists of aligned triples. -/
theorem Aligned.exists_triples {qs rs ps : List (GroupTarget 𝕜 S)} (h : Aligned qs rs ps) :
    ∃ triples : List (AlignedTriple 𝕜 S), triples.map AlignedTriple.privileged = qs ∧
      triples.map AlignedTriple.reference = rs ∧ triples.map AlignedTriple.student = ps := by
  induction qs generalizing rs ps with
  | nil =>
      have hrs : rs = [] := List.length_eq_zero_iff.mp h.reference.symm
      subst hrs
      exact ⟨[], rfl, rfl, (List.length_eq_zero_iff.mp h.student.symm).symm⟩
  | cons q qs ih =>
      obtain ⟨hqr, hrp, hentries⟩ := h
      obtain ⟨r, rs, rfl⟩ := List.exists_cons_of_length_eq_add_one hqr.symm
      obtain ⟨p, ps, rfl⟩ := List.exists_cons_of_length_eq_add_one hrp.symm
      obtain ⟨hidentity, hrows, hwidth⟩ := hentries 0 q r p rfl rfl rfl
      obtain ⟨t, rfl, rfl, rfl⟩ := exists_alignedTriple hidentity hrows hwidth
      obtain ⟨triples, rfl, rfl, rfl⟩ := ih
        ⟨Nat.succ.inj hqr, Nat.succ.inj hrp, fun i => hentries (i + 1)⟩
      exact ⟨t :: triples, rfl, rfl, rfl⟩

theorem aligned_map (triples : List (AlignedTriple 𝕜 S)) :
    Aligned (triples.map AlignedTriple.privileged) (triples.map AlignedTriple.reference)
      (triples.map AlignedTriple.student) where
  reference := by rw [List.length_map, List.length_map]
  student := by rw [List.length_map, List.length_map]
  entries i q r p hq hr hp := by
    rw [List.getElem?_map, Option.map_eq_some_iff] at hq hr hp
    obtain ⟨t, ht, rfl⟩ := hq
    obtain ⟨_, hr, rfl⟩ := hr
    obtain ⟨_, hp, rfl⟩ := hp
    obtain rfl := Option.some.inj (ht.symm.trans hr)
    obtain rfl := Option.some.inj (ht.symm.trans hp)
    simp [AlignedTriple.privileged, AlignedTriple.reference, AlignedTriple.student]

section Lists

variable {sectionSize : Nat} {emptyLike : (q : GroupTarget 𝕜 S) → Nat → ShardedRow q.width}

theorem groupTransportTargets_aligned (hsize : 0 < sectionSize)
    (triples : List (AlignedTriple 𝕜 S)) :
    groupTransportTargets sectionSize emptyLike (triples.map AlignedTriple.privileged)
        (triples.map AlignedTriple.reference) (triples.map AlignedTriple.student) =
      .ok (triples.map AlignedTriple.transported) := by
  induction triples with
  | nil => rfl
  | cons t triples ih =>
      have hshape : (t.privileged.rows.length = t.reference.rows.length ∧
          t.reference.width = t.privileged.width) ∧
          (t.reference.rows.length = t.student.rows.length ∧
            t.student.width = t.privileged.width) := by
        simp [AlignedTriple.privileged, AlignedTriple.reference, AlignedTriple.student]
      have hrows : transportSections sectionSize t.privileged.rows
          (t.rows.map fun row => row.2.1) (t.rows.map fun row => row.2.2)
          ((List.range t.privileged.rows.length).map (emptyLike t.privileged)) =
          t.transported.rows :=
        transportSections_eq hsize t.rows (by simp [AlignedTriple.privileged])
      simp only [List.map_cons]
      rw [groupTransportTargets, if_pos ⟨rfl, rfl⟩, dif_pos hshape, ih]
      exact congrArg (fun rows => Except.ok ({ t.privileged with rows } ::
        triples.map AlignedTriple.transported)) hrows

theorem groupTransportTargets_cons_ok {q r p : GroupTarget 𝕜 S}
    {qs rs ps out : List (GroupTarget 𝕜 S)}
    (h : groupTransportTargets sectionSize emptyLike (q :: qs) (r :: rs) (p :: ps) = .ok out) :
    (q.identity = r.identity ∧ r.identity = p.identity) ∧
      (q.rows.length = r.rows.length ∧ r.rows.length = p.rows.length) ∧
      (q.width = r.width ∧ r.width = p.width) ∧
      ∃ rest, groupTransportTargets sectionSize emptyLike qs rs ps = .ok rest := by
  rw [groupTransportTargets] at h
  split at h
  · next hidentity =>
      split at h
      · next hshape =>
          obtain ⟨⟨hqr, hwr⟩, hrp, hwp⟩ := hshape
          refine ⟨hidentity, ⟨hqr, hrp⟩, ⟨hwr.symm, hwr.trans hwp.symm⟩, ?_⟩
          cases hrest : groupTransportTargets sectionSize emptyLike qs rs ps with
          | ok rest => exact ⟨rest, rfl⟩
          | error error =>
              rw [hrest] at h
              cases h
      · cases h
  · cases h

/-- Whatever passes all checks was a list of such triples. -/
theorem exists_triples_of_ok {qs rs ps out : List (GroupTarget 𝕜 S)}
    (h : groupTransportTargets sectionSize emptyLike qs rs ps = .ok out) :
    ∃ triples : List (AlignedTriple 𝕜 S), triples.map AlignedTriple.privileged = qs ∧
      triples.map AlignedTriple.reference = rs ∧ triples.map AlignedTriple.student = ps := by
  induction qs generalizing rs ps out with
  | nil =>
      rcases rs with _ | ⟨r, rs⟩ <;> rcases ps with _ | ⟨p, ps⟩ <;>
        simp [groupTransportTargets] at h
      exact ⟨[], rfl, rfl, rfl⟩
  | cons q qs ih =>
      rcases rs with _ | ⟨r, rs⟩
      · simp [groupTransportTargets] at h
      rcases ps with _ | ⟨p, ps⟩
      · simp [groupTransportTargets] at h
      obtain ⟨hidentity, hrows, hwidth, rest, hrest⟩ := groupTransportTargets_cons_ok h
      obtain ⟨t, rfl, rfl, rfl⟩ := exists_alignedTriple hidentity hrows hwidth
      obtain ⟨triples, rfl, rfl, rfl⟩ := ih hrest
      exact ⟨t :: triples, rfl, rfl, rfl⟩

theorem groupTransportTargets_error {qs rs ps : List (GroupTarget 𝕜 S)}
    (h : ¬ Aligned qs rs ps) :
    ∃ error, groupTransportTargets sectionSize emptyLike qs rs ps = .error error := by
  cases hresult : groupTransportTargets sectionSize emptyLike qs rs ps with
  | error error => exact ⟨error, rfl⟩
  | ok out =>
      obtain ⟨triples, rfl, rfl, rfl⟩ := exists_triples_of_ok hresult
      exact absurd (aligned_map triples) h

end Lists

/-! ## All columns on one rank -/

namespace AlignedTriple

/-- The same responses on a group of one rank. -/
def gather (t : AlignedTriple 𝕜 S) (identity : TargetIdentity 𝕜) : AlignedTriple 𝕜 1 where
  identity := fun _ => identity
  width := fun _ => ∑ r, t.width r
  rows := t.rows.map fun row => (gatherRow row.1, gatherRow row.2.1, gatherRow row.2.2)

theorem gather_transported (t : AlignedTriple 𝕜 S) (identity : TargetIdentity 𝕜) :
    (t.gather identity).transported.rows = t.transported.rows.map gatherRow := by
  unfold transported gather
  simp only [List.map_map]
  exact List.map_congr_left fun row _ => transportRow_gatherRow row.1 row.2.1 row.2.2

end AlignedTriple

/-- On every layout of the vocabulary and with any section size, aligned lists
give the privileged targets with their rows replaced by the logarithm of the
normalized `p * q / r` over all columns, and any other lists raise. -/
theorem transported_targets {sectionSize : Nat} (hsize : 0 < sectionSize)
    (emptyLike : (q : GroupTarget 𝕜 S) → Nat → ShardedRow q.width) :
    (∀ qs rs ps : List (GroupTarget 𝕜 S), Aligned qs rs ps →
      ∃ triples : List (AlignedTriple 𝕜 S),
        (triples.map AlignedTriple.privileged = qs ∧ triples.map AlignedTriple.reference = rs ∧
          triples.map AlignedTriple.student = ps) ∧
        groupTransportTargets sectionSize emptyLike qs rs ps =
          .ok (triples.map AlignedTriple.transported)) ∧
    (∀ t : AlignedTriple 𝕜 S,
      t.transported.identity = t.privileged.identity ∧
      t.transported.width = t.privileged.width ∧
      t.transported.rows.length = t.privileged.rows.length ∧
      (∀ identity, (t.gather identity).transported.rows = t.transported.rows.map gatherRow) ∧
      ∀ (i : Nat) q r p, t.rows[i]? = some (q, r, p) → ∃ row, t.transported.rows[i]? = some row ∧
        (∀ rank c, row rank c = Real.log (transportedDistribution q r p ⟨rank, c⟩)) ∧
        ((∃ rank, 0 < t.width rank) →
          ∑ column, transportedDistribution q r p column = 1) ∧
        (q = r → ∑ column, Real.exp (flatRow p column) = 1 → row = p)) ∧
    (∀ qs rs ps : List (GroupTarget 𝕜 S), ¬ Aligned qs rs ps →
      ∃ error, groupTransportTargets sectionSize emptyLike qs rs ps = .error error) := by
  refine ⟨?_, ?_, fun qs rs ps h => groupTransportTargets_error h⟩
  · intro qs rs ps h
    obtain ⟨triples, rfl, rfl, rfl⟩ := h.exists_triples
    exact ⟨triples, ⟨rfl, rfl, rfl⟩, groupTransportTargets_aligned hsize triples⟩
  · intro t
    refine ⟨rfl, rfl, ?_, t.gather_transported, ?_⟩
    · simp [AlignedTriple.transported, AlignedTriple.privileged]
    intro i q r p hrow
    have hout : (t.rows.map fun row => transportRow row.1 row.2.1 row.2.2)[i]? =
        some (transportRow q r p) := by
      rw [List.getElem?_map, hrow]
      rfl
    refine ⟨transportRow q r p, hout, transportRow_eq_log q r p, ?_, ?_⟩
    · rintro ⟨rank, hrank⟩
      have hne : Nonempty (Σ r : Fin S, Fin (t.width r)) := ⟨⟨rank, ⟨0, hrank⟩⟩⟩
      exact sum_transportedDistribution q r p
    · rintro rfl hp
      exact transportRow_self hp

/-- Three positions over two columns, both on the first of two ranks. -/
noncomputable def evenTriple : AlignedTriple Int 2 where
  identity := fun rank => ⟨some 4, 7, [11, 12, 13], 1, 2, if rank = 0 then 0 else 2⟩
  width := fun rank => if rank = 0 then 2 else 0
  rows := List.replicate 3 (fun _ _ => 0, fun _ _ => 0, fun _ _ => -Real.log (1 + 1))

theorem transported_targets_even :
    (∃ out, groupTransportTargets 2 (fun _ _ _ _ => 5) [evenTriple.privileged]
      [evenTriple.reference] [evenTriple.student] = .ok out) ∧
    evenTriple.transported.rows[2]? = some (fun _ _ => -Real.log 2) ∧
    (∃ error, groupTransportTargets 2 (fun _ _ _ _ => 5) [evenTriple.privileged] []
      [evenTriple.student] = .error error) := by
  obtain ⟨haligned, hrows, hraise⟩ :=
    @transported_targets 2 Int 2 (by decide) (fun _ _ _ _ => 5)
  refine ⟨?_, ?_, hraise _ _ _ fun h => absurd h.reference (by decide)⟩
  · obtain ⟨triples, -, hout⟩ := haligned _ _ _ (aligned_map [evenTriple])
    exact ⟨_, hout⟩
  · obtain ⟨row, hrow, -, -, hself⟩ := (hrows evenTriple).2.2.2.2 2 _ _ _ rfl
    have hp : ∑ column, Real.exp
        (flatRow (fun _ _ => -Real.log (1 + 1) : ShardedRow evenTriple.width) column) = 1 := by
      have hhalf : Real.exp (-Real.log (1 + 1)) = 1 / 2 := by
        rw [Real.exp_neg, Real.exp_log (by norm_num), one_add_one_eq_two, one_div]
      simp only [flatRow, hhalf, sum_const, card_univ, Fintype.card_sigma]
      norm_num [evenTriple]
    rw [hrow, hself rfl hp, one_add_one_eq_two]
    rfl

end Crisp.Proofs
