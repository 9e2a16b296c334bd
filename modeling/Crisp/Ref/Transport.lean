import Crisp.Lib.Raise
import Crisp.Lib.Segments
import Crisp.Ref.OpsdMath

/-!
# Transported targets across the vocabulary shards

`_transport_targets` as all ranks of a tensor-parallel group run it together. A
target is what the ranks hold of one response: each its own identity fields and
its own columns, and all of them the same positions. The output of a response is
allocated uninitialized and filled in sections of 128 positions, with two
collectives for each; what the allocation holds before is a parameter.

A check that fails on one rank raises there, before the collective the others
are waiting in, so the group has no result.
-/

namespace Crisp.Ref

open Crisp.Lib Crisp.Ref.OpsdMath

variable {S : Nat} {𝕜 : Type}

/-- The columns of one position: rank `r` holds `width r` of them. -/
abbrev ShardedRow (width : Fin S → Nat) := (r : Fin S) → Fin (width r) → ℝ

/-- One response's `OPSDTarget` on every rank. -/
structure GroupTarget (𝕜 : Type) (S : Nat) where
  identity : Fin S → TargetIdentity 𝕜
  width : Fin S → Nat
  rows : List (ShardedRow width)

/-- One position of a section: `p * q / r` in logarithms, normalized over all
columns of all ranks. A shard without columns has `-inf` for its maximum. -/
noncomputable def transportRow {width : Fin S → Nat} (q r p : ShardedRow width) :
    ShardedRow width :=
  let values : ShardedRow width := fun rank c => p rank c + q rank c - r rank c
  let localMaximum := fun rank => Finset.univ.sup fun c => (values rank c : WithBot ℝ)
  let maximum := if 1 < S then allReduceMax localMaximum else localMaximum
  let shifted : ShardedRow width := fun rank c => values rank c - (maximum rank).unbotD 0
  let localDenominator := fun rank => ∑ c, Real.exp (shifted rank c)
  let denominator := if 1 < S then OpsdMath.allReduceSum localDenominator else localDenominator
  fun rank c => shifted rank c - Real.log (denominator rank)

/-- The loop over the sections of one response. -/
noncomputable def transportSections {width : Fin S → Nat} (sectionSize : Nat)
    (q r p output : List (ShardedRow width)) : List (ShardedRow width) :=
  (List.range ((output.length + sectionSize - 1) / sectionSize)).foldl
    (fun output i =>
      writeSection output (i * sectionSize)
        (((microbatch sectionSize i q).zip
          ((microbatch sectionSize i r).zip (microbatch sectionSize i p))).map
            fun row => transportRow row.1 row.2.1 row.2.2))
    output

/-- `_transport_targets`. -/
noncomputable def groupTransportTargets (sectionSize : Nat)
    (emptyLike : (q : GroupTarget 𝕜 S) → Nat → ShardedRow q.width) :
    List (GroupTarget 𝕜 S) → List (GroupTarget 𝕜 S) → List (GroupTarget 𝕜 S) →
      Except PyError (List (GroupTarget 𝕜 S))
  | q :: qs, r :: rs, p :: ps =>
      open scoped Classical in
      if q.identity = r.identity ∧ r.identity = p.identity then
        if h : (q.rows.length = r.rows.length ∧ r.width = q.width) ∧
            (r.rows.length = p.rows.length ∧ p.width = q.width) then do
          let output := (List.range q.rows.length).map (emptyLike q)
          let rows := transportSections sectionSize q.rows (h.1.2 ▸ r.rows) (h.2.2 ▸ p.rows)
            output
          let rest ← groupTransportTargets sectionSize emptyLike qs rs ps
          .ok ({ q with rows } :: rest)
        else .error (valueError "Transported OPSD target shape mismatch")
      else .error (valueError "Transported OPSD target alignment mismatch")
  | [], [], [] => .ok []
  | qs, rs, ps => .error (zipMismatch [qs.isEmpty, rs.isEmpty, ps.isEmpty])

end Crisp.Ref
