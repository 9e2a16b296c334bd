import Crisp.Ref.OpsdMath
import Mathlib.Algebra.BigOperators.Fin

/-!
# Sharding the vocabulary changes nothing

A group's ranks index the real columns by rank and local column; a full row
indexes them by the vocabulary. `vocabEquiv` is the correspondence, padded and
empty shards included, and every reduction of `opsd_math` is a sum or a maximum
over it. So the three loss paths, on any layout, all compute one `divergence`
of the full row, and the unsharded call is the layout of one shard without
padding.
-/

namespace Crisp.Proofs

open Crisp.Lib Crisp.Ref Crisp.Ref.OpsdMath

variable {S W vocabSize : Nat}

/-- A rank and one of its real columns. -/
abbrev ShardColumn (S W vocabSize : Nat) :=
  Σ r : Fin S, Fin (validWidth ⟨r, S⟩ vocabSize W)

/-- What all ranks hold, as one family. -/
def flat (values : Shards S W vocabSize) : ShardColumn S W vocabSize → ℝ :=
  fun p => values p.1 p.2

def vocabColumn (p : ShardColumn S W vocabSize) : Fin vocabSize :=
  ⟨p.1 * W + p.2, column_lt p.2⟩

theorem local_lt_width (p : ShardColumn S W vocabSize) : (p.2 : Nat) < W :=
  lt_of_lt_of_le p.2.isLt (Nat.min_le_left _ _)

theorem vocabColumn_div (p : ShardColumn S W vocabSize) :
    (vocabColumn p : Nat) / W = p.1 := by
  have hlt := local_lt_width p
  show (p.1 * W + p.2 : Nat) / W = p.1
  rw [Nat.mul_comm, Nat.mul_add_div (by omega), Nat.div_eq_of_lt hlt, Nat.add_zero]

theorem vocabColumn_mod (p : ShardColumn S W vocabSize) :
    (vocabColumn p : Nat) % W = p.2 := by
  show (p.1 * W + p.2 : Nat) % W = p.2
  rw [Nat.mul_comm, Nat.mul_add_mod, Nat.mod_eq_of_lt (local_lt_width p)]

theorem vocabColumn_injective :
    Function.Injective (@vocabColumn S W vocabSize) := by
  intro p q h
  have hrank : (p.1 : Nat) = q.1 := by rw [← vocabColumn_div p, ← vocabColumn_div q, h]
  have hcol : (p.2 : Nat) = q.2 := by rw [← vocabColumn_mod p, ← vocabColumn_mod q, h]
  obtain ⟨r, c⟩ := p
  obtain ⟨r', c'⟩ := q
  obtain rfl : r = r' := Fin.ext hrank
  obtain rfl : c = c' := Fin.ext hcol
  rfl

theorem vocabColumn_surjective (hfit : vocabSize ≤ W * S) :
    Function.Surjective (@vocabColumn S W vocabSize) := by
  intro v
  have hlt : (v : Nat) < W * S := lt_of_lt_of_le v.isLt hfit
  have hpos : 0 < W := Nat.pos_of_mul_pos_right (lt_of_le_of_lt (Nat.zero_le _) hlt)
  have hmod := Nat.mod_lt (v : Nat) hpos
  have hsplit := Nat.div_add_mod' (v : Nat) W
  have hwidth : (v : Nat) % W < validWidth ⟨v / W, S⟩ vocabSize W := by
    have hv := v.isLt
    simp only [validWidth]
    omega
  exact ⟨⟨⟨v / W, Nat.div_lt_of_lt_mul hlt⟩, ⟨v % W, hwidth⟩⟩, Fin.ext hsplit⟩

/-- Every vocabulary entry is one rank's one column. -/
noncomputable def vocabEquiv (hfit : vocabSize ≤ W * S) :
    ShardColumn S W vocabSize ≃ Fin vocabSize :=
  Equiv.ofBijective vocabColumn ⟨vocabColumn_injective, vocabColumn_surjective hfit⟩

theorem firstColumns_vocabEquiv (hfit : vocabSize ≤ W * S)
    (logits : Fin S → Fin W → ℝ) (p : ShardColumn S W vocabSize) :
    firstColumns hfit logits (vocabEquiv hfit p) =
      logits p.1 ⟨p.2, local_lt_width p⟩ := by
  have hdiv := vocabColumn_div p
  have hmod := vocabColumn_mod p
  show logits ⟨(vocabColumn p : Nat) / W, _⟩ ⟨(vocabColumn p : Nat) % W, _⟩ = _
  simp only [hdiv, hmod]

theorem flat_scaledValues (hfit : vocabSize ≤ W * S) (temperature : ℝ)
    (logits : Fin S → Fin W → ℝ) :
    flat (scaledValues vocabSize temperature logits) =
      fun p => firstColumns hfit logits (vocabEquiv hfit p) / temperature := by
  funext p
  rw [firstColumns_vocabEquiv]
  rfl

/-! ## Reductions -/

/-- A reduction that is skipped for one rank is the sum over the ranks either
way. -/
theorem reduced_eq_sum {values : Fin S → ℝ} (r : Fin S) :
    (if 1 < S then allReduceSum values else values) r = ∑ r, values r := by
  split
  · rfl
  · next hone =>
      have hpos := r.pos
      obtain rfl : S = 1 := by omega
      rw [Fin.sum_univ_one, Subsingleton.elim r 0]

theorem unsharded_eq_sum {values : Fin S → ℝ} (r : Fin S) :
    (if S = 1 then values else sumVocab values) r = ∑ r, values r := by
  split
  · next hone =>
      subst hone
      rw [Fin.sum_univ_one, Subsingleton.elim r 0]
  · rfl

/-- Each rank's log-softmax is its part of the log-softmax of all columns. -/
theorem vocabLogSoftmax_eq {temperature : ℝ} {logits : Fin S → Fin W → ℝ} (r : Fin S)
    (c : Fin (validWidth ⟨r, S⟩ vocabSize W)) :
    vocabLogSoftmax vocabSize temperature logits r c =
      logSoftmax (flat (scaledValues vocabSize temperature logits)) ⟨r, c⟩ := by
  unfold vocabLogSoftmax
  split
  · next hone =>
      subst hone
      obtain rfl : r = 0 := Subsingleton.elim r 0
      unfold logSoftmax logSumExp
      rw [Fintype.sum_sigma, Fin.sum_univ_one]
      rfl
  · have hne : Nonempty (ShardColumn S W vocabSize) := ⟨⟨r, c⟩⟩
    -- The shift is by the maximum of all shards, a real number since one has columns.
    rw [← logSoftmax_sub _ (((allReduceMax fun r => Finset.univ.sup fun c =>
      ((scaledValues vocabSize temperature logits r c : ℝ) : WithBot ℝ)) r).unbotD 0)]
    unfold logSoftmax logSumExp
    rw [Fintype.sum_sigma]
    rfl

/-! ## The divergence of a full row -/

/-- The divergence of one position, over any index of the vocabulary. -/
noncomputable def divergence {κ : Type} [Fintype κ] (config : OPSDLossConfig ℝ)
    (logits teacher : κ → ℝ) : ℝ :=
  ∑ v, clamped config.tokenClip
    (vocabTerm config.beta (logSoftmax (fun v => logits v / config.temperature) v)
      (teacher v))

theorem divergence_comp_equiv {κ κ' : Type} [Fintype κ] [Fintype κ'] (e : κ' ≃ κ)
    (config : OPSDLossConfig ℝ) (logits teacher : κ → ℝ) :
    divergence config (fun v => logits (e v)) (fun v => teacher (e v)) =
      divergence config logits teacher := by
  unfold divergence
  rw [← Equiv.sum_comp e]
  refine Finset.sum_congr rfl fun v _ => ?_
  rw [logSoftmax_comp_equiv e fun v => logits v / config.temperature]

theorem opsdPerTokenLoss_eq_sum {config : OPSDLossConfig ℝ} {logits : Fin S → Fin W → ℝ}
    {teacher : Shards S W vocabSize} (r : Fin S) :
    opsdPerTokenLoss config vocabSize logits teacher r =
      ∑ r, ∑ c, clamped config.tokenClip
        (vocabTerm config.beta (vocabLogSoftmax vocabSize config.temperature logits r c)
          (teacher r c)) := by
  unfold opsdPerTokenLoss
  split
  · next hfused =>
      obtain ⟨hbeta, hclip⟩ := hfused
      unfold unclippedForwardKL
      rw [reduced_eq_sum]
      simp only [hbeta, hclip, clamped, vocabTerm, klDiv, if_true]
  · exact unsharded_eq_sum r

/-- All ranks of any layout return the divergence of the full row. -/
theorem opsdPerTokenLoss_eq (hfit : vocabSize ≤ W * S) (config : OPSDLossConfig ℝ)
    (logits : Fin S → Fin W → ℝ) (teacher : Fin vocabSize → ℝ) (r : Fin S) :
    opsdPerTokenLoss config vocabSize logits (shard teacher) r =
      divergence config (firstColumns hfit logits) teacher := by
  rw [opsdPerTokenLoss_eq_sum, ← divergence_comp_equiv (vocabEquiv hfit)]
  unfold divergence
  rw [Fintype.sum_sigma]
  refine Finset.sum_congr rfl fun r _ => Finset.sum_congr rfl fun c _ => ?_
  rw [vocabLogSoftmax_eq, flat_scaledValues hfit]
  rfl

/-- A full row is its own first columns. -/
theorem firstColumns_one (row : Fin vocabSize → ℝ)
    (hfit : vocabSize ≤ vocabSize * 1) :
    firstColumns hfit (fun _ => row) = row := by
  funext v
  show row ⟨(v : Nat) % vocabSize, _⟩ = row v
  congr 1
  exact Fin.ext (Nat.mod_eq_of_lt v.isLt)

/-- The unsharded call: no group, a row without padding. -/
noncomputable def unshardedLoss (config : OPSDLossConfig ℝ)
    (teacher row : Fin vocabSize → ℝ) : ℝ :=
  @opsdPerTokenLoss 1 vocabSize config vocabSize (fun _ => row) (shard teacher) 0

theorem unshardedLoss_eq (config : OPSDLossConfig ℝ) (teacher row : Fin vocabSize → ℝ) :
    unshardedLoss config teacher row = divergence config row teacher := by
  unfold unshardedLoss
  rw [opsdPerTokenLoss_eq (Nat.le_of_eq (Nat.mul_one vocabSize).symm), firstColumns_one]

/-! ## Concatenating the shards -/

theorem concat_shard (hfit : vocabSize ≤ W * S) (row : Fin vocabSize → ℝ) :
    (List.ofFn fun r => List.ofFn ((shard row : Shards S W vocabSize) r)).flatten =
      List.ofFn row := by
  have hshard : ∀ r : Fin S, List.ofFn ((shard row : Shards S W vocabSize) r) =
      microbatch W r (List.ofFn row) := by
    intro r
    apply List.ext_getElem
    · rw [List.length_ofFn]
      simp [microbatch, validWidth]
    · intro i hi _
      simp [microbatch, shard]
  have hrange : (List.ofFn fun r : Fin S => microbatch W r (List.ofFn row)) =
      (List.range S).map fun r => microbatch W r (List.ofFn row) :=
    List.ext_getElem (by simp) (by simp)
  simp only [hshard]
  rw [hrange, flatten_microbatches]
  rw [List.length_ofFn, Nat.mul_comm]
  exact hfit

theorem vocabLogSoftmax_eq_shard (hfit : vocabSize ≤ W * S) (temperature : ℝ)
    (logits : Fin S → Fin W → ℝ) :
    vocabLogSoftmax vocabSize temperature logits =
      shard (logSoftmax fun v => firstColumns hfit logits v / temperature) := by
  funext r c
  rw [vocabLogSoftmax_eq, flat_scaledValues hfit]
  exact logSoftmax_comp_equiv (vocabEquiv hfit)
    (fun v => firstColumns hfit logits v / temperature) ⟨r, c⟩

/-- **Vocabulary parallelism is invisible.** For every layout that covers the
vocabulary, the ranks' log-probabilities are those of the first columns end to
end, every rank's loss is the unsharded one, and rows that agree on those
columns give the same of both. -/
theorem vocab_parallel_eq_unsharded (hfit : vocabSize ≤ W * S)
    (config : OPSDLossConfig ℝ) (logits : Fin S → Fin W → ℝ)
    (teacher : Fin vocabSize → ℝ) :
    (List.ofFn fun r =>
        List.ofFn (vocabLogSoftmax vocabSize config.temperature logits r)).flatten =
      List.ofFn (logSoftmax fun v => firstColumns hfit logits v / config.temperature) ∧
    (∀ r, opsdPerTokenLoss config vocabSize logits (shard teacher) r =
      unshardedLoss config teacher (firstColumns hfit logits)) ∧
    ∀ other : Fin S → Fin W → ℝ,
      firstColumns hfit other = firstColumns hfit logits →
      vocabLogSoftmax vocabSize config.temperature other =
          vocabLogSoftmax vocabSize config.temperature logits ∧
        opsdPerTokenLoss config vocabSize other (shard teacher) =
          opsdPerTokenLoss config vocabSize logits (shard teacher) := by
  refine ⟨?_, ?_, ?_⟩
  · rw [vocabLogSoftmax_eq_shard hfit]
    exact concat_shard hfit _
  · intro r
    rw [opsdPerTokenLoss_eq hfit, unshardedLoss_eq]
  · intro other hother
    refine ⟨?_, ?_⟩
    · rw [vocabLogSoftmax_eq_shard hfit, vocabLogSoftmax_eq_shard hfit, hother]
    · funext r
      rw [opsdPerTokenLoss_eq hfit, opsdPerTokenLoss_eq hfit, hother]

/-- Three columns on two shards of three: the first shard is full, the second
is padding throughout. -/
theorem vocab_parallel_eq_unsharded_padding :
    opsdPerTokenLoss ⟨1 / 2, 11 / 10, some (1 / 20)⟩ 3
        (fun (r : Fin 2) (c : Fin 3) => (r.val : ℝ) - c.val)
        (shard fun v : Fin 3 => (v.val : ℝ)) =
      fun _ : Fin 2 => unshardedLoss ⟨1 / 2, 11 / 10, some (1 / 20)⟩
        (fun v : Fin 3 => (v.val : ℝ))
        (firstColumns (by decide) fun (r : Fin 2) (c : Fin 3) => (r.val : ℝ) - c.val) := by
  obtain ⟨-, hloss, -⟩ := @vocab_parallel_eq_unsharded 2 3 3 (by decide)
    ⟨1 / 2, 11 / 10, some (1 / 20)⟩ (fun r c => (r.val : ℝ) - c.val) fun v => (v.val : ℝ)
  funext r
  exact hloss r

/-- The kernels the loops of a rank call compute the unsharded loss of the two
rows they are given. -/
theorem kernel_loss_eq (hfit : vocabSize ≤ W * S) (rank : Fin S)
    (config : OPSDLossConfig ℝ) (student teacher : Fin S → Fin W → ℝ) :
    (kernel rank).loss config vocabSize student
        ((kernel rank).logSoftmax vocabSize config.temperature teacher) =
      unshardedLoss config
        (logSoftmax fun v => firstColumns hfit teacher v / config.temperature)
        (firstColumns hfit student) := by
  have hcached : (fun r c => ((kernel rank).logSoftmax vocabSize config.temperature
      teacher r).getD c 0 : Shards S W vocabSize) =
      vocabLogSoftmax vocabSize config.temperature teacher := by
    funext r c
    show (List.ofFn (vocabLogSoftmax vocabSize config.temperature teacher r)).getD c 0 = _
    rw [List.getD_eq_getElem?_getD, List.getElem?_ofFn]
    simp
  show opsdPerTokenLoss config vocabSize student _ rank = _
  rw [hcached, vocabLogSoftmax_eq_shard hfit, opsdPerTokenLoss_eq hfit, unshardedLoss_eq]

end Crisp.Proofs
