import Crisp.Proofs.MixtureFloor
import Crisp.Proofs.VocabParallel

/-!
# One family of divergences

The unclipped loss has three branches in Miles, and the worker has four losses of
its own beside them, two of which pass their arguments to `kl_div` in the other
order. All of them are the skew divergence of the teacher's and the student's
distributions, so what holds of that family holds of each implementation, and
two of them agree where their weights do.
-/

namespace Crisp.Proofs

open Crisp.Lib Crisp.Ref Crisp.Ref.OpsdMath Finset

/-! ## The branches of the unclipped loss -/

section Branches

variable {κ : Type} [Fintype κ] {beta : ℝ}

/-- The mixture by `logsumexp`, between the ends. -/
theorem mixture_eq (hbeta : 0 < beta ∧ beta < 1) (student teacher : ℝ) :
    mixture beta student teacher =
      Real.log (beta * Real.exp teacher + (1 - beta) * Real.exp student) := by
  have hrest : 0 < 1 + -beta := by linarith
  unfold mixture
  rw [Real.exp_add, Real.exp_add, Real.exp_log hrest, Real.exp_log hbeta.1]
  congr 1
  ring

/-- Whatever the weight, a row's contributions add up to the skew divergence. -/
theorem sum_vocabTerm (hbeta : 0 ≤ beta ∧ beta ≤ 1) (student teacher : κ → ℝ) :
    ∑ v, vocabTerm beta (student v) (teacher v) =
      skewDivergence beta (fun v => Real.exp (teacher v)) fun v => Real.exp (student v) := by
  unfold vocabTerm skewDivergence
  split
  · unfold relEntropy klDiv
    simp only [Real.log_exp]
  · next hzero =>
      split
      · unfold relEntropy klDiv
        simp only [Real.log_exp]
      · next hone =>
          have hinside : 0 < beta ∧ beta < 1 :=
            ⟨lt_of_le_of_ne hbeta.1 (Ne.symm hzero), lt_of_le_of_ne hbeta.2 hone⟩
          unfold jensenShannon relEntropy klDiv mix
          rw [mul_sum, mul_sum, ← sum_add_distrib]
          refine sum_congr rfl fun v _ => ?_
          rw [mixture_eq hinside, Real.log_exp, Real.log_exp]

/-- The unclipped divergence of logits, tempered on both sides. -/
theorem divergence_unclipped (hbeta : 0 ≤ beta ∧ beta ≤ 1) (temperature : ℝ)
    (student teacher : κ → ℝ) :
    divergence ⟨beta, temperature, none⟩ student (logSoftmax fun v => teacher v / temperature) =
      skewDivergence beta (softmax fun v => teacher v / temperature)
        (softmax fun v => student v / temperature) :=
  sum_vocabTerm hbeta _ _

end Branches

/-! ## The unclipped loss -/

section Unclipped

variable {S W vocabSize : Nat}

/-- The tempered distribution of a padded row over the real vocabulary. -/
noncomputable def tempered (hfit : vocabSize ≤ W * S) (temperature : ℝ)
    (logits : Fin S → Fin W → ℝ) : Fin vocabSize → ℝ :=
  softmax fun v => firstColumns hfit logits v / temperature

/-- Every rank's loss against a teacher it scored itself. -/
theorem opsdPerTokenLoss_scored (hfit : vocabSize ≤ W * S) {beta : ℝ}
    (hbeta : 0 ≤ beta ∧ beta ≤ 1) (temperature : ℝ) (student teacher : Fin S → Fin W → ℝ)
    (r : Fin S) :
    opsdPerTokenLoss ⟨beta, temperature, none⟩ vocabSize student
        (vocabLogSoftmax vocabSize temperature teacher) r =
      skewDivergence beta (tempered hfit temperature teacher)
        (tempered hfit temperature student) := by
  rw [vocabLogSoftmax_eq_shard hfit, opsdPerTokenLoss_eq hfit]
  exact divergence_unclipped hbeta temperature _ _

/-- **The unclipped loss is a divergence.** On any layout it is nonnegative, zero
for equal distributions only, reflected by exchanging teacher and student, and
between the ends at most the entropy of its own weights. -/
theorem unclipped_divergence (hvocab : 0 < vocabSize) (hfit : vocabSize ≤ W * S) {beta : ℝ}
    (hbeta : 0 ≤ beta ∧ beta ≤ 1) (temperature : ℝ) (student teacher : Fin S → Fin W → ℝ)
    (r : Fin S) :
    let loss := fun (beta : ℝ) (student teacher : Fin S → Fin W → ℝ) =>
      opsdPerTokenLoss ⟨beta, temperature, none⟩ vocabSize student
        (vocabLogSoftmax vocabSize temperature teacher) r
    0 ≤ loss beta student teacher ∧
    (loss beta student teacher = 0 ↔
      tempered hfit temperature student = tempered hfit temperature teacher) ∧
    loss beta student teacher = loss (1 - beta) teacher student ∧
    (0 < beta → beta < 1 →
      loss beta student teacher ≤
        -beta * Real.log beta - (1 - beta) * Real.log (1 - beta)) := by
  have hnonempty : Nonempty (Fin vocabSize) := ⟨⟨0, hvocab⟩⟩
  have hpos : ∀ logits : Fin S → Fin W → ℝ, ∀ v, 0 < tempered hfit temperature logits v :=
    fun logits v => softmax_pos _ v
  have hmass : ∀ logits : Fin S → Fin W → ℝ, ∑ v, tempered hfit temperature logits v = 1 :=
    fun logits => sum_exp_logSoftmax _
  have hequal := (hmass teacher).trans (hmass student).symm
  have hreflected : 0 ≤ 1 - beta ∧ 1 - beta ≤ 1 := ⟨by linarith, by linarith⟩
  intro loss
  have hloss : loss beta student teacher = skewDivergence beta
      (tempered hfit temperature teacher) (tempered hfit temperature student) :=
    opsdPerTokenLoss_scored hfit hbeta temperature student teacher r
  refine ⟨?_, ?_, ?_, ?_⟩
  · rw [hloss]
    exact skewDivergence_nonneg hbeta (hpos teacher) (hpos student) hequal
  · rw [hloss, skewDivergence_eq_zero_iff hbeta (hpos teacher) (hpos student) hequal, eq_comm]
  · have hother : loss (1 - beta) teacher student = skewDivergence (1 - beta)
        (tempered hfit temperature student) (tempered hfit temperature teacher) :=
      opsdPerTokenLoss_scored hfit hreflected temperature teacher student r
    rw [hloss, hother, skewDivergence_comm]
  · intro hlow hhigh
    have hbound := jensenShannon_le_binEntropy ⟨hlow, hhigh⟩ (hpos teacher) (hpos student)
      (hmass teacher) (hmass student)
    rw [hloss, skewDivergence_of_mem ⟨hlow, hhigh⟩]
    unfold Real.binEntropy at hbound
    rw [Real.log_inv, Real.log_inv] at hbound
    linarith

/-- Two tokens on two shards of two, the second shard all padding. -/
theorem unclipped_divergence_padding :
    let student : Fin 2 → Fin 2 → ℝ := fun _ c => c.val
    let teacher : Fin 2 → Fin 2 → ℝ := fun _ _ => 0
    let loss := fun (beta : ℝ) (student teacher : Fin 2 → Fin 2 → ℝ) =>
      opsdPerTokenLoss ⟨beta, 1, none⟩ 2 student (vocabLogSoftmax 2 1 teacher) 1
    0 ≤ loss (1 / 4) student teacher ∧
    (loss (1 / 4) student teacher = 0 ↔
      tempered (by decide : 2 ≤ 2 * 2) 1 student = tempered (by decide : 2 ≤ 2 * 2) 1 teacher) ∧
    loss (1 / 4) student teacher = loss (1 - 1 / 4) teacher student ∧
    (0 < (1 / 4 : ℝ) → (1 / 4 : ℝ) < 1 →
      loss (1 / 4) student teacher ≤
        -(1 / 4) * Real.log (1 / 4) - (1 - 1 / 4) * Real.log (1 - 1 / 4)) :=
  @unclipped_divergence 2 2 2 (by decide) (by decide) (1 / 4) ⟨by norm_num, by norm_num⟩ 1 _ _ 1

end Unclipped

/-! ## The worker's losses -/

section Worker

variable {V : Nat}

/-- Both token losses are one product, with the arguments of `kl_div` exchanged. -/
theorem reverseKlTokenLiger_eq : @reverseKlTokenLiger V = reverseKlToken := by
  funext teacher student
  unfold reverseKlTokenLiger reverseKlToken fKlDiv
  rfl

theorem reverseKlToken_eq (teacher student : Fin V → ℝ) :
    reverseKlToken teacher student = relEntropy (softmax student) (softmax teacher) := by
  unfold reverseKlToken relEntropy
  simp only [log_softmax]
  rfl

/-- The unsharded loss at temperature one, against the teacher's log-softmax. -/
theorem unshardedLoss_unclipped {beta : ℝ} (hbeta : 0 ≤ beta ∧ beta ≤ 1)
    (teacher student : Fin V → ℝ) :
    unshardedLoss ⟨beta, 1, none⟩ (logSoftmax teacher) student =
      skewDivergence beta (softmax teacher) (softmax student) := by
  have hdivergence := divergence_unclipped hbeta 1 student teacher
  simp only [div_one] at hdivergence
  rw [unshardedLoss_eq, hdivergence]

theorem unshardedLoss_reverse (teacher student : Fin V → ℝ) :
    unshardedLoss ⟨1, 1, none⟩ (logSoftmax teacher) student = reverseKlToken teacher student := by
  rw [unshardedLoss_unclipped ⟨zero_le_one, le_rfl⟩, reverseKlToken_eq]
  unfold skewDivergence
  rw [if_neg one_ne_zero, if_pos rfl]

theorem unshardedLoss_jsd {beta : ℝ} (hbeta : 0 < beta ∧ beta < 1)
    (teacher student : Fin V → ℝ) :
    unshardedLoss ⟨beta, 1, none⟩ (logSoftmax teacher) student =
      rowDivergence beta (teacher, student) := by
  rw [unshardedLoss_unclipped ⟨hbeta.1.le, hbeta.2.le⟩, skewDivergence_of_mem hbeta]
  rfl

theorem reverseKlToken_nonneg (hV : 0 < V) (teacher student : Fin V → ℝ) :
    0 ≤ reverseKlToken teacher student := by
  have hne : NeZero V := ⟨hV.ne'⟩
  rw [reverseKlToken_eq]
  exact relEntropy_nonneg (softmax_pos student) (softmax_pos teacher)
    (sum_softmax_eq student teacher)

variable {rows : List ((Fin V → ℝ) × (Fin V → ℝ))} {chunkSize : Nat}

theorem computeReverseKlLoss_eq (beta : ℝ) (hchunk : 0 < chunkSize) :
    computeReverseKlLoss beta chunkSize (rows.map Prod.fst) (rows.map Prod.snd) =
      ((rows.map fun row => reverseKlToken row.1 row.2).sum / rows.length, rows.length) := by
  unfold computeReverseKlLoss
  exact chunkedMean_pairs hchunk rows

theorem computeReverseKlLossLiger_eq (beta : ℝ) (hchunk : 0 < chunkSize) :
    computeReverseKlLossLiger beta chunkSize (rows.map Prod.fst) (rows.map Prod.snd) =
      ((rows.map fun row => reverseKlToken row.1 row.2).sum / rows.length, rows.length) := by
  unfold computeReverseKlLossLiger
  rw [splitMean_eq, reverseKlTokenLiger_eq, chunkedMean_pairs hchunk]

/-- Chunks do not show in the entropy either. -/
theorem sum_chunks {α : Type} {f : α → ℝ} {xs : List α} {n : Nat} (hchunk : 0 < chunkSize)
    (hlength : xs.length = n) :
    ((List.range ((n + chunkSize - 1) / chunkSize)).map fun i =>
      ((microbatch chunkSize i xs).map f).sum).sum = (xs.map f).sum := by
  have hcover : xs.length ≤ (n + chunkSize - 1) / chunkSize * chunkSize :=
    hlength ▸ le_ceil_mul hchunk
  have hchunks := congrArg (fun ys => (ys.map f).sum) (flatten_microbatches hcover)
  simp only [List.map_flatten, List.sum_flatten, List.map_map] at hchunks
  exact hchunks

theorem entropyMeans_eq {student teacher : List (Fin V → ℝ)} (hchunk : 0 < chunkSize)
    (hlength : teacher.length = student.length) :
    entropyMeans chunkSize student teacher =
      ((student.map tokenEntropy).sum / student.length,
        (teacher.map tokenEntropy).sum / student.length) := by
  unfold entropyMeans
  dsimp only
  split
  · next hnone =>
      rw [List.length_eq_zero_iff.mp (hlength.trans hnone), List.length_eq_zero_iff.mp hnone]
      simp
  · rw [sum_chunks hchunk rfl, sum_chunks hchunk hlength]

/-- The mean over response rows of the worker's loss on all columns at once. -/
noncomputable def unshardedMean (config : OPSDLossConfig ℝ)
    (rows : List ((Fin V → ℝ) × (Fin V → ℝ))) : ℝ :=
  (rows.map fun row => unshardedLoss config (logSoftmax row.1) row.2).sum / rows.length

/-- **The other implementations agree.** Chunked or split, the reverse KL losses
are one nonnegative mean, that of the unclipped loss at weight one; the
Jensen–Shannon loss by `logsumexp` is the mean of the unclipped loss at its own
weight; and both versions of the entropies are the means over the tokens. -/
theorem loss_implementations_agree (hV : 0 < V) (rows : List ((Fin V → ℝ) × (Fin V → ℝ)))
    {c₁ c₂ c₃ c₄ c₅ : Nat} (hc₁ : 0 < c₁) (hc₂ : 0 < c₂) (hc₃ : 0 < c₃) (hc₄ : 0 < c₄)
    (hc₅ : 0 < c₅) :
    (∀ beta beta',
      computeReverseKlLoss beta c₁ (rows.map Prod.fst) (rows.map Prod.snd) =
        computeReverseKlLossLiger beta' c₂ (rows.map Prod.fst) (rows.map Prod.snd)) ∧
    (∀ beta,
      0 ≤ (computeReverseKlLoss beta c₁ (rows.map Prod.fst) (rows.map Prod.snd)).1 ∧
      (computeReverseKlLoss beta c₁ (rows.map Prod.fst) (rows.map Prod.snd)).1 =
        unshardedMean ⟨1, 1, none⟩ rows) ∧
    (∀ beta, 0 < beta → beta < 1 →
      (computeJsdLossLiger beta c₃ (rows.map Prod.fst) (rows.map Prod.snd)).1 =
        unshardedMean ⟨beta, 1, none⟩ rows) ∧
    computeEntropy c₄ (rows.map Prod.snd) (rows.map Prod.fst) =
      computeEntropyLiger c₅ (rows.map Prod.snd) (rows.map Prod.fst) ∧
    computeEntropy c₄ (rows.map Prod.snd) (rows.map Prod.fst) =
      ((rows.map fun row => tokenEntropy row.2).sum / rows.length,
        (rows.map fun row => tokenEntropy row.1).sum / rows.length) := by
  have hreverse : (rows.map fun row => reverseKlToken row.1 row.2).sum / rows.length =
      unshardedMean ⟨1, 1, none⟩ rows := by
    have hrow : ∀ row : (Fin V → ℝ) × (Fin V → ℝ), reverseKlToken row.1 row.2 =
        unshardedLoss ⟨1, 1, none⟩ (logSoftmax row.1) row.2 := fun row =>
      (unshardedLoss_reverse row.1 row.2).symm
    simp only [unshardedMean, hrow]
  have hlength : (rows.map Prod.fst).length = (rows.map Prod.snd).length :=
    (List.length_map _).trans (List.length_map _).symm
  refine ⟨fun beta beta' => ?_, fun beta => ⟨?_, ?_⟩, fun beta hlow hhigh => ?_, ?_, ?_⟩
  · rw [computeReverseKlLoss_eq beta hc₁, computeReverseKlLossLiger_eq beta' hc₂]
  · rw [computeReverseKlLoss_eq beta hc₁]
    refine div_nonneg (List.sum_nonneg ?_) (Nat.cast_nonneg _)
    exact List.forall_mem_map.mpr fun row _ => reverseKlToken_nonneg hV row.1 row.2
  · rw [computeReverseKlLoss_eq beta hc₁]
    exact hreverse
  · have hrows : rows.map (rowDivergence beta) =
        rows.map fun row => unshardedLoss ⟨beta, 1, none⟩ (logSoftmax row.1) row.2 :=
      List.map_congr_left fun row _ => (unshardedLoss_jsd ⟨hlow, hhigh⟩ row.1 row.2).symm
    rw [computeJsdLossLiger_eq ⟨hlow.le, hhigh.le⟩ hc₃, hrows]
    rfl
  · unfold computeEntropy computeEntropyLiger
    rw [entropyMeans_eq hc₄ hlength, entropyMeans_eq hc₅ hlength]
  · unfold computeEntropy
    rw [entropyMeans_eq hc₄ hlength, List.map_map, List.map_map, List.length_map]
    rfl

/-- Two tokens of a vocabulary of two. -/
def twoTokens : List ((Fin 2 → ℝ) × (Fin 2 → ℝ)) := [(![0, 0], ![0, 1]), (![1, 0], ![1, 1])]

/-- They come in chunks of different sizes. -/
theorem loss_implementations_agree_chunks :
    (∀ beta beta',
      computeReverseKlLoss beta 1 (twoTokens.map Prod.fst) (twoTokens.map Prod.snd) =
        computeReverseKlLossLiger beta' 2 (twoTokens.map Prod.fst) (twoTokens.map Prod.snd)) ∧
    (∀ beta,
      0 ≤ (computeReverseKlLoss beta 1 (twoTokens.map Prod.fst) (twoTokens.map Prod.snd)).1 ∧
      (computeReverseKlLoss beta 1 (twoTokens.map Prod.fst) (twoTokens.map Prod.snd)).1 =
        unshardedMean ⟨1, 1, none⟩ twoTokens) ∧
    (∀ beta, 0 < beta → beta < 1 →
      (computeJsdLossLiger beta 3 (twoTokens.map Prod.fst) (twoTokens.map Prod.snd)).1 =
        unshardedMean ⟨beta, 1, none⟩ twoTokens) ∧
    computeEntropy 1 (twoTokens.map Prod.snd) (twoTokens.map Prod.fst) =
      computeEntropyLiger 2 (twoTokens.map Prod.snd) (twoTokens.map Prod.fst) ∧
    computeEntropy 1 (twoTokens.map Prod.snd) (twoTokens.map Prod.fst) =
      ((twoTokens.map fun row => tokenEntropy row.2).sum / twoTokens.length,
        (twoTokens.map fun row => tokenEntropy row.1).sum / twoTokens.length) :=
  loss_implementations_agree (by decide) _ (by decide) (by decide) (by decide) (by decide)
    (by decide)

end Worker

end Crisp.Proofs
