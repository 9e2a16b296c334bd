import Crisp.Lib.Divergence
import Crisp.Proofs.Accumulation
import Mathlib.Analysis.Complex.ExponentialBounds

/-!
# What the floored mixture costs

Both Jensen–Shannon losses are means of a token loss, and chunks have no part in
the mean. On one token the version by `logsumexp` is the divergence itself, with
the endpoints' infinite weights included. The other floors the mixture at `1e-8`
before its logarithm, which raises the logarithm and so lowers the loss: by
nothing where no entry is that small, and by a positive amount everywhere else.
So the two agree exactly on the rows the floor leaves alone, and the floored loss
is a divergence only as far as the rows' own divergence covers the loss.
-/

namespace Crisp.Proofs

open Crisp.Lib Crisp.Ref Finset

variable {V : Nat}

/-! ## One token -/

/-- The divergence of a teacher's and a student's row. -/
noncomputable def rowDivergence (beta : ℝ) (row : (Fin V → ℝ) × (Fin V → ℝ)) : ℝ :=
  jensenShannon beta (softmax row.1) (softmax row.2)

/-- What the floor takes off it. -/
noncomputable def rowDeficit (beta : ℝ) (row : (Fin V → ℝ) × (Fin V → ℝ)) : ℝ :=
  floorDeficit 1e-8 (mix beta (softmax row.1) (softmax row.2))

section Token

variable {beta : ℝ}

theorem mix_softmax_pos (hbeta : 0 ≤ beta ∧ beta ≤ 1) (teacher student : Fin V → ℝ) (c : Fin V) :
    0 < mix beta (softmax teacher) (softmax student) c :=
  mix_pos hbeta (softmax_pos teacher) (softmax_pos student) c

theorem sum_softmax_eq [NeZero V] (teacher student : Fin V → ℝ) :
    ∑ c, softmax teacher c = ∑ c, softmax student c :=
  (sum_exp_logSoftmax teacher).trans (sum_exp_logSoftmax student).symm

/-- The floored token loss is the divergence less the floor's deficit. -/
theorem jsdToken_eq (hbeta : 0 ≤ beta ∧ beta ≤ 1) (row : (Fin V → ℝ) × (Fin V → ℝ)) :
    jsdToken beta row.1 row.2 = rowDivergence beta row - rowDeficit beta row := by
  have hdeficit := @sum_mul_log_max _ _ 1e-8 _ (mix_softmax_pos hbeta row.1 row.2)
  unfold rowDivergence rowDeficit jensenShannon relEntropy
  rw [← hdeficit, mul_sum, mul_sum, ← sum_add_distrib, ← sum_sub_distrib]
  unfold jsdToken
  dsimp only
  rw [mul_sum, mul_sum, ← sum_add_distrib]
  refine sum_congr rfl fun c _ => ?_
  simp only [log_softmax]
  unfold mix softmax
  ring

theorem weightedProb_softmax {weight : ℝ} (hweight : 0 ≤ weight) (x : Fin V → ℝ) (c : Fin V) :
    weightedProb weight (logSoftmax x c) = weight * softmax x c := by
  unfold weightedProb
  split
  · next hpos => rw [Real.exp_add, Real.exp_log hpos, mul_comm, softmax]
  · next hneg => rw [le_antisymm (not_lt.mp hneg) hweight, zero_mul]

/-- The token loss by `logsumexp` is the divergence. -/
theorem jsdTokenLiger_eq (hbeta : 0 ≤ beta ∧ beta ≤ 1) (row : (Fin V → ℝ) × (Fin V → ℝ)) :
    jsdTokenLiger beta row.1 row.2 = rowDivergence beta row := by
  have hrest : 0 ≤ 1 - beta := sub_nonneg.mpr hbeta.2
  unfold jsdTokenLiger rowDivergence jensenShannon relEntropy fKlDiv
  simp only [weightedProb_softmax hbeta.1, weightedProb_softmax hrest, log_softmax]
  rfl

theorem rowDeficit_nonneg (hbeta : 0 ≤ beta ∧ beta ≤ 1) (row : (Fin V → ℝ) × (Fin V → ℝ)) :
    0 ≤ rowDeficit beta row :=
  floorDeficit_nonneg (mix_softmax_pos hbeta row.1 row.2)

theorem rowDeficit_eq_zero_iff (hbeta : 0 ≤ beta ∧ beta ≤ 1)
    (row : (Fin V → ℝ) × (Fin V → ℝ)) :
    rowDeficit beta row = 0 ↔ ∀ c, 1e-8 ≤ mix beta (softmax row.1) (softmax row.2) c :=
  floorDeficit_eq_zero_iff (mix_softmax_pos hbeta row.1 row.2)

theorem rowDivergence_nonneg [NeZero V] (hbeta : 0 ≤ beta ∧ beta ≤ 1)
    (row : (Fin V → ℝ) × (Fin V → ℝ)) : 0 ≤ rowDivergence beta row :=
  jensenShannon_nonneg hbeta (softmax_pos row.1) (softmax_pos row.2)
    (sum_softmax_eq row.1 row.2)

theorem rowDivergence_eq_zero_iff [NeZero V] (hbeta : 0 < beta ∧ beta < 1)
    (row : (Fin V → ℝ) × (Fin V → ℝ)) :
    rowDivergence beta row = 0 ↔ softmax row.1 = softmax row.2 :=
  jensenShannon_eq_zero_iff hbeta (softmax_pos row.1) (softmax_pos row.2)
    (sum_softmax_eq row.1 row.2)

theorem map_rowDivergence_self {rows : List ((Fin V → ℝ) × (Fin V → ℝ))}
    (hself : ∀ row ∈ rows, row.1 = row.2) :
    rows.map (rowDivergence beta) = rows.map fun _ => 0 :=
  List.map_congr_left fun row hrow => by
    unfold rowDivergence
    rw [← hself row hrow, jensenShannon_self]

theorem map_rowDeficit_self {rows : List ((Fin V → ℝ) × (Fin V → ℝ))}
    (hself : ∀ row ∈ rows, row.1 = row.2) :
    rows.map (rowDeficit beta) = rows.map fun row => floorDeficit 1e-8 (softmax row.1) :=
  List.map_congr_left fun row hrow => by
    unfold rowDeficit
    rw [← hself row hrow, mix_self]

end Token

/-! ## All tokens -/

section Rows

variable {beta : ℝ} {chunkSize : Nat} {rows : List ((Fin V → ℝ) × (Fin V → ℝ))}

theorem zipWith_pairs {Λ : Type} {f : Λ → Λ → ℝ} (pairs : List (Λ × Λ)) :
    List.zipWith f (pairs.map Prod.fst) (pairs.map Prod.snd) =
      pairs.map fun row => f row.1 row.2 := by
  rw [← List.map_uncurry_zip_eq_zipWith, List.zip_map', List.map_map]
  rfl

theorem chunkedMean_pairs {Λ : Type} {tokenLoss : Λ → Λ → ℝ} (hchunk : 0 < chunkSize)
    (pairs : List (Λ × Λ)) :
    chunkedMean chunkSize tokenLoss (pairs.map Prod.fst) (pairs.map Prod.snd) =
      ((pairs.map fun row => tokenLoss row.1 row.2).sum / pairs.length, pairs.length) := by
  have hmean := @chunkedMean_mean _ tokenLoss chunkSize hchunk (pairs.map Prod.fst)
    (pairs.map Prod.snd)
  rw [zipWith_pairs, List.length_map] at hmean
  refine Prod.ext hmean ?_
  unfold chunkedMean
  rw [List.length_map]
  dsimp only
  split
  · next h => rw [h]
  · rfl

theorem computeJsdLoss_eq (hbeta : 0 ≤ beta ∧ beta ≤ 1) (hchunk : 0 < chunkSize) :
    computeJsdLoss beta chunkSize (rows.map Prod.fst) (rows.map Prod.snd) =
      (((rows.map (rowDivergence beta)).sum - (rows.map (rowDeficit beta)).sum) / rows.length,
        rows.length) := by
  have hsplit : (rows.map fun row => jsdToken beta row.1 row.2).sum +
      (rows.map (rowDeficit beta)).sum = (rows.map (rowDivergence beta)).sum := by
    rw [← List.sum_map_add]
    refine congrArg List.sum (List.map_congr_left fun row _ => ?_)
    rw [jsdToken_eq hbeta, sub_add_cancel]
  unfold computeJsdLoss
  rw [chunkedMean_pairs hchunk, eq_sub_of_add_eq hsplit]

theorem computeJsdLossLiger_eq (hbeta : 0 ≤ beta ∧ beta ≤ 1) (hchunk : 0 < chunkSize) :
    computeJsdLossLiger beta chunkSize (rows.map Prod.fst) (rows.map Prod.snd) =
      ((rows.map (rowDivergence beta)).sum / rows.length, rows.length) := by
  unfold computeJsdLossLiger
  rw [splitMean_eq, chunkedMean_pairs hchunk,
    List.map_congr_left fun row _ => jsdTokenLiger_eq hbeta row]

/-- A sum of nonnegative values is zero when each of them is. -/
theorem sum_map_eq_zero_iff {α : Type} {f : α → ℝ} {xs : List α} (h : ∀ x, 0 ≤ f x) :
    (xs.map f).sum = 0 ↔ ∀ x ∈ xs, f x = 0 := by
  have hnonneg : ∀ y ∈ xs.map f, 0 ≤ y := List.forall_mem_map.mpr fun x _ => h x
  constructor
  · intro hsum x hx
    exact List.all_zero_of_le_zero_le_of_sum_eq_zero hnonneg hsum (List.mem_map_of_mem hx)
  · intro hzero
    rw [List.map_congr_left hzero]
    simp

theorem sum_rowDeficit_nonneg (hbeta : 0 ≤ beta ∧ beta ≤ 1)
    (rows : List ((Fin V → ℝ) × (Fin V → ℝ))) : 0 ≤ (rows.map (rowDeficit beta)).sum :=
  List.sum_nonneg (List.forall_mem_map.mpr fun row _ => rowDeficit_nonneg hbeta row)

/-- The floor takes nothing off exactly where it touches no entry. -/
theorem sum_rowDeficit_eq_zero_iff (hbeta : 0 ≤ beta ∧ beta ≤ 1) :
    (rows.map (rowDeficit beta)).sum = 0 ↔
      ∀ row ∈ rows, ∀ c, 1e-8 ≤ mix beta (softmax row.1) (softmax row.2) c := by
  rw [sum_map_eq_zero_iff (rowDeficit_nonneg hbeta)]
  exact forall₂_congr fun row _ => rowDeficit_eq_zero_iff hbeta row

theorem sum_rowDivergence_nonneg [NeZero V] (hbeta : 0 ≤ beta ∧ beta ≤ 1)
    (rows : List ((Fin V → ℝ) × (Fin V → ℝ))) : 0 ≤ (rows.map (rowDivergence beta)).sum :=
  List.sum_nonneg (List.forall_mem_map.mpr fun row _ => rowDivergence_nonneg hbeta row)

theorem sum_rowDivergence_eq_zero_iff [NeZero V] (hbeta : 0 < beta ∧ beta < 1) :
    (rows.map (rowDivergence beta)).sum = 0 ↔ ∀ row ∈ rows, softmax row.1 = softmax row.2 := by
  rw [sum_map_eq_zero_iff (rowDivergence_nonneg ⟨hbeta.1.le, hbeta.2.le⟩)]
  exact forall₂_congr fun row _ => rowDivergence_eq_zero_iff hbeta row

/-- Equal rows have no divergence, and the floored loss is the deficit, negated. -/
theorem computeJsdLoss_self (hbeta : 0 ≤ beta ∧ beta ≤ 1) (hchunk : 0 < chunkSize)
    (hself : ∀ row ∈ rows, row.1 = row.2) :
    (computeJsdLoss beta chunkSize (rows.map Prod.fst) (rows.map Prod.snd)).1 =
      -(rows.map fun row => floorDeficit 1e-8 (softmax row.1)).sum / rows.length := by
  rw [computeJsdLoss_eq hbeta hchunk, map_rowDivergence_self hself, map_rowDeficit_self hself]
  simp

theorem computeJsdLossLiger_self (hbeta : 0 ≤ beta ∧ beta ≤ 1) (hchunk : 0 < chunkSize)
    (hself : ∀ row ∈ rows, row.1 = row.2) :
    (computeJsdLossLiger beta chunkSize (rows.map Prod.fst) (rows.map Prod.snd)).1 = 0 := by
  rw [computeJsdLossLiger_eq hbeta hchunk, map_rowDivergence_self hself]
  simp

end Rows

/-- The two losses agree exactly on the rows whose mixtures stay above the floor. -/
theorem jsd_losses_agree_iff {V : Nat} {beta : ℝ} (hbeta : 0 ≤ beta ∧ beta ≤ 1)
    {c₁ c₂ : Nat} (hc₁ : 0 < c₁) (hc₂ : 0 < c₂) {rows : List ((Fin V → ℝ) × (Fin V → ℝ))}
    (hne : rows ≠ []) :
    computeJsdLoss beta c₁ (rows.map Prod.fst) (rows.map Prod.snd) =
        computeJsdLossLiger beta c₂ (rows.map Prod.fst) (rows.map Prod.snd) ↔
      ∀ row ∈ rows, ∀ c, 1e-8 ≤ mix beta (softmax row.1) (softmax row.2) c := by
  have hlength : (rows.length : ℝ) ≠ 0 :=
    Nat.cast_ne_zero.mpr (List.length_pos_iff.mpr hne).ne'
  rw [← sum_rowDeficit_eq_zero_iff hbeta, computeJsdLoss_eq hbeta hc₁,
    computeJsdLossLiger_eq hbeta hc₂, Prod.mk.injEq, and_iff_left rfl, div_left_inj' hlength,
    sub_eq_self]

/-- The floored loss is a divergence where no entry of a mixture is floored, and
beyond that while the rows' divergence exceeds what the floor takes off. -/
theorem jsd_divergence_iff {V : Nat} (hV : 0 < V) {beta : ℝ} (hbeta : 0 < beta ∧ beta < 1)
    {chunkSize : Nat} (hchunk : 0 < chunkSize) {rows : List ((Fin V → ℝ) × (Fin V → ℝ))}
    (hne : rows ≠ []) :
    (0 ≤ (computeJsdLoss beta chunkSize (rows.map Prod.fst) (rows.map Prod.snd)).1 ∧
        ((computeJsdLoss beta chunkSize (rows.map Prod.fst) (rows.map Prod.snd)).1 = 0 ↔
          ∀ row ∈ rows, softmax row.1 = softmax row.2)) ↔
      (∀ row ∈ rows, ∀ c, 1e-8 ≤ mix beta (softmax row.1) (softmax row.2) c) ∨
        (rows.map (rowDeficit beta)).sum < (rows.map (rowDivergence beta)).sum := by
  have hne' : NeZero V := ⟨hV.ne'⟩
  have hbeta' : 0 ≤ beta ∧ beta ≤ 1 := ⟨hbeta.1.le, hbeta.2.le⟩
  have hlength : 0 < (rows.length : ℝ) := Nat.cast_pos.mpr (List.length_pos_iff.mpr hne)
  have hloss : (computeJsdLoss beta chunkSize (rows.map Prod.fst) (rows.map Prod.snd)).1 =
      ((rows.map (rowDivergence beta)).sum - (rows.map (rowDeficit beta)).sum) / rows.length :=
    congrArg Prod.fst (computeJsdLoss_eq hbeta' hchunk)
  have hdeficit := sum_rowDeficit_nonneg hbeta' rows
  have hdivergence := sum_rowDivergence_nonneg hbeta' rows
  rw [hloss, ← sum_rowDeficit_eq_zero_iff hbeta', ← sum_rowDivergence_eq_zero_iff hbeta,
    le_div_iff₀ hlength, zero_mul, sub_nonneg, div_eq_zero_iff, or_iff_left hlength.ne',
    sub_eq_zero]
  constructor
  · rintro ⟨hle, hzero⟩
    rcases hdeficit.eq_or_lt with h | h
    · exact .inl h.symm
    · -- a positive deficit is not the whole divergence: the loss would be zero
      refine .inr (lt_of_le_of_ne hle fun heq => ?_)
      have hnone := hzero.mp heq.symm
      exact h.ne' (heq.trans hnone)
  · rintro (h | h)
    · rw [h]
      exact ⟨hdivergence, Iff.rfl⟩
    · exact ⟨h.le, iff_of_false h.ne' (hdeficit.trans_lt h).ne'⟩

/-! ## Peaked rows -/

/-- All logits but the first lie 20 below it. -/
def peakedRow (n : Nat) : Fin (n + 1) → ℝ := Fin.cons 0 fun _ => -20

theorem exp_twenty_bounds : 4e8 < Real.exp 20 ∧ Real.exp 20 < 5e8 := by
  have hpow : Real.exp 20 = Real.exp 1 ^ 20 := by
    rw [← Real.exp_nat_mul]
    norm_num
  have hlow : (2.7 : ℝ) < Real.exp 1 := lt_trans (by norm_num) Real.exp_one_gt_d9
  have hhigh : Real.exp 1 < 2.72 := lt_trans Real.exp_one_lt_d9 (by norm_num)
  rw [hpow]
  constructor
  · calc (4e8 : ℝ) < 2.7 ^ 20 := by norm_num
      _ < Real.exp 1 ^ 20 := pow_lt_pow_left₀ hlow (by norm_num) (by norm_num)
  · calc Real.exp 1 ^ 20 < 2.72 ^ 20 := pow_lt_pow_left₀ hhigh (Real.exp_pos 1).le (by norm_num)
      _ < 5e8 := by norm_num

theorem softmax_peakedRow {n : Nat} (c : Fin n) :
    softmax (peakedRow n) c.succ = 1 / (Real.exp 20 + n) := by
  have htotal : ∑ d, Real.exp (peakedRow n d) = (Real.exp 20 + n) * Real.exp (-20) := by
    rw [Fin.sum_univ_succ, add_mul, ← Real.exp_add]
    simp [peakedRow]
  unfold softmax
  rw [exp_logSoftmax, htotal]
  have hexp := Real.exp_ne_zero (-20)
  have hsum : Real.exp 20 + n ≠ 0 := by positivity
  simp only [peakedRow, Fin.cons_succ]
  field_simp

/-- Each of the other tokens costs the floored loss a part in a billion. -/
theorem floorDeficit_peakedRow {n : Nat} (hn : n ≤ 500000000) :
    n * 1e-9 ≤ floorDeficit 1e-8 (softmax (peakedRow n)) := by
  obtain ⟨hlow, hhigh⟩ := exp_twenty_bounds
  have hcast : (n : ℝ) ≤ 5e8 := by
    have h : (n : ℝ) ≤ (500000000 : Nat) := Nat.cast_le.mpr hn
    norm_num at h ⊢
    exact h
  have hpos : 0 < Real.exp 20 + n := by positivity
  have hratio : Real.exp 1 ≤ 1e-8 / (1 / (Real.exp 20 + n)) := by
    have hnonneg : (0 : ℝ) ≤ n := Nat.cast_nonneg n
    have hthree := Real.exp_one_lt_three
    rw [div_div_eq_mul_div, div_one]
    linarith
  have hcard : (univ.image (Fin.succ : Fin n → Fin (n + 1))).card = n := by
    rw [card_image_of_injective _ (Fin.succ_injective n), card_univ, Fintype.card_fin]
  have hunder : 1 / (Real.exp 20 + n) < 1e-8 := by
    rw [div_lt_iff₀ hpos]
    have hnonneg : (0 : ℝ) ≤ n := Nat.cast_nonneg n
    linarith
  have hloss : 1e-9 ≤ 1 / (Real.exp 20 + n) * Real.log (1e-8 / (1 / (Real.exp 20 + n))) := by
    have hlog : 1 ≤ Real.log (1e-8 / (1 / (Real.exp 20 + n))) :=
      (Real.le_log_iff_exp_le (lt_of_lt_of_le (Real.exp_pos 1) hratio)).mpr hratio
    have hprob : 1e-9 ≤ 1 / (Real.exp 20 + n) := by
      rw [le_div_iff₀ hpos]
      linarith
    calc (1e-9 : ℝ) = 1e-9 * 1 := (mul_one _).symm
      _ ≤ _ := mul_le_mul hprob hlog zero_le_one (by positivity)
  have hle : (univ.image (Fin.succ : Fin n → Fin (n + 1))).card * 1e-9 ≤
      floorDeficit 1e-8 (softmax (peakedRow n)) := by
    refine card_mul_le_floorDeficit (softmax_pos (peakedRow n)) (fun c hc => ?_) fun c hc => ?_
    · obtain ⟨d, -, rfl⟩ := mem_image.mp hc
      rw [softmax_peakedRow]
      exact hunder
    · obtain ⟨d, -, rfl⟩ := mem_image.mp hc
      rw [softmax_peakedRow]
      exact hloss
  rwa [hcard] at hle

/-- Teacher and student agree on a vocabulary of the size the launchers use, and
the floored loss of their row is below zero by more than `1e-4`. -/
theorem jsd_divergence_peaked :
    (computeJsdLoss (1 / 2) 128 [peakedRow 151935] [peakedRow 151935]).1 < -1e-4 := by
  have hdeficit := @floorDeficit_peakedRow 151935 (by norm_num)
  have hloss := @computeJsdLoss_self _ (1 / 2) 128 [(peakedRow 151935, peakedRow 151935)]
    ⟨by norm_num, by norm_num⟩ (by norm_num) (by simp)
  simp only [List.map_cons, List.map_nil, List.sum_cons, List.sum_nil, List.length_singleton,
    Nat.cast_one, div_one, add_zero] at hloss
  rw [hloss]
  norm_num at hdeficit ⊢
  linarith

theorem jsd_losses_agree_peaked :
    (computeJsdLoss (1 / 2) 128 [peakedRow 151935] [peakedRow 151935]).1 + 1e-4 <
      (computeJsdLossLiger (1 / 2) 64 [peakedRow 151935] [peakedRow 151935]).1 := by
  have hdeficit := @floorDeficit_peakedRow 151935 (by norm_num)
  have hloss := @computeJsdLoss_self _ (1 / 2) 128 [(peakedRow 151935, peakedRow 151935)]
    ⟨by norm_num, by norm_num⟩ (by norm_num) (by simp)
  have hliger := @computeJsdLossLiger_self _ (1 / 2) 64 [(peakedRow 151935, peakedRow 151935)]
    ⟨by norm_num, by norm_num⟩ (by norm_num) (by simp)
  simp only [List.map_cons, List.map_nil, List.sum_cons, List.sum_nil, List.length_singleton,
    Nat.cast_one, div_one, add_zero] at hloss hliger
  rw [hloss, hliger]
  norm_num at hdeficit ⊢
  linarith

/-! ## Two tokens -/

/-- Against an even teacher no mixture by halves comes near the floor. -/
theorem mix_even (student : Fin 2 → ℝ) (c : Fin 2) :
    1e-8 ≤ mix (1 / 2) (softmax ![0, 0]) (softmax student) c := by
  have heven : softmax ![0, 0] c = 1 / 2 := by
    unfold softmax
    rw [exp_logSoftmax]
    fin_cases c <;> norm_num
  have hpos := softmax_pos student c
  unfold mix
  rw [heven]
  linarith

theorem jsd_losses_agree_even :
    computeJsdLoss (1 / 2) 1 [![0, 0]] [![0, 1]] =
      computeJsdLossLiger (1 / 2) 2 [![0, 0]] [![0, 1]] :=
  (@jsd_losses_agree_iff 2 (1 / 2) ⟨by norm_num, by norm_num⟩ 1 2 (by decide) (by decide)
    [(![0, 0], ![0, 1])] (List.cons_ne_nil _ _)).mpr (by simpa using mix_even ![0, 1])

theorem jsd_divergence_even :
    0 ≤ (computeJsdLoss (1 / 2) 1 [![0, 0]] [![0, 1]]).1 ∧
      ((computeJsdLoss (1 / 2) 1 [![0, 0]] [![0, 1]]).1 = 0 ↔
        ∀ row ∈ [((![0, 0], ![0, 1]) : (Fin 2 → ℝ) × (Fin 2 → ℝ))],
          softmax row.1 = softmax row.2) :=
  (@jsd_divergence_iff 2 (by decide) (1 / 2) ⟨by norm_num, by norm_num⟩ 1 (by decide)
    [(![0, 0], ![0, 1])] (List.cons_ne_nil _ _)).mpr (.inl (by simpa using mix_even ![0, 1]))

end Crisp.Proofs
