import Mathlib.Analysis.SpecialFunctions.BinaryEntropy
import Mathlib.InformationTheory.KullbackLeibler.KLFun

/-!
# Divergences over a finite index

Relative entropy of positive families of equal mass, by Gibbs' inequality term
by term, and the weighted Jensen–Shannon divergence on top of it. With the two
relative entropies at its ends, where its own weights degenerate, the latter is
one family that exchanging the arguments reflects. The last section is about an
implementation that floors the mixture before it takes the logarithm: what the
floor takes off the divergence is a sum over the entries it touched, and is zero
only when it touched none.
-/

namespace Crisp.Lib

open Finset InformationTheory

variable {κ : Type} [Fintype κ]

/-! ## Relative entropy -/

noncomputable def relEntropy (p q : κ → ℝ) : ℝ :=
  ∑ c, p c * (Real.log (p c) - Real.log (q c))

theorem mul_log_sub_log {a b : ℝ} (ha : 0 < a) (hb : 0 < b) :
    a * (Real.log a - Real.log b) = b * klFun (a / b) + (a - b) := by
  rw [klFun_apply, Real.log_div ha.ne' hb.ne']
  field_simp
  ring

theorem mul_klFun_nonneg {a b : ℝ} (ha : 0 < a) (hb : 0 < b) : 0 ≤ b * klFun (a / b) :=
  mul_nonneg hb.le (klFun_nonneg (div_pos ha hb).le)

section Gibbs

variable {p q : κ → ℝ}

/-- With equal masses only the nonnegative parts of the terms are left. -/
theorem relEntropy_eq_sum_klFun (hp : ∀ c, 0 < p c) (hq : ∀ c, 0 < q c)
    (hmass : ∑ c, p c = ∑ c, q c) : relEntropy p q = ∑ c, q c * klFun (p c / q c) := by
  unfold relEntropy
  rw [sum_congr rfl fun c _ => mul_log_sub_log (hp c) (hq c), sum_add_distrib, sum_sub_distrib,
    hmass, sub_self, add_zero]

theorem relEntropy_nonneg (hp : ∀ c, 0 < p c) (hq : ∀ c, 0 < q c)
    (hmass : ∑ c, p c = ∑ c, q c) : 0 ≤ relEntropy p q := by
  rw [relEntropy_eq_sum_klFun hp hq hmass]
  exact sum_nonneg fun c _ => mul_klFun_nonneg (hp c) (hq c)

theorem relEntropy_eq_zero_iff (hp : ∀ c, 0 < p c) (hq : ∀ c, 0 < q c)
    (hmass : ∑ c, p c = ∑ c, q c) : relEntropy p q = 0 ↔ p = q := by
  rw [relEntropy_eq_sum_klFun hp hq hmass,
    sum_eq_zero_iff_of_nonneg fun c _ => mul_klFun_nonneg (hp c) (hq c), funext_iff]
  refine forall_congr' fun c => ?_
  have hratio : 0 ≤ p c / q c := (div_pos (hp c) (hq c)).le
  simp only [mem_univ, forall_const, mul_eq_zero, (hq c).ne', false_or,
    klFun_eq_zero_iff hratio, div_eq_one_iff_eq (hq c).ne']

end Gibbs

/-! ## Mixtures -/

def mix (w : ℝ) (p q : κ → ℝ) (c : κ) : ℝ :=
  w * p c + (1 - w) * q c

noncomputable def jensenShannon (w : ℝ) (p q : κ → ℝ) : ℝ :=
  w * relEntropy p (mix w p q) + (1 - w) * relEntropy q (mix w p q)

section Mixture

variable {w : ℝ} {p q : κ → ℝ}

omit [Fintype κ] in
theorem mix_pos (hw : 0 ≤ w ∧ w ≤ 1) (hp : ∀ c, 0 < p c) (hq : ∀ c, 0 < q c) (c : κ) :
    0 < mix w p q c := by
  unfold mix
  rcases hw.1.eq_or_lt with h | h
  · rw [← h, zero_mul, sub_zero, one_mul, zero_add]
    exact hq c
  · exact add_pos_of_pos_of_nonneg (mul_pos h (hp c))
      (mul_nonneg (sub_nonneg.mpr hw.2) (hq c).le)

theorem sum_mix (hmass : ∑ c, p c = ∑ c, q c) : ∑ c, mix w p q c = ∑ c, p c := by
  unfold mix
  rw [sum_add_distrib, ← mul_sum, ← mul_sum, ← hmass]
  ring

omit [Fintype κ] in
@[simp] theorem mix_self : mix w p p = p := by
  funext c
  unfold mix
  ring

theorem jensenShannon_self : jensenShannon w p p = 0 := by
  unfold jensenShannon relEntropy
  rw [mix_self]
  simp

theorem jensenShannon_nonneg (hw : 0 ≤ w ∧ w ≤ 1) (hp : ∀ c, 0 < p c) (hq : ∀ c, 0 < q c)
    (hmass : ∑ c, p c = ∑ c, q c) : 0 ≤ jensenShannon w p q := by
  have hm := mix_pos hw hp hq
  have hleft := relEntropy_nonneg hp hm (sum_mix hmass).symm
  have hright := relEntropy_nonneg hq hm ((sum_mix hmass).trans hmass).symm
  exact add_nonneg (mul_nonneg hw.1 hleft) (mul_nonneg (sub_nonneg.mpr hw.2) hright)

theorem jensenShannon_eq_zero_iff (hw : 0 < w ∧ w < 1) (hp : ∀ c, 0 < p c)
    (hq : ∀ c, 0 < q c) (hmass : ∑ c, p c = ∑ c, q c) :
    jensenShannon w p q = 0 ↔ p = q := by
  have hm := mix_pos ⟨hw.1.le, hw.2.le⟩ hp hq
  have hleft := relEntropy_nonneg hp hm (sum_mix hmass).symm
  have hright := relEntropy_nonneg hq hm ((sum_mix hmass).trans hmass).symm
  have hrest : 0 < 1 - w := sub_pos.mpr hw.2
  unfold jensenShannon
  rw [add_eq_zero_iff_of_nonneg (mul_nonneg hw.1.le hleft) (mul_nonneg hrest.le hright),
    mul_eq_zero, mul_eq_zero, or_iff_right hw.1.ne', or_iff_right hrest.ne',
    relEntropy_eq_zero_iff hp hm (sum_mix hmass).symm,
    relEntropy_eq_zero_iff hq hm ((sum_mix hmass).trans hmass).symm]
  constructor
  · rintro ⟨h₁, h₂⟩
    exact h₁.trans h₂.symm
  · rintro rfl
    rw [mix_self]
    exact ⟨rfl, rfl⟩

omit [Fintype κ] in
theorem mix_comm (w : ℝ) (p q : κ → ℝ) : mix w p q = mix (1 - w) q p := by
  funext c
  unfold mix
  ring

theorem jensenShannon_comm (w : ℝ) (p q : κ → ℝ) :
    jensenShannon w p q = jensenShannon (1 - w) q p := by
  unfold jensenShannon
  rw [← mix_comm, sub_sub_cancel, add_comm]

/-- A mixture holds a share `w` of its first part, entry by entry. -/
theorem relEntropy_mix_le (hw : 0 < w ∧ w ≤ 1) (hp : ∀ c, 0 < p c) (hq : ∀ c, 0 < q c) :
    relEntropy p (mix w p q) ≤ -Real.log w * ∑ c, p c := by
  unfold relEntropy
  rw [mul_sum]
  refine sum_le_sum fun c _ => ?_
  have hshare : w * p c ≤ mix w p q c :=
    le_add_of_nonneg_right (mul_nonneg (sub_nonneg.mpr hw.2) (hq c).le)
  have hlog : Real.log w + Real.log (p c) ≤ Real.log (mix w p q c) := by
    rw [← Real.log_mul hw.1.ne' (hp c).ne']
    exact Real.log_le_log (mul_pos hw.1 (hp c)) hshare
  calc p c * (Real.log (p c) - Real.log (mix w p q c))
      ≤ p c * -Real.log w := mul_le_mul_of_nonneg_left (by linarith) (hp c).le
    _ = -Real.log w * p c := mul_comm _ _

theorem jensenShannon_le_binEntropy (hw : 0 < w ∧ w < 1) (hp : ∀ c, 0 < p c)
    (hq : ∀ c, 0 < q c) (hpmass : ∑ c, p c = 1) (hqmass : ∑ c, q c = 1) :
    jensenShannon w p q ≤ Real.binEntropy w := by
  have hrest : 0 < 1 - w := sub_pos.mpr hw.2
  have hleft := relEntropy_mix_le ⟨hw.1, hw.2.le⟩ hp hq
  have hright := relEntropy_mix_le ⟨hrest, by linarith⟩ hq hp
  rw [hpmass, mul_one] at hleft
  rw [hqmass, mul_one, ← mix_comm] at hright
  unfold jensenShannon Real.binEntropy
  rw [Real.log_inv, Real.log_inv]
  exact add_le_add (mul_le_mul_of_nonneg_left hleft hw.1.le)
    (mul_le_mul_of_nonneg_left hright hrest.le)

end Mixture

/-! ## The family with its ends -/

/-- The weighted divergence, and at either end the relative entropy it shrinks to
in proportion. -/
noncomputable def skewDivergence (w : ℝ) (p q : κ → ℝ) : ℝ :=
  if w = 0 then relEntropy p q else if w = 1 then relEntropy q p else jensenShannon w p q

section Skew

variable {w : ℝ} {p q : κ → ℝ}

theorem skewDivergence_of_mem (hw : 0 < w ∧ w < 1) :
    skewDivergence w p q = jensenShannon w p q := by
  unfold skewDivergence
  rw [if_neg hw.1.ne', if_neg hw.2.ne]

theorem skewDivergence_comm (w : ℝ) (p q : κ → ℝ) :
    skewDivergence w p q = skewDivergence (1 - w) q p := by
  unfold skewDivergence
  by_cases hzero : w = 0
  · rw [if_pos hzero, if_neg (by rw [hzero]; norm_num), if_pos (by rw [hzero, sub_zero])]
  · by_cases hone : w = 1
    · rw [if_neg hzero, if_pos hone, if_pos (by rw [hone, sub_self])]
    · rw [if_neg hzero, if_neg hone, if_neg (sub_ne_zero.mpr (Ne.symm hone)),
        if_neg (by rwa [sub_eq_self]), jensenShannon_comm]

theorem skewDivergence_nonneg (hw : 0 ≤ w ∧ w ≤ 1) (hp : ∀ c, 0 < p c) (hq : ∀ c, 0 < q c)
    (hmass : ∑ c, p c = ∑ c, q c) : 0 ≤ skewDivergence w p q := by
  unfold skewDivergence
  split
  · exact relEntropy_nonneg hp hq hmass
  · split
    · exact relEntropy_nonneg hq hp hmass.symm
    · exact jensenShannon_nonneg hw hp hq hmass

theorem skewDivergence_eq_zero_iff (hw : 0 ≤ w ∧ w ≤ 1) (hp : ∀ c, 0 < p c)
    (hq : ∀ c, 0 < q c) (hmass : ∑ c, p c = ∑ c, q c) :
    skewDivergence w p q = 0 ↔ p = q := by
  unfold skewDivergence
  split
  · exact relEntropy_eq_zero_iff hp hq hmass
  · next hzero =>
      split
      · rw [relEntropy_eq_zero_iff hq hp hmass.symm, eq_comm]
      · next hone =>
          exact jensenShannon_eq_zero_iff
            ⟨lt_of_le_of_ne hw.1 (Ne.symm hzero), lt_of_le_of_ne hw.2 hone⟩ hp hq hmass

end Skew

/-! ## A floored mixture -/

/-- What a floor below the logarithm of `m` takes off, over the entries under it. -/
noncomputable def floorDeficit (floor : ℝ) (m : κ → ℝ) : ℝ :=
  ∑ c with m c < floor, m c * Real.log (floor / m c)

theorem mul_log_div_pos {a floor : ℝ} (ha : 0 < a) (hfloor : a < floor) :
    0 < a * Real.log (floor / a) :=
  mul_pos ha (Real.log_pos ((one_lt_div ha).mpr hfloor))

section Floor

variable {floor : ℝ} {m : κ → ℝ}

theorem floorDeficit_nonneg (hm : ∀ c, 0 < m c) : 0 ≤ floorDeficit floor m :=
  sum_nonneg fun c hc => (mul_log_div_pos (hm c) (mem_filter.mp hc).2).le

theorem floorDeficit_eq_zero_iff (hm : ∀ c, 0 < m c) :
    floorDeficit floor m = 0 ↔ ∀ c, floor ≤ m c := by
  unfold floorDeficit
  rw [sum_eq_zero_iff_of_nonneg fun c hc => (mul_log_div_pos (hm c) (mem_filter.mp hc).2).le]
  refine forall_congr' fun c => ?_
  rw [mem_filter, and_iff_right (mem_univ c), ← not_lt]
  exact ⟨fun h hc => (mul_log_div_pos (hm c) hc).ne' (h hc), fun h hc => absurd hc h⟩

/-- Entries under the floor that each lose at least `b`. -/
theorem card_mul_le_floorDeficit (hm : ∀ c, 0 < m c) {s : Finset κ} {b : ℝ}
    (hunder : ∀ c ∈ s, m c < floor) (hloss : ∀ c ∈ s, b ≤ m c * Real.log (floor / m c)) :
    s.card * b ≤ floorDeficit floor m := by
  have hsubset : s ⊆ univ.filter fun c => m c < floor := fun c hc =>
    mem_filter.mpr ⟨mem_univ c, hunder c hc⟩
  calc s.card * b = s.card • b := (nsmul_eq_mul _ _).symm
    _ ≤ ∑ c ∈ s, m c * Real.log (floor / m c) := card_nsmul_le_sum s _ b hloss
    _ ≤ floorDeficit floor m := sum_le_sum_of_subset_of_nonneg hsubset fun c hc _ =>
        (mul_log_div_pos (hm c) (mem_filter.mp hc).2).le

/-- The floor, seen through the logarithm. -/
theorem sum_mul_log_max (hm : ∀ c, 0 < m c) :
    ∑ c, m c * (Real.log (max (m c) floor) - Real.log (m c)) = floorDeficit floor m := by
  unfold floorDeficit
  rw [sum_filter]
  refine sum_congr rfl fun c _ => ?_
  split
  · next hc =>
      have hfloor : floor ≠ 0 := ((hm c).trans hc).ne'
      rw [max_eq_right hc.le, Real.log_div hfloor (hm c).ne']
  · next hc => rw [max_eq_left (not_lt.mp hc), sub_self, mul_zero]

end Floor

end Crisp.Lib
