import Crisp.Lib.Packing
import Crisp.Ref.SeqlenBalancing

/-!
# What packing under a token budget guarantees

Placing one index is the step. It adds the index to the bins once, overfills no bin that
holds anything else, and leaves no room behind: a bin an index was turned away from only
fills up. The two bounds on the number of bins follow from that. Splitting a bin keeps
its indices, and where every length is positive it leaves neither half empty, so splitting
can go on until every index has a bin of its own.
-/

namespace Crisp.Proofs

open Crisp.Lib Crisp.Ref

section FirstFit

variable {lengths : List Nat} {cap : Nat} {i : Nat} {bins : List (TokenBin lengths)}

theorem placeFirst_perm (cap i : Nat) (bins : List (TokenBin lengths)) :
    ((placeFirst cap i bins).flatMap TokenBin.indices).Perm
      (i :: bins.flatMap TokenBin.indices) := by
  induction bins with
  | nil => exact .refl _
  | cons bin bins ih =>
      rw [placeFirst]
      split
      · show (bin.indices ++ [i] ++ bins.flatMap TokenBin.indices).Perm _
        rw [List.append_assoc]
        exact List.perm_middle
      · show (bin.indices ++ (placeFirst cap i bins).flatMap TokenBin.indices).Perm _
        exact (ih.append_left bin.indices).trans List.perm_middle

theorem mem_placeFirst {c : TokenBin lengths} {j : Nat} (hc : c ∈ placeFirst cap i bins)
    (hj : j ∈ c.indices) : j = i ∨ ∃ b ∈ bins, j ∈ b.indices := by
  have hmem := (placeFirst_perm cap i bins).mem_iff.mp (List.mem_flatMap.mpr ⟨c, hc, hj⟩)
  rcases List.mem_cons.mp hmem with h | h
  · exact .inl h
  · exact .inr (List.mem_flatMap.mp h)

/-- What every placing keeps. -/
structure Packed (cap : Nat) (bins : List (TokenBin lengths)) : Prop where
  nonempty : ∀ bin ∈ bins, bin.indices ≠ []
  fits : ∀ bin ∈ bins, bin.sum ≤ cap ∨ ∃ i, bin.indices = [i]
  noRoom : bins.Pairwise fun b c => ∀ i ∈ c.indices, cap < b.sum + lengths.getD i 0

theorem Packed.placeFirst (h : Packed cap bins) (i : Nat) : Packed cap (placeFirst cap i bins) := by
  induction bins with
  | nil =>
      refine ⟨?_, ?_, List.pairwise_singleton _ _⟩
      · simp [Ref.placeFirst, TokenBin.single]
      · simp [Ref.placeFirst, TokenBin.single]
  | cons bin bins ih =>
      obtain ⟨hne, hfits, hroom⟩ := h
      simp only [List.forall_mem_cons] at hne hfits
      obtain ⟨hbin, hbins⟩ := List.pairwise_cons.mp hroom
      rw [Ref.placeFirst]
      split
      · next hfit =>
          refine ⟨?_, ?_, List.pairwise_cons.mpr ⟨fun c hc j hj => ?_, hbins⟩⟩
          · simp only [List.forall_mem_cons]
            exact ⟨by simp [TokenBin.append], hne.2⟩
          · simp only [List.forall_mem_cons]
            exact ⟨.inl hfit, hfits.2⟩
          · have hover := hbin c hc j hj
            show cap < bin.sum + lengths.getD i 0 + lengths.getD j 0
            omega
      · next hfull =>
          have hrest := ih ⟨hne.2, hfits.2, hbins⟩
          refine ⟨?_, ?_, List.pairwise_cons.mpr ⟨fun c hc j hj => ?_, hrest.noRoom⟩⟩
          · simp only [List.forall_mem_cons]
            exact ⟨hne.1, hrest.nonempty⟩
          · simp only [List.forall_mem_cons]
            exact ⟨hfits.1, hrest.fits⟩
          · rcases mem_placeFirst hc hj with rfl | ⟨b, hb, hj⟩
            · omega
            · exact hbin b hb j hj

/-- Indices that come in by decreasing length leave the bins led by their first. -/
theorem placeFirst_led (hne : ∀ bin ∈ bins, bin.indices ≠ [])
    (hled : Led (fun i => lengths.getD i 0) (bins.map TokenBin.indices))
    (hi : ∀ bin ∈ bins, ∀ j ∈ bin.indices, lengths.getD i 0 ≤ lengths.getD j 0) :
    Led (fun i => lengths.getD i 0) ((placeFirst cap i bins).map TokenBin.indices) := by
  induction bins with
  | nil => exact List.pairwise_singleton _ _
  | cons bin bins ih =>
      obtain ⟨hbin, hbins⟩ := List.pairwise_cons.mp hled
      simp only [List.forall_mem_cons] at hne hi
      obtain ⟨first, others, hbinind⟩ := List.exists_cons_of_ne_nil hne.1
      rw [placeFirst]
      split
      · refine List.pairwise_cons.mpr ⟨fun c hc x hx y hy => hbin c hc x ?_ y hy, hbins⟩
        have hhead : (bin.append i).indices.head? = bin.indices.head? := by
          show (bin.indices ++ [i]).head? = bin.indices.head?
          rw [hbinind]
          rfl
        rwa [hhead] at hx
      · refine List.pairwise_cons.mpr ⟨fun c hc x hx y hy => ?_, ih hne.2 hbins hi.2⟩
        obtain ⟨d, hd, rfl⟩ := List.mem_map.mp hc
        rcases mem_placeFirst hd hy with rfl | ⟨b, hb, hy⟩
        · exact hi.1 x (List.mem_of_mem_head? hx)
        · exact hbin b.indices (List.mem_map_of_mem hb) x hx y hy

theorem firstFit_run (order : List Nat) : ∀ bins : List (TokenBin lengths), Packed cap bins →
    Packed cap (order.foldl (fun bins i => placeFirst cap i bins) bins) ∧
      ((order.foldl (fun bins i => placeFirst cap i bins) bins).flatMap TokenBin.indices).Perm
        (order ++ bins.flatMap TokenBin.indices) := by
  induction order with
  | nil => exact fun bins h => ⟨h, .refl _⟩
  | cons i order ih =>
      intro bins h
      obtain ⟨hpacked, hperm⟩ := ih (placeFirst cap i bins) (h.placeFirst i)
      refine ⟨hpacked, hperm.trans ?_⟩
      exact ((placeFirst_perm cap i bins).append_left order).trans List.perm_middle

theorem firstFit_led (order : List Nat) : ∀ bins : List (TokenBin lengths), Packed cap bins →
    Led (fun i => lengths.getD i 0) (bins.map TokenBin.indices) →
    order.Pairwise (fun i j => lengths.getD j 0 ≤ lengths.getD i 0) →
    (∀ i ∈ order, ∀ bin ∈ bins, ∀ j ∈ bin.indices, lengths.getD i 0 ≤ lengths.getD j 0) →
    Led (fun i => lengths.getD i 0)
      ((order.foldl (fun bins i => placeFirst cap i bins) bins).map TokenBin.indices) := by
  induction order with
  | nil => exact fun bins _ hled _ _ => hled
  | cons i order ih =>
      intro bins h hled horder hbins
      obtain ⟨hi, horder⟩ := List.pairwise_cons.mp horder
      simp only [List.forall_mem_cons] at hbins
      refine ih _ (h.placeFirst i) (placeFirst_led h.nonempty hled hbins.1) horder ?_
      intro k hk c hc j hj
      rcases mem_placeFirst hc hj with rfl | ⟨b, hb, hj⟩
      · exact hi k hk
      · exact hbins.2 k hk b hb j hj

end FirstFit

/-! ## The packings -/

section Packings

variable {lengths : List Nat} {cap : Nat}

theorem Packed.nil : Packed cap ([] : List (TokenBin lengths)) := ⟨by simp, by simp, .nil⟩

/-- Every index once, no bin empty, and none over the budget that holds two. -/
structure BudgetPacking (lengths : List Nat) (cap : Nat) (bins : List (List Nat)) : Prop where
  perm : bins.flatten.Perm (List.range lengths.length)
  nonempty : ∀ bin ∈ bins, bin ≠ []
  fits : ∀ bin ∈ bins, tokensOf lengths bin ≤ cap ∨ ∃ i, bin = [i]

theorem firstFit_packing {order : List Nat} (horder : order.Perm (List.range lengths.length)) :
    BudgetPacking lengths cap ((firstFit lengths cap order).map TokenBin.indices) ∧
      NoRoom (fun i => lengths.getD i 0) cap
        ((firstFit lengths cap order).map TokenBin.indices) := by
  obtain ⟨hpacked, hperm⟩ := firstFit_run order [] (@Packed.nil lengths cap)
  rw [List.flatMap_nil, List.append_nil] at hperm
  refine ⟨⟨?_, ?_, ?_⟩, ?_⟩
  · rw [← List.flatMap_def]
    exact hperm.trans horder
  · intro bin hbin
    obtain ⟨b, hb, rfl⟩ := List.mem_map.mp hbin
    exact hpacked.nonempty b hb
  · intro bin hbin
    obtain ⟨b, hb, rfl⟩ := List.mem_map.mp hbin
    rw [tokensOf, ← b.sum_eq]
    exact hpacked.fits b hb
  · refine List.pairwise_map.mpr (hpacked.noRoom.imp fun {b c} h j hj => ?_)
    rw [binLoad, ← b.sum_eq]
    exact h j hj

theorem longestFirst_perm (indices : List Nat) : (longestFirst lengths indices).Perm indices :=
  sortKeys_perm _ _

theorem longestFirst_sorted (indices : List Nat) :
    (longestFirst lengths indices).Pairwise fun i j => lengths.getD j 0 ≤ lengths.getD i 0 := by
  have hsorted := sortKeys_pairwise (fun i => OrderDual.toDual (lengths.getD i 0)) indices
  exact hsorted.imp fun h => OrderDual.toDual_le_toDual.mp h

/-- First fit, in whatever order: fewer than two bins for each of any packing. -/
theorem firstFitPack_spec (lengths : List Nat) (cap : Nat) :
    BudgetPacking lengths cap (firstFitPack lengths cap) ∧
    ∀ packing : List (List Nat), packing.flatten.Perm (List.range lengths.length) →
      (∀ bin ∈ packing, tokensOf lengths bin ≤ cap) → firstFitPack lengths cap ≠ [] →
      (firstFitPack lengths cap).length < 2 * packing.length := by
  obtain ⟨hpacking, hroom⟩ := @firstFit_packing _ cap _ (.refl (List.range lengths.length))
  exact ⟨hpacking, fun packing hperm hcap hne =>
    hroom.length_lt hpacking.nonempty hne (hperm.trans hpacking.perm.symm) hcap⟩

theorem firstFitDecreasingPack_packing (lengths : List Nat) (cap : Nat) :
    BudgetPacking lengths cap (firstFitDecreasingPack lengths cap) ∧
      NoRoom (fun i => lengths.getD i 0) cap (firstFitDecreasingPack lengths cap) :=
  firstFit_packing (@longestFirst_perm lengths (List.range lengths.length))

/-- Longest first: at most three bins for every two of any packing. -/
theorem firstFitDecreasingPack_spec (lengths : List Nat) (cap : Nat) :
    BudgetPacking lengths cap (firstFitDecreasingPack lengths cap) ∧
    ∀ packing : List (List Nat), packing.flatten.Perm (List.range lengths.length) →
      (∀ bin ∈ packing, tokensOf lengths bin ≤ cap) →
      2 * (firstFitDecreasingPack lengths cap).length ≤ 3 * packing.length := by
  obtain ⟨hpacking, hroom⟩ := firstFitDecreasingPack_packing lengths cap
  refine ⟨hpacking, fun packing hperm hcap => ?_⟩
  have hled := firstFit_led (longestFirst lengths (List.range lengths.length)) []
    (@Packed.nil lengths cap) .nil (longestFirst_sorted _) (by simp)
  exact hroom.length_le hled hpacking.nonempty (hperm.trans hpacking.perm.symm) hcap

/-- The order costs a bin here: first fit would take two. -/
example : (firstFitDecreasingPack [2, 2, 3, 2, 3, 2] 7).length = 3 ∧
    (firstFitPack [2, 2, 3, 2, 3, 2] 7).length = 2 := by decide

end Packings

/-! ## Splitting -/

section Splitting

variable {lengths : List Nat}

theorem addToHalf_perm (halves : TokenBin lengths × TokenBin lengths) (i : Nat) :
    ((addToHalf halves i).1.indices ++ (addToHalf halves i).2.indices).Perm
      (i :: (halves.1.indices ++ halves.2.indices)) := by
  rw [addToHalf]
  split
  · show (halves.1.indices ++ [i] ++ halves.2.indices).Perm _
    rw [List.append_assoc]
    exact List.perm_middle
  · show (halves.1.indices ++ (halves.2.indices ++ [i])).Perm _
    rw [← List.append_assoc]
    exact List.perm_append_singleton _ _

theorem foldl_addToHalf_perm (order : List Nat) : ∀ halves : TokenBin lengths × TokenBin lengths,
    ((order.foldl addToHalf halves).1.indices ++ (order.foldl addToHalf halves).2.indices).Perm
      (order ++ (halves.1.indices ++ halves.2.indices)) := by
  induction order with
  | nil => exact fun halves => .refl _
  | cons i order ih =>
      intro halves
      refine (ih (addToHalf halves i)).trans ?_
      exact ((addToHalf_perm halves i).append_left order).trans List.perm_middle

theorem splitBinByTokens_perm (bin : List Nat) :
    ((splitBinByTokens lengths bin).1.indices ++
      (splitBinByTokens lengths bin).2.indices).Perm bin := by
  refine (foldl_addToHalf_perm (longestFirst lengths bin) _).trans ?_
  simpa [TokenBin.empty] using longestFirst_perm bin

/-- A half that holds something goes on holding it. -/
theorem foldl_addToHalf_ne_nil (order : List Nat) : ∀ halves : TokenBin lengths × TokenBin lengths,
    halves.1.indices ≠ [] → halves.2.indices ≠ [] →
    (order.foldl addToHalf halves).1.indices ≠ [] ∧
      (order.foldl addToHalf halves).2.indices ≠ [] := by
  induction order with
  | nil => exact fun halves hl hr => ⟨hl, hr⟩
  | cons i order ih =>
      intro halves hl hr
      refine ih (addToHalf halves i) ?_ ?_
      · rw [addToHalf]
        split
        · simp [TokenBin.append]
        · exact hl
      · rw [addToHalf]
        split
        · exact hr
        · simp [TokenBin.append]

/-- Of two positive lengths the first goes left and the second right. -/
theorem splitBinByTokens_ne_nil {bin : List Nat} (hbin : 1 < bin.length)
    (hpos : ∀ i ∈ bin, 0 < lengths.getD i 0) :
    (splitBinByTokens lengths bin).1.indices ≠ [] ∧
      (splitBinByTokens lengths bin).2.indices ≠ [] := by
  have hperm := @longestFirst_perm lengths bin
  rw [splitBinByTokens]
  cases horder : longestFirst lengths bin with
  | nil =>
      rw [← hperm.length_eq, horder] at hbin
      cases hbin
  | cons i order =>
      cases order with
      | nil =>
          rw [← hperm.length_eq, horder] at hbin
          simp at hbin
      | cons j order =>
          have hi : 0 < lengths.getD i 0 := by
            refine hpos i (hperm.mem_iff.mp ?_)
            rw [horder]
            exact List.mem_cons_self
          have hleft : addToHalf (.empty lengths, .empty lengths) i =
              ((TokenBin.empty lengths).append i, .empty lengths) := rfl
          have hright : ¬((TokenBin.empty lengths).append i).sum ≤
              (TokenBin.empty lengths).sum := by
            simp only [TokenBin.append, TokenBin.empty]
            omega
          rw [List.foldl_cons, hleft, List.foldl_cons, addToHalf, if_neg hright]
          exact foldl_addToHalf_ne_nil order _ (by simp [TokenBin.append])
            (by simp [TokenBin.append])

theorem splitCandidate_eq_some {bins : List (List Nat)} {i : Nat}
    (h : splitCandidate lengths bins = some i) : ∃ bin, bins[i]? = some bin ∧ 1 < bin.length := by
  obtain ⟨candidate, hmax, rfl⟩ := Option.map_eq_some_iff.mp h
  obtain ⟨item, hitem, rfl⟩ := List.mem_map.mp (List.max?_mem hmax)
  obtain ⟨hmem, hlength⟩ := List.mem_filter.mp hitem
  exact ⟨item.1, List.mem_zipIdx_iff_getElem?.mp hmem, of_decide_eq_true hlength⟩

/-- There is nothing to split only where every bin holds one index at most. -/
theorem splitCandidate_eq_none {bins : List (List Nat)} (h : splitCandidate lengths bins = none) :
    ∀ bin ∈ bins, bin.length ≤ 1 := by
  intro bin hbin
  by_contra hlong
  have hlong := Nat.lt_of_not_le hlong
  rw [splitCandidate, Option.map_eq_none_iff, List.max?_eq_none_iff, List.map_eq_nil_iff,
    List.filter_eq_nil_iff] at h
  obtain ⟨i, hi⟩ := List.mem_iff_getElem?.mp hbin
  exact h (bin, i) (List.mem_zipIdx_iff_getElem?.mpr hi) (decide_eq_true hlong)

/-- What a round does to the bins. -/
theorem expandBins_succ {bins : List (List Nat)} {i : Nat} (rounds : Nat)
    (h : splitCandidate lengths bins = some i) : ∃ front bin back,
      bins = front ++ bin :: back ∧ 1 < bin.length ∧ expandBins lengths (rounds + 1) bins =
        expandBins lengths rounds (front ++ (splitBinByTokens lengths bin).1.indices :: back ++
          [(splitBinByTokens lengths bin).2.indices]) := by
  obtain ⟨bin, hbin, hlong⟩ := splitCandidate_eq_some h
  obtain ⟨hi, rfl⟩ := List.getElem?_eq_some_iff.mp hbin
  refine ⟨bins.take i, bins[i], bins.drop (i + 1), by simp, hlong, ?_⟩
  rw [expandBins, h]
  simp only [List.getD_eq_getElem?_getD, List.getElem?_eq_getElem hi, Option.getD_some,
    List.set_eq_take_append_cons_drop, if_pos hi]

/-- Splitting keeps the indices, and no bin grows. -/
structure Splits (bins out : List (List Nat)) : Prop where
  perm : out.flatten.Perm bins.flatten
  within : ∀ bin ∈ out, ∃ old ∈ bins, bin.Subperm old

theorem Splits.refl (bins : List (List Nat)) : Splits bins bins :=
  ⟨.refl _, fun bin hbin => ⟨bin, hbin, .refl bin⟩⟩

theorem Splits.trans {bins mid out : List (List Nat)} (h : Splits bins mid)
    (h' : Splits mid out) : Splits bins out where
  perm := h'.perm.trans h.perm
  within bin hbin := by
    obtain ⟨old, hold, hsub⟩ := h'.within bin hbin
    obtain ⟨older, holder, hsub'⟩ := h.within old hold
    exact ⟨older, holder, hsub.trans hsub'⟩

/-- And none is empty. -/
structure Refines (bins out : List (List Nat)) : Prop extends Splits bins out where
  nonempty : ∀ bin ∈ out, bin ≠ []

theorem length_le_flatten {bins : List (List Nat)} (hne : ∀ bin ∈ bins, bin ≠ []) :
    bins.length ≤ bins.flatten.length := by
  induction bins with
  | nil => simp
  | cons bin bins ih =>
      simp only [List.forall_mem_cons] at hne
      have hpos := List.length_pos_iff.mpr hne.1
      have hrest := ih hne.2
      simp only [List.flatten_cons, List.length_append, List.length_cons]
      omega

theorem split_splits {front back : List (List Nat)} {bin : List Nat} :
    Splits (front ++ bin :: back) (front ++ (splitBinByTokens lengths bin).1.indices :: back ++
      [(splitBinByTokens lengths bin).2.indices]) := by
  have hperm := @splitBinByTokens_perm lengths bin
  generalize (splitBinByTokens lengths bin).1.indices = left at *
  generalize (splitBinByTokens lengths bin).2.indices = right at *
  refine ⟨?_, ?_⟩
  · simp only [List.flatten_append, List.flatten_cons, List.flatten_nil, List.append_nil,
      List.append_assoc]
    refine List.Perm.append_left _ ?_
    refine List.Perm.trans ?_ (hperm.append_right _)
    rw [List.append_assoc]
    exact List.perm_append_comm.append_left _
  · intro b hb
    simp only [List.mem_append, List.mem_cons, List.not_mem_nil, or_false] at hb
    rcases hb with (hb | rfl | hb) | rfl
    · exact ⟨b, by simp [hb], .refl b⟩
    · exact ⟨bin, by simp, (List.sublist_append_left _ _).subperm.trans hperm.subperm⟩
    · exact ⟨b, by simp [hb], .refl b⟩
    · exact ⟨bin, by simp, (List.sublist_append_right _ _).subperm.trans hperm.subperm⟩

theorem split_ne_nil {front back : List (List Nat)} {bin : List Nat} (hbin : 1 < bin.length)
    (hne : ∀ b ∈ front ++ bin :: back, b ≠ [])
    (hpos : ∀ i ∈ (front ++ bin :: back).flatten, 0 < lengths.getD i 0) :
    ∀ b ∈ front ++ (splitBinByTokens lengths bin).1.indices :: back ++
      [(splitBinByTokens lengths bin).2.indices], b ≠ [] := by
  have hhalves := splitBinByTokens_ne_nil hbin fun i hi =>
    hpos i (List.mem_flatten.mpr ⟨bin, by simp, hi⟩)
  intro b hb
  simp only [List.mem_append, List.mem_cons, List.not_mem_nil, or_false] at hb
  rcases hb with (hb | rfl | hb) | rfl
  · exact hne b (by simp [hb])
  · exact hhalves.1
  · exact hne b (by simp [hb])
  · exact hhalves.2

/-- A run of rounds: a bin more in each, until every bin holds one index at most. -/
theorem expandBins_splits (rounds : Nat) : ∀ bins : List (List Nat),
    Splits bins (expandBins lengths rounds bins) ∧
      bins.length ≤ (expandBins lengths rounds bins).length ∧
      (expandBins lengths rounds bins).length ≤ bins.length + rounds ∧
      ((expandBins lengths rounds bins).length < bins.length + rounds →
        ∀ bin ∈ expandBins lengths rounds bins, bin.length ≤ 1) := by
  induction rounds with
  | zero => exact fun bins => ⟨.refl bins, Nat.le_refl _, Nat.le_refl _,
      fun h => absurd h (Nat.lt_irrefl _)⟩
  | succ rounds ih =>
      intro bins
      cases h : splitCandidate lengths bins with
      | none =>
          rw [expandBins, h]
          exact ⟨.refl bins, Nat.le_refl _, Nat.le_add_right _ _, fun _ => splitCandidate_eq_none h⟩
      | some i =>
          obtain ⟨front, bin, back, rfl, -, hstep⟩ := expandBins_succ rounds h
          obtain ⟨hsplits, hmore, hless, hstops⟩ := ih
            (front ++ (splitBinByTokens lengths bin).1.indices :: back ++
              [(splitBinByTokens lengths bin).2.indices])
          rw [hstep]
          simp only [List.length_append, List.length_cons, List.length_nil] at hmore hless hstops ⊢
          exact ⟨split_splits.trans hsplits, by omega, by omega, fun hlt => hstops (by omega)⟩

theorem expandBins_ne_nil (rounds : Nat) : ∀ bins : List (List Nat), (∀ bin ∈ bins, bin ≠ []) →
    (∀ i ∈ bins.flatten, 0 < lengths.getD i 0) →
    ∀ bin ∈ expandBins lengths rounds bins, bin ≠ [] := by
  induction rounds with
  | zero => exact fun bins hne _ => hne
  | succ rounds ih =>
      intro bins hne hpos
      cases h : splitCandidate lengths bins with
      | none =>
          rw [expandBins, h]
          exact hne
      | some i =>
          obtain ⟨front, bin, back, rfl, hbin, hstep⟩ := expandBins_succ rounds h
          rw [hstep]
          exact ih _ (split_ne_nil hbin hne hpos) fun i hi =>
            hpos i (split_splits.perm.mem_iff.mp hi)

/-- Bins that hold something are refined, up to the target or to one index a bin. -/
theorem expandBinsBySplitting_refines {target : Nat} {bins : List (List Nat)}
    (hne : ∀ bin ∈ bins, bin ≠ []) (hpos : ∀ i ∈ bins.flatten, 0 < lengths.getD i 0) :
    Refines bins (expandBinsBySplitting lengths target bins) ∧
      (expandBinsBySplitting lengths target bins).length =
        max bins.length (min target bins.flatten.length) := by
  obtain ⟨hsplits, hmore, hless, hstops⟩ :=
    @expandBins_splits lengths (target - bins.length) bins
  have hkept := expandBins_ne_nil (target - bins.length) bins hne hpos
  have hle := length_le_flatten hkept
  rw [hsplits.perm.length_eq] at hle
  refine ⟨⟨hsplits, hkept⟩, ?_⟩
  rw [expandBinsBySplitting]
  generalize expandBins lengths (target - bins.length) bins = out at *
  rcases Nat.lt_or_ge out.length (bins.length + (target - bins.length)) with hlt | hge
  · have hsum := List.sum_le_card_nsmul (out.map List.length) 1 (by simpa using hstops hlt)
    rw [← List.length_flatten, hsplits.perm.length_eq, List.length_map, nsmul_one,
      Nat.cast_id] at hsum
    omega
  · omega

end Splitting

end Crisp.Proofs
