import Crisp.Lib.Differencing
import Crisp.Ref.SeqlenBalancing
import Mathlib.Algebra.BigOperators.Group.List.Basic
import Mathlib.Algebra.Order.BigOperators.Group.List
import Mathlib.Algebra.Order.Ring.Nat

/-!
# What the differencing method balances

One merge is the only step: it keeps what the two states hold, it keeps the sums as
close as the looser of the two had them, and it doubles up in no set while another is
empty. None of this depends on which states the heap hands out. So at the end the sums
are no further apart than the largest length, or than the lengths themselves where every
part gets one of each `k` neighbours, no part is empty, and of the assertions behind the
method none can fail.
-/

namespace Crisp.Proofs

open Crisp.Lib Crisp.Ref

/-! ## Index sets -/

theorem IndexSet.foldl_add (items : List (Nat × Nat)) : ∀ s : IndexSet,
    (items.foldl IndexSet.add s).items = s.items ++ items := by
  induction items with
  | nil => simp
  | cons item items ih =>
      intro s
      rw [List.foldl_cons, ih]
      simp [IndexSet.add]

@[simp] theorem IndexSet.merge_items (s other : IndexSet) :
    (s.merge other).items = s.items ++ other.items := IndexSet.foldl_add other.items s

@[simp] theorem IndexSet.merge_sum (s other : IndexSet) :
    (s.merge other).sum = s.sum + other.sum := by
  simp [IndexSet.sum_eq]

theorem IndexSet.sum_le_of_key_le {s t : IndexSet} (h : s.key ≤ t.key) : s.sum ≤ t.sum := by
  simp only [IndexSet.key, Prod.Lex.toLex_le_toLex] at h
  omega

/-- What comes after an empty set is empty. -/
theorem IndexSet.empty_of_key_le {s t : IndexSet} (h : s.key ≤ t.key) (ht : t.items.length = 0) :
    s.items.length = 0 := by
  have hsum : t.sum = 0 := by
    rw [t.sum_eq, List.length_eq_zero_iff.mp ht]
    rfl
  simp only [IndexSet.key, Prod.Lex.toLex_le_toLex, hsum, ht] at h
  omega

/-! ## States -/

section States

variable {k : Nat}

/-- The sums of a state, largest first. -/
def sumsOf (s : PartitionState k) : List Nat := s.sets.map IndexSet.sum

/-- How many items its sets hold. -/
def sizesOf (s : PartitionState k) : List Nat := s.sets.map fun set => set.items.length

/-- All it holds. -/
def heldBy (s : PartitionState k) : List (Nat × Nat) := s.sets.flatMap IndexSet.items

theorem sumsOf_sorted (s : PartitionState k) : (sumsOf s).Pairwise (· ≥ ·) :=
  List.pairwise_map.mpr (s.sorted.imp IndexSet.sum_le_of_key_le)

theorem sizesOf_zerosLast (s : PartitionState k) : ZerosLast (sizesOf s) :=
  List.pairwise_map.mpr (s.sorted.imp IndexSet.empty_of_key_le)

theorem sumsOf_length (s : PartitionState k) : (sumsOf s).length = k := by
  simp [sumsOf, s.length_eq]

theorem sizesOf_length (s : PartitionState k) : (sizesOf s).length = k := by
  simp [sizesOf, s.length_eq]

theorem merge_sets (s other : PartitionState k) :
    (s.merge other).sets.Perm (List.zipWith IndexSet.merge s.sets other.sets.reverse) :=
  sortKeys_perm _ _

theorem merge_sums (s other : PartitionState k) :
    (List.zipWith (· + ·) (sumsOf s) (sumsOf other).reverse).Perm (sumsOf (s.merge other)) := by
  have hmap := ((merge_sets s other).map IndexSet.sum).symm
  rw [List.map_zipWith] at hmap
  simpa [sumsOf, List.zipWith_map, ← List.map_reverse] using hmap

theorem merge_sizes (s other : PartitionState k) :
    (List.zipWith (· + ·) (sizesOf s) (sizesOf other).reverse).Perm (sizesOf (s.merge other)) := by
  have hmap := ((merge_sets s other).map fun set => set.items.length).symm
  rw [List.map_zipWith] at hmap
  simpa [sizesOf, List.zipWith_map, ← List.map_reverse] using hmap

theorem merge_held (s other : PartitionState k) :
    (heldBy (s.merge other)).Perm (heldBy s ++ heldBy other) := by
  have hzip : ∀ (xs ys : List IndexSet), xs.length = ys.length →
      ((List.zipWith IndexSet.merge xs ys).flatMap IndexSet.items).Perm
        (xs.flatMap IndexSet.items ++ ys.flatMap IndexSet.items) := by
    intro xs
    induction xs with
    | nil =>
        intro ys h
        simp [List.length_eq_zero_iff.mp h.symm]
    | cons x xs ih =>
        intro ys h
        cases ys with
        | nil => cases h
        | cons y ys =>
            have hrest := ih ys (by simpa using h)
            simp only [List.zipWith_cons_cons, List.flatMap_cons, IndexSet.merge_items,
              List.append_assoc]
            refine ((hrest.append_left y.items).append_left x.items).trans ?_
            refine List.Perm.append_left _ ?_
            rw [← List.append_assoc, ← List.append_assoc]
            exact List.perm_append_comm.append_right _
  have hlength : s.sets.length = other.sets.reverse.length := by
    rw [List.length_reverse, s.length_eq, other.length_eq]
  refine ((merge_sets s other).flatMap_right _).trans ((hzip _ _ hlength).trans ?_)
  exact ((List.reverse_perm other.sets).flatMap_right _).append_left _

/-- The sums are within `d`, and no set doubles up while another is empty. -/
def Spaced (d : Nat) (s : PartitionState k) : Prop := Within d (sumsOf s) ∧ Thin (sizesOf s)

/-- Every set holds as much as the others. -/
def Even (s : PartitionState k) : Prop := ∃ size, ∀ n ∈ sizesOf s, n = size

theorem Spaced.merge {d : Nat} {s other : PartitionState k} (hs : Spaced d s)
    (hother : Spaced d other) : Spaced d (s.merge other) := by
  refine ⟨Within.perm ?_ (merge_sums s other), Thin.perm ?_ (merge_sizes s other)⟩
  · exact Within.zipWith_reverse (by rw [sumsOf_length, sumsOf_length]) (sumsOf_sorted s)
      (sumsOf_sorted other) hs.1 hother.1
  · exact Thin.zipWith_reverse (by rw [sizesOf_length, sizesOf_length]) (sizesOf_zerosLast s)
      (sizesOf_zerosLast other) hs.2 hother.2

theorem Even.merge {s other : PartitionState k} (hs : Even s) (hother : Even other) :
    Even (s.merge other) := by
  obtain ⟨size, hs⟩ := hs
  obtain ⟨size', hother⟩ := hother
  refine ⟨size + size', fun n hn => ?_⟩
  rw [← (merge_sizes s other).mem_iff] at hn
  obtain ⟨i, hi, rfl⟩ := List.mem_iff_getElem.mp hn
  rw [List.getElem_zipWith, hs _ (List.getElem_mem _),
    hother _ (List.mem_reverse.mp (List.getElem_mem _))]

/-! ## The run of the heap -/

theorem heappop_perm {states rest : List (PartitionState k)} {s : PartitionState k}
    (h : heappop states = some (s, rest)) : states.Perm (s :: rest) := by
  induction states generalizing s rest with
  | nil => cases h
  | cons state states ih =>
      rw [heappop] at h
      split at h
      · next hnone =>
          cases h
          cases states with
          | nil => exact .refl _
          | cons other states =>
              rw [heappop] at hnone
              split at hnone
              · cases hnone
              · split at hnone
                · cases hnone
                · cases hnone
      · next least others hsome =>
          split at h
          · cases h
            exact ((ih hsome).cons state).trans (.swap _ _ _)
          · cases h
            exact .refl _

theorem heappop_cons (state : PartitionState k) (states : List (PartitionState k)) :
    ∃ s rest, heappop (state :: states) = some (s, rest) ∧ rest.length = states.length := by
  cases h : heappop (state :: states) with
  | none =>
      rw [heappop] at h
      split at h
      · cases h
      · split at h
        · cases h
        · cases h
  | some pair =>
      obtain ⟨s, rest⟩ := pair
      have hlength := (heappop_perm h).length_eq
      simp only [List.length_cons] at hlength
      exact ⟨s, rest, rfl, by omega⟩

/-- Whatever every merge keeps, the run keeps; it loses nothing, and it ends in one state. -/
theorem mergeStates_run {P : PartitionState k → Prop}
    (hmerge : ∀ s t, P s → P t → P (s.merge t)) (rounds : Nat) :
    ∀ states : List (PartitionState k), states ≠ [] → states.length ≤ rounds + 1 →
      (∀ s ∈ states, P s) → ∃ s, mergeStates rounds states = [s] ∧ P s ∧
        (heldBy s).Perm (states.flatMap heldBy) := by
  induction rounds with
  | zero =>
      intro states hne hlength hall
      obtain ⟨s, rfl⟩ := List.length_eq_one_iff.mp (by
        have := List.length_pos_iff.mpr hne
        omega : states.length = 1)
      exact ⟨s, rfl, hall s (by simp), by simp⟩
  | succ rounds ih =>
      intro states hne hlength hall
      obtain ⟨state, states, rfl⟩ := List.exists_cons_of_ne_nil hne
      obtain ⟨s, rest, hpop, hrest⟩ := heappop_cons state states
      have hperm := heappop_perm hpop
      rw [mergeStates, hpop]
      cases rest with
      | nil =>
          obtain rfl := List.length_eq_zero_iff.mp hrest.symm
          obtain rfl : state = s := by simpa using hperm
          exact ⟨state, rfl, hall state (by simp), by simp⟩
      | cons other rest =>
          obtain ⟨t, rest', hpop', hrest'⟩ := heappop_cons other rest
          have hperm' := heappop_perm hpop'
          simp only [hpop']
          have hmem : ∀ u ∈ s :: t :: rest', u ∈ state :: states := by
            intro u hu
            exact hperm.mem_iff.mpr ((hperm'.cons s).mem_iff.mpr hu)
          obtain ⟨u, hrun, hu, hheld⟩ := ih (s.merge t :: rest') (by simp)
            (by simp only [List.length_cons] at hrest hlength ⊢; omega) (by
              simp only [List.forall_mem_cons]
              exact ⟨hmerge s t (hall s (hmem s (by simp))) (hall t (hmem t (by simp))),
                fun u hu => hall u (hmem u (by simp [hu]))⟩)
          refine ⟨u, hrun, hu, hheld.trans ?_⟩
          have hflat := (hperm.trans (hperm'.cons s)).flatMap_right heldBy
          refine List.Perm.trans ?_ hflat.symm
          simp only [List.flatMap_cons, ← List.append_assoc]
          exact (merge_held s t).append_right _

end States

/-! ## Where the run starts -/

section Start

variable {k : Nat}

theorem ofItems_sets {items : List (Nat × Nat)} (h : items.length ≤ k) :
    (PartitionState.ofItems k items).sets.Perm
      (items.map IndexSet.empty.add ++ List.replicate (k - items.length) .empty) := by
  refine (sortKeys_perm _ _).trans (List.Perm.of_eq ?_)
  refine List.ext_getElem (by simp; omega) fun i hi hi' => ?_
  simp only [List.length_map, List.length_range] at hi
  rw [List.getElem_map, List.getElem_range]
  by_cases hitem : i < items.length
  · rw [List.getElem_append_left (by simpa using hitem), List.getElem_map,
      List.getElem?_eq_getElem hitem]
    rfl
  · rw [List.getElem_append_right (by simpa using hitem), List.getElem_replicate,
      List.getElem?_eq_none (by omega)]
    rfl

theorem ofItems_held {items : List (Nat × Nat)} (h : items.length ≤ k) :
    (heldBy (PartitionState.ofItems k items)).Perm items := by
  refine ((ofItems_sets h).flatMap_right _).trans (List.Perm.of_eq ?_)
  rw [List.flatMap_append, List.flatMap_map]
  simp [IndexSet.add, IndexSet.empty, List.flatMap_singleton']

theorem ofItems_sums {items : List (Nat × Nat)} (h : items.length ≤ k) :
    (items.map Prod.snd ++ List.replicate (k - items.length) 0).Perm
      (sumsOf (PartitionState.ofItems k items)) := by
  have hmap := ((ofItems_sets h).map IndexSet.sum).symm
  rw [List.map_append, List.map_map, List.map_replicate] at hmap
  simpa [sumsOf, Function.comp_def, IndexSet.add, IndexSet.empty] using hmap

theorem ofItems_sizes {items : List (Nat × Nat)} (h : items.length ≤ k) :
    (List.replicate items.length 1 ++ List.replicate (k - items.length) 0).Perm
      (sizesOf (PartitionState.ofItems k items)) := by
  have hmap := ((ofItems_sets h).map fun set => set.items.length).symm
  rw [List.map_append, List.map_map, List.map_replicate] at hmap
  simpa [sizesOf, Function.comp_def, IndexSet.add, IndexSet.empty] using hmap

theorem ofItems_thin {items : List (Nat × Nat)} (h : items.length ≤ k) :
    Thin (sizesOf (PartitionState.ofItems k items)) := by
  refine Thin.perm (.inr fun n hn => ?_) (ofItems_sizes h)
  simp only [List.mem_append, List.mem_replicate] at hn
  omega

/-- A length by itself is within any bound on it. -/
theorem ofItems_single {item : Nat × Nat} {d : Nat} (hk : 0 < k) (hd : item.2 ≤ d) :
    Spaced d (PartitionState.ofItems k [item]) := by
  have hone : [item].length ≤ k := hk
  refine ⟨Within.perm (fun x hx y _ => ?_) (ofItems_sums hone), ofItems_thin hone⟩
  simp only [List.map_cons, List.map_nil, List.mem_append, List.mem_singleton,
    List.mem_replicate] at hx
  omega

/-- `k` lengths, one in every set. -/
theorem ofItems_full {items : List (Nat × Nat)} {d : Nat} (h : items.length = k)
    (hd : Within d (items.map Prod.snd)) :
    Spaced d (PartitionState.ofItems k items) ∧ Even (PartitionState.ofItems k items) := by
  have hsums := ofItems_sums h.le
  have hsizes := ofItems_sizes h.le
  rw [h, Nat.sub_self, List.replicate_zero, List.append_nil] at hsums hsizes
  refine ⟨⟨hd.perm hsums, ofItems_thin h.le⟩, 1, fun n hn => ?_⟩
  exact (List.mem_replicate.mp (hsizes.mem_iff.mpr hn)).2

end Start

/-! ## The parts -/

section Parts

variable {seqlens : List Nat} {k : Nat} {equalSize : Bool}

/-- The lengths with their indices, in the order the method takes them. -/
def sortedItems (seqlens : List Nat) : List (Nat × Nat) :=
  (sortKeys toLex seqlens.zipIdx).map Prod.swap

theorem sortedItems_perm (seqlens : List Nat) :
    (sortedItems seqlens).Perm (seqlens.zipIdx.map Prod.swap) := (sortKeys_perm _ _).map _

theorem mem_sortedItems {item : Nat × Nat} :
    item ∈ sortedItems seqlens ↔ seqlens[item.1]? = some item.2 := by
  rw [(sortedItems_perm seqlens).mem_iff, List.mem_map]
  constructor
  · rintro ⟨pair, hpair, rfl⟩
    exact List.mem_zipIdx_iff_getElem?.mp hpair
  · intro h
    exact ⟨item.swap, List.mem_zipIdx_iff_getElem?.mpr h, rfl⟩

theorem length_sortedItems : (sortedItems seqlens).length = seqlens.length := by
  rw [(sortedItems_perm seqlens).length_eq]
  simp

/-- All states together hold every length once. -/
theorem initialStates_held (hk : 0 < k) (heq : equalSize = true → seqlens.length % k = 0) :
    ((initialStates seqlens k equalSize).flatMap heldBy).Perm (sortedItems seqlens) := by
  have hstates : ∀ chunks : List (List (Nat × Nat)), (∀ chunk ∈ chunks, chunk.length ≤ k) →
      ((chunks.map (PartitionState.ofItems k)).flatMap heldBy).Perm chunks.flatten := by
    intro chunks
    induction chunks with
    | nil => simp
    | cons chunk chunks ih =>
        intro h
        simp only [List.forall_mem_cons] at h
        simp only [List.map_cons, List.flatMap_cons, List.flatten_cons]
        exact (ofItems_held h.1).append (ih h.2)
  cases equalSize with
  | false =>
      have hone : ∀ chunk ∈ (sortedItems seqlens).map fun item => [item], chunk.length ≤ k := by
        intro chunk hchunk
        obtain ⟨item, -, rfl⟩ := List.mem_map.mp hchunk
        exact hk
      have hsingle := hstates _ hone
      rw [List.map_map, ← List.flatMap_def, List.flatMap_singleton'] at hsingle
      exact hsingle
  | true =>
      have hchunks := hstates ((List.range (seqlens.length / k)).map fun offset =>
        microbatch k offset (sortedItems seqlens)) (by simp [microbatch])
      rw [List.map_map, flatten_microbatches (by
        rw [length_sortedItems, Nat.div_mul_cancel (Nat.dvd_of_mod_eq_zero (heq rfl))])] at hchunks
      exact hchunks

/-- How far apart the lengths of one starting state can be. -/
def StartsWithin (seqlens : List Nat) (equalSize : Bool) (d : Nat) : Prop :=
  (∀ n ∈ seqlens, n ≤ d) ∨ (equalSize = true ∧ Within d seqlens)

theorem initialStates_spaced (hk : 0 < k) (heq : equalSize = true → seqlens.length % k = 0)
    {d : Nat} (hd : StartsWithin seqlens equalSize d) :
    ∀ s ∈ initialStates seqlens k equalSize, Spaced d s ∧ (equalSize = true → Even s) := by
  have hvalue : ∀ item ∈ sortedItems seqlens, item.2 ∈ seqlens := fun item hitem =>
    List.mem_of_getElem? (mem_sortedItems.mp hitem)
  intro s hs
  cases equalSize with
  | false =>
      obtain ⟨item, hitem, rfl⟩ := List.mem_map.mp hs
      have hle : item.2 ≤ d := by
        rcases hd with hd | hd
        · exact hd _ (hvalue item hitem)
        · cases hd.1
      exact ⟨ofItems_single hk hle, fun h => by cases h⟩
  | true =>
      obtain ⟨offset, hoffset, rfl⟩ := List.mem_map.mp hs
      have hchunk : (microbatch k offset (sortedItems seqlens)).length = k := by
        refine microbatch_length ?_
        rw [length_sortedItems, ← Nat.div_mul_cancel (Nat.dvd_of_mod_eq_zero (heq rfl))]
        exact Nat.mul_le_mul_right k (List.mem_range.mp hoffset)
      have hwithin : Within d ((microbatch k offset (sortedItems seqlens)).map Prod.snd) := by
        intro x hx y hy
        obtain ⟨item, hitem, rfl⟩ := List.mem_map.mp hx
        obtain ⟨item', hitem', rfl⟩ := List.mem_map.mp hy
        have hx' := hvalue item (mem_of_mem_microbatch hitem)
        have hy' := hvalue item' (mem_of_mem_microbatch hitem')
        rcases hd with hd | ⟨-, hd⟩
        · exact (hd _ hx').trans (Nat.le_add_left _ _)
        · exact hd _ hx' _ hy'
      have hfull := ofItems_full hchunk hwithin
      exact ⟨hfull.1, fun _ => hfull.2⟩

/-- The run ends in one state, which holds every length once. -/
theorem initialStates_run (hk : 0 < k) (hlength : k ≤ seqlens.length)
    (heq : equalSize = true → seqlens.length % k = 0) :
    ∃ s, mergeStates (initialStates seqlens k equalSize).length
        (initialStates seqlens k equalSize) = [s] ∧
      (∀ d, StartsWithin seqlens equalSize d → Spaced d s) ∧ (equalSize = true → Even s) ∧
      (heldBy s).Perm (sortedItems seqlens) := by
  have hne : initialStates seqlens k equalSize ≠ [] := by
    intro hnil
    have hheld := (initialStates_held hk heq).length_eq
    rw [hnil, length_sortedItems, List.flatMap_nil, List.length_nil] at hheld
    omega
  have hrun : ∀ d, StartsWithin seqlens equalSize d → ∃ s,
      mergeStates (initialStates seqlens k equalSize).length
        (initialStates seqlens k equalSize) = [s] ∧
      (Spaced d s ∧ (equalSize = true → Even s)) ∧
      (heldBy s).Perm ((initialStates seqlens k equalSize).flatMap heldBy) := fun d hd =>
    mergeStates_run (fun s t hs ht => ⟨hs.1.merge ht.1, fun h => (hs.2 h).merge (ht.2 h)⟩)
      _ _ hne (Nat.le_succ _) (initialStates_spaced hk heq hd)
  have hsome : StartsWithin seqlens equalSize seqlens.sum :=
    .inl fun n hn => List.le_sum_of_mem hn
  obtain ⟨s, hs, ⟨-, heven⟩, hheld⟩ := hrun _ hsome
  refine ⟨s, hs, fun d hd => ?_, heven, hheld.trans (initialStates_held hk heq)⟩
  obtain ⟨t, ht, ⟨hspaced, -⟩, -⟩ := hrun d hd
  obtain rfl : s = t := by simpa using hs.symm.trans ht
  exact hspaced

/-! ## The last state -/

variable {s : PartitionState k}

theorem partitions_flatten (s : PartitionState k) :
    s.partitions.flatten = (heldBy s).map Prod.fst := by
  rw [PartitionState.partitions, heldBy, List.flatMap_def, List.map_flatten, List.map_map]
  rfl

theorem partitions_perm (hheld : (heldBy s).Perm (sortedItems seqlens)) :
    s.partitions.flatten.Perm (List.range seqlens.length) := by
  rw [partitions_flatten]
  refine ((hheld.trans (sortedItems_perm seqlens)).map Prod.fst).trans (List.Perm.of_eq ?_)
  rw [List.map_map, List.range_eq_range', ← List.zipIdx_map_snd 0 seqlens]
  rfl

/-- A set's sum is the tokens of its part. -/
theorem partitions_tokens (hheld : (heldBy s).Perm (sortedItems seqlens)) :
    s.partitions.map (tokensOf seqlens) = sumsOf s := by
  rw [PartitionState.partitions, sumsOf, List.map_map]
  refine List.map_congr_left fun set hset => ?_
  rw [set.sum_eq, Function.comp_apply, tokensOf, List.map_map]
  congr 1
  refine List.map_congr_left fun item hitem => ?_
  have hmem : item ∈ heldBy s := List.mem_flatMap.mpr ⟨set, hset, hitem⟩
  have hvalue := mem_sortedItems.mp (hheld.mem_iff.mp hmem)
  simp [List.getD_eq_getElem?_getD, hvalue]

theorem partitions_sizes (s : PartitionState k) :
    s.partitions.map List.length = sizesOf s := by
  rw [PartitionState.partitions, sizesOf, List.map_map]
  exact List.map_congr_left fun set _ => List.length_map _

theorem sizesOf_sum (s : PartitionState k) : (sizesOf s).sum = (heldBy s).length := by
  rw [heldBy, List.length_flatMap]
  rfl

/-! ## What is returned -/

/-- `k` parts that hold every index once, each ascending and none empty; of equal size
where that is asked for, and with sums as close as the starting states allow. -/
structure BalancedParts (seqlens : List Nat) (k : Nat) (equalSize : Bool)
    (parts : List (List Nat)) : Prop where
  count : parts.length = k
  perm : parts.flatten.Perm (List.range seqlens.length)
  ascending : ∀ part ∈ parts, part.Pairwise (· < ·)
  nonempty : ∀ part ∈ parts, part ≠ []
  equal : equalSize = true → ∀ part ∈ parts, part.length * k = seqlens.length
  spread : ∀ d, StartsWithin seqlens equalSize d → Within d (parts.map (tokensOf seqlens))

theorem flatten_map_sortKeys_perm (parts : List (List Nat)) :
    (parts.map fun part => sortKeys id part).flatten.Perm parts.flatten := by
  induction parts with
  | nil => simp
  | cons part parts ih =>
      simp only [List.map_cons, List.flatten_cons]
      exact (sortKeys_perm _ _).append ih

theorem getSeqlenBalancedPartitions_eq (hk : 0 < k) (hlength : k ≤ seqlens.length)
    (heq : equalSize = true → seqlens.length % k = 0) :
    ∃ parts, getSeqlenBalancedPartitions seqlens k equalSize = .ok parts ∧
      BalancedParts seqlens k equalSize parts := by
  obtain ⟨s, hrun, hspaced, heven, hheld⟩ := initialStates_run hk hlength heq
  have hperm := partitions_perm hheld
  have hsum : (sizesOf s).sum = seqlens.length := by
    rw [sizesOf_sum, hheld.length_eq, length_sortedItems]
  have hcount : s.partitions.length = k := by
    rw [PartitionState.partitions, List.length_map, s.length_eq]
  have hne : ∀ part ∈ s.partitions, part ≠ [] := by
    have hfull := (hspaced seqlens.sum (.inl fun n hn => List.le_sum_of_mem hn)).2.ne_zero
      (by rw [sizesOf_length, hsum]; exact hlength)
    intro part hpart hnil
    refine hfull part.length ?_ (by rw [hnil]; rfl)
    rw [← partitions_sizes]
    exact List.mem_map_of_mem hpart
  have hequal : equalSize = true → ∀ part ∈ s.partitions, part.length * k = seqlens.length := by
    intro h part hpart
    obtain ⟨size, hsize⟩ := heven h
    have hall : sizesOf s = List.replicate k size := by
      rw [List.eq_replicate_iff]
      exact ⟨sizesOf_length s, hsize⟩
    have hpartsize : part.length = size := by
      refine hsize _ ?_
      rw [← partitions_sizes]
      exact List.mem_map_of_mem hpart
    rw [hpartsize, ← hsum, hall, List.sum_replicate_nat, Nat.mul_comm]
  have hkarp : karmarkarKarp seqlens k equalSize = .ok s.partitions := by
    simp only [karmarkarKarp, check_of heq, except_ok_bind, hrun, List.head?_cons,
      Option.map_some, Option.getD_some]
    cases equalSize with
    | false => rfl
    | true =>
        have hchecks : (s.partitions.forM fun partition =>
            check (partition.length * k = seqlens.length)
              (assertionError s!"{partition.length} * {k} != {seqlens.length}")) = .ok ⟨⟩ :=
          except_forM_eq_ok.mpr fun part hpart => check_of (hequal rfl part hpart)
        simp only [if_true, hchecks, except_ok_bind]
  have hcovers : s.partitions.flatten.toFinset = Finset.range seqlens.length := by
    ext i
    rw [List.mem_toFinset, hperm.mem_iff, List.mem_range, Finset.mem_range]
  refine ⟨s.partitions.map fun partition => sortKeys id partition, ?_, ?_⟩
  · rw [getSeqlenBalancedPartitions, check_of hlength, except_ok_bind, hkarp, except_ok_bind,
      check_of hcount, except_ok_bind, (except_forM_eq_ok (u := ⟨⟩)).mpr, except_ok_bind,
      check_of hcovers, except_ok_bind]
    intro pair hpair
    exact check_of (hne _ (List.fst_mem_of_mem_zipIdx hpair))
  · have hsorted := (flatten_map_sortKeys_perm s.partitions).trans hperm
    refine ⟨by simpa using hcount, hsorted, fun part hpart => ?_, fun part hpart hnil => ?_,
      fun h part hpart => ?_, fun d hd => ?_⟩
    · have hnodup : part.Nodup := (List.nodup_flatten.mp (hsorted.nodup_iff.mpr List.nodup_range)).1
        part hpart
      obtain ⟨bin, -, rfl⟩ := List.mem_map.mp hpart
      exact (sortKeys_pairwise id bin).imp₂ (fun _ _ => lt_of_le_of_ne) hnodup
    · obtain ⟨bin, hbin, rfl⟩ := List.mem_map.mp hpart
      have hempty : bin.Perm [] := (sortKeys_perm id bin).symm.trans (List.Perm.of_eq hnil)
      exact hne bin hbin hempty.eq_nil
    · obtain ⟨bin, hbin, rfl⟩ := List.mem_map.mp hpart
      rw [length_sortKeys]
      exact hequal h bin hbin
    · have htokens : (s.partitions.map fun partition => sortKeys id partition).map
          (tokensOf seqlens) = s.partitions.map (tokensOf seqlens) := by
        rw [List.map_map]
        exact List.map_congr_left fun part _ => ((sortKeys_perm id part).map _).sum_eq
      rw [htokens, partitions_tokens hheld]
      exact (hspaced d hd).1

theorem getSeqlenBalancedPartitions_needs {seqlens : List Nat} {k : Nat} {equalSize : Bool}
    {parts : List (List Nat)} (h : getSeqlenBalancedPartitions seqlens k equalSize = .ok parts) :
    k ≤ seqlens.length ∧ (equalSize = true → seqlens.length % k = 0) := by
  simp only [getSeqlenBalancedPartitions, karmarkarKarp, except_bind_eq_ok, check_eq_ok] at h
  obtain ⟨-, hlength, _, ⟨-, heq, -⟩, -⟩ := h
  exact ⟨hlength, heq⟩

theorem getSeqlenBalancedPartitions_returns {seqlens : List Nat} {k : Nat} {equalSize : Bool}
    (hk : 0 < k) : (∃ parts, getSeqlenBalancedPartitions seqlens k equalSize = .ok parts) ↔
      k ≤ seqlens.length ∧ (equalSize = true → seqlens.length % k = 0) := by
  refine ⟨fun ⟨parts, h⟩ => getSeqlenBalancedPartitions_needs h, fun ⟨hlength, heq⟩ => ?_⟩
  obtain ⟨parts, h, -⟩ := getSeqlenBalancedPartitions_eq hk hlength heq
  exact ⟨parts, h⟩

theorem getSeqlenBalancedPartitions_balanced {seqlens : List Nat} {k : Nat} {equalSize : Bool}
    (hk : 0 < k) {parts : List (List Nat)}
    (h : getSeqlenBalancedPartitions seqlens k equalSize = .ok parts) :
    BalancedParts seqlens k equalSize parts := by
  obtain ⟨hlength, heq⟩ := getSeqlenBalancedPartitions_needs h
  obtain ⟨parts', h', hbalanced⟩ := getSeqlenBalancedPartitions_eq hk hlength heq
  obtain rfl : parts = parts' := by simpa using h.symm.trans h'
  exact hbalanced

/-- The method fails only where there are too few lengths or they do not divide evenly,
and it balances what it returns. -/
theorem getSeqlenBalancedPartitions_spec (seqlens : List Nat) (k : Nat) (equalSize : Bool)
    (hk : 0 < k) :
    ((∃ parts, getSeqlenBalancedPartitions seqlens k equalSize = .ok parts) ↔
      k ≤ seqlens.length ∧ (equalSize = true → seqlens.length % k = 0)) ∧
    ∀ parts, getSeqlenBalancedPartitions seqlens k equalSize = .ok parts →
      BalancedParts seqlens k equalSize parts :=
  ⟨getSeqlenBalancedPartitions_returns hk, fun _ => getSeqlenBalancedPartitions_balanced hk⟩

theorem getSeqlenBalancedPartitions_two :
    (∃ parts, getSeqlenBalancedPartitions [5, 1, 4, 2] 2 true = .ok parts) ∧
    ∀ parts, getSeqlenBalancedPartitions [5, 1, 4, 2] 2 true = .ok parts →
      BalancedParts [5, 1, 4, 2] 2 true parts := by
  have hspec := getSeqlenBalancedPartitions_spec [5, 1, 4, 2] 2 true (by simp)
  exact ⟨hspec.1.mpr (by simp), hspec.2⟩

end Parts

end Crisp.Proofs
