import Crisp.Lib.Raise
import Crisp.Lib.Segments
import Crisp.Lib.SortKeys
import Mathlib.Data.List.Lex
import Mathlib.Order.Lattice.Nat
import Mathlib.Order.OrderDual

/-!
# Balancing sequence lengths

`seqlen_balancing.py`: the largest differencing method over states of `k` index sets,
and first-fit packing under a token budget with the splitting that grows a packing.
Lengths and workloads are natural numbers, and `k` is a number of ranks or of
micro-batches, so it is positive. `heapq` is read as documented: a pop returns the
least state. No two states of a run tie, since their largest sets hold different items.
-/

namespace Crisp.Ref

open Crisp.Lib

/-! ## Index sets -/

/-- `Set`: its `(idx, val)` items and what their values sum to. -/
structure IndexSet where
  items : List (Nat × Nat)
  sum : Nat
  sum_eq : sum = (items.map Prod.snd).sum
  deriving DecidableEq

/-- `Set()`. -/
def IndexSet.empty : IndexSet := ⟨[], 0, rfl⟩

/-- `Set.add`. -/
def IndexSet.add (s : IndexSet) (item : Nat × Nat) : IndexSet :=
  ⟨s.items ++ [item], s.sum + item.2, by simp [s.sum_eq]⟩

/-- `Set.merge`. -/
def IndexSet.merge (s other : IndexSet) : IndexSet := other.items.foldl IndexSet.add s

/-- What `Set.__lt__` compares: the sums, then the numbers of items, then the items. -/
def IndexSet.key (s : IndexSet) : ℕ ×ₗ ℕ ×ₗ List (ℕ ×ₗ ℕ) :=
  toLex (s.sum, toLex (s.items.length, s.items.map toLex))

/-- `sorted(sets, reverse=True)`. -/
def sortSets (sets : List IndexSet) : List IndexSet :=
  sortKeys (fun s => OrderDual.toDual s.key) sets

theorem sortSets_sorted (sets : List IndexSet) :
    (sortSets sets).Pairwise fun s t => t.key ≤ s.key := by
  have hsorted := sortKeys_pairwise (fun s : IndexSet => OrderDual.toDual s.key) sets
  exact hsorted.imp fun h => OrderDual.toDual_le_toDual.mp h

/-! ## States -/

/-- `State`: `k` sets, always in decreasing order. -/
structure PartitionState (k : Nat) where
  sets : List IndexSet
  length_eq : sets.length = k
  sorted : sets.Pairwise fun s t => t.key ≤ s.key

variable {k : Nat}

/-- `State(items, k)`, for one item or `k` of them. -/
def PartitionState.ofItems (k : Nat) (items : List (Nat × Nat)) : PartitionState k where
  sets := sortSets ((List.range k).map fun i => items[i]?.elim .empty IndexSet.empty.add)
  length_eq := by simp [sortSets]
  sorted := sortSets_sorted _

/-- `State.merge`. -/
def PartitionState.merge (s other : PartitionState k) : PartitionState k where
  sets := sortSets (List.zipWith IndexSet.merge s.sets other.sets.reverse)
  length_eq := by simp [sortSets, s.length_eq, other.length_eq]
  sorted := sortSets_sorted _

/-- `State.spread`. -/
def PartitionState.spread (s : PartitionState k) : Nat :=
  s.sets.head?.elim 0 IndexSet.sum - s.sets.getLast?.elim 0 IndexSet.sum

/-- What `State.__lt__` compares: the largest spread first, then the largest first set. -/
def PartitionState.key (s : PartitionState k) : ℕᵒᵈ ×ₗ (ℕ ×ₗ ℕ ×ₗ List (ℕ ×ₗ ℕ))ᵒᵈ :=
  toLex (OrderDual.toDual s.spread,
    OrderDual.toDual (s.sets.head?.elim IndexSet.empty.key IndexSet.key))

/-- `State.get_partitions`. -/
def PartitionState.partitions (s : PartitionState k) : List (List Nat) :=
  s.sets.map fun set => set.items.map Prod.fst

/-- `heapq.heappop`, with what is left. -/
def heappop : List (PartitionState k) → Option (PartitionState k × List (PartitionState k))
  | [] => none
  | s :: rest =>
      match heappop rest with
      | none => some (s, [])
      | some (least, others) =>
          if least.key < s.key then some (least, s :: others) else some (s, rest)

/-- `while len(states_pq) > 1`, which takes a state off every round. -/
def mergeStates : Nat → List (PartitionState k) → List (PartitionState k)
  | 0, states => states
  | rounds + 1, states =>
      match heappop states with
      | none => states
      | some (state0, rest) =>
          match heappop rest with
          | none => states
          | some (state1, rest) => mergeStates rounds (state0.merge state1 :: rest)

/-- The states `karmarkar_karp` starts from: one for every `k` lengths, or one for each. -/
def initialStates (seqlens : List Nat) (k : Nat) (equalSize : Bool) : List (PartitionState k) :=
  let sorted := (sortKeys toLex seqlens.zipIdx).map Prod.swap
  if equalSize then
    (List.range (seqlens.length / k)).map fun offset => .ofItems k (microbatch k offset sorted)
  else sorted.map fun item => .ofItems k [item]

/-- `karmarkar_karp`. There is a last state whenever there is a length. -/
def karmarkarKarp (seqlens : List Nat) (k : Nat) (equalSize : Bool) :
    Except PyError (List (List Nat)) := do
  check (equalSize → seqlens.length % k = 0) (assertionError s!"{seqlens.length} % {k} != 0")
  let states := initialStates seqlens k equalSize
  let partitions := ((mergeStates states.length states).head?.map PartitionState.partitions).getD []
  if equalSize then
    partitions.forM fun partition =>
      check (partition.length * k = seqlens.length)
        (assertionError s!"{partition.length} * {k} != {seqlens.length}")
  .ok partitions

/-- `get_seqlen_balanced_partitions`. -/
def getSeqlenBalancedPartitions (seqlens : List Nat) (k : Nat) (equalSize : Bool) :
    Except PyError (List (List Nat)) := do
  check (k ≤ seqlens.length)
    (assertionError s!"number of items:[{seqlens.length}] < k_partitions:[{k}]")
  let partitions ← karmarkarKarp seqlens k equalSize
  check (partitions.length = k) (assertionError s!"{partitions.length} != {k}")
  partitions.zipIdx.forM fun (partition, i) =>
    check (partition ≠ []) (assertionError s!"the {i}-th partition is empty")
  check (partitions.flatten.toFinset = Finset.range seqlens.length) (assertionError "")
  .ok (partitions.map fun partition => sortKeys id partition)

/-! ## First-fit packing -/

/-- A bin: its indices, and `bin_sums` for it. -/
structure TokenBin (lengths : List Nat) where
  indices : List Nat
  sum : Nat
  sum_eq : sum = (indices.map fun i => lengths.getD i 0).sum
  deriving DecidableEq

variable {lengths : List Nat}

/-- `[]`. -/
def TokenBin.empty (lengths : List Nat) : TokenBin lengths := ⟨[], 0, rfl⟩

/-- `[idx]`. -/
def TokenBin.single (lengths : List Nat) (i : Nat) : TokenBin lengths :=
  ⟨[i], lengths.getD i 0, by simp⟩

def TokenBin.append (bin : TokenBin lengths) (i : Nat) : TokenBin lengths :=
  ⟨bin.indices ++ [i], bin.sum + lengths.getD i 0, by simp [bin.sum_eq]⟩

/-- The loop over the bins, and its `else`. -/
def placeFirst (cap : Nat) (i : Nat) : List (TokenBin lengths) → List (TokenBin lengths)
  | [] => [.single lengths i]
  | bin :: bins =>
      if bin.sum + lengths.getD i 0 ≤ cap then bin.append i :: bins
      else bin :: placeFirst cap i bins

/-- `_first_fit`. -/
def firstFit (lengths : List Nat) (cap : Nat) (order : List Nat) : List (TokenBin lengths) :=
  order.foldl (fun bins i => placeFirst cap i bins) []

/-- `first_fit_pack`. -/
def firstFitPack (lengths : List Nat) (cap : Nat) : List (List Nat) :=
  (firstFit lengths cap (List.range lengths.length)).map TokenBin.indices

/-- `sorted(indices, key=lambda i: -lengths[i])`. -/
def longestFirst (lengths : List Nat) (indices : List Nat) : List Nat :=
  sortKeys (fun i => OrderDual.toDual (lengths.getD i 0)) indices

/-- `first_fit_decreasing_pack`. -/
def firstFitDecreasingPack (lengths : List Nat) (cap : Nat) : List (List Nat) :=
  (firstFit lengths cap (longestFirst lengths (List.range lengths.length))).map TokenBin.indices

/-- The body of the loop of `_split_bin_by_tokens`. -/
def addToHalf (halves : TokenBin lengths × TokenBin lengths) (i : Nat) :
    TokenBin lengths × TokenBin lengths :=
  if halves.1.sum ≤ halves.2.sum then (halves.1.append i, halves.2)
  else (halves.1, halves.2.append i)

/-- `_split_bin_by_tokens`. -/
def splitBinByTokens (lengths : List Nat) (bin : List Nat) :
    TokenBin lengths × TokenBin lengths :=
  (longestFirst lengths bin).foldl addToHalf (.empty lengths, .empty lengths)

/-- `sum(lengths[i] for i in b)`. -/
def tokensOf (lengths : List Nat) (bin : List Nat) : Nat :=
  (bin.map fun i => lengths.getD i 0).sum

/-- `max(candidates)`, the bin to split: the largest, and the last of these. -/
def splitCandidate (lengths : List Nat) (bins : List (List Nat)) : Option Nat :=
  ((bins.zipIdx.filter fun item => 1 < item.1.length).map fun item =>
    toLex (tokensOf lengths item.1, item.2)).max?.map fun candidate => (ofLex candidate).2

/-- `expand_bins_by_splitting`, which adds a bin every round. -/
def expandBins (lengths : List Nat) : Nat → List (List Nat) → List (List Nat)
  | 0, bins => bins
  | rounds + 1, bins =>
      match splitCandidate lengths bins with
      | none => bins
      | some i =>
          let halves := splitBinByTokens lengths (bins.getD i [])
          expandBins lengths rounds (bins.set i halves.1.indices ++ [halves.2.indices])

/-- `expand_bins_by_splitting(bins, target_count, lengths)`. -/
def expandBinsBySplitting (lengths : List Nat) (target : Nat) (bins : List (List Nat)) :
    List (List Nat) :=
  expandBins lengths (target - bins.length) bins

end Crisp.Ref
