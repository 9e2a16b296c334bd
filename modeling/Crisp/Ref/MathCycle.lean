import Crisp.Lib.Raise
import Crisp.Lib.SortKeys
import Mathlib.Algebra.Order.Archimedean.Real.Basic
import Mathlib.Data.Finset.Card
import Mathlib.Data.String.Basic

/-!
# The splits of the math cycle

`partition_rows`: which rows are trained on, which are held out, and the two panels
drawn from them. Groups are strings; a Python set is a `Finset` with an iteration
order nobody may rely on, so the order is a parameter. The fraction and its product
are exact.
-/

namespace Crisp.Ref

open Crisp.Lib

/-- A row by its group; `ρ` is the rest of it. -/
structure SplitRow (ρ : Type) where
  problemId : String
  rest : ρ
  deriving DecidableEq

/-- The order a set of strings is iterated in. -/
structure SetOrder where
  list : Finset String → List String
  nodup : ∀ s, (list s).Nodup
  mem : ∀ s g, g ∈ list s ↔ g ∈ s

/-- One order there is. -/
def SetOrder.byName : SetOrder where
  list := sortSet
  nodup := sortSet_nodup
  mem _ _ := mem_sortSet

section Split

variable {ρ : Type} (order : SetOrder) (sha256 : String → String)

/-- `_rank`, with the seed as it is formatted. -/
def rank (seed pool group : String) : String :=
  sha256 ("math-cycle-v1:" ++ seed ++ ":" ++ pool ++ ":" ++ group)

/-- `sorted(groups, key=key)`. -/
def sortedGroups {κ : Type} [LinearOrder κ] (key : String → κ) (groups : Finset String) :
    List String :=
  sortKeys key (order.list groups)

/-- `by_group[group]`, where a later row replaces an earlier one. -/
def byGroup (rows : List (SplitRow ρ)) (group : String) : Except PyError (SplitRow ρ) :=
  match rows.reverse.find? fun row => row.problemId = group with
  | some row => .ok row
  | none => .error (keyError s!"'{group}'")

/-- The parameters of a split. -/
structure SplitConfig where
  reserved : Finset String
  priorTraining : Finset String
  finalTest : Finset String
  seed : String
  validationFraction : ℚ
  panelSize : Int
  screenSize : Int

/-- The five pools. -/
structure Pools (ρ : Type) where
  train : List (SplitRow ρ)
  validation : List (SplitRow ρ)
  validationTuning : List (SplitRow ρ)
  validationSealed : List (SplitRow ρ)
  screen : List (SplitRow ρ)
  deriving DecidableEq

/-- `partition_rows`. -/
def partitionRows (rows : List (SplitRow ρ)) (config : SplitConfig) :
    Except PyError (Pools ρ) := do
  let groups := (rows.map SplitRow.problemId).toFinset
  check (groups.card = rows.length)
    (valueError "Split input must contain one representative per duplicate group")
  check ((0 < config.validationFraction ∧ config.validationFraction < 1) ∧
      1 ≤ min config.panelSize config.screenSize) (valueError "Invalid split sizes")
  let reserved := groups ∩ config.reserved
  let candidates := (groups \ reserved) \ config.priorTraining
  let needed := max 0 (⌈(groups.card : ℚ) * config.validationFraction⌉ - (reserved.card : Int))
  let ordered := sortedGroups order (rank sha256 config.seed "validation") candidates
  check (needed ≤ ordered.length)
    (valueError "Insufficient unexposed groups for the requested validation fraction")
  let validation := reserved ∪ (ordered.take needed.toNat).toFinset
  let train := groups \ validation
  let tuneCandidates := (validation \ config.finalTest) \ config.priorTraining
  let tune := (sortedGroups order (rank sha256 config.seed "tuning") tuneCandidates).take
    config.panelSize.toNat
  check (tune.length = config.panelSize ∧ config.screenSize ≤ train.card)
    (valueError "Insufficient groups for tuning panel or screen")
  let trainOrder := sortedGroups order
    (fun group => toLex (decide (group ∈ config.priorTraining),
      rank sha256 config.seed "training" group)) train
  check (config.screenSize ≤ (train \ config.priorTraining).card)
    (valueError "Insufficient previously unused groups for the screen")
  let held := sortedGroups order id (validation \ tune.toFinset)
  .ok
    { train := ← trainOrder.mapM (byGroup rows)
      validation := ← (sortedGroups order id validation).mapM (byGroup rows)
      validationTuning := ← tune.mapM (byGroup rows)
      validationSealed := ← held.mapM (byGroup rows)
      screen := ← (trainOrder.take config.screenSize.toNat).mapM (byGroup rows) }

end Split

end Crisp.Ref
