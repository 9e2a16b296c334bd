import Crisp.Lib.Raise
import Crisp.Ref.StudyText
import Mathlib.Data.List.MinMax
import Mathlib.Data.Prod.Lex

/-!
# The eight paired blocks

`_stratified_blocks`: the first 128 rows, taken in turn from every stratum of topic
and difficulty, go one by one into eight blocks of sixteen, each into the block that
has the fewest of its stratum and still has room.
-/

namespace Crisp.Ref

open Crisp.Lib

inductive Topic where
  | algebraOther
  | counting
  | geometry
  | numberTheory
  deriving DecidableEq, Repr

/-- The topics in the order of their names. -/
def Topic.rank : Topic → Nat
  | .algebraOther => 0
  | .counting => 1
  | .geometry => 2
  | .numberTheory => 3

/-- The patterns, in the order they are searched for. -/
def topicPatterns : List (Topic × List String) :=
  [ (.geometry, ["triangle", "circle", "polygon", "angle", "rectangle", "radius", "sphere"]),
    (.counting, ["probability", "permutation", "combination", "ways", "random"]),
    (.numberTheory, ["divisib", "prime", "remainder", "integer", "digit"]) ]

def topicProxy (text : String) : Topic :=
  ((topicPatterns.find? fun entry => entry.2.any (contains text)).map Prod.fst).getD .algebraOther

/-- An eligible row; `ρ` is what the blocks do not look at. -/
structure StudyRow (ρ : Type) where
  problem : String
  workedPrefixLength : Nat
  rest : ρ

/-- A row with its two proxies. -/
structure ClassifiedRow (ρ : Type) where
  row : StudyRow ρ
  topicProxy : Topic
  difficultyProxy : Nat

variable {ρ : Type}

def classify (lower : String → String) (row : StudyRow ρ) : ClassifiedRow ρ :=
  { row
    topicProxy := topicProxy (lower row.problem)
    difficultyProxy := min 3 (row.workedPrefixLength / 1024) }

/-- A stratum, as `(topic, difficulty)`. -/
abbrev Stratum := Topic × Nat

def ClassifiedRow.stratum (row : ClassifiedRow ρ) : Stratum := (row.topicProxy, row.difficultyProxy)

/-- `strata.setdefault(key, []).append(row)`. -/
def appendRow (row : ClassifiedRow ρ) :
    List (Stratum × List (ClassifiedRow ρ)) → List (Stratum × List (ClassifiedRow ρ))
  | [] => [(row.stratum, [row])]
  | (key, rows) :: strata =>
      if key = row.stratum then (key, rows ++ [row]) :: strata
      else (key, rows) :: appendRow row strata

/-- `sorted(strata)`, which is the same in every pass. -/
def sortedStrata (rows : List (ClassifiedRow ρ)) : List (Stratum × List (ClassifiedRow ρ)) :=
  (rows.foldl (fun strata row => appendRow row strata) []).insertionSort fun a b =>
    toLex (a.1.1.rank, a.1.2) ≤ toLex (b.1.1.rank, b.1.2)

/-- One pass over the strata: a row from each that has one, and what is left. -/
def takeTurn : List (Stratum × List (ClassifiedRow ρ)) →
    List (ClassifiedRow ρ) × List (Stratum × List (ClassifiedRow ρ))
  | [] => ([], [])
  | (key, rows) :: strata =>
      let (turn, left) := takeTurn strata
      match rows with
      | [] => (turn, (key, []) :: left)
      | row :: rows => (row :: turn, (key, rows) :: left)

/-- `while len(ordered) < 128`, for at most `fuel` passes. -/
def interleave : Nat → List (Stratum × List (ClassifiedRow ρ)) → List (ClassifiedRow ρ) →
    Option (List (ClassifiedRow ρ))
  | 0, _, ordered => if ordered.length < 128 then none else some ordered
  | fuel + 1, strata, ordered =>
      if ordered.length < 128 then
        let (turn, left) := takeTurn strata
        interleave fuel left (ordered ++ turn)
      else some ordered

/-- A block and its counter. -/
structure Block (ρ : Type) where
  rows : List (ClassifiedRow ρ)
  counts : Stratum → Nat

def Block.empty : Block ρ := { rows := [], counts := fun _ => 0 }

/-- `blocks[block].append(row)` and `counts[block][key] += 1`. -/
def Block.append (block : Block ρ) (row : ClassifiedRow ρ) : Block ρ :=
  { rows := block.rows ++ [row]
    counts := fun key => if key = row.stratum then block.counts key + 1 else block.counts key }

/-- The block a row of a stratum goes to. -/
def chooseBlock (key : Stratum) (blocks : List (Block ρ)) : Option (Fin 8) :=
  ((List.finRange 8).filter fun i : Fin 8 =>
    (blocks.getD i .empty).rows.length < 16).argmin fun i =>
    toLex ((blocks.getD i .empty).counts key,
      toLex ((blocks.getD i .empty).rows.length, i))

/-- The loop over the ordered rows. -/
def placeRows : List (ClassifiedRow ρ) → List (Block ρ) → Except PyError (List (Block ρ))
  | [], blocks => .ok blocks
  | row :: rows, blocks =>
      match chooseBlock row.stratum blocks with
      | none => .error (valueError "min() iterable argument is empty")
      | some i => placeRows rows (blocks.set i ((blocks.getD i .empty).append row))

def emptyBlocks : List (Block ρ) := List.replicate 8 .empty

/-- `_stratified_blocks`; without a result where the passes run out. -/
def stratifiedBlocks (fuel : Nat) (lower : String → String) (rows : List (StudyRow ρ)) :
    Option (Except PyError (List (List (ClassifiedRow ρ)))) :=
  if rows.length < 128 then
    some (.error (valueError "Eight paired blocks require at least 128 eligible questions"))
  else
    (interleave fuel (sortedStrata (rows.map (classify lower))) []).map fun ordered => do
      let blocks ← placeRows (ordered.take 128) emptyBlocks
      .ok (blocks.map Block.rows)

end Crisp.Ref
