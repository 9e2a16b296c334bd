import Crisp.Lib.Grouping
import Crisp.Lib.SortKeys
import Crisp.Lib.UnionFind
import Crisp.Ref.TextIndex
import Mathlib.Data.Prod.Lex

/-!
# Duplicate groups

`_components`: the texts of the source rows and of the benchmarks, in the order of
their digests, each joined in a union-find with what the index answers it matches;
then an id for every class. `find` is a loop without a bound and takes fuel.
-/

namespace Crisp.Ref

open Crisp.Lib

section Components

variable {σ : Type} (ops : TextOps σ) (query : List (String × σ) → σ → List String) (fuel : Nat)

/-- `entries`, as `(key, problem)`. A source row is its problem, when that is a text. -/
def entriesOf (source : List (Option String)) (benchmarks : List Benchmark) :
    List (String × String) :=
  benchmarks.map (fun row => ("benchmark:" ++ row.id, row.problem)) ++
    source.zipIdx.filterMap fun (problem, index) =>
      problem.map fun problem => (toString index, problem)

def sortedEntries (entries : List (String × String)) : List (String × String) :=
  sortKeys (fun item => toLex (digest ops (canonical ops item.2), item.1)) entries

/-- The tables of `_components`. -/
structure Classes (σ : Type) where
  parent : String → Option String
  index : TextIndex σ

def Classes.empty : Classes σ := { parent := fun _ => none, index := .empty }

def addEntry (classes : Classes σ) (entry : String × String) :
    Except (Stop PyError) (Classes σ) := do
  let (key, problem) := entry
  let found ← (classes.index.matchesOf ops query problem).mapError .raised
  let parent ← found.foldlM (fun parent other => merge missingKey fuel parent key other)
    (Function.update classes.parent key (some key))
  let index ← (classes.index.insert ops key problem).mapError .raised
  .ok { parent, index }

/-- The id of a group of `(key, digest)`. -/
def groupId (group : List (String × String)) : Except PyError String :=
  let benchmarkKeys := (group.map Prod.fst).filter isBenchmark
  match (if benchmarkKeys = [] then group.map Prod.snd else benchmarkKeys).min? with
  | some id => .ok id
  | none => .error (valueError "min() arg is an empty sequence")

/-- `members.setdefault(find(key), []).append((key, digest))`. -/
def addMember (state : (String → Option String) × List (String × List (String × String)))
    (entry : String × String) :
    Except (Stop PyError) ((String → Option String) × List (String × List (String × String))) := do
  let (parent, root) ← findRoot missingKey fuel state.1 entry.1
  .ok (parent, appendMember root (entry.1, digest ops (canonical ops entry.2)) state.2)

/-- `mapping.update((key, group_id) for key, _ in group)`, as what it adds. -/
def nameGroup (group : String × List (String × String)) :
    Except (Stop PyError) (List (String × String)) := do
  let id ← (groupId group.2).mapError .raised
  .ok (group.2.map fun item => (item.1, id))

/-- `_components`, where the result is the dictionary as it was filled. -/
def components (source : List (Option String)) (benchmarks : List Benchmark) :
    Except (Stop PyError) (List (String × String)) := do
  let entries := sortedEntries ops (entriesOf source benchmarks)
  let classes ← entries.foldlM (addEntry ops query fuel) .empty
  let (_, members) ← entries.foldlM (addMember ops fuel) (classes.parent, [])
  let mapping ← members.mapM nameGroup
  .ok mapping.flatten

end Components

end Crisp.Ref
