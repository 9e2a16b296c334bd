import Crisp.Lib.Raise
import Crisp.Ref.StudyText

/-!
# The index of problem texts

The study and the split tools keep the same four tables of the texts they have seen,
and look a text up in them in one way. The nearest-neighbour index is outside the
repository: what it answers to a query is a parameter, given what was inserted. Its
`insert` refuses a key it has.
-/

namespace Crisp.Ref

open Crisp.Lib

structure Benchmark where
  id : String
  problem : String

/-- `key.startswith("benchmark:")`. -/
def isBenchmark (key : String) : Bool := "benchmark:".toList.isPrefixOf key.toList

/-- What a dictionary raises on a key it does not have. -/
def missingKey (key : String) : PyError := keyError s!"'{key}'"

/-- `lsh`, `grams_by_key`, the canonical texts and the templates. The last two keep
the latest key only. -/
structure TextIndex (σ : Type) where
  inserted : List (String × σ)
  grams : String → Option (Finset String)
  texts : String → Option String
  templates : String → Option String

def TextIndex.empty {σ : Type} : TextIndex σ :=
  { inserted := [], grams := fun _ => none, texts := fun _ => none, templates := fun _ => none }

/-- `len(grams & other) / len(grams | other)`. -/
def similarity (grams other : Finset String) : Except PyError ℚ := do
  check (0 < (grams ∪ other).card) zeroDivision
  .ok (jaccard grams other)

section Index

variable {σ : Type} (ops : TextOps σ) (query : List (String × σ) → σ → List String)

/-- Of the keys the index answers with, those that share enough grams. -/
def nearKeys (index : TextIndex σ) (grams : Finset String) :
    List String → Except PyError (List String)
  | [] => .ok []
  | key :: keys => do
      let other ← fetch missingKey index.grams key
      let shared ← similarity grams other
      let near ← nearKeys index grams keys
      .ok (if 4 / 5 ≤ shared then key :: near else near)

/-- `matches`. -/
def TextIndex.matchesOf (index : TextIndex σ) (problem : String) :
    Except PyError (List String) := do
  let text := canonical ops problem
  let (sketched, grams) := sketch ops problem
  let near ← nearKeys index grams (query index.inserted sketched)
  .ok (near ++ (index.texts text).toList ++ (index.templates (template ops text)).toList)

/-- Index a text under a key. -/
def TextIndex.insert (index : TextIndex σ) (key problem : String) :
    Except PyError (TextIndex σ) := do
  let text := canonical ops problem
  let (sketched, grams) := sketch ops problem
  check (key ∉ index.inserted.map Prod.fst) (valueError "The given key already exists")
  .ok
    { inserted := index.inserted ++ [(key, sketched)]
      grams := Function.update index.grams key (some grams)
      texts := Function.update index.texts text (some key)
      templates := Function.update index.templates (template ops text) (some key) }

end Index

end Crisp.Ref
