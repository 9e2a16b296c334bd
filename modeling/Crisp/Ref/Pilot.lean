import Crisp.Ref.Eligible

/-!
# The correctness pilot

`select_examples`: the first text row of every problem, in the order of the problems'
hashes, each kept or rejected for the first reason there is, until the two pools are
full. The rows are a dataset's, which has a `problem` and a `solution` column.
-/

namespace Crisp.Ref

open Crisp.Lib

/-- A row of the dataset. -/
structure PilotRow where
  problem : Field
  solution : Field
  answer : Option Field
  deriving DecidableEq

/-- `(index, row)` in `groups`, where both texts are `str`, under its key. -/
structure PilotGroup where
  key : String
  index : Nat
  problem : String
  solution : String
  answer : Option Field
  deriving DecidableEq

/-- `prefix_lengths`. -/
structure PrefixLengths where
  student : Nat
  teacher : Nat
  deriving DecidableEq

/-- `metadata`. A key that was popped is `none`. -/
structure PilotMetadata where
  solution : Option String
  problemId : String
  sourceRow : Nat
  prefixLengths : PrefixLengths
  deriving DecidableEq

structure PilotExample where
  problem : String
  label : Field
  metadata : PilotMetadata
  deriving DecidableEq

/-- The counts and lengths `select_examples` is asked for. -/
structure PilotLimits where
  trainCount : Nat
  evalCount : Nat
  sequenceLength : Nat
  responseLength : Nat

/-- `rejected[reason] += 1`, in the order of the keys. -/
def countReason (reason : String) : List (String × Nat) → List (String × Nat)
  | [] => [(reason, 1)]
  | (known, count) :: rejected =>
      if known = reason then (known, count + 1) :: rejected
      else (known, count) :: countReason reason rejected

/-- What `select_examples` returns: both pools and the audit. -/
structure Pilot where
  train : List PilotExample
  evaluation : List PilotExample
  uniqueProblems : Nat
  rejections : List (String × Nat)
  deriving DecidableEq

section Select

variable {σ : Type} (ops : TextOps σ) (tokenizer : ChatTokenizer) (limits : PilotLimits)

/-- `canonical` in `problem_id`. -/
def canonicalProblem (text : String) : String :=
  " ".intercalate ((splitFrom ops.isSpace [] (ops.nfkc text).toList).map String.ofList)

/-- `problem_id`. -/
def problemId (text : String) : String := ops.sha256 (canonicalProblem ops text)

/-- The body of the loop over `enumerate(rows)`. -/
def groupRow (found : List PilotGroup × List (String × Nat)) (item : PilotRow × Nat) :
    List PilotGroup × List (String × Nat) :=
  match item.1.problem, item.1.solution with
  | .text problem, .text solution =>
      let key := problemId ops problem
      if key ∈ found.1.map PilotGroup.key then
        (found.1, countReason "duplicate_problem" found.2)
      else (found.1 ++ [⟨key, item.2, problem, solution, item.1.answer⟩], found.2)
  | _, _ => (found.1, countReason "missing_text" found.2)

/-- `tokenizer.pad_token_id in ids`. -/
def hasPad (ids : List Int) : Bool := tokenizer.padTokenId.any fun pad => ids.contains pad

/-- `make_opsd_prefixes` for one group. -/
def PilotGroup.prefixes (group : PilotGroup) : PairedPrefixes :=
  makeOpsdPrefixes tokenizer group.problem (some group.solution)

/-- `lengths`. -/
def PilotGroup.lengths (group : PilotGroup) : PrefixLengths :=
  { student := (group.prefixes tokenizer).studentIds.length
    teacher := (group.prefixes tokenizer).teacherIds.length }

/-- What a kept group becomes. -/
def PilotGroup.selected (group : PilotGroup) : PilotExample :=
  { problem := group.problem
    label := getField group.answer
    metadata :=
      { solution := some group.solution
        problemId := group.key
        sourceRow := group.index
        prefixLengths := group.lengths tokenizer } }

/-- The loop over `sorted(groups)`. -/
def selectGroups : List PilotGroup → List PilotExample → List (String × Nat) →
    List PilotExample × List (String × Nat)
  | [], selected, rejected => (selected, rejected)
  | group :: groups, selected, rejected =>
      if blank ops group.problem ∨ blank ops group.solution then
        selectGroups groups selected (countReason "empty_text" rejected)
      else if hasPad tokenizer (group.prefixes tokenizer).studentIds ∨
          hasPad tokenizer (group.prefixes tokenizer).teacherIds then
        selectGroups groups selected (countReason "pad_in_prefix" rejected)
      else if max (group.lengths tokenizer).student (group.lengths tokenizer).teacher +
          limits.responseLength > limits.sequenceLength then
        selectGroups groups selected (countReason "context_budget" rejected)
      else if (selected ++ [group.selected tokenizer]).length =
          limits.trainCount + limits.evalCount then
        (selected ++ [group.selected tokenizer], rejected)
      else selectGroups groups (selected ++ [group.selected tokenizer]) rejected

/-- `row["metadata"].pop("solution")`. -/
def PilotExample.withoutSolution (row : PilotExample) : PilotExample :=
  { row with metadata := { row.metadata with solution := none } }

/-- `select_examples`. -/
def selectExamples (rows : List PilotRow) : Except PyError Pilot := do
  let found := rows.zipIdx.foldl (groupRow ops) ([], [])
  let selection := selectGroups ops tokenizer limits (sortKeys PilotGroup.key found.1) [] found.2
  check (selection.1.length = limits.trainCount + limits.evalCount)
    (valueError "Not enough unique eligible examples; do not silently shrink the pilot")
  .ok
    { train := selection.1.take limits.trainCount
      evaluation := (selection.1.drop limits.trainCount).map PilotExample.withoutSolution
      uniqueProblems := found.1.length
      rejections := selection.2 }

end Select

end Crisp.Ref
