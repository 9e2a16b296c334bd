import Crisp.Lib.SortKeys
import Crisp.Ref.Generate
import Crisp.Ref.TextIndex

/-!
# The eligible rows of a study

`_eligible`: the source rows in the order of their digests, each kept, or rejected
for the first reason there is. A row is looked up in the index before its solution is
looked at, and indexed when nothing matches, whatever its solution then turns out to
be. `mathd_normalize_answer` never raises; what it makes of an answer is a parameter.
-/

namespace Crisp.Ref

open Crisp.Lib

/-! ## Boxed answers -/

/-- `text.rfind(pattern)`. -/
def rfind (text pattern : List Char) : Option Nat :=
  ((List.range (text.length + 1)).filter fun i => pattern.isPrefixOf (text.drop i)).getLast?

/-- How far it is to the end of the brace that closes the first one. -/
def closingBrace (opened : Int) : List Char → Option Nat
  | [] => none
  | c :: rest =>
      if c = '{' then (closingBrace (opened + 1) rest).map (· + 1)
      else if c = '}' then
        if opened = 1 then some 1 else (closingBrace (opened - 1) rest).map (· + 1)
      else (closingBrace opened rest).map (· + 1)

/-- `last_boxed_only_string`. -/
def lastBoxedOnlyString (text : List Char) : Option (List Char) := do
  let start ← (rfind text "\\boxed".toList).or (rfind text "\\fbox".toList)
  let length ← closingBrace 0 (text.drop start)
  some ((text.drop start).take length)

/-- `remove_boxed`, which answers `None` to what it cannot undo. -/
def removeBoxed (boxed : List Char) : Option (List Char) :=
  if "\\boxed\x7b".toList.isPrefixOf boxed ∧ boxed.getLast? = some '}' then
    some (boxed.drop 7).dropLast
  else none

/-- `extract_boxed_answer`. -/
def extractBoxedAnswer (solution : String) : Option String :=
  ((lastBoxedOnlyString solution.toList).bind removeBoxed).map String.ofList

/-! ## Rows -/

/-- A field of a source row; `other` is neither a text nor `None` and has its `str`. -/
inductive Field where
  | none
  | text (text : String)
  | other (str : String)
  deriving DecidableEq

/-- `str(field)`. -/
def Field.str : Field → String
  | .none => "None"
  | .text value => value
  | .other value => value

/-- A source row. A key it does not have is `none`. -/
structure SourceRow where
  problem : Option Field
  solution : Option Field
  answer : Option Field
  deriving DecidableEq

/-- `row.get(key)`. -/
def getField (field : Option Field) : Field := field.getD .none

/-- The keys of `rejected`. -/
inductive Reason where
  | missingText
  | solvedPromptArtifact
  | benchmarkOverlap
  | duplicateGroup
  | referenceFinalAnswerDisagreementOrUnparsed
  | contextBudget
  | padInPrefix
  deriving DecidableEq

/-- A selected row with its metadata. -/
structure SelectedRow where
  problem : String
  solution : String
  answer : String
  problemId : String
  sourceRow : Nat
  workedPrefixLength : Nat
  deriving DecidableEq

/-- A row that passed; its index is not known yet. -/
structure PassedRow where
  problem : String
  solution : String
  answer : String
  workedPrefixLength : Nat

/-- What becomes of a row. One that matches nothing has a group of its own and is
indexed, also when it is rejected. -/
inductive Verdict (σ : Type) where
  | rejected (reason : Reason)
  | duplicate (reason : Reason) (group : String)
  | indexed (group : String) (index : TextIndex σ) (outcome : Except Reason PassedRow)

section Eligible

variable {σ : Type} (ops : TextOps σ) (query : List (String × σ) → σ → List String)
  (tokenizer : ChatTokenizer) (mathdNormalizeAnswer : Option String → Option String)

/-- `not v.strip()`. -/
def blank (text : String) : Bool := text.toList.all ops.isSpace

/-- The gates of a row that was indexed. -/
def passGates (problem solution answer : String) : Except PyError (Except Reason PassedRow) := do
  let extracted := extractBoxedAnswer solution
  let gold := if contains answer "\\boxed" then extractBoxedAnswer answer else some answer
  if extracted = none ∨ mathdNormalizeAnswer extracted ≠ mathdNormalizeAnswer gold then
    .ok (.error .referenceFinalAnswerDisagreementOrUnparsed)
  else do
    let prefixes ← makeStudyPrefixes tokenizer problem (some solution) "math"
    let answerPrefix ← makeStudyPrefixes tokenizer problem (some answer) "math"
    if 2048 < prefixes.studentIds.length ∨
        4096 < max prefixes.teacherIds.length answerPrefix.teacherIds.length then
      .ok (.error .contextBudget)
    else if ∃ ids ∈ [prefixes.studentIds, prefixes.teacherIds, answerPrefix.teacherIds],
        ∃ pad ∈ tokenizer.padTokenId, pad ∈ ids then
      .ok (.error .padInPrefix)
    else .ok (.ok { problem, solution, answer, workedPrefixLength := prefixes.teacherIds.length })

/-- The body of the loop, up to what it records. -/
def judge (index : TextIndex σ) (row : SourceRow) : Except PyError (Verdict σ) :=
  match getField row.problem, getField row.solution with
  | .text problem, .text solution =>
      if blank ops problem ∨ blank ops solution ∨ getField row.answer = .none then
        .ok (.rejected .missingText)
      else if containsDerivation ops problem then .ok (.rejected .solvedPromptArtifact)
      else do
        let found ← index.matchesOf ops query problem
        match found.min? with
        | some group =>
            .ok (.duplicate (if found.any isBenchmark then .benchmarkOverlap else .duplicateGroup)
              group)
        | none => do
            let group := digest ops (canonical ops problem)
            let index ← index.insert ops group problem
            let outcome ←
              passGates tokenizer mathdNormalizeAnswer problem solution (getField row.answer).str
            .ok (.indexed group index outcome)
  | _, _ => .ok (.rejected .missingText)

/-- The state of the loop. -/
structure Scan (σ : Type) where
  index : TextIndex σ
  selected : List SelectedRow
  rejected : Reason → Nat
  groups : List (String × String)

/-- `rejected[reason] += 1`. -/
def Scan.reject (scan : Scan σ) (reason : Reason) : Scan σ :=
  { scan with rejected := Function.update scan.rejected reason (scan.rejected reason + 1) }

/-- `groups[str(source_index)] = group`. -/
def Scan.assign (scan : Scan σ) (sourceIndex : Nat) (group : String) : Scan σ :=
  { scan with groups := scan.groups ++ [(toString sourceIndex, group)] }

def Scan.record (scan : Scan σ) (sourceIndex : Nat) : Verdict σ → Scan σ
  | .rejected reason => scan.reject reason
  | .duplicate reason group => (scan.reject reason).assign sourceIndex group
  | .indexed group index (.error reason) =>
      ({ scan with index }.assign sourceIndex group).reject reason
  | .indexed group index (.ok row) =>
      { { scan with index }.assign sourceIndex group with
        selected := scan.selected ++
          [{ problem := row.problem
             solution := row.solution
             answer := row.answer
             problemId := group
             sourceRow := sourceIndex
             workedPrefixLength := row.workedPrefixLength }] }

/-- One round of the loop. -/
def scanRow (scan : Scan σ) (item : SourceRow × Nat) : Except PyError (Scan σ) := do
  let verdict ← judge ops query tokenizer mathdNormalizeAnswer scan.index item.1
  .ok (scan.record item.2 verdict)

/-- `ordered`, where every row has a problem. -/
def digestOrder (rows : List SourceRow) : List (SourceRow × Nat) :=
  sortKeys (fun item => digest ops (canonical ops (getField item.1.problem).str)) rows.zipIdx

/-- The index of the benchmarks. -/
def indexBenchmarks (benchmarks : List Benchmark) : Except PyError (TextIndex σ) :=
  benchmarks.foldlM (fun index row => index.insert ops ("benchmark:" ++ row.id) row.problem) .empty

/-- `_eligible`. -/
def eligible (rows : List SourceRow) (benchmarks : List Benchmark) : Except PyError (Scan σ) := do
  let index ← indexBenchmarks ops benchmarks
  check (∀ row ∈ rows, row.problem.isSome) (missingKey "problem")
  (digestOrder ops rows).foldlM (scanRow ops query tokenizer mathdNormalizeAnswer)
    { index, selected := [], rejected := fun _ => 0, groups := [] }

end Eligible

end Crisp.Ref
