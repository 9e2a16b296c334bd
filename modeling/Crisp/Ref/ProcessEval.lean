import Crisp.Lib.Regex

/-!
# The validation sets of the original pipeline

`process_aime24` keeps of every solution only what its box holds, and that is the
answer responses are graded against.
-/

namespace Crisp.Ref.ProcessEval

open Crisp.Lib

/-- `\boxed{` -/
def boxed : List Char := "\\boxed\x7b".toList

/-- `\\boxed\{([^}]+)\}` -/
def boxedPattern : Re :=
  .cat [.lit boxed, .group 1 (.many1 (· != '}')), .lit ['}']]

/-- `process_eval_data.extract_boxed_answer`. `re.search` raises for no text, so nothing
reaches its `except`. -/
def extractBoxedAnswer (text : List Char) : List Char :=
  match boxedPattern.search text with
  | some groups => (groups 1).getD []
  | none => text

/-- A row of the AIME 2024 data. -/
structure AimeExample where
  problem : String
  solution : String
  deriving DecidableEq

/-- A row of the validation set. -/
structure EvalRow where
  dataSource : String
  prompt : List (String × String)
  ability : String
  groundTruth : String
  split : String
  index : Nat
  deriving DecidableEq

/-- `process_aime24`; the instruction's two ends come from the shared prompt config. -/
def processAime24 (instructionPrefix instructionSuffix : String) (data : List AimeExample) :
    List EvalRow :=
  data.mapIdx fun index row =>
    { dataSource := "aime24"
      prompt := [("user", instructionPrefix ++ row.problem ++ instructionSuffix)]
      ability := "math"
      groundTruth := String.ofList (extractBoxedAnswer row.solution.toList)
      split := "test"
      index }

end Crisp.Ref.ProcessEval
