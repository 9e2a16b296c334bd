import Crisp.Lib.Regex
import Crisp.Ref.Generate
import Crisp.Ref.TextIndex

/-!
# Grading code

The worker takes a program out of every response, and the transport writes the four
outcomes it reports back into the candidates they belong to.

`ast.parse` is a parameter: what the names of the functions at the top level of a
program are, where it is one. So is what a value of a JSON record is like as a key.
-/

namespace Crisp.Ref

open Crisp.Lib

/-! ## `extract_program` -/

/-- Three backticks. -/
def fence : List Char := ['`', '`', '`']

/-- What may stand between an opening fence and the end of its line. -/
def fenceTags : List (List Char) := ["python".toList, "py".toList]

/-- The expression of `extract_program`, which is `(?:python|py)?\s*\n(.*?)` between two
fences. -/
def blockPattern : Re :=
  .cat [.lit fence, .opt (.oneOf fenceTags), .many isSpace, .lit ['\n'],
    .group 1 (.lazyMany fun _ => true), .lit fence]

section ExtractProgram

variable (parse : List Char → Option (List String)) (entryPoint : String)

/-- The loop over the blocks; `none` where it returns early. -/
def implementations : List (List Char) → Option (List (List Char))
  | [] => some []
  | code :: blocks => do
      let definitions := (← parse code).filter (· == entryPoint)
      if definitions.length > 1 then none
      else
        let rest ← implementations blocks
        some (if definitions = [] then rest else code :: rest)

/-- `extract_program`. -/
def extractProgram (text : List Char) : Option (List Char) :=
  let blocks := blockPattern.findall 1 text
  if fence <:+: text ∧ countOf fence text ≠ 2 * blocks.length then none
  else
    match implementations parse entryPoint (if blocks = [] then [text] else blocks) with
    | some [code] => some code
    | _ => none

end ExtractProgram

/-! ## `_merge_results` -/

/-- What the code asks of a JSON value: its key up to `==`, which a list or an object
does not have, its class for the error then, and whether its class is `bool`. -/
structure ValueOps (ν κ : Type) where
  key : ν → Option κ
  typeName : ν → String
  isBool : ν → Bool

/-- A candidate row or a graded record. -/
abbrev GradeRecord (ν : Type) := String → Option ν

/-- The fields a graded record must have. -/
def outcomeFields : List String := ["correct", "parse_failure", "grader_timeout", "test_failure"]

section MergeResults

variable {ν κ : Type} [DecidableEq κ] (ops : ValueOps ν κ)

/-- `hash(value)` -/
def hashValue (value : ν) : Except PyError κ :=
  fetch (fun value => typeError s!"unhashable type: '{ops.typeName value}'") ops.key value

/-- `(row["id"], row["draw"])`, as an element of a set. -/
def drawKey (row : GradeRecord ν) : Except PyError (κ × κ) := do
  let id ← fetch missingKey row "id"
  let draw ← fetch missingKey row "draw"
  let idKey ← hashValue ops id
  let drawKey ← hashValue ops draw
  .ok (idKey, drawKey)

/-- The checks of the keys, and `by_draw`. -/
def gradedByDraw (rows graded : List (GradeRecord ν)) :
    Except PyError (κ × κ → Option (GradeRecord ν)) := do
  let rowKeys ← rows.mapM (drawKey ops)
  check (rowKeys.toFinset.card = rows.length ∧ graded.length = rows.length)
    (valueError "Code grader returned missing or duplicate candidate results")
  let gradedKeys ← graded.mapM (drawKey ops)
  check (gradedKeys.toFinset = rowKeys.toFinset)
    (valueError "Code grader returned missing or duplicate candidate results")
  .ok (tableOf (gradedKeys.zip graded))

/-- One round of the inner loop: the row takes the outcome over. -/
def writeOutcome (result : GradeRecord ν) (field : String) :
    EStateM PyError (GradeRecord ν) Unit := do
  let value ← lift (fetch missingKey result field)
  require (ops.isBool value = true) (valueError "Code grader returned a non-boolean outcome")
  modify fun row => Function.update row field (some value)

/-- One round of the outer loop. The key of the row is one of the table's. -/
def mergeRow (byDraw : κ × κ → Option (GradeRecord ν)) : EStateM PyError (GradeRecord ν) Unit := do
  let key ← lift (drawKey ops (← get))
  let result ← lift (fetch (fun _ => keyError "(id, draw)") byDraw key)
  outcomeFields.forM (writeOutcome ops result)

/-- `_merge_results`. The rows are changed in place, also where it raises. -/
def mergeResults (graded : List (GradeRecord ν)) : EStateM PyError (List (GradeRecord ν)) Unit := do
  let byDraw ← lift (gradedByDraw ops (← get) graded)
  eachCell (mergeRow ops byDraw)

end MergeResults

end Crisp.Ref
