import Crisp.Lib.Decimal
import Crisp.Lib.Raise
import Crisp.Lib.Regex
import Mathlib.Data.Rat.Defs

/-!
# The public name of a run

`run_name` describes a recipe. It is given the name of the run's group as well, which
may be anything, a private path included, and may use of it only what the identifier
of a study says.

The six grammars are tried in the order of the source. The two studies of their own,
by phases and by cycles, raise on a group that has their prefix and not their form.
-/

namespace Crisp.Ref

open Crisp.Lib

/-! ## Arguments -/

/-- A Python integer; a boolean is one. -/
inductive PyInt where
  | int (value : Int)
  | bool (value : Bool)
  deriving DecidableEq

def PyInt.value : PyInt → Int
  | .int value => value
  | .bool value => if value then 1 else 0

/-- `str(value)` -/
def PyInt.str : PyInt → String
  | .int value => toString value
  | .bool value => if value then "True" else "False"

/-- A count that may have any type. -/
inductive CountArg where
  | none
  | number (value : PyInt)
  | other
  deriving DecidableEq

/-- `type(value) is int` -/
def CountArg.isInt : CountArg → Bool
  | .number (.int _) => true
  | _ => false

/-- The number, where `isinstance(value, int)` and not a boolean. -/
def CountArg.int? : CountArg → Option Int
  | .number (.int value) => some value
  | _ => Option.none

/-- The arguments of `run_name` but for the group. -/
structure RunRecipe where
  target : String
  context : String
  seed : PyInt
  task : String
  emaDecay : Option ℚ
  cyclicTeacherPolicy : Option String
  cyclicPiUpdates : CountArg
  cyclicOpdUpdates : CountArg
  plannedUpdates : CountArg
  cyclicOptimizerPolicy : String
  cyclicLrSchedule : String
  deriving DecidableEq

/-! ## The grammars -/

def isDigit (c : Char) : Bool := '0' ≤ c && c ≤ '9'

/-- `[0-9]+` -/
def digits : Re := .many1 isDigit

/-- A literal of the source. -/
def literal (text : String) : Re := .lit text.toList

/-- `(a|b|…)` -/
def choice (index : Nat) (texts : List String) : Re :=
  .group index (.oneOf (texts.map String.toList))

def phasePattern : Re :=
  .cat [literal "mathphases", .opt (.group 1 (literal "-ready")), literal "-v1-qwen3-",
    choice 2 ["4b", "8b"], literal "-refresh-pi", choice 3 ["3", "5", "7", "9"], literal "-opd",
    choice 4 ["8", "6", "4", "2"], literal "-u", choice 5 ["22", "88"],
    literal "-reset-constant-s137-r1"]

def cyclePattern : Re :=
  .cat [literal "mathcycles-qwen3-", choice 1 ["4b", "8b"], literal "-",
    choice 2 ["fixed", "refresh"],
    .opt (.cat [literal "-", choice 3 ["reset", "carry"], literal "-",
      choice 4 ["constant", "linear"], .opt (.group 5 (literal "-ready"))]),
    literal "-s", .group 6 digits, literal "-r", .group 7 digits]

def generalityPattern : Re :=
  .cat [literal "generality-qwen3-", choice 1 ["1p7b", "8b"], literal "-",
    choice 2 ["math", "code"], literal "-", choice 3 ["frozen", "ema"], literal "-",
    choice 4 ["warmup", "pi", "opd"], literal "-s", .group 5 digits, literal "-r", .group 6 digits]

def replicationPattern : Re :=
  .cat [literal "replication-s", .group 1 digits, literal "-", choice 2 ["warmup", "opd", "pi"]]

/-- Group 1 is `attempt`, group 2 is `block`. -/
def blockIdPattern : Re :=
  .cat [literal "B", .oneOf (["01", "10", "11", "S"].map String.toList),
    .opt (.cat [literal "-r", .group 1 digits]), literal "-block-", .group 2 digits]

def warmupPattern : Re := .cat [literal "B-warmup-u", digits]

/-- A group that takes part in every match. -/
def token (groups : Groups) (index : Nat) : List Char := (groups index).getD []

/-- The number the digits write. -/
def natOf (digits : List Char) : Nat :=
  digits.foldl (fun n c => 10 * n + (c.toNat - '0'.toNat)) 0

/-- `int(digits)`, which refuses very long texts. -/
def intOf (digits : List Char) : Except PyError Nat := do
  check (digits.length ≤ 4300)
    (valueError (s!"Exceeds the limit (4300 digits) for integer string conversion: value has " ++
      s!"{digits.length} digits; use sys.set_int_max_str_digits() to increase the limit"))
  .ok (natOf digits)

/-- A group as a key; no token is the text `None`. -/
def orNone (token : Option (List Char)) : String := (token.map String.ofList).getD "None"

/-- `token.upper()` -/
def upper (token : List Char) : String := String.ofList (token.map Char.toUpper)

/-- `table[key]` of a dictionary display. -/
def entryOf (table : List (String × String)) (key : String) : Except PyError String :=
  fetch (fun key => keyError s!"'{key}'") (fun key => table.lookup key) key

/-! ## The names -/

/-- The name of a study by phases. -/
def phaseText (readiness : Bool) (size pi opd : List Char) : String :=
  let expectedHorizon : Nat := if readiness then 22 else 88
  s!"Qwen3-{upper size} | math | cycle-refreshed teacher | PI{String.ofList pi} → " ++
    s!"OPD{String.ofList opd} × {expectedHorizon / 11} | fresh Adam per phase | " ++
    "constant LR | seed 137 | non-thinking | attempt 1" ++
    if readiness then " | phase readiness" else " | phase study"

/-- The name of a study by cycles. -/
def cycleText (seed : PyInt) (size policy : List Char) (optimizer schedule : String)
    (readiness : Bool) (pi opd planned : Int) (attempt : Nat) : String :=
  let teacher :=
    if policy = "fixed".toList then "fixed original teacher" else "cycle-refreshed teacher"
  let optimizerLabel :=
    if optimizer = "reset_each_phase" then "fresh Adam per phase" else "carried Adam"
  let scheduleLabel :=
    if schedule = "constant" then "constant LR" else "global linear LR 5e-6 → 5e-7"
  s!"Qwen3-{upper size} | math | {teacher} | PI{pi} → OPD{opd} × {planned / (pi + opd)} | " ++
    s!"{optimizerLabel} | {scheduleLabel} | seed {seed.str} | non-thinking | attempt {attempt}" ++
    if readiness then " | readiness" else ""

/-- The name of a cell of the generality study. -/
def generalityText (seed : PyInt) (task model : String) (policy phase : List Char)
    (attempt : Nat) : String :=
  let warmup := if policy = "ema".toList then "EMA PI7" else "frozen PI7"
  let label :=
    if phase = "warmup".toList then warmup
    else warmup ++ if phase = "opd".toList then " → original OPD4" else " → continued PI4"
  s!"{model} | {task} | {label} | seed {seed.str} | non-thinking | attempt {attempt}"

/-- The models of the generality study by size. -/
def modelNames : List (String × String) := [("1p7b", "Qwen3-1.7B"), ("8b", "Qwen3-8B")]

/-- The labels of the phases of a replicate. -/
def phaseLabels : List (String × String) :=
  [("warmup", "PI warm-up 7"), ("opd", "PI7 → original-teacher OPD4"),
    ("pi", "PI7 → continued PI4")]

/-- The name of a replicate. -/
def replicationText (seed : PyInt) (label : String) : String :=
  s!"Qwen3-4B | {label} | replicate {seed.str} | non-thinking"

/-- `f"block {block:02d}"` -/
def blockPart (block : Nat) : String := "block " ++ String.ofList (zeroPadded 2 block)

/-- `f"attempt {attempt:02d}"` -/
def attemptPart (attempt : Nat) : String := "attempt " ++ String.ofList (zeroPadded 2 attempt)

/-- The body of `run_name` for a study by phases. -/
def phaseName (recipe : RunRecipe) (phase : Groups) : Except PyError String := do
  let readiness := (phase 1).isSome
  let size := token phase 2
  let expectedHorizon : Nat := if readiness then 22 else 88
  let pi ← intOf (token phase 3)
  let opd ← intOf (token phase 4)
  let horizon ← intOf (token phase 5)
  let allowedReady := (size, pi, opd) ∈ [("4b".toList, 3, 8), ("8b".toList, 9, 2)]
  let counts := [recipe.cyclicPiUpdates, recipe.cyclicOpdUpdates, recipe.plannedUpdates,
    .number recipe.seed]
  check ((∀ value ∈ counts, value.isInt = true) ∧
      counts = [.number (.int pi), .number (.int opd), .number (.int expectedHorizon),
        .number (.int 137)] ∧ pi + opd = 11 ∧ horizon = expectedHorizon ∧
      (readiness = true → allowedReady) ∧ recipe.target = "frozen" ∧ recipe.context = "worked" ∧
      recipe.task = "math" ∧ recipe.emaDecay = none ∧
      recipe.cyclicTeacherPolicy = some "cycle_refresh" ∧
      recipe.cyclicOptimizerPolicy = "reset_each_phase" ∧ recipe.cyclicLrSchedule = "constant")
    (valueError "Phase run name disagrees with its finite reviewed recipe")
  .ok (phaseText readiness size (token phase 3) (token phase 4))

/-- The body of `run_name` for a study by cycles. -/
def cycleName (recipe : RunRecipe) (cyclic : Groups) : Except PyError String := do
  let size := token cyclic 1
  let policy := token cyclic 2
  let expectedOptimizer ← entryOf
    [("None", "reset_each_phase"), ("reset", "reset_each_phase"), ("carry", "carry")]
    (orNone (cyclic 3))
  let expectedSchedule ← entryOf
    [("None", "constant"), ("constant", "constant"), ("linear", "global_linear")]
    (orNone (cyclic 4))
  let expectedPolicy ← entryOf [("fixed", "fixed_original"), ("refresh", "cycle_refresh")]
    (String.ofList policy)
  let runSeed ← intOf (token cyclic 6)
  check ((runSeed : Int) = recipe.seed.value ∧ recipe.target = "frozen" ∧
      recipe.context = "worked" ∧ recipe.task = "math" ∧ recipe.emaDecay = none ∧
      recipe.cyclicTeacherPolicy = some expectedPolicy ∧
      recipe.cyclicOptimizerPolicy = expectedOptimizer ∧
      recipe.cyclicLrSchedule = expectedSchedule)
    (valueError "Cyclic run name disagrees with the recipe or teacher policy")
  match recipe.cyclicPiUpdates.int?, recipe.cyclicOpdUpdates.int?, recipe.plannedUpdates.int? with
  | some pi, some opd, some planned =>
      check (0 < pi ∧ 0 < opd ∧ 0 < planned)
        (valueError "Cyclic run name requires positive integer phase and total updates")
      check (planned % (pi + opd) = 0)
        (valueError "Cyclic run name requires complete PI/OPD cycles")
      let attempt ← intOf (token cyclic 7)
      .ok (cycleText recipe.seed size policy expectedOptimizer expectedSchedule
        (cyclic 5).isSome pi opd planned attempt)
  | _, _, _ =>
      .error (valueError "Cyclic run name requires positive integer phase and total updates")

/-- The body of `run_name` for a cell of the generality study. -/
def generalityName (recipe : RunRecipe) (cell : Groups) : Except PyError String := do
  let size := token cell 1
  let policy := token cell 3
  let phase := token cell 4
  let expectedEma : Bool := policy = "ema".toList ∧ phase ≠ "opd".toList
  let runSeed ← intOf (token cell 5)
  check ((runSeed : Int) = recipe.seed.value ∧ recipe.target = "frozen" ∧
      String.ofList (token cell 2) = recipe.task)
    (valueError "Generality run name disagrees with the recipe")
  check (recipe.context = (if phase = "opd".toList then "none" else "worked") ∧
      expectedEma = recipe.emaDecay.isSome)
    (valueError "Generality run name disagrees with the teacher policy")
  let model ← entryOf modelNames (String.ofList size)
  let attempt ← intOf (token cell 6)
  .ok (generalityText recipe.seed recipe.task model policy phase attempt)

/-- The body of `run_name` for a replicate. -/
def replicationName (recipe : RunRecipe) (replicate : Groups) : Except PyError String := do
  let runSeed ← intOf (token replicate 1)
  check ((runSeed : Int) = recipe.seed.value ∧ recipe.target = "frozen")
    (valueError "Replication name disagrees with the seed or teacher")
  let phase := token replicate 2
  check (recipe.context = (if phase = "opd".toList then "none" else "worked"))
    (valueError "Replication name disagrees with the PI context")
  let label ← entryOf phaseLabels (String.ofList phase)
  .ok (replicationText recipe.seed label)

/-- `information` of the source, with the label of every context. -/
def informationLabels : List (String × String) :=
  [("none", "no PI"), ("answer", "answer PI"), ("worked", "worked-solution PI"),
    ("unrelated", "unrelated PI"), ("empty", "empty PI wrapper")]

def targetLabels : List (String × String) :=
  [("frozen", "direct target"), ("current", "direct target"),
    ("transported", "transported target")]

/-- The part of a block or of the warm-up. -/
def branchPart (group : List Char) : Option Groups → Except PyError (List String)
  | some branch => do
      let block ← intOf (token branch 2)
      .ok [blockPart block]
  | none => .ok (if (warmupPattern.fullmatch group).isSome then ["warm-up"] else [])

/-- The part of a block's attempt, where it names one. -/
def branchAttempt (branch : Option Groups) : Except PyError (List String) :=
  match branch.bind (· 1) with
  | some attempt => do
      let attempt ← intOf attempt
      .ok [attemptPart attempt]
  | none => .ok []

/-- The end of `run_name`. Only the block identifiers add to what the recipe says. -/
def plainName (recipe : RunRecipe) (group : List Char) : Except PyError String := do
  let teacher :=
    if recipe.emaDecay.isSome then "EMA teacher"
    else if recipe.target = "current" then "current teacher" else "frozen teacher"
  let information ← entryOf informationLabels recipe.context
  let targetLabel ← entryOf targetLabels recipe.target
  let branch := blockIdPattern.fullmatch group
  let part ← branchPart group branch
  let attempt ← branchAttempt branch
  .ok (" | ".intercalate
    ([teacher, information, targetLabel] ++ part ++ [s!"seed {recipe.seed.str}"] ++ attempt))

/-- `run_name`. -/
def runName (recipe : RunRecipe) (group : List Char) : Except PyError String :=
  if "mathphases-".toList <+: group then
    match phasePattern.fullmatch group with
    | none => .error (valueError "Phase study requires a recognized neutral run identifier")
    | some phase => phaseName recipe phase
  else if recipe.cyclicTeacherPolicy.isSome ∨ "mathcycles-".toList <+: group then
    match cyclePattern.fullmatch group with
    | none => .error (valueError "Cyclic study requires a recognized neutral run identifier")
    | some cyclic => cycleName recipe cyclic
  else
    match generalityPattern.fullmatch group with
    | some cell => generalityName recipe cell
    | none =>
        match replicationPattern.fullmatch group with
        | some replicate => replicationName recipe replicate
        | none => plainName recipe group

end Crisp.Ref
