import Crisp.Ref.RunName

/-!
# A public name tells no more than the identifier of a study

A group is given to `run_name` as it is, and what the name shows of it is the value of
one of six grammars: tokens the grammar lists, and numbers. So the name is a function
of the recipe and of that value. Where a study is named the name is returned only for
the recipe the identifier names.
-/

namespace Crisp.Proofs

open Crisp.Lib Crisp.Ref

/-- What a recognised group says. -/
inductive Identifier where
  | phases (readiness : Option (List Char)) (size pi opd horizon : List Char)
  | cycles (size policy : List Char) (optimizer schedule readiness : Option (List Char))
      (seed attempt : Nat)
  | generality (size task policy phase : List Char) (seed attempt : Nat)
  | replication (phase : List Char) (seed : Nat)
  | block (attempt : Option Nat) (block : Nat)
  | warmup
  deriving DecidableEq

/-- Which grammar the group fully matches, and what it captures. -/
def identify (group : List Char) : Option Identifier :=
  match phasePattern.fullmatch group with
  | some g => some (.phases (g 1) (token g 2) (token g 3) (token g 4) (token g 5))
  | none =>
      match cyclePattern.fullmatch group with
      | some g => some (.cycles (token g 1) (token g 2) (g 3) (g 4) (g 5)
          (natOf (token g 6)) (natOf (token g 7)))
      | none =>
          match generalityPattern.fullmatch group with
          | some g => some (.generality (token g 1) (token g 2) (token g 3) (token g 4)
              (natOf (token g 5)) (natOf (token g 6)))
          | none =>
              match replicationPattern.fullmatch group with
              | some g => some (.replication (token g 2) (natOf (token g 1)))
              | none =>
                  match blockIdPattern.fullmatch group with
                  | some g => some (.block ((g 1).map natOf) (natOf (token g 2)))
                  | none =>
                      if (warmupPattern.fullmatch group).isSome then some .warmup else none

/-- One of the listed tokens. -/
def OneOf (texts : List String) (token : List Char) : Prop := token ∈ texts.map String.toList

/-- One of the listed tokens, or none. -/
def OptionalOf (texts : List String) (token : Option (List Char)) : Prop :=
  ∀ text, token = some text → OneOf texts text

/-- Every token is one its grammar lists. -/
def Identifier.Enumerated : Identifier → Prop
  | .phases readiness size pi opd horizon =>
      OptionalOf ["-ready"] readiness ∧ OneOf ["4b", "8b"] size ∧ OneOf ["3", "5", "7", "9"] pi ∧
        OneOf ["8", "6", "4", "2"] opd ∧ OneOf ["22", "88"] horizon
  | .cycles size policy optimizer schedule readiness _ _ =>
      OneOf ["4b", "8b"] size ∧ OneOf ["fixed", "refresh"] policy ∧
        OptionalOf ["reset", "carry"] optimizer ∧ OptionalOf ["constant", "linear"] schedule ∧
        OptionalOf ["-ready"] readiness
  | .generality size task policy phase _ _ =>
      OneOf ["1p7b", "8b"] size ∧ OneOf ["math", "code"] task ∧ OneOf ["frozen", "ema"] policy ∧
        OneOf ["warmup", "pi", "opd"] phase
  | .replication phase _ => OneOf ["warmup", "opd", "pi"] phase
  | .block _ _ => True
  | .warmup => True

/-- The recipe is the one the identifier of a study names. -/
def Identifier.Agrees (recipe : RunRecipe) : Identifier → Prop
  | .phases readiness _ pi opd horizon =>
      recipe.seed = .int 137 ∧ recipe.cyclicPiUpdates = .number (.int (natOf pi)) ∧
        recipe.cyclicOpdUpdates = .number (.int (natOf opd)) ∧
        recipe.plannedUpdates = .number (.int (natOf horizon)) ∧
        natOf horizon = (if readiness.isSome then 22 else 88) ∧ natOf pi + natOf opd = 11 ∧
        recipe.target = "frozen" ∧ recipe.task = "math" ∧ recipe.emaDecay = none ∧
        recipe.cyclicTeacherPolicy = some "cycle_refresh" ∧ recipe.context = "worked" ∧
        recipe.cyclicOptimizerPolicy = "reset_each_phase" ∧ recipe.cyclicLrSchedule = "constant"
  | .cycles _ policy optimizer schedule _ seed _ =>
      (seed : Int) = recipe.seed.value ∧ recipe.target = "frozen" ∧ recipe.task = "math" ∧
        recipe.emaDecay = none ∧
        recipe.cyclicTeacherPolicy =
          some (if policy = "fixed".toList then "fixed_original" else "cycle_refresh") ∧
        recipe.context = "worked" ∧
        recipe.cyclicOptimizerPolicy =
          (if optimizer = some "carry".toList then "carry" else "reset_each_phase") ∧
        recipe.cyclicLrSchedule =
          (if schedule = some "linear".toList then "global_linear" else "constant")
  | .generality _ task policy phase seed _ =>
      (seed : Int) = recipe.seed.value ∧ recipe.target = "frozen" ∧
        recipe.task = String.ofList task ∧ recipe.cyclicTeacherPolicy = none ∧
        (recipe.emaDecay.isSome = true ↔ policy = "ema".toList ∧ phase ≠ "opd".toList) ∧
        recipe.context = (if phase = "opd".toList then "none" else "worked")
  | .replication phase seed =>
      (seed : Int) = recipe.seed.value ∧ recipe.target = "frozen" ∧
        recipe.cyclicTeacherPolicy = none ∧
        recipe.context = (if phase = "opd".toList then "none" else "worked")
  | .block _ _ => True
  | .warmup => True

/-- The name of a recipe outside the studies. -/
def plainText (recipe : RunRecipe) (part attempt : List String) : String :=
  " | ".intercalate
    ([if recipe.emaDecay.isSome then "EMA teacher"
      else if recipe.target = "current" then "current teacher" else "frozen teacher",
      (informationLabels.lookup recipe.context).getD "",
      (targetLabels.lookup recipe.target).getD ""] ++ part ++
      [s!"seed {recipe.seed.str}"] ++ attempt)

/-- The name, from the recipe and what the group says. -/
def publicName (recipe : RunRecipe) : Option Identifier → String
  | some (.phases readiness size pi opd _) => phaseText readiness.isSome size pi opd
  | some (.cycles size policy _ _ readiness _ attempt) =>
      cycleText recipe.seed size policy recipe.cyclicOptimizerPolicy recipe.cyclicLrSchedule
        readiness.isSome (recipe.cyclicPiUpdates.int?.getD 0) (recipe.cyclicOpdUpdates.int?.getD 0)
        (recipe.plannedUpdates.int?.getD 0) attempt
  | some (.generality size _ policy phase _ attempt) =>
      generalityText recipe.seed recipe.task
        ((modelNames.lookup (String.ofList size)).getD "") policy phase attempt
  | some (.replication phase _) =>
      replicationText recipe.seed ((phaseLabels.lookup (String.ofList phase)).getD "")
  | some (.block attempt block) =>
      plainText recipe [blockPart block] (attempt.toList.map attemptPart)
  | some .warmup => plainText recipe ["warm-up"] []
  | none => plainText recipe [] []

/-! ## What the grammars capture -/

theorem optionalOf_none (texts : List String) : OptionalOf texts none := by
  rintro text ⟨⟩

theorem optionalOf_some {texts : List String} {text : List Char} (h : OneOf texts text) :
    OptionalOf texts (some text) := by
  rintro other ⟨⟩
  exact h

theorem phase_captures {group : List Char} {g : Groups}
    (h : phasePattern.fullmatch group = some g) :
    "mathphases-".toList <+: group ∧ OptionalOf ["-ready"] (g 1) ∧ OneOf ["4b", "8b"] (token g 2) ∧
      OneOf ["3", "5", "7", "9"] (token g 3) ∧ OneOf ["8", "6", "4", "2"] (token g 4) ∧
      OneOf ["22", "88"] (token g 5) := by
  have hword := Re.matches_of_fullmatch h
  simp only [phasePattern, literal, choice, Re.matches_cat_lit, Re.matches_cat_opt,
    Re.matches_cat_groupLit, Re.matches_cat_choice, Re.matches_cat_nil] at hword
  obtain ⟨_, rfl, ⟨_, rfl, _, rfl, size, hsize, _, rfl, _, rfl, pi, hpi, _, rfl, _, rfl, opd, hopd,
      _, rfl, _, rfl, horizon, hhorizon, _, rfl, _, rfl, rfl, rfl⟩ |
    ⟨_, rfl, size, hsize, _, rfl, _, rfl, pi, hpi, _, rfl, _, rfl, opd, hopd, _, rfl, _, rfl,
      horizon, hhorizon, _, rfl, _, rfl, rfl, rfl⟩⟩ := hword
  · exact ⟨⟨_, rfl⟩, optionalOf_some (List.mem_cons_self), hsize, hpi, hopd, hhorizon⟩
  · exact ⟨⟨_, rfl⟩, optionalOf_none _, hsize, hpi, hopd, hhorizon⟩

theorem cycle_captures {group : List Char} {g : Groups}
    (h : cyclePattern.fullmatch group = some g) :
    "mathcycles-".toList <+: group ∧ OneOf ["4b", "8b"] (token g 1) ∧
      OneOf ["fixed", "refresh"] (token g 2) ∧ OptionalOf ["reset", "carry"] (g 3) ∧
      OptionalOf ["constant", "linear"] (g 4) ∧ OptionalOf ["-ready"] (g 5) := by
  have hword := Re.matches_of_fullmatch h
  simp only [cyclePattern, literal, choice, digits, Re.matches_cat_lit, Re.matches_cat_opt,
    Re.matches_cat_cat, List.cons_append, List.nil_append, Re.matches_cat_groupLit,
    Re.matches_cat_choice, Re.matches_cat_many1, Re.matches_cat_nil] at hword
  obtain ⟨_, rfl, size, hsize, _, rfl, _, rfl, policy, hpolicy, _, rfl,
    ⟨_, rfl, optimizer, hoptimizer, _, rfl, _, rfl, schedule, hschedule, _, rfl,
      ⟨_, rfl, _, rfl, seed, -, _, rfl, _, rfl, attempt, -, _, rfl, rfl, rfl⟩ |
      ⟨_, rfl, seed, -, _, rfl, _, rfl, attempt, -, _, rfl, rfl, rfl⟩⟩ |
    ⟨_, rfl, seed, -, _, rfl, _, rfl, attempt, -, _, rfl, rfl, rfl⟩⟩ := hword
  · exact ⟨⟨_, rfl⟩, hsize, hpolicy, optionalOf_some hoptimizer, optionalOf_some hschedule,
      optionalOf_some List.mem_cons_self⟩
  · exact ⟨⟨_, rfl⟩, hsize, hpolicy, optionalOf_some hoptimizer, optionalOf_some hschedule,
      optionalOf_none _⟩
  · exact ⟨⟨_, rfl⟩, hsize, hpolicy, optionalOf_none _, optionalOf_none _, optionalOf_none _⟩

theorem generality_captures {group : List Char} {g : Groups}
    (h : generalityPattern.fullmatch group = some g) :
    OneOf ["1p7b", "8b"] (token g 1) ∧ OneOf ["math", "code"] (token g 2) ∧
      OneOf ["frozen", "ema"] (token g 3) ∧ OneOf ["warmup", "pi", "opd"] (token g 4) := by
  have hword := Re.matches_of_fullmatch h
  simp only [generalityPattern, literal, choice, digits, Re.matches_cat_lit,
    Re.matches_cat_choice, Re.matches_cat_many1, Re.matches_cat_nil] at hword
  obtain ⟨_, rfl, size, hsize, _, rfl, _, rfl, task, htask, _, rfl, _, rfl, policy, hpolicy, _, rfl,
    _, rfl, phase, hphase, _, rfl, _, rfl, seed, -, _, rfl, _, rfl, attempt, -, _, rfl, rfl,
    rfl⟩ := hword
  exact ⟨hsize, htask, hpolicy, hphase⟩

theorem replication_captures {group : List Char} {g : Groups}
    (h : replicationPattern.fullmatch group = some g) :
    OneOf ["warmup", "opd", "pi"] (token g 2) := by
  have hword := Re.matches_of_fullmatch h
  simp only [replicationPattern, literal, choice, digits, Re.matches_cat_lit,
    Re.matches_cat_choice, Re.matches_cat_many1, Re.matches_cat_nil] at hword
  obtain ⟨_, rfl, seed, -, _, rfl, _, rfl, phase, hphase, _, rfl, rfl, rfl⟩ := hword
  exact hphase

/-- Whatever is recognised consists of listed tokens and numbers. -/
theorem identify_enumerated {group : List Char} {identifier : Identifier}
    (h : identify group = some identifier) : identifier.Enumerated := by
  rw [identify] at h
  split at h
  · next g hphase =>
      obtain rfl := Option.some_inj.mp h
      exact (phase_captures hphase).2
  · split at h
    · next g hcycle =>
        obtain rfl := Option.some_inj.mp h
        exact (cycle_captures hcycle).2
    · split at h
      · next g hcell =>
          obtain rfl := Option.some_inj.mp h
          exact generality_captures hcell
      · split at h
        · next g hreplicate =>
            obtain rfl := Option.some_inj.mp h
            exact replication_captures hreplicate
        · split at h
          · next g hblock =>
              obtain rfl := Option.some_inj.mp h
              trivial
          · split at h
            · obtain rfl := Option.some_inj.mp h
              trivial
            · cases h

/-! ## Each body -/

variable {recipe : RunRecipe} {g : Groups} {name : String}

theorem intOf_eq_ok {digits : List Char} {n : Nat} (h : intOf digits = .ok n) :
    n = natOf digits := by
  simp only [intOf, except_bind_eq_ok, check_eq_ok] at h
  obtain ⟨-, -, h⟩ := h
  injection h with h
  exact h.symm

theorem entryOf_eq_ok {table : List (String × String)} {key value : String} :
    entryOf table key = .ok value ↔ table.lookup key = some value := by
  rw [entryOf, fetch]
  cases table.lookup key with
  | none => simp
  | some other => simp

theorem phaseName_ok (h : phaseName recipe g = .ok name) :
    name = phaseText (g 1).isSome (token g 2) (token g 3) (token g 4) ∧
      (Identifier.phases (g 1) (token g 2) (token g 3) (token g 4) (token g 5)).Agrees recipe := by
  simp only [phaseName, except_bind_eq_ok, check_eq_ok] at h
  obtain ⟨pi, hpi, opd, hopd, horizon, hhorizon, -, ⟨-, hcounts, hsum, hexpected, -, htarget,
    hcontext, htask, hema, hpolicy, hoptimizer, hschedule⟩, hname⟩ := h
  obtain rfl := intOf_eq_ok hpi
  obtain rfl := intOf_eq_ok hopd
  obtain rfl := intOf_eq_ok hhorizon
  injection hname with hname
  simp only [List.cons.injEq, CountArg.number.injEq] at hcounts
  obtain ⟨hpiUpdates, hopdUpdates, hplanned, hseed, -⟩ := hcounts
  rw [← hexpected] at hplanned
  exact ⟨hname.symm, hseed, hpiUpdates, hopdUpdates, hplanned, hexpected, hsum, htarget, htask,
    hema, hpolicy, hcontext, hoptimizer, hschedule⟩

/-- A listed token is one of them. -/
theorem OneOf.cases {texts : List String} {token : List Char} (h : OneOf texts token) :
    ∃ text ∈ texts, token = text.toList := by
  obtain ⟨text, hmem, rfl⟩ := List.mem_map.mp h
  exact ⟨text, hmem, rfl⟩

theorem optimizer_entry {token : Option (List Char)} {value : String}
    (htoken : OptionalOf ["reset", "carry"] token)
    (h : entryOf [("None", "reset_each_phase"), ("reset", "reset_each_phase"), ("carry", "carry")]
      (orNone token) = .ok value) :
    value = if token = some "carry".toList then "carry" else "reset_each_phase" := by
  rw [entryOf_eq_ok] at h
  cases token with
  | none => exact (Option.some_inj.mp h).symm
  | some text =>
      obtain ⟨text, hmem, rfl⟩ := (htoken text rfl).cases
      simp only [List.mem_cons, List.not_mem_nil, or_false] at hmem
      rcases hmem with rfl | rfl
      · exact (Option.some_inj.mp h).symm
      · exact (Option.some_inj.mp h).symm

theorem schedule_entry {token : Option (List Char)} {value : String}
    (htoken : OptionalOf ["constant", "linear"] token)
    (h : entryOf [("None", "constant"), ("constant", "constant"), ("linear", "global_linear")]
      (orNone token) = .ok value) :
    value = if token = some "linear".toList then "global_linear" else "constant" := by
  rw [entryOf_eq_ok] at h
  cases token with
  | none => exact (Option.some_inj.mp h).symm
  | some text =>
      obtain ⟨text, hmem, rfl⟩ := (htoken text rfl).cases
      simp only [List.mem_cons, List.not_mem_nil, or_false] at hmem
      rcases hmem with rfl | rfl
      · exact (Option.some_inj.mp h).symm
      · exact (Option.some_inj.mp h).symm

theorem policy_entry {token : List Char} {value : String}
    (htoken : OneOf ["fixed", "refresh"] token)
    (h : entryOf [("fixed", "fixed_original"), ("refresh", "cycle_refresh")]
      (String.ofList token) = .ok value) :
    value = if token = "fixed".toList then "fixed_original" else "cycle_refresh" := by
  rw [entryOf_eq_ok] at h
  obtain ⟨text, hmem, rfl⟩ := htoken.cases
  simp only [List.mem_cons, List.not_mem_nil, or_false] at hmem
  rcases hmem with rfl | rfl
  · exact (Option.some_inj.mp h).symm
  · exact (Option.some_inj.mp h).symm

theorem cycleName_ok (hoptimizer : OptionalOf ["reset", "carry"] (g 3))
    (hschedule : OptionalOf ["constant", "linear"] (g 4))
    (hpolicy : OneOf ["fixed", "refresh"] (token g 2)) (h : cycleName recipe g = .ok name) :
    name = publicName recipe (some (.cycles (token g 1) (token g 2) (g 3) (g 4) (g 5)
        (natOf (token g 6)) (natOf (token g 7)))) ∧
      (Identifier.cycles (token g 1) (token g 2) (g 3) (g 4) (g 5) (natOf (token g 6))
        (natOf (token g 7))).Agrees recipe := by
  simp only [cycleName, except_bind_eq_ok, check_eq_ok] at h
  obtain ⟨optimizer, hopt, schedule, hsched, policy, hpol, seed, hseed, -,
    ⟨hseedEq, htarget, hcontext, htask, hema, hteacher, hrecipeOpt, hrecipeSched⟩, h⟩ := h
  obtain rfl := intOf_eq_ok hseed
  have hrecipe : publicName recipe (some (.cycles (token g 1) (token g 2) (g 3) (g 4) (g 5)
      (natOf (token g 6)) (natOf (token g 7)))) =
      cycleText recipe.seed (token g 1) (token g 2) optimizer schedule (g 5).isSome
        (recipe.cyclicPiUpdates.int?.getD 0) (recipe.cyclicOpdUpdates.int?.getD 0)
        (recipe.plannedUpdates.int?.getD 0) (natOf (token g 7)) := by
    rw [publicName, hrecipeOpt, hrecipeSched]
  rw [optimizer_entry hoptimizer hopt] at hrecipeOpt
  rw [schedule_entry hschedule hsched] at hrecipeSched
  rw [policy_entry hpolicy hpol] at hteacher
  refine ⟨?_, hseedEq, htarget, htask, hema, hteacher, hcontext, hrecipeOpt, hrecipeSched⟩
  rw [hrecipe]
  split at h
  · next pi opd planned hpi hopd hplanned =>
      simp only [except_bind_eq_ok, check_eq_ok] at h
      obtain ⟨-, -, -, -, attempt, hattempt, hname⟩ := h
      obtain rfl := intOf_eq_ok hattempt
      rw [hpi, hopd, hplanned, Option.getD_some, Option.getD_some, Option.getD_some]
      exact (Except.ok.inj hname).symm
  · cases h

theorem generalityName_ok (hpolicyNone : recipe.cyclicTeacherPolicy = none)
    (h : generalityName recipe g = .ok name) :
    name = publicName recipe (some (.generality (token g 1) (token g 2) (token g 3) (token g 4)
        (natOf (token g 5)) (natOf (token g 6)))) ∧
      (Identifier.generality (token g 1) (token g 2) (token g 3) (token g 4) (natOf (token g 5))
        (natOf (token g 6))).Agrees recipe := by
  simp only [generalityName, except_bind_eq_ok, check_eq_ok, entryOf_eq_ok] at h
  obtain ⟨seed, hseed, -, ⟨hseedEq, htarget, htask⟩, -, ⟨hcontext, hema⟩, model, hmodel, attempt,
    hattempt, hname⟩ := h
  obtain rfl := intOf_eq_ok hseed
  obtain rfl := intOf_eq_ok hattempt
  injection hname with hname
  refine ⟨?_, hseedEq, htarget, htask.symm, hpolicyNone, ?_, hcontext⟩
  · rw [publicName, hmodel]
    exact hname.symm
  · rw [← hema]
    simp

theorem replicationName_ok (hpolicyNone : recipe.cyclicTeacherPolicy = none)
    (h : replicationName recipe g = .ok name) :
    name = publicName recipe (some (.replication (token g 2) (natOf (token g 1)))) ∧
      (Identifier.replication (token g 2) (natOf (token g 1))).Agrees recipe := by
  simp only [replicationName, except_bind_eq_ok, check_eq_ok, entryOf_eq_ok] at h
  obtain ⟨seed, hseed, -, ⟨hseedEq, htarget⟩, -, hcontext, label, hlabel, hname⟩ := h
  obtain rfl := intOf_eq_ok hseed
  injection hname with hname
  refine ⟨?_, hseedEq, htarget, hpolicyNone, hcontext⟩
  rw [publicName, hlabel]
  exact hname.symm

/-- Outside the studies only a block or the warm-up adds to what the recipe says. -/
theorem plainName_ok {group : List Char} (h : plainName recipe group = .ok name) :
    name = publicName recipe (match blockIdPattern.fullmatch group with
      | some g => some (.block ((g 1).map natOf) (natOf (token g 2)))
      | none => if (warmupPattern.fullmatch group).isSome then some .warmup else none) := by
  simp only [plainName, except_bind_eq_ok, entryOf_eq_ok] at h
  obtain ⟨information, hinformation, targetLabel, htarget, part, hpart, attempt, hattempt,
    hname⟩ := h
  have htext : name = plainText recipe part attempt := by
    rw [plainText, hinformation, htarget]
    exact (Except.ok.inj hname).symm
  rw [htext]
  cases hbranch : blockIdPattern.fullmatch group with
  | none =>
      rw [hbranch] at hpart hattempt
      obtain rfl := Except.ok.inj hpart
      obtain rfl := Except.ok.inj hattempt
      dsimp only
      by_cases hwarmup : (warmupPattern.fullmatch group).isSome = true
      · rw [if_pos hwarmup, if_pos hwarmup]
        rfl
      · rw [if_neg hwarmup, if_neg hwarmup]
        rfl
  | some g =>
      rw [hbranch] at hpart hattempt
      simp only [branchPart, except_bind_eq_ok] at hpart
      obtain ⟨block, hblock, hpart⟩ := hpart
      obtain rfl := intOf_eq_ok hblock
      obtain rfl := Except.ok.inj hpart
      rw [branchAttempt, Option.bind_some] at hattempt
      cases hg : g 1 with
      | none =>
          rw [hg] at hattempt
          obtain rfl := Except.ok.inj hattempt
          dsimp only
          rw [hg]
          rfl
      | some digits =>
          rw [hg] at hattempt
          simp only [except_bind_eq_ok] at hattempt
          obtain ⟨n, hn, hattempt⟩ := hattempt
          obtain rfl := intOf_eq_ok hn
          obtain rfl := Except.ok.inj hattempt
          dsimp only
          rw [hg]
          rfl

/-! ## The name of a group -/

theorem fullmatch_none_of_prefix {e : Re} {front group : List Char}
    (hfront : ∀ g, e.fullmatch group = some g → front <+: group) (hno : ¬ front <+: group) :
    e.fullmatch group = none := by
  cases h : e.fullmatch group with
  | none => rfl
  | some g => exact absurd (hfront g h) hno

section Identify

variable {group : List Char}

theorem identify_phase (h : phasePattern.fullmatch group = some g) :
    identify group = some (.phases (g 1) (token g 2) (token g 3) (token g 4) (token g 5)) := by
  rw [identify, h]

theorem identify_cycle (hphase : phasePattern.fullmatch group = none)
    (h : cyclePattern.fullmatch group = some g) :
    identify group = some (.cycles (token g 1) (token g 2) (g 3) (g 4) (g 5)
      (natOf (token g 6)) (natOf (token g 7))) := by
  rw [identify, hphase, h]

theorem identify_cell (hphase : phasePattern.fullmatch group = none)
    (hcycle : cyclePattern.fullmatch group = none)
    (h : generalityPattern.fullmatch group = some g) :
    identify group = some (.generality (token g 1) (token g 2) (token g 3) (token g 4)
      (natOf (token g 5)) (natOf (token g 6))) := by
  rw [identify, hphase, hcycle, h]

theorem identify_replicate (hphase : phasePattern.fullmatch group = none)
    (hcycle : cyclePattern.fullmatch group = none)
    (hcell : generalityPattern.fullmatch group = none)
    (h : replicationPattern.fullmatch group = some g) :
    identify group = some (.replication (token g 2) (natOf (token g 1))) := by
  rw [identify, hphase, hcycle, hcell, h]

/-- What is left are the identifiers that say nothing of a recipe. -/
theorem identify_rest (hphase : phasePattern.fullmatch group = none)
    (hcycle : cyclePattern.fullmatch group = none)
    (hcell : generalityPattern.fullmatch group = none)
    (hreplicate : replicationPattern.fullmatch group = none) {identifier : Identifier}
    (h : identify group = some identifier) : identifier.Agrees recipe := by
  rw [identify, hphase, hcycle, hcell, hreplicate] at h
  cases hblock : blockIdPattern.fullmatch group with
  | some g =>
      rw [hblock] at h
      obtain rfl := Option.some_inj.mp h
      trivial
  | none =>
      rw [hblock] at h
      dsimp only at h
      split at h
      · obtain rfl := Option.some_inj.mp h
        trivial
      · cases h

end Identify

/-- Whatever the group is, the name that is returned is that of the recipe and of what the
group says, and a study's identifier agrees with the recipe. -/
theorem runName_spec {group : List Char} (h : runName recipe group = .ok name) :
    name = publicName recipe (identify group) ∧
      ∀ identifier, identify group = some identifier → identifier.Agrees recipe := by
  rw [runName] at h
  by_cases hphases : "mathphases-".toList <+: group
  · rw [if_pos hphases] at h
    split at h
    · cases h
    · next g hphase =>
        obtain ⟨hname, hagrees⟩ := phaseName_ok h
        rw [identify_phase hphase]
        refine ⟨hname, ?_⟩
        rintro _ ⟨⟩
        exact hagrees
  · have hphase := fullmatch_none_of_prefix (fun g hg => (phase_captures hg).1) hphases
    rw [if_neg hphases] at h
    by_cases hcycles : recipe.cyclicTeacherPolicy.isSome = true ∨ "mathcycles-".toList <+: group
    · rw [if_pos hcycles] at h
      split at h
      · cases h
      · next g hcycle =>
          obtain ⟨-, -, hpolicy, hoptimizer, hschedule, -⟩ := cycle_captures hcycle
          obtain ⟨hname, hagrees⟩ := cycleName_ok hoptimizer hschedule hpolicy h
          rw [identify_cycle hphase hcycle]
          refine ⟨hname, ?_⟩
          rintro _ ⟨⟩
          exact hagrees
    · rw [if_neg hcycles] at h
      rw [not_or] at hcycles
      have hcycle := fullmatch_none_of_prefix (fun g hg => (cycle_captures hg).1) hcycles.2
      have hpolicy : recipe.cyclicTeacherPolicy = none := by simpa using hcycles.1
      cases hcell : generalityPattern.fullmatch group with
      | some g =>
          rw [hcell] at h
          obtain ⟨hname, hagrees⟩ := generalityName_ok hpolicy h
          rw [identify_cell hphase hcycle hcell]
          refine ⟨hname, ?_⟩
          rintro _ ⟨⟩
          exact hagrees
      | none =>
          rw [hcell] at h
          cases hreplicate : replicationPattern.fullmatch group with
          | some g =>
              rw [hreplicate] at h
              obtain ⟨hname, hagrees⟩ := replicationName_ok hpolicy h
              rw [identify_replicate hphase hcycle hcell hreplicate]
              refine ⟨hname, ?_⟩
              rintro _ ⟨⟩
              exact hagrees
          | none =>
              rw [hreplicate] at h
              refine ⟨?_, fun identifier => identify_rest hphase hcycle hcell hreplicate⟩
              rw [identify, hphase, hcycle, hcell, hreplicate]
              exact plainName_ok h

/-- The public name of a run leaks nothing of its group, and no study is named but the
one that runs. -/
theorem runName_leaks_nothing (recipe : RunRecipe) :
    (∀ group identifier, identify group = some identifier → identifier.Enumerated) ∧
    (∀ group name, runName recipe group = .ok name → name = publicName recipe (identify group)) ∧
    (∀ group group' name name', identify group = none → identify group' = none →
      recipe.cyclicTeacherPolicy = none → runName recipe group = .ok name →
      runName recipe group' = .ok name' → name = name') ∧
    ∀ group identifier name, identify group = some identifier → runName recipe group = .ok name →
      identifier.Agrees recipe := by
  refine ⟨fun group identifier h => identify_enumerated h, fun group name h => (runName_spec h).1,
    fun group group' name name' h h' _ hname hname' => ?_,
    fun group identifier name h hname => (runName_spec hname).2 identifier h⟩
  rw [(runName_spec hname).1, (runName_spec hname').1, h, h']

/-- The readiness run of the study by phases is named. -/
example :
    runName
      { target := "frozen", context := "worked", seed := .int 137, task := "math"
        emaDecay := none, cyclicTeacherPolicy := some "cycle_refresh"
        cyclicPiUpdates := .number (.int 3), cyclicOpdUpdates := .number (.int 8)
        plannedUpdates := .number (.int 22), cyclicOptimizerPolicy := "reset_each_phase"
        cyclicLrSchedule := "constant" }
      "mathphases-ready-v1-qwen3-4b-refresh-pi3-opd8-u22-reset-constant-s137-r1".toList =
    .ok ("Qwen3-4B | math | cycle-refreshed teacher | PI3 → OPD8 × 2 | fresh Adam per phase | " ++
      "constant LR | seed 137 | non-thinking | attempt 1 | phase readiness") := by
  decide

end Crisp.Proofs
