import Crisp.Ref.Args

/-!
# Update-indexed PI/OPD phases

The schedule of a cyclic run: what a rollout ID says about its cycle, phase,
optimizer reset and teacher source, and the two counters the hooks compare
with it, the optimizer-update count and the learning rate. Everything is a
function of the arguments and one index; the state lives with the actor.
-/

namespace Crisp.Ref

open Crisp.Lib

structure CyclicStep where
  cycle : Nat
  context : Context
  phaseStart : Bool
  optimizerReset : Bool
  cycleEnd : Bool
  teacherSourceUpdate : Nat
  deriving DecidableEq, Repr

/-- The metrics a step contributes, by the name they are logged under. -/
def CyclicStep.metrics (step : CyclicStep) : List (String × Nat) :=
  [ ("train/cyclic_cycle", step.cycle),
    ("train/cyclic_pi_phase", if step.context = .worked then 1 else 0),
    ("train/cyclic_optimizer_reset", if step.optimizerReset then 1 else 0),
    ("train/cyclic_teacher_source_update", step.teacherSourceUpdate) ]

/-- The updates of one cycle. -/
def Args.cycleLength (args : Args) : Nat :=
  args.opsdCyclicPiUpdates + args.opsdCyclicOpdUpdates

/-- `cyclic_step`. Zero-based rollout IDs identify the student before its
next optimizer update. -/
def cyclicStep (args : Args) (rolloutId : Int) : Except PyError CyclicStep := do
  check (0 ≤ rolloutId ∧ rolloutId < args.numRollout)
    (valueError "Cyclic OPSD requires an in-range rollout ID")
  let pi := args.opsdCyclicPiUpdates
  let opd := args.opsdCyclicOpdUpdates
  check (pi + opd ≠ 0) zeroFloorDivision
  let cycle := rolloutId.toNat / (pi + opd)
  let offset := rolloutId.toNat % (pi + opd)
  .ok
    { cycle := cycle + 1
      context := if offset < pi then .worked else .none
      phaseStart := offset = 0 ∨ offset = pi
      optimizerReset :=
        (offset = 0 ∨ offset = pi) ∧
          args.opsdCyclicOptimizerPolicy = .resetEachPhase
      cycleEnd := offset + 1 = pi + opd
      teacherSourceUpdate :=
        if args.opsdCyclicTeacherPolicy = some .cycleRefresh then
          cycle * (pi + opd)
        else 0 }

/-- `cyclic_optimizer_updates`. Successful updates since the last reset;
carry includes every completed phase. -/
def cyclicOptimizerUpdates (args : Args) (completedUpdates : Nat) :
    Except PyError Nat := do
  if completedUpdates = 0 ∨ args.opsdCyclicOptimizerPolicy = .carry then
    .ok completedUpdates
  else
    let pi := args.opsdCyclicPiUpdates
    check (pi + args.opsdCyclicOpdUpdates ≠ 0) zeroModulo
    let offset := (completedUpdates - 1) % (pi + args.opsdCyclicOpdUpdates)
    .ok (if offset < pi then offset + 1 else offset - pi + 1)

/-- `cyclic_learning_rate`. The rate of the next update; the last planned
update uses the linear decay floor. -/
def cyclicLearningRate (args : Args) (completedUpdates : Nat) :
    Except PyError ℚ := do
  match args.opsdCyclicLrSchedule with
  | .constant => .ok args.lr
  | .globalLinear =>
      check ((args.numRollout : ℚ) - 1 ≠ 0) zeroDivision
      let fraction := min ((completedUpdates : ℚ) / ((args.numRollout : ℚ) - 1)) 1
      .ok (args.minLr + (args.lr - args.minLr) * (1 - fraction))

/-! ## The schedule in range

What the four functions answer for the rollout IDs of an accepted run. The
hooks and every run lemma read the schedule through these equations. -/

/-- The step of an in-range rollout, without the checks. -/
def stepAt (args : Args) (r : Nat) : CyclicStep :=
  { cycle := r / args.cycleLength + 1
    context := if r % args.cycleLength < args.opsdCyclicPiUpdates then .worked else .none
    phaseStart :=
      r % args.cycleLength = 0 ∨ r % args.cycleLength = args.opsdCyclicPiUpdates
    optimizerReset :=
      (r % args.cycleLength = 0 ∨ r % args.cycleLength = args.opsdCyclicPiUpdates) ∧
        args.opsdCyclicOptimizerPolicy = .resetEachPhase
    cycleEnd := r % args.cycleLength + 1 = args.cycleLength
    teacherSourceUpdate :=
      if args.opsdCyclicTeacherPolicy = some .cycleRefresh then
        r / args.cycleLength * args.cycleLength
      else 0 }

theorem cyclicStep_of_lt {args : Args} {r : Nat} (hr : r < args.numRollout)
    (hcycle : 0 < args.cycleLength) :
    cyclicStep args r = .ok (stepAt args r) := by
  have hrange : (0 : Int) ≤ (r : Int) ∧ (r : Int) < args.numRollout := by omega
  have hne : args.opsdCyclicPiUpdates + args.opsdCyclicOpdUpdates ≠ 0 := by
    unfold Args.cycleLength at hcycle; omega
  simp only [cyclicStep, check_of hrange, check_of hne, except_ok_bind,
    Int.toNat_natCast]
  rfl

/-- The optimizer-update count by its own recursion: a reset starts it again
at one, any other update adds one. -/
def updatesSinceReset (args : Args) : Nat → Nat
  | 0 => 0
  | r + 1 =>
      if (stepAt args r).optimizerReset then 1 else updatesSinceReset args r + 1

theorem stepAt_optimizerReset {args : Args} {r : Nat} :
    (stepAt args r).optimizerReset = true ↔
      (r % args.cycleLength = 0 ∨
        r % args.cycleLength = args.opsdCyclicPiUpdates) ∧
      args.opsdCyclicOptimizerPolicy = .resetEachPhase := by
  simp [stepAt]

theorem updatesSinceReset_carry {args : Args}
    (h : args.opsdCyclicOptimizerPolicy = .carry) (r : Nat) :
    updatesSinceReset args r = r := by
  induction r with
  | zero => rfl
  | succ r ih =>
      have hno : ¬ (stepAt args r).optimizerReset = true := by
        rw [stepAt_optimizerReset, h]
        rintro ⟨-, hreset⟩
        cases hreset
      rw [updatesSinceReset, if_neg hno, ih]

/-- Under a reset policy the recursion counts from the last phase start. -/
theorem updatesSinceReset_reset {args : Args}
    (h : args.opsdCyclicOptimizerPolicy = .resetEachPhase)
    (hpi : 1 ≤ args.opsdCyclicPiUpdates) (hopd : 1 ≤ args.opsdCyclicOpdUpdates)
    (r : Nat) :
    updatesSinceReset args (r + 1) =
      if r % args.cycleLength < args.opsdCyclicPiUpdates then
        r % args.cycleLength + 1
      else r % args.cycleLength - args.opsdCyclicPiUpdates + 1 := by
  have hlen : args.cycleLength =
      args.opsdCyclicPiUpdates + args.opsdCyclicOpdUpdates := rfl
  induction r with
  | zero =>
      rw [updatesSinceReset, if_pos (stepAt_optimizerReset.mpr ⟨by simp, h⟩),
        Nat.zero_mod, if_pos (by omega)]
  | succ r ih =>
      rw [updatesSinceReset, ih]
      have hlt := Nat.mod_lt r (show 0 < args.cycleLength by omega)
      have hsucc : (r + 1) % args.cycleLength =
          if r % args.cycleLength + 1 = args.cycleLength then 0
          else r % args.cycleLength + 1 := by
        rw [Nat.add_mod, Nat.mod_eq_of_lt (show 1 < args.cycleLength by omega)]
        split
        · next hwrap => rw [hwrap, Nat.mod_self]
        · next hwrap => rw [Nat.mod_eq_of_lt (by omega)]
      by_cases hreset : (stepAt args (r + 1)).optimizerReset = true
      · rw [if_pos hreset]
        obtain ⟨hphase, -⟩ := stepAt_optimizerReset.mp hreset
        split <;> omega
      · rw [if_neg hreset]
        have hphase : ¬ ((r + 1) % args.cycleLength = 0 ∨
            (r + 1) % args.cycleLength = args.opsdCyclicPiUpdates) :=
          fun hp => hreset (stepAt_optimizerReset.mpr ⟨hp, h⟩)
        rw [hsucc] at hphase ⊢
        split at hphase <;> split <;> split <;> omega

/-- `cyclic_optimizer_updates` is that count, under either policy. -/
theorem cyclicOptimizerUpdates_eq {args : Args}
    (hpi : 1 ≤ args.opsdCyclicPiUpdates) (hopd : 1 ≤ args.opsdCyclicOpdUpdates)
    (k : Nat) :
    cyclicOptimizerUpdates args k = .ok (updatesSinceReset args k) := by
  unfold cyclicOptimizerUpdates
  split
  · next hdone =>
      rcases hdone with rfl | hcarry
      · rfl
      · rw [updatesSinceReset_carry hcarry]
  · next hlive =>
      have hreset : args.opsdCyclicOptimizerPolicy = .resetEachPhase := by
        cases hp : args.opsdCyclicOptimizerPolicy with
        | resetEachPhase => rfl
        | carry => exact absurd (Or.inr hp) hlive
      obtain ⟨r, rfl⟩ : ∃ r, k = r + 1 := ⟨k - 1, by omega⟩
      have hne : args.opsdCyclicPiUpdates + args.opsdCyclicOpdUpdates ≠ 0 := by
        omega
      simp only [check_of hne, except_ok_bind, Nat.add_sub_cancel]
      rw [updatesSinceReset_reset hreset hpi hopd]
      rfl

theorem div_succ_of_wrap {n r : Nat} (hwrap : r % n + 1 = n) :
    (r + 1) / n * n = r + 1 := by
  have hr := Nat.div_add_mod r n
  have hdvd : n ∣ r + 1 := ⟨r / n + 1, by rw [Nat.mul_add, Nat.mul_one]; omega⟩
  exact Nat.div_mul_cancel hdvd

theorem div_succ_of_not_wrap {n r : Nat} (hn : 0 < n) (hwrap : r % n + 1 ≠ n) :
    (r + 1) / n = r / n := by
  have hlt := Nat.mod_lt r hn
  have hr := Nat.div_add_mod r n
  rw [Nat.div_eq_iff hn]
  constructor
  · calc r / n * n = n * (r / n) := Nat.mul_comm _ _
      _ ≤ r + 1 := by omega
  · have : r / n * n = n * (r / n) := Nat.mul_comm _ _
    omega

/-- The teacher source of the next rollout: the run so far when this one ends
its cycle, and otherwise the source this one had. -/
theorem stepAt_teacherSource_succ {args : Args} (hcycle : 0 < args.cycleLength)
    (hpolicy : args.opsdCyclicTeacherPolicy = some .cycleRefresh) (r : Nat) :
    (stepAt args (r + 1)).teacherSourceUpdate =
      if (stepAt args r).cycleEnd then r + 1
      else (stepAt args r).teacherSourceUpdate := by
  simp only [stepAt, hpolicy, if_true, decide_eq_true_eq]
  split
  · next hwrap => exact div_succ_of_wrap hwrap
  · next hwrap => rw [div_succ_of_not_wrap hcycle hwrap]

theorem stepAt_teacherSource_le {args : Args} (r : Nat) :
    (stepAt args r).teacherSourceUpdate ≤ r := by
  simp only [stepAt]
  split
  · exact Nat.div_mul_le_self r args.cycleLength
  · exact Nat.zero_le r

end Crisp.Ref
