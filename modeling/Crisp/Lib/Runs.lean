import Mathlib.Data.List.Basic

/-!
# Runs of a machine

A machine is a function from a state and an input to the next state; a run
feeds it a list of inputs. What every step preserves every run preserves; a
guarded run is one whose every step was taken where the guard held.
-/

namespace Crisp.Lib

variable {σ ι : Type}

/-- The state after a list of inputs. -/
def runFrom (step : σ → ι → σ) (s : σ) (inputs : List ι) : σ :=
  inputs.foldl step s

@[simp] theorem runFrom_nil (step : σ → ι → σ) (s : σ) : runFrom step s [] = s := rfl

@[simp] theorem runFrom_cons (step : σ → ι → σ) (s : σ) (i : ι) (is : List ι) :
    runFrom step s (i :: is) = runFrom step (step s i) is := rfl

theorem runFrom_append (step : σ → ι → σ) (s : σ) (is js : List ι) :
    runFrom step s (is ++ js) = runFrom step (runFrom step s is) js :=
  List.foldl_append

/-- An invariant of the steps is one of the runs. -/
theorem invariant_run {step : σ → ι → σ} {P : σ → Prop}
    (hstep : ∀ s i, P s → P (step s i)) {s : σ} (hs : P s) :
    ∀ inputs, P (runFrom step s inputs) := by
  intro inputs
  induction inputs generalizing s with
  | nil => exact hs
  | cons i is ih => exact ih (hstep s i hs)

/-! ## Endless runs -/

/-- The first `n` of endless inputs. -/
def firstInputs (inputs : Nat → ι) (n : Nat) : List ι := (List.range n).map inputs

theorem mem_firstInputs {inputs : Nat → ι} {n : Nat} {i : ι} (h : i ∈ firstInputs inputs n) :
    ∃ m, inputs m = i := by
  obtain ⟨m, -, hm⟩ := List.mem_map.mp h
  exact ⟨m, hm⟩

theorem runFrom_firstInputs_succ (step : σ → ι → σ) (s : σ) (inputs : Nat → ι) (n : Nat) :
    runFrom step s (firstInputs inputs (n + 1)) =
      step (runFrom step s (firstInputs inputs n)) (inputs n) := by
  rw [firstInputs, List.range_succ, List.map_append, runFrom_append]
  rfl

/-- What stays until some input brings about `Q` does lead to `Q`, where such an input comes. -/
theorem eventually_of_helped (state : Nat → σ) (inputs : Nat → ι) (P Q : σ → Prop)
    (helps : ι → Prop) {n : Nat}
    (hstep : ∀ m, n ≤ m → P (state m) → P (state (m + 1)) ∨ Q (state (m + 1)))
    (hhelps : ∀ m, n ≤ m → P (state m) → helps (inputs m) → Q (state (m + 1)))
    (hcomes : ∃ m, n ≤ m ∧ helps (inputs m)) (hn : P (state n)) :
    ∃ m, n < m ∧ Q (state m) := by
  obtain ⟨last, hle, hhelped⟩ := hcomes
  by_contra hnever
  have hnone : ∀ m, n < m → ¬ Q (state m) := fun m hm hQ => hnever ⟨m, hm, hQ⟩
  have hstays : ∀ k, P (state (n + k)) := by
    intro k
    induction k with
    | zero => exact hn
    | succ k ih =>
        exact (hstep (n + k) (Nat.le_add_right n k) ih).resolve_right (hnone _ (by omega))
  have hlast : P (state last) := by
    have := hstays (last - n)
    rwa [Nat.add_sub_cancel' hle] at this
  exact hnone (last + 1) (by omega) (hhelps last hle hlast hhelped)

/-! ## Guarded runs -/

/-- Every step of the run is taken from a state and with an input that meet `G`. -/
def StepsMeet (step : σ → ι → σ) (G : σ → ι → Prop) : σ → List ι → Prop
  | _, [] => True
  | s, i :: is => G s i ∧ StepsMeet step G (step s i) is

instance decidableStepsMeet {step : σ → ι → σ} {G : σ → ι → Prop} [∀ s i, Decidable (G s i)] :
    ∀ s inputs, Decidable (StepsMeet step G s inputs)
  | _, [] => isTrue trivial
  | s, i :: is => @instDecidableAnd _ _ _ (decidableStepsMeet (step s i) is)

end Crisp.Lib
