import Crisp.Ref.OpsdWorker

/-!
# When the teacher's hard copy is whole

The loop compares shapes as it goes, and `zip` ends with the shorter list, so a
copy is whole or nothing only on some inputs. They are characterized exactly:
without a mismatch the lists have to be equally long and the teacher's dtypes
have to hold the values, and with one everything before it has to have been equal
already.
-/

namespace Crisp.Proofs

open Crisp.Lib Crisp.Ref

variable {δ α : Type}

/-- The same parameters: as many, and each of the shape and the values of its
counterpart. -/
def SameParameters (students teachers : List (Shard δ α)) : Prop :=
  List.Forall₂ (fun student teacher => teacher.shape = student.shape ∧
    teacher.data = student.data) students teachers

/-- It returned with a whole copy, or raised and left every parameter as it was. -/
def AllOrNothing (before : HybridWorker δ α) :
    EStateM.Result PyError (HybridWorker δ α) (List (String × Bool)) → Prop
  | .ok _ after => ∃ teachers, after.refModuleFsdp = some teachers ∧
      SameParameters before.actorModuleFsdp teachers
  | .error _ after => after.refModuleFsdp = before.refModuleFsdp

/-- The pairs the loop copies: those before the first that differ in shape. -/
def copiedPairs (students teachers : List (Shard δ α)) : List (Shard δ α × Shard δ α) :=
  (students.zip teachers).takeWhile fun pair => pair.1.shape = pair.2.shape

variable {round : δ → α → α}

/-- The loop raises at the first pair of different shapes, if there is one. -/
theorem copyShards_returns {students teachers : List (Shard δ α)} {n : Nat} :
    (copyShards round n students teachers).1 = .ok ⟨⟩ ↔
      ∀ pair ∈ students.zip teachers, pair.1.shape = pair.2.shape := by
  induction students generalizing teachers n with
  | nil => simp [copyShards]
  | cons student students ih =>
      cases teachers with
      | nil => simp [copyShards]
      | cons teacher teachers =>
          rw [copyShards]
          split
          · next h => simp [ih, h]
          · next h => simp [h]

theorem copyShards_same {students teachers : List (Shard δ α)} {n : Nat} :
    SameParameters students (copyShards round n students teachers).2 ↔
      List.Forall₂ (fun student teacher => student.shape = teacher.shape ∧
        student.data.map (round teacher.dtype) = student.data) students teachers := by
  unfold SameParameters
  induction students generalizing teachers n with
  | nil => cases teachers <;> simp [copyShards]
  | cons student students ih =>
      cases teachers with
      | nil => simp [copyShards]
      | cons teacher teachers =>
          rw [copyShards]
          split
          · next h =>
              rw [List.forall₂_cons, List.forall₂_cons, ih]
              simp [Shard.copyData, h]
          · next h =>
              rw [List.forall₂_cons, List.forall₂_cons]
              simp [h, Ne.symm h]

theorem copyShards_unchanged {students teachers : List (Shard δ α)} {n : Nat} :
    (copyShards round n students teachers).2 = teachers ↔
      ∀ pair ∈ copiedPairs students teachers,
        pair.1.data.map (round pair.2.dtype) = pair.2.data := by
  unfold copiedPairs
  induction students generalizing teachers n with
  | nil => simp [copyShards]
  | cons student students ih =>
      cases teachers with
      | nil => simp [copyShards]
      | cons teacher teachers =>
          rw [copyShards]
          split
          · next h =>
              have hcopy : teacher.copyData round student h = teacher ↔
                  student.data.map (round teacher.dtype) = teacher.data := by
                obtain ⟨shape, dtype, data, size⟩ := teacher
                simp [Shard.copyData]
              simp [h, ih, hcopy]
          · next h => simp [h]

/-- What `update_teacher` does once both modules are there. -/
theorem updateTeacher_run {worker : HybridWorker δ α} {teachers : List (Shard δ α)}
    (hactor : worker.isActor = true) (href : worker.refModuleFsdp = some teachers) :
    updateTeacher round worker =
      match copyShards round 0 worker.actorModuleFsdp teachers with
      | (.ok _, copied) =>
          .ok [("teacher_updated", true)] { worker with refModuleFsdp := some copied }
      | (.error error, copied) => .error error { worker with refModuleFsdp := some copied } := by
  unfold updateTeacher
  rw [bind_of_ok get_run, bind_of_ok (require_of hactor)]
  simp only [href]
  rw [bind_of_ok modify_run]
  rcases copyShards round 0 worker.actorModuleFsdp teachers with ⟨_ | _, copied⟩ <;> rfl

/-- Without the actor's role or without a reference module nothing is touched. -/
theorem updateTeacher_refused {worker : HybridWorker δ α}
    (h : worker.isActor = false ∨ worker.refModuleFsdp = none) :
    ∃ error, updateTeacher round worker = .error error worker := by
  unfold updateTeacher
  rw [bind_of_ok get_run]
  by_cases hactor : worker.isActor = true
  · rw [bind_of_ok (require_of hactor)]
    have href : worker.refModuleFsdp = none := h.resolve_left (by simp [hactor])
    simp only [href]
    exact ⟨_, throw_run⟩
  · exact ⟨_, bind_of_error (require_of_not hactor)⟩

/-- The copy is all or nothing exactly when, with no two counterparts of different
shapes, there are as many of both and every value survives the teacher's dtype,
and otherwise all that precedes the first such pair already agreed. -/
theorem update_teacher_all_or_nothing (round : δ → α → α) (worker : HybridWorker δ α) :
    AllOrNothing worker (updateTeacher round worker) ↔
      ∀ teachers, worker.isActor = true → worker.refModuleFsdp = some teachers →
        if ∀ pair ∈ worker.actorModuleFsdp.zip teachers, pair.1.shape = pair.2.shape then
          worker.actorModuleFsdp.length = teachers.length ∧
          ∀ pair ∈ worker.actorModuleFsdp.zip teachers,
            pair.1.data.map (round pair.2.dtype) = pair.1.data
        else
          ∀ pair ∈ copiedPairs worker.actorModuleFsdp teachers,
            pair.1.data.map (round pair.2.dtype) = pair.2.data := by
  by_cases hready : worker.isActor = true ∧ ∃ teachers, worker.refModuleFsdp = some teachers
  · obtain ⟨hactor, teachers, href⟩ := hready
    have hother : ∀ others, worker.refModuleFsdp = some others ↔ teachers = others := by
      intro others
      rw [href, Option.some.injEq]
    simp only [hactor, hother, forall_const, forall_eq']
    rw [updateTeacher_run hactor href]
    have hreturns := @copyShards_returns δ α round worker.actorModuleFsdp teachers 0
    have hsame := @copyShards_same δ α round worker.actorModuleFsdp teachers 0
    have hunchanged := @copyShards_unchanged δ α round worker.actorModuleFsdp teachers 0
    rcases hrun : copyShards round 0 worker.actorModuleFsdp teachers with ⟨_ | _, copied⟩
    · rw [hrun] at hreturns hunchanged
      rw [if_neg fun h => absurd (hreturns.mpr h) (by simp)]
      simp only [AllOrNothing, href, Option.some.injEq]
      exact hunchanged
    · rw [hrun] at hreturns hsame
      have hshapes := hreturns.mp rfl
      rw [if_pos hshapes]
      simp only [AllOrNothing, Option.some.injEq, exists_eq_left']
      rw [hsame, List.forall₂_iff_zip]
      refine and_congr_right fun _ => ⟨fun h pair hpair => (h hpair).2, fun h => ?_⟩
      exact fun {student teacher} hpair => ⟨hshapes _ hpair, h _ hpair⟩
  · have hrefused : worker.isActor = false ∨ worker.refModuleFsdp = none := by
      rcases Bool.eq_false_or_eq_true worker.isActor with hactor | hactor
      · right
        cases href : worker.refModuleFsdp with
        | none => rfl
        | some teachers => exact absurd ⟨hactor, teachers, href⟩ hready
      · exact Or.inl hactor
    obtain ⟨error, herror⟩ := @updateTeacher_refused δ α round worker hrefused
    rw [herror]
    refine iff_of_true rfl fun teachers hactor href => ?_
    exact absurd ⟨hactor, teachers, href⟩ hready

/-- A parameter of one value. -/
def scalarShard (value : Int) : Shard Unit Int :=
  { shape := [1], dtype := ⟨⟩, data := [value], size := rfl }

/-- The teacher's second parameter is missing, or of another shape. -/
theorem update_teacher_partial :
    let worker := fun teachers : List (Shard Unit Int) =>
      { isActor := true
        actorModuleFsdp := [scalarShard 5, scalarShard 6]
        refModuleFsdp := some teachers : HybridWorker Unit Int }
    let pair : Shard Unit Int := { shape := [2], dtype := ⟨⟩, data := [1, 2], size := rfl }
    ¬ AllOrNothing (worker [scalarShard 1])
      (updateTeacher (fun _ x => x) (worker [scalarShard 1])) ∧
    ¬ AllOrNothing (worker [scalarShard 1, pair])
      (updateTeacher (fun _ x => x) (worker [scalarShard 1, pair])) := by
  constructor
  · rintro ⟨teachers, hteachers, hsame⟩
    cases Option.some.inj hteachers
    exact absurd hsame.length_eq (by decide)
  · intro h
    have hdata := congrArg (fun r => r.map fun teachers => teachers.map Shard.data) h
    exact absurd hdata (by decide)

end Crisp.Proofs
