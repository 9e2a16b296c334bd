import Crisp.Proofs.PairedSource
import Crisp.Ref.EmaCells
import Mathlib.Algebra.BigOperators.Ring.Finset
import Mathlib.Tactic.NormNum
import Mathlib.Tactic.Ring

/-!
# The EMA teacher's algebra

Validation comes before the first write, so a call that raises has changed
nothing, and after it no write can raise. What the object holds then goes through
a run as the pure accumulator does, whatever the caller does to its own tensors
in between; the closed form and the fork are facts about that fold.
-/

namespace Crisp.Proofs

open Crisp.Lib Crisp.Ref

section Calls

variable {ι α : Type} [DecidableEq ι] [ToString ι] [TensorOps α]

/-! ## Validation -/

section Validate

variable [Fintype ι]

omit [ToString ι] [Fintype ι] [TensorOps α] in
theorem mem_floating {memory : Memory (DType × α)} {weights : Dict ι} {name : ι} :
    name ∈ ((weights.entries memory).filter fun entry => entry.2.1.isFloating).map Prod.fst ↔
      isFloatingName (tensorsOf memory weights) name = true := by
  unfold isFloatingName tensorsOf Dict.entries
  simp only [List.mem_map, List.mem_filter, Prod.exists]
  constructor
  · rintro ⟨_, dtype, value, ⟨⟨_, loc, hitem, hentry⟩, hfloating⟩, rfl⟩
    obtain ⟨rfl, hcell⟩ := Prod.mk.inj hentry
    rw [Dict.get?_eq_some.mpr hitem, Option.map_some, hcell]
    exact hfloating
  · intro h
    cases hget : weights.get? name with
    | none => simp [hget] at h
    | some loc =>
        rw [hget] at h
        exact ⟨name, _, _, ⟨⟨name, loc, Dict.get?_eq_some.mp hget, rfl⟩, h⟩, rfl⟩

omit [ToString ι] [Fintype ι] [TensorOps α] in
theorem mem_averages {p : EmaProcess ι α} {name : ι} :
    name ∈ p.ema.tensors.keys ↔ (p.holds.tensors name).isSome = true := by
  rw [← Dict.get?_isSome]
  show _ ↔ ((p.ema.tensors.get? name).map _).isSome = true
  rw [Option.isSome_map]

/-- Validating in place is validating what is held. -/
theorem validate_eq (p : EmaProcess ι α) (weights : Dict ι) :
    p.validate weights = p.holds.validate (tensorsOf p.memory weights) := by
  have hnames : ((∀ name ∈ ((weights.entries p.memory).filter fun entry =>
        entry.2.1.isFloating).map Prod.fst, name ∈ p.ema.tensors.keys) ∧
      ∀ name ∈ p.ema.tensors.keys, name ∈ ((weights.entries p.memory).filter fun entry =>
        entry.2.1.isFloating).map Prod.fst) ↔
      ∀ i, isFloatingName (tensorsOf p.memory weights) i = (p.holds.tensors i).isSome := by
    simp only [mem_floating, mem_averages]
    constructor
    · exact fun h i => Bool.eq_iff_iff.mpr ⟨h.1 i, h.2 i⟩
    · exact fun h => ⟨fun i hi => h i ▸ hi, fun i hi => (h i).symm ▸ hi⟩
  have hitem (hok : ∀ i, isFloatingName (tensorsOf p.memory weights) i =
      (p.holds.tensors i).isSome) : ∀ item ∈ p.ema.tensors.items,
      p.validateItem weights item =
        check (matchesAverage (tensorsOf p.memory weights) item.1 (p.memory.cell item.2).2 = true)
          (valueError "EMA requires matching shapes and finite parameters") := by
    intro item hitem
    have hname : isFloatingName (tensorsOf p.memory weights) item.1 = true :=
      (hok item.1).trans (mem_averages.mp (List.mem_map_of_mem hitem))
    unfold EmaProcess.validateItem matchesAverage tensorsOf
    cases hget : weights.get? item.1 with
    | none => simp [isFloatingName, tensorsOf, hget] at hname
    | some loc => exact check_congr (by simp)
  by_cases hok : ∀ i, isFloatingName (tensorsOf p.memory weights) i = (p.holds.tensors i).isSome
  · have hloop : p.validate weights = p.ema.tensors.items.forM (p.validateItem weights) := by
      unfold EmaProcess.validate check
      dsimp only
      rw [if_pos (hnames.mpr hok)]
      rfl
    unfold OpsdEma.validate
    rw [hloop, check_of hok, except_ok_bind, except_forM_check (hitem hok)]
    refine check_congr ⟨fun h i average haverage => ?_, fun h item hitem => ?_⟩
    · obtain ⟨loc, hget, rfl⟩ := EmaProcess.holds_eq_some.mp haverage
      exact h (i, loc) (Dict.get?_eq_some.mp hget)
    · exact h item.1 _ (EmaProcess.holds_eq_some.mpr
        ⟨item.2, Dict.get?_eq_some.mpr hitem, rfl⟩)
  · unfold EmaProcess.validate OpsdEma.validate check
    dsimp only
    rw [if_neg (fun h => hok (hnames.mp h)), if_neg hok]
    rfl

end Validate

/-- What a validated mapping has for every average. -/
theorem validate_items {p : EmaProcess ι α} {weights : Dict ι} {u : Unit}
    (h : p.validate weights = .ok u) :
    ∀ item ∈ p.ema.tensors.items, ∃ loc, weights.get? item.1 = some loc ∧
      TensorOps.shape (p.memory.cell loc).2 = TensorOps.shape (p.memory.cell item.2).2 ∧
      TensorOps.isFinite (p.memory.cell loc).2 = true := by
  unfold EmaProcess.validate at h
  simp only [except_bind_eq_ok] at h
  obtain ⟨-, -, hitems⟩ := h
  intro item hitem
  have hchecked := except_forM_eq_ok.mp hitems item hitem
  unfold EmaProcess.validateItem at hchecked
  cases hget : weights.get? item.1 with
  | none => simp [hget] at hchecked
  | some loc =>
      simp only [hget, check_eq_ok] at hchecked
      exact ⟨loc, rfl, hchecked⟩

theorem validate_shapes {p : EmaProcess ι α} {weights : Dict ι} {u : Unit}
    (h : p.validate weights = .ok u) :
    ∀ item ∈ p.ema.tensors.items, ∃ loc, weights.get? item.1 = some loc ∧
      TensorOps.shape (p.memory.cell loc).2 = TensorOps.shape (p.memory.cell item.2).2 :=
  fun item hitem =>
    let ⟨loc, hget, hshape, _⟩ := validate_items h item hitem
    ⟨loc, hget, hshape⟩

/-! ## The loops -/

/-- A statement that overwrites one cell, keeping its shape, and raises before it
does when its two tensors differ in shape. -/
structure InPlace (body : Nat → Nat → EStateM PyError (EmaProcess ι α) Unit)
    (destination : Nat → Nat → Nat)
    (written : Memory (DType × α) → Nat → Nat → DType × α) : Prop where
  run : ∀ p average value, body average value p =
    if TensorOps.shape (p.memory.cell value).2 = TensorOps.shape (p.memory.cell average).2 then
      .ok ⟨⟩ { p with
        memory := p.memory.write (destination average value) (written p.memory average value) }
    else .error sizeMismatch p
  shape : ∀ memory average value,
    TensorOps.shape (memory.cell value).2 = TensorOps.shape (memory.cell average).2 →
    TensorOps.shape (written memory average value).2 =
      TensorOps.shape (memory.cell (destination average value)).2

/-- What `lerp_` leaves in an average. -/
def lerped (weight : ℚ) (memory : Memory (DType × α)) (average value : Nat) : DType × α :=
  ((memory.cell average).1,
    TensorOps.lerp (memory.cell average).2 (TensorOps.toFloat32 (memory.cell value).2) weight)

/-- What `copy_` leaves in a scoring tensor. -/
def copied (memory : Memory (DType × α)) (average destination : Nat) : DType × α :=
  ((memory.cell destination).1,
    TensorOps.castTo (memory.cell destination).1 (memory.cell average).2)

/-- The kernels keep the shape of what they write into, and so does a copy. -/
structure KeepsAllShapes (α : Type) [TensorOps α] : Prop extends KeepsShapes α where
  castTo : ∀ (dtype : DType) (a : α), TensorOps.shape (TensorOps.castTo dtype a) = TensorOps.shape a

omit [DecidableEq ι] [ToString ι] in
theorem lerpCell_inPlace (hops : KeepsAllShapes α) (weight : ℚ) :
    @InPlace ι α _ (fun average value => lerpCell average value weight)
      (fun average _ => average) (lerped weight) where
  run p average value := by
    unfold lerpCell
    rw [bind_of_ok get_run]
    have hcast := hops.toFloat32 (p.memory.cell value).2
    split
    · next h => exact bind_of_ok (require_of (hcast.trans h))
    · next h => exact bind_of_error (require_of_not fun heq => h (hcast.symm.trans heq))
  shape memory average value _ := hops.lerp _ _ _

omit [DecidableEq ι] [ToString ι] in
theorem copyCell_inPlace (hops : KeepsAllShapes α) :
    @InPlace ι α _ (fun average destination => copyCell destination average)
      (fun _ destination => destination) copied where
  run p average destination := by
    unfold copyCell
    rw [bind_of_ok get_run]
    split
    · next h => exact bind_of_ok (require_of h.symm)
    · next h => exact bind_of_error (require_of_not fun heq => h heq.symm)
  shape memory average destination h := by
    show TensorOps.shape (TensorOps.castTo _ _) = _
    rw [hops.castTo, h]

variable {body : Nat → Nat → EStateM PyError (EmaProcess ι α) Unit}
  {destination : Nat → Nat → Nat} {written : Memory (DType × α) → Nat → Nat → DType × α}
  {weights : Dict ι}

/-- The cells a loop writes to. -/
def Written (destination : Nat → Nat → Nat) (weights : Dict ι) (items : List (ι × Nat))
    (loc : Nat) : Prop :=
  ∃ item ∈ items, ∃ value, weights.get? item.1 = some value ∧ loc = destination item.2 value

omit [DecidableEq ι] [ToString ι] in
theorem InPlace.step (hbody : InPlace body destination written) {p q : EmaProcess ι α}
    {average value : Nat} {u : Unit} (h : body average value p = .ok u q) :
    q = { p with
      memory := p.memory.write (destination average value) (written p.memory average value) } := by
  rw [hbody.run] at h
  split at h
  · cases h
    rfl
  · cases h

/-- A loop over averages that all have a tensor of their shape returns: no
iteration changes a shape, so whatever shares cells, the next one has its own. -/
theorem forAverages_returns (hbody : InPlace body destination written) {items : List (ι × Nat)}
    {p : EmaProcess ι α}
    (hitems : ∀ item ∈ items, ∃ loc, weights.get? item.1 = some loc ∧
      TensorOps.shape (p.memory.cell loc).2 = TensorOps.shape (p.memory.cell item.2).2) :
    ∃ q, forAverages weights body items p = .ok ⟨⟩ q := by
  induction items generalizing p with
  | nil => exact ⟨p, rfl⟩
  | cons item items ih =>
      obtain ⟨name, average⟩ := item
      obtain ⟨loc, hget, hshape⟩ := hitems (name, average) (by simp)
      let first := p.memory.write (destination average loc) (written p.memory average loc)
      have hshapes : ∀ cell, TensorOps.shape (first.cell cell).2 =
          TensorOps.shape (p.memory.cell cell).2 := by
        intro cell
        by_cases heq : cell = destination average loc
        · rw [heq, Memory.write_self]
          exact hbody.shape p.memory average loc hshape
        · rw [Memory.write_of_ne _ _ heq]
      have hstep : body average loc p = .ok ⟨⟩ { p with memory := first } := by
        rw [hbody.run, if_pos hshape]
      obtain ⟨q, hrest⟩ := @ih { p with memory := first } fun item hitem => by
        obtain ⟨value, hvalue, heq⟩ := hitems item (List.mem_cons_of_mem _ hitem)
        exact ⟨value, hvalue, by rw [hshapes, hshapes]; exact heq⟩
      refine ⟨q, ?_⟩
      rw [forAverages, hget]
      exact (bind_of_ok hstep).trans hrest

/-- A loop that returned has changed nothing but its destinations. -/
theorem forAverages_frame (hbody : InPlace body destination written) {items : List (ι × Nat)}
    {p q : EmaProcess ι α} {u : Unit} (h : forAverages weights body items p = .ok u q) :
    q.ema = p.ema ∧ q.memory.next = p.memory.next ∧
      Memory.Framed (Written destination weights items) p.memory q.memory := by
  induction items generalizing p with
  | nil =>
      cases h
      exact ⟨rfl, rfl, .refl _⟩
  | cons item items ih =>
      obtain ⟨name, average⟩ := item
      rw [forAverages] at h
      cases hget : weights.get? name with
      | none =>
          rw [hget] at h
          cases h
      | some loc =>
          rw [hget] at h
          obtain ⟨⟨⟩, first, hstep, hloop⟩ := run_bind h
          obtain ⟨hema, hnext, hframe⟩ := ih hloop
          have hfirst := hbody.step hstep
          rw [hfirst] at hema hnext
          have hwrite : Memory.Framed (Written destination weights ((name, average) :: items))
              p.memory first.memory := by
            rw [hfirst]
            exact Memory.framed_write _ _ ⟨(name, average), by simp, loc, hget, rfl⟩
          refine ⟨hema, hnext, hwrite.trans (hframe.mono ?_)⟩
          rintro cell ⟨item, hitem, hcell⟩
          exact ⟨item, List.mem_cons_of_mem _ hitem, hcell⟩

/-- Averages in cells of their own, with the student's tensors elsewhere: each has
exactly one step of its own. -/
theorem forAverages_lerp (hops : KeepsAllShapes α) {weight : ℚ} {items : List (ι × Nat)}
    {p q : EmaProcess ι α} {u : Unit} (hnodup : (items.map Prod.snd).Nodup)
    (hlive : ∀ item ∈ items, item.2 < p.memory.next)
    (hapart : ∀ item ∈ items, ∀ loc, weights.get? item.1 = some loc → loc ∉ items.map Prod.snd)
    (h : forAverages weights (fun average value => lerpCell average value weight) items p =
      .ok u q) :
    ∀ item ∈ items, ∀ loc, weights.get? item.1 = some loc →
      q.memory.cell item.2 = lerped weight p.memory item.2 loc := by
  induction items generalizing p with
  | nil => simp
  | cons item items ih =>
      obtain ⟨name, average⟩ := item
      obtain ⟨hnew, hrest⟩ := List.nodup_cons.mp hnodup
      rw [forAverages] at h
      cases hget : weights.get? name with
      | none =>
          rw [hget] at h
          cases h
      | some loc =>
          rw [hget] at h
          obtain ⟨⟨⟩, first, hstep, hloop⟩ := run_bind h
          have hfirst := (lerpCell_inPlace hops weight).step hstep
          have hkept : ∀ cell, cell ≠ average → first.memory.cell cell = p.memory.cell cell := by
            intro cell hne
            rw [hfirst]
            exact Memory.write_of_ne _ _ hne
          have hframe := (forAverages_frame (lerpCell_inPlace hops weight) hloop).2.2
          intro item hitem value hvalue
          rcases List.mem_cons.mp hitem with rfl | hmem
          · obtain rfl : loc = value := Option.some.inj (hget.symm.trans hvalue)
            have hout : ¬ Written (fun average _ => average) weights items average := by
              rintro ⟨other, hother, _, _, heq⟩
              have hin : other.2 ∈ items.map Prod.snd := List.mem_map_of_mem hother
              exact hnew (heq ▸ hin)
            rw [hframe.cell average (by rw [hfirst]; exact hlive _ hitem) hout, hfirst]
            exact Memory.write_self _ _ _
          · have hin : item.2 ∈ items.map Prod.snd := List.mem_map_of_mem hmem
            have haverage : item.2 ≠ average := fun heq => hnew (heq ▸ hin)
            have hsource : value ≠ average := fun heq =>
              hapart item hitem value hvalue (heq ▸ List.mem_cons_self)
            rw [ih hrest (fun other hother => by rw [hfirst]; exact hlive other (by simp [hother]))
              (fun other hother loc hloc hin => hapart other (by simp [hother]) loc hloc
                (List.mem_cons_of_mem _ hin)) hloop item hmem value hvalue]
            unfold lerped
            rw [hkept item.2 haverage, hkept value hsource]

/-! ## One call -/

/-- Averages in allocated cells of their own, in FP32. -/
structure OwnsAverages (p : EmaProcess ι α) : Prop where
  live : ∀ loc ∈ p.ema.tensors.cells, loc < p.memory.next
  nodup : p.ema.tensors.cells.Nodup
  float32 : ∀ loc ∈ p.ema.tensors.cells, (p.memory.cell loc).1 = .float32

/-- Tensors of the caller: allocated, and none of them an average. -/
def Foreign (p : EmaProcess ι α) (d : Dict ι) : Prop :=
  ∀ loc ∈ d.cells, loc < p.memory.next ∧ loc ∉ p.ema.tensors.cells

omit [DecidableEq ι] [ToString ι] [TensorOps α] in
theorem OwnsAverages.frame {p : EmaProcess ι α} (h : OwnsAverages p)
    {memory : Memory (DType × α)} (hnext : p.memory.next ≤ memory.next)
    (hcell : ∀ loc ∈ p.ema.tensors.cells, memory.cell loc = p.memory.cell loc) :
    OwnsAverages { p with memory } where
  live loc hloc := Nat.lt_of_lt_of_le (h.live loc hloc) hnext
  nodup := h.nodup
  float32 loc hloc := by
    show (memory.cell loc).1 = _
    rw [hcell loc hloc]
    exact h.float32 loc hloc

omit [ToString ι] [TensorOps α] in
/-- What is held is in the averages' cells. -/
theorem holds_frame {p : EmaProcess ι α} {memory : Memory (DType × α)}
    (hcell : ∀ loc ∈ p.ema.tensors.cells, memory.cell loc = p.memory.cell loc) :
    ({ p with memory } : EmaProcess ι α).holds = p.holds := by
  refine congrArg (OpsdEma.mk p.ema.decay p.ema.updates) (funext fun name => ?_)
  cases hget : p.ema.tensors.get? name with
  | none => rfl
  | some loc => exact congrArg (fun cell => some cell.2) (hcell loc (Dict.mem_cells_of_get? hget))

omit [ToString ι] [TensorOps α] [DecidableEq ι] in
theorem mem_cells {d : Dict ι} {loc : Nat} : loc ∈ d.cells ↔ ∃ item ∈ d.items, item.2 = loc :=
  List.mem_map

/-- `update` raises from validation, or writes its averages and counts. -/
theorem update_call (hops : KeepsAllShapes α) (p : EmaProcess ι α) (student : Dict ι) :
    (∃ error, p.validate student = .error error ∧
      EmaProcess.update student p = .error error p) ∨
    (p.validate student = .ok ⟨⟩ ∧ ∃ q,
      forAverages student (fun average value => lerpCell average value (1 - p.ema.decay))
        p.ema.tensors.items p = .ok ⟨⟩ q ∧
      EmaProcess.update student p =
        .ok ⟨⟩ { q with ema := { q.ema with updates := q.ema.updates + 1 } }) := by
  cases hvalid : p.validate student with
  | error error =>
      refine Or.inl ⟨error, rfl, ?_⟩
      unfold EmaProcess.update
      rw [bind_of_ok get_run, hvalid]
      exact bind_of_error lift_error
  | ok u =>
      obtain ⟨q, hloop⟩ := forAverages_returns (lerpCell_inPlace hops (1 - p.ema.decay))
        (validate_shapes hvalid)
      refine Or.inr ⟨rfl, q, hloop, ?_⟩
      unfold EmaProcess.update
      rw [bind_of_ok get_run, hvalid, bind_of_ok lift_ok, bind_of_ok hloop]
      rfl

/-- `publish` raises from validation, or writes its scoring tensors. -/
theorem publish_call (hops : KeepsAllShapes α) (p : EmaProcess ι α) (scoring : Dict ι) :
    (∃ error, p.validate scoring = .error error ∧
      EmaProcess.publish scoring p = .error error p) ∨
    (p.validate scoring = .ok ⟨⟩ ∧ ∃ q,
      forAverages scoring (fun average destination => copyCell destination average)
        p.ema.tensors.items p = .ok ⟨⟩ q ∧ EmaProcess.publish scoring p = .ok ⟨⟩ q) := by
  cases hvalid : p.validate scoring with
  | error error =>
      refine Or.inl ⟨error, rfl, ?_⟩
      unfold EmaProcess.publish
      rw [bind_of_ok get_run, hvalid]
      exact bind_of_error lift_error
  | ok u =>
      obtain ⟨q, hloop⟩ := forAverages_returns (copyCell_inPlace hops) (validate_shapes hvalid)
      refine Or.inr ⟨rfl, q, hloop, ?_⟩
      unfold EmaProcess.publish
      rw [bind_of_ok get_run, hvalid, bind_of_ok lift_ok]
      exact hloop

/-- `publish` writes to the scoring tensors and to nothing else. -/
theorem publish_frame (hops : KeepsAllShapes α) {p q : EmaProcess ι α} {scoring : Dict ι}
    (h : EmaProcess.publish scoring p = .ok ⟨⟩ q) :
    q.ema = p.ema ∧ q.memory.next = p.memory.next ∧
      Memory.Framed (· ∈ scoring.cells) p.memory q.memory := by
  rcases publish_call hops p scoring with ⟨error, -, hcall⟩ | ⟨-, r, hloop, hcall⟩
  · rw [hcall] at h
    cases h
  · rw [hcall] at h
    cases h
    obtain ⟨hema, hnext, hframe⟩ := forAverages_frame (copyCell_inPlace hops) hloop
    refine ⟨hema, hnext, hframe.mono ?_⟩
    rintro loc ⟨item, -, value, hget, rfl⟩
    exact Dict.mem_cells_of_get? hget

/-- An accepted `update` is one step of the pure accumulator. -/
theorem update_accumulates (hops : KeepsAllShapes α) {p q : EmaProcess ι α} {student : Dict ι}
    (howns : OwnsAverages p) (hforeign : Foreign p student)
    (h : EmaProcess.update student p = .ok ⟨⟩ q) :
    OwnsAverages q ∧ q.ema.tensors = p.ema.tensors ∧
      q.holds = p.holds.accumulate (tensorsOf p.memory student) := by
  rcases update_call hops p student with ⟨error, -, hcall⟩ | ⟨hvalid, r, hloop, hcall⟩
  · rw [hcall] at h
    cases h
  · rw [hcall] at h
    cases h
    obtain ⟨hema, hnext, -⟩ := forAverages_frame (lerpCell_inPlace hops _) hloop
    have hvalue := forAverages_lerp hops howns.nodup
      (fun item hitem => howns.live item.2 (List.mem_map_of_mem hitem))
      (fun item _ loc hget => (hforeign loc (Dict.mem_cells_of_get? hget)).2) hloop
    have hsource := validate_shapes hvalid
    have htensors : r.ema.tensors = p.ema.tensors := congrArg EmaObject.tensors hema
    refine ⟨⟨?_, ?_, ?_⟩, htensors, ?_⟩
    · intro loc hloc
      have hloc' : loc ∈ p.ema.tensors.cells := htensors ▸ hloc
      exact hnext ▸ howns.live loc hloc'
    · show r.ema.tensors.cells.Nodup
      rw [htensors]
      exact howns.nodup
    · intro loc hloc
      have hloc' : loc ∈ p.ema.tensors.cells := htensors ▸ hloc
      obtain ⟨item, hitem, rfl⟩ := mem_cells.mp hloc'
      obtain ⟨value, hget, -⟩ := hsource item hitem
      show (r.memory.cell item.2).1 = _
      rw [hvalue item hitem value hget]
      exact howns.float32 _ hloc'
    · unfold EmaProcess.holds OpsdEma.accumulate
      simp only [hema]
      refine congrArg (OpsdEma.mk _ _) (funext fun name => ?_)
      cases hget : p.ema.tensors.get? name with
      | none => rfl
      | some loc =>
          have hitem := Dict.get?_eq_some.mp hget
          obtain ⟨value, hstudent, -⟩ := hsource (name, loc) hitem
          simp only [tensorsOf, hstudent, Option.map_some]
          rw [hvalue (name, loc) hitem value hstudent]
          rfl

/-- The process after `torch.load`, with a fresh cell for every tensor of the file. -/
def EmaFile.loaded (state : EmaFile ι α) (p : EmaProcess ι α) : Dict ι × EmaProcess ι α :=
  let (tensors, memory) := allocDict state.tensors state.nodup p.memory
  (tensors, { p with memory })

/-- What `load` asks of a file. -/
structure Loadable (p : EmaProcess ι α) (state : EmaFile ι α) (sha : String) (updates : Nat) :
    Prop where
  fork : state.decay = p.ema.decay ∧ state.studentSha256 = sha
  updates : state.updates = some (updates : Int)
  valid : (EmaFile.loaded state p).2.validate (EmaFile.loaded state p).1 = .ok ⟨⟩
  float32 : ∀ loc ∈ (EmaFile.loaded state p).1.cells,
    ((EmaFile.loaded state p).2.memory.cell loc).1 = .float32

theorem load_returns {p : EmaProcess ι α} {state : EmaFile ι α} {sha : String} {updates : Nat}
    (h : Loadable p state sha updates) :
    EmaProcess.load (some state) sha p =
      .ok ⟨⟩ { memory := (EmaFile.loaded state p).2.memory
               ema := { p.ema with tensors := (EmaFile.loaded state p).1, updates } } := by
  obtain ⟨hfork, hupdates, hvalid, hfloat⟩ := h
  have hcount : ∃ n ∈ state.updates, 0 ≤ n := ⟨updates, hupdates, Int.natCast_nonneg updates⟩
  unfold EmaProcess.load
  refine (bind_of_ok get_run).trans ?_
  refine (bind_of_ok modify_run).trans ?_
  refine (bind_of_ok (require_of hfork)).trans ?_
  refine (bind_of_ok (require_of hcount)).trans ?_
  refine (bind_of_ok get_run).trans ?_
  refine (bind_of_ok (a := ⟨⟩) (t := (EmaFile.loaded state p).2) ?_).trans ?_
  · exact (congrArg (fun x => lift x _) hvalid).trans lift_ok
  refine (bind_of_ok (require_of hfloat)).trans ?_
  rw [modify_run, hupdates]
  rfl

/-- `load` returns only what it may, and raises with nothing but its fresh cells. -/
theorem load_triple {p : EmaProcess ι α} {state : EmaFile ι α} {sha : String} :
    Triple (· = p) (EmaProcess.load (some state) sha)
      (fun _ _ => ∃ updates, Loadable p state sha updates)
      (fun _ s => s = (EmaFile.loaded state p).2) := by
  unfold EmaProcess.load
  refine triple_get_then (triple_modify_then ?_)
  refine triple_require_then (fun hfork => ?_) fun s h _ => h
  refine triple_require_then (fun hcount => ?_) fun s h _ => h
  refine triple_get_then ?_
  refine triple_lift_then (fun _ hvalid => ?_) fun _ s h _ => h
  refine triple_require_then (fun hfloat => ?_) fun s h _ => h
  obtain ⟨n, hn, hpos⟩ := hcount
  obtain ⟨updates, rfl⟩ := Int.eq_ofNat_of_zero_le hpos
  exact Triple.modify fun s _ => ⟨updates, hfork, hn, hvalid, hfloat⟩

/-- The three calls that may raise. -/
inductive EmaCall (ι α : Type) where
  | update (student : Dict ι)
  | publish (scoring : Dict ι)
  | load (file : Option (EmaFile ι α)) (studentSha256 : String)

def EmaCall.run : EmaCall ι α → EStateM PyError (EmaProcess ι α) Unit
  | .update student => EmaProcess.update student
  | .publish scoring => EmaProcess.publish scoring
  | .load file studentSha256 => EmaProcess.load file studentSha256

/-- A call that raises leaves the object and every tensor there was as they were. -/
theorem raised_unchanged (hops : KeepsAllShapes α) {call : EmaCall ι α} {p q : EmaProcess ι α}
    {error : PyError} (h : call.run p = .error error q) :
    q.ema = p.ema ∧ Memory.Framed (fun _ => False) p.memory q.memory := by
  cases call with
  | update student =>
      rcases update_call hops p student with ⟨error, -, hcall⟩ | ⟨-, r, -, hcall⟩ <;>
        cases hcall.symm.trans h
      exact ⟨rfl, .refl _⟩
  | publish scoring =>
      rcases publish_call hops p scoring with ⟨error, -, hcall⟩ | ⟨-, r, -, hcall⟩ <;>
        cases hcall.symm.trans h
      exact ⟨rfl, .refl _⟩
  | load file sha =>
      cases file with
      | none =>
          cases h
          exact ⟨rfl, .refl _⟩
      | some state =>
          have hload := @load_triple _ _ _ _ _ p state sha p rfl
          rw [show EmaProcess.load (some state) sha p = .error error q from h] at hload
          subst hload
          exact ⟨rfl, allocItems_framed state.tensors p.memory⟩

/-! ## Runs -/

/-- A process with an accumulator while its caller trains: it changes its own
tensors and makes new ones, calls `update` and `publish` with them, and goes on
after a call that raises. The list has what each accepted `update` was given. -/
inductive EmaRun (p : EmaProcess ι α) : List (NamedTensors ι α) → EmaProcess ι α → Prop
  | begin : EmaRun p [] p
  | caller {q : EmaProcess ι α} {snapshots : List (NamedTensors ι α)}
      {memory : Memory (DType × α)} :
      EmaRun p snapshots q →
      Memory.Framed (· ∉ q.ema.tensors.cells) q.memory memory →
      EmaRun p snapshots { q with memory }
  | update {q r : EmaProcess ι α} {snapshots : List (NamedTensors ι α)} {student : Dict ι} :
      EmaRun p snapshots q → Foreign q student → EmaProcess.update student q = .ok ⟨⟩ r →
      EmaRun p (snapshots ++ [tensorsOf q.memory student]) r
  | publish {q r : EmaProcess ι α} {snapshots : List (NamedTensors ι α)} {scoring : Dict ι} :
      EmaRun p snapshots q → Foreign q scoring → EmaProcess.publish scoring q = .ok ⟨⟩ r →
      EmaRun p snapshots r
  | raised {q r : EmaProcess ι α} {snapshots : List (NamedTensors ι α)} {call : EmaCall ι α}
      {error : PyError} :
      EmaRun p snapshots q → call.run q = .error error r → EmaRun p snapshots r

/-- A publish leaves what is held as it was. -/
theorem publish_holds (hops : KeepsAllShapes α) {p q : EmaProcess ι α} {scoring : Dict ι}
    (howns : OwnsAverages p) (hforeign : Foreign p scoring)
    (h : EmaProcess.publish scoring p = .ok ⟨⟩ q) :
    OwnsAverages q ∧ q.ema = p.ema ∧ q.holds = p.holds := by
  obtain ⟨hema, hnext, hframe⟩ := publish_frame hops h
  obtain ⟨memory, ema⟩ := q
  dsimp only at hema hnext hframe
  subst hema
  have hcell : ∀ loc ∈ p.ema.tensors.cells, memory.cell loc = p.memory.cell loc :=
    fun loc hloc => hframe.cell loc (howns.live loc hloc) fun hin => (hforeign loc hin).2 hloc
  exact ⟨howns.frame (Nat.le_of_eq hnext.symm) hcell, rfl, holds_frame hcell⟩

/-- The run lemma: what is held is the fold of the accepted snapshots. -/
theorem emaRun_holds (hops : KeepsAllShapes α) {p q : EmaProcess ι α}
    {snapshots : List (NamedTensors ι α)} (howns : OwnsAverages p) (h : EmaRun p snapshots q) :
    OwnsAverages q ∧ q.ema.tensors = p.ema.tensors ∧
      q.holds = snapshots.foldl OpsdEma.accumulate p.holds := by
  induction h with
  | begin => exact ⟨howns, rfl, rfl⟩
  | @caller q snapshots memory hrun hframe ih =>
      obtain ⟨howns, htensors, hholds⟩ := ih
      have hcell : ∀ loc ∈ q.ema.tensors.cells, memory.cell loc = q.memory.cell loc :=
        fun loc hloc => hframe.cell loc (howns.live loc hloc) fun hout => hout hloc
      exact ⟨howns.frame hframe.next hcell, htensors, (holds_frame hcell).trans hholds⟩
  | update hrun hforeign hcall ih =>
      obtain ⟨howns, htensors, hholds⟩ := ih
      obtain ⟨howns', htensors', hholds'⟩ := update_accumulates hops howns hforeign hcall
      refine ⟨howns', htensors'.trans htensors, ?_⟩
      rw [List.foldl_append, ← hholds, hholds']
      rfl
  | publish hrun hforeign hcall ih =>
      obtain ⟨howns, htensors, hholds⟩ := ih
      obtain ⟨howns', hema, hholds'⟩ := publish_holds hops howns hforeign hcall
      exact ⟨howns', hema ▸ htensors, hholds'.trans hholds⟩
  | @raised q r snapshots call error hrun hcall ih =>
      obtain ⟨howns, htensors, hholds⟩ := ih
      obtain ⟨hema, hframe⟩ := raised_unchanged hops hcall
      obtain ⟨memory, ema⟩ := r
      dsimp only at hema hframe
      subst hema
      have hcell : ∀ loc ∈ q.ema.tensors.cells, memory.cell loc = q.memory.cell loc :=
        fun loc hloc => hframe.cell loc (howns.live loc hloc) id
      exact ⟨howns.frame hframe.next hcell, htensors, (holds_frame hcell).trans hholds⟩

/-- Nothing is freed while a run lasts. -/
theorem emaRun_next (hops : KeepsAllShapes α) {p q : EmaProcess ι α}
    {snapshots : List (NamedTensors ι α)} (h : EmaRun p snapshots q) :
    p.memory.next ≤ q.memory.next := by
  induction h with
  | begin => exact Nat.le_refl _
  | caller hrun hframe ih => exact Nat.le_trans ih hframe.next
  | @update q r snapshots student hrun hforeign hcall ih =>
      rcases update_call hops q student with ⟨_, -, hraise⟩ | ⟨-, s, hloop, hreturn⟩
      · cases hraise.symm.trans hcall
      · cases hreturn.symm.trans hcall
        exact Nat.le_trans ih
          (Nat.le_of_eq (forAverages_frame (lerpCell_inPlace hops _) hloop).2.1.symm)
  | publish hrun hforeign hcall ih =>
      exact Nat.le_trans ih (Nat.le_of_eq (publish_frame hops hcall).2.1.symm)
  | raised hrun hcall ih => exact Nat.le_trans ih (raised_unchanged hops hcall).2.next

/-! ## Beginning and forking -/

/-- The averages an original begins with. -/
def beginning (original : NamedTensors ι α) (name : ι) : Option α :=
  match original name with
  | some (dtype, value) => if dtype.isFloating then some (TensorOps.toFloat32 value) else none
  | none => none

omit [ToString ι] in
theorem lookup_floatingClones {memory : Memory (DType × α)} {original : Dict ι} {name : ι} :
    (floatingClones original memory).lookup name =
      (beginning (tensorsOf memory original) name).map fun value => (.float32, value) := by
  have hmem : ∀ entry, (floatingClones original memory).lookup name = some entry ↔
      ∃ loc, original.get? name = some loc ∧ (memory.cell loc).1.isFloating = true ∧
        (DType.float32, TensorOps.toFloat32 (memory.cell loc).2) = entry := by
    intro entry
    rw [lookup_eq_some_iff_mem (floatingClones_nodup original memory)]
    unfold floatingClones Dict.entries
    simp only [List.filter_map, List.map_map, List.mem_map, List.mem_filter,
      Function.comp_apply, Prod.mk.injEq, Prod.exists, Dict.get?_eq_some]
    constructor
    · rintro ⟨_, loc, ⟨hitem, hfloating⟩, rfl, hentry⟩
      exact ⟨loc, hitem, hfloating, hentry⟩
    · rintro ⟨loc, hitem, hfloating, hentry⟩
      exact ⟨name, loc, ⟨hitem, hfloating⟩, rfl, hentry⟩
  refine Option.ext fun entry => (hmem entry).trans ?_
  unfold beginning tensorsOf
  cases hget : original.get? name with
  | none => simp
  | some loc =>
      rcases hcell : memory.cell loc with ⟨dtype, value⟩
      cases hfloating : dtype.isFloating <;> simp [hcell, hfloating]

/-- What a constructor leaves. -/
structure Begun (memory : Memory (DType × α)) (original : Dict ι) (decay : ℚ)
    (p : EmaProcess ι α) : Prop where
  decay_range : 0 ≤ decay ∧ decay < 1
  owns : OwnsAverages p
  holds : p.holds =
    { decay, updates := 0, tensors := beginning (tensorsOf memory original) }
  fresh : ∀ loc ∈ p.ema.tensors.cells, memory.next ≤ loc
  framed : Memory.Framed (fun _ => False) memory p.memory

omit [ToString ι] in
theorem begun_of_init {memory : Memory (DType × α)} {original : Dict ι} {decay : ℚ}
    {p : EmaProcess ι α} (h : EmaProcess.init memory original decay = .ok p) :
    Begun memory original decay p := by
  unfold EmaProcess.init at h
  simp only [except_bind_eq_ok, check_eq_ok, Except.ok.injEq] at h
  obtain ⟨-, hdecay, -, -, rfl⟩ := h
  have hnodup := floatingClones_nodup original memory
  have hread := fun name => @allocDict_read ι (DType × α) _ hnodup memory _ name
  simp only [lookup_floatingClones] at hread
  refine ⟨hdecay, ⟨fun loc hloc => (allocDict_fresh hnodup hloc).2, allocDict_nodup hnodup, ?_⟩,
    ?_, fun loc hloc => (allocDict_fresh hnodup hloc).1, allocItems_framed _ _⟩
  · intro loc hloc
    obtain ⟨⟨name, _⟩, hitem, rfl⟩ := mem_cells.mp hloc
    have hcell := hread name
    rw [Dict.get?_eq_some.mpr hitem, Option.map_some, eq_comm, Option.map_eq_some_iff] at hcell
    obtain ⟨value, -, hvalue⟩ := hcell
    exact congrArg Prod.fst hvalue.symm
  · refine congrArg (OpsdEma.mk decay 0) (funext fun name => ?_)
    have hcell := congrArg (Option.map Prod.snd) (hread name)
    rw [Option.map_map, Option.map_map] at hcell
    refine Eq.trans hcell ?_
    cases beginning (tensorsOf memory original) name <;> rfl

/-- What a snapshot has to have for every average. -/
def Accepts (ema : OpsdEma ι α) (snapshot : NamedTensors ι α) : Prop :=
  ∀ name average, ema.tensors name = some average → ∃ dtype value,
    snapshot name = some (dtype, value) ∧
    TensorOps.shape value = TensorOps.shape average ∧ TensorOps.isFinite value = true

omit [DecidableEq ι] [ToString ι] in
theorem accumulate_some {ema : OpsdEma ι α} {snapshot : NamedTensors ι α} {name : ι}
    {dtype : DType} {average value : α} (haverage : ema.tensors name = some average)
    (hsnapshot : snapshot name = some (dtype, value)) :
    (ema.accumulate snapshot).tensors name =
      some (TensorOps.lerp average (TensorOps.toFloat32 value) (1 - ema.decay)) := by
  simp only [OpsdEma.accumulate, haverage, hsnapshot]

omit [DecidableEq ι] [ToString ι] in
/-- Accumulating keeps the names and the shapes. -/
theorem accumulate_shapes (hops : KeepsAllShapes α) (ema : OpsdEma ι α)
    (snapshot : NamedTensors ι α) (name : ι) :
    ((ema.accumulate snapshot).tensors name).map TensorOps.shape =
      (ema.tensors name).map TensorOps.shape := by
  unfold OpsdEma.accumulate
  dsimp only
  split
  · next average dtype value haverage hsnapshot =>
      rw [haverage, Option.map_some, Option.map_some, hops.lerp]
  · rfl

omit [DecidableEq ι] [ToString ι] in
theorem foldl_accumulate_counts (ema : OpsdEma ι α) (snapshots : List (NamedTensors ι α)) :
    (snapshots.foldl OpsdEma.accumulate ema).decay = ema.decay ∧
      (snapshots.foldl OpsdEma.accumulate ema).updates = ema.updates + snapshots.length := by
  induction snapshots generalizing ema with
  | nil => exact ⟨rfl, rfl⟩
  | cons snapshot snapshots ih =>
      obtain ⟨hdecay, hupdates⟩ := ih (ema.accumulate snapshot)
      refine ⟨hdecay, hupdates.trans ?_⟩
      show ema.updates + 1 + snapshots.length = ema.updates + (snapshots.length + 1)
      omega

omit [DecidableEq ι] [ToString ι] in
theorem foldl_accumulate_shapes (hops : KeepsAllShapes α) (ema : OpsdEma ι α)
    (snapshots : List (NamedTensors ι α)) (name : ι) :
    ((snapshots.foldl OpsdEma.accumulate ema).tensors name).map TensorOps.shape =
      (ema.tensors name).map TensorOps.shape := by
  induction snapshots generalizing ema with
  | nil => rfl
  | cons snapshot snapshots ih => exact (ih _).trans (accumulate_shapes hops ema snapshot name)

omit [DecidableEq ι] [ToString ι] in
theorem Accepts.congr {ema ema' : OpsdEma ι α} {snapshot : NamedTensors ι α}
    (h : Accepts ema snapshot)
    (hshapes : ∀ name, (ema.tensors name).map TensorOps.shape =
      (ema'.tensors name).map TensorOps.shape) : Accepts ema' snapshot := by
  intro name average' haverage'
  have hshape := hshapes name
  rw [haverage', Option.map_some, Option.map_eq_some_iff] at hshape
  obtain ⟨average, haverage, heq⟩ := hshape
  obtain ⟨dtype, value, hsnapshot, hvalue, hfinite⟩ := h name average haverage
  exact ⟨dtype, value, hsnapshot, hvalue.trans heq, hfinite⟩

/-- Every snapshot of a run is one the first process accepts. -/
theorem emaRun_accepts (hops : KeepsAllShapes α) {p q : EmaProcess ι α}
    {snapshots : List (NamedTensors ι α)} (howns : OwnsAverages p) (h : EmaRun p snapshots q) :
    ∀ snapshot ∈ snapshots, Accepts p.holds snapshot := by
  induction h with
  | begin => simp
  | caller hrun hframe ih => exact ih
  | @update q r snapshots student hrun hforeign hcall ih =>
      intro snapshot hsnapshot
      rcases List.mem_append.mp hsnapshot with hmem | hlast
      · exact ih snapshot hmem
      · obtain rfl := List.mem_singleton.mp hlast
        obtain ⟨-, -, hholds⟩ := emaRun_holds hops howns hrun
        have haccepts : Accepts q.holds (tensorsOf q.memory student) := by
          intro name average haverage
          rcases update_call hops q student with ⟨_, -, hraise⟩ | ⟨hvalid, -⟩
          · cases hraise.symm.trans hcall
          obtain ⟨loc, hget, rfl⟩ := EmaProcess.holds_eq_some.mp haverage
          obtain ⟨value, hstudent, hshape, hfinite⟩ :=
            validate_items hvalid (name, loc) (Dict.get?_eq_some.mp hget)
          refine ⟨(q.memory.cell value).1, (q.memory.cell value).2, ?_, hshape, hfinite⟩
          unfold tensorsOf
          rw [hstudent]
          rfl
        refine haccepts.congr fun name => ?_
        rw [hholds]
        exact foldl_accumulate_shapes hops p.holds snapshots name
  | publish hrun hforeign hcall ih => exact ih
  | raised hrun hcall ih => exact ih

/-- A source loads wherever the averages have its names and shapes, and what is
held then is what was saved. -/
theorem load_save [Fintype ι] {p q : EmaProcess ι α} {sha : String} (hp : OwnsAverages p)
    (hq : OwnsAverages q) (hdecay : q.ema.decay = p.ema.decay)
    (hshapes : ∀ name, (q.holds.tensors name).map TensorOps.shape =
      (p.holds.tensors name).map TensorOps.shape)
    (hfinite : ∀ name average, q.holds.tensors name = some average →
      TensorOps.isFinite average = true) :
    ∃ r, EmaProcess.load (some (q.save sha)) sha p = .ok ⟨⟩ r ∧ OwnsAverages r ∧
      r.holds = q.holds := by
  let tensors := (EmaFile.loaded (q.save sha) p).1
  let loaded := (EmaFile.loaded (q.save sha) p).2
  have hread : ∀ name, tensorsOf loaded.memory tensors name =
      (q.holds.tensors name).map fun average => (.float32, average) := by
    intro name
    have hfresh : (tensors.get? name).map loaded.memory.cell =
        (q.ema.tensors.entries q.memory).lookup name :=
      allocDict_read (q.save sha).nodup name
    refine (hfresh.trans (q.ema.tensors.entries_lookup q.memory name)).trans ?_
    show _ = ((q.ema.tensors.get? name).map fun loc => (q.memory.cell loc).2).map _
    cases hget : q.ema.tensors.get? name with
    | none => rfl
    | some loc =>
        have hfloat := hq.float32 loc (Dict.mem_cells_of_get? hget)
        exact congrArg some (Prod.ext hfloat rfl)
  have hframed : Memory.Framed (fun _ => False) p.memory loaded.memory := allocItems_framed _ _
  have hholds : loaded.holds = p.holds :=
    holds_frame fun loc hloc => hframed.cell loc (hp.live loc hloc) id
  have hfloat : ∀ loc ∈ tensors.cells, (loaded.memory.cell loc).1 = .float32 := by
    intro loc hloc
    obtain ⟨⟨name, _⟩, hitem, rfl⟩ := mem_cells.mp hloc
    have hcell := hread name
    unfold tensorsOf at hcell
    rw [Dict.get?_eq_some.mpr hitem, Option.map_some, eq_comm, Option.map_eq_some_iff] at hcell
    obtain ⟨value, -, hvalue⟩ := hcell
    exact congrArg Prod.fst hvalue.symm
  have hnames : ∀ name, isFloatingName (tensorsOf loaded.memory tensors) name =
      (p.holds.tensors name).isSome := by
    intro name
    have hsome := congrArg Option.isSome (hshapes name)
    rw [Option.isSome_map, Option.isSome_map] at hsome
    unfold isFloatingName
    rw [hread, ← hsome]
    cases q.holds.tensors name <;> rfl
  have hmatches : ∀ name, ∀ average ∈ p.holds.tensors name,
      matchesAverage (tensorsOf loaded.memory tensors) name average = true := by
    intro name average haverage
    have hshape := hshapes name
    rw [haverage, Option.map_some, Option.map_eq_some_iff] at hshape
    obtain ⟨saved, hsaved, heq⟩ := hshape
    unfold matchesAverage
    rw [hread, hsaved]
    simp [heq, hfinite name saved hsaved]
  have hvalid : loaded.validate tensors = .ok ⟨⟩ := by
    rw [validate_eq, hholds]
    unfold OpsdEma.validate
    rw [check_of hnames, except_ok_bind, check_of hmatches]
  refine ⟨_, load_returns ⟨⟨hdecay, rfl⟩, rfl, hvalid, hfloat⟩,
    ⟨?_, allocDict_nodup (q.save sha).nodup, hfloat⟩, ?_⟩
  · exact fun loc hloc => (allocDict_fresh (q.save sha).nodup hloc).2
  · unfold EmaProcess.holds
    rw [hdecay]
    refine congrArg (OpsdEma.mk _ _) (funext fun name => ?_)
    have hcell := congrArg (Option.map Prod.snd) (hread name)
    unfold tensorsOf at hcell
    rw [Option.map_map, Option.map_map] at hcell
    refine Eq.trans hcell ?_
    show _ = q.holds.tensors name
    cases q.holds.tensors name <;> rfl

end Calls

/-! ## Exact arithmetic -/

section Exact

/-- A tensor of exact numbers, by its flat index; `none` is what is not finite. -/
structure ExactTensor where
  shape : List Nat
  entry : Nat → Option ℚ

instance exactTensors : TensorOps ExactTensor where
  shape := ExactTensor.shape
  isFinite t := decide (∀ k < t.shape.prod, (t.entry k).isSome = true)
  toFloat32 t := t
  lerp average value weight :=
    { average with
      entry := fun k => do
        let x ← average.entry k
        let y ← value.entry k
        some (x + weight * (y - x)) }
  castTo _ t := t

theorem exact_keepsAllShapes : KeepsAllShapes ExactTensor where
  toFloat32 _ := rfl
  lerp _ _ _ := rfl
  castTo _ _ := rfl

/-- `decay ** n * original + (1 - decay) * sum(decay ** (n - i) * s_i)`. -/
def closedForm (decay : ℚ) (start : ℚ) (values : List ℚ) : ℚ :=
  decay ^ values.length * start +
    (1 - decay) * ∑ i ∈ Finset.range values.length,
      decay ^ (values.length - 1 - i) * values.getD i 0

theorem closedForm_append (decay start value : ℚ) (values : List ℚ) :
    closedForm decay start (values ++ [value]) =
      closedForm decay start values + (1 - decay) * (value - closedForm decay start values) := by
  have hsum : ∑ i ∈ Finset.range values.length,
      decay ^ ((values ++ [value]).length - 1 - i) * (values ++ [value]).getD i 0 =
      decay * ∑ i ∈ Finset.range values.length,
        decay ^ (values.length - 1 - i) * values.getD i 0 := by
    rw [Finset.mul_sum]
    refine Finset.sum_congr rfl fun i hi => ?_
    have hlt := Finset.mem_range.mp hi
    have hpow : (values ++ [value]).length - 1 - i = values.length - 1 - i + 1 := by
      rw [List.length_append, List.length_singleton]
      omega
    rw [hpow, pow_succ, List.getD_append _ _ _ _ hlt]
    ring
  unfold closedForm
  rw [List.length_append, List.length_singleton, Finset.sum_range_succ]
  rw [List.length_append, List.length_singleton] at hsum
  rw [hsum, List.getD_append_right _ _ _ _ (Nat.le_refl _)]
  simp only [Nat.add_sub_cancel, Nat.sub_self, pow_zero, List.getD_cons_zero, pow_succ]
  ring

variable {ι : Type}

/-- An entry of a snapshot. -/
def snapshotEntry (name : ι) (k : Nat) (snapshot : NamedTensors ι ExactTensor) : ℚ :=
  ((snapshot name).bind fun tensor => tensor.2.entry k).getD 0

/-- The fold in closed form, entry by entry. -/
theorem foldl_accumulate_exact {ema : OpsdEma ι ExactTensor}
    {snapshots : List (NamedTensors ι ExactTensor)}
    (haccepts : ∀ snapshot ∈ snapshots, Accepts ema snapshot) {name : ι} {start : ExactTensor}
    (hstart : ema.tensors name = some start) :
    ∃ average, (snapshots.foldl OpsdEma.accumulate ema).tensors name = some average ∧
      average.shape = start.shape ∧ ∀ k < start.shape.prod, average.entry k =
        (start.entry k).map fun x =>
          closedForm ema.decay x (snapshots.map (snapshotEntry name k)) := by
  induction snapshots using List.reverseRecOn with
  | nil =>
      refine ⟨start, hstart, rfl, fun k _ => ?_⟩
      cases start.entry k <;> simp [closedForm]
  | append_singleton snapshots snapshot ih =>
      obtain ⟨average, haverage, hshape, hentry⟩ :=
        ih fun other hother => haccepts other (List.mem_append_left _ hother)
      obtain ⟨dtype, value, hsnapshot, hvalue, hfinite⟩ :=
        haccepts snapshot (by simp) name start hstart
      have hdecay := (foldl_accumulate_counts ema snapshots).1
      refine ⟨TensorOps.lerp average value (1 - ema.decay), ?_, hshape, fun k hk => ?_⟩
      · rw [List.foldl_append]
        exact (accumulate_some haverage hsnapshot).trans (by rw [hdecay]; rfl)
      · have hsome := of_decide_eq_true hfinite k
          (Nat.lt_of_lt_of_eq hk (congrArg List.prod hvalue).symm)
        obtain ⟨y, hy⟩ := Option.isSome_iff_exists.mp hsome
        have hlast : snapshotEntry name k snapshot = y := by
          unfold snapshotEntry
          rw [hsnapshot, Option.bind_some, hy]
          rfl
        rw [List.map_append, List.map_singleton, hlast]
        simp only [closedForm_append]
        show (average.entry k).bind _ = _
        rw [hentry k hk, hy]
        cases start.entry k <;> rfl

variable [DecidableEq ι] [ToString ι]

/-- What an accumulator holds after an original and a list of snapshots. -/
structure HoldsClosedForm (original : NamedTensors ι ExactTensor) (decay : ℚ)
    (snapshots : List (NamedTensors ι ExactTensor)) (p : EmaProcess ι ExactTensor) : Prop where
  updates : p.ema.updates = snapshots.length
  names : ∀ name, (p.holds.tensors name).isSome = (beginning original name).isSome
  entries : ∀ name start, beginning original name = some start →
    ∃ average, p.holds.tensors name = some average ∧ average.shape = start.shape ∧
      ∀ k < start.shape.prod, average.entry k = (start.entry k).map fun x =>
        closedForm decay x (snapshots.map (snapshotEntry name k))

omit [ToString ι] in
/-- A process that holds the fold of a beginning holds its closed form. -/
theorem holdsClosedForm_of_foldl {original : NamedTensors ι ExactTensor} {decay : ℚ}
    {snapshots : List (NamedTensors ι ExactTensor)} {p : EmaProcess ι ExactTensor}
    (haccepts : ∀ snapshot ∈ snapshots,
      Accepts { decay, updates := 0, tensors := beginning original } snapshot)
    (hholds : p.holds = snapshots.foldl OpsdEma.accumulate
      { decay, updates := 0, tensors := beginning original }) :
    HoldsClosedForm original decay snapshots p where
  updates := by
    have hcount := (foldl_accumulate_counts
      { decay, updates := 0, tensors := beginning original } snapshots).2
    rw [← hholds] at hcount
    exact hcount.trans (Nat.zero_add _)
  names name := by
    have hshape := foldl_accumulate_shapes exact_keepsAllShapes
      { decay, updates := 0, tensors := beginning original } snapshots name
    rw [← hholds] at hshape
    have hsome := congrArg Option.isSome hshape
    rwa [Option.isSome_map, Option.isSome_map] at hsome
  entries name start hstart := by
    rw [hholds]
    exact foldl_accumulate_exact haccepts hstart

omit [ToString ι] in
/-- Finite originals and snapshots have finite averages. -/
theorem HoldsClosedForm.finite {original : NamedTensors ι ExactTensor} {decay : ℚ}
    {snapshots : List (NamedTensors ι ExactTensor)} {p : EmaProcess ι ExactTensor}
    (h : HoldsClosedForm original decay snapshots p)
    (hfinite : ∀ name start, beginning original name = some start →
      TensorOps.isFinite start = true) :
    ∀ name average, p.holds.tensors name = some average → TensorOps.isFinite average = true := by
  intro name average haverage
  have hsome := h.names name
  rw [haverage, Option.isSome_some, eq_comm, Option.isSome_iff_exists] at hsome
  obtain ⟨start, hstart⟩ := hsome
  obtain ⟨average', haverage', hshape, hentry⟩ := h.entries name start hstart
  obtain rfl := Option.some.inj (haverage.symm.trans haverage')
  refine decide_eq_true fun k hk => ?_
  rw [hshape] at hk
  rw [hentry k hk, Option.isSome_map]
  exact of_decide_eq_true (hfinite name start hstart) k hk

theorem emaRun_closedForm {memory : Memory (DType × ExactTensor)} {original : Dict ι} {decay : ℚ}
    {p q : EmaProcess ι ExactTensor} {snapshots : List (NamedTensors ι ExactTensor)}
    (hinit : EmaProcess.init memory original decay = .ok p) (hrun : EmaRun p snapshots q) :
    HoldsClosedForm (tensorsOf memory original) decay snapshots q := by
  have hbegun := begun_of_init hinit
  have haccepts := emaRun_accepts exact_keepsAllShapes hbegun.owns hrun
  obtain ⟨-, -, hholds⟩ := emaRun_holds exact_keepsAllShapes hbegun.owns hrun
  rw [hbegun.holds] at haccepts hholds
  exact holdsClosedForm_of_foldl haccepts hholds

/-- Saving, loading into a fresh accumulator of the same original, and going on. -/
theorem emaRun_fork [Fintype ι] {memory memory' : Memory (DType × ExactTensor)}
    {original original' : Dict ι} {decay : ℚ} {p p' q : EmaProcess ι ExactTensor}
    {snapshots : List (NamedTensors ι ExactTensor)} {sha : String}
    (hinit : EmaProcess.init memory original decay = .ok p)
    (hinit' : EmaProcess.init memory' original' decay = .ok p')
    (hsame : tensorsOf memory' original' = tensorsOf memory original)
    (hfinite : ∀ name start, beginning (tensorsOf memory original) name = some start →
      TensorOps.isFinite start = true)
    (hrun : EmaRun p snapshots q) :
    ∃ r, EmaProcess.load (some (q.save sha)) sha p' = .ok ⟨⟩ r ∧ r.holds = q.holds ∧
      ∀ later t, EmaRun r later t →
        HoldsClosedForm (tensorsOf memory original) decay (snapshots ++ later) t ∧
          t.holds = later.foldl OpsdEma.accumulate r.holds := by
  have hbegun := begun_of_init hinit
  have hbegun' := begun_of_init hinit'
  obtain ⟨howns, -, hholds⟩ := emaRun_holds exact_keepsAllShapes hbegun.owns hrun
  have haccepts := emaRun_accepts exact_keepsAllShapes hbegun.owns hrun
  have hshapes := foldl_accumulate_shapes exact_keepsAllShapes p.holds snapshots
  have hcounts := foldl_accumulate_counts p.holds snapshots
  rw [← hholds] at hshapes hcounts
  have hstart : p'.holds = p.holds := by
    rw [hbegun.holds, hbegun'.holds, hsame]
  obtain ⟨r, hload, hr, hheld⟩ : ∃ r, EmaProcess.load (some (q.save sha)) sha p' = .ok ⟨⟩ r ∧
      OwnsAverages r ∧ r.holds = q.holds :=
    load_save hbegun'.owns howns (hcounts.1.trans (congrArg OpsdEma.decay hstart).symm)
      (fun name => hstart ▸ hshapes name) ((emaRun_closedForm hinit hrun).finite hfinite)
  refine ⟨r, hload, hheld, fun later t hlater => ?_⟩
  obtain ⟨-, -, hholds'⟩ := emaRun_holds exact_keepsAllShapes hr hlater
  have haccepts' := emaRun_accepts exact_keepsAllShapes hr hlater
  refine ⟨?_, hholds'⟩
  rw [hheld] at hholds' haccepts'
  refine holdsClosedForm_of_foldl (fun snapshot hsnapshot => ?_) ?_
  · rw [← hbegun.holds]
    rcases List.mem_append.mp hsnapshot with hbefore | hafter
    · exact haccepts snapshot hbefore
    · exact (haccepts' snapshot hafter).congr hshapes
  · rw [hholds', hholds, ← hbegun.holds, List.foldl_append]

end Exact

/-- In exact arithmetic a run holds its closed form, and so does every run that was
saved and loaded on the way. On any kernels a publish of the caller's tensors
changes only those, and a call that raises changes nothing. -/
theorem ema_algebra {ι α : Type} [DecidableEq ι] [ToString ι] [Fintype ι] [TensorOps α]
    (hops : KeepsAllShapes α) :
    (∀ (memory : Memory (DType × ExactTensor)) (original : Dict ι) (decay : ℚ)
        (p q : EmaProcess ι ExactTensor) snapshots,
      EmaProcess.init memory original decay = .ok p → EmaRun p snapshots q →
        HoldsClosedForm (tensorsOf memory original) decay snapshots q ∧
        ∀ (memory' : Memory (DType × ExactTensor)) (original' : Dict ι) p' sha,
          EmaProcess.init memory' original' decay = .ok p' →
          tensorsOf memory' original' = tensorsOf memory original →
          (∀ name start, beginning (tensorsOf memory original) name = some start →
            TensorOps.isFinite start = true) →
          ∃ r, EmaProcess.load (some (q.save sha)) sha p' = .ok ⟨⟩ r ∧ r.holds = q.holds ∧
            ∀ later t, EmaRun r later t →
              HoldsClosedForm (tensorsOf memory original) decay (snapshots ++ later) t ∧
              ∀ whole, EmaRun p (snapshots ++ later) whole → t.holds = whole.holds) ∧
    (∀ (memory : Memory (DType × α)) (original : Dict ι) decay (p q r : EmaProcess ι α)
        snapshots scoring,
      EmaProcess.init memory original decay = .ok p → EmaRun p snapshots q →
      Foreign q scoring → EmaProcess.publish scoring q = .ok ⟨⟩ r →
        r.ema = q.ema ∧ r.holds = q.holds ∧
        (∀ loc < q.memory.next, loc ∉ scoring.cells → r.memory.cell loc = q.memory.cell loc) ∧
        ((∀ loc ∈ original.cells, loc < memory.next ∧ loc ∉ scoring.cells) →
          tensorsOf r.memory original = tensorsOf q.memory original)) ∧
    (∀ (call : EmaCall ι α) (q r : EmaProcess ι α) error, call.run q = .error error r →
      r.ema = q.ema ∧ ∀ loc < q.memory.next, r.memory.cell loc = q.memory.cell loc) := by
  refine ⟨?_, ?_, ?_⟩
  · intro memory original decay p q snapshots hinit hrun
    refine ⟨emaRun_closedForm hinit hrun, fun memory' original' p' sha hinit' hsame hfinite => ?_⟩
    obtain ⟨r, hload, hheld, hlater⟩ :=
      @emaRun_fork ι _ _ _ _ _ _ _ _ _ _ _ _ sha hinit hinit' hsame hfinite hrun
    refine ⟨r, hload, hheld, fun later t ht => ⟨(hlater later t ht).1, fun whole hwhole => ?_⟩⟩
    have howns := (begun_of_init hinit).owns
    rw [(emaRun_holds exact_keepsAllShapes howns hwhole).2.2, List.foldl_append,
      ← (emaRun_holds exact_keepsAllShapes howns hrun).2.2, ← hheld]
    exact (hlater later t ht).2
  · intro memory original decay p q r snapshots scoring hinit hrun hforeign hcall
    have hbegun := begun_of_init hinit
    obtain ⟨howns, -, -⟩ := emaRun_holds hops hbegun.owns hrun
    obtain ⟨-, hema, hholds⟩ := publish_holds hops howns hforeign hcall
    obtain ⟨-, -, hframe⟩ := publish_frame hops hcall
    have hnext := Nat.le_trans hbegun.framed.next (emaRun_next hops hrun)
    refine ⟨hema, hholds, hframe.cell, fun hapart => funext fun name => ?_⟩
    unfold tensorsOf
    cases hget : original.get? name with
    | none => rfl
    | some loc =>
        obtain ⟨hlive, hout⟩ := hapart loc (Dict.mem_cells_of_get? hget)
        exact congrArg some (hframe.cell loc (Nat.lt_of_lt_of_le hlive hnext) hout)
  · intro call q r error hcall
    obtain ⟨hema, hframe⟩ := raised_unchanged hops hcall
    exact ⟨hema, fun loc hlive => hframe.cell loc hlive id⟩

/-- One parameter of one value, named by the cell it is in. -/
def scalarParameter (loc : Nat) : Dict (Fin 1) := { items := [(Fin.last 0, loc)], nodup := by simp }

/-- A memory of two scalars: an original of 3, and a student at 5. -/
def scalarMemory : Memory (DType × ExactTensor) :=
  { cell := fun loc =>
      (.float32, { shape := [1], entry := fun _ => if loc = 0 then some 3 else some 5 })
    next := 2 }

theorem ema_algebra_scalar :
    ∃ p q, EmaProcess.init scalarMemory (scalarParameter 0) (1 / 2) = .ok p ∧
      EmaRun p [tensorsOf p.memory (scalarParameter 1)] q ∧
      HoldsClosedForm (tensorsOf scalarMemory (scalarParameter 0)) (1 / 2)
        [tensorsOf p.memory (scalarParameter 1)] q := by
  obtain ⟨hclosed, -, -⟩ := @ema_algebra (Fin 1) ExactTensor _ _ _ _ exact_keepsAllShapes
  let p : EmaProcess (Fin 1) ExactTensor :=
    { memory := (scalarMemory.alloc (.float32, { shape := [1], entry := fun _ => some 3 })).2
      ema := { decay := 1 / 2, updates := 0, tensors := scalarParameter 2 } }
  have hinit : EmaProcess.init scalarMemory (scalarParameter 0) (1 / 2) = .ok p := by
    unfold EmaProcess.init
    rw [check_of (by norm_num)]
    rfl
  have hvalid : p.validate (scalarParameter 1) = .ok ⟨⟩ := rfl
  have hforeign : Foreign p (scalarParameter 1) := by
    intro loc hloc
    obtain rfl := List.mem_singleton.mp hloc
    exact ⟨by decide, by decide⟩
  rcases update_call exact_keepsAllShapes p (scalarParameter 1) with
    ⟨error, hraise, -⟩ | ⟨-, q, -, hcall⟩
  · cases hvalid.symm.trans hraise
  · have hrun := EmaRun.update .begin hforeign hcall
    exact ⟨p, _, hinit, hrun, (hclosed _ _ _ _ _ _ hinit hrun).1⟩

end Crisp.Proofs
