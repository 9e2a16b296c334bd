import Crisp.Lib.Cells
import Crisp.Ref.Weights

/-!
# The EMA accumulator in place

`OPSDEMA` over the cells its tensors are in. The constructor clones, `update` and
`publish` overwrite tensors one name after the other, and `load` rebinds the
dictionary to the tensors it has read; which tensor shares a cell with which is
up to the caller. What such an object holds is the `OpsdEma` of the weights module.
-/

namespace Crisp.Ref

open Crisp.Lib

section Ema

variable {ι α : Type} [DecidableEq ι] [ToString ι] [TensorOps α]

/-- The attributes of an `OPSDEMA`. -/
structure EmaObject (ι : Type) where
  decay : ℚ
  updates : Nat
  tensors : Dict ι

/-- A process with one: its tensors, by dtype and contents, and the object. -/
structure EmaProcess (ι α : Type) where
  memory : Memory (DType × α)
  ema : EmaObject ι

/-- The entries that are floating, each cloned into FP32. -/
def floatingClones (d : Dict ι) (memory : Memory (DType × α)) : List (ι × (DType × α)) :=
  ((d.entries memory).filter fun entry => entry.2.1.isFloating).map fun entry =>
    (entry.1, (.float32, TensorOps.toFloat32 entry.2.2))

omit [DecidableEq ι] [ToString ι] in
theorem floatingClones_nodup (d : Dict ι) (memory : Memory (DType × α)) :
    ((floatingClones d memory).map Prod.fst).Nodup := by
  have hsub : (((d.entries memory).filter fun entry => entry.2.1.isFloating).map
      Prod.fst).Sublist (d.items.map Prod.fst) := by
    rw [← Dict.entries_keys d memory]
    exact List.filter_sublist.map Prod.fst
  unfold floatingClones
  rw [List.map_map]
  exact hsub.nodup d.nodup

/-- `OPSDEMA.__init__`. -/
def EmaProcess.init (memory : Memory (DType × α)) (original : Dict ι) (decay : ℚ) :
    Except PyError (EmaProcess ι α) := do
  check (0 ≤ decay ∧ decay < 1) (valueError "EMA decay must be finite and in [0, 1)")
  let (tensors, memory) :=
    allocDict (floatingClones original memory) (floatingClones_nodup original memory) memory
  check (tensors.items ≠ []) (valueError "EMA requires floating model tensors")
  .ok { memory, ema := { decay, updates := 0, tensors } }

/-- One iteration of the loop of `_validate`. -/
def EmaProcess.validateItem (p : EmaProcess ι α) (weights : Dict ι) (item : ι × Nat) :
    Except PyError Unit :=
  match weights.get? item.1 with
  | none => .error (keyError (toString item.1))
  | some loc =>
      check (TensorOps.shape (p.memory.cell loc).2 = TensorOps.shape (p.memory.cell item.2).2 ∧
          TensorOps.isFinite (p.memory.cell loc).2 = true)
        (valueError "EMA requires matching shapes and finite parameters")

/-- `OPSDEMA._validate`. -/
def EmaProcess.validate (p : EmaProcess ι α) (weights : Dict ι) : Except PyError Unit := do
  let floating := ((weights.entries p.memory).filter fun entry => entry.2.1.isFloating).map
    Prod.fst
  check ((∀ name ∈ floating, name ∈ p.ema.tensors.keys) ∧
      ∀ name ∈ p.ema.tensors.keys, name ∈ floating)
    (valueError "EMA parameter names changed")
  p.ema.tensors.items.forM (p.validateItem weights)

/-- What an in-place operation raises when its operand has another shape. A shape
that would broadcast does not get past `_validate` either. -/
def sizeMismatch : PyError :=
  runtimeError "The size of tensor a must match the size of tensor b"

/-- `average.lerp_(value.to(torch.float32), weight)`. -/
def lerpCell (average value : Nat) (weight : ℚ) :
    EStateM PyError (EmaProcess ι α) Unit := do
  let p ← get
  let operand := TensorOps.toFloat32 (p.memory.cell value).2
  require (TensorOps.shape operand = TensorOps.shape (p.memory.cell average).2) sizeMismatch
  modify fun p =>
    { p with
      memory := p.memory.write average
        ((p.memory.cell average).1, TensorOps.lerp (p.memory.cell average).2 operand weight) }

/-- `destination.copy_(source)`. -/
def copyCell (destination source : Nat) : EStateM PyError (EmaProcess ι α) Unit := do
  let p ← get
  require (TensorOps.shape (p.memory.cell source).2 =
    TensorOps.shape (p.memory.cell destination).2) sizeMismatch
  modify fun p =>
    { p with
      memory := p.memory.write destination
        ((p.memory.cell destination).1,
          TensorOps.castTo (p.memory.cell destination).1 (p.memory.cell source).2) }

/-- `for name, average in self.tensors.items()`, with `weights[name]`. -/
def forAverages (weights : Dict ι) (body : Nat → Nat → EStateM PyError (EmaProcess ι α) Unit) :
    List (ι × Nat) → EStateM PyError (EmaProcess ι α) Unit
  | [] => pure ⟨⟩
  | (name, average) :: items => do
      match weights.get? name with
      | none => throw (keyError (toString name))
      | some value => body average value
      forAverages weights body items

/-- `OPSDEMA.update`. -/
def EmaProcess.update (student : Dict ι) : EStateM PyError (EmaProcess ι α) Unit := do
  let p ← get
  lift (p.validate student)
  forAverages student (fun average value => lerpCell average value (1 - p.ema.decay))
    p.ema.tensors.items
  modify fun p => { p with ema := { p.ema with updates := p.ema.updates + 1 } }

/-- `OPSDEMA.publish`. -/
def EmaProcess.publish (scoring : Dict ι) : EStateM PyError (EmaProcess ι α) Unit := do
  let p ← get
  lift (p.validate scoring)
  forAverages scoring (fun average destination => copyCell destination average)
    p.ema.tensors.items

/-- The file of a source. What is not an `int` is no update count. -/
structure EmaFile (ι α : Type) where
  decay : ℚ
  updates : Option Int
  tensors : List (ι × (DType × α))
  studentSha256 : String
  nodup : (tensors.map Prod.fst).Nodup

/-- `OPSDEMA.save`, by the file it replaces. -/
def EmaProcess.save (p : EmaProcess ι α) (studentSha256 : String) : EmaFile ι α :=
  { decay := p.ema.decay
    updates := some p.ema.updates
    tensors := p.ema.tensors.entries p.memory
    studentSha256
    nodup := by rw [Dict.entries_keys]; exact p.ema.tensors.nodup }

/-- `OPSDEMA.load`, where there may be no file. -/
def EmaProcess.load (file : Option (EmaFile ι α)) (studentSha256 : String) :
    EStateM PyError (EmaProcess ι α) Unit := do
  match file with
  | none => throw ⟨.fileNotFound, "No such file or directory"⟩
  | some state =>
      let p ← get
      let (tensors, memory) := allocDict state.tensors state.nodup p.memory
      modify fun p => { p with memory }
      require (state.decay = p.ema.decay ∧ state.studentSha256 = studentSha256)
        (valueError "EMA source belongs to a different decay or student fork")
      require (∃ updates ∈ state.updates, 0 ≤ updates) (valueError "Invalid EMA update count")
      let p ← get
      lift (p.validate tensors)
      require (∀ loc ∈ tensors.cells, (p.memory.cell loc).1 = .float32)
        (valueError "EMA source must preserve FP32 accumulation")
      modify fun p =>
        { p with ema := { p.ema with tensors, updates := (state.updates.getD 0).toNat } }

/-! ## What it holds -/

/-- The mapping a dictionary is. -/
def tensorsOf (memory : Memory (DType × α)) (d : Dict ι) : NamedTensors ι α :=
  fun name => (d.get? name).map memory.cell

/-- The accumulator an object is. -/
def EmaProcess.holds (p : EmaProcess ι α) : OpsdEma ι α :=
  { decay := p.ema.decay
    updates := p.ema.updates
    tensors := fun name => (p.ema.tensors.get? name).map fun loc => (p.memory.cell loc).2 }

omit [ToString ι] [TensorOps α] in
theorem EmaProcess.holds_eq_some {p : EmaProcess ι α} {name : ι} {average : α} :
    p.holds.tensors name = some average ↔
      ∃ loc, p.ema.tensors.get? name = some loc ∧ (p.memory.cell loc).2 = average :=
  Option.map_eq_some_iff

end Ema

end Crisp.Ref
