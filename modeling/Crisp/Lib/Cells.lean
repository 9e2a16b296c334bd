import Mathlib.Data.List.Nodup

/-!
# Cells, and dictionaries of them

Code that overwrites its objects in place is about where a value is held, not only
about the value. A memory gives every cell its contents and knows the first cell
nothing was allocated in; a dictionary names cells, in insertion order, and two
names may share one. The frame of an operation is the set of cells it may have
changed, and frames compose.
-/

namespace Crisp.Lib

structure Memory (β : Type) where
  cell : Nat → β
  next : Nat

namespace Memory

variable {β : Type}

/-- Overwrite a cell in place. -/
def write (memory : Memory β) (loc : Nat) (value : β) : Memory β :=
  { memory with cell := fun other => if other = loc then value else memory.cell other }

/-- A new cell. -/
def alloc (memory : Memory β) (value : β) : Nat × Memory β :=
  (memory.next, { memory.write memory.next value with next := memory.next + 1 })

@[simp] theorem write_next (memory : Memory β) (loc : Nat) (value : β) :
    (memory.write loc value).next = memory.next := rfl

@[simp] theorem write_self (memory : Memory β) (loc : Nat) (value : β) :
    (memory.write loc value).cell loc = value := by
  simp [write]

theorem write_of_ne (memory : Memory β) {loc other : Nat} (value : β) (h : other ≠ loc) :
    (memory.write loc value).cell other = memory.cell other := by
  simp [write, h]

/-- What is allocated in `after` was allocated in `before`, or is new, and only
cells of `frame` have other contents. -/
structure Framed (frame : Nat → Prop) (before after : Memory β) : Prop where
  next : before.next ≤ after.next
  cell : ∀ loc, loc < before.next → ¬ frame loc → after.cell loc = before.cell loc

variable {frame : Nat → Prop} {before between after : Memory β}

theorem Framed.refl (memory : Memory β) : Framed frame memory memory :=
  ⟨Nat.le_refl _, fun _ _ _ => rfl⟩

theorem Framed.trans (h : Framed frame before between) (h' : Framed frame between after) :
    Framed frame before after :=
  ⟨Nat.le_trans h.next h'.next, fun loc hlive hout =>
    (h'.cell loc (Nat.lt_of_lt_of_le hlive h.next) hout).trans (h.cell loc hlive hout)⟩

theorem Framed.mono {frame' : Nat → Prop} (h : Framed frame before after)
    (hsub : ∀ loc, frame loc → frame' loc) : Framed frame' before after :=
  ⟨h.next, fun loc hlive hout => h.cell loc hlive fun hin => hout (hsub loc hin)⟩

theorem framed_write (memory : Memory β) {loc : Nat} (value : β) (h : frame loc) :
    Framed frame memory (memory.write loc value) :=
  ⟨Nat.le_refl _, fun _ _ hout => memory.write_of_ne value fun heq => hout (heq ▸ h)⟩

theorem framed_alloc (memory : Memory β) (value : β) :
    Framed frame memory (memory.alloc value).2 :=
  ⟨Nat.le_succ _, fun _ hlive _ => memory.write_of_ne value (Nat.ne_of_lt hlive)⟩

end Memory

/-! ## Dictionaries -/

theorem lookup_eq_some_iff_mem {κ β : Type} [DecidableEq κ] {entries : List (κ × β)}
    (hnodup : (entries.map Prod.fst).Nodup) {name : κ} {value : β} :
    entries.lookup name = some value ↔ (name, value) ∈ entries := by
  induction entries with
  | nil => simp
  | cons entry entries ih =>
      obtain ⟨other, held⟩ := entry
      obtain ⟨hnew, hrest⟩ := List.nodup_cons.mp hnodup
      rw [List.lookup_cons, List.mem_cons, Prod.mk.injEq]
      by_cases heq : name = other
      · subst heq
        have hnot : (name, value) ∉ entries := fun h =>
          hnew (@List.mem_map_of_mem _ _ entries (name, value) Prod.fst h)
        simp [hnot, eq_comm]
      · have hbeq : (name == other) = false := beq_false_of_ne heq
        simp [heq, hbeq, ih hrest]

/-- Names and their cells. -/
structure Dict (κ : Type) where
  items : List (κ × Nat)
  nodup : (items.map Prod.fst).Nodup

namespace Dict

variable {κ β : Type}

def keys (d : Dict κ) : List κ := d.items.map Prod.fst

def cells (d : Dict κ) : List Nat := d.items.map Prod.snd

/-- Every name with the contents of its cell, in order. -/
def entries (d : Dict κ) (memory : Memory β) : List (κ × β) :=
  d.items.map fun item => (item.1, memory.cell item.2)

theorem entries_keys (d : Dict κ) (memory : Memory β) :
    (d.entries memory).map Prod.fst = d.items.map Prod.fst := by
  unfold entries
  rw [List.map_map]
  rfl

variable [DecidableEq κ]

/-- `d[name]`, where there is one. -/
def get? (d : Dict κ) (name : κ) : Option Nat := d.items.lookup name

theorem get?_eq_some {d : Dict κ} {name : κ} {loc : Nat} :
    d.get? name = some loc ↔ (name, loc) ∈ d.items :=
  lookup_eq_some_iff_mem d.nodup

theorem get?_isSome {d : Dict κ} {name : κ} : (d.get? name).isSome ↔ name ∈ d.keys := by
  rw [Option.isSome_iff_exists]
  unfold keys
  simp only [get?_eq_some, List.mem_map, Prod.exists, exists_and_right, exists_eq_right]

theorem mem_cells_of_get? {d : Dict κ} {name : κ} {loc : Nat} (h : d.get? name = some loc) :
    loc ∈ d.cells :=
  List.mem_map_of_mem (get?_eq_some.mp h)

theorem entries_lookup (d : Dict κ) (memory : Memory β) (name : κ) :
    (d.entries memory).lookup name = (d.get? name).map memory.cell := by
  refine Option.ext fun value => ?_
  rw [lookup_eq_some_iff_mem (by rw [entries_keys]; exact d.nodup)]
  unfold entries
  simp only [List.mem_map, Option.map_eq_some_iff, get?_eq_some, Prod.exists, Prod.mk.injEq]
  constructor
  · rintro ⟨_, loc, hitem, rfl, hvalue⟩
    exact ⟨loc, hitem, hvalue⟩
  · rintro ⟨loc, hitem, hvalue⟩
    exact ⟨name, loc, hitem, rfl, hvalue⟩

end Dict

/-! ## Allocating a dictionary -/

section Alloc

variable {κ β : Type}

/-- A fresh cell for every entry. -/
def allocItems : List (κ × β) → Memory β → List (κ × Nat) × Memory β
  | [], memory => ([], memory)
  | (name, value) :: entries, memory =>
      let (loc, memory) := memory.alloc value
      let (items, memory) := allocItems entries memory
      ((name, loc) :: items, memory)

@[simp] theorem allocItems_keys (entries : List (κ × β)) (memory : Memory β) :
    (allocItems entries memory).1.map Prod.fst = entries.map Prod.fst := by
  induction entries generalizing memory with
  | nil => rfl
  | cons entry entries ih => simp [allocItems, ih]

theorem allocItems_framed {frame : Nat → Prop} (entries : List (κ × β)) (memory : Memory β) :
    Memory.Framed frame memory (allocItems entries memory).2 := by
  induction entries generalizing memory with
  | nil => exact .refl memory
  | cons entry entries ih => exact (memory.framed_alloc entry.2).trans (ih _)

theorem allocItems_cells (entries : List (κ × β)) (memory : Memory β) :
    (allocItems entries memory).1.map Prod.snd = List.range' memory.next entries.length ∧
      (allocItems entries memory).2.next = memory.next + entries.length := by
  induction entries generalizing memory with
  | nil => exact ⟨rfl, rfl⟩
  | cons entry entries ih =>
      obtain ⟨hcells, hnext⟩ := ih (memory.alloc entry.2).2
      refine ⟨?_, ?_⟩
      · show memory.next :: (allocItems entries (memory.alloc entry.2).2).1.map Prod.snd = _
        rw [hcells]
        rfl
      · show (allocItems entries (memory.alloc entry.2).2).2.next = _
        rw [hnext, List.length_cons]
        show memory.next + 1 + entries.length = _
        omega

/-- Every entry is found in the cell it got. -/
theorem allocItems_read [DecidableEq κ] (entries : List (κ × β)) (memory : Memory β) (name : κ) :
    ((allocItems entries memory).1.lookup name).map (allocItems entries memory).2.cell =
      entries.lookup name := by
  induction entries generalizing memory with
  | nil => rfl
  | cons entry entries ih =>
      obtain ⟨other, value⟩ := entry
      show (((other, memory.next) :: (allocItems entries (memory.alloc value).2).1).lookup
        name).map (allocItems entries (memory.alloc value).2).2.cell = _
      rw [List.lookup_cons, List.lookup_cons]
      by_cases heq : name == other
      · have hkept := (@allocItems_framed κ β (fun _ => False) entries (memory.alloc value).2).cell
          memory.next (Nat.lt_succ_self _) id
        simp only [heq, Option.map_some, hkept]
        exact congrArg some (memory.write_self memory.next value)
      · simp only [heq]
        exact ih _

/-- A dictionary of fresh cells. -/
def allocDict (entries : List (κ × β)) (hnodup : (entries.map Prod.fst).Nodup)
    (memory : Memory β) : Dict κ × Memory β :=
  ({ items := (allocItems entries memory).1
     nodup := by rw [allocItems_keys]; exact hnodup }, (allocItems entries memory).2)

variable {entries : List (κ × β)} (hnodup : (entries.map Prod.fst).Nodup) {memory : Memory β}

theorem allocDict_fresh {loc : Nat} (h : loc ∈ (allocDict entries hnodup memory).1.cells) :
    memory.next ≤ loc ∧ loc < (allocDict entries hnodup memory).2.next := by
  obtain ⟨hcells, hnext⟩ := allocItems_cells entries memory
  have hloc : loc ∈ (allocItems entries memory).1.map Prod.snd := h
  rw [hcells, List.mem_range'_1] at hloc
  show _ ∧ loc < (allocItems entries memory).2.next
  rw [hnext]
  exact hloc

theorem allocDict_nodup : (allocDict entries hnodup memory).1.cells.Nodup := by
  show ((allocItems entries memory).1.map Prod.snd).Nodup
  rw [(allocItems_cells entries memory).1]
  exact List.nodup_range'

theorem allocDict_read [DecidableEq κ] (name : κ) :
    ((allocDict entries hnodup memory).1.get? name).map
      (allocDict entries hnodup memory).2.cell = entries.lookup name :=
  allocItems_read entries memory name

end Alloc

end Crisp.Lib
