import Mathlib.Data.List.Nodup
import Mathlib.Data.List.Perm.Basic

/-!
# Groups by a key

`groups.setdefault(key, []).append(item)`: groups in the order their keys first
appear, each with its items in their order. Whatever the order, the groups hold the
items they were made of, and items are in one group just when they have one key. Where
only the first item of a key is wanted, the items kept are those a search would find.
-/

namespace Crisp.Lib

variable {κ ι : Type} [DecidableEq κ]

/-- `groups.setdefault(root, []).append(item)`. -/
def appendMember (root : κ) (item : ι) : List (κ × List ι) → List (κ × List ι)
  | [] => [(root, [item])]
  | (other, items) :: members =>
      if other = root then (other, items ++ [item]) :: members
      else (other, items) :: appendMember root item members

variable (rootOf : ι → κ)

/-- Items in groups by their root. -/
def groupItems (items : List ι) (members : List (κ × List ι)) : List (κ × List ι) :=
  items.foldl (fun members item => appendMember (rootOf item) item members) members

/-- Every group has one root and is not empty, and no two groups share a root. -/
structure Grouped (members : List (κ × List ι)) : Prop where
  roots : (members.map Prod.fst).Nodup
  root : ∀ group ∈ members, ∀ item ∈ group.2, rootOf item = group.1
  nonempty : ∀ group ∈ members, group.2 ≠ []

variable {rootOf}

theorem appendMember_roots (root : κ) (item : ι) (members : List (κ × List ι)) :
    ∀ other, other ∈ (appendMember root item members).map Prod.fst ↔
      other = root ∨ other ∈ members.map Prod.fst := by
  intro other
  induction members with
  | nil => simp [appendMember]
  | cons group members ih =>
      obtain ⟨known, items⟩ := group
      rw [appendMember]
      split
      · next h => simp [h]
      · simp only [List.map_cons, List.mem_cons, ih]
        tauto

theorem appendMember_mem {root : κ} {item : ι} {members : List (κ × List ι)}
    {group : κ × List ι} (h : group ∈ appendMember root item members) :
    group ∈ members ∨ ∃ items, group = (root, items ++ [item]) ∧
      (items = [] ∨ (root, items) ∈ members) := by
  induction members with
  | nil =>
      rw [appendMember, List.mem_singleton] at h
      exact .inr ⟨[], h, .inl rfl⟩
  | cons known members ih =>
      obtain ⟨other, items⟩ := known
      rw [appendMember] at h
      split at h
      · next hother =>
          subst hother
          rcases List.mem_cons.mp h with rfl | h
          · exact .inr ⟨items, rfl, .inr (by simp)⟩
          · exact .inl (by simp [h])
      · rcases List.mem_cons.mp h with rfl | h
        · exact .inl (by simp)
        · rcases ih h with h | ⟨items', hgroup, hitems⟩
          · exact .inl (by simp [h])
          · exact .inr ⟨items', hgroup, hitems.imp_right fun hmem => by simp [hmem]⟩

theorem appendMember_nodup (root : κ) (item : ι) {members : List (κ × List ι)}
    (h : (members.map Prod.fst).Nodup) : ((appendMember root item members).map Prod.fst).Nodup := by
  induction members with
  | nil => simp [appendMember]
  | cons group members ih =>
      obtain ⟨other, items⟩ := group
      rw [List.map_cons, List.nodup_cons] at h
      rw [appendMember]
      split
      · exact List.nodup_cons.mpr h
      · next hne =>
          rw [List.map_cons, List.nodup_cons]
          refine ⟨fun hmem => ?_, ih h.2⟩
          rcases (appendMember_roots root item members other).mp hmem with heq | hmem
          · exact hne heq
          · exact h.1 hmem

theorem Grouped.append {members : List (κ × List ι)} (h : Grouped rootOf members)
    (item : ι) : Grouped rootOf (appendMember (rootOf item) item members) := by
  constructor
  case roots => exact appendMember_nodup _ item h.roots
  case root =>
    intro group hgroup other hother
    rcases appendMember_mem hgroup with hgroup | ⟨items, rfl, hitems⟩
    · exact h.root group hgroup other hother
    · rcases List.mem_append.mp hother with hother | hother
      · rcases hitems with rfl | hitems
        · cases hother
        · exact h.root _ hitems other hother
      · rw [List.mem_singleton.mp hother]
  case nonempty =>
    intro group hgroup
    rcases appendMember_mem hgroup with hgroup | ⟨items, rfl, -⟩
    · exact h.nonempty group hgroup
    · simp

theorem appendMember_perm (root : κ) (item : ι) (members : List (κ × List ι)) :
    ((appendMember root item members).map Prod.snd).flatten.Perm
      (item :: (members.map Prod.snd).flatten) := by
  induction members with
  | nil => simp [appendMember]
  | cons group members ih =>
      obtain ⟨other, items⟩ := group
      rw [appendMember]
      split
      · simp only [List.map_cons, List.flatten_cons, List.append_assoc, List.singleton_append]
        exact List.perm_middle
      · simp only [List.map_cons, List.flatten_cons]
        exact (ih.append_left items).trans List.perm_middle

theorem groupItems_grouped (rootOf : ι → κ) (items : List ι) :
    Grouped rootOf (groupItems rootOf items []) := by
  have hfold : ∀ (items : List ι) {members : List (κ × List ι)}, Grouped rootOf members →
      Grouped rootOf (groupItems rootOf items members) := by
    intro items
    induction items with
    | nil => exact fun h => h
    | cons item items ih => exact fun h => ih (h.append item)
  exact hfold items ⟨by simp, by simp, by simp⟩

theorem groupItems_perm (rootOf : ι → κ) (items : List ι) :
    ((groupItems rootOf items []).map Prod.snd).flatten.Perm items := by
  have hfold : ∀ (items : List ι) (members : List (κ × List ι)),
      ((groupItems rootOf items members).map Prod.snd).flatten.Perm
        ((members.map Prod.snd).flatten ++ items) := by
    intro items
    induction items with
    | nil => exact fun members => by rw [List.append_nil]; exact .refl _
    | cons item items ih =>
        intro members
        refine (ih _).trans ?_
        exact ((appendMember_perm _ item members).append_right items).trans List.perm_middle.symm
  exact hfold items []

omit [DecidableEq κ] in
/-- Two groups that hold items of one key are one group. -/
theorem Grouped.eq_of_root {members : List (κ × List ι)} (h : Grouped rootOf members)
    {group group' : κ × List ι} (hgroup : group ∈ members) (hgroup' : group' ∈ members)
    {item item' : ι} (hitem : item ∈ group.2) (hitem' : item' ∈ group'.2)
    (hroot : rootOf item = rootOf item') : group = group' := by
  refine List.inj_on_of_nodup_map h.roots hgroup hgroup' ?_
  rw [← h.root group hgroup item hitem, ← h.root group' hgroup' item' hitem', hroot]

/-- Every item is in a group. -/
theorem exists_group (rootOf : ι → κ) {items : List ι} {item : ι} (h : item ∈ items) :
    ∃ group ∈ groupItems rootOf items [], item ∈ group.2 := by
  have hmem := (groupItems_perm rootOf items).mem_iff.mpr h
  obtain ⟨held, hheld, hitem⟩ := List.mem_flatten.mp hmem
  obtain ⟨group, hgroup, rfl⟩ := List.mem_map.mp hheld
  exact ⟨group, hgroup, hitem⟩

/-! ## The first item of each key -/

/-- `if key not in found: found[key] = item`. -/
def addFirst (rootOf : ι → κ) (found : List ι) (item : ι) : List ι :=
  if rootOf item ∈ found.map rootOf then found else found ++ [item]

/-- The first item of each key. -/
def firsts (rootOf : ι → κ) (items : List ι) : List ι := items.foldl (addFirst rootOf) []

theorem addFirst_nodup {found : List ι} (h : (found.map rootOf).Nodup) (item : ι) :
    ((addFirst rootOf found item).map rootOf).Nodup := by
  rw [addFirst]
  split
  · exact h
  · next hnew =>
      rw [List.map_append, List.map_singleton]
      exact List.nodup_append.mpr ⟨h, by simp, by simpa using hnew⟩

/-- An item of a key that is there already changes no search. -/
theorem find?_addFirst (found : List ι) (item : ι) (items : List ι) (root : κ) :
    (addFirst rootOf found item ++ items).find? (fun other => rootOf other = root) =
      (found ++ item :: items).find? fun other => rootOf other = root := by
  rw [addFirst]
  split
  · next hknown =>
      rw [List.find?_append, List.find?_append]
      by_cases hroot : rootOf item = root
      · obtain ⟨known, hmem, hknown⟩ := List.mem_map.mp hknown
        have hsome : (found.find? fun other => rootOf other = root).isSome :=
          List.find?_isSome.mpr ⟨known, hmem, by simp [hknown, hroot]⟩
        obtain ⟨first, hfirst⟩ := Option.isSome_iff_exists.mp hsome
        simp only [hfirst, Option.some_or]
      · rw [List.find?_cons_of_neg (by simp [hroot])]
  · rw [List.append_assoc, List.singleton_append]

/-- Where keys tell items apart, every item is the one a search for its key finds. -/
theorem find?_eq_some_of_nodup {found : List ι} (h : (found.map rootOf).Nodup)
    {item : ι} : found.find? (fun other => rootOf other = rootOf item) = some item ↔
      item ∈ found := by
  constructor
  · exact List.mem_of_find?_eq_some
  · intro hmem
    obtain ⟨first, hfirst⟩ := Option.isSome_iff_exists.mp
      (List.find?_isSome.mpr ⟨item, hmem, decide_eq_true rfl⟩ :
        (found.find? fun other => rootOf other = rootOf item).isSome)
    have hroot : rootOf first = rootOf item := by simpa using List.find?_some hfirst
    rw [hfirst, List.inj_on_of_nodup_map h (List.mem_of_find?_eq_some hfirst) hmem hroot]

theorem foldl_addFirst (items : List ι) : ∀ {found : List ι}, (found.map rootOf).Nodup →
    ((items.foldl (addFirst rootOf) found).map rootOf).Nodup ∧
    ∀ item, item ∈ items.foldl (addFirst rootOf) found ↔
      (found ++ items).find? (fun other => rootOf other = rootOf item) = some item := by
  induction items with
  | nil =>
      intro found h
      refine ⟨h, fun item => ?_⟩
      rw [List.append_nil, find?_eq_some_of_nodup h]
      rfl
  | cons first items ih =>
      intro found h
      obtain ⟨hnodup, hmem⟩ := ih (addFirst_nodup h first)
      refine ⟨hnodup, fun item => ?_⟩
      rw [List.foldl_cons, hmem, find?_addFirst]

theorem firsts_nodup (rootOf : ι → κ) (items : List ι) : ((firsts rootOf items).map rootOf).Nodup :=
  (foldl_addFirst items (by simp)).1

/-- What is kept is what a search for its key finds. -/
theorem mem_firsts {items : List ι} {item : ι} : item ∈ firsts rootOf items ↔
    items.find? (fun other => rootOf other = rootOf item) = some item :=
  (foldl_addFirst items (by simp)).2 item

end Crisp.Lib
