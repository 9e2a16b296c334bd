import Mathlib.Data.List.AList
import Mathlib.Data.List.Sort
import Mathlib.Data.String.Basic

/-!
# Directories of named files

A directory maps the names of its files to their contents, one content a name.
Counting its files is what a glob does; a rename moves one file between two of
them. The lemmas here say what each operation does to the names and the counts.
-/

namespace Crisp.Lib

/-- A directory whose files hold a `ν` each. -/
abbrev Dir (ν : Type) := AList fun _ : String => ν

variable {ν : Type}

/-- How many files a glob of the directory lists. -/
def Dir.count (d : Dir ν) : Nat := d.keys.length

theorem Dir.mem_of_lookup {d : Dir ν} {name : String} {v : ν}
    (h : d.lookup name = some v) : name ∈ d :=
  AList.lookup_isSome.mp (by rw [h]; rfl)

theorem Dir.lookup_of_mem {d : Dir ν} {name : String} (h : name ∈ d) :
    ∃ v, d.lookup name = some v :=
  Option.isSome_iff_exists.mp (AList.lookup_isSome.mpr h)

theorem Dir.count_insert_le (d : Dir ν) (name : String) (v : ν) :
    Dir.count (d.insert name v) ≤ Dir.count d + 1 := by
  unfold Dir.count
  rw [AList.keys_insert, List.length_cons]
  have := @List.length_erase_le _ _ name d.keys
  omega

theorem Dir.count_erase_le (d : Dir ν) (name : String) :
    Dir.count (d.erase name) ≤ Dir.count d := by
  unfold Dir.count
  rw [AList.keys_erase]
  exact List.length_erase_le

theorem Dir.count_erase_of_mem {d : Dir ν} {name : String} (h : name ∈ d) :
    Dir.count (d.erase name) + 1 = Dir.count d := by
  have hpos := List.length_pos_of_mem (AList.mem_keys.mp h)
  unfold Dir.count
  rw [AList.keys_erase, List.length_erase_of_mem (AList.mem_keys.mp h)]
  omega

/-- A rename adds no file to the two directories together. -/
theorem Dir.count_rename_le {src dst : Dir ν} {name : String} (h : name ∈ src)
    (v : ν) :
    Dir.count (src.erase name) + Dir.count (dst.insert name v) ≤
      Dir.count src + Dir.count dst := by
  have herase := Dir.count_erase_of_mem h
  have hinsert := Dir.count_insert_le dst name v
  omega

theorem Dir.lookup_insert_eq {d : Dir ν} {name other : String} {v w : ν}
    (h : (d.insert name v).lookup other = some w) :
    (other = name ∧ w = v) ∨ d.lookup other = some w := by
  by_cases heq : other = name
  · subst heq
    rw [AList.lookup_insert, Option.some_inj] at h
    exact Or.inl ⟨rfl, h.symm⟩
  · rw [AList.lookup_insert_ne heq] at h
    exact Or.inr h

theorem Dir.lookup_erase_eq {d : Dir ν} {name other : String} {w : ν}
    (h : (d.erase name).lookup other = some w) :
    other ≠ name ∧ d.lookup other = some w := by
  by_cases heq : other = name
  · subst heq
    rw [AList.lookup_erase] at h
    cases h
  · rw [AList.lookup_erase_ne heq] at h
    exact ⟨heq, h⟩

/-! ## Scans in name order -/

/-- Two sorted scans that keep the same entries see them in one order. -/
theorem filterMap_sorted_congr {γ : Type} {f : String → Option γ} {ks ks' : List String}
    (hks : ks.Nodup) (hks' : ks'.Nodup)
    (h : ∀ name, (f name).isSome = true → (name ∈ ks' ↔ name ∈ ks)) :
    (ks'.insertionSort (· ≤ ·)).filterMap f = (ks.insertionSort (· ≤ ·)).filterMap f := by
  have hfilter : ∀ xs : List String,
      xs.filterMap f = (xs.filter fun name => (f name).isSome).filterMap f := by
    intro xs
    rw [List.filterMap_filter]
    refine List.filterMap_congr fun name _ => ?_
    cases f name <;> rfl
  rw [hfilter (ks'.insertionSort _), hfilter (ks.insertionSort _)]
  congr 1
  refine List.Perm.eq_of_pairwise' (r := (· ≤ ·)) ?_ ?_ ?_
  · exact (List.pairwise_insertionSort _ ks').filter _
  · exact (List.pairwise_insertionSort _ ks).filter _
  · refine (List.perm_ext_iff_of_nodup ?_ ?_).mpr fun name => ?_
    · exact ((List.perm_insertionSort _ ks').nodup_iff.mpr hks').filter _
    · exact ((List.perm_insertionSort _ ks).nodup_iff.mpr hks).filter _
    · rw [List.mem_filter, List.mem_filter, List.mem_insertionSort, List.mem_insertionSort]
      constructor
      · exact fun hin => ⟨(h name hin.2).mp hin.1, hin.2⟩
      · exact fun hin => ⟨(h name hin.2).mpr hin.1, hin.2⟩

end Crisp.Lib
