import Crisp.Proofs.TextIndex
import Crisp.Ref.Components
import Mathlib.Logic.Relation

/-!
# Duplicate groups are connected components

The union-find never has two keys in one class unless matches connect them, which
every join respects. The other way round an entry is joined with every earlier one it
matches: with those of the nearest-neighbour answer at once, and with those of its
canonical text or template through the last of them, which is in their class already.
Ids are given to whole classes, and two classes never get the same one.
-/

namespace Crisp.Proofs

open Crisp.Lib Crisp.Ref

section Graph

variable {σ : Type} (ops : TextOps σ) (candidate : σ → σ → Prop) (entries : List (String × String))

/-- Two entries that match, by their keys. -/
def Edge (key other : String) : Prop :=
  ∃ problem text, (key, problem) ∈ entries ∧ (other, text) ∈ entries ∧
    Linked ops candidate problem text

def Connected : String → String → Prop := Relation.EqvGen (Edge ops candidate entries)

end Graph

variable {σ : Type} {ops : TextOps σ} {candidate : σ → σ → Prop}
  {query : List (String × σ) → σ → List String} {all done : List (String × String)}
  {classes classes' : Classes σ} {fuel : Nat}

/-- The keys of the entries so far. -/
def keysOf (entries : List (String × String)) : Finset String := (entries.map Prod.fst).toFinset

theorem mem_keysOf {key : String} : key ∈ keysOf done ↔ ∃ problem, (key, problem) ∈ done := by
  simp [keysOf]

theorem keysOf_append (key problem : String) :
    keysOf (done ++ [(key, problem)]) = insert key (keysOf done) := by
  ext other
  simp only [mem_keysOf, Finset.mem_insert, List.mem_append, List.mem_singleton, Prod.mk.injEq]
  constructor
  · rintro ⟨text, hdone | ⟨rfl, -⟩⟩
    · exact .inr ⟨text, hdone⟩
    · exact .inl rfl
  · rintro (rfl | ⟨text, hdone⟩)
    · exact ⟨problem, .inr ⟨rfl, rfl⟩⟩
    · exact ⟨text, .inl hdone⟩

/-! ## The union-find -/

/-- The tables after some of the entries. -/
structure Classified (ops : TextOps σ) (candidate : σ → σ → Prop)
    (all done : List (String × String)) (classes : Classes σ) : Prop where
  forest : Forest (keysOf done) classes.parent
  index : Indexed ops done classes.index
  sound : ∀ a b, Same classes.parent a b → Connected ops candidate all a b
  joined : ∀ item ∈ done, ∀ other ∈ done, Linked ops candidate item.2 other.2 →
    Same classes.parent item.1 other.1

theorem classified_empty : Classified ops candidate all [] (.empty : Classes σ) := by
  have hforest : Forest (keysOf []) (Classes.empty : Classes σ).parent := by
    constructor <;> simp [keysOf, Classes.empty]
  refine ⟨hforest, indexed_empty, ?_, by simp⟩
  rintro a b ⟨r, hr, -⟩
  exact absurd (hr.mem_left hforest) (by simp [keysOf])

/-- One entry: its index answers are joined with it, and through them all it matches. -/
theorem addEntry_eq (hquery : Answers candidate query)
    (hsymm : ∀ a b, candidate a b → candidate b a) {key problem : String}
    (h : Classified ops candidate all done classes) (hkey : key ∉ done.map Prod.fst)
    (hall : ∀ item ∈ done ++ [(key, problem)], item ∈ all) (hfuel : done.length < fuel) :
    ∃ classes', addEntry ops query fuel classes (key, problem) = .ok classes' ∧
      Classified ops candidate all (done ++ [(key, problem)]) classes' := by
  obtain ⟨found, hfound, hreal, hcover⟩ := matchesOf_eq hquery h.index problem
  obtain ⟨index', hinsert⟩ := insert_returns problem h.index hkey
  have hfresh : key ∉ keysOf done := by
    rwa [keysOf, List.mem_toFinset]
  have hforest := h.forest.insert (k := key)
  have hcard : (insert key (keysOf done)).card ≤ fuel := by
    rw [Finset.card_insert_of_notMem hfresh]
    have := List.toFinset_card_le (done.map Prod.fst)
    rw [List.length_map] at this
    exact (Nat.succ_le_succ this).trans hfuel
  have hothers : ∀ other ∈ found, other ∈ insert key (keysOf done) := by
    intro other hother
    obtain ⟨text, htext, -⟩ := hreal other hother
    exact Finset.mem_insert_of_mem (mem_keysOf.mpr ⟨text, htext⟩)
  obtain ⟨parent', hrun, hforest', hkeep, hjoined, hleast⟩ :=
    mergeAll_eq missingKey (Finset.mem_insert_self key _) hcard hforest hothers
  have hold : ∀ a b, Same classes.parent a b →
      Same (Function.update classes.parent key (some key)) a b := by
    rintro a b ⟨r, ha, hb⟩
    exact ⟨r, (root_insert h.forest hfresh).mpr (.inr ha),
      (root_insert h.forest hfresh).mpr (.inr hb)⟩
  -- what the new entry matches is in its class once the joins are done
  have hnew : ∀ item ∈ done, Linked ops candidate problem item.2 → Same parent' key item.1 := by
    intro item hitem hlinked
    obtain ⟨other, hother, hsame⟩ := hcover item hitem hlinked
    refine (hjoined other hother).trans ?_
    rcases hsame with rfl | ⟨text, htext, hsame⟩
    · refine .refl hforest' (Finset.mem_insert_of_mem ?_)
      exact mem_keysOf.mpr ⟨item.2, hitem⟩
    · exact hkeep _ _ (hold _ _ (h.joined (other, text) htext item hitem (.inl hsame)))
  refine ⟨{ parent := parent', index := index' }, ?_, ?_, (h.index.insert hinsert).2, ?_, ?_⟩
  · have hstart : addEntry ops query fuel classes (key, problem) = (do
        let parent ← found.foldlM (fun parent other => merge missingKey fuel parent key other)
          (Function.update classes.parent key (some key))
        let index ← (classes.index.insert ops key problem).mapError .raised
        .ok { parent, index }) := by
      rw [addEntry, hfound]
      rfl
    rw [hstart, hrun, except_ok_bind, hinsert]
    rfl
  · rwa [keysOf_append]
  · refine hleast _ (Relation.EqvGen.is_equivalence _) (fun a b hab => ?_) fun other hother => ?_
    · obtain ⟨r, hra, hrb⟩ := hab
      rcases (root_insert h.forest hfresh).mp hra with ⟨ha, hr⟩ | ha
      · rcases (root_insert h.forest hfresh).mp hrb with ⟨hb, -⟩ | hb
        · rw [ha, hb]
          exact .refl _
        · exact absurd (hb.mem h.forest) (hr ▸ hfresh)
      · rcases (root_insert h.forest hfresh).mp hrb with ⟨-, hr⟩ | hb
        · exact absurd (ha.mem h.forest) (hr ▸ hfresh)
        · exact h.sound a b ⟨r, ha, hb⟩
    · obtain ⟨text, htext, hlinked⟩ := hreal other hother
      exact .rel _ _ ⟨problem, text, hall _ (by simp), hall _ (by simp [htext]), hlinked⟩
  · have hkeySelf : Same parent' key key := .refl hforest' (Finset.mem_insert_self _ _)
    intro item hitem other hother hlinked
    rw [List.mem_append, List.mem_singleton] at hitem hother
    rcases hitem with hitem | rfl
    · rcases hother with hother | rfl
      · exact hkeep _ _ (hold _ _ (h.joined item hitem other hother hlinked))
      · exact (hnew item hitem (hlinked.symm hsymm)).symm
    · rcases hother with hother | rfl
      · exact hnew other hother hlinked
      · exact hkeySelf

/-- All the entries, one after the other. -/
theorem addEntries_eq (hquery : Answers candidate query)
    (hsymm : ∀ a b, candidate a b → candidate b a) (hkeys : (all.map Prod.fst).Nodup)
    (hfuel : all.length ≤ fuel) :
    ∀ {todo done : List (String × String)} {classes : Classes σ}, done ++ todo = all →
      Classified ops candidate all done classes →
      ∃ classes', todo.foldlM (addEntry ops query fuel) classes = .ok classes' ∧
        Classified ops candidate all all classes' := by
  intro todo
  induction todo with
  | nil =>
      intro done classes hall h
      rw [List.append_nil] at hall
      exact ⟨classes, rfl, hall ▸ h⟩
  | cons entry todo ih =>
      obtain ⟨key, problem⟩ := entry
      intro done classes hall h
      have hall' : done ++ [(key, problem)] ++ todo = all := by rw [← hall]; simp
      have hkey : key ∉ done.map Prod.fst := by
        rw [← hall, List.map_append, List.nodup_append] at hkeys
        exact fun hmem => hkeys.2.2 key hmem key (by simp) rfl
      have hlength : done.length < fuel := by
        rw [← hall, List.length_append, List.length_cons] at hfuel
        omega
      obtain ⟨classes₁, hrun₁, h₁⟩ := addEntry_eq hquery hsymm h hkey
        (fun item hitem => hall' ▸ List.mem_append_left todo hitem) hlength
      obtain ⟨classes', hrun, h'⟩ := ih hall' h₁
      exact ⟨classes', by rw [List.foldlM_cons, hrun₁, except_ok_bind, hrun], h'⟩

/-- In the end the classes are the components. -/
theorem Classified.same_iff (h : Classified ops candidate all all classes) {a b : String}
    (ha : a ∈ keysOf all) :
    Same classes.parent a b ↔ Connected ops candidate all a b := by
  refine ⟨h.sound a b, fun hab => ?_⟩
  have heq : ∀ a b, Connected ops candidate all a b → a = b ∨ Same classes.parent a b := by
    intro a b hab
    induction hab with
    | rel a b hedge =>
        obtain ⟨problem, text, hproblem, htext, hlinked⟩ := hedge
        exact .inr (h.joined _ hproblem _ htext hlinked)
    | refl a => exact .inl rfl
    | symm a b _ ih =>
        rcases ih with rfl | ih
        · exact .inl rfl
        · exact .inr ih.symm
    | trans a b c _ _ ihab ihbc =>
        rcases ihab with rfl | ihab
        · exact ihbc
        · rcases ihbc with rfl | ihbc
          · exact .inr ihab
          · exact .inr (ihab.trans ihbc)
  rcases heq a b hab with rfl | hsame
  · exact .refl h.forest ha
  · exact hsame

/-! ## The groups -/

/-- A key with the digest of its text. -/
def withDigest (ops : TextOps σ) (entry : String × String) : String × String :=
  (entry.1, digest ops (canonical ops entry.2))

/-- The searches return the roots, whatever they do to the paths. -/
theorem addMembers_eq (ops : TextOps σ) {keys : Finset String} {parent : String → Option String}
    {rootOf : String → String} (hfuel : keys.card ≤ fuel)
    (hroot : ∀ key ∈ keys, Root parent key (rootOf key)) :
    ∀ {entries : List (String × String)} {parent' : String → Option String}
      (members : List (String × List (String × String))),
      (∀ entry ∈ entries, entry.1 ∈ keys) → Forest keys parent' →
      (∀ a s, Root parent' a s ↔ Root parent a s) →
      ∃ parent'', entries.foldlM (addMember ops fuel) (parent', members) =
        .ok (parent'', groupItems (fun item => rootOf item.1) (entries.map (withDigest ops))
          members) := by
  intro entries
  induction entries with
  | nil => exact fun {parent'} members _ _ _ => ⟨parent', rfl⟩
  | cons entry entries ih =>
      intro parent' members hentries hforest hroots
      have hkey : entry.1 ∈ keys := hentries entry (by simp)
      obtain ⟨parent₁, hfind, hforest₁, hroots₁⟩ := findRoot_eq missingKey hforest
        ((hroots entry.1 (rootOf entry.1)).mpr (hroot entry.1 hkey))
        ((below_lt_card hkey).trans_le hfuel)
      obtain ⟨parent'', hrun⟩ := ih
        (appendMember (rootOf entry.1) (withDigest ops entry) members)
        (fun other hother => hentries other (by simp [hother])) hforest₁
        fun a s => (hroots₁ a s).trans (hroots a s)
      refine ⟨parent'', ?_⟩
      rw [List.foldlM_cons, addMember, hfind, except_ok_bind]
      exact hrun

/-- The id of a group is the key of one of its benchmarks, or where it has none the digest
of one of its texts. -/
theorem groupId_returns {group : List (String × String)} (h : group ≠ []) :
    ∃ id, groupId group = .ok id ∧
      (isBenchmark id ∧ id ∈ group.map Prod.fst ∨
        (∀ item ∈ group, ¬ isBenchmark item.1) ∧ id ∈ group.map Prod.snd) := by
  rw [groupId]
  by_cases hnone : (group.map Prod.fst).filter isBenchmark = []
  · rw [if_pos hnone]
    have hsome : (group.map Prod.snd).min?.isSome := by
      rw [List.isSome_min?_iff]
      simpa using h
    obtain ⟨id, hid⟩ := Option.isSome_iff_exists.mp hsome
    rw [hid]
    refine ⟨id, rfl, .inr ⟨fun item hitem => ?_, List.min?_mem hid⟩⟩
    exact List.filter_eq_nil_iff.mp hnone item.1 (List.mem_map_of_mem hitem)
  · rw [if_neg hnone]
    have hsome : ((group.map Prod.fst).filter isBenchmark).min?.isSome := by
      rwa [List.isSome_min?_iff]
    obtain ⟨id, hid⟩ := Option.isSome_iff_exists.mp hsome
    rw [hid]
    obtain ⟨hmem, hbench⟩ := List.mem_filter.mp (List.min?_mem hid)
    exact ⟨id, rfl, .inl ⟨hbench, hmem⟩⟩

/-! ## The keys -/

theorem isBenchmark_benchmark (id : String) : isBenchmark ("benchmark:" ++ id) := by
  rw [isBenchmark, String.toList_append, List.isPrefixOf_iff_prefix]
  exact List.prefix_append _ _

/-- `[0-9a-f]`. -/
def isHexDigit (c : Char) : Bool := c.isDigit || ('a' ≤ c && c ≤ 'f')

/-- A text of digits, decimal or hexadecimal, is not the key of a benchmark. -/
theorem not_isBenchmark {key : String} (h : ∀ c ∈ key.toList, isHexDigit c) :
    ¬ isBenchmark key := by
  intro hbench
  rw [isBenchmark, List.isPrefixOf_iff_prefix] at hbench
  have hn : 'n' ∈ key.toList := hbench.subset (by decide)
  exact absurd (h 'n' hn) (by decide)

theorem toString_toList (n : Nat) : (toString n).toList = Nat.toDigits 10 n := by
  show (String.ofList (Nat.toDigits 10 n)).toList = _
  rw [String.toList_ofList]

theorem not_isBenchmark_toString (n : Nat) : ¬ isBenchmark (toString n) := by
  refine not_isBenchmark fun c hc => ?_
  rw [toString_toList] at hc
  rw [isHexDigit, Nat.isDigit_of_mem_toDigits (by decide) (by decide) hc, Bool.true_or]

theorem toString_injective {m n : Nat} (h : toString m = toString n) : m = n := by
  have hdigits := congrArg String.toList h
  rw [toString_toList, toString_toList] at hdigits
  rw [← Nat.ofDigitChars_ten_toDigits (n := m), hdigits, Nat.ofDigitChars_ten_toDigits]

theorem entriesOf_keys (source : List (Option String)) (benchmarks : List Benchmark) :
    ∀ item ∈ entriesOf source benchmarks,
      (∃ row ∈ benchmarks, item = ("benchmark:" ++ row.id, row.problem)) ∨
        ∃ index : Nat, item.1 = toString index ∧ source[index]? = some (some item.2) := by
  intro item hitem
  rcases List.mem_append.mp hitem with hitem | hitem
  · obtain ⟨row, hrow, rfl⟩ := List.mem_map.mp hitem
    exact .inl ⟨row, hrow, rfl⟩
  · obtain ⟨⟨problem, index⟩, hentry, heq⟩ := List.mem_filterMap.mp hitem
    obtain ⟨text, rfl, rfl⟩ := Option.map_eq_some_iff.mp heq
    exact .inr ⟨index, rfl, List.mk_mem_zipIdx_iff_getElem?.mp hentry⟩

theorem entriesOf_nodup {source : List (Option String)} {benchmarks : List Benchmark}
    (hids : (benchmarks.map Benchmark.id).Nodup) :
    ((entriesOf source benchmarks).map Prod.fst).Nodup := by
  rw [entriesOf, List.map_append]
  refine List.Nodup.append ?_ ?_ ?_
  · rw [List.map_map]
    have hmap : (Prod.fst ∘ fun row : Benchmark => ("benchmark:" ++ row.id, row.problem)) =
        (fun id => "benchmark:" ++ id) ∘ Benchmark.id := rfl
    rw [hmap, ← List.map_map]
    exact hids.map fun a b hab => (String.append_right_inj _).mp hab
  · rw [List.map_filterMap]
    have hindex : source.zipIdx.Pairwise fun a b => a.2 ≠ b.2 := by
      rw [← List.pairwise_map (f := Prod.snd), List.zipIdx_map_snd]
      exact List.nodup_range'
    have hnamed : ∀ (a : Option String × Nat) key,
        (a.1.map fun problem => (toString a.2, problem)).map Prod.fst = some key →
          key = toString a.2 := by
      intro a key hkey
      rw [Option.map_map] at hkey
      obtain ⟨problem, -, rfl⟩ := Option.map_eq_some_iff.mp hkey
      rfl
    refine hindex.filterMap _ fun a b hne key hkey key' hkey' heq => hne ?_
    rw [hnamed a key hkey, hnamed b key' hkey'] at heq
    exact toString_injective heq
  · intro key hbench hsource
    obtain ⟨_, hrow, rfl⟩ := List.mem_map.mp hbench
    obtain ⟨row, -, rfl⟩ := List.mem_map.mp hrow
    obtain ⟨item, hitem, hkey⟩ := List.mem_map.mp hsource
    obtain ⟨a, -, ha⟩ := List.mem_filterMap.mp hitem
    obtain ⟨problem, -, rfl⟩ := Option.map_eq_some_iff.mp ha
    replace hkey : toString a.2 = "benchmark:" ++ row.id := hkey
    exact not_isBenchmark_toString a.2 (by rw [hkey, isBenchmark_benchmark])

/-! ## The mapping -/

/-- A key whose entries all say one thing is looked up to that. -/
theorem lookup_eq_some {mapping : List (String × String)} {key id : String}
    (hmem : (key, id) ∈ mapping) (hone : ∀ other, (key, other) ∈ mapping → other = id) :
    mapping.lookup key = some id := by
  induction mapping with
  | nil => cases hmem
  | cons item mapping ih =>
      obtain ⟨known, known_id⟩ := item
      rw [List.lookup_cons]
      by_cases hkey : key = known
      · subst hkey
        simp [hone known_id (by simp)]
      · have hne : (key == known) = false := by simpa using hkey
        rw [hne]
        rcases List.mem_cons.mp hmem with heq | hmem
        · exact absurd (congrArg Prod.fst heq) hkey
        · exact ih hmem fun other hother => hone other (by simp [hother])

/-- What holds of the ids the entries are mapped to. -/
structure GroupLaws (ops : TextOps σ) (candidate : σ → σ → Prop)
    (entries mapping : List (String × String)) : Prop where
  keys : (mapping.map Prod.fst).Perm (entries.map Prod.fst)
  component : ∀ a ∈ keysOf entries, ∀ b ∈ keysOf entries,
    mapping.lookup a = mapping.lookup b ↔ Connected ops candidate entries a b
  benchmark : ∀ a ∈ keysOf entries, ∀ b ∈ keysOf entries, isBenchmark b →
    Connected ops candidate entries a b →
      ∃ own ∈ keysOf entries, isBenchmark own ∧ Connected ops candidate entries a own ∧
        mapping.lookup a = some own

/-- The ids of groups, one for each. -/
structure Named (members : List (String × List (String × String)))
    (idOf : String × List (String × String) → String) : Prop where
  id : ∀ group ∈ members, groupId group.2 = .ok (idOf group) ∧
    (isBenchmark (idOf group) ∧ idOf group ∈ group.2.map Prod.fst ∨
      (∀ item ∈ group.2, ¬ isBenchmark item.1) ∧ idOf group ∈ group.2.map Prod.snd)

section Mapping

variable {rootOf : String → String} {idOf : String × List (String × String) → String}

/-- The groups of the entries. -/
def membersOf (ops : TextOps σ) (rootOf : String → String) (entries : List (String × String)) :
    List (String × List (String × String)) :=
  groupItems (fun item => rootOf item.1) (entries.map (withDigest ops)) []

theorem mem_membersOf {group : String × List (String × String)}
    (hgroup : group ∈ membersOf ops rootOf all) {item : String × String} (hitem : item ∈ group.2) :
    ∃ entry ∈ all, item = withDigest ops entry := by
  have hmem : item ∈ ((membersOf ops rootOf all).map Prod.snd).flatten :=
    List.mem_flatten.mpr ⟨group.2, List.mem_map_of_mem hgroup, hitem⟩
  obtain ⟨entry, hentry, heq⟩ := List.mem_map.mp ((groupItems_perm _ _).mem_iff.mp hmem)
  exact ⟨entry, hentry, heq.symm⟩

/-- The mapping of the groups. -/
def mappingOf (members : List (String × List (String × String)))
    (idOf : String × List (String × String) → String) : List (String × String) :=
  (members.map fun group => group.2.map fun item => (item.1, idOf group)).flatten

theorem mem_mappingOf {members : List (String × List (String × String))} {key id : String} :
    (key, id) ∈ mappingOf members idOf ↔
      ∃ group ∈ members, ∃ item ∈ group.2, item.1 = key ∧ idOf group = id := by
  simp only [mappingOf, List.mem_flatten, List.mem_map, Prod.mk.injEq, exists_exists_and_eq_and]

theorem mappingOf_keys :
    ((mappingOf (membersOf ops rootOf all) idOf).map Prod.fst).Perm (all.map Prod.fst) := by
  have hkeys : (mappingOf (membersOf ops rootOf all) idOf).map Prod.fst =
      (((membersOf ops rootOf all).map Prod.snd).flatten).map Prod.fst := by
    rw [mappingOf, List.map_flatten, List.map_flatten, List.map_map, List.map_map]
    congr 1
    refine List.map_congr_left fun group _ => ?_
    simp
  rw [hkeys]
  refine ((groupItems_perm _ _).map Prod.fst).trans ?_
  rw [List.map_map]
  exact .refl _

/-- An entry is mapped to the id of its group. -/
theorem lookup_mappingOf (ops : TextOps σ) (rootOf : String → String)
    (idOf : String × List (String × String) → String) {entry : String × String}
    (hentry : entry ∈ all) :
    ∃ group ∈ membersOf ops rootOf all, withDigest ops entry ∈ group.2 ∧
      (mappingOf (membersOf ops rootOf all) idOf).lookup entry.1 = some (idOf group) := by
  obtain ⟨group, hgroup, hitem⟩ := exists_group (fun item : String × String => rootOf item.1)
    (List.mem_map_of_mem (f := withDigest ops) hentry)
  refine ⟨group, hgroup, hitem, lookup_eq_some ?_ ?_⟩
  · exact mem_mappingOf.mpr ⟨group, hgroup, withDigest ops entry, hitem, rfl, rfl⟩
  · intro other hother
    obtain ⟨group', hgroup', item, hitem', hkey, rfl⟩ := mem_mappingOf.mp hother
    have hroot : rootOf item.1 = rootOf (withDigest ops entry).1 := by rw [hkey]; rfl
    rw [(groupItems_grouped _ _).eq_of_root hgroup' hgroup hitem' hitem hroot]

/-- Two groups with one id are one group. -/
theorem Named.injective (hname : Named (membersOf ops rootOf all) idOf)
    (hsha : Function.Injective ops.sha256)
    (hhex : ∀ text, ∀ c ∈ (ops.sha256 text).toList, isHexDigit c)
    (hroot : ∀ entry ∈ all, ∀ other ∈ all, canonical ops entry.2 = canonical ops other.2 →
      rootOf entry.1 = rootOf other.1)
    {group group' : String × List (String × String)} (hgroup : group ∈ membersOf ops rootOf all)
    (hgroup' : group' ∈ membersOf ops rootOf all) (hid : idOf group = idOf group') :
    group = group' := by
  have hdigest : ∀ other ∈ membersOf ops rootOf all, ∀ id, id ∈ other.2.map Prod.snd →
      ¬ isBenchmark id := by
    intro other hother id hmem
    obtain ⟨item, hitem, rfl⟩ := List.mem_map.mp hmem
    obtain ⟨entry, -, rfl⟩ := mem_membersOf hother hitem
    exact not_isBenchmark (hhex _)
  rcases (hname.id group hgroup).2 with ⟨hbench, hmem⟩ | ⟨-, hmem⟩
  · rcases (hname.id group' hgroup').2 with ⟨-, hmem'⟩ | ⟨-, hmem'⟩
    · -- the id is a key of both
      obtain ⟨item, hitem, hkey⟩ := List.mem_map.mp hmem
      obtain ⟨item', hitem', hkey'⟩ := List.mem_map.mp hmem'
      refine (groupItems_grouped _ _).eq_of_root hgroup hgroup' hitem hitem' ?_
      show rootOf item.1 = rootOf item'.1
      rw [hkey, hkey', hid]
    · exact absurd (hid ▸ hbench) (hdigest group' hgroup' _ hmem')
  · rcases (hname.id group' hgroup').2 with ⟨hbench, -⟩ | ⟨-, hmem'⟩
    · exact absurd (hid ▸ hbench) (hdigest group hgroup _ hmem)
    · -- the id is the digest of a text in both
      obtain ⟨item, hitem, hkey⟩ := List.mem_map.mp hmem
      obtain ⟨item', hitem', hkey'⟩ := List.mem_map.mp hmem'
      refine (groupItems_grouped _ _).eq_of_root hgroup hgroup' hitem hitem' ?_
      obtain ⟨entry, hentry, rfl⟩ := mem_membersOf hgroup hitem
      obtain ⟨entry', hentry', rfl⟩ := mem_membersOf hgroup' hitem'
      refine hroot entry hentry entry' hentry' (hsha ?_)
      exact hkey.trans (hid.trans hkey'.symm)

end Mapping

/-- The mapping of the entries in the order they were taken. -/
theorem groups_of_classes (h : Classified ops candidate all all classes)
    (hsha : Function.Injective ops.sha256)
    (hhex : ∀ text, ∀ c ∈ (ops.sha256 text).toList, isHexDigit c)
    (hfuel : all.length ≤ fuel) :
    ∃ members mapping parent, all.foldlM (addMember ops fuel) (classes.parent, []) =
        .ok (parent, members) ∧ members.mapM nameGroup = .ok mapping ∧
      GroupLaws ops candidate all mapping.flatten := by
  have hcard : (keysOf all).card ≤ fuel := by
    have := List.toFinset_card_le (all.map Prod.fst)
    rw [List.length_map] at this
    exact this.trans hfuel
  have hkey : ∀ entry ∈ all, entry.1 ∈ keysOf all := fun entry hentry =>
    mem_keysOf.mpr ⟨entry.2, hentry⟩
  choose! rootOf hrootOf using h.forest.exists_root
  have hsame : ∀ a ∈ keysOf all, ∀ b ∈ keysOf all,
      rootOf a = rootOf b ↔ Connected ops candidate all a b := by
    intro a ha b hb
    rw [← h.same_iff ha]
    constructor
    · exact fun heq => ⟨rootOf a, hrootOf a ha, heq ▸ hrootOf b hb⟩
    · rintro ⟨r, hra, hrb⟩
      rw [(hrootOf a ha).unique hra, (hrootOf b hb).unique hrb]
  obtain ⟨parent, hrun⟩ := addMembers_eq ops hcard hrootOf [] hkey h.forest
    fun _ _ => Iff.rfl
  have hnames : ∀ group ∈ membersOf ops rootOf all, ∃ id, groupId group.2 = .ok id ∧
      (isBenchmark id ∧ id ∈ group.2.map Prod.fst ∨
        (∀ item ∈ group.2, ¬ isBenchmark item.1) ∧ id ∈ group.2.map Prod.snd) :=
    fun group hgroup => groupId_returns ((groupItems_grouped _ _).nonempty group hgroup)
  choose! idOf hidOf using hnames
  have hname : Named (membersOf ops rootOf all) idOf := ⟨hidOf⟩
  refine ⟨membersOf ops rootOf all, _, parent, hrun, except_mapM_eq_ok
    (g := fun group => group.2.map fun item => (item.1, idOf group)) fun group hgroup => ?_, ?_⟩
  · rw [nameGroup, (hidOf group hgroup).1]
    rfl
  constructor
  case keys => exact mappingOf_keys
  case component =>
    intro a ha b hb
    obtain ⟨problem, hproblem⟩ := mem_keysOf.mp ha
    obtain ⟨text, htext⟩ := mem_keysOf.mp hb
    obtain ⟨group, hgroup, hitem, hlookup⟩ :=
      lookup_mappingOf ops rootOf idOf hproblem
    obtain ⟨group', hgroup', hitem', hlookup'⟩ :=
      lookup_mappingOf ops rootOf idOf htext
    rw [← hsame a ha b hb]
    show (mappingOf (membersOf ops rootOf all) idOf).lookup a =
      (mappingOf (membersOf ops rootOf all) idOf).lookup b ↔ _
    rw [hlookup, hlookup', Option.some.injEq]
    constructor
    · intro hid
      have heq := hname.injective hsha hhex (fun entry hentry other hother hcanonical =>
        (hsame _ (hkey entry hentry) _ (hkey other hother)).mpr
          (.rel _ _ ⟨entry.2, other.2, hentry, hother, .inl (.inl hcanonical)⟩)) hgroup hgroup' hid
      have hra := (groupItems_grouped _ _).root group hgroup _ hitem
      have hrb := (groupItems_grouped _ _).root group' hgroup' _ hitem'
      exact hra.trans (heq ▸ hrb.symm)
    · intro hroot
      rw [(groupItems_grouped _ _).eq_of_root hgroup hgroup' hitem hitem' hroot]
  case benchmark =>
    intro a ha b hb hbench hab
    obtain ⟨problem, hproblem⟩ := mem_keysOf.mp ha
    obtain ⟨text, htext⟩ := mem_keysOf.mp hb
    obtain ⟨group, hgroup, hitem, hlookup⟩ :=
      lookup_mappingOf ops rootOf idOf hproblem
    obtain ⟨group', hgroup', hitem', -⟩ :=
      lookup_mappingOf ops rootOf idOf htext
    have hroot : rootOf a = rootOf b := (hsame a ha b hb).mpr hab
    -- the benchmark is in the group, so the id is the key of a benchmark in it
    have hin : withDigest ops (b, text) ∈ group.2 := by
      rwa [(groupItems_grouped _ _).eq_of_root hgroup hgroup' hitem hitem' hroot]
    rcases (hname.id group hgroup).2 with ⟨hidBench, hmem⟩ | ⟨hnone, -⟩
    · obtain ⟨item, hitemOwn, hown⟩ := List.mem_map.mp hmem
      obtain ⟨entry, hentry, rfl⟩ := mem_membersOf hgroup hitemOwn
      have hownKey : idOf group ∈ keysOf all := hown ▸ hkey entry hentry
      refine ⟨idOf group, hownKey, hidBench, (hsame a ha _ hownKey).mp ?_, hlookup⟩
      have hra := (groupItems_grouped _ _).root group hgroup _ hitem
      have hrown := (groupItems_grouped _ _).root group hgroup _ hitemOwn
      rw [← hown]
      exact hra.trans hrown.symm
    · exact absurd hbench (hnone _ hin)

/-! ## The order of the rows -/

theorem edge_perm {entries entries' : List (String × String)} (hperm : entries.Perm entries') :
    Edge ops candidate entries = Edge ops candidate entries' := by
  funext a b
  simp only [Edge, hperm.mem_iff]

theorem GroupLaws.perm {entries entries' mapping : List (String × String)}
    (h : GroupLaws ops candidate entries mapping) (hperm : entries.Perm entries') :
    GroupLaws ops candidate entries' mapping := by
  have hkeys : keysOf entries = keysOf entries' := by
    ext key
    simp only [mem_keysOf, hperm.mem_iff]
  have hconnected : Connected ops candidate entries = Connected ops candidate entries' := by
    rw [Connected, Connected, edge_perm hperm]
  constructor
  case keys => exact h.keys.trans (hperm.map Prod.fst)
  case component => exact hkeys ▸ hconnected ▸ h.component
  case benchmark => exact hkeys ▸ hconnected ▸ h.benchmark

/-- Connection does not leave the entries. -/
theorem Connected.mem_iff {a b : String} (h : Connected ops candidate all a b) :
    a ∈ keysOf all ↔ b ∈ keysOf all := by
  induction h with
  | rel a b hedge =>
      obtain ⟨problem, text, hproblem, htext, -⟩ := hedge
      exact ⟨fun _ => mem_keysOf.mpr ⟨text, htext⟩, fun _ => mem_keysOf.mpr ⟨problem, hproblem⟩⟩
  | refl a => exact Iff.rfl
  | symm a b _ ih => exact ih.symm
  | trans a b c _ _ ihab ihbc => exact ihab.trans ihbc

/-- Which entries are connected is a matter of their texts: keys are names. -/
theorem Connected.of_texts {entries : List (String × String)} (hkeys : (all.map Prod.fst).Nodup)
    (htexts : ∀ item ∈ all, ∃ item' ∈ entries, item'.2 = item.2) {a b : String}
    (h : Connected ops candidate all a b) :
    ∀ item ∈ all, ∀ other ∈ all, ∀ item' ∈ entries, ∀ other' ∈ entries, item.1 = a → other.1 = b →
      item'.2 = item.2 → other'.2 = other.2 →
        Connected ops candidate entries item'.1 other'.1 := by
  have hone : ∀ item ∈ all, ∀ other ∈ all, item.1 = other.1 → item = other := fun item hitem other
    hother => List.inj_on_of_nodup_map hkeys hitem hother
  induction h with
  | rel a b hedge =>
      intro item hitem other hother item' hitem' other' hother' ha hb htext htext'
      obtain ⟨problem, text, hproblem, hother₁, hlinked⟩ := hedge
      refine .rel _ _ ⟨item'.2, other'.2, hitem', hother', ?_⟩
      rw [htext, htext', hone item hitem _ hproblem ha, hone other hother _ hother₁ hb]
      exact hlinked
  | refl a =>
      intro item hitem other hother item' hitem' other' hother' ha hb htext htext'
      have heq := hone item hitem other hother (ha.trans hb.symm)
      refine .rel _ _ ⟨item'.2, other'.2, hitem', hother', .inl (.inl ?_)⟩
      rw [htext, htext', heq]
  | symm a b _ ih =>
      intro item hitem other hother item' hitem' other' hother' ha hb htext htext'
      exact .symm _ _ (ih other hother item hitem other' hother' item' hitem' hb ha htext' htext)
  | trans a b c hab _ ihab ihbc =>
      intro item hitem other hother item' hitem' other' hother' ha hc htext htext'
      have hb : b ∈ keysOf all := by
        rw [← Connected.mem_iff hab, ← ha]
        exact mem_keysOf.mpr ⟨item.2, hitem⟩
      obtain ⟨problem, hmiddle⟩ := mem_keysOf.mp hb
      obtain ⟨middle', hmiddle', hsame⟩ := htexts _ hmiddle
      exact .trans _ _ _
        (ihab item hitem _ hmiddle item' hitem' middle' hmiddle' ha rfl htext hsame)
        (ihbc _ hmiddle other hother middle' hmiddle' other' hother' rfl hc hsame htext')

theorem entriesOf_texts (source : List (Option String)) (benchmarks : List Benchmark)
    (text : String) : (∃ item ∈ entriesOf source benchmarks, item.2 = text) ↔
      text ∈ benchmarks.map Benchmark.problem ∨ some text ∈ source := by
  constructor
  · rintro ⟨item, hitem, rfl⟩
    rcases entriesOf_keys source benchmarks item hitem with ⟨row, hrow, rfl⟩ | ⟨index, -, hrow⟩
    · exact .inl (List.mem_map_of_mem hrow)
    · exact .inr (List.mem_of_getElem? hrow)
  · rintro (hbench | hsource)
    · obtain ⟨row, hrow, rfl⟩ := List.mem_map.mp hbench
      exact ⟨_, List.mem_append_left _ (List.mem_map_of_mem hrow), rfl⟩
    · obtain ⟨index, hindex⟩ := List.mem_iff_getElem?.mp hsource
      refine ⟨(toString index, text), List.mem_append_right _ ?_, rfl⟩
      exact List.mem_filterMap.mpr
        ⟨(some text, index), List.mk_mem_zipIdx_iff_getElem?.mpr hindex, rfl⟩

theorem entriesOf_length (source : List (Option String)) (benchmarks : List Benchmark) :
    (entriesOf source benchmarks).length ≤ benchmarks.length + source.length := by
  rw [entriesOf, List.length_append, List.length_map]
  have h := List.length_filterMap_le
    (fun (entry : Option String × Nat) => entry.1.map fun problem => (toString entry.2, problem))
    source.zipIdx
  rw [List.length_zipIdx] at h
  exact Nat.add_le_add_left h _

theorem components_returns (hquery : Answers candidate query)
    (hsymm : ∀ a b, candidate a b → candidate b a) (hsha : Function.Injective ops.sha256)
    (hhex : ∀ text, ∀ c ∈ (ops.sha256 text).toList, isHexDigit c) {source : List (Option String)}
    {benchmarks : List Benchmark} (hids : (benchmarks.map Benchmark.id).Nodup)
    (hfuel : benchmarks.length + source.length ≤ fuel) :
    ∃ mapping, components ops query fuel source benchmarks = .ok mapping ∧
      GroupLaws ops candidate (entriesOf source benchmarks) mapping := by
  have hperm : (sortedEntries ops (entriesOf source benchmarks)).Perm
      (entriesOf source benchmarks) := sortKeys_perm _ _
  have hkeys : ((sortedEntries ops (entriesOf source benchmarks)).map Prod.fst).Nodup :=
    (hperm.map Prod.fst).nodup_iff.mpr (entriesOf_nodup hids)
  have hlength : (sortedEntries ops (entriesOf source benchmarks)).length ≤ fuel := by
    rw [hperm.length_eq]
    exact (entriesOf_length source benchmarks).trans hfuel
  obtain ⟨classes, hclasses, h⟩ := addEntries_eq hquery hsymm hkeys hlength (List.nil_append _)
    classified_empty
  obtain ⟨members, mapping, parent, hmembers, hmapping, hlaws⟩ :=
    groups_of_classes h hsha hhex hlength
  refine ⟨mapping.flatten, ?_, hlaws.perm hperm⟩
  rw [components, hclasses, except_ok_bind, hmembers, except_ok_bind]
  show (members.mapM nameGroup >>= _) = _
  rw [hmapping, except_ok_bind]

/-- On fuel that covers the entries every search ends, no similarity divides by zero, and
the ids are those of the connected components; and in another order of the rows and of the
benchmarks texts that shared an id share one still. -/
theorem components_are_connected (ops : TextOps σ) (candidate : σ → σ → Prop)
    (query : List (String × σ) → σ → List String) (source : List (Option String))
    (benchmarks : List Benchmark) (fuel : Nat) (hquery : Answers candidate query)
    (hsymm : ∀ a b, candidate a b → candidate b a) (hsha : Function.Injective ops.sha256)
    (hhex : ∀ text, ∀ c ∈ (ops.sha256 text).toList, isHexDigit c)
    (hids : (benchmarks.map Benchmark.id).Nodup)
    (hfuel : benchmarks.length + source.length ≤ fuel) :
    ∃ mapping, components ops query fuel source benchmarks = .ok mapping ∧
      GroupLaws ops candidate (entriesOf source benchmarks) mapping ∧
      (∀ problem other, 0 < (gramSet ops problem ∪ gramSet ops other).card) ∧
      ∀ source' benchmarks', source'.Perm source → benchmarks'.Perm benchmarks →
        ∃ mapping', components ops query fuel source' benchmarks' = .ok mapping' ∧
          ∀ item ∈ entriesOf source benchmarks, ∀ other ∈ entriesOf source benchmarks,
            ∀ item' ∈ entriesOf source' benchmarks', ∀ other' ∈ entriesOf source' benchmarks',
              item'.2 = item.2 → other'.2 = other.2 →
                (mapping'.lookup item'.1 = mapping'.lookup other'.1 ↔
                  mapping.lookup item.1 = mapping.lookup other.1) := by
  obtain ⟨mapping, hrun, hlaws⟩ := components_returns hquery hsymm hsha hhex hids hfuel
  refine ⟨mapping, hrun, hlaws, fun problem other => ?_,
    fun source' benchmarks' hsource hbench => ?_⟩
  · exact Finset.card_pos.mpr ((gramSet_nonempty ops problem).mono Finset.subset_union_left)
  have hids' : (benchmarks'.map Benchmark.id).Nodup := (hbench.map _).nodup_iff.mpr hids
  have hfuel' : benchmarks'.length + source'.length ≤ fuel := by
    rwa [hbench.length_eq, hsource.length_eq]
  obtain ⟨mapping', hrun', hlaws'⟩ := components_returns hquery hsymm hsha hhex hids' hfuel'
  refine ⟨mapping', hrun',
    fun item hitem other hother item' hitem' other' hother' htext htext' => ?_⟩
  have htexts : ∀ text, (∃ item ∈ entriesOf source' benchmarks', item.2 = text) ↔
      ∃ item ∈ entriesOf source benchmarks, item.2 = text := by
    intro text
    rw [entriesOf_texts, entriesOf_texts, (hbench.map _).mem_iff, hsource.mem_iff]
  have hkey : ∀ {s b} (item : String × String),
      item ∈ entriesOf s b → item.1 ∈ keysOf (entriesOf s b) :=
    fun item hitem => mem_keysOf.mpr ⟨item.2, hitem⟩
  rw [hlaws.component _ (hkey item hitem) _ (hkey other hother),
    hlaws'.component _ (hkey item' hitem') _ (hkey other' hother')]
  constructor
  · intro h
    exact h.of_texts (entriesOf_nodup hids') (fun item hitem => (htexts _).mp ⟨item, hitem, rfl⟩)
      item' hitem' other' hother' item hitem other hother rfl rfl htext.symm htext'.symm
  · intro h
    exact h.of_texts (entriesOf_nodup hids) (fun item hitem => (htexts _).mpr ⟨item, hitem, rfl⟩)
      item hitem other hother item' hitem' other' hother' rfl rfl htext htext'

def threeRows : List (Option String) := [some "x 1", none, some "x 2"]

def oneBenchmark : List Benchmark := [⟨"a", "x 3"⟩]

/-- Two rows of one template, and a benchmark of the same. -/
theorem components_are_connected_three :
    ∃ mapping, components plainOps sameSketch 4 threeRows oneBenchmark = .ok mapping ∧
      mapping.lookup "0" = mapping.lookup "2" ∧
      ∃ own, isBenchmark own ∧ mapping.lookup "0" = some own := by
  obtain ⟨mapping, hrun, hlaws, -⟩ := components_are_connected plainOps (· = ·) sameSketch threeRows
    oneBenchmark 4 sameSketch_answers (fun _ _ => Eq.symm) plainOps_injective
    (fun text c hc => by rcases plainOps_digits text c hc with rfl | rfl <;> decide)
    (by decide) (by decide)
  have hentries : entriesOf threeRows oneBenchmark =
      [("benchmark:a", "x 3"), ("0", "x 1"), ("2", "x 2")] := by decide +kernel
  have hkey : ∀ key ∈ ["benchmark:a", "0", "2"],
      key ∈ keysOf (entriesOf threeRows oneBenchmark) := by
    rw [hentries]
    decide
  have hrow : Connected plainOps (· = ·) (entriesOf threeRows oneBenchmark) "0" "2" :=
    .rel _ _ ⟨"x 1", "x 2", by simp [hentries], by simp [hentries],
      .inl (.inr (by decide +kernel))⟩
  have hbench : Connected plainOps (· = ·) (entriesOf threeRows oneBenchmark) "0" "benchmark:a" :=
    .rel _ _ ⟨"x 1", "x 3", by simp [hentries], by simp [hentries],
      .inl (.inr (by decide +kernel))⟩
  have hsame := (hlaws.component "0" (hkey _ (by simp)) "2" (hkey _ (by simp))).mpr hrow
  obtain ⟨own, -, hown, -, hlookup⟩ := hlaws.benchmark "0" (hkey _ (by simp)) "benchmark:a"
    (hkey _ (by simp)) (by decide +kernel) hbench
  exact ⟨mapping, hrun, hsame, own, hown, hlookup⟩

end Crisp.Proofs
