import Crisp.Ref.TextIndex

/-!
# What the index answers

An index that was filled entry by entry answers a text with keys of entries the text
matches, and it answers with none only where there is nothing to match. It need not
answer with every one: of the entries of one canonical text, or of one template, the
tables keep the last.
-/

namespace Crisp.Proofs

open Crisp.Lib Crisp.Ref

section Links

variable {σ : Type} (ops : TextOps σ) (candidate : σ → σ → Prop)

/-- Two texts that only the last tables tell of: one canonical text, or one template. -/
def SameText (problem other : String) : Prop :=
  canonical ops problem = canonical ops other ∨
    template ops (canonical ops problem) = template ops (canonical ops other)

/-- Two texts that match. -/
def Linked (problem other : String) : Prop :=
  SameText ops problem other ∨
    candidate (sketch ops problem).1 (sketch ops other).1 ∧
      4 / 5 ≤ jaccard (gramSet ops problem) (gramSet ops other)

/-- The index answers with the keys of the sketches that are candidates. -/
def Answers (query : List (String × σ) → σ → List String) : Prop :=
  ∀ inserted sketched key, key ∈ query inserted sketched ↔
    ∃ other, (key, other) ∈ inserted ∧ candidate sketched other

end Links

variable {σ : Type} {ops : TextOps σ} {candidate : σ → σ → Prop}

theorem jaccard_comm (a b : Finset String) : jaccard a b = jaccard b a := by
  rw [jaccard, jaccard, Finset.inter_comm, Finset.union_comm]

theorem Linked.symm (hsymm : ∀ a b, candidate a b → candidate b a) {problem other : String}
    (h : Linked ops candidate problem other) : Linked ops candidate other problem := by
  rcases h with (h | h) | ⟨hcandidate, hshared⟩
  · exact .inl (.inl h.symm)
  · exact .inl (.inr h.symm)
  · exact .inr ⟨hsymm _ _ hcandidate, by rwa [jaccard_comm]⟩

/-- Two texts never have an empty union of grams. -/
theorem similarity_eq (problem other : String) :
    similarity (gramSet ops problem) (gramSet ops other) =
      .ok (jaccard (gramSet ops problem) (gramSet ops other)) := by
  have hunion : 0 < (gramSet ops problem ∪ gramSet ops other).card :=
    Finset.card_pos.mpr ((gramSet_nonempty ops problem).mono Finset.subset_union_left)
  rw [similarity, check_of hunion, except_ok_bind]

/-! ## The tables that keep the last key -/

/-- A table from `f` of a text to the key of an entry that has it. -/
structure Latest (f : String → String) (entries : List (String × String))
    (table : String → Option String) : Prop where
  entry : ∀ text key, table text = some key → ∃ problem, (key, problem) ∈ entries ∧ f problem = text
  known : ∀ item ∈ entries, ∃ key, table (f item.2) = some key

theorem latest_empty (f : String → String) : Latest f [] fun _ => none := by
  constructor
  · intro text key h
    cases h
  · intro item hitem
    cases hitem

theorem Latest.insert {f : String → String} {entries : List (String × String)}
    {table : String → Option String} (h : Latest f entries table) (key problem : String) :
    Latest f (entries ++ [(key, problem)]) (Function.update table (f problem) (some key)) := by
  constructor
  · intro text other hother
    by_cases htext : text = f problem
    · rw [htext, Function.update_self, Option.some.injEq] at hother
      exact ⟨problem, by simp [hother], htext.symm⟩
    · rw [Function.update_of_ne htext] at hother
      obtain ⟨known, hknown, hf⟩ := h.entry text other hother
      exact ⟨known, by simp [hknown], hf⟩
  · intro item hitem
    by_cases htext : f item.2 = f problem
    · exact ⟨key, by rw [htext, Function.update_self]⟩
    · rw [Function.update_of_ne htext]
      rcases List.mem_append.mp hitem with hitem | hitem
      · exact h.known item hitem
      · rw [List.mem_singleton.mp hitem] at htext
        exact absurd rfl htext

/-! ## The index -/

/-- The index after some entries, in the order they were inserted. -/
structure Indexed (ops : TextOps σ) (entries : List (String × String)) (index : TextIndex σ) :
    Prop where
  inserted : index.inserted = entries.map fun item => (item.1, (sketch ops item.2).1)
  grams : ∀ item ∈ entries, index.grams item.1 = some (gramSet ops item.2)
  texts : Latest (canonical ops) entries index.texts
  templates : Latest (fun problem => template ops (canonical ops problem)) entries index.templates

variable {query : List (String × σ) → σ → List String} {entries : List (String × String)}
  {index index' : TextIndex σ} {key problem : String}

theorem indexed_empty : Indexed ops [] (.empty : TextIndex σ) :=
  ⟨rfl, by simp, latest_empty _, latest_empty _⟩

theorem Indexed.keys (h : Indexed ops entries index) :
    index.inserted.map Prod.fst = entries.map Prod.fst := by
  rw [h.inserted, List.map_map]
  rfl

theorem insert_returns (problem : String) (h : Indexed ops entries index)
    (hkey : key ∉ entries.map Prod.fst) :
    ∃ index', index.insert ops key problem = .ok index' := by
  rw [TextIndex.insert, h.keys, check_of hkey]
  exact ⟨_, rfl⟩

theorem Indexed.insert (h : Indexed ops entries index)
    (hinsert : index.insert ops key problem = .ok index') :
    key ∉ entries.map Prod.fst ∧ Indexed ops (entries ++ [(key, problem)]) index' := by
  simp only [TextIndex.insert, except_bind_eq_ok, check_eq_ok, Except.ok.injEq] at hinsert
  obtain ⟨-, hkey, rfl⟩ := hinsert
  rw [h.keys] at hkey
  refine ⟨hkey, ?_⟩
  constructor
  case inserted =>
    rw [h.inserted, List.map_append]
    rfl
  case texts => exact h.texts.insert key problem
  case templates =>
    dsimp only
    exact h.templates.insert key problem
  case grams =>
    intro item hitem
    rcases List.mem_append.mp hitem with hitem | hitem
    · have hne : item.1 ≠ key := fun heq => hkey (heq ▸ List.mem_map_of_mem hitem)
      show Function.update _ key _ item.1 = _
      rw [Function.update_of_ne hne]
      exact h.grams item hitem
    · rw [List.mem_singleton.mp hitem]
      show Function.update _ key _ key = _
      rw [Function.update_self]
      rfl

theorem nearKeys_eq (problem : String) (h : Indexed ops entries index) :
    ∀ {keys : List String}, (∀ key ∈ keys, key ∈ entries.map Prod.fst) →
      ∃ near, nearKeys index (gramSet ops problem) keys = .ok near ∧
        ∀ key, key ∈ near ↔ key ∈ keys ∧ ∃ grams, index.grams key = some grams ∧
          4 / 5 ≤ jaccard (gramSet ops problem) grams := by
  intro keys
  induction keys with
  | nil => exact fun _ => ⟨[], rfl, by simp⟩
  | cons key keys ih =>
      intro hkeys
      obtain ⟨near, hnear, hmem⟩ := ih fun other hother => hkeys other (by simp [hother])
      obtain ⟨item, hitem, rfl⟩ := List.mem_map.mp (hkeys key (by simp))
      have hgrams := h.grams item hitem
      have hrun : nearKeys index (gramSet ops problem) (item.1 :: keys) =
          .ok (if 4 / 5 ≤ jaccard (gramSet ops problem) (gramSet ops item.2)
            then item.1 :: near else near) := by
        rw [nearKeys, fetch_of hgrams, except_ok_bind, similarity_eq, except_ok_bind, hnear,
          except_ok_bind]
      refine ⟨_, hrun, fun other => ?_⟩
      split
      · next hshared =>
          rw [List.mem_cons, List.mem_cons, hmem]
          constructor
          · rintro (heq | ⟨hother, hgramsOther⟩)
            · exact ⟨.inl heq, _, heq ▸ hgrams, hshared⟩
            · exact ⟨.inr hother, hgramsOther⟩
          · rintro ⟨heq | hother, hgramsOther⟩
            · exact .inl heq
            · exact .inr ⟨hother, hgramsOther⟩
      · next hshared =>
          rw [hmem, List.mem_cons]
          constructor
          · exact fun ⟨hother, hgramsOther⟩ => ⟨.inr hother, hgramsOther⟩
          · rintro ⟨heq | hother, grams, hgramsOther, hsharedOther⟩
            · rw [heq, hgrams, Option.some.injEq] at hgramsOther
              rw [← hgramsOther] at hsharedOther
              exact absurd hsharedOther hshared
            · exact ⟨hother, grams, hgramsOther, hsharedOther⟩

/-- What a look-up returns: keys of entries that match, and of every matching entry either
its own key or that of one with the same text. -/
theorem matchesOf_eq (hquery : Answers candidate query) (h : Indexed ops entries index)
    (problem : String) :
    ∃ found, index.matchesOf ops query problem = .ok found ∧
      (∀ key ∈ found, ∃ other, (key, other) ∈ entries ∧ Linked ops candidate problem other) ∧
      ∀ item ∈ entries, Linked ops candidate problem item.2 →
        ∃ key ∈ found, key = item.1 ∨
          ∃ other, (key, other) ∈ entries ∧ SameText ops other item.2 := by
  have hqueried : ∀ key ∈ query index.inserted (sketch ops problem).1,
      key ∈ entries.map Prod.fst := by
    intro key hkey
    obtain ⟨other, hother, -⟩ := (hquery _ _ _).mp hkey
    rw [← h.keys]
    exact List.mem_map_of_mem hother
  obtain ⟨near, hnear, hmem⟩ := nearKeys_eq problem h hqueried
  have hrun : index.matchesOf ops query problem = .ok (near ++
      (index.texts (canonical ops problem)).toList ++
        (index.templates (template ops (canonical ops problem))).toList) := by
    rw [TextIndex.matchesOf]
    show (nearKeys index (gramSet ops problem)
      (query index.inserted (sketch ops problem).1) >>= _) = _
    rw [hnear, except_ok_bind]
  refine ⟨_, hrun, ?_, ?_⟩
  · intro key hkey
    rw [List.mem_append, List.mem_append, Option.mem_toList, Option.mem_toList] at hkey
    rcases hkey with (hkey | hkey) | hkey
    · -- the grams that are on record for a key are those of the entry that was inserted
      obtain ⟨hkey, grams, hgrams, hshared⟩ := (hmem key).mp hkey
      obtain ⟨sketched, hinserted, hcandidate⟩ := (hquery _ _ _).mp hkey
      rw [h.inserted] at hinserted
      obtain ⟨item, hitem, heq⟩ := List.mem_map.mp hinserted
      obtain ⟨rfl, rfl⟩ := Prod.mk.inj heq
      rw [h.grams item hitem, Option.some.injEq] at hgrams
      exact ⟨item.2, hitem, .inr ⟨hcandidate, by rwa [hgrams]⟩⟩
    · obtain ⟨other, hother, htext⟩ := h.texts.entry _ _ hkey
      exact ⟨other, hother, .inl (.inl htext.symm)⟩
    · obtain ⟨other, hother, htext⟩ := h.templates.entry _ _ hkey
      exact ⟨other, hother, .inl (.inr htext.symm)⟩
  · rintro item hitem ((htext | htext) | ⟨hcandidate, hshared⟩)
    · obtain ⟨key, hkey⟩ := h.texts.known item hitem
      obtain ⟨other, hother, hsame⟩ := h.texts.entry _ _ hkey
      exact ⟨key, by simp [htext, hkey], .inr ⟨other, hother, .inl hsame⟩⟩
    · obtain ⟨key, hkey⟩ := h.templates.known item hitem
      obtain ⟨other, hother, hsame⟩ := h.templates.entry _ _ hkey
      exact ⟨key, by simp [htext, hkey], .inr ⟨other, hother, .inr hsame⟩⟩
    · refine ⟨item.1, ?_, .inl rfl⟩
      have hasked : item.1 ∈ query index.inserted (sketch ops problem).1 := by
        rw [hquery, h.inserted]
        exact ⟨(sketch ops item.2).1, List.mem_map_of_mem hitem, hcandidate⟩
      rw [List.mem_append, List.mem_append]
      exact .inl (.inl ((hmem item.1).mpr ⟨hasked, _, h.grams item hitem, hshared⟩))

/-! ## Plain text

Lower-case text of letters, digits and spaces, with a digest of hexadecimal digits that
tells texts apart and the grams for their own sketch. -/

def plainOps : TextOps (List String) where
  nfkc := id
  lower := id
  isSpace c := c = ' '
  isWord c := c.isAlphanum
  isDigit c := c.isDigit
  sha256 text := String.ofList (text.toList.flatMap fun c => List.replicate c.toNat '0' ++ ['1'])
  minHash := id

/-- The keys of the sketches that are the same. -/
def sameSketch (inserted : List (String × List String)) (sketched : List String) : List String :=
  (inserted.filter fun item => item.2 = sketched).map Prod.fst

theorem sameSketch_answers : Answers (· = ·) sameSketch := by
  intro inserted sketched key
  simp [sameSketch, eq_comm]

theorem plainOps_injective : Function.Injective plainOps.sha256 := by
  have hunary : ∀ (m n : Nat) (us vs : List Char),
      List.replicate m '0' ++ '1' :: us = List.replicate n '0' ++ '1' :: vs → m = n ∧ us = vs := by
    intro m
    induction m with
    | zero =>
        intro n us vs h
        cases n with
        | zero => simpa using h
        | succ n => simp [List.replicate_succ] at h
    | succ m ih =>
        intro n us vs h
        cases n with
        | zero => simp [List.replicate_succ] at h
        | succ n =>
            rw [List.replicate_succ, List.replicate_succ, List.cons_append, List.cons_append,
              List.cons.injEq] at h
            obtain ⟨rfl, rfl⟩ := ih n us vs h.2
            exact ⟨rfl, rfl⟩
  have hchars : ∀ xs ys : List Char,
      (xs.flatMap fun c => List.replicate c.toNat '0' ++ ['1']) =
        (ys.flatMap fun c => List.replicate c.toNat '0' ++ ['1']) → xs = ys := by
    intro xs
    induction xs with
    | nil =>
        intro ys h
        cases ys with
        | nil => rfl
        | cons y ys => simp at h
    | cons x xs ih =>
        intro ys h
        cases ys with
        | nil => simp at h
        | cons y ys =>
            rw [List.flatMap_cons, List.flatMap_cons, List.append_assoc, List.append_assoc] at h
            obtain ⟨hxy, hrest⟩ := hunary _ _ _ _ h
            rw [Char.toNat_inj.mp hxy, ih ys hrest]
  intro a b h
  have hlists := hchars _ _ (String.ofList_injective h)
  exact String.toList_inj.mp hlists

theorem plainOps_digits (text : String) :
    ∀ c ∈ (plainOps.sha256 text).toList, c = '0' ∨ c = '1' := by
  intro c hc
  rw [plainOps, String.toList_ofList, List.mem_flatMap] at hc
  obtain ⟨d, -, hc⟩ := hc
  rcases List.mem_append.mp hc with hc | hc
  · exact .inl (List.eq_of_mem_replicate hc)
  · exact .inr (List.mem_singleton.mp hc)

end Crisp.Proofs
