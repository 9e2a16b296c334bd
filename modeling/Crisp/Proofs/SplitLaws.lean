import Crisp.Ref.MathCycle

/-!
# The pools of a split

Four sets of groups bear on five pools: what is reserved is held out whatever the
fraction asks, what was trained on before may be held out only that way, and both
panels keep away from it. The laws are stated of the rows that come back.

That the order of the rows does not matter has two halves. The pools are lists of
groups looked up in the rows, and a lookup among distinct groups sees the rows as
a set; the lists are sorted by ranks, and a sort by ranks that differ sees its
groups as a set.
-/

namespace Crisp.Proofs

open Crisp.Lib Crisp.Ref

section Groups

variable (order : SetOrder) (sha256 : String → String) (config : SplitConfig)
  (groups : Finset String)

/-- How many groups the fraction asks for beyond the reserved ones. -/
def neededGroups : Int :=
  max 0 (⌈(groups.card : ℚ) * config.validationFraction⌉ - ((groups ∩ config.reserved).card : Int))

/-- The groups that may be held out for the fraction, as they are taken. -/
def unexposedGroups : List String :=
  sortedGroups order (rank sha256 config.seed "validation")
    ((groups \ (groups ∩ config.reserved)) \ config.priorTraining)

def validationGroups : Finset String :=
  (groups ∩ config.reserved) ∪
    ((unexposedGroups order sha256 config groups).take (neededGroups config groups).toNat).toFinset

def trainGroups : List String :=
  sortedGroups order
    (fun group => toLex (decide (group ∈ config.priorTraining),
      rank sha256 config.seed "training" group))
    (groups \ validationGroups order sha256 config groups)

def tuningGroups : List String :=
  (sortedGroups order (rank sha256 config.seed "tuning")
    ((validationGroups order sha256 config groups \ config.finalTest) \ config.priorTraining)).take
    config.panelSize.toNat

def sealedGroups : List String :=
  sortedGroups order id (validationGroups order sha256 config groups \
    (tuningGroups order sha256 config groups).toFinset)

end Groups

variable {ρ : Type} {order : SetOrder} {sha256 : String → String} {config : SplitConfig}
  {rows : List (SplitRow ρ)} {pools : Pools ρ}

/-- The groups of the rows. -/
def groupsOf (rows : List (SplitRow ρ)) : Finset String := (rows.map SplitRow.problemId).toFinset

/-- The split in terms of its lists of groups. -/
theorem partitionRows_eq :
    partitionRows order sha256 rows config = (do
      check ((groupsOf rows).card = rows.length)
        (valueError "Split input must contain one representative per duplicate group")
      check ((0 < config.validationFraction ∧ config.validationFraction < 1) ∧
        1 ≤ min config.panelSize config.screenSize) (valueError "Invalid split sizes")
      check (neededGroups config (groupsOf rows) ≤
          (unexposedGroups order sha256 config (groupsOf rows)).length)
        (valueError "Insufficient unexposed groups for the requested validation fraction")
      check ((tuningGroups order sha256 config (groupsOf rows)).length = config.panelSize ∧
          config.screenSize ≤
            (groupsOf rows \ validationGroups order sha256 config (groupsOf rows)).card)
        (valueError "Insufficient groups for tuning panel or screen")
      check (config.screenSize ≤
          ((groupsOf rows \ validationGroups order sha256 config (groupsOf rows)) \
            config.priorTraining).card)
        (valueError "Insufficient previously unused groups for the screen")
      .ok
        { train := ← (trainGroups order sha256 config (groupsOf rows)).mapM (byGroup rows)
          validation := ← (sortedGroups order id
            (validationGroups order sha256 config (groupsOf rows))).mapM (byGroup rows)
          validationTuning := ←
            (tuningGroups order sha256 config (groupsOf rows)).mapM (byGroup rows)
          validationSealed := ←
            (sealedGroups order sha256 config (groupsOf rows)).mapM (byGroup rows)
          screen := ← ((trainGroups order sha256 config (groupsOf rows)).take
            config.screenSize.toNat).mapM (byGroup rows) }) := rfl

/-! ## Looking groups up -/

theorem card_groupsOf_iff :
    (groupsOf rows).card = rows.length ↔ (rows.map SplitRow.problemId).Nodup := by
  have h := Multiset.toFinset_card_eq_card_iff_nodup
    (m := (rows.map SplitRow.problemId : Multiset String))
  simpa [groupsOf] using h

theorem mem_groupsOf {group : String} :
    group ∈ groupsOf rows ↔ ∃ row ∈ rows, row.problemId = group := by
  simp [groupsOf]

theorem byGroup_returned {group : String} {row : SplitRow ρ} (h : byGroup rows group = .ok row) :
    row ∈ rows ∧ row.problemId = group := by
  rw [byGroup] at h
  split at h
  · next found hfound =>
      cases h
      exact ⟨List.mem_reverse.mp (List.mem_of_find?_eq_some hfound),
        by simpa using List.find?_some hfound⟩
  · cases h

/-- Among distinct groups the lookup finds the one row there is. -/
theorem byGroup_eq_ok (hnodup : (rows.map SplitRow.problemId).Nodup) {row : SplitRow ρ}
    (hrow : row ∈ rows) : byGroup rows row.problemId = .ok row := by
  have hsome : (rows.reverse.find? fun other => other.problemId = row.problemId).isSome := by
    rw [List.find?_isSome]
    exact ⟨row, List.mem_reverse.mpr hrow, by simp⟩
  obtain ⟨found, hfound⟩ := Option.isSome_iff_exists.mp hsome
  have hmem := List.mem_reverse.mp (List.mem_of_find?_eq_some hfound)
  have hgroup : found.problemId = row.problemId := by simpa using List.find?_some hfound
  rw [byGroup, hfound, List.inj_on_of_nodup_map hnodup hmem hrow hgroup]

/-- So it does not see their order. -/
theorem byGroup_perm (hnodup : (rows.map SplitRow.problemId).Nodup) {rows' : List (SplitRow ρ)}
    (hperm : rows'.Perm rows) : byGroup rows' = byGroup rows := by
  have hnodup' : (rows'.map SplitRow.problemId).Nodup := (hperm.map _).nodup_iff.mpr hnodup
  funext group
  by_cases hgroup : ∃ row ∈ rows, row.problemId = group
  · obtain ⟨row, hrow, rfl⟩ := hgroup
    rw [byGroup_eq_ok hnodup hrow, byGroup_eq_ok hnodup' (hperm.mem_iff.mpr hrow)]
  · have hnone : ∀ rs : List (SplitRow ρ), rs.Perm rows →
        byGroup rs group = .error (keyError s!"'{group}'") := by
      intro rs hrs
      have hfind : rs.reverse.find? (fun row => row.problemId = group) = none := by
        rw [List.find?_eq_none]
        intro row hrow hp
        exact hgroup ⟨row, hrs.mem_iff.mp (List.mem_reverse.mp hrow), by simpa using hp⟩
      rw [byGroup, hfind]
    rw [hnone rows' hperm, hnone rows (List.Perm.refl rows)]

/-- The rows of a list of groups. -/
def Drawn (rows : List (SplitRow ρ)) (groups : List String) (pool : List (SplitRow ρ)) : Prop :=
  List.Forall₂ (fun group row => byGroup rows group = .ok row) groups pool

theorem Drawn.groups {groups : List String} {pool : List (SplitRow ρ)}
    (h : Drawn rows groups pool) : pool.map SplitRow.problemId = groups := by
  induction h with
  | nil => rfl
  | cons hrow _ ih => rw [List.map_cons, ih, (byGroup_returned hrow).2]

theorem Drawn.subset {groups : List String} {pool : List (SplitRow ρ)}
    (h : Drawn rows groups pool) : ∀ row ∈ pool, row ∈ rows := by
  induction h with
  | nil => simp
  | cons hrow _ ih =>
      intro row hmem
      rcases List.mem_cons.mp hmem with rfl | hmem
      · exact (byGroup_returned hrow).1
      · exact ih row hmem

theorem Drawn.unique {groups : List String} {pool pool' : List (SplitRow ρ)}
    (h : Drawn rows groups pool) (h' : Drawn rows groups pool') : pool = pool' := by
  induction h generalizing pool' with
  | nil => exact (List.forall₂_nil_left_iff.mp h').symm
  | cons hrow _ ih =>
      cases h' with
      | cons hrow' hrest =>
          rw [hrow, Except.ok.injEq] at hrow'
          rw [hrow', ih hrest]

theorem Drawn.append {groups groups' : List String} {pool pool' : List (SplitRow ρ)}
    (h : Drawn rows groups pool) (h' : Drawn rows groups' pool') :
    Drawn rows (groups ++ groups') (pool ++ pool') := List.rel_append h h'

theorem Drawn.nodup {groups : List String} {pool : List (SplitRow ρ)} (h : Drawn rows groups pool)
    (hgroups : groups.Nodup) : pool.Nodup :=
  List.Nodup.of_map SplitRow.problemId (by rwa [h.groups])

/-- Of the rows there are, a pool has those whose group was asked for. -/
theorem Drawn.mem {groups : List String} {pool : List (SplitRow ρ)} (h : Drawn rows groups pool)
    (hnodup : (rows.map SplitRow.problemId).Nodup) {row : SplitRow ρ} (hrow : row ∈ rows) :
    row ∈ pool ↔ row.problemId ∈ groups := by
  rw [← h.groups]
  constructor
  · exact List.mem_map_of_mem
  · intro hgroup
    obtain ⟨other, hother, heq⟩ := List.mem_map.mp hgroup
    rwa [← List.inj_on_of_nodup_map hnodup (h.subset other hother) hrow heq]

/-! ## The lists of groups -/

section Sorted

variable {κ : Type} [LinearOrder κ] {key : String → κ} {s : Finset String}

@[simp] theorem mem_sortedGroups {group : String} :
    group ∈ sortedGroups order key s ↔ group ∈ s := by
  rw [sortedGroups, mem_sortKeys, order.mem]

theorem sortedGroups_nodup : (sortedGroups order key s).Nodup :=
  sortKeys_nodup (order.nodup s)

@[simp] theorem sortedGroups_toFinset : (sortedGroups order key s).toFinset = s := by
  ext group
  simp

@[simp] theorem length_sortedGroups : (sortedGroups order key s).length = s.card := by
  have hnodup : (sortedGroups order key s).Nodup := sortedGroups_nodup
  rw [← List.toFinset_card_of_nodup hnodup, sortedGroups_toFinset]

/-- Ranks that differ leave nothing of the order a set is iterated in. -/
theorem sortedGroups_eq (order' : SetOrder) (hkey : Set.InjOn key s) :
    sortedGroups order' key s = sortedGroups order key s := by
  refine sortKeys_eq_of_perm ?_ fun a ha b hb => hkey ?_ ?_
  · rw [List.perm_ext_iff_of_nodup (order'.nodup s) (order.nodup s)]
    intro group
    rw [order'.mem, order.mem]
  · exact (order'.mem s a).mp ha
  · exact (order'.mem s b).mp hb

end Sorted

variable {groups : Finset String} {group : String}

theorem reserved_subset :
    groups ∩ config.reserved ⊆ validationGroups order sha256 config groups :=
  Finset.subset_union_left

theorem mem_unexposedGroups : group ∈ unexposedGroups order sha256 config groups ↔
    group ∈ groups ∧ group ∉ config.reserved ∧ group ∉ config.priorTraining := by
  rw [unexposedGroups, mem_sortedGroups]
  simp only [Finset.mem_sdiff, Finset.mem_inter]
  tauto

/-- A group held out is reserved, or it was never trained on. -/
theorem mem_validationGroups (h : group ∈ validationGroups order sha256 config groups) :
    group ∈ groups ∧ (group ∈ config.reserved ∨ group ∉ config.priorTraining) := by
  rw [validationGroups, Finset.mem_union] at h
  rcases h with h | h
  · rw [Finset.mem_inter] at h
    exact ⟨h.1, .inl h.2⟩
  · have htaken := List.mem_of_mem_take (List.mem_toFinset.mp h)
    obtain ⟨hgroup, -, hprior⟩ := mem_unexposedGroups.mp htaken
    exact ⟨hgroup, .inr hprior⟩

/-- What the fraction adds comes on top of what is reserved. -/
theorem card_validationGroups
    (h : neededGroups config groups ≤ (unexposedGroups order sha256 config groups).length) :
    ((validationGroups order sha256 config groups).card : Int) =
      (groups ∩ config.reserved).card + neededGroups config groups := by
  have hneeded : 0 ≤ neededGroups config groups := le_max_left _ _
  have hdisjoint : Disjoint (groups ∩ config.reserved)
      ((unexposedGroups order sha256 config groups).take
        (neededGroups config groups).toNat).toFinset := by
    rw [Finset.disjoint_left]
    intro g hreserved htaken
    have hmem := List.mem_of_mem_take (List.mem_toFinset.mp htaken)
    exact (mem_unexposedGroups.mp hmem).2.1 (Finset.mem_inter.mp hreserved).2
  have hnodup : ((unexposedGroups order sha256 config groups).take
      (neededGroups config groups).toNat).Nodup :=
    (List.take_sublist _ _).nodup sortedGroups_nodup
  rw [validationGroups, Finset.card_union_of_disjoint hdisjoint,
    List.toFinset_card_of_nodup hnodup, List.length_take]
  omega

theorem mem_trainGroups : group ∈ trainGroups order sha256 config groups ↔
    group ∈ groups ∧ group ∉ validationGroups order sha256 config groups := by
  rw [trainGroups, mem_sortedGroups, Finset.mem_sdiff]

theorem mem_tuningGroups (h : group ∈ tuningGroups order sha256 config groups) :
    group ∈ validationGroups order sha256 config groups ∧ group ∉ config.finalTest ∧
      group ∉ config.priorTraining := by
  have hmem := List.mem_of_mem_take h
  rw [mem_sortedGroups, Finset.mem_sdiff, Finset.mem_sdiff] at hmem
  exact ⟨hmem.1.1, hmem.1.2, hmem.2⟩

theorem tuningGroups_nodup : (tuningGroups order sha256 config groups).Nodup :=
  (List.take_sublist _ _).nodup sortedGroups_nodup

theorem mem_sealedGroups : group ∈ sealedGroups order sha256 config groups ↔
    group ∈ validationGroups order sha256 config groups ∧
      group ∉ tuningGroups order sha256 config groups := by
  rw [sealedGroups, mem_sortedGroups, Finset.mem_sdiff, List.mem_toFinset]

/-- Training puts the groups nobody has trained on first, so where there are enough of
them the screen has no others. -/
theorem screenGroups_unused {screen : Int}
    (h : screen ≤ ((groups \ validationGroups order sha256 config groups) \
      config.priorTraining).card) :
    ∀ g ∈ (trainGroups order sha256 config groups).take screen.toNat,
      g ∉ config.priorTraining := by
  have hpairwise : (trainGroups order sha256 config groups).Pairwise fun a b =>
      decide (a ∈ config.priorTraining) → decide (b ∈ config.priorTraining) := by
    refine (sortKeys_pairwise _ _).imp fun {a b} hle ha => ?_
    rcases Prod.Lex.le_iff.mp hle with hlt | ⟨heq, -⟩
    · simp only [ofLex_toLex] at hlt
      rw [ha] at hlt
      exact absurd hlt (by cases decide (b ∈ config.priorTraining) <;> decide)
    · simp only [ofLex_toLex] at heq
      exact heq ▸ ha
  have hunused : ((trainGroups order sha256 config groups).filter
      fun a => !decide (a ∈ config.priorTraining)).length =
      ((groups \ validationGroups order sha256 config groups) \ config.priorTraining).card := by
    have hnodup : (trainGroups order sha256 config groups).Nodup := sortedGroups_nodup
    rw [← List.toFinset_card_of_nodup (hnodup.filter _)]
    congr 1
    ext g
    simp [mem_trainGroups]
  intro g hg
  have := not_mem_take hpairwise (k := screen.toNat) (by omega) g hg
  simpa using this

/-! ## The laws -/

/-- What holds of the pools that come back. -/
structure SplitLaws (rows : List (SplitRow ρ)) (config : SplitConfig) (pools : Pools ρ) :
    Prop where
  partition : (pools.train ++ pools.validation).Perm rows
  reserved : ∀ row ∈ rows, row.problemId ∈ config.reserved → row ∈ pools.validation
  unexposed : ∀ row ∈ pools.validation, row.problemId ∉ config.reserved →
    row.problemId ∉ config.priorTraining
  fraction : ⌈(rows.length : ℚ) * config.validationFraction⌉ ≤ (pools.validation.length : Int)
  tuning_size : (pools.validationTuning.length : Int) = config.panelSize
  tuning_clean : ∀ row ∈ pools.validationTuning, row.problemId ∉ config.finalTest ∧
    row.problemId ∉ config.priorTraining
  held_out : (pools.validationTuning ++ pools.validationSealed).Perm pools.validation
  screen_size : (pools.screen.length : Int) = config.screenSize
  screen_prefix : pools.screen <+: pools.train
  screen_clean : ∀ row ∈ pools.screen, row.problemId ∉ config.priorTraining

theorem Drawn.length {names : List String} {pool : List (SplitRow ρ)}
    (h : Drawn rows names pool) : pool.length = names.length := by
  rw [← h.groups, List.length_map]

theorem Drawn.mem_group {names : List String} {pool : List (SplitRow ρ)}
    (h : Drawn rows names pool) {row : SplitRow ρ} (hrow : row ∈ pool) :
    row.problemId ∈ names := by
  rw [← h.groups]
  exact List.mem_map_of_mem hrow

theorem partitionRows_laws (h : partitionRows order sha256 rows config = .ok pools) :
    SplitLaws rows config pools := by
  rw [partitionRows_eq] at h
  simp only [except_bind_eq_ok, check_eq_ok, Except.ok.injEq] at h
  obtain ⟨-, hcard, -, ⟨-, hsizes⟩, -, hneeded, -, ⟨htuning_size, hscreen_le⟩, -, hunused, train,
    htrain, validation, hvalidation, tuning, htuning, held, hheld, screen, hscreen, rfl⟩ := h
  have hnodup := card_groupsOf_iff.mp hcard
  have hmemGroups : ∀ row ∈ rows, row.problemId ∈ groupsOf rows := fun row hrow =>
    mem_groupsOf.mpr ⟨row, hrow, rfl⟩
  replace htrain : Drawn rows _ train := except_mapM_forall₂ htrain
  replace hvalidation : Drawn rows _ validation := except_mapM_forall₂ hvalidation
  replace htuning : Drawn rows _ tuning := except_mapM_forall₂ htuning
  replace hheld : Drawn rows _ held := except_mapM_forall₂ hheld
  replace hscreen : Drawn rows _ screen := except_mapM_forall₂ hscreen
  -- the screen is drawn from the front of the training pool
  have hscreenFront : screen = train.take config.screenSize.toNat :=
    hscreen.unique (List.forall₂_take _ htrain)
  have hvalidationGroup : ∀ row ∈ validation,
      row.problemId ∈ validationGroups order sha256 config (groupsOf rows) := fun row hrow =>
    mem_sortedGroups.mp (hvalidation.mem_group hrow)
  have hdisjoint : (trainGroups order sha256 config (groupsOf rows) ++ sortedGroups order id
      (validationGroups order sha256 config (groupsOf rows))).Nodup := by
    refine List.Nodup.append sortedGroups_nodup sortedGroups_nodup fun g hg hg' => ?_
    exact (mem_trainGroups.mp hg).2 (mem_sortedGroups.mp hg')
  have hpanels : (tuningGroups order sha256 config (groupsOf rows) ++
      sealedGroups order sha256 config (groupsOf rows)).Nodup := by
    refine List.Nodup.append tuningGroups_nodup sortedGroups_nodup fun g hg hg' => ?_
    exact (mem_sealedGroups.mp hg').2 hg
  constructor
  case partition =>
    rw [List.perm_ext_iff_of_nodup ((htrain.append hvalidation).nodup hdisjoint) hnodup.of_map]
    intro row
    refine ⟨(htrain.append hvalidation).subset row, fun hrow => ?_⟩
    rw [(htrain.append hvalidation).mem hnodup hrow, List.mem_append, mem_trainGroups,
      mem_sortedGroups]
    by_cases hheldOut : row.problemId ∈ validationGroups order sha256 config (groupsOf rows)
    · exact .inr hheldOut
    · exact .inl ⟨hmemGroups row hrow, hheldOut⟩
  case reserved =>
    intro row hrow hreserved
    rw [hvalidation.mem hnodup hrow, mem_sortedGroups]
    exact reserved_subset (Finset.mem_inter.mpr ⟨hmemGroups row hrow, hreserved⟩)
  case unexposed =>
    intro row hrow hreserved
    exact (mem_validationGroups (hvalidationGroup row hrow)).2.resolve_left hreserved
  case fraction =>
    have hsize := card_validationGroups hneeded
    rw [hvalidation.length, length_sortedGroups, hsize, ← hcard, neededGroups]
    omega
  case tuning_size =>
    rw [htuning.length, htuning_size]
  case tuning_clean =>
    intro row hrow
    exact (mem_tuningGroups (htuning.mem_group hrow)).2
  case held_out =>
    rw [List.perm_ext_iff_of_nodup ((htuning.append hheld).nodup hpanels)
      (hvalidation.nodup sortedGroups_nodup)]
    intro row
    constructor
    · intro hrow
      rw [hvalidation.mem hnodup ((htuning.append hheld).subset row hrow), mem_sortedGroups]
      rcases List.mem_append.mp ((htuning.append hheld).mem_group hrow) with hg | hg
      · exact (mem_tuningGroups hg).1
      · exact (mem_sealedGroups.mp hg).1
    · intro hrow
      rw [(htuning.append hheld).mem hnodup (hvalidation.subset row hrow), List.mem_append,
        mem_sealedGroups]
      by_cases htuned : row.problemId ∈ tuningGroups order sha256 config (groupsOf rows)
      · exact .inl htuned
      · exact .inr ⟨hvalidationGroup row hrow, htuned⟩
  case screen_size =>
    have hlength : (trainGroups order sha256 config (groupsOf rows)).length =
        (groupsOf rows \ validationGroups order sha256 config (groupsOf rows)).card :=
      length_sortedGroups
    rw [hscreen.length, List.length_take, hlength]
    omega
  case screen_prefix =>
    rw [hscreenFront]
    exact List.take_prefix _ _
  case screen_clean =>
    intro row hrow
    exact screenGroups_unused hunused _ (hscreen.mem_group hrow)

/-! ## The order of the rows -/

section Orders

variable (order' : SetOrder) (hrank : ∀ pool, Set.InjOn (rank sha256 config.seed pool) groups)
include hrank

theorem unexposedGroups_eq :
    unexposedGroups order' sha256 config groups = unexposedGroups order sha256 config groups := by
  refine sortedGroups_eq order' ((hrank "validation").mono ?_)
  intro g hg
  have hg := Finset.mem_coe.mp hg
  exact (Finset.mem_sdiff.mp (Finset.mem_sdiff.mp hg).1).1

theorem validationGroups_eq : validationGroups order' sha256 config groups =
    validationGroups order sha256 config groups := by
  rw [validationGroups, unexposedGroups_eq order' hrank, validationGroups]

theorem trainGroups_eq :
    trainGroups order' sha256 config groups = trainGroups order sha256 config groups := by
  rw [trainGroups, validationGroups_eq order' hrank, trainGroups]
  refine sortedGroups_eq order' fun a ha b hb hab => ?_
  have ha := (Finset.mem_sdiff.mp (Finset.mem_coe.mp ha)).1
  have hb := (Finset.mem_sdiff.mp (Finset.mem_coe.mp hb)).1
  exact hrank "training" ha hb (congrArg (fun k => (ofLex k).2) hab)

theorem tuningGroups_eq :
    tuningGroups order' sha256 config groups = tuningGroups order sha256 config groups := by
  rw [tuningGroups, validationGroups_eq order' hrank, tuningGroups,
    sortedGroups_eq order' ((hrank "tuning").mono _)]
  intro g hg
  have hg := Finset.mem_sdiff.mp (Finset.mem_sdiff.mp (Finset.mem_coe.mp hg)).1
  exact (mem_validationGroups hg.1).1

theorem sealedGroups_eq :
    sealedGroups order' sha256 config groups = sealedGroups order sha256 config groups := by
  rw [sealedGroups, validationGroups_eq order' hrank, tuningGroups_eq order' hrank, sealedGroups]
  exact sortedGroups_eq order' Function.injective_id.injOn

end Orders

theorem partitionRows_perm
    (hrank : ∀ pool, Set.InjOn (rank sha256 config.seed pool) (groupsOf rows))
    (order' : SetOrder) {rows' : List (SplitRow ρ)} (hperm : rows'.Perm rows) :
    partitionRows order' sha256 rows' config = partitionRows order sha256 rows config := by
  have hgroups : groupsOf rows' = groupsOf rows := by
    ext group
    simp only [mem_groupsOf, hperm.mem_iff]
  rw [partitionRows_eq, partitionRows_eq, hgroups, hperm.length_eq]
  by_cases hcard : (groupsOf rows).card = rows.length
  · rw [byGroup_perm (card_groupsOf_iff.mp hcard) hperm, unexposedGroups_eq order' hrank,
      validationGroups_eq order' hrank, trainGroups_eq order' hrank, tuningGroups_eq order' hrank,
      sealedGroups_eq order' hrank, sortedGroups_eq order' Function.injective_id.injOn]
  · -- two rows of one group are refused before anything is drawn
    rw [check, if_neg hcard, except_error_bind, except_error_bind]

/-- The laws of a split, and that it goes by the set of rows: neither their order nor the
order a set is iterated in reaches the pools, or whether it raises. -/
theorem split_laws (order : SetOrder) (sha256 : String → String) (rows : List (SplitRow ρ))
    (config : SplitConfig)
    (hrank : ∀ pool, Set.InjOn (rank sha256 config.seed pool) (groupsOf rows)) :
    (∀ pools, partitionRows order sha256 rows config = .ok pools → SplitLaws rows config pools) ∧
      ∀ (order' : SetOrder) (rows' : List (SplitRow ρ)), rows'.Perm rows →
        partitionRows order' sha256 rows' config = partitionRows order sha256 rows config :=
  ⟨fun _ => partitionRows_laws, fun order' _ => partitionRows_perm hrank order'⟩

/-- A digest that tells texts apart ranks groups apart. -/
theorem rank_injective (h : Function.Injective sha256) (seed pool : String) :
    Function.Injective (rank sha256 seed pool) := by
  intro a b hab
  exact (String.append_right_inj _).mp (h hab)

def sixRows : List (SplitRow Unit) :=
  ["a", "b", "c", "d", "e", "f"].map fun group => ⟨group, ⟨⟩⟩

/-- Half of the groups are held out, one of them because it is reserved. -/
def sixConfig : SplitConfig where
  reserved := {"b"}
  priorTraining := {"b", "d"}
  finalTest := {"c"}
  seed := "7"
  validationFraction := 1 / 2
  panelSize := 1
  screenSize := 2

theorem split_laws_six : ∃ pools, partitionRows .byName id sixRows sixConfig = .ok pools ∧
    SplitLaws sixRows sixConfig pools ∧
    partitionRows .byName id sixRows.reverse sixConfig = .ok pools := by
  have hlaws := split_laws .byName id sixRows sixConfig fun pool =>
    (rank_injective Function.injective_id sixConfig.seed pool).injOn
  have hpools : partitionRows .byName id sixRows sixConfig = .ok
      { train := ["e", "f", "d"].map fun group => ⟨group, ⟨⟩⟩
        validation := ["a", "b", "c"].map fun group => ⟨group, ⟨⟩⟩
        validationTuning := [⟨"a", ⟨⟩⟩]
        validationSealed := ["b", "c"].map fun group => ⟨group, ⟨⟩⟩
        screen := ["e", "f"].map fun group => ⟨group, ⟨⟩⟩ } := by decide +kernel
  refine ⟨_, hpools, hlaws.1 _ hpools, ?_⟩
  rw [hlaws.2 .byName sixRows.reverse sixRows.reverse_perm, hpools]

end Crisp.Proofs
