import Crisp.Ref.CodeSandbox
import Mathlib.Data.Finset.Card
import Mathlib.Data.List.Nodup

/-!
# Merging the outcomes of a grading run

The keys are checked before anything is written; the outcomes are checked one by one,
each just before it is written. So a run whose keys do not match leaves every candidate
as it was, and a run whose keys match goes on up to the first outcome that is missing or
not a boolean: the candidates before it have their outcomes, that candidate has those
of its outcomes that come first, and the candidates after it have none.
-/

namespace Crisp.Proofs

open Crisp.Lib Crisp.Ref

variable {ν κ : Type}

/-- The record has a boolean in the field. -/
def IsOutcome (ops : ValueOps ν κ) (record : GradeRecord ν) (field : String) : Prop :=
  ∃ value, record field = some value ∧ ops.isBool value = true

/-- All four outcomes of the record are booleans. -/
def Gradable (ops : ValueOps ν κ) (record : GradeRecord ν) : Prop :=
  ∀ field ∈ outcomeFields, IsOutcome ops record field

/-- The row with these fields taken over from the record. -/
def takeFields (fields : List String) (record row : GradeRecord ν) : GradeRecord ν :=
  fun field => if field ∈ fields then record field else row field

/-- The rows and the records have keys, those of the rows are distinct, and those of the
records are the same ones in some order. -/
structure KeysMatch (ops : ValueOps ν κ) (rows graded : List (GradeRecord ν)) : Prop where
  keyed : ∀ row ∈ rows, ∃ key, drawKey ops row = .ok key
  distinct : (rows.map (drawKey ops)).Nodup
  perm : (graded.map (drawKey ops)).Perm (rows.map (drawKey ops))

/-- The row has the outcomes of the record with its key, and is as it was elsewhere. -/
def MergedFrom (ops : ValueOps ν κ) (graded : List (GradeRecord ν))
    (row row' : GradeRecord ν) : Prop :=
  ∃ record ∈ graded, drawKey ops record = drawKey ops row ∧ Gradable ops record ∧
    row' = takeFields outcomeFields record row

/-- The rows when the first outcome that is no boolean has been met: the rows before its row
are merged, its row has the outcomes before it, and the other rows are as they were. -/
def StoppedAt (ops : ValueOps ν κ) (graded rows rows' : List (GradeRecord ν)) : Prop :=
  ∃ done done' row rest record written field later,
    rows = done ++ row :: rest ∧
    rows' = done' ++ takeFields written record row :: rest ∧
    List.Forall₂ (MergedFrom ops graded) done done' ∧
    record ∈ graded ∧ drawKey ops record = drawKey ops row ∧
    outcomeFields = written ++ field :: later ∧
    (∀ field ∈ written, IsOutcome ops record field) ∧ ¬ IsOutcome ops record field

/-! ## Writing -/

section Writing

variable {ops : ValueOps ν κ} {record row : GradeRecord ν}

theorem writeOutcome_ok {field : String} (h : IsOutcome ops record field) :
    writeOutcome ops record field row = .ok ⟨⟩ (Function.update row field (record field)) := by
  obtain ⟨value, hvalue, hbool⟩ := h
  rw [writeOutcome, bind_of_ok (by rw [fetch_of hvalue]; rfl), bind_of_ok (require_of hbool),
    hvalue]
  rfl

theorem writeOutcome_error {field : String} (h : ¬ IsOutcome ops record field) :
    ∃ e, writeOutcome ops record field row = .error e row := by
  rw [writeOutcome]
  cases hvalue : record field with
  | none => exact ⟨missingKey field, bind_of_error (by rw [fetch, hvalue]; rfl)⟩
  | some value =>
      have hbool : ¬ ops.isBool value = true := fun hbool => h ⟨value, hvalue, hbool⟩
      exact ⟨_, (bind_of_ok (by rw [fetch_of hvalue]; rfl)).trans
        (bind_of_error (require_of_not hbool))⟩

theorem takeFields_cons {field : String} {fields : List String} :
    takeFields (field :: fields) record row =
      takeFields fields record (Function.update row field (record field)) := by
  funext name
  rw [takeFields, takeFields]
  by_cases hmem : name ∈ fields
  · rw [if_pos (List.mem_cons_of_mem _ hmem), if_pos hmem]
  · rw [if_neg hmem]
    by_cases hname : name = field
    · rw [hname, if_pos List.mem_cons_self, Function.update_self]
    · rw [if_neg (by simp [hname, hmem]), Function.update_of_ne hname]

theorem writeOutcomes_ok {fields : List String} (h : ∀ field ∈ fields, IsOutcome ops record field) :
    fields.forM (writeOutcome ops record) row = .ok ⟨⟩ (takeFields fields record row) := by
  induction fields generalizing row with
  | nil => rfl
  | cons field fields ih =>
      rw [List.forM, bind_of_ok (writeOutcome_ok (h field List.mem_cons_self)),
        ih fun other hother => h other (List.mem_cons_of_mem _ hother), takeFields_cons]

/-- The loop stops at the first field that is no boolean. -/
theorem writeOutcomes_error {written later : List String} {field : String}
    (h : ∀ field ∈ written, IsOutcome ops record field) (hfield : ¬ IsOutcome ops record field) :
    ∃ e, (written ++ field :: later).forM (writeOutcome ops record) row =
      .error e (takeFields written record row) := by
  induction written generalizing row with
  | nil =>
      obtain ⟨e, he⟩ := @writeOutcome_error _ _ ops record row field hfield
      refine ⟨e, ?_⟩
      rw [List.nil_append, List.forM, bind_of_error he]
      rfl
  | cons first written ih =>
      obtain ⟨e, he⟩ := @ih (Function.update row first (record first))
        fun other hother => h other (List.mem_cons_of_mem _ hother)
      refine ⟨e, ?_⟩
      rw [List.cons_append, List.forM, bind_of_ok (writeOutcome_ok (h first List.mem_cons_self)),
        he, takeFields_cons]

end Writing

/-! ## Keys -/

theorem nodup_map_ok {ε α : Type} {xs : List α} :
    (xs.map (Except.ok : α → Except ε α)).Nodup ↔ xs.Nodup :=
  List.nodup_map_iff fun _ _ h => by injection h

theorem perm_map_ok {ε α : Type} {xs ys : List α}
    (h : (xs.map (Except.ok : α → Except ε α)).Perm (ys.map .ok)) : xs.Perm ys := by
  have hmap := h.filterMap Except.toOption
  simpa [List.filterMap_map, Function.comp_def, Except.toOption] using hmap

variable {ops : ValueOps ν κ} {rows graded : List (GradeRecord ν)}

/-- A row has a record of its own where the keys match. -/
theorem KeysMatch.record (h : KeysMatch ops rows graded) {row : GradeRecord ν} (hrow : row ∈ rows) :
    ∃ record ∈ graded, drawKey ops record = drawKey ops row :=
  List.mem_map.mp (h.perm.symm.subset (List.mem_map_of_mem hrow))

/-- A record is found again by its key. -/
theorem KeysMatch.eq_of_key (h : KeysMatch ops rows graded) {record record' : GradeRecord ν}
    (hrecord : record ∈ graded) (hrecord' : record' ∈ graded)
    (hkey : drawKey ops record = drawKey ops record') : record = record' :=
  List.inj_on_of_nodup_map (h.perm.nodup_iff.mpr h.distinct) hrecord hrecord' hkey

/-! ## One row -/

section Row

variable {table : κ × κ → Option (GradeRecord ν)} {row row' : GradeRecord ν}

theorem mergeRow_eq {record : GradeRecord ν} {key : κ × κ} (hkey : drawKey ops row = .ok key)
    (htable : table key = some record) :
    mergeRow ops table row = outcomeFields.forM (writeOutcome ops record) row := by
  rw [mergeRow, bind_of_ok get_run, bind_of_ok (by rw [hkey]; rfl),
    bind_of_ok (by rw [fetch_of htable]; rfl)]

/-- Either all fields pass, or there is a first one that does not. -/
theorem all_or_first {α : Type} {P : α → Prop} (xs : List α) :
    (∀ x ∈ xs, P x) ∨ ∃ front x rest, xs = front ++ x :: rest ∧ (∀ y ∈ front, P y) ∧ ¬ P x := by
  induction xs with
  | nil => exact Or.inl (by simp)
  | cons x xs ih =>
      by_cases hx : P x
      · rcases ih with hall | ⟨front, y, rest, rfl, hfront, hy⟩
        · exact Or.inl (List.forall_mem_cons.mpr ⟨hx, hall⟩)
        · exact Or.inr ⟨x :: front, y, rest, rfl, List.forall_mem_cons.mpr ⟨hx, hfront⟩, hy⟩
      · exact Or.inr ⟨[], x, xs, rfl, by simp, hx⟩

/-- What becomes of a row whose record is in the table. -/
theorem mergeRow_cases (h : KeysMatch ops rows graded)
    (htable : ∀ record ∈ graded, ∀ key, drawKey ops record = .ok key → table key = some record)
    (hrow : row ∈ rows) :
    ∃ record ∈ graded, drawKey ops record = drawKey ops row ∧
      ((Gradable ops record ∧
          mergeRow ops table row = .ok ⟨⟩ (takeFields outcomeFields record row)) ∨
        ∃ written field later e, outcomeFields = written ++ field :: later ∧
          (∀ field ∈ written, IsOutcome ops record field) ∧ ¬ IsOutcome ops record field ∧
          mergeRow ops table row = .error e (takeFields written record row)) := by
  obtain ⟨key, hkey⟩ := h.keyed row hrow
  obtain ⟨record, hrecord, hsame⟩ := h.record hrow
  have heq := mergeRow_eq hkey (htable record hrecord key (hsame.trans hkey))
  refine ⟨record, hrecord, hsame, ?_⟩
  rcases @all_or_first _ (IsOutcome ops record) outcomeFields with hall | hfirst
  · exact Or.inl ⟨hall, heq.trans (writeOutcomes_ok hall)⟩
  · obtain ⟨written, field, later, hsplit, hwritten, hfield⟩ := hfirst
    obtain ⟨e, he⟩ := @writeOutcomes_error _ _ ops record row written later field hwritten hfield
    refine Or.inr ⟨written, field, later, e, hsplit, hwritten, hfield, ?_⟩
    rw [heq, hsplit, he]

/-- The rows a run passes are merged. -/
theorem mergedFrom_of_forall₂ (h : KeysMatch ops rows graded)
    (htable : ∀ record ∈ graded, ∀ key, drawKey ops record = .ok key → table key = some record)
    {done done' : List (GradeRecord ν)} (hdone : ∀ row ∈ done, row ∈ rows)
    (hrun : List.Forall₂ (fun row row' => mergeRow ops table row = .ok ⟨⟩ row') done done') :
    List.Forall₂ (MergedFrom ops graded) done done' := by
  refine ((List.forall₂_and_left done done').mpr ⟨hdone, hrun⟩).imp fun row row' hrow => ?_
  obtain ⟨record, hrecord, hkey, ⟨hgradable, hok⟩ | ⟨_, _, _, e, _, _, _, herror⟩⟩ :=
    mergeRow_cases h htable hrow.1
  · rw [hok] at hrow
    injection hrow.2 with _ heq
    exact ⟨record, hrecord, hkey, hgradable, heq.symm⟩
  · rw [herror] at hrow
    cases hrow.2

theorem mergedFrom_unique (h : KeysMatch ops rows graded) {a b : GradeRecord ν}
    (ha : MergedFrom ops graded row a) (hb : MergedFrom ops graded row b) : a = b := by
  obtain ⟨record, hrecord, hkey, -, rfl⟩ := ha
  obtain ⟨record', hrecord', hkey', -, rfl⟩ := hb
  rw [h.eq_of_key hrecord hrecord' (hkey.trans hkey'.symm)]

end Row

/-! ## The checks of the keys -/

variable [DecidableEq κ]

theorem nodup_of_card_toFinset {xs : List κ} (h : xs.toFinset.card = xs.length) :
    xs.Nodup := by
  rw [List.card_toFinset] at h
  rw [← (List.dedup_sublist xs).eq_of_length h]
  exact List.nodup_dedup xs

theorem keysMatch_of_gradedByDraw {table : κ × κ → Option (GradeRecord ν)}
    (h : gradedByDraw ops rows graded = .ok table) : KeysMatch ops rows graded := by
  simp only [gradedByDraw, except_bind_eq_ok, check_eq_ok] at h
  obtain ⟨rowKeys, hrows, -, ⟨hcard, hlength⟩, gradedKeys, hgraded, -, hsame, -⟩ := h
  rw [except_mapM_eq_ok_iff] at hrows hgraded
  have hrowLength : rowKeys.length = rows.length := by
    simpa using (congrArg List.length hrows).symm
  have hgradedLength : gradedKeys.length = graded.length := by
    simpa using (congrArg List.length hgraded).symm
  have hnodup : rowKeys.Nodup := nodup_of_card_toFinset (hcard.trans hrowLength.symm)
  have hnodup' : gradedKeys.Nodup := by
    refine nodup_of_card_toFinset ?_
    rw [hsame, hcard, hgradedLength, hlength]
  refine ⟨fun row hrow => ?_, ?_, ?_⟩
  · have hmem := List.mem_map_of_mem (f := drawKey ops) hrow
    rw [hrows, List.mem_map] at hmem
    obtain ⟨key, -, hkey⟩ := hmem
    exact ⟨key, hkey.symm⟩
  · rw [hrows]
    exact nodup_map_ok.mpr hnodup
  · rw [hrows, hgraded]
    refine List.Perm.map _ ((List.perm_ext_iff_of_nodup hnodup' hnodup).mpr fun key => ?_)
    rw [← List.mem_toFinset, hsame, List.mem_toFinset]

/-- Where the keys match the table has every record under its key. -/
theorem KeysMatch.gradedByDraw (h : KeysMatch ops rows graded) :
    ∃ table, gradedByDraw ops rows graded = .ok table ∧
      ∀ record ∈ graded, ∀ key, drawKey ops record = .ok key → table key = some record := by
  have hkeys : ∀ xs : List (GradeRecord ν), (∀ x ∈ xs, ∃ key, drawKey ops x = .ok key) →
      ∃ keys, xs.mapM (drawKey ops) = .ok keys := fun xs hxs => except_mapM_returns hxs
  obtain ⟨rowKeys, hrows⟩ := hkeys rows h.keyed
  have hgradedKeyed : ∀ record ∈ graded, ∃ key, drawKey ops record = .ok key := by
    intro record hrecord
    have hmem := h.perm.subset (List.mem_map_of_mem hrecord)
    obtain ⟨row, hrow, heq⟩ := List.mem_map.mp hmem
    obtain ⟨key, hkey⟩ := h.keyed row hrow
    exact ⟨key, heq.symm.trans hkey⟩
  obtain ⟨gradedKeys, hgraded⟩ := hkeys graded hgradedKeyed
  have hrows' := except_mapM_eq_ok_iff.mp hrows
  have hgraded' := except_mapM_eq_ok_iff.mp hgraded
  have hdistinct := h.distinct
  have hperm := h.perm
  rw [hrows'] at hdistinct hperm
  rw [hgraded'] at hperm
  have hnodup := nodup_map_ok.mp hdistinct
  have hperm' := perm_map_ok hperm
  have hrowLength : rowKeys.length = rows.length := by
    simpa using (congrArg List.length hrows').symm
  have hgradedLength : gradedKeys.length = graded.length := by
    simpa using (congrArg List.length hgraded').symm
  have hfirst : rowKeys.toFinset.card = rows.length ∧ graded.length = rows.length := by
    refine ⟨?_, ?_⟩
    · rw [List.toFinset_card_of_nodup hnodup, hrowLength]
    · rw [← hgradedLength, hperm'.length_eq, hrowLength]
  have hsecond : gradedKeys.toFinset = rowKeys.toFinset := List.toFinset_eq_of_perm _ _ hperm'
  refine ⟨tableOf (gradedKeys.zip graded), ?_, fun record hrecord key hkey => ?_⟩
  · rw [Ref.gradedByDraw, hrows, except_ok_bind, check_of hfirst, except_ok_bind, hgraded,
      except_ok_bind, check_of hsecond, except_ok_bind]
  · obtain ⟨key', hkey', hmem⟩ := mem_zip_of_forall₂ (except_mapM_forall₂ hgraded) hrecord
    rw [hkey] at hkey'
    obtain rfl : key = key' := by injection hkey'
    refine tableOf_of_mem ?_ hmem
    rw [List.map_fst_zip (by rw [hgradedLength])]
    exact hperm'.nodup_iff.mpr hnodup

/-! ## The whole run -/

variable {rows' : List (GradeRecord ν)}

/-- Keys that do not match are found out before anything is written. -/
theorem mergeResults_of_not_keysMatch (h : ¬ KeysMatch ops rows graded) :
    ∃ e, mergeResults ops graded rows = .error e rows := by
  cases hdraw : gradedByDraw ops rows graded with
  | ok table => exact absurd (keysMatch_of_gradedByDraw hdraw) h
  | error e =>
      refine ⟨e, ?_⟩
      rw [mergeResults, bind_of_ok get_run]
      exact bind_of_error (by rw [hdraw]; rfl)

theorem mergeResults_of_keysMatch (h : KeysMatch ops rows graded) :
    ∃ table : κ × κ → Option (GradeRecord ν),
      (∀ record ∈ graded, ∀ key, drawKey ops record = .ok key → table key = some record) ∧
      mergeResults ops graded rows = eachCell (mergeRow ops table) rows := by
  obtain ⟨table, hdraw, htable⟩ := h.gradedByDraw
  refine ⟨table, htable, ?_⟩
  rw [mergeResults, bind_of_ok get_run]
  exact bind_of_ok (by rw [hdraw]; rfl)

theorem mergeResults_returned (h : mergeResults ops graded rows = .ok ⟨⟩ rows') :
    KeysMatch ops rows graded ∧ List.Forall₂ (MergedFrom ops graded) rows rows' := by
  have hkeys : KeysMatch ops rows graded := by
    by_contra hno
    obtain ⟨e, he⟩ := mergeResults_of_not_keysMatch hno
    rw [he] at h
    cases h
  obtain ⟨table, htable, hrun⟩ := mergeResults_of_keysMatch hkeys
  rw [hrun, eachCell_eq_ok] at h
  exact ⟨hkeys, mergedFrom_of_forall₂ hkeys htable (fun row hrow => hrow) h⟩

theorem mergeResults_raised {e : PyError} (h : mergeResults ops graded rows = .error e rows')
    (hkeys : KeysMatch ops rows graded) : StoppedAt ops graded rows rows' := by
  obtain ⟨table, htable, hrun⟩ := mergeResults_of_keysMatch hkeys
  rw [hrun, eachCell_eq_error] at h
  obtain ⟨done, done', row, row', rest, hrows, rfl, hdone, herror⟩ := h
  have hmem : ∀ other ∈ done, other ∈ rows := by
    intro other hother
    rw [hrows]
    exact List.mem_append_left _ hother
  have hrow : row ∈ rows := by
    rw [hrows]
    simp
  obtain ⟨record, hrecord, hkey, ⟨-, hok⟩ | ⟨written, field, later, e', hsplit, hwritten, hfield,
    herror'⟩⟩ := mergeRow_cases hkeys htable hrow
  · rw [hok] at herror
    cases herror
  · rw [herror'] at herror
    injection herror with _ heq
    subst heq
    exact ⟨done, done', row, rest, record, written, field, later, hrows, rfl,
      mergedFrom_of_forall₂ hkeys htable hmem hdone, hrecord, hkey, hsplit, hwritten, hfield⟩

theorem returns_iff : (∃ rows', mergeResults ops graded rows = .ok ⟨⟩ rows') ↔
    KeysMatch ops rows graded ∧ ∀ record ∈ graded, Gradable ops record := by
  constructor
  · rintro ⟨rows', h⟩
    obtain ⟨hkeys, hmerged⟩ := mergeResults_returned h
    refine ⟨hkeys, fun record hrecord => ?_⟩
    obtain ⟨row, hrow, hkey⟩ := List.mem_map.mp (hkeys.perm.subset (List.mem_map_of_mem hrecord))
    obtain ⟨row', ⟨record', hrecord', hkey', hgradable, -⟩, -⟩ := mem_zip_of_forall₂ hmerged hrow
    rwa [hkeys.eq_of_key hrecord hrecord' (hkey.symm.trans hkey'.symm)]
  · rintro ⟨hkeys, hgradable⟩
    cases hrun : mergeResults ops graded rows with
    | ok u rows' => exact ⟨rows', rfl⟩
    | error e rows' =>
        obtain ⟨_, _, _, _, record, _, field, _, -, -, -, hrecord, -, hsplit, -, hfield⟩ :=
          mergeResults_raised hrun hkeys
        exact absurd (hgradable record hrecord field (by rw [hsplit]; simp)) hfield

/-- The order of the records makes no difference. -/
theorem mergeResults_perm {graded' : List (GradeRecord ν)} (hperm : graded'.Perm graded)
    (h : mergeResults ops graded rows = .ok ⟨⟩ rows') :
    mergeResults ops graded' rows = .ok ⟨⟩ rows' := by
  obtain ⟨hkeys, hmerged⟩ := mergeResults_returned h
  have hgradable := (returns_iff.mp ⟨rows', h⟩).2
  have hkeys' : KeysMatch ops rows graded' :=
    ⟨hkeys.keyed, hkeys.distinct, (hperm.map _).trans hkeys.perm⟩
  obtain ⟨rows'', h'⟩ := returns_iff.mpr
    ⟨hkeys', fun record hrecord => hgradable record (hperm.subset hrecord)⟩
  have hmerged' : List.Forall₂ (MergedFrom ops graded) rows rows'' :=
    (mergeResults_returned h').2.imp fun row row' hrow => by
      obtain ⟨record, hrecord, hrest⟩ := hrow
      exact ⟨record, hperm.subset hrecord, hrest⟩
  have hunique : Relator.RightUnique (MergedFrom ops graded) :=
    fun _ _ _ ha hb => mergedFrom_unique hkeys ha hb
  rw [h', hunique.forall₂ hmerged hmerged']

/-- What a merge does to the candidates, however it ends. -/
theorem mergeResults_outcome (ops : ValueOps ν κ) (rows graded : List (GradeRecord ν)) :
    ((∃ rows', mergeResults ops graded rows = .ok ⟨⟩ rows') ↔
      KeysMatch ops rows graded ∧ ∀ record ∈ graded, Gradable ops record) ∧
    (∀ rows', mergeResults ops graded rows = .ok ⟨⟩ rows' →
      List.Forall₂ (MergedFrom ops graded) rows rows' ∧
        ∀ graded', graded'.Perm graded → mergeResults ops graded' rows = .ok ⟨⟩ rows') ∧
    ∀ e rows', mergeResults ops graded rows = .error e rows' →
      (¬ KeysMatch ops rows graded → rows' = rows) ∧
        (KeysMatch ops rows graded → StoppedAt ops graded rows rows') := by
  refine ⟨returns_iff, fun rows' h => ?_, fun e rows' h => ⟨fun hno => ?_, mergeResults_raised h⟩⟩
  · exact ⟨(mergeResults_returned h).2, fun graded' hperm => mergeResults_perm hperm h⟩
  · obtain ⟨e', he⟩ := mergeResults_of_not_keysMatch hno
    rw [h] at he
    injection he

/-- A few JSON values. -/
inductive JsonScalar where
  | text (value : String)
  | int (value : Int)
  | bool (value : Bool)
  deriving DecidableEq

/-- As keys `False` and `True` are `0` and `1`. -/
def scalarOps : ValueOps JsonScalar (String ⊕ Int) where
  key
    | .text value => some (.inl value)
    | .int value => some (.inr value)
    | .bool value => some (.inr (if value then 1 else 0))
  typeName
    | .text _ => "str"
    | .int _ => "int"
    | .bool _ => "bool"
  isBool
    | .bool _ => true
    | _ => false

/-- A candidate that has not been graded. -/
def ungraded (draw : Int) : GradeRecord JsonScalar := fun field =>
  if field = "id" then some (.text "task") else if field = "draw" then some (.int draw) else none

/-- Its record, with this value for `correct`. -/
def gradedAs (draw : Int) (correct : JsonScalar) : GradeRecord JsonScalar := fun field =>
  if field = "correct" then some correct
  else if field ∈ outcomeFields then some (.bool false) else ungraded draw field

/-- The second record says `1` where it should say `true`; the first candidate is graded
all the same. -/
theorem mergeResults_partly : ∃ e rows',
    mergeResults scalarOps [gradedAs 0 (.bool true), gradedAs 1 (.int 1)] [ungraded 0, ungraded 1] =
        .error e rows' ∧
      rows'.map (fun row => row "correct") = [some (.bool true), none] ∧
      rows' ≠ [ungraded 0, ungraded 1] := by
  refine ⟨_, _, rfl, by decide, fun h => ?_⟩
  have hcorrect := congrArg (fun rows => rows.map fun row => row "correct") h
  revert hcorrect
  decide

end Crisp.Proofs
