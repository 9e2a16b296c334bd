import Mathlib.Data.List.Infix

/-!
# Pieces of a text

Where a separator first stands in a text, and the pieces the text falls into at
the separators, read from the left without overlaps.
-/

namespace Crisp.Lib

variable {α : Type} [DecidableEq α]

/-- The text before and after the first `sep`. -/
def cutAt (sep : List α) : List α → Option (List α × List α)
  | [] => if sep = [] then some ([], []) else none
  | c :: text =>
      if sep.isPrefixOf (c :: text) then some ([], (c :: text).drop sep.length)
      else (cutAt sep text).map fun cut => (c :: cut.1, cut.2)

/-- The pieces of a text of which `piece` has been read; `skip` characters belong to
the separator before. -/
def piecesFrom (sep : List α) : Nat → List α → List α → List (List α)
  | _, piece, [] => [piece]
  | skip + 1, piece, _ :: text => piecesFrom sep skip piece text
  | 0, piece, c :: text =>
      if sep.isPrefixOf (c :: text) then piece :: piecesFrom sep (sep.length - 1) [] text
      else piecesFrom sep 0 (piece ++ [c]) text

/-- `text.split(sep)`. -/
def pieces (sep text : List α) : List (List α) := piecesFrom sep 0 [] text

/-- `text.count(sep)`. -/
def countOf (sep text : List α) : Nat := (pieces sep text).length - 1

/-! ## The first separator -/

variable {sep text before after : List α}

theorem cutAt_front (h : sep <+: text) : cutAt sep text = some ([], text.drop sep.length) := by
  cases text with
  | nil =>
      rw [List.prefix_nil] at h
      rw [cutAt, if_pos h, h]
      rfl
  | cons c text => rw [cutAt, if_pos (List.isPrefixOf_iff_prefix.mpr h)]

theorem cutAt_skip {c : α} (h : ¬ sep <+: c :: text) :
    cutAt sep (c :: text) = (cutAt sep text).map fun cut => (c :: cut.1, cut.2) := by
  rw [cutAt, if_neg fun hpre => h (List.isPrefixOf_iff_prefix.mp hpre)]

/-- What a cut says, and that nothing stands before it. -/
theorem cutAt_spec (h : cutAt sep text = some (before, after)) :
    text = before ++ sep ++ after ∧ ∀ i < before.length, ¬ sep <+: text.drop i := by
  induction text generalizing before with
  | nil =>
      rw [cutAt] at h
      split at h
      · next hsep =>
          obtain ⟨rfl, rfl⟩ : [] = before ∧ [] = after := by simpa using h
          exact ⟨by simp [hsep], by simp⟩
      · cases h
  | cons c text ih =>
      by_cases hpre : sep <+: c :: text
      · rw [cutAt_front hpre] at h
        obtain ⟨rfl, rfl⟩ : [] = before ∧ (c :: text).drop sep.length = after := by simpa using h
        refine ⟨?_, by simp⟩
        rw [List.nil_append, ← List.prefix_iff_eq_append.mp hpre, List.drop_left' rfl]
      · rw [cutAt_skip hpre] at h
        obtain ⟨⟨before', after'⟩, hcut, heq⟩ := Option.map_eq_some_iff.mp h
        obtain ⟨rfl, rfl⟩ : c :: before' = before ∧ after' = after := by simpa using heq
        obtain ⟨htext, hnone⟩ := ih hcut
        refine ⟨by rw [htext]; rfl, fun i hi => ?_⟩
        cases i with
        | zero => exact hpre
        | succ i => exact hnone i (by simpa using hi)

theorem cutAt_eq_none : cutAt sep text = none ↔ ¬ sep <:+: text := by
  induction text with
  | nil =>
      rw [cutAt, List.infix_nil]
      split
      · next h => simp [h]
      · next h => simp [h]
  | cons c text ih =>
      rw [List.infix_cons_iff]
      by_cases hpre : sep <+: c :: text
      · rw [cutAt_front hpre]
        simp [hpre]
      · rw [cutAt_skip hpre, Option.map_eq_none_iff, ih]
        simp [hpre]

/-- A text in which the separator cannot start is passed over. -/
theorem cutAt_append {a : α} {sep front text : List α} (hfront : a ∉ front) :
    cutAt (a :: sep) (front ++ text) =
      (cutAt (a :: sep) text).map fun cut => (front ++ cut.1, cut.2) := by
  induction front with
  | nil => simp
  | cons c front ih =>
      rw [List.mem_cons, not_or] at hfront
      have hpre : ¬ a :: sep <+: c :: (front ++ text) := by
        rw [List.cons_prefix_cons]
        exact fun h => hfront.1 h.1
      rw [List.cons_append, cutAt_skip hpre, ih hfront.2, Option.map_map]
      rfl

omit [DecidableEq α] in
/-- Where a single separator first stands is determined by the text. -/
theorem cut_unique {a : α} {front rest front' rest' : List α} (hfront : a ∉ front)
    (hfront' : a ∉ front') (h : front ++ a :: rest = front' ++ a :: rest') :
    front = front' ∧ rest = rest' := by
  induction front generalizing front' with
  | nil =>
      cases front' with
      | nil => exact ⟨rfl, (List.cons_eq_cons.mp h).2⟩
      | cons b front' =>
          obtain ⟨rfl, -⟩ := List.cons_eq_cons.mp h
          exact absurd (by simp) hfront'
  | cons c front ih =>
      cases front' with
      | nil =>
          obtain ⟨rfl, -⟩ := List.cons_eq_cons.mp h
          exact absurd (by simp) hfront
      | cons b front' =>
          obtain ⟨rfl, htail⟩ := List.cons_eq_cons.mp h
          rw [List.mem_cons, not_or] at hfront hfront'
          obtain ⟨rfl, hrest⟩ := ih hfront.2 hfront'.2 htail
          exact ⟨rfl, hrest⟩

/-! ## The pieces -/

theorem piecesFrom_skip : ∀ (skip : Nat) (piece text : List α),
    piecesFrom sep skip piece text = piecesFrom sep 0 piece (text.drop skip)
  | 0, piece, text => by rw [List.drop_zero]
  | skip + 1, piece, [] => by simp [piecesFrom]
  | skip + 1, piece, c :: text => by
      rw [piecesFrom, piecesFrom_skip skip piece text, List.drop_succ_cons]

theorem piecesFrom_eq (hsep : sep ≠ []) : ∀ (text piece : List α),
    piecesFrom sep 0 piece text =
      match cutAt sep text with
      | none => [piece ++ text]
      | some (before, after) => (piece ++ before) :: pieces sep after
  | [], piece => by rw [cutAt, if_neg hsep, piecesFrom, List.append_nil]
  | c :: text, piece => by
      by_cases hpre : sep <+: c :: text
      · obtain ⟨d, sep', rfl⟩ := List.exists_cons_of_ne_nil hsep
        rw [piecesFrom, if_pos (List.isPrefixOf_iff_prefix.mpr hpre), cutAt_front hpre,
          piecesFrom_skip]
        simp [pieces]
      · rw [piecesFrom, if_neg fun h => hpre (List.isPrefixOf_iff_prefix.mp h), cutAt_skip hpre,
          piecesFrom_eq hsep text (piece ++ [c])]
        cases cutAt sep text with
        | none => simp
        | some cut => simp

theorem pieces_of_none (hsep : sep ≠ []) (h : cutAt sep text = none) :
    pieces sep text = [text] := by
  rw [pieces, piecesFrom_eq hsep, h]
  rfl

theorem pieces_of_some (hsep : sep ≠ []) (h : cutAt sep text = some (before, after)) :
    pieces sep text = before :: pieces sep after := by
  rw [pieces, piecesFrom_eq hsep, h]
  rfl

theorem pieces_ne_nil (hsep : sep ≠ []) (text : List α) : pieces sep text ≠ [] := by
  cases hcut : cutAt sep text with
  | none =>
      rw [pieces_of_none hsep hcut]
      simp
  | some cut =>
      rw [pieces_of_some hsep hcut]
      simp

theorem pieces_length (hsep : sep ≠ []) (text : List α) :
    (pieces sep text).length = countOf sep text + 1 := by
  have := List.length_pos_iff.mpr (pieces_ne_nil hsep text)
  rw [countOf]
  omega

theorem countOf_pos (hsep : sep ≠ []) (h : sep <:+: text) : 0 < countOf sep text := by
  cases hcut : cutAt sep text with
  | none => exact absurd h (cutAt_eq_none.mp hcut)
  | some cut =>
      have := List.length_pos_iff.mpr (pieces_ne_nil hsep cut.2)
      rw [countOf, pieces_of_some hsep hcut, List.length_cons]
      omega

end Crisp.Lib
