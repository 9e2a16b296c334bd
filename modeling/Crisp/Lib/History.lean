import Crisp.Lib.Raise

/-!
# A history of designated calls

Proof-only state beside the real one: the calls a body makes at places its
author marks, each with the state before and the state after. `quiet` runs a
body without noting anything and `noted` runs it and notes the call, whichever
way it ends. `Good` carries a property of every noted call together with an
invariant of the state; both kinds of call preserve it under a rule of their own.
-/

namespace Crisp.Lib

variable {ε σ κ α β : Type}

/-- One noted call. -/
structure Entry (κ σ : Type) where
  kind : κ
  before : σ
  after : σ

/-- A state and the calls that led to it, the first one first. -/
structure History (κ σ : Type) where
  state : σ
  entries : List (Entry κ σ)

/-- The same body beside a history it does not touch. -/
def quiet (x : EStateM ε σ α) : EStateM ε (History κ σ) α := fun h =>
  match x h.state with
  | .ok a t => .ok a { h with state := t }
  | .error e t => .error e { h with state := t }

/-- The same body as one noted call. -/
def noted (kind : κ) (x : EStateM ε σ α) : EStateM ε (History κ σ) α := fun h =>
  match x h.state with
  | .ok a t => .ok a ⟨t, h.entries ++ [⟨kind, h.state, t⟩]⟩
  | .error e t => .error e ⟨t, h.entries ++ [⟨kind, h.state, t⟩]⟩

theorem quiet_returned {x : EStateM ε σ α} {h h' : History κ σ} {a : α}
    (hrun : quiet x h = .ok a h') : ∃ t, x h.state = .ok a t ∧ h' = { h with state := t } := by
  unfold quiet at hrun
  cases hx : x h.state with
  | ok b t =>
      rw [hx] at hrun
      cases hrun
      exact ⟨t, rfl, rfl⟩
  | error e t =>
      rw [hx] at hrun
      cases hrun

theorem noted_returned {kind : κ} {x : EStateM ε σ α} {h h' : History κ σ} {a : α}
    (hrun : noted kind x h = .ok a h') :
    ∃ t, x h.state = .ok a t ∧ h' = ⟨t, h.entries ++ [⟨kind, h.state, t⟩]⟩ := by
  unfold noted at hrun
  cases hx : x h.state with
  | ok b t =>
      rw [hx] at hrun
      cases hrun
      exact ⟨t, rfl, rfl⟩
  | error e t =>
      rw [hx] at hrun
      cases hrun

/-- The state satisfies `I` and every noted call `E`. -/
structure Good (I : σ → Prop) (E : Entry κ σ → Prop) (h : History κ σ) : Prop where
  state : I h.state
  entries : ∀ e ∈ h.entries, E e

variable {I : σ → Prop} {E : Entry κ σ → Prop}

/-- A body that preserves the invariant may run unnoted. -/
theorem Preserves.quiet {x : EStateM ε σ α} (h : Preserves I x) :
    Preserves (Good I E) (quiet x) := by
  intro s hs
  have := h s.state hs.state
  unfold Crisp.Lib.quiet
  cases hx : x s.state with
  | ok a t =>
      rw [hx] at this
      exact ⟨this, hs.entries⟩
  | error e t =>
      rw [hx] at this
      exact ⟨this, hs.entries⟩

theorem Good.append {h : History κ σ} {t : σ} {kind : κ} (hgood : Good I E h)
    (ht : I t) (hentry : E ⟨kind, h.state, t⟩) :
    Good I E ⟨t, h.entries ++ [⟨kind, h.state, t⟩]⟩ := by
  refine ⟨ht, ?_⟩
  intro e he
  rcases List.mem_append.mp he with hold | hnew
  · exact hgood.entries e hold
  · rw [List.mem_singleton.mp hnew]
    exact hentry

/-- A noted body must also make a good entry, whichever way it ends. -/
theorem Preserves.noted {kind : κ} {x : EStateM ε σ α}
    (h : ∀ s, I s →
      match x s with
      | .ok _ t => I t ∧ E ⟨kind, s, t⟩
      | .error _ t => I t ∧ E ⟨kind, s, t⟩) :
    Preserves (Good I E) (noted kind x) := by
  intro s hs
  have := h s.state hs.state
  unfold Crisp.Lib.noted
  cases hx : x s.state with
  | ok a t =>
      rw [hx] at this
      exact hs.append this.1 this.2
  | error e t =>
      rw [hx] at this
      exact hs.append this.1 this.2

/-! ## Histories in order -/

theorem Triple.quiet {P : History κ σ → Prop} {Q : α → History κ σ → Prop}
    {R : ε → History κ σ → Prop} {x : EStateM ε σ α}
    (hok : ∀ h a t, P h → x h.state = .ok a t → Q a { h with state := t })
    (herr : ∀ h e t, P h → x h.state = .error e t → R e { h with state := t }) :
    Triple P (quiet x) Q R := by
  intro h hP
  unfold Crisp.Lib.quiet
  cases hx : x h.state with
  | ok a t => exact hok h a t hP hx
  | error e t => exact herr h e t hP hx

theorem Triple.noted {P : History κ σ → Prop} {Q : α → History κ σ → Prop}
    {R : ε → History κ σ → Prop} {kind : κ} {x : EStateM ε σ α}
    (hok : ∀ h a t, P h → x h.state = .ok a t →
      Q a ⟨t, h.entries ++ [⟨kind, h.state, t⟩]⟩)
    (herr : ∀ h e t, P h → x h.state = .error e t →
      R e ⟨t, h.entries ++ [⟨kind, h.state, t⟩]⟩) :
    Triple P (noted kind x) Q R := by
  intro h hP
  unfold Crisp.Lib.noted
  cases hx : x h.state with
  | ok a t => exact hok h a t hP hx
  | error e t => exact herr h e t hP hx

theorem Returns.noted {x : EStateM ε σ α} {Q : α → Prop} {kind : κ} (h : Returns x Q) :
    Returns (noted kind x) Q :=
  Triple.noted (fun _ _ _ _ hx => h.apply hx) fun _ _ _ _ _ => trivial

/-- Every call stands to the calls before it as `P` says. -/
def EachAfter (P : List (Entry κ σ) → Entry κ σ → Prop) (entries : List (Entry κ σ)) :
    Prop :=
  ∀ before e after, entries = before ++ e :: after → P before e

theorem eachAfter_nil {P : List (Entry κ σ) → Entry κ σ → Prop} : EachAfter P [] := by
  intro before e after h
  simp at h

theorem EachAfter.snoc {P : List (Entry κ σ) → Entry κ σ → Prop}
    {entries : List (Entry κ σ)} {last : Entry κ σ} (h : EachAfter P entries)
    (hlast : P entries last) : EachAfter P (entries ++ [last]) := by
  intro before e after hsplit
  rcases List.eq_nil_or_concat after with rfl | ⟨init, last', rfl⟩
  · obtain ⟨rfl, he⟩ := List.append_inj' hsplit rfl
    cases he
    exact hlast
  · rw [List.concat_eq_append, ← List.cons_append, ← List.append_assoc] at hsplit
    obtain ⟨hinit, -⟩ := List.append_inj' hsplit rfl
    exact h before e init hinit

end Crisp.Lib
