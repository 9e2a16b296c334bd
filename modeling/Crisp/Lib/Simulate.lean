import Crisp.Lib.History

/-!
# Two runs of one body

A body that reads only part of its state returns the same from two states that agree on
that part. `Simulates` says so of what is returned, with what the two states have in
common before and after; a body that raises is nobody's simulation. `Erases` says of a
body with proof-only state that it is another one once that state is forgotten.
-/

namespace Crisp.Lib

variable {ε σ κ α β : Type}

/-- What `x` returns from a state, `y` returns from every state it stands to as `R`, and
the states they leave stand as `S`. -/
def Simulates (R S : σ → σ → Prop) (x y : EStateM ε σ α) : Prop :=
  ∀ s t a s', R s t → x s = .ok a s' → ∃ t', y t = .ok a t' ∧ S s' t'

variable {R S Q : σ → σ → Prop}

theorem Simulates.refl {x : EStateM ε σ α} : Simulates Eq Eq x x := by
  rintro s t a s' rfl hx
  exact ⟨s', hx, rfl⟩

theorem Simulates.weaken {R' : σ → σ → Prop} {x y : EStateM ε σ α} (h : Simulates R S x y)
    (hR : ∀ s t, R' s t → R s t) : Simulates R' S x y :=
  fun s t a s' hst hx => h s t a s' (hR s t hst) hx

theorem Simulates.pure {a : α} (h : ∀ s t, R s t → S s t) :
    Simulates R S (pure a : EStateM ε σ α) (pure a) := by
  intro s t b s' hst hx
  cases hx
  exact ⟨t, rfl, h s t hst⟩

theorem Simulates.modify {f g : σ → σ} (h : ∀ s t, R s t → S (f s) (g t)) :
    Simulates R S (modify f : EStateM ε σ Unit) (modify g) := by
  intro s t b s' hst hx
  cases hx
  exact ⟨g t, rfl, h s t hst⟩

theorem Simulates.lift {x : Except ε α} : Simulates R R (lift x : EStateM ε σ α) (lift x) := by
  intro s t a s' hst hx
  obtain ⟨hvalue, rfl⟩ := lift_returned hx
  exact ⟨t, by rw [hvalue, lift_ok], hst⟩

theorem Simulates.require {ok : Prop} [Decidable ok] {error : ε} :
    Simulates R R (require ok error : EStateM ε σ Unit) (require ok error) := by
  intro s t a s' hst hx
  by_cases hok : ok
  · rw [require_of hok] at hx
    cases hx
    exact ⟨t, require_of hok, hst⟩
  · rw [require_of_not hok] at hx
    cases hx

theorem Simulates.bind {x y : EStateM ε σ α} {f g : α → EStateM ε σ β}
    (hxy : Simulates R Q x y) (hfg : ∀ a, Simulates Q S (f a) (g a)) :
    Simulates R S (x >>= f) (y >>= g) := by
  intro s t b s' hst hrun
  obtain ⟨a, mid, hx, hf⟩ := run_bind hrun
  obtain ⟨mid', hy, hmid⟩ := hxy s t a mid hst hx
  obtain ⟨t', hg, hS⟩ := hfg a mid mid' b s' hmid hf
  exact ⟨t', by rw [bind_of_ok hy, hg], hS⟩

/-- What ends in an exception returns nothing. -/
theorem Simulates.bind_throw {x : EStateM ε σ α} {y : EStateM ε σ β} {e : ε} :
    Simulates R S (x >>= fun _ => throw e) y := by
  intro s t b s' _ hrun
  obtain ⟨_, _, -, hthrow⟩ := run_bind hrun
  cases hthrow

/-- The state read is part of what the two have in common. -/
theorem Simulates.get_bind {f g : σ → EStateM ε σ α}
    (h : ∀ s t, R s t → Simulates R S (f s) (g t)) : Simulates R S (get >>= f) (get >>= g) :=
  fun s t a s' hst hx => h s t hst s t a s' hst hx

theorem Simulates.ite {c : Prop} [Decidable c] {x y x' y' : EStateM ε σ α}
    (hx : c → Simulates R S x x') (hy : ¬c → Simulates R S y y') :
    Simulates R S (if c then x else y) (if c then x' else y') := by
  split
  · next h => exact hx h
  · next h => exact hy h

/-- `try … finally` returned: its body and its handler did. -/
theorem tryFinally_returned {x : EStateM ε σ α} {h : EStateM ε σ β} {s s' : σ} {a : α}
    (hrun : tryFinally x h s = .ok a s') : ∃ t b, x s = .ok a t ∧ h t = .ok b s' := by
  simp only [tryFinally, Functor.map, EStateM.map, tryFinally'] at hrun
  cases hx : x s with
  | error e t =>
      rw [hx] at hrun
      cases hh : h t <;> simp [hh] at hrun
  | ok a' t =>
      rw [hx] at hrun
      cases hh : h t with
      | error e u => simp [hh] at hrun
      | ok b u =>
          simp only [hh, EStateM.Result.ok.injEq] at hrun
          obtain ⟨rfl, rfl⟩ := hrun
          exact ⟨t, b, rfl, hh⟩

theorem tryFinally_of_ok {x : EStateM ε σ α} {h : EStateM ε σ β} {s t s' : σ} {a : α} {b : β}
    (hx : x s = .ok a t) (hh : h t = .ok b s') : tryFinally x h s = .ok a s' := by
  simp only [tryFinally, Functor.map, EStateM.map, tryFinally', hx, hh]

theorem Simulates.try_finally {x y : EStateM ε σ α} {h k : EStateM ε σ β}
    (hxy : Simulates R Q x y) (hhk : Simulates Q S h k) :
    Simulates R S (tryFinally x h) (tryFinally y k) := by
  intro s t a s' hst hrun
  obtain ⟨mid, b, hx, hh⟩ := tryFinally_returned hrun
  obtain ⟨mid', hy, hmid⟩ := hxy s t a mid hst hx
  obtain ⟨t', hk, hS⟩ := hhk mid mid' b s' hmid hh
  exact ⟨t', tryFinally_of_ok hy hk, hS⟩

/-! ## Beside a history -/

/-- The states stand as `R`, whatever was noted. -/
def OnStates (R : σ → σ → Prop) (h h' : History κ σ) : Prop := R h.state h'.state

theorem Simulates.quiet {x y : EStateM ε σ α} (hxy : Simulates R S x y) :
    Simulates (OnStates (κ := κ) R) (OnStates S) (quiet x) (quiet y) := by
  intro h h' a after hR hrun
  obtain ⟨s', hx, rfl⟩ := quiet_returned hrun
  obtain ⟨t', hy, hS⟩ := hxy _ _ a s' hR hx
  exact ⟨{ h' with state := t' }, by simp only [Crisp.Lib.quiet, hy], hS⟩

theorem Simulates.noted {kind : κ} {x y : EStateM ε σ α} (hxy : Simulates R S x y) :
    Simulates (OnStates R) (OnStates S) (noted kind x) (noted kind y) := by
  intro h h' a after hR hrun
  obtain ⟨s', hx, rfl⟩ := noted_returned hrun
  obtain ⟨t', hy, hS⟩ := hxy _ _ a s' hR hx
  exact ⟨⟨t', h'.entries ++ [⟨kind, h'.state, t'⟩]⟩, by simp only [Crisp.Lib.noted, hy], hS⟩

theorem Simulates.quiet_get_bind {f g : σ → EStateM ε (History κ σ) α}
    {S : History κ σ → History κ σ → Prop}
    (h : ∀ s t, R s t → Simulates (OnStates R) S (f s) (g t)) :
    Simulates (OnStates R) S (Crisp.Lib.quiet get >>= f) (Crisp.Lib.quiet get >>= g) :=
  fun s t a s' hst hx => h s.state t.state hst s t a s' hst hx

variable {I : σ → Prop}

theorem Preserves.quiet_state {x : EStateM ε σ α} (h : Preserves I x) :
    Preserves (fun history : History κ σ => I history.state) (Crisp.Lib.quiet x) :=
  Triple.quiet (fun _ _ _ hI hx => h.ok hI hx) fun _ _ _ hI hx => h.error hI hx

theorem Preserves.noted_state {kind : κ} {x : EStateM ε σ α} (h : Preserves I x) :
    Preserves (fun history : History κ σ => I history.state) (Crisp.Lib.noted kind x) :=
  Triple.noted (fun _ _ _ hI hx => h.ok hI hx) fun _ _ _ hI hx => h.error hI hx

theorem Preserves.try_finally {x : EStateM ε σ α} {h : EStateM ε σ β} (hx : Preserves I x)
    (hh : Preserves I h) : Preserves I (tryFinally x h) :=
  Triple.try_finally hx (fun _ => hh) fun _ => hh

/-! ## Proof-only state -/

/-- Without what `proj` forgets, `y` is `x`. -/
def Erases {σ' : Type} (proj : σ' → σ) (y : EStateM ε σ' α) (x : EStateM ε σ α) : Prop :=
  ∀ s, match y s with
    | .ok a t => x (proj s) = .ok a (proj t)
    | .error e t => x (proj s) = .error e (proj t)

section Erases

variable {σ' : Type} {proj : σ' → σ}

theorem Erases.pure {a : α} : Erases proj (pure a : EStateM ε σ' α) (pure a) := fun _ => rfl

theorem Erases.bind {y : EStateM ε σ' α} {x : EStateM ε σ α} {g : α → EStateM ε σ' β}
    {f : α → EStateM ε σ β} (hyx : Erases proj y x) (hgf : ∀ a, Erases proj (g a) (f a)) :
    Erases proj (y >>= g) (x >>= f) := by
  intro s
  have h := hyx s
  cases hy : y s with
  | ok a t =>
      rw [hy] at h
      rw [bind_of_ok hy, bind_of_ok h]
      exact hgf a t
  | error e t =>
      rw [hy] at h
      rw [bind_of_error hy, bind_of_error h]

theorem Erases.ite {c : Prop} [Decidable c] {y y' : EStateM ε σ' α} {x x' : EStateM ε σ α}
    (h : c → Erases proj y x) (h' : ¬c → Erases proj y' x') :
    Erases proj (if c then y else y') (if c then x else x') := by
  split
  · next hc => exact h hc
  · next hc => exact h' hc

/-- What the body it is without returns, it returns too. -/
theorem Erases.returns {y : EStateM ε σ' α} {x : EStateM ε σ α} (hyx : Erases proj y x) {s : σ'}
    {a : α} {t : σ} (h : x (proj s) = .ok a t) : ∃ t', y s = .ok a t' ∧ proj t' = t := by
  have := hyx s
  cases hy : y s with
  | ok b t' =>
      rw [hy, h] at this
      cases this
      exact ⟨t', rfl, rfl⟩
  | error e t' =>
      rw [hy, h] at this
      cases this

end Erases

end Crisp.Lib
