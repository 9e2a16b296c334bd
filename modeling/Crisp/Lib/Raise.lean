import Mathlib.Data.List.Forall2
import Mathlib.Data.List.Nodup

/-!
# Stateful code that raises

A method that mutates its object and may raise is read as an `EStateM`: the
state it had reached travels with the exception, because nothing rolls an
object back when an exception leaves it. What a caller may rely on is then a
triple with two postconditions, one for returning and one for raising, and
the rules below are the whole of the logic: one for each way a body is put
together, `try … finally` included.

Nothing here knows what the state is.
-/

namespace Crisp.Lib

variable {ε σ α β : Type}

/-- The exceptions a body raises, by the class the source names. -/
inductive ErrorKind where
  | value
  | runtime
  | assertion
  | zeroDivision
  | timeout
  | fileNotFound
  | type
  | key
  | index
  | os
  deriving DecidableEq, Repr

/-- An exception: its class and its text. -/
structure PyError where
  kind : ErrorKind
  message : String
  deriving DecidableEq, Repr

def valueError (message : String) : PyError := ⟨.value, message⟩

def runtimeError (message : String) : PyError := ⟨.runtime, message⟩

def assertionError (message : String) : PyError := ⟨.assertion, message⟩

def typeError (message : String) : PyError := ⟨.type, message⟩

def keyError (message : String) : PyError := ⟨.key, message⟩

def indexError (message : String) : PyError := ⟨.index, message⟩

def zeroDivision : PyError := ⟨.zeroDivision, "division by zero"⟩

/-- Of `//` and `divmod`. -/
def zeroFloorDivision : PyError := ⟨.zeroDivision, "integer division or modulo by zero"⟩

/-- Of `%`. -/
def zeroModulo : PyError := ⟨.zeroDivision, "integer modulo by zero"⟩

/-- How `zip` names the arguments before the `i`-th, counted from nought. -/
def zipBefore (i : Nat) : String := if i = 1 then " 1" else s!"s 1-{i}"

/-- What `zip(…, strict=True)` raises where these of its arguments are exhausted. -/
def zipMismatch (exhausted : List Bool) : PyError :=
  match exhausted.findIdx id with
  | 0 =>
      let i := exhausted.findIdx not
      valueError s!"zip() argument {i + 1} is longer than argument{zipBefore i}"
  | i => valueError s!"zip() argument {i + 1} is shorter than argument{zipBefore i}"

/-! ## Pure validators

A validator reads its arguments and raises at the first check that fails. Its
rules turn "it returned" into the list of conditions that held. -/

/-- `if not ok: raise error`, where there is no state to keep. -/
def check (ok : Prop) [Decidable ok] (error : ε) : Except ε Unit :=
  if ok then .ok ⟨⟩ else .error error

@[simp] theorem check_eq_ok {ok : Prop} [Decidable ok] {error : ε} {u : Unit} :
    check ok error = .ok u ↔ ok := by
  unfold check
  split
  · next h => simp [h]
  · next h => simp [h]

theorem check_of {ok : Prop} [Decidable ok] {error : ε} (h : ok) :
    check ok error = .ok ⟨⟩ := check_eq_ok.mpr h

theorem check_congr {ok ok' : Prop} [Decidable ok] [Decidable ok'] {error : ε} (h : ok ↔ ok') :
    check ok error = check ok' error := by
  unfold check
  simp only [h]

/-- `table[key]`. -/
def fetch {κ : Type} (missing : κ → ε) (table : κ → Option α) (key : κ) : Except ε α :=
  match table key with
  | some a => .ok a
  | none => .error (missing key)

theorem fetch_of {κ : Type} {missing : κ → ε} {table : κ → Option α} {key : κ} {a : α}
    (h : table key = some a) : fetch missing table key = .ok a := by
  rw [fetch, h]

@[simp] theorem except_bind_eq_ok {x : Except ε α} {f : α → Except ε β} {b : β} :
    (x >>= f) = .ok b ↔ ∃ a, x = .ok a ∧ f a = .ok b := by
  cases x with
  | ok a => simp [bind, Except.bind]
  | error e => simp [bind, Except.bind]

@[simp] theorem except_pure_eq_ok {a b : α} :
    (pure a : Except ε α) = .ok b ↔ a = b := by
  simp [pure, Except.pure]

@[simp] theorem except_ok_bind {a : α} {f : α → Except ε β} :
    ((Except.ok a : Except ε α) >>= f) = f a := rfl

@[simp] theorem except_error_bind {e : ε} {f : α → Except ε β} :
    ((Except.error e : Except ε α) >>= f) = .error e := rfl

/-- A loop of checks returns exactly when every check does. -/
theorem except_forM_eq_ok {f : α → Except ε Unit} {xs : List α} {u : Unit} :
    xs.forM f = .ok u ↔ ∀ x ∈ xs, f x = .ok ⟨⟩ := by
  cases u
  induction xs with
  | nil => simp [List.forM, pure, Except.pure]
  | cons x xs ih =>
      rw [List.forM, except_bind_eq_ok]
      constructor
      · rintro ⟨⟨⟩, hx, hxs⟩ y hy
        rcases List.mem_cons.mp hy with rfl | hmem
        · exact hx
        · exact ih.mp hxs y hmem
      · intro h
        exact ⟨⟨⟩, h x (by simp), ih.mpr fun y hy => h y (by simp [hy])⟩

/-- A loop that raises the same error wherever it does is one check. -/
theorem except_forM_check {f : α → Except ε Unit} {ok : α → Prop} [DecidablePred ok] {error : ε}
    {xs : List α} (h : ∀ x ∈ xs, f x = check (ok x) error) :
    xs.forM f = check (∀ x ∈ xs, ok x) error := by
  induction xs with
  | nil => simp [List.forM, check, pure, Except.pure]
  | cons x xs ih =>
      rw [List.forM, h x (by simp), ih fun y hy => h y (by simp [hy])]
      by_cases hx : ok x
      · rw [check_of hx, except_ok_bind]
        exact check_congr (by simp [hx])
      · have hall : ¬ ∀ y ∈ x :: xs, ok y := fun hall => hx (hall x (by simp))
        unfold check
        rw [if_neg hx, if_neg hall, except_error_bind]

/-- A loop that collects returns what its steps return, when each does. -/
theorem except_mapM_eq_ok {f : α → Except ε β} {g : α → β} {xs : List α}
    (h : ∀ x ∈ xs, f x = .ok (g x)) : xs.mapM f = .ok (xs.map g) := by
  induction xs with
  | nil => rfl
  | cons x xs ih =>
      rw [List.mapM_cons, h x (by simp), except_ok_bind,
        ih fun y hy => h y (by simp [hy])]
      rfl

/-- A loop that returned has a result of every step. -/
theorem except_mapM_forall₂ {f : α → Except ε β} {xs : List α} :
    ∀ {ys : List β}, xs.mapM f = .ok ys → List.Forall₂ (fun x y => f x = .ok y) xs ys := by
  induction xs with
  | nil =>
      intro ys h
      rw [List.mapM_nil, except_pure_eq_ok] at h
      rw [← h]
      exact .nil
  | cons x xs ih =>
      intro ys h
      simp only [List.mapM_cons, except_bind_eq_ok, except_pure_eq_ok] at h
      obtain ⟨y, hy, rest, hrest, rfl⟩ := h
      exact .cons hy (ih hrest)

/-- A loop returns when each of its steps does. -/
theorem except_mapM_returns {f : α → Except ε β} {xs : List α}
    (h : ∀ x ∈ xs, ∃ y, f x = .ok y) : ∃ ys, xs.mapM f = .ok ys := by
  induction xs with
  | nil => exact ⟨[], rfl⟩
  | cons x xs ih =>
      obtain ⟨y, hy⟩ := h x (by simp)
      obtain ⟨ys, hys⟩ := ih fun z hz => h z (by simp [hz])
      exact ⟨y :: ys, by rw [List.mapM_cons, hy, except_ok_bind, hys, except_ok_bind]; rfl⟩

/-- What a loop that collects returned, without the monad. -/
theorem except_mapM_eq_ok_iff {f : α → Except ε β} {xs : List α} {ys : List β} :
    xs.mapM f = .ok ys ↔ xs.map f = ys.map .ok := by
  induction xs generalizing ys with
  | nil =>
      rw [List.mapM_nil, except_pure_eq_ok, List.map_nil]
      constructor
      · rintro rfl
        rfl
      · exact fun h => (List.map_eq_nil_iff.mp h.symm).symm
  | cons x xs ih =>
      simp only [List.mapM_cons, except_bind_eq_ok, except_pure_eq_ok, List.map_cons]
      constructor
      · rintro ⟨y, hy, rest, hrest, rfl⟩
        rw [hy, ih.mp hrest, List.map_cons]
      · intro h
        cases ys with
        | nil => cases h
        | cons y ys =>
            obtain ⟨hy, hys⟩ := List.cons_eq_cons.mp h
            exact ⟨y, hy, ys, ih.mpr hys, rfl⟩

/-! ## Dictionaries built from a list -/

/-- `{key: value for key, value in items}`, where the last value of a key stays. -/
def tableOf {κ : Type} [DecidableEq κ] (items : List (κ × α)) : κ → Option α :=
  items.foldl (fun table item => Function.update table item.1 (some item.2)) fun _ => none

section Table

variable {κ : Type} [DecidableEq κ] {items : List (κ × α)} {key : κ} {value : α}

theorem foldl_update_of_notMem {table : κ → Option α} (h : key ∉ items.map Prod.fst) :
    items.foldl (fun (table : κ → Option α) item => Function.update table item.1 (some item.2))
      table key = table key := by
  induction items generalizing table with
  | nil => rfl
  | cons item items ih =>
      rw [List.map_cons, List.mem_cons, not_or] at h
      rw [List.foldl_cons, ih h.2, Function.update_of_ne h.1]

theorem foldl_update_of_mem {table : κ → Option α} (hnodup : (items.map Prod.fst).Nodup)
    (h : (key, value) ∈ items) :
    items.foldl (fun (table : κ → Option α) item => Function.update table item.1 (some item.2))
      table key = some value := by
  induction items generalizing table with
  | nil => cases h
  | cons item items ih =>
      rw [List.map_cons, List.nodup_cons] at hnodup
      rw [List.foldl_cons]
      rcases List.mem_cons.mp h with rfl | hmem
      · rw [foldl_update_of_notMem hnodup.1, Function.update_self]
      · exact ih hnodup.2 hmem

/-- Built from distinct keys it has them all. -/
theorem tableOf_of_mem (hnodup : (items.map Prod.fst).Nodup) (h : (key, value) ∈ items) :
    tableOf items key = some value := foldl_update_of_mem hnodup h

end Table

/-- What stands opposite an element. -/
theorem mem_zip_of_forall₂ {R : α → β → Prop} {xs : List α} {ys : List β} (h : List.Forall₂ R xs ys)
    {x : α} (hx : x ∈ xs) : ∃ y, R x y ∧ (y, x) ∈ ys.zip xs := by
  induction h with
  | nil => cases hx
  | cons hxy _ ih =>
      rcases List.mem_cons.mp hx with rfl | hmem
      · exact ⟨_, hxy, by simp⟩
      · obtain ⟨y, hy, hzip⟩ := ih hmem
        exact ⟨y, hy, by simp [hzip]⟩

/-! ## Running a body one statement at a time -/

theorem bind_of_ok {x : EStateM ε σ α} {f : α → EStateM ε σ β} {s t : σ} {a : α}
    (h : x s = .ok a t) : (x >>= f) s = f a t := by
  show EStateM.bind x f s = f a t
  simp only [EStateM.bind, h]

theorem bind_of_error {x : EStateM ε σ α} {f : α → EStateM ε σ β} {s t : σ}
    {e : ε} (h : x s = .error e t) : (x >>= f) s = .error e t := by
  show EStateM.bind x f s = .error e t
  simp only [EStateM.bind, h]

/-- A sequence that returned, one statement at a time. -/
theorem run_bind {x : EStateM ε σ α} {f : α → EStateM ε σ β} {s t : σ} {b : β}
    (h : (x >>= f) s = .ok b t) : ∃ a u, x s = .ok a u ∧ f a u = .ok b t := by
  cases hx : x s with
  | ok a u =>
      rw [bind_of_ok hx] at h
      exact ⟨a, u, rfl, h⟩
  | error e u =>
      rw [bind_of_error hx] at h
      cases h

@[simp] theorem get_run {s : σ} : (get : EStateM ε σ σ) s = .ok s s := rfl

@[simp] theorem modify_run {f : σ → σ} {s : σ} :
    (modify f : EStateM ε σ Unit) s = .ok ⟨⟩ (f s) := rfl

@[simp] theorem pure_run {a : α} {s : σ} :
    (pure a : EStateM ε σ α) s = .ok a s := rfl

@[simp] theorem throw_run {e : ε} {s : σ} :
    (throw e : EStateM ε σ α) s = .error e s := rfl

/-- `if not ok: raise error`. -/
def require (ok : Prop) [Decidable ok] (error : ε) : EStateM ε σ Unit :=
  if ok then pure ⟨⟩ else throw error

theorem require_of {ok : Prop} [Decidable ok] {error : ε} {s : σ} (h : ok) :
    (require ok error : EStateM ε σ Unit) s = .ok ⟨⟩ s := by
  simp [require, h]

theorem require_of_not {ok : Prop} [Decidable ok] {error : ε} {s : σ}
    (h : ¬ ok) : (require ok error : EStateM ε σ Unit) s = .error error s := by
  simp [require, h]

theorem require_returned {ok : Prop} [Decidable ok] {error : ε} {s t : σ} {u : Unit}
    (h : (require ok error : EStateM ε σ Unit) s = .ok u t) : t = s := by
  by_cases hok : ok
  · rw [require_of hok] at h
    cases h
    rfl
  · rw [require_of_not hok] at h
    cases h

/-- A pure computation that may raise, run where there is a state. -/
def lift (x : Except ε α) : EStateM ε σ α := fun s =>
  match x with
  | .ok a => .ok a s
  | .error e => .error e s

@[simp] theorem lift_ok {a : α} {s : σ} :
    (lift (.ok a) : EStateM ε σ α) s = .ok a s := rfl

@[simp] theorem lift_error {e : ε} {s : σ} :
    (lift (.error e) : EStateM ε σ α) s = .error e s := rfl

theorem lift_returned {x : Except ε α} {a : α} {s t : σ}
    (h : (lift x : EStateM ε σ α) s = .ok a t) : x = .ok a ∧ t = s := by
  cases x with
  | ok b =>
      cases h
      exact ⟨rfl, rfl⟩
  | error e => cases h

/-- A loop that changes the elements of a list in place, one after the other. -/
def eachCell (body : EStateM ε σ Unit) : EStateM ε (List σ) Unit
  | [] => .ok ⟨⟩ []
  | cell :: cells =>
      match body cell with
      | .error e cell' => .error e (cell' :: cells)
      | .ok _ cell' =>
          match eachCell body cells with
          | .ok _ cells' => .ok ⟨⟩ (cell' :: cells')
          | .error e cells' => .error e (cell' :: cells')

/-- It returns when the body does at every element. -/
theorem eachCell_eq_ok {body : EStateM ε σ Unit} {cells cells' : List σ} :
    eachCell body cells = .ok ⟨⟩ cells' ↔
      List.Forall₂ (fun cell cell' => body cell = .ok ⟨⟩ cell') cells cells' := by
  induction cells generalizing cells' with
  | nil =>
      rw [List.forall₂_nil_left_iff, eachCell]
      constructor
      · rintro ⟨⟩
        rfl
      · rintro rfl
        rfl
  | cons cell cells ih =>
      rw [eachCell, List.forall₂_cons_left_iff]
      cases hbody : body cell with
      | error e cell' => simp
      | ok _ cell' =>
          cases hrest : eachCell body cells with
          | error e rest =>
              constructor
              · intro h
                cases h
              · rintro ⟨_, rest', -, hrest', -⟩
                rw [ih.mpr hrest'] at hrest
                cases hrest
          | ok _ rest =>
              constructor
              · rintro ⟨⟩
                exact ⟨cell', rest, rfl, ih.mp hrest, rfl⟩
              · rintro ⟨_, rest', hcell, hrest', rfl⟩
                cases hcell
                rw [ih.mpr hrest'] at hrest
                cases hrest
                rfl

/-- It raises where the body first does, and touches nothing after that. -/
theorem eachCell_eq_error {body : EStateM ε σ Unit} {cells cells' : List σ} {e : ε} :
    eachCell body cells = .error e cells' ↔
      ∃ done done' cell cell' rest, cells = done ++ cell :: rest ∧ cells' = done' ++ cell' :: rest ∧
        List.Forall₂ (fun cell cell' => body cell = .ok ⟨⟩ cell') done done' ∧
        body cell = .error e cell' := by
  induction cells generalizing cells' with
  | nil =>
      rw [eachCell]
      constructor
      · intro h
        cases h
      · rintro ⟨done, _, _, _, _, hcells, -⟩
        exact absurd hcells (by simp)
  | cons cell cells ih =>
      rw [eachCell]
      cases hbody : body cell with
      | error e' cell' =>
          constructor
          · rintro ⟨⟩
            exact ⟨[], [], cell, cell', cells, rfl, rfl, .nil, hbody⟩
          · rintro ⟨done, done', at_, at', rest, hcells, rfl, hdone, herror⟩
            cases hdone with
            | nil =>
                obtain ⟨rfl, rfl⟩ := List.cons_eq_cons.mp hcells
                rw [hbody] at herror
                cases herror
                rfl
            | cons hfirst hdone =>
                obtain ⟨rfl, -⟩ := List.cons_eq_cons.mp hcells
                rw [hbody] at hfirst
                cases hfirst
      | ok _ cell' =>
          constructor
          · intro h
            cases hrest : eachCell body cells with
            | ok _ rest =>
                rw [hrest] at h
                cases h
            | error e' rest =>
                rw [hrest] at h
                cases h
                obtain ⟨done, done', at_, at', tail, rfl, rfl, hdone, herror⟩ := ih.mp hrest
                exact ⟨cell :: done, cell' :: done', at_, at', tail, rfl, rfl,
                  .cons hbody hdone, herror⟩
          · rintro ⟨done, done', at_, at', rest, hcells, rfl, hdone, herror⟩
            cases hdone with
            | nil =>
                obtain ⟨rfl, rfl⟩ := List.cons_eq_cons.mp hcells
                rw [hbody] at herror
                cases herror
            | cons hfirst hdone =>
                obtain ⟨rfl, rfl⟩ := List.cons_eq_cons.mp hcells
                rw [hbody] at hfirst
                cases hfirst
                rw [ih.mpr ⟨_, _, at_, at', rest, rfl, rfl, hdone, herror⟩]
                rfl

/-! ## Triples -/

/-- From every state in `P` the body returns into `Q` or raises into `R`. -/
def Triple (P : σ → Prop) (x : EStateM ε σ α) (Q : α → σ → Prop)
    (R : ε → σ → Prop) : Prop :=
  ∀ s, P s →
    match x s with
    | .ok a t => Q a t
    | .error e t => R e t

variable {P P' : σ → Prop} {Q : α → σ → Prop} {R : ε → σ → Prop}

theorem Triple.ok {x : EStateM ε σ α} (h : Triple P x Q R) {s t : σ} {a : α}
    (hs : P s) (hx : x s = .ok a t) : Q a t := by
  have := h s hs
  rwa [hx] at this

theorem Triple.error {x : EStateM ε σ α} (h : Triple P x Q R) {s t : σ} {e : ε}
    (hs : P s) (hx : x s = .error e t) : R e t := by
  have := h s hs
  rwa [hx] at this

theorem Triple.pure {a : α} (h : ∀ s, P s → Q a s) :
    Triple P (pure a : EStateM ε σ α) Q R := h

theorem Triple.throw {e : ε} (h : ∀ s, P s → R e s) :
    Triple P (throw e : EStateM ε σ α) Q R := h

theorem Triple.modify {f : σ → σ} {Q : Unit → σ → Prop}
    (h : ∀ s, P s → Q ⟨⟩ (f s)) : Triple P (modify f : EStateM ε σ Unit) Q R := h

theorem Triple.get {Q : σ → σ → Prop} (h : ∀ s, P s → Q s s) :
    Triple P (get : EStateM ε σ σ) Q R := h

theorem Triple.bind {x : EStateM ε σ α} {f : α → EStateM ε σ β}
    {Q' : β → σ → Prop} (hx : Triple P x Q R)
    (hf : ∀ a, Triple (Q a) (f a) Q' R) : Triple P (x >>= f) Q' R := by
  intro s hs
  have h := hx s hs
  cases hr : x s with
  | ok a t =>
      rw [hr] at h
      rw [bind_of_ok hr]
      exact hf a t h
  | error e t =>
      rw [hr] at h
      rw [bind_of_error hr]
      exact h

theorem Triple.require {ok : Prop} [Decidable ok] {error : ε}
    {Q : Unit → σ → Prop} (hok : ∀ s, P s → ok → Q ⟨⟩ s)
    (herr : ∀ s, P s → ¬ ok → R error s) :
    Triple P (require ok error : EStateM ε σ Unit) Q R := by
  intro s hs
  by_cases h : ok
  · rw [require_of h]; exact hok s hs h
  · rw [require_of_not h]; exact herr s hs h

theorem Triple.lift {x : Except ε α} (hok : ∀ s a, P s → x = .ok a → Q a s)
    (herr : ∀ s e, P s → x = .error e → R e s) :
    Triple P (lift x : EStateM ε σ α) Q R := by
  intro s hs
  cases hx : x with
  | ok a => exact hok s a hs hx
  | error e => exact herr s e hs hx

theorem Triple.ite {c : Prop} [Decidable c] {x y : EStateM ε σ α}
    (hx : c → Triple P x Q R) (hy : ¬ c → Triple P y Q R) :
    Triple P (if c then x else y) Q R := by
  split
  · next h => exact hx h
  · next h => exact hy h

/-- What follows a check assumes it. -/
theorem triple_require_then {ok : Prop} [Decidable ok] {error : ε} {x : EStateM ε σ α}
    (hx : ok → Triple P x Q R) (herr : ∀ s, P s → ¬ ok → R error s) :
    Triple P (require ok error >>= fun _ => x) Q R := by
  intro s hs
  by_cases h : ok
  · rw [bind_of_ok (require_of h)]
    exact hx h s hs
  · rw [bind_of_error (require_of_not h)]
    exact herr s hs h

/-- What follows a pure computation has its result. -/
theorem triple_lift_then {x : Except ε β} {f : β → EStateM ε σ α}
    (hf : ∀ b, x = .ok b → Triple P (f b) Q R) (herr : ∀ e s, P s → x = .error e → R e s) :
    Triple P (lift x >>= f) Q R := by
  intro s hs
  cases hx : x with
  | ok b =>
      rw [bind_of_ok lift_ok]
      exact hf b hx s hs
  | error e =>
      rw [bind_of_error lift_error]
      exact herr e s hs hx

/-- From one state, the state read is that one. -/
theorem triple_get_then {s : σ} {f : σ → EStateM ε σ α} (h : Triple (· = s) (f s) Q R) :
    Triple (· = s) (get >>= f) Q R := by
  intro t ht
  subst ht
  exact h t rfl

theorem triple_modify_then {s : σ} {f : σ → σ} {x : EStateM ε σ α}
    (h : Triple (· = f s) x Q R) : Triple (· = s) (modify f >>= fun _ => x) Q R := by
  intro t ht
  subst ht
  exact h (f t) rfl

/-- Weaken what is asked, strengthen what is promised. -/
theorem Triple.consequence {x : EStateM ε σ α} {Q' : α → σ → Prop}
    {R' : ε → σ → Prop} (h : Triple P x Q R) (hP : ∀ s, P' s → P s)
    (hQ : ∀ a s, Q a s → Q' a s) (hR : ∀ e s, R e s → R' e s) :
    Triple P' x Q' R' := by
  intro s hs
  have := h s (hP s hs)
  cases hr : x s with
  | ok a t => rw [hr] at this; exact hQ a t this
  | error e t => rw [hr] at this; exact hR e t this

/-- `try: x finally: h`. The handler runs whichever way the body ends and
from the state the body left; an exception of its own replaces the body's. -/
theorem Triple.try_finally {x : EStateM ε σ α} {h : EStateM ε σ β}
    {Q₁ : α → σ → Prop} {R₁ : ε → σ → Prop}
    (hx : Triple P x Q₁ R₁)
    (hok : ∀ a, Triple (Q₁ a) h (fun _ s => Q a s) R)
    (herr : ∀ e, Triple (R₁ e) h (fun _ s => R e s) R) :
    Triple P (tryFinally x h) Q R := by
  intro s hs
  have hb := hx s hs
  simp only [tryFinally, Functor.map, EStateM.map, tryFinally']
  cases hr : x s with
  | ok a t =>
      rw [hr] at hb
      have hh := hok a t hb
      simp only []
      cases hr' : h t with
      | ok b u => rw [hr'] at hh; exact hh
      | error e u => rw [hr'] at hh; exact hh
  | error e t =>
      rw [hr] at hb
      have hh := herr e t hb
      simp only []
      cases hr' : h t with
      | ok b u => rw [hr'] at hh; exact hh
      | error e' u => rw [hr'] at hh; exact hh

/-! ## Invariants of a body -/

/-- A body that leaves `I` however it ends. -/
def Preserves (I : σ → Prop) (x : EStateM ε σ α) : Prop :=
  Triple I x (fun _ => I) (fun _ => I)

variable {I : σ → Prop}

theorem Preserves.pure {a : α} : Preserves I (pure a : EStateM ε σ α) :=
  Triple.pure fun _ h => h

theorem Preserves.throw {e : ε} : Preserves I (throw e : EStateM ε σ α) :=
  Triple.throw fun _ h => h

theorem Preserves.get : Preserves I (get : EStateM ε σ σ) :=
  Triple.get fun _ h => h

theorem Preserves.modify {f : σ → σ} (h : ∀ s, I s → I (f s)) :
    Preserves I (modify f : EStateM ε σ Unit) :=
  Triple.modify h

theorem Preserves.require {ok : Prop} [Decidable ok] {error : ε} :
    Preserves I (require ok error : EStateM ε σ Unit) :=
  Triple.require (fun _ h _ => h) (fun _ h _ => h)

theorem Preserves.lift {x : Except ε α} :
    Preserves I (lift x : EStateM ε σ α) :=
  Triple.lift (fun _ _ h _ => h) (fun _ _ h _ => h)

theorem Preserves.bind {x : EStateM ε σ α} {f : α → EStateM ε σ β}
    (hx : Preserves I x) (hf : ∀ a, Preserves I (f a)) : Preserves I (x >>= f) :=
  Triple.bind hx hf

theorem Preserves.ite {c : Prop} [Decidable c] {x y : EStateM ε σ α}
    (hx : c → Preserves I x) (hy : ¬ c → Preserves I y) :
    Preserves I (if c then x else y) :=
  Triple.ite hx hy

/-! ## What a body returns

Often nothing is asked of the state: whatever it was and whatever it becomes,
a value that comes back satisfies `Q`. -/

/-- A body whose results all satisfy `Q`. -/
def Returns (x : EStateM ε σ α) (Q : α → Prop) : Prop :=
  Triple (fun _ => True) x (fun a _ => Q a) (fun _ _ => True)

theorem Returns.apply {x : EStateM ε σ α} {Q : α → Prop} (h : Returns x Q) {s t : σ} {a : α}
    (hx : x s = .ok a t) : Q a :=
  Triple.ok h trivial hx

theorem Returns.any {x : EStateM ε σ α} : Returns x fun _ => True := by
  intro s _
  cases x s <;> trivial

theorem Returns.pure {Q : α → Prop} {a : α} (h : Q a) :
    Returns (pure a : EStateM ε σ α) Q := fun _ _ => h

theorem Returns.lift {x : Except ε α} {Q : α → Prop} (h : ∀ a, x = .ok a → Q a) :
    Returns (lift x : EStateM ε σ α) Q :=
  Triple.lift (fun _ a _ => h a) fun _ _ _ _ => trivial

theorem Returns.bind {x : EStateM ε σ α} {f : α → EStateM ε σ β} {Q : α → Prop}
    {Q' : β → Prop} (hx : Returns x Q) (hf : ∀ a, Q a → Returns (f a) Q') :
    Returns (x >>= f) Q' := by
  refine Triple.bind hx fun a s hs => hf a hs s trivial

theorem Returns.ite {c : Prop} [Decidable c] {x y : EStateM ε σ α} {Q : α → Prop}
    (hx : c → Returns x Q) (hy : ¬ c → Returns y Q) : Returns (if c then x else y) Q :=
  Triple.ite hx hy

/-- A `finally` does not change what is returned. -/
theorem Returns.try_finally {x : EStateM ε σ α} {h : EStateM ε σ β} {Q : α → Prop}
    (hx : Returns x Q) : Returns (tryFinally x h) Q := by
  refine Triple.try_finally hx (fun a s hs => ?_) fun _ s _ => ?_
  · cases h s with
    | ok _ _ => exact hs
    | error _ _ => trivial
  · cases h s <;> trivial

end Crisp.Lib
