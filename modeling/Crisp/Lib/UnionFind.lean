import Crisp.Lib.Raise
import Mathlib.Data.Finset.Card
import Mathlib.Logic.Function.Basic
import Mathlib.Order.Defs.LinearOrder

/-!
# Union-find on a table of parents

The table is a dictionary whose roots are their own parents. A search halves the
path it takes, and two classes are joined by pointing the larger root at the
smaller. Parents are therefore never larger than their children, and that alone
makes every search end: it goes down a finite set of keys.

A search is a loop without a bound, so it is given fuel. The rules say what it
finds on any fuel that covers the keys; short of that it says so and finds nothing.
-/

namespace Crisp.Lib

/-- How a loop that need not end is left other than by returning. -/
inductive Stop (ε : Type) where
  | raised (error : ε)
  | outOfFuel
  deriving DecidableEq

variable {ε κ : Type}

variable [LinearOrder κ]

/-- The root of a key, halving the path to it. -/
def findRoot (missing : κ → ε) :
    Nat → (κ → Option κ) → κ → Except (Stop ε) ((κ → Option κ) × κ)
  | 0, _, _ => .error .outOfFuel
  | fuel + 1, parent, key => do
      let up ← fetch (Stop.raised ∘ missing) parent key
      if up = key then .ok (parent, key)
      else do
        let next ← fetch (Stop.raised ∘ missing) parent up
        findRoot missing fuel (Function.update parent key (some next)) next

/-- Join the classes of two keys. -/
def merge (missing : κ → ε) (fuel : Nat) (parent : κ → Option κ) (key other : κ) :
    Except (Stop ε) (κ → Option κ) := do
  let (parent, a) ← findRoot missing fuel parent key
  let (parent, b) ← findRoot missing fuel parent other
  .ok (Function.update parent (max a b) (some (min a b)))

/-- A table with exactly these keys, where no parent is larger than its child. -/
structure Forest (keys : Finset κ) (parent : κ → Option κ) : Prop where
  present : ∀ k ∈ keys, ∃ p, parent k = some p
  child : ∀ k p, parent k = some p → k ∈ keys
  up : ∀ k p, parent k = some p → p ∈ keys
  le : ∀ k p, parent k = some p → p ≤ k

/-- The root the path from a key ends at. -/
inductive Root (parent : κ → Option κ) : κ → κ → Prop where
  | here {k : κ} (h : parent k = some k) : Root parent k k
  | up {k p r : κ} (h : parent k = some p) (hne : p ≠ k) (hp : Root parent p r) : Root parent k r

/-- Two keys of one class. -/
def Same (parent : κ → Option κ) (a b : κ) : Prop := ∃ r, Root parent a r ∧ Root parent b r

section Roots

variable {keys : Finset κ} {parent : κ → Option κ} {k p q r s : κ}

omit [LinearOrder κ] in
theorem Root.is_root (h : Root parent k r) : parent r = some r := by
  induction h with
  | here h => exact h
  | up _ _ _ ih => exact ih

omit [LinearOrder κ] in
/-- A root is its own. -/
theorem Root.of_root (hk : parent k = some k) (h : Root parent k r) : r = k := by
  cases h with
  | here => rfl
  | up h hne _ =>
      rw [hk, Option.some.injEq] at h
      exact absurd h.symm hne

omit [LinearOrder κ] in
theorem Root.of_up (hk : parent k = some p) (h : Root parent k r) : Root parent p r := by
  cases h with
  | here h =>
      rw [hk, Option.some.injEq] at h
      rw [h]
      exact .here (by rw [hk, h])
  | up h _ hp =>
      rw [hk, Option.some.injEq] at h
      rwa [h]

omit [LinearOrder κ] in
theorem Root.unique (h : Root parent k r) (h' : Root parent k s) : r = s := by
  induction h with
  | here h => exact (h'.of_root h).symm
  | up h _ _ ih => exact ih (h'.of_up h)

theorem Root.le (hforest : Forest keys parent) (h : Root parent k r) : r ≤ k := by
  induction h with
  | here => exact le_rfl
  | up h _ _ ih => exact ih.trans (hforest.le _ _ h)

omit [LinearOrder κ] in
theorem Same.symm {a b : κ} (h : Same parent a b) : Same parent b a := by
  obtain ⟨r, ha, hb⟩ := h
  exact ⟨r, hb, ha⟩

omit [LinearOrder κ] in
theorem Same.trans {a b c : κ} (h : Same parent a b) (h' : Same parent b c) : Same parent a c := by
  obtain ⟨r, ha, hb⟩ := h
  obtain ⟨s, hb', hc⟩ := h'
  rw [hb'.unique hb] at hc
  exact ⟨r, ha, hc⟩

/-- How many keys a search from `k` may still go down to. -/
def below (keys : Finset κ) (k : κ) : Nat := (keys.filter (· < k)).card

theorem below_lt (hp : p ∈ keys) (hlt : p < k) : below keys p < below keys k := by
  refine Finset.card_lt_card ?_
  rw [Finset.ssubset_iff_of_subset]
  · exact ⟨p, by simp [hp, hlt], by simp⟩
  · intro x hx
    rw [Finset.mem_filter] at hx ⊢
    exact ⟨hx.1, hx.2.trans hlt⟩

theorem below_lt_card (hk : k ∈ keys) : below keys k < keys.card := by
  refine Finset.card_lt_card ?_
  rw [Finset.ssubset_iff_of_subset (Finset.filter_subset _ _)]
  exact ⟨k, hk, by simp⟩

theorem Forest.exists_root (hforest : Forest keys parent) :
    ∀ k, k ∈ keys → ∃ r, Root parent k r := by
  intro k
  induction hn : below keys k using Nat.strong_induction_on generalizing k with
  | _ n ih =>
      intro hk
      obtain ⟨p, hp⟩ := hforest.present k hk
      by_cases hpk : p = k
      · exact ⟨k, .here (by rw [hp, hpk])⟩
      · have hlt : p < k := lt_of_le_of_ne (hforest.le k p hp) hpk
        obtain ⟨r, hr⟩ := ih _ (hn ▸ below_lt (hforest.up k p hp) hlt) p rfl (hforest.up k p hp)
        exact ⟨r, .up hp hpk hr⟩

theorem Same.refl (hforest : Forest keys parent) (hk : k ∈ keys) : Same parent k k := by
  obtain ⟨r, hr⟩ := hforest.exists_root k hk
  exact ⟨r, hr, hr⟩

theorem Root.mem (hforest : Forest keys parent) (h : Root parent k r) : r ∈ keys :=
  hforest.child r r h.is_root

theorem Root.mem_left (hforest : Forest keys parent) (h : Root parent k r) : k ∈ keys := by
  cases h with
  | here h => exact hforest.child _ _ h
  | up h _ _ => exact hforest.child _ _ h

/-! ## What the writes do -/

/-- A key, new or not, may be pointed at any key that is not larger. -/
theorem Forest.write (hforest : Forest keys parent) (hq : q ∈ insert k keys) (hle : q ≤ k) :
    Forest (insert k keys) (Function.update parent k (some q)) := by
  have hentry : ∀ a p, Function.update parent k (some q) a = some p →
      a = k ∧ p = q ∨ parent a = some p := by
    intro a p h
    by_cases ha : a = k
    · subst ha
      rw [Function.update_self, Option.some.injEq] at h
      exact .inl ⟨rfl, h.symm⟩
    · rw [Function.update_of_ne ha] at h
      exact .inr h
  constructor
  case present =>
    intro a ha
    by_cases hak : a = k
    · exact ⟨q, by rw [hak, Function.update_self]⟩
    · rw [Function.update_of_ne hak]
      exact hforest.present a (Finset.mem_of_mem_insert_of_ne ha hak)
  case child =>
    intro a p h
    rcases hentry a p h with ⟨rfl, -⟩ | h
    · exact Finset.mem_insert_self _ _
    · exact Finset.mem_insert_of_mem (hforest.child a p h)
  case up =>
    intro a p h
    rcases hentry a p h with ⟨-, rfl⟩ | h
    · exact hq
    · exact Finset.mem_insert_of_mem (hforest.up a p h)
  case le =>
    intro a p h
    rcases hentry a p h with ⟨rfl, rfl⟩ | h
    · exact hle
    · exact hforest.le a p h

theorem Forest.point (hforest : Forest keys parent) (hk : k ∈ keys) (hq : q ∈ keys)
    (hle : q ≤ k) : Forest keys (Function.update parent k (some q)) := by
  have h := hforest.write (Finset.mem_insert_of_mem (b := k) hq) hle
  rwa [Finset.insert_eq_of_mem hk] at h

theorem Forest.insert (hforest : Forest keys parent) :
    Forest (insert k keys) (Function.update parent k (some k)) :=
  hforest.write (Finset.mem_insert_self k keys) le_rfl

/-- A key that is new is alone, and the others have the roots they had. -/
theorem root_insert (hforest : Forest keys parent) (hk : k ∉ keys) {a : κ} :
    Root (Function.update parent k (some k)) a r ↔ a = k ∧ r = k ∨ Root parent a r := by
  constructor
  · intro h
    induction h with
    | @here a h =>
        by_cases ha : a = k
        · exact .inl ⟨ha, ha⟩
        · rw [Function.update_of_ne ha] at h
          exact .inr (.here h)
    | @up a p r h hne _ ih =>
        by_cases ha : a = k
        · rw [ha, Function.update_self, Option.some.injEq] at h
          exact absurd h.symm (ha ▸ hne)
        · rw [Function.update_of_ne ha] at h
          rcases ih with ⟨rfl, -⟩ | ih
          · exact absurd (hforest.up a p h) hk
          · exact .inr (.up h hne ih)
  · rintro (⟨rfl, rfl⟩ | h)
    · exact .here (Function.update_self _ _ _)
    · induction h with
      | @here a h =>
          have ha : a ≠ k := fun ha => hk (ha ▸ hforest.child a a h)
          exact .here (by rw [Function.update_of_ne ha, h])
      | @up a p r h hne _ ih =>
          have ha : a ≠ k := fun ha => hk (ha ▸ hforest.child a p h)
          exact .up (by rw [Function.update_of_ne ha, h]) hne ih

/-- Pointing a key at its grandparent leaves every root where it was. -/
theorem root_halve (hforest : Forest keys parent) (hk : parent k = some p)
    (hp : parent p = some q) (hne : p ≠ k) {a : κ} :
    Root (Function.update parent k (some q)) a r ↔ Root parent a r := by
  have hpk : p < k := lt_of_le_of_ne (hforest.le k p hk) hne
  have hqk : q ≠ k := ((hforest.le p q hp).trans_lt hpk).ne
  have hforest' : Forest keys (Function.update parent k (some q)) :=
    hforest.point (hforest.child k p hk) (hforest.up p q hp)
      ((hforest.le p q hp).trans (hforest.le k p hk))
  have hkeep : ∀ a s, Root parent a s → Root (Function.update parent k (some q)) a s := by
    intro a s h
    induction h with
    | @here a h =>
        have ha : a ≠ k := by
          rintro rfl
          rw [hk, Option.some.injEq] at h
          exact hne h
        exact .here (by rw [Function.update_of_ne ha, h])
    | @up a p' s h hne' _ ih =>
        by_cases ha : a = k
        · subst ha
          rw [hk, Option.some.injEq] at h
          subst h
          -- the parent still leads to the root, and it leads there through `q`
          have hthrough : Root (Function.update parent a (some q)) q s :=
            ih.of_up (by rw [Function.update_of_ne hne', hp])
          exact .up (Function.update_self _ _ _) hqk hthrough
        · exact .up (by rw [Function.update_of_ne ha, h]) hne' ih
  constructor
  · intro h
    obtain ⟨s, hs⟩ := hforest.exists_root a (h.mem_left hforest')
    rwa [h.unique (hkeep a s hs)]
  · exact hkeep a r

/-- Pointing a root at a smaller root moves its class there. -/
theorem root_link {x y : κ} (hforest : Forest keys parent) (hx : parent x = some x)
    (hy : parent y = some y) (hle : y ≤ x) {a : κ} :
    Root (Function.update parent x (some y)) a s ↔
      ∃ r, Root parent a r ∧ s = if r = x then y else r := by
  have hforest' : Forest keys (Function.update parent x (some y)) :=
    hforest.point (hforest.child x x hx) (hforest.child y y hy) hle
  have hmove : ∀ a r, Root parent a r →
      Root (Function.update parent x (some y)) a (if r = x then y else r) := by
    intro a r h
    induction h with
    | @here a h =>
        by_cases hax : a = x
        · rw [if_pos hax, hax]
          by_cases hyx : y = x
          · rw [hyx]
            exact .here (Function.update_self _ _ _)
          · exact .up (Function.update_self _ _ _) hyx
              (.here (by rw [Function.update_of_ne hyx, hy]))
        · rw [if_neg hax]
          exact .here (by rw [Function.update_of_ne hax, h])
    | @up a p r h hne _ ih =>
        have hax : a ≠ x := by
          rintro rfl
          rw [hx, Option.some.injEq] at h
          exact hne h.symm
        exact .up (by rw [Function.update_of_ne hax, h]) hne ih
  constructor
  · intro h
    obtain ⟨r, hr⟩ := hforest.exists_root a (h.mem_left hforest')
    exact ⟨r, hr, h.unique (hmove a r hr)⟩
  · rintro ⟨r, hr, rfl⟩
    exact hmove a r hr

/-! ## The operations -/

/-- A search on enough fuel returns the root, and leaves every root where it was. -/
theorem findRoot_eq (missing : κ → ε) :
    ∀ {fuel : Nat} {parent : κ → Option κ} {k : κ}, Forest keys parent → Root parent k r →
      below keys k < fuel → ∃ parent', findRoot missing fuel parent k = .ok (parent', r) ∧
        Forest keys parent' ∧ ∀ a s, Root parent' a s ↔ Root parent a s := by
  intro fuel
  induction fuel with
  | zero => intro parent k _ _ hfuel; omega
  | succ fuel ih =>
      intro parent k hforest hroot hfuel
      obtain ⟨p, hp⟩ := hforest.present k (hroot.mem_left hforest)
      have hpkeys := hforest.up k p hp
      obtain ⟨q, hq⟩ := hforest.present p hpkeys
      rw [findRoot, fetch_of hp, except_ok_bind]
      by_cases hpk : p = k
      · subst hpk
        rw [if_pos rfl, hroot.of_root hp]
        exact ⟨parent, rfl, hforest, fun _ _ => Iff.rfl⟩
      · have hlt : p < k := lt_of_le_of_ne (hforest.le k p hp) hpk
        have hqk : q < k := (hforest.le p q hq).trans_lt hlt
        have hqkeys := hforest.up p q hq
        have hroots := fun a s => root_halve (r := s) hforest hp hq hpk (a := a)
        rw [if_neg hpk, fetch_of hq, except_ok_bind]
        obtain ⟨parent', hrun, hforest', hsame⟩ := ih
          (hforest.point (hforest.child k p hp) hqkeys hqk.le)
          ((hroots q r).mpr ((hroot.of_up hp).of_up hq))
          (by have := below_lt hqkeys hqk; omega)
        exact ⟨parent', hrun, hforest', fun a s => (hsame a s).trans (hroots a s)⟩

theorem findRoot_returns (missing : κ → ε) (hforest : Forest keys parent) (hk : k ∈ keys)
    {fuel : Nat} (hfuel : keys.card ≤ fuel) :
    ∃ r parent', Root parent k r ∧ findRoot missing fuel parent k = .ok (parent', r) ∧
      Forest keys parent' ∧ ∀ a s, Root parent' a s ↔ Root parent a s := by
  obtain ⟨r, hr⟩ := hforest.exists_root k hk
  obtain ⟨parent', h⟩ := findRoot_eq missing hforest hr
    ((below_lt_card hk).trans_le hfuel)
  exact ⟨r, parent', hr, h⟩

/-- A join on enough fuel returns, and puts the two classes together and nothing else. -/
theorem merge_eq (missing : κ → ε) (hforest : Forest keys parent) {o : κ} (hk : k ∈ keys)
    (ho : o ∈ keys) {fuel : Nat} (hfuel : keys.card ≤ fuel) :
    ∃ parent', merge missing fuel parent k o = .ok parent' ∧ Forest keys parent' ∧
      ∀ a b, Same parent' a b ↔
        Same parent a b ∨ Same parent a k ∧ Same parent o b ∨
          Same parent a o ∧ Same parent k b := by
  obtain ⟨x, parent₁, hx, hfind₁, hforest₁, hroots₁⟩ :=
    findRoot_returns missing hforest hk hfuel
  obtain ⟨y, parent₂, hy, hfind₂, hforest₂, hroots₂⟩ :=
    findRoot_returns missing hforest₁ ho hfuel
  have hroots : ∀ a s, Root parent₂ a s ↔ Root parent a s := fun a s =>
    (hroots₂ a s).trans (hroots₁ a s)
  rw [hroots₁] at hy
  have hxroot := ((hroots _ _).mpr hx).is_root
  have hyroot := ((hroots _ _).mpr hy).is_root
  have hmax : parent₂ (max x y) = some (max x y) := by
    rcases max_choice x y with h | h <;> rw [h] <;> assumption
  have hmin : parent₂ (min x y) = some (min x y) := by
    rcases min_choice x y with h | h <;> rw [h] <;> assumption
  refine ⟨Function.update parent₂ (max x y) (some (min x y)), ?_,
    hforest₂.point (hforest₂.child _ _ hmax) (hforest₂.child _ _ hmin) min_le_max, fun a b => ?_⟩
  · rw [merge, hfind₁, except_ok_bind]
    show (do let (parent, b) ← findRoot missing fuel parent₁ o; _) = _
    rw [hfind₂, except_ok_bind]
  · -- in terms of roots: `x` and `y` are told apart no longer
    have hlinked : ∀ r s : κ, (if r = max x y then min x y else r) =
        (if s = max x y then min x y else s) ↔ r = s ∨ r = x ∧ s = y ∨ r = y ∧ s = x := by
      intro r s
      rcases le_total x y with h | h
      · rw [max_eq_right h, min_eq_left h]
        grind
      · rw [max_eq_left h, min_eq_right h]
        grind
    simp only [Same, root_link hforest₂ hmax hmin min_le_max, hroots]
    constructor
    · rintro ⟨_, ⟨r, hr, rfl⟩, s, hs, hrs⟩
      rcases (hlinked r s).mp hrs with rfl | ⟨rfl, rfl⟩ | ⟨rfl, rfl⟩
      · exact .inl ⟨r, hr, hs⟩
      · exact .inr (.inl ⟨⟨r, hr, hx⟩, ⟨s, hy, hs⟩⟩)
      · exact .inr (.inr ⟨⟨r, hr, hy⟩, ⟨s, hx, hs⟩⟩)
    · rintro (⟨r, hr, hs⟩ | ⟨⟨r, hr, hx'⟩, s, hy', hs⟩ | ⟨⟨r, hr, hy'⟩, s, hx', hs⟩)
      · exact ⟨_, ⟨r, hr, rfl⟩, r, hs, rfl⟩
      · rw [hx'.unique hx] at hr
        rw [hy'.unique hy] at hs
        exact ⟨_, ⟨x, hr, rfl⟩, y, hs, (hlinked x y).mpr (.inr (.inl ⟨rfl, rfl⟩))⟩
      · rw [hy'.unique hy] at hr
        rw [hx'.unique hx] at hs
        exact ⟨_, ⟨y, hr, rfl⟩, x, hs, (hlinked y x).mpr (.inr (.inr ⟨rfl, rfl⟩))⟩

/-- Joining a key with several others, one after the other: the classes of before are kept,
each of the others is with the key, and no equivalence that has all of this is broken. -/
theorem mergeAll_eq (missing : κ → ε) {fuel : Nat} (hk : k ∈ keys) (hfuel : keys.card ≤ fuel) :
    ∀ {others : List κ} {parent : κ → Option κ}, Forest keys parent → (∀ o ∈ others, o ∈ keys) →
      ∃ parent',
        others.foldlM (fun parent o => merge missing fuel parent k o) parent = .ok parent' ∧
        Forest keys parent' ∧ (∀ a b, Same parent a b → Same parent' a b) ∧
        (∀ o ∈ others, Same parent' k o) ∧
        ∀ E : κ → κ → Prop, Equivalence E → (∀ a b, Same parent a b → E a b) →
          (∀ o ∈ others, E k o) → ∀ a b, Same parent' a b → E a b := by
  intro others
  induction others with
  | nil => exact fun {parent} hforest _ => ⟨parent, rfl, hforest, fun _ _ h => h, by simp,
      fun _ _ hE _ => hE⟩
  | cons o others ih =>
      intro parent hforest hothers
      have ho : o ∈ keys := hothers o (by simp)
      obtain ⟨parent₁, hrun₁, hforest₁, hsame₁⟩ :=
        merge_eq missing hforest hk ho hfuel
      obtain ⟨parent', hrun, hforest', hkeep, hjoined, hleast⟩ :=
        ih hforest₁ fun x hx => hothers x (by simp [hx])
      have hmono : ∀ a b, Same parent a b → Same parent₁ a b := fun a b h =>
        (hsame₁ a b).mpr (.inl h)
      refine ⟨parent', by rw [List.foldlM_cons, hrun₁, except_ok_bind, hrun], hforest',
        fun a b h => hkeep a b (hmono a b h), ?_, ?_⟩
      · intro x hx
        rcases List.mem_cons.mp hx with rfl | hx
        · refine hkeep k x ((hsame₁ k x).mpr (.inr (.inl ⟨?_, ?_⟩)))
          · exact .refl hforest hk
          · exact .refl hforest ho
        · exact hjoined x hx
      · intro E hE hbefore hothersE
        refine hleast E hE (fun a b h => ?_) fun x hx => hothersE x (by simp [hx])
        have hko : E k o := hothersE o (by simp)
        rcases (hsame₁ a b).mp h with h | ⟨ha, hb⟩ | ⟨ha, hb⟩
        · exact hbefore a b h
        · exact hE.trans (hbefore a k ha) (hE.trans hko (hbefore o b hb))
        · exact hE.trans (hbefore a o ha) (hE.trans (hE.symm hko) (hbefore k b hb))

end Roots

end Crisp.Lib
