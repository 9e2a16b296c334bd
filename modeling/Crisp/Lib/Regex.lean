import Crisp.Lib.Pieces
import Mathlib.Data.List.Basic
import Mathlib.Logic.Function.Basic

/-!
# Backtracking expressions

A backtracking matcher tries the ways an expression can match from one place in a
fixed order, and its answer is the first of them. So the meaning of an expression
here is that ordered list: each way with the groups it set and the text it left.
What a way can be is a matter of words alone (`Matches`), and `mem_runs` connects
the two; only a proof about *which* way comes first has to look at the list.

Repetitions are of one character class each, greedy or lazy, which is all the
expressions of a grammar of tokens use.
-/

namespace Crisp.Lib

/-- The groups captured so far. -/
abbrev Groups := Nat → Option (List Char)

inductive Re where
  | eps
  | char (p : Char → Bool)
  | many (p : Char → Bool)
  | lazyMany (p : Char → Bool)
  | seq (first second : Re)
  | alt (first second : Re)
  | group (index : Nat) (body : Re)

namespace Re

/-- The literal text. -/
def lit : List Char → Re
  | [] => eps
  | c :: text => seq (char (· == c)) (lit text)

/-- `(?:a|b|…)` of literal texts. -/
def oneOf : List (List Char) → Re
  | [] => char fun _ => false
  | [text] => lit text
  | text :: texts => alt (lit text) (oneOf texts)

/-- `body?` -/
def opt (body : Re) : Re := alt body eps

/-- `[…]+` -/
def many1 (p : Char → Bool) : Re := seq (char p) (many p)

/-- The expressions one after the other. -/
def cat : List Re → Re
  | [] => eps
  | e :: es => seq e (cat es)

/-- What a greedy repetition leaves, the longest repetition first. -/
def greedyRests (p : Char → Bool) : List Char → List (List Char)
  | [] => [[]]
  | c :: text => if p c then greedyRests p text ++ [c :: text] else [c :: text]

/-- What a lazy repetition leaves, the shortest repetition first. -/
def lazyRests (p : Char → Bool) : List Char → List (List Char)
  | [] => [[]]
  | c :: text => (c :: text) :: if p c then lazyRests p text else []

/-- The ways `e` matches at the start of a text, in the order they are tried. -/
def runs : Re → Groups → List Char → List (Groups × List Char)
  | eps, groups, text => [(groups, text)]
  | char p, groups, text =>
      match text with
      | [] => []
      | c :: rest => if p c then [(groups, rest)] else []
  | many p, groups, text => (greedyRests p text).map (groups, ·)
  | lazyMany p, groups, text => (lazyRests p text).map (groups, ·)
  | seq first second, groups, text =>
      (first.runs groups text).flatMap fun way => second.runs way.1 way.2
  | alt first second, groups, text => first.runs groups text ++ second.runs groups text
  | group index body, groups, text =>
      (body.runs groups text).map fun way =>
        (Function.update way.1 index (some (text.take (text.length - way.2.length))), way.2)

/-- `e` matches the word, and takes the groups it had to the groups it sets. -/
def Matches : Re → List Char → Groups → Groups → Prop
  | eps, word, groups, groups' => word = [] ∧ groups' = groups
  | char p, word, groups, groups' => ∃ c, p c = true ∧ word = [c] ∧ groups' = groups
  | many p, word, groups, groups' => (∀ c ∈ word, p c = true) ∧ groups' = groups
  | lazyMany p, word, groups, groups' => (∀ c ∈ word, p c = true) ∧ groups' = groups
  | seq first second, word, groups, groups' => ∃ left right middle,
      word = left ++ right ∧ first.Matches left groups middle ∧ second.Matches right middle groups'
  | alt first second, word, groups, groups' =>
      first.Matches word groups groups' ∨ second.Matches word groups groups'
  | group index body, word, groups, groups' => ∃ inner,
      body.Matches word groups inner ∧ groups' = Function.update inner index (some word)

/-! ## The ways, as words -/

theorem mem_greedyRests {p : Char → Bool} {text rest : List Char} :
    rest ∈ greedyRests p text ↔ ∃ word, text = word ++ rest ∧ ∀ c ∈ word, p c = true := by
  induction text with
  | nil =>
      rw [greedyRests, List.mem_singleton]
      constructor
      · rintro rfl
        exact ⟨[], rfl, by simp⟩
      · rintro ⟨word, hword, -⟩
        exact (List.append_eq_nil_iff.mp hword.symm).2
  | cons c text ih =>
      rw [greedyRests]
      by_cases hc : p c = true
      · rw [if_pos hc, List.mem_append, List.mem_singleton, ih]
        constructor
        · rintro (⟨word, rfl, hall⟩ | rfl)
          · exact ⟨c :: word, rfl, by simpa [hc] using hall⟩
          · exact ⟨[], rfl, by simp⟩
        · rintro ⟨word, hword, hall⟩
          cases word with
          | nil => exact Or.inr hword.symm
          | cons d word =>
              obtain ⟨rfl, rfl⟩ := List.cons_eq_cons.mp hword
              exact Or.inl ⟨word, rfl, fun x hx => hall x (List.mem_cons_of_mem _ hx)⟩
      · rw [if_neg hc, List.mem_singleton]
        constructor
        · rintro rfl
          exact ⟨[], rfl, by simp⟩
        · rintro ⟨word, hword, hall⟩
          cases word with
          | nil => exact hword.symm
          | cons d word =>
              obtain ⟨rfl, rfl⟩ := List.cons_eq_cons.mp hword
              exact absurd (hall c (by simp)) hc

theorem mem_lazyRests {p : Char → Bool} {text rest : List Char} :
    rest ∈ lazyRests p text ↔ rest ∈ greedyRests p text := by
  induction text with
  | nil => rfl
  | cons c text ih =>
      rw [lazyRests, greedyRests, List.mem_cons]
      by_cases hc : p c = true
      · rw [if_pos hc, if_pos hc, List.mem_append, List.mem_singleton, ih, or_comm]
      · rw [if_neg hc, if_neg hc, List.mem_singleton]
        simp

/-- A way is a word of the expression and the text after it. -/
theorem mem_runs {e : Re} {groups groups' : Groups} {text rest : List Char} :
    (groups', rest) ∈ e.runs groups text ↔
      ∃ word, text = word ++ rest ∧ e.Matches word groups groups' := by
  induction e generalizing groups groups' text rest with
  | eps => simp [runs, Matches, eq_comm, and_comm]
  | char p =>
      cases text with
      | nil => simp [runs, Matches]
      | cons c text =>
          by_cases hc : p c = true
          · rw [runs, if_pos hc, List.mem_singleton, Prod.mk.injEq]
            constructor
            · rintro ⟨rfl, rfl⟩
              exact ⟨[c], rfl, c, hc, rfl, rfl⟩
            · rintro ⟨word, hword, d, -, rfl, rfl⟩
              exact ⟨rfl, (List.cons_eq_cons.mp hword).2.symm⟩
          · rw [runs, if_neg hc]
            constructor
            · intro h
              cases h
            · rintro ⟨word, hword, d, hd, rfl, -⟩
              obtain ⟨rfl, -⟩ := List.cons_eq_cons.mp hword
              exact absurd hd hc
  | many p =>
      rw [runs, List.mem_map]
      constructor
      · rintro ⟨rest', hrest, heq⟩
        obtain ⟨rfl, rfl⟩ := Prod.mk.injEq _ _ _ _ ▸ heq
        obtain ⟨word, htext, hall⟩ := mem_greedyRests.mp hrest
        exact ⟨word, htext, hall, rfl⟩
      · rintro ⟨word, htext, hall, rfl⟩
        exact ⟨rest, mem_greedyRests.mpr ⟨word, htext, hall⟩, rfl⟩
  | lazyMany p =>
      rw [runs, List.mem_map]
      constructor
      · rintro ⟨rest', hrest, heq⟩
        obtain ⟨rfl, rfl⟩ := Prod.mk.injEq _ _ _ _ ▸ heq
        obtain ⟨word, htext, hall⟩ := mem_greedyRests.mp (mem_lazyRests.mp hrest)
        exact ⟨word, htext, hall, rfl⟩
      · rintro ⟨word, htext, hall, rfl⟩
        exact ⟨rest, mem_lazyRests.mpr (mem_greedyRests.mpr ⟨word, htext, hall⟩), rfl⟩
  | seq first second ihfirst ihsecond =>
      rw [runs, List.mem_flatMap]
      constructor
      · rintro ⟨⟨middle, text'⟩, hfirst, hsecond⟩
        obtain ⟨left, rfl, hleft⟩ := ihfirst.mp hfirst
        obtain ⟨right, rfl, hright⟩ := ihsecond.mp hsecond
        exact ⟨left ++ right, by rw [List.append_assoc], left, right, middle, rfl, hleft, hright⟩
      · rintro ⟨word, rfl, left, right, middle, rfl, hleft, hright⟩
        exact ⟨(middle, right ++ rest), ihfirst.mpr ⟨left, by rw [List.append_assoc], hleft⟩,
          ihsecond.mpr ⟨right, rfl, hright⟩⟩
  | alt first second ihfirst ihsecond =>
      rw [runs, List.mem_append, ihfirst, ihsecond]
      constructor
      · rintro (⟨word, htext, hword⟩ | ⟨word, htext, hword⟩)
        · exact ⟨word, htext, Or.inl hword⟩
        · exact ⟨word, htext, Or.inr hword⟩
      · rintro ⟨word, htext, hword | hword⟩
        · exact Or.inl ⟨word, htext, hword⟩
        · exact Or.inr ⟨word, htext, hword⟩
  | group index body ih =>
      rw [runs, List.mem_map]
      have htake : ∀ word : List Char,
          (word ++ rest).take ((word ++ rest).length - rest.length) = word := by
        intro word
        rw [List.length_append, Nat.add_sub_cancel, List.take_left']
        rfl
      constructor
      · rintro ⟨⟨inner, rest'⟩, hmem, heq⟩
        obtain ⟨hgroups, rfl⟩ := Prod.mk.injEq _ _ _ _ ▸ heq
        obtain ⟨word, rfl, hword⟩ := ih.mp hmem
        exact ⟨word, rfl, inner, hword, by rw [← hgroups, htake]⟩
      · rintro ⟨word, rfl, inner, hword, rfl⟩
        exact ⟨(inner, rest), ih.mpr ⟨word, rfl, hword⟩, by rw [htake]⟩

/-! ## Words of the derived forms -/

variable {word : List Char} {groups groups' : Groups}

@[simp] theorem matches_eps : eps.Matches word groups groups' ↔ word = [] ∧ groups' = groups :=
  Iff.rfl

@[simp] theorem matches_many {p : Char → Bool} : (many p).Matches word groups groups' ↔
    (∀ c ∈ word, p c = true) ∧ groups' = groups := Iff.rfl

@[simp] theorem matches_group {index : Nat} {body : Re} :
    (group index body).Matches word groups groups' ↔ ∃ inner, body.Matches word groups inner ∧
      groups' = Function.update inner index (some word) := Iff.rfl

@[simp] theorem matches_lit {text : List Char} :
    (lit text).Matches word groups groups' ↔ word = text ∧ groups' = groups := by
  induction text generalizing word with
  | nil => exact Iff.rfl
  | cons c text ih =>
      rw [lit]
      constructor
      · rintro ⟨left, right, middle, rfl, ⟨d, hd, rfl, rfl⟩, hright⟩
        obtain ⟨rfl, rfl⟩ := ih.mp hright
        rw [beq_iff_eq.mp hd]
        exact ⟨rfl, rfl⟩
      · rintro ⟨rfl, rfl⟩
        exact ⟨[c], text, groups', rfl, ⟨c, beq_self_eq_true c, rfl, rfl⟩, ih.mpr ⟨rfl, rfl⟩⟩

@[simp] theorem matches_oneOf {texts : List (List Char)} :
    (oneOf texts).Matches word groups groups' ↔ word ∈ texts ∧ groups' = groups := by
  induction texts with
  | nil => simp [oneOf, Matches]
  | cons text texts ih =>
      cases texts with
      | nil => rw [oneOf, matches_lit, List.mem_singleton]
      | cons other texts =>
          have hform : oneOf (text :: other :: texts) = alt (lit text) (oneOf (other :: texts)) :=
            rfl
          rw [hform, Matches, matches_lit, ih, ← or_and_right, ← List.mem_cons]

@[simp] theorem matches_opt {body : Re} : (opt body).Matches word groups groups' ↔
    body.Matches word groups groups' ∨ word = [] ∧ groups' = groups := Iff.rfl

@[simp] theorem matches_many1 {p : Char → Bool} : (many1 p).Matches word groups groups' ↔
    word ≠ [] ∧ (∀ c ∈ word, p c = true) ∧ groups' = groups := by
  constructor
  · rintro ⟨left, right, middle, rfl, ⟨c, hc, rfl, rfl⟩, hall, rfl⟩
    exact ⟨by simp, by simpa [hc] using hall, rfl⟩
  · rintro ⟨hne, hall, rfl⟩
    cases word with
    | nil => exact absurd rfl hne
    | cons c word =>
        exact ⟨[c], word, groups', rfl, ⟨c, hall c (by simp), rfl, rfl⟩,
          fun d hd => hall d (List.mem_cons_of_mem _ hd), rfl⟩

@[simp] theorem matches_cat_nil : (cat []).Matches word groups groups' ↔
    word = [] ∧ groups' = groups := Iff.rfl

theorem matches_cat_cons {e : Re} {es : List Re} : (cat (e :: es)).Matches word groups groups' ↔
    ∃ left right middle, word = left ++ right ∧ e.Matches left groups middle ∧
      (cat es).Matches right middle groups' := Iff.rfl

/-- A literal in front is read off the word. -/
theorem matches_cat_lit {text : List Char} {es : List Re} :
    (cat (lit text :: es)).Matches word groups groups' ↔
      ∃ rest, word = text ++ rest ∧ (cat es).Matches rest groups groups' := by
  rw [matches_cat_cons]
  constructor
  · rintro ⟨left, right, middle, rfl, hlit, hrest⟩
    obtain ⟨rfl, rfl⟩ := matches_lit.mp hlit
    exact ⟨right, rfl, hrest⟩
  · rintro ⟨rest, rfl, hrest⟩
    exact ⟨text, rest, groups, rfl, matches_lit.mpr ⟨rfl, rfl⟩, hrest⟩

/-- A group in front holds the word of its body. -/
theorem matches_cat_group {index : Nat} {body : Re} {es : List Re}
    (hbody : ∀ word groups groups', body.Matches word groups groups' → groups' = groups) :
    (cat (group index body :: es)).Matches word groups groups' ↔
      ∃ text, body.Matches text groups groups ∧ ∃ rest, word = text ++ rest ∧
        (cat es).Matches rest (Function.update groups index (some text)) groups' := by
  rw [matches_cat_cons]
  constructor
  · rintro ⟨left, right, middle, rfl, ⟨inner, hinner, rfl⟩, hrest⟩
    obtain rfl := hbody _ _ _ hinner
    exact ⟨left, hinner, right, rfl, hrest⟩
  · rintro ⟨text, htext, rest, rfl, hrest⟩
    exact ⟨text, rest, _, rfl, ⟨groups, htext, rfl⟩, hrest⟩

theorem matches_cat_groupLit {index : Nat} {text : List Char} {es : List Re} :
    (cat (group index (lit text) :: es)).Matches word groups groups' ↔
      ∃ rest, word = text ++ rest ∧
        (cat es).Matches rest (Function.update groups index (some text)) groups' := by
  rw [matches_cat_group fun word groups groups' h => (matches_lit.mp h).2]
  constructor
  · rintro ⟨text', htext, rest, rfl, hrest⟩
    obtain ⟨rfl, -⟩ := matches_lit.mp htext
    exact ⟨rest, rfl, hrest⟩
  · rintro ⟨rest, rfl, hrest⟩
    exact ⟨text, matches_lit.mpr ⟨rfl, rfl⟩, rest, rfl, hrest⟩

/-- A choice in front is one of its texts, and its group holds that text. -/
theorem matches_cat_choice {index : Nat} {texts : List (List Char)} {es : List Re} :
    (cat (group index (oneOf texts) :: es)).Matches word groups groups' ↔
      ∃ text ∈ texts, ∃ rest, word = text ++ rest ∧
        (cat es).Matches rest (Function.update groups index (some text)) groups' := by
  rw [matches_cat_group fun word groups groups' h => (matches_oneOf.mp h).2]
  simp only [matches_oneOf, and_true]

theorem matches_cat_many1 {index : Nat} {p : Char → Bool} {es : List Re} :
    (cat (group index (many1 p) :: es)).Matches word groups groups' ↔
      ∃ run, (run ≠ [] ∧ ∀ c ∈ run, p c = true) ∧ ∃ rest, word = run ++ rest ∧
        (cat es).Matches rest (Function.update groups index (some run)) groups' := by
  rw [matches_cat_group fun word groups groups' h => (matches_many1.mp h).2.2]
  simp only [matches_many1, and_true]

/-- An optional part in front is there or it is not. -/
theorem matches_cat_opt {body : Re} {es : List Re} :
    (cat (opt body :: es)).Matches word groups groups' ↔
      (cat (body :: es)).Matches word groups groups' ∨ (cat es).Matches word groups groups' := by
  rw [matches_cat_cons, matches_cat_cons]
  constructor
  · rintro ⟨left, right, middle, rfl, hbody | ⟨rfl, rfl⟩, hrest⟩
    · exact Or.inl ⟨left, right, middle, rfl, hbody, hrest⟩
    · exact Or.inr hrest
  · rintro (⟨left, right, middle, rfl, hbody, hrest⟩ | hrest)
    · exact ⟨left, right, middle, rfl, Or.inl hbody, hrest⟩
    · exact ⟨[], word, groups, rfl, Or.inr ⟨rfl, rfl⟩, hrest⟩

/-- A sequence in a sequence. -/
theorem matches_cat_cat {front es : List Re} :
    (cat (cat front :: es)).Matches word groups groups' ↔
      (cat (front ++ es)).Matches word groups groups' := by
  induction front generalizing word groups with
  | nil =>
      rw [matches_cat_cons]
      constructor
      · rintro ⟨left, right, middle, rfl, ⟨rfl, rfl⟩, hrest⟩
        exact hrest
      · intro h
        exact ⟨[], word, groups, rfl, ⟨rfl, rfl⟩, h⟩
  | cons e front ih =>
      rw [List.cons_append, matches_cat_cons, matches_cat_cons]
      constructor
      · rintro ⟨left, right, middle, rfl, ⟨first, second, between, rfl, he, hfront⟩, hrest⟩
        refine ⟨first, second ++ right, between, by rw [List.append_assoc], he, ?_⟩
        exact ih.mp ⟨second, right, middle, rfl, hfront, hrest⟩
      · rintro ⟨first, right, between, rfl, he, hrest⟩
        obtain ⟨second, right', middle, rfl, hfront, hrest'⟩ := ih.mpr hrest
        exact ⟨first ++ second, right', middle, by rw [List.append_assoc],
          ⟨first, second, between, rfl, he, hfront⟩, hrest'⟩

/-! ## The first way -/

theorem runs_lit {text word' : List Char} (groups : Groups) :
    (lit word').runs groups text =
      if word' <+: text then [(groups, text.drop word'.length)] else [] := by
  induction word' generalizing text with
  | nil => simp [lit, runs]
  | cons c word' ih =>
      cases text with
      | nil => simp [lit, runs]
      | cons d text =>
          rw [lit, runs, runs]
          by_cases hd : d = c
          · subst hd
            rw [if_pos (beq_self_eq_true d), List.flatMap_singleton, ih]
            simp [List.cons_prefix_cons]
          · rw [if_neg (by simpa using hd)]
            simp [List.cons_prefix_cons, Ne.symm hd]

/-- The first way of a sequence: the first way of the front that the rest can follow. -/
theorem head?_runs_seq {first second : Re} {text : List Char} :
    ((seq first second).runs groups text).head? =
      (first.runs groups text).findSome? fun way => (second.runs way.1 way.2).head? := by
  rw [runs, List.head?_flatMap]

/-- A lazy group of anything ends where the text after it first stands. -/
theorem head?_runs_until {index : Nat} {sep text : List Char} :
    ((seq (group index (lazyMany fun _ => true)) (seq (lit sep) eps)).runs groups text).head? =
      (cutAt sep text).map fun cut => (Function.update groups index (some cut.1), cut.2) := by
  have hrest : ∀ front rest : List Char,
      ((seq (lit sep) eps).runs (Function.update groups index (some front)) rest).head? =
        if sep <+: rest then
          some (Function.update groups index (some front), rest.drop sep.length)
        else none := by
    intro front rest
    rw [runs, runs_lit]
    by_cases hpre : sep <+: rest
    · rw [if_pos hpre, if_pos hpre]
      rfl
    · rw [if_neg hpre, if_neg hpre]
      rfl
  -- the loop has passed `front` and looks at `rest`
  have hloop : ∀ rest front : List Char, text = front ++ rest →
      ((lazyRests (fun _ => true) rest).findSome? fun left =>
        ((seq (lit sep) eps).runs (Function.update groups index
          (some (text.take (text.length - left.length)))) left).head?) =
        (cutAt sep rest).map fun cut =>
          (Function.update groups index (some (front ++ cut.1)), cut.2) := by
    intro rest
    induction rest with
    | nil =>
        intro front htext
        rw [lazyRests, List.findSome?_cons, hrest, htext, List.append_nil]
        by_cases hsep : sep = []
        · subst hsep
          simp [cutAt]
        · simp [cutAt, hsep]
    | cons c rest ih =>
        intro front htext
        have htake : text.take (text.length - (c :: rest).length) = front := by
          rw [htext, List.length_append, Nat.add_sub_cancel, List.take_left' rfl]
        rw [lazyRests, List.findSome?_cons, hrest, htake, if_pos rfl]
        by_cases hpre : sep <+: c :: rest
        · rw [if_pos hpre, cutAt_front hpre, Option.map_some, List.append_nil]
        · rw [if_neg hpre, cutAt_skip hpre,
            ih (front ++ [c]) (by rw [htext, List.append_assoc]; rfl), Option.map_map]
          simp [Function.comp_def]
  rw [head?_runs_seq, runs, runs, List.map_map, List.findSome?_map]
  exact hloop text [] rfl

/-! ## Matching -/

/-- `re.fullmatch(e, text)`: the first way that leaves nothing. -/
def fullmatch (e : Re) (text : List Char) : Option Groups :=
  ((e.runs (fun _ => none) text).find? fun way => way.2.isEmpty).map Prod.fst

/-- `re.search(e, text)`: the first way at the first place where there is one. -/
def search (e : Re) : List Char → Option Groups
  | [] => ((e.runs (fun _ => none) []).head?).map Prod.fst
  | c :: text =>
      match e.runs (fun _ => none) (c :: text) with
      | way :: _ => some way.1
      | [] => search e text

/-- `re.findall(e, text)` where `e` has the one group `index` and never matches the
empty text; `skip` characters belong to the match before. -/
def findallFrom (e : Re) (index : Nat) : Nat → List Char → List (List Char)
  | _, [] => []
  | skip + 1, _ :: text => findallFrom e index skip text
  | 0, c :: text =>
      match e.runs (fun _ => none) (c :: text) with
      | way :: _ => (way.1 index).getD [] :: findallFrom e index (text.length - way.2.length) text
      | [] => findallFrom e index 0 text

def findall (e : Re) (index : Nat) (text : List Char) : List (List Char) :=
  findallFrom e index 0 text

theorem matches_of_fullmatch {e : Re} {text : List Char} (h : e.fullmatch text = some groups) :
    e.Matches text (fun _ => none) groups := by
  obtain ⟨⟨groups', rest⟩, hfind, rfl⟩ := Option.map_eq_some_iff.mp h
  have hrest : rest = [] := by simpa using List.find?_some hfind
  obtain ⟨word, rfl, hword⟩ := mem_runs.mp (List.mem_of_find?_eq_some hfind)
  rw [hrest, List.append_nil]
  exact hword

theorem findallFrom_skip {e : Re} {index : Nat} :
    ∀ (skip : Nat) (text : List Char),
      findallFrom e index skip text = findallFrom e index 0 (text.drop skip)
  | 0, text => by rw [List.drop_zero]
  | skip + 1, [] => by simp [findallFrom]
  | skip + 1, c :: text => by rw [findallFrom, findallFrom_skip skip text, List.drop_succ_cons]

/-- The next match of `findall`, after what it consumed. -/
theorem findall_match {e : Re} {index : Nat} {text word rest : List Char}
    (hword : word ≠ []) (htext : text = word ++ rest)
    (h : (e.runs (fun _ => none) text).head? = some (groups, rest)) :
    e.findall index text = (groups index).getD [] :: e.findall index rest := by
  subst htext
  cases word with
  | nil => exact absurd rfl hword
  | cons c word =>
      obtain ⟨ways, hways⟩ := List.head?_eq_some_iff.mp h
      rw [findall, List.cons_append, findallFrom, ← List.cons_append, hways]
      dsimp only
      rw [findallFrom_skip, List.length_append, Nat.add_sub_cancel, List.drop_left']
      · rfl
      · rfl

theorem findall_skip {e : Re} {index : Nat} {c : Char} {text : List Char}
    (h : (e.runs (fun _ => none) (c :: text)).head? = none) :
    e.findall index (c :: text) = e.findall index text := by
  rw [List.head?_eq_none_iff] at h
  rw [findall, findallFrom, h]
  rfl

/-- A front at whose places there is no way is passed over. -/
theorem findall_append {e : Re} {index : Nat} {front text : List Char}
    (h : ∀ i < front.length, (e.runs (fun _ => none) ((front ++ text).drop i)).head? = none) :
    e.findall index (front ++ text) = e.findall index text := by
  induction front with
  | nil => rfl
  | cons c front ih =>
      have hnone := h 0 (by simp)
      rw [List.cons_append, List.drop_zero] at hnone
      rw [List.cons_append, findall_skip hnone]
      exact ih fun i hi => by simpa using h (i + 1) (by simpa using hi)

theorem search_skip {e : Re} {c : Char} {text : List Char}
    (h : (e.runs (fun _ => none) (c :: text)).head? = none) :
    e.search (c :: text) = e.search text := by
  rw [List.head?_eq_none_iff] at h
  rw [search, h]

theorem search_append {e : Re} {front text : List Char}
    (h : ∀ i < front.length, (e.runs (fun _ => none) ((front ++ text).drop i)).head? = none) :
    e.search (front ++ text) = e.search text := by
  induction front with
  | nil => rfl
  | cons c front ih =>
      have hnone := h 0 (by simp)
      rw [List.cons_append, List.drop_zero] at hnone
      rw [List.cons_append, search_skip hnone]
      exact ih fun i hi => by simpa using h (i + 1) (by simpa using hi)

theorem search_here {e : Re} {text rest : List Char}
    (h : (e.runs (fun _ => none) text).head? = some (groups, rest)) :
    e.search text = some groups := by
  obtain ⟨ways, hways⟩ := List.head?_eq_some_iff.mp h
  cases text with
  | nil => rw [search, hways]; rfl
  | cons c text => rw [search, hways]

end Re

end Crisp.Lib
