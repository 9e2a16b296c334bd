import Crisp.Ref.CodeSandbox

/-!
# Which program is taken from a response

The expression of `extract_program` pairs a fence that can open a block with the
fence after it, and steps over every other fence. So it can only pair all of them by
pairing the first with the second, the third with the fourth and so on: one fence
stepped over is one fence too many for the count, whatever the later pairs are.

The pieces of a response are the texts between its fences; the odd ones are the
blocks when the count comes out. Only a longer run of backticks could make the
expression see a fence where the count sees none, so there is to be no such run.
-/

namespace Crisp.Proofs

open Crisp.Lib Crisp.Ref

/-- No run of backticks is longer than a fence. -/
def NoLongRun (text : List Char) : Prop := ¬ '`' :: fence <:+: text

/-- How often the code defines the entry point at its top level. -/
def definitions (parse : List Char → Option (List String)) (entryPoint : String)
    (code : List Char) : Nat := ((parse code).getD []).count entryPoint

/-- The block starts with an opener, a tag and whitespace to the end of a line, and goes
on with the code, whose first line is not blank. -/
structure Opens (block code : List Char) : Prop where
  split : ∃ tag ∈ [] :: fenceTags, ∃ blank, block = tag ++ blank ++ code ∧
    (∀ c ∈ blank, isSpace c = true) ∧ blank.getLast? = some '\n'
  first : ∀ space rest, code = space ++ '\n' :: rest → ¬ ∀ c ∈ space, isSpace c = true

/-- The fences pair up, the blocks between the first and the second of each pair all
parse, and the program is the one that defines the entry point, which it does once. -/
def FencedProgram (parse : List Char → Option (List String)) (entryPoint : String)
    (text program : List Char) : Prop :=
  ∃ codes : List (List Char), countOf fence text = 2 * codes.length ∧
    (∀ k < codes.length, ∃ block code, (pieces fence text)[2 * k + 1]? = some block ∧
      codes[k]? = some code ∧ Opens block code) ∧
    (∀ code ∈ codes, (parse code).isSome = true) ∧
    ∃ before after, codes = before ++ program :: after ∧
      definitions parse entryPoint program = 1 ∧
      ∀ code ∈ before ++ after, definitions parse entryPoint code = 0

/-! ## One block -/

/-- What stands after the leading blank lines. -/
def afterBlank : List Char → Option (List Char)
  | [] => none
  | c :: text =>
      if isSpace c then (afterBlank text).or (if c = '\n' then some text else none) else none

/-- The code of a block. -/
def opened (block : List Char) : Option (List Char) :=
  ((fenceTags.findSome? fun tag =>
    if tag <+: block then afterBlank (block.drop tag.length) else none)).or (afterBlank block)

theorem isSpace_newline : isSpace '\n' = true := by decide

theorem afterBlank_isSome {text : List Char} : (afterBlank text).isSome = true ↔
    ∃ space rest, text = space ++ '\n' :: rest ∧ ∀ c ∈ space, isSpace c = true := by
  induction text with
  | nil => simp [afterBlank]
  | cons c text ih =>
      rw [afterBlank]
      by_cases hc : isSpace c = true
      · rw [if_pos hc, Option.isSome_or, Bool.or_eq_true, ih]
        constructor
        · rintro (⟨space, rest, rfl, hall⟩ | hline)
          · exact ⟨c :: space, rest, rfl, by simpa [hc] using hall⟩
          · have hnewline : c = '\n' := by
              by_contra hne
              rw [if_neg hne] at hline
              cases hline
            exact ⟨[], text, by rw [hnewline]; rfl, by simp⟩
        · rintro ⟨space, rest, htext, hall⟩
          cases space with
          | nil =>
              obtain ⟨rfl, rfl⟩ := List.cons_eq_cons.mp htext
              exact Or.inr rfl
          | cons d space =>
              obtain ⟨rfl, rfl⟩ := List.cons_eq_cons.mp htext
              exact Or.inl ⟨space, rest, rfl, fun x hx => hall x (List.mem_cons_of_mem _ hx)⟩
      · rw [if_neg hc]
        constructor
        · intro h
          cases h
        · rintro ⟨space, rest, htext, hall⟩
          cases space with
          | nil =>
              obtain ⟨rfl, -⟩ := List.cons_eq_cons.mp htext
              exact absurd isSpace_newline hc
          | cons d space =>
              obtain ⟨rfl, -⟩ := List.cons_eq_cons.mp htext
              exact absurd (hall c (by simp)) hc

theorem afterBlank_none {text : List Char} (h : afterBlank text = none) (space rest : List Char)
    (htext : text = space ++ '\n' :: rest) : ¬ ∀ c ∈ space, isSpace c = true := by
  intro hall
  have hsome := afterBlank_isSome.mpr ⟨space, rest, htext, hall⟩
  rw [h] at hsome
  cases hsome

theorem afterBlank_eq_some {text code : List Char} : afterBlank text = some code ↔
    (∃ blank, text = blank ++ code ∧ (∀ c ∈ blank, isSpace c = true) ∧
      blank.getLast? = some '\n') ∧
    ∀ space rest, code = space ++ '\n' :: rest → ¬ ∀ c ∈ space, isSpace c = true := by
  induction text with
  | nil =>
      rw [afterBlank]
      constructor
      · intro h
        cases h
      · rintro ⟨⟨blank, htext, -, hlast⟩, -⟩
        rw [(List.append_eq_nil_iff.mp htext.symm).1] at hlast
        cases hlast
  | cons c text ih =>
      rw [afterBlank]
      by_cases hc : isSpace c = true
      · rw [if_pos hc, Option.or_eq_some_iff]
        constructor
        · rintro (h | ⟨hnone, h⟩)
          · obtain ⟨⟨blank, rfl, hall, hlast⟩, hfirst⟩ := ih.mp h
            refine ⟨⟨c :: blank, rfl, by simpa [hc] using hall, ?_⟩, hfirst⟩
            rw [List.getLast?_cons, hlast]
            rfl
          · split at h
            · next hline =>
                cases h
                exact ⟨⟨[c], rfl, by simpa using hc, by rw [hline]; rfl⟩, afterBlank_none hnone⟩
            · cases h
        · rintro ⟨⟨blank, htext, hall, hlast⟩, hfirst⟩
          cases blank with
          | nil => cases hlast
          | cons d blank =>
              obtain ⟨rfl, rfl⟩ := List.cons_eq_cons.mp htext
              by_cases hblank : blank = []
              · -- the only blank line ends here, so no other follows
                subst hblank
                have hline : c = '\n' := by simpa using hlast
                cases hrest : afterBlank code with
                | none => exact Or.inr ⟨hrest, by rw [if_pos hline]; rfl⟩
                | some other =>
                    obtain ⟨space, rest, hsplit, hspace⟩ :=
                      afterBlank_isSome.mp (by rw [hrest]; rfl : (afterBlank code).isSome = true)
                    exact absurd hspace (hfirst space rest hsplit)
              · refine Or.inl (ih.mpr ⟨⟨blank, rfl, fun x hx => hall x (List.mem_cons_of_mem _ hx),
                  ?_⟩, hfirst⟩)
                rwa [List.getLast?_cons_of_ne_nil hblank] at hlast
      · rw [if_neg hc]
        constructor
        · intro h
          cases h
        · rintro ⟨⟨blank, htext, hall, hlast⟩, -⟩
          cases blank with
          | nil => cases hlast
          | cons d blank =>
              obtain ⟨rfl, -⟩ := List.cons_eq_cons.mp htext
              exact absurd (hall c (by simp)) hc

/-- A text that starts with no whitespace has no leading blank line. -/
theorem afterBlank_of_not_space {c : Char} {text : List Char} (hc : isSpace c = false) :
    afterBlank (c :: text) = none := by
  rw [afterBlank, if_neg (by rw [hc]; decide)]

/-- What the block yields behind the tag. -/
def behindTag (block tag : List Char) : Option (List Char) :=
  if tag <+: block then afterBlank (block.drop tag.length) else none

theorem behindTag_eq_some {block tag code : List Char} : behindTag block tag = some code ↔
    ∃ text, block = tag ++ text ∧ afterBlank text = some code := by
  rw [behindTag]
  by_cases htag : tag <+: block
  · obtain ⟨text, rfl⟩ := htag
    rw [if_pos (List.prefix_append _ _), List.drop_left' rfl]
    constructor
    · exact fun h => ⟨text, rfl, h⟩
    · rintro ⟨text', htext, h⟩
      rwa [List.append_cancel_left htext]
  · rw [if_neg htag]
    constructor
    · intro h
      cases h
    · rintro ⟨text, rfl, -⟩
      exact absurd (List.prefix_append _ _) htag

theorem tag_not_space : ∀ tag ∈ [] :: fenceTags, ∀ c ∈ tag, isSpace c = false := by
  have hall : ([] :: fenceTags).all (fun tag => tag.all fun c => !isSpace c) = true := by decide
  intro tag htag c hc
  simpa using List.all_eq_true.mp (List.all_eq_true.mp hall tag htag) c hc

/-- The tag ends where the whitespace starts, so there is only one. -/
theorem tag_eq_takeWhile {block tag code : List Char} (htag : tag ∈ [] :: fenceTags)
    (h : behindTag block tag = some code) : tag = block.takeWhile fun c => !isSpace c := by
  obtain ⟨text, rfl, htext⟩ := behindTag_eq_some.mp h
  cases text with
  | nil => cases htext
  | cons c text =>
      have hspace : isSpace c = true := by
        by_contra hc
        rw [afterBlank_of_not_space (by simpa using hc)] at htext
        cases htext
      rw [List.takeWhile_append_of_pos fun d hd => by rw [tag_not_space tag htag d hd]; rfl,
        List.takeWhile_cons_of_neg (by simp [hspace]), List.append_nil]

theorem opened_eq (block : List Char) : opened block =
    (fenceTags.findSome? (behindTag block)).or (behindTag block []) := by
  have hnone : behindTag block [] = afterBlank block := by
    rw [behindTag, if_pos (List.nil_prefix)]
    rfl
  rw [opened, hnone]
  rfl

theorem opened_eq_behindTag {block code : List Char} : opened block = some code ↔
    ∃ tag ∈ [] :: fenceTags, behindTag block tag = some code := by
  rw [opened_eq]
  constructor
  · intro h
    rcases Option.or_eq_some_iff.mp h with hfound | ⟨-, hnil⟩
    · obtain ⟨tag, hmem, htag⟩ := List.exists_of_findSome?_eq_some hfound
      exact ⟨tag, List.mem_cons_of_mem _ hmem, htag⟩
    · exact ⟨[], by simp, hnil⟩
  · rintro ⟨tag, hmem, htag⟩
    cases hfound : fenceTags.findSome? (behindTag block) with
    | some other =>
        obtain ⟨tag', hmem', htag'⟩ := List.exists_of_findSome?_eq_some hfound
        have hsame : tag' = tag := (tag_eq_takeWhile (List.mem_cons_of_mem _ hmem') htag').trans
          (tag_eq_takeWhile hmem htag).symm
        rw [hsame, htag] at htag'
        rw [← htag', Option.some_or]
    | none =>
        rcases List.mem_cons.mp hmem with rfl | hmem'
        · rw [Option.none_or, htag]
        · rw [List.findSome?_eq_none_iff.mp hfound tag hmem'] at htag
          cases htag

/-- The code of a block is what its opener leaves. -/
theorem opened_eq_some {block code : List Char} : opened block = some code ↔ Opens block code := by
  rw [opened_eq_behindTag]
  constructor
  · rintro ⟨tag, hmem, htag⟩
    obtain ⟨text, rfl, htext⟩ := behindTag_eq_some.mp htag
    obtain ⟨⟨blank, rfl, hall, hlast⟩, hfirst⟩ := afterBlank_eq_some.mp htext
    exact ⟨⟨tag, hmem, blank, by rw [List.append_assoc], hall, hlast⟩, hfirst⟩
  · rintro ⟨⟨tag, hmem, blank, rfl, hall, hlast⟩, hfirst⟩
    refine ⟨tag, hmem, behindTag_eq_some.mpr ⟨blank ++ code, by rw [List.append_assoc], ?_⟩⟩
    exact afterBlank_eq_some.mpr ⟨⟨blank, rfl, hall, hlast⟩, hfirst⟩

/-! ## One match -/

theorem cutAt_fence {front text : List Char} (hfront : '`' ∉ front) :
    cutAt fence (front ++ text) =
      (cutAt fence text).map fun cut => (front ++ cut.1, cut.2) := cutAt_append hfront

/-- From the end of a line on: the group goes to the next fence. -/
def lineWay (groups : Groups) : List Char → Option (Groups × List Char)
  | [] => none
  | c :: text =>
      if c = '\n' then
        (cutAt fence text).map fun cut => (Function.update groups 1 (some cut.1), cut.2)
      else none

theorem head?_runs_line {groups : Groups} (text : List Char) :
    ((Re.cat [.lit ['\n'], .group 1 (.lazyMany fun _ => true), .lit fence]).runs
      groups text).head? = lineWay groups text := by
  rw [Re.cat, Re.head?_runs_seq, Re.runs_lit]
  cases text with
  | nil => rfl
  | cons c text =>
      rw [lineWay]
      by_cases hc : c = '\n'
      · subst hc
        have huntil : ((Re.cat [.group 1 (.lazyMany fun _ => true), .lit fence]).runs groups
            text).head? = (cutAt fence text).map fun cut =>
              (Function.update groups 1 (some cut.1), cut.2) := Re.head?_runs_until
        rw [if_pos (by simp : ['\n'] <+: '\n' :: text), if_pos rfl, List.findSome?_cons,
          List.findSome?_nil]
        have hdrop : ('\n' :: text).drop ['\n'].length = text := rfl
        rw [hdrop, huntil]
        cases cutAt fence text with
        | none => rfl
        | some cut => rfl
      · rw [if_neg (by simpa using Ne.symm hc), if_neg hc]
        rfl

/-- What follows the tag, from its first way: the blank lines are skipped and the group
goes to the next fence. -/
theorem head?_runs_afterTag {groups : Groups} (text : List Char) :
    ((Re.cat [.many isSpace, .lit ['\n'], .group 1 (.lazyMany fun _ => true),
        .lit fence]).runs groups text).head? =
      (cutAt fence text).bind fun cut =>
        (afterBlank cut.1).map fun code => (Function.update groups 1 (some code), cut.2) := by
  have hline : (fun way : Groups × List Char => ((Re.cat [.lit ['\n'],
      .group 1 (.lazyMany fun _ => true), .lit fence]).runs way.1 way.2).head?) =
      fun way => lineWay way.1 way.2 := funext fun way => head?_runs_line way.2
  rw [Re.cat, Re.head?_runs_seq, hline, Re.runs, List.findSome?_map]
  show (Re.greedyRests isSpace text).findSome? (lineWay groups) = _
  induction text with
  | nil => rfl
  | cons c text ih =>
      rw [Re.greedyRests]
      by_cases hc : isSpace c = true
      · -- whitespace: a later line end goes first, and the fence is the same one
        have hfence : cutAt fence (c :: text) =
            (cutAt fence text).map fun cut => (c :: cut.1, cut.2) := by
          refine @cutAt_fence [c] text ?_
          rw [List.mem_singleton]
          rintro rfl
          exact absurd hc (by decide)
        rw [if_pos hc, List.findSome?_append, ih, hfence]
        cases hcut : cutAt fence text with
        | none =>
            rw [Option.bind_none, Option.none_or, List.findSome?_cons, lineWay, hcut]
            by_cases hnewline : c = '\n'
            · simp [hnewline]
            · simp [hnewline]
        | some cut =>
            rw [Option.bind_some, Option.map_some, Option.bind_some, afterBlank, if_pos hc,
              List.findSome?_cons, lineWay, hcut]
            cases afterBlank cut.1 with
            | some code => rfl
            | none =>
                by_cases hnewline : c = '\n'
                · simp [hnewline]
                · simp [hnewline]
      · have hne : c ≠ '\n' := by
          rintro rfl
          exact hc isSpace_newline
        rw [if_neg hc, List.findSome?_cons, lineWay, if_neg hne]
        show none = _
        cases hcut : cutAt fence (c :: text) with
        | none => rfl
        | some cut =>
            obtain ⟨block, rest⟩ := cut
            obtain ⟨htext, -⟩ := cutAt_spec hcut
            rw [Option.bind_some]
            cases block with
            | nil => rfl
            | cons d block =>
                obtain ⟨rfl, -⟩ := List.cons_eq_cons.mp htext
                rw [afterBlank_of_not_space (by simpa using hc)]
                rfl

/-- A tag in front of the fence is in front of the block. -/
theorem runs_behindTag {groups : Groups} {text tag : List Char} (htag : tag ∈ [] :: fenceTags) :
    (if tag <+: text then
      ((Re.cat [.many isSpace, .lit ['\n'], .group 1 (.lazyMany fun _ => true),
        .lit fence]).runs groups (text.drop tag.length)).head?
    else none) =
      (cutAt fence text).bind fun cut =>
        (behindTag cut.1 tag).map fun code => (Function.update groups 1 (some code), cut.2) := by
  have hfree : '`' ∉ tag := by
    revert tag
    decide
  by_cases hpre : tag <+: text
  · obtain ⟨rest, rfl⟩ := hpre
    rw [if_pos (List.prefix_append _ _), List.drop_left' rfl, head?_runs_afterTag,
      cutAt_fence hfree]
    cases cutAt fence rest with
    | none => rfl
    | some cut =>
        rw [Option.map_some, Option.bind_some, Option.bind_some, behindTag,
          if_pos (List.prefix_append _ _), List.drop_left' rfl]
  · rw [if_neg hpre]
    cases hcut : cutAt fence text with
    | none => rfl
    | some cut =>
        have hblock : ¬ tag <+: cut.1 := by
          intro h
          refine hpre (h.trans ?_)
          rw [(cutAt_spec hcut).1, List.append_assoc]
          exact List.prefix_append _ _
        rw [Option.bind_some, behindTag, if_neg hblock]
        rfl

/-- At a fence: the next fence closes the block, where it has an opener. -/
theorem head?_runs_block {text : List Char} :
    (blockPattern.runs (fun _ => none) (fence ++ text)).head? =
      (cutAt fence text).bind fun cut =>
        (opened cut.1).map fun code =>
          (Function.update (fun _ => none) 1 (some code), cut.2) := by
  have hways : ∀ tag : List Char,
      ((if tag <+: text then [((fun _ => none : Groups), text.drop tag.length)] else []).findSome?
        fun way => ((Re.cat [.many isSpace, .lit ['\n'], .group 1 (.lazyMany fun _ => true),
          .lit fence]).runs way.1 way.2).head?) =
      if tag <+: text then
        ((Re.cat [.many isSpace, .lit ['\n'], .group 1 (.lazyMany fun _ => true),
          .lit fence]).runs (fun _ => none) (text.drop tag.length)).head?
      else none := by
    intro tag
    by_cases hpre : tag <+: text
    · rw [if_pos hpre, if_pos hpre, List.findSome?_cons, List.findSome?_nil]
      cases ((Re.cat [.many isSpace, .lit ['\n'], .group 1 (.lazyMany fun _ => true),
        .lit fence]).runs (fun _ => none) (text.drop tag.length)).head? with
      | none => rfl
      | some way => rfl
    · rw [if_neg hpre, if_neg hpre]
      rfl
  have htags : (Re.opt (Re.oneOf fenceTags)).runs (fun _ => none) text =
      ((if "python".toList <+: text then
          [(fun _ => none, text.drop "python".toList.length)] else []) ++
        (if "py".toList <+: text then [(fun _ => none, text.drop "py".toList.length)] else [])) ++
        if [] <+: text then [(fun _ => none, text.drop ([] : List Char).length)] else [] := by
    rw [Re.opt, Re.runs, Re.runs, if_pos List.nil_prefix, List.length_nil, List.drop_zero,
      fenceTags, Re.oneOf, Re.runs, Re.oneOf, Re.runs_lit, Re.runs_lit]
    exact fun h => by cases h
  rw [blockPattern, Re.cat, Re.head?_runs_seq, Re.runs_lit, if_pos (List.prefix_append _ _),
    List.drop_left' rfl, List.findSome?_cons, List.findSome?_nil, Re.cat, Re.head?_runs_seq, htags,
    List.findSome?_append, List.findSome?_append, hways, hways, hways [],
    runs_behindTag (by simp [fenceTags]), runs_behindTag (by simp [fenceTags]),
    runs_behindTag (by simp)]
  cases cutAt fence text with
  | none => rfl
  | some cut =>
      rw [Option.bind_some, Option.bind_some, Option.bind_some, Option.bind_some, opened_eq,
        fenceTags, List.findSome?_cons, List.findSome?_cons, List.findSome?_nil]
      cases behindTag cut.1 "python".toList with
      | some code => rfl
      | none =>
          cases behindTag cut.1 "py".toList with
          | some code => rfl
          | none =>
              cases behindTag cut.1 [] with
              | some code => rfl
              | none => rfl

/-! ## All matches -/

/-- The blocks that are read, from the pieces of the text. A fence that opens no block is
stepped over. -/
def blocksOf : List (List Char) → List (List Char)
  | _ :: block :: after :: rest =>
      match opened block with
      | some code => code :: blocksOf (after :: rest)
      | none => blocksOf (block :: after :: rest)
  | _ => []

theorem runs_block_elsewhere {text : List Char} (h : ¬ fence <+: text) :
    (blockPattern.runs (fun _ => none) text).head? = none := by
  rw [blockPattern, Re.cat, Re.head?_runs_seq, Re.runs_lit, if_neg h]
  rfl

theorem NoLongRun.suffix {text rest : List Char} (h : NoLongRun text) (hrest : rest <:+ text) :
    NoLongRun rest := fun hrun => h (hrun.trans hrest.isInfix)

/-- Nothing starts inside a fence that opens no block: that would take a longer run. -/
theorem findall_fence_skip {text : List Char} (hruns : NoLongRun (fence ++ text))
    (h : (blockPattern.runs (fun _ => none) (fence ++ text)).head? = none) :
    blockPattern.findall 1 (fence ++ text) = blockPattern.findall 1 text := by
  refine Re.findall_append fun i hi => ?_
  have hhead : ∀ c rest, text = c :: rest → c ≠ '`' := by
    rintro c rest rfl rfl
    exact hruns ⟨[], rest, rfl⟩
  have hlast : ∀ front : List Char, front.length < 3 → ¬ fence <+: front ++ text := by
    rintro front hlt ⟨rest, hrest⟩
    cases text with
    | nil =>
        have hlength := congrArg List.length hrest
        rw [List.length_append, List.append_nil] at hlength
        simp only [fence, List.length_cons, List.length_nil] at hlength
        omega
    | cons c text =>
        refine hhead c text rfl ?_
        have hat := congrArg (fun l : List Char => l[front.length]?) hrest
        rw [List.getElem?_append_left (by simpa [fence] using hlt),
          List.getElem?_append_right (Nat.le_refl _), Nat.sub_self] at hat
        have hfence : ∀ j < 3, fence[j]? = some '`' := by decide
        rw [hfence front.length hlt] at hat
        simpa using hat.symm
  obtain rfl | rfl | rfl : i = 0 ∨ i = 1 ∨ i = 2 := by
    have : fence.length = 3 := rfl
    omega
  · exact h
  · exact runs_block_elsewhere (hlast ['`', '`'] (by simp))
  · exact runs_block_elsewhere (hlast ['`'] (by simp))

theorem fence_ne_nil : fence ≠ [] := by decide

/-- The matches are read off the pieces. -/
theorem findall_eq_blocksOf (text : List Char) (hruns : NoLongRun text) :
    blockPattern.findall 1 text = blocksOf (pieces fence text) := by
  induction hn : text.length using Nat.strong_induction_on generalizing text with
  | h n ih =>
      subst hn
      cases hcut : cutAt fence text with
      | none =>
          rw [pieces_of_none fence_ne_nil hcut]
          have hno := cutAt_eq_none.mp hcut
          have hskip := @Re.findall_append blockPattern 1 text [] fun i _ =>
            runs_block_elsewhere fun hpre => hno (by
              rw [List.append_nil] at hpre
              exact hpre.isInfix.trans (List.drop_suffix i text).isInfix)
          rw [List.append_nil] at hskip
          rw [hskip]
          rfl
      | some cut =>
          obtain ⟨outside, rest⟩ := cut
          obtain ⟨htext, hnone⟩ := cutAt_spec hcut
          have hrest : rest.length < text.length := by
            rw [htext]
            simp only [fence, List.length_append, List.length_cons]
            omega
          have hruns' : NoLongRun (fence ++ rest) :=
            hruns.suffix ⟨outside, by rw [htext, List.append_assoc]⟩
          have hrestRuns : NoLongRun rest := hruns'.suffix (List.suffix_append _ _)
          have hstart : blockPattern.findall 1 text = blockPattern.findall 1 (fence ++ rest) := by
            rw [htext, List.append_assoc]
            rw [htext, List.append_assoc] at hnone
            exact Re.findall_append fun i hi => runs_block_elsewhere (hnone i hi)
          rw [pieces_of_some fence_ne_nil hcut, hstart]
          cases hnext : cutAt fence rest with
          | none =>
              have hhead := @head?_runs_block rest
              rw [hnext, Option.bind_none] at hhead
              rw [findall_fence_skip hruns' hhead, ih rest.length hrest rest hrestRuns rfl,
                pieces_of_none fence_ne_nil hnext]
              rfl
          | some next =>
              obtain ⟨block, after⟩ := next
              obtain ⟨hblock, -⟩ := cutAt_spec hnext
              have hhead := @head?_runs_block rest
              rw [hnext, Option.bind_some] at hhead
              rw [pieces_of_some fence_ne_nil hnext]
              obtain ⟨piece, more, hpieces⟩ : ∃ piece more, pieces fence after = piece :: more := by
                cases hlater : cutAt fence after with
                | none => exact ⟨after, [], pieces_of_none fence_ne_nil hlater⟩
                | some later => exact ⟨_, _, pieces_of_some fence_ne_nil hlater⟩
              rw [hpieces, blocksOf]
              cases hopened : opened block with
              | none =>
                  rw [hopened] at hhead
                  rw [findall_fence_skip hruns' hhead, ih rest.length hrest rest hrestRuns rfl,
                    pieces_of_some fence_ne_nil hnext, hpieces]
              | some code =>
                  have hafter : after.length < text.length := by
                    refine Nat.lt_of_le_of_lt ?_ hrest
                    rw [hblock, List.length_append]
                    omega
                  rw [hopened] at hhead
                  have hword : fence ++ (block ++ fence) ≠ [] := by simp [fence]
                  have hsplit : fence ++ rest = fence ++ (block ++ fence) ++ after := by
                    rw [hblock]
                    simp
                  have hmatch := @Re.findall_match _ blockPattern 1 _ _ _ hword hsplit hhead
                  rw [hmatch, ih after.length hafter after
                    (hrestRuns.suffix ⟨block ++ fence, hblock.symm⟩) rfl, hpieces]
                  simp

/-! ## The count -/

/-- Every block takes two fences. -/
theorem blocksOf_length (ps : List (List Char)) (hne : ps ≠ []) :
    2 * (blocksOf ps).length + 1 ≤ ps.length := by
  induction ps using blocksOf.induct with
  | case1 outside block after rest code hopened ih =>
      rw [blocksOf, hopened]
      have := ih (by simp)
      simp only [List.length_cons] at this ⊢
      omega
  | case2 outside block after rest hopened ih =>
      rw [blocksOf, hopened]
      have := ih (by simp)
      simp only [List.length_cons] at this ⊢
      omega
  | case3 ps hshort =>
      rw [blocksOf.eq_2 ps hshort]
      exact List.length_pos_iff.mpr hne

/-- The count comes out when every odd piece opens a block, and then these are the blocks. -/
theorem blocksOf_eq_iff (ps codes : List (List Char)) (hlength : ps.length = 2 * codes.length + 1) :
    blocksOf ps = codes ↔ ∀ k < codes.length, ∃ block code, ps[2 * k + 1]? = some block ∧
      codes[k]? = some code ∧ Opens block code := by
  induction ps using blocksOf.induct generalizing codes with
  | case1 outside block after rest code hopened ih =>
      cases codes with
      | nil => simp at hlength
      | cons first codes =>
          have ih' := ih codes (by simp only [List.length_cons] at hlength ⊢; omega)
          rw [blocksOf, hopened]
          show code :: blocksOf (after :: rest) = first :: codes ↔ _
          rw [List.cons_eq_cons, ih']
          constructor
          · rintro ⟨rfl, hrest⟩ k hk
            cases k with
            | zero => exact ⟨block, code, rfl, rfl, opened_eq_some.mp hopened⟩
            | succ k =>
                obtain ⟨block', code', hblock, hcode, hopens⟩ := hrest k (by simpa using hk)
                exact ⟨block', code', by rw [← hblock]; rfl, by simpa using hcode, hopens⟩
          · intro h
            constructor
            · obtain ⟨block', code', hblock, hcode, hopens⟩ := h 0 (by simp)
              obtain rfl : block = block' := by simpa using hblock
              obtain rfl : first = code' := by simpa using hcode
              rw [opened_eq_some.mpr hopens] at hopened
              exact (Option.some_inj.mp hopened).symm
            · intro k hk
              obtain ⟨block', code', hblock, hcode, hopens⟩ := h (k + 1) (by simpa using hk)
              exact ⟨block', code', by rw [← hblock]; rfl, by simpa using hcode, hopens⟩
  | case2 outside block after rest hopened ih =>
      have hle := blocksOf_length (block :: after :: rest) (by simp)
      rw [blocksOf, hopened]
      show blocksOf (block :: after :: rest) = codes ↔ _
      constructor
      · -- one fence was stepped over, so the count cannot come out
        rintro rfl
        simp only [List.length_cons] at hlength hle
        omega
      · intro h
        have hpos : 0 < codes.length := by
          simp only [List.length_cons] at hlength
          omega
        obtain ⟨block', code', hblock, -, hopens⟩ := h 0 hpos
        obtain rfl : block = block' := by simpa using hblock
        rw [opened_eq_some.mpr hopens] at hopened
        cases hopened
  | case3 ps hshort =>
      have hcodes : codes = [] := by
        cases codes with
        | nil => rfl
        | cons first codes =>
            match ps, hshort, hlength with
            | [], _, hlength | [_], _, hlength | [_, _], _, hlength =>
                simp only [List.length_cons, List.length_nil] at hlength
                omega
            | _ :: block :: after :: rest, hshort, _ => exact (hshort _ block after rest rfl).elim
      subst hcodes
      rw [blocksOf.eq_2 ps hshort]
      simp

/-! ## The programs of the blocks -/

theorem count_eq_filter_length {names : List String} {entryPoint : String} :
    (names.filter (· == entryPoint)).length = names.count entryPoint := by
  rw [List.count, List.countP_eq_length_filter]

/-- The loop keeps the codes that define the entry point, once each. -/
theorem implementations_eq_some {parse : List Char → Option (List String)} {entryPoint : String}
    {codes found : List (List Char)} :
    implementations parse entryPoint codes = some found ↔
      (∀ code ∈ codes, (parse code).isSome = true ∧ definitions parse entryPoint code ≤ 1) ∧
        codes.filter (fun code => definitions parse entryPoint code = 1) = found := by
  induction codes generalizing found with
  | nil => simp [implementations]
  | cons code codes ih =>
      rw [implementations]
      cases hparse : parse code with
      | none => simp [hparse]
      | some names =>
          have hcount : definitions parse entryPoint code =
              (names.filter (· == entryPoint)).length := by
            rw [definitions, hparse, Option.getD_some, count_eq_filter_length]
          simp only [Option.bind_eq_bind, Option.bind_some]
          by_cases hmany : (names.filter (· == entryPoint)).length > 1
          · rw [if_pos hmany]
            constructor
            · intro h
              cases h
            · rintro ⟨hall, -⟩
              have := (hall code (by simp)).2
              omega
          · have hkeep :
                (code :: codes).filter (fun code => definitions parse entryPoint code = 1) =
                if names.filter (· == entryPoint) = [] then
                  codes.filter fun code => definitions parse entryPoint code = 1
                else code :: codes.filter fun code => definitions parse entryPoint code = 1 := by
              rw [List.filter_cons, hcount]
              by_cases hnil : names.filter (· == entryPoint) = []
              · rw [if_pos hnil, hnil]
                rfl
              · have hone : (names.filter (· == entryPoint)).length = 1 := by
                  have := List.length_pos_iff.mpr hnil
                  omega
                rw [if_neg hnil, hone]
                rfl
            rw [if_neg hmany, hkeep, Option.bind_eq_some_iff]
            constructor
            · rintro ⟨rest, hrest, hfound⟩
              obtain ⟨hall, rfl⟩ := ih.mp hrest
              refine ⟨List.forall_mem_cons.mpr ⟨⟨by rw [hparse]; rfl, by omega⟩, hall⟩, ?_⟩
              exact Option.some_inj.mp hfound
            · rintro ⟨hall, rfl⟩
              exact ⟨_, ih.mpr ⟨(List.forall_mem_cons.mp hall).2, rfl⟩, rfl⟩

/-- Exactly one code is left, where every other code does not define the entry point. -/
theorem implementations_eq_singleton {parse : List Char → Option (List String)}
    {entryPoint : String} {codes : List (List Char)} {program : List Char} :
    implementations parse entryPoint codes = some [program] ↔
      (∀ code ∈ codes, (parse code).isSome = true) ∧
        ∃ before after, codes = before ++ program :: after ∧
          definitions parse entryPoint program = 1 ∧
          ∀ code ∈ before ++ after, definitions parse entryPoint code = 0 := by
  rw [implementations_eq_some]
  constructor
  · rintro ⟨hall, hfilter⟩
    refine ⟨fun code hcode => (hall code hcode).1, ?_⟩
    obtain ⟨before, after, rfl, hbefore, hone, hafter⟩ := List.filter_eq_cons_iff.mp hfilter
    refine ⟨before, after, rfl, by simpa using hone, fun code hcode => ?_⟩
    have hne : definitions parse entryPoint code ≠ 1 := by
      rcases List.mem_append.mp hcode with hmem | hmem
      · simpa using hbefore code hmem
      · simpa using List.filter_eq_nil_iff.mp hafter code hmem
    have hmem : code ∈ before ++ program :: after := by
      rw [List.mem_append] at hcode ⊢
      exact hcode.imp_right (List.mem_cons_of_mem _)
    have := (hall code hmem).2
    omega
  · rintro ⟨hparse, before, after, rfl, hone, hzero⟩
    constructor
    · intro code hcode
      refine ⟨hparse code hcode, ?_⟩
      rw [List.mem_append, List.mem_cons] at hcode
      rcases hcode with hmem | rfl | hmem
      · rw [hzero code (List.mem_append_left _ hmem)]
        omega
      · rw [hone]
      · rw [hzero code (List.mem_append_right _ hmem)]
        omega
    · rw [List.filter_append, List.filter_cons_of_pos (by simpa using hone)]
      have hnone : ∀ codes : List (List Char), (∀ code ∈ codes, code ∈ before ++ after) →
          codes.filter (fun code => definitions parse entryPoint code = 1) = [] := by
        intro codes hsub
        rw [List.filter_eq_nil_iff]
        intro code hcode
        rw [hzero code (hsub code hcode)]
        decide
      rw [hnone before fun code h => List.mem_append_left _ h,
        hnone after fun code h => List.mem_append_right _ h]
      rfl

/-! ## The program of a response -/

variable {parse : List Char → Option (List String)} {entryPoint : String}
  {text program : List Char}

theorem only_eq_some {found : Option (List (List Char))} : (match found with
    | some [code] => some code
    | _ => none) = some program ↔ found = some [program] := by
  match found with
  | none => simp
  | some [] => simp
  | some [code] => simp
  | some (code :: other :: rest) => simp

theorem extractProgram_fenced (hruns : NoLongRun text) (hfence : fence <:+: text) :
    extractProgram parse entryPoint text = some program ↔
      FencedProgram parse entryPoint text program := by
  have hlength := pieces_length fence_ne_nil text
  have hpos := countOf_pos fence_ne_nil hfence
  rw [extractProgram, findall_eq_blocksOf text hruns]
  by_cases hcount : countOf fence text = 2 * (blocksOf (pieces fence text)).length
  · have hne : blocksOf (pieces fence text) ≠ [] := by
      intro hnil
      rw [hnil, List.length_nil] at hcount
      omega
    rw [if_neg fun h => h.2 hcount, if_neg hne]
    refine only_eq_some.trans ?_
    rw [implementations_eq_singleton]
    constructor
    · rintro ⟨hparse, hone⟩
      exact ⟨_, hcount, (blocksOf_eq_iff _ _ (by omega)).mp rfl, hparse, hone⟩
    · rintro ⟨codes, hcodes, hopens, hparse, hone⟩
      rw [(blocksOf_eq_iff _ codes (by omega)).mpr hopens]
      exact ⟨hparse, hone⟩
  · rw [if_pos ⟨hfence, hcount⟩]
    constructor
    · intro h
      cases h
    · rintro ⟨codes, hcodes, hopens, -⟩
      rw [(blocksOf_eq_iff _ codes (by omega)).mpr hopens] at hcount
      exact absurd hcodes hcount

theorem extractProgram_unfenced (hruns : NoLongRun text) (hfence : ¬ fence <:+: text) :
    extractProgram parse entryPoint text = some program ↔
      program = text ∧ (parse text).isSome = true ∧ definitions parse entryPoint text = 1 := by
  have hblocks : blocksOf (pieces fence text) = [] := by
    rw [pieces_of_none fence_ne_nil (cutAt_eq_none.mpr hfence)]
    rfl
  rw [extractProgram, findall_eq_blocksOf text hruns, hblocks, if_neg fun h => hfence h.1,
    if_pos rfl]
  refine only_eq_some.trans ?_
  rw [implementations_eq_singleton]
  constructor
  · rintro ⟨hparse, before, after, hsplit, hone, -⟩
    obtain ⟨-, hlist⟩ | ⟨-, hlist⟩ := List.append_eq_singleton_iff.mp hsplit.symm
    · obtain ⟨rfl, -⟩ := List.cons_eq_cons.mp hlist
      exact ⟨rfl, hparse program (by simp), hone⟩
    · cases hlist
  · rintro ⟨rfl, hparse, hone⟩
    exact ⟨by simpa using hparse, [], [], rfl, hone, by simp⟩

/-- A program is taken from a fenced response when its fences pair up and one block
defines the entry point once, and from an unfenced one when all of it does. -/
theorem extractProgram_eq_some_iff (parse : List Char → Option (List String)) (entryPoint : String)
    (text program : List Char) (hruns : NoLongRun text) :
    extractProgram parse entryPoint text = some program ↔
      (fence <:+: text ∧ FencedProgram parse entryPoint text program) ∨
        (¬ fence <:+: text ∧ program = text ∧ (parse text).isSome = true ∧
          definitions parse entryPoint text = 1) := by
  by_cases hfence : fence <:+: text
  · rw [extractProgram_fenced hruns hfence]
    simp [hfence]
  · rw [extractProgram_unfenced hruns hfence]
    simp [hfence]

/-- A response with one fenced program. -/
def fencedResponse : List Char := "Try:\n```py\n\ndef f\n```".toList

/-- It defines the entry point. -/
def onlyF (code : List Char) : Option (List String) :=
  if code = "def f\n".toList then some ["f"] else none

theorem extractProgram_fencedResponse :
    extractProgram onlyF "f" fencedResponse = some "def f\n".toList := by
  have hfence : fence <:+: fencedResponse :=
    ⟨"Try:\n".toList, "py\n\ndef f\n```".toList, by decide⟩
  have hopens : Opens "py\n\ndef f\n".toList "def f\n".toList := opened_eq_some.mp (by decide)
  refine (extractProgram_eq_some_iff onlyF "f" fencedResponse "def f\n".toList ?_).mpr
    (Or.inl ⟨hfence, ["def f\n".toList], by decide, ?_, by decide, [], [], rfl, by decide,
      by simp⟩)
  · rw [NoLongRun]
    decide
  · intro k hk
    obtain rfl : k = 0 := by simpa using hk
    exact ⟨_, _, by decide, rfl, hopens⟩

end Crisp.Proofs
