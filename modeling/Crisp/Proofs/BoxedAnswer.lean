import Crisp.Lib.Pieces
import Crisp.Ref.ProcessEval

/-!
# What the box of a validation solution yields

The expression of `extract_boxed_answer` stops at the first closing brace there is,
so it reads a box only as far as its first inner brace closes. What it returns is
decided by the text between the first `\boxed{` and the next closing brace; where
that text is not empty and opens no brace it is the body of the first box, and
nowhere else is it.
-/

namespace Crisp.Proofs

open Crisp.Lib Crisp.Ref

/-- A text whose braces are balanced, to any depth. -/
inductive BraceBalanced : List Char → Prop
  | nil : BraceBalanced []
  | char {c : Char} {rest : List Char} (hopen : c ≠ '{') (hclose : c ≠ '}')
      (hrest : BraceBalanced rest) : BraceBalanced (c :: rest)
  | braces {inner rest : List Char} (hinner : BraceBalanced inner) (hrest : BraceBalanced rest) :
      BraceBalanced ('{' :: (inner ++ '}' :: rest))

/-- A box of the text: what stands before it, its body and what stands after it. -/
structure IsBox (text before body after : List Char) : Prop where
  text_eq : text = before ++ ProcessEval.boxed ++ body ++ '}' :: after
  balanced : BraceBalanced body

/-- The first box of the text holds `body`. -/
def FirstBox (text body : List Char) : Prop :=
  ∃ before after, IsBox text before body after ∧
    ∀ before' body' after', IsBox text before' body' after' → before.length ≤ before'.length

/-- What the extraction of boxed answers is for. -/
def ExtractsFirstBox (extract : List Char → List Char) (text : List Char) : Prop :=
  (∀ body, FirstBox text body → extract text = body) ∧
    ((¬ ∃ body, FirstBox text body) → extract text = text)

/-- Between the first `\boxed{` and the next closing brace, where there are both, stands
some text, and it opens no brace. -/
def ShallowBox (text : List Char) : Prop :=
  ∀ before rest, cutAt ProcessEval.boxed text = some (before, rest) →
    ∀ body after, rest = body ++ '}' :: after → '}' ∉ body → body ≠ [] ∧ '{' ∉ body

/-! ## Balanced bodies -/

/-- A balanced text closes no brace before it opens one. -/
theorem BraceBalanced.opens_first {body : List Char} (h : BraceBalanced body) :
    ('{' ∉ body ∧ '}' ∉ body) ∨
      ∃ front rest, body = front ++ '}' :: rest ∧ '}' ∉ front ∧ '{' ∈ front := by
  induction h with
  | nil => exact Or.inl ⟨by simp, by simp⟩
  | @char c rest hopen hclose _ ih =>
      rcases ih with ⟨hno, hno'⟩ | ⟨front, rest', rfl, hfront, hmem⟩
      · exact Or.inl ⟨by simp [hopen.symm, hno], by simp [hclose.symm, hno']⟩
      · exact Or.inr ⟨c :: front, rest', rfl, by simp [hclose.symm, hfront], by simp [hmem]⟩
  | @braces inner rest _ _ ihinner _ =>
      refine Or.inr ?_
      rcases ihinner with ⟨-, hno⟩ | ⟨front, rest', rfl, hfront, hmem⟩
      · exact ⟨'{' :: inner, rest, rfl, by simp [hno], by simp⟩
      · exact ⟨'{' :: front, rest' ++ '}' :: rest, by simp, by simp [hfront], by simp⟩

theorem balanced_of_flat {body : List Char} (hopen : '{' ∉ body) (hclose : '}' ∉ body) :
    BraceBalanced body := by
  induction body with
  | nil => exact .nil
  | cons c body ih =>
      rw [List.mem_cons, not_or] at hopen hclose
      exact .char (Ne.symm hopen.1) (Ne.symm hclose.1) (ih hopen.2 hclose.2)

theorem not_balanced {body : List Char} (hopen : '{' ∈ body) (hclose : '}' ∉ body) :
    ¬ BraceBalanced body := by
  intro h
  rcases h.opens_first with ⟨hno, -⟩ | ⟨front, rest, rfl, -, -⟩
  · exact hno hopen
  · exact hclose (by simp)

/-- What stands before the first closing brace is the only balanced body there is, when
it opens no brace. -/
theorem body_unique {flat after body after' : List Char} (hopen : '{' ∉ flat) (hclose : '}' ∉ flat)
    (hbody : BraceBalanced body) (heq : flat ++ '}' :: after = body ++ '}' :: after') :
    body = flat := by
  rcases hbody.opens_first with ⟨-, hno⟩ | ⟨front, rest, rfl, hfront, hmem⟩
  · exact (cut_unique hclose hno heq).1.symm
  · rw [List.append_assoc, List.cons_append] at heq
    obtain ⟨rfl, -⟩ := cut_unique hclose hfront heq
    exact absurd hmem hopen

/-! ## What the expression finds -/

/-- A way of the expression: a box as far as the first closing brace. -/
theorem mem_boxedPattern {groups : Groups} {text rest : List Char}
    (h : (groups, rest) ∈ ProcessEval.boxedPattern.runs (fun _ => none) text) :
    ∃ body, text = ProcessEval.boxed ++ body ++ '}' :: rest ∧ body ≠ [] ∧ '}' ∉ body ∧
      groups 1 = some body := by
  obtain ⟨word, rfl, hword⟩ := Re.mem_runs.mp h
  simp only [ProcessEval.boxedPattern, Re.matches_cat_cons, Re.matches_cat_nil, Re.matches_lit,
    Re.matches_group, Re.matches_many1] at hword
  obtain ⟨_, _, _, rfl, ⟨rfl, rfl⟩, body, _, _, rfl, ⟨_, ⟨hne, hall, rfl⟩, rfl⟩, _, _, _, rfl,
    ⟨rfl, rfl⟩, rfl, rfl⟩ := hword
  refine ⟨body, by simp, hne, fun hmem => ?_, by simp⟩
  simpa using hall '}' hmem

/-- At a `\boxed{` the expression reads up to the first closing brace. -/
theorem boxedPattern_here {body after : List Char} (hne : body ≠ []) (hclose : '}' ∉ body) :
    ∃ groups, (ProcessEval.boxedPattern.runs (fun _ => none)
        (ProcessEval.boxed ++ body ++ '}' :: after)).head? = some (groups, after) ∧
      groups 1 = some body := by
  have hword : ProcessEval.boxedPattern.Matches (ProcessEval.boxed ++ (body ++ ['}']))
      (fun _ => none) (Function.update (fun _ => none) 1 (some body)) := by
    simp only [ProcessEval.boxedPattern, Re.matches_cat_cons, Re.matches_cat_nil, Re.matches_lit,
      Re.matches_group, Re.matches_many1]
    have hall : ∀ c ∈ body, (c != '}') = true := by
      intro c hc
      rw [bne_iff_ne]
      rintro rfl
      exact hclose hc
    exact ⟨_, _, _, rfl, ⟨rfl, rfl⟩, body, ['}'], _, rfl, ⟨_, ⟨hne, hall, rfl⟩, rfl⟩, ['}'], [], _,
      rfl, ⟨rfl, rfl⟩, rfl, rfl⟩
  have hmem := Re.mem_runs.mpr ⟨_, (by simp : ProcessEval.boxed ++ body ++ '}' :: after =
    ProcessEval.boxed ++ (body ++ ['}']) ++ after), hword⟩
  obtain ⟨⟨groups, rest⟩, ways, hruns⟩ := List.exists_cons_of_ne_nil (List.ne_nil_of_mem hmem)
  have hfirst : (groups, rest) ∈ ProcessEval.boxedPattern.runs (fun _ => none)
      (ProcessEval.boxed ++ body ++ '}' :: after) := by
    rw [hruns]
    exact List.mem_cons_self
  obtain ⟨body', heq, -, hclose', hgroup⟩ := mem_boxedPattern hfirst
  rw [List.append_assoc, List.append_assoc] at heq
  obtain ⟨rfl, rfl⟩ := cut_unique hclose hclose' (List.append_cancel_left heq)
  exact ⟨groups, by rw [hruns]; rfl, hgroup⟩

theorem boxedPattern_none {text : List Char}
    (h : ∀ body after, text = ProcessEval.boxed ++ body ++ '}' :: after → '}' ∉ body → body = []) :
    (ProcessEval.boxedPattern.runs (fun _ => none) text).head? = none := by
  rw [List.head?_eq_none_iff, List.eq_nil_iff_forall_not_mem]
  rintro ⟨groups, rest⟩ hmem
  obtain ⟨body, htext, hne, hclose, -⟩ := mem_boxedPattern hmem
  exact hne (h body rest htext hclose)

/-- There is no way where no `\boxed{` stands. -/
theorem boxedPattern_elsewhere {text : List Char} (h : ¬ ProcessEval.boxed <+: text) :
    (ProcessEval.boxedPattern.runs (fun _ => none) text).head? = none := by
  refine boxedPattern_none fun body after htext _ => absurd ?_ h
  rw [htext, List.append_assoc]
  exact List.prefix_append _ _

/-- Nothing is found where no closing brace follows a `\boxed{`. -/
theorem search_none {text : List Char}
    (h : ∀ before body after, text ≠ before ++ ProcessEval.boxed ++ body ++ '}' :: after) :
    ProcessEval.boxedPattern.search text = none := by
  induction text with
  | nil =>
      have hnone : (ProcessEval.boxedPattern.runs (fun _ => none) []).head? = none :=
        boxedPattern_none fun body after htext _ => absurd htext (h [] body after)
      rw [Re.search, hnone]
      rfl
  | cons c text ih =>
      have hnone : (ProcessEval.boxedPattern.runs (fun _ => none) (c :: text)).head? = none :=
        boxedPattern_none fun body after htext _ => absurd htext (h [] body after)
      rw [Re.search_skip hnone]
      refine ih fun before body after htext => h (c :: before) body after ?_
      rw [htext]
      rfl

/-- What is found is never empty. -/
theorem search_nonempty {groups : Groups} {text : List Char}
    (h : ProcessEval.boxedPattern.search text = some groups) :
    ∃ body, groups 1 = some body ∧ body ≠ [] := by
  have hway : ∀ {text : List Char} {way : Groups × List Char} {ways : List (Groups × List Char)},
      ProcessEval.boxedPattern.runs (fun _ => none) text = way :: ways →
        ∃ body, way.1 1 = some body ∧ body ≠ [] := by
    intro text way ways hruns
    have hmem : way ∈ ProcessEval.boxedPattern.runs (fun _ => none) text := by
      rw [hruns]
      exact List.mem_cons_self
    obtain ⟨body, -, hne, -, hgroup⟩ := mem_boxedPattern hmem
    exact ⟨body, hgroup, hne⟩
  induction text with
  | nil =>
      rw [Re.search] at h
      obtain ⟨way, hhead, rfl⟩ := Option.map_eq_some_iff.mp h
      obtain ⟨ways, hruns⟩ := List.head?_eq_some_iff.mp hhead
      exact hway hruns
  | cons c text ih =>
      rw [Re.search] at h
      split at h
      · next way ways hruns =>
          obtain rfl := Option.some_inj.mp h
          exact hway hruns
      · exact ih h

/-! ## Boxes and the first `\boxed{` -/

variable {text before rest body after : List Char}

theorem isBox_le (hcut : cutAt ProcessEval.boxed text = some (before, rest))
    {before' body' after' : List Char} (hbox : IsBox text before' body' after') :
    before.length ≤ before'.length := by
  by_contra hlt
  refine (cutAt_spec hcut).2 before'.length (by omega) ?_
  rw [hbox.text_eq, List.append_assoc, List.append_assoc, List.drop_left' rfl]
  exact List.prefix_append _ _

/-- A balanced body at the first `\boxed{` is the first box. -/
theorem firstBox_of_cut
    (hcut : cutAt ProcessEval.boxed text = some (before, body ++ '}' :: after))
    (hbody : BraceBalanced body) : FirstBox text body :=
  ⟨before, after, ⟨by rw [(cutAt_spec hcut).1, List.append_assoc _ body], hbody⟩,
    fun _ _ _ hbox => isBox_le hcut hbox⟩

/-- There is no other when that body opens no brace. -/
theorem firstBox_unique
    (hcut : cutAt ProcessEval.boxed text = some (before, body ++ '}' :: after))
    (hopen : '{' ∉ body) (hclose : '}' ∉ body) {body' : List Char} (h : FirstBox text body') :
    body' = body := by
  obtain ⟨before', after', hbox, hfirst⟩ := h
  have htext := (cutAt_spec hcut).1
  have hhere : IsBox text before body after :=
    ⟨by rw [htext, List.append_assoc _ body], balanced_of_flat hopen hclose⟩
  have hlength : before.length = before'.length :=
    Nat.le_antisymm (isBox_le hcut hbox) (hfirst before body after hhere)
  rw [hbox.text_eq, List.append_assoc, List.append_assoc, List.append_assoc] at htext
  obtain ⟨-, htail⟩ := List.append_inj htext.symm hlength
  exact body_unique hopen hclose hbox.balanced (List.append_cancel_left htail)

/-- At the first `\boxed{` the code reads up to the next closing brace. -/
theorem extractBoxedAnswer_here
    (hcut : cutAt ProcessEval.boxed text = some (before, body ++ '}' :: after))
    (hne : body ≠ []) (hclose : '}' ∉ body) : ProcessEval.extractBoxedAnswer text = body := by
  obtain ⟨htext, hnone⟩ := cutAt_spec hcut
  obtain ⟨groups, hhead, hgroup⟩ := @boxedPattern_here body after hne hclose
  rw [List.append_assoc] at htext
  rw [htext] at hnone
  rw [ProcessEval.extractBoxedAnswer, htext,
    Re.search_append fun i hi => boxedPattern_elsewhere (hnone i hi), ← List.append_assoc,
    Re.search_here hhead]
  dsimp only
  rw [hgroup]
  rfl

/-- Without a `\boxed{` that a closing brace follows the text stays as it is. -/
theorem extractBoxedAnswer_open
    (h : ∀ before rest, cutAt ProcessEval.boxed text = some (before, rest) → '}' ∉ rest) :
    ProcessEval.extractBoxedAnswer text = text ∧ ¬ ∃ body, FirstBox text body := by
  have hno : ∀ before body after,
      text ≠ before ++ ProcessEval.boxed ++ body ++ '}' :: after := by
    intro before body after htext
    cases hcut : cutAt ProcessEval.boxed text with
    | none =>
        refine cutAt_eq_none.mp hcut ⟨before, body ++ '}' :: after, ?_⟩
        rw [htext, List.append_assoc _ body]
    | some cut =>
        obtain ⟨before', rest⟩ := cut
        obtain ⟨htext', hnone⟩ := cutAt_spec hcut
        -- the occurrence is not before the first one, so its brace stands in the rest
        have hle : before'.length ≤ before.length := by
          by_contra hlt
          refine hnone before.length (by omega) ?_
          rw [htext, List.append_assoc, List.append_assoc, List.drop_left' rfl]
          exact List.prefix_append _ _
        have hdrop := congrArg (List.drop (before' ++ ProcessEval.boxed).length)
          (htext'.symm.trans htext)
        rw [List.drop_left' rfl, List.drop_append_of_le_length (by simp; omega)] at hdrop
        exact h before' rest hcut (by rw [hdrop]; simp)
  constructor
  · rw [ProcessEval.extractBoxedAnswer, search_none hno]
  · rintro ⟨body, before, after, hbox, -⟩
    exact hno before body after hbox.text_eq

theorem shallowBox_of_extracts (h : ExtractsFirstBox ProcessEval.extractBoxedAnswer text) :
    ShallowBox text := by
  obtain ⟨hbox, hnobox⟩ := h
  intro before rest hcut body after hrest hclose
  subst hrest
  have hne : body ≠ [] := by
    rintro rfl
    -- an empty box holds nothing, and nothing is never returned
    have hextract := hbox [] (firstBox_of_cut hcut .nil)
    rw [ProcessEval.extractBoxedAnswer] at hextract
    split at hextract
    · next groups hsearch =>
        obtain ⟨found, hgroup, hfound⟩ := search_nonempty hsearch
        rw [hgroup] at hextract
        exact hfound hextract
    · rw [(cutAt_spec hcut).1] at hextract
      simp at hextract
  refine ⟨hne, fun hopen => ?_⟩
  have hextract := extractBoxedAnswer_here hcut hne hclose
  by_cases hfirst : ∃ body', FirstBox text body'
  · obtain ⟨body', hbody'⟩ := hfirst
    obtain rfl : body = body' := hextract.symm.trans (hbox body' hbody')
    obtain ⟨_, _, hisBox, -⟩ := hbody'
    exact not_balanced hopen hclose hisBox.balanced
  · -- the text itself is longer than what is read from it
    have hlength := congrArg List.length (hextract.symm.trans (hnobox hfirst))
    rw [(cutAt_spec hcut).1] at hlength
    simp only [List.length_append, List.length_cons] at hlength
    omega

theorem extracts_of_shallowBox (h : ShallowBox text) :
    ExtractsFirstBox ProcessEval.extractBoxedAnswer text := by
  by_cases hall : ∀ before rest, cutAt ProcessEval.boxed text = some (before, rest) → '}' ∉ rest
  · obtain ⟨hsame, hno⟩ := extractBoxedAnswer_open hall
    exact ⟨fun body hbody => absurd ⟨body, hbody⟩ hno, fun _ => hsame⟩
  · push Not at hall
    obtain ⟨before, rest, hcut, hmem⟩ := hall
    obtain ⟨body, after, rfl, hclose⟩ := List.eq_append_cons_of_mem hmem
    obtain ⟨hne, hopen⟩ := h before _ hcut body after rfl hclose
    have hextract := extractBoxedAnswer_here hcut hne hclose
    refine ⟨fun body' hbody' => ?_, fun hno => ?_⟩
    · rw [hextract, firstBox_unique hcut hopen hclose hbody']
    · exact absurd ⟨body, firstBox_of_cut hcut (balanced_of_flat hopen hclose)⟩ hno

/-- The first box is what the code returns for the texts whose first `\boxed{` opens a
body with no braces of its own, and for those alone. -/
theorem extracts_first_box_iff (text : List Char) :
    ExtractsFirstBox ProcessEval.extractBoxedAnswer text ↔ ShallowBox text :=
  ⟨shallowBox_of_extracts, extracts_of_shallowBox⟩

/-- A fraction in the box is cut after its numerator. -/
theorem boxed_fraction_truncated :
    ProcessEval.extractBoxedAnswer "\\boxed\x7b\\frac\x7b1\x7d\x7b2\x7d\x7d".toList =
        "\\frac\x7b1".toList ∧
      FirstBox "\\boxed\x7b\\frac\x7b1\x7d\x7b2\x7d\x7d".toList
        "\\frac\x7b1\x7d\x7b2\x7d".toList ∧
      ¬ ExtractsFirstBox ProcessEval.extractBoxedAnswer
        "\\boxed\x7b\\frac\x7b1\x7d\x7b2\x7d\x7d".toList := by
  have hextract : ProcessEval.extractBoxedAnswer "\\boxed\x7b\\frac\x7b1\x7d\x7b2\x7d\x7d".toList =
      "\\frac\x7b1".toList := by decide +kernel
  have hbalanced : BraceBalanced "\\frac\x7b1\x7d\x7b2\x7d".toList := by
    refine .char (by decide) (by decide) (.char (by decide) (by decide) (.char (by decide)
      (by decide) (.char (by decide) (by decide) (.char (by decide) (by decide) ?_))))
    have hone : BraceBalanced ['1'] := .char (by decide) (by decide) .nil
    have htwo : BraceBalanced ['2'] := .char (by decide) (by decide) .nil
    exact .braces hone (.braces htwo .nil)
  have hcut : cutAt ProcessEval.boxed "\\boxed\x7b\\frac\x7b1\x7d\x7b2\x7d\x7d".toList =
      some ([], "\\frac\x7b1\x7d\x7b2\x7d".toList ++ '}' :: []) := by decide +kernel
  have hfirst := firstBox_of_cut hcut hbalanced
  refine ⟨hextract, hfirst, fun h => ?_⟩
  have heq := hextract.symm.trans (h.1 _ hfirst)
  revert heq
  decide +kernel

/-- The answer a row of AIME 2024 is graded against, where its first box is shallow. -/
theorem processAime24_groundTruth {instructionPrefix instructionSuffix : String}
    {data : List ProcessEval.AimeExample} {i : Nat} {row : ProcessEval.AimeExample}
    (hrow : data[i]? = some row) (hshallow : ShallowBox row.solution.toList)
    (hfirst : FirstBox row.solution.toList body) :
    ((ProcessEval.processAime24 instructionPrefix instructionSuffix data)[i]?).map
        ProcessEval.EvalRow.groundTruth = some (String.ofList body) := by
  rw [ProcessEval.processAime24, List.getElem?_mapIdx, hrow, Option.map_some, Option.map_some,
    (extracts_of_shallowBox hshallow).1 body hfirst]

end Crisp.Proofs
