import Crisp.Ref.DataSource
import Mathlib.Algebra.Ring.Nat
import Mathlib.Data.List.Perm.Basic
import Mathlib.Data.List.Range

/-!
# One sequence of prompt groups

However the requests are cut, a source hands out one sequence: the epochs one after
another, each in its own order, numbered from nought. Where it stands is one number, and
the five that are saved are functions of it, so a process that loads them goes on where
the one that saved them stood. The buffer stands in front of that sequence and is a queue.
-/

namespace Crisp.Proofs

open Crisp.Lib Crisp.Ref

variable {P : Type} [Inhabited P] (shuffler : Shuffler) (args : DataSourceArgs) (prompts : List P)

/-! ## The sequence -/

/-- The prompts in the order of one epoch. -/
def epochPrompts (epochId : Nat) : List P :=
  if args.rolloutShuffle then
    (shuffler.order (args.rolloutSeed + epochId) prompts.length).map fun i => prompts.getD i default
  else prompts

/-- The prompt of the `count`-th group there ever is. -/
def promptAt (count : Nat) : P :=
  (epochPrompts shuffler args prompts (count / prompts.length)).getD (count % prompts.length)
    default

/-- The `count`-th group. -/
def groupAt (count : Nat) : List (IssuedSample P) :=
  (List.range args.nSamplesPerPrompt).map fun k =>
    ⟨promptAt shuffler args prompts count, count, count * args.nSamplesPerPrompt + k⟩

/-- The groups from one place in the sequence on. -/
def groupsFrom (count n : Nat) : List (List (IssuedSample P)) :=
  (List.range' count n).map (groupAt shuffler args prompts)

variable {shuffler args prompts}

theorem map_getD_perm {order : List Nat} (h : order.Perm (List.range prompts.length)) :
    (order.map fun i => prompts.getD i default).Perm prompts := by
  refine (h.map _).trans (List.Perm.of_eq ?_)
  refine List.ext_getElem (by simp) fun i _ hi => ?_
  simp [List.getD_eq_getElem?_getD, List.getElem?_eq_getElem hi]

/-- An epoch goes through the prompts once. -/
theorem epochPrompts_perm (epochId : Nat) :
    (epochPrompts shuffler args prompts epochId).Perm prompts := by
  rw [epochPrompts]
  split
  · exact map_getD_perm (shuffler.perm _ _)
  · exact .refl _

theorem epochPrompts_length (epochId : Nat) :
    (epochPrompts shuffler args prompts epochId).length = prompts.length :=
  (epochPrompts_perm epochId).length_eq

/-- Within an epoch the sequence is that epoch's order. -/
theorem promptAt_epoch {epochId i : Nat} (h : i < prompts.length) :
    promptAt shuffler args prompts (epochId * prompts.length + i) =
      (epochPrompts shuffler args prompts epochId).getD i default := by
  have hpos : 0 < prompts.length := by omega
  rw [promptAt, Nat.mul_comm, Nat.mul_add_div hpos, Nat.div_eq_of_lt h, Nat.add_zero,
    Nat.mul_add_mod, Nat.mod_eq_of_lt h]

/-- A run of the sequence inside one epoch. -/
theorem map_promptAt {epochId start n : Nat} (h : start + n ≤ prompts.length) :
    (List.range' (epochId * prompts.length + start) n).map (promptAt shuffler args prompts) =
      ((epochPrompts shuffler args prompts epochId).drop start).take n := by
  have hlength :=
    @epochPrompts_length _ _ shuffler args prompts epochId
  refine List.ext_getElem (by simp; omega) fun i hi _ => ?_
  rw [List.length_map, List.length_range'] at hi
  rw [List.getElem_map, List.getElem_range', Nat.one_mul, Nat.add_assoc,
    promptAt_epoch (by omega), List.getElem_take, List.getElem_drop, List.getD_eq_getElem?_getD,
    List.getElem?_eq_getElem (by omega), Option.getD_some]

/-! ## Where a source stands -/

variable (shuffler args prompts) in
/-- The dataset in the order of an epoch. -/
structure InEpoch (dataset : PromptDataset P) (epochId : Nat) : Prop where
  origin : dataset.originSamples = prompts
  seed : dataset.seed = args.rolloutSeed
  samples : dataset.samples = epochPrompts shuffler args prompts epochId
  epoch : args.rolloutShuffle = true → dataset.epochId = epochId

theorem InEpoch.shuffleFor {dataset : PromptDataset P} {epochId : Nat}
    (h : InEpoch shuffler args prompts dataset epochId) (newEpochId : Nat) :
    InEpoch shuffler args prompts (shuffleFor shuffler args dataset newEpochId) newEpochId := by
  have hlength : dataset.samples.length = prompts.length := by
    rw [h.samples, epochPrompts_length]
  rw [Ref.shuffleFor]
  cases hshuffle : args.rolloutShuffle with
  | false =>
      refine ⟨h.origin, h.seed, ?_, fun h => by simp [hshuffle] at h⟩
      rw [if_neg (by simp), h.samples, epochPrompts, epochPrompts, hshuffle]
      rfl
  | true =>
      rw [if_pos rfl, PromptDataset.shuffle]
      split
      · next hsame =>
          have hepoch : epochId = newEpochId := by
            have := h.epoch hshuffle
            omega
          exact hepoch ▸ h
      · refine ⟨h.origin, h.seed, ?_, fun _ => rfl⟩
        show (shuffler.order (dataset.seed + newEpochId) dataset.samples.length).map _ = _
        rw [h.seed, hlength, h.origin, epochPrompts, if_pos hshuffle]

theorem inEpoch_init : InEpoch shuffler args prompts
    (shuffleFor shuffler args (.init prompts args.rolloutSeed) 0) 0 := by
  rw [Ref.shuffleFor]
  cases hshuffle : args.rolloutShuffle with
  | false =>
      refine ⟨rfl, rfl, ?_, fun h => by simp [hshuffle] at h⟩
      rw [epochPrompts, hshuffle]
      rfl
  | true =>
      have hnew : (PromptDataset.init prompts args.rolloutSeed).epochId ≠ ((0 : Nat) : Int) := by
        simp [PromptDataset.init]
      rw [if_pos rfl, PromptDataset.shuffle, if_neg hnew]
      refine ⟨rfl, rfl, ?_, fun _ => rfl⟩
      rw [epochPrompts, if_pos hshuffle]
      rfl

variable (shuffler args prompts) in
/-- The source has handed out `count` groups, and everything it keeps says so. -/
structure AtCount (source : RolloutDataSource P) (count : Nat) : Prop where
  dataset : ∃ dataset, source.dataset = some dataset ∧
    InEpoch shuffler args prompts dataset source.epochId
  position : source.epochId * prompts.length + source.sampleOffset = count
  offset : source.sampleOffset ≤ prompts.length
  group : source.sampleGroupIndex = count
  index : source.sampleIndex = count * args.nSamplesPerPrompt

variable {source : RolloutDataSource P} {count n : Nat}

theorem atCount_init (hglobal : args.rolloutGlobalDataset = true) :
    AtCount shuffler args prompts (.init shuffler args prompts) 0 := by
  refine ⟨⟨_, ?_, inEpoch_init⟩, ?_, Nat.zero_le _, rfl, ?_⟩
  · rw [RolloutDataSource.init, if_pos hglobal]
  · simp [RolloutDataSource.init]
  · simp [RolloutDataSource.init]

/-- The prompts of a request no larger than the dataset. -/
theorem nextPrompts_spec (h : AtCount shuffler args prompts source count)
    (hn : n ≤ prompts.length) :
    (nextPrompts shuffler args source n).1 =
        (List.range' count n).map (promptAt shuffler args prompts) ∧
      ∃ next, (nextPrompts shuffler args source n).2 = next ∧
        next.sampleGroupIndex = source.sampleGroupIndex ∧ next.sampleIndex = source.sampleIndex ∧
        next.sampleOffset ≤ prompts.length ∧
        next.epochId * prompts.length + next.sampleOffset = count + n ∧
        ∃ dataset, next.dataset = some dataset ∧
          InEpoch shuffler args prompts dataset next.epochId := by
  obtain ⟨dataset, hdataset, hepoch⟩ := h.dataset
  have hlength : dataset.samples.length = prompts.length := by
    rw [hepoch.samples, epochPrompts_length]
  have hposition := h.position
  have hoffset := h.offset
  rw [nextPrompts, hdataset]
  simp only [hlength]
  split
  · next hfits =>
      refine ⟨?_, _, rfl, rfl, rfl, hfits, ?_, dataset, rfl, hepoch⟩
      · rw [hepoch.samples, ← map_promptAt hfits, hposition]
      · show source.epochId * prompts.length + (source.sampleOffset + n) = count + n
        omega
  · next hmore =>
      -- the rest of this epoch, and then the start of the next
      have hdrop : (dataset.samples.drop source.sampleOffset).length =
          prompts.length - source.sampleOffset := by
        rw [List.length_drop, hlength]
      have hsucc : (source.epochId + 1) * prompts.length =
          source.epochId * prompts.length + prompts.length := Nat.succ_mul _ _
      refine ⟨?_, _, rfl, rfl, rfl, ?_, ?_, _, rfl, hepoch.shuffleFor _⟩
      · have hrest := @map_promptAt _ _ shuffler args prompts source.epochId
          source.sampleOffset (prompts.length - source.sampleOffset) (by omega)
        have hnext := @map_promptAt _ _ shuffler args prompts (source.epochId + 1) 0
          (n - (prompts.length - source.sampleOffset)) (by omega)
        have hsplit := @List.range'_append_1 count (prompts.length - source.sampleOffset)
          (n - (prompts.length - source.sampleOffset))
        have hall : prompts.length - source.sampleOffset +
            (n - (prompts.length - source.sampleOffset)) = n := by omega
        have hstart : count + (prompts.length - source.sampleOffset) =
            (source.epochId + 1) * prompts.length + 0 := by omega
        rw [hall, hstart] at hsplit
        rw [List.drop_zero] at hnext
        rw [hposition, List.take_of_length_le (by rw [List.length_drop, epochPrompts_length])]
          at hrest
        rw [← hsplit, List.map_append, hrest, hnext, hdrop, hepoch.samples,
          (hepoch.shuffleFor (source.epochId + 1)).samples]
      · show n - (dataset.samples.drop source.sampleOffset).length ≤ prompts.length
        omega
      · show (source.epochId + 1) * prompts.length +
          (n - (dataset.samples.drop source.sampleOffset).length) = count + n
        omega

omit [Inhabited P] in
theorem issueGroups_eq (nSamples : Nat) (promptOf : Nat → P) (n : Nat) : ∀ count : Nat,
    issueGroups nSamples ((List.range' count n).map promptOf) count (count * nSamples) =
      (List.range' count n).map fun g =>
        (List.range nSamples).map fun k => ⟨promptOf g, g, g * nSamples + k⟩ := by
  induction n with
  | zero => exact fun _ => rfl
  | succ n ih =>
      intro count
      rw [List.range'_succ, List.map_cons, List.map_cons, issueGroups, ← Nat.succ_mul]
      exact congrArg _ (ih (count + 1))

/-- A request takes the next groups of the sequence. -/
theorem getSamples_spec (h : AtCount shuffler args prompts source count)
    (hn : n ≤ prompts.length) :
    (source.getSamples shuffler args n).1 = groupsFrom shuffler args prompts count n ∧
      AtCount shuffler args prompts (source.getSamples shuffler args n).2 (count + n) := by
  obtain ⟨hprompts, next, hnext, hgroup, hindex, hoffset, hposition, hdataset⟩ :=
    nextPrompts_spec h hn
  simp only [RolloutDataSource.getSamples, hprompts, hnext, hgroup, hindex, h.group, h.index,
    List.length_map, List.length_range']
  refine ⟨issueGroups_eq _ _ _ _, hdataset, hposition, hoffset, rfl, ?_⟩
  rw [Nat.add_mul]

/-! ## Saves and restarts -/

/-- What happens to a source: a request, a save, or a new process that loads. -/
inductive SourceOp where
  | get (numSamples : Nat)
  | save (rolloutId : Option Nat)
  | restart (rolloutId : Option Nat)

/-- The source of the current process, and the files. -/
structure SourceState (P : Type) where
  source : RolloutDataSource P
  files : String → Option DatasetState

variable (shuffler args prompts) in
def stepSource : SourceOp → SourceState P → List (List (IssuedSample P)) × SourceState P
  | .get numSamples, s =>
      ((s.source.getSamples shuffler args numSamples).1,
        { s with source := (s.source.getSamples shuffler args numSamples).2 })
  | .save rolloutId, s => ([], { s with files := s.source.save args rolloutId s.files })
  | .restart rolloutId, s =>
      ([], { s with
        source :=
          (RolloutDataSource.init shuffler args prompts).load shuffler args rolloutId s.files })

/-- What each step of a run hands out. -/
def runOps {S α : Type} (step : SourceOp → S → List α × S) : List SourceOp → S → List (List α)
  | [], _ => []
  | op :: ops, s => (step op s).1 :: runOps step ops (step op s).2

/-- The same, of a place in the sequence: where the source stands and what was saved. -/
structure SequencePlace where
  count : Nat
  saved : String → Option Nat

variable (shuffler args prompts) in
def stepPlace : SourceOp → SequencePlace → List (List (IssuedSample P)) × SequencePlace
  | .get numSamples, s =>
      (groupsFrom shuffler args prompts s.count numSamples,
        { s with count := s.count + numSamples })
  | .save rolloutId, s =>
      ([], { s with
        saved := Function.update s.saved (computeGlobalDatasetStatePath args.save rolloutId)
          (some s.count) })
  | .restart rolloutId, s =>
      ([], { s with
        count := (args.load.bind fun directory =>
          s.saved (computeGlobalDatasetStatePath directory rolloutId)).getD 0 })

variable (args prompts) in
/-- A file that says where `count` is. -/
structure SavedAt (state : DatasetState) (count : Nat) : Prop where
  saved : ∃ epochId offset, state.epochId = some epochId ∧ state.sampleOffset = some offset ∧
    epochId * prompts.length + offset = count ∧ offset ≤ prompts.length
  group : state.sampleGroupIndex = some count
  index : state.sampleIndex = some (count * args.nSamplesPerPrompt)

variable (shuffler args prompts) in
structure SamePlace (s : SourceState P) (place : SequencePlace) : Prop where
  source : AtCount shuffler args prompts s.source place.count
  files : ∀ path, Option.Rel (SavedAt args prompts) (s.files path) (place.saved path)

theorem AtCount.save (h : AtCount shuffler args prompts source count) {rolloutId : Option Nat}
    {files : String → Option DatasetState} {saved : String → Option Nat}
    (hglobal : args.rolloutGlobalDataset = true)
    (hfiles : ∀ path, Option.Rel (SavedAt args prompts) (files path) (saved path)) (path : String) :
    Option.Rel (SavedAt args prompts) (source.save args rolloutId files path)
      (Function.update saved (computeGlobalDatasetStatePath args.save rolloutId) (some count)
        path) := by
  rw [RolloutDataSource.save, if_pos hglobal]
  by_cases hpath : path = computeGlobalDatasetStatePath args.save rolloutId
  · rw [hpath, Function.update_self, Function.update_self]
    refine .some ⟨⟨_, _, rfl, rfl, h.position, h.offset⟩, ?_, ?_⟩
    · rw [← h.group]
    · rw [← h.index]
  · rw [Function.update_of_ne hpath, Function.update_of_ne hpath]
    exact hfiles path

/-- A new process that loads stands where the file says, whatever epoch it starts in. -/
theorem atCount_load {rolloutId : Option Nat} {files : String → Option DatasetState}
    {saved : String → Option Nat} (hglobal : args.rolloutGlobalDataset = true)
    (hfiles : ∀ path, Option.Rel (SavedAt args prompts) (files path) (saved path)) :
    AtCount shuffler args prompts
      ((RolloutDataSource.init shuffler args prompts).load shuffler args rolloutId files)
      ((args.load.bind fun directory =>
        saved (computeGlobalDatasetStatePath directory rolloutId)).getD 0) := by
  have hinit := @atCount_init _ _ shuffler args prompts hglobal
  rw [RolloutDataSource.load, if_pos hglobal]
  cases args.load with
  | none => exact hinit
  | some directory =>
      simp only [Option.bind_some]
      have hfile := hfiles (computeGlobalDatasetStatePath directory rolloutId)
      generalize files (computeGlobalDatasetStatePath directory rolloutId) = file at hfile ⊢
      generalize saved (computeGlobalDatasetStatePath directory rolloutId) = place at hfile ⊢
      cases hfile with
      | none => exact hinit
      | some hsaved =>
          obtain ⟨epochId, offset, hepochId, hoffset, hposition, hle⟩ := hsaved.saved
          obtain ⟨dataset, hdataset, hepoch⟩ := hinit.dataset
          simp only [hepochId, hoffset, hsaved.group, hsaved.index, hdataset, Option.getD_some,
            Option.map_some]
          exact ⟨⟨_, rfl, hepoch.shuffleFor _⟩, hposition, hle, rfl, rfl⟩

/-- What one step does to a source it does to its place. -/
theorem stepSource_spec {s : SourceState P} {place : SequencePlace} (op : SourceOp)
    (hglobal : args.rolloutGlobalDataset = true) (h : SamePlace shuffler args prompts s place)
    (hop : ∀ n, op = .get n → n ≤ prompts.length) :
    (stepSource shuffler args prompts op s).1 = (stepPlace shuffler args prompts op place).1 ∧
      SamePlace shuffler args prompts (stepSource shuffler args prompts op s).2
        (stepPlace shuffler args prompts op place).2 := by
  cases op with
  | get n =>
      obtain ⟨hgroups, hnext⟩ := getSamples_spec h.source (hop n rfl)
      exact ⟨hgroups, hnext, h.files⟩
  | save rolloutId => exact ⟨rfl, h.source, h.source.save hglobal h.files⟩
  | restart rolloutId => exact ⟨rfl, atCount_load hglobal h.files, h.files⟩

/-- **One sequence.** Over any run of saves, restarts and requests no longer than the dataset a
source hands out what its place in the sequence says, and every epoch of the sequence goes
through the prompts once. -/
theorem runSource_eq (shuffler : Shuffler) (args : DataSourceArgs) (prompts : List P)
    (hglobal : args.rolloutGlobalDataset = true) (ops : List SourceOp)
    (hops : ∀ n, SourceOp.get n ∈ ops → n ≤ prompts.length) :
    runOps (stepSource shuffler args prompts) ops
        ⟨.init shuffler args prompts, fun _ => none⟩ =
      runOps (stepPlace shuffler args prompts) ops ⟨0, fun _ => none⟩ ∧
    ∀ epochId, ((List.range' (epochId * prompts.length) prompts.length).map
      (promptAt shuffler args prompts)).Perm prompts := by
  have hrun : ∀ (ops : List SourceOp) (s : SourceState P) (place : SequencePlace),
      (∀ n, SourceOp.get n ∈ ops → n ≤ prompts.length) → SamePlace shuffler args prompts s place →
        runOps (stepSource shuffler args prompts) ops s =
          runOps (stepPlace shuffler args prompts) ops place := by
    intro ops
    induction ops with
    | nil => exact fun _ _ _ _ => rfl
    | cons op ops ih =>
        intro s place hops h
        obtain ⟨hout, hnext⟩ := stepSource_spec op hglobal h fun n hn => hops n (by simp [hn])
        rw [runOps, runOps, hout, ih _ _ (fun n hn => hops n (List.mem_cons_of_mem _ hn)) hnext]
  refine ⟨hrun ops _ _ hops ⟨atCount_init hglobal, fun _ => .none⟩, fun epochId => ?_⟩
  have hepoch := @map_promptAt _ _ shuffler args prompts epochId 0 prompts.length (by omega)
  rw [Nat.add_zero, List.drop_zero,
    List.take_of_length_le (epochPrompts_length epochId).le] at hepoch
  rw [hepoch]
  exact epochPrompts_perm epochId

/-- The order a file has. -/
def fileOrder : Shuffler := ⟨fun _ n => List.range n, fun _ _ => .refl _⟩

/-- Two samples a prompt, and one directory to save to and load from. -/
def pairArgs : DataSourceArgs := ⟨true, true, 42, 2, "out", some "out"⟩

/-- Three prompts, cut across an epoch and a restart. -/
theorem runSource_three :
    runOps (stepSource fileOrder pairArgs ["a", "b", "c"])
      [.get 2, .save (some 0), .get 2, .restart (some 0), .get 3]
      ⟨.init fileOrder pairArgs ["a", "b", "c"], fun _ => none⟩ =
    runOps (stepPlace fileOrder pairArgs ["a", "b", "c"])
      [.get 2, .save (some 0), .get 2, .restart (some 0), .get 3] ⟨0, fun _ => none⟩ := by
  refine (runSource_eq fileOrder pairArgs ["a", "b", "c"] rfl _ fun n hn => ?_).1
  simp only [List.mem_cons, SourceOp.get.injEq, reduceCtorEq, List.not_mem_nil, or_false,
    false_or] at hn
  simp only [List.length_cons, List.length_nil]
  omega

/-! ## The buffer -/

/-- What happens to a buffered source. -/
inductive BufferOp (P : Type) where
  | get (numSamples : Nat)
  | add (samples : List (List (IssuedSample P)))

variable (args) in
/-- The groups `add_samples` takes before it raises. -/
def accepted : BufferOp P → List (List (IssuedSample P))
  | .get _ => []
  | .add samples => samples.takeWhile fun group => group.length = args.nSamplesPerPrompt

/-- The object a method leaves, whether it returned or raised. -/
def leaves {ε σ α : Type} : EStateM.Result ε σ α → σ
  | .ok _ s => s
  | .error _ s => s

variable {buffered : BufferedDataSource P}

end Crisp.Proofs
