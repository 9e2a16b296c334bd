import Crisp.Lib.Raise
import Mathlib.Logic.Function.Basic

/-!
# Where rollouts get their prompts

`data_source.py` and `Dataset.shuffle`. A source hands out prompt groups, numbers them and
their samples, and writes down where it is so that another process can go on. A prompt is
whatever `Dataset` read, and what `random.shuffle` makes of a seed is a parameter, known
only to be an order of the positions.
-/

namespace Crisp.Ref

open Crisp.Lib

/-- `random.seed(seed)`, then `random.shuffle(list(range(n)))`. -/
structure Shuffler where
  order : Int → Nat → List Nat
  perm : ∀ seed n, (order seed n).Perm (List.range n)

/-- What a source reads of `args`. -/
structure DataSourceArgs where
  rolloutGlobalDataset : Bool
  rolloutShuffle : Bool
  rolloutSeed : Int
  nSamplesPerPrompt : Nat
  save : String
  load : Option String

variable {P : Type} [Inhabited P]

/-- `Dataset`, once its file is read. -/
structure PromptDataset (P : Type) where
  originSamples : List P
  epochId : Int
  seed : Int
  samples : List P

/-- `Dataset.__init__`. -/
def PromptDataset.init (originSamples : List P) (seed : Int) : PromptDataset P :=
  ⟨originSamples, -1, seed, originSamples⟩

/-- `Dataset.shuffle`. -/
def PromptDataset.shuffle (shuffler : Shuffler) (dataset : PromptDataset P) (newEpochId : Int) :
    PromptDataset P :=
  if dataset.epochId = newEpochId then dataset
  else
    let permutation := shuffler.order (dataset.seed + newEpochId) dataset.samples.length
    { dataset with
      samples := permutation.map fun i => dataset.originSamples.getD i default
      epochId := newEpochId }

/-- A `Sample`, with what `get_samples` writes on it. -/
structure IssuedSample (P : Type) where
  prompt : P
  groupIndex : Nat
  index : Nat
  deriving DecidableEq

/-- `RolloutDataSource`. -/
structure RolloutDataSource (P : Type) where
  epochId : Nat
  sampleGroupIndex : Nat
  sampleIndex : Nat
  sampleOffset : Nat
  metadata : List (String × String)
  dataset : Option (PromptDataset P)

variable (shuffler : Shuffler) (args : DataSourceArgs)

/-- `if self.args.rollout_shuffle: self.dataset.shuffle(epoch_id)`. -/
def shuffleFor (dataset : PromptDataset P) (epochId : Nat) : PromptDataset P :=
  if args.rolloutShuffle then dataset.shuffle shuffler epochId else dataset

/-- `RolloutDataSource.__init__`. -/
def RolloutDataSource.init (prompts : List P) : RolloutDataSource P where
  epochId := 0
  sampleGroupIndex := 0
  sampleIndex := 0
  sampleOffset := 0
  metadata := []
  dataset :=
    if args.rolloutGlobalDataset then
      some (shuffleFor shuffler args (.init prompts args.rolloutSeed) 0)
    else none

/-- The prompts of `get_samples`, and the source past them. -/
def nextPrompts (source : RolloutDataSource P) (numSamples : Nat) : List P × RolloutDataSource P :=
  match source.dataset with
  | none => (List.replicate numSamples default, source)
  | some dataset =>
      if source.sampleOffset + numSamples ≤ dataset.samples.length then
        ((dataset.samples.drop source.sampleOffset).take numSamples,
          { source with sampleOffset := source.sampleOffset + numSamples })
      else
        let promptSamples := dataset.samples.drop source.sampleOffset
        let numSamples := numSamples - promptSamples.length
        let epochId := source.epochId + 1
        let dataset := shuffleFor shuffler args dataset epochId
        (promptSamples ++ dataset.samples.take numSamples,
          { source with epochId, dataset := some dataset, sampleOffset := numSamples })

/-- The two loops of `get_samples` over its prompts. -/
def issueGroups (nSamplesPerPrompt : Nat) : List P → Nat → Nat → List (List (IssuedSample P))
  | [], _, _ => []
  | prompt :: prompts, groupIndex, index =>
      (List.range nSamplesPerPrompt).map (fun k => ⟨prompt, groupIndex, index + k⟩) ::
        issueGroups nSamplesPerPrompt prompts (groupIndex + 1) (index + nSamplesPerPrompt)

/-- `RolloutDataSource.get_samples`. -/
def RolloutDataSource.getSamples (source : RolloutDataSource P) (numSamples : Nat) :
    List (List (IssuedSample P)) × RolloutDataSource P :=
  let (promptSamples, source) := nextPrompts shuffler args source numSamples
  (issueGroups args.nSamplesPerPrompt promptSamples source.sampleGroupIndex source.sampleIndex,
    { source with
      sampleGroupIndex := source.sampleGroupIndex + promptSamples.length
      sampleIndex := source.sampleIndex + promptSamples.length * args.nSamplesPerPrompt })

/-! ## Saving and loading -/

/-- `state_dict`, which may lack a key. -/
structure DatasetState where
  sampleOffset : Option Nat
  epochId : Option Nat
  sampleGroupIndex : Option Nat
  sampleIndex : Option Nat
  metadata : Option (List (String × String))

/-- `os.path.join` for a relative `name`. -/
def joinPath (directory name : String) : String :=
  if directory = "" ∨ directory.toList.getLast? = some '/' then directory ++ name
  else directory ++ "/" ++ name

/-- `compute_global_dataset_state_path`. -/
def computeGlobalDatasetStatePath (directory : String) (rolloutId : Option Nat) : String :=
  let rollout := rolloutId.elim "None" Nat.repr
  joinPath directory s!"rollout/global_dataset_state_dict_{rollout}.pt"

/-- `RolloutDataSource.save`. -/
def RolloutDataSource.save (source : RolloutDataSource P) (rolloutId : Option Nat)
    (files : String → Option DatasetState) : String → Option DatasetState :=
  if args.rolloutGlobalDataset then
    Function.update files (computeGlobalDatasetStatePath args.save rolloutId) (some
      { sampleOffset := some source.sampleOffset
        epochId := some source.epochId
        sampleGroupIndex := some source.sampleGroupIndex
        sampleIndex := some source.sampleIndex
        metadata := some source.metadata })
  else files

/-- `RolloutDataSource.load`. -/
def RolloutDataSource.load (source : RolloutDataSource P) (rolloutId : Option Nat)
    (files : String → Option DatasetState) : RolloutDataSource P :=
  if args.rolloutGlobalDataset then
    match args.load.bind fun directory =>
        files (computeGlobalDatasetStatePath directory rolloutId) with
    | none => source
    | some state =>
        let epochId := state.epochId.getD 0
        { sampleOffset := state.sampleOffset.getD 0
          epochId
          sampleGroupIndex := state.sampleGroupIndex.getD 0
          sampleIndex := state.sampleIndex.getD 0
          metadata := state.metadata.getD []
          dataset := source.dataset.map fun dataset => shuffleFor shuffler args dataset epochId }
  else source

/-! ## The buffer -/

/-- `RolloutDataSourceWithBuffer`, with `pop_first` for its filter. -/
structure BufferedDataSource (P : Type) extends RolloutDataSource P where
  buffer : List (List (IssuedSample P))

/-- `RolloutDataSourceWithBuffer.__init__`. -/
def BufferedDataSource.init (prompts : List P) : BufferedDataSource P :=
  { RolloutDataSource.init shuffler args prompts with buffer := [] }

/-- `pop_first`, with the buffer it leaves. -/
def popFirst {α : Type} (buffer : List α) (numSamples : Nat) : List α × List α :=
  let numToPop := min buffer.length numSamples
  (buffer.take numToPop, buffer.drop numToPop)

/-- `_get_samples_from_buffer`. -/
def getSamplesFromBuffer {α : Type} (buffer : List α) (numSamples : Nat) : List α × List α :=
  if buffer.length = 0 ∨ numSamples = 0 then ([], buffer) else popFirst buffer numSamples

/-- `RolloutDataSourceWithBuffer.get_samples`. -/
def BufferedDataSource.getSamples (source : BufferedDataSource P) (numSamples : Nat) :
    List (List (IssuedSample P)) × BufferedDataSource P :=
  let (samples, buffer) := getSamplesFromBuffer source.buffer numSamples
  let numSamples := numSamples - samples.length
  if numSamples = 0 then (samples, { source with buffer })
  else
    let (fresh, inner) := source.toRolloutDataSource.getSamples shuffler args numSamples
    (samples ++ fresh, { inner with buffer })

end Crisp.Ref
