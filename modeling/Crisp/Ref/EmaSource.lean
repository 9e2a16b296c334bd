import Crisp.Lib.Decimal
import Crisp.Ref.StudyRun
import Crisp.Ref.TrainActor

/-!
# The export a paired branch starts from

The last update's export also keeps the EMA teacher that belongs to it: every
rank hashes the export and writes its own averages, with that hash, into a
subdirectory of the same export. The ranks meet at a barrier before and after,
and between the two nothing orders their file operations, so each of them is one
step of the rank that makes it.
-/

namespace Crisp.Ref

open Crisp.Lib

/-! ## An export directory -/

/-- A directory entry: a file, or a subdirectory of files. -/
inductive Node (β ε : Type) where
  | file (bytes : β)
  | directory (files : Dir ε)

abbrev ExportDir (β ε : Type) := Dir (Node β ε)

/-- What `checkpoint_digest` does with bytes: the shards an index names, the hash
of a file, and the hash of the sorted JSON of all of them. No law is assumed. -/
class FileOps (β : Type) where
  weightMap : β → Except PyError (List String)
  sha256 : β → String
  sha256Json : List (String × String) → String

section Digest

variable {β ε : Type} [FileOps β]

/-- The bytes of a file. -/
def Node.bytes : Node β ε → Option β
  | .file bytes => some bytes
  | .directory _ => none

/-- `(directory / name).read_bytes()`, where that is a file. -/
def ExportDir.read (d : ExportDir β ε) (name : String) : Option β :=
  (d.lookup name).bind Node.bytes

/-- `(directory / name).is_file()`. -/
def ExportDir.isFile (d : ExportDir β ε) (name : String) : Bool := (d.read name).isSome

/-- `*.safetensors` and `pytorch_model*.bin`. -/
def isWeights (name : String) : Bool :=
  name.endsWith ".safetensors" || name.startsWith "pytorch_model" && name.endsWith ".bin"

def isIndex (name : String) : Bool := name.endsWith ".index.json"

/-- `Path(shard).name == shard`. -/
def isPlainName (shard : String) : Bool :=
  !shard.toList.contains '/' && shard ≠ "" && shard ≠ "."

/-- Every shard of one index is a file beside it. -/
def ExportDir.checkIndex (d : ExportDir β ε) (index : String) : Except PyError Unit :=
  match d.read index with
  | none => .error ⟨.os, "Is a directory"⟩
  | some bytes => do
      let shards ← FileOps.weightMap bytes
      check (∀ shard ∈ shards, isPlainName shard = true ∧ d.isFile shard = true)
        (valueError "Full OPSD evaluation checkpoint is missing an indexed shard")

/-- The hash of one entry, where it counts. -/
def ExportDir.hashOf (d : ExportDir β ε) (name : String) : Option (String × String) :=
  if name.startsWith "." then none
  else (d.read name).map fun bytes => (name, FileOps.sha256 bytes)

/-- `checkpoint_digest`. -/
def ExportDir.checkpointDigest (d : ExportDir β ε) : Except PyError String := do
  check (d.isFile ".complete" = true)
    (valueError "Full OPSD evaluation checkpoint has no completion marker")
  check (d.isFile "config.json" = true)
    (valueError "Full OPSD evaluation checkpoint has no model config")
  check (d.keys.any isWeights = true ∧ "adapter_config.json" ∉ d)
    (valueError "Full OPSD evaluation requires complete model weights, not an adapter")
  (d.keys.filter isIndex).forM d.checkIndex
  .ok (FileOps.sha256Json β ((d.keys.insertionSort (· ≤ ·)).filterMap d.hashOf))

end Digest

/-! ## Saving the averages -/

section Save

variable {β ι α : Type} [FileOps β]

/-- The entry `save_ema_source` adds. -/
def emaTeacherDir : String := "ema-teacher"

/-- `f"rank-{dist.get_rank():05d}.pt"`. -/
def rankFile (rank : Nat) : String := "rank-" ++ String.ofList (zeroPadded 5 rank) ++ ".pt"

/-- `path.with_suffix(".tmp")`. -/
def rankTemporary (rank : Nat) : String := "rank-" ++ String.ofList (zeroPadded 5 rank) ++ ".tmp"

/-- What `OPSDEMA.save` writes. The averages are in FP32. -/
def OpsdEma.saved (ema : OpsdEma ι α) (studentSha256 : String) : EmaSource ι α :=
  { decay := ema.decay
    updates := ema.updates
    tensors := fun i => (ema.tensors i).map fun average => (.float32, average)
    studentSha256 }

/-- Where one rank is between the barriers. -/
inductive SavePc where
  | hash
  | mkdir (studentSha256 : String)
  | write (studentSha256 : String)
  | replace
  | done
  | raised (error : PyError)
  deriving DecidableEq

/-- The export with every rank's place in the save. -/
structure EmaSaving (β ι α : Type) where
  dir : ExportDir β (EmaSource ι α)
  pc : Nat → SavePc

def EmaSaving.goto (s : EmaSaving β ι α) (rank : Nat) (pc : SavePc) : EmaSaving β ι α :=
  { s with pc := fun r => if r = rank then pc else s.pc r }

/-- The directory of the averages after a change. -/
def EmaSaving.putFiles (s : EmaSaving β ι α) (files : Dir (EmaSource ι α)) :
    EmaSaving β ι α :=
  { s with dir := s.dir.insert emaTeacherDir (.directory files) }

/-- One file operation of one rank in `save_ema_source`. -/
def saveEmaStep (ema : Nat → OpsdEma ι α) (s : EmaSaving β ι α) (rank : Nat) :
    EmaSaving β ι α :=
  match s.pc rank with
  | .hash =>
      match s.dir.checkpointDigest with
      | .error error => s.goto rank (.raised error)
      | .ok studentSha256 => s.goto rank (.mkdir studentSha256)
  | .mkdir studentSha256 =>
      match s.dir.lookup emaTeacherDir with
      | none => (s.putFiles ∅).goto rank (.write studentSha256)
      | some (.directory _) => s.goto rank (.write studentSha256)
      | some (.file _) => s.goto rank (.raised ⟨.os, "File exists"⟩)
  | .write studentSha256 =>
      match s.dir.lookup emaTeacherDir with
      | some (.directory files) =>
          (s.putFiles (files.insert (rankTemporary rank)
            ((ema rank).saved studentSha256))).goto rank .replace
      | _ => s.goto rank (.raised ⟨.fileNotFound, rankTemporary rank⟩)
  | .replace =>
      match s.dir.lookup emaTeacherDir with
      | some (.directory files) =>
          match files.lookup (rankTemporary rank) with
          | some source =>
              (s.putFiles ((files.erase (rankTemporary rank)).insert (rankFile rank)
                source)).goto rank .done
          | none => s.goto rank (.raised ⟨.fileNotFound, rankTemporary rank⟩)
      | _ => s.goto rank (.raised ⟨.fileNotFound, rankTemporary rank⟩)
  | .done => s
  | .raised _ => s

/-- `actor.opsd_ema.load`'s file: the averages of one rank. -/
def ExportDir.emaSource (d : ExportDir β (EmaSource ι α)) (rank : Nat) :
    Option (EmaSource ι α) :=
  match d.lookup emaTeacherDir with
  | some (.directory files) => files.lookup (rankFile rank)
  | _ => none

end Save

/-! ## The exports of a run -/

/-- What a run exports: every update's directory as its export leaves it, a full
checkpoint of the digest the hook sees, and how the ranks take turns between the
barriers of its save, the second of which every rank reaches. -/
structure ExportEnv (β ι α : Type) [FileOps β] extends RunEnv where
  contents : Nat → ExportDir β (EmaSource ι α)
  fresh : ∀ rolloutId, emaTeacherDir ∉ contents rolloutId
  digest_eq : ∀ rolloutId, (contents rolloutId).checkpointDigest = .ok (digest rolloutId)
  worldSize : Nat
  worldSize_pos : 0 < worldSize
  turns : Nat → List Nat
  barrier : ∀ rolloutId, ∀ rank < worldSize, 4 ≤ (turns rolloutId).count rank

section Exports

variable {β ι α : Type} [FileOps β]

/-- What one effect of an update's save does to the export directories. `ema` is
the state of every rank after the update. -/
def SaveEffect.write (env : ExportEnv β ι α) (ema : Nat → OpsdEma ι α) (rolloutId : Nat)
    (dirs : Path → Option (ExportDir β (EmaSource ι α))) :
    SaveEffect → Path → Option (ExportDir β (EmaSource ι α))
  | .exported path => fun p => if p = path then some (env.contents rolloutId) else dirs p
  | .emaSource path _ => fun p =>
      if p = path then
        (dirs path).map fun dir =>
          (runFrom (saveEmaStep ema) ⟨dir, fun _ => .hash⟩ (env.turns rolloutId)).dir
      else dirs p
  | .saved => dirs
  | .enqueued _ => dirs

/-- The export directories after a run's updates. -/
def exportsAfter (env : ExportEnv β ι α) (ema : Nat → Nat → OpsdEma ι α)
    (updates : List Update) : Path → Option (ExportDir β (EmaSource ι α)) :=
  updates.foldl
    (fun dirs update =>
      update.effects.foldl
        (SaveEffect.write env (ema update.completedUpdates) update.rolloutId) dirs)
    fun _ => none

end Exports

end Crisp.Ref
