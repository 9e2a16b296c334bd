import Crisp.Lib.Json
import Crisp.Ref.EmaSource

/-!
# The bytes of a checkpoint's identity

`checkpoint_digest` reads every file in blocks of eight MiB, and hashes the JSON of
all the hashes. What an index file says is `json.loads`'s.
-/

namespace Crisp.Ref

open Crisp.Lib

/-- `iter(lambda: stream.read(size), b"")`: full blocks, and the rest as the last. -/
def readBlocks (size : Nat) : List UInt8 → List (List UInt8)
  | [] => []
  | byte :: bytes =>
      (byte :: bytes).take (size + 1) :: readBlocks size ((byte :: bytes).drop (size + 1))
termination_by bytes => bytes.length
decreasing_by simp only [List.length_drop, List.length_cons]; omega

/-- `8 * 1024**2`, less the one byte `readBlocks` always takes. -/
def lastOfBlock : Nat := 8 * 1024 ^ 2 - 1

section Bytes

variable (sha256 : List UInt8 → String) (weightMap : List UInt8 → Except PyError (List String))

/-- A file's `digest.hexdigest()`, every block appended by `digest.update`. -/
def fileSha256 (bytes : List UInt8) : String :=
  sha256 ((readBlocks lastOfBlock bytes).foldl (· ++ ·) [])

/-- `sha256(json.dumps(hashes, sort_keys=True).encode()).hexdigest()`. -/
def hashesSha256 (hashes : List (String × String)) : String :=
  sha256 (Json.dumps (hashes.insertionSort fun a b => a.1 ≤ b.1)).toByteArray.data.toList

/-- What `checkpoint_digest` does with bytes, for one SHA-256 and one reader of index files. -/
abbrev byteOps : FileOps (List UInt8) where
  weightMap := weightMap
  sha256 := fileSha256 sha256
  sha256Json := hashesSha256 sha256

variable {ε : Type}

/-- `checkpoint_digest(directory)` over the bytes. -/
def digestOf (d : ExportDir (List UInt8) ε) : Except PyError String :=
  letI := byteOps sha256 weightMap
  d.checkpointDigest

end Bytes

end Crisp.Ref
