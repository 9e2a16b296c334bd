import Crisp.Ref.Checkpoint

/-!
# A checkpoint's hash is its visible files

Two checkpoints have one hash just when they have the same visible files, and what has a
hash has everything an evaluation opens, but for one thing: the weights are looked
for by name alone, so a subdirectory named like them passes for a weight file.
-/

namespace Crisp.Proofs

open Crisp.Lib
open Crisp.Ref

/-! ## Blocks and hashes -/

/-- The blocks are the file. -/
theorem readBlocks_flatten (size : Nat) (bytes : List UInt8) :
    (readBlocks size bytes).flatten = bytes := by
  induction bytes using readBlocks.induct size with
  | case1 => simp [readBlocks]
  | case2 byte bytes ih => rw [readBlocks, List.flatten_cons, ih, List.take_append_drop]

theorem fileSha256_eq (sha256 : List UInt8 → String) (bytes : List UInt8) :
    fileSha256 sha256 bytes = sha256 bytes := by
  have happended : (readBlocks lastOfBlock bytes).foldl (· ++ ·) [] = bytes := by
    rw [show (readBlocks lastOfBlock bytes).foldl (· ++ ·) [] = _ from
      List.foldl_append_eq_append (f := id), List.map_id, readBlocks_flatten, List.nil_append]
  rw [fileSha256, happended]

/-- The hash of hashes tells two sorted lists of them apart. -/
theorem hashesSha256_inj {sha256 : List UInt8 → String} (hinj : Function.Injective sha256)
    {hashes hashes' : List (String × String)}
    (hsorted : hashes.Pairwise fun a b => a.1 ≤ b.1)
    (hsorted' : hashes'.Pairwise fun a b => a.1 ≤ b.1)
    (heq : hashesSha256 sha256 hashes = hashesSha256 sha256 hashes') : hashes = hashes' := by
  rw [hashesSha256, hashesSha256, hsorted.insertionSort_eq, hsorted'.insertionSort_eq] at heq
  have hbytes := ByteArray.ext (Array.toList_inj.mp (hinj heq))
  exact Json.dumps_injective (String.toByteArray_inj.mp hbytes)

section Identity

variable {ε : Type} {sha256 : List UInt8 → String}
  {weightMap : List UInt8 → Except PyError (List String)} {d d' : ExportDir (List UInt8) ε}

/-- The content of a file that is not hidden. -/
def visibleContent (d : ExportDir (List UInt8) ε) (name : String) : Option (List UInt8) :=
  if name.startsWith "." then none else d.read name

/-- The names and contents of the regular files that are not hidden. -/
def visibleFiles (d : ExportDir (List UInt8) ε) : Set (String × List UInt8) :=
  {file | visibleContent d file.1 = some file.2}

theorem visibleContent_eq (h : visibleFiles d = visibleFiles d') :
    visibleContent d = visibleContent d' := by
  funext name
  refine Option.ext fun bytes => ?_
  show (name, bytes) ∈ visibleFiles d ↔ (name, bytes) ∈ visibleFiles d'
  rw [h]

theorem mem_keys_of_read {name : String} {bytes : List UInt8} (h : d.read name = some bytes) :
    name ∈ d.keys := by
  rw [ExportDir.read, Option.bind_eq_some_iff] at h
  obtain ⟨node, hlookup, -⟩ := h
  exact AList.mem_keys.mpr (Dir.mem_of_lookup hlookup)

theorem mem_keys_of_visible {name : String} {bytes : List UInt8}
    (h : visibleContent d name = some bytes) : name ∈ d.keys := by
  rw [visibleContent, Option.ite_none_left_eq_some] at h
  exact mem_keys_of_read h.2

/-- `hashes`, in the order of the names. -/
def hashesOf (sha256 : List UInt8 → String) (d : ExportDir (List UInt8) ε) :
    List (String × String) :=
  (d.keys.insertionSort (· ≤ ·)).filterMap fun name =>
    (visibleContent d name).map fun bytes => (name, sha256 bytes)

theorem mem_hashesOf {name hash : String} :
    (name, hash) ∈ hashesOf sha256 d ↔
      ∃ bytes, (name, bytes) ∈ visibleFiles d ∧ sha256 bytes = hash := by
  rw [hashesOf, List.mem_filterMap]
  constructor
  · rintro ⟨found, -, hfound⟩
    rw [Option.map_eq_some_iff] at hfound
    obtain ⟨bytes, hvisible, heq⟩ := hfound
    cases heq
    exact ⟨bytes, hvisible, rfl⟩
  · rintro ⟨bytes, hvisible, rfl⟩
    refine ⟨name, (List.mem_insertionSort _).mpr (mem_keys_of_visible hvisible), ?_⟩
    rw [show visibleContent d name = some bytes from hvisible]
    rfl

theorem hashesOf_sorted : (hashesOf sha256 d).Pairwise fun a b => a.1 ≤ b.1 := by
  refine List.Pairwise.filterMap _ ?_ (List.pairwise_insertionSort (· ≤ ·) d.keys)
  intro a b hle x hx y hy
  rw [Option.map_eq_some_iff] at hx hy
  obtain ⟨_, -, rfl⟩ := hx
  obtain ⟨_, -, rfl⟩ := hy
  exact hle

/-- The listed hashes are those of the visible files, and no others. -/
theorem hashesOf_eq_iff (hinj : Function.Injective sha256) :
    hashesOf sha256 d = hashesOf sha256 d' ↔ visibleFiles d = visibleFiles d' := by
  constructor
  · intro heq
    ext ⟨name, bytes⟩
    have hmem : (name, sha256 bytes) ∈ hashesOf sha256 d ↔
        (name, sha256 bytes) ∈ hashesOf sha256 d' := by rw [heq]
    simpa [mem_hashesOf, hinj.eq_iff] using hmem
  · intro heq
    have hsame := visibleContent_eq heq
    rw [hashesOf, hashesOf, hsame]
    refine filterMap_sorted_congr d'.nodupKeys d.nodupKeys fun name hsome => ?_
    rw [Option.isSome_map, Option.isSome_iff_exists] at hsome
    obtain ⟨bytes, hvisible⟩ := hsome
    exact iff_of_true (mem_keys_of_visible (hsame ▸ hvisible)) (mem_keys_of_visible hvisible)

/-! ## What has a hash -/

/-- Everything an evaluation opens is there, and no adapter. -/
structure FullCheckpoint (weightMap : List UInt8 → Except PyError (List String))
    (d : ExportDir (List UInt8) ε) : Prop where
  marker : d.isFile ".complete" = true
  config : d.isFile "config.json" = true
  weights : ∃ name, isWeights name = true ∧ d.isFile name = true
  noAdapter : "adapter_config.json" ∉ d
  shards : ∀ index bytes shards, isIndex index = true → d.read index = some bytes →
    weightMap bytes = .ok shards → ∀ shard ∈ shards,
      isPlainName shard = true ∧ d.isFile shard = true

/-- Every check but the one for the weights passes. -/
structure Marked (weightMap : List UInt8 → Except PyError (List String))
    (d : ExportDir (List UInt8) ε) : Prop where
  marker : d.isFile ".complete" = true
  config : d.isFile "config.json" = true
  noAdapter : "adapter_config.json" ∉ d
  indexes : ∀ index ∈ d.keys, isIndex index = true → ∃ bytes shards,
    d.read index = some bytes ∧ weightMap bytes = .ok shards ∧ ∀ shard ∈ shards,
      isPlainName shard = true ∧ d.isFile shard = true

theorem checkIndex_eq_ok (index : String) :
    @ExportDir.checkIndex _ ε (byteOps sha256 weightMap) d index = .ok () ↔
      ∃ bytes shards, d.read index = some bytes ∧ weightMap bytes = .ok shards ∧
        ∀ shard ∈ shards, isPlainName shard = true ∧ d.isFile shard = true := by
  unfold ExportDir.checkIndex
  cases hread : d.read index with
  | none => simp
  | some bytes =>
      simp only [except_bind_eq_ok, check_eq_ok, Option.some_inj]
      constructor
      · rintro ⟨shards, hmap, hshards⟩
        exact ⟨bytes, shards, rfl, hmap, hshards⟩
      · rintro ⟨_, shards, rfl, hmap, hshards⟩
        exact ⟨shards, hmap, hshards⟩

/-- A hash is that of the visible files of a directory that passes every check. -/
theorem digestOf_eq_ok {hash : String} :
    digestOf sha256 weightMap d = .ok hash ↔
      (Marked weightMap d ∧ ∃ name ∈ d.keys, isWeights name = true) ∧
        hashesSha256 sha256 (hashesOf sha256 d) = hash := by
  have hhash : @ExportDir.hashOf _ ε (byteOps sha256 weightMap) d = fun name =>
      (visibleContent d name).map fun bytes => (name, sha256 bytes) := by
    funext name
    unfold ExportDir.hashOf visibleContent
    split
    · rfl
    · show (d.read name).map (fun bytes => (name, fileSha256 sha256 bytes)) = _
      simp only [fileSha256_eq]
  simp only [digestOf, ExportDir.checkpointDigest, except_bind_eq_ok, check_eq_ok,
    Except.ok.injEq, except_forM_eq_ok, hhash, List.any_eq_true, checkIndex_eq_ok]
  constructor
  · rintro ⟨-, hmarker, -, hconfig, -, ⟨hweights, hadapter⟩, -, hindexes, hsha⟩
    refine ⟨⟨⟨hmarker, hconfig, hadapter, fun index hin hindex => ?_⟩, hweights⟩, hsha⟩
    exact hindexes index (List.mem_filter.mpr ⟨hin, hindex⟩)
  · rintro ⟨⟨hmarked, hweights⟩, hsha⟩
    refine ⟨(), hmarked.marker, (), hmarked.config, (), ⟨hweights, hmarked.noAdapter⟩, (), ?_, hsha⟩
    intro index hin
    exact hmarked.indexes index (List.mem_filter.mp hin).1 (List.mem_filter.mp hin).2

/-! ## Identity -/

/-- The hash of a directory is its visible files', and only a full checkpoint has one. -/
structure CheckpointIdentity (sha256 : List UInt8 → String)
    (weightMap : List UInt8 → Except PyError (List String))
    (d : ExportDir (List UInt8) ε) : Prop where
  exactly : ∀ (d' : ExportDir (List UInt8) ε) (hash hash' : String),
    digestOf sha256 weightMap d = .ok hash → digestOf sha256 weightMap d' = .ok hash' →
      (hash = hash' ↔ visibleFiles d = visibleFiles d')
  full : ∀ hash, digestOf sha256 weightMap d = .ok hash → FullCheckpoint weightMap d

theorem digestOf_eq_iff (hinj : Function.Injective sha256) {hash hash' : String}
    (hd : digestOf sha256 weightMap d = .ok hash)
    (hd' : digestOf sha256 weightMap d' = .ok hash') :
    hash = hash' ↔ visibleFiles d = visibleFiles d' := by
  rw [← (digestOf_eq_ok.mp hd).2, ← (digestOf_eq_ok.mp hd').2, ← hashesOf_eq_iff hinj]
  exact ⟨hashesSha256_inj hinj hashesOf_sorted hashesOf_sorted, fun heq => by rw [heq]⟩

/-- Among the entries named like weights one is a file, where everything else is there. -/
def WeightsAreFiles (weightMap : List UInt8 → Except PyError (List String))
    (d : ExportDir (List UInt8) ε) : Prop :=
  Marked weightMap d → (∃ name ∈ d.keys, isWeights name = true) →
    ∃ name ∈ d.keys, isWeights name = true ∧ d.isFile name = true

theorem FullCheckpoint.of_marked (hmarked : Marked weightMap d)
    (hweights : ∃ name, isWeights name = true ∧ d.isFile name = true) :
    FullCheckpoint weightMap d := by
  refine ⟨hmarked.marker, hmarked.config, hweights, hmarked.noAdapter, ?_⟩
  intro index bytes shards hindex hread hmap
  obtain ⟨bytes', shards', hread', hmap', hshards⟩ :=
    hmarked.indexes index (mem_keys_of_read hread) hindex
  cases hread.symm.trans hread'
  cases hmap.symm.trans hmap'
  exact hshards

theorem digestOf_identity_iff (hinj : Function.Injective sha256)
    (d : ExportDir (List UInt8) ε) :
    CheckpointIdentity sha256 weightMap d ↔ WeightsAreFiles weightMap d := by
  constructor
  · intro hidentity hmarked hweights
    have hfull := hidentity.full _ (digestOf_eq_ok.mpr ⟨⟨hmarked, hweights⟩, rfl⟩)
    obtain ⟨name, hname, hfile⟩ := hfull.weights
    obtain ⟨bytes, hread⟩ := Option.isSome_iff_exists.mp hfile
    exact ⟨name, mem_keys_of_read hread, hname, hfile⟩
  · intro hfiles
    refine ⟨fun d' hash hash' => digestOf_eq_iff hinj, fun hash hd => ?_⟩
    obtain ⟨⟨hmarked, hweights⟩, -⟩ := digestOf_eq_ok.mp hd
    obtain ⟨name, -, hname, hfile⟩ := hfiles hmarked hweights
    exact FullCheckpoint.of_marked hmarked ⟨name, hname, hfile⟩

end Identity

/-! ## A whole checkpoint and one without weights -/

/-- The bytes themselves, in hexadecimal. -/
def hexText (bytes : List UInt8) : String :=
  String.ofList (bytes.flatMap fun byte =>
    [Json.hexDigit (byte.toNat / 16), Json.hexDigit (byte.toNat % 16)])

theorem hexText_injective : Function.Injective hexText := by
  intro bytes bytes' heq
  replace heq := String.ofList_injective heq
  induction bytes generalizing bytes' with
  | nil => cases bytes' <;> simp_all
  | cons byte bytes ih =>
      cases bytes' with
      | nil => simp at heq
      | cons byte' bytes' =>
          simp only [List.flatMap_cons, List.cons_append, List.nil_append, List.cons.injEq] at heq
          obtain ⟨hhigh, hlow, htail⟩ := heq
          have hhigh := congrArg Json.hexValue hhigh
          have hlow := congrArg Json.hexValue hlow
          rw [Json.hexValue_hexDigit _ (by have := byte.toNat_lt; omega),
            Json.hexValue_hexDigit _ (by have := byte'.toNat_lt; omega)] at hhigh
          rw [Json.hexValue_hexDigit _ (Nat.mod_lt _ (by omega)),
            Json.hexValue_hexDigit _ (Nat.mod_lt _ (by omega))] at hlow
          rw [ih htail, UInt8.toNat_inj.mp (show byte.toNat = byte'.toNat by omega)]

/-- A marked export of no indexed shards, with one entry for its weights. -/
def markedExport (weights : Node (List UInt8) Unit) : ExportDir (List UInt8) Unit :=
  ((AList.insert "model.safetensors" weights ∅).insert "config.json" (.file [])).insert
    ".complete" (.file [])

theorem markedExport_marked (weights : Node (List UInt8) Unit) :
    Marked (fun _ => .ok []) (markedExport weights) where
  marker := rfl
  config := rfl
  noAdapter := by
    rw [markedExport, AList.mem_insert, AList.mem_insert, AList.mem_insert]
    decide
  indexes := by
    have hnone : ∀ name ∈ [".complete", "config.json", "model.safetensors"],
        isIndex name = false := by decide +kernel
    intro index hin hindex
    exact absurd hindex (by rw [hnone index hin]; decide)

/-- With a weight file, the hash tells it from every other. -/
theorem digestOf_weightFile :
    CheckpointIdentity hexText (fun _ => .ok []) (markedExport (.file [7])) :=
  (digestOf_identity_iff hexText_injective _).mpr fun _ _ =>
    ⟨"model.safetensors", by decide, by decide +kernel, rfl⟩

/-- `model.safetensors/` is a directory, and the checkpoint has a hash all the same. -/
theorem digestOf_weightDirectory :
    ¬CheckpointIdentity hexText (fun _ => .ok []) (markedExport (.directory ∅)) := by
  intro hidentity
  have hfull := hidentity.full _ (digestOf_eq_ok.mpr ⟨⟨markedExport_marked _,
    "model.safetensors", by decide, by decide +kernel⟩, rfl⟩)
  obtain ⟨name, hname, hfile⟩ := hfull.weights
  obtain ⟨bytes, hread⟩ := Option.isSome_iff_exists.mp hfile
  have hnone : ∀ name ∈ [".complete", "config.json", "model.safetensors"],
      isWeights name = true → (markedExport (.directory ∅)).isFile name = false := by
    decide +kernel
  rw [hnone name (mem_keys_of_read hread) hname] at hfile
  exact absurd hfile (by decide)

end Crisp.Proofs
