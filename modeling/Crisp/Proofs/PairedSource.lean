import Crisp.Proofs.EvaluationCoverage
import Crisp.Proofs.FinalDrain
import Crisp.Proofs.Snapshots
import Crisp.Ref.EmaSource

/-!
# The snapshot a paired branch starts from

Two rules decide what is final. `save_ema_source` writes the averages after the
last planned update, and the enqueue keeps the snapshot of the last executed
one; a run that stops early keeps a snapshot without averages. Otherwise every
rank's file is in the kept export: the ranks' writes go to a subdirectory, so
whichever of them hashes the export, and whenever, finds the hash the job has.
-/

namespace Crisp.Proofs

open Crisp.Lib Crisp.Ref

/-! ## The hash of an export -/

section Digest

variable {β ε : Type}

/-- An export with whatever is in the subdirectory of the averages. -/
structure Beside (d d' : ExportDir β ε) : Prop where
  others : ∀ name, name ≠ emaTeacherDir → d'.lookup name = d.lookup name
  noFile : d'.read emaTeacherDir = none

theorem Beside.read {d d' : ExportDir β ε} (h : Beside d d') (hfresh : emaTeacherDir ∉ d)
    (name : String) : d'.read name = d.read name := by
  by_cases hname : name = emaTeacherDir
  · rw [hname, h.noFile, ExportDir.read, AList.lookup_eq_none.mpr hfresh]
    rfl
  · unfold ExportDir.read
    rw [h.others name hname]

theorem Beside.mem {d d' : ExportDir β ε} (h : Beside d d') {name : String}
    (hname : name ≠ emaTeacherDir) : name ∈ d' ↔ name ∈ d := by
  rw [← AList.lookup_isSome, h.others name hname, AList.lookup_isSome]

/-- The averages do not enter the hash of the export they are written into. -/
theorem Beside.digest [FileOps β] {d d' : ExportDir β ε} (h : Beside d d')
    (hfresh : emaTeacherDir ∉ d) {sha : String} (hsha : d.checkpointDigest = .ok sha) :
    d'.checkpointDigest = .ok sha := by
  have hread : ∀ name, d'.read name = d.read name := h.read hfresh
  have hfile : ∀ name, d'.isFile name = d.isFile name := fun name => by
    unfold ExportDir.isFile
    rw [hread]
  have hindex : d'.checkIndex = d.checkIndex := by
    funext name
    unfold ExportDir.checkIndex
    simp only [hread, hfile]
  have hhash : d'.hashOf = d.hashOf := by
    funext name
    unfold ExportDir.hashOf
    rw [hread]
  unfold ExportDir.checkpointDigest at hsha ⊢
  simp only [except_bind_eq_ok, check_eq_ok, Except.ok.injEq] at hsha ⊢
  obtain ⟨-, hcomplete, -, hconfig, -, ⟨hweights, hadapter⟩, u, hshards, hdigest⟩ := hsha
  refine ⟨(), (hfile _).trans hcomplete, (), (hfile _).trans hconfig, (), ⟨?_, ?_⟩, u, ?_, ?_⟩
  · obtain ⟨name, hname, hglob⟩ := List.any_eq_true.mp hweights
    have hne : name ≠ emaTeacherDir := by
      rintro rfl
      revert hglob
      decide +kernel
    exact List.any_eq_true.mpr ⟨name, (h.mem hne).mpr hname, hglob⟩
  · rw [h.mem (by decide)]
    exact hadapter
  · rw [except_forM_eq_ok] at hshards ⊢
    intro name hname
    obtain ⟨hin, hglob⟩ := List.mem_filter.mp hname
    have hne : name ≠ emaTeacherDir := by
      rintro rfl
      revert hglob
      decide +kernel
    rw [hindex]
    exact hshards name (List.mem_filter.mpr ⟨(h.mem hne).mp hin, hglob⟩)
  · rw [← hdigest, hhash]
    congr 1
    refine filterMap_sorted_congr d.nodupKeys d'.nodupKeys fun name hsome => ?_
    refine h.mem ?_
    rintro rfl
    unfold ExportDir.hashOf ExportDir.read at hsome
    rw [AList.lookup_eq_none.mpr hfresh] at hsome
    simp at hsome

end Digest

/-! ## The ranks between the barriers -/

section Save

variable {β ι α : Type}

theorem rankName_injective {suffix : String} {r r' : Nat}
    (h : "rank-" ++ String.ofList (zeroPadded 5 r) ++ suffix =
      "rank-" ++ String.ofList (zeroPadded 5 r') ++ suffix) : r = r' := by
  have hlists := congrArg String.toList h
  simp only [String.toList_append, String.toList_ofList, List.append_cancel_right_eq,
    List.append_cancel_left_eq] at hlists
  exact zeroPadded_injective hlists

theorem rankFile_ne {r r' : Nat} (h : r ≠ r') : rankFile r ≠ rankFile r' :=
  fun heq => h (rankName_injective heq)

theorem rankTemporary_ne {r r' : Nat} (h : r ≠ r') : rankTemporary r ≠ rankTemporary r' :=
  fun heq => h (rankName_injective heq)

/-- The suffixes end in different letters. -/
theorem rankTemporary_ne_rankFile (r r' : Nat) : rankTemporary r ≠ rankFile r' := by
  intro h
  have hlast := congrArg (fun name : String => name.toList.getLast?) h
  unfold rankTemporary rankFile at hlast
  simp [List.getLast?_cons, List.getLast?_append] at hlast

/-- What a rank's next operation relies on. -/
def Place (ema : Nat → OpsdEma ι α) (sha : String) (d : ExportDir β (EmaSource ι α))
    (rank : Nat) : SavePc → Prop
  | .hash => True
  | .mkdir studentSha256 => studentSha256 = sha
  | .write studentSha256 => studentSha256 = sha ∧
      ∃ files, d.lookup emaTeacherDir = some (.directory files)
  | .replace => ∃ files, d.lookup emaTeacherDir = some (.directory files) ∧
      files.lookup (rankTemporary rank) = some ((ema rank).saved sha)
  | .done => ∃ files, d.lookup emaTeacherDir = some (.directory files) ∧
      files.lookup (rankFile rank) = some ((ema rank).saved sha)
  | .raised _ => False

/-- How often a rank was at it. -/
def turnsOf : SavePc → Nat
  | .hash => 0
  | .mkdir _ => 1
  | .write _ => 2
  | .replace => 3
  | .done => 4
  | .raised _ => 4

theorem turnsOf_le (pc : SavePc) : turnsOf pc ≤ 4 := by
  cases pc <;> simp [turnsOf]

/-- The other ranks' files stay when one rank changes its own. -/
theorem Place.put {ema : Nat → OpsdEma ι α} {sha : String}
    {d : ExportDir β (EmaSource ι α)} {rank : Nat} {files files' : Dir (EmaSource ι α)}
    (hfiles : d.lookup emaTeacherDir = some (.directory files))
    (htemporary : files'.lookup (rankTemporary rank) = files.lookup (rankTemporary rank))
    (hfile : files'.lookup (rankFile rank) = files.lookup (rankFile rank)) {pc : SavePc}
    (h : Place ema sha d rank pc) :
    Place ema sha (d.insert emaTeacherDir (.directory files')) rank pc := by
  have hput : (d.insert emaTeacherDir (.directory files')).lookup emaTeacherDir =
      some (.directory files') := AList.lookup_insert d
  have hsame : ∀ other, d.lookup emaTeacherDir = some (.directory other) → other = files := by
    intro other hother
    rw [hfiles] at hother
    injection hother with hnode
    injection hnode with heq
    exact heq.symm
  cases pc with
  | hash => trivial
  | mkdir _ => exact h
  | write _ => exact ⟨h.1, files', hput⟩
  | replace =>
      obtain ⟨other, hother, hsource⟩ := h
      rw [hsame other hother] at hsource
      exact ⟨files', hput, htemporary.trans hsource⟩
  | done =>
      obtain ⟨other, hother, hsource⟩ := h
      rw [hsame other hother] at hsource
      exact ⟨files', hput, hfile.trans hsource⟩
  | raised _ => exact h

/-- Whatever is put there, the subdirectory is not a file of the export. -/
theorem Beside.put {d d' : ExportDir β (EmaSource ι α)} (h : Beside d d')
    (files : Dir (EmaSource ι α)) :
    Beside d (d'.insert emaTeacherDir (.directory files)) :=
  { others := fun name hname => by rw [AList.lookup_insert_ne hname, h.others name hname]
    noFile := by
      unfold ExportDir.read
      rw [AList.lookup_insert]
      rfl }

variable [FileOps β]

/-- Between the barriers. -/
structure SaveInv (ema : Nat → OpsdEma ι α) (sha : String)
    (d : ExportDir β (EmaSource ι α)) (s : EmaSaving β ι α) : Prop where
  beside : Beside d s.dir
  place : ∀ rank, Place ema sha s.dir rank (s.pc rank)

/-- One operation of a rank: it succeeds, and no other rank sees a difference. -/
theorem saveEmaStep_spec {ema : Nat → OpsdEma ι α} {sha : String}
    {d : ExportDir β (EmaSource ι α)} (hfresh : emaTeacherDir ∉ d)
    (hsha : d.checkpointDigest = .ok sha) {s : EmaSaving β ι α}
    (h : SaveInv ema sha d s) (rank : Nat) :
    ∃ dir pc, saveEmaStep ema s rank = ({ s with dir } : EmaSaving β ι α).goto rank pc ∧
      Beside d dir ∧ Place ema sha dir rank pc ∧
      turnsOf pc = min 4 (turnsOf (s.pc rank) + 1) ∧
      ∀ r, r ≠ rank → ∀ pc, Place ema sha s.dir r pc → Place ema sha dir r pc := by
  have hplace := h.place rank
  have hsame : ∀ r, r ≠ rank → ∀ pc, Place ema sha s.dir r pc → Place ema sha s.dir r pc :=
    fun _ _ _ hp => hp
  unfold saveEmaStep
  cases hpc : s.pc rank with
  | hash =>
      dsimp only
      rw [h.beside.digest hfresh hsha]
      exact ⟨s.dir, .mkdir sha, rfl, h.beside, rfl, rfl, hsame⟩
  | mkdir studentSha256 =>
      rw [hpc] at hplace
      dsimp only
      cases hdir : s.dir.lookup emaTeacherDir with
      | none =>
          refine ⟨_, .write studentSha256, rfl, h.beside.put ∅,
            ⟨hplace, ∅, AList.lookup_insert _⟩, rfl, fun r _ pc hp => ?_⟩
          -- Nobody relies on a subdirectory that is not there.
          cases pc with
          | hash => trivial
          | mkdir _ => exact hp
          | raised _ => exact hp
          | _ =>
              simp only [Place, hdir, reduceCtorEq, false_and, exists_false, and_false] at hp
      | some node =>
          cases node with
          | directory files =>
              exact ⟨s.dir, .write studentSha256, rfl, h.beside, ⟨hplace, files, hdir⟩, rfl,
                hsame⟩
          | file bytes =>
              have hnone := h.beside.noFile
              unfold ExportDir.read at hnone
              rw [hdir] at hnone
              cases hnone
  | write studentSha256 =>
      rw [hpc] at hplace
      obtain ⟨rfl, files, hdir⟩ := hplace
      dsimp only
      rw [hdir]
      refine ⟨_, .replace, rfl, h.beside.put _,
        ⟨_, AList.lookup_insert _, AList.lookup_insert _⟩, rfl, fun r hr pc hp => ?_⟩
      refine hp.put hdir ?_ ?_
      · exact AList.lookup_insert_ne (rankTemporary_ne hr)
      · exact AList.lookup_insert_ne (rankTemporary_ne_rankFile rank r).symm
  | replace =>
      rw [hpc] at hplace
      obtain ⟨files, hdir, hsource⟩ := hplace
      dsimp only
      rw [hdir]
      dsimp only
      rw [hsource]
      refine ⟨_, .done, rfl, h.beside.put _,
        ⟨_, AList.lookup_insert _, AList.lookup_insert _⟩, rfl, fun r hr pc hp => ?_⟩
      refine hp.put hdir ?_ ?_
      · rw [AList.lookup_insert_ne (rankTemporary_ne_rankFile r rank),
          AList.lookup_erase_ne (rankTemporary_ne hr)]
      · rw [AList.lookup_insert_ne (rankFile_ne hr),
          AList.lookup_erase_ne (rankTemporary_ne_rankFile rank r).symm]
  | done =>
      rw [hpc] at hplace
      have hstays : s.pc = fun r => if r = rank then .done else s.pc r := by
        funext r
        split
        · next hr => rw [hr, hpc]
        · rfl
      exact ⟨s.dir, .done, congrArg (EmaSaving.mk s.dir) hstays, h.beside, hplace, rfl, hsame⟩
  | raised _ =>
      rw [hpc] at hplace
      exact absurd hplace id

/-- After the second barrier. -/
theorem emaSaved {ema : Nat → OpsdEma ι α} {sha : String}
    {d : ExportDir β (EmaSource ι α)} (hfresh : emaTeacherDir ∉ d)
    (hsha : d.checkpointDigest = .ok sha) (turns : List Nat) {s : EmaSaving β ι α}
    (h : SaveInv ema sha d s) :
    SaveInv ema sha d (runFrom (saveEmaStep ema) s turns) ∧
      ∀ rank, turnsOf ((runFrom (saveEmaStep ema) s turns).pc rank) =
        min 4 (turnsOf (s.pc rank) + turns.count rank) := by
  induction turns generalizing s with
  | nil =>
      refine ⟨h, fun rank => ?_⟩
      have hle := turnsOf_le (s.pc rank)
      rw [runFrom_nil, List.count_nil]
      omega
  | cons r turns ih =>
      obtain ⟨dir, pc, heq, hbeside, hplace, hturns, hothers⟩ :=
        saveEmaStep_spec hfresh hsha h r
      have hpcs : ∀ rank, (saveEmaStep ema s r).pc rank =
          if rank = r then pc else s.pc rank := fun rank => by rw [heq]; rfl
      have hnext : SaveInv ema sha d (saveEmaStep ema s r) := by
        refine ⟨by rw [heq]; exact hbeside, fun rank => ?_⟩
        rw [hpcs, show (saveEmaStep ema s r).dir = dir by rw [heq]; rfl]
        split
        · next hr => rw [hr]; exact hplace
        · next hr => exact hothers rank hr _ (h.place rank)
      obtain ⟨hinv, hcount⟩ := ih hnext
      refine ⟨hinv, fun rank => ?_⟩
      rw [runFrom_cons, hcount rank, hpcs, List.count_cons]
      by_cases hr : rank = r
      · rw [if_pos hr, hturns, hr, if_pos (by simp)]
        omega
      · rw [if_neg hr, if_neg (by simpa using fun heq : r = rank => hr heq.symm)]
        omega

/-- What a save leaves of an export: its hash is the export's, and every rank
that took its turns has its averages there, under that hash. -/
theorem emaSource_of_save {ema : Nat → OpsdEma ι α} {sha : String}
    {d : ExportDir β (EmaSource ι α)} (hfresh : emaTeacherDir ∉ d)
    (hsha : d.checkpointDigest = .ok sha) (turns : List Nat) :
    let dir := (runFrom (saveEmaStep ema) ⟨d, fun _ => .hash⟩ turns).dir
    dir.checkpointDigest = .ok sha ∧
      ∀ rank, 4 ≤ turns.count rank → dir.emaSource rank = some ((ema rank).saved sha) := by
  have hstart : SaveInv ema sha d ⟨d, fun _ => .hash⟩ :=
    { beside :=
        { others := fun _ _ => rfl
          noFile := by
            unfold ExportDir.read
            rw [AList.lookup_eq_none.mpr hfresh]
            rfl }
      place := fun _ => trivial }
  obtain ⟨hinv, hcount⟩ := emaSaved hfresh hsha turns hstart
  refine ⟨hinv.beside.digest hfresh hsha, fun rank hturns => ?_⟩
  have hplace := hinv.place rank
  have hdone : turnsOf ((runFrom (saveEmaStep ema) ⟨d, fun _ => .hash⟩ turns).pc rank) = 4 := by
    rw [hcount rank]
    exact Nat.min_eq_left (Nat.le_add_left_of_le hturns)
  cases hpc : (runFrom (saveEmaStep ema) ⟨d, fun _ => .hash⟩ turns).pc rank with
  | done =>
      rw [hpc] at hplace
      obtain ⟨files, hdir, hsource⟩ := hplace
      unfold ExportDir.emaSource
      rw [hdir]
      exact hsource
  | raised error =>
      rw [hpc] at hplace
      exact absurd hplace id
  | _ =>
      rw [hpc] at hdone
      simp [turnsOf] at hdone

end Save

/-! ## Loading a saved source -/

section Load

variable {ι α : Type} [TensorOps α]

/-- The kernels keep the shape of what they write into. -/
structure KeepsShapes (α : Type) [TensorOps α] : Prop where
  toFloat32 : ∀ a : α, TensorOps.shape (TensorOps.toFloat32 a) = TensorOps.shape a
  lerp : ∀ (a v : α) (weight : ℚ),
    TensorOps.shape (TensorOps.lerp a v weight) = TensorOps.shape a

/-- The averages of a model with these dtypes and shapes. -/
structure Averages (dtype : ι → DType) (shape : ι → List Nat) (decay : ℚ)
    (ema : OpsdEma ι α) : Prop where
  decay : ema.decay = decay
  names : ∀ i, (ema.tensors i).isSome = (dtype i).isFloating
  shape : ∀ i, ∀ average ∈ ema.tensors i, TensorOps.shape average = shape i

variable {dtype : ι → DType} {decay : ℚ} {shape : ι → List Nat}

theorem averages_accumulate (hops : KeepsShapes α) {ema : OpsdEma ι α}
    (h : Averages dtype shape decay ema) (student : ι → α) :
    Averages dtype shape decay (ema.accumulate (named dtype student)) :=
  { decay := h.decay
    names := fun i => (OpsdEma.accumulate_isSome i).trans (h.names i)
    shape := fun i average haverage => by
      cases htensor : ema.tensors i with
      | none => simp [OpsdEma.accumulate, htensor] at haverage
      | some old =>
          simp only [OpsdEma.accumulate, htensor, named, Option.mem_def,
            Option.some.injEq] at haverage
          rw [← haverage, hops.lerp]
          exact h.shape i old htensor }

theorem averages_emaAfter (hops : KeepsShapes α) {ema : OpsdEma ι α}
    (h : Averages dtype shape decay ema) (students : List (ι → α)) :
    Averages dtype shape decay (emaAfter dtype ema students) := by
  induction students generalizing ema with
  | nil => exact h
  | cons student students ih => exact ih (averages_accumulate hops h student)

variable [Fintype ι]

theorem averages_init (hops : KeepsShapes α) {teacher : ι → α} {ema : OpsdEma ι α}
    (hinit : OpsdEma.init (named dtype teacher) decay = .ok ema)
    (hshape : ∀ i, TensorOps.shape (teacher i) = shape i) :
    Averages dtype shape decay ema := by
  unfold OpsdEma.init at hinit
  simp only [except_bind_eq_ok, check_eq_ok, Except.ok.injEq] at hinit
  obtain ⟨-, -, -, -, rfl⟩ := hinit
  refine ⟨rfl, fun i => ?_, fun i average haverage => ?_⟩
  · cases hfloating : (dtype i).isFloating <;> simp [named, hfloating]
  · cases hfloating : (dtype i).isFloating with
    | false => simp [named, hfloating] at haverage
    | true =>
        simp only [named, hfloating, if_true, Option.mem_def, Option.some.injEq] at haverage
        rw [← haverage, hops.toFloat32, hshape]

/-- A source that loads has the averages of the model it is loaded into. -/
theorem averages_load {fresh ema : OpsdEma ι α} {state : EmaSource ι α} {sha : String}
    (h : Averages dtype shape decay fresh) (hload : fresh.load state sha = .ok ema) :
    Averages dtype shape decay ema := by
  unfold OpsdEma.load OpsdEma.validate at hload
  simp only [except_bind_eq_ok, check_eq_ok, Except.ok.injEq] at hload
  obtain ⟨-, ⟨-, -⟩, -, -, -, ⟨-, hnames, hmatches⟩, -, hfloat, rfl⟩ := hload
  have hentry : ∀ i, (state.tensors i).isSome = (fresh.tensors i).isSome := fun i => by
    rw [← hnames i]
    unfold isFloatingName
    cases hstate : state.tensors i with
    | none => rfl
    | some entry =>
        show _ = entry.1.isFloating
        rw [hfloat i entry hstate]
        rfl
  refine ⟨h.decay, fun i => ?_, fun i average haverage => ?_⟩
  · show ((state.tensors i).map Prod.snd).isSome = _
    rw [Option.isSome_map, hentry, h.names]
  · obtain ⟨entry, hstate, rfl⟩ := Option.mem_map.mp haverage
    obtain ⟨old, hold⟩ := Option.isSome_iff_exists.mp
      ((hentry i).symm.trans (by rw [Option.mem_def.mp hstate]; rfl))
    have hsame := hmatches i old hold
    unfold matchesAverage at hsame
    rw [Option.mem_def.mp hstate] at hsame
    simp only [Bool.and_eq_true, beq_iff_eq] at hsame
    rw [hsame.1, h.shape i old hold]

omit [TensorOps α] [Fintype ι] in
theorem saved_tensors (ema : OpsdEma ι α) (sha : String) (i : ι) :
    (ema.saved sha).tensors i = (ema.tensors i).map fun average => (.float32, average) := rfl

/-- A saved state loads, under the hash it was saved with, exactly when its
averages are finite; what is loaded is what was saved. -/
theorem load_saved {fresh ema : OpsdEma ι α} (hfresh : Averages dtype shape decay fresh)
    (hema : Averages dtype shape decay ema) (sha : String) :
    fresh.load (ema.saved sha) sha = .ok ema ↔
      ∀ i, ∀ average ∈ ema.tensors i, TensorOps.isFinite average = true := by
  have hnames : ∀ i, (ema.tensors i).isSome = (fresh.tensors i).isSome := fun i =>
    (hema.names i).trans (hfresh.names i).symm
  have hentry : ∀ i average, ema.tensors i = some average →
      (ema.saved sha).tensors i = some (.float32, average) := fun i average haverage => by
    rw [saved_tensors, haverage]
    rfl
  constructor
  · intro hload
    unfold OpsdEma.load OpsdEma.validate at hload
    simp only [except_bind_eq_ok, check_eq_ok, Except.ok.injEq] at hload
    obtain ⟨-, -, -, -, -, ⟨-, -, hmatches⟩, -⟩ := hload
    intro i average haverage
    obtain ⟨old, hold⟩ := Option.isSome_iff_exists.mp
      ((hnames i).symm.trans (by rw [Option.mem_def.mp haverage]; rfl))
    have hmatch := hmatches i old hold
    unfold matchesAverage at hmatch
    rw [hentry i average haverage] at hmatch
    exact (Bool.and_eq_true_iff.mp hmatch).2
  · intro hfinite
    have hfloating : ∀ i, isFloatingName (ema.saved sha).tensors i = (fresh.tensors i).isSome := by
      intro i
      rw [← hnames i]
      unfold isFloatingName
      cases haverage : ema.tensors i with
      | none =>
          rw [saved_tensors, haverage]
          rfl
      | some average =>
          rw [hentry i average haverage]
          rfl
    have hmatches : ∀ i, ∀ old ∈ fresh.tensors i,
        matchesAverage (ema.saved sha).tensors i old = true := by
      intro i old hold
      obtain ⟨average, haverage⟩ := Option.isSome_iff_exists.mp
        ((hnames i).trans (by rw [Option.mem_def.mp hold]; rfl))
      unfold matchesAverage
      rw [hentry i average haverage]
      refine Bool.and_eq_true_iff.mpr ⟨?_, hfinite i average haverage⟩
      rw [beq_iff_eq, hema.shape i average haverage, hfresh.shape i old hold]
    have hfloat : ∀ i, ∀ entry ∈ (ema.saved sha).tensors i, entry.1 = DType.float32 := by
      intro i entry hstate
      obtain ⟨average, -, rfl⟩ := Option.mem_map.mp hstate
      rfl
    unfold OpsdEma.load OpsdEma.validate
    rw [check_of ⟨hema.decay.trans hfresh.decay.symm, rfl⟩, except_ok_bind,
      check_of (show 0 ≤ (ema.saved sha).updates from Int.natCast_nonneg ema.updates),
      except_ok_bind, check_of hfloating, except_ok_bind,
      check_of hmatches, except_ok_bind, check_of hfloat, except_ok_bind]
    congr 1
    have htensors : (fun i => ((ema.saved sha).tensors i).map Prod.snd) = ema.tensors := by
      funext i
      cases haverage : ema.tensors i with
      | none =>
          rw [saved_tensors, haverage]
          rfl
      | some average =>
          rw [hentry i average haverage]
          rfl
    rw [htensors, hfresh.decay, ← hema.decay]
    rfl

end Load

/-! ## The last save of a run -/

theorem saveIfPeriodic_of_trainLoop {args : Args} {run : RunEnv} :
    ∀ {rolloutIds : List Nat} {updates : List Update},
      trainLoop args run rolloutIds = .ok updates →
      ∀ u ∈ updates, saveIfPeriodic args run u.rolloutId = .ok u.effects := by
  intro rolloutIds
  induction rolloutIds with
  | nil =>
      intro updates h u hu
      rw [← Except.ok.inj h] at hu
      cases hu
  | cons rolloutId rolloutIds ih =>
      intro updates h u hu
      rw [trainLoop, except_bind_eq_ok] at h
      obtain ⟨effects, hsave, h⟩ := h
      split at h
      · rw [← Except.ok.inj h, List.mem_singleton] at hu
        rw [hu]
        exact hsave
      · rw [except_bind_eq_ok] at h
        obtain ⟨rest, hrest, h⟩ := h
        rw [← Except.ok.inj h] at hu
        rcases List.mem_cons.mp hu with rfl | hmem
        · exact hsave
        · exact ih hrest u hmem

/-- What a launched run has enqueued. -/
theorem updateSpec_of_train {s : ScriptArgs} {args : Args} {run : RunEnv}
    (h : Launched s args) (hepoch : ∀ perEpoch ∈ run.numRolloutPerEpoch, 0 < perEpoch)
    {updates : List Update} (htrain : Driver.train args run = .ok updates) :
    updates.map Update.completedUpdates = List.range' 1 (lastUpdate s) ∧
      ∀ u ∈ updates, UpdateSpec s run u := by
  obtain ⟨updates', htrain', hsteps, hspec⟩ := train_spec h hepoch
  obtain rfl : updates = updates' := by
    rw [htrain] at htrain'
    exact Except.ok.inj htrain'
  exact ⟨hsteps, hspec⟩

/-- The snapshot of the last executed update is enqueued and kept. -/
theorem kept_last {s : ScriptArgs} {args : Args} {run : RunEnv} (h : Launched s args)
    (hretain : s.retainFinalSnapshot = true)
    (hepoch : ∀ perEpoch ∈ run.numRolloutPerEpoch, 0 < perEpoch)
    (hon : OnCadence s run (lastUpdate s)) {updates : List Update}
    (htrain : Driver.train args run = .ok updates) :
    ∃ u ∈ updates, ∃ call, .enqueued call ∈ u.effects ∧
      call.job.temporarySnapshot = false ∧ u.completedUpdates = lastUpdate s := by
  obtain ⟨hsteps, hspec⟩ := updateSpec_of_train h hepoch htrain
  have hpos : 1 ≤ lastUpdate s := by
    rw [← h.finalStep_eq]
    exact h.finalStep_pos
  have hmem : lastUpdate s ∈ updates.map Update.completedUpdates := by
    rw [hsteps]
    exact List.mem_range'_1.mpr ⟨hpos, by omega⟩
  obtain ⟨u, hu, hlast⟩ := List.mem_map.mp hmem
  obtain ⟨call, hcall⟩ := (hspec u hu).enqueued.mpr ⟨by rw [hlast]; exact hon, Or.inl hlast⟩
  exact ⟨u, hu, call, hcall, ((hspec u hu).job call hcall).2.2.2.mpr ⟨hlast, hretain⟩, hlast⟩

section Exports

variable {β ι α : Type} [FileOps β]

/-- What the save of an update on the cadence leaves at its path. -/
theorem write_save {s : ScriptArgs} {args : Args} (h : Launched s args)
    (hplain : s.cyclicTeacherPolicy = none) {env : ExportEnv β ι α}
    (hepoch : ∀ perEpoch ∈ env.numRolloutPerEpoch, 0 < perEpoch)
    {ema : Nat → OpsdEma ι α} {dirs : Path → Option (ExportDir β (EmaSource ι α))}
    {u : Update} (hsave : saveIfPeriodic args env.toRunEnv u.rolloutId = .ok u.effects)
    (hr : u.rolloutId < args.numRollout) (hon : OnCadence s env.toRunEnv u.completedUpdates) :
    u.effects.foldl (SaveEffect.write env ema u.rolloutId) dirs (snapshotDir s u.rolloutId) =
      some (if args.savesEmaSource u.rolloutId then
        (runFrom (saveEmaStep ema) ⟨env.contents u.rolloutId, fun _ => .hash⟩
          (env.turns u.rolloutId)).dir
      else env.contents u.rolloutId) := by
  obtain ⟨due, hdue, hcadence⟩ := shouldRunPeriodicAction_launched h hepoch u.rolloutId
  obtain ⟨suites, hsuites, -⟩ := h.suites hr
  obtain ⟨calls, -, -, hmodel⟩ := saveModel_launched h hr hsuites (env.digest u.rolloutId)
  unfold saveIfPeriodic at hsave
  rw [hdue, except_ok_bind, if_pos (hcadence.mpr hon), hmodel, hplain,
    if_neg (by simp)] at hsave
  rw [← Except.ok.inj hsave]
  -- Nothing after the averages is written touches the export.
  have hcalls : ∀ dirs : Path → Option (ExportDir β (EmaSource ι α)),
      (calls.toList.map SaveEffect.enqueued).foldl
        (SaveEffect.write env ema u.rolloutId) dirs = dirs := by
    intro dirs
    cases calls <;> rfl
  rw [List.foldl_append, hcalls]
  by_cases hema : args.savesEmaSource u.rolloutId = true
  · rw [if_pos hema, if_pos hema]
    simp [SaveEffect.write]
  · rw [if_neg hema, if_neg hema]
    simp [SaveEffect.write]

/-- The last update's export once the run is over. -/
theorem exportsAfter_last {s : ScriptArgs} {args : Args} (h : Launched s args)
    (hplain : s.cyclicTeacherPolicy = none) {env : ExportEnv β ι α}
    (hepoch : ∀ perEpoch ∈ env.numRolloutPerEpoch, 0 < perEpoch)
    (hon : OnCadence s env.toRunEnv (lastUpdate s)) (ema : Nat → Nat → OpsdEma ι α)
    {updates : List Update} (htrain : Driver.train args env.toRunEnv = .ok updates)
    (hsteps : updates.map Update.completedUpdates = List.range' 1 (lastUpdate s))
    {u : Update} (hu : u ∈ updates) (hlast : u.completedUpdates = lastUpdate s) :
    exportsAfter env ema updates (snapshotDir s u.rolloutId) =
      some (if args.savesEmaSource u.rolloutId then
        (runFrom (saveEmaStep (ema (lastUpdate s)))
          ⟨env.contents u.rolloutId, fun _ => .hash⟩ (env.turns u.rolloutId)).dir
      else env.contents u.rolloutId) := by
  have hpos : 1 ≤ lastUpdate s := by
    rw [← h.finalStep_eq]
    exact h.finalStep_pos
  have hle : lastUpdate s ≤ args.numRollout := by
    rw [← h.finalStep_eq, h.finalStep]
    exact Nat.min_le_left ..
  obtain ⟨m, hm⟩ : ∃ m, lastUpdate s = m + 1 := ⟨lastUpdate s - 1, by omega⟩
  have hnodup : (updates.map Update.completedUpdates).Nodup := by
    rw [hsteps]
    exact List.nodup_range'
  have hconcat : updates.map Update.completedUpdates = List.range' 1 m ++ [1 + m] := by
    rw [hsteps, hm, List.range'_1_concat]
  obtain ⟨before, rest, rfl, -, hrest⟩ := List.map_eq_append_iff.mp hconcat
  obtain ⟨v, rfl, hv⟩ := List.map_eq_singleton_iff.mp hrest
  -- The update in question is the last one of the list.
  obtain rfl : u = v := by
    refine List.inj_on_of_nodup_map hnodup hu (List.mem_append_right _ List.mem_cons_self) ?_
    rw [hlast, hv, hm, Nat.add_comm]
  unfold exportsAfter
  rw [List.foldl_append, List.foldl_cons, List.foldl_nil, hlast]
  have hr : u.rolloutId < args.numRollout := by
    have hcompleted : u.rolloutId + 1 = lastUpdate s := hlast
    omega
  exact write_save h hplain hepoch (saveIfPeriodic_of_trainLoop htrain u hu) hr
    (by rw [hlast]; exact hon)

end Exports

/-! ## The ranks of a run -/

section Paired

variable {β ι α ρ τ ν : Type} [FileOps β] [Fintype ι] [TensorOps α] [DecidableEq α]
  [DecidableEq τ]

/-- One rank's run: what it loads, the attempts of every rollout, of which one
completes, and its averages after every update. -/
structure RankRun (ι α ρ τ ν : Type) [Fintype ι] [TensorOps α] [DecidableEq α]
    [DecidableEq τ] (args : Args) (updates : Nat) where
  dtype : ι → DType
  checkpoints : Checkpoints ι α
  scoring : ScoringEnv ρ τ ν
  start : Actor ι α
  actor : Actor ι α
  loaded : loadAuxiliaryCheckpoints args dtype checkpoints start = .ok () actor
  attempts : Nat → List (Attempt ι α ρ)
  orderly : ∀ k ≤ updates,
    (attemptRun scoring args dtype actor ((List.range k).flatMap attempts)).Orderly
  completed : ∀ k ≤ updates,
    (attemptRun scoring args dtype actor
      ((List.range k).flatMap attempts)).successes.length = k
  ema : Nat → OpsdEma ι α
  ema_eq : ∀ k ≤ updates,
    (attemptRun scoring args dtype actor
      ((List.range k).flatMap attempts)).history.state.opsdEma = some (ema k)

/-- The averages of a rank after any of its updates. -/
theorem RankRun.averages {args : Args} {updates : Nat} (run : RankRun ι α ρ τ ν args updates)
    (hops : KeepsShapes α) {decay : ℚ} (hdecay : args.opsdTeacherEmaDecay = some decay) :
    ∃ original fresh, run.checkpoints.load .teacher = .ok original ∧
      OpsdEma.init (named run.dtype original) decay = .ok fresh ∧
      ∀ k ≤ updates,
        Averages run.dtype (fun i => TensorOps.shape (original i)) decay (run.ema k) ∧
        (run.ema k).updates = loadedUpdates run.checkpoints.emaSource + k := by
  obtain ⟨original, horiginal, hloaded, hrest⟩ := loadAuxiliaryCheckpoints_loaded run.loaded
  obtain ⟨fresh, ema, hinit, hsource, hema, hupdates, hscoring⟩ := hloaded.ema.some decay hdecay
  refine ⟨original, fresh, horiginal, hinit, fun k hk => ?_⟩
  have hinv := attemptRun_inv hrest (run.orderly k hk)
  obtain ⟨hstate, -⟩ := hinv.ema ema original hema hscoring
  have heq : run.ema k = emaAfter run.dtype ema
      (attemptRun run.scoring args run.dtype run.actor
        ((List.range k).flatMap run.attempts)).successes := by
    rw [run.ema_eq k hk] at hstate
    exact Option.some.inj hstate
  have hfresh := averages_init hops hinit fun i => rfl
  have hbegin : Averages run.dtype (fun i => TensorOps.shape (original i)) decay ema := by
    unfold loadEmaSource at hsource
    split at hsource
    · rw [← Except.ok.inj hsource]
      exact hfresh
    · exact averages_load hfresh hsource
  rw [heq]
  refine ⟨averages_emaAfter hops hbegin _, ?_⟩
  rw [emaAfter_updates, hupdates, run.completed k hk]

/-- What the study is to guarantee of the snapshot it keeps: every rank's
averages after the update it was taken at are in it, and a run that starts from
it, with a teacher of the same model, loads them. -/
def PairedSource {args : Args} {n : Nat} (decay : ℚ) (env : ExportEnv β ι α)
    (ranks : Nat → RankRun ι α ρ τ ν args n) (updates : List Update) : Prop :=
  ∀ u ∈ updates, ∀ call, .enqueued call ∈ u.effects → call.job.temporarySnapshot = false →
    ∃ dir, exportsAfter env (fun update rank => (ranks rank).ema update) updates
        call.job.checkpoint = some dir ∧
      dir.checkpointDigest = .ok call.job.checkpointSha256 ∧
      ∀ rank < env.worldSize, ∃ source, dir.emaSource rank = some source ∧
        source.updates =
          loadedUpdates (ranks rank).checkpoints.emaSource + u.completedUpdates ∧
        ∀ original teacher fresh, (ranks rank).checkpoints.load .teacher = .ok original →
          (∀ i, TensorOps.shape (teacher i) = TensorOps.shape (original i)) →
          OpsdEma.init (named (ranks rank).dtype teacher) decay = .ok fresh →
          fresh.load source call.job.checkpointSha256 =
            .ok ((ranks rank).ema u.completedUpdates)

/-- Every average a rank ends with is finite. -/
def AveragesFinite {args : Args} {n : Nat} (worldSize : Nat)
    (ranks : Nat → RankRun ι α ρ τ ν args n) : Prop :=
  ∀ rank < worldSize, ∀ i, ∀ average ∈ ((ranks rank).ema n).tensors i,
    TensorOps.isFinite average = true

section Kept

variable {s : ScriptArgs} {args : Args} (h : Launched s args)
  (hplain : s.cyclicTeacherPolicy = none) {decay : ℚ} (hdecay : s.teacherEmaDecay = some decay)
  (hretain : s.retainFinalSnapshot = true) {env : ExportEnv β ι α}
  (hepoch : ∀ perEpoch ∈ env.numRolloutPerEpoch, 0 < perEpoch)
  (hon : OnCadence s env.toRunEnv (lastUpdate s))
  {ranks : Nat → RankRun ι α ρ τ ν args (lastUpdate s)} {updates : List Update}
  (htrain : Driver.train args env.toRunEnv = .ok updates)

include h hdecay hretain in
theorem savesEmaSource_last {rolloutId : Nat} (hlast : rolloutId + 1 = lastUpdate s) :
    args.savesEmaSource rolloutId = true ↔ lastUpdate s = s.numRollout.toNat := by
  rw [h.savesEmaSource, hdecay, hretain, ← hlast]
  exact ⟨fun hall => hall.2.2, fun heq => ⟨rfl, rfl, heq⟩⟩

include h hplain hdecay hretain hepoch hon htrain in
/-- A run that stops early keeps a snapshot without averages. -/
theorem lastUpdate_of_paired (hpaired : PairedSource decay env ranks updates) :
    lastUpdate s = s.numRollout.toNat := by
  obtain ⟨hsteps, hspec⟩ := updateSpec_of_train h hepoch htrain
  obtain ⟨u, hu, call, hcall, hkept, hlast⟩ := kept_last h hretain hepoch hon htrain
  obtain ⟨dir, hdir, -, hranks⟩ := hpaired u hu call hcall hkept
  rw [((hspec u hu).job call hcall).2.1,
    exportsAfter_last h hplain hepoch hon _ htrain hsteps hu hlast] at hdir
  by_contra hne
  rw [if_neg fun hsave => hne ((savesEmaSource_last h hdecay hretain hlast).mp hsave)] at hdir
  obtain ⟨source, hsource, -⟩ := hranks 0 env.worldSize_pos
  rw [← Option.some.inj hdir] at hsource
  unfold ExportDir.emaSource at hsource
  rw [AList.lookup_eq_none.mpr (env.fresh u.rolloutId)] at hsource
  cases hsource

include h hplain hdecay hretain hepoch hon htrain in
/-- Averages that are not finite are saved and refused. -/
theorem averagesFinite_of_paired (hops : KeepsShapes α)
    (hpaired : PairedSource decay env ranks updates) :
    AveragesFinite env.worldSize ranks := by
  have hfinal := lastUpdate_of_paired h hplain hdecay hretain hepoch hon htrain hpaired
  obtain ⟨hsteps, hspec⟩ := updateSpec_of_train h hepoch htrain
  obtain ⟨u, hu, call, hcall, hkept, hlast⟩ := kept_last h hretain hepoch hon htrain
  obtain ⟨dir, hdir, -, hranks⟩ := hpaired u hu call hcall hkept
  intro rank hrank
  obtain ⟨source, hsource, -, hloads⟩ := hranks rank hrank
  rw [((hspec u hu).job call hcall).2.1,
    exportsAfter_last h hplain hepoch hon _ htrain hsteps hu hlast,
    if_pos ((savesEmaSource_last h hdecay hretain hlast).mpr hfinal)] at hdir
  obtain ⟨-, hsaved⟩ := @emaSource_of_save _ _ _ _
    (fun rank => (ranks rank).ema (lastUpdate s)) _ _ (env.fresh u.rolloutId)
    (env.digest_eq u.rolloutId) (env.turns u.rolloutId)
  rw [← Option.some.inj hdir, hsaved rank (env.barrier u.rolloutId rank hrank)] at hsource
  obtain ⟨original, fresh, horiginal, hfresh, haverages⟩ :=
    (ranks rank).averages hops (h.ema.trans hdecay)
  have hload := hloads original original fresh horiginal (fun _ => rfl) hfresh
  rw [← Option.some.inj hsource, ((hspec u hu).job call hcall).2.2.1, hlast] at hload
  exact (load_saved (averages_init hops hfresh fun _ => rfl)
    (haverages _ (Nat.le_refl _)).1 _).mp hload

include h hplain hdecay hretain hepoch hon htrain in
theorem paired_of_final (hops : KeepsShapes α) (hfinal : lastUpdate s = s.numRollout.toNat)
    (hfinite : AveragesFinite env.worldSize ranks) :
    PairedSource decay env ranks updates := by
  intro u hu call hcall hkept
  obtain ⟨hsteps, hspec⟩ := updateSpec_of_train h hepoch htrain
  obtain ⟨-, hpath, hsha, htemporary⟩ := (hspec u hu).job call hcall
  have hlast : u.completedUpdates = lastUpdate s := (htemporary.mp hkept).1
  obtain ⟨hdigest, hsaved⟩ := @emaSource_of_save _ _ _ _
    (fun rank => (ranks rank).ema (lastUpdate s)) _ _ (env.fresh u.rolloutId)
    (env.digest_eq u.rolloutId) (env.turns u.rolloutId)
  refine ⟨_, ?_, ?_, fun rank hrank =>
    ⟨_, hsaved rank (env.barrier u.rolloutId rank hrank), ?_, ?_⟩⟩
  · rw [hpath, exportsAfter_last h hplain hepoch hon _ htrain hsteps hu hlast,
      if_pos ((savesEmaSource_last h hdecay hretain hlast).mpr hfinal)]
  · rw [hsha]
    exact hdigest
  · obtain ⟨original, fresh, -, -, haverages⟩ :=
      (ranks rank).averages hops (h.ema.trans hdecay)
    rw [hlast]
    exact congrArg Int.ofNat (haverages _ (Nat.le_refl _)).2
  · intro original teacher fresh horiginal hshape hfresh
    obtain ⟨original', fresh', horiginal', -, haverages⟩ :=
      (ranks rank).averages hops (h.ema.trans hdecay)
    obtain rfl : original = original' := by
      rw [horiginal] at horiginal'
      exact Except.ok.inj horiginal'
    rw [hsha, hlast]
    exact (load_saved (averages_init hops hfresh hshape)
      (haverages _ (Nat.le_refl _)).1 _).mpr (hfinite rank hrank)

end Kept

/-- **Paired source.** The snapshot a run keeps carries the averages of its
update exactly when that update is the last one planned, and they load exactly
when none of them has overflowed. -/
theorem paired_source {s : ScriptArgs} {launch : LaunchEnv} {args : Args}
    {env : ExportEnv β ι α} {decay : ℚ} (hops : KeepsShapes α)
    (hinit : s.postInit = .ok ()) (hqueue : s.evaluationQueue.isSome = true)
    (hsave : s.saveCheckpoints = false) (hexec : s.execute launch = .ok args)
    (hplain : s.cyclicTeacherPolicy = none) (hdecay : s.teacherEmaDecay = some decay)
    (hretain : s.retainFinalSnapshot = true)
    (hepoch : ∀ perEpoch ∈ env.numRolloutPerEpoch, 0 < perEpoch)
    (hon : OnCadence s env.toRunEnv (lastUpdate s))
    (ranks : Nat → RankRun ι α ρ τ ν args (lastUpdate s)) :
    ∃ updates, Driver.train args env.toRunEnv = .ok updates ∧
      (∃ u ∈ updates, ∃ call, .enqueued call ∈ u.effects ∧
        call.job.temporarySnapshot = false ∧ u.completedUpdates = lastUpdate s) ∧
      (PairedSource decay env ranks updates ↔
        lastUpdate s = s.numRollout.toNat ∧ AveragesFinite env.worldSize ranks) := by
  have h := launched hinit hqueue hsave hexec
  obtain ⟨updates, htrain, -, -⟩ := train_spec h hepoch
  refine ⟨updates, htrain, kept_last h hretain hepoch hon htrain, fun hpaired => ?_, ?_⟩
  · exact ⟨lastUpdate_of_paired h hplain hdecay hretain hepoch hon htrain hpaired,
      averagesFinite_of_paired h hplain hdecay hretain hepoch hon htrain hops hpaired⟩
  · rintro ⟨hfinal, hfinite⟩
    exact paired_of_final h hplain hdecay hretain hepoch hon htrain hops hfinal hfinite

end Paired

/-! ## Two planned updates -/

/-- Bytes that are their own hash; an export here has no index. -/
instance textFiles : FileOps String where
  weightMap _ := .ok []
  sha256 bytes := bytes
  sha256Json hashes := String.join (hashes.map fun entry => entry.1 ++ "=" ++ entry.2 ++ ";")

/-- One full checkpoint a rollout, saved by two ranks that take turns. -/
def twoRanks : ExportEnv String Unit ℚ :=
  { countedRun with
    digest := fun _ => "config.json={};model.safetensors=weights;"
    contents := fun _ =>
      (((∅ : Dir (Node String (EmaSource Unit ℚ))).insert ".complete" (.file "")).insert
        "config.json" (.file "{}")).insert "model.safetensors" (.file "weights")
    fresh := fun _ => by decide +kernel
    digest_eq := fun _ => by decide +kernel
    worldSize := 2
    worldSize_pos := by decide
    turns := fun _ => [0, 1, 1, 0, 0, 1, 0, 1]
    barrier := fun _ => by decide }

def emaStudy (stop : Option Int) : ScriptArgs :=
  { plainStudy 2 1 with
    teacherEmaDecay := some (1 / 2)
    retainFinalSnapshot := true
    stopAfterRollout := stop }

def emaStudyArgs (stop : Option Int) : Args :=
  match (emaStudy stop).execute untrackedLaunch with
  | .ok args => args
  | .error _ => emaArgs

def emaStudyActor (stop : Option Int) : Actor Unit ℚ :=
  match loadAuxiliaryCheckpoints (emaStudyArgs stop) (fun _ => .float32) emaCheckpoints
      emaStudent with
  | .ok _ actor => actor
  | .error _ actor => actor

def emaStudyAttempts (rolloutId : Nat) : List (Attempt Unit ℚ ℚ) :=
  [emaAttempt false (.normal (emaTrained (rolloutId + 6)))]

def emaStudyRun (stop : Option Int) (k : Nat) : Run Unit ℚ :=
  attemptRun emaEnv (emaStudyArgs stop) (fun _ => .float32) (emaStudyActor stop)
    ((List.range k).flatMap emaStudyAttempts)

/-- The teacher loads, no update raises, and every rollout completes one. -/
def emaStudyRuns (stop : Option Int) : Bool :=
  (match loadAuxiliaryCheckpoints (emaStudyArgs stop) (fun _ => .float32) emaCheckpoints
      emaStudent with
    | .ok _ _ => true
    | .error _ _ => false) &&
  (List.range (lastUpdate (emaStudy stop) + 1)).all fun k =>
    ((emaStudyRun stop k).ends.all fun attemptEnd =>
      match attemptEnd with
      | .raisedInUpdate _ => false
      | _ => true) &&
    (emaStudyRun stop k).successes.length == k &&
    (emaStudyRun stop k).history.state.opsdEma.isSome

theorem emaStudyRun_of_runs {stop : Option Int} (h : emaStudyRuns stop = true) {k : Nat}
    (hk : k ≤ lastUpdate (emaStudy stop)) :
    (emaStudyRun stop k).Orderly ∧ (emaStudyRun stop k).successes.length = k ∧
      (emaStudyRun stop k).history.state.opsdEma.isSome = true := by
  have hall := List.all_eq_true.mp (Bool.and_eq_true_iff.mp h).2 k
    (List.mem_range.mpr (Nat.lt_succ_of_le hk))
  simp only [Bool.and_eq_true, beq_iff_eq] at hall
  obtain ⟨⟨hends, hlength⟩, hema⟩ := hall
  refine ⟨fun error hmem => ?_, hlength, hema⟩
  have := List.all_eq_true.mp hends _ hmem
  cases this

/-- Both ranks of it. -/
def emaStudyRank (stop : Option Int) (h : emaStudyRuns stop = true) :
    RankRun Unit ℚ ℚ ℚ ℚ (emaStudyArgs stop) (lastUpdate (emaStudy stop)) :=
  { dtype := fun _ => .float32
    checkpoints := emaCheckpoints
    scoring := emaEnv
    start := emaStudent
    actor := emaStudyActor stop
    loaded := by
      have hok := (Bool.and_eq_true_iff.mp h).1
      unfold emaStudyActor
      cases hload : loadAuxiliaryCheckpoints (emaStudyArgs stop) (fun _ => .float32)
          emaCheckpoints emaStudent with
      | ok u actor => rfl
      | error e actor =>
          rw [hload] at hok
          cases hok
    attempts := emaStudyAttempts
    orderly := fun _ hk => (emaStudyRun_of_runs h hk).1
    completed := fun _ hk => (emaStudyRun_of_runs h hk).2.1
    ema := fun k =>
      ((emaStudyRun stop k).history.state.opsdEma).getD
        { decay := 0, updates := 0, tensors := fun _ => none }
    ema_eq := fun _ hk => (Option.some_get (emaStudyRun_of_runs h hk).2.2).symm.trans
      (congrArg some (Option.get_eq_getD _ ..)) }

theorem keepsShapes_rat : KeepsShapes ℚ := ⟨fun _ => rfl, fun _ _ _ => rfl⟩

/-- Both updates are executed, and the second one's snapshot can be started from. -/
theorem paired_source_planned :
    ∃ updates, Driver.train (emaStudyArgs none) twoRanks.toRunEnv = .ok updates ∧
      PairedSource (1 / 2) twoRanks
        (fun _ => emaStudyRank none (by decide +kernel)) updates := by
  obtain ⟨updates, htrain, -, hiff⟩ := @paired_source String Unit ℚ ℚ ℚ ℚ _ _ _ _ _
    (emaStudy none) untrackedLaunch (emaStudyArgs none) twoRanks (1 / 2) keepsShapes_rat
    (by decide +kernel) rfl rfl rfl rfl rfl rfl (fun _ h => by cases h)
    (Or.inl (Nat.mod_one _)) (fun _ => emaStudyRank none (by decide +kernel))
  exact ⟨updates, htrain, hiff.mpr ⟨rfl, fun _ _ _ _ _ => rfl⟩⟩

/-- The run stops after the first of two planned updates. -/
theorem paired_source_earlyExit :
    ¬ ∀ (s : ScriptArgs) (launch : LaunchEnv) (args : Args) (env : ExportEnv String Unit ℚ)
        (decay : ℚ) (ranks : Nat → RankRun Unit ℚ ℚ ℚ ℚ args (lastUpdate s))
        (updates : List Update),
      s.postInit = .ok () → s.evaluationQueue.isSome = true → s.saveCheckpoints = false →
      s.execute launch = .ok args → s.cyclicTeacherPolicy = none →
      s.teacherEmaDecay = some decay → s.retainFinalSnapshot = true →
      (∀ perEpoch ∈ env.numRolloutPerEpoch, 0 < perEpoch) →
      OnCadence s env.toRunEnv (lastUpdate s) →
      Driver.train args env.toRunEnv = .ok updates →
      PairedSource decay env ranks updates := by
  intro hclaim
  have hinit : (emaStudy (some 1)).postInit = .ok () := by decide +kernel
  have h : Launched (emaStudy (some 1)) (emaStudyArgs (some 1)) :=
    @launched (emaStudy (some 1)) untrackedLaunch _ hinit rfl rfl rfl
  have hepoch : ∀ perEpoch ∈ twoRanks.numRolloutPerEpoch, 0 < perEpoch :=
    fun _ h => by cases h
  have hon : OnCadence (emaStudy (some 1)) twoRanks.toRunEnv (lastUpdate (emaStudy (some 1))) :=
    Or.inl (Nat.mod_one _)
  obtain ⟨updates, htrain, -⟩ := train_spec h hepoch
  have hpaired := hclaim (emaStudy (some 1)) untrackedLaunch (emaStudyArgs (some 1)) twoRanks
    (1 / 2) (fun _ => emaStudyRank (some 1) (by decide +kernel)) updates hinit rfl rfl rfl rfl
    rfl rfl hepoch hon htrain
  have hfinal := lastUpdate_of_paired h rfl rfl rfl hepoch hon htrain hpaired
  revert hfinal
  decide

end Crisp.Proofs
