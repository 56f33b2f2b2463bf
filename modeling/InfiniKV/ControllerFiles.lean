/-
**The files of a controller, on its mount path.**

For a GPU file a controller is a table from slots to headers.  What there is in truth is a log with a record for each
slot, a directory with the names of files, and what is in them.  Names are generated from slots; the header is
written to the file when it is created, and read from it when it is opened.

Main definitions:

* `InfiniKV.GeminiFS.MountPath` — the log, the directory, and the contents of files;
* `InfiniKV.GeminiFS.MountPath.hostFileCreateManaged`, `hostFileDeleteManaged` — creating and deleting a file by its
  slot;
* `InfiniKV.GeminiFS.MountPath.Holds` — the headers of a controller are those in the files of its mount path.

Main results:

* `InfiniKV.GeminiFS.MountPath.Holds.create`, `Holds.delete` — **a controller and its mount path go on with each
  other**, and create the same files;
* `InfiniKV.GeminiFS.MountPath.Holds.deviceFileOpen` — **a file opens with the header** that the controller has;
* `InfiniKV.GeminiFS.MountPath.volume_run` — a run on a mount path is one of its volume;
* `InfiniKV.GeminiFS.MountPath.holds_run` — a controller and its mount path go on with each other along every run.
-/

import InfiniKV.DeviceFiles
import InfiniKV.NvmeNames

set_option relaxedAutoImplicit false
set_option autoImplicit false

namespace InfiniKV
namespace GeminiFS

/-- What a controller has on its mount path: the log and the directory, and what is in the file with a name. -/
structure MountPath where
  volume : NVMeVolume
  content : List UInt8 → ByteFile

namespace MountPath

open FileManager

variable (p : MountPath)

/-- `host_file_create_managed`, for blocks of one page.  `opened` and `allocated` say whether `open` and `fallocate`
succeed; where the process ends in an assertion or in `host_refine_nvmeofst`, it is `none` as well. -/
def hostFileCreateManaged (env : CreateEnv) (opened allocated : Bool) (fileSize now : UInt64) :
    Option ℕ × MountPath :=
  match p.volume.fileManager.createFileAuto fileSize now with
  | (none, m) => (none, { p with volume := { p.volume with fileManager := m } })
  | (some desc, m) =>
      let undone := (m.deleteFile desc.slotIndex.toNat).2
      let directory := insert desc.name p.volume.directory
      if !opened then (none, { p with volume := { p.volume with fileManager := undone } })
      else if !allocated then (none, ⟨⟨undone, directory⟩, Function.update p.content desc.name ⟨0, fun _ => 0⟩⟩)
      else match createHostFd env env.pageSize fileSize with
        | none => (none, ⟨⟨m, directory⟩, Function.update p.content desc.name ⟨0, fun _ => 0⟩⟩)
        | some host =>
            (some desc.slotIndex.toNat, ⟨⟨m, directory⟩, Function.update p.content desc.name host.2⟩)

/-- `host_file_delete_managed`. -/
def hostFileDeleteManaged (nvmeFileId : ℕ) : MountPath :=
  { p with volume := (p.volume.hostFileDeleteManaged nvmeFileId).2 }

/-- **The headers of a controller are those in its files**: each slot with a header has a record, named by the slot,
and a file with that name and that header. -/
structure Holds (c : NVMeController) : Prop where
  inv : Inv p.volume.fileManager
  named : ∀ slot desc, p.volume.fileManager.files.lookup slot = some desc → desc.name = generateFilenameFromId slot
  files : ∀ slot, (c.files slot).isSome = true ↔ slot ∈ p.volume.fileManager.files
  headers : ∀ slot hdr, c.files slot = some hdr → generateFilenameFromId slot ∈ p.volume.directory ∧
    hostOpenGeminifsFile (p.content (generateFilenameFromId slot)) = some hdr

variable {p} {p' : MountPath} {c : NVMeController}

/-! ### Names of slots -/

/-- No two slots have one name. -/
theorem generateFilenameFromId_inj {slot slot' : ℕ} (h : slot < MAX_RECORDS) (h' : slot' < MAX_RECORDS)
    (heq : generateFilenameFromId slot = generateFilenameFromId slot') : slot = slot' := by
  rw [MAX_RECORDS_eq] at h h'
  rw [← parseFileIdFromFilename_generateFilenameFromId (show slot < 2 ^ 32 by omega), heq,
    parseFileIdFromFilename_generateFilenameFromId (by omega)]

/-- The record that is written for a slot has its name. -/
theorem name_newDesc_auto {slot : ℕ} (h : slot < MAX_RECORDS) (fileSize now : UInt64) :
    (newDesc slot (generateFilenameFromId slot) fileSize now).name = generateFilenameFromId slot := by
  rw [NVMeVolume.name_newDesc slot (length_generateFilenameFromId h), cStr_generateFilenameFromId]

namespace Holds

theorem lt (h : p.Holds c) {slot : ℕ} (hslot : (c.files slot).isSome = true) : slot < MAX_RECORDS :=
  h.inv.lt slot ((h.files slot).1 hslot)

theorem numberedNames (h : p.Holds c) : p.volume.NumberedNames := by
  intro slot desc hdesc
  have hlt := h.inv.toCore.lt_of_lookup hdesc
  rw [MAX_RECORDS_eq] at hlt
  rw [h.named slot desc hdesc, parseFileIdFromFilename_generateFilenameFromId (by omega)]

/-- The slots that are taken in the log are those with a header. -/
theorem dirtyBitmap (h : p.Holds c) : (fun slot => (c.files slot).isSome) = p.volume.fileManager.dirtyBitmap := by
  funext slot
  exact Bool.eq_iff_iff.2 ((h.files slot).trans (h.inv.mem_iff slot).symm)

/-- A mount path with the same records still holds the headers, if their files stay. -/
theorem of_lookup (h : p.Holds c) (hinv : Inv p'.volume.fileManager)
    (hlookup : ∀ slot, p'.volume.fileManager.files.lookup slot = p.volume.fileManager.files.lookup slot)
    (hkept : ∀ slot, (c.files slot).isSome = true →
      (generateFilenameFromId slot ∈ p.volume.directory → generateFilenameFromId slot ∈ p'.volume.directory) ∧
        p'.content (generateFilenameFromId slot) = p.content (generateFilenameFromId slot)) : p'.Holds c where
  inv := hinv
  named slot desc hdesc := h.named slot desc ((hlookup slot).symm.trans hdesc)
  files slot := by
    rw [h.files slot, ← AList.lookup_isSome, ← AList.lookup_isSome, hlookup]
  headers slot hdr hhdr := by
    obtain ⟨hmem, hopen⟩ := h.headers slot hdr hhdr
    obtain ⟨hdirectory, hcontent⟩ := hkept slot (by rw [hhdr, Option.isSome_some])
    exact ⟨hdirectory hmem, by rw [hcontent, hopen]⟩

end Holds

/-! ### Creating a file -/

/-- `__builtin_ctzll` gives at most 64. -/
theorem ctzll_le (n : ℕ) : ctzll n ≤ 64 := by
  rw [ctzll]
  cases hfind : (List.range 64).find? fun i => n.testBit i with
  | none => exact le_rfl
  | some i =>
      have hmem := List.mem_range.1 (List.mem_of_find?_eq_some hfind)
      exact hmem.le

/-- What a controller is told of the room for a file. -/
def space (env : CreateEnv) (opened allocated : Bool) (fileSize : UInt64) : Option (List FiemapExtent) :=
  if opened && allocated then some (env.fiemap.answer GEMINI_HDR_MAX_SIZE fileSize.toNat) else none

/-- The header of a file of pages. -/
theorem hdr_createHdr (env : CreateEnv) (fileSize : UInt64) :
    { (createHdr env env.pageSize fileSize).hdr with
        extents := env.fiemap.answer GEMINI_HDR_MAX_SIZE fileSize.toNat } =
      (⟨0x7366696e696d6567, GEMINI_HDR_MAX_SIZE, fileSize.toNat, ctzll env.pageSize,
        env.fiemap.answer GEMINI_HDR_MAX_SIZE fileSize.toNat⟩ : GeminiHdr) := by
  have hbit : (UInt8.ofNat (ctzll env.pageSize)).toNat = ctzll env.pageSize := by
    have hle := ctzll_le env.pageSize
    rw [UInt8.toNat_ofNat', Nat.mod_eq_of_lt (by omega)]
  rw [HdrBuffer.hdr, createHdr, hbit]
  rfl

/-- The record of a new file is dropped again. -/
theorem Holds.undo (h : p.Holds c) (raw : ByteFile) {slot : ℕ} {desc : NVMeFileDesc} (hnew : c.files slot = none)
    (hdesc : desc.name = generateFilenameFromId slot) (hslot : desc.slotIndex.toNat = slot) (hlt : slot < MAX_RECORDS)
    {directory : Finset (List UInt8)}
    (hdirectory : directory = p.volume.directory ∨ directory = insert desc.name p.volume.directory) :
    Holds ⟨⟨((p.volume.fileManager.takeSlot slot desc).deleteFile desc.slotIndex.toNat).2, directory⟩,
      Function.update p.content desc.name raw⟩ c := by
  have hnot : slot ∉ p.volume.fileManager.files := fun hmem => by
    rw [← h.files, hnew] at hmem
    cases hmem
  refine h.of_lookup ((h.inv.toCore.takeSlot hlt hslot).deleteFile _) (fun i => ?_) fun i hi => ⟨fun hmem => ?_, ?_⟩
  · dsimp only
    rw [files_deleteFile, files_takeSlot, hslot]
    rcases eq_or_ne i slot with rfl | hne
    · rw [AList.lookup_erase, AList.lookup_eq_none.2 hnot]
    · rw [AList.lookup_erase_ne hne, AList.lookup_insert_ne hne]
  · rcases hdirectory with rfl | rfl
    · exact hmem
    · exact Finset.mem_insert_of_mem hmem
  · refine Function.update_of_ne (fun heq => ?_) _ _
    rw [hdesc] at heq
    obtain rfl := generateFilenameFromId_inj (h.lt hi) hlt heq
    rw [hnew] at hi
    cases hi

/-- A new file is added, with its record and its header. -/
theorem Holds.add (h : p.Holds c) {slot : ℕ} {desc : NVMeFileDesc} (hnew : c.files slot = none)
    (hdesc : desc.name = generateFilenameFromId slot) (hslot : desc.slotIndex.toNat = slot) (hlt : slot < MAX_RECORDS)
    {raw : ByteFile} {hdr : GeminiHdr} (hopen : hostOpenGeminifsFile raw = some hdr) :
    Holds ⟨⟨p.volume.fileManager.takeSlot slot desc, insert desc.name p.volume.directory⟩,
      Function.update p.content desc.name raw⟩ { c with files := Function.update c.files slot (some hdr) } where
  inv := h.inv.toCore.takeSlot hlt hslot
  named i desc' hlookup := by
    dsimp only at hlookup
    rw [files_takeSlot] at hlookup
    rcases eq_or_ne i slot with rfl | hne
    · rw [AList.lookup_insert] at hlookup
      cases hlookup
      exact hdesc
    · rw [AList.lookup_insert_ne hne] at hlookup
      exact h.named i desc' hlookup
  files i := by
    dsimp only
    rw [files_takeSlot, AList.mem_insert]
    rcases eq_or_ne i slot with rfl | hne
    · rw [Function.update_self]
      exact iff_of_true rfl (Or.inl rfl)
    · rw [Function.update_of_ne hne, h.files, or_iff_right hne]
  headers i hdr' hhdr := by
    dsimp only at hhdr ⊢
    rcases eq_or_ne i slot with rfl | hne
    · rw [Function.update_self, Option.some.injEq] at hhdr
      rw [hdesc, Function.update_self, ← hhdr]
      exact ⟨Finset.mem_insert_self _ _, hopen⟩
    · rw [Function.update_of_ne hne] at hhdr
      obtain ⟨hmem, hread⟩ := h.headers i hdr' hhdr
      have hother : generateFilenameFromId i ≠ desc.name := by
        rw [hdesc]
        exact fun heq => hne (generateFilenameFromId_inj (h.lt (by rw [hhdr, Option.isSome_some])) hlt heq)
      rw [Function.update_of_ne hother]
      exact ⟨Finset.mem_insert_of_mem hmem, hread⟩

/-- **A controller and its mount path create the same file**, or both none: the process goes on, and the size is a
multiple of a page. -/
theorem Holds.create (h : p.Holds c) (env : CreateEnv) (hpage : env.pageSize = c.pageSize) (opened allocated : Bool)
    (fileSize now : UInt64) (hgoes : (createHostFd env env.pageSize fileSize).isSome = true) :
    (p.hostFileCreateManaged env opened allocated fileSize now).1 =
        (c.hostFileCreateManaged fileSize.toNat (space env opened allocated fileSize)).map Prod.fst ∧
      (p.hostFileCreateManaged env opened allocated fileSize now).2.Holds
        (((c.hostFileCreateManaged fileSize.toNat (space env opened allocated fileSize)).map Prod.snd).getD c) := by
  obtain ⟨host, hhost⟩ := Option.isSome_iff_exists.1 hgoes
  have hmultiple : ¬ fileSize.toNat % c.pageSize ≠ 0 := by
    intro hne
    rw [createHostFd, if_pos (hpage ▸ hne)] at hhost
    cases hhost
  rw [hostFileCreateManaged, NVMeController.hostFileCreateManaged, h.dirtyBitmap, FileManager.createFileAuto,
    findNextFreeSlot]
  cases hfree : firstFree MAX_RECORDS p.volume.fileManager.dirtyBitmap with
  | none => exact ⟨rfl, h⟩
  | some slot =>
      obtain ⟨hlt, -, hnot⟩ := h.inv.toCore.isLeast_of_findNextFreeSlot hfree
      have hnew : c.files slot = none := by
        rw [← Option.not_isSome_iff_eq_none, h.files]
        exact hnot
      have hname := name_newDesc_auto hlt fileSize now
      have hslot := toNat_slotIndex hlt (generateFilenameFromId slot) fileSize now
      have hlength : ¬ (generateFilenameFromId slot).length ≥ 16 :=
        Nat.not_le_of_lt (length_generateFilenameFromId hlt)
      dsimp only
      rw [if_neg hlength, if_neg hmultiple]
      generalize newDesc slot (generateFilenameFromId slot) fileSize now = desc at hname hslot ⊢
      cases opened with
      | false =>
          have hundo := h.undo (p.content desc.name) hnew hname hslot hlt (Or.inl rfl)
          rw [Function.update_eq_self] at hundo
          exact ⟨rfl, hundo⟩
      | true =>
          cases allocated with
          | false => exact ⟨rfl, h.undo _ hnew hname hslot hlt (Or.inr rfl)⟩
          | true =>
              have hopen := (createHostFd_some hhost).2
              rw [hdr_createHdr, hpage] at hopen
              rw [hhost]
              exact ⟨congrArg some hslot, h.add hnew hname hslot hlt hopen⟩

/-! ### Deleting and opening -/

/-- **Deleting a file** takes its header away, and no other. -/
theorem Holds.delete (h : p.Holds c) (nvmeFileId : ℕ) :
    (p.hostFileDeleteManaged nvmeFileId).Holds (c.hostFileDeleteManaged nvmeFileId) := by
  have hinv : Inv (p.hostFileDeleteManaged nvmeFileId).volume.fileManager :=
    NVMeVolume.inv_apply h.inv (.hostFileDelete nvmeFileId)
  cases hlookup : p.volume.fileManager.files.lookup nvmeFileId with
  | none =>
      have hnot : c.files nvmeFileId = none := by
        rw [← Option.not_isSome_iff_eq_none, h.files, ← AList.lookup_isSome, hlookup]
        exact Bool.false_ne_true
      have hpath : p.hostFileDeleteManaged nvmeFileId = p := by
        rw [hostFileDeleteManaged, NVMeVolume.hostFileDeleteManaged, hlookup]
      have hfiles : Function.update c.files nvmeFileId none = c.files := by rw [← hnot, Function.update_eq_self]
      rw [hpath, NVMeController.hostFileDeleteManaged, hfiles]
      exact h
  | some desc =>
      have hright := h.numberedNames.deleteRight h.inv hlookup
      have hlt := h.inv.toCore.lt_of_lookup hlookup
      refine ⟨hinv, fun slot desc' hdesc' => ?_, fun slot => ?_, fun slot hdr hhdr => ?_⟩
      · rw [hostFileDeleteManaged, hright.records] at hdesc'
        split_ifs at hdesc'
        exact h.named slot desc' hdesc'
      · rw [hostFileDeleteManaged, ← AList.lookup_isSome, hright.records, NVMeController.hostFileDeleteManaged]
        dsimp only
        split_ifs with hslot
        · rw [hslot, Function.update_self]
          exact Iff.rfl
        · rw [Function.update_of_ne hslot, h.files, AList.lookup_isSome]
      · rw [NVMeController.hostFileDeleteManaged] at hhdr
        dsimp only at hhdr
        rcases eq_or_ne slot nvmeFileId with rfl | hne
        · rw [Function.update_self] at hhdr
          cases hhdr
        · rw [Function.update_of_ne hne] at hhdr
          obtain ⟨hmem, hread⟩ := h.headers slot hdr hhdr
          refine ⟨?_, hread⟩
          rw [hostFileDeleteManaged, hright.physical, h.named _ _ hlookup]
          exact Finset.mem_erase_of_ne_of_mem (fun heq =>
            hne (generateFilenameFromId_inj (h.lt (by rw [hhdr, Option.isSome_some])) hlt heq)) hmem

/-- **A file opens with the header** that the controller has for it. -/
theorem Holds.deviceFileOpen (h : p.Holds c) (env : CreateEnv) (hpage : env.pageSize = c.pageSize)
    (hblk : env.blkSizeLog = c.blkSizeLog) (memory : DeviceMemory) {slot : ℕ} (hslot : (c.files slot).isSome = true) :
    ∃ opened, deviceFileOpenManaged env memory (p.content (generateFilenameFromId slot)) = some opened ∧
      opened.2.nvmeFile opened.1 = c.deviceFileOpenManaged slot true := by
  obtain ⟨hdr, hhdr⟩ := Option.isSome_iff_exists.1 hslot
  rw [GeminiFS.deviceFileOpenManaged, (h.headers slot hdr hhdr).2]
  refine ⟨_, rfl, ?_⟩
  rw [NVMeController.deviceFileOpenManaged, if_pos rfl, hhdr, Option.map_some, ← hpage, ← hblk]
  apply nvmeFile_of_nvmeFile
  · rw [fst_alloc, objects_alloc_self]
  · rw [copyHostFdToDevice, fst_alloc, objects_alloc_of_lt (by simp only [next_alloc]; omega), objects_alloc_self]

/-! ### Runs -/

/-- An operation on the files of a controller. -/
inductive FilesOp where
  | create (env : CreateEnv) (opened allocated : Bool) (fileSize now : UInt64)
  | delete (nvmeFileId : ℕ)

/-- The mount path after an operation. -/
def apply (p : MountPath) : FilesOp → MountPath
  | .create env opened allocated fileSize now => (p.hostFileCreateManaged env opened allocated fileSize now).2
  | .delete nvmeFileId => p.hostFileDeleteManaged nvmeFileId

/-- The controller after an operation. -/
def applyController (c : NVMeController) : FilesOp → NVMeController
  | .create env opened allocated fileSize _ =>
      ((c.hostFileCreateManaged fileSize.toNat (space env opened allocated fileSize)).map Prod.snd).getD c
  | .delete nvmeFileId => c.hostFileDeleteManaged nvmeFileId

/-- What an operation does to the volume: the record of a new file is written, then the file, and the record is
dropped again if one of these fails. -/
def FilesOp.volumeOps (p : MountPath) : FilesOp → List NVMeVolume.VolumeOp
  | .create _ opened allocated fileSize now =>
      .log (.createFileAuto fileSize now) ::
        match (p.volume.fileManager.createFileAuto fileSize now).1 with
        | none => []
        | some desc =>
            if !opened then [.log (.deleteFile desc.slotIndex.toNat)]
            else if !allocated then [.createPhysical desc.name, .log (.deleteFile desc.slotIndex.toNat)]
            else [.createPhysical desc.name]
  | .delete nvmeFileId => [.hostFileDelete nvmeFileId]

/-- **The volume goes through its own operations.** -/
theorem volume_apply (p : MountPath) (op : FilesOp) : (p.apply op).volume = p.volume.run (op.volumeOps p) := by
  cases op with
  | delete nvmeFileId => rfl
  | create env opened allocated fileSize now =>
      have hrun : ∀ ops, p.volume.run (.log (.createFileAuto fileSize now) :: ops) =
          NVMeVolume.run ⟨(p.volume.fileManager.createFileAuto fileSize now).2, p.volume.directory⟩ ops :=
        fun _ => rfl
      rw [apply, hostFileCreateManaged, FilesOp.volumeOps, hrun]
      obtain ⟨created, m⟩ := p.volume.fileManager.createFileAuto fileSize now
      cases created with
      | none => rfl
      | some desc =>
          have hinsert : insert (cStr desc.name) p.volume.directory = insert desc.name p.volume.directory := by
            rw [NVMeVolume.cStr_name]
          cases opened with
          | false => rfl
          | true =>
              cases allocated with
              | false => exact congrArg (NVMeVolume.mk (m.deleteFile desc.slotIndex.toNat).2) hinsert.symm
              | true =>
                  dsimp only
                  cases createHostFd env env.pageSize fileSize <;> exact congrArg (NVMeVolume.mk m) hinsert.symm

/-- No file gets an explicit name by them. -/
theorem followsRule_volumeOps (p : MountPath) (op : FilesOp) (v : NVMeVolume) :
    Along NVMeVolume.apply NVMeVolume.FollowsRule v (op.volumeOps p) := by
  cases op with
  | delete nvmeFileId => exact ⟨trivial, trivial⟩
  | create env opened allocated fileSize now =>
      refine ⟨trivial, ?_⟩
      cases (p.volume.fileManager.createFileAuto fileSize now).1 with
      | none => trivial
      | some desc =>
          dsimp only
          split_ifs
          · exact ⟨trivial, trivial⟩
          · exact ⟨trivial, trivial, trivial⟩
          · exact ⟨trivial, trivial⟩

/-- **Every run on a mount path is a run of its volume**, in which files with explicit names play no part. -/
theorem volume_run (p : MountPath) (ops : List FilesOp) : ∃ volumeOps,
    (ops.foldl apply p).volume = p.volume.run volumeOps ∧
      Along NVMeVolume.apply NVMeVolume.FollowsRule p.volume volumeOps := by
  induction ops generalizing p with
  | nil => exact ⟨[], rfl, trivial⟩
  | cons op ops ih =>
      obtain ⟨volumeOps, hrun, hrule⟩ := ih (p.apply op)
      rw [volume_apply] at hrun hrule
      refine ⟨op.volumeOps p ++ volumeOps, ?_, ?_⟩
      · exact hrun.trans (List.foldl_append ..).symm
      · rw [along_append]
        exact ⟨followsRule_volumeOps p op p.volume, hrule⟩

/-- **The names of the files stay their numbers**, along every run. -/
theorem numberedNames_files (hinv : Inv p.volume.fileManager) (hnames : p.volume.NumberedNames) (ops : List FilesOp) :
    (ops.foldl apply p).volume.NumberedNames := by
  obtain ⟨volumeOps, hrun, hrule⟩ := p.volume_run ops
  rw [hrun]
  exact NVMeVolume.numberedNames_run hinv hnames hrule

/-- A file is created on pages of the controller, and the process goes on. -/
def FilesOp.GoesOn (pageSize : ℕ) : FilesOp → Prop
  | .create env _ _ fileSize _ => env.pageSize = pageSize ∧ (createHostFd env env.pageSize fileSize).isSome = true
  | .delete _ => True

theorem pageSize_applyController (c : NVMeController) (op : FilesOp) :
    (applyController c op).pageSize = c.pageSize := by
  cases op with
  | delete nvmeFileId => rfl
  | create env opened allocated fileSize now =>
      rw [applyController, NVMeController.hostFileCreateManaged]
      cases firstFree MAX_RECORDS fun slot => (c.files slot).isSome with
      | none => rfl
      | some slot =>
          dsimp only
          split_ifs
          · rfl
          · cases space env opened allocated fileSize <;> rfl

/-- **A controller and its mount path go on with each other**, along every run. -/
theorem holds_run (h : p.Holds c) (ops : List FilesOp) (hops : ∀ op ∈ ops, op.GoesOn c.pageSize) :
    (ops.foldl apply p).Holds (ops.foldl applyController c) := by
  induction ops generalizing p c with
  | nil => exact h
  | cons op ops ih =>
      rw [List.forall_mem_cons] at hops
      have hone : (p.apply op).Holds (applyController c op) := by
        cases op with
        | create env opened allocated fileSize now =>
            exact (h.create env hops.1.1 opened allocated fileSize now hops.1.2).2
        | delete nvmeFileId => exact h.delete nvmeFileId
      refine ih hone ?_
      rw [pageSize_applyController]
      exact hops.2

end MountPath

end GeminiFS
end InfiniKV
