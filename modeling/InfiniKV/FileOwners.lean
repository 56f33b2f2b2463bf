/-
**Who owns the NVMe files.**

A GPU file has an NVMe file on each of the first four controllers, and gives it back when it is deleted.  The
slots of NVMe files are used again, so that what keeps two GPU files apart is that each of them has files in slots
of its own, whatever is created and deleted.

The files that are open on the device are found by controller and slot, and are not closed when a GPU file is
deleted.  A file that gets the slot later is then taken to be open, with the header of the old one.

Main definitions:

* `InfiniKV.GeminiFS.GPUFileManager.FileOp`, `fileStep` — the operations of the manager;
* `InfiniKV.GeminiFS.GPUFileManager.Owners` — each GPU file has NVMe files, and none has those of another;
* `InfiniKV.GeminiFS.GPUFileManager.OpenRight` — what is open on the device are the files of the controllers;
* `InfiniKV.GeminiFS.GPUFileManager.NotOpened` — what is deleted was not opened.

Main results:

* `InfiniKV.GeminiFS.GPUFileManager.owners_of_run` — **no two GPU files ever have one NVMe file**;
* `InfiniKV.GeminiFS.GPUFileManager.openRight_along_iff` — **when the open files are right**.
-/

import InfiniKV.CreateFiles
import InfiniKV.PoolInit
import InfiniKV.Runs
import InfiniKV.SliceAccess

set_option relaxedAutoImplicit false
set_option autoImplicit false

namespace InfiniKV
namespace GeminiFS

/-! ### Creating NVMe files -/

namespace NVMeController

variable {c c' : NVMeController} {fileSize : ℕ}

/-- Nothing has been created. -/
theorem Created.refl (c : NVMeController) : c.Created [] c :=
  ⟨List.nodup_nil, by simp, by simp, by simp, fun _ _ => rfl, rfl, rfl, rfl⟩

/-- One file has been created. -/
theorem created_singleton {space : Option (List FiemapExtent)} {id : ℕ}
    (h : c.hostFileCreateManaged fileSize space = some (id, c')) : c.Created [id] c' := by
  obtain ⟨hlt, hfree, -, -, hdr, rfl⟩ := hostFileCreateManaged_some h
  refine ⟨List.nodup_singleton id, ?_, ?_, ?_, ?_, rfl, rfl, rfl⟩
  · rw [List.forall_mem_singleton]
    exact hlt
  · rw [List.forall_mem_singleton]
    exact hfree
  · rw [List.forall_mem_singleton]
    dsimp only
    rw [Function.update_self]
    rfl
  · intro id' hid'
    exact Function.update_of_ne (List.ne_of_not_mem_cons hid') _ _

/-- A file that was there is still there. -/
theorem Created.files_eq {ids : List ℕ} (h : c.Created ids c') {id : ℕ} {hdr : GeminiHdr}
    (hfile : c.files id = some hdr) : c'.files id = some hdr := by
  have hother : id ∉ ids := by
    intro hid
    rw [h.fresh id hid] at hfile
    cases hfile
  rw [h.other id hother, hfile]

end NVMeController

/-- **A GPU file that cannot be created** leaves the controllers as they were. -/
theorem createAcross_none {fileSize : ℕ} {space : ℕ → Option (List FiemapExtent)} (cs : List NVMeController)
    {i : ℕ} {cs' : List NVMeController} (h : createAcross fileSize space cs i = (none, cs')) : cs' = cs := by
  induction cs generalizing i cs' with
  | nil => cases h
  | cons c rest ih =>
      rw [createAcross] at h
      split_ifs at h
      · cases h
      · cases hcreate : c.hostFileCreateManaged fileSize (space i) with
        | none =>
            rw [hcreate] at h
            cases h
            rfl
        | some out =>
            obtain ⟨id, c₁⟩ := out
            obtain ⟨-, hfree, -, -, hdr, rfl⟩ := NVMeController.hostFileCreateManaged_some hcreate
            rw [hcreate] at h
            dsimp only at h
            cases hrest : createAcross fileSize space rest (i + 1) with
            | mk ids rest' =>
                rw [hrest] at h
                cases ids with
                | none =>
                    cases h
                    rw [NVMeController.hostFileDeleteManaged_update hfree, ih hrest]
                | some ids => cases h

/-- **A GPU file that is created** gets a file on each of the first four controllers. -/
theorem createAcross_some {fileSize : ℕ} {space : ℕ → Option (List FiemapExtent)} (cs : List NVMeController)
    {i : ℕ} {cs' : List NVMeController} {ids : List ℕ}
    (h : createAcross fileSize space cs i = (some ids, cs')) :
    cs'.length = cs.length ∧ ∀ (j : ℕ) (c : NVMeController), cs[j]? = some c → ∃ c', cs'[j]? = some c' ∧
      c.Created (ids[j]?).toList c' ∧ (i + j < 4 → (ids[j]?).isSome = true) := by
  induction cs generalizing i cs' ids with
  | nil =>
      cases h
      exact ⟨rfl, fun j c hc => by rw [List.getElem?_nil] at hc; cases hc⟩
  | cons c rest ih =>
      rw [createAcross] at h
      split_ifs at h with hfour
      · cases h
        refine ⟨rfl, fun j c' hc' => ⟨c', hc', ?_, fun hlt => absurd hlt (by omega)⟩⟩
        rw [List.getElem?_nil]
        exact NVMeController.Created.refl c'
      · cases hcreate : c.hostFileCreateManaged fileSize (space i) with
        | none =>
            rw [hcreate] at h
            cases h
        | some out =>
            obtain ⟨id, c₁⟩ := out
            rw [hcreate] at h
            dsimp only at h
            cases hrest : createAcross fileSize space rest (i + 1) with
            | mk ids' rest' =>
                rw [hrest] at h
                cases ids' with
                | none => cases h
                | some ids' =>
                    cases h
                    obtain ⟨hlen, hcs⟩ := ih hrest
                    refine ⟨congrArg (· + 1) hlen, fun j c' hc' => ?_⟩
                    cases j with
                    | zero =>
                        cases hc'
                        exact ⟨c₁, rfl, NVMeController.created_singleton hcreate, fun _ => rfl⟩
                    | succ j =>
                        obtain ⟨c'', hc'', hcreated, hsome⟩ := hcs j c' hc'
                        exact ⟨c'', hc'', hcreated, fun hlt => hsome (by omega)⟩

/-- A GPU file that cannot be created leaves the controllers as they were. -/
theorem createNVMeFilesForGPUFile_none {cs cs' : List NVMeController} {fileSize : ℕ}
    {space : ℕ → Option (List FiemapExtent)} (h : createNVMeFilesForGPUFile cs fileSize space = (none, cs')) :
    cs' = cs := by
  rw [createNVMeFilesForGPUFile] at h
  split_ifs at h
  · cases h
    rfl
  · cases h
    rfl
  · exact createAcross_none cs h

namespace GPUFileManager

/-! ### Owners -/

/-- Each GPU file has an NVMe file on each of the first four controllers, and none has one of another. -/
structure Owners (m : GPUFileManager) : Prop where
  isValid : ∀ fileId desc, m.descs.lookup fileId = some desc → desc.nvmeMapping.isValid = true
  has : ∀ fileId desc, m.descs.lookup fileId = some desc → ∀ (j : ℕ) (c : NVMeController), j < 4 →
    m.nvmeControllers[j]? = some c → desc.nvmeMapping.hasNvmeController j = true ∧
      ∃ hdr, c.files (desc.nvmeMapping.fileId j) = some hdr
  apart : ∀ fileId fileId' desc desc', m.descs.lookup fileId = some desc → m.descs.lookup fileId' = some desc' →
    fileId ≠ fileId' → ∀ j < min m.nvmeControllers.length 4,
      desc.nvmeMapping.fileId j ≠ desc'.nvmeMapping.fileId j

variable {m m' : GPUFileManager}

/-- New GPU files have NVMe files in slots that were free, each its own. -/
structure NewFiles (m m' : GPUFileManager) (new : ℕ → GPUFileDesc → Prop) : Prop where
  isValid : ∀ fileId desc, new fileId desc → desc.nvmeMapping.isValid = true
  has : ∀ fileId desc, new fileId desc → ∀ (j : ℕ) (c c' : NVMeController), j < 4 →
    m.nvmeControllers[j]? = some c → m'.nvmeControllers[j]? = some c' →
      desc.nvmeMapping.hasNvmeController j = true ∧ c.files (desc.nvmeMapping.fileId j) = none ∧
        ∃ hdr, c'.files (desc.nvmeMapping.fileId j) = some hdr
  apart : ∀ fileId fileId' desc desc', new fileId desc → new fileId' desc' → fileId ≠ fileId' →
    ∀ j < min m.nvmeControllers.length 4, desc.nvmeMapping.fileId j ≠ desc'.nvmeMapping.fileId j

/-- The NVMe files that were there are still there. -/
def KeepsFiles (m m' : GPUFileManager) : Prop :=
  m'.nvmeControllers.length = m.nvmeControllers.length ∧
    ∀ (j : ℕ) (c : NVMeController), m.nvmeControllers[j]? = some c → ∃ c', m'.nvmeControllers[j]? = some c' ∧
      (c'.pageSize = c.pageSize ∧ c'.blkSizeLog = c.blkSizeLog) ∧
      ∀ id hdr, c.files id = some hdr → c'.files id = some hdr

/-- What creating GPU files does: the files that were there stay, and nothing is opened. -/
structure Creates (m m' : GPUFileManager) : Prop where
  keeps : KeepsFiles m m'
  devFds : m'.devFds = m.devFds
  ctxs : m'.ctxs = m.ctxs
  old : ∀ fileId desc, m.descs.lookup fileId = some desc → m'.descs.lookup fileId = some desc
  new : ∃ new, NewFiles m m' new ∧
    ∀ fileId desc, m'.descs.lookup fileId = some desc → m.descs.lookup fileId = some desc ∨ new fileId desc

/-- What deleting a GPU file does: its own NVMe files are deleted, and what was opened stays open. -/
structure Deletes (m m' : GPUFileManager) (fileId : ℕ) (desc : GPUFileDesc) : Prop where
  lookup : m.descs.lookup fileId = some desc
  controllers : m'.nvmeControllers = deleteNVMeFilesForGPUFile m.nvmeControllers desc.nvmeMapping
  descs : m'.descs = m.descs.erase fileId
  devFds : m'.devFds = m.devFds
  ctxs : m'.ctxs = m.ctxs

theorem KeepsFiles.refl (h : m'.nvmeControllers = m.nvmeControllers) : KeepsFiles m m' :=
  ⟨congrArg List.length h, fun _ c hc => ⟨c, h ▸ hc, ⟨rfl, rfl⟩, fun _ _ hhdr => hhdr⟩⟩

/-- Deleting NVMe files in slots that were free keeps the files that were there. -/
theorem KeepsFiles.deletes {mappings : List CompactNVMeMapping} (h : KeepsFiles m m')
    (hfresh : ∀ mapping ∈ mappings, ∀ (j : ℕ) (c : NVMeController), m.nvmeControllers[j]? = some c →
      mapping.hasNvmeController j = true → c.files (mapping.fileId j) = none)
    {m'' : GPUFileManager}
    (hcs : m''.nvmeControllers = mappings.foldl deleteNVMeFilesForGPUFile m'.nvmeControllers) :
    KeepsFiles m m'' := by
  induction mappings generalizing m' with
  | nil =>
      rw [KeepsFiles, hcs]
      exact h
  | cons mapping mappings ih =>
      refine @ih { m' with nvmeControllers := deleteNVMeFilesForGPUFile m'.nvmeControllers mapping } ?_
        (fun mapping' hmem => hfresh mapping' (List.mem_cons_of_mem _ hmem)) hcs
      obtain ⟨hlength, hkept⟩ := h
      simp only [KeepsFiles, deleteNVMeFilesForGPUFile]
      split_ifs
      · refine ⟨by rw [List.length_mapIdx, hlength], fun j c hc => ?_⟩
        obtain ⟨c', hc', hframe, hfiles⟩ := hkept j c hc
        refine ⟨_, by rw [List.getElem?_mapIdx, hc']; rfl, ?_⟩
        split_ifs with hhas
        · refine ⟨hframe, fun id hdr hhdr => ?_⟩
          have hne : id ≠ mapping.fileId j := by
            rintro rfl
            rw [hfresh mapping List.mem_cons_self j c hc hhas] at hhdr
            cases hhdr
          exact (Function.update_of_ne hne none c'.files).trans (hfiles id hdr hhdr)
        · exact ⟨hframe, hfiles⟩
      · exact ⟨hlength, hkept⟩

/-- No GPU file is new. -/
theorem Creates.keep (hkeeps : KeepsFiles m m') (hdevFds : m'.devFds = m.devFds) (hctxs : m'.ctxs = m.ctxs)
    (hdescs : m'.descs = m.descs) : Creates m m' := by
  refine ⟨hkeeps, hdevFds, hctxs, fun fileId desc hdesc => hdescs ▸ hdesc, fun _ _ => False,
    ⟨fun _ _ h => h.elim, fun _ _ h => h.elim, fun _ _ _ _ h => h.elim⟩, fun fileId desc hdesc => ?_⟩
  rw [hdescs] at hdesc
  exact Or.inl hdesc

theorem Creates.refl (m : GPUFileManager) : Creates m m := Creates.keep (KeepsFiles.refl rfl) rfl rfl rfl

/-! ### What the operations do -/

/-- The records of several files, each in its slot. -/
theorem takeSlots_lookup_cases (m : GPUFileManager) (files : List (ℕ × GPUFileDesc)) {fileId : ℕ}
    {desc : GPUFileDesc} (h : (m.takeSlots files).descs.lookup fileId = some desc) :
    m.descs.lookup fileId = some desc ∨ (fileId, desc) ∈ files := by
  induction files generalizing m with
  | nil => exact Or.inl h
  | cons file files ih =>
      rcases ih (m.takeSlot file.1 file.2) h with hrest | hmem
      · rcases eq_or_ne fileId file.1 with rfl | hne
        · rw [GPUFileManager.takeSlot, AList.lookup_insert] at hrest
          exact Or.inr (List.mem_cons.2 (Or.inl (Prod.ext rfl (Option.some.inj hrest).symm)))
        · rw [GPUFileManager.takeSlot, AList.lookup_insert_ne hne] at hrest
          exact Or.inl hrest
      · exact Or.inr (List.mem_cons_of_mem _ hmem)

/-- **Records that are taken in free slots** create GPU files. -/
theorem creates_of_takeSlots {cs : List NVMeController} {files : List (ℕ × GPUFileDesc)} (n : ℕ)
    (hkeeps : KeepsFiles m { m with nvmeControllers := cs }) (hfree : ∀ file ∈ files, file.1 ∉ m.descs)
    (hnew : NewFiles m { m with nvmeControllers := cs } fun fileId desc => (fileId, desc) ∈ files) :
    Creates m (countWrites (takeSlots { m with nvmeControllers := cs } files) n) := by
  obtain ⟨hctxs, hdevFds, hcs⟩ := takeSlots_frame { m with nvmeControllers := cs } files
  refine ⟨?_, ?_, ?_, ?_, fun fileId desc => (fileId, desc) ∈ files, ?_, ?_⟩
  · rw [KeepsFiles, countWrites_nvmeControllers, hcs]
    exact hkeeps
  · rw [countWrites_devFds, hdevFds]
  · rw [countWrites_ctxs, hctxs]
  · intro fileId desc hdesc
    rw [countWrites_descs, takeSlots_lookup_of_notMem]
    · exact hdesc
    · intro hmem
      obtain ⟨file, hfile, rfl⟩ := List.mem_map.1 hmem
      exact hfree file hfile (AList.lookup_isSome.1 (by rw [hdesc]; rfl))
  · refine ⟨hnew.isValid, ?_, hnew.apart⟩
    rw [countWrites_nvmeControllers, hcs]
    exact hnew.has
  · intro fileId desc hdesc
    rw [countWrites_descs] at hdesc
    exact takeSlots_lookup_cases { m with nvmeControllers := cs } files hdesc

/-- A mapping has the files that have been created, one on each of the first four controllers. -/
theorem mapping_of_ids {ids : List ℕ} {j : ℕ} {c c' : NVMeController} (hj : j < 4)
    (hcreated : c.Created (ids[j]?).toList c') (hsome : (ids[j]?).isSome = true) :
    (CompactNVMeMapping.ofFiles ids).hasNvmeController j = true ∧
      c.files ((CompactNVMeMapping.ofFiles ids).fileId j) = none ∧
      ∃ hdr, c'.files ((CompactNVMeMapping.ofFiles ids).fileId j) = some hdr := by
  obtain ⟨id, hid⟩ := Option.isSome_iff_exists.1 hsome
  have hmem : id ∈ (ids[j]?).toList := by
    rw [hid]
    exact List.mem_singleton_self id
  have hlt := hcreated.lt id hmem
  rw [MAX_RECORDS_eq] at hlt
  rw [CompactNVMeMapping.fileId_ofFiles ids hj hid, Nat.mod_eq_of_lt (by omega)]
  exact ⟨CompactNVMeMapping.hasNvmeController_ofFiles ids hj (List.getElem?_eq_some_iff.1 hid).1,
    hcreated.fresh id hmem, Option.isSome_iff_exists.1 (hcreated.present id hmem)⟩

/-- The NVMe files of a GPU file are new, each in a slot that was free. -/
theorem newFiles_createAcross {fileSize : ℕ} {space : ℕ → Option (List FiemapExtent)} {ids : List ℕ}
    {cs : List NVMeController} (hcreate : createAcross fileSize space m.nvmeControllers 0 = (some ids, cs))
    (slot totalFileSize : ℕ) (tensorShape : List ℕ) :
    KeepsFiles m { m with nvmeControllers := cs } ∧
      NewFiles m { m with nvmeControllers := cs } fun fileId desc =>
        (fileId, desc) ∈ [(slot, GPUFileDesc.new slot totalFileSize tensorShape ids)] := by
  obtain ⟨hlength, hkept⟩ := createAcross_some _ hcreate
  refine ⟨⟨hlength, fun j c hc => ?_⟩, ?_, ?_, ?_⟩
  · obtain ⟨c', hc', hcreated, -⟩ := hkept j c hc
    exact ⟨c', hc', ⟨hcreated.frame.1, hcreated.frame.2.1⟩, fun id hdr hhdr => hcreated.files_eq hhdr⟩
  · intro fileId desc hfile
    cases List.mem_singleton.1 hfile
    exact CompactNVMeMapping.isValid_ofFiles ids
  · intro fileId desc hfile j c c' hj hc hc'
    cases List.mem_singleton.1 hfile
    obtain ⟨c'', hc'', hcreated, hsome⟩ := hkept j c hc
    obtain rfl : c' = c'' := Option.some.inj (hc'.symm.trans hc'')
    rw [nvmeMapping_new]
    exact mapping_of_ids hj hcreated (hsome (by omega))
  · intro fileId fileId' desc desc' hfile hfile' hne
    cases List.mem_singleton.1 hfile
    cases List.mem_singleton.1 hfile'
    exact absurd rfl hne

/-- A new GPU file is in no NVMe file that was there. -/
theorem NewFiles.fresh {new : ℕ → GPUFileDesc → Prop} (h : NewFiles m m' new) (hkeeps : KeepsFiles m m')
    {fileId : ℕ} {desc : GPUFileDesc} (hnew : new fileId desc) {j : ℕ} {c : NVMeController}
    (hc : m.nvmeControllers[j]? = some c) (hhas : desc.nvmeMapping.hasNvmeController j = true) :
    c.files (desc.nvmeMapping.fileId j) = none := by
  have hj : j < 4 := by
    by_contra hle
    rw [hasNvmeController_of_le _ (Nat.not_lt.1 hle)] at hhas
    cases hhas
  obtain ⟨c', hc', -⟩ := hkeeps.2 j c hc
  exact (h.has fileId desc hnew j c c' hj hc hc').2.1

/-- **Creating a file**, whose record may not be written: its NVMe files are then deleted. -/
theorem creates_createGPUFileWriting (m : GPUFileManager) (totalFileSize : ℕ) (tensorShape : List ℕ)
    (space : ℕ → Option (List FiemapExtent)) (writes : Bool) :
    Creates m (m.createGPUFileWriting totalFileSize tensorShape space writes).2 := by
  rw [GPUFileManager.createGPUFileWriting]
  cases m.findNextFreeSlot with
  | none => exact Creates.refl m
  | some slot =>
      dsimp only
      by_cases htaken : slot ∈ m.descs
      · rw [if_pos htaken]
        exact Creates.refl m
      rw [if_neg htaken]
      by_cases hshape : tensorShape.length ≠ 3
      · rw [if_pos hshape]
        exact Creates.refl m
      rw [if_neg hshape]
      cases hcreate : createNVMeFilesForGPUFile m.nvmeControllers totalFileSize space with
      | mk ids cs =>
          cases ids with
          | none =>
              obtain rfl := createNVMeFilesForGPUFile_none hcreate
              exact Creates.refl m
          | some ids =>
              obtain ⟨hkeeps, hnew⟩ := newFiles_createAcross (createNVMeFilesForGPUFile_eq_some hcreate).2 slot
                totalFileSize tensorShape
              cases writes with
              | true =>
                  refine creates_of_takeSlots 1 hkeeps (fun file hfile => ?_) hnew
                  rw [List.mem_singleton.1 hfile]
                  exact htaken
              | false =>
                  refine Creates.keep (@KeepsFiles.deletes _ _
                    [(GPUFileDesc.new slot totalFileSize tensorShape ids).nvmeMapping] hkeeps ?_ _ rfl) rfl rfl rfl
                  intro mapping hmapping j c hc hhas
                  rw [List.mem_singleton.1 hmapping] at hhas ⊢
                  exact hnew.fresh hkeeps (List.mem_singleton_self _) hc hhas

/-- The tasks of `createGPUFiles` keep the NVMe files, whether they succeed or not. -/
theorem keepsFiles_tasks (m : GPUFileManager) (totalFileSize toCreate : ℕ)
    (space : ℕ → ℕ → Option (List FiemapExtent))
    (hcs : m'.nvmeControllers = (m.createNVMeFilesTasks totalFileSize toCreate space).map Prod.snd) :
    KeepsFiles m m' := by
  refine ⟨by rw [hcs, List.length_map, createNVMeFilesTasks, List.length_mapIdx], fun j c hc => ?_⟩
  refine ⟨(c.createNVMeFilesPerDevice totalFileSize m.nvmeControllers.length toCreate (space j)).2, ?_, ?_⟩
  · rw [hcs, List.getElem?_map, getElem?_createNVMeFilesTasks, hc]
    rfl
  · rcases c.createNVMeFilesPerDevice_cases totalFileSize m.nvmeControllers.length toCreate (space j) with
      ⟨-, ids, -, -, hcreated, -⟩ | ⟨-, hsame, -⟩
    · exact ⟨⟨hcreated.frame.1, hcreated.frame.2.1⟩, fun id hdr hhdr => hcreated.files_eq hhdr⟩
    · rw [hsame]
      exact ⟨⟨rfl, rfl⟩, fun id hdr hhdr => hhdr⟩

/-- The NVMe files of several GPU files are new: the `i`-th GPU file has the `i`-th of the files that the task on each
controller has created. -/
theorem newFiles_tasks {totalFileSize toCreate : ℕ} {tensorShape : List ℕ}
    {space : ℕ → ℕ → Option (List FiemapExtent)} (hprepares : m.Prepares totalFileSize toCreate tensorShape space) :
    NewFiles m { m with nvmeControllers := (m.createNVMeFilesTasks totalFileSize toCreate space).map Prod.snd }
      fun fileId desc => (fileId, desc) ∈ (m.findMultipleFreeSlots toCreate).mapIdx fun i slot =>
        (slot, GPUFileDesc.new slot totalFileSize tensorShape
          ((m.createNVMeFilesTasks totalFileSize toCreate space).map fun result => (result.1.getD []).getD i 0)) := by
  have hslots := hprepares.slots
  refine ⟨?_, ?_, ?_⟩
  · intro fileId desc hfile
    obtain ⟨i, hi, heq⟩ := List.mem_mapIdx.1 hfile
    cases heq
    exact CompactNVMeMapping.isValid_ofFiles _
  · intro fileId desc hfile j c c' hj hc hc'
    obtain ⟨i, hi, heq⟩ := List.mem_mapIdx.1 hfile
    cases heq
    obtain ⟨ids, c'', hresult, hlen, hcreated⟩ := task_created hprepares.tasks hc
    rw [List.getElem?_map, hresult, Option.map_some] at hc'
    obtain rfl : c'' = c' := Option.some.inj hc'
    obtain ⟨hhas, hid⟩ := mapping_of_results hresult hcreated.lt (show i < ids.length by omega) hj
    have hmem := List.mem_of_getElem? hid
    rw [nvmeMapping_new]
    exact ⟨hhas, hcreated.fresh _ hmem, Option.isSome_iff_exists.1 (hcreated.present _ hmem)⟩
  · intro fileId fileId' desc desc' hfile hfile' hne j hj heq
    obtain ⟨i, hi, hfile⟩ := List.mem_mapIdx.1 hfile
    cases hfile
    obtain ⟨i', hi', hfile'⟩ := List.mem_mapIdx.1 hfile'
    cases hfile'
    obtain ⟨ids, c', hresult, hlen, hcreated⟩ :=
      task_created hprepares.tasks (List.getElem?_eq_getElem (show j < m.nvmeControllers.length by omega))
    have hid := (mapping_of_results hresult hcreated.lt (show i < ids.length by omega) (by omega)).2
    have hid' := (mapping_of_results hresult hcreated.lt (show i' < ids.length by omega) (by omega)).2
    rw [nvmeMapping_new, nvmeMapping_new] at heq
    rw [← heq, ← hid] at hid'
    -- two ids that are equal are the same one, and so are the slots
    obtain rfl : i' = i := (List.getElem?_inj (by omega) hcreated.nodup).1 hid'
    exact hne rfl

/-- **Creating several files**, whose records can all be written. -/
theorem creates_createGPUFiles {totalFileSize toCreate : ℕ} {tensorShape : List ℕ}
    {space : ℕ → ℕ → Option (List FiemapExtent)} {out : Option (List ℕ)}
    (hcreate : m.createGPUFiles totalFileSize toCreate tensorShape space = some (out, m')) : Creates m m' := by
  by_cases hprepares : m.Prepares totalFileSize toCreate tensorShape space
  · rw [createGPUFiles_of_prepares hprepares] at hcreate
    cases hcreate
    refine creates_of_takeSlots toCreate (keepsFiles_tasks m totalFileSize toCreate space rfl) ?_
      (newFiles_tasks hprepares)
    intro file hfile
    obtain ⟨i, hi, rfl⟩ := List.mem_mapIdx.1 hfile
    exact hprepares.fresh _ (List.getElem_mem hi)
  · simp only [GPUFileManager.createGPUFiles] at hcreate
    split_ifs at hcreate with hshape hslots htaken htasks
    · cases hcreate
      exact Creates.refl _
    · cases hcreate
      exact Creates.keep (KeepsFiles.refl rfl) rfl rfl rfl
    · cases hcreate
      exact Creates.keep (keepsFiles_tasks m totalFileSize toCreate space rfl) rfl rfl rfl
    · refine absurd ⟨not_not.1 hshape, not_not.1 hslots, fun slot hslot hmem => ?_, ?_⟩ hprepares
      · exact htaken (List.any_eq_true.2 ⟨slot, hslot, decide_eq_true hmem⟩)
      · rw [Bool.not_eq_true', Bool.not_eq_false] at htasks
        exact all_taskOk_iff.1 htasks

/-- **Creating several files**, of which a record may not be written: the NVMe files of the GPU files up to that one
are then deleted. -/
theorem creates_createGPUFilesWriting {totalFileSize toCreate : ℕ} {tensorShape : List ℕ}
    {space : ℕ → ℕ → Option (List FiemapExtent)} {writes : ℕ → Bool} {out : Option (List ℕ)}
    (hcreate : m.createGPUFilesWriting totalFileSize toCreate tensorShape space writes = some (out, m')) :
    Creates m m' := by
  by_cases hprepares : m.Prepares totalFileSize toCreate tensorShape space
  · rcases @createGPUFilesWriting_of_prepares _ _ _ _ _ writes hprepares with
      ⟨-, hcall⟩ | ⟨j, hj, -, -, log, hcall⟩
    · exact creates_createGPUFiles (hcall ▸ hcreate)
    · rw [hcall] at hcreate
      cases hcreate
      have hkeeps : KeepsFiles m { m with
          nvmeControllers := (m.createNVMeFilesTasks totalFileSize toCreate space).map Prod.snd } :=
        keepsFiles_tasks m totalFileSize toCreate space rfl
      refine Creates.keep (hkeeps.deletes ?_ rfl) rfl rfl rfl
      intro mapping hmapping k c hc hhas
      obtain ⟨i, hi, rfl⟩ := List.mem_map.1 hmapping
      rw [List.mem_range] at hi
      have hlt : i < (m.findMultipleFreeSlots toCreate).length := by rw [hprepares.slots]; omega
      exact (newFiles_tasks hprepares).fresh hkeeps (List.mem_mapIdx.2 ⟨i, hlt, rfl⟩) hc hhas
  · exact creates_createGPUFiles (createGPUFilesWriting_of_not_prepares hprepares ▸ hcreate)

/-- **What an operation on the files does**: it creates, or it deletes a file that is there. -/
theorem logStep_cases {op : LogOp} (h : m.logStep op = some m') :
    (Creates m m' ∧ ∀ fileId, op = .deleteGPUFile fileId → m.descs.lookup fileId = none) ∨
      ∃ fileId desc, op = .deleteGPUFile fileId ∧ Deletes m m' fileId desc := by
  cases op with
  | createGPUFile totalFileSize tensorShape space =>
      cases h
      exact Or.inl ⟨creates_createGPUFileWriting m totalFileSize tensorShape space true, fun fileId hop => by cases hop⟩
  | createGPUFiles totalFileSize toCreate tensorShape space =>
      rw [logStep, Option.map_eq_some_iff] at h
      obtain ⟨⟨out, m₁⟩, hcreate, rfl⟩ := h
      exact Or.inl ⟨creates_createGPUFiles hcreate, fun fileId hop => by cases hop⟩
  | deleteGPUFile fileId =>
      rw [logStep, Option.some_inj, GPUFileManager.deleteGPUFile] at h
      cases hdesc : m.descs.lookup fileId with
      | none =>
          rw [hdesc] at h
          cases h
          refine Or.inl ⟨Creates.refl m, fun fileId' hop => ?_⟩
          cases hop
          exact hdesc
      | some desc =>
          rw [hdesc] at h
          cases h
          refine Or.inr ⟨fileId, desc, rfl, hdesc, ?_, ?_, ?_, ?_⟩
          · rw [countWrites_nvmeControllers]
          · rw [countWrites_descs]
          · rw [countWrites_devFds]
          · rw [countWrites_ctxs]
  | forcePersist =>
      cases h
      exact Or.inl ⟨Creates.keep (KeepsFiles.refl rfl) rfl rfl rfl, fun fileId hop => by cases hop⟩

/-- Serving files leaves the records and the controllers as they are. -/
theorem serveStep_frame {op : ServeOp} (h : m.serveStep op = some m') :
    m'.descs = m.descs ∧ m'.nvmeControllers = m.nvmeControllers := by
  cases op with
  | initGPUFile fileId allocated =>
      obtain ⟨devFds, freeList, heq, -⟩ := initGPUFile_frame m fileId allocated
      rw [serveStep, heq] at h
      cases h
      exact ⟨rfl, rfl⟩
  | openGPUFile allocated =>
      rw [serveStep, GPUFileManager.openGPUFile] at h
      cases hlast : m.freeList.getLast? with
      | none =>
          rw [hlast] at h
          cases h
          exact ⟨rfl, rfl⟩
      | some fileId =>
          cases hdev : m.getDevFdById fileId with
          | none => simp [hlast, hdev] at h
          | some devFds =>
              simp only [hlast, hdev, Option.bind_eq_bind, Option.bind_some] at h
              split_ifs at h
              · cases h
                exact ⟨rfl, rfl⟩
              · cases h
                exact ⟨rfl, rfl⟩
  | closeGPUFile fileId =>
      rw [serveStep, GPUFileManager.closeGPUFile] at h
      split_ifs at h
      · cases h
        exact ⟨rfl, rfl⟩
      · cases h
        exact ⟨rfl, rfl⟩

/-! ### The owners -/

/-- **Creating files** keeps the owners apart: what is created is in free slots. -/
theorem Owners.creates (h : Owners m) (hcreates : Creates m m') : Owners m' := by
  obtain ⟨⟨hlength, hkept⟩, -, -, -, new, hnew, hdescs⟩ := hcreates
  -- a new file is in a slot that was free, an old one in a slot that was taken
  have hfresh : ∀ fileId fileId' desc desc', m.descs.lookup fileId = some desc → new fileId' desc' →
      ∀ j < min m.nvmeControllers.length 4, desc.nvmeMapping.fileId j ≠ desc'.nvmeMapping.fileId j := by
    intro fileId fileId' desc desc' hold hnew' j hj heq
    have hc := List.getElem?_eq_getElem (show j < m.nvmeControllers.length by omega)
    obtain ⟨c', hc', -⟩ := hkept j _ hc
    obtain ⟨-, hdr, hhdr⟩ := h.has fileId desc hold j _ (by omega) hc
    obtain ⟨-, hnone, -⟩ := hnew.has fileId' desc' hnew' j _ c' (by omega) hc hc'
    rw [← heq, hhdr] at hnone
    cases hnone
  constructor
  · intro fileId desc hdesc
    rcases hdescs fileId desc hdesc with hold | hnew'
    · exact h.isValid fileId desc hold
    · exact hnew.isValid fileId desc hnew'
  · intro fileId desc hdesc j c' hj hc'
    have hlt : j < m.nvmeControllers.length := hlength ▸ (List.getElem?_eq_some_iff.1 hc').1
    have hc := List.getElem?_eq_getElem hlt
    obtain ⟨c'', hc'', -, hfiles⟩ := hkept j _ hc
    obtain rfl : c' = c'' := Option.some.inj (hc'.symm.trans hc'')
    rcases hdescs fileId desc hdesc with hold | hnew'
    · obtain ⟨hhas, hdr, hhdr⟩ := h.has fileId desc hold j _ hj hc
      exact ⟨hhas, hdr, hfiles _ hdr hhdr⟩
    · obtain ⟨hhas, -, hhdr⟩ := hnew.has fileId desc hnew' j _ c' hj hc hc'
      exact ⟨hhas, hhdr⟩
  · intro fileId fileId' desc desc' hdesc hdesc' hne j hj
    rw [hlength] at hj
    rcases hdescs fileId desc hdesc with hold | hnew'
    · rcases hdescs fileId' desc' hdesc' with hold' | hnew''
      · exact h.apart fileId fileId' desc desc' hold hold' hne j hj
      · exact hfresh fileId fileId' desc desc' hold hnew'' j hj
    · rcases hdescs fileId' desc' hdesc' with hold' | hnew''
      · exact (hfresh fileId' fileId desc' desc hold' hnew' j hj).symm
      · exact hnew.apart fileId fileId' desc desc' hnew' hnew'' hne j hj

/-- What deleting the NVMe files of a GPU file leaves on a controller. -/
theorem getElem?_deleteNVMeFilesForGPUFile {mapping : CompactNVMeMapping} (hvalid : mapping.isValid = true)
    (cs : List NVMeController) (j : ℕ) : (deleteNVMeFilesForGPUFile cs mapping)[j]? = (cs[j]?).map fun c =>
      if mapping.hasNvmeController j then c.hostFileDeleteManaged (mapping.fileId j) else c := by
  rw [deleteNVMeFilesForGPUFile, if_pos hvalid, List.getElem?_mapIdx]

/-- The files that are left after a deletion are other ones, and were there before. -/
theorem Deletes.lookup_eq {fileId : ℕ} {desc : GPUFileDesc} (h : Deletes m m' fileId desc) {fileId' : ℕ}
    {desc' : GPUFileDesc} :
    m'.descs.lookup fileId' = some desc' ↔ fileId' ≠ fileId ∧ m.descs.lookup fileId' = some desc' := by
  rw [h.descs]
  rcases eq_or_ne fileId' fileId with rfl | hne
  · rw [AList.lookup_erase]
    exact iff_of_false (fun heq => by cases heq) fun hne => hne.1 rfl
  · rw [AList.lookup_erase_ne hne]
    exact (and_iff_right hne).symm

/-- **Deleting a file**: the NVMe files of the others stay, for none of them is its own. -/
theorem Owners.deletes (h : Owners m) {fileId : ℕ} {desc : GPUFileDesc} (hdeletes : Deletes m m' fileId desc) :
    Owners m' := by
  have hvalid := h.isValid fileId desc hdeletes.lookup
  constructor
  · intro fileId' desc' hdesc'
    exact h.isValid fileId' desc' (hdeletes.lookup_eq.1 hdesc').2
  · intro fileId' desc' hdesc' j c' hj hc'
    obtain ⟨hne, hold⟩ := hdeletes.lookup_eq.1 hdesc'
    rw [hdeletes.controllers, getElem?_deleteNVMeFilesForGPUFile hvalid, Option.map_eq_some_iff] at hc'
    obtain ⟨c, hc, rfl⟩ := hc'
    obtain ⟨hhas, hdr, hhdr⟩ := h.has fileId' desc' hold j c hj hc
    refine ⟨hhas, hdr, ?_⟩
    split_ifs
    · have hlt := (List.getElem?_eq_some_iff.1 hc).1
      rw [NVMeController.hostFileDeleteManaged]
      dsimp only
      rw [Function.update_of_ne (h.apart fileId' fileId desc' desc hold hdeletes.lookup hne j (by omega)), hhdr]
    · exact hhdr
  · intro fileId' fileId'' desc' desc'' hdesc' hdesc'' hne j hj
    rw [hdeletes.controllers, deleteNVMeFilesForGPUFile, if_pos hvalid, List.length_mapIdx] at hj
    exact h.apart fileId' fileId'' desc' desc'' (hdeletes.lookup_eq.1 hdesc').2 (hdeletes.lookup_eq.1 hdesc'').2
      hne j hj

/-! ### Runs -/

/-- An operation of the manager.  The records of files that are created may be written or not. -/
inductive FileOp where
  | log (op : LogOp)
  | createGPUFileWriting (totalFileSize : ℕ) (tensorShape : List ℕ) (space : ℕ → Option (List FiemapExtent))
      (writes : Bool)
  | createGPUFilesWriting (totalFileSize toCreate : ℕ) (tensorShape : List ℕ)
      (space : ℕ → ℕ → Option (List FiemapExtent)) (writes : ℕ → Bool)
  | serve (op : ServeOp)

/-- The manager after an operation, where `none` stands for the undefined behaviour of `createGPUFiles` and the
assertion of `openGPUFile`. -/
def fileStep (m : GPUFileManager) : FileOp → Option GPUFileManager
  | .log op => m.logStep op
  | .createGPUFileWriting totalFileSize tensorShape space writes =>
      some (m.createGPUFileWriting totalFileSize tensorShape space writes).2
  | .createGPUFilesWriting totalFileSize toCreate tensorShape space writes =>
      (m.createGPUFilesWriting totalFileSize toCreate tensorShape space writes).map Prod.snd
  | .serve op => m.serveStep op

/-- **What a step does**: it creates files, or deletes one that is there, or serves files. -/
theorem fileStep_cases {op : FileOp} (h : m.fileStep op = some m') :
    (Creates m m' ∧ ∀ fileId, op = .log (.deleteGPUFile fileId) → m.descs.lookup fileId = none) ∨
      (∃ fileId desc, op = .log (.deleteGPUFile fileId) ∧ Deletes m m' fileId desc) ∨
      ∃ serveOp, op = .serve serveOp ∧ m.serveStep serveOp = some m' := by
  cases op with
  | log op =>
      rcases logStep_cases h with ⟨hcreates, hnone⟩ | ⟨fileId, desc, rfl, hdeletes⟩
      · refine Or.inl ⟨hcreates, fun fileId hop => ?_⟩
        cases hop
        exact hnone fileId rfl
      · exact Or.inr (Or.inl ⟨fileId, desc, rfl, hdeletes⟩)
  | createGPUFileWriting totalFileSize tensorShape space writes =>
      cases h
      exact Or.inl ⟨creates_createGPUFileWriting m totalFileSize tensorShape space writes, fun fileId hop => by cases hop⟩
  | createGPUFilesWriting totalFileSize toCreate tensorShape space writes =>
      obtain ⟨⟨out, m₁⟩, hcreate, rfl⟩ := Option.map_eq_some_iff.1 h
      exact Or.inl ⟨creates_createGPUFilesWriting hcreate, fun fileId hop => by cases hop⟩
  | serve op => exact Or.inr (Or.inr ⟨op, rfl, h⟩)

/-- **One step** keeps the owners apart. -/
theorem Owners.fileStep (h : Owners m) {op : FileOp} (hstep : m.fileStep op = some m') : Owners m' := by
  rcases fileStep_cases hstep with ⟨hcreates, -⟩ | ⟨fileId, desc, -, hdeletes⟩ | ⟨serveOp, -, hserve⟩
  · exact h.creates hcreates
  · exact h.deletes hdeletes
  · obtain ⟨hdescs, hcs⟩ := serveStep_frame hserve
    constructor
    · rw [hdescs]
      exact h.isValid
    · rw [hdescs, hcs]
      exact h.has
    · rw [hdescs, hcs]
      exact h.apart

/-- A manager without a log has no files. -/
theorem owners_construct (memory : LogHeader) (cs : List NVMeController) (persistenceThreshold : ℕ) :
    Owners (construct none memory cs persistenceThreshold) := by
  have hnone := lookup_construct_none memory cs persistenceThreshold
  constructor
  · intro fileId desc hdesc
    rw [hnone] at hdesc
    cases hdesc
  · intro fileId desc hdesc
    rw [hnone] at hdesc
    cases hdesc
  · intro fileId fileId' desc desc' hdesc
    rw [hnone] at hdesc
    cases hdesc

/-- **No two GPU files ever have one NVMe file**, and the NVMe files of each are there, whatever is created,
deleted, set up, opened and closed, and whichever records cannot be written. -/
theorem owners_of_run {memory : LogHeader} {cs : List NVMeController} {persistenceThreshold : ℕ}
    {ops : List FileOp} (hrun : ops.foldlM GPUFileManager.fileStep (construct none memory cs persistenceThreshold) =
      some m) : Owners m :=
  foldlM_inv Owners (fun _ _ _ h hstep => h.fileStep hstep) ops (owners_construct memory cs persistenceThreshold)
    hrun

/-- A file is created and set up, another one is created at the second attempt, and the first one is deleted. -/
theorem owners_of_run_fresh :
    ∃ m, [FileOp.log (.createGPUFile 65536 [2, 1, 32768] fun _ => some [⟨0, 1179648, 69632, 0⟩]),
      .serve (.initGPUFile 0 fun _ => true),
      .createGPUFileWriting 65536 [2, 1, 32768] (fun _ => some [⟨0, 1048576, 69632, 0⟩]) false,
      .log (.createGPUFile 65536 [2, 1, 32768] fun _ => some [⟨0, 1048576, 69632, 0⟩]),
      .log (.deleteGPUFile 0)].foldlM GPUFileManager.fileStep
        (construct none (LogHeader.initial 0 0) [freshController] 2) = some m ∧ Owners m := by
  obtain ⟨m, hrun⟩ : ∃ m, [FileOp.log (.createGPUFile 65536 [2, 1, 32768] fun _ => some [⟨0, 1179648, 69632, 0⟩]),
      .serve (.initGPUFile 0 fun _ => true),
      .createGPUFileWriting 65536 [2, 1, 32768] (fun _ => some [⟨0, 1048576, 69632, 0⟩]) false,
      .log (.createGPUFile 65536 [2, 1, 32768] fun _ => some [⟨0, 1048576, 69632, 0⟩]),
      .log (.deleteGPUFile 0)].foldlM GPUFileManager.fileStep
        (construct none (LogHeader.initial 0 0) [freshController] 2) = some m := ⟨_, rfl⟩
  exact ⟨m, hrun, owners_of_run hrun⟩

/-! ### What is open -/

/-- What is open on the device are files of the controllers, and what a GPU file was opened with are its NVMe
files. -/
structure OpenRight (m : GPUFileManager) : Prop where
  devFds : ∀ (i id : ℕ) (file : NVMeFile), m.devFds.lookup (i, id) = some file →
    ∃ c : NVMeController, m.nvmeControllers[i]? = some c ∧ c.deviceFileOpenManaged id true = some file
  ctxs : ∀ fileId files, m.ctxs.lookup fileId = some files → m.getDevFdById fileId = some files

/-- What is deleted was not set up: none of its NVMe files is open on the device. -/
def NotOpened (m : GPUFileManager) : FileOp → Prop
  | .log (.deleteGPUFile fileId) => ∀ desc, m.descs.lookup fileId = some desc →
      ∀ j, desc.nvmeMapping.hasNvmeController j = true → (j, desc.nvmeMapping.fileId j) ∉ m.devFds
  | _ => True

/-- A file that is open on the device has the header of its file, and the sizes of its controller. -/
theorem deviceFileOpenManaged_eq_some {c : NVMeController} {id : ℕ}
    {file : NVMeFile} : c.deviceFileOpenManaged id true = some file ↔
      c.files id = some file.hdr ∧ file.nvmePageSize = c.pageSize ∧ file.hqpsBlockSizeLog = c.blkSizeLog := by
  obtain ⟨hdr, pageSize, blkSizeLog⟩ := file
  rw [NVMeController.deviceFileOpenManaged, if_pos rfl, Option.map_eq_some_iff]
  constructor
  · rintro ⟨hdr', hhdr, heq⟩
    cases heq
    exact ⟨hhdr, rfl, rfl⟩
  · rintro ⟨hhdr, rfl, rfl⟩
    exact ⟨hdr, hhdr, rfl⟩

theorem OpenRight.serving (h : OpenRight m) : Serving m where
  devFds := fun i id file hfile => by
    obtain ⟨c, hc, hopen⟩ := h.devFds i id file hfile
    exact ⟨c, hc, (deviceFileOpenManaged_eq_some.1 hopen).1⟩
  ctxs := h.ctxs

/-- What every NVMe file that is opened keeps, opening the NVMe files of a GPU file keeps. -/
theorem openNvmeFiles_inv {mapping : CompactNVMeMapping} {allocated : ℕ → Bool} (cs : List NVMeController)
    {i : ℕ} {devFds : AList fun _ : ℕ × ℕ => NVMeFile} (inv : (AList fun _ : ℕ × ℕ => NVMeFile) → Prop)
    (hinsert : ∀ (j : ℕ) (c : NVMeController) (file : NVMeFile) (devFds : AList fun _ : ℕ × ℕ => NVMeFile),
      cs[j]? = some c → c.deviceFileOpenManaged (mapping.fileId (i + j)) true = some file → inv devFds →
        inv (devFds.insert (i + j, mapping.fileId (i + j)) file))
    (h : inv devFds) : inv (openNvmeFiles mapping allocated cs i devFds).2 := by
  induction cs generalizing i devFds with
  | nil => exact h
  | cons c rest ih =>
      have hrest : ∀ (j : ℕ) (c' : NVMeController) (file : NVMeFile)
          (devFds : AList fun _ : ℕ × ℕ => NVMeFile), rest[j]? = some c' →
          c'.deviceFileOpenManaged (mapping.fileId (i + 1 + j)) true = some file → inv devFds →
            inv (devFds.insert (i + 1 + j, mapping.fileId (i + 1 + j)) file) := by
        intro j c' file devFds hc' hopen hinv
        have hshift : i + 1 + j = i + (j + 1) := by omega
        rw [hshift] at hopen ⊢
        exact hinsert (j + 1) c' file devFds hc' hopen hinv
      rw [openNvmeFiles]
      split_ifs
      · exact h
      · exact ih hrest h
      · cases hopen : c.deviceFileOpenManaged (mapping.fileId i) (allocated i) with
        | none => exact h
        | some file =>
            have hopen' : c.deviceFileOpenManaged (mapping.fileId i) true = some file := by
              rw [NVMeController.deviceFileOpenManaged] at hopen ⊢
              split_ifs at hopen
              exact hopen
            exact ih hrest (hinsert 0 c file devFds rfl hopen' h)

/-- What is found for a file does not depend on what the controllers hold. -/
theorem collectDevFds_congr {mapping : CompactNVMeMapping} {devFds : AList fun _ : ℕ × ℕ => NVMeFile}
    {cs cs' : List NVMeController} (hlength : cs'.length = cs.length) (i : ℕ) :
    collectDevFds mapping devFds cs' i = collectDevFds mapping devFds cs i := by
  induction cs generalizing cs' i with
  | nil =>
      rw [List.length_eq_zero_iff.1 hlength]
  | cons c rest ih =>
      cases cs' with
      | nil => cases hlength
      | cons c' rest' =>
          have hrest := fun i => ih (Nat.succ.inj hlength) i
          rw [collectDevFds, collectDevFds, hrest]

/-- What is found for a file that has its record still. -/
theorem getDevFdById_congr {fileId : ℕ} {desc : GPUFileDesc} (hdesc : m.descs.lookup fileId = some desc)
    (hdesc' : m'.descs.lookup fileId = some desc) (hdevFds : m'.devFds = m.devFds)
    (hlength : m'.nvmeControllers.length = m.nvmeControllers.length) :
    m'.getDevFdById fileId = m.getDevFdById fileId := by
  rw [getDevFdById, getDevFdById, hdesc, hdesc', hdevFds, hlength]
  dsimp only
  rw [collectDevFds_congr hlength]

/-- A file for which something is found has a record, and its first NVMe file is open. -/
theorem Owners.found (h : Owners m) {fileId : ℕ} {files : List NVMeFile}
    (hfound : m.getDevFdById fileId = some files) :
    ∃ desc, m.descs.lookup fileId = some desc ∧ desc.nvmeMapping.hasNvmeController 0 = true ∧
      (0, desc.nvmeMapping.fileId 0) ∈ m.devFds := by
  rw [getDevFdById] at hfound
  cases hdesc : m.descs.lookup fileId with
  | none =>
      rw [hdesc] at hfound
      cases hfound
  | some desc =>
      rw [hdesc] at hfound
      dsimp only at hfound
      split_ifs at hfound with hvalid hnone
      have hc := List.getElem?_eq_getElem (Nat.pos_of_ne_zero hnone)
      have hhas := (h.has fileId desc hdesc 0 _ (by omega) hc).1
      refine ⟨desc, rfl, hhas, ?_⟩
      cases hcs : m.nvmeControllers with
      | nil =>
          rw [hcs] at hnone
          exact absurd rfl hnone
      | cons c rest =>
          rw [hcs, collectDevFds, if_neg (by omega), if_neg (by rw [hhas]; decide), Option.bind_eq_bind,
            Option.bind_eq_some_iff] at hfound
          obtain ⟨file, hfile, -⟩ := hfound
          exact AList.lookup_isSome.1 (by rw [hfile]; rfl)

/-- **Creating files** leaves what is open as it is. -/
theorem OpenRight.creates (h : OpenRight m) (hcreates : Creates m m') : OpenRight m' := by
  obtain ⟨⟨hlength, hkept⟩, hdevFds, hctxs, hold, -⟩ := hcreates
  constructor
  · intro i id file hfile
    rw [hdevFds] at hfile
    obtain ⟨c, hc, hopen⟩ := h.devFds i id file hfile
    obtain ⟨hhdr, hpage, hblk⟩ := deviceFileOpenManaged_eq_some.1 hopen
    obtain ⟨c', hc', ⟨hpage', hblk'⟩, hfiles⟩ := hkept i c hc
    exact ⟨c', hc', deviceFileOpenManaged_eq_some.2
      ⟨hfiles id _ hhdr, by rw [hpage, hpage'], by rw [hblk, hblk']⟩⟩
  · intro fileId files hfiles
    rw [hctxs] at hfiles
    have hfound := h.ctxs fileId files hfiles
    cases hdesc : m.descs.lookup fileId with
    | none =>
        rw [getDevFdById, hdesc] at hfound
        cases hfound
    | some desc => rw [getDevFdById_congr hdesc (hold fileId desc hdesc) hdevFds hlength, hfound]

/-- **Deleting a file** leaves what is open right exactly if none of its NVMe files is open. -/
theorem OpenRight.deletes_iff (h : OpenRight m) (howners : Owners m) {fileId : ℕ} {desc : GPUFileDesc}
    (hdeletes : Deletes m m' fileId desc) :
    OpenRight m' ↔ ∀ j, desc.nvmeMapping.hasNvmeController j = true →
      (j, desc.nvmeMapping.fileId j) ∉ m.devFds := by
  have hvalid := howners.isValid fileId desc hdeletes.lookup
  have hlength : m'.nvmeControllers.length = m.nvmeControllers.length := by
    rw [hdeletes.controllers, deleteNVMeFilesForGPUFile, if_pos hvalid, List.length_mapIdx]
  constructor
  · intro h' j hhas hmem
    obtain ⟨file, hfile⟩ := Option.isSome_iff_exists.1 (AList.lookup_isSome.2 hmem)
    rw [← hdeletes.devFds] at hfile
    obtain ⟨c', hc', hopen⟩ := h'.devFds _ _ file hfile
    rw [hdeletes.controllers, getElem?_deleteNVMeFilesForGPUFile hvalid, Option.map_eq_some_iff] at hc'
    obtain ⟨c, -, rfl⟩ := hc'
    -- the header that the open file has is no longer there
    have hhdr := (deviceFileOpenManaged_eq_some.1 hopen).1
    rw [if_pos hhas, NVMeController.hostFileDeleteManaged] at hhdr
    dsimp only at hhdr
    rw [Function.update_self] at hhdr
    cases hhdr
  · intro hclosed
    constructor
    · intro i id file hfile
      rw [hdeletes.devFds] at hfile
      obtain ⟨c, hc, hopen⟩ := h.devFds i id file hfile
      refine ⟨if desc.nvmeMapping.hasNvmeController i then c.hostFileDeleteManaged (desc.nvmeMapping.fileId i)
        else c, by rw [hdeletes.controllers, getElem?_deleteNVMeFilesForGPUFile hvalid, hc]; rfl, ?_⟩
      split_ifs with hhas
      · have hne : id ≠ desc.nvmeMapping.fileId i := by
          rintro rfl
          exact hclosed i hhas (AList.lookup_isSome.1 (by rw [hfile]; rfl))
        obtain ⟨hhdr, hpage, hblk⟩ := deviceFileOpenManaged_eq_some.1 hopen
        refine deviceFileOpenManaged_eq_some.2 ⟨?_, hpage, hblk⟩
        rw [NVMeController.hostFileDeleteManaged]
        dsimp only
        rw [Function.update_of_ne hne, hhdr]
      · exact hopen
    · intro fileId' files hfiles
      rw [hdeletes.ctxs] at hfiles
      have hfound := h.ctxs fileId' files hfiles
      obtain ⟨desc', hdesc', hhas, hopened⟩ := howners.found hfound
      have hne : fileId' ≠ fileId := by
        rintro rfl
        obtain rfl : desc = desc' := Option.some.inj (hdeletes.lookup.symm.trans hdesc')
        exact hclosed 0 hhas hopened
      rw [getDevFdById_congr hdesc' (hdeletes.lookup_eq.2 ⟨hne, hdesc'⟩) hdeletes.devFds hlength, hfound]

/-- Serving files opens NVMe files, at most. -/
theorem serveStep_devFds {op : ServeOp} (hstep : m.serveStep op = some m') :
    m'.devFds = m.devFds ∨ ∃ mapping allocated,
      m'.devFds = (openNvmeFiles mapping allocated m.nvmeControllers 0 m.devFds).2 := by
  cases op with
  | initGPUFile fileId allocated =>
      obtain ⟨devFds, freeList, heq, hdevFds⟩ := initGPUFile_frame m fileId allocated
      rw [GPUFileManager.serveStep, heq] at hstep
      cases hstep
      rcases hdevFds with rfl | ⟨mapping, hmapping⟩
      · exact Or.inl rfl
      · exact Or.inr ⟨mapping, allocated, hmapping⟩
  | openGPUFile allocated =>
      rw [GPUFileManager.serveStep, GPUFileManager.openGPUFile] at hstep
      cases hlast : m.freeList.getLast? with
      | none =>
          rw [hlast] at hstep
          cases hstep
          exact Or.inl rfl
      | some fileId =>
          cases hdev : m.getDevFdById fileId with
          | none => simp [hlast, hdev] at hstep
          | some devFds =>
              simp only [hlast, hdev, Option.bind_eq_bind, Option.bind_some] at hstep
              split_ifs at hstep
              · cases hstep
                exact Or.inl rfl
              · cases hstep
                exact Or.inl rfl
  | closeGPUFile fileId =>
      rw [GPUFileManager.serveStep, GPUFileManager.closeGPUFile] at hstep
      split_ifs at hstep
      · cases hstep
        exact Or.inl rfl
      · cases hstep
        exact Or.inl rfl

/-- **Serving files** keeps what is open right. -/
theorem OpenRight.serveStep (h : OpenRight m) {op : ServeOp} (hstep : m.serveStep op = some m') :
    OpenRight m' := by
  obtain ⟨hserving, -, hcs⟩ := h.serving.serveStep hstep
  refine ⟨?_, hserving.ctxs⟩
  rw [hcs]
  rcases serveStep_devFds hstep with hsame | ⟨mapping, allocated, hopened⟩
  · rw [hsame]
    exact h.devFds
  · rw [hopened]
    refine openNvmeFiles_inv m.nvmeControllers (fun devFds => ∀ (i id : ℕ) (file : NVMeFile),
      devFds.lookup (i, id) = some file → ∃ c : NVMeController, m.nvmeControllers[i]? = some c ∧
        c.deviceFileOpenManaged id true = some file) ?_ h.devFds
    intro j c file devFds hc hopen hinv i id file' hfile'
    rw [Nat.zero_add] at hopen hfile'
    by_cases hkey : (i, id) = (j, mapping.fileId j)
    · cases hkey
      rw [AList.lookup_insert] at hfile'
      cases hfile'
      exact ⟨c, hc, hopen⟩
    · rw [AList.lookup_insert_ne hkey] at hfile'
      exact hinv i id file' hfile'

/-- The manager after an operation, which one that is undefined or fails its assertion leaves as it was. -/
def afterFileOp (m : GPUFileManager) (op : FileOp) : GPUFileManager := (m.fileStep op).getD m

/-- Only deleting a file that is there can delete what was set up. -/
theorem notOpened_of_creates {op : FileOp}
    (hnone : ∀ fileId, op = .log (.deleteGPUFile fileId) → m.descs.lookup fileId = none) : m.NotOpened op := by
  unfold NotOpened
  split
  · next fileId =>
      intro desc hdesc
      rw [hnone fileId rfl] at hdesc
      cases hdesc
  · exact trivial

/-- **One operation** leaves what is open right exactly if what it deletes was not open. -/
theorem OpenRight.afterFileOp_iff (h : OpenRight m) (howners : Owners m) (op : FileOp) :
    OpenRight (m.afterFileOp op) ↔ m.NotOpened op := by
  cases hstep : m.fileStep op with
  | none =>
      have hsame : m.afterFileOp op = m := by rw [afterFileOp, hstep, Option.getD_none]
      rw [hsame]
      refine iff_of_true h (notOpened_of_creates fun fileId hop => ?_)
      subst hop
      cases hstep
  | some m' =>
      have hafter : m.afterFileOp op = m' := by rw [afterFileOp, hstep, Option.getD_some]
      rw [hafter]
      rcases fileStep_cases hstep with ⟨hcreates, hnone⟩ | ⟨fileId, desc, rfl, hdeletes⟩ | ⟨serveOp, rfl, hserve⟩
      · exact iff_of_true (h.creates hcreates) (notOpened_of_creates hnone)
      · rw [h.deletes_iff howners hdeletes]
        constructor
        · intro hclosed desc' hdesc'
          obtain rfl : desc' = desc := Option.some.inj (hdesc'.symm.trans hdeletes.lookup)
          exact hclosed
        · intro hclosed
          exact hclosed desc hdeletes.lookup
      · exact iff_of_true (h.serveStep hserve) trivial

/-- **One operation** keeps what is open right, if what it deletes was not open. -/
theorem OpenRight.fileStep (h : OpenRight m) (howners : Owners m) {op : FileOp} (hstep : m.fileStep op = some m')
    (hnot : m.NotOpened op) : OpenRight m' := by
  have hafter := (h.afterFileOp_iff howners op).2 hnot
  rwa [afterFileOp, hstep, Option.getD_some] at hafter

/-- **What is open is right** after every operation of a run, exactly if no file is deleted that was set up. -/
theorem openRight_along_iff (memory : LogHeader) (cs : List NVMeController) (persistenceThreshold : ℕ)
    (ops : List FileOp) :
    Along afterFileOp (fun m op => OpenRight (m.afterFileOp op))
        (construct none memory cs persistenceThreshold) ops ↔
      Along afterFileOp NotOpened (construct none memory cs persistenceThreshold) ops := by
  refine along_iff_of_inv (fun m => Owners m ∧ OpenRight m) ?_ ?_ ?_ ops
  · rintro m op ⟨howners, -⟩ hright
    refine ⟨?_, hright⟩
    rw [afterFileOp]
    cases hstep : m.fileStep op with
    | none => exact howners
    | some m' => exact howners.fileStep hstep
  · rintro m op ⟨howners, hright⟩
    exact hright.afterFileOp_iff howners op
  · obtain ⟨-, hctxs, hdevFds, -⟩ := construct_frame none memory cs persistenceThreshold
    refine ⟨owners_construct memory cs persistenceThreshold, fun i id file hfile => ?_,
      fun fileId files hfiles => ?_⟩
    · rw [hdevFds, AList.lookup_empty] at hfile
      cases hfile
    · rw [hctxs, AList.lookup_empty] at hfiles
      cases hfiles

/-! ### What stays -/

/-- A file that has been set up stays, with its NVMe files. -/
structure Stays (m m' : GPUFileManager) (fileId : ℕ) : Prop where
  lookup : ∀ desc, m.descs.lookup fileId = some desc → m'.descs.lookup fileId = some desc
  devFds : ∀ key ∈ m.devFds, key ∈ m'.devFds
  length : m'.nvmeControllers.length = m.nvmeControllers.length
  files : ∀ desc (j : ℕ) (c : NVMeController) hdr, m.descs.lookup fileId = some desc → j < 4 →
    m.nvmeControllers[j]? = some c → c.files (desc.nvmeMapping.fileId j) = some hdr →
      ∃ c', m'.nvmeControllers[j]? = some c' ∧ c'.files (desc.nvmeMapping.fileId j) = some hdr

/-- **A file that has been set up stays**, unless a file that has been set up is deleted. -/
theorem stays_of_fileStep {fileId : ℕ} (howners : Owners m) {op : FileOp} (hstep : m.fileStep op = some m')
    (hnot : m.NotOpened op)
    (hopened : ∃ desc, m.descs.lookup fileId = some desc ∧ desc.nvmeMapping.hasNvmeController 0 = true ∧
      (0, desc.nvmeMapping.fileId 0) ∈ m.devFds) : Stays m m' fileId := by
  rcases fileStep_cases hstep with
    ⟨⟨⟨hlength, hkept⟩, hdevFds, -, hold, -⟩, -⟩ | ⟨fileId', desc', rfl, hdeletes⟩ | ⟨serveOp, rfl, hserve⟩
  · refine ⟨hold fileId, fun key hkey => hdevFds ▸ hkey, hlength, ?_⟩
    intro desc j c hdr _ _ hc hhdr
    obtain ⟨c', hc', -, hfiles⟩ := hkept j c hc
    exact ⟨c', hc', hfiles _ hdr hhdr⟩
  · -- it is another file that is deleted
    have hne : fileId ≠ fileId' := by
      rintro rfl
      obtain ⟨desc, hdesc, hhas, hmem⟩ := hopened
      exact hnot desc hdesc 0 hhas hmem
    have hvalid := howners.isValid fileId' desc' hdeletes.lookup
    refine ⟨fun desc hdesc => hdeletes.lookup_eq.2 ⟨hne, hdesc⟩, fun key hkey => hdeletes.devFds ▸ hkey, ?_, ?_⟩
    · rw [hdeletes.controllers, deleteNVMeFilesForGPUFile, if_pos hvalid, List.length_mapIdx]
    · intro desc j c hdr hdesc hj hc hhdr
      have hlt := (List.getElem?_eq_some_iff.1 hc).1
      refine ⟨if desc'.nvmeMapping.hasNvmeController j then c.hostFileDeleteManaged (desc'.nvmeMapping.fileId j)
        else c, by rw [hdeletes.controllers, getElem?_deleteNVMeFilesForGPUFile hvalid, hc]; rfl, ?_⟩
      split_ifs
      · rw [NVMeController.hostFileDeleteManaged]
        dsimp only
        rw [Function.update_of_ne (howners.apart fileId fileId' desc desc' hdesc hdeletes.lookup hne j
          (by omega)), hhdr]
      · exact hhdr
  · obtain ⟨hdescs, hcs⟩ := serveStep_frame hserve
    refine ⟨fun desc hdesc => hdescs ▸ hdesc, fun key hkey => ?_, congrArg List.length hcs, ?_⟩
    · rcases serveStep_devFds hserve with hsame | ⟨mapping, allocated, hopens⟩
      · rwa [hsame]
      · obtain ⟨file, hfile⟩ := Option.isSome_iff_exists.1 (AList.lookup_isSome.2 hkey)
        have hstill := (openNvmeFiles_lookup mapping allocated m.nvmeControllers 0 m.devFds).1 key file hfile
        rw [hopens]
        exact AList.lookup_isSome.1 (by rw [hstill]; rfl)
    · intro desc j c hdr _ _ hc hhdr
      exact ⟨c, by rw [hcs]; exact hc, hhdr⟩

end GPUFileManager

end GeminiFS
end InfiniKV
