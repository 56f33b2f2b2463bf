/-
**Creating several GPU files, all or none.**

`createGPUFiles` marks slots, has a task on each controller create the NVMe files of all GPU files, and writes
the records one by one.  Each stage has a clean-up of its own.  A task that fails deletes the files it has
created, but those of the other controllers stay; a record that cannot be written takes the files of the records
before it along, on the first four controllers, and those of the records after it stay.

Main definitions:

* `InfiniKV.GeminiFS.GPUFileManager.createGPUFilesWriting`, `createGPUFileWriting` — `createGPUFiles` and
  `createGPUFile`, with the records that can be written;
* `InfiniKV.GeminiFS.GPUFileManager.Prepares` — what a call needs to get as far as its records;
* `InfiniKV.GeminiFS.GPUFileManager.CreatesAll` — a call creates all files, or leaves everything as it was;
* `InfiniKV.GeminiFS.NVMeController.TaskSucceeds` — what a task needs.

Main results:

* `InfiniKV.GeminiFS.NVMeController.createLoop_none`, `createLoop_some` — a task creates all its files or none;
* `InfiniKV.GeminiFS.foldl_deleteNVMeFilesForGPUFile` — what is left of a controller after the deletions;
* `InfiniKV.GeminiFS.GPUFileManager.createGPUFilesWriting_of_prepares` — a call is the one whose records can all
  be written, or its clean-up;
* `InfiniKV.GeminiFS.GPUFileManager.createsAll_iff` — **when a call creates all or nothing**.
-/

import InfiniKV.GpuFileLog
import InfiniKV.SliceAccess

set_option relaxedAutoImplicit false
set_option autoImplicit false

namespace InfiniKV
namespace GeminiFS

/-! ### The tasks -/

namespace NVMeController

/-- Files that have been created on a controller: where no file was, and no other file is touched. -/
structure Created (c : NVMeController) (ids : List ℕ) (c' : NVMeController) : Prop where
  nodup : ids.Nodup
  lt : ∀ id ∈ ids, id < MAX_RECORDS
  fresh : ∀ id ∈ ids, c.files id = none
  present : ∀ id ∈ ids, (c'.files id).isSome = true
  other : ∀ id ∉ ids, c'.files id = c.files id
  frame : c'.pageSize = c.pageSize ∧ c'.blkSizeLog = c.blkSizeLog ∧ c'.maxIOsize = c.maxIOsize

/-- The slots of a controller that are free. -/
def freeSlots (c : NVMeController) : List ℕ :=
  (List.range MAX_RECORDS).filter fun slot => !(c.files slot).isSome

variable {c c' : NVMeController} {fileSize : ℕ}

/-- One file is created in a free slot, and takes it. -/
theorem hostFileCreateManaged_some {space : Option (List FiemapExtent)} {id : ℕ}
    (h : c.hostFileCreateManaged fileSize space = some (id, c')) :
    id < MAX_RECORDS ∧ c.files id = none ∧ fileSize % c.pageSize = 0 ∧ space.isSome = true ∧
      ∃ hdr, c' = { c with files := Function.update c.files id (some hdr) } := by
  rw [hostFileCreateManaged] at h
  cases hslot : firstFree MAX_RECORDS fun slot => (c.files slot).isSome with
  | none => simp [hslot] at h
  | some slot =>
      obtain ⟨hlt, hfree, -⟩ := firstFree_eq_some.1 hslot
      rw [hslot] at h
      dsimp only at h
      split_ifs at h with hpage
      obtain ⟨extents, hspace, heq⟩ := Option.map_eq_some_iff.1 h
      cases heq
      exact ⟨hlt, by simpa using hfree, not_not.1 hpage, by rw [hspace]; rfl, _, rfl⟩

/-- When a file can be created. -/
theorem hostFileCreateManaged_isSome_iff {space : Option (List FiemapExtent)} :
    (∃ out, c.hostFileCreateManaged fileSize space = some out) ↔
      0 < c.freeSlots.length ∧ fileSize % c.pageSize = 0 ∧ space.isSome = true := by
  have hslots : 0 < c.freeSlots.length ↔
      ∃ slot, (firstFree MAX_RECORDS fun slot => (c.files slot).isSome) = some slot := by
    rw [List.length_pos_iff_exists_mem, ← Option.ne_none_iff_exists', ne_eq, firstFree_eq_none]
    simp only [freeSlots, List.mem_filter, List.mem_range, not_forall]
    simp
  constructor
  · rintro ⟨⟨id, c'⟩, h⟩
    obtain ⟨hlt, hfree, hpage, hspace, -⟩ := hostFileCreateManaged_some h
    refine ⟨List.length_pos_of_mem (a := id) ?_, hpage, hspace⟩
    rw [freeSlots, List.mem_filter, List.mem_range]
    exact ⟨hlt, by simp [hfree]⟩
  · rintro ⟨hfree, hpage, hspace⟩
    obtain ⟨slot, hslot⟩ := hslots.1 hfree
    obtain ⟨extents, rfl⟩ := Option.isSome_iff_exists.1 hspace
    rw [hostFileCreateManaged, hslot]
    dsimp only
    rw [if_neg (not_not.2 hpage)]
    exact ⟨_, rfl⟩

/-- A slot that is taken is free no more. -/
theorem length_freeSlots_update {id : ℕ} (hlt : id < MAX_RECORDS) (hfree : c.files id = none) (hdr : GeminiHdr) :
    c.freeSlots.length =
      ({ c with files := Function.update c.files id (some hdr) } : NVMeController).freeSlots.length + 1 := by
  have hmem : id ∈ c.freeSlots := by
    rw [freeSlots, List.mem_filter, List.mem_range]
    exact ⟨hlt, by simp [hfree]⟩
  have hnodup : c.freeSlots.Nodup := List.nodup_range.filter _
  have herase : ({ c with files := Function.update c.files id (some hdr) } : NVMeController).freeSlots =
      c.freeSlots.erase id := by
    rw [hnodup.erase_eq_filter, freeSlots, freeSlots, List.filter_filter]
    apply List.filter_congr
    intro slot _
    dsimp only
    rcases eq_or_ne slot id with rfl | hne
    · simp
    · simp [hne]
  rw [herase, List.length_erase_of_mem hmem]
  have hpos := List.length_pos_of_mem hmem
  omega

/-- A file that is deleted right after it was created was never there. -/
theorem hostFileDeleteManaged_update {id : ℕ} (hfree : c.files id = none) (hdr : GeminiHdr) :
    ({ c with files := Function.update c.files id (some hdr) } : NVMeController).hostFileDeleteManaged id = c := by
  rw [hostFileDeleteManaged]
  have hfiles : Function.update (Function.update c.files id (some hdr)) id none = c.files := by
    rw [Function.update_idem, ← hfree, Function.update_eq_self]
  dsimp only
  rw [hfiles]

/-- **A task that fails leaves its controller as it was.** -/
theorem createLoop_none {space : ℕ → Option (List FiemapExtent)} (n i : ℕ)
    (h : createLoop fileSize space n i c = (none, c')) : c' = c := by
  induction n generalizing i c c' with
  | zero => cases h
  | succ n ih =>
      rw [createLoop] at h
      cases hcreate : c.hostFileCreateManaged fileSize (space i) with
      | none =>
          rw [hcreate] at h
          cases h
          rfl
      | some out =>
          obtain ⟨id, c₁⟩ := out
          obtain ⟨-, hfree, -, -, hdr, rfl⟩ := hostFileCreateManaged_some hcreate
          rw [hcreate] at h
          dsimp only at h
          cases hrest : createLoop fileSize space n (i + 1)
              { c with files := Function.update c.files id (some hdr) } with
          | mk rest c₂ =>
              rw [hrest] at h
              cases rest with
              | none =>
                  cases h
                  rw [ih (i + 1) hrest]
                  exact hostFileDeleteManaged_update hfree hdr
              | some ids => cases h

/-- **A task that succeeds has created its files.** -/
theorem createLoop_some {space : ℕ → Option (List FiemapExtent)} (n i : ℕ) {ids : List ℕ}
    (h : createLoop fileSize space n i c = (some ids, c')) : ids.length = n ∧ c.Created ids c' := by
  induction n generalizing i c ids with
  | zero =>
      cases h
      exact ⟨rfl, List.nodup_nil, by simp, by simp, by simp, fun _ _ => rfl, rfl, rfl, rfl⟩
  | succ n ih =>
      rw [createLoop] at h
      cases hcreate : c.hostFileCreateManaged fileSize (space i) with
      | none =>
          rw [hcreate] at h
          cases h
      | some out =>
          obtain ⟨id, c₁⟩ := out
          obtain ⟨hlt, hfree, -, -, hdr, rfl⟩ := hostFileCreateManaged_some hcreate
          rw [hcreate] at h
          dsimp only at h
          cases hrest : createLoop fileSize space n (i + 1)
              { c with files := Function.update c.files id (some hdr) } with
          | mk rest c₂ =>
              rw [hrest] at h
              cases rest with
              | none => cases h
              | some ids =>
                  cases h
                  obtain ⟨hlen, hcreated⟩ := ih (i + 1) hrest
                  -- the slot is taken, so the others are created elsewhere
                  have hnotMem : id ∉ ids := by
                    intro hid
                    have hnone := hcreated.fresh id hid
                    dsimp only at hnone
                    rw [Function.update_self] at hnone
                    cases hnone
                  have hne : ∀ id' ∈ ids, id' ≠ id := fun id' hid' heq => hnotMem (heq ▸ hid')
                  refine ⟨by rw [List.length_cons, hlen], List.nodup_cons.2 ⟨hnotMem, hcreated.nodup⟩, ?_, ?_, ?_, ?_,
                    hcreated.frame⟩
                  · exact List.forall_mem_cons.2 ⟨hlt, hcreated.lt⟩
                  · refine List.forall_mem_cons.2 ⟨hfree, fun id' hid' => ?_⟩
                    have hfresh := hcreated.fresh id' hid'
                    dsimp only at hfresh
                    rwa [Function.update_of_ne (hne id' hid')] at hfresh
                  · refine List.forall_mem_cons.2 ⟨?_, hcreated.present⟩
                    rw [hcreated.other id hnotMem]
                    dsimp only
                    rw [Function.update_self]
                    rfl
                  · intro id' hid'
                    rw [List.mem_cons, not_or] at hid'
                    rw [hcreated.other id' hid'.2]
                    dsimp only
                    rw [Function.update_of_ne hid'.1]

/-- When a task has room for all its files. -/
theorem createLoop_isSome_iff {space : ℕ → Option (List FiemapExtent)} (n i : ℕ) (c : NVMeController) :
    (∃ ids c', createLoop fileSize space n i c = (some ids, c')) ↔
      n = 0 ∨ (fileSize % c.pageSize = 0 ∧ n ≤ c.freeSlots.length ∧ ∀ j < n, (space (i + j)).isSome = true) := by
  induction n generalizing i c with
  | zero => exact iff_of_true ⟨[], c, rfl⟩ (Or.inl rfl)
  | succ n ih =>
      rw [or_iff_right (Nat.succ_ne_zero n)]
      constructor
      · rintro ⟨ids, c', h⟩
        rw [createLoop] at h
        cases hcreate : c.hostFileCreateManaged fileSize (space i) with
        | none =>
            rw [hcreate] at h
            cases h
        | some out =>
            obtain ⟨id, c₁⟩ := out
            obtain ⟨hlt, hfree, hpage, hspace, hdr, rfl⟩ := hostFileCreateManaged_some hcreate
            rw [hcreate] at h
            dsimp only at h
            cases hrest : createLoop fileSize space n (i + 1)
                { c with files := Function.update c.files id (some hdr) } with
            | mk rest c₂ =>
                rw [hrest] at h
                cases rest with
                | none => cases h
                | some rest =>
                    have hslots := length_freeSlots_update hlt hfree hdr
                    refine ⟨hpage, ?_, ?_⟩
                    · rcases (ih (i + 1) _).1 ⟨rest, c₂, hrest⟩ with rfl | ⟨-, hroom, -⟩
                      · omega
                      · omega
                    · intro j hj
                      cases j with
                      | zero => exact hspace
                      | succ j =>
                          rcases (ih (i + 1) _).1 ⟨rest, c₂, hrest⟩ with rfl | ⟨-, -, hspaces⟩
                          · omega
                          · rw [Nat.add_succ, ← Nat.succ_add]
                            exact hspaces j (by omega)
      · rintro ⟨hpage, hroom, hspaces⟩
        obtain ⟨⟨id, c₁⟩, hcreate⟩ := hostFileCreateManaged_isSome_iff.2
          ⟨by omega, hpage, hspaces 0 (Nat.succ_pos n)⟩
        rw [Nat.add_zero] at hcreate
        obtain ⟨hlt, hfree, -, -, hdr, rfl⟩ := hostFileCreateManaged_some hcreate
        have hslots := length_freeSlots_update hlt hfree hdr
        obtain ⟨ids, c', hrest⟩ := (ih (i + 1) { c with files := Function.update c.files id (some hdr) }).2
          (Or.inr ⟨hpage, by omega, fun j hj => by
            rw [Nat.succ_add, ← Nat.add_succ]
            exact hspaces (j + 1) (by omega)⟩)
        refine ⟨id :: ids, c', ?_⟩
        rw [createLoop, hcreate]
        dsimp only
        rw [hrest]

/-- What the task on a controller needs to create at least one file for each of `toCreate` GPU files: files of
a size that is whole pages, a slot for each file, and space for each. -/
structure TaskSucceeds (c : NVMeController) (totalFileSize nvmeCount toCreate : ℕ)
    (space : ℕ → Option (List FiemapExtent)) : Prop where
  pos : 0 < toCreate
  large : ALIGN_SIZE ≤ perNvmeFileSize totalFileSize nvmeCount
  pages : perNvmeFileSize totalFileSize nvmeCount % c.pageSize = 0
  slots : toCreate ≤ c.freeSlots.length
  space : ∀ j < toCreate, (space j).isSome = true

/-- **A task succeeds and has created its files, or leaves its controller as it was.** -/
theorem createNVMeFilesPerDevice_cases (c : NVMeController) (totalFileSize nvmeCount toCreate : ℕ)
    (space : ℕ → Option (List FiemapExtent)) :
    (TaskSucceeds c totalFileSize nvmeCount toCreate space ∧
      ∃ ids, (c.createNVMeFilesPerDevice totalFileSize nvmeCount toCreate space).1 = some ids ∧
        ids.length = toCreate ∧
        c.Created ids (c.createNVMeFilesPerDevice totalFileSize nvmeCount toCreate space).2 ∧
        GPUFileManager.taskOk toCreate (c.createNVMeFilesPerDevice totalFileSize nvmeCount toCreate space) = true) ∨
    (¬ TaskSucceeds c totalFileSize nvmeCount toCreate space ∧
      (c.createNVMeFilesPerDevice totalFileSize nvmeCount toCreate space).2 = c ∧
      GPUFileManager.taskOk toCreate (c.createNVMeFilesPerDevice totalFileSize nvmeCount toCreate space) = false) := by
  rw [createNVMeFilesPerDevice]
  by_cases hlarge : perNvmeFileSize totalFileSize nvmeCount < ALIGN_SIZE
  · rw [if_pos hlarge]
    exact Or.inr ⟨fun h => Nat.not_le.2 hlarge h.large, rfl, rfl⟩
  · rw [if_neg hlarge]
    have hsome := @createLoop_isSome_iff (perNvmeFileSize totalFileSize nvmeCount) space toCreate 0 c
    cases hloop : createLoop (perNvmeFileSize totalFileSize nvmeCount) space toCreate 0 c with
    | mk out c' =>
        cases out with
        | none =>
            refine Or.inr ⟨?_, createLoop_none toCreate 0 hloop, rfl⟩
            rintro ⟨hpos, -, hpages, hslots, hspace⟩
            obtain ⟨ids, c'', hsuccess⟩ := hsome.2 (Or.inr ⟨hpages, hslots, fun j hj => by
              rw [Nat.zero_add]
              exact hspace j hj⟩)
            rw [hloop] at hsuccess
            cases hsuccess
        | some ids =>
            obtain ⟨hlen, hcreated⟩ := createLoop_some toCreate 0 hloop
            rcases hsome.1 ⟨ids, c', hloop⟩ with rfl | ⟨hpages, hslots, hspace⟩
            · -- no file is a failure too
              obtain rfl := List.length_eq_zero_iff.1 hlen
              rw [createLoop] at hloop
              cases hloop
              exact Or.inr ⟨fun h => Nat.lt_irrefl 0 h.pos, rfl, rfl⟩
            · by_cases hpos : 0 < toCreate
              · refine Or.inl ⟨⟨hpos, Nat.not_lt.1 hlarge, hpages, hslots, fun j hj => ?_⟩, ids, rfl, hlen, hcreated, ?_⟩
                · have hj' := hspace j hj
                  rwa [Nat.zero_add] at hj'
                · have hne : ids ≠ [] := List.ne_nil_of_length_pos (by omega)
                  rw [GPUFileManager.taskOk]
                  simp [hne, hlen]
              · obtain rfl : toCreate = 0 := by omega
                obtain rfl := List.length_eq_zero_iff.1 hlen
                rw [createLoop] at hloop
                cases hloop
                exact Or.inr ⟨fun h => Nat.lt_irrefl 0 h.pos, rfl, rfl⟩

end NVMeController

/-! ### The deletions -/

namespace NVMeController

variable {c c' : NVMeController}

/-- Several files are deleted. -/
def deleteAll (c : NVMeController) (ids : List ℕ) : NVMeController := ids.foldl hostFileDeleteManaged c

theorem files_deleteAll (c : NVMeController) (ids : List ℕ) (id : ℕ) :
    (c.deleteAll ids).files id = if id ∈ ids then none else c.files id := by
  induction ids generalizing c with
  | nil => rfl
  | cons first ids ih =>
      have hrest := ih (c.hostFileDeleteManaged first)
      rw [deleteAll, List.foldl_cons, ← deleteAll, hrest, hostFileDeleteManaged]
      dsimp only
      rcases eq_or_ne id first with rfl | hne
      · simp
      · simp [hne]

theorem frame_deleteAll (c : NVMeController) (ids : List ℕ) :
    (c.deleteAll ids).pageSize = c.pageSize ∧ (c.deleteAll ids).blkSizeLog = c.blkSizeLog ∧
      (c.deleteAll ids).maxIOsize = c.maxIOsize := by
  induction ids generalizing c with
  | nil => exact ⟨rfl, rfl, rfl⟩
  | cons first ids ih => exact ih (c.hostFileDeleteManaged first)

/-- The files that were created are deleted, and everything is as it was. -/
theorem Created.deleteAll {ids : List ℕ} (h : c.Created ids c') : c'.deleteAll ids = c := by
  obtain ⟨hpage, hblk, hmax⟩ := frame_deleteAll c' ids
  obtain ⟨hpage', hblk', hmax'⟩ := h.frame
  have hfiles : (c'.deleteAll ids).files = c.files := by
    funext id
    rw [files_deleteAll]
    split_ifs with hid
    · exact (h.fresh id hid).symm
    · exact h.other id hid
  generalize c'.deleteAll ids = d at *
  obtain ⟨pageSize, blkSizeLog, maxIOsize, files⟩ := d
  obtain ⟨pageSize', blkSizeLog', maxIOsize', files'⟩ := c
  simp_all

/-- As long as one of them stays, something has changed. -/
theorem Created.deleteAll_ne {ids some : List ℕ} (h : c.Created ids c') {id : ℕ} (hid : id ∈ ids)
    (hstays : id ∉ some) : c'.deleteAll some ≠ c := by
  intro heq
  have hfiles := files_deleteAll c' some id
  rw [heq, if_neg hstays, h.fresh id hid] at hfiles
  have hpresent := h.present id hid
  rw [← hfiles] at hpresent
  cases hpresent

end NVMeController

/-- What is left of controller `k` after the deletions for several GPU files. -/
theorem foldl_deleteNVMeFilesForGPUFile (mappings : List CompactNVMeMapping)
    (hvalid : ∀ mapping ∈ mappings, mapping.isValid = true) (cs : List NVMeController) (k : ℕ) :
    (mappings.foldl deleteNVMeFilesForGPUFile cs)[k]? = cs[k]?.map fun c =>
      c.deleteAll ((mappings.filter fun mapping => mapping.hasNvmeController k).map fun mapping =>
        mapping.fileId k) := by
  induction mappings generalizing cs with
  | nil => simp [NVMeController.deleteAll]
  | cons mapping mappings ih =>
      rw [List.foldl_cons, ih fun mapping' h => hvalid mapping' (List.mem_cons_of_mem _ h),
        deleteNVMeFilesForGPUFile, if_pos (hvalid mapping List.mem_cons_self), List.getElem?_mapIdx, Option.map_map]
      cases cs[k]? with
      | none => rfl
      | some c =>
          cases hhas : mapping.hasNvmeController k with
          | false => simp [hhas]
          | true => simp [hhas, NVMeController.deleteAll]

/-- The deletions leave as many controllers as there were. -/
theorem length_foldl_deleteNVMeFilesForGPUFile (mappings : List CompactNVMeMapping) (cs : List NVMeController) :
    (mappings.foldl deleteNVMeFilesForGPUFile cs).length = cs.length := by
  induction mappings generalizing cs with
  | nil => rfl
  | cons mapping mappings ih =>
      rw [List.foldl_cons, ih, deleteNVMeFilesForGPUFile]
      split_ifs
      · rw [List.length_mapIdx]
      · rfl

/-! ### The call -/

namespace GPUFileManager

/-- The loop that writes the records, from the `i`-th on: the number of the first that cannot be written, and
the log. -/
def writeRecords (header : LogHeader) (writes : ℕ → Bool) :
    ℕ → List (ℕ × GPUFileDesc) → ByteFile → Option ℕ × ByteFile
  | _, [], log => (none, log)
  | i, file :: files, log =>
      if writes i then
        writeRecords header writes (i + 1) files (writeRecordToSlot GPUFileDesc.codec log header file.2 file.1)
      else (some i, log)

/-- `createGPUFiles`, where `writes` says which records can be written.  `none` at the outside stands for the
read behind the end of the empty vector that follows when there are not enough free slots. -/
def createGPUFilesWriting (m : GPUFileManager) (totalFileSize toCreate : ℕ) (tensorShape : List ℕ)
    (space : ℕ → ℕ → Option (List FiemapExtent)) (writes : ℕ → Bool) :
    Option (Option (List ℕ) × GPUFileManager) :=
  if tensorShape.length ≠ 3 then some (none, m)
  else
    let slots := m.findMultipleFreeSlots toCreate
    if slots.length ≠ toCreate then none
    else if slots.any (· ∈ m.descs) then some (none, m.releaseSlots slots)
    else
      let results := m.createNVMeFilesTasks totalFileSize toCreate space
      let m' : GPUFileManager := { m with nvmeControllers := results.map Prod.snd }
      if !results.all (taskOk toCreate) then some (none, m'.releaseSlots slots)
      else
        let files := slots.mapIdx fun i slot => (slot, GPUFileDesc.new slot totalFileSize tensorShape
          (results.map fun result => (result.1.getD []).getD i 0))
        match writeRecords m.header writes 0 files m.log with
        | (none, _) => some (some slots, (m'.takeSlots files).countWrites toCreate)
        | (some i, log) =>
            let mappings := (files.take (i + 1)).map fun file => file.2.nvmeMapping
            some (none, releaseSlots { m' with
              log
              nvmeControllers := mappings.foldl deleteNVMeFilesForGPUFile m'.nvmeControllers } slots)

/-- `createGPUFile`, where `writes` says whether the record can be written. -/
def createGPUFileWriting (m : GPUFileManager) (totalFileSize : ℕ) (tensorShape : List ℕ)
    (space : ℕ → Option (List FiemapExtent)) (writes : Bool) : Option ℕ × GPUFileManager :=
  match m.findNextFreeSlot with
  | none => (none, m)
  | some slot =>
      if slot ∈ m.descs then (none, m)
      else if tensorShape.length ≠ 3 then (none, m)
      else match createNVMeFilesForGPUFile m.nvmeControllers totalFileSize space with
        | (none, nvmeControllers) => (none, { m with nvmeControllers })
        | (some nvmeFileIds, nvmeControllers) =>
            let desc := GPUFileDesc.new slot totalFileSize tensorShape nvmeFileIds
            if writes then (some slot, (takeSlot { m with nvmeControllers } slot desc).countWrites 1)
            else (none, { m with
              nvmeControllers := deleteNVMeFilesForGPUFile nvmeControllers desc.nvmeMapping })

/-- The bitmap, the map and the files of the controllers are what they were. -/
structure SameFiles (m m' : GPUFileManager) : Prop where
  dirtyBitmap : m'.dirtyBitmap = m.dirtyBitmap
  descs : m'.descs = m.descs
  nvmeControllers : m'.nvmeControllers = m.nvmeControllers

/-- `toCreate` new ids are in the map, each with a new file on every controller that its record names. -/
structure HasNew (m : GPUFileManager) (toCreate : ℕ) (slots : List ℕ) (m' : GPUFileManager) : Prop where
  length : slots.length = toCreate
  nodup : slots.Nodup
  fresh : ∀ id ∈ slots, id ∉ m.descs
  mem_iff : ∀ id, id ∈ m'.descs ↔ id ∈ m.descs ∨ id ∈ slots
  old : ∀ id ∉ slots, m'.descs.lookup id = m.descs.lookup id
  files : ∀ (k : ℕ) (c : NVMeController), m.nvmeControllers[k]? = some c →
    ∃ (ids : List ℕ) (c' : NVMeController), m'.nvmeControllers[k]? = some c' ∧ c.Created ids c' ∧
      ids.length = toCreate ∧ ∀ (j slot : ℕ), slots[j]? = some slot →
        ∃ desc, m'.descs.lookup slot = some desc ∧ desc.nvmeMapping.hasNvmeController k = true ∧
          ids[j]? = some (desc.nvmeMapping.fileId k)

/-- **A call creates all files, or leaves everything as it was.** -/
def CreatesAll (m : GPUFileManager) (toCreate : ℕ) : Option (Option (List ℕ) × GPUFileManager) → Prop
  | none => False
  | some (none, m') => m.SameFiles m'
  | some (some slots, m') => m.HasNew toCreate slots m'

/-- The slots of the manager that are free. -/
def freeSlots (m : GPUFileManager) : List ℕ := (List.range MAX_RECORDS).filter fun slot => !m.dirtyBitmap slot

/-- What a call needs to create all files or leave everything as it was: three dimensions, enough free slots, and
then either a slot whose number is in the map, or tasks that all fail, or tasks that all succeed, on four
controllers at most, and records that can be written, up to the last but one. -/
def CreatesAllWhen (m : GPUFileManager) (totalFileSize toCreate : ℕ) (tensorShape : List ℕ)
    (space : ℕ → ℕ → Option (List FiemapExtent)) (writes : ℕ → Bool) : Prop :=
  tensorShape.length ≠ 3 ∨ toCreate ≤ m.freeSlots.length ∧
    ((∃ slot ∈ m.freeSlots.take toCreate, slot ∈ m.descs) ∨
      (∀ (k : ℕ) (c : NVMeController), m.nvmeControllers[k]? = some c →
        ¬ c.TaskSucceeds totalFileSize m.nvmeControllers.length toCreate (space k)) ∨
      (∀ (k : ℕ) (c : NVMeController), m.nvmeControllers[k]? = some c →
        c.TaskSucceeds totalFileSize m.nvmeControllers.length toCreate (space k)) ∧
        m.nvmeControllers.length ≤ 4 ∧ ∀ i, i + 1 < toCreate → writes i = true)

/-- What a call needs to get as far as its records: three dimensions, enough free slots, none of which is in the
map, and tasks that all succeed. -/
structure Prepares (m : GPUFileManager) (totalFileSize toCreate : ℕ) (tensorShape : List ℕ)
    (space : ℕ → ℕ → Option (List FiemapExtent)) : Prop where
  shape : tensorShape.length = 3
  slots : (m.findMultipleFreeSlots toCreate).length = toCreate
  fresh : ∀ slot ∈ m.findMultipleFreeSlots toCreate, slot ∉ m.descs
  tasks : ∀ (k : ℕ) (c : NVMeController), m.nvmeControllers[k]? = some c →
    c.TaskSucceeds totalFileSize m.nvmeControllers.length toCreate (space k)

variable {m m' : GPUFileManager} {totalFileSize toCreate : ℕ} {tensorShape : List ℕ}
  {space : ℕ → ℕ → Option (List FiemapExtent)} {writes : ℕ → Bool}

/-- The slots that are found, if there are enough. -/
theorem findMultipleFreeSlots_eq (m : GPUFileManager) (toCreate : ℕ) :
    ((m.findMultipleFreeSlots toCreate).length = toCreate ↔ toCreate ≤ m.freeSlots.length) ∧
      (toCreate ≤ m.freeSlots.length → m.findMultipleFreeSlots toCreate = m.freeSlots.take toCreate) := by
  have hfrees : firstFrees MAX_RECORDS toCreate m.dirtyBitmap = m.freeSlots.take toCreate := firstFrees_eq _ _ _
  rw [findMultipleFreeSlots, hfrees, List.length_take]
  split_ifs with hfew
  · exact ⟨iff_of_false (by rw [List.length_nil]; omega) (by omega), fun hle => by omega⟩
  · exact ⟨iff_of_true (by rw [List.length_take]; omega) (by omega), fun _ => rfl⟩

/-- Slots that were free and are given back are free as before. -/
theorem dirtyBitmap_releaseSlots {slots : List ℕ} (hslots : ∀ slot ∈ slots, m.dirtyBitmap slot = false) :
    (m.releaseSlots slots).dirtyBitmap = m.dirtyBitmap := by
  funext i
  rw [releaseSlots]
  dsimp only
  split_ifs with hi
  · exact (hslots i hi).symm
  · rfl

/-- Which record is the first that cannot be written. -/
theorem writeRecords_spec (header : LogHeader) (files : List (ℕ × GPUFileDesc)) (i : ℕ) (log : ByteFile) :
    ((∀ j < files.length, writes (i + j) = true) ∧ (writeRecords header writes i files log).1 = none) ∨
      ∃ j < files.length, writes (i + j) = false ∧ (∀ j' < j, writes (i + j') = true) ∧
        (writeRecords header writes i files log).1 = some (i + j) := by
  induction files generalizing i log with
  | nil => exact Or.inl ⟨by simp, rfl⟩
  | cons file files ih =>
      rw [writeRecords]
      by_cases hwrite : writes i = true
      · rw [if_pos hwrite]
        rcases ih (i + 1) (writeRecordToSlot GPUFileDesc.codec log header file.2 file.1) with
          ⟨hall, hnone⟩ | ⟨j, hj, hfails, hbefore, hsome⟩
        · refine Or.inl ⟨fun j hj => ?_, hnone⟩
          cases j with
          | zero => exact hwrite
          | succ j =>
              rw [Nat.add_succ, ← Nat.succ_add]
              exact hall j (by simpa using hj)
        · refine Or.inr ⟨j + 1, by simpa using hj, ?_, fun j' hj' => ?_, ?_⟩
          · rw [Nat.add_succ, ← Nat.succ_add]
            exact hfails
          · cases j' with
            | zero => exact hwrite
            | succ j' =>
                rw [Nat.add_succ, ← Nat.succ_add]
                exact hbefore j' (by omega)
          · rw [hsome, Nat.add_assoc, Nat.add_comm 1 j]
      · rw [if_neg hwrite]
        exact Or.inr ⟨0, by simp, by simpa using hwrite, by simp, rfl⟩

/-- The mapping of GPU file `j`, when every task has succeeded. -/
theorem mapping_of_results {results : List (Option (List ℕ) × NVMeController)} {k j : ℕ} {ids : List ℕ}
    {c' : NVMeController} (hresult : results[k]? = some (some ids, c')) (hlt : ∀ id ∈ ids, id < MAX_RECORDS)
    (hj : j < ids.length) (hk : k < 4) :
    (CompactNVMeMapping.ofFiles (results.map fun result => (result.1.getD []).getD j 0)).hasNvmeController k =
        true ∧
      ids[j]? = some ((CompactNVMeMapping.ofFiles
        (results.map fun result => (result.1.getD []).getD j 0)).fileId k) := by
  have hid : ids[j]? = some ids[j] := List.getElem?_eq_getElem hj
  have hget : (results.map fun result => (result.1.getD []).getD j 0)[k]? = some ids[j] := by
    rw [List.getElem?_map, hresult]
    simp [List.getD_eq_getElem?_getD, hid]
  have hlength := (List.getElem?_eq_some_iff.1 hget).1
  refine ⟨CompactNVMeMapping.hasNvmeController_ofFiles _ hk hlength, ?_⟩
  have hsmall := hlt ids[j] (List.getElem_mem hj)
  rw [MAX_RECORDS_eq] at hsmall
  rw [CompactNVMeMapping.fileId_ofFiles _ hk hget, Nat.mod_eq_of_lt (by omega), hid]

theorem nvmeMapping_new (slot totalFileSize : ℕ) (tensorShape nvmeFileIds : List ℕ) :
    (GPUFileDesc.new slot totalFileSize tensorShape nvmeFileIds).nvmeMapping =
      CompactNVMeMapping.ofFiles nvmeFileIds := rfl

/-- No mapping names a controller from the fifth on. -/
theorem hasNvmeController_of_le (mapping : CompactNVMeMapping) {k : ℕ} (hk : 4 ≤ k) :
    mapping.hasNvmeController k = false := by
  rw [CompactNVMeMapping.hasNvmeController, decide_eq_false (Nat.not_lt.2 hk), Bool.false_and]

/-- The mappings of the first GPU files are valid. -/
theorem isValid_of_mem_mappings {results : List (Option (List ℕ) × NVMeController)} {n : ℕ} :
    ∀ mapping ∈ (List.range n).map fun j =>
        CompactNVMeMapping.ofFiles (results.map fun result => (result.1.getD []).getD j 0),
      mapping.isValid = true := by
  intro mapping hmapping
  obtain ⟨j, -, rfl⟩ := List.mem_map.1 hmapping
  exact CompactNVMeMapping.isValid_ofFiles _

/-- The files of a controller that the mappings of the first GPU files name. -/
theorem namedFiles {results : List (Option (List ℕ) × NVMeController)} {k n : ℕ} {ids : List ℕ}
    {c' : NVMeController} (hresult : results[k]? = some (some ids, c')) (hlt : ∀ id ∈ ids, id < MAX_RECORDS)
    (hn : n ≤ ids.length) :
    ((((List.range n).map fun j =>
        CompactNVMeMapping.ofFiles (results.map fun result => (result.1.getD []).getD j 0)).filter
      fun mapping => mapping.hasNvmeController k).map fun mapping => mapping.fileId k) =
      if k < 4 then ids.take n else [] := by
  split_ifs with hk
  · rw [List.filter_eq_self.2, List.map_map]
    · apply List.ext_getElem
      · rw [List.length_map, List.length_range, List.length_take, Nat.min_eq_left hn]
      · intro j hj _
        rw [List.length_map, List.length_range] at hj
        have hid := (mapping_of_results hresult hlt (show j < ids.length by omega) hk).2
        rw [List.getElem?_eq_getElem (by omega)] at hid
        rw [List.getElem_map, List.getElem_range, List.getElem_take]
        exact (Option.some.inj hid).symm
    · intro mapping hmapping
      obtain ⟨j, hj, rfl⟩ := List.mem_map.1 hmapping
      rw [List.mem_range] at hj
      exact (mapping_of_results hresult hlt (by omega) hk).1
  · rw [List.filter_eq_nil_iff.2, List.map_nil]
    intro mapping _
    rw [hasNvmeController_of_le mapping (Nat.not_lt.1 hk)]
    exact Bool.false_ne_true

/-- What is left of a controller on which a task has created files, after the deletions for the first GPU files. -/
theorem getElem?_foldl_mappings {results : List (Option (List ℕ) × NVMeController)} {k n : ℕ} {ids : List ℕ}
    {c' : NVMeController} (hresult : results[k]? = some (some ids, c')) (hlt : ∀ id ∈ ids, id < MAX_RECORDS)
    (hn : n ≤ ids.length) :
    (((List.range n).map fun j => CompactNVMeMapping.ofFiles
        (results.map fun result => (result.1.getD []).getD j 0)).foldl deleteNVMeFilesForGPUFile
          (results.map Prod.snd))[k]? = some (c'.deleteAll (if k < 4 then ids.take n else [])) := by
  rw [foldl_deleteNVMeFilesForGPUFile _ isValid_of_mem_mappings, namedFiles hresult hlt hn, List.getElem?_map,
    hresult]
  rfl

/-- What the task on a controller has done. -/
theorem getElem?_createNVMeFilesTasks (m : GPUFileManager) (totalFileSize toCreate : ℕ)
    (space : ℕ → ℕ → Option (List FiemapExtent)) (k : ℕ) :
    (m.createNVMeFilesTasks totalFileSize toCreate space)[k]? = (m.nvmeControllers[k]?).map fun c =>
      c.createNVMeFilesPerDevice totalFileSize m.nvmeControllers.length toCreate (space k) := by
  rw [createNVMeFilesTasks, List.getElem?_mapIdx]

/-- **The tasks all succeed** if each of them has what it needs. -/
theorem all_taskOk_iff :
    (m.createNVMeFilesTasks totalFileSize toCreate space).all (taskOk toCreate) = true ↔
      ∀ (k : ℕ) (c : NVMeController), m.nvmeControllers[k]? = some c →
        c.TaskSucceeds totalFileSize m.nvmeControllers.length toCreate (space k) := by
  rw [List.all_eq_true]
  constructor
  · intro hall k c hc
    have hok := hall _ (List.mem_of_getElem? (show (m.createNVMeFilesTasks totalFileSize toCreate space)[k]? =
      some (c.createNVMeFilesPerDevice totalFileSize m.nvmeControllers.length toCreate (space k)) by
        rw [getElem?_createNVMeFilesTasks, hc, Option.map_some]))
    rcases c.createNVMeFilesPerDevice_cases totalFileSize m.nvmeControllers.length toCreate (space k) with
      ⟨hsucceeds, -⟩ | ⟨-, -, hfails⟩
    · exact hsucceeds
    · rw [hok] at hfails
      cases hfails
  · intro hall result hresult
    obtain ⟨k, hk⟩ := List.mem_iff_getElem?.1 hresult
    rw [getElem?_createNVMeFilesTasks, Option.map_eq_some_iff] at hk
    obtain ⟨c, hc, rfl⟩ := hk
    rcases c.createNVMeFilesPerDevice_cases totalFileSize m.nvmeControllers.length toCreate (space k) with
      ⟨-, ids, -, -, -, hok⟩ | ⟨hfails, -, -⟩
    · exact hok
    · exact absurd (hall k c hc) hfails

/-- **The tasks leave the controllers as they were** if none of them succeeds. -/
theorem tasks_unchanged_iff :
    (m.createNVMeFilesTasks totalFileSize toCreate space).map Prod.snd = m.nvmeControllers ↔
      ∀ (k : ℕ) (c : NVMeController), m.nvmeControllers[k]? = some c →
        ¬ c.TaskSucceeds totalFileSize m.nvmeControllers.length toCreate (space k) := by
  constructor
  · intro hsame k c hc hsucceeds
    have hk : ((m.createNVMeFilesTasks totalFileSize toCreate space).map Prod.snd)[k]? = some c := by
      rw [hsame, hc]
    rw [List.getElem?_map, getElem?_createNVMeFilesTasks, hc, Option.map_some, Option.map_some,
      Option.some_inj] at hk
    rcases c.createNVMeFilesPerDevice_cases totalFileSize m.nvmeControllers.length toCreate (space k) with
      ⟨-, ids, -, hlen, hcreated, -⟩ | ⟨hfails, -, -⟩
    · obtain ⟨id, hid⟩ := List.exists_mem_of_length_pos (show 0 < ids.length by rw [hlen]; exact hsucceeds.pos)
      exact hcreated.deleteAll_ne hid (List.not_mem_nil (a := id)) hk
    · exact hfails hsucceeds
  · intro hnone
    apply List.ext_getElem?
    intro k
    rw [List.getElem?_map, getElem?_createNVMeFilesTasks]
    cases hc : m.nvmeControllers[k]? with
    | none => rfl
    | some c =>
        rcases c.createNVMeFilesPerDevice_cases totalFileSize m.nvmeControllers.length toCreate (space k) with
          ⟨hsucceeds, -⟩ | ⟨-, hsame, -⟩
        · exact absurd hsucceeds (hnone k c hc)
        · rw [Option.map_some, Option.map_some, hsame]

/-- What the task on a controller has created, when all tasks succeed. -/
theorem task_created (hall : ∀ (k : ℕ) (c : NVMeController), m.nvmeControllers[k]? = some c →
      c.TaskSucceeds totalFileSize m.nvmeControllers.length toCreate (space k)) {k : ℕ} {c : NVMeController}
    (hc : m.nvmeControllers[k]? = some c) :
    ∃ ids c', (m.createNVMeFilesTasks totalFileSize toCreate space)[k]? = some (some ids, c') ∧
      ids.length = toCreate ∧ c.Created ids c' := by
  rcases c.createNVMeFilesPerDevice_cases totalFileSize m.nvmeControllers.length toCreate (space k) with
    ⟨-, ids, hids, hlen, hcreated, -⟩ | ⟨hfails, -, -⟩
  · refine ⟨ids, _, ?_, hlen, hcreated⟩
    rw [getElem?_createNVMeFilesTasks, hc, Option.map_some, ← hids]
  · exact absurd (hall k c hc) hfails

/-- **A record cannot be written**, after all tasks have succeeded: the deletions bring the controllers back to
what they were if there are four at most, and the record is the last. -/
theorem deletions_iff (hall : ∀ (k : ℕ) (c : NVMeController), m.nvmeControllers[k]? = some c →
      c.TaskSucceeds totalFileSize m.nvmeControllers.length toCreate (space k)) {n : ℕ} (hn : n ≤ toCreate) :
    ((List.range n).map fun j => CompactNVMeMapping.ofFiles
        ((m.createNVMeFilesTasks totalFileSize toCreate space).map fun result =>
          (result.1.getD []).getD j 0)).foldl deleteNVMeFilesForGPUFile
        ((m.createNVMeFilesTasks totalFileSize toCreate space).map Prod.snd) = m.nvmeControllers ↔
      m.nvmeControllers = [] ∨ m.nvmeControllers.length ≤ 4 ∧ n = toCreate := by
  generalize hresults : m.createNVMeFilesTasks totalFileSize toCreate space = results
  constructor
  · intro hsame
    by_cases hnil : m.nvmeControllers = []
    · exact Or.inl hnil
    have hpos := List.length_pos_iff.2 hnil
    -- what stays on controller `k` is nothing
    have hstays : ∀ k < m.nvmeControllers.length, ∃ ids : List ℕ, ids.length = toCreate ∧ ids.Nodup ∧
        ∀ id ∈ ids, id ∈ (if k < 4 then ids.take n else []) := by
      intro k hk
      obtain ⟨ids, c', hresult, hlen, hcreated⟩ := task_created hall (List.getElem?_eq_getElem hk)
      rw [hresults] at hresult
      have hk' := getElem?_foldl_mappings hresult hcreated.lt (show n ≤ ids.length by omega)
      rw [hsame, List.getElem?_eq_getElem hk, Option.some_inj] at hk'
      refine ⟨ids, hlen, hcreated.nodup, fun id hid => ?_⟩
      by_contra hnot
      exact hcreated.deleteAll_ne hid hnot hk'.symm
    have htoCreate : 0 < toCreate := (hall 0 _ (List.getElem?_eq_getElem hpos)).pos
    refine Or.inr ⟨?_, ?_⟩
    · by_contra hmany
      obtain ⟨ids, hlen, -, hids⟩ := hstays 4 (by omega)
      obtain ⟨id, hid⟩ := List.exists_mem_of_length_pos (show 0 < ids.length by omega)
      have hmem := hids id hid
      rw [if_neg (by omega)] at hmem
      cases hmem
    · obtain ⟨ids, hlen, hnodup, hids⟩ := hstays 0 hpos
      simp only [Nat.zero_lt_succ, if_true] at hids
      have hle := (List.subperm_of_subset hnodup hids).length_le
      rw [List.length_take] at hle
      omega
  · rintro (hnil | ⟨hfew, rfl⟩)
    · have hempty : results = [] := by
        rw [← hresults, createNVMeFilesTasks, hnil]
        rfl
      rw [hempty, hnil, List.map_nil, ← List.length_eq_zero_iff, length_foldl_deleteNVMeFilesForGPUFile,
        List.length_nil]
    · apply List.ext_getElem?
      intro k
      cases hc : m.nvmeControllers[k]? with
      | none =>
          have hresult : results[k]? = none := by
            rw [← hresults, getElem?_createNVMeFilesTasks, hc, Option.map_none]
          rw [foldl_deleteNVMeFilesForGPUFile _ isValid_of_mem_mappings, List.getElem?_map, hresult]
          rfl
      | some c =>
          obtain ⟨ids, c', hresult, hlen, hcreated⟩ := task_created hall hc
          rw [hresults] at hresult
          have hk := (List.getElem?_eq_some_iff.1 hc).1
          rw [getElem?_foldl_mappings hresult hcreated.lt (by omega), if_pos (by omega), ← hlen, List.take_length,
            hcreated.deleteAll]

/-- **All records are written**, after all tasks have succeeded: the call has created all files, if there are four
controllers at most. -/
theorem hasNew_iff (hall : ∀ (k : ℕ) (c : NVMeController), m.nvmeControllers[k]? = some c →
      c.TaskSucceeds totalFileSize m.nvmeControllers.length toCreate (space k)) {slots : List ℕ}
    (hlength : slots.length = toCreate) (hnodup : slots.Nodup) (hfresh : ∀ id ∈ slots, id ∉ m.descs) :
    m.HasNew toCreate slots ((takeSlots { m with
        nvmeControllers := (m.createNVMeFilesTasks totalFileSize toCreate space).map Prod.snd }
      (slots.mapIdx fun i slot => (slot, GPUFileDesc.new slot totalFileSize tensorShape
        ((m.createNVMeFilesTasks totalFileSize toCreate space).map fun result =>
          (result.1.getD []).getD i 0)))).countWrites toCreate) ↔
      m.nvmeControllers.length ≤ 4 := by
  generalize hfiles : (slots.mapIdx fun i slot => (slot, GPUFileDesc.new slot totalFileSize tensorShape
    ((m.createNVMeFilesTasks totalFileSize toCreate space).map fun result => (result.1.getD []).getD i 0))) = files
  have hkeys : files.map Prod.fst = slots := by
    rw [← hfiles]
    exact List.ext_getElem (by simp) (by simp)
  have hlook : ∀ (j slot : ℕ), slots[j]? = some slot →
      (takeSlots { m with nvmeControllers := (m.createNVMeFilesTasks totalFileSize toCreate space).map Prod.snd }
        files).descs.lookup slot = some (GPUFileDesc.new slot totalFileSize tensorShape
          ((m.createNVMeFilesTasks totalFileSize toCreate space).map fun result =>
            (result.1.getD []).getD j 0)) := by
    intro j slot hslot
    refine takeSlots_lookup _ (hkeys ▸ hnodup) (List.mem_of_getElem? (i := j) ?_)
    rw [← hfiles, List.getElem?_mapIdx, hslot]
    rfl
  have hold : ∀ id ∉ slots,
      (takeSlots { m with nvmeControllers := (m.createNVMeFilesTasks totalFileSize toCreate space).map Prod.snd }
        files).descs.lookup id = m.descs.lookup id :=
    fun id hid => takeSlots_lookup_of_notMem _ (by rwa [hkeys])
  have hcontrollers := (takeSlots_frame { m with
    nvmeControllers := (m.createNVMeFilesTasks totalFileSize toCreate space).map Prod.snd } files).2.2
  constructor
  · intro hnew
    by_contra hmany
    have hk : 4 < m.nvmeControllers.length := by omega
    obtain ⟨ids, c', -, -, hlen, hrecords⟩ := hnew.files 4 _ (List.getElem?_eq_getElem hk)
    have hpos := (hall 4 _ (List.getElem?_eq_getElem hk)).pos
    -- a record names four files at most
    obtain ⟨desc, -, hhas, -⟩ := hrecords 0 _ (List.getElem?_eq_getElem (by omega))
    rw [hasNvmeController_of_le _ (le_refl 4)] at hhas
    cases hhas
  · intro hfew
    refine ⟨hlength, hnodup, hfresh, ?_, ?_, ?_⟩
    · intro id
      rw [countWrites_descs, ← AList.lookup_isSome, ← AList.lookup_isSome]
      by_cases hid : id ∈ slots
      · obtain ⟨j, hj⟩ := List.mem_iff_getElem?.1 hid
        rw [hlook j id hj]
        exact iff_of_true rfl (Or.inr hid)
      · rw [hold id hid]
        exact ⟨Or.inl, fun h => h.resolve_right hid⟩
    · intro id hid
      rw [countWrites_descs, hold id hid]
    · intro k c hc
      obtain ⟨ids, c', hresult, hlen, hcreated⟩ := task_created hall hc
      have hk := (List.getElem?_eq_some_iff.1 hc).1
      refine ⟨ids, c', ?_, hcreated, hlen, ?_⟩
      · rw [countWrites_nvmeControllers, hcontrollers, List.getElem?_map, hresult]
        rfl
      · intro j slot hslot
        have hj := (List.getElem?_eq_some_iff.1 hslot).1
        obtain ⟨hhas, hid⟩ := mapping_of_results hresult hcreated.lt (show j < ids.length by omega)
          (show k < 4 by omega)
        refine ⟨GPUFileDesc.new slot totalFileSize tensorShape
          ((m.createNVMeFilesTasks totalFileSize toCreate space).map fun result => (result.1.getD []).getD j 0),
          ?_, ?_, ?_⟩
        · rw [countWrites_descs, hlook j slot hslot]
        · rw [nvmeMapping_new, hhas]
        · rw [nvmeMapping_new, hid]

/-- The mappings in the records of the first GPU files. -/
theorem map_nvmeMapping_take {slots : List ℕ} {n : ℕ} (hn : n ≤ slots.length) (totalFileSize : ℕ)
    (tensorShape : List ℕ) (nvmeFileIds : ℕ → List ℕ) :
    (((slots.mapIdx fun i slot => (slot, GPUFileDesc.new slot totalFileSize tensorShape (nvmeFileIds i))).take n).map
        fun file => file.2.nvmeMapping) =
      (List.range n).map fun i => CompactNVMeMapping.ofFiles (nvmeFileIds i) := by
  apply List.ext_getElem
  · rw [List.length_map, List.length_take, List.length_mapIdx, List.length_map, List.length_range]
    omega
  · intro i hi hi'
    simp [GPUFileDesc.new]

/-- **A call that gets as far as its records** succeeds if they can be written. -/
theorem createGPUFiles_of_prepares (h : m.Prepares totalFileSize toCreate tensorShape space) :
    m.createGPUFiles totalFileSize toCreate tensorShape space =
      some (some (m.findMultipleFreeSlots toCreate), (takeSlots { m with
          nvmeControllers := (m.createNVMeFilesTasks totalFileSize toCreate space).map Prod.snd }
        ((m.findMultipleFreeSlots toCreate).mapIdx fun i slot => (slot, GPUFileDesc.new slot totalFileSize tensorShape
          ((m.createNVMeFilesTasks totalFileSize toCreate space).map fun result =>
            (result.1.getD []).getD i 0)))).countWrites toCreate) := by
  have hany : ¬ (m.findMultipleFreeSlots toCreate).any (· ∈ m.descs) = true := by
    rw [List.any_eq_true]
    rintro ⟨slot, hslot, hmem⟩
    exact h.fresh slot hslot (of_decide_eq_true hmem)
  have htasks := all_taskOk_iff.2 h.tasks
  simp only [createGPUFiles]
  rw [if_neg (not_not.2 h.shape), if_neg (not_not.2 h.slots), if_neg hany, htasks, if_neg (by decide)]

/-- **A call that gets as far as its records** is the one whose records can all be written, or deletes the NVMe files
of the GPU files up to the first whose record cannot. -/
theorem createGPUFilesWriting_of_prepares (h : m.Prepares totalFileSize toCreate tensorShape space) :
    ((∀ i < toCreate, writes i = true) ∧
      m.createGPUFilesWriting totalFileSize toCreate tensorShape space writes =
        m.createGPUFiles totalFileSize toCreate tensorShape space) ∨
    ∃ j < toCreate, writes j = false ∧ (∀ i < j, writes i = true) ∧ ∃ log,
      m.createGPUFilesWriting totalFileSize toCreate tensorShape space writes =
        some (none, releaseSlots { m with
          log
          nvmeControllers := ((List.range (j + 1)).map fun i => CompactNVMeMapping.ofFiles
            ((m.createNVMeFilesTasks totalFileSize toCreate space).map fun result =>
              (result.1.getD []).getD i 0)).foldl deleteNVMeFilesForGPUFile
            ((m.createNVMeFilesTasks totalFileSize toCreate space).map Prod.snd) }
          (m.findMultipleFreeSlots toCreate)) := by
  have hany : ¬ (m.findMultipleFreeSlots toCreate).any (· ∈ m.descs) = true := by
    rw [List.any_eq_true]
    rintro ⟨slot, hslot, hmem⟩
    exact h.fresh slot hslot (of_decide_eq_true hmem)
  have htasks := all_taskOk_iff.2 h.tasks
  rw [createGPUFiles_of_prepares h]
  simp only [createGPUFilesWriting]
  rw [if_neg (not_not.2 h.shape), if_neg (not_not.2 h.slots), if_neg hany, htasks, if_neg (by decide)]
  generalize hfiles : (m.findMultipleFreeSlots toCreate).mapIdx _ = files
  have hlength : files.length = toCreate := by rw [← hfiles, List.length_mapIdx, h.slots]
  cases hwritten : writeRecords m.header writes 0 files m.log with
  | mk failed log =>
      rcases @writeRecords_spec writes m.header files 0 m.log with ⟨hwrites, hfailed⟩ | ⟨j, hj, hfails, hbefore, hfailed⟩
      · rw [hwritten] at hfailed
        obtain rfl : failed = none := hfailed
        refine Or.inl ⟨fun i hi => ?_, rfl⟩
        have hwrite := hwrites i (by omega)
        rwa [Nat.zero_add] at hwrite
      · rw [hwritten, Nat.zero_add] at hfailed
        obtain rfl : failed = some j := hfailed
        rw [Nat.zero_add] at hfails
        refine Or.inr ⟨j, by omega, hfails, fun i hi => ?_, log, ?_⟩
        · have hwrite := hbefore i hi
          rwa [Nat.zero_add] at hwrite
        · have hle : j + 1 ≤ (m.findMultipleFreeSlots toCreate).length := by rw [h.slots]; omega
          rw [← map_nvmeMapping_take hle totalFileSize tensorShape, hfiles]

/-- **A call that does not get as far as its records** does the same whether they can be written or not. -/
theorem createGPUFilesWriting_of_not_prepares (h : ¬ m.Prepares totalFileSize toCreate tensorShape space) :
    m.createGPUFilesWriting totalFileSize toCreate tensorShape space writes =
      m.createGPUFiles totalFileSize toCreate tensorShape space := by
  simp only [createGPUFilesWriting, createGPUFiles]
  split_ifs with hshape hslots hany htasks
  · rfl
  · rfl
  · rfl
  · rfl
  · refine absurd ⟨not_not.1 hshape, not_not.1 hslots, fun slot hslot hmem => ?_, ?_⟩ h
    · exact hany (List.any_eq_true.2 ⟨slot, hslot, decide_eq_true hmem⟩)
    · rw [Bool.not_eq_true', Bool.not_eq_false] at htasks
      exact all_taskOk_iff.1 htasks

/-- When a call that gets as far as its records creates all files or leaves everything as it was. -/
theorem createsAll_iff_of_prepares (h : m.Prepares totalFileSize toCreate tensorShape space) :
    m.CreatesAll toCreate (m.createGPUFilesWriting totalFileSize toCreate tensorShape space writes) ↔
      m.nvmeControllers = [] ∨ m.nvmeControllers.length ≤ 4 ∧ ∀ i, i + 1 < toCreate → writes i = true := by
  obtain ⟨hnodup, hfound⟩ := m.findMultipleFreeSlots_spec toCreate
  rcases @createGPUFilesWriting_of_prepares _ _ _ _ _ writes h with
    ⟨hwrites, hcall⟩ | ⟨j, hj, hfails, hbefore, log, hcall⟩
  · rw [hcall, createGPUFiles_of_prepares h, CreatesAll, hasNew_iff h.tasks h.slots hnodup h.fresh]
    constructor
    · intro hfew
      exact Or.inr ⟨hfew, fun i hi => hwrites i (by omega)⟩
    · rintro (hnil | ⟨hfew, -⟩)
      · rw [hnil, List.length_nil]
        omega
      · exact hfew
  · rw [hcall, CreatesAll]
    have hdeletions := @deletions_iff m totalFileSize toCreate space h.tasks (j + 1) (by omega)
    constructor
    · intro hsame
      rcases hdeletions.1 hsame.nvmeControllers with hnil | ⟨hfew, hlast⟩
      · exact Or.inl hnil
      · exact Or.inr ⟨hfew, fun i hi => hbefore i (by omega)⟩
    · intro hwhen
      refine ⟨dirtyBitmap_releaseSlots fun slot hslot => (hfound slot hslot).2, rfl, hdeletions.2 ?_⟩
      rcases hwhen with hnil | ⟨hfew, hwrites⟩
      · exact Or.inl hnil
      · refine Or.inr ⟨hfew, ?_⟩
        by_contra hnotLast
        rw [hwrites j (by omega)] at hfails
        cases hfails

/-- When a call that does not get as far as its records leaves everything as it was. -/
theorem createsAll_iff_of_not_prepares (h : ¬ m.Prepares totalFileSize toCreate tensorShape space) :
    m.CreatesAll toCreate (m.createGPUFiles totalFileSize toCreate tensorShape space) ↔
      tensorShape.length ≠ 3 ∨ (m.findMultipleFreeSlots toCreate).length = toCreate ∧
        ((∃ slot ∈ m.findMultipleFreeSlots toCreate, slot ∈ m.descs) ∨
          ∀ (k : ℕ) (c : NVMeController), m.nvmeControllers[k]? = some c →
            ¬ c.TaskSucceeds totalFileSize m.nvmeControllers.length toCreate (space k)) := by
  have hreleased := dirtyBitmap_releaseSlots fun slot hslot => ((m.findMultipleFreeSlots_spec toCreate).2 slot hslot).2
  simp only [createGPUFiles]
  split_ifs with hshape hslots hany htasks
  · exact iff_of_true ⟨rfl, rfl, rfl⟩ (Or.inl hshape)
  · exact iff_of_false (fun h => h) fun hor => hor.elim hshape fun hand => hslots hand.1
  · refine iff_of_true ⟨hreleased, rfl, rfl⟩ (Or.inr ⟨not_not.1 hslots, Or.inl ?_⟩)
    simpa using hany
  · rw [or_iff_right hshape, and_iff_right (not_not.1 hslots), or_iff_right fun hor => hany (by simpa using hor)]
    have hsame := @tasks_unchanged_iff m totalFileSize toCreate space
    exact ⟨fun hnew => hsame.1 hnew.nvmeControllers, fun hnone => ⟨hreleased, rfl, hsame.2 hnone⟩⟩
  · refine absurd ⟨not_not.1 hshape, not_not.1 hslots, fun slot hslot hmem => ?_, ?_⟩ h
    · exact hany (List.any_eq_true.2 ⟨slot, hslot, decide_eq_true hmem⟩)
    · rw [Bool.not_eq_true', Bool.not_eq_false] at htasks
      exact all_taskOk_iff.1 htasks

/-- **When a call creates all files or leaves everything as it was.** -/
theorem createsAll_iff (m : GPUFileManager) (totalFileSize toCreate : ℕ) (tensorShape : List ℕ)
    (space : ℕ → ℕ → Option (List FiemapExtent)) (writes : ℕ → Bool) :
    m.CreatesAll toCreate (m.createGPUFilesWriting totalFileSize toCreate tensorShape space writes) ↔
      m.CreatesAllWhen totalFileSize toCreate tensorShape space writes := by
  obtain ⟨henough, hslots⟩ := m.findMultipleFreeSlots_eq toCreate
  rw [CreatesAllWhen]
  by_cases hprepares : m.Prepares totalFileSize toCreate tensorShape space
  · have hroom := henough.1 hprepares.slots
    have htaken : ¬ ∃ slot ∈ m.findMultipleFreeSlots toCreate, slot ∈ m.descs := by
      rintro ⟨slot, hslot, hmem⟩
      exact hprepares.fresh slot hslot hmem
    -- no task fails, so that all fail only if there is none
    have hnone : (∀ (k : ℕ) (c : NVMeController), m.nvmeControllers[k]? = some c →
        ¬ c.TaskSucceeds totalFileSize m.nvmeControllers.length toCreate (space k)) ↔ m.nvmeControllers = [] := by
      constructor
      · intro h
        by_contra hne
        have hget := List.getElem?_eq_getElem (List.length_pos_iff.2 hne)
        exact h 0 _ hget (hprepares.tasks 0 _ hget)
      · intro hnil k c hc
        rw [hnil] at hc
        cases hc
    rw [createsAll_iff_of_prepares hprepares, or_iff_right (not_not.2 hprepares.shape), and_iff_right hroom,
      ← hslots hroom, or_iff_right htaken, hnone, and_iff_right hprepares.tasks]
  · rw [createGPUFilesWriting_of_not_prepares hprepares, createsAll_iff_of_not_prepares hprepares]
    by_cases hshape : tensorShape.length = 3
    · rw [or_iff_right (not_not.2 hshape), or_iff_right (not_not.2 hshape), henough]
      refine and_congr_right fun hroom => ?_
      rw [← hslots hroom]
      constructor
      · rintro (htaken | hnone)
        · exact Or.inl htaken
        · exact Or.inr (Or.inl hnone)
      · rintro (htaken | hnone | ⟨hall, -⟩)
        · exact Or.inl htaken
        · exact Or.inr hnone
        · by_contra hor
          rw [not_or, not_exists] at hor
          exact hprepares ⟨hshape, henough.2 hroom, fun slot hslot hmem => hor.1 slot ⟨hslot, hmem⟩, hall⟩
    · exact iff_of_true (Or.inl hshape) (Or.inl hshape)

/-- The second of two controllers has no space: the file on the first one stays. -/
theorem not_createsAll_second_controller :
    ¬ (freshManager 2).CreatesAll 1 ((freshManager 2).createGPUFilesWriting 131072 1 [2, 1, 65536]
      (fun k _ => if k = 0 then some [] else none) fun _ => true) := by
  have hout : (((freshManager 2).createGPUFilesWriting 131072 1 [2, 1, 65536]
      (fun k _ => if k = 0 then some [] else none) fun _ => true).map fun out =>
        (out.1, (out.2.nvmeControllers[0]?).map fun c => (c.files 0).isSome)) = some (none, some true) := by
    decide +kernel
  have hbefore : ((freshManager 2).nvmeControllers[0]?).map (fun c => (c.files 0).isSome) = some false := by
    decide +kernel
  obtain ⟨⟨out, m'⟩, hcall, hout⟩ := Option.map_eq_some_iff.1 hout
  rw [Prod.mk.injEq] at hout
  obtain ⟨rfl, hfile⟩ := hout
  rw [hcall]
  intro hsame
  rw [(show (freshManager 2).SameFiles m' from hsame).nvmeControllers, hbefore] at hfile
  cases hfile

end GPUFileManager
end GeminiFS
end InfiniKV
