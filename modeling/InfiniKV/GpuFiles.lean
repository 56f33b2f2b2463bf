/-
**The GPU file manager.**

A GPU file is striped over one NVMe file on each of the first four controllers.  `GPUFileManager`
numbers the GPU files by the slots of its log, in the same format as the log of an NVMe file manager,
but opens and writes it with code of its own: an existing log is never checked beyond its magic number,
and a header that cannot be read stays what the memory holds.

Beside the log the manager keeps a pool: files whose NVMe files are open on the device wait in the free
list, and `openGPUFile` hands them out from its end.

Main definitions:

* `InfiniKV.GeminiFS.GPUFileDesc`, `CompactNVMeMapping` — a record of the log, and which NVMe files it
  names;
* `InfiniKV.GeminiFS.NVMeController` — a controller, by the headers of its files;
* `InfiniKV.GeminiFS.GPUFileManager` — the manager, with its log, its pool and its controllers;
* `InfiniKV.GeminiFS.GPUFileManager.construct`, `createGPUFile`, `createGPUFiles`, `deleteGPUFile`,
  `initGPUFile`, `openGPUFile`, `closeGPUFile` — its operations.
-/

import InfiniKV.LowerBound
import InfiniKV.NvmeAddress
import InfiniKV.SlotLog
import Mathlib.Tactic.IntervalCases

set_option relaxedAutoImplicit false
set_option autoImplicit false

namespace InfiniKV
namespace GeminiFS

/-! ### Records -/

/-- `CompactNVMeMapping`: the NVMe file on each of four controllers, and flags that say for which of
them there is one (the four high bits) and whether the mapping is valid (the lowest). -/
structure CompactNVMeMapping where
  nvmeFileIds : Fin 4 → UInt32
  mappingFlags : UInt8

namespace CompactNVMeMapping

/-- `CompactNVMeMapping()`. -/
def empty : CompactNVMeMapping := ⟨fun _ => 0, 0⟩

/-- `is_valid`. -/
def isValid (mapping : CompactNVMeMapping) : Bool := mapping.mappingFlags &&& 0x01 ≠ 0

/-- `set_valid(true)`. -/
def setValid (mapping : CompactNVMeMapping) : CompactNVMeMapping :=
  { mapping with mappingFlags := mapping.mappingFlags ||| 0x01 }

/-- `has_nvme_controller`. -/
def hasNvmeController (mapping : CompactNVMeMapping) (controllerIndex : ℕ) : Bool :=
  decide (controllerIndex < 4) &&
    decide (mapping.mappingFlags &&& (0x80 >>> UInt8.ofNat controllerIndex) ≠ 0)

/-- `set_nvme_controller_exists` with the file on that controller. -/
def setFile (mapping : CompactNVMeMapping) (controllerIndex : Fin 4) (nvmeFileId : ℕ) :
    CompactNVMeMapping where
  nvmeFileIds := Function.update mapping.nvmeFileIds controllerIndex (UInt32.ofNat nvmeFileId)
  mappingFlags := mapping.mappingFlags ||| (0x80 >>> UInt8.ofNat controllerIndex)

/-- The NVMe file on a controller. -/
def fileId (mapping : CompactNVMeMapping) (controllerIndex : ℕ) : ℕ :=
  if h : controllerIndex < 4 then (mapping.nvmeFileIds ⟨controllerIndex, h⟩).toNat else 0

/-- The mapping to the NVMe files `ids`, one on each controller.  Only the first four are kept. -/
def ofFiles (ids : List ℕ) : CompactNVMeMapping :=
  (List.finRange 4).foldl (fun mapping i =>
    match ids[i.val]? with
    | some id => mapping.setFile i id
    | none => mapping) empty.setValid

theorem finRange_four : List.finRange 4 = [0, 1, 2, 3] := by decide

/-- A new mapping has a file on each of the first four controllers for which one is given. -/
theorem hasNvmeController_ofFiles (ids : List ℕ) {i : ℕ} (hi : i < 4) (hids : i < ids.length) :
    (ofFiles ids).hasNvmeController i = true := by
  -- the flags depend on the number of files only
  have hflags : ∀ flags : UInt8, (ofFiles ids).mappingFlags = flags →
      flags &&& (0x80 >>> UInt8.ofNat i) ≠ 0 → (ofFiles ids).hasNvmeController i = true := by
    intro flags heq hbit
    rw [hasNvmeController, heq, decide_eq_true hi, decide_eq_true hbit, Bool.and_true]
  match ids, hids, hflags with
  | [a], hids, hflags =>
      refine hflags 0x81 (by simp [ofFiles, finRange_four, setFile, empty, setValid]; decide) ?_
      obtain rfl : i = 0 := by simpa using hids
      decide
  | [a, b], hids, hflags =>
      refine hflags 0xC1 (by simp [ofFiles, finRange_four, setFile, empty, setValid]; decide) ?_
      have : i < 2 := by simpa using hids
      interval_cases i <;> decide
  | [a, b, c], hids, hflags =>
      refine hflags 0xE1 (by simp [ofFiles, finRange_four, setFile, empty, setValid]; decide) ?_
      have : i < 3 := by simpa using hids
      interval_cases i <;> decide
  | a :: b :: c :: d :: rest, hids, hflags =>
      refine hflags 0xF1 (by simp [ofFiles, finRange_four, setFile, empty, setValid]; decide) ?_
      interval_cases i <;> decide

/-- Its files are the given ones. -/
theorem fileId_ofFiles (ids : List ℕ) {i id : ℕ} (hi : i < 4) (hids : ids[i]? = some id) :
    (ofFiles ids).fileId i = id % 2 ^ 32 := by
  have hlt := (List.getElem?_eq_some_iff.mp hids).1
  match ids, hids, hlt with
  | [a], hids, hlt =>
      obtain rfl : i = 0 := by simpa using hlt
      cases hids
      simp [ofFiles, finRange_four, setFile, fileId]
  | [a, b], hids, hlt =>
      have : i < 2 := by simpa using hlt
      interval_cases i <;> cases hids <;> simp [ofFiles, finRange_four, setFile, fileId]
  | [a, b, c], hids, hlt =>
      have : i < 3 := by simpa using hlt
      interval_cases i <;> cases hids <;> simp [ofFiles, finRange_four, setFile, fileId]
  | a :: b :: c :: d :: rest, hids, hlt =>
      interval_cases i <;> cases hids <;> simp [ofFiles, finRange_four, setFile, fileId]

end CompactNVMeMapping

/-- `GPUFileDesc`. -/
structure GPUFileDesc where
  fileId : UInt32
  totalFileSize : UInt64
  blockSize : UInt64
  tensorShape : Fin 3 → UInt32
  nvmeMapping : CompactNVMeMapping

namespace GPUFileDesc

/-- The record as it lies in the log, with the padding the compiler puts behind the first and behind
the last field. -/
def codec : Codec GPUFileDesc :=
  Codec.ofFields
    (Codec.u32.pair <| (Codec.pad 4).pair <| Codec.u64.pair <| Codec.u64.pair <|
      (Codec.u32.array 3).pair <| (Codec.u32.array 4).pair <| Codec.u8.pair <| Codec.pad 3)
    (fun d => (d.fileId, (), d.totalFileSize, d.blockSize, d.tensorShape, d.nvmeMapping.nvmeFileIds,
      d.nvmeMapping.mappingFlags, ()))
    (fun t => ⟨t.1, t.2.2.1, t.2.2.2.1, t.2.2.2.2.1, ⟨t.2.2.2.2.2.1, t.2.2.2.2.2.2.1⟩⟩)
    fun _ => rfl

@[simp] theorem size_codec : codec.size = 56 := rfl

/-- The record of no file. -/
def empty : GPUFileDesc := ⟨0, 0, 0, fun _ => 0, ⟨fun _ => 0, 0⟩⟩

/-- The record of a new file. -/
def new (slot totalFileSize : ℕ) (tensorShape nvmeFileIds : List ℕ) : GPUFileDesc where
  fileId := UInt32.ofNat slot
  totalFileSize := UInt64.ofNat totalFileSize
  blockSize := UInt64.ofNat (tensorShape.getD 2 0)
  tensorShape i := UInt32.ofNat (tensorShape.getD i 0)
  nvmeMapping := CompactNVMeMapping.ofFiles nvmeFileIds

end GPUFileDesc

/-! ### Controllers -/

/-- `NVMeController`, as far as GPU files depend on it: `files` has the header of the NVMe file in each
slot of its file manager. -/
structure NVMeController where
  pageSize : ℕ
  blkSizeLog : ℕ
  maxIOsize : ℕ
  files : ℕ → Option GeminiHdr

/-- `ALIGN_SIZE`. -/
def ALIGN_SIZE : ℕ := 64 * 1024

/-- The size of the NVMe file that a GPU file gets on each controller: the quotient, rounded up. -/
def perNvmeFileSize (fileSize nvmeCount : ℕ) : ℕ :=
  let size := fileSize / nvmeCount
  if size % ALIGN_SIZE ≠ 0 then (size / ALIGN_SIZE + 1) * ALIGN_SIZE % 2 ^ 64 else size

/-- `__builtin_ctzll`. -/
def ctzll (n : ℕ) : ℕ := ((List.range 64).find? fun i => n.testBit i).getD 64

namespace NVMeController

/-- `host_file_create_managed`, where `none` stands for `UINT32_MAX` and for a failed assertion.  The
file manager gives the file its smallest free slot; `space` is what the file system has for the file,
if it has room. -/
def hostFileCreateManaged (c : NVMeController) (fileSize : ℕ)
    (space : Option (List FiemapExtent)) : Option (ℕ × NVMeController) :=
  match firstFree MAX_RECORDS fun slot => (c.files slot).isSome with
  | none => none
  | some slot =>
      if fileSize % c.pageSize ≠ 0 then none
      else space.map fun extents => (slot, { c with
        files := Function.update c.files slot (some
          ⟨0x7366696e696d6567, GEMINI_HDR_MAX_SIZE, fileSize, ctzll c.pageSize, extents⟩) })

/-- `host_file_delete_managed`. -/
def hostFileDeleteManaged (c : NVMeController) (nvmeFileId : ℕ) : NVMeController :=
  { c with files := Function.update c.files nvmeFileId none }

/-- `device_file_open_managed`, where `none` stands for a null pointer.  `allocated` says whether the
device had memory for the file. -/
def deviceFileOpenManaged (c : NVMeController) (nvmeFileId : ℕ) (allocated : Bool) : Option NVMeFile :=
  if allocated then (c.files nvmeFileId).map fun hdr => ⟨hdr, c.pageSize, c.blkSizeLog⟩ else none

/-- The loop of `createNVMeFilesPerDevice`, and its cleanup: `i` files have been created before. -/
def createLoop (fileSize : ℕ) (space : ℕ → Option (List FiemapExtent)) :
    ℕ → ℕ → NVMeController → Option (List ℕ) × NVMeController
  | 0, _, c => (some [], c)
  | n + 1, i, c =>
      match c.hostFileCreateManaged fileSize (space i) with
      | none => (none, c)
      | some (id, c') =>
          match createLoop fileSize space n (i + 1) c' with
          | (none, c'') => (none, c''.hostFileDeleteManaged id)
          | (some ids, c'') => (some (id :: ids), c'')

/-- `createNVMeFilesPerDevice`. -/
def createNVMeFilesPerDevice (c : NVMeController) (fileSize nvmeCount toCreate : ℕ)
    (space : ℕ → Option (List FiemapExtent)) : Option (List ℕ) × NVMeController :=
  if perNvmeFileSize fileSize nvmeCount < ALIGN_SIZE then (none, c)
  else createLoop (perNvmeFileSize fileSize nvmeCount) space toCreate 0 c

end NVMeController

/-- The loop of `createNVMeFilesForGPUFile` over the controllers from the `i`-th on, and its
cleanup. -/
def createAcross (fileSize : ℕ) (space : ℕ → Option (List FiemapExtent)) :
    List NVMeController → ℕ → Option (List ℕ) × List NVMeController
  | [], _ => (some [], [])
  | c :: rest, i =>
      if 4 ≤ i then (some [], c :: rest)
      else match c.hostFileCreateManaged fileSize (space i) with
        | none => (none, c :: rest)
        | some (id, c') =>
            match createAcross fileSize space rest (i + 1) with
            | (none, rest') => (none, c'.hostFileDeleteManaged id :: rest')
            | (some ids, rest') => (some (id :: ids), c' :: rest')

/-- `createNVMeFilesForGPUFile`. -/
def createNVMeFilesForGPUFile (nvmeControllers : List NVMeController) (fileSize : ℕ)
    (space : ℕ → Option (List FiemapExtent)) : Option (List ℕ) × List NVMeController :=
  if nvmeControllers.length = 0 then (none, nvmeControllers)
  else if perNvmeFileSize fileSize nvmeControllers.length < ALIGN_SIZE then (none, nvmeControllers)
  else createAcross (perNvmeFileSize fileSize nvmeControllers.length) space nvmeControllers 0

/-- `deleteNVMeFilesForGPUFile`. -/
def deleteNVMeFilesForGPUFile (nvmeControllers : List NVMeController) (mapping : CompactNVMeMapping) :
    List NVMeController :=
  if mapping.isValid then
    nvmeControllers.mapIdx fun i c =>
      if mapping.hasNvmeController i then c.hostFileDeleteManaged (mapping.fileId i) else c
  else nvmeControllers

/-! ### The manager -/

/-- `GPUFileManager`, with the content of its log file and the controllers of its GPU controller. -/
structure GPUFileManager where
  persistenceThreshold : ℕ
  pendingWritesCount : ℕ
  header : LogHeader
  dirtyBitmap : ℕ → Bool
  descs : AList fun _ : ℕ => GPUFileDesc
  freeList : List ℕ
  ctxs : AList fun _ : ℕ => List NVMeFile
  devFds : AList fun _ : ℕ × ℕ => NVMeFile
  nvmeControllers : List NVMeController
  log : ByteFile

namespace GPUFileManager

/-- `MAGIC_NUMBER`. -/
def MAGIC_NUMBER : UInt64 := 0x4750554649544C45

/-! ### Opening a log -/

/-- What `initializeLogFile` writes if there is no log: the header and an empty bitmap. -/
def initializeLogFile : ByteFile :=
  (ByteFile.empty.put LogHeader.codec 0
    (LogHeader.initial MAGIC_NUMBER GPUFileDesc.codec.size)).write LogHeader.codec.size
      (List.replicate BITMAP_SIZE_BYTES 0)

/-- The record that the loader reads for a slot.  It steps over the records by their own size. -/
def loadedRecord (log : ByteFile) (header : LogHeader) (i : ℕ) : Option GPUFileDesc :=
  log.get GPUFileDesc.codec (header.recordsOffset.toNat + i * GPUFileDesc.codec.size)

/-- One pass of the loop of `loadFromFile` over the slots: a record is filed under the id it names, if
its mapping is valid. -/
def loadSlot (m : GPUFileManager) (i : ℕ) : GPUFileManager :=
  if m.dirtyBitmap i then
    match loadedRecord m.log m.header i with
    | none => m
    | some desc =>
        if desc.nvmeMapping.isValid then { m with descs := m.descs.insert desc.fileId.toNat desc }
        else m
  else m

/-- The loop over the first `n` slots. -/
def loadSlots (m : GPUFileManager) (n : ℕ) : GPUFileManager := (List.range n).foldl loadSlot m

/-- A manager that has not looked at the slots of its log. -/
def opened (log : ByteFile) (header : LogHeader) (dirtyBitmap : ℕ → Bool)
    (nvmeControllers : List NVMeController) (persistenceThreshold : ℕ) : GPUFileManager :=
  ⟨persistenceThreshold, 0, header, dirtyBitmap, ∅, [], ∅, ∅, nvmeControllers, log⟩

/-- `loadFromFile`.  It gives up when the header cannot be read, and what is in memory then stays; when
the magic number is wrong; and when the bitmap cannot be read. -/
def loadFromFile (log : ByteFile) (memory : LogHeader) (nvmeControllers : List NVMeController)
    (persistenceThreshold : ℕ) : GPUFileManager :=
  match log.get LogHeader.codec 0 with
  | none => opened log memory (fun _ => false) nvmeControllers persistenceThreshold
  | some header =>
      if header.magicNum ≠ MAGIC_NUMBER then
        opened log header (fun _ => false) nvmeControllers persistenceThreshold
      else match bitmapBits log header with
        | none => opened log header (fun _ => false) nvmeControllers persistenceThreshold
        | some bits =>
            loadSlots (opened log header bits nvmeControllers persistenceThreshold) MAX_RECORDS

/-- The constructor, on the content of the log file if there is one.  `memory` is what the header is
found to be in memory if it cannot be read from the file. -/
def construct (content : Option ByteFile) (memory : LogHeader) (nvmeControllers : List NVMeController)
    (persistenceThreshold : ℕ) : GPUFileManager :=
  loadFromFile (content.getD initializeLogFile) memory nvmeControllers persistenceThreshold

/-! ### Persisting -/

variable (m : GPUFileManager)

/-- The header with the number of files. -/
def countedHeader : LogHeader :=
  { m.header with activeRecordCount := UInt64.ofNat m.descs.entries.length }

/-- `persistBitmap`. -/
def persistBitmap : GPUFileManager :=
  { m with
    header := m.countedHeader
    log := persistLog m.log m.countedHeader m.dirtyBitmap
    pendingWritesCount := 0 }

/-- `forcePersist`. -/
def forcePersist : GPUFileManager := m.persistBitmap

/-- The check every change ends with: `n` more writes are pending. -/
def countWrites (n : ℕ) : GPUFileManager :=
  let m' : GPUFileManager := { m with pendingWritesCount := m.pendingWritesCount + n }
  if m'.pendingWritesCount ≥ m'.persistenceThreshold then m'.persistBitmap else m'

@[simp] theorem countWrites_descs (n : ℕ) : (m.countWrites n).descs = m.descs := by
  simp only [countWrites]
  split_ifs <;> rfl

@[simp] theorem countWrites_ctxs (n : ℕ) : (m.countWrites n).ctxs = m.ctxs := by
  simp only [countWrites]
  split_ifs <;> rfl

@[simp] theorem countWrites_devFds (n : ℕ) : (m.countWrites n).devFds = m.devFds := by
  simp only [countWrites]
  split_ifs <;> rfl

@[simp] theorem countWrites_nvmeControllers (n : ℕ) :
    (m.countWrites n).nvmeControllers = m.nvmeControllers := by
  simp only [countWrites]
  split_ifs <;> rfl

/-! ### Creating and deleting files -/

/-- `findNextFreeSlot`, where `none` stands for `-1`. -/
def findNextFreeSlot : Option ℕ := firstFree MAX_RECORDS m.dirtyBitmap

/-- `findMultipleFreeSlots`: all that are asked for, or none. -/
def findMultipleFreeSlots (count : ℕ) : List ℕ :=
  let freeSlots := firstFrees MAX_RECORDS count m.dirtyBitmap
  if freeSlots.length < count then [] else freeSlots

/-- The slots that are found are free, and no slot is found twice. -/
theorem findMultipleFreeSlots_spec (count : ℕ) :
    (m.findMultipleFreeSlots count).Nodup ∧
      ∀ slot ∈ m.findMultipleFreeSlots count, slot < MAX_RECORDS ∧ m.dirtyBitmap slot = false := by
  rw [findMultipleFreeSlots]
  split_ifs
  · exact ⟨List.nodup_nil, by simp⟩
  · exact ⟨nodup_firstFrees _ _ _, fun slot hslot => mem_firstFrees hslot⟩

/-- Write the record of a new file and take its slot. -/
def takeSlot (slot : ℕ) (desc : GPUFileDesc) : GPUFileManager :=
  { m with
    log := writeRecordToSlot GPUFileDesc.codec m.log m.header desc slot
    dirtyBitmap := Function.update m.dirtyBitmap slot true
    descs := m.descs.insert slot desc }

/-- Take several slots. -/
def takeSlots (files : List (ℕ × GPUFileDesc)) : GPUFileManager :=
  files.foldl (fun m file => m.takeSlot file.1 file.2) m

theorem takeSlots_frame (files : List (ℕ × GPUFileDesc)) :
    (m.takeSlots files).ctxs = m.ctxs ∧ (m.takeSlots files).devFds = m.devFds ∧
      (m.takeSlots files).nvmeControllers = m.nvmeControllers := by
  induction files generalizing m with
  | nil => exact ⟨rfl, rfl, rfl⟩
  | cons file files ih => exact ih (m.takeSlot file.1 file.2)

theorem takeSlots_lookup_of_notMem {files : List (ℕ × GPUFileDesc)} {slot : ℕ}
    (hslot : slot ∉ files.map Prod.fst) :
    (m.takeSlots files).descs.lookup slot = m.descs.lookup slot := by
  induction files generalizing m with
  | nil => rfl
  | cons file files ih =>
      rw [List.map_cons, List.mem_cons, not_or] at hslot
      have hrest := ih (m.takeSlot file.1 file.2) hslot.2
      exact hrest.trans (AList.lookup_insert_ne hslot.1)

/-- Each of several slots gets its file. -/
theorem takeSlots_lookup {files : List (ℕ × GPUFileDesc)} (hnodup : (files.map Prod.fst).Nodup)
    {slot : ℕ} {desc : GPUFileDesc} (hfile : (slot, desc) ∈ files) :
    (m.takeSlots files).descs.lookup slot = some desc := by
  induction files generalizing m with
  | nil => cases hfile
  | cons file files ih =>
      rw [List.map_cons, List.nodup_cons] at hnodup
      rcases List.mem_cons.mp hfile with rfl | hfile
      · exact (takeSlots_lookup_of_notMem _ hnodup.1).trans (AList.lookup_insert _)
      · exact ih (m.takeSlot file.1 file.2) hnodup.2 hfile

/-- Give slots back that were marked before their files could not be created. -/
def releaseSlots (slots : List ℕ) : GPUFileManager :=
  { m with dirtyBitmap := fun i => if i ∈ slots then false else m.dirtyBitmap i }

/-- `createGPUFile`. -/
def createGPUFile (totalFileSize : ℕ) (tensorShape : List ℕ)
    (space : ℕ → Option (List FiemapExtent)) : Option ℕ × GPUFileManager :=
  match m.findNextFreeSlot with
  | none => (none, m)
  | some slot =>
      if slot ∈ m.descs then (none, m)
      else if tensorShape.length ≠ 3 then (none, m)
      else match createNVMeFilesForGPUFile m.nvmeControllers totalFileSize space with
        | (none, nvmeControllers) => (none, { m with nvmeControllers })
        | (some nvmeFileIds, nvmeControllers) =>
            let desc := GPUFileDesc.new slot totalFileSize tensorShape nvmeFileIds
            (some slot, (takeSlot { m with nvmeControllers } slot desc).countWrites 1)

/-- What the tasks of `createGPUFiles` do, one on each controller. -/
def createNVMeFilesTasks (totalFileSize toCreate : ℕ) (space : ℕ → ℕ → Option (List FiemapExtent)) :
    List (Option (List ℕ) × NVMeController) :=
  m.nvmeControllers.mapIdx fun i c =>
    c.createNVMeFilesPerDevice totalFileSize m.nvmeControllers.length toCreate (space i)

/-- A task has created a file for each GPU file, and there is at least one. -/
def taskOk (toCreate : ℕ) (result : Option (List ℕ) × NVMeController) : Bool :=
  match result.1 with
  | none => false
  | some ids => decide (ids ≠ []) && decide (ids.length = toCreate)

/-- `createGPUFiles`, where `none` at the outside stands for the read behind the end of the empty vector
that follows when there are not enough free slots. -/
def createGPUFiles (totalFileSize toCreate : ℕ) (tensorShape : List ℕ)
    (space : ℕ → ℕ → Option (List FiemapExtent)) : Option (Option (List ℕ) × GPUFileManager) :=
  if tensorShape.length ≠ 3 then some (none, m)
  else
    let slots := m.findMultipleFreeSlots toCreate
    if slots.length ≠ toCreate then none
    else if slots.any (· ∈ m.descs) then some (none, m.releaseSlots slots)
    else
      let results := m.createNVMeFilesTasks totalFileSize toCreate space
      let m' : GPUFileManager := { m with nvmeControllers := results.map Prod.snd }
      if !results.all (taskOk toCreate) then some (none, m'.releaseSlots slots)
      else
        let files := slots.mapIdx fun i slot => (slot, GPUFileDesc.new slot totalFileSize tensorShape
          (results.map fun result => (result.1.getD []).getD i 0))
        some (some slots, (m'.takeSlots files).countWrites toCreate)

/-- `deleteGPUFile`.  The record is overwritten with an empty one. -/
def deleteGPUFile (fileId : ℕ) : Bool × GPUFileManager :=
  match m.descs.lookup fileId with
  | none => (false, m)
  | some desc =>
      (true, countWrites { m with
        nvmeControllers := deleteNVMeFilesForGPUFile m.nvmeControllers desc.nvmeMapping
        descs := m.descs.erase fileId
        dirtyBitmap := Function.update m.dirtyBitmap fileId false
        header := { m.header with activeRecordCount := m.header.activeRecordCount - 1 }
        log := writeRecordToSlot GPUFileDesc.codec m.log m.header GPUFileDesc.empty fileId } 1)

/-! ### The pool -/

/-- The loop of `initGPUFile` over the controllers from the `i`-th on: open the NVMe files that are not
open.  `allocated` says on which controllers the device had memory. -/
def openNvmeFiles (mapping : CompactNVMeMapping) (allocated : ℕ → Bool) :
    List NVMeController → ℕ → (AList fun _ : ℕ × ℕ => NVMeFile) →
      Bool × AList fun _ : ℕ × ℕ => NVMeFile
  | [], _, devFds => (true, devFds)
  | c :: rest, i, devFds =>
      if 4 ≤ i then (true, devFds)
      else if !mapping.hasNvmeController i || (i, mapping.fileId i) ∈ devFds then
        openNvmeFiles mapping allocated rest (i + 1) devFds
      else match c.deviceFileOpenManaged (mapping.fileId i) (allocated i) with
        | none => (false, devFds)
        | some file =>
            openNvmeFiles mapping allocated rest (i + 1) (devFds.insert (i, mapping.fileId i) file)

/-- `initGPUFile`. -/
def initGPUFile (fileId : ℕ) (allocated : ℕ → Bool) : Bool × GPUFileManager :=
  if m.nvmeControllers.length = 0 then (false, m)
  else match m.descs.lookup fileId with
    | none => (false, m)
    | some desc =>
        if !desc.nvmeMapping.isValid then (false, m)
        else match openNvmeFiles desc.nvmeMapping allocated m.nvmeControllers 0 m.devFds with
          | (false, devFds) => (false, { m with devFds })
          | (true, devFds) => (true, { m with devFds, freeList := m.freeList ++ [fileId] })

/-- The NVMe files of a mapping that are open on the device, from the `i`-th controller on. -/
def collectDevFds (mapping : CompactNVMeMapping) (devFds : AList fun _ : ℕ × ℕ => NVMeFile) :
    List NVMeController → ℕ → Option (List NVMeFile)
  | [], _ => some []
  | _ :: rest, i =>
      if 4 ≤ i then some []
      else if !mapping.hasNvmeController i then collectDevFds mapping devFds rest (i + 1)
      else do
        let file ← devFds.lookup (i, mapping.fileId i)
        let files ← collectDevFds mapping devFds rest (i + 1)
        return file :: files

/-- `getDevFdById`, where `none` stands for `false`. -/
def getDevFdById (fileId : ℕ) : Option (List NVMeFile) :=
  match m.descs.lookup fileId with
  | none => none
  | some desc =>
      if !desc.nvmeMapping.isValid then none
      else if m.nvmeControllers.length = 0 then none
      else collectDevFds desc.nvmeMapping m.devFds m.nvmeControllers 0

/-- `openGPUFile`, where `none` at the outside stands for its `assert(false)`.  `allocated` says whether
the device had memory for the span of the NVMe files. -/
def openGPUFile (allocated : Bool) : Option (Option ℕ × GPUFileManager) :=
  match m.freeList.getLast? with
  | none => some (none, m)
  | some fileId => do
      let devFds ← m.getDevFdById fileId
      let m' : GPUFileManager := { m with freeList := m.freeList.dropLast }
      if allocated then
        return (some fileId, { m' with ctxs := m'.ctxs.insert fileId devFds })
      else
        return (none, { m' with freeList := m'.freeList ++ [fileId] })

/-- `closeGPUFile`. -/
def closeGPUFile (fileId : ℕ) : Bool × GPUFileManager :=
  if fileId ∈ m.ctxs then
    let freeIt := lowerBound m.freeList fileId
    (true, { m with
      ctxs := m.ctxs.erase fileId
      freeList :=
        if m.freeList[freeIt]? = some fileId then m.freeList
        else m.freeList.insertIdx freeIt fileId })
  else (false, m)

end GPUFileManager
end GeminiFS
end InfiniKV
