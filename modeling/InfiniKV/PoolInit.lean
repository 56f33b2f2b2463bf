/-
**Setting up the pool of GPU files.**

`GeminiFS::init` opens the log of GPU files, deletes them if a reset is requested and confirmed, creates files
if some are missing, and then sets up the files `0, …, GPU_file_nums - 1`.  To see whether the files are the
ones that are requested it looks at one of them.

So a file with a small number that was there before is set up whatever its size and shape are, and if the
sample has another shape the files that are created for the request get other numbers.

Main definitions:

* `InfiniKV.GeminiFS.Members`, `InfiniKV.GeminiFS.init` — the file system, and its initialisation;
* `InfiniKV.GeminiFS.InitSystem` — what `init` finds: the configuration, the log, the answer to the prompt;
* `InfiniKV.GeminiFS.PoolBuilt` — the pool that was requested;
* `InfiniKV.GeminiFS.InitSystem.existing` — the files that are there, after the reset.

Main results:

* `InfiniKV.GeminiFS.InitSystem.provideGPUFiles_spec` — what the creation of missing files does;
* `InfiniKV.GeminiFS.init_spec` — the files that are set up;
* `InfiniKV.GeminiFS.poolBuilt_iff` — **when the pool is the one that was requested**.
-/

import InfiniKV.GpuFileLog
import InfiniKV.GpuFilePool
import Mathlib.Algebra.BigOperators.Group.List.Basic

set_option relaxedAutoImplicit false
set_option autoImplicit false

namespace InfiniKV
namespace GeminiFS

/-! ### The initialisation -/

/-- `NUM_FILES`. -/
def NUM_FILES : ℕ := 2000000

/-- A group of the configuration: a GPU, and how many NVMe controllers it names. -/
structure ConfigGroup where
  cudaDevice : ℤ
  nvmeParams : ℕ

/-- What `init` finds in the system: the current GPU; the configuration, if it can be read; the NVMe
controllers of the GPU controller, once they have been added to it; the log of GPU files, and what the memory
for its header holds; the order in which a map is run through; the answer to the prompt; the extents that the
file systems have for new NVMe files; and whether the device has memory for the files that are opened. -/
structure InitSystem where
  cudaDevice : Option ℤ
  config : Option (List ConfigGroup)
  gpuController : ℤ → Option (List NVMeController)
  log : Option ByteFile
  memory : LogHeader
  order : List ℕ → List ℕ
  order_perm : ∀ ids, (order ids).Perm ids
  confirmed : Bool
  space : ℕ → ℕ → Option (List FiemapExtent)
  allocated : ℕ → ℕ → Bool

/-- The members of a `GeminiFS`. -/
structure Members where
  isInit : Bool
  initGPUNumFiles : ℕ
  initGPUFileSize : ℕ
  gpuFileManager : Option GPUFileManager

/-- `device_file_delete_all_files_managed`. -/
def NVMeController.deviceFileDeleteAllFilesManaged (c : NVMeController) : NVMeController :=
  { c with files := fun _ => none }

namespace GPUFileManager

/-- `getAllGPUFileIds`. -/
def getAllGPUFileIds (m : GPUFileManager) (order : List ℕ → List ℕ) : List ℕ := order m.descs.keys

/-- Delete several files. -/
def deleteGPUFiles (m : GPUFileManager) (ids : List ℕ) : GPUFileManager :=
  ids.foldl (fun m id => (m.deleteGPUFile id).2) m

/-- The loop of `GeminiFS::init` over the first `n` files: whether it ran to its end. -/
def initLoop (m : GPUFileManager) (allocated : ℕ → ℕ → Bool) : ℕ → Bool × GPUFileManager
  | 0 => (true, m)
  | n + 1 =>
      match m.initLoop allocated n with
      | (false, m') => (false, m')
      | (true, m') => m'.initGPUFile n (allocated n)

end GPUFileManager

namespace InitSystem

variable (sys : InitSystem)

/-- `parse_and_setup_controllers`: the configuration has a group for the GPU, and its files are not too
many. -/
def parseAndSetupControllers (currentGpuId : ℤ) (initGPUNumFiles : ℕ) : Bool :=
  match sys.config with
  | none => false
  | some groups =>
      match groups.find? fun group => decide (group.cudaDevice = currentGpuId) with
      | none => false
      | some group => !decide (group.nvmeParams * initGPUNumFiles % 2 ^ 64 > NUM_FILES)

/-- `handle_gpu_file_reset`. -/
def handleGpuFileReset (m : GPUFileManager) : GPUFileManager :=
  if sys.confirmed then
    let m' := m.deleteGPUFiles (m.getAllGPUFileIds sys.order)
    GPUFileManager.forcePersist { m' with
      nvmeControllers := m'.nvmeControllers.map NVMeController.deviceFileDeleteAllFilesManaged }
  else m

/-- `config_mismatch`: the first file that is found has another size or another shape. -/
def configMismatch (m : GPUFileManager) (fileSize : ℕ) (shape : List ℕ) : Bool :=
  match m.getAllGPUFileIds sys.order with
  | [] => false
  | id :: _ =>
      match m.descs.lookup id with
      | none => false
      | some desc => !decide (desc.totalFileSize.toNat = fileSize ∧
          ∀ i : Fin 3, (desc.tensorShape i).toNat = shape.getD i 0)

/-- The part of `init` that creates files, if there are too few or if their configuration is not the
requested one: whether it succeeds. -/
def provideGPUFiles (m : GPUFileManager) (numFiles fileSize : ℕ) (shape : List ℕ) :
    Option (Bool × GPUFileManager) :=
  let existingFileCount := (m.getAllGPUFileIds sys.order).length
  if existingFileCount ≥ numFiles ∧ sys.configMismatch m fileSize shape = false then some (true, m)
  else
    let filesToCreate := if existingFileCount < numFiles then numFiles - existingFileCount else numFiles
    (m.createGPUFiles fileSize filesToCreate shape sys.space).map fun out => (out.1.isSome, out.2)

/-- The rest of `init`, once the controllers have been set up: whether it runs to its end, and the manager.
`none` stands for the undefined behaviour of `createGPUFiles`. -/
def initPool (nvmeControllers : List NVMeController) (numFiles fileSize : ℕ) (shape : List ℕ)
    (reset : Bool) : Option (Bool × GPUFileManager) :=
  let m := GPUFileManager.construct sys.log sys.memory nvmeControllers 1000
  let m := if reset then sys.handleGpuFileReset m else m
  match sys.provideGPUFiles m numFiles fileSize shape with
  | some (true, m) => some (m.initLoop sys.allocated numFiles)
  | out => out

end InitSystem

/-- The members when the constructor begins. -/
def Members.fresh : Members := ⟨false, 0, 0, none⟩

/-- `init`. -/
def init (fs : Members) (sys : InitSystem) (gpuFileNums : Int32) (gpuFileShape : List UInt64)
    (reset : Bool) : Option Members :=
  if gpuFileShape.length ≠ 3 then some fs
  else
    let shape := gpuFileShape.map UInt64.toNat
    let numFiles := (gpuFileNums.toInt % 2 ^ 64).toNat
    let fileSize := shape.prod % 2 ^ 64
    let fs : Members := { fs with initGPUNumFiles := numFiles, initGPUFileSize := fileSize }
    match sys.cudaDevice with
    | none => some fs
    | some currentGpuId =>
        if fs.isInit && !reset then some fs
        else if !sys.parseAndSetupControllers currentGpuId numFiles then some fs
        else match sys.gpuController currentGpuId with
          | none => some fs
          | some nvmeControllers =>
              (sys.initPool nvmeControllers numFiles fileSize shape reset).map fun out =>
                { fs with isInit := fs.isInit || out.1, gpuFileManager := some out.2 }

/-! ### The pool that was requested -/

/-- A file has the size and the shape that are requested. -/
structure HasShape (desc : GPUFileDesc) (shape : List ℕ) : Prop where
  totalFileSize : desc.totalFileSize.toNat = shape.prod
  tensorShape : ∀ i : Fin 3, (desc.tensorShape i).toNat = shape.getD i 0

/-- **The pool that was requested**: the free list has that many files, and each has the shape. -/
structure PoolBuilt (m : GPUFileManager) (gpuFileNums : ℤ) (shape : List ℕ) : Prop where
  nodup : m.freeList.Nodup
  length : (m.freeList.length : ℤ) = gpuFileNums
  hasShape : ∀ id ∈ m.freeList, ∃ desc, m.descs.lookup id = some desc ∧ HasShape desc shape

/-- The size and the shape fit in the fields of a record. -/
structure Fits (shape : List ℕ) : Prop where
  totalFileSize : shape.prod < 2 ^ 64
  tensorShape : ∀ i : Fin 3, shape.getD i 0 < 2 ^ 32

/-- The files that are there, after the reset if it is requested and confirmed. -/
def InitSystem.existing (sys : InitSystem) (reset : Bool) (id : ℕ) : Option GPUFileDesc :=
  if reset && sys.confirmed then none
  else (GPUFileManager.construct sys.log sys.memory [] 1000).descs.lookup id

/-! ### What the operations leave alone -/

namespace GPUFileManager

variable {m m' : GPUFileManager}

@[simp] theorem countWrites_freeList (m : GPUFileManager) (n : ℕ) : (m.countWrites n).freeList = m.freeList := by
  simp only [countWrites]
  split_ifs <;> rfl

theorem freeList_takeSlots (m : GPUFileManager) (files : List (ℕ × GPUFileDesc)) :
    (m.takeSlots files).freeList = m.freeList := by
  induction files generalizing m with
  | nil => rfl
  | cons file files ih => exact ih (m.takeSlot file.1 file.2)

/-- Deleting a file leaves the pool and the other files alone. -/
theorem deleteGPUFile_frame (m : GPUFileManager) (fileId : ℕ) :
    (m.deleteGPUFile fileId).2.freeList = m.freeList ∧ (m.deleteGPUFile fileId).2.ctxs = m.ctxs ∧
      (m.deleteGPUFile fileId).2.descs = m.descs.erase fileId := by
  rw [deleteGPUFile]
  cases hlook : m.descs.lookup fileId with
  | none =>
      refine ⟨rfl, rfl, ?_⟩
      rw [AList.lookup_eq_none] at hlook
      exact (AList.ext (List.kerase_of_notMem_keys hlook)).symm
  | some desc => simp

/-- Deleting several files. -/
theorem deleteGPUFiles_frame (m : GPUFileManager) (ids : List ℕ) :
    (m.deleteGPUFiles ids).freeList = m.freeList ∧ (m.deleteGPUFiles ids).ctxs = m.ctxs ∧
      ∀ id, (m.deleteGPUFiles ids).descs.lookup id = if id ∈ ids then none else m.descs.lookup id := by
  induction ids generalizing m with
  | nil => simp [deleteGPUFiles]
  | cons fileId ids ih =>
      obtain ⟨hfree, hctxs, hdescs⟩ := m.deleteGPUFile_frame fileId
      obtain ⟨hfree', hctxs', hlook⟩ := ih (m.deleteGPUFile fileId).2
      refine ⟨hfree'.trans hfree, hctxs'.trans hctxs, fun id => (hlook id).trans ?_⟩
      rw [hdescs]
      by_cases hid : id = fileId
      · subst hid
        simp
      · simp [hid, AList.lookup_erase_ne hid]

/-- **What creating several files does**: each of them has the requested size and shape, as far as they fit,
and no file that was there is touched. -/
theorem createGPUFiles_some {totalFileSize toCreate : ℕ} {tensorShape slots : List ℕ}
    {space : ℕ → ℕ → Option (List FiemapExtent)}
    (h : m.createGPUFiles totalFileSize toCreate tensorShape space = some (some slots, m')) :
    m'.freeList = m.freeList ∧ m'.ctxs = m.ctxs ∧ (∀ slot ∈ slots, slot < MAX_RECORDS) ∧
      (∀ id ∉ slots, m'.descs.lookup id = m.descs.lookup id) ∧
      ∀ id ∈ slots, m.descs.lookup id = none ∧
        ∃ ids, m'.descs.lookup id = some (GPUFileDesc.new id totalFileSize tensorShape ids) := by
  obtain ⟨hnodup, hfree⟩ := m.findMultipleFreeSlots_spec toCreate
  simp only [createGPUFiles] at h
  split_ifs at h with hshape hlen hany hall
  · cases h
  · cases h
  · cases h
  · cases h
    generalize hfiles : (m.findMultipleFreeSlots toCreate).mapIdx _ = files
    have hslots : files.map Prod.fst = m.findMultipleFreeSlots toCreate := by
      rw [← hfiles]
      exact List.ext_getElem (by simp) (by simp)
    refine ⟨?_, ?_, fun slot hslot => (hfree slot hslot).1, ?_, ?_⟩
    · rw [countWrites_freeList, freeList_takeSlots]
    · rw [countWrites_ctxs]
      exact (takeSlots_frame _ _).1
    · intro id hid
      rw [countWrites_descs]
      exact takeSlots_lookup_of_notMem _ (by rwa [hslots])
    · intro id hid
      constructor
      · rw [AList.lookup_eq_none]
        exact fun hmem => hany (List.any_eq_true.2 ⟨id, hid, decide_eq_true hmem⟩)
      · rw [countWrites_descs]
        have hmem : id ∈ files.map Prod.fst := by rwa [hslots]
        obtain ⟨⟨slot, desc⟩, hfile, rfl⟩ := List.mem_map.1 hmem
        have hlook := takeSlots_lookup { m with
          nvmeControllers := (m.createNVMeFilesTasks totalFileSize toCreate space).map Prod.snd }
          (hslots ▸ hnodup) hfile
        rw [← hfiles] at hfile
        obtain ⟨i, hi, heq⟩ := List.mem_mapIdx.1 hfile
        cases heq
        exact ⟨_, hlook⟩

/-! ### The loop that sets up files -/

/-- The loop runs to its end if each file can be set up. -/
theorem initGPUFiles_of_initLoop {allocated : ℕ → ℕ → Bool} {n : ℕ}
    (h : m.initLoop allocated n = (true, m')) : m.initGPUFiles allocated n = some m' := by
  induction n generalizing m' with
  | zero =>
      cases h
      rfl
  | succ n ih =>
      rw [initLoop] at h
      cases hloop : m.initLoop allocated n with
      | mk ok m₁ =>
          rw [hloop] at h
          cases ok with
          | false => cases h
          | true =>
              have hinit : m₁.initGPUFile n (allocated n) = (true, m') := h
              rw [initGPUFiles, ih hloop]
              simp [hinit]

/-- Setting up a file leaves the records alone. -/
theorem descs_initGPUFile (m : GPUFileManager) (fileId : ℕ) (allocated : ℕ → Bool) :
    (m.initGPUFile fileId allocated).2.descs = m.descs := by
  rw [initGPUFile]
  split_ifs
  · rfl
  · cases m.descs.lookup fileId with
    | none => rfl
    | some desc =>
        cases hvalid : desc.nvmeMapping.isValid with
        | false => simp [hvalid]
        | true =>
            cases hopen : openNvmeFiles desc.nvmeMapping allocated m.nvmeControllers 0 m.devFds with
            | mk ok devFds => cases ok <;> simp [hvalid, hopen]

theorem descs_initLoop (m : GPUFileManager) (allocated : ℕ → ℕ → Bool) (n : ℕ) :
    (m.initLoop allocated n).2.descs = m.descs := by
  induction n with
  | zero => rfl
  | succ n ih =>
      rw [initLoop]
      cases hloop : m.initLoop allocated n with
      | mk ok m₁ =>
          rw [hloop] at ih
          cases ok with
          | false => exact ih
          | true => exact (descs_initGPUFile m₁ n (allocated n)).trans ih

/-- **The files that are set up** are the first ones, and all of them exist. -/
theorem initLoop_true {allocated : ℕ → ℕ → Bool} {n : ℕ} (hlist : m.freeList = []) (hctxs : m.ctxs = ∅)
    (h : m.initLoop allocated n = (true, m')) :
    m'.freeList = List.range n ∧ m'.descs = m.descs ∧ ∀ id < n, id ∈ m.descs := by
  have hdescs : m'.descs = m.descs := by
    have heq := m.descs_initLoop allocated n
    rwa [h] at heq
  obtain ⟨hrange, -, hready⟩ := pool_initGPUFiles hlist hctxs (initGPUFiles_of_initLoop h)
  refine ⟨hrange, hdescs, fun id hid => ?_⟩
  obtain ⟨desc, hdesc, -⟩ := (m'.getDevFdById_isSome_iff id).1 (hready id hid)
  rw [← hdescs, ← AList.lookup_isSome, hdesc]
  rfl

/-! ### The manager on the log -/

/-- What a manager finds in its log does not depend on its controllers. -/
theorem descs_loadSlots {m m' : GPUFileManager} (hbits : m.dirtyBitmap = m'.dirtyBitmap)
    (hlog : m.log = m'.log) (hheader : m.header = m'.header) (hdescs : m.descs = m'.descs) (n : ℕ) :
    (m.loadSlots n).descs = (m'.loadSlots n).descs := by
  induction n with
  | zero => exact hdescs
  | succ n ih =>
      rw [loadSlots_succ, loadSlots_succ, loadSlot, loadSlot, loadSlots_frame m, loadSlots_frame m']
      simp only [hbits, hlog, hheader]
      split_ifs
      · cases loadedRecord m'.log m'.header n with
        | none => exact ih
        | some desc =>
            simp only
            split_ifs
            · simp only [ih]
            · exact ih
      · exact ih

/-- A file is filed under a number of 32 bits. -/
theorem lt_of_mem_loadSlots {m : GPUFileManager} (hdescs : m.descs = ∅) (n : ℕ) {id : ℕ}
    (hid : id ∈ (m.loadSlots n).descs) : id < 2 ^ 32 := by
  induction n with
  | zero =>
      rw [loadSlots, List.range_zero, List.foldl_nil, hdescs] at hid
      exact absurd hid (AList.notMem_empty _)
  | succ n ih =>
      rw [loadSlots_succ, loadSlot] at hid
      split_ifs at hid
      · cases hrecord : loadedRecord (m.loadSlots n).log (m.loadSlots n).header n with
        | none =>
            rw [hrecord] at hid
            exact ih hid
        | some desc =>
            rw [hrecord] at hid
            simp only at hid
            split_ifs at hid
            · rcases (AList.mem_insert _).1 hid with rfl | hid
              · exact UInt32.toNat_lt desc.fileId
              · exact ih hid
            · exact ih hid
      · exact ih hid

/-- A manager loads some of the slots, or none if it gives up. -/
theorem loadFromFile_eq (log : ByteFile) (memory : LogHeader) (threshold : ℕ) :
    ∃ header bits n, ∀ nvmeControllers, loadFromFile log memory nvmeControllers threshold =
      (opened log header bits nvmeControllers threshold).loadSlots n := by
  cases hget : log.get LogHeader.codec 0 with
  | none =>
      refine ⟨memory, fun _ => false, 0, fun nvmeControllers => ?_⟩
      rw [loadFromFile, hget]
      rfl
  | some header =>
      by_cases hmagic : header.magicNum ≠ MAGIC_NUMBER
      · refine ⟨header, fun _ => false, 0, fun nvmeControllers => ?_⟩
        simp only [loadFromFile, hget, if_pos hmagic]
        rfl
      · cases hbits : bitmapBits log header with
        | none =>
            refine ⟨header, fun _ => false, 0, fun nvmeControllers => ?_⟩
            simp only [loadFromFile, hget, if_neg hmagic, hbits]
            rfl
        | some bits =>
            refine ⟨header, bits, MAX_RECORDS, fun nvmeControllers => ?_⟩
            simp only [loadFromFile, hget, if_neg hmagic, hbits]

/-- **A new manager**: nothing is in its pool. -/
theorem construct_frame (content : Option ByteFile) (memory : LogHeader)
    (nvmeControllers : List NVMeController) (threshold : ℕ) :
    (construct content memory nvmeControllers threshold).freeList = [] ∧
      (construct content memory nvmeControllers threshold).ctxs = ∅ ∧
      (construct content memory nvmeControllers threshold).devFds = ∅ ∧
      (construct content memory nvmeControllers threshold).nvmeControllers = nvmeControllers := by
  obtain ⟨header, bits, n, heq⟩ := loadFromFile_eq (content.getD initializeLogFile) memory threshold
  rw [construct, heq, loadSlots_frame]
  exact ⟨rfl, rfl, rfl, rfl⟩

/-- **Its files** do not depend on the controllers, and are numbered with 32 bits. -/
theorem descs_construct (content : Option ByteFile) (memory : LogHeader)
    (nvmeControllers : List NVMeController) (threshold : ℕ) :
    (construct content memory nvmeControllers threshold).descs =
        (construct content memory [] threshold).descs ∧
      ∀ id ∈ (construct content memory nvmeControllers threshold).descs, id < 2 ^ 32 := by
  obtain ⟨header, bits, n, heq⟩ := loadFromFile_eq (content.getD initializeLogFile) memory threshold
  rw [construct, construct, heq, heq]
  refine ⟨?_, fun id hid => lt_of_mem_loadSlots rfl n hid⟩
  refine descs_loadSlots ?_ ?_ ?_ ?_ n <;> rfl

end GPUFileManager

/-! ### What `init` does -/

namespace InitSystem

variable (sys : InitSystem) {m m' : GPUFileManager}

/-- After a reset that is confirmed there are no files. -/
theorem handleGpuFileReset_spec (m : GPUFileManager) :
    (sys.handleGpuFileReset m).freeList = m.freeList ∧ (sys.handleGpuFileReset m).ctxs = m.ctxs ∧
      ∀ id, (sys.handleGpuFileReset m).descs.lookup id =
        if sys.confirmed then none else m.descs.lookup id := by
  rw [handleGpuFileReset]
  cases sys.confirmed with
  | false => simp
  | true =>
      obtain ⟨hfree, hctxs, hlook⟩ := m.deleteGPUFiles_frame (m.getAllGPUFileIds sys.order)
      refine ⟨hfree, hctxs, fun id => (hlook id).trans ?_⟩
      rw [if_pos rfl]
      split_ifs with hid
      · rfl
      · rw [AList.lookup_eq_none, AList.mem_keys]
        exact fun hmem => hid ((sys.order_perm _).mem_iff.2 hmem)

/-- **The manager before files are created.** -/
theorem construct_spec (nvmeControllers : List NVMeController) (reset : Bool)
    (hm : m = if reset then
        sys.handleGpuFileReset (GPUFileManager.construct sys.log sys.memory nvmeControllers 1000)
      else GPUFileManager.construct sys.log sys.memory nvmeControllers 1000) :
    m.freeList = [] ∧ m.ctxs = ∅ ∧ (∀ id, m.descs.lookup id = sys.existing reset id) ∧
      ∀ id ∈ m.descs, id < 2 ^ 32 := by
  obtain ⟨hfree, hctxs, -, -⟩ :=
    GPUFileManager.construct_frame sys.log sys.memory nvmeControllers 1000
  obtain ⟨hdescs, hlt⟩ := GPUFileManager.descs_construct sys.log sys.memory nvmeControllers 1000
  obtain ⟨hfree', hctxs', hlook⟩ := sys.handleGpuFileReset_spec
    (GPUFileManager.construct sys.log sys.memory nvmeControllers 1000)
  have hexisting : ∀ id, m.descs.lookup id = sys.existing reset id := by
    intro id
    rw [hm, existing, ← hdescs]
    cases reset with
    | false => rfl
    | true => exact hlook id
  have hmem : ∀ id, id ∈ m.descs → id < 2 ^ 32 := by
    intro id hid
    rw [← AList.lookup_isSome, hexisting, existing, ← hdescs] at hid
    split_ifs at hid
    · cases hid
    · exact hlt id (AList.lookup_isSome.1 hid)
  refine ⟨?_, ?_, hexisting, hmem⟩
  · cases reset with
    | false => exact hm ▸ hfree
    | true => exact hm ▸ hfree'.trans hfree
  · cases reset with
    | false => exact hm ▸ hctxs
    | true => exact hm ▸ hctxs'.trans hctxs

/-- **What the creation of missing files does**: whether there were too few or their configuration was not the
requested one, the files that were there stay. -/
theorem provideGPUFiles_spec {numFiles fileSize : ℕ} {shape : List ℕ}
    (h : sys.provideGPUFiles m numFiles fileSize shape = some (true, m')) :
    m'.freeList = m.freeList ∧ m'.ctxs = m.ctxs ∧
      ∀ id, m'.descs.lookup id = m.descs.lookup id ∨
        id < MAX_RECORDS ∧ m.descs.lookup id = none ∧
          ∃ ids, m'.descs.lookup id = some (GPUFileDesc.new id fileSize shape ids) := by
  simp only [provideGPUFiles] at h
  split_ifs at h with hskip
  · cases h
    exact ⟨rfl, rfl, fun id => .inl rfl⟩
  all_goals
    obtain ⟨⟨out, m₁⟩, hcreate, heq⟩ := Option.map_eq_some_iff.1 h
    cases out with
    | none => cases heq
    | some slots =>
        cases heq
        obtain ⟨hfree, hctxs, hlt, hold, hnew⟩ := GPUFileManager.createGPUFiles_some hcreate
        refine ⟨hfree, hctxs, fun id => ?_⟩
        by_cases hid : id ∈ slots
        · exact .inr ⟨hlt id hid, hnew id hid⟩
        · exact .inl (hold id hid)

/-- **The files that are set up**, when the controllers have been: those with the smallest numbers, of which
each was there, or has been created. -/
theorem initPool_spec {nvmeControllers : List NVMeController} {numFiles fileSize : ℕ} {shape : List ℕ}
    {reset : Bool} (h : sys.initPool nvmeControllers numFiles fileSize shape reset = some (true, m)) :
    m.freeList = List.range numFiles ∧ numFiles ≤ 2 ^ 32 ∧
      ∀ id < numFiles, ∃ desc, m.descs.lookup id = some desc ∧
        (sys.existing reset id = some desc ∨
          sys.existing reset id = none ∧ ∃ ids, desc = GPUFileDesc.new id fileSize shape ids) := by
  simp only [initPool] at h
  generalize hm₀ : (if reset then _ else _) = m₀ at h
  obtain ⟨hfree₀, hctxs₀, hexisting, hlt⟩ := sys.construct_spec nvmeControllers reset hm₀.symm
  cases hprovide : sys.provideGPUFiles m₀ numFiles fileSize shape with
  | none =>
      rw [hprovide] at h
      cases h
  | some out =>
      obtain ⟨ok, m₁⟩ := out
      cases ok with
      | false =>
          rw [hprovide] at h
          cases h
      | true =>
          rw [hprovide] at h
          obtain ⟨hfree₁, hctxs₁, hdescs₁⟩ := sys.provideGPUFiles_spec hprovide
          obtain ⟨hlist, hdescs, hall⟩ := GPUFileManager.initLoop_true (hfree₁.trans hfree₀)
            (hctxs₁.trans hctxs₀) (Option.some.inj h)
          refine ⟨hlist, ?_, ?_⟩
          · -- there is no file with a larger number
            by_contra hlarge
            have hmem := hall (2 ^ 32) (by omega)
            rw [← AList.lookup_isSome] at hmem
            rcases hdescs₁ (2 ^ 32) with heq | ⟨hslot, -⟩
            · rw [heq, AList.lookup_isSome] at hmem
              exact lt_irrefl _ (hlt _ hmem)
            · rw [MAX_RECORDS_eq] at hslot
              omega
          · intro id hid
            obtain ⟨desc, hdesc⟩ := Option.isSome_iff_exists.1 (AList.lookup_isSome.2 (hall id hid))
            refine ⟨desc, by rw [hdescs]; exact hdesc, ?_⟩
            rw [← hexisting]
            rcases hdescs₁ id with heq | ⟨-, hnone, ids, hnew⟩
            · exact .inl (heq.symm.trans hdesc)
            · exact .inr ⟨hnone, ids, Option.some.inj (hdesc.symm.trans hnew)⟩

end InitSystem

variable {sys : InitSystem} {gpuFileNums : Int32} {gpuFileShape : List UInt64} {reset : Bool} {fs : Members}

/-- `GPU_file_nums` is not negative if so many files can be numbered with 32 bits. -/
theorem toNat_toInt_of_le {n : Int32} (h : (n.toInt % 2 ^ 64).toNat ≤ 2 ^ 32) :
    0 ≤ n.toInt ∧ (n.toInt % 2 ^ 64).toNat = n.toInt.toNat := by
  have hle := n.le_toInt
  have hlt := n.toInt_lt
  omega

/-- **The files that are set up** when `init` runs to its end: those with the smallest numbers, of which each
was there, or has been created. -/
theorem init_spec (hrun : init .fresh sys gpuFileNums gpuFileShape reset = some fs)
    (hinit : fs.isInit = true) :
    ∃ m, fs.gpuFileManager = some m ∧ 0 ≤ gpuFileNums.toInt ∧
      m.freeList = List.range gpuFileNums.toInt.toNat ∧
      ∀ id < gpuFileNums.toInt.toNat, ∃ desc, m.descs.lookup id = some desc ∧
        (sys.existing reset id = some desc ∨ sys.existing reset id = none ∧ ∃ ids,
          desc = GPUFileDesc.new id ((gpuFileShape.map UInt64.toNat).prod % 2 ^ 64)
            (gpuFileShape.map UInt64.toNat) ids) := by
  rw [init] at hrun
  by_cases hshape : gpuFileShape.length ≠ 3
  · rw [if_pos hshape] at hrun
    cases hrun
    cases hinit
  rw [if_neg hshape] at hrun
  cases hgpu : sys.cudaDevice with
  | none =>
      rw [hgpu] at hrun
      cases hrun
      cases hinit
  | some gpuId =>
      simp only [hgpu, Members.fresh, Bool.false_and, Bool.false_eq_true, if_false] at hrun
      by_cases hparse : (!sys.parseAndSetupControllers gpuId (gpuFileNums.toInt % 2 ^ 64).toNat) = true
      · rw [if_pos hparse] at hrun
        cases hrun
        cases hinit
      rw [if_neg hparse] at hrun
      cases hcontroller : sys.gpuController gpuId with
      | none =>
          rw [hcontroller] at hrun
          cases hrun
          cases hinit
      | some nvmeControllers =>
          rw [hcontroller] at hrun
          obtain ⟨⟨ok, m⟩, hpool, rfl⟩ := Option.map_eq_some_iff.1 hrun
          cases ok with
          | false => cases hinit
          | true =>
              obtain ⟨hlist, hle, hfiles⟩ := sys.initPool_spec hpool
              obtain ⟨hnonneg, hnum⟩ := toNat_toInt_of_le hle
              rw [hnum] at hlist hfiles
              exact ⟨m, rfl, hnonneg, hlist, hfiles⟩


/-! ### The pool that was requested, and the one that is built -/

/-- The record of a new file has the shape that is requested if it fits. -/
theorem hasShape_new_iff (id : ℕ) (shape ids : List ℕ) :
    HasShape (GPUFileDesc.new id (shape.prod % 2 ^ 64) shape ids) shape ↔ Fits shape := by
  have hsize : (UInt64.ofNat (shape.prod % 2 ^ 64)).toNat = shape.prod % 2 ^ 64 := by
    rw [UInt64.toNat_ofNat', Nat.mod_mod]
  have hdim : ∀ i : Fin 3, (UInt32.ofNat (shape.getD i 0)).toNat = shape.getD i 0 % 2 ^ 32 :=
    fun i => UInt32.toNat_ofNat'
  constructor
  · intro h
    constructor
    · have hprod := hsize.symm.trans h.totalFileSize
      exact hprod ▸ Nat.mod_lt _ (Nat.two_pow_pos 64)
    · intro i
      have hlen := (hdim i).symm.trans (h.tensorShape i)
      exact hlen ▸ Nat.mod_lt _ (Nat.two_pow_pos 32)
  · intro h
    constructor
    · exact hsize.trans (Nat.mod_eq_of_lt h.totalFileSize)
    · intro i
      exact (hdim i).trans (Nat.mod_eq_of_lt (h.tensorShape i))

/-- **When the pool is the one that was requested**: every file that is there with a number below
`GPU_file_nums` has the requested size and shape, and if one is missing, they fit in the fields of a
record. -/
theorem poolBuilt_iff (hrun : init .fresh sys gpuFileNums gpuFileShape reset = some fs)
    (hinit : fs.isInit = true) :
    (∃ m, fs.gpuFileManager = some m ∧
        PoolBuilt m gpuFileNums.toInt (gpuFileShape.map UInt64.toNat)) ↔
      (∀ id : ℕ, (id : ℤ) < gpuFileNums.toInt → ∀ desc, sys.existing reset id = some desc →
        HasShape desc (gpuFileShape.map UInt64.toNat)) ∧
      ((∃ id : ℕ, (id : ℤ) < gpuFileNums.toInt ∧ sys.existing reset id = none) →
        Fits (gpuFileShape.map UInt64.toNat)) := by
  obtain ⟨m, hm, hnonneg, hlist, hfiles⟩ := init_spec hrun hinit
  have hlt : ∀ id : ℕ, (id : ℤ) < gpuFileNums.toInt ↔ id < gpuFileNums.toInt.toNat :=
    fun id => Int.lt_toNat.symm
  constructor
  · rintro ⟨m', hm', hbuilt⟩
    cases hm.symm.trans hm'
    have hshape : ∀ id : ℕ, (id : ℤ) < gpuFileNums.toInt → ∃ desc, m.descs.lookup id = some desc ∧
        HasShape desc (gpuFileShape.map UInt64.toNat) := by
      intro id hid
      exact hbuilt.hasShape id (by rw [hlist, List.mem_range]; exact (hlt id).1 hid)
    constructor
    · intro id hid desc hexisting
      obtain ⟨desc', hdesc', hhas⟩ := hshape id hid
      obtain ⟨desc'', hdesc'', hcases⟩ := hfiles id ((hlt id).1 hid)
      cases hdesc'.symm.trans hdesc''
      rcases hcases with hold | ⟨hnone, -⟩
      · cases hold.symm.trans hexisting
        exact hhas
      · cases hnone.symm.trans hexisting
    · rintro ⟨id, hid, hmissing⟩
      obtain ⟨desc', hdesc', hhas⟩ := hshape id hid
      obtain ⟨desc'', hdesc'', hcases⟩ := hfiles id ((hlt id).1 hid)
      cases hdesc'.symm.trans hdesc''
      rcases hcases with hold | ⟨-, ids, rfl⟩
      · cases hold.symm.trans hmissing
      · exact (hasShape_new_iff id _ ids).1 hhas
  · rintro ⟨hold, hfits⟩
    refine ⟨m, hm, ?_⟩
    constructor
    · rw [hlist]
      exact List.nodup_range
    · rw [hlist, List.length_range]
      exact Int.toNat_of_nonneg hnonneg
    · intro id hid
      rw [hlist, List.mem_range] at hid
      obtain ⟨desc, hdesc, hcases⟩ := hfiles id hid
      refine ⟨desc, hdesc, ?_⟩
      rcases hcases with hexisting | ⟨hnone, ids, rfl⟩
      · exact hold id ((hlt id).2 hid) desc hexisting
      · exact (hasShape_new_iff id _ ids).2 (hfits ⟨id, (hlt id).2 hid, hnone⟩)

/-! ### A file of an earlier run -/

/-- What `init` does when the controllers are set up and the rest of it runs to its end. -/
theorem init_of_initPool (gpuFileNums : Int32) {gpuId : ℤ} {nvmeControllers : List NVMeController} {m : GPUFileManager}
    (hshape : gpuFileShape.length = 3) (hgpu : sys.cudaDevice = some gpuId)
    (hparse : sys.parseAndSetupControllers gpuId (gpuFileNums.toInt % 2 ^ 64).toNat = true)
    (hcontroller : sys.gpuController gpuId = some nvmeControllers)
    (hpool : sys.initPool nvmeControllers (gpuFileNums.toInt % 2 ^ 64).toNat
      ((gpuFileShape.map UInt64.toNat).prod % 2 ^ 64) (gpuFileShape.map UInt64.toNat) reset = some (true, m)) :
    ∃ fs, init .fresh sys gpuFileNums gpuFileShape reset = some fs ∧ fs.isInit = true ∧
      fs.gpuFileManager = some m := by
  rw [init, if_neg (not_not.2 hshape)]
  simp only [hgpu, Members.fresh, Bool.false_and, Bool.false_eq_true, if_false, hparse, Bool.not_true,
    hcontroller, hpool]
  exact ⟨_, rfl, rfl, rfl⟩

/-- A controller with one NVMe file. -/
def oneFileController : NVMeController :=
  ⟨4096, 9, 1048576, fun slot =>
    if slot = 0 then some ⟨0x7366696e696d6567, 512, 65536, 12, [⟨0, 1048576, 69632, 0⟩]⟩ else none⟩

/-- The manager of an earlier run, which has created one file. -/
def earlierManager : GPUFileManager :=
  (GPUFileManager.construct none (LogHeader.initial 0 0) [] 1000).takeSlot 0
    (GPUFileDesc.new 0 65536 [2, 1, 32768] [0])

/-- A system with its log. -/
def reusedSystem : InitSystem where
  cudaDevice := some 0
  config := some [⟨0, 1⟩]
  gpuController := fun _ => some [oneFileController]
  log := some earlierManager.forcePersist.log
  memory := LogHeader.initial 0 0
  order := id
  order_perm := List.Perm.refl
  confirmed := false
  space := fun _ _ => some [⟨0, 1179648, 135168, 0⟩]
  allocated := fun _ _ => true

/-- The manager that `init` opens on the log. -/
@[irreducible] def reopened : GPUFileManager :=
  GPUFileManager.construct (some earlierManager.forcePersist.log) (LogHeader.initial 0 0)
    [oneFileController] 1000

theorem lookup_earlierManager (id : ℕ) : earlierManager.descs.lookup id =
    if id = 0 then some (GPUFileDesc.new 0 65536 [2, 1, 32768] [0]) else none := by
  rw [earlierManager, GPUFileManager.takeSlot]
  by_cases hid : id = 0
  · subst hid
    rw [if_pos rfl]
    exact AList.lookup_insert _
  · rw [if_neg hid]
    exact (AList.lookup_insert_ne hid).trans (GPUFileManager.lookup_construct_none _ _ _ _)

theorem logCore_earlierManager : GPUFileManager.LogCore earlierManager := by
  have hslot : 0 < MAX_RECORDS := by
    rw [MAX_RECORDS_eq]
    omega
  have hcore := (GPUFileManager.soundLog_initializeLogFile.reload (LogHeader.initial 0 0) [] 1000).1
  rw [earlierManager, GPUFileManager.construct, Option.getD_none]
  exact hcore.takeSlot hslot (GPUFileManager.ownDesc_new hslot _ _ _)

/-- It finds the file, and no other. -/
theorem reopened_spec : (∀ id, reopened.dirtyBitmap id = decide (id = 0)) ∧
    (∀ id, reopened.descs.lookup id =
      if id = 0 then some (GPUFileDesc.new 0 65536 [2, 1, 32768] [0]) else none) ∧
    reopened.descs.keys = [0] := by
  obtain ⟨hbits, hlook⟩ :=
    logCore_earlierManager.keepsLog.reload (LogHeader.initial 0 0) [oneFileController] 1000
  have hlookup : ∀ id, reopened.descs.lookup id =
      if id = 0 then some (GPUFileDesc.new 0 65536 [2, 1, 32768] [0]) else none := by
    intro id
    rw [reopened, hlook, lookup_earlierManager]
  refine ⟨fun id => ?_, hlookup, ?_⟩
  · rw [reopened, hbits, Bool.eq_iff_iff, logCore_earlierManager.mem_iff, ← AList.lookup_isSome,
      lookup_earlierManager]
    by_cases hid : id = 0 <;> simp [hid]
  · have hperm : reopened.descs.keys.Perm [0] := by
      rw [List.perm_ext_iff_of_nodup reopened.descs.keys_nodup (List.nodup_singleton 0)]
      intro id
      rw [← AList.mem_keys, ← AList.lookup_isSome, hlookup]
      by_cases hid : id = 0 <;> simp [hid]
    exact List.perm_singleton.1 hperm

/-- Its file can be set up, whatever else is there. -/
theorem initLoop_one {m : GPUFileManager} {c : NVMeController} (hcontrollers : m.nvmeControllers = [c])
    (hdesc : m.descs.lookup 0 = some (GPUFileDesc.new 0 65536 [2, 1, 32768] [0]))
    (hfds : m.devFds = ∅) (hfile : (c.files 0).isSome = true) :
    ∃ m', m.initLoop (fun _ _ => true) 1 = (true, m') := by
  obtain ⟨hdr, hhdr⟩ := Option.isSome_iff_exists.1 hfile
  have hvalid : (GPUFileDesc.new 0 65536 [2, 1, 32768] [0]).nvmeMapping.isValid = true :=
    CompactNVMeMapping.isValid_ofFiles _
  have hopen : ∃ devFds, GPUFileManager.openNvmeFiles
      (GPUFileDesc.new 0 65536 [2, 1, 32768] [0]).nvmeMapping (fun _ => true) [c] 0 ∅ = (true, devFds) := by
    have hhas : (GPUFileDesc.new 0 65536 [2, 1, 32768] [0]).nvmeMapping.hasNvmeController 0 = true :=
      CompactNVMeMapping.hasNvmeController_ofFiles [0] (by omega) (by simp)
    have hid : (GPUFileDesc.new 0 65536 [2, 1, 32768] [0]).nvmeMapping.fileId 0 = 0 :=
      CompactNVMeMapping.fileId_ofFiles (i := 0) [0] (by omega) rfl
    rw [GPUFileManager.openNvmeFiles, if_neg (by omega), hhas, hid, if_neg (by simp),
      NVMeController.deviceFileOpenManaged, if_pos rfl, hhdr]
    exact ⟨_, rfl⟩
  obtain ⟨devFds, hopen⟩ := hopen
  rw [GPUFileManager.initLoop, GPUFileManager.initLoop]
  simp only [GPUFileManager.initGPUFile, hcontrollers, hdesc, hvalid, hfds, hopen]
  exact ⟨_, rfl⟩

theorem firstFrees_one (n : ℕ) (taken : ℕ → Bool) : firstFrees n 1 taken = (firstFree n taken).toList := by
  have hfrom : ∀ fuel i, firstFreesFrom taken fuel 1 i = (firstFreeFrom taken fuel i).toList := by
    intro fuel
    induction fuel with
    | zero => exact fun _ => rfl
    | succ fuel ih =>
        intro i
        rw [firstFreesFrom, firstFreeFrom]
        split_ifs
        · exact ih (i + 1)
        · cases fuel <;> rfl
  exact hfrom n 0

/-- A file of another shape can be created beside it. -/
theorem createGPUFiles_beside {m : GPUFileManager} (hbits : ∀ id, m.dirtyBitmap id = decide (id = 0))
    (hmem : 1 ∉ m.descs) (hfds : m.devFds = ∅) (hcontrollers : m.nvmeControllers = [oneFileController]) :
    ∃ (slots : List ℕ) (c : NVMeController) (m' : GPUFileManager),
      m.createGPUFiles 131072 1 [4, 1, 32768] reusedSystem.space = some (some slots, m') ∧
        m'.nvmeControllers = [c] ∧ m'.devFds = ∅ ∧ (c.files 0).isSome = true := by
  have hslot : 1 < MAX_RECORDS := by
    rw [MAX_RECORDS_eq]
    omega
  have hslots : m.findMultipleFreeSlots 1 = [1] := by
    have hfree : firstFree MAX_RECORDS m.dirtyBitmap = some 1 :=
      firstFree_eq_some.2 ⟨hslot, by simp [hbits], by simp [hbits]⟩
    rw [GPUFileManager.findMultipleFreeSlots, firstFrees_one, hfree]
    rfl
  have hcreate : ∃ c, oneFileController.hostFileCreateManaged 131072 (some [⟨0, 1179648, 135168, 0⟩]) =
      some (1, c) ∧ (c.files 0).isSome = true := by
    have hfree : firstFree MAX_RECORDS (fun slot => (oneFileController.files slot).isSome) = some 1 :=
      firstFree_eq_some.2 ⟨hslot, rfl, by simp [oneFileController]⟩
    rw [NVMeController.hostFileCreateManaged, hfree]
    simp only
    rw [if_neg (by decide)]
    exact ⟨_, rfl, rfl⟩
  obtain ⟨c, hcreate, hfile⟩ := hcreate
  have htasks : m.createNVMeFilesTasks 131072 1 reusedSystem.space = [(some [1], c)] := by
    rw [GPUFileManager.createNVMeFilesTasks, hcontrollers]
    have hsize : perNvmeFileSize 131072 [oneFileController].length = 131072 := by decide
    simp only [List.mapIdx_cons, List.mapIdx_nil, NVMeController.createNVMeFilesPerDevice, hsize]
    rw [if_neg (by decide), NVMeController.createLoop]
    have hspace : reusedSystem.space 0 0 = some [⟨0, 1179648, 135168, 0⟩] := rfl
    rw [hspace, hcreate]
    rfl
  have hany : ¬[1].any (· ∈ m.descs) = true := by simp [hmem]
  have hall : ¬(!([(some [1], c)].all (GPUFileManager.taskOk 1))) = true := by simp [GPUFileManager.taskOk]
  have hfiles : ∃ files, m.createGPUFiles 131072 1 [4, 1, 32768] reusedSystem.space =
      some (some [1], (GPUFileManager.takeSlots { m with nvmeControllers := [c] } files).countWrites 1) := by
    simp only [GPUFileManager.createGPUFiles, hslots, htasks]
    rw [if_neg (by decide), if_neg (by decide), if_neg hany, if_neg hall]
    exact ⟨_, rfl⟩
  obtain ⟨files, hfiles⟩ := hfiles
  refine ⟨[1], c, _, hfiles, ?_, ?_, hfile⟩
  · rw [GPUFileManager.countWrites_nvmeControllers, (GPUFileManager.takeSlots_frame _ _).2.2]
  · rw [GPUFileManager.countWrites_devFds, (GPUFileManager.takeSlots_frame _ _).2.1]
    exact hfds

/-- The sample is the file. -/
theorem configMismatch_eq {m : GPUFileManager} {desc : GPUFileDesc} (hkeys : m.descs.keys = [0])
    (hdesc : m.descs.lookup 0 = some desc) (fileSize : ℕ) (shape : List ℕ) :
    m.getAllGPUFileIds reusedSystem.order = [0] ∧ reusedSystem.configMismatch m fileSize shape =
      !decide (desc.totalFileSize.toNat = fileSize ∧
        ∀ i : Fin 3, (desc.tensorShape i).toNat = shape.getD i 0) := by
  have hids : m.getAllGPUFileIds reusedSystem.order = [0] := by
    simp [GPUFileManager.getAllGPUFileIds, reusedSystem, hkeys]
  refine ⟨hids, ?_⟩
  rw [InitSystem.configMismatch, hids]
  simp only [hdesc]

/-- On this log `init` runs to its end if its creation of missing files does, and leaves the file and its
records. -/
theorem init_reusedSystem (shape : List UInt64) {m : GPUFileManager} {c : NVMeController}
    (hshape : shape.length = 3)
    (hprovide : reusedSystem.provideGPUFiles reopened 1 ((shape.map UInt64.toNat).prod % 2 ^ 64)
      (shape.map UInt64.toNat) = some (true, m))
    (hcontrollers : m.nvmeControllers = [c]) (hfds : m.devFds = ∅) (hfile : (c.files 0).isSome = true) :
    ∃ fs, init .fresh reusedSystem 1 shape false = some fs ∧ fs.isInit = true ∧
      ∃ m', fs.gpuFileManager = some m' ∧ m'.freeList = [0] ∧
        m'.descs.lookup 0 = some (GPUFileDesc.new 0 65536 [2, 1, 32768] [0]) := by
  obtain ⟨-, hlook, -⟩ := reopened_spec
  obtain ⟨hfree₁, hctxs₁, hdescs₁⟩ := reusedSystem.provideGPUFiles_spec hprovide
  obtain ⟨hfree, hctxs, -, -⟩ := GPUFileManager.construct_frame
    (some earlierManager.forcePersist.log) (LogHeader.initial 0 0) [oneFileController] 1000
  rw [← reopened] at hfree hctxs
  have hdesc : m.descs.lookup 0 = some (GPUFileDesc.new 0 65536 [2, 1, 32768] [0]) := by
    rcases hdescs₁ 0 with heq | ⟨-, hnone, -⟩
    · rw [heq, hlook]
      rfl
    · rw [hlook] at hnone
      cases hnone
  obtain ⟨m', hloop⟩ := initLoop_one hcontrollers hdesc hfds hfile
  have hconstruct : GPUFileManager.construct reusedSystem.log reusedSystem.memory [oneFileController] 1000 =
      reopened := by
    have hlog : reusedSystem.log = some earlierManager.forcePersist.log := rfl
    have hmemory : reusedSystem.memory = LogHeader.initial 0 0 := rfl
    rw [reopened, hlog, hmemory]
  have hpool : reusedSystem.initPool [oneFileController] 1 ((shape.map UInt64.toNat).prod % 2 ^ 64)
      (shape.map UInt64.toNat) false = some (true, m') := by
    rw [InitSystem.initPool, hconstruct, if_neg Bool.false_ne_true, hprovide]
    exact congrArg some hloop
  obtain ⟨fs, hinit, htrue, hm'⟩ := init_of_initPool 1 hshape rfl (by decide) rfl hpool
  obtain ⟨hlist, hdescs, -⟩ := GPUFileManager.initLoop_true (hfree₁.trans hfree) (hctxs₁.trans hctxs) hloop
  exact ⟨fs, hinit, htrue, m', hm', hlist, by rw [hdescs]; exact hdesc⟩

theorem poolBuilt_iff_sameShape :
    ∃ fs, init .fresh reusedSystem 1 [2, 1, 32768] false = some fs ∧ fs.isInit = true ∧
      ((∃ m, fs.gpuFileManager = some m ∧
          PoolBuilt m (1 : Int32).toInt ([2, 1, 32768].map UInt64.toNat)) ↔
        (∀ id : ℕ, (id : ℤ) < (1 : Int32).toInt → ∀ desc, reusedSystem.existing false id = some desc →
          HasShape desc ([2, 1, 32768].map UInt64.toNat)) ∧
        ((∃ id : ℕ, (id : ℤ) < (1 : Int32).toInt ∧ reusedSystem.existing false id = none) →
          Fits ([2, 1, 32768].map UInt64.toNat))) := by
  obtain ⟨-, hlook, hkeys⟩ := reopened_spec
  obtain ⟨-, -, hfds, hcontrollers⟩ := GPUFileManager.construct_frame
    (some earlierManager.forcePersist.log) (LogHeader.initial 0 0) [oneFileController] 1000
  rw [← reopened] at hfds hcontrollers
  obtain ⟨hids, hsample⟩ := configMismatch_eq hkeys (hlook 0) 65536 [2, 1, 32768]
  have hmatch : reusedSystem.configMismatch reopened 65536 [2, 1, 32768] = false := by
    rw [hsample]
    decide
  have hprovide : reusedSystem.provideGPUFiles reopened 1
      (([2, 1, 32768].map UInt64.toNat).prod % 2 ^ 64) ([2, 1, 32768].map UInt64.toNat) =
        some (true, reopened) := by
    have hsize : ([2, 1, 32768].map UInt64.toNat).prod % 2 ^ 64 = 65536 := by decide
    have hdims : [2, 1, 32768].map UInt64.toNat = [2, 1, 32768] := rfl
    rw [hsize, hdims, InitSystem.provideGPUFiles, hids]
    exact if_pos ⟨le_rfl, hmatch⟩
  obtain ⟨fs, hrun, hinit, -⟩ := init_reusedSystem [2, 1, 32768] rfl hprovide hcontrollers hfds rfl
  exact ⟨fs, hrun, hinit, poolBuilt_iff hrun hinit⟩

/-- **A file of another shape is put into the pool**: the sample shows that its configuration is another one,
and the file that is created for the request is not used. -/
theorem not_poolBuilt_otherShape :
    ∃ fs, init .fresh reusedSystem 1 [4, 1, 32768] false = some fs ∧ fs.isInit = true ∧
      ¬∃ m, fs.gpuFileManager = some m ∧ PoolBuilt m 1 ([4, 1, 32768].map UInt64.toNat) := by
  obtain ⟨hbits, hlook, hkeys⟩ := reopened_spec
  obtain ⟨-, -, hfds, hcontrollers⟩ := GPUFileManager.construct_frame
    (some earlierManager.forcePersist.log) (LogHeader.initial 0 0) [oneFileController] 1000
  rw [← reopened] at hfds hcontrollers
  obtain ⟨hids, hsample⟩ := configMismatch_eq hkeys (hlook 0) 131072 [4, 1, 32768]
  have hmismatch : reusedSystem.configMismatch reopened 131072 [4, 1, 32768] = true := by
    rw [hsample]
    decide
  have hmem : 1 ∉ reopened.descs := by simp [← AList.lookup_isSome, hlook]
  obtain ⟨slots, c, m, hcreate, hcontrollers₁, hfds₁, hfile⟩ :=
    createGPUFiles_beside hbits hmem hfds hcontrollers
  have hprovide : reusedSystem.provideGPUFiles reopened 1
      (([4, 1, 32768].map UInt64.toNat).prod % 2 ^ 64) ([4, 1, 32768].map UInt64.toNat) =
        some (true, m) := by
    have hsize : ([4, 1, 32768].map UInt64.toNat).prod % 2 ^ 64 = 131072 := by decide
    have hdims : [4, 1, 32768].map UInt64.toNat = [4, 1, 32768] := rfl
    rw [hsize, hdims, InitSystem.provideGPUFiles, hids]
    simp only [hmismatch, Bool.true_eq_false, and_false, if_false, List.length_singleton, lt_irrefl]
    rw [hcreate]
    rfl
  obtain ⟨fs, hrun, hinit, m', hm', hlist, hdesc⟩ :=
    init_reusedSystem [4, 1, 32768] rfl hprovide hcontrollers₁ hfds₁ hfile
  refine ⟨fs, hrun, hinit, ?_⟩
  rintro ⟨m'', hm'', hbuilt⟩
  cases hm'.symm.trans hm''
  obtain ⟨desc, hdesc', hhas⟩ := hbuilt.hasShape 0 (by rw [hlist]; exact List.mem_singleton_self 0)
  cases hdesc.symm.trans hdesc'
  have hsize := hhas.totalFileSize
  revert hsize
  decide

end GeminiFS
end InfiniKV
