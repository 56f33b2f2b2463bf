/-
**The device file of an NVMe file, created and opened.**

The header of an NVMe file exists three times.  `create_host_fd_internal` fills in the one on the heap, except
for the number of extents and the extents; `host_refine_nvmeofst` writes these to the one in the file only.  The
copy on the device is made from the heap when the file is created, and from the file when it is opened.  And what
opening a file gives is its `NVMe_File`, but what creating it gives is the copy of the header.

Main definitions:

* `InfiniKV.GeminiFS.HdrBuffer` — a header in memory, with the room for extents behind it;
* `InfiniKV.GeminiFS.DeviceMemory` — what has been allocated on the device;
* `InfiniKV.GeminiFS.deviceFileCreateManaged`, `deviceFileOpenManaged` — creating and opening a device file;
* `InfiniKV.GeminiFS.SameDeviceFile` — two handles denote NVMe files with one header.

Main results:

* `InfiniKV.GeminiFS.hostOpenGeminifsFile_writeHdr` — **a header is read back** from the file it is written to;
* `InfiniKV.GeminiFS.created_never_same` — **a created device file is never the opened one**.
-/

import InfiniKV.GpuFiles
import InfiniKV.HostDevice
import Mathlib.Data.List.Range

set_option relaxedAutoImplicit false
set_option autoImplicit false

namespace InfiniKV
namespace GeminiFS

/-! ### The header in the file -/

/-- The numbers of an extent fit into the fields of `gemini_fiemap_extent`. -/
structure FiemapExtent.Fits (e : FiemapExtent) : Prop where
  feLogical : e.feLogical < 2 ^ 64
  fePhysical : e.fePhysical < 2 ^ 64
  feLength : e.feLength < 2 ^ 64
  feFlags : e.feFlags < 2 ^ 32

/-- The bytes of an extent. -/
def FiemapExtent.bytes (e : FiemapExtent) : List UInt8 :=
  extentCodec.encode (UInt64.ofNat e.feLogical, UInt64.ofNat e.fePhysical, UInt64.ofNat e.feLength,
    UInt32.ofNat e.feFlags, ())

theorem FiemapExtent.length_bytes (e : FiemapExtent) : e.bytes.length = extentCodec.size :=
  extentCodec.length_encode _

/-- The extents as the kernel gives them for the ranges of a file. -/
structure FsIocFiemap where
  answer : ℕ → ℕ → List FiemapExtent
  fits : ∀ start length, ∀ e ∈ answer start length, e.Fits

/-- What `host_refine_nvmeofst` writes to a file: the header, with the number of extents, and the extents. -/
def writeHdr (raw : ByteFile) (fixed : RawHdr) (mapping : List FiemapExtent) : ByteFile :=
  (raw.put RawHdr.codec 0 { fixed with extentCount := UInt8.ofNat mapping.length }).write RawHdr.codec.size
    (mapping.flatMap FiemapExtent.bytes)

theorem length_flatMap_bytes (mapping : List FiemapExtent) :
    (mapping.flatMap FiemapExtent.bytes).length = mapping.length * extentCodec.size := by
  induction mapping with
  | nil => rw [List.flatMap_nil, List.length_nil, List.length_nil, Nat.zero_mul]
  | cons e mapping ih =>
      rw [List.flatMap_cons, List.length_append, ih, e.length_bytes, List.length_cons, Nat.succ_mul, Nat.add_comm]

/-- The bytes of an extent among the bytes of all. -/
theorem take_drop_flatMap_bytes {mapping : List FiemapExtent} {i : ℕ} (hi : i < mapping.length)
    (rest : List UInt8) :
    ((mapping.flatMap FiemapExtent.bytes ++ rest).drop (i * extentCodec.size)).take extentCodec.size =
      (mapping[i]).bytes := by
  induction mapping generalizing i with
  | nil => exact absurd hi (Nat.not_lt_zero i)
  | cons e mapping ih =>
      rw [List.flatMap_cons, List.append_assoc]
      cases i with
      | zero =>
          rw [Nat.zero_mul, List.drop_zero, ← e.length_bytes, List.take_left]
          rfl
      | succ i =>
          rw [Nat.succ_mul, Nat.add_comm, ← List.drop_drop, ← e.length_bytes, List.drop_left, e.length_bytes]
          exact ih (Nat.lt_of_succ_lt_succ hi)

/-- An extent is read back from its bytes. -/
theorem extentOf_of_bytes {bytes : List UInt8} {i : ℕ} {e : FiemapExtent} (he : e.Fits)
    (h : (bytes.drop (RawHdr.codec.size + i * extentCodec.size)).take extentCodec.size = e.bytes) :
    extentOf bytes i = e := by
  rw [extentOf, h, FiemapExtent.bytes, extentCodec.decode_encode]
  dsimp only
  rw [UInt64.toNat_ofNat', UInt64.toNat_ofNat', UInt64.toNat_ofNat', UInt32.toNat_ofNat',
    Nat.mod_eq_of_lt he.feLogical, Nat.mod_eq_of_lt he.fePhysical, Nat.mod_eq_of_lt he.feLength,
    Nat.mod_eq_of_lt he.feFlags]

/-- A part of what is read is what is read of that part. -/
theorem read_part {raw : ByteFile} {n : ℕ} {bytes : List UInt8} (h : raw.read 0 n = some bytes)
    (offset m : ℕ) (hle : offset + m ≤ n) : raw.read offset m = some ((bytes.drop offset).take m) := by
  obtain ⟨hsize, rfl⟩ := raw.read_eq_some_iff.1 h
  rw [raw.read_eq_some_iff]
  refine ⟨by omega, ?_⟩
  apply List.ext_getElem
  · rw [List.length_take, List.length_drop, List.length_map, List.length_map, List.length_range, List.length_range]
    omega
  · intro i hi hi'
    rw [List.getElem_take, List.getElem_drop, List.getElem_map, List.getElem_map, List.getElem_range,
      List.getElem_range, Nat.zero_add]

/-- The fixed part of a header is in its first bytes. -/
theorem decode_rawHdr_take (bytes : List UInt8) :
    RawHdr.codec.decode (bytes.take RawHdr.codec.size) = RawHdr.codec.decode bytes := by
  simp only [RawHdr.codec, Codec.ofFields, Codec.pair, Codec.u64, Codec.u32, Codec.u8, Codec.pad, List.take_take,
    List.drop_take, List.drop_drop]
  simp

/-- **A header is read back** from the file it is written to, with its extents. -/
theorem hostOpenGeminifsFile_writeHdr {raw : ByteFile} {fixed : RawHdr} {mapping : List FiemapExtent}
    (hmagic : fixed.magicNum = geminiFSMagic) (hbase : fixed.firstBlockBase.toNat = GEMINI_HDR_MAX_SIZE)
    (hsize : GEMINI_HDR_MAX_SIZE ≤ raw.size) (hlen : mapping.length ≤ GEMINI_HDR_MAX_EXTENTS)
    (hfits : ∀ e ∈ mapping, e.Fits) :
    hostOpenGeminifsFile (writeHdr raw fixed mapping) =
      some ⟨fixed.magicNum.toNat, fixed.firstBlockBase.toNat, fixed.virtualSpaceSize.toNat, fixed.blockBit.toNat,
        mapping⟩ := by
  have hrawSize : RawHdr.codec.size = 32 := rfl
  have hextentSize : extentCodec.size = 32 := rfl
  have hmax : GEMINI_HDR_MAX_SIZE = 512 := rfl
  have hmany : GEMINI_HDR_MAX_EXTENTS = 15 := rfl
  have hput : (raw.put RawHdr.codec 0 { fixed with extentCount := UInt8.ofNat mapping.length }).size = raw.size :=
    raw.size_put_of_le _ (by omega)
  have hget : (writeHdr raw fixed mapping).get RawHdr.codec 0 =
      some { fixed with extentCount := UInt8.ofNat mapping.length } := by
    rw [writeHdr, ByteFile.get_write_of_disjoint]
    · exact raw.get_put_self (by omega) 0 _
    · right
      rw [Nat.zero_add]
    · rw [hput]
      omega
  have hfile : GEMINI_HDR_MAX_SIZE ≤ (writeHdr raw fixed mapping).size := by
    rw [← hput] at hsize
    exact hsize.trans (ByteFile.size_le_size_write _ _ _)
  obtain ⟨bytes, hbytes⟩ : ∃ bytes, (writeHdr raw fixed mapping).read 0 GEMINI_HDR_MAX_SIZE = some bytes :=
    ⟨_, ((writeHdr raw fixed mapping).read_eq_some_iff).2 ⟨by omega, rfl⟩⟩
  have hfixed : RawHdr.codec.decode bytes = { fixed with extentCount := UInt8.ofNat mapping.length } := by
    rw [ByteFile.get, read_part hbytes 0 RawHdr.codec.size (by omega), List.drop_zero, Option.map_some, Option.some.injEq,
      decode_rawHdr_take] at hget
    exact hget
  have hextents : (List.range mapping.length).map (extentOf bytes) = mapping := by
    -- the bytes behind the fixed part begin with those of the extents
    have hbehind : (bytes.drop RawHdr.codec.size).take (mapping.length * extentCodec.size) =
        mapping.flatMap FiemapExtent.bytes := by
      have hlength := length_flatMap_bytes mapping
      by_cases hnil : mapping.flatMap FiemapExtent.bytes = []
      · rw [← hlength, hnil, List.length_nil, List.take_zero]
      · have hwritten := (raw.put RawHdr.codec 0
          { fixed with extentCount := UInt8.ofNat mapping.length }).read_write_self RawHdr.codec.size hnil
        have hle : RawHdr.codec.size + mapping.length * extentCodec.size ≤ GEMINI_HDR_MAX_SIZE := by
          rw [hrawSize, hextentSize, hmax]
          omega
        have hread := read_part hbytes _ _ hle
        rw [writeHdr, ← hlength, hwritten, Option.some.injEq] at hread
        rw [← hlength]
        exact hread.symm
    apply List.ext_getElem
    · rw [List.length_map, List.length_range]
    · intro i hi hi'
      rw [List.getElem_map, List.getElem_range]
      apply extentOf_of_bytes (hfits _ (List.getElem_mem hi'))
      rw [← List.drop_drop, ← List.take_append_drop (mapping.length * extentCodec.size)
        (bytes.drop RawHdr.codec.size), hbehind]
      exact take_drop_flatMap_bytes hi' _
  have hcount : (UInt8.ofNat mapping.length).toNat = mapping.length := by
    rw [UInt8.toNat_ofNat', Nat.mod_eq_of_lt]
    omega
  rw [hostOpenGeminifsFile, hget]
  simp only [Option.bind_eq_bind, Option.bind_some, hmagic, hbase, hbytes, hfixed, hcount, hextents, ne_eq,
    not_true_eq_false, if_false]

/-! ### The header in memory -/

/-- A `geminiFS_hdr` in memory: its fixed part, and the room for extents behind it. -/
structure HdrBuffer where
  fixed : RawHdr
  extents : ℕ → FiemapExtent

/-- The header that a buffer holds. -/
def HdrBuffer.hdr (buf : HdrBuffer) : GeminiHdr :=
  ⟨buf.fixed.magicNum.toNat, buf.fixed.firstBlockBase.toNat, buf.fixed.virtualSpaceSize.toNat,
    buf.fixed.blockBit.toNat, (List.range buf.fixed.extentCount.toNat).map buf.extents⟩

/-- A file of zeroes, as `fallocate` leaves it. -/
def allocatedFile (size : ℕ) : ByteFile := ⟨size, fun _ => 0⟩

/-- What creating a file depends on: what `malloc` gives for the header, the descriptor, the extents that the file
system gives the file, and the sizes of the controller. -/
structure CreateEnv where
  malloced : HdrBuffer
  fd : UInt32
  fiemap : FsIocFiemap
  pageSize : ℕ
  hqpsBlockSizeLog : ℕ
  blkSizeLog : ℕ

/-- The fields of the header that `create_host_fd_internal` sets on the heap. -/
def createHdr (env : CreateEnv) (blockSize : ℕ) (fileSize : UInt64) : HdrBuffer :=
  { env.malloced with fixed := { env.malloced.fixed with
      magicNum := geminiFSMagic
      firstBlockBase := UInt64.ofNat GEMINI_HDR_MAX_SIZE
      virtualSpaceSize := fileSize
      fd := env.fd
      blockBit := UInt8.ofNat (ctzll blockSize) } }

/-- `create_host_fd_internal`: the header on the heap and the file, where `none` stands for a failed assertion and
for the exit in `host_refine_nvmeofst`.  The extents go to the file only. -/
def createHostFd (env : CreateEnv) (blockSize : ℕ) (fileSize : UInt64) : Option (HdrBuffer × ByteFile) :=
  if fileSize.toNat % blockSize ≠ 0 then none
  else if blockSize % env.pageSize ≠ 0 then none
  else
    let buf := createHdr env blockSize fileSize
    let raw := allocatedFile (GEMINI_HDR_MAX_SIZE + fileSize.toNat)
    match hostRefineNvmeofst env.fiemap.answer buf.hdr with
    | none => none
    | some refined => some (buf, writeHdr raw buf.fixed refined.extents)

/-! ### The device -/

/-- What lies at an address of the device. -/
inductive DeviceObject where
  | hdr (hdr : GeminiHdr)
  | nvmeFile (hdr nvmePageSize hqpsBlockSizeLog : ℕ)

/-- The memory of the device.  `cudaMalloc` gives one address after the other. -/
structure DeviceMemory where
  objects : ℕ → Option DeviceObject
  next : ℕ

/-- `cudaMalloc`, with what is then put there. -/
def DeviceMemory.alloc (memory : DeviceMemory) (object : DeviceObject) : ℕ × DeviceMemory :=
  (memory.next, ⟨Function.update memory.objects memory.next (some object), memory.next + 1⟩)

/-- `copy_host_fd_to_device`. -/
def copyHostFdToDevice (memory : DeviceMemory) (hdr : GeminiHdr) : ℕ × DeviceMemory := memory.alloc (.hdr hdr)

/-- The `NVMe_File` that a handle denotes, with the header that it points to. -/
def DeviceMemory.nvmeFile (memory : DeviceMemory) (deviceFd : ℕ) : Option NVMeFile :=
  match memory.objects deviceFd with
  | some (.nvmeFile hdr nvmePageSize hqpsBlockSizeLog) =>
      match memory.objects hdr with
      | some (.hdr hdr) => some ⟨hdr, nvmePageSize, hqpsBlockSizeLog⟩
      | _ => none
  | _ => none

/-- A device file that has been created: the handle that is returned, the `NVMe_File` that is kept for it, the
physical file and the memory of the device. -/
structure CreatedDeviceFile where
  deviceFd : ℕ
  dNvmeFile : ℕ
  raw : ByteFile
  memory : DeviceMemory

/-- `device_file_create_managed`, as far as it succeeds; `g_open` gives its handle. -/
def deviceFileCreateManaged (env : CreateEnv) (memory : DeviceMemory) (blockSize : ℕ) (fileSize : UInt64) :
    Option CreatedDeviceFile :=
  match createHostFd env blockSize fileSize with
  | none => none
  | some host =>
      let copy := copyHostFdToDevice memory host.1.hdr
      let file := copy.2.alloc (.nvmeFile copy.1 env.pageSize env.hqpsBlockSizeLog)
      some ⟨copy.1, file.1, host.2, file.2⟩

/-- `device_file_open_managed`: the handle that is returned, and the memory of the device. -/
def deviceFileOpenManaged (env : CreateEnv) (memory : DeviceMemory) (raw : ByteFile) : Option (ℕ × DeviceMemory) :=
  match hostOpenGeminifsFile raw with
  | none => none
  | some hdr =>
      let copy := copyHostFdToDevice memory hdr
      some (copy.2.alloc (.nvmeFile copy.1 env.pageSize env.blkSizeLog))

/-- Two handles denote NVMe files with one header: magic number, base, size, block bit and extents. -/
def SameDeviceFile (memory : DeviceMemory) (deviceFd deviceFd' : ℕ) : Prop :=
  ∃ file file', memory.nvmeFile deviceFd = some file ∧ memory.nvmeFile deviceFd' = some file' ∧
    file.hdr = file'.hdr

/-! ### Creating and opening -/

variable {env : CreateEnv} {memory : DeviceMemory} {blockSize : ℕ} {fileSize : UInt64}

/-- What is allocated lies at its address. -/
@[simp] theorem objects_alloc_self (memory : DeviceMemory) (object : DeviceObject) :
    (memory.alloc object).2.objects memory.next = some object := Function.update_self ..

/-- What was allocated before stays. -/
theorem objects_alloc_of_lt {object : DeviceObject} {address : ℕ} (h : address < memory.next) :
    (memory.alloc object).2.objects address = memory.objects address :=
  Function.update_of_ne h.ne _ _

@[simp] theorem fst_alloc (memory : DeviceMemory) (object : DeviceObject) :
    (memory.alloc object).1 = memory.next := rfl

@[simp] theorem next_alloc (memory : DeviceMemory) (object : DeviceObject) :
    (memory.alloc object).2.next = memory.next + 1 := rfl

/-- A handle of a header denotes no `NVMe_File`. -/
theorem nvmeFile_of_hdr {deviceFd : ℕ} {hdr : GeminiHdr} (h : memory.objects deviceFd = some (.hdr hdr)) :
    memory.nvmeFile deviceFd = none := by
  rw [DeviceMemory.nvmeFile, h]

/-- A handle of an `NVMe_File` denotes it, with the header that it points to. -/
theorem nvmeFile_of_nvmeFile {deviceFd address nvmePageSize hqpsBlockSizeLog : ℕ} {hdr : GeminiHdr}
    (h : memory.objects deviceFd = some (.nvmeFile address nvmePageSize hqpsBlockSizeLog))
    (hhdr : memory.objects address = some (.hdr hdr)) :
    memory.nvmeFile deviceFd = some ⟨hdr, nvmePageSize, hqpsBlockSizeLog⟩ := by
  simp only [DeviceMemory.nvmeFile, h, hhdr]

/-- **Creating a file** gives the header on the heap, and a file with the extents, which opens. -/
theorem createHostFd_some {host : HdrBuffer × ByteFile} (h : createHostFd env blockSize fileSize = some host) :
    host.1 = createHdr env blockSize fileSize ∧
      hostOpenGeminifsFile host.2 = some { (createHdr env blockSize fileSize).hdr with
        extents := env.fiemap.answer GEMINI_HDR_MAX_SIZE fileSize.toNat } := by
  rw [createHostFd] at h
  split_ifs at h
  dsimp only at h
  have hbase : (createHdr env blockSize fileSize).fixed.firstBlockBase.toNat = GEMINI_HDR_MAX_SIZE := rfl
  rw [hostRefineNvmeofst, readFiemap] at h
  by_cases hnil : env.fiemap.answer (createHdr env blockSize fileSize).hdr.firstBlockBase
      (createHdr env blockSize fileSize).hdr.virtualSpaceSize = []
  · rw [if_pos hnil] at h
    cases h
  · rw [if_neg hnil] at h
    dsimp only at h
    by_cases hmany : (env.fiemap.answer (createHdr env blockSize fileSize).hdr.firstBlockBase
        (createHdr env blockSize fileSize).hdr.virtualSpaceSize).length > GEMINI_HDR_MAX_EXTENTS
    · rw [if_pos hmany] at h
      cases h
    · rw [if_neg hmany] at h
      cases h
      refine ⟨rfl, ?_⟩
      rw [hostOpenGeminifsFile_writeHdr rfl hbase (Nat.le_add_right _ _) (Nat.le_of_not_lt hmany)
        (env.fiemap.fits _ _)]
      rfl

/-- **What there is on the device** after a file was created and opened: two headers, and an `NVMe_File` for each
of them.  Creating the file gives the first header, and opening it the second `NVMe_File`. -/
theorem created_opened {c : CreatedDeviceFile}
    (h : deviceFileCreateManaged env memory blockSize fileSize = some c) :
    ∃ opened, deviceFileOpenManaged env c.memory c.raw = some opened ∧
      opened.2.nvmeFile c.deviceFd = none ∧
      opened.2.nvmeFile c.dNvmeFile =
        some ⟨(createHdr env blockSize fileSize).hdr, env.pageSize, env.hqpsBlockSizeLog⟩ ∧
      opened.2.nvmeFile opened.1 =
        some ⟨{ (createHdr env blockSize fileSize).hdr with
          extents := env.fiemap.answer GEMINI_HDR_MAX_SIZE fileSize.toNat }, env.pageSize, env.blkSizeLog⟩ := by
  rw [deviceFileCreateManaged] at h
  cases hhost : createHostFd env blockSize fileSize with
  | none =>
      rw [hhost] at h
      cases h
  | some host =>
      rw [hhost] at h
      obtain ⟨hbuf, hopen⟩ := createHostFd_some hhost
      cases h
      rw [deviceFileOpenManaged, hopen]
      -- one allocation after the other
      simp only [copyHostFdToDevice, hbuf, fst_alloc]
      refine ⟨_, rfl, ?_, ?_, ?_⟩
      · apply nvmeFile_of_hdr
        rw [objects_alloc_of_lt (by simp only [next_alloc]; omega),
          objects_alloc_of_lt (by simp only [next_alloc]; omega),
          objects_alloc_of_lt (by simp only [next_alloc]; omega), objects_alloc_self]
      · apply nvmeFile_of_nvmeFile
        · rw [objects_alloc_of_lt (by simp only [next_alloc]; omega),
            objects_alloc_of_lt (by simp only [next_alloc]; omega), objects_alloc_self]
        · rw [objects_alloc_of_lt (by simp only [next_alloc]; omega),
            objects_alloc_of_lt (by simp only [next_alloc]; omega),
            objects_alloc_of_lt (by simp only [next_alloc]; omega), objects_alloc_self]
      · apply nvmeFile_of_nvmeFile
        · rw [fst_alloc, objects_alloc_self]
        · rw [objects_alloc_of_lt (by simp only [next_alloc]; omega), objects_alloc_self]

/-- **A created device file is never the opened one**: what creating a file gives denotes no `NVMe_File`, so that
it is not the one that opening the file gives afterwards.  And the `NVMe_File` that is kept for the created file
has the header of the opened one only if the extents were on the heap already, by chance. -/
theorem created_never_same {c : CreatedDeviceFile}
    (h : deviceFileCreateManaged env memory blockSize fileSize = some c) :
    ∃ opened, deviceFileOpenManaged env c.memory c.raw = some opened ∧
      ¬SameDeviceFile opened.2 c.deviceFd opened.1 ∧
      (SameDeviceFile opened.2 c.dNvmeFile opened.1 ↔
        (List.range env.malloced.fixed.extentCount.toNat).map env.malloced.extents =
          env.fiemap.answer GEMINI_HDR_MAX_SIZE fileSize.toNat) := by
  obtain ⟨opened, hopen, hnone, hkept, hopened⟩ := created_opened h
  refine ⟨opened, hopen, ?_, ?_⟩
  · rintro ⟨file, file', hfile, -, -⟩
    rw [hnone] at hfile
    cases hfile
  · constructor
    · rintro ⟨file, file', hfile, hfile', hsame⟩
      rw [hkept] at hfile
      rw [hopened] at hfile'
      cases hfile
      cases hfile'
      exact congrArg GeminiHdr.extents hsame
    · intro hgarbage
      refine ⟨_, _, hkept, hopened, ?_⟩
      dsimp only
      rw [← hgarbage]
      rfl

/-! ### A file of one block -/

/-- A file with one extent, and a heap of zeroes. -/
def oneExtentEnv : CreateEnv where
  malloced := ⟨⟨0, 0, 0, 0, 0, 0⟩, fun _ => ⟨0, 0, 0, 0⟩⟩
  fd := 3
  fiemap := {
    answer := fun _ _ => [⟨0, 1048576, 8192, 0⟩]
    fits := by
      intro start length e he
      rw [List.mem_singleton] at he
      rw [he]
      exact ⟨by decide, by decide, by decide, by decide⟩ }
  pageSize := 4096
  hqpsBlockSizeLog := 9
  blkSizeLog := 9

/-- A device without allocations. -/
def emptyDevice : DeviceMemory := ⟨fun _ => none, 0⟩

/-- The file can be created. -/
theorem exists_created :
    ∃ c, deviceFileCreateManaged oneExtentEnv emptyDevice 4096 4096 = some c := by
  have hhost : (createHostFd oneExtentEnv 4096 4096).isSome = true := by
    rw [createHostFd]
    decide
  obtain ⟨host, hhost⟩ := Option.isSome_iff_exists.1 hhost
  rw [deviceFileCreateManaged, hhost]
  exact ⟨_, rfl⟩

/-- The file of one block, created and opened. -/
theorem created_never_same_oneExtent :
    ∃ c, deviceFileCreateManaged oneExtentEnv emptyDevice 4096 4096 = some c ∧
      ∃ opened, deviceFileOpenManaged oneExtentEnv c.memory c.raw = some opened ∧
        ¬SameDeviceFile opened.2 c.deviceFd opened.1 ∧
        (SameDeviceFile opened.2 c.dNvmeFile opened.1 ↔
          (List.range oneExtentEnv.malloced.fixed.extentCount.toNat).map oneExtentEnv.malloced.extents =
            oneExtentEnv.fiemap.answer GEMINI_HDR_MAX_SIZE (4096 : UInt64).toNat) := by
  obtain ⟨c, hc⟩ := exists_created
  exact ⟨c, hc, created_never_same hc⟩

/-- The handle of the created file is a header, the one of the opened file an `NVMe_File`; and the `NVMe_File` that
is kept for the created file has no extents, so that no address can be translated through it. -/
theorem not_sameDeviceFile_oneExtent :
    ∃ c opened file file', deviceFileCreateManaged oneExtentEnv emptyDevice 4096 4096 = some c ∧
      deviceFileOpenManaged oneExtentEnv c.memory c.raw = some opened ∧
      ¬SameDeviceFile opened.2 c.deviceFd opened.1 ∧
      opened.2.nvmeFile c.dNvmeFile = some file ∧ opened.2.nvmeFile opened.1 = some file' ∧
      getNvmeofst file.hdr 0 = none ∧ getNvmeofst file'.hdr 0 = some 1048576 := by
  obtain ⟨c, hc⟩ := exists_created
  obtain ⟨opened, hopen, hnone, hkept, hopened⟩ := created_opened hc
  refine ⟨c, opened, _, _, hc, hopen, ?_, hkept, hopened, by decide, by decide⟩
  rintro ⟨file, file', hfile, -, -⟩
  rw [hnone] at hfile
  cases hfile

end GeminiFS
end InfiniKV
