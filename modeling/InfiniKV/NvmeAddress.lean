/-
**Where a device access lands.**

An NVMe file is created on the host: its space is allocated by the file system, and the extents FIEMAP
reports for it are kept in a header at the front of the file.  A kernel translates an offset in the file
by walking the extents of the header, and issues one NVMe command for the whole access from there.

Only the start of the access is translated, and to the byte at which its block begins.

Main definitions:

* `InfiniKV.GeminiFS.GeminiHdr` — the header of an NVMe file;
* `InfiniKV.GeminiFS.readFiemap`, `hostRefineNvmeofst` — how the extents get into the header;
* `InfiniKV.GeminiFS.getNvmeofst`, `nvmeXfer` — the translation, and the command that is issued.

Main results:

* `InfiniKV.GeminiFS.getNvmeofst_eq` — **the translation walks the extents by blocks**;
* `InfiniKV.GeminiFS.nvmeXfer_of_dvd` — **the command of an aligned transfer**.
-/

import InfiniKV.Extents

set_option relaxedAutoImplicit false
set_option autoImplicit false

namespace InfiniKV
namespace GeminiFS

/-- `gemini_fiemap_extent`. -/
structure FiemapExtent where
  feLogical : ℕ
  fePhysical : ℕ
  feLength : ℕ
  feFlags : ℕ
  deriving DecidableEq, Repr

/-- An extent as it lies on the disk. -/
def FiemapExtent.onDisk (e : FiemapExtent) : Extents.Extent := ⟨e.fePhysical, e.feLength⟩

/-- `geminiFS_hdr`, without the file descriptor, which is a dummy in the file. -/
structure GeminiHdr where
  magicNum : ℕ
  firstBlockBase : ℕ
  virtualSpaceSize : ℕ
  blockBit : ℕ
  extents : List FiemapExtent
  deriving DecidableEq, Repr

/-- `GEMINI_HDR_MAX_SIZE`. -/
def GEMINI_HDR_MAX_SIZE : ℕ := 512

/-- `GEMINI_HDR_MAX_EXTENTS`: header and extents are 32 bytes each. -/
def GEMINI_HDR_MAX_EXTENTS : ℕ := (GEMINI_HDR_MAX_SIZE - 32) / 32

/-- The extents of a header as they lie on the disk. -/
def GeminiHdr.onDisk (hdr : GeminiHdr) : List Extents.Extent := hdr.extents.map FiemapExtent.onDisk

/-! ### The header -/

/-- `read_fiemap`, given what the file system answers for a range: `none` if it knows of no extent. -/
def readFiemap (fsIocFiemap : ℕ → ℕ → List FiemapExtent) (fiemapStart fiemapLength : ℕ) :
    Option (List FiemapExtent) :=
  if fsIocFiemap fiemapStart fiemapLength = [] then none
  else some (fsIocFiemap fiemapStart fiemapLength)

/-- `host_refine_nvmeofst`: the header with the extents of the range behind it.  The process ends if
there are none, or more than the header has room for. -/
def hostRefineNvmeofst (fsIocFiemap : ℕ → ℕ → List FiemapExtent) (hdr : GeminiHdr) :
    Option GeminiHdr :=
  match readFiemap fsIocFiemap hdr.firstBlockBase hdr.virtualSpaceSize with
  | none => none
  | some mapping =>
      if mapping.length > GEMINI_HDR_MAX_EXTENTS then none
      else some { hdr with extents := mapping }

/-! ### Translation -/

/-- The loop of `__get_nvmeofst` over the extents. -/
def getNvmeofstLoop (blockBit blkId : ℕ) : List FiemapExtent → ℕ → Option ℕ
  | [], _ => none
  | e :: rest, startBlkId =>
      let endBlkId := startBlkId + e.feLength >>> blockBit
      if startBlkId ≤ blkId ∧ blkId < endBlkId then
        some (e.fePhysical + (blkId - startBlkId) <<< blockBit)
      else getNvmeofstLoop blockBit blkId rest endBlkId

/-- `__get_nvmeofst`, where `none` stands for the `assert(false)` behind the loop. -/
def getNvmeofst (hdr : GeminiHdr) (va : ℕ) : Option ℕ :=
  getNvmeofstLoop hdr.blockBit (va >>> hdr.blockBit) hdr.extents 0

/-- `NVMe_File`, as far as its transfers depend on it. -/
structure NVMeFile where
  hdr : GeminiHdr
  nvmePageSize : ℕ
  hqpsBlockSizeLog : ℕ
  deriving DecidableEq, Repr

/-- The NVMe command of a transfer, and the offset it was computed from. -/
structure NvmeCmd where
  nvmeOfst : ℕ
  startingLba : ℕ
  nBlocks : ℕ
  deriving DecidableEq, Repr

/-- `nvme_xfer`, where `none` stands for a failed assertion. -/
def nvmeXfer (file : NVMeFile) (fileOffset nbytes : ℕ) : Option NvmeCmd :=
  if nbytes % file.nvmePageSize ≠ 0 then none
  else if fileOffset % file.nvmePageSize ≠ 0 then none
  else (getNvmeofst file.hdr fileOffset).map fun nvmeOfst =>
    ⟨nvmeOfst, nvmeOfst >>> file.hqpsBlockSizeLog, nbytes >>> file.hqpsBlockSizeLog⟩

/-- The command is told by the offset and the length. -/
theorem nvmeXfer_fields {file : NVMeFile} {fileOffset nbytes : ℕ} {cmd : NvmeCmd}
    (hcmd : nvmeXfer file fileOffset nbytes = some cmd) :
    cmd.startingLba = cmd.nvmeOfst >>> file.hqpsBlockSizeLog ∧ cmd.nBlocks = nbytes >>> file.hqpsBlockSizeLog := by
  rw [nvmeXfer] at hcmd
  split_ifs at hcmd
  obtain ⟨nvmeOfst, -, rfl⟩ := Option.map_eq_some_iff.1 hcmd
  exact ⟨rfl, rfl⟩

/-- Counting blocks up from the start is counting the block number down. -/
theorem getNvmeofstLoop_eq (blockBit : ℕ) (extents : List FiemapExtent) (blkId startBlkId : ℕ)
    (hle : startBlkId ≤ blkId) :
    getNvmeofstLoop blockBit blkId extents startBlkId =
      Extents.blockImage blockBit (extents.map FiemapExtent.onDisk) (blkId - startBlkId) := by
  induction extents generalizing startBlkId with
  | nil => rfl
  | cons e rest ih =>
      simp only [getNvmeofstLoop, List.map_cons, Extents.blockImage, FiemapExtent.onDisk]
      by_cases hin : blkId < startBlkId + e.feLength >>> blockBit
      · rw [if_pos ⟨hle, hin⟩, if_pos (by omega)]
      · rw [if_neg (by omega), if_neg (by omega), ih _ (by omega), Nat.sub_sub]

/-- **The translation walks the extents by blocks.** -/
theorem getNvmeofst_eq (hdr : GeminiHdr) (va : ℕ) :
    getNvmeofst hdr va = Extents.blockImage hdr.blockBit hdr.onDisk (va >>> hdr.blockBit) :=
  getNvmeofstLoop_eq _ _ _ 0 (Nat.zero_le _)

/-! ### Accesses -/

/-- The extents of a header map the space of the file: none is empty, all are whole blocks, no two meet
on the disk, and together they reach to the end. -/
structure GeminiHdr.Mapped (hdr : GeminiHdr) : Prop where
  pos : ∀ e ∈ hdr.onDisk, 0 < e.length
  whole : ∀ e ∈ hdr.onDisk, 2 ^ hdr.blockBit ∣ e.length
  disjoint : Extents.Disjoint hdr.onDisk
  covers : hdr.virtualSpaceSize ≤ Extents.total hdr.onDisk

/-- A block-aligned offset is translated to the byte at which it lies. -/
theorem getNvmeofst_of_dvd {hdr : GeminiHdr} (hmap : hdr.Mapped) {va : ℕ}
    (hva : 2 ^ hdr.blockBit ∣ va) : getNvmeofst hdr va = Extents.image hdr.onDisk va := by
  obtain ⟨blk, rfl⟩ := hva
  have hpow : 0 < 2 ^ hdr.blockBit := Nat.two_pow_pos _
  have hblk : (2 ^ hdr.blockBit * blk) >>> hdr.blockBit = blk := by
    rw [Nat.shiftRight_eq_div_pow, Nat.mul_div_cancel_left _ hpow]
  rw [getNvmeofst_eq, hblk, Extents.blockImage_eq, Extents.tails_of_dvd hmap.whole, Nat.add_zero,
    Nat.mul_comm]
  split_ifs with hin
  · rfl
  · rw [Extents.image_eq_none]
    rw [← Extents.blocks_of_dvd hmap.whole, Nat.mul_comm _ blk]
    exact Nat.mul_le_mul_right _ (Nat.le_of_not_lt hin)

/-- Any other offset is translated to the byte at which its block begins. -/
theorem getNvmeofst_eq_image {hdr : GeminiHdr} (hmap : hdr.Mapped) (va : ℕ) :
    getNvmeofst hdr va = Extents.image hdr.onDisk (va / 2 ^ hdr.blockBit * 2 ^ hdr.blockBit) := by
  rw [← getNvmeofst_of_dvd hmap (Nat.dvd_mul_left _ _), getNvmeofst_eq, getNvmeofst_eq,
    Nat.shiftRight_eq_div_pow, Nat.shiftRight_eq_div_pow, Nat.mul_div_cancel _ (Nat.two_pow_pos _)]

/-- The command that is issued if the assertions hold. -/
theorem nvmeXfer_of_dvd {file : NVMeFile} (hmap : file.hdr.Mapped) {fileOffset nbytes : ℕ}
    (hoffset : file.nvmePageSize ∣ fileOffset) (hbytes : file.nvmePageSize ∣ nbytes) :
    nvmeXfer file fileOffset nbytes =
      (Extents.image file.hdr.onDisk
        (fileOffset / 2 ^ file.hdr.blockBit * 2 ^ file.hdr.blockBit)).map fun nvmeOfst =>
          ⟨nvmeOfst, nvmeOfst >>> file.hqpsBlockSizeLog, nbytes >>> file.hqpsBlockSizeLog⟩ := by
  rw [nvmeXfer, if_neg (not_not.mpr (Nat.mod_eq_zero_of_dvd hbytes)),
    if_neg (not_not.mpr (Nat.mod_eq_zero_of_dvd hoffset)), getNvmeofst_eq_image hmap]

end GeminiFS
end InfiniKV
