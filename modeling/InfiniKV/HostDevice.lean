/-
**Host and device do not mean the same byte.**

The host counts the bytes of an NVMe file behind its header: virtual address `va` is byte
`first_block_base + va` of the raw file.  The device counts them from the first extent in the header.
FIEMAP answers for the range behind the header, but with whole extents, and the first of them holds the
header too; so the device is off by the header, and its writes to the first blocks destroy it.

Main definitions:

* `InfiniKV.GeminiFS.GeminiFile` — a file, its extents on the disk, and the header made from them;
* `InfiniKV.GeminiFS.hostOpenGeminifsFile` — reading the header back;
* `InfiniKV.GeminiFS.DeviceWrite` — a write from a kernel.

Main results:

* `InfiniKV.GeminiFS.GeminiFile.image_raw` — **where in the raw file the extents of the header begin**;
* `InfiniKV.GeminiFS.GeminiFile.host_device_agree` — **when host and device agree**, and that the
  header then survives every sequence of device writes.
-/

import InfiniKV.ByteFile
import InfiniKV.NvmeCommand

set_option relaxedAutoImplicit false
set_option autoImplicit false

namespace InfiniKV
namespace GeminiFS

/-! ### The file -/

/-- The extents follow each other in the file, the first one at `offset`. -/
def ContiguousFrom : ℕ → List FiemapExtent → Prop
  | _, [] => True
  | offset, e :: es => e.feLogical = offset ∧ ContiguousFrom (offset + e.feLength) es

/-- The extent has a byte in the range. -/
def FiemapExtent.Overlaps (start length : ℕ) (e : FiemapExtent) : Bool :=
  decide (e.feLogical < start + length) && decide (start < e.feLogical + e.feLength)

/-- A file, with all its extents, and the header `host_refine_nvmeofst` has made for it.  FIEMAP
answers with the extents that have a byte in the range, as they are on the disk. -/
structure GeminiFile where
  raw : List FiemapExtent
  fsIocFiemap : ℕ → ℕ → List FiemapExtent
  hdr : GeminiHdr
  mirrors : ∀ start length, fsIocFiemap start length = raw.filter (FiemapExtent.Overlaps start length)
  refined : hostRefineNvmeofst fsIocFiemap hdr = some hdr
  contiguous : ContiguousFrom 0 raw
  pos : ∀ e ∈ raw, 0 < e.feLength
  disjoint : Extents.Disjoint (raw.map FiemapExtent.onDisk)
  base : hdr.firstBlockBase = GEMINI_HDR_MAX_SIZE
  covers : hdr.firstBlockBase + hdr.virtualSpaceSize ≤ Extents.total (raw.map FiemapExtent.onDisk)

namespace GeminiFile

variable (F : GeminiFile)

/-- All extents of the file as they lie on the disk. -/
def onDisk : List Extents.Extent := F.raw.map FiemapExtent.onDisk

/-- The byte of the disk that the host reaches for a virtual address, through
`host__convert_va__to`. -/
def hostOffset (va : ℕ) : Option ℕ := Extents.image F.onDisk (F.hdr.firstBlockBase + va)

/-- The byte of the raw file at which the first extent of the header begins. -/
def start : ℕ := (F.hdr.extents.head?.map FiemapExtent.feLogical).getD 0

end GeminiFile

/-! ### What FIEMAP answers -/

theorem ContiguousFrom.append_left {es fs : List FiemapExtent} {offset : ℕ}
    (h : ContiguousFrom offset (es ++ fs)) : ContiguousFrom offset es := by
  induction es generalizing offset with
  | nil => trivial
  | cons e es ih => exact ⟨h.1, ih h.2⟩

/-- Extents behind the range are not in the answer. -/
theorem filter_overlaps_eq_nil {start length offset : ℕ} {es : List FiemapExtent}
    (hc : ContiguousFrom offset es) (hoffset : start + length ≤ offset) :
    es.filter (FiemapExtent.Overlaps start length) = [] := by
  induction es generalizing offset with
  | nil => rfl
  | cons e es ih =>
      obtain ⟨hlog, htail⟩ := hc
      have hout : FiemapExtent.Overlaps start length e = false := by
        simp only [FiemapExtent.Overlaps, Bool.and_eq_false_iff, decide_eq_false_iff_not]
        omega
      rw [List.filter_cons, hout, ih htail (by omega)]
      rfl

/-- Of extents that begin behind the start of the range, the answer has the first ones. -/
theorem filter_overlaps_prefix (start length : ℕ) {offset : ℕ} {es : List FiemapExtent}
    (hc : ContiguousFrom offset es) (hpos : ∀ e ∈ es, 0 < e.feLength) (hoffset : start ≤ offset) :
    ∃ after, es = es.filter (FiemapExtent.Overlaps start length) ++ after ∧
      (after = [] ∨ start + length ≤ offset + Extents.total
        ((es.filter (FiemapExtent.Overlaps start length)).map FiemapExtent.onDisk)) := by
  induction es generalizing offset with
  | nil => exact ⟨[], rfl, Or.inl rfl⟩
  | cons e es ih =>
      have he := hpos e List.mem_cons_self
      by_cases hin : offset < start + length
      · obtain ⟨hlog, htail⟩ := hc
        obtain ⟨after, heq, hreach⟩ :=
          ih htail (fun e' he' => hpos e' (List.mem_cons_of_mem _ he')) (by omega)
        have hover : FiemapExtent.Overlaps start length e = true := by
          simp only [FiemapExtent.Overlaps, Bool.and_eq_true, decide_eq_true_eq]
          omega
        rw [List.filter_cons_of_pos hover]
        refine ⟨after, ?_, ?_⟩
        · rw [List.cons_append, ← heq]
        · rw [List.map_cons, Extents.total_cons, ← Nat.add_assoc]
          exact hreach
      · rw [filter_overlaps_eq_nil hc (by omega)]
        exact ⟨e :: es, rfl, Or.inr (by omega)⟩

/-- **The answer is a stretch of the extents**: before it lie those that end before the range. -/
theorem filter_overlaps_split {start length offset : ℕ} {es : List FiemapExtent}
    (hc : ContiguousFrom offset es) (hpos : ∀ e ∈ es, 0 < e.feLength) (hoffset : offset ≤ start) :
    ∃ before after, es = before ++ es.filter (FiemapExtent.Overlaps start length) ++ after ∧
      ContiguousFrom (offset + Extents.total (before.map FiemapExtent.onDisk))
        (es.filter (FiemapExtent.Overlaps start length)) ∧
      offset + Extents.total (before.map FiemapExtent.onDisk) ≤ start ∧
      (after = [] ∨ start + length ≤ offset + Extents.total (before.map FiemapExtent.onDisk) +
        Extents.total ((es.filter (FiemapExtent.Overlaps start length)).map FiemapExtent.onDisk)) := by
  induction es generalizing offset with
  | nil => exact ⟨[], [], rfl, trivial, by simpa using hoffset, Or.inl rfl⟩
  | cons e es ih =>
      obtain ⟨hlog, htail⟩ := hc
      have hpos' : ∀ e' ∈ es, 0 < e'.feLength := fun e' he' => hpos e' (List.mem_cons_of_mem _ he')
      by_cases hend : offset + e.feLength ≤ start
      · -- the first extent ends before the range
        have hout : FiemapExtent.Overlaps start length e = false := by
          simp only [FiemapExtent.Overlaps, Bool.and_eq_false_iff, decide_eq_false_iff_not]
          omega
        obtain ⟨before, after, heq, hcont, hle, hreach⟩ := ih htail hpos' hend
        have htotal : offset + Extents.total ((e :: before).map FiemapExtent.onDisk) =
            offset + e.feLength + Extents.total (before.map FiemapExtent.onDisk) := by
          rw [List.map_cons, Extents.total_cons, Nat.add_assoc]
          rfl
        rw [List.filter_cons_of_neg (by rw [hout]; exact Bool.false_ne_true)]
        refine ⟨e :: before, after, ?_, ?_, ?_, ?_⟩
        · rw [List.cons_append, List.cons_append, ← heq]
        · rw [htotal]
          exact hcont
        · rw [htotal]
          exact hle
        · rw [htotal]
          exact hreach
      · obtain ⟨after, heq, hreach⟩ := filter_overlaps_prefix start length htail hpos' (by omega)
        by_cases hin : offset < start + length
        · have hover : FiemapExtent.Overlaps start length e = true := by
            simp only [FiemapExtent.Overlaps, Bool.and_eq_true, decide_eq_true_eq]
            omega
          rw [List.filter_cons_of_pos hover]
          refine ⟨[], after, ?_, ⟨by simpa using hlog, ?_⟩, by simpa using hoffset, ?_⟩
          · rw [List.nil_append, List.cons_append, ← heq]
          · rw [heq] at htail
            simpa using htail.append_left
          · rw [List.map_nil, Extents.total_nil, Nat.add_zero, List.map_cons, Extents.total_cons,
              ← Nat.add_assoc]
            exact hreach
        · have hc : ContiguousFrom offset (e :: es) := ⟨hlog, htail⟩
          rw [filter_overlaps_eq_nil hc (by omega)]
          refine ⟨[], e :: es, rfl, trivial, by simpa using hoffset, Or.inr ?_⟩
          rw [List.map_nil, Extents.total_nil]
          omega

namespace GeminiFile

variable (F : GeminiFile)

/-- The extents of the header are the ones FIEMAP answers with, and there are some. -/
theorem extents_eq : F.hdr.extents =
    F.raw.filter (FiemapExtent.Overlaps F.hdr.firstBlockBase F.hdr.virtualSpaceSize) ∧
      F.hdr.extents ≠ [] := by
  have hrefined := F.refined
  rw [hostRefineNvmeofst, readFiemap] at hrefined
  by_cases hnil : F.fsIocFiemap F.hdr.firstBlockBase F.hdr.virtualSpaceSize = []
  · rw [if_pos hnil] at hrefined
    cases hrefined
  · rw [if_neg hnil] at hrefined
    simp only at hrefined
    split at hrefined
    · cases hrefined
    · have hext := congrArg GeminiHdr.extents (Option.some.inj hrefined)
      simp only at hext
      refine ⟨by rw [← F.mirrors, hext], ?_⟩
      rw [← hext]
      exact hnil

/-- The extents of the header are a stretch of the extents of the file, and `start` is where in the
file that stretch begins. -/
theorem raw_split : ∃ before after, F.onDisk = before ++ F.hdr.onDisk ++ after ∧
    Extents.total before = F.start ∧ F.start ≤ F.hdr.firstBlockBase ∧
    F.hdr.firstBlockBase + F.hdr.virtualSpaceSize ≤ F.start + Extents.total F.hdr.onDisk := by
  obtain ⟨hext, hne⟩ := F.extents_eq
  obtain ⟨before, after, heq, hcont, hle, hreach⟩ :=
    filter_overlaps_split F.contiguous F.pos (Nat.zero_le F.hdr.firstBlockBase)
  rw [← hext] at heq hcont hreach
  have hstart : F.start = Extents.total (before.map FiemapExtent.onDisk) := by
    rw [start]
    cases hes : F.hdr.extents with
    | nil => exact absurd hes hne
    | cons e es =>
        rw [hes] at hcont
        simpa using hcont.1
  refine ⟨before.map FiemapExtent.onDisk, after.map FiemapExtent.onDisk, ?_, hstart.symm, ?_, ?_⟩
  · rw [onDisk, heq, List.map_append, List.map_append]
    rfl
  · rw [hstart]
    omega
  · rcases hreach with rfl | hreach
    · -- the stretch reaches to the end of the file
      have hcovers := F.covers
      rw [heq, List.map_append, List.map_append, List.map_nil, List.append_nil,
        Extents.total_append, ← hstart] at hcovers
      exact hcovers
    · rw [Nat.zero_add, ← hstart] at hreach
      exact hreach

/-- **A byte of the header's extents** is the byte that lies `start` further in the raw file. -/
theorem image_raw {x : ℕ} (hx : x < Extents.total F.hdr.onDisk) :
    Extents.image F.onDisk (F.start + x) = Extents.image F.hdr.onDisk x := by
  obtain ⟨before, after, heq, htotal, -, -⟩ := F.raw_split
  rw [heq, Extents.image_append, Extents.total_append, htotal, if_pos (by omega),
    Extents.image_append, htotal, if_neg (by omega), Nat.add_sub_cancel_left]

/-! ### Addresses -/

/-- The device loses as many bytes as the host adds: the stretch begins as far into the raw file, with
the tails of the extents that are not whole blocks, as the header is long, with the place of the address
in its block. -/
def Balanced (va : ℕ) : Prop :=
  va >>> F.hdr.blockBit < Extents.blocks F.hdr.blockBit F.hdr.onDisk ∧
    F.start + Extents.tails F.hdr.blockBit F.hdr.onDisk (va >>> F.hdr.blockBit) =
      F.hdr.firstBlockBase + va % 2 ^ F.hdr.blockBit

/-- **The device finds the byte the host means** exactly if the two balance. -/
theorem getNvmeofst_eq_hostOffset_iff {va : ℕ} (hva : va < F.hdr.virtualSpaceSize) :
    getNvmeofst F.hdr va = F.hostOffset va ↔ F.Balanced va := by
  have hhost : (F.hostOffset va).isSome = true := by
    rw [hostOffset, Extents.image_isSome_iff]
    have hcovers := F.covers
    rw [onDisk]
    omega
  have hsplit : va = (va >>> F.hdr.blockBit) * 2 ^ F.hdr.blockBit + va % 2 ^ F.hdr.blockBit := by
    rw [Nat.shiftRight_eq_div_pow, Nat.mul_comm, Nat.div_add_mod]
  rw [getNvmeofst_eq, Extents.blockImage_eq, Balanced]
  by_cases hblk : va >>> F.hdr.blockBit < Extents.blocks F.hdr.blockBit F.hdr.onDisk
  · have hlt := Extents.lt_total_of_lt_blocks hblk
    rw [if_pos hblk, ← F.image_raw hlt, hostOffset]
    constructor
    · intro heq
      obtain ⟨z, hz⟩ := Option.isSome_iff_exists.mp hhost
      have hsame := Extents.image_inj F.disjoint (heq.trans hz) hz
      exact ⟨hblk, by omega⟩
    · rintro ⟨-, hbal⟩
      congr 1
      omega
  · rw [if_neg hblk]
    constructor
    · intro heq
      rw [← heq] at hhost
      cases hhost
    · rintro ⟨hblk', -⟩
      exact absurd hblk' hblk

/-- The extents of the header are whole blocks, and begin right behind the header. -/
structure StartsBehindHeader : Prop where
  whole : ∀ e ∈ F.hdr.onDisk, 2 ^ F.hdr.blockBit ∣ e.length
  start : F.start = F.hdr.firstBlockBase

variable {F}

/-- The extents of the header map the space of the file, if they begin right behind the header. -/
theorem StartsBehindHeader.mapped (h : F.StartsBehindHeader) : F.hdr.Mapped := by
  obtain ⟨before, after, heq, -, -, hreach⟩ := F.raw_split
  have hsub : F.hdr.onDisk.Sublist F.onDisk := by
    rw [heq, List.append_assoc]
    exact (List.sublist_append_left _ _).trans (List.sublist_append_right _ _)
  refine ⟨?_, h.whole, F.disjoint.sublist hsub, ?_⟩
  · intro e he
    obtain ⟨e', he', rfl⟩ := List.mem_map.mp (hsub.subset he)
    exact F.pos e' he'
  · rw [h.start] at hreach
    omega

/-- Then host and device agree on every address at which a block begins. -/
theorem StartsBehindHeader.balanced (h : F.StartsBehindHeader) {va : ℕ}
    (hva : va < F.hdr.virtualSpaceSize) (hblock : 2 ^ F.hdr.blockBit ∣ va) : F.Balanced va := by
  have htotal := Nat.lt_of_lt_of_le hva h.mapped.covers
  rw [← Extents.blocks_of_dvd h.whole] at htotal
  refine ⟨?_, ?_⟩
  · rw [Nat.shiftRight_eq_div_pow, Nat.div_lt_iff_lt_mul (Nat.two_pow_pos _)]
    exact htotal
  · rw [Extents.tails_of_dvd h.whole, h.start, Nat.mod_eq_zero_of_dvd hblock]

/-- If the extents are whole blocks but begin before the end of the header, then the first address of
the device is a byte of the header. -/
theorem getNvmeofst_zero_header (hwhole : ∀ e ∈ F.hdr.onDisk, 2 ^ F.hdr.blockBit ∣ e.length)
    (hstart : F.start ≠ F.hdr.firstBlockBase) :
    F.start < F.hdr.firstBlockBase ∧ getNvmeofst F.hdr 0 = Extents.image F.onDisk F.start := by
  obtain ⟨before, after, heq, -, hle, hreach⟩ := F.raw_split
  have hpos : 0 < Extents.total F.hdr.onDisk := by omega
  have hblocks : 0 < Extents.blocks F.hdr.blockBit F.hdr.onDisk := by
    rw [← Extents.blocks_of_dvd hwhole] at hpos
    exact Nat.pos_of_mul_pos_right hpos
  refine ⟨by omega, ?_⟩
  rw [getNvmeofst_eq, Nat.zero_shiftRight, Extents.blockImage_eq, if_pos hblocks,
    Extents.tails_of_dvd hwhole, Nat.zero_mul, ← F.image_raw hpos, Nat.add_zero]

/-! ### Writing -/

/-- The file as the host reads it from a disk. -/
def rawFile (F : GeminiFile) (disk : ℕ → UInt8) : ByteFile where
  size := F.hdr.firstBlockBase + F.hdr.virtualSpaceSize
  byte x := ((Extents.image F.onDisk x).map disk).getD 0

end GeminiFile

/-- A write from a kernel: `write_out`, and what the thread has on its stack. -/
structure DeviceWrite where
  env : ThreadEnv
  prp1 : ℕ
  prp2 : ℕ
  fileOffset : ℕ
  nbytes : ℕ

/-- Memory and disks after the command of a write to a file on controller `controller`.  A failed assertion leaves
them alone. -/
def deviceWrite (file : NVMeFile) (lists : ℕ → List ℕ) (controller : ℕ) (s : Storage) (w : DeviceWrite) : Storage :=
  match file.nvmeXferCmd w.env.stack w.env.nvmNamespace w.env.cid w.fileOffset w.nbytes w.prp1 w.prp2 false with
  | none => s
  | some words => s.exec (words.decode.byteMoves lists controller file.hqpsBlockSizeLog)

/-- Memory and disks after a sequence of writes. -/
def deviceWrites (file : NVMeFile) (lists : ℕ → List ℕ) (controller : ℕ) (s : Storage) (ws : List DeviceWrite) :
    Storage :=
  ws.foldl (deviceWrite file lists controller) s

/-- The disk of a controller. -/
def Storage.disk (s : Storage) (controller y : ℕ) : UInt8 := s.disks (controller, y)

/-- The access is aligned, lies within the file, has between one and 65536 blocks, begins with a block of the file
that lies at a block of the disk, and is in one piece there. -/
structure DeviceWrite.Allowed (file : NVMeFile) (w : DeviceWrite) : Prop where
  offset : file.nvmePageSize ∣ w.fileOffset
  length : file.nvmePageSize ∣ w.nbytes
  inside : w.fileOffset + w.nbytes ≤ file.hdr.virtualSpaceSize
  pos : 0 < w.nbytes
  blocks : 2 ^ file.hqpsBlockSizeLog ∣ w.nbytes
  count : w.nbytes ≤ 2 ^ 16 * 2 ^ file.hqpsBlockSizeLog
  block : 2 ^ file.hdr.blockBit ∣ w.fileOffset
  lba : ∃ lba < 2 ^ 64, Extents.image file.hdr.onDisk w.fileOffset = some (lba * 2 ^ file.hqpsBlockSizeLog)
  joined : Extents.Joined file.hdr.onDisk w.fileOffset w.nbytes

/-- Such an access is covered by its command. -/
theorem DeviceWrite.Allowed.covers {file : NVMeFile} (hmap : file.hdr.Mapped) {w : DeviceWrite}
    (hw : w.Allowed file) : Covers file w.fileOffset w.nbytes := by
  obtain ⟨lba, hlba, himage⟩ := hw.lba
  exact covers_of_joined hmap hw.offset hw.length hw.inside hw.pos hw.blocks hw.count hw.block hlba himage hw.joined

/-- **What a write does to its disk.** -/
theorem deviceWrite_disk {file : NVMeFile} {w : DeviceWrite} {cmd : NvmeCmd}
    (hcmd : nvmeXfer file w.fileOffset w.nbytes = some cmd) (lists : ℕ → List ℕ) (controller : ℕ) (s : Storage) :
    ∃ address : ℕ → ℕ, ∀ y, (deviceWrite file lists controller s w).disk controller y =
      if cmd.startingLba % 2 ^ 64 * 2 ^ file.hqpsBlockSizeLog ≤ y ∧
          y < cmd.startingLba % 2 ^ 64 * 2 ^ file.hqpsBlockSizeLog +
            issuedBlocks cmd.nBlocks * 2 ^ file.hqpsBlockSizeLog then s.ram (address y)
      else s.disk controller y := by
  obtain ⟨words, hwords, hdecode⟩ := decode_nvmeXferCmd hcmd w.env.stack w.env.nvmNamespace w.env.cid w.prp1 w.prp2
    false
  have hopcode : words.decode.opcode = NVM_IO_WRITE := by
    rw [hdecode]
    rfl
  refine ⟨fun y => words.decode.byteAddress lists file.hqpsBlockSizeLog
    (y - words.decode.slba <<< file.hqpsBlockSizeLog), fun y => ?_⟩
  have hwrite := exec_write hopcode s lists controller file.hqpsBlockSizeLog y
  rw [Storage.disk, deviceWrite, hwords]
  dsimp only
  rw [hwrite, hdecode]
  dsimp only
  rw [Nat.shiftLeft_eq, Nat.shiftLeft_eq]
  rfl

namespace GeminiFile

variable {F : GeminiFile}

/-- **One write** leaves the header alone. -/
theorem StartsBehindHeader.deviceWrite (h : F.StartsBehindHeader) {file : NVMeFile} (hfile : file.hdr = F.hdr)
    (lists : ℕ → List ℕ) (controller : ℕ) (s : Storage) {w : DeviceWrite} (hw : w.Allowed file) {x : ℕ}
    (hx : x < F.hdr.firstBlockBase) :
    (F.rawFile ((GeminiFS.deviceWrite file lists controller s w).disk controller)).byte x =
      (F.rawFile (s.disk controller)).byte x := by
  have hmap : file.hdr.Mapped := by
    rw [hfile]
    exact h.mapped
  obtain ⟨cmd, hcmd, hn, hall⟩ := (covers_iff file w.fileOffset w.nbytes).1 (hw.covers hmap)
  obtain ⟨address, hdisk⟩ := deviceWrite_disk hcmd lists controller s
  simp only [rawFile]
  cases himage : Extents.image F.onDisk x with
  | none => rfl
  | some y =>
      -- a byte in reach of the command lies behind the header in the raw file
      rw [Option.map_some, Option.map_some, hdisk, hn]
      refine congrArg (fun byte => (some byte).getD 0) (if_neg ?_)
      rintro ⟨hlow, hhigh⟩
      have hbyte := hall (y - cmd.startingLba % 2 ^ 64 * 2 ^ file.hqpsBlockSizeLog) (by omega)
      rw [Nat.add_sub_cancel' hlow, hfile] at hbyte
      have hin : w.fileOffset + (y - cmd.startingLba % 2 ^ 64 * 2 ^ file.hqpsBlockSizeLog) <
          Extents.total F.hdr.onDisk := by
        rw [← Extents.image_isSome_iff, hbyte]
        rfl
      rw [← F.image_raw hin, h.start] at hbyte
      have hsame := Extents.image_inj F.disjoint himage hbyte
      omega

/-- **The header survives every sequence of writes.** -/
theorem StartsBehindHeader.deviceWrites (h : F.StartsBehindHeader) {file : NVMeFile} (hfile : file.hdr = F.hdr)
    (lists : ℕ → List ℕ) (controller : ℕ) (s : Storage) (ws : List DeviceWrite) (hws : ∀ w ∈ ws, w.Allowed file)
    {x : ℕ} (hx : x < F.hdr.firstBlockBase) :
    (F.rawFile ((GeminiFS.deviceWrites file lists controller s ws).disk controller)).byte x =
      (F.rawFile (s.disk controller)).byte x := by
  induction ws generalizing s with
  | nil => rfl
  | cons w ws ih =>
      have hrest := ih (GeminiFS.deviceWrite file lists controller s w)
        (fun w' hw' => hws w' (List.mem_cons_of_mem _ hw'))
      have hfirst := h.deviceWrite hfile lists controller s (hws w List.mem_cons_self) hx
      exact hrest.trans hfirst

end GeminiFile

/-! ### Opening the file again -/

/-- The fixed part of `geminiFS_hdr` as it lies in the file. -/
structure RawHdr where
  magicNum : UInt64
  firstBlockBase : UInt64
  virtualSpaceSize : UInt64
  fd : UInt32
  blockBit : UInt8
  extentCount : UInt8

def RawHdr.codec : Codec RawHdr :=
  Codec.ofFields
    (Codec.u64.pair <| Codec.u64.pair <| Codec.u64.pair <| Codec.u32.pair <| Codec.u8.pair <|
      Codec.u8.pair <| Codec.pad 2)
    (fun h => (h.magicNum, h.firstBlockBase, h.virtualSpaceSize, h.fd, h.blockBit, h.extentCount, ()))
    (fun t => ⟨t.1, t.2.1, t.2.2.1, t.2.2.2.1, t.2.2.2.2.1, t.2.2.2.2.2.1⟩)
    fun _ => rfl

/-- `gemini_fiemap_extent` as it lies in the file. -/
def extentCodec : Codec (UInt64 × UInt64 × UInt64 × UInt32 × Unit) :=
  Codec.u64.pair <| Codec.u64.pair <| Codec.u64.pair <| Codec.u32.pair <| Codec.pad 4

/-- `the_geminiFS_magic`, "geminifs". -/
def geminiFSMagic : UInt64 := 0x7366696e696d6567

/-- Extent `i` in the bytes of a header. -/
def extentOf (bytes : List UInt8) (i : ℕ) : FiemapExtent :=
  let t := extentCodec.decode ((bytes.drop (RawHdr.codec.size + i * extentCodec.size)).take
    extentCodec.size)
  ⟨t.1.toNat, t.2.1.toNat, t.2.2.1.toNat, t.2.2.2.1.toNat⟩

/-- `host_open_geminifs_file`, where `none` stands for a failed assertion or a null pointer.  The fixed
part is read first for the length of the header, then all of it. -/
def hostOpenGeminifsFile (raw : ByteFile) : Option GeminiHdr := do
  let tempHdr ← raw.get RawHdr.codec 0
  if tempHdr.magicNum ≠ geminiFSMagic then none
  else
    let bytes ← raw.read 0 tempHdr.firstBlockBase.toNat
    let hdr := RawHdr.codec.decode bytes
    if hdr.magicNum ≠ geminiFSMagic then none
    else some ⟨hdr.magicNum.toNat, hdr.firstBlockBase.toNat, hdr.virtualSpaceSize.toNat,
      hdr.blockBit.toNat, (List.range hdr.extentCount.toNat).map (extentOf bytes)⟩

/-- Opening a file looks at the header only. -/
theorem hostOpenGeminifsFile_congr {raw raw' : ByteFile} {base : ℕ} (hsize : raw'.size = raw.size)
    (hbyte : ∀ x < base, raw'.byte x = raw.byte x) (hbase : RawHdr.codec.size ≤ base)
    (hhdr : ∀ tempHdr, raw.get RawHdr.codec 0 = some tempHdr →
      tempHdr.firstBlockBase.toNat ≤ base) :
    hostOpenGeminifsFile raw' = hostOpenGeminifsFile raw := by
  have hread : ∀ n ≤ base, raw'.read 0 n = raw.read 0 n := by
    intro n hn
    apply ByteFile.read_congr hsize
    intro i hi
    exact hbyte (0 + i) (by omega)
  have hget : raw'.get RawHdr.codec 0 = raw.get RawHdr.codec 0 := by
    rw [ByteFile.get, ByteFile.get, hread _ hbase]
  rw [hostOpenGeminifsFile, hostOpenGeminifsFile, hget]
  cases htemp : raw.get RawHdr.codec 0 with
  | none => rfl
  | some tempHdr =>
      simp only [Option.bind_eq_bind, Option.bind_some]
      rw [hread _ (hhdr tempHdr htemp)]

namespace GeminiFile

/-- **When host and device agree.**  On an address, exactly if what the device loses balances what the
host adds.  If the extents of the header are whole blocks and begin right behind it, then no sequence of
device writes that their commands cover touches the header, and the file opens as before; if they begin
earlier, then the first address of the device is a byte of the header. -/
theorem host_device_agree (F : GeminiFile) :
    (∀ va < F.hdr.virtualSpaceSize,
      (getNvmeofst F.hdr va = F.hostOffset va ↔ F.Balanced va)) ∧
    (F.StartsBehindHeader →
      (∀ va < F.hdr.virtualSpaceSize, 2 ^ F.hdr.blockBit ∣ va →
        getNvmeofst F.hdr va = F.hostOffset va) ∧
      ∀ file : NVMeFile, file.hdr = F.hdr → ∀ lists controller s ws, (∀ w ∈ ws, DeviceWrite.Allowed file w) →
          (∀ x < F.hdr.firstBlockBase,
            (F.rawFile ((deviceWrites file lists controller s ws).disk controller)).byte x =
              (F.rawFile (s.disk controller)).byte x) ∧
          ((∀ tempHdr, (F.rawFile (s.disk controller)).get RawHdr.codec 0 = some tempHdr →
              tempHdr.firstBlockBase.toNat = F.hdr.firstBlockBase) →
            hostOpenGeminifsFile (F.rawFile ((deviceWrites file lists controller s ws).disk controller)) =
              hostOpenGeminifsFile (F.rawFile (s.disk controller)))) ∧
    ((∀ e ∈ F.hdr.onDisk, 2 ^ F.hdr.blockBit ∣ e.length) → F.start ≠ F.hdr.firstBlockBase →
      ∃ x < F.hdr.firstBlockBase, getNvmeofst F.hdr 0 = Extents.image F.onDisk x) := by
  refine ⟨fun va hva => F.getNvmeofst_eq_hostOffset_iff hva, ?_, ?_⟩
  · intro h
    refine ⟨?_, ?_⟩
    · intro va hva hblock
      exact (F.getNvmeofst_eq_hostOffset_iff hva).mpr (h.balanced hva hblock)
    · intro file hfile lists controller s ws hws
      have hsame : ∀ x < F.hdr.firstBlockBase,
          (F.rawFile ((deviceWrites file lists controller s ws).disk controller)).byte x =
            (F.rawFile (s.disk controller)).byte x :=
        fun x hx => h.deviceWrites hfile lists controller s ws hws hx
      refine ⟨hsame, ?_⟩
      intro hhdr
      refine hostOpenGeminifsFile_congr rfl hsame ?_ ?_
      · rw [F.base]
        decide
      · intro tempHdr htemp
        exact (hhdr tempHdr htemp).le
  · intro hwhole hstart
    obtain ⟨hlt, heq⟩ := getNvmeofst_zero_header hwhole hstart
    exact ⟨F.start, hlt, heq⟩

end GeminiFile

/-! ### Files of one block -/

/-- A file of one block on a file system whose blocks are not larger than the header, with the header
in an extent of its own. -/
def apartFile : GeminiFile where
  raw := [⟨0, 8192, 512, 0⟩, ⟨512, 1048576, 4096, 0⟩]
  fsIocFiemap start length :=
    [⟨0, 8192, 512, 0⟩, ⟨512, 1048576, 4096, 0⟩].filter (FiemapExtent.Overlaps start length)
  hdr := ⟨geminiFSMagic.toNat, 512, 4096, 12, [⟨512, 1048576, 4096, 0⟩]⟩
  mirrors _ _ := rfl
  refined := by decide
  contiguous := ⟨rfl, rfl, trivial⟩
  pos := by decide
  disjoint := by simp [FiemapExtent.onDisk, Extents.Disjoint]
  base := rfl
  covers := by decide

/-- There host and device agree on the block. -/
theorem apartFile_agree :
    apartFile.StartsBehindHeader ∧ getNvmeofst apartFile.hdr 0 = apartFile.hostOffset 0 := by
  have hbehind : apartFile.StartsBehindHeader := ⟨by decide, rfl⟩
  exact ⟨hbehind, (apartFile.host_device_agree.2.1 hbehind).1 0 (by decide) (Nat.dvd_zero _)⟩

/-- A file of one block of 4096 bytes.  The file system has given it two, since the header lies before
the block, and both are one extent. -/
def oneBlockFile : GeminiFile where
  raw := [⟨0, 1048576, 8192, 0⟩]
  fsIocFiemap start length := [⟨0, 1048576, 8192, 0⟩].filter (FiemapExtent.Overlaps start length)
  hdr := ⟨geminiFSMagic.toNat, 512, 4096, 12, [⟨0, 1048576, 8192, 0⟩]⟩
  mirrors _ _ := rfl
  refined := by decide
  contiguous := ⟨rfl, trivial⟩
  pos := by decide
  disjoint := by simp [FiemapExtent.onDisk, Extents.Disjoint]
  base := rfl
  covers := by decide

/-- The disk right after the file was created: the header, and zeroes. -/
def oneBlockDisk (y : ℕ) : UInt8 :=
  (RawHdr.codec.encode ⟨geminiFSMagic, 512, 4096, 0, 12, 1⟩ ++
    extentCodec.encode (0, 1048576, 8192, 0, ())).getD (y - 1048576) 0

/-- A write of the block of the file from a page of zeroes. -/
def zeroBlock : DeviceWrite := ⟨⟨fun _ => 0, 1, 0⟩, 0, 0, 0, 4096⟩

/-- The device writes the block of the file over the header, and the file cannot be opened any more. -/
theorem oneBlockFile_header_lost :
    getNvmeofst oneBlockFile.hdr 0 ≠ oneBlockFile.hostOffset 0 ∧
      hostOpenGeminifsFile (oneBlockFile.rawFile oneBlockDisk) = some oneBlockFile.hdr ∧
      hostOpenGeminifsFile (oneBlockFile.rawFile ((deviceWrites ⟨oneBlockFile.hdr, 4096, 9⟩ (fun _ => []) 0
        ⟨fun _ => 0, fun p => oneBlockDisk p.2⟩ [zeroBlock]).disk 0)) = none := by
  refine ⟨by decide, by decide +kernel, ?_⟩
  have hcmd : nvmeXfer ⟨oneBlockFile.hdr, 4096, 9⟩ zeroBlock.fileOffset zeroBlock.nbytes =
      some ⟨1048576, 2048, 8⟩ := by decide
  obtain ⟨address, hdisk⟩ := deviceWrite_disk hcmd (fun _ => []) 0 ⟨fun _ => 0, fun p => oneBlockDisk p.2⟩
  have hwritten : (deviceWrites ⟨oneBlockFile.hdr, 4096, 9⟩ (fun _ => []) 0
      ⟨fun _ => 0, fun p => oneBlockDisk p.2⟩ [zeroBlock]).disk 0 =
        fun y => if 1048576 ≤ y ∧ y < 1048576 + 4096 then 0 else oneBlockDisk y := by
    funext y
    have hstart : 2048 % 2 ^ 64 * 2 ^ 9 = 1048576 := by decide
    have hblocks : issuedBlocks 8 * 2 ^ 9 = 4096 := by decide
    have hy := hdisk y
    simp only [hstart, hblocks] at hy
    rw [deviceWrites, List.foldl_cons, List.foldl_nil, hy, Storage.disk]
  rw [hwritten]
  decide +kernel

end GeminiFS
end InfiniKV
