/-
**The file manager of an NVMe controller.**

`FileManager` numbers the files of a controller by the slots of its log.  A file is created in the
smallest free slot; its record is written at once, and header and bitmap when enough changes are
pending.  The constructor starts a new log unless the old one looks sound, and drops the slots whose
records are not their own.

Main definitions:

* `InfiniKV.GeminiFS.NVMeFileDesc` — a record of the log;
* `InfiniKV.GeminiFS.FileManager` — the manager, with the content of its log file;
* `InfiniKV.GeminiFS.FileManager.construct`, `createFile`, `createFileAuto`, `deleteFile`,
  `forcePersist` — its operations.

Main results:

* `InfiniKV.GeminiFS.FileManager.loadSlots_bits`, `loadSlots_lookup`, `loadSlots_pending` — **what a
  manager finds in a log**.
-/

import InfiniKV.SlotLog

set_option relaxedAutoImplicit false
set_option autoImplicit false

namespace InfiniKV
namespace GeminiFS

/-- `NVMeFileDesc`. -/
structure NVMeFileDesc where
  slotIndex : UInt32
  padding : Vector UInt8 20
  filename : Vector UInt8 16
  size : UInt64
  createTime : UInt64
  modifyTime : UInt64
  deriving DecidableEq

/-- The record as it lies in the log. -/
def NVMeFileDesc.codec : Codec NVMeFileDesc :=
  Codec.ofFields
    (Codec.u32.pair <| (Codec.bytes 20).pair <| (Codec.bytes 16).pair <| Codec.u64.pair <|
      Codec.u64.pair Codec.u64)
    (fun d => (d.slotIndex, d.padding, d.filename, d.size, d.createTime, d.modifyTime))
    (fun t => ⟨t.1, t.2.1, t.2.2.1, t.2.2.2.1, t.2.2.2.2.1, t.2.2.2.2.2⟩)
    fun _ => rfl

@[simp] theorem NVMeFileDesc.size_codec : NVMeFileDesc.codec.size = 64 := rfl

/-- `FileManager`, with the content of its log file. -/
structure FileManager where
  persistenceThreshold : ℕ
  pendingWritesCount : ℕ
  header : LogHeader
  dirtyBitmap : ℕ → Bool
  files : AList fun _ : ℕ => NVMeFileDesc
  log : ByteFile

namespace FileManager

/-- `MAGIC_NUMBER`, "NVMEFILE". -/
def MAGIC_NUMBER : UInt64 := 0x4E564D4546494C45

/-- The size of a complete log. -/
def expectedSize : ℕ :=
  LogHeader.codec.size + BITMAP_SIZE_BYTES + MAX_RECORDS * NVMeFileDesc.codec.size

theorem expectedSize_eq : expectedSize = 134480400 := rfl

/-! ### Opening a log -/

/-- The checks the constructor makes of an existing file before it starts a new log instead. -/
def needInitialize : Option ByteFile → Bool
  | none => true
  | some file =>
      if file.size = 0 then true
      else if file.size < LogHeader.codec.size then true
      else match file.get LogHeader.codec 0 with
        | none => true
        | some tempHeader =>
            if tempHeader.magicNum ≠ MAGIC_NUMBER then true
            else if tempHeader.recordSize.toNat ≠ NVMeFileDesc.codec.size then true
            else if tempHeader.headerSize.toNat ≠ LogHeader.codec.size then true
            else if tempHeader.activeRecordCount.toNat > MAX_RECORDS then true
            else decide (file.size ≠ expectedSize)

/-- `initializeLogFile`: the header, an empty bitmap and empty records. -/
def initializeLogFile : ByteFile :=
  let header := LogHeader.initial MAGIC_NUMBER NVMeFileDesc.codec.size
  ((ByteFile.empty.put LogHeader.codec 0 header).write LogHeader.codec.size
    (List.replicate BITMAP_SIZE_BYTES 0)).write (LogHeader.codec.size + BITMAP_SIZE_BYTES)
      (List.replicate (MAX_RECORDS * NVMeFileDesc.codec.size) 0)

/-- One pass of the loop of `loadFromFile` over the slots.  A slot whose record cannot be read or is
of another slot is given up, and counts as a pending write. -/
def loadSlot (m : FileManager) (i : ℕ) : FileManager :=
  let giveUp : FileManager := { m with
    dirtyBitmap := Function.update m.dirtyBitmap i false
    pendingWritesCount := m.pendingWritesCount + 1 }
  if m.dirtyBitmap i then
    match recordAt NVMeFileDesc.codec m.log m.header i with
    | none => giveUp
    | some desc =>
        if desc.slotIndex.toNat ≠ i then giveUp
        else { m with files := m.files.insert desc.slotIndex.toNat desc }
  else m

/-- The loop over the first `n` slots. -/
def loadSlots (m : FileManager) (n : ℕ) : FileManager := (List.range n).foldl loadSlot m

/-- The header with the number of files. -/
def countedHeader (m : FileManager) : LogHeader :=
  { m.header with activeRecordCount := UInt64.ofNat m.files.entries.length }

/-- The correction of the count in the header. -/
def correctCount (m : FileManager) : FileManager :=
  if m.files.entries.length ≠ m.header.activeRecordCount.toNat then { m with
    header := m.countedHeader
    pendingWritesCount := m.pendingWritesCount + 1 }
  else m

/-- A manager before it has looked at the slots of its log. -/
def opened (log : ByteFile) (header : LogHeader) (dirtyBitmap : ℕ → Bool)
    (persistenceThreshold : ℕ) : FileManager :=
  ⟨persistenceThreshold, 0, header, dirtyBitmap, ∅, log⟩

/-- `loadFromFile`: `none` stands for the exceptions about a header or a bitmap that cannot be read. -/
def loadFromFile (log : ByteFile) (persistenceThreshold : ℕ) : Option FileManager := do
  let header ← log.get LogHeader.codec 0
  if header.magicNum ≠ MAGIC_NUMBER ∨ header.recordSize.toNat ≠ NVMeFileDesc.codec.size then none
  else
    let dirtyBitmap ← bitmapBits log header
    return correctCount (loadSlots (opened log header dirtyBitmap persistenceThreshold) MAX_RECORDS)

/-- The constructor, on the content of the log file if there is one. -/
def construct (content : Option ByteFile) (persistenceThreshold : ℕ) : Option FileManager :=
  let log := if needInitialize content then initializeLogFile else content.getD ByteFile.empty
  loadFromFile log persistenceThreshold

/-! ### Persisting -/

variable (m : FileManager)

/-- `persistBitmap`. -/
def persistBitmap : FileManager :=
  { m with
    header := m.countedHeader
    log := persistLog m.log m.countedHeader m.dirtyBitmap
    pendingWritesCount := 0 }

/-- `forcePersist`. -/
def forcePersist : FileManager :=
  if 0 < m.pendingWritesCount ∨ m.persistenceThreshold = 0 then m.persistBitmap else m

/-- The check every change ends with. -/
def countWrite : FileManager :=
  let m' : FileManager := { m with pendingWritesCount := m.pendingWritesCount + 1 }
  if m'.persistenceThreshold = 0 ∨
      0 < m'.persistenceThreshold ∧ m'.pendingWritesCount ≥ m'.persistenceThreshold then
    m'.persistBitmap
  else m'

/-- The destructor, as far as the log is concerned. -/
def destroy : FileManager := m.forcePersist

/-! ### Creating and deleting files -/

/-- `findNextFreeSlot`, where `none` stands for `-1`. -/
def findNextFreeSlot : Option ℕ := firstFree MAX_RECORDS m.dirtyBitmap

/-- `strncpy` into a name field of zeros: up to the first zero byte, and at most 15 bytes. -/
def strncpy (filename : List UInt8) : Vector UInt8 16 :=
  Vector.ofFn fun i => ((filename.takeWhile (· ≠ 0)).take 15).getD i 0

/-- The record of a new file. -/
def newDesc (slot : ℕ) (filename : List UInt8) (fileSize now : UInt64) : NVMeFileDesc :=
  ⟨UInt32.ofNat slot, Vector.replicate 20 0, strncpy filename, fileSize, now, now⟩

/-- Write the record of a new file and take its slot. -/
def takeSlot (slot : ℕ) (desc : NVMeFileDesc) : FileManager :=
  countWrite { m with
    log := writeRecordToSlot NVMeFileDesc.codec m.log m.header desc slot
    dirtyBitmap := Function.update m.dirtyBitmap slot true
    files := m.files.insert slot desc }

/-- `createFile` with a name.  Warnings about names that are not slot numbers are left out. -/
def createFile (filename : List UInt8) (fileSize now : UInt64) : Option NVMeFileDesc × FileManager :=
  if filename.length ≥ 16 then (none, m)
  else match m.findNextFreeSlot with
    | none => (none, m)
    | some slot =>
        if slot ∈ m.files then (none, m)
        else
          let desc := newDesc slot filename fileSize now
          (some desc, m.takeSlot slot desc)

/-- `generateFilenameFromId`. -/
def generateFilenameFromId (fileId : ℕ) : List UInt8 :=
  fileId.repr.toList.map fun ch => UInt8.ofNat ch.toNat

/-- `createFile` without a name. -/
def createFileAuto (fileSize now : UInt64) : Option NVMeFileDesc × FileManager :=
  match m.findNextFreeSlot with
  | none => (none, m)
  | some slot =>
      if (generateFilenameFromId slot).length ≥ 16 then (none, m)
      else
        let desc := newDesc slot (generateFilenameFromId slot) fileSize now
        (some desc, m.takeSlot slot desc)

/-- `deleteFile`.  The record stays behind. -/
def deleteFile (fileId : ℕ) : Bool × FileManager :=
  match m.files.lookup fileId with
  | none => (false, m)
  | some desc =>
      (true, countWrite { m with
        dirtyBitmap := Function.update m.dirtyBitmap desc.slotIndex.toNat false
        files := m.files.erase fileId })

/-! ### What a manager finds in a log -/

/-- The record of a slot, if it is its own. -/
def ownRecord (log : ByteFile) (header : LogHeader) (i : ℕ) : Option NVMeFileDesc :=
  (recordAt NVMeFileDesc.codec log header i).filter fun desc => desc.slotIndex.toNat = i

theorem ownRecord_eq_some {log : ByteFile} {header : LogHeader} {i : ℕ} {desc : NVMeFileDesc} :
    ownRecord log header i = some desc ↔
      recordAt NVMeFileDesc.codec log header i = some desc ∧ desc.slotIndex.toNat = i := by
  rw [ownRecord, Option.filter_eq_some_iff]
  simp

/-- A pass over a marked slot keeps it if the record is its own, and gives it up otherwise. -/
theorem loadSlot_eq (i : ℕ) :
    loadSlot m i =
      if m.dirtyBitmap i then
        match ownRecord m.log m.header i with
        | some desc => { m with files := m.files.insert i desc }
        | none => { m with
            dirtyBitmap := Function.update m.dirtyBitmap i false
            pendingWritesCount := m.pendingWritesCount + 1 }
      else m := by
  simp only [loadSlot, ownRecord]
  split_ifs with hbit
  · cases hrec : recordAt NVMeFileDesc.codec m.log m.header i with
    | none => rfl
    | some desc =>
        by_cases hown : desc.slotIndex.toNat = i
        · simp [Option.filter, hown]
        · simp [Option.filter, hown]
  · rfl

theorem loadSlots_succ (n : ℕ) : loadSlots m (n + 1) = loadSlot (loadSlots m n) n := by
  rw [loadSlots, loadSlots, List.range_succ, List.foldl_append]
  rfl

/-- Loading touches neither the log nor the header nor the threshold. -/
theorem loadSlots_frame (n : ℕ) :
    (loadSlots m n).log = m.log ∧ (loadSlots m n).header = m.header ∧
      (loadSlots m n).persistenceThreshold = m.persistenceThreshold := by
  induction n with
  | zero => exact ⟨rfl, rfl, rfl⟩
  | succ n ih =>
      rw [loadSlots_succ, loadSlot_eq]
      split_ifs
      · cases ownRecord (loadSlots m n).log (loadSlots m n).header n with
        | none => exact ih
        | some desc => exact ih
      · exact ih

/-- **The slots that stay marked** are those whose records are their own; slots still to come are as
they were. -/
theorem loadSlots_bits (n i : ℕ) :
    (loadSlots m n).dirtyBitmap i =
      (m.dirtyBitmap i && (decide (n ≤ i) || (ownRecord m.log m.header i).isSome)) := by
  induction n with
  | zero => simp [loadSlots]
  | succ n ih =>
      obtain ⟨hlog, hheader, -⟩ := loadSlots_frame m n
      rw [loadSlots_succ, loadSlot_eq, hlog, hheader]
      rcases eq_or_ne i n with rfl | hne
      · have hbit : (loadSlots m i).dirtyBitmap i = m.dirtyBitmap i := by simp [ih]
        cases hrec : ownRecord m.log m.header i with
        | none => cases hm : m.dirtyBitmap i <;> simp [hbit, hm]
        | some desc => cases hm : m.dirtyBitmap i <;> simp [hbit, hm]
      · have hle : decide (n + 1 ≤ i) = decide (n ≤ i) := by
          rw [decide_eq_decide]
          omega
        rw [hle, ← ih]
        split_ifs with hbit
        · cases ownRecord m.log m.header n with
          | none => exact Function.update_of_ne hne _ _
          | some desc => rfl
        · rfl

/-- **The files that are found** are the records of the marked slots that are their own. -/
theorem loadSlots_lookup (hempty : m.files = ∅) (n i : ℕ) :
    (loadSlots m n).files.lookup i =
      if i < n ∧ m.dirtyBitmap i = true then ownRecord m.log m.header i else none := by
  induction n with
  | zero => simp [loadSlots, hempty]
  | succ n ih =>
      obtain ⟨hlog, hheader, -⟩ := loadSlots_frame m n
      have hbit : (loadSlots m n).dirtyBitmap n = m.dirtyBitmap n := by simp [loadSlots_bits]
      rw [loadSlots_succ, loadSlot_eq, hlog, hheader, hbit]
      rcases eq_or_ne i n with rfl | hne
      · have hnone : (loadSlots m i).files.lookup i = none := by simp [ih]
        cases hrec : ownRecord m.log m.header i with
        | none => cases hm : m.dirtyBitmap i <;> simp [hnone]
        | some desc => cases hm : m.dirtyBitmap i <;> simp [hnone]
      · have hlt : i < n + 1 ↔ i < n := by omega
        simp only [hlt]
        rw [← ih]
        split_ifs with hm
        · cases ownRecord m.log m.header n with
          | none => rfl
          | some desc => exact AList.lookup_insert_ne hne
        · rfl

/-- **A slot that is given up counts as a pending write**: with none pending, all marked slots had
records of their own. -/
theorem loadSlots_pending (n : ℕ) (hzero : (loadSlots m n).pendingWritesCount = 0) :
    ∀ i < n, m.dirtyBitmap i = true → (ownRecord m.log m.header i).isSome = true := by
  induction n with
  | zero =>
      intro i hi
      omega
  | succ n ih =>
      obtain ⟨hlog, hheader, -⟩ := loadSlots_frame m n
      have hbit : (loadSlots m n).dirtyBitmap n = m.dirtyBitmap n := by simp [loadSlots_bits]
      rw [loadSlots_succ, loadSlot_eq, hlog, hheader, hbit] at hzero
      intro i hi hm
      rcases eq_or_ne i n with rfl | hne
      · cases hrec : ownRecord m.log m.header i with
        | none => simp [hm, hrec] at hzero
        | some desc => rfl
      · apply ih _ i (by omega) hm
        split_ifs at hzero with hmn
        · cases hrec : ownRecord m.log m.header n with
          | none => simp [hrec] at hzero
          | some desc => simpa [hrec] using hzero
        · exact hzero

end FileManager
end GeminiFS
end InfiniKV
