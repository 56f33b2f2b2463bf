/-
**The log of an NVMe file manager never loses a file.**

A manager that starts on a log it re-initialises, or on one that some manager has written before, keeps
slots and files in step over every sequence of operations, whatever the persistence threshold.  The
bitmap in the log may be behind the one in memory, but only while a write is pending; so destroying the
manager leaves a log in which the next manager finds the same files.

Main definitions:

* `InfiniKV.GeminiFS.FileManager.Op` — an operation, `run` a sequence of them;
* `InfiniKV.GeminiFS.FileManager.Written` — a log that some manager has written;
* `InfiniKV.GeminiFS.FileManager.Core`, `Inv` — what holds of a manager while it changes, and
  between two operations.

Main results:

* `InfiniKV.GeminiFS.FileManager.inv_run` — **the invariant holds along every run**;
* `InfiniKV.GeminiFS.FileManager.reload_destroy` — a log is read back as it was left;
* `InfiniKV.GeminiFS.FileManager.log_keeps_files` — the two together, for every log a manager can
  meet.
-/

import InfiniKV.NvmeFiles
import Mathlib.Data.Nat.Digits.Lemmas
import Mathlib.Order.Bounds.Defs

set_option relaxedAutoImplicit false
set_option autoImplicit false

namespace InfiniKV
namespace GeminiFS
namespace FileManager

/-! ### Runs -/

/-- An operation on the manager.  The time is what the clock shows when a file is created. -/
inductive Op where
  | createFile (filename : List UInt8) (fileSize now : UInt64)
  | createFileAuto (fileSize now : UInt64)
  | deleteFile (fileId : ℕ)
  | forcePersist

/-- The manager after an operation. -/
def apply (m : FileManager) : Op → FileManager
  | .createFile filename fileSize now => (m.createFile filename fileSize now).2
  | .createFileAuto fileSize now => (m.createFileAuto fileSize now).2
  | .deleteFile fileId => (m.deleteFile fileId).2
  | .forcePersist => m.forcePersist

/-- The manager after a sequence of operations. -/
def run (m : FileManager) (ops : List Op) : FileManager := ops.foldl apply m

/-- A log that some manager has written: at any moment of a run that began on a log it re-initialised,
or on a log written before. -/
inductive Written : ByteFile → Prop where
  | fresh {content : Option ByteFile} {threshold : ℕ} {m : FileManager} (ops : List Op)
      (hneed : needInitialize content = true) (hm : construct content threshold = some m) :
      Written (m.run ops).log
  | again {log : ByteFile} {threshold : ℕ} {m : FileManager} (ops : List Op)
      (hlog : Written log) (hm : construct (some log) threshold = some m) :
      Written (m.run ops).log

/-! ### The invariant -/

/-- A log that is complete and laid out well, whatever its bitmap and its records say. -/
structure LogSound (log : ByteFile) : Prop where
  size : log.size = expectedSize
  header : ∃ h, log.get LogHeader.codec 0 = some h ∧ h.Laid MAGIC_NUMBER 64 ∧
    h.activeRecordCount.toNat ≤ MAX_RECORDS

/-- Slots, files and records agree. -/
structure Core (m : FileManager) : Prop where
  laid : m.header.Laid MAGIC_NUMBER 64
  log : LogSound m.log
  mem_iff : ∀ i, m.dirtyBitmap i = true ↔ i ∈ m.files
  lt : ∀ i ∈ m.files, i < MAX_RECORDS
  own : ∀ i desc, m.files.lookup i = some desc → ownRecord m.log m.header i = some desc

/-- With no write pending, the log has the bitmap of the manager. -/
structure Inv (m : FileManager) : Prop extends Core m where
  clean : m.pendingWritesCount = 0 → bitmapBits m.log m.header = some m.dirtyBitmap

variable {m : FileManager}

theorem LogSound.laid_codec {h : LogHeader} (hl : h.Laid MAGIC_NUMBER 64) :
    h.Laid MAGIC_NUMBER NVMeFileDesc.codec.size := hl

/-- The slots in use are at most all slots. -/
theorem Core.length_le (hm : Core m) : m.files.entries.length ≤ MAX_RECORDS := by
  have hsub : m.files.keys ⊆ List.range MAX_RECORDS := by
    intro i hi
    exact List.mem_range.mpr (hm.lt i hi)
  have hle := (m.files.keys_nodup.subperm hsub).length_le
  rw [List.length_range] at hle
  simpa [AList.keys, List.keys] using hle

/-- A file that is found has a slot. -/
theorem Core.lt_of_lookup (hm : Core m) {i : ℕ} {desc : NVMeFileDesc}
    (h : m.files.lookup i = some desc) : i < MAX_RECORDS := by
  apply hm.lt
  rw [← AList.lookup_isSome, h]
  rfl

/-! ### Persisting -/

theorem Core.persistBitmap (hm : Core m) : Inv m.persistBitmap := by
  have hlaid : m.countedHeader.Laid MAGIC_NUMBER 64 := hm.laid.setCount _
  have hcount : (UInt64.ofNat m.files.entries.length).toNat ≤ MAX_RECORDS := by
    rw [UInt64.toNat_ofNat']
    exact (Nat.mod_le _ _).trans hm.length_le
  constructor
  · constructor
    · exact hlaid
    · constructor
      · -- header and bitmap are written over the old ones
        have hsize := hm.log.size
        simp only [FileManager.persistBitmap, persistLog]
        rw [ByteFile.size_write_of_le, ByteFile.size_put_of_le]
        · exact hsize
        · rw [hsize, expectedSize_eq, LogHeader.size_codec]
          omega
        · rw [ByteFile.size_put_of_le, hsize, length_packBits, hlaid.bitmapOffset, expectedSize_eq,
            LogHeader.size_codec, BITMAP_SIZE_BYTES_eq]
          · omega
          · rw [hsize, expectedSize_eq, LogHeader.size_codec]
            omega
      · exact ⟨_, get_persistLog (LogSound.laid_codec hlaid) _, hlaid, hcount⟩
    · exact hm.mem_iff
    · exact hm.lt
    · intro i desc hdesc
      obtain ⟨hrec, hown⟩ := ownRecord_eq_some.mp (hm.own i desc hdesc)
      refine ownRecord_eq_some.mpr ⟨?_, hown⟩
      have hi := hm.lt_of_lookup hdesc
      exact recordAt_persistLog (LogSound.laid_codec hm.laid) (LogSound.laid_codec hlaid) le_rfl hi _
        hrec
  · intro _
    exact bitmapBits_persistLog rfl fun i hi => hm.lt i ((hm.mem_iff i).mp hi)

/-- Every change ends in a state with the invariant: it is persisted, or it is pending. -/
theorem Core.countWrite (hm : Core m) : Inv m.countWrite := by
  have hcore : Core { m with pendingWritesCount := m.pendingWritesCount + 1 } :=
    ⟨hm.laid, hm.log, hm.mem_iff, hm.lt, hm.own⟩
  simp only [FileManager.countWrite]
  split_ifs
  · exact hcore.persistBitmap
  · refine ⟨hcore, ?_⟩
    intro hzero
    exact absurd hzero (Nat.succ_ne_zero _)

theorem Inv.forcePersist (hm : Inv m) : Inv m.forcePersist := by
  rw [FileManager.forcePersist]
  split_ifs
  · exact hm.toCore.persistBitmap
  · exact hm

/-- After the last write-out the log has the bitmap of the manager, whether or not it wrote. -/
theorem Inv.bitmapBits_destroy (hm : Inv m) :
    bitmapBits m.destroy.log m.destroy.header = some m.dirtyBitmap ∧
      m.destroy.dirtyBitmap = m.dirtyBitmap ∧ m.destroy.files = m.files := by
  rw [destroy, FileManager.forcePersist]
  split_ifs with hpending
  · exact ⟨hm.toCore.persistBitmap.clean rfl, rfl, rfl⟩
  · exact ⟨hm.clean (by omega), rfl, rfl⟩

/-! ### Creating and deleting -/

theorem toNat_slotIndex {slot : ℕ} (hslot : slot < MAX_RECORDS) (filename : List UInt8)
    (fileSize now : UInt64) : (newDesc slot filename fileSize now).slotIndex.toNat = slot := by
  rw [newDesc, UInt32.toNat_ofNat', Nat.mod_eq_of_lt]
  rw [MAX_RECORDS_eq] at hslot
  omega

/-- A slot that is taken gets the record of its file. -/
theorem Core.takeSlot (hm : Core m) {slot : ℕ} (hslot : slot < MAX_RECORDS) {desc : NVMeFileDesc}
    (hdesc : desc.slotIndex.toNat = slot) : Inv (m.takeSlot slot desc) := by
  have hlaid := LogSound.laid_codec hm.laid
  apply Core.countWrite
  constructor
  · exact hm.laid
  · constructor
    · have hend : m.header.recordOffset slot + NVMeFileDesc.codec.size ≤ m.log.size := by
        have hmul := Nat.mul_le_mul_right 64 (Nat.succ_le_of_lt hslot)
        rw [hlaid.recordOffset_eq le_rfl hslot, hm.log.size, expectedSize_eq,
          NVMeFileDesc.size_codec, LogHeader.size_codec, BITMAP_SIZE_BYTES_eq]
        rw [MAX_RECORDS_eq] at hmul
        omega
      rw [writeRecordToSlot, ByteFile.size_put_of_le _ _ hend]
      exact hm.log.size
    · obtain ⟨h, hget, hrest⟩ := hm.log.header
      exact ⟨h, get_writeRecordToSlot hlaid le_rfl hslot desc hget, hrest⟩
  · intro i
    rcases eq_or_ne i slot with rfl | hne
    · simp
    · simp [hne, hm.mem_iff i]
  · intro i hi
    rcases (AList.mem_insert _).mp hi with rfl | hi
    · exact hslot
    · exact hm.lt i hi
  · intro i d hd
    rcases eq_or_ne i slot with rfl | hne
    · rw [AList.lookup_insert] at hd
      cases hd
      exact ownRecord_eq_some.mpr ⟨recordAt_writeRecordToSlot_self (by decide) _ _, hdesc⟩
    · rw [AList.lookup_insert_ne hne] at hd
      obtain ⟨hrec, hown⟩ := ownRecord_eq_some.mp (hm.own i d hd)
      have hi := hm.lt_of_lookup hd
      exact ownRecord_eq_some.mpr
        ⟨recordAt_writeRecordToSlot hlaid le_rfl hi hslot hne desc hrec, hown⟩

theorem Inv.deleteFile (hm : Inv m) (fileId : ℕ) : Inv (m.deleteFile fileId).2 := by
  rw [FileManager.deleteFile]
  cases hlook : m.files.lookup fileId with
  | none => exact hm
  | some desc =>
      have hslot : desc.slotIndex.toNat = fileId := (ownRecord_eq_some.mp (hm.own _ _ hlook)).2
      apply Core.countWrite
      constructor
      · exact hm.laid
      · exact hm.log
      · intro i
        rcases eq_or_ne i fileId with rfl | hne
        · simp [hslot]
        · simp [hslot, hne, hm.mem_iff i]
      · intro i hi
        exact hm.lt i (AList.mem_erase.mp hi).2
      · intro i d hd
        rcases eq_or_ne i fileId with rfl | hne
        · simp at hd
        · rw [AList.lookup_erase_ne hne] at hd
          exact hm.own i d hd

/-- A slot number is at most ten digits long. -/
theorem length_generateFilenameFromId {slot : ℕ} (hslot : slot < MAX_RECORDS) :
    (generateFilenameFromId slot).length < 16 := by
  have hpow : slot < 10 ^ 10 := by
    rw [MAX_RECORDS_eq] at hslot
    omega
  have hlen := Nat.toDigitsCore_length 10 (slot + 1) slot 10 (by decide) hpow
  rw [generateFilenameFromId, List.length_map]
  simp only [Nat.repr, Nat.toDigits, String.toList_ofList]
  omega

/-- The slot that is found is the smallest free one. -/
theorem Core.isLeast_of_findNextFreeSlot (hm : Core m) {slot : ℕ}
    (hslot : m.findNextFreeSlot = some slot) :
    slot < MAX_RECORDS ∧ IsLeast {i | i < MAX_RECORDS ∧ i ∉ m.files} slot ∧ slot ∉ m.files := by
  obtain ⟨hlt, hfree, hbelow⟩ := firstFree_eq_some.mp hslot
  have hnot : slot ∉ m.files := by
    rw [← hm.mem_iff, hfree]
    simp
  refine ⟨hlt, ⟨⟨hlt, hnot⟩, ?_⟩, hnot⟩
  rintro j ⟨-, hj⟩
  by_contra hlt'
  exact hj ((hm.mem_iff j).mp (hbelow j (by omega)))

/-- **What creating a file with a name does**: it fails if the name is too long or all slots are taken,
and takes the smallest free slot otherwise. -/
theorem Core.createFile (hm : Core m) (filename : List UInt8) (fileSize now : UInt64) :
    ((16 ≤ filename.length ∨ ∀ i < MAX_RECORDS, i ∈ m.files) ∧
      m.createFile filename fileSize now = (none, m)) ∨
    ∃ slot, filename.length < 16 ∧ IsLeast {i | i < MAX_RECORDS ∧ i ∉ m.files} slot ∧
      m.createFile filename fileSize now =
        (some (newDesc slot filename fileSize now),
          m.takeSlot slot (newDesc slot filename fileSize now)) := by
  by_cases hname : filename.length ≥ 16
  · left
    exact ⟨Or.inl hname, by rw [FileManager.createFile, if_pos hname]⟩
  · cases hslot : m.findNextFreeSlot with
    | none =>
        left
        refine ⟨Or.inr ?_, by rw [FileManager.createFile, if_neg hname, hslot]⟩
        intro i hi
        exact (hm.mem_iff i).mp (firstFree_eq_none.mp hslot i hi)
    | some slot =>
        obtain ⟨hlt, hleast, hfree⟩ := hm.isLeast_of_findNextFreeSlot hslot
        right
        refine ⟨slot, by omega, hleast, ?_⟩
        rw [FileManager.createFile, if_neg hname, hslot]
        exact if_neg hfree

/-- **What creating a file without a name does.** -/
theorem Core.createFileAuto (hm : Core m) (fileSize now : UInt64) :
    ((∀ i < MAX_RECORDS, i ∈ m.files) ∧ m.createFileAuto fileSize now = (none, m)) ∨
    ∃ slot, IsLeast {i | i < MAX_RECORDS ∧ i ∉ m.files} slot ∧
      m.createFileAuto fileSize now =
        (some (newDesc slot (generateFilenameFromId slot) fileSize now),
          m.takeSlot slot (newDesc slot (generateFilenameFromId slot) fileSize now)) := by
  cases hslot : m.findNextFreeSlot with
  | none =>
      left
      refine ⟨?_, by rw [FileManager.createFileAuto, hslot]⟩
      intro i hi
      exact (hm.mem_iff i).mp (firstFree_eq_none.mp hslot i hi)
  | some slot =>
      obtain ⟨hlt, hleast, hfree⟩ := hm.isLeast_of_findNextFreeSlot hslot
      right
      refine ⟨slot, hleast, ?_⟩
      rw [FileManager.createFileAuto, hslot]
      exact if_neg (by have := length_generateFilenameFromId hlt; omega)

/-- **One operation** keeps the invariant. -/
theorem Inv.apply (hm : Inv m) (op : Op) : Inv (m.apply op) := by
  cases op with
  | createFile filename fileSize now =>
      rcases hm.toCore.createFile filename fileSize now with ⟨-, heq⟩ | ⟨slot, -, hleast, heq⟩
      · rw [FileManager.apply, heq]
        exact hm
      · rw [FileManager.apply, heq]
        exact hm.toCore.takeSlot hleast.1.1 (toNat_slotIndex hleast.1.1 _ _ _)
  | createFileAuto fileSize now =>
      rcases hm.toCore.createFileAuto fileSize now with ⟨-, heq⟩ | ⟨slot, hleast, heq⟩
      · rw [FileManager.apply, heq]
        exact hm
      · rw [FileManager.apply, heq]
        exact hm.toCore.takeSlot hleast.1.1 (toNat_slotIndex hleast.1.1 _ _ _)
  | deleteFile fileId => exact hm.deleteFile fileId
  | forcePersist => exact hm.forcePersist

/-- **The invariant holds along every run.** -/
theorem inv_run (hm : Inv m) (ops : List Op) : Inv (m.run ops) := by
  induction ops generalizing m with
  | nil => exact hm
  | cons op ops ih => exact ih (hm.apply op)

/-! ### Opening a log -/

/-- A new log is complete and laid out well. -/
theorem logSound_initializeLogFile : LogSound initializeLogFile := by
  have hhead : (ByteFile.empty.put LogHeader.codec 0
      (LogHeader.initial MAGIC_NUMBER NVMeFileDesc.codec.size)).get LogHeader.codec 0 =
        some (LogHeader.initial MAGIC_NUMBER NVMeFileDesc.codec.size) :=
    ByteFile.get_put_self _ (by decide) 0 _
  have hsize : (ByteFile.empty.put LogHeader.codec 0
      (LogHeader.initial MAGIC_NUMBER NVMeFileDesc.codec.size)).size = 528 := by
    rw [ByteFile.size_put _ (by decide), LogHeader.size_codec]
    rfl
  have hbitmap : List.replicate BITMAP_SIZE_BYTES (0 : UInt8) ≠ [] := by
    rw [Ne, List.replicate_eq_nil_iff, BITMAP_SIZE_BYTES_eq]
    decide
  have hrecords : List.replicate (MAX_RECORDS * NVMeFileDesc.codec.size) (0 : UInt8) ≠ [] := by
    rw [Ne, List.replicate_eq_nil_iff, MAX_RECORDS_eq, NVMeFileDesc.size_codec]
    decide
  constructor
  · rw [initializeLogFile, ByteFile.size_write _ hrecords,
      ByteFile.size_write _ hbitmap, hsize, List.length_replicate,
      List.length_replicate, expectedSize, LogHeader.size_codec, BITMAP_SIZE_BYTES_eq,
      MAX_RECORDS_eq, NVMeFileDesc.size_codec]
    rfl
  · refine ⟨_, ?_, LogHeader.laid_initial MAGIC_NUMBER (by decide), Nat.zero_le _⟩
    rw [initializeLogFile, ByteFile.get_write_of_disjoint, ByteFile.get_write_of_disjoint]
    · exact hhead
    · right
      rw [LogHeader.size_codec]
    · rw [hsize, LogHeader.size_codec]
    · right
      rw [LogHeader.size_codec]
      omega
    · rw [ByteFile.size_write _ hbitmap, hsize, LogHeader.size_codec]
      exact le_max_left _ _

/-- The constructor takes such a log as it is. -/
theorem LogSound.needInitialize {log : ByteFile} (hlog : LogSound log) :
    needInitialize (some log) = false := by
  obtain ⟨h, hget, hl, hcount⟩ := hlog.header
  have hsize := hlog.size
  have hrec : h.recordSize.toNat = NVMeFileDesc.codec.size := hl.recordSize
  have hzero : ¬log.size = 0 := by
    rw [hsize, expectedSize_eq]
    decide
  have hsmall : ¬log.size < LogHeader.codec.size := by
    rw [hsize, expectedSize_eq, LogHeader.size_codec]
    decide
  have hbig : ¬h.activeRecordCount.toNat > MAX_RECORDS := by omega
  simp only [FileManager.needInitialize, if_neg hzero, if_neg hsmall, hget, hl.magicNum, hrec,
    hl.headerSize, if_neg hbig]
  simp [hsize]

/-- Two headers that are laid out alike find the same records and the same bitmap. -/
theorem ownRecord_congr {log : ByteFile} {h h' : LogHeader} (hl : h.Laid MAGIC_NUMBER 64)
    (hl' : h'.Laid MAGIC_NUMBER 64) {i : ℕ} (hi : i < MAX_RECORDS) :
    ownRecord log h i = ownRecord log h' i := by
  rw [ownRecord, ownRecord, recordAt, recordAt, hl.recordOffset_eq le_rfl hi,
    hl'.recordOffset_eq le_rfl hi]

theorem bitmapBits_congr {log : ByteFile} {h h' : LogHeader} (hl : h.Laid MAGIC_NUMBER 64)
    (hl' : h'.Laid MAGIC_NUMBER 64) : bitmapBits log h = bitmapBits log h' := by
  rw [bitmapBits, bitmapBits, hl.bitmapOffset, hl'.bitmapOffset]

/-- After the loop over all slots, slots and files agree. -/
theorem core_loadSlots (hlog : LogSound m.log) (hl : m.header.Laid MAGIC_NUMBER 64)
    (hempty : m.files = ∅) (hbound : ∀ i, MAX_RECORDS ≤ i → m.dirtyBitmap i = false) :
    Core (m.loadSlots MAX_RECORDS) := by
  obtain ⟨hlog', hheader, -⟩ := loadSlots_frame m MAX_RECORDS
  have hlookup := loadSlots_lookup m hempty MAX_RECORDS
  constructor
  · rw [hheader]
    exact hl
  · rw [hlog']
    exact hlog
  · intro i
    rw [loadSlots_bits, ← AList.lookup_isSome, hlookup i]
    rcases Nat.lt_or_ge i MAX_RECORDS with hi | hi
    · cases hbit : m.dirtyBitmap i with
      | false => simp
      | true => simp [hi]
    · simp [hbound i hi]
  · intro i hi
    rw [← AList.lookup_isSome, hlookup i] at hi
    by_contra hge
    rw [if_neg fun hand => hge hand.1] at hi
    cases hi
  · intro i desc hdesc
    rw [hlookup i] at hdesc
    rw [hlog', hheader]
    split_ifs at hdesc
    exact hdesc

theorem files_correctCount (m : FileManager) : m.correctCount.files = m.files := by
  rw [correctCount]
  split_ifs
  · rfl
  · rfl

/-- Correcting the count leaves the slots alone, and counts as a pending write. -/
theorem Core.correctCount (hm : Core m)
    (hclean : m.pendingWritesCount = 0 → bitmapBits m.log m.header = some m.dirtyBitmap) :
    Inv m.correctCount := by
  have hlaid : m.countedHeader.Laid MAGIC_NUMBER 64 := hm.laid.setCount _
  rw [FileManager.correctCount]
  split_ifs
  · refine ⟨⟨hlaid, hm.log, hm.mem_iff, hm.lt, ?_⟩, ?_⟩
    · intro i desc hdesc
      rw [ownRecord_congr hlaid hm.laid (hm.lt_of_lookup hdesc)]
      exact hm.own i desc hdesc
    · intro hzero
      exact absurd hzero (Nat.succ_ne_zero _)
  · exact ⟨hm, hclean⟩

/-- With nothing pending after the loop, the bitmap of the log stands. -/
theorem inv_correctCount_loadSlots (hlog : LogSound m.log) (hl : m.header.Laid MAGIC_NUMBER 64)
    (hempty : m.files = ∅) (hbound : ∀ i, MAX_RECORDS ≤ i → m.dirtyBitmap i = false)
    (hread : bitmapBits m.log m.header = some m.dirtyBitmap) :
    Inv (m.loadSlots MAX_RECORDS).correctCount := by
  apply (core_loadSlots hlog hl hempty hbound).correctCount
  intro hzero
  obtain ⟨hlog', hheader, -⟩ := loadSlots_frame m MAX_RECORDS
  have hown := loadSlots_pending _ _ hzero
  rw [hlog', hheader, hread, Option.some.injEq]
  funext i
  rw [loadSlots_bits]
  cases hbit : m.dirtyBitmap i with
  | false => rfl
  | true =>
      rcases Nat.lt_or_ge i MAX_RECORDS with hi | hi
      · rw [hown i hi hbit, Bool.or_true, Bool.and_true]
      · rw [decide_eq_true hi, Bool.true_or, Bool.and_true]

/-- **Opening a sound log** gives a manager with the files of the marked slots. -/
theorem LogSound.load {log : ByteFile} (hlog : LogSound log) (threshold : ℕ) :
    ∃ m bits, loadFromFile log threshold = some m ∧ Inv m ∧
      (∀ h, h.Laid MAGIC_NUMBER 64 → bitmapBits log h = some bits) ∧
      ∀ h, h.Laid MAGIC_NUMBER 64 → ∀ i, m.files.lookup i =
        if i < MAX_RECORDS ∧ bits i = true then ownRecord log h i else none := by
  obtain ⟨h, hget, hl, -⟩ := hlog.header
  have hend : h.bitmapOffset.toNat + BITMAP_SIZE_BYTES ≤ log.size := by
    rw [hlog.size, expectedSize_eq, hl.bitmapOffset, LogHeader.size_codec, BITMAP_SIZE_BYTES_eq]
    decide
  obtain ⟨bitmap, hbitmap⟩ : ∃ bitmap, log.read h.bitmapOffset.toNat BITMAP_SIZE_BYTES = some bitmap :=
    ⟨_, (log.read_eq_some_iff).mpr ⟨hend, rfl⟩⟩
  have hread : bitmapBits log h = some (slotsOf bitmap) := by
    rw [bitmapBits, hbitmap, Option.map_some]
  have hbound : ∀ i, MAX_RECORDS ≤ i → slotsOf bitmap i = false := by
    intro i hi
    rw [slotsOf, decide_eq_false (by omega), Bool.false_and]
  have hchecks : ¬(h.magicNum ≠ MAGIC_NUMBER ∨ h.recordSize.toNat ≠ NVMeFileDesc.codec.size) := by
    rintro (hne | hne)
    · exact hne hl.magicNum
    · exact hne hl.recordSize
  have hlookup := loadSlots_lookup (opened log h (slotsOf bitmap) threshold) rfl MAX_RECORDS
  refine ⟨((opened log h (slotsOf bitmap) threshold).loadSlots MAX_RECORDS).correctCount,
    slotsOf bitmap, ?_, ?_, ?_, ?_⟩
  · rw [loadFromFile, hget, Option.bind_eq_bind, Option.bind_some, if_neg hchecks, hread]
    rfl
  · exact inv_correctCount_loadSlots hlog hl rfl hbound hread
  · intro h' hl'
    rw [bitmapBits_congr hl' hl, hread]
  · intro h' hl' i
    rw [files_correctCount, hlookup i]
    by_cases hi : i < MAX_RECORDS ∧ slotsOf bitmap i = true
    · rw [if_pos hi, ← ownRecord_congr hl hl' hi.1]
      exact if_pos hi
    · rw [if_neg hi]
      exact if_neg hi

/-- The constructor on a sound log. -/
theorem LogSound.construct_eq {log : ByteFile} (hlog : LogSound log) (threshold : ℕ) :
    FileManager.construct (some log) threshold = loadFromFile log threshold := by
  rw [FileManager.construct, hlog.needInitialize]
  rfl

/-- **A log is read back as it was left**: destroying a manager and constructing one on its log gives
the same files. -/
theorem reload_destroy (hm : Inv m) (threshold : ℕ) :
    ∃ m', construct (some m.destroy.log) threshold = some m' ∧
      ∀ i, m'.files.lookup i = m.files.lookup i := by
  have hm' : Inv m.destroy := hm.forcePersist
  obtain ⟨hbits, -, hfiles⟩ := hm.bitmapBits_destroy
  obtain ⟨m', bits, hload, -, hread, hlookup⟩ := hm'.log.load threshold
  have hsame : bits = m.dirtyBitmap := by
    rw [hread _ hm'.laid] at hbits
    exact Option.some.inj hbits
  refine ⟨m', by rw [hm'.log.construct_eq, hload], ?_⟩
  intro i
  rw [hlookup _ hm'.laid i, hsame]
  cases hlook : m.files.lookup i with
  | none =>
      have hbit : ¬m.dirtyBitmap i = true := by
        rw [hm.mem_iff i]
        exact AList.lookup_eq_none.mp hlook
      exact if_neg fun hand => hbit hand.2
  | some desc =>
      have hmem : i ∈ m.files := by
        rw [← AList.lookup_isSome, hlook]
        rfl
      rw [if_pos ⟨hm.lt i hmem, (hm.mem_iff i).mpr hmem⟩]
      exact hm'.own i desc (by rw [hfiles, hlook])

/-! ### Every log a manager can meet -/

/-- The constructor always succeeds on a log it re-initialises. -/
theorem construct_of_needInitialize {content : Option ByteFile}
    (hneed : needInitialize content = true) (threshold : ℕ) :
    ∃ m, construct content threshold = some m ∧ Inv m := by
  obtain ⟨m, bits, hload, hm, -⟩ := logSound_initializeLogFile.load threshold
  refine ⟨m, ?_, hm⟩
  rw [construct, hneed]
  exact hload

/-- What a manager writes stays sound, at every moment. -/
theorem Written.logSound {log : ByteFile} (h : Written log) : LogSound log := by
  induction h with
  | @fresh content threshold m ops hneed hm =>
      obtain ⟨m', hm', hinv⟩ := construct_of_needInitialize hneed threshold
      rw [hm] at hm'
      cases hm'
      exact (inv_run hinv ops).log
  | @again log threshold m ops hlog hm ih =>
      obtain ⟨m', bits, hload, hinv, -⟩ := ih.load threshold
      rw [ih.construct_eq, hload] at hm
      cases hm
      exact (inv_run hinv ops).log

/-- Slots and files agree, a file is created in the smallest free slot, and the next manager on the
log finds the same files. -/
structure KeepsFiles (m : FileManager) : Prop where
  mem_iff : ∀ i, m.dirtyBitmap i = true ↔ i ∈ m.files
  slotIndex : ∀ i desc, m.files.lookup i = some desc → desc.slotIndex.toNat = i
  createFile_none : ∀ filename fileSize now, (m.createFile filename fileSize now).1 = none ↔
    16 ≤ filename.length ∨ ∀ i < MAX_RECORDS, i ∈ m.files
  createFile_some : ∀ filename fileSize now desc,
    (m.createFile filename fileSize now).1 = some desc →
      IsLeast {i | i < MAX_RECORDS ∧ i ∉ m.files} desc.slotIndex.toNat
  createFileAuto_none : ∀ fileSize now, (m.createFileAuto fileSize now).1 = none ↔
    ∀ i < MAX_RECORDS, i ∈ m.files
  createFileAuto_some : ∀ fileSize now desc, (m.createFileAuto fileSize now).1 = some desc →
    IsLeast {i | i < MAX_RECORDS ∧ i ∉ m.files} desc.slotIndex.toNat
  reload : ∀ threshold, ∃ m', construct (some m.destroy.log) threshold = some m' ∧
    ∀ i, m'.files.lookup i = m.files.lookup i

theorem Inv.keepsFiles (hm : Inv m) : KeepsFiles m where
  mem_iff := hm.mem_iff
  slotIndex i desc hdesc := (ownRecord_eq_some.mp (hm.own i desc hdesc)).2
  createFile_none filename fileSize now := by
    rcases hm.toCore.createFile filename fileSize now with ⟨hwhy, heq⟩ | ⟨slot, hname, hleast, heq⟩
    · simp only [heq, true_iff]
      exact hwhy
    · simp only [heq, reduceCtorEq, false_iff]
      rintro (hlong | hall)
      · omega
      · exact hleast.1.2 (hall slot hleast.1.1)
  createFile_some filename fileSize now desc hdesc := by
    rcases hm.toCore.createFile filename fileSize now with ⟨hwhy, heq⟩ | ⟨slot, hname, hleast, heq⟩
    · rw [heq] at hdesc
      cases hdesc
    · rw [heq] at hdesc
      cases hdesc
      rw [toNat_slotIndex hleast.1.1]
      exact hleast
  createFileAuto_none fileSize now := by
    rcases hm.toCore.createFileAuto fileSize now with ⟨hall, heq⟩ | ⟨slot, hleast, heq⟩
    · simp only [heq, true_iff]
      exact hall
    · simp only [heq, reduceCtorEq, false_iff]
      intro hall
      exact hleast.1.2 (hall slot hleast.1.1)
  createFileAuto_some fileSize now desc hdesc := by
    rcases hm.toCore.createFileAuto fileSize now with ⟨hall, heq⟩ | ⟨slot, hleast, heq⟩
    · rw [heq] at hdesc
      cases hdesc
    · rw [heq] at hdesc
      cases hdesc
      rw [toNat_slotIndex hleast.1.1]
      exact hleast
  reload := reload_destroy hm

/-- **The log keeps the files**: from every log the constructor re-initialises or some manager has
written, with every threshold and after every sequence of operations. -/
theorem log_keeps_files {content : Option ByteFile}
    (hcontent : needInitialize content = true ∨ ∃ log, content = some log ∧ Written log)
    (threshold : ℕ) (ops : List Op) :
    ∃ m, construct content threshold = some m ∧ KeepsFiles (m.run ops) := by
  rcases hcontent with hneed | ⟨log, rfl, hwritten⟩
  · obtain ⟨m, hm, hinv⟩ := construct_of_needInitialize hneed threshold
    exact ⟨m, hm, (inv_run hinv ops).keepsFiles⟩
  · have hlog := hwritten.logSound
    obtain ⟨m, bits, hload, hinv, -⟩ := hlog.load threshold
    exact ⟨m, by rw [hlog.construct_eq, hload], (inv_run hinv ops).keepsFiles⟩

/-- A manager without a log, that persists every change: a file is created, deleted, and another one
is created in its slot. -/
theorem log_keeps_files_of_no_log :
    needInitialize none = true ∧
      ∃ m, construct none 0 = some m ∧
        KeepsFiles (m.run [.createFileAuto 65536 1, .deleteFile 0, .createFile [97] 131072 2]) :=
  ⟨rfl, log_keeps_files (Or.inl rfl) 0 _⟩

end FileManager
end GeminiFS
end InfiniKV
