/-
**The log files of the file managers.**

Both file managers keep their files in a log: a header, a bitmap of the slots in use, and the records
of the slots.  A record is written when its slot is taken; header and bitmap are written together,
later.  All offsets are taken from the header in memory.

Main definitions:

* `InfiniKV.GeminiFS.LogHeader` — the header, the same for both logs;
* `InfiniKV.GeminiFS.writeRecordToSlot`, `persistLog` — what is written;
* `InfiniKV.GeminiFS.recordAt`, `bitmapBits` — what is read back;
* `InfiniKV.GeminiFS.LogHeader.Laid` — the header puts bitmap and records where they belong.

Main results:

* `InfiniKV.GeminiFS.recordAt_writeRecordToSlot`, `recordAt_persistLog` — **a record stays until its
  slot is written again**;
* `InfiniKV.GeminiFS.bitmapBits_persistLog` — the bitmap that was written is the one read back.
-/

import InfiniKV.ByteFile
import Mathlib.Data.List.AList

set_option relaxedAutoImplicit false
set_option autoImplicit false

namespace InfiniKV
namespace GeminiFS

/-- `BITMAP_SIZE_BYTES`, and `GPU_BITMAP_SIZE_BYTES`. -/
def BITMAP_SIZE_BYTES : ℕ := 2 * 128 * 1024

/-- `MAX_RECORDS`, and `GPU_MAX_RECORDS`. -/
def MAX_RECORDS : ℕ := BITMAP_SIZE_BYTES * 8

theorem BITMAP_SIZE_BYTES_eq : BITMAP_SIZE_BYTES = 262144 := rfl

theorem MAX_RECORDS_eq : MAX_RECORDS = 2097152 := rfl

/-- `LogHeader`, and `GPULogHeader`, which has the same fields. -/
structure LogHeader where
  magicNum : UInt64
  logFileSize : UInt64
  activeRecordCount : UInt64
  totalRecordCapacity : UInt64
  headerSize : UInt64
  bitmapOffset : UInt64
  bitmapSize : UInt64
  recordsOffset : UInt64
  recordSize : UInt64
  reserved : Vector UInt8 456

namespace LogHeader

/-- The header as it lies in the file. -/
def codec : Codec LogHeader :=
  Codec.ofFields
    (Codec.u64.pair <| Codec.u64.pair <| Codec.u64.pair <| Codec.u64.pair <| Codec.u64.pair <|
      Codec.u64.pair <| Codec.u64.pair <| Codec.u64.pair <| Codec.u64.pair <| Codec.bytes 456)
    (fun h => (h.magicNum, h.logFileSize, h.activeRecordCount, h.totalRecordCapacity, h.headerSize,
      h.bitmapOffset, h.bitmapSize, h.recordsOffset, h.recordSize, h.reserved))
    (fun t => ⟨t.1, t.2.1, t.2.2.1, t.2.2.2.1, t.2.2.2.2.1, t.2.2.2.2.2.1, t.2.2.2.2.2.2.1,
      t.2.2.2.2.2.2.2.1, t.2.2.2.2.2.2.2.2.1, t.2.2.2.2.2.2.2.2.2⟩)
    fun _ => rfl

/-- The header of a new log with records of `recordSize` bytes. -/
def initial (magic : UInt64) (recordSize : ℕ) : LogHeader where
  magicNum := magic
  logFileSize := UInt64.ofNat (codec.size + BITMAP_SIZE_BYTES + MAX_RECORDS * recordSize)
  activeRecordCount := 0
  totalRecordCapacity := UInt64.ofNat MAX_RECORDS
  headerSize := UInt64.ofNat codec.size
  bitmapOffset := UInt64.ofNat codec.size
  bitmapSize := UInt64.ofNat BITMAP_SIZE_BYTES
  recordsOffset := UInt64.ofNat (codec.size + BITMAP_SIZE_BYTES)
  recordSize := UInt64.ofNat recordSize
  reserved := Vector.replicate 456 0

/-- Where the record of a slot lies. -/
def recordOffset (h : LogHeader) (slotIndex : ℕ) : ℕ :=
  (h.recordsOffset.toNat + slotIndex * h.recordSize.toNat) % 2 ^ 64

/-- The header puts the bitmap behind itself, and records of `recordSize` bytes behind the bitmap. -/
structure Laid (magic : UInt64) (recordSize : ℕ) (h : LogHeader) : Prop where
  magicNum : h.magicNum = magic
  headerSize : h.headerSize.toNat = codec.size
  bitmapOffset : h.bitmapOffset.toNat = codec.size
  recordsOffset : h.recordsOffset.toNat = codec.size + BITMAP_SIZE_BYTES
  recordSize : h.recordSize.toNat = recordSize

@[simp] theorem size_codec : codec.size = 528 := rfl

/-- The header of a new log is one of these. -/
theorem laid_initial (magic : UInt64) {recordSize : ℕ} (hsize : recordSize < 2 ^ 64) :
    (initial magic recordSize).Laid magic recordSize where
  magicNum := rfl
  headerSize := rfl
  bitmapOffset := rfl
  recordsOffset := rfl
  recordSize := by
    rw [initial, UInt64.toNat_ofNat', Nat.mod_eq_of_lt hsize]

namespace Laid

variable {magic : UInt64} {recordSize : ℕ} {h : LogHeader}

/-- Only the count of the records changes over the life of a log. -/
theorem setCount (hl : h.Laid magic recordSize) (n : UInt64) :
    ({ h with activeRecordCount := n } : LogHeader).Laid magic recordSize :=
  ⟨hl.magicNum, hl.headerSize, hl.bitmapOffset, hl.recordsOffset, hl.recordSize⟩

/-- In a log that is laid out well, no offset overflows. -/
theorem recordOffset_eq (hl : h.Laid magic recordSize) (hsize : recordSize ≤ 64) {i : ℕ}
    (hi : i < MAX_RECORDS) :
    h.recordOffset i = codec.size + BITMAP_SIZE_BYTES + i * recordSize := by
  rw [recordOffset, hl.recordsOffset, hl.recordSize, Nat.mod_eq_of_lt]
  have hmul : i * recordSize ≤ MAX_RECORDS * 64 := Nat.mul_le_mul hi.le hsize
  rw [MAX_RECORDS_eq] at hmul
  rw [size_codec, BITMAP_SIZE_BYTES_eq]
  omega

end Laid
end LogHeader

/-! ### Reading and writing -/

section Records

variable {α : Type} (c : Codec α)

/-- `writeRecordToSlot`. -/
def writeRecordToSlot (log : ByteFile) (header : LogHeader) (desc : α) (slotIndex : ℕ) : ByteFile :=
  log.put c (header.recordOffset slotIndex) desc

/-- The record of a slot. -/
def recordAt (log : ByteFile) (header : LogHeader) (slotIndex : ℕ) : Option α :=
  log.get c (header.recordOffset slotIndex)

/-- What `persistBitmap` writes: the header, and the bitmap at the place the header gives it. -/
def persistLog (log : ByteFile) (header : LogHeader) (bits : ℕ → Bool) : ByteFile :=
  (log.put LogHeader.codec 0 header).write header.bitmapOffset.toNat
    (packBits BITMAP_SIZE_BYTES bits)

/-- The slots of a bitmap.  There are none behind the last. -/
def slotsOf (bitmap : List UInt8) (i : ℕ) : Bool := decide (i < MAX_RECORDS) && unpackBit bitmap i

/-- The slots marked in the bitmap of a log, if the file reaches to its end. -/
def bitmapBits (log : ByteFile) (header : LogHeader) : Option (ℕ → Bool) :=
  (log.read header.bitmapOffset.toNat BITMAP_SIZE_BYTES).map slotsOf

end Records

theorem slotsOf_packBits (bits : ℕ → Bool) {i : ℕ} (hi : i < MAX_RECORDS) :
    slotsOf (packBits BITMAP_SIZE_BYTES bits) i = bits i := by
  have hi' : i < 8 * BITMAP_SIZE_BYTES := by
    rw [MAX_RECORDS] at hi
    omega
  rw [slotsOf, unpackBit_packBits bits hi', decide_eq_true hi, Bool.true_and]

/-- Slots of which none is behind the last are read back as they were written. -/
theorem slotsOf_packBits_of_lt {bits : ℕ → Bool} (h : ∀ i, bits i = true → i < MAX_RECORDS) :
    slotsOf (packBits BITMAP_SIZE_BYTES bits) = bits := by
  funext i
  rcases Nat.lt_or_ge i MAX_RECORDS with hi | hi
  · exact slotsOf_packBits bits hi
  · have hbit : bits i = false := by
      cases hbit : bits i with
      | false => rfl
      | true =>
          have hlt := h i hbit
          omega
    rw [hbit, slotsOf, decide_eq_false (by omega), Bool.false_and]

/-! ### What a write leaves alone -/

section Frames

variable {α : Type} {c : Codec α} {magic : UInt64} {log : ByteFile} {header : LogHeader}

/-- Header and bitmap lie below the records. -/
theorem LogHeader.Laid.le_recordOffset (hl : header.Laid magic c.size) (hsize : c.size ≤ 64) {i : ℕ}
    (hi : i < MAX_RECORDS) : 528 + BITMAP_SIZE_BYTES ≤ header.recordOffset i := by
  rw [hl.recordOffset_eq hsize hi, LogHeader.size_codec]
  omega

/-- The record just written is read back. -/
theorem recordAt_writeRecordToSlot_self (hc : 0 < c.size) (desc : α) (i : ℕ) :
    recordAt c (writeRecordToSlot c log header desc i) header i = some desc :=
  log.get_put_self hc _ _

/-- **A record stays** when another slot is written. -/
theorem recordAt_writeRecordToSlot (hl : header.Laid magic c.size) (hsize : c.size ≤ 64) {i j : ℕ}
    (hi : i < MAX_RECORDS) (hj : j < MAX_RECORDS) (hij : i ≠ j) {d : α} (desc : α)
    (hd : recordAt c log header i = some d) :
    recordAt c (writeRecordToSlot c log header desc j) header i = some d := by
  rw [recordAt, writeRecordToSlot, log.get_put_of_disjoint desc _ (log.le_size_of_get hd)]
  · exact hd
  · rw [hl.recordOffset_eq hsize hi, hl.recordOffset_eq hsize hj]
    rcases Nat.lt_or_gt_of_ne hij with hlt | hlt
    · right
      have hmul := Nat.mul_le_mul_right c.size (Nat.succ_le_of_lt hlt)
      rw [Nat.succ_mul] at hmul
      omega
    · left
      have hmul := Nat.mul_le_mul_right c.size (Nat.succ_le_of_lt hlt)
      rw [Nat.succ_mul] at hmul
      omega

/-- **A record stays** when header and bitmap are written.  The header that is written may differ from
the one the record is found by in the count alone. -/
theorem recordAt_persistLog {header' : LogHeader} (hl : header.Laid magic c.size)
    (hl' : header'.Laid magic c.size) (hsize : c.size ≤ 64) {i : ℕ} (hi : i < MAX_RECORDS) {d : α}
    (bits : ℕ → Bool) (hd : recordAt c log header i = some d) :
    recordAt c (persistLog log header' bits) header i = some d := by
  have hle := hl.le_recordOffset hsize hi
  have hin := log.le_size_of_get hd
  rw [recordAt, persistLog, ByteFile.get_write_of_disjoint, ByteFile.get_put_of_disjoint]
  · exact hd
  · left
    rw [LogHeader.size_codec]
    omega
  · exact hin
  · left
    rw [length_packBits, hl'.bitmapOffset, LogHeader.size_codec]
    omega
  · exact hin.trans (log.size_le_size_put _ _ _)

/-- The header that was written is read back. -/
theorem get_persistLog (hl : header.Laid magic c.size) (bits : ℕ → Bool) :
    (persistLog log header bits).get LogHeader.codec 0 = some header := by
  have hself : (log.put LogHeader.codec 0 header).get LogHeader.codec 0 = some header :=
    log.get_put_self (by decide) 0 header
  rw [persistLog, ByteFile.get_write_of_disjoint]
  · exact hself
  · right
    rw [hl.bitmapOffset, LogHeader.size_codec]
  · exact ByteFile.le_size_of_get _ hself

/-- **The bitmap that was written** is read back. -/
theorem bitmapBits_persistLog {header' : LogHeader} (hoffset : header'.bitmapOffset = header.bitmapOffset)
    {bits : ℕ → Bool} (hbits : ∀ i, bits i = true → i < MAX_RECORDS) :
    bitmapBits (persistLog log header bits) header' = some bits := by
  have hne : packBits BITMAP_SIZE_BYTES bits ≠ [] := by
    intro hnil
    have hlen := length_packBits BITMAP_SIZE_BYTES bits
    rw [hnil] at hlen
    cases hlen
  have hread := (log.put LogHeader.codec 0 header).read_write_self header.bitmapOffset.toNat hne
  rw [length_packBits] at hread
  rw [bitmapBits, persistLog, hoffset, hread, Option.map_some, slotsOf_packBits_of_lt hbits]

/-- Writing a record leaves the header alone. -/
theorem get_writeRecordToSlot (hl : header.Laid magic c.size) (hsize : c.size ≤ 64) {i : ℕ}
    (hi : i < MAX_RECORDS) (desc : α) {h : LogHeader}
    (hh : log.get LogHeader.codec 0 = some h) :
    (writeRecordToSlot c log header desc i).get LogHeader.codec 0 = some h := by
  have hle := hl.le_recordOffset hsize hi
  rw [writeRecordToSlot, log.get_put_of_disjoint desc _ (log.le_size_of_get hh), hh]
  right
  rw [LogHeader.size_codec]
  omega

end Frames

end GeminiFS
end InfiniKV
