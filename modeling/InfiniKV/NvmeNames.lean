/-
**Names and numbers of NVMe files.**

A file manager takes it that files are named by the slots of its log.  To find a file by name it reads the name
as a number, the way `std::stoul` does: past white space and a sign, up to the first character that is not a
digit.  If there is a file with that number it is the answer, whatever its name is; only otherwise the names are
compared.  A file is deleted by the number in its name also if its own number is given.  But a file with an
explicit name gets the smallest free slot like any other.

Main definitions:

* `InfiniKV.GeminiFS.FileManager.stoul`, `parseFileIdFromFilename` — the number in a name;
* `InfiniKV.GeminiFS.FileManager.getFileIdByFilename` — the number of the file with a name;
* `InfiniKV.GeminiFS.NVMeVolume` — a file manager and the files in the directory of its mount path;
* `InfiniKV.GeminiFS.NVMeVolume.hostFileDeleteManaged` — deleting a file by its number;
* `InfiniKV.GeminiFS.NVMeVolume.DeleteRight`, `NumberedNames` — a file is deleted with its name, and names and
  numbers correspond.

Main results:

* `InfiniKV.GeminiFS.FileManager.parseFileIdFromFilename_generateFilenameFromId` — the name of a slot is read
  back as its number;
* `InfiniKV.GeminiFS.FileManager.lookupRight_iff`, `InfiniKV.GeminiFS.NVMeVolume.deleteRight_iff` — when a name
  is found, and when a file is deleted;
* `InfiniKV.GeminiFS.NVMeVolume.numberedNames_run`, `NumberedNames.deleteRight` — with names that are numbers every
  file is deleted by its number;
* `InfiniKV.GeminiFS.NVMeVolume.namesAndIds_iff` — **when names and numbers correspond**, after every run.
-/

import InfiniKV.NvmeFileLog
import InfiniKV.Runs
import Mathlib.Data.Finset.Insert
import Mathlib.Data.Finset.Erase
import Mathlib.Data.List.GetD
import Mathlib.Data.List.TakeWhile

set_option relaxedAutoImplicit false
set_option autoImplicit false

namespace InfiniKV
namespace GeminiFS

/-- A string as far as C reads it, up to the first zero byte. -/
def cStr (s : List UInt8) : List UInt8 := s.takeWhile (· ≠ 0)

/-- The name in a record. -/
def NVMeFileDesc.name (desc : NVMeFileDesc) : List UInt8 := cStr desc.filename.toList

namespace FileManager

/-! ### The number in a name -/

/-- The number that stands for no file. -/
def UINT32_MAX : ℕ := 2 ^ 32 - 1

theorem UINT32_MAX_eq : UINT32_MAX = 4294967295 := rfl

/-- `isspace`, in the C locale. -/
def isSpace (b : UInt8) : Bool := b = 32 || (9 ≤ b && b ≤ 13)

/-- `isdigit`. -/
def isDigit (b : UInt8) : Bool := 48 ≤ b && b ≤ 57

/-- The number that a row of digits denotes. -/
def digitsValue (digits : List UInt8) : ℕ := digits.foldl (fun n d => 10 * n + (d.toNat - 48)) 0

/-- The sign at the front of a number, and what follows it. -/
def readSign : List UInt8 → Bool × List UInt8
  | [] => (false, [])
  | b :: s => if b = 45 then (true, s) else if b = 43 then (false, s) else (false, b :: s)

/-- `std::stoul`, in base ten: what follows the digits is ignored, and a negative number wraps around.  `none`
stands for the exceptions, about a string without digits and about a number out of range. -/
def stoul (s : List UInt8) : Option ℕ :=
  let sign := readSign (s.dropWhile isSpace)
  let digits := sign.2.takeWhile isDigit
  if digits = [] then none
  else if 2 ^ 64 ≤ digitsValue digits then none
  else if sign.1 then some ((2 ^ 64 - digitsValue digits) % 2 ^ 64)
  else some (digitsValue digits)

/-- `parseFileIdFromFilename`: the number is cut to 32 bits. -/
def parseFileIdFromFilename (filename : List UInt8) : ℕ :=
  match stoul filename with
  | some value => value % 2 ^ 32
  | none => UINT32_MAX

/-- The bytes of a character that is a digit. -/
theorem toNat_ofNat_of_isDigit {ch : Char} (h : ch.isDigit = true) :
    (UInt8.ofNat ch.toNat).toNat = ch.toNat ∧ 48 ≤ ch.toNat ∧ ch.toNat ≤ 57 := by
  rw [Char.isDigit, Bool.and_eq_true, decide_eq_true_eq, decide_eq_true_eq] at h
  have hlow : 48 ≤ ch.toNat := h.1
  have hhigh : ch.toNat ≤ 57 := h.2
  refine ⟨?_, hlow, hhigh⟩
  rw [UInt8.toNat_ofNat', Nat.mod_eq_of_lt]
  omega

/-- The bytes of a row of digits have the value of the digits. -/
theorem foldl_digits (chars : List Char) (h : ∀ ch ∈ chars, ch.isDigit = true) (n : ℕ) :
    (chars.map fun ch => UInt8.ofNat ch.toNat).foldl (fun n d => 10 * n + (d.toNat - 48)) n =
      Nat.ofDigitChars 10 chars n := by
  induction chars generalizing n with
  | nil => rfl
  | cons ch chars ih =>
      rw [List.forall_mem_cons] at h
      rw [List.map_cons, List.foldl_cons, Nat.ofDigitChars_cons, ih h.2, (toNat_ofNat_of_isDigit h.1).1]
      rfl

/-- The name of a slot is the row of its digits. -/
theorem generateFilenameFromId_digits (fileId : ℕ) :
    generateFilenameFromId fileId ≠ [] ∧ (∀ b ∈ generateFilenameFromId fileId, isDigit b = true) ∧
      digitsValue (generateFilenameFromId fileId) = fileId := by
  have hchars : ∀ ch ∈ Nat.toDigits 10 fileId, ch.isDigit = true := fun ch hch =>
    Nat.isDigit_of_mem_toDigits (by omega) le_rfl hch
  rw [generateFilenameFromId, Nat.toList_repr]
  refine ⟨?_, ?_, ?_⟩
  · rw [ne_eq, List.map_eq_nil_iff]
    exact Nat.toDigits_ne_nil
  · intro b hb
    obtain ⟨ch, hch, rfl⟩ := List.mem_map.1 hb
    obtain ⟨hval, hlow, hhigh⟩ := toNat_ofNat_of_isDigit (hchars ch hch)
    rw [isDigit, Bool.and_eq_true, decide_eq_true_eq, decide_eq_true_eq, UInt8.le_iff_toNat_le,
      UInt8.le_iff_toNat_le, hval]
    exact ⟨hlow, hhigh⟩
  · rw [digitsValue, foldl_digits _ hchars, Nat.ofDigitChars_ten_toDigits]

/-- A byte that is a digit is neither white space nor a sign. -/
theorem isDigit_spec {b : UInt8} (h : isDigit b = true) : isSpace b = false ∧ b ≠ 45 ∧ b ≠ 43 ∧ b ≠ 0 := by
  revert h
  rw [isDigit, isSpace, Bool.and_eq_true, decide_eq_true_eq, decide_eq_true_eq]
  intro h
  have hlow := UInt8.le_iff_toNat_le.1 h.1
  refine ⟨?_, ?_, ?_, ?_⟩
  · rw [Bool.or_eq_false_iff, Bool.and_eq_false_iff, decide_eq_false_iff_not, decide_eq_false_iff_not,
      decide_eq_false_iff_not, UInt8.le_iff_toNat_le, UInt8.le_iff_toNat_le]
    refine ⟨?_, Or.inr ?_⟩
    · rintro rfl
      exact absurd hlow (by decide)
    · intro hle
      have h13 : b.toNat ≤ 13 := hle
      have h48 : 48 ≤ b.toNat := hlow
      omega
  · rintro rfl
    exact absurd hlow (by decide)
  · rintro rfl
    exact absurd hlow (by decide)
  · rintro rfl
    exact absurd hlow (by decide)

/-- A row of digits is read as its value, if it fits. -/
theorem stoul_digits {digits : List UInt8} (hne : digits ≠ []) (hdigits : ∀ b ∈ digits, isDigit b = true)
    (hlt : digitsValue digits < 2 ^ 64) : stoul digits = some (digitsValue digits) := by
  cases digits with
  | nil => exact absurd rfl hne
  | cons b rest =>
      obtain ⟨hspace, hminus, hplus, -⟩ := isDigit_spec (hdigits b (List.mem_cons_self ..))
      have hdrop : (b :: rest).dropWhile isSpace = b :: rest := by
        rw [List.dropWhile_cons, hspace]
        rfl
      have htake : (b :: rest).takeWhile isDigit = b :: rest := List.takeWhile_eq_self_iff.2 hdigits
      rw [stoul, hdrop, readSign, if_neg hminus, if_neg hplus]
      dsimp only
      rw [htake, if_neg hne, if_neg (Nat.not_le.2 hlt)]
      rfl

/-- The name of a slot has no zero byte. -/
theorem cStr_generateFilenameFromId (fileId : ℕ) :
    cStr (generateFilenameFromId fileId) = generateFilenameFromId fileId := by
  rw [cStr, List.takeWhile_eq_self_iff]
  intro b hb
  exact decide_eq_true (isDigit_spec ((generateFilenameFromId_digits fileId).2.1 b hb)).2.2.2

/-- **The name of a slot is read back as its number.** -/
theorem parseFileIdFromFilename_generateFilenameFromId {fileId : ℕ} (h : fileId < 2 ^ 32) :
    parseFileIdFromFilename (generateFilenameFromId fileId) = fileId := by
  obtain ⟨hne, hdigits, hvalue⟩ := generateFilenameFromId_digits fileId
  have hstoul : stoul (generateFilenameFromId fileId) = some fileId := by
    rw [stoul_digits hne hdigits, hvalue]
    rw [hvalue]
    omega
  rw [parseFileIdFromFilename, hstoul]
  exact Nat.mod_eq_of_lt h

/-- White space, signs and what follows the digits do not count. -/
example : parseFileIdFromFilename [32, 43, 49, 50, 97] = 12 := by decide

/-! ### The file with a name -/

/-- The file with a number is there, and has a name. -/
def HasName (m : FileManager) (fileId : ℕ) (filename : List UInt8) : Prop :=
  ∃ desc, m.files.lookup fileId = some desc ∧ desc.name = filename

/-- `getFileIdByFilename`.  The name of the file whose number is read is not compared. -/
def getFileIdByFilename (m : FileManager) (filename : List UInt8) : ℕ :=
  let fileId := parseFileIdFromFilename filename
  if fileId ≠ UINT32_MAX ∧ fileId ∈ m.files then fileId
  else match m.files.entries.find? fun file => file.2.name = filename with
    | some file => file.1
    | none => UINT32_MAX

variable {m : FileManager}

/-- A file with a number has one name. -/
theorem HasName.unique {fileId : ℕ} {filename filename' : List UInt8} (h : m.HasName fileId filename)
    (h' : m.HasName fileId filename') : filename = filename' := by
  obtain ⟨desc, hdesc, rfl⟩ := h
  obtain ⟨desc', hdesc', rfl⟩ := h'
  rw [hdesc] at hdesc'
  rw [Option.some.inj hdesc']

theorem HasName.mem {fileId : ℕ} {filename : List UInt8} (h : m.HasName fileId filename) : fileId ∈ m.files := by
  obtain ⟨desc, hdesc, -⟩ := h
  rw [← AList.lookup_isSome, hdesc]
  rfl

/-- The numbers of files are smaller than the one that stands for none. -/
theorem Core.ne_UINT32_MAX (hm : Core m) {fileId : ℕ} (h : fileId ∈ m.files) : fileId ≠ UINT32_MAX := by
  have hlt := hm.lt fileId h
  rw [MAX_RECORDS_eq] at hlt
  rw [UINT32_MAX_eq]
  omega

/-- A file whose number is read is the answer. -/
theorem getFileIdByFilename_of_mem (hm : Core m) {filename : List UInt8}
    (h : parseFileIdFromFilename filename ∈ m.files) :
    m.getFileIdByFilename filename = parseFileIdFromFilename filename := by
  rw [getFileIdByFilename]
  exact if_pos ⟨hm.ne_UINT32_MAX h, h⟩

/-- Otherwise the answer is a file with the name, if there is one. -/
theorem getFileIdByFilename_of_not_mem {filename : List UInt8}
    (h : parseFileIdFromFilename filename ∉ m.files) :
    m.HasName (m.getFileIdByFilename filename) filename ∨
      m.getFileIdByFilename filename = UINT32_MAX ∧ ∀ fileId, ¬m.HasName fileId filename := by
  rw [getFileIdByFilename, if_neg fun hand => h hand.2]
  cases hfind : m.files.entries.find? fun file => file.2.name = filename with
  | none =>
      right
      refine ⟨rfl, ?_⟩
      rintro fileId ⟨desc, hdesc, hname⟩
      have hmem : ⟨fileId, desc⟩ ∈ m.files.entries := AList.mem_lookup_iff.1 hdesc
      have hne := List.find?_eq_none.1 hfind _ hmem
      exact hne (decide_eq_true hname)
  | some file =>
      left
      have hmem := List.mem_of_find?_eq_some hfind
      have hname := List.find?_some hfind
      exact ⟨file.2, AList.mem_lookup_iff.2 hmem, of_decide_eq_true hname⟩

/-- Looking a name up gives the number of the file with the name, or none if there is none. -/
structure LookupRight (m : FileManager) (filename : List UInt8) : Prop where
  found : ∀ fileId, fileId ≠ UINT32_MAX →
    (m.getFileIdByFilename filename = fileId ↔ m.HasName fileId filename)
  missing : m.getFileIdByFilename filename = UINT32_MAX ↔ ∀ fileId, ¬m.HasName fileId filename

/-- A name that can be found: if there is a file with the number that it is read as, that file has the name, and
no two files have it. -/
structure NameResolves (m : FileManager) (filename : List UInt8) : Prop where
  number : parseFileIdFromFilename filename ∈ m.files → m.HasName (parseFileIdFromFilename filename) filename
  unique : ∀ fileId fileId', m.HasName fileId filename → m.HasName fileId' filename → fileId = fileId'

/-- **When a name is found.** -/
theorem lookupRight_iff (hm : Core m) (filename : List UInt8) :
    m.LookupRight filename ↔ m.NameResolves filename := by
  constructor
  · intro hright
    constructor
    · intro hmem
      have hget := getFileIdByFilename_of_mem hm hmem
      exact (hright.found _ (hm.ne_UINT32_MAX hmem)).1 hget
    · intro fileId fileId' h h'
      have hget := (hright.found _ (hm.ne_UINT32_MAX h.mem)).2 h
      have hget' := (hright.found _ (hm.ne_UINT32_MAX h'.mem)).2 h'
      rw [← hget, ← hget']
  · intro hname
    -- the answer has the name, or is that there is none
    have hanswer : m.HasName (m.getFileIdByFilename filename) filename ∨
        m.getFileIdByFilename filename = UINT32_MAX ∧ ∀ fileId, ¬m.HasName fileId filename := by
      by_cases hmem : parseFileIdFromFilename filename ∈ m.files
      · left
        rw [getFileIdByFilename_of_mem hm hmem]
        exact hname.number hmem
      · exact getFileIdByFilename_of_not_mem hmem
    rcases hanswer with hhas | ⟨hnone, hmissing⟩
    · constructor
      · intro fileId _
        constructor
        · rintro rfl
          exact hhas
        · exact hname.unique _ _ hhas
      · constructor
        · intro hmax
          exact absurd hmax (hm.ne_UINT32_MAX hhas.mem)
        · intro hmissing
          exact absurd hhas (hmissing _)
    · constructor
      · intro fileId hne
        constructor
        · intro hget
          exact absurd (hget.symm.trans hnone) hne
        · intro h
          exact absurd h (hmissing fileId)
      · exact ⟨fun _ => hmissing, fun _ => hnone⟩

end FileManager

/-! ### Changes that do not touch the files -/

namespace FileManager

/-- A file is created in the smallest free slot. -/
theorem Core.createFile_of_isLeast {m : FileManager} (hm : Core m) {filename : List UInt8} (hlen : filename.length < 16) {slot : ℕ}
    (hslot : IsLeast {i | i < MAX_RECORDS ∧ i ∉ m.files} slot) (fileSize now : UInt64) :
    m.createFile filename fileSize now =
      (some (newDesc slot filename fileSize now), m.takeSlot slot (newDesc slot filename fileSize now)) := by
  rcases hm.createFile filename fileSize now with ⟨hwhy, -⟩ | ⟨slot', -, hleast, heq⟩
  · rcases hwhy with hlong | hfull
    · omega
    · exact absurd (hfull slot hslot.1.1) hslot.1.2
  · rw [heq, hleast.unique hslot]

/-- No slot of a new log is marked. -/
theorem bitmapBits_initializeLogFile :
    bitmapBits initializeLogFile (LogHeader.initial MAGIC_NUMBER NVMeFileDesc.codec.size) =
      some fun _ => false := by
  have hlaid : (LogHeader.initial MAGIC_NUMBER NVMeFileDesc.codec.size).Laid MAGIC_NUMBER 64 :=
    LogHeader.laid_initial MAGIC_NUMBER (by decide)
  have hne : List.replicate BITMAP_SIZE_BYTES (0 : UInt8) ≠ [] := by
    rw [Ne, List.replicate_eq_nil_iff, BITMAP_SIZE_BYTES_eq]
    decide
  have hread := (ByteFile.empty.put LogHeader.codec 0
    (LogHeader.initial MAGIC_NUMBER NVMeFileDesc.codec.size)).read_write_self LogHeader.codec.size hne
  rw [List.length_replicate] at hread
  have hrest : initializeLogFile.read LogHeader.codec.size BITMAP_SIZE_BYTES =
      some (List.replicate BITMAP_SIZE_BYTES 0) := by
    rw [initializeLogFile, ByteFile.read_write_of_disjoint, hread]
    · right
      exact le_rfl
    · have hle := @ByteFile.le_size_write (ByteFile.empty.put LogHeader.codec 0
        (LogHeader.initial MAGIC_NUMBER NVMeFileDesc.codec.size)) LogHeader.codec.size _ hne
      rw [List.length_replicate] at hle
      exact hle
  rw [bitmapBits, hlaid.bitmapOffset, hrest, Option.map_some, Option.some.injEq]
  funext i
  have hzero : (List.replicate BITMAP_SIZE_BYTES (0 : UInt8)).getD (i / 8) 0 = 0 := by
    rw [List.getD_eq_getElem?_getD, List.getElem?_replicate]
    split_ifs
    · rfl
    · rfl
  rw [slotsOf, unpackBit, hzero]
  simp

theorem files_countWrite (m : FileManager) :
    m.countWrite.files = m.files ∧ m.countWrite.dirtyBitmap = m.dirtyBitmap := by
  rw [countWrite]
  split_ifs
  · exact ⟨rfl, rfl⟩
  · exact ⟨rfl, rfl⟩

theorem files_forcePersist (m : FileManager) : m.forcePersist.files = m.files := by
  rw [forcePersist]
  split_ifs
  · rfl
  · rfl

theorem dirtyBitmap_forcePersist (m : FileManager) : m.forcePersist.dirtyBitmap = m.dirtyBitmap := by
  rw [forcePersist]
  split_ifs
  · rfl
  · rfl

/-- A file that is deleted is there no more. -/
theorem files_deleteFile (m : FileManager) (fileId : ℕ) :
    (m.deleteFile fileId).2.files = m.files.erase fileId := by
  rw [deleteFile]
  cases hlook : m.files.lookup fileId with
  | none =>
      have hnot : fileId ∉ m.files := AList.lookup_eq_none.1 hlook
      exact (AList.ext (List.kerase_of_notMem_keys hnot)).symm
  | some desc => exact (files_countWrite _).1

/-- Its slot is free. -/
theorem dirtyBitmap_deleteFile {m : FileManager} {fileId : ℕ} {desc : NVMeFileDesc}
    (h : m.files.lookup fileId = some desc) :
    (m.deleteFile fileId).2.dirtyBitmap = Function.update m.dirtyBitmap desc.slotIndex.toNat false := by
  rw [deleteFile, h]
  exact (files_countWrite _).2

/-- A slot that is taken has its record. -/
theorem files_takeSlot (m : FileManager) (slot : ℕ) (desc : NVMeFileDesc) :
    (m.takeSlot slot desc).files = m.files.insert slot desc := (files_countWrite _).1

end FileManager

/-! ### The files of a volume -/

/-- The files of an NVMe controller: its file manager, and the names that are in the directory of its mount
path. -/
structure NVMeVolume where
  fileManager : FileManager
  directory : Finset (List UInt8)

namespace NVMeVolume

open FileManager

/-- `device_file_delete_single_managed`.  The physical file goes by its name, the record by the number that is
read in it.  Only that unlinking a file succeeds is taken for granted. -/
def deviceFileDeleteSingleManaged (v : NVMeVolume) (filename : List UInt8) : Bool × NVMeVolume :=
  let fileId := parseFileIdFromFilename filename
  if fileId = UINT32_MAX then (false, v)
  else
    let deleted := v.fileManager.deleteFile fileId
    (deleted.1, ⟨deleted.2.forcePersist, v.directory.erase (cStr filename)⟩)

/-- `host_file_delete_managed`. -/
def hostFileDeleteManaged (v : NVMeVolume) (nvmeFileId : ℕ) : Bool × NVMeVolume :=
  match v.fileManager.files.lookup nvmeFileId with
  | none => (false, v)
  | some desc => v.deviceFileDeleteSingleManaged desc.name

/-- An operation on a volume: one on its log, the deletion of a file by its number, or the creation of a
physical file. -/
inductive VolumeOp where
  | log (op : Op)
  | hostFileDelete (nvmeFileId : ℕ)
  | createPhysical (filename : List UInt8)

/-- The volume after an operation. -/
def apply (v : NVMeVolume) : VolumeOp → NVMeVolume
  | .log op => { v with fileManager := v.fileManager.apply op }
  | .hostFileDelete nvmeFileId => (v.hostFileDeleteManaged nvmeFileId).2
  | .createPhysical filename => { v with directory := insert (cStr filename) v.directory }

/-- The volume after a sequence of operations. -/
def run (v : NVMeVolume) (ops : List VolumeOp) : NVMeVolume := ops.foldl apply v

variable {v : NVMeVolume}

theorem Inv.deviceFileDeleteSingleManaged (hv : Inv v.fileManager) (filename : List UInt8) :
    Inv (v.deviceFileDeleteSingleManaged filename).2.fileManager := by
  rw [NVMeVolume.deviceFileDeleteSingleManaged]
  split_ifs
  · exact hv
  · exact (hv.deleteFile _).forcePersist

/-- **One operation** keeps the invariant of the log. -/
theorem inv_apply (hv : Inv v.fileManager) (op : VolumeOp) : Inv (v.apply op).fileManager := by
  cases op with
  | log op => exact Inv.apply hv op
  | hostFileDelete nvmeFileId =>
      rw [NVMeVolume.apply, hostFileDeleteManaged]
      cases hlook : v.fileManager.files.lookup nvmeFileId with
      | none => exact hv
      | some desc => exact Inv.deviceFileDeleteSingleManaged hv desc.name
  | createPhysical filename => exact hv

/-- **The invariant of the log holds along every run.** -/
theorem inv_run (hv : Inv v.fileManager) (ops : List VolumeOp) : Inv (v.run ops).fileManager := by
  induction ops generalizing v with
  | nil => exact hv
  | cons op ops ih => exact ih (inv_apply hv op)

/-! ### Deleting a file by its number -/

/-- Deleting a file removes its record and the physical file that the record names, and nothing else. -/
structure DeleteRight (v : NVMeVolume) (nvmeFileId : ℕ) (desc : NVMeFileDesc) : Prop where
  records : ∀ i, (v.hostFileDeleteManaged nvmeFileId).2.fileManager.files.lookup i =
    if i = nvmeFileId then none else v.fileManager.files.lookup i
  slots : ∀ i, (v.hostFileDeleteManaged nvmeFileId).2.fileManager.dirtyBitmap i =
    if i = nvmeFileId then false else v.fileManager.dirtyBitmap i
  physical : (v.hostFileDeleteManaged nvmeFileId).2.directory = v.directory.erase desc.name

/-- The name in a record is a string of C. -/
theorem cStr_name (desc : NVMeFileDesc) : cStr desc.name = desc.name := by
  rw [NVMeFileDesc.name, cStr, cStr, List.takeWhile_takeWhile]
  simp only [and_self, Bool.decide_eq_true]

/-- **When a file is deleted** by its number: if its name is read as that number. -/
theorem deleteRight_iff (hv : Inv v.fileManager) {nvmeFileId : ℕ} {desc : NVMeFileDesc}
    (hdesc : v.fileManager.files.lookup nvmeFileId = some desc) :
    v.DeleteRight nvmeFileId desc ↔ parseFileIdFromFilename desc.name = nvmeFileId := by
  have hmem : nvmeFileId ∈ v.fileManager.files := by
    rw [← AList.lookup_isSome, hdesc]
    rfl
  have hdelete : v.hostFileDeleteManaged nvmeFileId = v.deviceFileDeleteSingleManaged desc.name := by
    rw [hostFileDeleteManaged, hdesc]
  constructor
  · intro hright
    have hrecord := hright.records nvmeFileId
    rw [if_pos rfl, hdelete, deviceFileDeleteSingleManaged] at hrecord
    by_contra hne
    -- the record of another number goes, if any does
    split_ifs at hrecord with hmax
    · rw [hdesc] at hrecord
      cases hrecord
    · dsimp only at hrecord
      rw [files_forcePersist, files_deleteFile, AList.lookup_erase_ne (Ne.symm hne), hdesc] at hrecord
      cases hrecord
  · intro hparse
    have hmax : ¬nvmeFileId = UINT32_MAX := hv.ne_UINT32_MAX hmem
    have hslot : desc.slotIndex.toNat = nvmeFileId := (ownRecord_eq_some.1 (hv.own _ _ hdesc)).2
    constructor
    · intro i
      rw [hdelete, deviceFileDeleteSingleManaged, hparse, if_neg hmax]
      dsimp only
      rw [files_forcePersist, files_deleteFile]
      split_ifs with hi
      · rw [hi, AList.lookup_erase]
      · rw [AList.lookup_erase_ne hi]
    · intro i
      rw [hdelete, deviceFileDeleteSingleManaged, hparse, if_neg hmax]
      dsimp only
      rw [dirtyBitmap_forcePersist, dirtyBitmap_deleteFile hdesc, hslot, Function.update_apply]
    · rw [hdelete, deviceFileDeleteSingleManaged, hparse, if_neg hmax, cStr_name]

/-! ### Names that follow the rule -/

/-- The name of a new file, if it is short enough. -/
theorem name_newDesc (slot : ℕ) {filename : List UInt8} (h : filename.length < 16) (fileSize now : UInt64) :
    (newDesc slot filename fileSize now).name = cStr filename := by
  have hlen : (cStr filename).length < 16 := (List.takeWhile_sublist _).length_le.trans_lt h
  have hcopy : ∀ i (hi : i < 16), (strncpy filename)[i] = (cStr filename).getD i 0 := by
    intro i hi
    have htake : (cStr filename).take 15 = cStr filename := List.take_of_length_le (by omega)
    rw [← htake]
    exact Vector.getElem_ofFn hi
  have hlist : (strncpy filename).toList = cStr filename ++ List.replicate (16 - (cStr filename).length) 0 := by
    apply List.ext_getElem
    · rw [Vector.length_toList, List.length_append, List.length_replicate]
      omega
    · intro i hi hi'
      rw [Vector.getElem_toList, hcopy i]
      rcases Nat.lt_or_ge i (cStr filename).length with hlt | hge
      · rw [List.getElem_append_left hlt, List.getD_eq_getElem _ _ hlt]
      · rw [List.getElem_append_right hge, List.getElem_replicate, List.getD_eq_default _ _ hge]
  rw [NVMeFileDesc.name, newDesc, hlist, cStr, List.takeWhile_append_of_pos]
  · rw [List.takeWhile_replicate]
    simp [cStr]
  · intro b hb
    have hb' : b ∈ filename.takeWhile (· ≠ 0) := hb
    have hne := List.mem_takeWhile_imp hb'
    exact hne

/-- A file with an explicit name has one that is read as the slot it gets. -/
def FollowsRule (v : NVMeVolume) : VolumeOp → Prop
  | .log (.createFile filename _ _) => ∀ slot, IsLeast {i | i < MAX_RECORDS ∧ i ∉ v.fileManager.files} slot →
      parseFileIdFromFilename (cStr filename) = slot
  | _ => True

/-- The names of all files are read as their numbers. -/
def NumberedNames (v : NVMeVolume) : Prop :=
  ∀ fileId desc, v.fileManager.files.lookup fileId = some desc → parseFileIdFromFilename desc.name = fileId

/-- A new file whose name is read as its number. -/
theorem NumberedNames.takeSlot (hv : v.NumberedNames) {slot : ℕ} {desc : NVMeFileDesc}
    (hdesc : parseFileIdFromFilename desc.name = slot) :
    NumberedNames { v with fileManager := v.fileManager.takeSlot slot desc } := by
  intro fileId desc' hdesc'
  dsimp only at hdesc'
  rw [files_takeSlot] at hdesc'
  rcases eq_or_ne fileId slot with rfl | hne
  · rw [AList.lookup_insert] at hdesc'
    cases hdesc'
    exact hdesc
  · rw [AList.lookup_insert_ne hne] at hdesc'
    exact hv fileId desc' hdesc'

/-- Deleting files leaves the names of the others. -/
theorem NumberedNames.of_erase (hv : v.NumberedNames) {v' : NVMeVolume} (fileId : ℕ)
    (hfiles : v'.fileManager.files = v.fileManager.files.erase fileId) : v'.NumberedNames := by
  intro i desc hdesc
  rw [hfiles] at hdesc
  rcases eq_or_ne i fileId with rfl | hne
  · rw [AList.lookup_erase] at hdesc
    cases hdesc
  · rw [AList.lookup_erase_ne hne] at hdesc
    exact hv i desc hdesc

/-- **One operation** that follows the rule keeps the names numbered. -/
theorem NumberedNames.apply (hinv : Inv v.fileManager) (hv : v.NumberedNames) {op : VolumeOp}
    (hop : v.FollowsRule op) : (v.apply op).NumberedNames := by
  cases op with
  | log op =>
      cases op with
      | createFile filename fileSize now =>
          rcases hinv.toCore.createFile filename fileSize now with ⟨-, heq⟩ | ⟨slot, hlen, hleast, heq⟩
          · simp only [NVMeVolume.apply, FileManager.apply, heq]
            exact hv
          · simp only [NVMeVolume.apply, FileManager.apply, heq]
            apply hv.takeSlot
            rw [name_newDesc slot hlen]
            exact hop slot hleast
      | createFileAuto fileSize now =>
          rcases hinv.toCore.createFileAuto fileSize now with ⟨-, heq⟩ | ⟨slot, hleast, heq⟩
          · simp only [NVMeVolume.apply, FileManager.apply, heq]
            exact hv
          · simp only [NVMeVolume.apply, FileManager.apply, heq]
            apply hv.takeSlot
            rw [name_newDesc slot (length_generateFilenameFromId hleast.1.1), cStr_generateFilenameFromId]
            apply parseFileIdFromFilename_generateFilenameFromId
            have hlt := hleast.1.1
            rw [MAX_RECORDS_eq] at hlt
            omega
      | deleteFile fileId => exact hv.of_erase fileId (files_deleteFile _ _)
      | forcePersist =>
          intro fileId desc hdesc
          apply hv fileId desc
          rw [← hdesc, NVMeVolume.apply, FileManager.apply, files_forcePersist]
  | hostFileDelete nvmeFileId =>
      rw [NVMeVolume.apply, hostFileDeleteManaged]
      cases hlook : v.fileManager.files.lookup nvmeFileId with
      | none => exact hv
      | some desc =>
          dsimp only
          rw [deviceFileDeleteSingleManaged]
          split_ifs
          · exact hv
          · apply hv.of_erase (parseFileIdFromFilename desc.name)
            dsimp only
            rw [files_forcePersist, files_deleteFile]
  | createPhysical filename => exact hv

/-- **The names stay numbered** along every run that follows the rule. -/
theorem numberedNames_run (hinv : Inv v.fileManager) (hv : v.NumberedNames) {ops : List VolumeOp}
    (hops : Along NVMeVolume.apply FollowsRule v ops) : (v.run ops).NumberedNames := by
  induction ops generalizing v with
  | nil => exact hv
  | cons op ops ih => exact ih (inv_apply hinv op) (hv.apply hinv hops.1) hops.2

/-- With numbered names every file is deleted by its number. -/
theorem NumberedNames.deleteRight (hinv : Inv v.fileManager) (hv : v.NumberedNames) {nvmeFileId : ℕ}
    {desc : NVMeFileDesc} (hdesc : v.fileManager.files.lookup nvmeFileId = some desc) :
    v.DeleteRight nvmeFileId desc :=
  (deleteRight_iff hinv hdesc).2 (hv nvmeFileId desc hdesc)

/-- With numbered names no two files share one, so only strings that are read as the number of a file and are
not its name are taken for it. -/
theorem NumberedNames.lookupRight_iff (hinv : Inv v.fileManager) (hv : v.NumberedNames) (filename : List UInt8) :
    v.fileManager.LookupRight filename ↔
      (parseFileIdFromFilename filename ∈ v.fileManager.files →
        v.fileManager.HasName (parseFileIdFromFilename filename) filename) := by
  rw [FileManager.lookupRight_iff hinv.toCore]
  constructor
  · intro h
    exact h.number
  · intro h
    refine ⟨h, ?_⟩
    rintro fileId fileId' ⟨desc, hdesc, rfl⟩ ⟨desc', hdesc', hname⟩
    rw [← hv fileId desc hdesc, ← hv fileId' desc' hdesc', hname]

/-! ### Every run -/

/-- A manager without a log has no files. -/
theorem exists_construct_none (threshold : ℕ) :
    ∃ m, construct none threshold = some m ∧ Inv m ∧ ∀ i, m.files.lookup i = none := by
  have hlaid : (LogHeader.initial MAGIC_NUMBER NVMeFileDesc.codec.size).Laid MAGIC_NUMBER 64 :=
    LogHeader.laid_initial MAGIC_NUMBER (by decide)
  obtain ⟨m, bits, hload, hinv, hbits, hlookup⟩ := logSound_initializeLogFile.load threshold
  refine ⟨m, hload, hinv, ?_⟩
  have hfree : bits = fun _ => false := by
    have hread := hbits _ hlaid
    rw [bitmapBits_initializeLogFile] at hread
    exact (Option.some.inj hread).symm
  intro i
  rw [hlookup _ hlaid i, hfree]
  exact if_neg fun hand => Bool.false_ne_true hand.2

/-- A manager can be constructed on every log that it re-initialises or some manager has written. -/
theorem exists_construct {content : Option ByteFile}
    (hcontent : needInitialize content = true ∨ ∃ log, content = some log ∧ Written log) (threshold : ℕ) :
    ∃ m, construct content threshold = some m ∧ Inv m := by
  rcases hcontent with hneed | ⟨log, rfl, hwritten⟩
  · exact construct_of_needInitialize hneed threshold
  · obtain ⟨m, bits, hload, hinv, -⟩ := hwritten.logSound.load threshold
    exact ⟨m, by rw [hwritten.logSound.construct_eq, hload], hinv⟩

/-- **When names and numbers correspond**: on every log that a manager can meet, with whatever physical files,
and after every sequence of operations.  A name is found rightly if and only if it resolves; a file is deleted
rightly by its number if and only if its name is read as that number. -/
theorem namesAndIds_iff {content : Option ByteFile}
    (hcontent : needInitialize content = true ∨ ∃ log, content = some log ∧ Written log) (threshold : ℕ) :
    ∃ m, construct content threshold = some m ∧ ∀ directory ops,
      let v := NVMeVolume.run ⟨m, directory⟩ ops
      (∀ filename, v.fileManager.LookupRight filename ↔ v.fileManager.NameResolves filename) ∧
        ∀ nvmeFileId desc, v.fileManager.files.lookup nvmeFileId = some desc →
          (v.DeleteRight nvmeFileId desc ↔ parseFileIdFromFilename desc.name = nvmeFileId) := by
  obtain ⟨m, hconstruct, hinv⟩ := exists_construct hcontent threshold
  refine ⟨m, hconstruct, ?_⟩
  intro directory ops
  have hrun : Inv (NVMeVolume.run ⟨m, directory⟩ ops).fileManager := NVMeVolume.inv_run hinv ops
  constructor
  · intro filename
    exact FileManager.lookupRight_iff hrun.toCore filename
  · intro nvmeFileId desc hdesc
    exact deleteRight_iff hrun hdesc

/-- A controller without a log. -/
theorem namesAndIds_iff_of_no_log :
    needInitialize none = true ∧ ∃ m, construct none 1000 = some m ∧ ∀ directory ops,
      let v := NVMeVolume.run ⟨m, directory⟩ ops
      (∀ filename, v.fileManager.LookupRight filename ↔ v.fileManager.NameResolves filename) ∧
        ∀ nvmeFileId desc, v.fileManager.files.lookup nvmeFileId = some desc →
          (v.DeleteRight nvmeFileId desc ↔ parseFileIdFromFilename desc.name = nvmeFileId) :=
  ⟨rfl, namesAndIds_iff (Or.inl rfl) 1000⟩

/-- The file "1" is created first and gets the slot 0, the file "a" gets the slot 1.  The name "1" is then taken
for the file "a", and deleting the file 0 removes the physical file "1" with the record of "a". -/
theorem not_namesAndIds_swapped :
    ∃ m, construct none 1000 = some m ∧
      let v := NVMeVolume.run ⟨m, {[49], [97]}⟩
        [.log (.createFile [49] 65536 1), .log (.createFile [97] 65536 2)]
      v.fileManager.getFileIdByFilename [49] = 1 ∧ v.fileManager.HasName 0 [49] ∧
        v.fileManager.HasName 1 [97] ∧ ¬v.fileManager.LookupRight [49] ∧
        ¬v.DeleteRight 0 (newDesc 0 [49] 65536 1) := by
  obtain ⟨m, hconstruct, hinv, hempty⟩ := exists_construct_none 1000
  refine ⟨m, hconstruct, ?_⟩
  intro v
  have hinvRun : Inv v.fileManager := NVMeVolume.inv_run hinv _
  have hrecords : v.fileManager.files.lookup 0 = some (newDesc 0 [49] 65536 1) ∧
      v.fileManager.files.lookup 1 = some (newDesc 1 [97] 65536 2) := by
    -- the first file takes the slot 0, the second one the slot 1
    have hfirst : m.createFile [49] 65536 1 =
        (some (newDesc 0 [49] 65536 1), m.takeSlot 0 (newDesc 0 [49] 65536 1)) := by
      apply hinv.toCore.createFile_of_isLeast (by decide)
      refine ⟨⟨by decide, AList.lookup_eq_none.1 (hempty 0)⟩, fun _ _ => Nat.zero_le _⟩
    have hinv' : Inv (m.takeSlot 0 (newDesc 0 [49] 65536 1)) :=
      hinv.toCore.takeSlot (by decide) (by decide)
    have hsecond : (m.takeSlot 0 (newDesc 0 [49] 65536 1)).createFile [97] 65536 2 =
        (some (newDesc 1 [97] 65536 2),
          (m.takeSlot 0 (newDesc 0 [49] 65536 1)).takeSlot 1 (newDesc 1 [97] 65536 2)) := by
      apply hinv'.toCore.createFile_of_isLeast (by decide)
      rw [files_takeSlot]
      refine ⟨⟨by decide, ?_⟩, ?_⟩
      · rw [AList.mem_insert]
        rintro (h | h)
        · exact absurd h (by decide)
        · exact AList.lookup_eq_none.1 (hempty 1) h
      · rintro slot ⟨-, hslot⟩
        rw [AList.mem_insert, not_or] at hslot
        omega
    have hfiles : v.fileManager.files =
        (m.files.insert 0 (newDesc 0 [49] 65536 1)).insert 1 (newDesc 1 [97] 65536 2) := by
      simp only [v, NVMeVolume.run, List.foldl_cons, List.foldl_nil, NVMeVolume.apply, FileManager.apply, hfirst,
        hsecond, files_takeSlot]
    rw [hfiles]
    refine ⟨?_, AList.lookup_insert _⟩
    rw [AList.lookup_insert_ne Nat.zero_ne_one, AList.lookup_insert]
  obtain ⟨hzero, hone⟩ := hrecords
  have hnumber : parseFileIdFromFilename [49] = 1 := by decide
  have hname₀ : (newDesc 0 [49] 65536 1).name = [49] := by decide
  have hname₁ : (newDesc 1 [97] 65536 2).name = [97] := by decide
  have hhas : v.fileManager.HasName 1 [97] := ⟨_, hone, hname₁⟩
  refine ⟨?_, ⟨_, hzero, hname₀⟩, hhas, ?_, ?_⟩
  · have hmem : parseFileIdFromFilename [49] ∈ v.fileManager.files := by
      rw [hnumber]
      exact hhas.mem
    rw [getFileIdByFilename_of_mem hinvRun.toCore hmem, hnumber]
  · intro hright
    have hresolves := (FileManager.lookupRight_iff hinvRun.toCore [49]).1 hright
    have hother : v.fileManager.HasName 1 [49] := by
      have hnum := hresolves.number
      rw [hnumber] at hnum
      exact hnum hhas.mem
    exact absurd (hhas.unique hother) (by decide)
  · intro hright
    have hparse := (deleteRight_iff hinvRun hzero).1 hright
    rw [hname₀, hnumber] at hparse
    exact absurd hparse (by decide)

end NVMeVolume
end GeminiFS
end InfiniKV
