/-
**Opening an NVMe file, and creating it if need be.**

`g_open` looks a name up in the log and in the directory.  A file that is in both is opened; a record without a
physical file is dropped, a physical file without a record is removed, and then the file is created.  A file for
the host gets its record from `g_open`.  A file for the device gets one from `device_file_create_managed`
already, and another one from `g_open`; and the first one stays behind when a later step fails.

Main definitions:

* `InfiniKV.GeminiFS.OpenOutcomes` — what the calls into the file system and into CUDA give;
* `InfiniKV.GeminiFS.NVMeVolume.gOpen` — `g_open`;
* `InfiniKV.GeminiFS.NVMeVolume.OneRecordPerName` — a call leaves one record for its name;
* `InfiniKV.GeminiFS.NVMeVolume.AddsAtMostOnce` — when it does.

Main results:

* `InfiniKV.GeminiFS.NVMeVolume.createHost_spec`, `createDevice_spec` — what creating a file does;
* `InfiniKV.GeminiFS.NVMeVolume.gOpen_of_hasName` — a file that is in the log and in the directory is opened;
* `InfiniKV.GeminiFS.NVMeVolume.oneRecordPerName_iff` — **when a call keeps one record per name**.
-/

import InfiniKV.NvmeNames

set_option relaxedAutoImplicit false
set_option autoImplicit false

namespace InfiniKV
namespace GeminiFS

/-- `O_HOST`. -/
def O_HOST : UInt32 := 0x10000000

/-- `O_DEVICE`. -/
def O_DEVICE : UInt32 := 0x20000000

/-- What the calls into the file system and into CUDA give: whether a file can be opened, created and filled with
space, whether its header can be copied to the device and made an `NVMe_File` there, and what the clock shows
when the first and when the second record is written.  Failed assertions, which end the process, are left out. -/
structure OpenOutcomes where
  openExisting : Bool
  openCreate : Bool
  fallocate : Bool
  toDevice : Bool
  now : UInt64
  nowAgain : UInt64

namespace NVMeVolume

open FileManager

variable (o : OpenOutcomes) (v : NVMeVolume) (filename : List UInt8) (fileSize : UInt64)

/-! ### Creating and opening files -/

/-- `create_host_fd_internal`.  A file without space stays behind. -/
def createHostFdInternal : Bool × NVMeVolume :=
  if o.openCreate then (o.fallocate, { v with directory := insert (cStr filename) v.directory })
  else (false, v)

/-- `createFile` of the file manager of a volume. -/
def createRecord (now : UInt64) : Bool × NVMeVolume :=
  let created := v.fileManager.createFile filename fileSize now
  (created.1.isSome, { v with fileManager := created.2 })

/-- `device_file_create_managed`.  What fails after the record is written leaves it in the log. -/
def deviceFileCreateManaged : Bool × NVMeVolume :=
  let host := createHostFdInternal o v filename
  if host.1 then
    let recorded := createRecord host.2 filename fileSize o.now
    if recorded.1 then (o.toDevice, recorded.2) else (false, recorded.2)
  else (false, host.2)

/-- `device_file_open_managed`. -/
def deviceFileOpenManaged : Bool :=
  if cStr filename ∈ v.directory then o.openExisting && o.toDevice else false

/-- The part of `g_open` that creates a file for the host. -/
def createHost : Bool × NVMeVolume :=
  let host := createHostFdInternal o v filename
  if host.1 then
    let recorded := createRecord host.2 filename fileSize o.now
    if recorded.1 then (true, recorded.2)
    else (false, { recorded.2 with directory := recorded.2.directory.erase (cStr filename) })
  else (false, host.2)

/-- The part of `g_open` that creates a file for the device. -/
def createDevice : Bool × NVMeVolume :=
  let device := deviceFileCreateManaged o v filename fileSize
  if device.1 then
    let recorded := createRecord device.2 filename fileSize o.nowAgain
    if recorded.1 then (true, recorded.2)
    else (false, { recorded.2 with directory := recorded.2.directory.erase (cStr filename) })
  else (false, device.2)

/-- The flags with the default, which is the host. -/
def defaultFlags (oFlag : UInt32) : UInt32 :=
  if oFlag &&& O_HOST = 0 ∧ oFlag &&& O_DEVICE = 0 then oFlag ||| O_HOST else oFlag

/-- The part of `g_open` for a file that is not in the log.  A physical file with the name is removed. -/
def createNew (oFlag : UInt32) : Bool × NVMeVolume :=
  let v := { v with directory := v.directory.erase (cStr filename) }
  if oFlag &&& O_HOST ≠ 0 then createHost o v filename fileSize
  else createDevice o v filename fileSize

/-- **`g_open`**: whether it gives a handle, and the volume that it leaves behind. -/
def gOpen (oFlag : UInt32) : Bool × NVMeVolume :=
  if oFlag &&& O_HOST ≠ 0 ∧ oFlag &&& O_DEVICE ≠ 0 then (false, v)
  else
    let oFlag := defaultFlags oFlag
    let fileId := v.fileManager.getFileIdByFilename filename
    if fileId ≠ UINT32_MAX then
      if cStr filename ∈ v.directory then
        (if oFlag &&& O_HOST ≠ 0 then o.openExisting else deviceFileOpenManaged o v filename, v)
      else createNew o { v with fileManager := (v.fileManager.deleteFile fileId).2 } filename fileSize oFlag
    else createNew o v filename fileSize oFlag

/-! ### What creating a file does -/

/-- The volume with a record in a slot. -/
def withRecord (slot : ℕ) (desc : NVMeFileDesc) : NVMeVolume :=
  { v with fileManager := v.fileManager.takeSlot slot desc }

theorem files_withRecord (v : NVMeVolume) (slot : ℕ) (desc : NVMeFileDesc) :
    (v.withRecord slot desc).fileManager.files = v.fileManager.files.insert slot desc := files_takeSlot _ _ _

/-- The smallest slot of a log that is free. -/
def FreeSlot (slot : ℕ) : Prop := IsLeast {i | i < MAX_RECORDS ∧ i ∉ v.fileManager.files} slot

variable {o v filename fileSize}

/-- A slot that is taken is free no more; the others are as free as before. -/
theorem freeSlot_withRecord {slot slot' : ℕ} {desc : NVMeFileDesc}
    (h : (v.withRecord slot desc).FreeSlot slot') :
    slot' ≠ slot ∧ slot' < MAX_RECORDS ∧ slot' ∉ v.fileManager.files := by
  have hnot : slot' ∉ (v.withRecord slot desc).fileManager.files := h.1.2
  rw [files_withRecord, AList.mem_insert, not_or] at hnot
  exact ⟨hnot.1, h.1.1, hnot.2⟩

/-- There is a smallest free slot unless all slots are taken. -/
theorem exists_freeSlot {slot : ℕ} (hlt : slot < MAX_RECORDS) (hfree : slot ∉ v.fileManager.files) :
    ∃ slot', v.FreeSlot slot' := by
  classical
  have hex : ∃ i, i < MAX_RECORDS ∧ i ∉ v.fileManager.files := ⟨slot, hlt, hfree⟩
  exact ⟨Nat.find hex, Nat.find_spec hex, fun i hi => Nat.find_min' hex hi⟩

/-- A record is written in the smallest free slot, if there is one. -/
theorem createRecord_spec (fileSize : UInt64) (hv : Inv v.fileManager) (hlen : filename.length < 16)
    (now : UInt64) :
    ((∀ slot, ¬v.FreeSlot slot) ∧ createRecord v filename fileSize now = (false, v)) ∨
    ∃ slot, v.FreeSlot slot ∧ createRecord v filename fileSize now =
      (true, v.withRecord slot (newDesc slot filename fileSize now)) := by
  rcases hv.toCore.createFile filename fileSize now with ⟨hwhy, heq⟩ | ⟨slot, -, hleast, heq⟩
  · left
    constructor
    · intro slot hslot
      rcases hwhy with hlong | hfull
      · omega
      · exact hslot.1.2 (hfull slot hslot.1.1)
    · rw [createRecord, heq]
      rfl
  · right
    refine ⟨slot, hleast, ?_⟩
    rw [createRecord, heq]
    rfl

/-- A record that is written keeps the log sound. -/
theorem inv_withRecord (hv : Inv v.fileManager) {slot : ℕ} (hslot : v.FreeSlot slot) (now : UInt64) :
    Inv (v.withRecord slot (newDesc slot filename fileSize now)).fileManager :=
  hv.toCore.takeSlot hslot.1.1 (toNat_slotIndex hslot.1.1 _ _ _)

/-- Creating the physical file leaves the log alone. -/
theorem createHostFdInternal_spec (o : OpenOutcomes) (v : NVMeVolume) (filename : List UInt8) :
    (createHostFdInternal o v filename).1 = (o.openCreate && o.fallocate) ∧
      (createHostFdInternal o v filename).2.fileManager = v.fileManager ∧
      ((createHostFdInternal o v filename).1 = true →
        cStr filename ∈ (createHostFdInternal o v filename).2.directory) := by
  rw [createHostFdInternal]
  cases o.openCreate with
  | false => exact ⟨rfl, rfl, fun h => absurd h Bool.false_ne_true⟩
  | true =>
      refine ⟨rfl, rfl, ?_⟩
      intro _
      exact Finset.mem_insert_self _ _

/-- **Creating a file for the host** fails without a change of the log, or writes one record. -/
theorem createHost_spec (o : OpenOutcomes) (fileSize : UInt64) (hv : Inv v.fileManager)
    (hlen : filename.length < 16) :
    ((createHost o v filename fileSize).1 = false ∧
      (createHost o v filename fileSize).2.fileManager = v.fileManager ∧
      ((o.openCreate && o.fallocate) = false ∨ ∀ slot, ¬v.FreeSlot slot)) ∨
    ∃ slot, (o.openCreate && o.fallocate) = true ∧ v.FreeSlot slot ∧
      (createHost o v filename fileSize).1 = true ∧
      (createHost o v filename fileSize).2.fileManager =
        v.fileManager.takeSlot slot (newDesc slot filename fileSize o.now) ∧
      cStr filename ∈ (createHost o v filename fileSize).2.directory := by
  obtain ⟨hok, hlog, hmem⟩ := createHostFdInternal_spec o v filename
  rw [createHost]
  cases hfd : createHostFdInternal o v filename with
  | mk ok v₁ =>
      rw [hfd] at hok hlog hmem
      dsimp only at hok hlog hmem ⊢
      cases ok with
      | false => exact Or.inl ⟨rfl, hlog, Or.inl hok.symm⟩
      | true =>
          have hv₁ : Inv v₁.fileManager := by
            rw [hlog]
            exact hv
          have hslots : ∀ slot, v₁.FreeSlot slot ↔ v.FreeSlot slot := by
            intro slot
            rw [FreeSlot, FreeSlot, hlog]
          rcases createRecord_spec fileSize hv₁ hlen o.now with ⟨hfull, heq⟩ | ⟨slot, hslot, heq⟩
          · left
            rw [heq]
            refine ⟨rfl, hlog, Or.inr ?_⟩
            intro slot hslot
            exact hfull slot ((hslots slot).2 hslot)
          · right
            rw [heq]
            refine ⟨slot, hok.symm, (hslots slot).1 hslot, rfl, ?_, hmem rfl⟩
            rw [← hlog]
            rfl

/-- **Creating a file for the device** fails without a change of the log, or writes a record; then it writes
another one, or fails with the first one in the log. -/
theorem createDevice_spec (o : OpenOutcomes) (fileSize : UInt64) (hv : Inv v.fileManager)
    (hlen : filename.length < 16) :
    ((createDevice o v filename fileSize).1 = false ∧
      (createDevice o v filename fileSize).2.fileManager = v.fileManager ∧
      ((o.openCreate && o.fallocate) = false ∨ ∀ slot, ¬v.FreeSlot slot)) ∨
    ∃ slot, (o.openCreate && o.fallocate) = true ∧ v.FreeSlot slot ∧
      (((createDevice o v filename fileSize).1 = false ∧
        (createDevice o v filename fileSize).2.fileManager.files =
          v.fileManager.files.insert slot (newDesc slot filename fileSize o.now) ∧
        (o.toDevice = true → ∀ slot', slot' < MAX_RECORDS → slot' ∉ v.fileManager.files → slot' = slot)) ∨
      ((createDevice o v filename fileSize).1 = true ∧ o.toDevice = true ∧
        ∃ slot', slot' ≠ slot ∧ slot' < MAX_RECORDS ∧ slot' ∉ v.fileManager.files ∧
          (createDevice o v filename fileSize).2.fileManager.files =
            (v.fileManager.files.insert slot (newDesc slot filename fileSize o.now)).insert slot'
              (newDesc slot' filename fileSize o.nowAgain))) := by
  obtain ⟨hok, hlog, -⟩ := createHostFdInternal_spec o v filename
  rw [createDevice, deviceFileCreateManaged]
  cases hfd : createHostFdInternal o v filename with
  | mk ok v₁ =>
      rw [hfd] at hok hlog
      dsimp only at hok hlog ⊢
      cases ok with
      | false => exact Or.inl ⟨rfl, hlog, Or.inl hok.symm⟩
      | true =>
          have hv₁ : Inv v₁.fileManager := by
            rw [hlog]
            exact hv
          have hslots : ∀ slot, v₁.FreeSlot slot ↔ v.FreeSlot slot := by
            intro slot
            rw [FreeSlot, FreeSlot, hlog]
          rcases createRecord_spec fileSize hv₁ hlen o.now with ⟨hfull, heq⟩ | ⟨slot, hslot, heq⟩
          · left
            rw [heq]
            refine ⟨rfl, hlog, Or.inr ?_⟩
            intro slot hslot
            exact hfull slot ((hslots slot).2 hslot)
          · right
            rw [heq]
            refine ⟨slot, hok.symm, (hslots slot).1 hslot, ?_⟩
            cases hdev : o.toDevice with
            | false =>
                left
                refine ⟨rfl, ?_, fun h => absurd h Bool.false_ne_true⟩
                rw [← hlog]
                exact files_withRecord _ _ _
            | true =>
                -- the second record goes to the next free slot
                rcases createRecord_spec fileSize (inv_withRecord hv₁ hslot o.now) hlen o.nowAgain with
                  ⟨hfull, heq'⟩ | ⟨slot', hslot', heq'⟩
                · left
                  dsimp only
                  rw [if_pos rfl, if_pos rfl, heq']
                  refine ⟨rfl, ?_, ?_⟩
                  · rw [← hlog]
                    exact files_withRecord _ _ _
                  · intro _ slot' hlt hfree
                    by_contra hne
                    have hfree' : slot' ∉
                        (v₁.withRecord slot (newDesc slot filename fileSize o.now)).fileManager.files := by
                      rw [files_withRecord, AList.mem_insert, not_or, hlog]
                      exact ⟨hne, hfree⟩
                    obtain ⟨slot'', hslot''⟩ := exists_freeSlot hlt hfree'
                    exact hfull slot'' hslot''
                · right
                  obtain ⟨hne, hlt, hfree⟩ := freeSlot_withRecord hslot'
                  dsimp only
                  rw [if_pos rfl, if_pos rfl, heq']
                  refine ⟨rfl, rfl, slot', hne, hlt, ?_, ?_⟩
                  · rw [← hlog]
                    exact hfree
                  · rw [← hlog]
                    rw [← files_withRecord v₁]
                    exact files_withRecord _ _ _

/-! ### What a call does -/

/-- A file with a name is found in the log. -/
theorem getFileIdByFilename_ne_of_hasName (hv : Inv v.fileManager) {fileId : ℕ}
    (h : v.fileManager.HasName fileId filename) :
    v.fileManager.getFileIdByFilename filename ≠ UINT32_MAX := by
  by_cases hmem : parseFileIdFromFilename filename ∈ v.fileManager.files
  · rw [getFileIdByFilename_of_mem hv.toCore hmem]
    exact hv.ne_UINT32_MAX hmem
  · rcases getFileIdByFilename_of_not_mem hmem with hhas | ⟨-, hmissing⟩
    · exact hv.ne_UINT32_MAX hhas.mem
    · exact absurd h (hmissing fileId)

variable (o v filename fileSize)

/-- Both flags are given. -/
def BothFlags (oFlag : UInt32) : Prop := oFlag &&& O_HOST ≠ 0 ∧ oFlag &&& O_DEVICE ≠ 0

/-- A file is opened for the host. -/
def ForHost (oFlag : UInt32) : Prop := defaultFlags oFlag &&& O_HOST ≠ 0

theorem not_bothFlags_iff {oFlag : UInt32} :
    ¬BothFlags oFlag ↔ ¬(oFlag &&& O_HOST ≠ 0 ∧ oFlag &&& O_DEVICE ≠ 0) := Iff.rfl

theorem forHost_iff {oFlag : UInt32} : ForHost oFlag ↔ defaultFlags oFlag &&& O_HOST ≠ 0 := Iff.rfl

/-- A name is found in the log, and a physical file has it. -/
def IsExisting : Prop :=
  v.fileManager.getFileIdByFilename filename ≠ UINT32_MAX ∧ cStr filename ∈ v.directory

/-- The volume without the record that is found for a name, if one is. -/
def dropRecord : NVMeVolume :=
  if v.fileManager.getFileIdByFilename filename ≠ UINT32_MAX then
    { v with fileManager := (v.fileManager.deleteFile (v.fileManager.getFileIdByFilename filename)).2 }
  else v

variable {o v filename fileSize}

/-- A call with both flags does nothing. -/
theorem gOpen_of_bothFlags {oFlag : UInt32} (h : BothFlags oFlag) :
    gOpen o v filename fileSize oFlag = (false, v) := by
  rw [gOpen]
  exact if_pos h

/-- A call for an existing file changes nothing. -/
theorem gOpen_of_isExisting (o : OpenOutcomes) (fileSize : UInt64) {oFlag : UInt32}
    (hflags : ¬BothFlags oFlag) (h : v.IsExisting filename) :
    (gOpen o v filename fileSize oFlag).2 = v ∧
      ((gOpen o v filename fileSize oFlag).1 = true ↔
        o.openExisting = true ∧ (¬ForHost oFlag → o.toDevice = true)) := by
  have hcall : gOpen o v filename fileSize oFlag =
      (if defaultFlags oFlag &&& O_HOST ≠ 0 then o.openExisting else deviceFileOpenManaged o v filename, v) := by
    rw [gOpen, if_neg (not_bothFlags_iff.1 hflags)]
    dsimp only
    rw [if_pos h.1, if_pos h.2]
  rw [hcall]
  refine ⟨rfl, ?_⟩
  dsimp only
  by_cases hhost : ForHost oFlag
  · rw [if_pos (forHost_iff.1 hhost)]
    simp only [hhost, not_true_eq_false, false_implies, and_true]
  · rw [if_neg fun h => hhost (forHost_iff.2 h), deviceFileOpenManaged, if_pos h.2]
    simp only [hhost, not_false_eq_true, true_implies, Bool.and_eq_true]

/-- A call for any other file creates it, without the record that is found for its name. -/
theorem gOpen_of_not_isExisting {oFlag : UInt32} (hflags : ¬BothFlags oFlag) (h : ¬v.IsExisting filename) :
    gOpen o v filename fileSize oFlag =
      createNew o (v.dropRecord filename) filename fileSize (defaultFlags oFlag) := by
  rw [gOpen, if_neg (not_bothFlags_iff.1 hflags)]
  dsimp only
  rw [dropRecord]
  by_cases hlog : v.fileManager.getFileIdByFilename filename ≠ UINT32_MAX
  · rw [if_pos hlog, if_pos hlog, if_neg fun hdir => h ⟨hlog, hdir⟩]
  · rw [if_neg hlog, if_neg hlog]

/-- A record that is dropped leaves the others. -/
theorem dropRecord_spec (filename : List UInt8) (hv : Inv v.fileManager) :
    Inv (v.dropRecord filename).fileManager ∧
      ∀ fileId desc, (v.dropRecord filename).fileManager.files.lookup fileId = some desc →
        v.fileManager.files.lookup fileId = some desc := by
  rw [dropRecord]
  split_ifs with hlog
  · refine ⟨hv.deleteFile _, ?_⟩
    intro fileId desc hdesc
    dsimp only at hdesc
    rw [files_deleteFile] at hdesc
    rcases eq_or_ne fileId (v.fileManager.getFileIdByFilename filename) with rfl | hne
    · rw [AList.lookup_erase] at hdesc
      cases hdesc
    · rwa [AList.lookup_erase_ne hne] at hdesc
  · exact ⟨hv, fun _ _ hdesc => hdesc⟩

/-! ### One record per name -/

/-- A name for a file: short enough for a record, and without a zero byte. -/
structure ValidName (filename : List UInt8) : Prop where
  short : filename.length < 16
  noZero : cStr filename = filename

/-- A call leaves one record for its name: if it succeeds, exactly one record has the name and there is the
physical file, and a second call adds no record; if it fails, no record with the name is new. -/
structure OneRecordPerName (o : OpenOutcomes) (v : NVMeVolume) (filename : List UInt8) (fileSize : UInt64)
    (oFlag : UInt32) : Prop where
  unique : (gOpen o v filename fileSize oFlag).1 = true →
    ∃! fileId, (gOpen o v filename fileSize oFlag).2.fileManager.HasName fileId filename
  physical : (gOpen o v filename fileSize oFlag).1 = true →
    filename ∈ (gOpen o v filename fileSize oFlag).2.directory
  again : (gOpen o v filename fileSize oFlag).1 = true → ∀ o' fileSize' oFlag' fileId desc,
    (gOpen o' (gOpen o v filename fileSize oFlag).2 filename fileSize' oFlag').2.fileManager.files.lookup fileId =
      some desc → (gOpen o v filename fileSize oFlag).2.fileManager.files.lookup fileId = some desc
  fails : (gOpen o v filename fileSize oFlag).1 = false → ∀ fileId desc,
    (gOpen o v filename fileSize oFlag).2.fileManager.files.lookup fileId = some desc → desc.name = filename →
      v.fileManager.files.lookup fileId = some desc

/-- When a call leaves one record.  A file that exists must be the only one with its name.  When a file is created
for the host, no other record may have its name.  When a file is created for the device, the second record must
fail, and the first one must be the very record that was dropped. -/
structure AddsAtMostOnce (o : OpenOutcomes) (v : NVMeVolume) (filename : List UInt8) (fileSize : UInt64)
    (oFlag : UInt32) : Prop where
  existing : v.IsExisting filename → o.openExisting = true → (¬ForHost oFlag → o.toDevice = true) →
    ∃! fileId, v.fileManager.HasName fileId filename
  forHost : ¬v.IsExisting filename → ForHost oFlag → (o.openCreate && o.fallocate) = true →
    (∃ slot, (v.dropRecord filename).FreeSlot slot) →
      ∀ fileId, ¬(v.dropRecord filename).fileManager.HasName fileId filename
  forDevice : ¬v.IsExisting filename → ¬ForHost oFlag → (o.openCreate && o.fallocate) = true →
    ∀ slot, (v.dropRecord filename).FreeSlot slot →
      v.fileManager.files.lookup slot = some (newDesc slot filename fileSize o.now) ∧
        (o.toDevice = true → ∀ slot', slot' < MAX_RECORDS →
          slot' ∉ (v.dropRecord filename).fileManager.files → slot' = slot)

variable {oFlag : UInt32}

/-- The names in a log with one more record. -/
theorem hasName_insert {m m' : FileManager} {slot : ℕ} {desc : NVMeFileDesc}
    (h : m'.files = m.files.insert slot desc) (fileId : ℕ) (name : List UInt8) :
    m'.HasName fileId name ↔ fileId = slot ∧ desc.name = name ∨ fileId ≠ slot ∧ m.HasName fileId name := by
  rw [HasName, h]
  rcases eq_or_ne fileId slot with rfl | hne
  · simp only [AList.lookup_insert, Option.some.injEq, exists_eq_left', true_and, ne_eq, not_true_eq_false,
      false_and, or_false]
  · rw [AList.lookup_insert_ne hne]
    simp only [hne, false_and, ne_eq, not_false_eq_true, true_and, false_or]
    rfl

/-- **A file that is in the log and in the directory is opened** by a second call, which changes nothing. -/
theorem gOpen_of_hasName (hv : Inv v.fileManager) (hname : ValidName filename) {fileId : ℕ}
    (h : v.fileManager.HasName fileId filename) (hdir : filename ∈ v.directory) :
    (gOpen o v filename fileSize oFlag).2 = v := by
  by_cases hflags : BothFlags oFlag
  · rw [gOpen_of_bothFlags hflags]
  · apply (gOpen_of_isExisting o fileSize hflags _).1
    refine ⟨getFileIdByFilename_ne_of_hasName hv h, ?_⟩
    rw [hname.noZero]
    exact hdir

/-- A call that fails and adds nothing to the log is right. -/
theorem OneRecordPerName.of_fails (hfails : (gOpen o v filename fileSize oFlag).1 = false)
    (hold : ∀ fileId desc, (gOpen o v filename fileSize oFlag).2.fileManager.files.lookup fileId = some desc →
      desc.name = filename → v.fileManager.files.lookup fileId = some desc) :
    OneRecordPerName o v filename fileSize oFlag := by
  have hnot : ¬(gOpen o v filename fileSize oFlag).1 = true := by
    rw [hfails]
    exact Bool.false_ne_true
  exact ⟨fun h => absurd h hnot, fun h => absurd h hnot, fun h => absurd h hnot, fun _ => hold⟩

/-- A call that succeeds is right if one record has the name. -/
theorem OneRecordPerName.of_succeeds (hname : ValidName filename)
    (hsucceeds : (gOpen o v filename fileSize oFlag).1 = true)
    (hinv : Inv (gOpen o v filename fileSize oFlag).2.fileManager)
    (hunique : ∃! fileId, (gOpen o v filename fileSize oFlag).2.fileManager.HasName fileId filename)
    (hdir : filename ∈ (gOpen o v filename fileSize oFlag).2.directory) :
    OneRecordPerName o v filename fileSize oFlag := by
  refine ⟨fun _ => hunique, fun _ => hdir, ?_, ?_⟩
  · intro _ o' fileSize' oFlag' fileId desc hdesc
    obtain ⟨fileId', hhas, -⟩ := hunique
    rw [gOpen_of_hasName hinv hname hhas hdir] at hdesc
    exact hdesc
  · intro hfails
    rw [hsucceeds] at hfails
    cases hfails

/-- A call for an existing file. -/
theorem oneRecordPerName_of_isExisting (hv : Inv v.fileManager) (hname : ValidName filename)
    (hflags : ¬BothFlags oFlag) (h : v.IsExisting filename) :
    OneRecordPerName o v filename fileSize oFlag ↔
      (o.openExisting = true → (¬ForHost oFlag → o.toDevice = true) →
        ∃! fileId, v.fileManager.HasName fileId filename) := by
  obtain ⟨hsame, hsucceeds⟩ := gOpen_of_isExisting o fileSize hflags h
  constructor
  · intro hright hopen hdevice
    have hunique := hright.unique (hsucceeds.2 ⟨hopen, hdevice⟩)
    rwa [hsame] at hunique
  · intro hcond
    cases hresult : (gOpen o v filename fileSize oFlag).1 with
    | false =>
        apply OneRecordPerName.of_fails hresult
        intro fileId desc hdesc _
        rwa [hsame] at hdesc
    | true =>
        obtain ⟨hopen, hdevice⟩ := hsucceeds.1 hresult
        apply OneRecordPerName.of_succeeds hname hresult
        · rwa [hsame]
        · rw [hsame]
          exact hcond hopen hdevice
        · rw [hsame, ← hname.noZero]
          exact h.2

/-- A call that creates a file for the host. -/
theorem oneRecordPerName_forHost (hv : Inv v.fileManager) (hname : ValidName filename)
    (hflags : ¬BothFlags oFlag) (h : ¬v.IsExisting filename) (hhost : ForHost oFlag) :
    OneRecordPerName o v filename fileSize oFlag ↔
      ((o.openCreate && o.fallocate) = true → (∃ slot, (v.dropRecord filename).FreeSlot slot) →
        ∀ fileId, ¬(v.dropRecord filename).fileManager.HasName fileId filename) := by
  obtain ⟨hdrop, hold⟩ := dropRecord_spec filename hv
  have hcall : gOpen o v filename fileSize oFlag = createHost o
      { v.dropRecord filename with directory := (v.dropRecord filename).directory.erase (cStr filename) }
        filename fileSize := by
    rw [gOpen_of_not_isExisting hflags h, createNew]
    exact if_pos hhost
  rcases createHost_spec (v := { v.dropRecord filename with
      directory := (v.dropRecord filename).directory.erase (cStr filename) }) o fileSize hdrop hname.short with
    ⟨hfails, hlog, hwhy⟩ | ⟨slot, hfd, hslot, hsucceeds, hlog, hdir⟩
  · rw [← hcall] at hfails hlog
    constructor
    · intro _ hfd hfree
      obtain ⟨slot, hslot⟩ := hfree
      rcases hwhy with hno | hfull
      · rw [hfd] at hno
        cases hno
      · exact absurd hslot (hfull slot)
    · intro _
      apply OneRecordPerName.of_fails hfails
      intro fileId desc hdesc _
      rw [hlog] at hdesc
      exact hold fileId desc hdesc
  · rw [← hcall] at hsucceeds hlog hdir
    rw [hname.noZero] at hdir
    have hnew : (newDesc slot filename fileSize o.now).name = filename := by
      rw [name_newDesc slot hname.short, hname.noZero]
    have hnames := hasName_insert ((congrArg FileManager.files hlog).trans (files_takeSlot _ _ _))
    constructor
    · -- a record with the name that was there would be a second one
      intro hright _ _ fileId hhas
      obtain ⟨fileId', -, hunique⟩ := hright.unique hsucceeds
      have hne : fileId ≠ slot := by
        rintro rfl
        exact hslot.1.2 hhas.mem
      have h₁ := hunique slot ((hnames slot filename).2 (Or.inl ⟨rfl, hnew⟩))
      have h₂ := hunique fileId ((hnames fileId filename).2 (Or.inr ⟨hne, hhas⟩))
      exact hne (h₂.trans h₁.symm)
    · intro hcond
      have hnone := hcond hfd ⟨slot, hslot⟩
      apply OneRecordPerName.of_succeeds hname hsucceeds
      · rw [hlog]
        exact inv_withRecord (v := v.dropRecord filename) hdrop hslot _
      · refine ⟨slot, (hnames slot filename).2 (Or.inl ⟨rfl, hnew⟩), ?_⟩
        intro fileId hhas
        rcases (hnames fileId filename).1 hhas with ⟨rfl, -⟩ | ⟨-, hhas⟩
        · rfl
        · exact absurd hhas (hnone fileId)
      · exact hdir

/-- A call that creates a file for the device. -/
theorem oneRecordPerName_forDevice (hv : Inv v.fileManager) (hname : ValidName filename)
    (hflags : ¬BothFlags oFlag) (h : ¬v.IsExisting filename) (hdevice : ¬ForHost oFlag) :
    OneRecordPerName o v filename fileSize oFlag ↔
      ((o.openCreate && o.fallocate) = true → ∀ slot, (v.dropRecord filename).FreeSlot slot →
        v.fileManager.files.lookup slot = some (newDesc slot filename fileSize o.now) ∧
          (o.toDevice = true → ∀ slot', slot' < MAX_RECORDS →
            slot' ∉ (v.dropRecord filename).fileManager.files → slot' = slot)) := by
  obtain ⟨hdrop, hold⟩ := dropRecord_spec filename hv
  have hcall : gOpen o v filename fileSize oFlag = createDevice o
      { v.dropRecord filename with directory := (v.dropRecord filename).directory.erase (cStr filename) }
        filename fileSize := by
    rw [gOpen_of_not_isExisting hflags h, createNew]
    exact if_neg hdevice
  have hnew : ∀ slot now, (newDesc slot filename fileSize now).name = filename := by
    intro slot now
    rw [name_newDesc slot hname.short, hname.noZero]
  rcases createDevice_spec (v := { v.dropRecord filename with
      directory := (v.dropRecord filename).directory.erase (cStr filename) }) o fileSize hdrop hname.short with
    ⟨hfails, hlog, hwhy⟩ | ⟨slot, hfd, hslot, hrest⟩
  · rw [← hcall] at hfails hlog
    constructor
    · intro _ hfd slot hslot
      rcases hwhy with hno | hfull
      · rw [hfd] at hno
        cases hno
      · exact absurd hslot (hfull slot)
    · intro _
      apply OneRecordPerName.of_fails hfails
      intro fileId desc hdesc _
      rw [hlog] at hdesc
      exact hold fileId desc hdesc
  · rw [← hcall] at hrest
    rcases hrest with ⟨hfails, hfiles, hsecond⟩ | ⟨hsucceeds, htoDevice, slot', hne, hlt, hfree, hfiles⟩
    · constructor
      · -- the record that was written stays
        intro hright _ slot' hslot'
        obtain rfl := hslot'.unique hslot
        refine ⟨?_, hsecond⟩
        apply hright.fails hfails _ _ _ (hnew _ _)
        rw [hfiles, AList.lookup_insert]
      · intro hcond
        apply OneRecordPerName.of_fails hfails
        intro fileId desc hdesc _
        rw [hfiles] at hdesc
        rcases eq_or_ne fileId slot with rfl | hne
        · rw [AList.lookup_insert] at hdesc
          rw [← hdesc]
          exact (hcond hfd fileId hslot).1
        · rw [AList.lookup_insert_ne hne] at hdesc
          exact hold fileId desc hdesc
    · constructor
      · -- both records have the name
        intro hright
        obtain ⟨fileId, -, hunique⟩ := hright.unique hsucceeds
        have h₁ := hunique slot ⟨newDesc slot filename fileSize o.now, by
          rw [hfiles, AList.lookup_insert_ne hne.symm, AList.lookup_insert], hnew _ _⟩
        have h₂ := hunique slot' ⟨newDesc slot' filename fileSize o.nowAgain, by
          rw [hfiles, AList.lookup_insert], hnew _ _⟩
        exact absurd (h₂.trans h₁.symm) hne
      · intro hcond
        exact absurd ((hcond hfd slot hslot).2 htoDevice slot' hlt hfree) hne

/-- **When a call keeps one record per name**: on every log that a manager can meet, after every sequence of
operations, and for every name, size and flags, whatever the calls into the file system and CUDA give. -/
theorem oneRecordPerName_iff {content : Option ByteFile}
    (hcontent : needInitialize content = true ∨ ∃ log, content = some log ∧ Written log) (threshold : ℕ) :
    ∃ m, construct content threshold = some m ∧ ∀ directory ops o filename fileSize oFlag,
      ValidName filename →
        let v := NVMeVolume.run ⟨m, directory⟩ ops
        (OneRecordPerName o v filename fileSize oFlag ↔
          BothFlags oFlag ∨ AddsAtMostOnce o v filename fileSize oFlag) := by
  obtain ⟨m, hconstruct, hm⟩ := exists_construct hcontent threshold
  refine ⟨m, hconstruct, ?_⟩
  intro directory ops o filename fileSize oFlag hname v
  have hv : Inv v.fileManager := NVMeVolume.inv_run hm ops
  by_cases hflags : BothFlags oFlag
  · have hcall : gOpen o v filename fileSize oFlag = (false, v) := gOpen_of_bothFlags hflags
    refine ⟨fun _ => Or.inl hflags, fun _ => ?_⟩
    apply OneRecordPerName.of_fails
    · rw [hcall]
    · intro fileId desc hdesc _
      rwa [hcall] at hdesc
  · rw [or_iff_right hflags]
    by_cases hexisting : v.IsExisting filename
    · rw [oneRecordPerName_of_isExisting hv hname hflags hexisting]
      constructor
      · intro hcond
        exact ⟨fun _ => hcond, fun h => absurd hexisting h, fun h => absurd hexisting h⟩
      · intro hcond
        exact hcond.existing hexisting
    · by_cases hhost : ForHost oFlag
      · rw [oneRecordPerName_forHost hv hname hflags hexisting hhost]
        constructor
        · intro hcond
          exact ⟨fun h => absurd h hexisting, fun _ _ => hcond, fun _ h => absurd hhost h⟩
        · intro hcond
          exact hcond.forHost hexisting hhost
      · rw [oneRecordPerName_forDevice hv hname hflags hexisting hhost]
        constructor
        · intro hcond
          exact ⟨fun h => absurd h hexisting, fun _ h => absurd h hhost, fun _ _ => hcond⟩
        · intro hcond
          exact hcond.forDevice hexisting hhost

/-- The name "a", on a controller without a log. -/
theorem oneRecordPerName_iff_of_no_log :
    needInitialize none = true ∧ ValidName [97] ∧ ∃ m, construct none 1000 = some m ∧
      ∀ directory ops o fileSize oFlag,
        let v := NVMeVolume.run ⟨m, directory⟩ ops
        (OneRecordPerName o v [97] fileSize oFlag ↔
          BothFlags oFlag ∨ AddsAtMostOnce o v [97] fileSize oFlag) := by
  have hname : ValidName [97] := ⟨by decide, by decide⟩
  have hneed : needInitialize none = true := rfl
  obtain ⟨m, hconstruct, hm⟩ := oneRecordPerName_iff (Or.inl hneed) 1000
  refine ⟨hneed, hname, m, hconstruct, ?_⟩
  intro directory ops o fileSize oFlag
  exact hm directory ops o [97] fileSize oFlag hname

/-- Every call gives what it is asked for. -/
def allSucceed : OpenOutcomes := ⟨true, true, true, true, 1, 2⟩

/-- Creating the file "a" for the device on a controller without a log succeeds, and leaves two records. -/
theorem not_oneRecordPerName_forDevice :
    ∃ m, construct none 1000 = some m ∧ (gOpen allSucceed ⟨m, ∅⟩ [97] 65536 O_DEVICE).1 = true ∧
      (∃ i j, i ≠ j ∧ (gOpen allSucceed ⟨m, ∅⟩ [97] 65536 O_DEVICE).2.fileManager.HasName i [97] ∧
        (gOpen allSucceed ⟨m, ∅⟩ [97] 65536 O_DEVICE).2.fileManager.HasName j [97]) ∧
      ¬OneRecordPerName allSucceed ⟨m, ∅⟩ [97] 65536 O_DEVICE := by
  obtain ⟨m, hconstruct, hinv, hempty⟩ := exists_construct_none 1000
  have hlen : ([97] : List UInt8).length < 16 := by decide
  have hflags : ¬BothFlags O_DEVICE := by
    rintro ⟨hhost, -⟩
    exact hhost (by decide)
  have hdevice : ¬ForHost O_DEVICE := fun h => h (by decide)
  have hexisting : ¬IsExisting ⟨m, ∅⟩ [97] := fun h => absurd h.2 (Finset.notMem_empty _)
  have hname : ∀ slot now, (newDesc slot [97] 65536 now).name = [97] := fun slot now =>
    name_newDesc slot (by decide) _ _
  have hv : Inv (NVMeVolume.mk m ∅).fileManager := hinv
  obtain ⟨hdrop, hold⟩ := dropRecord_spec [97] hv
  -- no slot is taken
  have hfree : ∀ slot, slot ∉ (dropRecord ⟨m, ∅⟩ [97]).fileManager.files := by
    intro slot hmem
    rw [← AList.lookup_isSome] at hmem
    obtain ⟨desc, hdesc⟩ := Option.isSome_iff_exists.1 hmem
    have hnone := hold slot desc hdesc
    rw [show (NVMeVolume.mk m ∅).fileManager.files.lookup slot = none from hempty slot] at hnone
    cases hnone
  have hcall : gOpen allSucceed ⟨m, ∅⟩ [97] 65536 O_DEVICE = createDevice allSucceed
      { dropRecord ⟨m, ∅⟩ [97] with directory := (dropRecord ⟨m, ∅⟩ [97]).directory.erase (cStr [97]) }
        [97] 65536 := by
    rw [gOpen_of_not_isExisting hflags hexisting, createNew]
    exact if_neg hdevice
  refine ⟨m, hconstruct, ?_⟩
  rcases createDevice_spec (v := { dropRecord ⟨m, ∅⟩ [97] with
      directory := (dropRecord ⟨m, ∅⟩ [97]).directory.erase (cStr [97]) }) allSucceed 65536 hdrop hlen with ⟨-, -, hwhy⟩ | ⟨slot, -, hslot, hrest⟩
  · rcases hwhy with hno | hfull
    · cases hno
    · exact absurd ⟨⟨by decide, hfree 0⟩, fun _ _ => Nat.zero_le _⟩ (hfull 0)
  · rw [← hcall] at hrest
    rcases hrest with ⟨-, -, hsecond⟩ | ⟨hsucceeds, -, slot', hne, -, -, hfiles⟩
    · have h₀ := hsecond rfl 0 (by decide) (hfree 0)
      have h₁ := hsecond rfl 1 (by decide) (hfree 1)
      exact absurd (h₁.trans h₀.symm) Nat.one_ne_zero
    · have hhas : (gOpen allSucceed ⟨m, ∅⟩ [97] 65536 O_DEVICE).2.fileManager.HasName slot [97] := by
        refine ⟨newDesc slot [97] 65536 allSucceed.now, ?_, hname _ _⟩
        rw [hfiles, AList.lookup_insert_ne hne.symm, AList.lookup_insert]
      have hhas' : (gOpen allSucceed ⟨m, ∅⟩ [97] 65536 O_DEVICE).2.fileManager.HasName slot' [97] := by
        refine ⟨newDesc slot' [97] 65536 allSucceed.nowAgain, ?_, hname _ _⟩
        rw [hfiles, AList.lookup_insert]
      refine ⟨hsucceeds, ⟨slot, slot', hne.symm, hhas, hhas'⟩, ?_⟩
      intro hright
      obtain ⟨fileId, -, hunique⟩ := hright.unique hsucceeds
      exact hne ((hunique slot' hhas').trans (hunique slot hhas).symm)

end NVMeVolume
end GeminiFS
end InfiniKV
