/-
**The log of the GPU file manager.**

A GPU file manager that begins without a log, or on one that a manager has left in order, keeps slots and
files in step over every sequence of operations, and the next manager on its log finds them again.  On
any other log it works as if it had files, but writes a log that the next manager rejects: an existing
file is never given a header, and a header with a wrong magic number is written back as it was read.

Main definitions:

* `InfiniKV.GeminiFS.GPUFileManager.LogOp`, `logRun` — creating and deleting files, in any order;
* `InfiniKV.GeminiFS.GPUFileManager.SoundLog` — a log that a manager has left in order;
* `InfiniKV.GeminiFS.GPUFileManager.LogCore` — the invariant.

Main results:

* `InfiniKV.GeminiFS.GPUFileManager.logCore_logRun` — **the invariant holds along every run**;
* `InfiniKV.GeminiFS.GPUFileManager.SoundLog.reload` — a sound log is read as it stands;
* `InfiniKV.GeminiFS.GPUFileManager.log_keeps_gpu_files` — the two together.
-/

import InfiniKV.GpuFiles

set_option relaxedAutoImplicit false
set_option autoImplicit false

namespace InfiniKV
namespace GeminiFS

/-! ### Mappings -/

namespace CompactNVMeMapping

theorem isValid_setFile {mapping : CompactNVMeMapping} (h : mapping.isValid = true) (i : Fin 4)
    (id : ℕ) : (mapping.setFile i id).isValid = true := by
  have hhigh : ((0x80 : UInt8) >>> UInt8.ofNat i.val) &&& 0x01 = 0 := by
    revert i
    decide
  have hdistrib : ∀ x y : UInt8, (x ||| y) &&& 0x01 = (x &&& 0x01) ||| (y &&& 0x01) := by
    intro x y
    apply UInt8.toBitVec_inj.mp
    simp [BitVec.and_or_distrib_right]
  rw [isValid, decide_eq_true_eq] at h ⊢
  rw [setFile, hdistrib, hhigh, UInt8.or_zero]
  exact h

/-- The mapping of a new file is valid. -/
theorem isValid_ofFiles (ids : List ℕ) : (ofFiles ids).isValid = true := by
  refine List.foldlRecOn (motive := fun mapping => isValid mapping = true) _ _ (by decide) ?_
  intro mapping h i _
  cases ids[i.val]? with
  | none => exact h
  | some id => exact isValid_setFile h i id

end CompactNVMeMapping

namespace GPUFileManager

/-! ### Runs -/

/-- An operation that changes the files.  `space` is what the file systems have for the NVMe files, on
each controller and for each file. -/
inductive LogOp where
  | createGPUFile (totalFileSize : ℕ) (tensorShape : List ℕ) (space : ℕ → Option (List FiemapExtent))
  | createGPUFiles (totalFileSize toCreate : ℕ) (tensorShape : List ℕ)
      (space : ℕ → ℕ → Option (List FiemapExtent))
  | deleteGPUFile (fileId : ℕ)
  | forcePersist

/-- The manager after an operation, where `none` stands for the undefined behaviour of
`createGPUFiles`. -/
def logStep (m : GPUFileManager) : LogOp → Option GPUFileManager
  | .createGPUFile totalFileSize tensorShape space =>
      some (m.createGPUFile totalFileSize tensorShape space).2
  | .createGPUFiles totalFileSize toCreate tensorShape space =>
      (m.createGPUFiles totalFileSize toCreate tensorShape space).map Prod.snd
  | .deleteGPUFile fileId => some (m.deleteGPUFile fileId).2
  | .forcePersist => some m.forcePersist

/-- The manager after a sequence of operations. -/
def logRun : GPUFileManager → List LogOp → Option GPUFileManager
  | m, [] => some m
  | m, op :: ops => do
      let m' ← m.logStep op
      m'.logRun ops

/-- The files that are asked for have slots. -/
def LogOp.Allowed (m : GPUFileManager) : LogOp → Prop
  | .createGPUFiles _ toCreate _ _ => m.descs.entries.length + toCreate ≤ MAX_RECORDS
  | _ => True

/-- Every operation of a run finds slots for the files it asks for. -/
def AllowedRun : GPUFileManager → List LogOp → Prop
  | _, [] => True
  | m, op :: ops => op.Allowed m ∧ ∀ m', m.logStep op = some m' → AllowedRun m' ops

/-! ### The invariant -/

/-- A record of its own: the file is numbered by its slot, and its mapping is valid. -/
def OwnDesc (i : ℕ) (desc : GPUFileDesc) : Prop :=
  desc.fileId.toNat = i ∧ desc.nvmeMapping.isValid = true

/-- Slots, files and records agree. -/
structure LogCore (m : GPUFileManager) : Prop where
  laid : m.header.Laid MAGIC_NUMBER 56
  mem_iff : ∀ i, m.dirtyBitmap i = true ↔ i ∈ m.descs
  lt : ∀ i ∈ m.descs, i < MAX_RECORDS
  own : ∀ i desc, m.descs.lookup i = some desc → OwnDesc i desc
  record : ∀ i desc, m.descs.lookup i = some desc →
    recordAt GPUFileDesc.codec m.log m.header i = some desc

/-- A log in order: its header is laid out well, and either it has no bitmap yet, or every slot marked
there has a record of its own. -/
structure SoundLog (log : ByteFile) : Prop where
  sound : ∃ h, log.get LogHeader.codec 0 = some h ∧ h.Laid MAGIC_NUMBER 56 ∧
    ∀ bits, bitmapBits log h = some bits → ∀ i, bits i = true →
      ∃ desc, recordAt GPUFileDesc.codec log h i = some desc ∧ OwnDesc i desc

variable {m : GPUFileManager}

theorem LogCore.lt_of_lookup (hm : LogCore m) {i : ℕ} {desc : GPUFileDesc}
    (h : m.descs.lookup i = some desc) : i < MAX_RECORDS := by
  apply hm.lt
  rw [← AList.lookup_isSome, h]
  rfl

/-- A slot that is not marked has no file. -/
theorem LogCore.notMem (hm : LogCore m) {i : ℕ} (hi : m.dirtyBitmap i = false) : i ∉ m.descs := by
  rw [← hm.mem_iff, hi]
  simp

/-! ### One operation -/

theorem LogCore.persistBitmap (hm : LogCore m) : LogCore m.persistBitmap := by
  have hlaid : m.countedHeader.Laid MAGIC_NUMBER 56 := hm.laid.setCount _
  refine ⟨hlaid, hm.mem_iff, hm.lt, hm.own, ?_⟩
  intro i desc hdesc
  exact recordAt_persistLog (c := GPUFileDesc.codec) hlaid hlaid (by decide) (hm.lt_of_lookup hdesc) _
    (hm.record i desc hdesc)

theorem LogCore.countWrites (hm : LogCore m) (n : ℕ) : LogCore (m.countWrites n) := by
  have hcore : LogCore { m with pendingWritesCount := m.pendingWritesCount + n } :=
    ⟨hm.laid, hm.mem_iff, hm.lt, hm.own, hm.record⟩
  simp only [GPUFileManager.countWrites]
  split_ifs
  · exact hcore.persistBitmap
  · exact hcore

/-- A slot that is taken gets the record of its file. -/
theorem LogCore.takeSlot (hm : LogCore m) {slot : ℕ} (hslot : slot < MAX_RECORDS) {desc : GPUFileDesc}
    (hdesc : OwnDesc slot desc) : LogCore (m.takeSlot slot desc) := by
  constructor
  · exact hm.laid
  · intro i
    rcases eq_or_ne i slot with rfl | hne
    · simp [GPUFileManager.takeSlot]
    · simp [GPUFileManager.takeSlot, hne, hm.mem_iff i]
  · intro i hi
    rcases (AList.mem_insert _).mp hi with rfl | hi
    · exact hslot
    · exact hm.lt i hi
  · intro i d hd
    rcases eq_or_ne i slot with rfl | hne
    · rw [GPUFileManager.takeSlot, AList.lookup_insert] at hd
      cases hd
      exact hdesc
    · rw [GPUFileManager.takeSlot, AList.lookup_insert_ne hne] at hd
      exact hm.own i d hd
  · intro i d hd
    rcases eq_or_ne i slot with rfl | hne
    · rw [GPUFileManager.takeSlot, AList.lookup_insert] at hd
      cases hd
      exact recordAt_writeRecordToSlot_self (by decide) _ _
    · rw [GPUFileManager.takeSlot, AList.lookup_insert_ne hne] at hd
      exact recordAt_writeRecordToSlot (c := GPUFileDesc.codec) hm.laid (by decide)
        (hm.lt_of_lookup hd) hslot hne desc (hm.record i d hd)

theorem LogCore.takeSlots (hm : LogCore m) (files : List (ℕ × GPUFileDesc))
    (hfiles : ∀ file ∈ files, file.1 < MAX_RECORDS ∧ OwnDesc file.1 file.2) :
    LogCore (m.takeSlots files) := by
  induction files generalizing m with
  | nil => exact hm
  | cons file files ih =>
      obtain ⟨hslot, hdesc⟩ := hfiles file List.mem_cons_self
      exact ih (hm.takeSlot hslot hdesc) fun f hf => hfiles f (List.mem_cons_of_mem _ hf)

/-- The record of a new file is its own. -/
theorem ownDesc_new {slot : ℕ} (hslot : slot < MAX_RECORDS) (totalFileSize : ℕ)
    (tensorShape nvmeFileIds : List ℕ) :
    OwnDesc slot (GPUFileDesc.new slot totalFileSize tensorShape nvmeFileIds) := by
  refine ⟨?_, CompactNVMeMapping.isValid_ofFiles _⟩
  rw [GPUFileDesc.new, UInt32.toNat_ofNat', Nat.mod_eq_of_lt]
  rw [MAX_RECORDS_eq] at hslot
  omega

theorem LogCore.setControllers (hm : LogCore m) (nvmeControllers : List NVMeController) :
    LogCore { m with nvmeControllers } :=
  ⟨hm.laid, hm.mem_iff, hm.lt, hm.own, hm.record⟩

theorem LogCore.createGPUFile (hm : LogCore m) (totalFileSize : ℕ) (tensorShape : List ℕ)
    (space : ℕ → Option (List FiemapExtent)) :
    LogCore (m.createGPUFile totalFileSize tensorShape space).2 := by
  rw [GPUFileManager.createGPUFile]
  cases hslot : m.findNextFreeSlot with
  | none => exact hm
  | some slot =>
      obtain ⟨hlt, -, -⟩ := firstFree_eq_some.mp hslot
      simp only
      split_ifs
      · exact hm
      · exact hm
      · cases createNVMeFilesForGPUFile m.nvmeControllers totalFileSize space with
        | mk ids nvmeControllers =>
            cases ids with
            | none => exact hm.setControllers nvmeControllers
            | some nvmeFileIds =>
                exact ((hm.setControllers nvmeControllers).takeSlot hlt
                  (ownDesc_new hlt _ _ _)).countWrites 1

/-- Slots that were free are given back as they were. -/
theorem LogCore.releaseSlots (hm : LogCore m) {slots : List ℕ}
    (hslots : ∀ i ∈ slots, m.dirtyBitmap i = false) : LogCore (m.releaseSlots slots) := by
  refine ⟨hm.laid, ?_, hm.lt, hm.own, hm.record⟩
  intro i
  have hbit : (m.releaseSlots slots).dirtyBitmap i = m.dirtyBitmap i := by
    simp only [GPUFileManager.releaseSlots]
    split_ifs with hi
    · exact (hslots i hi).symm
    · rfl
  rw [hbit]
  exact hm.mem_iff i

/-- There are slots for the files that are asked for. -/
theorem LogCore.findMultipleFreeSlots (hm : LogCore m) {toCreate : ℕ}
    (hroom : m.descs.entries.length + toCreate ≤ MAX_RECORDS) :
    (m.findMultipleFreeSlots toCreate).length = toCreate ∧
      ∀ i ∈ m.findMultipleFreeSlots toCreate, i < MAX_RECORDS ∧ m.dirtyBitmap i = false := by
  have hkeys : m.descs.keys.length = m.descs.entries.length := by
    simp [AList.keys, List.keys]
  have hlength : (firstFrees MAX_RECORDS toCreate m.dirtyBitmap).length = toCreate := by
    apply length_firstFrees m.descs.keys_nodup
    · intro i
      rw [hm.mem_iff, ← AList.mem_keys]
      constructor
      · intro hi
        exact ⟨hm.lt i (AList.mem_keys.mpr hi), hi⟩
      · exact fun hand => hand.2
    · omega
  have heq : m.findMultipleFreeSlots toCreate = firstFrees MAX_RECORDS toCreate m.dirtyBitmap := by
    rw [GPUFileManager.findMultipleFreeSlots]
    exact if_neg (by omega)
  exact ⟨heq ▸ hlength, (m.findMultipleFreeSlots_spec toCreate).2⟩

/-- **Creating several files** keeps the invariant, if there are slots for them. -/
theorem LogCore.createGPUFiles (hm : LogCore m) {toCreate : ℕ}
    (hroom : m.descs.entries.length + toCreate ≤ MAX_RECORDS) (totalFileSize : ℕ)
    (tensorShape : List ℕ) (space : ℕ → ℕ → Option (List FiemapExtent)) :
    ∃ out m', m.createGPUFiles totalFileSize toCreate tensorShape space = some (out, m') ∧
      LogCore m' := by
  obtain ⟨hlength, hfree⟩ := hm.findMultipleFreeSlots hroom
  have hnone : ¬(m.findMultipleFreeSlots toCreate).any (· ∈ m.descs) = true := by
    simp only [List.any_eq_true, decide_eq_true_eq, not_exists, not_and]
    intro i hi
    exact hm.notMem (hfree i hi).2
  simp only [GPUFileManager.createGPUFiles]
  by_cases hshape : tensorShape.length ≠ 3
  · rw [if_pos hshape]
    exact ⟨none, m, rfl, hm⟩
  · rw [if_neg hshape, if_neg (by omega), if_neg hnone]
    split_ifs
    · exact ⟨none, _, rfl, (hm.setControllers _).releaseSlots fun i hi => (hfree i hi).2⟩
    · refine ⟨_, _, rfl, ((hm.setControllers _).takeSlots _ ?_).countWrites _⟩
      intro file hfile
      obtain ⟨i, hi, rfl⟩ := List.mem_mapIdx.mp hfile
      have hslot := (hfree _ (List.getElem_mem hi)).1
      exact ⟨hslot, ownDesc_new hslot _ _ _⟩

/-- **Deleting a file** keeps the invariant: its record is overwritten, the others stay. -/
theorem LogCore.deleteGPUFile (hm : LogCore m) (fileId : ℕ) : LogCore (m.deleteGPUFile fileId).2 := by
  rw [GPUFileManager.deleteGPUFile]
  cases hlook : m.descs.lookup fileId with
  | none => exact hm
  | some desc =>
      have hslot := hm.lt_of_lookup hlook
      apply LogCore.countWrites
      constructor
      · exact hm.laid.setCount _
      · intro i
        rcases eq_or_ne i fileId with rfl | hne
        · simp
        · simp [hne, hm.mem_iff i]
      · intro i hi
        exact hm.lt i (AList.mem_erase.mp hi).2
      · intro i d hd
        rcases eq_or_ne i fileId with rfl | hne
        · simp at hd
        · rw [AList.lookup_erase_ne hne] at hd
          exact hm.own i d hd
      · intro i d hd
        rcases eq_or_ne i fileId with rfl | hne
        · simp at hd
        · rw [AList.lookup_erase_ne hne] at hd
          exact recordAt_writeRecordToSlot (c := GPUFileDesc.codec) hm.laid (by decide)
            (hm.lt_of_lookup hd) hslot hne _ (hm.record i d hd)

/-- **One operation** keeps the invariant. -/
theorem LogCore.logStep (hm : LogCore m) {op : LogOp} (hop : op.Allowed m) :
    ∃ m', m.logStep op = some m' ∧ LogCore m' := by
  cases op with
  | createGPUFile totalFileSize tensorShape space => exact ⟨_, rfl, hm.createGPUFile _ _ _⟩
  | createGPUFiles totalFileSize toCreate tensorShape space =>
      obtain ⟨out, m', heq, hm'⟩ := hm.createGPUFiles hop totalFileSize tensorShape space
      exact ⟨m', by rw [GPUFileManager.logStep, heq]; rfl, hm'⟩
  | deleteGPUFile fileId => exact ⟨_, rfl, hm.deleteGPUFile fileId⟩
  | forcePersist => exact ⟨_, rfl, hm.persistBitmap⟩

/-- **The invariant holds along every run.** -/
theorem logCore_logRun (hm : LogCore m) (ops : List LogOp) (hops : AllowedRun m ops) :
    ∃ m', m.logRun ops = some m' ∧ LogCore m' := by
  induction ops generalizing m with
  | nil => exact ⟨m, rfl, hm⟩
  | cons op ops ih =>
      obtain ⟨m₁, hstep, hm₁⟩ := hm.logStep hops.1
      obtain ⟨m₂, hrun, hm₂⟩ := ih hm₁ (hops.2 m₁ hstep)
      exact ⟨m₂, by rw [logRun, hstep]; exact hrun, hm₂⟩

/-! ### Opening a log -/

/-- In a log that is laid out well, the loader steps over the records as they lie. -/
theorem loadedRecord_eq {log : ByteFile} {h : LogHeader} (hl : h.Laid MAGIC_NUMBER 56) {i : ℕ}
    (hi : i < MAX_RECORDS) : loadedRecord log h i = recordAt GPUFileDesc.codec log h i := by
  rw [loadedRecord, recordAt, hl.recordOffset_eq (by decide) hi, hl.recordsOffset,
    GPUFileDesc.size_codec]

theorem loadSlots_succ (m : GPUFileManager) (n : ℕ) :
    loadSlots m (n + 1) = loadSlot (loadSlots m n) n := by
  rw [loadSlots, loadSlots, List.range_succ, List.foldl_append]
  rfl

/-- Loading fills in the files and touches nothing else. -/
theorem loadSlots_frame (m : GPUFileManager) (n : ℕ) :
    loadSlots m n = { m with descs := (loadSlots m n).descs } := by
  induction n with
  | zero => rfl
  | succ n ih =>
      rw [loadSlots_succ, loadSlot]
      split_ifs
      · cases loadedRecord (loadSlots m n).log (loadSlots m n).header n with
        | none => exact ih
        | some desc =>
            simp only
            split_ifs
            · rw [ih]
            · exact ih
      · exact ih

/-- **The files that are found** in a log whose marked slots have records of their own. -/
theorem loadSlots_lookup (hempty : m.descs = ∅) (n : ℕ)
    (hown : ∀ i < n, m.dirtyBitmap i = true →
      ∃ desc, loadedRecord m.log m.header i = some desc ∧ OwnDesc i desc) (i : ℕ) :
    (loadSlots m n).descs.lookup i =
      if i < n ∧ m.dirtyBitmap i = true then loadedRecord m.log m.header i else none := by
  induction n with
  | zero => simp [loadSlots, hempty]
  | succ n ih =>
      have ih' := ih fun j hj => hown j (by omega)
      have hframe := loadSlots_frame m n
      have hbits : (loadSlots m n).dirtyBitmap = m.dirtyBitmap := by rw [hframe]
      have hlog : (loadSlots m n).log = m.log := by rw [hframe]
      have hheader : (loadSlots m n).header = m.header := by rw [hframe]
      rw [loadSlots_succ, loadSlot, hbits, hlog, hheader]
      have hlt : i ≠ n → (i < n + 1 ↔ i < n) := by omega
      cases hbit : m.dirtyBitmap n with
      | false =>
          rw [if_neg Bool.false_ne_true, ih']
          rcases eq_or_ne i n with rfl | hne
          · simp [hbit]
          · simp only [hlt hne]
      | true =>
          obtain ⟨desc, hrec, hid, hvalid⟩ := hown n (by omega) hbit
          simp only [hrec, hvalid, if_true, hid]
          rcases eq_or_ne i n with rfl | hne
          · rw [AList.lookup_insert, if_pos ⟨by omega, hbit⟩, hrec]
          · rw [AList.lookup_insert_ne hne, ih']
            simp only [hlt hne]

/-- The bitmap of a log has no slots behind the last. -/
theorem lt_of_bitmapBits {log : ByteFile} {h : LogHeader} {bits : ℕ → Bool}
    (hbits : bitmapBits log h = some bits) {i : ℕ} (hi : bits i = true) : i < MAX_RECORDS := by
  obtain ⟨bitmap, -, rfl⟩ := Option.map_eq_some_iff.mp hbits
  rw [slotsOf, Bool.and_eq_true, decide_eq_true_eq] at hi
  exact hi.1

/-- A manager that has found no files. -/
theorem logCore_opened {log : ByteFile} {h : LogHeader} (hl : h.Laid MAGIC_NUMBER 56)
    (nvmeControllers : List NVMeController) (threshold : ℕ) :
    LogCore (opened log h (fun _ => false) nvmeControllers threshold) where
  laid := hl
  mem_iff i := by simp [opened]
  lt i hi := absurd hi (AList.notMem_empty _)
  own i desc hdesc := by simp [opened] at hdesc
  record i desc hdesc := by simp [opened] at hdesc

/-- **What a manager finds in a sound log**: the slots of the bitmap and their records. -/
theorem SoundLog.reload {log : ByteFile} (hlog : SoundLog log) (memory : LogHeader)
    (nvmeControllers : List NVMeController) (threshold : ℕ) :
    LogCore (loadFromFile log memory nvmeControllers threshold) ∧
      ∀ h bits, log.get LogHeader.codec 0 = some h → bitmapBits log h = some bits →
        (loadFromFile log memory nvmeControllers threshold).dirtyBitmap = bits ∧
        ∀ i, (loadFromFile log memory nvmeControllers threshold).descs.lookup i =
          if bits i = true then recordAt GPUFileDesc.codec log h i else none := by
  obtain ⟨h, hget, hl, hrecords⟩ := hlog.sound
  rw [loadFromFile, hget]
  simp only [hl.magicNum, ne_eq, not_true_eq_false, if_false]
  cases hbitmap : bitmapBits log h with
  | none =>
      refine ⟨logCore_opened hl nvmeControllers threshold, ?_⟩
      intro h' bits hh' hbits
      cases hh'
      rw [hbitmap] at hbits
      cases hbits
  | some bits =>
      simp only
      generalize hm : opened log h bits nvmeControllers threshold = m
      have hmbits : m.dirtyBitmap = bits := by rw [← hm]; rfl
      have hmlog : m.log = log := by rw [← hm]; rfl
      have hmheader : m.header = h := by rw [← hm]; rfl
      have hown : ∀ i < MAX_RECORDS, m.dirtyBitmap i = true →
          ∃ desc, loadedRecord m.log m.header i = some desc ∧ OwnDesc i desc := by
        intro i hi hbit
        rw [hmlog, hmheader, loadedRecord_eq hl hi]
        exact hrecords bits hbitmap i (by rwa [hmbits] at hbit)
      have hlookup : ∀ i, (loadSlots m MAX_RECORDS).descs.lookup i =
          if bits i = true then recordAt GPUFileDesc.codec log h i else none := by
        intro i
        rw [loadSlots_lookup (by rw [← hm]; rfl) MAX_RECORDS hown i, hmbits, hmlog, hmheader]
        cases hbit : bits i with
        | false => simp
        | true =>
            have hi := lt_of_bitmapBits hbitmap hbit
            rw [if_pos ⟨hi, rfl⟩, if_pos rfl, loadedRecord_eq hl hi]
      have hframe := loadSlots_frame m MAX_RECORDS
      have hbits' : (loadSlots m MAX_RECORDS).dirtyBitmap = bits := by rw [hframe, ← hmbits]
      have hlog' : (loadSlots m MAX_RECORDS).log = log := by rw [hframe, ← hmlog]
      have hheader' : (loadSlots m MAX_RECORDS).header = h := by rw [hframe, ← hmheader]
      have hmem : ∀ i, bits i = true ↔ i ∈ (loadSlots m MAX_RECORDS).descs := by
        intro i
        rw [← AList.lookup_isSome, hlookup i]
        cases hbit : bits i with
        | false => simp
        | true =>
            obtain ⟨desc, hrec, -⟩ := hrecords bits hbitmap i hbit
            simp [hrec]
      refine ⟨⟨?_, ?_, ?_, ?_, ?_⟩, ?_⟩
      · rw [hheader']
        exact hl
      · rw [hbits']
        exact hmem
      · intro i hi
        exact lt_of_bitmapBits hbitmap ((hmem i).mpr hi)
      · intro i desc hdesc
        rw [hlookup i] at hdesc
        split_ifs at hdesc with hbit
        obtain ⟨desc', hrec, hown'⟩ := hrecords bits hbitmap i hbit
        rw [hrec] at hdesc
        cases hdesc
        exact hown'
      · intro i desc hdesc
        rw [hlookup i] at hdesc
        split_ifs at hdesc with hbit
        rw [hlog', hheader']
        exact hdesc
      · intro h' bits' hh' hbits''
        cases hh'
        rw [hbitmap] at hbits''
        cases hbits''
        exact ⟨hbits', hlookup⟩

/-- **A log is sound when it has been written out.** -/
theorem LogCore.soundLog (hm : LogCore m) :
    SoundLog m.forcePersist.log ∧
      m.forcePersist.log.get LogHeader.codec 0 = some m.countedHeader ∧
      bitmapBits m.forcePersist.log m.countedHeader = some m.dirtyBitmap := by
  have hlaid : m.countedHeader.Laid MAGIC_NUMBER 56 := hm.laid.setCount _
  have hget : m.forcePersist.log.get LogHeader.codec 0 = some m.countedHeader :=
    get_persistLog (c := GPUFileDesc.codec) hlaid _
  have hbitmap : bitmapBits m.forcePersist.log m.countedHeader = some m.dirtyBitmap :=
    bitmapBits_persistLog rfl fun i hi => hm.lt i ((hm.mem_iff i).mp hi)
  refine ⟨⟨_, hget, hlaid, ?_⟩, hget, hbitmap⟩
  intro bits hbits i hi
  rw [hbitmap] at hbits
  cases hbits
  have hmem := (hm.mem_iff i).mp hi
  rw [← AList.lookup_isSome] at hmem
  obtain ⟨desc, hdesc⟩ := Option.isSome_iff_exists.mp hmem
  exact ⟨desc, hm.persistBitmap.record i desc hdesc, hm.own i desc hdesc⟩

theorem get_initializeLogFile : initializeLogFile.get LogHeader.codec 0 =
    some (LogHeader.initial MAGIC_NUMBER GPUFileDesc.codec.size) := by
  have hhead : (ByteFile.empty.put LogHeader.codec 0
      (LogHeader.initial MAGIC_NUMBER GPUFileDesc.codec.size)).get LogHeader.codec 0 =
        some (LogHeader.initial MAGIC_NUMBER GPUFileDesc.codec.size) :=
    ByteFile.get_put_self _ (by decide) 0 _
  rw [initializeLogFile, ByteFile.get_write_of_disjoint]
  · exact hhead
  · right
    rw [LogHeader.size_codec]
  · exact ByteFile.le_size_of_get _ hhead

/-- No slot of a new log is marked. -/
theorem bitmapBits_initializeLogFile :
    bitmapBits initializeLogFile (LogHeader.initial MAGIC_NUMBER GPUFileDesc.codec.size) =
      some fun _ => false := by
  have hlaid : (LogHeader.initial MAGIC_NUMBER GPUFileDesc.codec.size).Laid MAGIC_NUMBER 56 :=
    LogHeader.laid_initial MAGIC_NUMBER (by decide)
  have hne : List.replicate BITMAP_SIZE_BYTES (0 : UInt8) ≠ [] := by
    rw [Ne, List.replicate_eq_nil_iff, BITMAP_SIZE_BYTES_eq]
    decide
  have hread := (ByteFile.empty.put LogHeader.codec 0
    (LogHeader.initial MAGIC_NUMBER GPUFileDesc.codec.size)).read_write_self LogHeader.codec.size hne
  rw [List.length_replicate] at hread
  rw [bitmapBits, hlaid.bitmapOffset, initializeLogFile, hread, Option.map_some, Option.some.injEq]
  funext i
  have hzero : (List.replicate BITMAP_SIZE_BYTES (0 : UInt8)).getD (i / 8) 0 = 0 := by
    rw [List.getD_eq_getElem?_getD, List.getElem?_replicate]
    split_ifs
    · rfl
    · rfl
  rw [slotsOf, unpackBit, hzero]
  simp

/-- A new log is sound. -/
theorem soundLog_initializeLogFile : SoundLog initializeLogFile := by
  refine ⟨_, get_initializeLogFile, LogHeader.laid_initial MAGIC_NUMBER (by decide), ?_⟩
  intro bits hbits i hi
  rw [bitmapBits_initializeLogFile] at hbits
  cases hbits
  cases hi

/-- A manager without a log has no files. -/
theorem lookup_construct_none (memory : LogHeader) (nvmeControllers : List NVMeController)
    (threshold i : ℕ) : (construct none memory nvmeControllers threshold).descs.lookup i = none := by
  have hreload := (soundLog_initializeLogFile.reload memory nvmeControllers threshold).2 _ _
    get_initializeLogFile bitmapBits_initializeLogFile
  exact hreload.2 i

/-! ### Every log a manager can meet -/

/-- Slots and files agree, every file is numbered by its slot and has a valid mapping, and the next
manager on the log that is written out finds the same slots and files, in a log that is sound. -/
structure KeepsLog (m : GPUFileManager) : Prop where
  mem_iff : ∀ i, m.dirtyBitmap i = true ↔ i ∈ m.descs
  own : ∀ i desc, m.descs.lookup i = some desc → OwnDesc i desc
  sound : SoundLog m.forcePersist.log
  reload : ∀ memory nvmeControllers threshold,
    let m' := construct (some m.forcePersist.log) memory nvmeControllers threshold
    m'.dirtyBitmap = m.dirtyBitmap ∧ ∀ i, m'.descs.lookup i = m.descs.lookup i

theorem LogCore.keepsLog (hm : LogCore m) : KeepsLog m where
  mem_iff := hm.mem_iff
  own := hm.own
  sound := hm.soundLog.1
  reload memory nvmeControllers threshold := by
    obtain ⟨hsound, hget, hbitmap⟩ := hm.soundLog
    obtain ⟨hbits, hlookup⟩ :=
      (hsound.reload memory nvmeControllers threshold).2 _ _ hget hbitmap
    refine ⟨hbits, ?_⟩
    intro i
    rw [construct, Option.getD_some, hlookup i]
    cases hlook : m.descs.lookup i with
    | none =>
        have hbit : ¬m.dirtyBitmap i = true := by
          rw [hm.mem_iff]
          exact AList.lookup_eq_none.mp hlook
        exact if_neg hbit
    | some desc =>
        have hmem : i ∈ m.descs := by
          rw [← AList.lookup_isSome, hlook]
          rfl
        rw [if_pos ((hm.mem_iff i).mpr hmem)]
        exact hm.persistBitmap.record i desc hlook

/-- **The log keeps the GPU files**: from no log and from every sound one, with every threshold and along
every sequence of operations that finds slots for the files it asks for. -/
theorem log_keeps_gpu_files {content : Option ByteFile}
    (hcontent : content = none ∨ ∃ log, content = some log ∧ SoundLog log) (memory : LogHeader)
    (nvmeControllers : List NVMeController) (threshold : ℕ) (ops : List LogOp)
    (hops : AllowedRun (construct content memory nvmeControllers threshold) ops) :
    KeepsLog (construct content memory nvmeControllers threshold) ∧
      ∃ m, (construct content memory nvmeControllers threshold).logRun ops = some m ∧ KeepsLog m := by
  have hsound : SoundLog (content.getD initializeLogFile) := by
    rcases hcontent with rfl | ⟨log, rfl, hlog⟩
    · exact soundLog_initializeLogFile
    · exact hlog
  have hcore := (hsound.reload memory nvmeControllers threshold).1
  obtain ⟨m, hrun, hm⟩ := logCore_logRun hcore ops hops
  exact ⟨hcore.keepsLog, m, hrun, hm.keepsLog⟩

/-- A controller without files. -/
def freshController : NVMeController := ⟨4096, 9, 1048576, fun _ => none⟩

/-- A manager without a log creates two files and one more, and deletes one. -/
theorem log_keeps_gpu_files_of_no_log :
    ∃ m, (construct none (LogHeader.initial 0 0) [freshController] 2).logRun
      [.createGPUFiles 65536 2 [2, 1, 32768] (fun _ _ => some [⟨0, 1048576, 69632, 0⟩]),
        .createGPUFile 65536 [2, 1, 32768] (fun _ => some [⟨0, 1179648, 69632, 0⟩]),
        .deleteGPUFile 0] = some m ∧ KeepsLog m := by
  refine (log_keeps_gpu_files (Or.inl rfl) _ _ _ _ ?_).2
  refine And.intro ?_ fun _ _ => ⟨trivial, fun _ _ => ⟨trivial, fun _ _ => trivial⟩⟩
  -- there are no files yet
  have hnil : (construct none (LogHeader.initial 0 0) [freshController] 2).descs.entries = [] := by
    cases hentries : (construct none (LogHeader.initial 0 0) [freshController] 2).descs.entries with
    | nil => rfl
    | cons entry rest =>
        have hmem : entry.1 ∈ (construct none (LogHeader.initial 0 0) [freshController] 2).descs := by
          rw [AList.mem_keys, AList.keys, hentries]
          exact List.mem_cons_self
        rw [← AList.lookup_isSome, lookup_construct_none] at hmem
        cases hmem
  rw [LogOp.Allowed, hnil, MAX_RECORDS_eq]
  decide

/-! ### A log of another kind -/

theorem laid_countWrites {m : GPUFileManager} {magic : UInt64} (hl : m.header.Laid magic 56) (n : ℕ) :
    (m.countWrites n).header.Laid magic 56 := by
  simp only [countWrites]
  split_ifs
  · exact hl.setCount _
  · exact hl

/-- The first file on a controller without files. -/
theorem createGPUFile_first {m : GPUFileManager} (hbit : m.dirtyBitmap 0 = false) (hdesc : 0 ∉ m.descs)
    (hcontrollers : m.nvmeControllers = [freshController]) (extents : List FiemapExtent) :
    ∃ nvmeControllers, m.createGPUFile 65536 [2, 1, 32768] (fun _ => some extents) =
      (some 0, (takeSlot { m with nvmeControllers } 0
        (GPUFileDesc.new 0 65536 [2, 1, 32768] [0])).countWrites 1) := by
  have hfree : ∀ taken : ℕ → Bool, taken 0 = false → firstFree MAX_RECORDS taken = some 0 := by
    intro taken htaken
    exact firstFree_eq_some.mpr ⟨by rw [MAX_RECORDS_eq]; decide, htaken, by omega⟩
  obtain ⟨c, hcreate⟩ : ∃ c, freshController.hostFileCreateManaged 65536 (some extents) =
      some (0, c) := by
    rw [NVMeController.hostFileCreateManaged, hfree (fun slot => (freshController.files slot).isSome) rfl]
    exact ⟨_, if_neg (by decide)⟩
  have hnvme : createNVMeFilesForGPUFile [freshController] 65536 (fun _ => some extents) =
      (some [0], [c]) := by
    rw [createNVMeFilesForGPUFile, if_neg (by decide), if_neg (by decide)]
    have hsize : perNvmeFileSize 65536 [freshController].length = 65536 := by decide
    rw [hsize, createAcross, if_neg (by decide), hcreate]
    rfl
  have hslot : m.findNextFreeSlot = some 0 := hfree m.dirtyBitmap hbit
  refine ⟨[c], ?_⟩
  rw [createGPUFile, hslot]
  simp only
  rw [if_neg hdesc, if_neg (by decide), hcontrollers, hnvme]

/-- A file that is not a log of GPU files: a whole header with the magic number 0. -/
def foreignLog : ByteFile := ByteFile.empty.put LogHeader.codec 0 (LogHeader.initial 0 56)

/-- A log with a magic number that is not the manager's is taken for an empty one. -/
theorem loadFromFile_of_magicNum_ne {log : ByteFile} {h : LogHeader}
    (hget : log.get LogHeader.codec 0 = some h) (hmagic : h.magicNum ≠ MAGIC_NUMBER)
    (memory : LogHeader) (nvmeControllers : List NVMeController) (threshold : ℕ) :
    loadFromFile log memory nvmeControllers threshold =
      opened log h (fun _ => false) nvmeControllers threshold := by
  rw [loadFromFile, hget]
  exact if_pos hmagic

/-- On such a file a GPU file is created, and written out, and the next manager does not find it. -/
theorem foreignLog_loses_file :
    let m := construct (some foreignLog) (LogHeader.initial 0 0) [freshController] 1000
    let out := m.createGPUFile 65536 [2, 1, 32768] fun _ => some [⟨0, 1048576, 69632, 0⟩]
    let m' := construct (some out.2.forcePersist.log) (LogHeader.initial 0 0) [freshController] 1000
    out.1 = some 0 ∧ 0 ∈ out.2.descs ∧ 0 ∉ m'.descs := by
  have hlaid : (LogHeader.initial 0 56).Laid 0 56 := LogHeader.laid_initial 0 (by decide)
  have hget : foreignLog.get LogHeader.codec 0 = some (LogHeader.initial 0 56) :=
    ByteFile.get_put_self _ (by decide) 0 _
  have hm := loadFromFile_of_magicNum_ne hget (by decide) (LogHeader.initial 0 0) [freshController] 1000
  obtain ⟨nvmeControllers, hout⟩ := createGPUFile_first
    (m := opened foreignLog (LogHeader.initial 0 56) (fun _ => false) [freshController] 1000)
    rfl (AList.notMem_empty _) rfl [⟨0, 1048576, 69632, 0⟩]
  simp only [construct, Option.getD_some, hm, hout]
  refine ⟨trivial, ?_, ?_⟩
  · rw [countWrites_descs]
    exact (AList.mem_insert _).mpr (Or.inl rfl)
  · -- the header is written back with the magic number it was read with
    generalize hm₂ : (takeSlot _ 0 _).countWrites 1 = m₂
    have hlaid₂ : m₂.countedHeader.Laid 0 56 := by
      rw [← hm₂]
      exact (laid_countWrites (by exact hlaid) 1).setCount _
    have hget₂ : m₂.forcePersist.log.get LogHeader.codec 0 = some m₂.countedHeader :=
      get_persistLog (c := GPUFileDesc.codec) hlaid₂ _
    have hmagic : m₂.countedHeader.magicNum ≠ MAGIC_NUMBER := by
      rw [hlaid₂.magicNum]
      decide
    rw [loadFromFile_of_magicNum_ne hget₂ hmagic]
    exact AList.notMem_empty _

end GPUFileManager
end GeminiFS
end InfiniKV
