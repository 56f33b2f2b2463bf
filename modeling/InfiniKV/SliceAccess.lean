/-
**No slice is dropped if the NVMe files are large enough.**

A GPU file gets on each controller an NVMe file of an equal share of its size, rounded up.  A transfer
needs whole blocks there, and it spreads them over four controllers at most, however many there are.
Whether the last block fits is a matter of arithmetic; if it does not, the thread that serves it returns
without an access, and the transfer returns `true` all the same.

Main definitions:

* `InfiniKV.GeminiFS.GPUFileManager.CreatedBy` — files that `createGPUFile` or `createGPUFiles` has
  created;
* `InfiniKV.GeminiFS.GPUFileManager.ServeOp`, `serveRun` — setting up, opening and closing files;
* `InfiniKV.GeminiFS.NoSliceDropped` — every thread of every transfer issues its access.

Main results:

* `InfiniKV.GeminiFS.GPUFileManager.CreatedBy.created` — **what creating files leaves on the
  controllers**;
* `InfiniKV.GeminiFS.GPUFileManager.Serving.span` — **the NVMe files of an open file**;
* `InfiniKV.GeminiFS.noSliceDropped_iff` — **when no slice is dropped**.
-/

import InfiniKV.GpuFileLog
import InfiniKV.GpuFilePool
import InfiniKV.Striping

set_option relaxedAutoImplicit false
set_option autoImplicit false

namespace InfiniKV
namespace GeminiFS

/-! ### What is created on the controllers -/

namespace NVMeController

/-- The controller has a file of the given size under the id. -/
def HasFile (c : NVMeController) (size id : ℕ) : Prop :=
  id < MAX_RECORDS ∧ ∃ hdr, c.files id = some hdr ∧ hdr.virtualSpaceSize = size

/-- Every file of a controller is still on the other. -/
def Keeps (c c' : NVMeController) : Prop := ∀ id hdr, c.files id = some hdr → c'.files id = some hdr

theorem HasFile.keeps {c c' : NVMeController} {size id : ℕ} (h : c.HasFile size id)
    (hkeeps : c.Keeps c') : c'.HasFile size id := by
  obtain ⟨hlt, hdr, hhdr, hsize⟩ := h
  exact ⟨hlt, hdr, hkeeps id hdr hhdr, hsize⟩

/-- **A new file** has its size, and overwrites none. -/
theorem hostFileCreateManaged_eq_some {c c' : NVMeController} {fileSize id : ℕ}
    {space : Option (List FiemapExtent)}
    (h : c.hostFileCreateManaged fileSize space = some (id, c')) :
    c'.HasFile fileSize id ∧ c.Keeps c' := by
  rw [hostFileCreateManaged] at h
  cases hslot : firstFree MAX_RECORDS fun slot => (c.files slot).isSome with
  | none =>
      rw [hslot] at h
      cases h
  | some slot =>
      obtain ⟨hlt, hfree, -⟩ := firstFree_eq_some.mp hslot
      rw [hslot] at h
      simp only at h
      split_ifs at h
      obtain ⟨extents, -, heq⟩ := Option.map_eq_some_iff.mp h
      cases heq
      refine ⟨⟨hlt, _, Function.update_self _ _ _, rfl⟩, ?_⟩
      intro id' hdr hhdr
      have hne : id' ≠ id := by
        rintro rfl
        rw [hhdr] at hfree
        cases hfree
      exact (Function.update_of_ne hne _ _).trans hhdr

/-- **The files of one controller.** -/
theorem createLoop_eq_some {fileSize : ℕ} {space : ℕ → Option (List FiemapExtent)} (n i : ℕ)
    {c c' : NVMeController} {ids : List ℕ} (h : createLoop fileSize space n i c = (some ids, c')) :
    ids.length = n ∧ c.Keeps c' ∧ ∀ id ∈ ids, c'.HasFile fileSize id := by
  induction n generalizing i c ids with
  | zero =>
      simp only [createLoop, Prod.mk.injEq, Option.some.injEq] at h
      obtain ⟨rfl, rfl⟩ := h
      exact ⟨rfl, fun id hdr hhdr => hhdr, fun id hid => absurd hid (List.not_mem_nil)⟩
  | succ n ih =>
      rw [createLoop] at h
      cases hcreate : c.hostFileCreateManaged fileSize (space i) with
      | none => simp [hcreate] at h
      | some out =>
          obtain ⟨id, c₁⟩ := out
          obtain ⟨hfile, hkeeps⟩ := hostFileCreateManaged_eq_some hcreate
          cases hrest : createLoop fileSize space n (i + 1) c₁ with
          | mk rest c₂ =>
              cases rest with
              | none => simp [hcreate, hrest] at h
              | some rest =>
                  simp only [hcreate, hrest, Prod.mk.injEq, Option.some.injEq] at h
                  obtain ⟨rfl, rfl⟩ := h
                  obtain ⟨hlen, hkeeps', hfiles⟩ := ih (i + 1) hrest
                  refine ⟨by rw [List.length_cons, hlen], ?_, ?_⟩
                  · intro id' hdr hhdr
                    exact hkeeps' id' hdr (hkeeps id' hdr hhdr)
                  · intro id' hid'
                    rcases List.mem_cons.mp hid' with rfl | hid'
                    · exact hfile.keeps hkeeps'
                    · exact hfiles id' hid'

end NVMeController

/-- **One file on each of the first four controllers.** -/
theorem createAcross_eq_some {fileSize : ℕ} {space : ℕ → Option (List FiemapExtent)}
    (cs : List NVMeController) {i : ℕ} {cs' : List NVMeController} {ids : List ℕ}
    (h : createAcross fileSize space cs i = (some ids, cs')) (hi : i ≤ 4) :
    ids.length = min (i + cs.length) 4 - i ∧ cs'.length = cs.length ∧
      ∀ (j id : ℕ), ids[j]? = some id →
        ∃ c : NVMeController, cs'[j]? = some c ∧ c.HasFile fileSize id := by
  induction cs generalizing i ids cs' with
  | nil =>
      simp only [createAcross, Prod.mk.injEq, Option.some.injEq] at h
      obtain ⟨rfl, rfl⟩ := h
      refine ⟨?_, rfl, fun j id hid => by simp at hid⟩
      simp only [List.length_nil]
      omega
  | cons c rest ih =>
      rw [createAcross] at h
      by_cases hfour : 4 ≤ i
      · rw [if_pos hfour] at h
        simp only [Prod.mk.injEq, Option.some.injEq] at h
        obtain ⟨rfl, rfl⟩ := h
        refine ⟨?_, rfl, fun j id hid => by simp at hid⟩
        simp only [List.length_nil]
        omega
      · rw [if_neg hfour] at h
        cases hcreate : c.hostFileCreateManaged fileSize (space i) with
        | none => simp [hcreate] at h
        | some out =>
            obtain ⟨id₀, c₁⟩ := out
            obtain ⟨hfile, -⟩ := NVMeController.hostFileCreateManaged_eq_some hcreate
            cases hrest : createAcross fileSize space rest (i + 1) with
            | mk idsRest csRest =>
                cases idsRest with
                | none => simp [hcreate, hrest] at h
                | some idsRest =>
                    simp only [hcreate, hrest, Prod.mk.injEq, Option.some.injEq] at h
                    obtain ⟨rfl, rfl⟩ := h
                    obtain ⟨hlen, hlen', hfiles⟩ := ih hrest (by omega)
                    refine ⟨?_, ?_, ?_⟩
                    · rw [List.length_cons, List.length_cons, hlen]
                      omega
                    · rw [List.length_cons, List.length_cons, hlen']
                    · intro j id hid
                      cases j with
                      | zero =>
                          simp only [List.getElem?_cons_zero, Option.some.injEq] at hid
                          subst hid
                          exact ⟨c₁, rfl, hfile⟩
                      | succ j => exact hfiles j id (by simpa using hid)

/-- Creating the NVMe files of one GPU file. -/
theorem createNVMeFilesForGPUFile_eq_some {cs cs' : List NVMeController} {fileSize : ℕ}
    {space : ℕ → Option (List FiemapExtent)} {ids : List ℕ}
    (h : createNVMeFilesForGPUFile cs fileSize space = (some ids, cs')) :
    ALIGN_SIZE ≤ perNvmeFileSize fileSize cs.length ∧
      createAcross (perNvmeFileSize fileSize cs.length) space cs 0 = (some ids, cs') := by
  rw [createNVMeFilesForGPUFile] at h
  by_cases hzero : cs.length = 0
  · rw [if_pos hzero] at h
    cases h
  · rw [if_neg hzero] at h
    by_cases hsmall : perNvmeFileSize fileSize cs.length < ALIGN_SIZE
    · rw [if_pos hsmall] at h
      cases h
    · rw [if_neg hsmall] at h
      exact ⟨by omega, h⟩

/-- Creating the NVMe files of several GPU files on one controller. -/
theorem NVMeController.createNVMeFilesPerDevice_eq_some {c c' : NVMeController}
    {fileSize nvmeCount toCreate : ℕ} {space : ℕ → Option (List FiemapExtent)} {ids : List ℕ}
    (h : c.createNVMeFilesPerDevice fileSize nvmeCount toCreate space = (some ids, c')) :
    ALIGN_SIZE ≤ perNvmeFileSize fileSize nvmeCount ∧
      ∀ id ∈ ids, c'.HasFile (perNvmeFileSize fileSize nvmeCount) id := by
  rw [createNVMeFilesPerDevice] at h
  by_cases hsmall : perNvmeFileSize fileSize nvmeCount < ALIGN_SIZE
  · rw [if_pos hsmall] at h
    cases h
  · rw [if_neg hsmall] at h
    obtain ⟨-, -, hfiles⟩ := NVMeController.createLoop_eq_some _ _ h
    exact ⟨by omega, hfiles⟩

namespace GPUFileManager

/-- A GPU file of tensors of `len` bytes whose NVMe files have `size` bytes, on each of the first four
controllers. -/
def Created (m : GPUFileManager) (size len fileId : ℕ) : Prop :=
  ∃ desc ids, m.descs.lookup fileId = some desc ∧ desc.nvmeMapping = CompactNVMeMapping.ofFiles ids ∧
    desc.tensorShape (Fin.last 2) = UInt32.ofNat len ∧ min m.nvmeControllers.length 4 ≤ ids.length ∧
    ∀ (j id : ℕ), j < 4 → ids[j]? = some id →
      ∃ c : NVMeController, m.nvmeControllers[j]? = some c ∧ c.HasFile size id

/-- **What `createGPUFile` leaves behind.** -/
theorem createGPUFile_created {m m' : GPUFileManager} {totalFileSize fileId d₀ d₁ len : ℕ}
    {space : ℕ → Option (List FiemapExtent)}
    (h : m.createGPUFile totalFileSize [d₀, d₁, len] space = (some fileId, m')) :
    m'.Created (perNvmeFileSize totalFileSize m.nvmeControllers.length) len fileId ∧
      m'.nvmeControllers.length = m.nvmeControllers.length ∧ m'.ctxs = m.ctxs ∧
      m'.devFds = m.devFds ∧ ALIGN_SIZE ≤ perNvmeFileSize totalFileSize m.nvmeControllers.length := by
  rw [createGPUFile] at h
  cases hslot : m.findNextFreeSlot with
  | none => simp [hslot] at h
  | some slot =>
      simp only [hslot] at h
      by_cases htaken : slot ∈ m.descs
      · rw [if_pos htaken] at h
        cases h
      · rw [if_neg htaken, if_neg (by simp)] at h
        cases hnvme : createNVMeFilesForGPUFile m.nvmeControllers totalFileSize space with
        | mk ids cs =>
            rw [hnvme] at h
            cases ids with
            | none => cases h
            | some ids =>
                simp only [Prod.mk.injEq, Option.some.injEq] at h
                obtain ⟨rfl, rfl⟩ := h
                obtain ⟨hsize, hacross⟩ := createNVMeFilesForGPUFile_eq_some hnvme
                obtain ⟨hlen, hlen', hfiles⟩ := createAcross_eq_some _ hacross (by omega)
                rw [Nat.zero_add, Nat.sub_zero] at hlen
                refine ⟨⟨GPUFileDesc.new slot totalFileSize [d₀, d₁, len] ids, ids, ?_, rfl, rfl, ?_,
                  ?_⟩, ?_, ?_, ?_, hsize⟩
                · rw [countWrites_descs]
                  exact AList.lookup_insert _
                · rw [countWrites_nvmeControllers]
                  exact (congrArg (min · 4) hlen').trans_le hlen.ge
                · intro j id _ hid
                  rw [countWrites_nvmeControllers]
                  exact hfiles j id hid
                · rw [countWrites_nvmeControllers]
                  exact hlen'
                · rw [countWrites_ctxs]
                  rfl
                · rw [countWrites_devFds]
                  rfl

/-- **What `createGPUFiles` leaves behind**, if there is a controller. -/
theorem createGPUFiles_created {m m' : GPUFileManager} {totalFileSize toCreate d₀ d₁ len : ℕ}
    {space : ℕ → ℕ → Option (List FiemapExtent)} {fileIds : List ℕ}
    (hcontrollers : m.nvmeControllers ≠ [])
    (h : m.createGPUFiles totalFileSize toCreate [d₀, d₁, len] space = some (some fileIds, m')) :
    (∀ fileId ∈ fileIds,
      m'.Created (perNvmeFileSize totalFileSize m.nvmeControllers.length) len fileId) ∧
      m'.nvmeControllers.length = m.nvmeControllers.length ∧ m'.ctxs = m.ctxs ∧
      m'.devFds = m.devFds ∧ ALIGN_SIZE ≤ perNvmeFileSize totalFileSize m.nvmeControllers.length := by
  simp only [createGPUFiles] at h
  rw [if_neg (by simp)] at h
  split_ifs at h with hslots htaken htasks
  · cases h
  · cases h
  simp only [Option.some.injEq, Prod.mk.injEq] at h
  obtain ⟨rfl, rfl⟩ := h
  generalize hresults : m.createNVMeFilesTasks totalFileSize toCreate space = results at *
  have hlength : results.length = m.nvmeControllers.length := by
    rw [← hresults, createNVMeFilesTasks, List.length_mapIdx]
  have hnodup := (m.findMultipleFreeSlots_spec toCreate).1
  -- every task has created its files
  have htask : ∀ (j : ℕ) (result : Option (List ℕ) × NVMeController), results[j]? = some result →
      ∃ ids, result.1 = some ids ∧ ids.length = toCreate ∧
      ALIGN_SIZE ≤ perNvmeFileSize totalFileSize m.nvmeControllers.length ∧
      ∀ id ∈ ids, result.2.HasFile (perNvmeFileSize totalFileSize m.nvmeControllers.length) id := by
    intro j result hj
    have hok : taskOk toCreate result = true := by
      simp only [Bool.not_eq_true', Bool.not_eq_false, List.all_eq_true] at htasks
      exact htasks result (List.mem_of_getElem? hj)
    rw [← hresults, createNVMeFilesTasks, List.getElem?_mapIdx, Option.map_eq_some_iff] at hj
    obtain ⟨c, -, rfl⟩ := hj
    rw [taskOk] at hok
    cases hdevice : c.createNVMeFilesPerDevice totalFileSize m.nvmeControllers.length toCreate
        (space j) with
    | mk ids c' =>
        rw [hdevice] at hok
        cases ids with
        | none => cases hok
        | some ids =>
            simp only [Bool.and_eq_true, decide_eq_true_eq] at hok
            obtain ⟨hsize, hfiles⟩ := NVMeController.createNVMeFilesPerDevice_eq_some hdevice
            exact ⟨ids, rfl, hok.2, hsize, hfiles⟩
  obtain ⟨hctxs, hdevFds, hcs⟩ := takeSlots_frame { m with nvmeControllers := results.map Prod.snd }
    ((m.findMultipleFreeSlots toCreate).mapIdx fun i slot => (slot, GPUFileDesc.new slot totalFileSize
      [d₀, d₁, len] (results.map fun result => (result.1.getD []).getD i 0)))
  refine ⟨?_, ?_, ?_, ?_, ?_⟩
  · intro fileId hfileId
    obtain ⟨i, hi, rfl⟩ := List.mem_iff_getElem.mp hfileId
    refine ⟨GPUFileDesc.new (m.findMultipleFreeSlots toCreate)[i] totalFileSize [d₀, d₁, len]
      (results.map fun result => (result.1.getD []).getD i 0), _, ?_, rfl, rfl, ?_, ?_⟩
    · rw [countWrites_descs]
      apply takeSlots_lookup
      · have hfst : ((m.findMultipleFreeSlots toCreate).mapIdx fun i slot => (slot, GPUFileDesc.new slot
            totalFileSize [d₀, d₁, len] (results.map fun result => (result.1.getD []).getD i 0))).map
              Prod.fst = m.findMultipleFreeSlots toCreate := by
          apply List.ext_getElem?
          intro k
          simp [Function.comp_def]
        rw [hfst]
        exact hnodup
      · exact List.mem_mapIdx.mpr ⟨i, hi, rfl⟩
    · rw [countWrites_nvmeControllers, hcs, List.length_map, List.length_map]
      exact Nat.min_le_left _ _
    · intro j id _ hid
      rw [countWrites_nvmeControllers, hcs]
      rw [List.getElem?_map, Option.map_eq_some_iff] at hid
      obtain ⟨result, hresult, rfl⟩ := hid
      obtain ⟨ids, hids, hcount, -, hfiles⟩ := htask j result hresult
      refine ⟨result.2, by rw [List.getElem?_map, hresult]; rfl, hfiles _ ?_⟩
      rw [hids, Option.getD_some, List.getD_eq_getElem?_getD, List.getElem?_eq_getElem (by omega),
        Option.getD_some]
      exact List.getElem_mem _
  · rw [countWrites_nvmeControllers, hcs, List.length_map, hlength]
  · rw [countWrites_ctxs, hctxs]
  · rw [countWrites_devFds, hdevFds]
  · have hzero : 0 < results.length := by
      rw [hlength]
      exact List.length_pos_iff.mpr hcontrollers
    obtain ⟨ids, -, -, hsize, -⟩ := htask 0 _ (List.getElem?_eq_getElem hzero)
    exact hsize

/-- The size that `GeminiFS::init` gives a file of shape `[2, layers, len]`. -/
def gpuFileSize (layers len : ℕ) : ℕ := 2 * layers * len % 2 ^ 64

/-- The files of shape `[2, layers, len]` that a call has created. -/
inductive CreatedBy (m : GPUFileManager) (layers len : ℕ) : List ℕ → GPUFileManager → Prop where
  | createGPUFile {fileId : ℕ} {m' : GPUFileManager} (space : ℕ → Option (List FiemapExtent))
      (h : m.createGPUFile (gpuFileSize layers len) [2, layers, len] space = (some fileId, m')) :
      CreatedBy m layers len [fileId] m'
  | createGPUFiles {fileIds : List ℕ} {m' : GPUFileManager} (toCreate : ℕ)
      (space : ℕ → ℕ → Option (List FiemapExtent))
      (h : m.createGPUFiles (gpuFileSize layers len) toCreate [2, layers, len] space =
        some (some fileIds, m')) : CreatedBy m layers len fileIds m'

/-- **What creating files leaves on the controllers.** -/
theorem CreatedBy.created {m m' : GPUFileManager} {layers len : ℕ} {fileIds : List ℕ}
    (h : CreatedBy m layers len fileIds m') (hcontrollers : m.nvmeControllers ≠ []) :
    (∀ fileId ∈ fileIds,
      m'.Created (perNvmeFileSize (gpuFileSize layers len) m.nvmeControllers.length) len fileId) ∧
      m'.nvmeControllers.length = m.nvmeControllers.length ∧ m'.ctxs = m.ctxs ∧
      m'.devFds = m.devFds ∧
      ALIGN_SIZE ≤ perNvmeFileSize (gpuFileSize layers len) m.nvmeControllers.length := by
  cases h with
  | createGPUFile space h =>
      obtain ⟨hcreated, hrest⟩ := createGPUFile_created h
      refine ⟨?_, hrest⟩
      intro fileId hfileId
      rw [List.mem_singleton.mp hfileId]
      exact hcreated
  | createGPUFiles toCreate space h => exact createGPUFiles_created hcontrollers h

/-! ### Serving -/

/-- Setting up, opening or closing a file. -/
inductive ServeOp where
  | initGPUFile (fileId : ℕ) (allocated : ℕ → Bool)
  | openGPUFile (allocated : Bool)
  | closeGPUFile (fileId : ℕ)

/-- The manager after one of these, where `none` stands for the assertion of `openGPUFile`. -/
def serveStep (m : GPUFileManager) : ServeOp → Option GPUFileManager
  | .initGPUFile fileId allocated => some (m.initGPUFile fileId allocated).2
  | .openGPUFile allocated => (m.openGPUFile allocated).map Prod.snd
  | .closeGPUFile fileId => some (m.closeGPUFile fileId).2

/-- The manager after a sequence of these. -/
def serveRun : GPUFileManager → List ServeOp → Option GPUFileManager
  | m, [] => some m
  | m, op :: ops => do
      let m' ← m.serveStep op
      m'.serveRun ops

/-- What is open on the device is a file of its controller, and what an open file has are the NVMe files
that are found for it. -/
structure Serving (m : GPUFileManager) : Prop where
  devFds : ∀ (i id : ℕ) (file : NVMeFile), m.devFds.lookup (i, id) = some file →
    ∃ c : NVMeController, m.nvmeControllers[i]? = some c ∧ c.files id = some file.hdr
  ctxs : ∀ fileId files, m.ctxs.lookup fileId = some files → m.getDevFdById fileId = some files

/-- Opening NVMe files leaves those that are open alone, and opens files of the controllers. -/
theorem openNvmeFiles_lookup (mapping : CompactNVMeMapping) (allocated : ℕ → Bool)
    (cs : List NVMeController) (i : ℕ) (devFds : AList fun _ : ℕ × ℕ => NVMeFile) :
    (∀ key file, devFds.lookup key = some file →
      (openNvmeFiles mapping allocated cs i devFds).2.lookup key = some file) ∧
    ∀ key file, (openNvmeFiles mapping allocated cs i devFds).2.lookup key = some file →
      devFds.lookup key = some file ∨
        ∃ j c, cs[j]? = some c ∧ key.1 = i + j ∧ c.files key.2 = some file.hdr := by
  induction cs generalizing i devFds with
  | nil => exact ⟨fun key file h => h, fun key file h => Or.inl h⟩
  | cons c rest ih =>
      have hshift : ∀ (devFds : AList fun _ : ℕ × ℕ => NVMeFile) (key : ℕ × ℕ) (file : NVMeFile),
          (openNvmeFiles mapping allocated rest (i + 1) devFds).2.lookup key = some file →
          devFds.lookup key = some file ∨ ∃ j c', (c :: rest)[j]? = some c' ∧ key.1 = i + j ∧
            c'.files key.2 = some file.hdr := by
        intro devFds key file h
        rcases (ih (i + 1) devFds).2 key file h with h | ⟨j, c', hj, hkey, hfile⟩
        · exact Or.inl h
        · exact Or.inr ⟨j + 1, c', by simpa using hj, by omega, hfile⟩
      rw [openNvmeFiles]
      by_cases hfour : 4 ≤ i
      · rw [if_pos hfour]
        exact ⟨fun key file h => h, fun key file h => Or.inl h⟩
      · rw [if_neg hfour]
        split_ifs with hskip
        · exact ⟨(ih (i + 1) devFds).1, hshift devFds⟩
        · simp only [Bool.or_eq_true, Bool.not_eq_true', decide_eq_true_eq, not_or] at hskip
          cases hopen : c.deviceFileOpenManaged (mapping.fileId i) (allocated i) with
          | none => exact ⟨fun key file h => h, fun key file h => Or.inl h⟩
          | some file₀ =>
              have hfile₀ : c.files (mapping.fileId i) = some file₀.hdr := by
                rw [NVMeController.deviceFileOpenManaged] at hopen
                split_ifs at hopen
                obtain ⟨hdr, hhdr, rfl⟩ := Option.map_eq_some_iff.mp hopen
                exact hhdr
              refine ⟨?_, ?_⟩
              · intro key file h
                apply (ih (i + 1) _).1
                rw [AList.lookup_insert_ne]
                · exact h
                · rintro rfl
                  apply hskip.2
                  rw [← AList.lookup_isSome, h]
                  rfl
              · intro key file h
                rcases hshift _ key file h with h | h
                · by_cases hkey : key = (i, mapping.fileId i)
                  · subst hkey
                    rw [AList.lookup_insert] at h
                    cases h
                    exact Or.inr ⟨0, c, rfl, rfl, hfile₀⟩
                  · rw [AList.lookup_insert_ne hkey] at h
                    exact Or.inl h
                · exact Or.inr h

/-- The NVMe files that are found for a file stay when more are opened. -/
theorem collectDevFds_mono {mapping : CompactNVMeMapping}
    {devFds devFds' : AList fun _ : ℕ × ℕ => NVMeFile}
    (hmono : ∀ key file, devFds.lookup key = some file → devFds'.lookup key = some file)
    (cs : List NVMeController) (i : ℕ) {files : List NVMeFile}
    (h : collectDevFds mapping devFds cs i = some files) :
    collectDevFds mapping devFds' cs i = some files := by
  induction cs generalizing i files with
  | nil => exact h
  | cons c rest ih =>
      rw [collectDevFds] at h ⊢
      split_ifs at h ⊢
      · exact h
      · exact ih (i + 1) h
      · simp only [Option.bind_eq_bind, Option.bind_eq_some_iff] at h ⊢
        obtain ⟨file, hfile, files', hfiles', heq⟩ := h
        exact ⟨file, hmono _ _ hfile, files', ih (i + 1) hfiles', heq⟩

/-- Setting up a file opens NVMe files, and may put the file into the free list. -/
theorem initGPUFile_frame (m : GPUFileManager) (fileId : ℕ) (allocated : ℕ → Bool) :
    ∃ devFds freeList, (m.initGPUFile fileId allocated).2 = { m with devFds, freeList } ∧
      (devFds = m.devFds ∨ ∃ mapping, devFds =
        (openNvmeFiles mapping allocated m.nvmeControllers 0 m.devFds).2) := by
  rw [initGPUFile]
  split_ifs
  · exact ⟨m.devFds, m.freeList, rfl, Or.inl rfl⟩
  · cases m.descs.lookup fileId with
    | none => exact ⟨m.devFds, m.freeList, rfl, Or.inl rfl⟩
    | some desc =>
        simp only
        split_ifs
        · exact ⟨m.devFds, m.freeList, rfl, Or.inl rfl⟩
        · cases hopen : openNvmeFiles desc.nvmeMapping allocated m.nvmeControllers 0 m.devFds with
          | mk ok devFds =>
              have hdevFds : devFds =
                  (openNvmeFiles desc.nvmeMapping allocated m.nvmeControllers 0 m.devFds).2 := by
                rw [hopen]
              cases ok with
              | false => exact ⟨devFds, m.freeList, rfl, Or.inr ⟨_, hdevFds⟩⟩
              | true => exact ⟨devFds, _, rfl, Or.inr ⟨_, hdevFds⟩⟩

theorem getDevFdById_mono {m : GPUFileManager} {devFds : AList fun _ : ℕ × ℕ => NVMeFile}
    {freeList : List ℕ}
    (hmono : ∀ key file, m.devFds.lookup key = some file → devFds.lookup key = some file)
    {fileId : ℕ} {files : List NVMeFile} (h : m.getDevFdById fileId = some files) :
    ({ m with devFds, freeList } : GPUFileManager).getDevFdById fileId = some files := by
  rw [getDevFdById] at h ⊢
  cases hdesc : m.descs.lookup fileId with
  | none => simp [hdesc] at h
  | some desc =>
      simp only [hdesc] at h ⊢
      split_ifs at h ⊢
      exact collectDevFds_mono hmono _ _ h

/-- **One step** of serving keeps the invariant, the files and the controllers. -/
theorem Serving.serveStep {m m' : GPUFileManager} (hm : Serving m) {op : ServeOp}
    (h : m.serveStep op = some m') :
    Serving m' ∧ m'.descs = m.descs ∧ m'.nvmeControllers = m.nvmeControllers := by
  cases op with
  | initGPUFile fileId allocated =>
      obtain ⟨devFds, freeList, heq, hdevFds⟩ := initGPUFile_frame m fileId allocated
      rw [GPUFileManager.serveStep, heq] at h
      cases h
      have hmono : ∀ key file, m.devFds.lookup key = some file → devFds.lookup key = some file := by
        rcases hdevFds with rfl | ⟨mapping, rfl⟩
        · exact fun key file h => h
        · exact (openNvmeFiles_lookup mapping allocated m.nvmeControllers 0 m.devFds).1
      refine ⟨⟨?_, ?_⟩, rfl, rfl⟩
      · intro i id file hfile
        rcases hdevFds with rfl | ⟨mapping, rfl⟩
        · exact hm.devFds i id file hfile
        · rcases (openNvmeFiles_lookup mapping allocated m.nvmeControllers 0 m.devFds).2 _ _ hfile with
            hold | ⟨j, c, hj, hkey, hnew⟩
          · exact hm.devFds i id file hold
          · obtain rfl : i = j := by simpa using hkey
            exact ⟨c, hj, hnew⟩
      · intro fileId' files hfiles
        exact getDevFdById_mono hmono (hm.ctxs fileId' files hfiles)
  | openGPUFile allocated =>
      rw [GPUFileManager.serveStep, GPUFileManager.openGPUFile] at h
      cases hlast : m.freeList.getLast? with
      | none =>
          simp only [hlast, Option.map_some, Option.some.injEq] at h
          subst h
          exact ⟨hm, rfl, rfl⟩
      | some fileId =>
          cases hdev : m.getDevFdById fileId with
          | none => simp [hlast, hdev] at h
          | some devFds =>
              simp only [hlast, hdev, Option.bind_eq_bind, Option.bind_some] at h
              cases allocated with
              | false =>
                  cases h
                  exact ⟨⟨hm.devFds, hm.ctxs⟩, rfl, rfl⟩
              | true =>
                  cases h
                  refine ⟨⟨hm.devFds, ?_⟩, rfl, rfl⟩
                  intro fileId' files hfiles
                  rcases eq_or_ne fileId' fileId with rfl | hne
                  · rw [AList.lookup_insert] at hfiles
                    cases hfiles
                    exact hdev
                  · rw [AList.lookup_insert_ne hne] at hfiles
                    exact hm.ctxs fileId' files hfiles
  | closeGPUFile fileId =>
      rw [GPUFileManager.serveStep, GPUFileManager.closeGPUFile] at h
      split_ifs at h
      · cases h
        refine ⟨⟨hm.devFds, ?_⟩, rfl, rfl⟩
        intro fileId' files hfiles
        rcases eq_or_ne fileId' fileId with rfl | hne
        · rw [AList.lookup_erase] at hfiles
          cases hfiles
        · rw [AList.lookup_erase_ne hne] at hfiles
          exact hm.ctxs fileId' files hfiles
      · cases h
        exact ⟨hm, rfl, rfl⟩

/-- **A run** of serving keeps the invariant, the files and the controllers. -/
theorem Serving.serveRun {m m' : GPUFileManager} (hm : Serving m) (ops : List ServeOp)
    (h : m.serveRun ops = some m') :
    Serving m' ∧ m'.descs = m.descs ∧ m'.nvmeControllers = m.nvmeControllers := by
  induction ops generalizing m with
  | nil =>
      cases h
      exact ⟨hm, rfl, rfl⟩
  | cons op ops ih =>
      rw [GPUFileManager.serveRun, Option.bind_eq_bind, Option.bind_eq_some_iff] at h
      obtain ⟨m₁, hstep, hrun⟩ := h
      obtain ⟨hm₁, hdescs₁, hcs₁⟩ := hm.serveStep hstep
      obtain ⟨hm₂, hdescs₂, hcs₂⟩ := ih hm₁ hrun
      exact ⟨hm₂, hdescs₂.trans hdescs₁, hcs₂.trans hcs₁⟩

/-- What is found for a file that has an NVMe file on each of the first four controllers. -/
theorem collectDevFds_eq_some {mapping : CompactNVMeMapping}
    {devFds : AList fun _ : ℕ × ℕ => NVMeFile} (cs : List NVMeController) {i : ℕ}
    {files : List NVMeFile} (h : collectDevFds mapping devFds cs i = some files) (hi : i ≤ 4)
    (hmapping : ∀ j < 4, j < i + cs.length → mapping.hasNvmeController j = true) :
    files.length = min (i + cs.length) 4 - i ∧
      ∀ file ∈ files, ∃ j < 4, j < i + cs.length ∧
        devFds.lookup (j, mapping.fileId j) = some file := by
  induction cs generalizing i files with
  | nil =>
      cases h
      refine ⟨?_, fun file hfile => absurd hfile List.not_mem_nil⟩
      simp only [List.length_nil]
      omega
  | cons c rest ih =>
      rw [List.length_cons] at hmapping ⊢
      rw [collectDevFds] at h
      by_cases hfour : 4 ≤ i
      · rw [if_pos hfour] at h
        cases h
        refine ⟨?_, fun file hfile => absurd hfile List.not_mem_nil⟩
        simp only [List.length_nil]
        omega
      · rw [if_neg hfour, if_neg (by rw [hmapping i (by omega) (by omega)]; decide),
          Option.bind_eq_bind, Option.bind_eq_some_iff] at h
        obtain ⟨file₀, hfile₀, h⟩ := h
        rw [Option.bind_eq_bind, Option.bind_eq_some_iff] at h
        obtain ⟨files', hfiles', heq⟩ := h
        cases heq
        obtain ⟨hlen, hrest⟩ := ih hfiles' (by omega) fun j hj hlt => hmapping j hj (by omega)
        refine ⟨?_, ?_⟩
        · rw [List.length_cons, hlen]
          omega
        · intro file hfile
          rcases List.mem_cons.mp hfile with rfl | hfile
          · exact ⟨i, by omega, by omega, hfile₀⟩
          · obtain ⟨j, hj, hlt, hlookup⟩ := hrest file hfile
            exact ⟨j, hj, by omega, hlookup⟩

/-- A manager that has opened nothing serves files. -/
theorem serving_of_closed {m : GPUFileManager} (hdevFds : m.devFds = ∅) (hctxs : m.ctxs = ∅) :
    Serving m := by
  constructor
  · intro i id file hfile
    rw [hdevFds, AList.lookup_empty] at hfile
    cases hfile
  · intro fileId files hfiles
    rw [hctxs, AList.lookup_empty] at hfiles
    cases hfiles

/-- **The NVMe files of an open file**: one on each of the first four controllers, all with the size they
were created with. -/
theorem Serving.span {m : GPUFileManager} (hm : Serving m) {size len fileId : ℕ}
    (hcreated : m.Created size len fileId) {span : List NVMeFile}
    (hopen : m.ctxs.lookup fileId = some span) :
    span.length = min m.nvmeControllers.length 4 ∧ ∀ file ∈ span, file.getFileSize = size := by
  obtain ⟨desc, ids, hdesc, hmapping, -, hcount, hfiles⟩ := hcreated
  have hfound := hm.ctxs fileId span hopen
  rw [getDevFdById, hdesc] at hfound
  simp only at hfound
  split_ifs at hfound
  rw [hmapping] at hfound
  have hhas : ∀ j < 4, j < 0 + m.nvmeControllers.length →
      (CompactNVMeMapping.ofFiles ids).hasNvmeController j = true := by
    intro j hj hlt
    exact CompactNVMeMapping.hasNvmeController_ofFiles ids hj (by omega)
  obtain ⟨hlen, hspan⟩ := collectDevFds_eq_some _ hfound (by omega) hhas
  rw [Nat.zero_add, Nat.sub_zero] at hlen
  refine ⟨hlen, ?_⟩
  intro file hfile
  obtain ⟨j, hj, hlt, hlookup⟩ := hspan file hfile
  obtain ⟨id, hid⟩ : ∃ id, ids[j]? = some id := ⟨_, List.getElem?_eq_getElem (by omega)⟩
  obtain ⟨c, hc, hidlt, hdr, hhdr, hsize⟩ := hfiles j id hj hid
  rw [CompactNVMeMapping.fileId_ofFiles ids hj hid,
    Nat.mod_eq_of_lt (hidlt.trans (by rw [MAX_RECORDS_eq]; decide))] at hlookup
  -- what is open on the device is the file of the controller
  obtain ⟨c', hc', hfile'⟩ := hm.devFds j id file hlookup
  rw [hc] at hc'
  cases hc'
  rw [hhdr] at hfile'
  cases hfile'
  exact hsize

end GPUFileManager

/-! ### One slice for each tensor -/

/-- If a granule is one slice, then each tensor of a transfer has one context. -/
theorem fillCtx_whole {m : GPUFileManager} {gpu : GPUController} {maxIOsizes : List (Option ℕ)}
    {granularity offset : ℕ} (hgpu : gpu.Registered maxIOsizes granularity) (hpos : 0 < granularity)
    (hle : granularity ≤ minMaxIoSize maxIOsizes) {cache : List Tensor} {fileIds : List ℕ}
    {ctxs : List GPUIoContext} (h : fillCtx m gpu offset cache fileIds = some ctxs)
    {ctx : GPUIoContext} (hctx : ctx ∈ ctxs) :
    (∃ fileId ∈ fileIds, m.ctxs.lookup fileId = some ctx.nvmeFiles) ∧
      ctx.prpEntry.dataLength = granularity % 2 ^ 32 ∧ ctx.prpIdx = 0 ∧ ctx.fileOffset = offset := by
  obtain ⟨tensor, -, fileId, hfileId, here, hhere, hctx⟩ := mem_fillCtx h hctx
  obtain ⟨nvmeFiles, mappings, hfiles, hmappings, -, -, rfl⟩ := fillOne_eq_some.mp hhere
  rw [GPUController.getPrpMappings] at hmappings
  split_ifs at hmappings
  have hlengths := (hgpu.lengths hpos).2 _ _ hmappings
  rw [Tiling.cut_of_le hpos hle, List.map_singleton, List.map_eq_singleton_iff] at hlengths
  obtain ⟨entry, rfl, hlength⟩ := hlengths
  rw [ioContexts, List.mapIdx_singleton, List.mem_singleton] at hctx
  subst hctx
  exact ⟨⟨fileId, hfileId, hfiles⟩, hlength, rfl, rfl⟩

/-- **When a slice is served**: block `b` of a file is the `b / n`-th on its NVMe file. -/
theorem serve_issued_iff {ctx : GPUIoContext} {size len b : ℕ} (hspan : ctx.nvmeFiles ≠ [])
    (hsize : ∀ file ∈ ctx.nvmeFiles, file.getFileSize = size)
    (hlength : ctx.prpEntry.dataLength = len) (hidx : ctx.prpIdx = 0)
    (hoffset : ctx.fileOffset = b * len) (hpage : 4096 ∣ len) :
    (∃ access, ctx.serve len = .issued access) ↔
      0 < len ∧ (b / ctx.nvmeFiles.length + 1) * len ≤ size := by
  have hdevices : 0 < ctx.nvmeFiles.length := List.length_pos_iff.mpr hspan
  rcases Nat.eq_zero_or_pos len with rfl | hpos
  · -- no access has length 0
    refine ⟨?_, fun h => absurd h.1 (lt_irrefl 0)⟩
    rintro ⟨access, haccess⟩
    exfalso
    have hcheck : checkFileAccessSafety ctx.nvmeFiles[ctx.placement.device]? 0 ctx.placement.start
        ctx.placement.length = false := by
      have hzero : ctx.placement.length = 0 := hlength
      rw [hzero]
      cases ctx.nvmeFiles[ctx.placement.device]? with
      | none => rfl
      | some file =>
          simp only [checkFileAccessSafety]
          split_ifs <;> trivial
    rw [GPUIoContext.serve, if_neg (by omega)] at haccess
    simp only [hcheck] at haccess
    cases haccess
  · have hplacement : ctx.placement = Tiling.roundRobin ctx.nvmeFiles.length len b := by
      simp only [GPUIoContext.placement, hlength, hidx, hoffset, Nat.mul_div_cancel b hpos, Nat.add_zero]
      rfl
    have hdevice : b % ctx.nvmeFiles.length < ctx.nvmeFiles.length := Nat.mod_lt _ hdevices
    have hfile := hsize _ (List.getElem_mem hdevice)
    have hcheck : checkFileAccessSafety ctx.nvmeFiles[b % ctx.nvmeFiles.length]? len
        (b / ctx.nvmeFiles.length * len) len = true ↔
          (b / ctx.nvmeFiles.length + 1) * len ≤ size := by
      have hmod : b / ctx.nvmeFiles.length * len % 4096 = 0 :=
        Nat.mod_eq_zero_of_dvd (hpage.mul_left _)
      rw [List.getElem?_eq_getElem hdevice, Nat.succ_mul]
      simp only [checkFileAccessSafety, hfile]
      split_ifs <;> simp <;> omega
    rw [GPUIoContext.serve, if_neg (by omega)]
    simp only [hplacement, Tiling.roundRobin]
    rw [← hcheck]
    refine ⟨?_, ?_⟩
    · rintro ⟨access, haccess⟩
      refine ⟨hpos, ?_⟩
      split_ifs at haccess with hok
      exact hok
    · rintro ⟨-, hok⟩
      rw [if_pos hok]
      exact ⟨_, rfl⟩

/-! ### Transfers -/

/-- No transfer of layers below `layers` to or from the given files that returns has a thread that skips
its slice. -/
def NoSliceDropped (m : GPUFileManager) (gpu : GPUController) (files : List ℕ) (layers : ℕ) : Prop :=
  ∀ (k : Tensor) (ks vCaches : List Tensor) (gpuFileIds : List ℕ) (layerIdx available : ℕ)
    (out : List (List GPUIoContext)), layerIdx < layers → (∀ fileId ∈ gpuFileIds, fileId ∈ files) →
    geminifsBatchedXfer m gpu (k :: ks) vCaches gpuFileIds layerIdx available = some out →
    ∀ batch ∈ out, ∀ tid < batch.length,
      ∃ access, nvmeBatchXferKernel batch k.nbytes batch.length tid = .issued access

section Condition

variable {m₀ m₁ m : GPUFileManager} {gpu : GPUController} {maxIOsizes : List (Option ℕ)}
  {layers len : ℕ} {files : List ℕ}

/-- What a transfer on created files is about: as many controllers as there are, up to four, and NVMe
files of the size they were created with. -/
structure Ready (m : GPUFileManager) (gpu : GPUController) (files : List ℕ) (len devices size : ℕ) :
    Prop where
  devices_pos : 0 < devices
  page : 4096 ∣ len
  shape : ∀ fileId ∈ files, ∃ desc, m.descs.lookup fileId = some desc ∧
    desc.tensorShape 2 = UInt32.ofNat len
  span : ∀ fileId ∈ files, ∀ span, m.ctxs.lookup fileId = some span →
    span.length = devices ∧ ∀ file ∈ span, file.getFileSize = size
  context : ∀ (offset : ℕ) (cache : List Tensor) (fileIds : List ℕ) (ctxs : List GPUIoContext),
    fillCtx m gpu offset cache fileIds = some ctxs → ∀ ctx ∈ ctxs,
      (∃ fileId ∈ fileIds, m.ctxs.lookup fileId = some ctx.nvmeFiles) ∧
        ctx.prpEntry.dataLength = len % 2 ^ 32 ∧ ctx.prpIdx = 0 ∧ ctx.fileOffset = offset

/-- Files that were created and opened are ready for transfers. -/
theorem ready_of_createdBy (hcontrollers : m₀.nvmeControllers ≠ []) (hdevFds : m₀.devFds = ∅)
    (hctxs : m₀.ctxs = ∅) (hcreated : GPUFileManager.CreatedBy m₀ layers len files m₁)
    {ops : List GPUFileManager.ServeOp} (hrun : m₁.serveRun ops = some m) (hlen : 0 < len)
    (hpage : 4096 ∣ len) (hgpu : gpu.Registered maxIOsizes len) (hio : len ≤ minMaxIoSize maxIOsizes) :
    Ready m gpu files len (min m₀.nvmeControllers.length 4)
      (perNvmeFileSize (GPUFileManager.gpuFileSize layers len) m₀.nvmeControllers.length) := by
  obtain ⟨hfiles, hcount, hctxs₁, hdevFds₁, -⟩ := hcreated.created hcontrollers
  have hserving := GPUFileManager.serving_of_closed (hdevFds₁.trans hdevFds) (hctxs₁.trans hctxs)
  obtain ⟨hm, hdescs, hcs⟩ := hserving.serveRun ops hrun
  constructor
  · have hpos := List.length_pos_iff.mpr hcontrollers
    omega
  · exact hpage
  · intro fileId hfileId
    obtain ⟨desc, ids, hdesc, -, hshape, -⟩ := hfiles fileId hfileId
    exact ⟨desc, by rw [hdescs, hdesc], hshape⟩
  · intro fileId hfileId span hspan
    have hcreated' : m.Created (perNvmeFileSize (GPUFileManager.gpuFileSize layers len)
        m₀.nvmeControllers.length) len fileId := by
      obtain ⟨desc, ids, hdesc, hrest⟩ := hfiles fileId hfileId
      refine ⟨desc, ids, by rw [hdescs, hdesc], ?_⟩
      rwa [hcs]
    have hopen := hm.span hcreated' hspan
    rwa [hcs, hcount] at hopen
  · intro offset cache fileIds ctxs hfill ctx hctx
    exact fillCtx_whole hgpu hlen hio hfill hctx

/-- A context of a transfer is served exactly if its block fits. -/
theorem Ready.serve_iff {devices size : ℕ} (hready : Ready m gpu files len devices size)
    {gpuFileIds : List ℕ} (hids : ∀ fileId ∈ gpuFileIds, fileId ∈ files) {cache : List Tensor}
    {layerIdx : ℕ} {kv : KV} {ctxs : List GPUIoContext}
    (hfill : fillCtx m gpu (kv.fileOffset layerIdx (len % 2 ^ 32)) cache gpuFileIds = some ctxs)
    {ctx : GPUIoContext} (hctx : ctx ∈ ctxs) :
    (∃ access, ctx.serve (len % 2 ^ 32) = .issued access) ↔
      0 < len % 2 ^ 32 ∧
        ((2 * layerIdx + kv.number) / devices + 1) * (len % 2 ^ 32) ≤ size := by
  obtain ⟨⟨fileId, hfileId, hspan⟩, hlength, hidx, hoffset⟩ :=
    hready.context _ _ _ _ hfill ctx hctx
  obtain ⟨hdevices, hsize⟩ := hready.span fileId (hids fileId hfileId) _ hspan
  have hne : ctx.nvmeFiles ≠ [] := by
    rw [← List.length_pos_iff, hdevices]
    exact hready.devices_pos
  have hpage : 4096 ∣ len % 2 ^ 32 := (Nat.dvd_mod_iff (by decide)).mpr hready.page
  rw [KV.fileOffset_eq] at hoffset
  rw [← hdevices]
  exact serve_issued_iff hne hsize hlength hidx hoffset hpage

/-- The first tensor of a transfer has a context. -/
theorem exists_mem_fillCtx {offset fileId : ℕ} {tensor : Tensor} {cache : List Tensor}
    {fileIds : List ℕ} {ctxs : List GPUIoContext}
    (h : fillCtx m gpu offset (tensor :: cache) (fileId :: fileIds) = some ctxs) : ∃ ctx, ctx ∈ ctxs := by
  simp only [fillCtx, Option.bind_eq_bind, Option.bind_eq_some_iff] at h
  obtain ⟨here, hhere, rest, -, heq⟩ := h
  cases heq
  obtain ⟨nvmeFiles, mappings, -, -, -, hne, rfl⟩ := fillOne_eq_some.mp hhere
  obtain ⟨entry, entries, rfl⟩ := List.exists_cons_of_ne_nil hne
  refine ⟨⟨nvmeFiles, entry, 0, offset⟩, List.mem_append_left _ ?_⟩
  rw [ioContexts, List.mapIdx_cons]
  exact List.mem_cons_self

/-- The tensors of a transfer have the length that is recorded for the file. -/
theorem Ready.nbytes {devices size : ℕ} (hready : Ready m gpu files len devices size)
    {fileId : ℕ} (hfileId : fileId ∈ files) {desc : GPUFileDesc}
    (hdesc : m.descs.lookup fileId = some desc) : (desc.tensorShape 2).toNat = len % 2 ^ 32 := by
  obtain ⟨desc', hdesc', hshape⟩ := hready.shape fileId hfileId
  rw [hdesc] at hdesc'
  cases hdesc'
  rw [hshape]
  rfl

/-- **No slice is dropped if all blocks fit.** -/
theorem Ready.noSliceDropped {devices size : ℕ} (hready : Ready m gpu files len devices size)
    (hlen : 0 < len % 2 ^ 32)
    (hfits : ∀ b < 2 * layers, (b / devices + 1) * (len % 2 ^ 32) ≤ size) :
    NoSliceDropped m gpu files layers := by
  intro k ks vCaches gpuFileIds layerIdx available out hlayer hids hxfer
  obtain ⟨k', ks', v, vs, fileId, fileIds, desc, kIoctxs, vIoctxs, ⟨hk, rfl, rfl⟩, -, hdesc, hbytes, -,
    hkfill, hvfill, hsame, -, rfl⟩ := geminifsBatchedXfer_eq_some.mp hxfer
  cases hk
  rw [hready.nbytes (hids fileId List.mem_cons_self) hdesc] at hbytes
  rw [hbytes] at hkfill hvfill ⊢
  rw [forall_threads_iff _ _ fun result => ∃ access, result = .issued access]
  intro ctx hctx
  rcases (mem_combine hsame).mp hctx with hctx | hctx
  · refine (hready.serve_iff hids hkfill hctx).mpr ⟨hlen, hfits _ ?_⟩
    simp only [KV.number]
    omega
  · refine (hready.serve_iff hids hvfill hctx).mpr ⟨hlen, hfits _ ?_⟩
    simp only [KV.number]
    omega

/-- **When no slice is dropped**, on files for which some transfer returns: exactly if each NVMe file
has room for as many tensors as there are for each of the first four controllers, rounded up. -/
theorem noSliceDropped_iff (hcontrollers : m₀.nvmeControllers ≠ []) (hdevFds : m₀.devFds = ∅)
    (hctxs : m₀.ctxs = ∅) (hcreated : GPUFileManager.CreatedBy m₀ layers len files m₁)
    {ops : List GPUFileManager.ServeOp} (hrun : m₁.serveRun ops = some m) (hlen : 0 < len)
    (hpage : 4096 ∣ len) (hgpu : gpu.Registered maxIOsizes len) (hio : len ≤ minMaxIoSize maxIOsizes)
    {kCaches vCaches : List Tensor} {gpuFileIds : List ℕ} {layerIdx available : ℕ}
    (hids : ∀ fileId ∈ gpuFileIds, fileId ∈ files)
    (hcall : (geminifsBatchedXfer m gpu kCaches vCaches gpuFileIds layerIdx available).isSome = true) :
    NoSliceDropped m gpu files layers ↔
      0 < len % 2 ^ 32 ∧
        (2 * layers) ⌈/⌉ min m₀.nvmeControllers.length 4 * (len % 2 ^ 32) ≤
          perNvmeFileSize (GPUFileManager.gpuFileSize layers len) m₀.nvmeControllers.length := by
  have hready := ready_of_createdBy hcontrollers hdevFds hctxs hcreated hrun hlen hpage hgpu hio
  have hsize := (hcreated.created hcontrollers).2.2.2.2
  have hlayers : 0 < layers := by
    rw [Nat.pos_iff_ne_zero]
    rintro rfl
    rw [GPUFileManager.gpuFileSize, Nat.mul_zero, Nat.zero_mul, Nat.zero_mod, perNvmeFileSize,
      Nat.zero_div] at hsize
    exact absurd hsize (by decide)
  rw [← Tiling.roundRobin_fits_iff hready.devices_pos]
  refine ⟨?_, fun hfits => hready.noSliceDropped hfits.1 hfits.2⟩
  intro hall
  -- the V cache of the last layer has the last block
  obtain ⟨out₀, hout₀⟩ := Option.isSome_iff_exists.mp hcall
  obtain ⟨out, hout⟩ := geminifsBatchedXfer_layer hout₀ (layers - 1)
  obtain ⟨k, ks, v, vs, fileId, fileIds, desc, kIoctxs, vIoctxs, ⟨rfl, rfl, rfl⟩, -, hdesc, hbytes, -,
    -, hvfill, hsame, -, rfl⟩ := geminifsBatchedXfer_eq_some.mp hout
  have hthreads := hall k ks _ _ _ _ _ (by omega) hids hout
  rw [hready.nbytes (hids fileId List.mem_cons_self) hdesc] at hbytes
  rw [hbytes, forall_threads_iff _ _ fun result => ∃ access, result = .issued access] at hthreads
  rw [hbytes] at hvfill
  obtain ⟨ctx, hctx⟩ := exists_mem_fillCtx hvfill
  obtain ⟨hpos, hlast⟩ := (hready.serve_iff hids hvfill hctx).mp
    (hthreads ctx ((mem_combine hsame).mpr (Or.inr hctx)))
  refine ⟨hpos, ?_⟩
  intro b hb
  refine le_trans (Nat.mul_le_mul_right _ (Nat.succ_le_succ (Nat.div_le_div_right ?_))) hlast
  simp only [KV.number]
  omega

end Condition

/-! ### Tensors of one page -/

/-- A manager with `n` controllers and nothing on them. -/
def freshManager (n : ℕ) : GPUFileManager :=
  GPUFileManager.opened ByteFile.empty (LogHeader.initial GPUFileManager.MAGIC_NUMBER 56)
    (fun _ => false) (List.replicate n GPUFileManager.freshController) 1000

/-- Its GPU controller, with a K and a V cache of one page. -/
def onePageGpu (n : ℕ) : GPUController :=
  (GPUController.registerTensorMemory ⟨List.replicate n (some 1048576), [], ∅⟩
    ⟨0, 8192⟩ 4096 [4096, 8192] []).getD ⟨[], [], ∅⟩

/-- The manager with a file of shape `[2, layers, 4096]`. -/
def onePageFile (n layers : ℕ) : Option ℕ × GPUFileManager :=
  (freshManager n).createGPUFile (GPUFileManager.gpuFileSize layers 4096) [2, layers, 4096]
    fun _ => some []

/-- The manager with the file open. -/
def onePageServed (n layers : ℕ) : Option GPUFileManager :=
  (onePageFile n layers).2.serveRun [.initGPUFile 0 fun _ => true, .openGPUFile true]

theorem createdBy_onePageFile {n layers : ℕ} (h : (onePageFile n layers).1 = some 0) :
    GPUFileManager.CreatedBy (freshManager n) layers 4096 [0] (onePageFile n layers).2 :=
  .createGPUFile (fun _ => some []) (Prod.ext h rfl)

/-- On one controller a file of eight layers has room for all of them. -/
theorem noSliceDropped_one_controller :
    ∃ m, onePageServed 1 8 = some m ∧ NoSliceDropped m (onePageGpu 1) [0] 8 := by
  obtain ⟨m, hm⟩ := Option.isSome_iff_exists.mp
    (show (onePageServed 1 8).isSome = true by decide +kernel)
  have hgpu : (onePageGpu 1).Registered [some 1048576] 4096 :=
    .tensor .none (by decide) (show GPUController.registerTensorMemory ⟨[some 1048576], [], ∅⟩
      ⟨0, 8192⟩ 4096 [4096, 8192] [] = some (onePageGpu 1) from rfl)
  have hcall : ((onePageServed 1 8).bind fun m =>
      geminifsBatchedXfer m (onePageGpu 1) [⟨0, 4096⟩] [⟨4096, 4096⟩] [0] 0 1).isSome = true := by
    decide +kernel
  rw [hm, Option.bind_some] at hcall
  refine ⟨m, hm, (noSliceDropped_iff (List.cons_ne_nil _ _) rfl rfl
    (createdBy_onePageFile (by decide +kernel)) hm (by decide) (by decide) hgpu (by decide)
    (fun fileId hfileId => hfileId) hcall).mpr ⟨by decide, ?_⟩⟩
  decide

/-- On five controllers a file of forty layers gets 65536 bytes on each, and the four that are used need
81920: the V cache of the last layer is not written. -/
theorem noSliceDropped_fails_five_controllers :
    ∃ m, GPUFileManager.CreatedBy (freshManager 5) 40 4096 [0] (onePageFile 5 40).2 ∧
      onePageServed 5 40 = some m ∧
      (onePageGpu 5).Registered (List.replicate 5 (some 1048576)) 4096 ∧
      ¬NoSliceDropped m (onePageGpu 5) [0] 40 := by
  have hskip : ((onePageServed 5 40).bind fun m =>
      (geminifsBatchedXfer m (onePageGpu 5) [⟨0, 4096⟩] [⟨4096, 4096⟩] [0] 39 1).map fun out =>
        out.map fun batch => (batch.length, nvmeBatchXferKernel batch 4096 batch.length 1)) =
      some [(2, .skipped)] := by
    decide +kernel
  obtain ⟨m, hm, hskip⟩ := Option.bind_eq_some_iff.mp hskip
  obtain ⟨out, hout, hskip⟩ := Option.map_eq_some_iff.mp hskip
  obtain ⟨batch, rfl, hbatch⟩ := List.map_eq_singleton_iff.mp hskip
  rw [Prod.mk.injEq] at hbatch
  refine ⟨m, createdBy_onePageFile (by decide +kernel), hm, ?_, ?_⟩
  · exact .tensor .none (by decide) (show GPUController.registerTensorMemory
      ⟨List.replicate 5 (some 1048576), [], ∅⟩ ⟨0, 8192⟩ 4096 [4096, 8192] [] = some (onePageGpu 5)
      from rfl)
  · intro hall
    obtain ⟨access, haccess⟩ := hall ⟨0, 4096⟩ [] _ _ 39 1 _ (by decide) (fun fileId h => h) hout batch
      (List.mem_singleton_self _) 1 (by omega)
    rw [hbatch.2] at haccess
    cases haccess

end GeminiFS
end InfiniKV
