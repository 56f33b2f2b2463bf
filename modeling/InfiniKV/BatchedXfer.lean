/-
**Batched transfers between tensors and GPU files.**

The K and V caches of a layer are transferred to or from a list of GPU files in one call.  The host
looks up the PRP entries of each tensor, gives each of them the offset of its layer in the file, and hands
them to a kernel in batches; one thread of the kernel serves one entry.  The thread takes the length of
its own entry for the stripe unit of the file.

A thread whose access does not pass the check of the device code returns without an access, and the
caller does not learn of it.

Main definitions:

* `InfiniKV.GeminiFS.GPUController` — the tensors that are registered, and their PRP entries;
* `InfiniKV.GeminiFS.geminifsBatchedXfer` — the host side of a transfer;
* `InfiniKV.GeminiFS.nvmeBatchXferKernel`, `checkFileAccessSafety` — the device side.

Main results:

* `InfiniKV.GeminiFS.GPUController.Registered.lengths` — **the entries of every registered granule**
  are as long as the pieces of the granule;
* `InfiniKV.GeminiFS.flatten_batches` — every context is in one batch;
* `InfiniKV.GeminiFS.geminifsBatchedXfer_eq_some` — what a transfer that returns hands to the kernel.
-/

import InfiniKV.DmaSlicing
import InfiniKV.GpuFiles

set_option relaxedAutoImplicit false
set_option autoImplicit false

namespace InfiniKV
namespace GeminiFS

/-- A tensor on the device: where its data lies, and how many bytes it has. -/
structure Tensor where
  dataPtr : ℕ
  nbytes : ℕ
  deriving DecidableEq, Repr

/-! ### Registered tensors -/

/-- `GPUController`, as far as transfers depend on it: the I/O sizes of its NVMe controllers, the
addresses with a DMA context, and the PRP entries the memory mapper has for an address. -/
structure GPUController where
  maxIOsizes : List (Option ℕ)
  dmaContexts : List ℕ
  hostMappings : AList fun _ : ℕ => List PRPMappingEntry

namespace GPUController

/-- `addBatchMappings`.  A second list of entries for an address is chained behind the first, and never
found. -/
def addBatchMappings (hostMappings : AList fun _ : ℕ => List PRPMappingEntry)
    (group : GranularitySliceGroup) : AList fun _ : ℕ => List PRPMappingEntry :=
  if group.prpMappings = [] then hostMappings
  else if group.gpuTensorPtr ∈ hostMappings then hostMappings
  else hostMappings.insert group.gpuTensorPtr group.prpMappings

/-- `registerTensorMemory`, given the I/O addresses of the tensor and of the pages for PRP lists.
`none` stands for `false`. -/
def registerTensorMemory (gpu : GPUController) (tensor : Tensor) (granularity : ℕ)
    (ioaddrs type2Ioaddrs : List ℕ) : Option GPUController :=
  if 0 < granularity ∧ granularity % 4096 ≠ 0 then none
  else if tensor.dataPtr ∈ gpu.dmaContexts then some gpu
  else do
    let sliced ← performDMASlicing gpu.maxIOsizes tensor.dataPtr tensor.nbytes granularity
    let dma ← initializePRPEntries ioaddrs type2Ioaddrs sliced
    return { gpu with
      dmaContexts := gpu.dmaContexts ++ dma.granularityGroups.map GranularitySliceGroup.gpuTensorPtr
      hostMappings := dma.granularityGroups.foldl addBatchMappings gpu.hostMappings }

/-- `get_prp_mappings`, where `none` stands for `false`. -/
def getPrpMappings (gpu : GPUController) (tensor : Tensor) : Option (List PRPMappingEntry) :=
  if tensor.dataPtr ∈ gpu.dmaContexts then gpu.hostMappings.lookup tensor.dataPtr else none

/-- A controller on which tensors of whole granules have been registered, and nothing else. -/
inductive Registered (maxIOsizes : List (Option ℕ)) (granularity : ℕ) : GPUController → Prop where
  | none : Registered maxIOsizes granularity ⟨maxIOsizes, [], ∅⟩
  | tensor {gpu gpu' : GPUController} {t : Tensor} {ioaddrs type2Ioaddrs : List ℕ}
      (hgpu : Registered maxIOsizes granularity gpu) (hwhole : granularity ∣ t.nbytes)
      (hstep : gpu.registerTensorMemory t granularity ioaddrs type2Ioaddrs = some gpu') :
      Registered maxIOsizes granularity gpu'

/-- The entries of an address are the pieces of a granule. -/
def Granules (maxIOsizes : List (Option ℕ)) (granularity : ℕ)
    (hostMappings : AList fun _ : ℕ => List PRPMappingEntry) : Prop :=
  ∀ ptr entries, hostMappings.lookup ptr = some entries →
    entries.map PRPMappingEntry.dataLength =
      (Tiling.cut (minMaxIoSize maxIOsizes) granularity).map fun piece => piece.2 % 2 ^ 32

theorem Granules.addBatchMappings {maxIOsizes : List (Option ℕ)} {granularity : ℕ}
    {hostMappings : AList fun _ : ℕ => List PRPMappingEntry}
    (h : Granules maxIOsizes granularity hostMappings) {group : GranularitySliceGroup}
    (hgroup : group.prpMappings.map PRPMappingEntry.dataLength =
      (Tiling.cut (minMaxIoSize maxIOsizes) granularity).map fun piece => piece.2 % 2 ^ 32) :
    Granules maxIOsizes granularity (GPUController.addBatchMappings hostMappings group) := by
  rw [GPUController.addBatchMappings]
  split_ifs
  · exact h
  · exact h
  · intro ptr entries hentries
    rcases eq_or_ne ptr group.gpuTensorPtr with rfl | hne
    · rw [AList.lookup_insert] at hentries
      cases hentries
      exact hgroup
    · rw [AList.lookup_insert_ne hne] at hentries
      exact h ptr entries hentries

theorem Granules.foldl_addBatchMappings {maxIOsizes : List (Option ℕ)} {granularity : ℕ}
    (groups : List GranularitySliceGroup) {hostMappings : AList fun _ : ℕ => List PRPMappingEntry}
    (h : Granules maxIOsizes granularity hostMappings)
    (hgroups : ∀ group ∈ groups, group.prpMappings.map PRPMappingEntry.dataLength =
      (Tiling.cut (minMaxIoSize maxIOsizes) granularity).map fun piece => piece.2 % 2 ^ 32) :
    Granules maxIOsizes granularity (groups.foldl GPUController.addBatchMappings hostMappings) := by
  induction groups generalizing hostMappings with
  | nil => exact h
  | cons group groups ih =>
      exact ih (h.addBatchMappings (hgroups group List.mem_cons_self))
        fun g hg => hgroups g (List.mem_cons_of_mem _ hg)

/-- A tensor of whole granules is cut into whole granules. -/
theorem granularitySize_of_dvd {maxIOsizes : List (Option ℕ)} {vaddr tensorSize granularity : ℕ}
    {dma : DmaContext} (hpos : 0 < granularity) (hdvd : granularity ∣ tensorSize)
    (hdma : performDMASlicing maxIOsizes vaddr tensorSize granularity = some dma) :
    ∀ group ∈ dma.granularityGroups, group.granularitySize = granularity := by
  intro group hgroup
  simp only [performDMASlicing] at hdma
  split_ifs at hdma with hnone
  cases hdma
  obtain ⟨piece, hpiece, rfl⟩ := List.mem_map.mp hgroup
  rw [Tiling.cut_of_dvd hpos hdvd] at hpiece
  obtain ⟨j, -, rfl⟩ := List.mem_map.mp hpiece
  rfl

/-- **The entries of every registered granule** are as long as the pieces of the granule. -/
theorem Registered.lengths {maxIOsizes : List (Option ℕ)} {granularity : ℕ} {gpu : GPUController}
    (h : Registered maxIOsizes granularity gpu) (hpos : 0 < granularity) :
    gpu.maxIOsizes = maxIOsizes ∧ Granules maxIOsizes granularity gpu.hostMappings := by
  induction h with
  | none =>
      refine ⟨rfl, ?_⟩
      intro ptr entries hentries
      simp at hentries
  | @tensor gpu gpu' t ioaddrs type2Ioaddrs hgpu hwhole hstep ih =>
      obtain ⟨hmax, hgranules⟩ := ih
      rw [registerTensorMemory] at hstep
      split_ifs at hstep
      · cases hstep
        exact ⟨hmax, hgranules⟩
      · simp only [Option.bind_eq_bind, Option.bind_eq_some_iff] at hstep
        obtain ⟨sliced, hsliced, dma, hdma, heq⟩ := hstep
        cases heq
        refine ⟨hmax, hgranules.foldl_addBatchMappings _ ?_⟩
        intro group hgroup
        obtain ⟨group₀, hgroup₀, -, hlengths⟩ := initializePRPEntries_lengths hdma group hgroup
        have hsize := granularitySize_of_dvd hpos hwhole hsliced group₀ hgroup₀
        obtain ⟨offset, rfl⟩ := performDMASlicing_groups hsliced hgroup₀ hsize hpos
        have hcut := @sizes_cutGranule (minMaxIoSize gpu.maxIOsizes) granularity offset hpos
        rw [hlengths, ← hmax]
        have hmod := congrArg (List.map fun size => size % 2 ^ 32) hcut
        simpa [List.map_map, Function.comp_def, sliceGroup] using hmod

end GPUController

/-! ### The host side -/

/-- `GPUIoContext`: one entry of a tensor, with its number, and the files and the offset it goes to. -/
structure GPUIoContext where
  nvmeFiles : List NVMeFile
  prpEntry : PRPMappingEntry
  prpIdx : ℕ
  fileOffset : ℕ

/-- The K or the V cache of a layer. -/
inductive KV where
  | k
  | v
  deriving DecidableEq, Repr

/-- The offset that a cache of `len` bytes has in a file.  A layer number is an `int` and the length is
compared with an unsigned 32-bit number before, so nothing overflows. -/
def KV.fileOffset (layerIdx len : ℕ) : KV → ℕ
  | .k => layerIdx * len * 2
  | .v => layerIdx * len * 2 + len

/-- The contexts of the entries of one tensor. -/
def ioContexts (nvmeFiles : List NVMeFile) (mappings : List PRPMappingEntry) (offset : ℕ) :
    List GPUIoContext :=
  mappings.mapIdx fun j entry => ⟨nvmeFiles, entry, j, offset⟩

/-- One pass of the loop of `fill_ctx`. -/
def fillOne (m : GPUFileManager) (gpu : GPUController) (offset : ℕ) (tensor : Tensor) (fileId : ℕ) :
    Option (List GPUIoContext) := do
  let nvmeFiles ← m.ctxs.lookup fileId
  let mappings ← gpu.getPrpMappings tensor
  if nvmeFiles = [] ∨ mappings = [] then none
  else some (ioContexts nvmeFiles mappings offset)

/-- `fill_ctx`, where `none` stands for the empty list that is returned on an error. -/
def fillCtx (m : GPUFileManager) (gpu : GPUController) (offset : ℕ) :
    List Tensor → List ℕ → Option (List GPUIoContext)
  | tensor :: cache, fileId :: fileIds => do
      let here ← fillOne m gpu offset tensor fileId
      let rest ← fillCtx m gpu offset cache fileIds
      return here ++ rest
  | _, _ => some []

/-- K and V contexts, one by one. -/
def combine : List GPUIoContext → List GPUIoContext → List GPUIoContext
  | k :: ks, v :: vs => k :: v :: combine ks vs
  | _, _ => []

/-- `MAX_IOCTX_PER_BATCH`. -/
def MAX_IOCTX_PER_BATCH : ℕ := 512

/-- The batches that are handed to the kernel. -/
def batches (ioctxs : List GPUIoContext) : List (List GPUIoContext) :=
  let ioctxsPerBatch := min MAX_IOCTX_PER_BATCH ioctxs.length
  (List.range (ioctxs.length ⌈/⌉ MAX_IOCTX_PER_BATCH)).map fun i =>
    (ioctxs.drop (i * ioctxsPerBatch)).take ioctxsPerBatch

/-- The checks that tensors and files have the same sizes.  The size of the first V tensor is not
looked at. -/
def sizesMatch (m : GPUFileManager) (tensorSize : ℕ) (totalFileSize : UInt64) (k v : Tensor)
    (fileId : ℕ) : Bool :=
  decide (k.nbytes = tensorSize) && decide (v.nbytes = tensorSize) &&
    match m.descs.lookup fileId with
    | none => false
    | some desc => decide (desc.totalFileSize = totalFileSize)

/-- Both tensors have the size that is asked for, and so does the file. -/
theorem sizesMatch_iff {m : GPUFileManager} {tensorSize : ℕ} {totalFileSize : UInt64} {k v : Tensor} {fileId : ℕ} :
    sizesMatch m tensorSize totalFileSize k v fileId = true ↔
      (k.nbytes = tensorSize ∧ v.nbytes = tensorSize) ∧
        ∃ desc, m.descs.lookup fileId = some desc ∧ desc.totalFileSize = totalFileSize := by
  rw [sizesMatch, Bool.and_eq_true, Bool.and_eq_true, decide_eq_true_eq, decide_eq_true_eq]
  cases m.descs.lookup fileId with
  | none => simp
  | some desc => simp

/-- `geminifs_batched_xfer` up to the launch of the kernels: their batches, or `none` for `false`.
`available` is the number of entries left in the pool of the file manager. -/
def geminifsBatchedXfer (m : GPUFileManager) (gpu : GPUController) (kCaches vCaches : List Tensor)
    (gpuFileIds : List ℕ) (layerIdx available : ℕ) : Option (List (List GPUIoContext)) :=
  match kCaches, vCaches, gpuFileIds with
  | k :: ks, v :: vs, fileId :: fileIds =>
      if ks.length ≠ vs.length ∨ ks.length ≠ fileIds.length then none
      else match m.descs.lookup fileId with
        | none => none
        | some desc =>
            if k.nbytes ≠ (desc.tensorShape 2).toNat then none
            else if !((ks.zip (vs.zip fileIds)).all fun p =>
                sizesMatch m k.nbytes desc.totalFileSize p.1 p.2.1 p.2.2) then none
            else do
              let kIoctxs ← fillCtx m gpu (KV.fileOffset layerIdx k.nbytes .k) (k :: ks)
                (fileId :: fileIds)
              let vIoctxs ← fillCtx m gpu (KV.fileOffset layerIdx k.nbytes .v) (v :: vs)
                (fileId :: fileIds)
              if kIoctxs.length ≠ vIoctxs.length then none
              else if available < (batches (combine kIoctxs vIoctxs)).length then none
              else some (batches (combine kIoctxs vIoctxs))
  | _, _, _ => none

/-! ### The device side -/

/-- `get_file_size`. -/
def NVMeFile.getFileSize (file : NVMeFile) : ℕ := file.hdr.virtualSpaceSize

/-- `check_file_access_safety`, where `none` stands for a null pointer. -/
def checkFileAccessSafety (file : Option NVMeFile) (tensorSize offset len : ℕ) : Bool :=
  match file with
  | none => false
  | some file =>
      if file.getFileSize = 0 then false
      else if tensorSize < len then false
      else if offset + len > file.getFileSize then false
      else if offset ≥ file.getFileSize then false
      else if len = 0 then false
      else if offset % 4096 ≠ 0 then false
      else if len % 4096 ≠ 0 then false
      else true

/-- What a thread of a kernel does. -/
inductive ThreadResult where
  | idle
  | skipped
  | issued (access : Tiling.Placement)
  deriving DecidableEq

/-- The block of the file that a context goes to: the NVMe file, and the range in it. -/
def GPUIoContext.placement (ctx : GPUIoContext) : Tiling.Placement :=
  let blkSize := ctx.prpEntry.dataLength
  let gpuBlk := ctx.fileOffset / blkSize + ctx.prpIdx
  ⟨gpuBlk % ctx.nvmeFiles.length, gpuBlk / ctx.nvmeFiles.length * blkSize, blkSize⟩

/-- A thread with a context to serve. -/
def GPUIoContext.serve (ctx : GPUIoContext) (tensorSize : ℕ) : ThreadResult :=
  if ctx.nvmeFiles.length = 0 then .skipped
  else
    let access := ctx.placement
    if checkFileAccessSafety ctx.nvmeFiles[access.device]? tensorSize access.start access.length then
      .issued access
    else .skipped

/-- `nvme_batch_xfer_kernel`, thread `tid`. -/
def nvmeBatchXferKernel (batch : List GPUIoContext) (tensorSize totalCount tid : ℕ) : ThreadResult :=
  if totalCount ≤ tid then .idle
  else match batch[tid]? with
    | none => .idle
    | some ctx => ctx.serve tensorSize

/-! ### What is handed to the kernel -/

/-- There are enough batches. -/
theorem length_le_batches (ioctxs : List GPUIoContext) :
    ioctxs.length ≤ ioctxs.length ⌈/⌉ MAX_IOCTX_PER_BATCH * min MAX_IOCTX_PER_BATCH ioctxs.length := by
  rcases Nat.le_total MAX_IOCTX_PER_BATCH ioctxs.length with hle | hle
  · rw [Nat.min_eq_left hle]
    have hceil := (ceilDiv_le_iff_le_mul (show 0 < MAX_IOCTX_PER_BATCH by decide)).mp
      (le_refl (ioctxs.length ⌈/⌉ MAX_IOCTX_PER_BATCH))
    rwa [Nat.mul_comm] at hceil
  · rw [Nat.min_eq_right hle]
    rcases Nat.eq_zero_or_pos ioctxs.length with hzero | hpos
    · rw [hzero]
      exact Nat.zero_le _
    · have hone : 0 < ioctxs.length ⌈/⌉ MAX_IOCTX_PER_BATCH := by
        rw [Tiling.lt_ceilDiv_iff (by decide), Nat.zero_mul]
        exact hpos
      exact Nat.le_mul_of_pos_left _ hone

/-- **Every context is in one batch.** -/
theorem flatten_batches (ioctxs : List GPUIoContext) : (batches ioctxs).flatten = ioctxs :=
  Tiling.flatten_chunks _ _ (length_le_batches ioctxs)

/-- The threads of all batches serve all contexts. -/
theorem forall_threads_iff (ioctxs : List GPUIoContext) (tensorSize : ℕ) (P : ThreadResult → Prop) :
    (∀ batch ∈ batches ioctxs, ∀ tid < batch.length,
      P (nvmeBatchXferKernel batch tensorSize batch.length tid)) ↔
    ∀ ctx ∈ ioctxs, P (ctx.serve tensorSize) := by
  have hkernel : ∀ (batch : List GPUIoContext) (tid : ℕ) (h : tid < batch.length),
      nvmeBatchXferKernel batch tensorSize batch.length tid = (batch.get ⟨tid, h⟩).serve tensorSize := by
    intro batch tid h
    rw [nvmeBatchXferKernel, if_neg (by omega), List.getElem?_eq_getElem h]
    rfl
  constructor
  · intro hall ctx hctx
    rw [← flatten_batches ioctxs, List.mem_flatten] at hctx
    obtain ⟨batch, hbatch, hctx⟩ := hctx
    obtain ⟨tid, htid, rfl⟩ := List.mem_iff_getElem.mp hctx
    have hthread := hall batch hbatch tid htid
    rw [hkernel batch tid htid] at hthread
    exact hthread
  · intro hall batch hbatch tid htid
    rw [hkernel batch tid htid]
    apply hall
    rw [← flatten_batches ioctxs, List.mem_flatten]
    exact ⟨batch, hbatch, List.get_mem batch ⟨tid, htid⟩⟩

theorem mem_combine {ks vs : List GPUIoContext} (hlen : ks.length = vs.length) {ctx : GPUIoContext} :
    ctx ∈ combine ks vs ↔ ctx ∈ ks ∨ ctx ∈ vs := by
  induction ks generalizing vs with
  | nil =>
      cases vs with
      | nil => simp [combine]
      | cons v vs => simp at hlen
  | cons k ks ih =>
      cases vs with
      | nil => simp at hlen
      | cons v vs =>
          rw [combine, List.mem_cons, List.mem_cons, ih (by simpa using hlen), List.mem_cons,
            List.mem_cons]
          tauto

theorem length_combine {ks vs : List GPUIoContext} (hlen : ks.length = vs.length) :
    (combine ks vs).length = 2 * vs.length := by
  induction ks generalizing vs with
  | nil =>
      rw [← hlen]
      rfl
  | cons k ks ih =>
      cases vs with
      | nil => simp at hlen
      | cons v vs =>
          rw [combine, List.length_cons, List.length_cons, ih (by simpa using hlen), List.length_cons]
          omega

/-- What one tensor contributes. -/
theorem fillOne_eq_some {m : GPUFileManager} {gpu : GPUController} {offset : ℕ} {tensor : Tensor}
    {fileId : ℕ} {ctxs : List GPUIoContext} :
    fillOne m gpu offset tensor fileId = some ctxs ↔
      ∃ nvmeFiles mappings, m.ctxs.lookup fileId = some nvmeFiles ∧
        gpu.getPrpMappings tensor = some mappings ∧ nvmeFiles ≠ [] ∧ mappings ≠ [] ∧
        ctxs = ioContexts nvmeFiles mappings offset := by
  simp only [fillOne, Option.bind_eq_bind, Option.bind_eq_some_iff]
  constructor
  · rintro ⟨nvmeFiles, hfiles, mappings, hmappings, hif⟩
    split_ifs at hif with hempty
    cases hif
    exact ⟨nvmeFiles, mappings, hfiles, hmappings, by tauto, by tauto, rfl⟩
  · rintro ⟨nvmeFiles, mappings, hfiles, hmappings, hne, hne', rfl⟩
    exact ⟨nvmeFiles, hfiles, mappings, hmappings, if_neg (by tauto)⟩

/-- A context of a call is a context of one of its files. -/
theorem mem_fillCtx {m : GPUFileManager} {gpu : GPUController} {offset : ℕ} {cache : List Tensor}
    {fileIds : List ℕ} {ctxs : List GPUIoContext} (h : fillCtx m gpu offset cache fileIds = some ctxs)
    {ctx : GPUIoContext} (hctx : ctx ∈ ctxs) :
    ∃ tensor ∈ cache, ∃ fileId ∈ fileIds, ∃ here,
      fillOne m gpu offset tensor fileId = some here ∧ ctx ∈ here := by
  induction cache generalizing fileIds ctxs with
  | nil =>
      simp only [fillCtx, Option.some.injEq] at h
      subst h
      cases hctx
  | cons tensor cache ih =>
      cases fileIds with
      | nil =>
          simp only [fillCtx, Option.some.injEq] at h
          subst h
          cases hctx
      | cons fileId fileIds =>
          simp only [fillCtx, Option.bind_eq_bind, Option.bind_eq_some_iff] at h
          obtain ⟨here, hhere, rest, hrest, heq⟩ := h
          cases heq
          rcases List.mem_append.mp hctx with hctx | hctx
          · exact ⟨tensor, List.mem_cons_self, fileId, List.mem_cons_self, here, hhere, hctx⟩
          · obtain ⟨t, ht, f, hf, hrest'⟩ := ih hrest hctx
            exact ⟨t, List.mem_cons_of_mem _ ht, f, List.mem_cons_of_mem _ hf, hrest'⟩

theorem ioContexts_offset (nvmeFiles : List NVMeFile) (mappings : List PRPMappingEntry)
    (offset offset' : ℕ) :
    (ioContexts nvmeFiles mappings offset).map (fun ctx => { ctx with fileOffset := offset' }) =
      ioContexts nvmeFiles mappings offset' := by
  apply List.ext_getElem?
  intro j
  simp [ioContexts, Function.comp_def]

/-- Whether and how many contexts are filled in does not depend on the offset. -/
theorem fillCtx_offset {m : GPUFileManager} {gpu : GPUController} {offset : ℕ} {cache : List Tensor}
    {fileIds : List ℕ} {ctxs : List GPUIoContext} (h : fillCtx m gpu offset cache fileIds = some ctxs)
    (offset' : ℕ) :
    fillCtx m gpu offset' cache fileIds =
      some (ctxs.map fun ctx => { ctx with fileOffset := offset' }) := by
  induction cache generalizing fileIds ctxs with
  | nil =>
      simp only [fillCtx, Option.some.injEq] at h ⊢
      subst h
      rfl
  | cons tensor cache ih =>
      cases fileIds with
      | nil =>
          simp only [fillCtx, Option.some.injEq] at h ⊢
          subst h
          rfl
      | cons fileId fileIds =>
          simp only [fillCtx, Option.bind_eq_bind, Option.bind_eq_some_iff] at h
          obtain ⟨here, hhere, rest, hrest, heq⟩ := h
          cases heq
          obtain ⟨nvmeFiles, mappings, hfiles, hmappings, hne, hne', rfl⟩ := fillOne_eq_some.mp hhere
          have hhere' : fillOne m gpu offset' tensor fileId =
              some (ioContexts nvmeFiles mappings offset') :=
            fillOne_eq_some.mpr ⟨nvmeFiles, mappings, hfiles, hmappings, hne, hne', rfl⟩
          rw [fillCtx, hhere', ih hrest, List.map_append, ioContexts_offset]
          rfl

/-- **What a transfer that returns hands to the kernel**: the contexts of all its tensors, at the
offsets of the layer. -/
theorem geminifsBatchedXfer_eq_some {m : GPUFileManager} {gpu : GPUController}
    {kCaches vCaches : List Tensor} {gpuFileIds : List ℕ} {layerIdx available : ℕ}
    {out : List (List GPUIoContext)} :
    geminifsBatchedXfer m gpu kCaches vCaches gpuFileIds layerIdx available = some out ↔
    ∃ k ks v vs fileId fileIds desc kIoctxs vIoctxs,
      (kCaches = k :: ks ∧ vCaches = v :: vs ∧ gpuFileIds = fileId :: fileIds) ∧
      (ks.length = vs.length ∧ ks.length = fileIds.length) ∧
      m.descs.lookup fileId = some desc ∧ k.nbytes = (desc.tensorShape 2).toNat ∧
      ((ks.zip (vs.zip fileIds)).all fun p =>
        sizesMatch m k.nbytes desc.totalFileSize p.1 p.2.1 p.2.2) = true ∧
      fillCtx m gpu (KV.fileOffset layerIdx k.nbytes .k) kCaches gpuFileIds = some kIoctxs ∧
      fillCtx m gpu (KV.fileOffset layerIdx k.nbytes .v) vCaches gpuFileIds = some vIoctxs ∧
      kIoctxs.length = vIoctxs.length ∧
      (batches (combine kIoctxs vIoctxs)).length ≤ available ∧
      out = batches (combine kIoctxs vIoctxs) := by
  constructor
  · intro h
    match kCaches, vCaches, gpuFileIds, h with
    | k :: ks, v :: vs, fileId :: fileIds, h =>
        simp only [geminifsBatchedXfer] at h
        split_ifs at h with hlens
        cases hdesc : m.descs.lookup fileId with
        | none => simp [hdesc] at h
        | some desc =>
            simp only [hdesc] at h
            split_ifs at h with hbytes hall
            simp only [Option.bind_eq_bind, Option.bind_eq_some_iff] at h
            obtain ⟨kIoctxs, hk, vIoctxs, hv, hif⟩ := h
            split_ifs at hif with hsame havail
            cases hif
            refine ⟨k, ks, v, vs, fileId, fileIds, desc, kIoctxs, vIoctxs, ⟨rfl, rfl, rfl⟩, ?_, hdesc,
              not_not.mp hbytes, by simpa using hall, hk, hv, not_not.mp hsame, by omega, rfl⟩
            exact ⟨by omega, by omega⟩
  · rintro ⟨k, ks, v, vs, fileId, fileIds, desc, kIoctxs, vIoctxs, ⟨rfl, rfl, rfl⟩, ⟨hlen, hlen'⟩, hdesc,
      hbytes, hall, hk, hv, hsame, havail, rfl⟩
    simp only [geminifsBatchedXfer]
    rw [if_neg (by omega)]
    simp only [hdesc]
    rw [if_neg (not_not.mpr hbytes), hall, if_neg (by simp), hk, hv]
    simp only [Option.bind_eq_bind, Option.bind_some]
    rw [if_neg (not_not.mpr hsame), if_neg (by omega)]

/-- A transfer that returns for one layer returns for all of them, with as many contexts. -/
theorem geminifsBatchedXfer_layer {m : GPUFileManager} {gpu : GPUController}
    {kCaches vCaches : List Tensor} {gpuFileIds : List ℕ} {layerIdx available : ℕ}
    {out : List (List GPUIoContext)}
    (h : geminifsBatchedXfer m gpu kCaches vCaches gpuFileIds layerIdx available = some out)
    (layerIdx' : ℕ) :
    ∃ out', geminifsBatchedXfer m gpu kCaches vCaches gpuFileIds layerIdx' available = some out' := by
  obtain ⟨k, ks, v, vs, fileId, fileIds, desc, kIoctxs, vIoctxs, hlists, hlens, hdesc, hbytes, hall, hk,
    hv, hsame, havail, -⟩ := geminifsBatchedXfer_eq_some.mp h
  refine ⟨_, geminifsBatchedXfer_eq_some.mpr ⟨k, ks, v, vs, fileId, fileIds, desc, _, _, hlists, hlens,
    hdesc, hbytes, hall, fillCtx_offset hk _, fillCtx_offset hv _, ?_, ?_, rfl⟩⟩
  · rw [List.length_map, List.length_map, hsame]
  · -- the number of batches depends on the number of contexts only
    simp only [batches, List.length_map, List.length_range] at havail ⊢
    rw [length_combine hsame] at havail
    rw [length_combine (by simpa using hsame), List.length_map]
    exact havail

end GeminiFS
end InfiniKV
