/-
**Three kernels for one transfer.**

A tensor can be transferred on its own, a K and a V tensor together, or the tensors of many files in batches.
A thread takes the offset of the transfer in units of the length of its entry, and adds the number of the
entry.  The kernel for a K and a V tensor is given the offset of K alone, and goes on counting from the K
entries to the V entries; the others are given the offset of V.  The two agree if K, measured in units of a V
entry, is as many blocks as it has entries.

Main definitions:

* `InfiniKV.GeminiFS.nvmeXferKernel`, `InfiniKV.GeminiFS.nvmeKvXferKernel` — a thread of the two kernels for
  one file;
* `InfiniKV.GeminiFS.geminifsXferKernel`, `InfiniKV.GeminiFS.geminifsKvXferKernel` — their host side;
* `InfiniKV.GeminiFS.KernelsAgree` — each entry is transferred to the same place by all three.

Main results:

* `InfiniKV.GeminiFS.geminifsKvXferKernel_of_agree` — the host functions agree where the kernels do;
* `InfiniKV.GeminiFS.registered_granuleEntries` — the entries of a registered granule;
* `InfiniKV.GeminiFS.units_iff` — when a granule has as many units of each length as entries;
* `InfiniKV.GeminiFS.kernelsAgree_iff` — **when the kernels agree**.
-/

import InfiniKV.PrpCoverage
import InfiniKV.XferStream

set_option relaxedAutoImplicit false
set_option autoImplicit false

namespace InfiniKV
namespace GeminiFS

/-! ### The kernels for one file -/

/-- What a thread does with an entry that goes to block `gpuBlk` of the GPU file. -/
def transferBlock (nvmeFiles : List NVMeFile) (entry : PRPMappingEntry) (tensorSize gpuBlk : ℕ) :
    ThreadResult :=
  let blkSize := entry.dataLength
  let access : Tiling.Placement := ⟨gpuBlk % nvmeFiles.length, gpuBlk / nvmeFiles.length * blkSize, blkSize⟩
  if checkFileAccessSafety nvmeFiles[access.device]? tensorSize access.start access.length then .issued access
  else .skipped

/-- `nvme_xfer_kernel`, thread `tid`. -/
def nvmeXferKernel (nvmeFiles : List NVMeFile) (prpEntries : List PRPMappingEntry)
    (tensorSize baseFileOffset tid : ℕ) : ThreadResult :=
  match prpEntries[tid]? with
  | none => .idle
  | some entry => transferBlock nvmeFiles entry tensorSize (baseFileOffset / entry.dataLength + tid)

/-- `nvme_kv_xfer_kernel`, thread `tid`. -/
def nvmeKvXferKernel (nvmeFiles : List NVMeFile) (kMappings vMappings : List PRPMappingEntry)
    (tensorSize baseFileOffset tid : ℕ) : ThreadResult :=
  if nvmeFiles = [] then .idle
  else match (if tid < kMappings.length then kMappings[tid]? else vMappings[tid - kMappings.length]?) with
    | none => .idle
    | some entry => transferBlock nvmeFiles entry tensorSize (baseFileOffset / entry.dataLength + tid)

/-- `geminifs_xfer_kernel`: what the threads of its kernel do, where `none` stands for `false`. -/
def geminifsXferKernel (m : GPUFileManager) (gpu : GPUController) (tensor : Tensor) (gpuFileId off : ℕ) :
    Option (List ThreadResult) := do
  let nvmeFiles ← m.ctxs.lookup gpuFileId
  let prpMappings ← gpu.getPrpMappings tensor
  if nvmeFiles = [] ∨ prpMappings = [] then none
  else
    let blocks := (prpMappings.length + THREADS_PER_BLOCK - 1) / THREADS_PER_BLOCK
    some ((threadIds blocks).map (nvmeXferKernel nvmeFiles prpMappings tensor.nbytes off))

/-- `geminifs_kv_xfer_kernel`: what the threads of its kernel do, where `none` stands for `false`. -/
def geminifsKvXferKernel (m : GPUFileManager) (gpu : GPUController) (kCache vCache : Tensor)
    (gpuFileId off : ℕ) : Option (List ThreadResult) := do
  let nvmeFiles ← m.ctxs.lookup gpuFileId
  let kMappings ← gpu.getPrpMappings kCache
  let vMappings ← gpu.getPrpMappings vCache
  if nvmeFiles = [] ∨ kMappings = [] ∨ vMappings = [] then none
  else
    let blocks := (kMappings.length + vMappings.length + THREADS_PER_BLOCK - 1) / THREADS_PER_BLOCK
    some ((threadIds blocks).map (nvmeKvXferKernel nvmeFiles kMappings vMappings kCache.nbytes off))

/-- There is a thread for each of `n` entries. -/
theorem getElem?_launch {n tid : ℕ} (htid : tid < n) (thread : ℕ → ThreadResult) :
    ((threadIds ((n + THREADS_PER_BLOCK - 1) / THREADS_PER_BLOCK)).map thread)[tid]? = some (thread tid) := by
  rw [threadIds_eq, List.getElem?_map, List.getElem?_range (htid.trans_le (length_le_threads n))]
  rfl

/-- **What a transfer of one tensor launches**: a thread for each entry. -/
theorem geminifsXferKernel_eq_some {m : GPUFileManager} {gpu : GPUController} {tensor : Tensor}
    {gpuFileId off : ℕ} {results : List ThreadResult}
    (h : geminifsXferKernel m gpu tensor gpuFileId off = some results) :
    ∃ nvmeFiles prpMappings, m.ctxs.lookup gpuFileId = some nvmeFiles ∧ nvmeFiles ≠ [] ∧
      gpu.getPrpMappings tensor = some prpMappings ∧ ∀ tid < prpMappings.length,
        results[tid]? = some (nvmeXferKernel nvmeFiles prpMappings tensor.nbytes off tid) := by
  simp only [geminifsXferKernel, Option.bind_eq_bind, Option.bind_eq_some_iff] at h
  obtain ⟨nvmeFiles, hfiles, prpMappings, hmappings, hif⟩ := h
  split_ifs at hif with hempty
  cases hif
  exact ⟨nvmeFiles, prpMappings, hfiles, fun hnil => hempty (Or.inl hnil), hmappings,
    fun tid htid => getElem?_launch htid _⟩

/-- **What a transfer of a K and a V tensor launches**: a thread for each entry of either. -/
theorem geminifsKvXferKernel_eq_some {m : GPUFileManager} {gpu : GPUController} {kCache vCache : Tensor}
    {gpuFileId off : ℕ} {results : List ThreadResult}
    (h : geminifsKvXferKernel m gpu kCache vCache gpuFileId off = some results) :
    ∃ nvmeFiles kMappings vMappings, m.ctxs.lookup gpuFileId = some nvmeFiles ∧ nvmeFiles ≠ [] ∧
      gpu.getPrpMappings kCache = some kMappings ∧ gpu.getPrpMappings vCache = some vMappings ∧
      ∀ tid < kMappings.length + vMappings.length,
        results[tid]? = some (nvmeKvXferKernel nvmeFiles kMappings vMappings kCache.nbytes off tid) := by
  simp only [geminifsKvXferKernel, Option.bind_eq_bind, Option.bind_eq_some_iff] at h
  obtain ⟨nvmeFiles, hfiles, kMappings, hk, vMappings, hv, hif⟩ := h
  split_ifs at hif with hempty
  cases hif
  exact ⟨nvmeFiles, kMappings, vMappings, hfiles, fun hnil => hempty (Or.inl hnil), hk, hv,
    fun tid htid => getElem?_launch htid _⟩

/-! ### The batched kernel -/

/-- The thread of the batched kernel that has a context does with it what `result` says, in whatever batch
and slot the context is. -/
def ServedAs (ctx : GPUIoContext) (tensorSize : ℕ) (result : ThreadResult) : Prop :=
  ∀ (batch : List GPUIoContext) (tid : ℕ), batch[tid]? = some ctx →
    nvmeBatchXferKernel batch tensorSize batch.length tid = result

/-- **The kernels agree** on a layer of `nvmeFiles`: the kernel for one tensor, launched at the offset of K and
at that of V, and the kernel for both, launched at the offset of K, do with each entry what the batched kernel
does with its context. -/
structure KernelsAgree (nvmeFiles : List NVMeFile) (kMappings vMappings : List PRPMappingEntry)
    (len layer : ℕ) : Prop where
  xferK : ∀ (j : ℕ) (ctx : GPUIoContext),
    (ioContexts nvmeFiles kMappings (KV.k.fileOffset layer len))[j]? = some ctx →
      ServedAs ctx len (nvmeXferKernel nvmeFiles kMappings len (layer * len * 2) j)
  xferV : ∀ (j : ℕ) (ctx : GPUIoContext),
    (ioContexts nvmeFiles vMappings (KV.v.fileOffset layer len))[j]? = some ctx →
      ServedAs ctx len (nvmeXferKernel nvmeFiles vMappings len (layer * len * 2 + len) j)
  kvK : ∀ (j : ℕ) (ctx : GPUIoContext),
    (ioContexts nvmeFiles kMappings (KV.k.fileOffset layer len))[j]? = some ctx →
      ServedAs ctx len (nvmeKvXferKernel nvmeFiles kMappings vMappings len (layer * len * 2) j)
  kvV : ∀ (j : ℕ) (ctx : GPUIoContext),
    (ioContexts nvmeFiles vMappings (KV.v.fileOffset layer len))[j]? = some ctx →
      ServedAs ctx len
        (nvmeKvXferKernel nvmeFiles kMappings vMappings len (layer * len * 2) (kMappings.length + j))

/-- The entries of a granule, by their lengths. -/
def GranuleEntries (maxIOsize granularitySize : ℕ) (mappings : List PRPMappingEntry) : Prop :=
  mappings.map PRPMappingEntry.dataLength = (Tiling.cut maxIOsize granularitySize).map Prod.snd

variable {nvmeFiles : List NVMeFile} {kMappings vMappings : List PRPMappingEntry} {len layer : ℕ}

/-- A context is served by the block that its offset and its number give. -/
theorem serve_eq (ctx : GPUIoContext) (hfiles : ctx.nvmeFiles ≠ []) (tensorSize : ℕ) :
    ctx.serve tensorSize = transferBlock ctx.nvmeFiles ctx.prpEntry tensorSize
      (ctx.fileOffset / ctx.prpEntry.dataLength + ctx.prpIdx) := by
  rw [GPUIoContext.serve, if_neg (fun hlen => hfiles (List.length_eq_zero_iff.1 hlen))]
  rfl

/-- What the thread of the batched kernel does. -/
theorem servedAs_iff {ctx : GPUIoContext} {tensorSize : ℕ} {result : ThreadResult} :
    ServedAs ctx tensorSize result ↔ ctx.serve tensorSize = result := by
  constructor
  · intro h
    exact h [ctx] 0 rfl
  · intro h batch tid hctx
    have hlt := (List.getElem?_eq_some_iff.1 hctx).1
    rw [nvmeBatchXferKernel, if_neg (Nat.not_le.2 hlt), hctx]
    exact h

/-- The context of an entry. -/
theorem getElem?_ioContexts {mappings : List PRPMappingEntry} {offset j : ℕ} {ctx : GPUIoContext} :
    (ioContexts nvmeFiles mappings offset)[j]? = some ctx ↔
      ∃ entry, mappings[j]? = some entry ∧ ctx = ⟨nvmeFiles, entry, j, offset⟩ := by
  rw [ioContexts, List.getElem?_mapIdx, Option.map_eq_some_iff]
  simp only [eq_comm]

/-- The three kernels that count as the batched one does always agree with it. -/
theorem nvmeXferKernel_eq (hfiles : nvmeFiles ≠ []) {mappings : List PRPMappingEntry} {offset j : ℕ}
    {ctx : GPUIoContext} (hctx : (ioContexts nvmeFiles mappings offset)[j]? = some ctx) (tensorSize : ℕ) :
    ServedAs ctx tensorSize (nvmeXferKernel nvmeFiles mappings tensorSize offset j) := by
  obtain ⟨entry, hentry, rfl⟩ := getElem?_ioContexts.1 hctx
  rw [servedAs_iff, serve_eq _ hfiles, nvmeXferKernel, hentry]

/-- **When the kernels agree on given files**: if a V entry goes to the same block whether it is counted from
the offset of V or on from the K entries, or else if neither access passes the check. -/
theorem kernelsAgree_iff_transferBlock (hfiles : nvmeFiles ≠ []) :
    KernelsAgree nvmeFiles kMappings vMappings len layer ↔
      ∀ (j : ℕ) (entry : PRPMappingEntry), vMappings[j]? = some entry →
        transferBlock nvmeFiles entry len ((layer * len * 2 + len) / entry.dataLength + j) =
          transferBlock nvmeFiles entry len
            (layer * len * 2 / entry.dataLength + (kMappings.length + j)) := by
  have hkvV : ∀ (j : ℕ) (entry : PRPMappingEntry), vMappings[j]? = some entry →
      (ServedAs ⟨nvmeFiles, entry, j, KV.v.fileOffset layer len⟩ len
          (nvmeKvXferKernel nvmeFiles kMappings vMappings len (layer * len * 2) (kMappings.length + j)) ↔
        transferBlock nvmeFiles entry len ((layer * len * 2 + len) / entry.dataLength + j) =
          transferBlock nvmeFiles entry len
            (layer * len * 2 / entry.dataLength + (kMappings.length + j))) := by
    intro j entry hentry
    rw [servedAs_iff, serve_eq _ hfiles, nvmeKvXferKernel, if_neg hfiles, if_neg (by omega), Nat.add_sub_cancel_left,
      hentry]
    rfl
  constructor
  · intro h j entry hentry
    exact (hkvV j entry hentry).1 (h.kvV j _ (getElem?_ioContexts.2 ⟨entry, hentry, rfl⟩))
  · intro h
    refine ⟨fun j ctx hctx => nvmeXferKernel_eq hfiles hctx len,
      fun j ctx hctx => nvmeXferKernel_eq hfiles hctx len, ?_, ?_⟩
    · intro j ctx hctx
      obtain ⟨entry, hentry, rfl⟩ := getElem?_ioContexts.1 hctx
      have hj := (List.getElem?_eq_some_iff.1 hentry).1
      rw [servedAs_iff, serve_eq _ hfiles, nvmeKvXferKernel, if_neg hfiles, if_pos hj, hentry]
      rfl
    · intro j ctx hctx
      obtain ⟨entry, hentry, rfl⟩ := getElem?_ioContexts.1 hctx
      exact (hkvV j entry hentry).2 (h j entry hentry)

/-- **The host functions agree where the kernels do**: the threads that `geminifs_kv_xfer_kernel` launches at the offset
of K do with the entries of K, and behind them with those of V, what `geminifs_xfer_kernel` launches for K and for V
at their own offsets. -/
theorem geminifsKvXferKernel_of_agree {m : GPUFileManager} {gpu : GPUController} {kCache vCache : Tensor}
    {gpuFileId : ℕ} {results kResults vResults : List ThreadResult} (hk : kCache.nbytes = len)
    (hv : vCache.nbytes = len)
    (hkv : geminifsKvXferKernel m gpu kCache vCache gpuFileId (layer * len * 2) = some results)
    (hkOnly : geminifsXferKernel m gpu kCache gpuFileId (layer * len * 2) = some kResults)
    (hvOnly : geminifsXferKernel m gpu vCache gpuFileId (layer * len * 2 + len) = some vResults)
    (hfiles : m.ctxs.lookup gpuFileId = some nvmeFiles) (hkMappings : gpu.getPrpMappings kCache = some kMappings)
    (hvMappings : gpu.getPrpMappings vCache = some vMappings)
    (h : KernelsAgree nvmeFiles kMappings vMappings len layer) :
    (∀ j < kMappings.length, results[j]? = kResults[j]?) ∧
      ∀ j < vMappings.length, results[kMappings.length + j]? = vResults[j]? := by
  obtain ⟨_, _, _, hf, -, hkm, hvm, hresults⟩ := geminifsKvXferKernel_eq_some hkv
  obtain ⟨_, _, hkf, -, hkkm, hkResults⟩ := geminifsXferKernel_eq_some hkOnly
  obtain ⟨_, _, hvf, -, hvvm, hvResults⟩ := geminifsXferKernel_eq_some hvOnly
  obtain rfl := Option.some.inj (hfiles.symm.trans hf)
  obtain rfl := Option.some.inj (hfiles.symm.trans hkf)
  obtain rfl := Option.some.inj (hfiles.symm.trans hvf)
  obtain rfl := Option.some.inj (hkMappings.symm.trans hkm)
  obtain rfl := Option.some.inj (hkMappings.symm.trans hkkm)
  obtain rfl := Option.some.inj (hvMappings.symm.trans hvm)
  obtain rfl := Option.some.inj (hvMappings.symm.trans hvvm)
  rw [hk] at hresults hkResults
  rw [hv] at hvResults
  constructor
  · intro j hj
    obtain ⟨ctx, hctx⟩ : ∃ ctx, (ioContexts nvmeFiles kMappings (KV.k.fileOffset layer len))[j]? = some ctx :=
      ⟨_, getElem?_ioContexts.2 ⟨_, List.getElem?_eq_getElem hj, rfl⟩⟩
    have hserved := servedAs_iff.1 (h.kvK j ctx hctx)
    rw [hresults j (by omega), hkResults j hj, ← hserved, servedAs_iff.1 (h.xferK j ctx hctx)]
  · intro j hj
    obtain ⟨ctx, hctx⟩ : ∃ ctx, (ioContexts nvmeFiles vMappings (KV.v.fileOffset layer len))[j]? = some ctx :=
      ⟨_, getElem?_ioContexts.2 ⟨_, List.getElem?_eq_getElem hj, rfl⟩⟩
    have hserved := servedAs_iff.1 (h.kvV j ctx hctx)
    rw [hresults (kMappings.length + j) (by omega), hvResults j hj, ← hserved, servedAs_iff.1 (h.xferV j ctx hctx)]

/-! ### The entries of a granule -/

/-- Entry `j` of a granule lies where `j` units of its own length end at the latest. -/
theorem GranuleEntries.entry {maxIOsize granularitySize j : ℕ} {mappings : List PRPMappingEntry}
    {entry : PRPMappingEntry} (h : GranuleEntries maxIOsize granularitySize mappings) (hmax : 0 < maxIOsize)
    (hentry : mappings[j]? = some entry) :
    (∃ piece ∈ Tiling.cut maxIOsize granularitySize, piece.2 = entry.dataLength) ∧ 0 < entry.dataLength ∧
      j * entry.dataLength + entry.dataLength ≤ granularitySize := by
  have hget : ((Tiling.cut maxIOsize granularitySize).map Prod.snd)[j]? = some entry.dataLength := by
    rw [← h, List.getElem?_map, hentry]
    rfl
  rw [List.getElem?_map, Option.map_eq_some_iff] at hget
  obtain ⟨piece, hpiece, hsize⟩ := hget
  have hmem := List.mem_of_getElem? hpiece
  refine ⟨⟨piece, hmem, hsize⟩, hsize ▸ (Tiling.mem_cut hmax hmem).1, ?_⟩
  rw [Tiling.cut_eq hmax, List.getElem?_map, Option.map_eq_some_iff] at hpiece
  obtain ⟨j', hj', rfl⟩ := hpiece
  obtain ⟨hlt, rfl⟩ := List.getElem?_eq_some_iff.1 hj'
  rw [List.length_range] at hlt
  have hstart := (Tiling.lt_ceilDiv_iff hmax).1 hlt
  simp only [List.getElem_range] at hsize
  rw [← hsize]
  -- the earlier pieces are not shorter than this one
  have hle : j * min (granularitySize - j * maxIOsize) maxIOsize ≤ j * maxIOsize :=
    Nat.mul_le_mul_left j (Nat.min_le_right _ _)
  have hend : min (granularitySize - j * maxIOsize) maxIOsize ≤ granularitySize - j * maxIOsize :=
    Nat.min_le_left _ _
  omega

/-- A granule has an entry for each piece. -/
theorem GranuleEntries.exists_entry {maxIOsize granularitySize : ℕ} {mappings : List PRPMappingEntry}
    (h : GranuleEntries maxIOsize granularitySize mappings) {piece : ℕ × ℕ}
    (hpiece : piece ∈ Tiling.cut maxIOsize granularitySize) :
    ∃ (j : ℕ) (entry : PRPMappingEntry), mappings[j]? = some entry ∧ entry.dataLength = piece.2 := by
  have hmem : piece.2 ∈ mappings.map PRPMappingEntry.dataLength := by
    rw [h]
    exact List.mem_map_of_mem hpiece
  obtain ⟨entry, hentry, hsize⟩ := List.mem_map.1 hmem
  obtain ⟨j, hj⟩ := List.mem_iff_getElem?.1 hentry
  exact ⟨j, entry, hj, hsize⟩

theorem GranuleEntries.length {maxIOsize granularitySize : ℕ} {mappings : List PRPMappingEntry}
    (h : GranuleEntries maxIOsize granularitySize mappings) (hmax : 0 < maxIOsize) :
    mappings.length = granularitySize ⌈/⌉ maxIOsize := by
  have hlen := congrArg List.length h
  rwa [List.length_map, List.length_map, Tiling.length_cut hmax] at hlen

/-- **The entries of a registered granule**: they are as long as its pieces, and all lengths are pages. -/
theorem registered_granuleEntries {nvmeControllers : List (Option ℕ)} {m : ℕ}
    (hcontrollers : ∀ maxIOsize, some maxIOsize ∈ nvmeControllers →
      ∃ paramsMaxIOsize, acceptMaxIOsize paramsMaxIOsize = some maxIOsize)
    (hm : IsLeast {m | some m ∈ nvmeControllers ∧ 0 < m} m) {tensor : Tensor}
    (hvalid : tensor.validate = true) (hsize : 0 < tensor.nbytes) {granularity : ℕ}
    (hgranularity : ¬(0 < granularity ∧ granularity % 4096 ≠ 0)) {ioaddrs type2Ioaddrs : List ℕ}
    {sliced dma : DmaContext}
    (hsliced : performDMASlicing nvmeControllers tensor.dataPtr tensor.nbytes granularity = some sliced)
    (hdma : initializePRPEntries ioaddrs type2Ioaddrs sliced = some dma) :
    PRP_SIZE_SINGLE_PAGE ∣ m ∧ ∀ group ∈ dma.granularityGroups,
      GranuleEntries m group.granularitySize group.prpMappings ∧ 0 < group.granularitySize ∧
        PRP_SIZE_SINGLE_PAGE ∣ group.granularitySize := by
  obtain ⟨paramsMaxIOsize, haccept⟩ := hcontrollers m hm.1.1
  obtain ⟨hpages, hlarge⟩ := acceptMaxIOsize_eq_some haccept
  refine ⟨hpages, fun group hgroup => ?_⟩
  obtain ⟨group₀, hgroup₀, hsame, hlengths⟩ := initializePRPEntries_lengths hdma group hgroup
  have hgranule : group.granularitySize = group₀.granularitySize := by rw [hsame]
  have hmin := minMaxIoSize_of_isLeast hm hlarge
  have haligned : PRP_SIZE_SINGLE_PAGE ∣ tensor.nbytes := by
    rw [Tensor.validate, Bool.and_eq_true, decide_eq_true_iff, decide_eq_true_iff] at hvalid
    obtain ⟨n, hn⟩ := Nat.dvd_of_mod_eq_zero hvalid.2
    rw [GPU_PAGE_SIZE] at hn
    exact ⟨16 * n, by rw [hn, PRP_SIZE_SINGLE_PAGE, ← Nat.mul_assoc]⟩
  -- a granule is a piece of the tensor, or all of it
  have hcut : 0 < group₀.granularitySize ∧ PRP_SIZE_SINGLE_PAGE ∣ group₀.granularitySize ∧
      ∃ offset, group₀.subSlices = cutGranule m group₀.granularitySize offset := by
    simp only [performDMASlicing, hmin] at hsliced
    split_ifs at hsliced with hmax hpos
    · cases hsliced
      obtain ⟨piece, hpiece, rfl⟩ := List.mem_map.1 hgroup₀
      have hwhole : PRP_SIZE_SINGLE_PAGE ∣ granularity := by
        rw [PRP_SIZE_SINGLE_PAGE]
        omega
      obtain ⟨hpiecePos, -, hdvd⟩ := Tiling.mem_cut hpos hpiece
      exact ⟨hpiecePos, (hdvd _ hwhole haligned).2, piece.1, rfl⟩
    · cases hsliced
      rw [List.mem_singleton] at hgroup₀
      subst hgroup₀
      exact ⟨hsize, haligned, 0, rfl⟩
  obtain ⟨hpos, hdvd, offset, hslices⟩ := hcut
  rw [hgranule]
  refine ⟨?_, hpos, hdvd⟩
  have hsizes := @sizes_cutGranule m group₀.granularitySize offset hpos
  rw [GranuleEntries, hlengths, hslices, ← hsizes]
  apply List.map_congr_left
  intro slice hslice
  have hmem : slice.size ∈ (Tiling.cut m group₀.granularitySize).map Prod.snd := by
    rw [← hsizes]
    exact List.mem_map_of_mem hslice
  obtain ⟨piece, hpiece, hpieceSize⟩ := List.mem_map.1 hmem
  have hle := (Tiling.mem_cut hm.1.2 hpiece).2.1
  exact Nat.mod_eq_of_lt (by omega)

/-! ### When the kernels agree -/

/-- Two blocks with one remainder and one quotient are the same. -/
theorem eq_of_div_mod {a b n : ℕ} (hmod : a % n = b % n) (hdiv : a / n = b / n) : a = b := by
  rw [← Nat.div_add_mod a n, ← Nat.div_add_mod b n, hmod, hdiv]

/-- A file that is as large as a file can be. -/
def largestFile : NVMeFile := ⟨⟨0, 0, 2 ^ 64 - 1, 0, []⟩, 4096, 9⟩

/-- An access that such files have room for is made. -/
theorem transferBlock_largestFile {n : ℕ} (hn : 0 < n) {entry : PRPMappingEntry} {tensorSize gpuBlk : ℕ}
    (hpos : 0 < entry.dataLength) (hpages : 4096 ∣ entry.dataLength) (hle : entry.dataLength ≤ tensorSize)
    (hroom : gpuBlk * entry.dataLength + entry.dataLength < 2 ^ 64) :
    transferBlock (List.replicate n largestFile) entry tensorSize gpuBlk =
      .issued ⟨gpuBlk % n, gpuBlk / n * entry.dataLength, entry.dataLength⟩ := by
  have hfile : (List.replicate n largestFile)[gpuBlk % n]? = some largestFile := by
    rw [List.getElem?_replicate, if_pos (Nat.mod_lt _ hn)]
  have hstart : gpuBlk / n * entry.dataLength ≤ gpuBlk * entry.dataLength :=
    Nat.mul_le_mul_right _ (Nat.div_le_self _ _)
  have hsafe : checkFileAccessSafety (some largestFile) tensorSize (gpuBlk / n * entry.dataLength)
      entry.dataLength = true := by
    have hsize : largestFile.getFileSize = 2 ^ 64 - 1 := rfl
    have haligned := Nat.mod_eq_zero_of_dvd (hpages.mul_left (gpuBlk / n))
    rw [checkFileAccessSafety, hsize, if_neg (by omega), if_neg (by omega), if_neg (by omega), if_neg (by omega),
      if_neg (by omega), if_neg (by omega), if_neg (by omega)]
  rw [transferBlock, List.length_replicate]
  dsimp only
  rw [hfile, if_pos hsafe]

/-- **When the kernels agree.**  Let a K and a V tensor of `len` bytes lie on granules that are cut by
`maxIOsize`.  On all lists of `n` NVMe files the three kernels transfer each entry to the same place if and
only if `len` bytes, added to the offset of K, are as many units of the length of each entry as a granule has
entries. -/
theorem kernelsAgree_iff {maxIOsize granularitySize n : ℕ} (hmax : 0 < maxIOsize)
    (hmaxPages : PRP_SIZE_SINGLE_PAGE ∣ maxIOsize) (hpages : PRP_SIZE_SINGLE_PAGE ∣ granularitySize)
    (hle : granularitySize ≤ len) (hlen : len < 2 ^ 32) (hlayer : layer < 2 ^ 31) (hn : 0 < n)
    (hk : GranuleEntries maxIOsize granularitySize kMappings)
    (hv : GranuleEntries maxIOsize granularitySize vMappings) :
    (∀ nvmeFiles : List NVMeFile, nvmeFiles.length = n → (∀ file ∈ nvmeFiles, file.getFileSize < 2 ^ 64) →
      KernelsAgree nvmeFiles kMappings vMappings len layer) ↔
    ∀ piece ∈ Tiling.cut maxIOsize granularitySize,
      (layer * len * 2 + len) / piece.2 = layer * len * 2 / piece.2 + granularitySize ⌈/⌉ maxIOsize := by
  have hoffset : layer * len * 2 + len + len < 2 ^ 64 := by
    have hmul : layer * len ≤ (2 ^ 31 - 1) * (2 ^ 32 - 1) := Nat.mul_le_mul (by omega) (by omega)
    omega
  constructor
  · intro h piece hpiece
    obtain ⟨j, entry, hentry, hsize⟩ := hv.exists_entry hpiece
    obtain ⟨-, hpos, hend⟩ := hv.entry hmax hentry
    have hentryPages : 4096 ∣ entry.dataLength := by
      rw [hsize]
      exact ((Tiling.mem_cut hmax hpiece).2.2 _ hmaxPages hpages).2
    -- files that have room for the access of the batched kernel
    have hagree := h (List.replicate n largestFile) List.length_replicate
      (fun file hfile => (List.eq_of_mem_replicate hfile).symm ▸ by decide)
    have hne : List.replicate n largestFile ≠ [] := fun hnil => hn.ne' (by simpa using hnil)
    have hblock := (kernelsAgree_iff_transferBlock hne).1 hagree j entry hentry
    have hroom : ((layer * len * 2 + len) / entry.dataLength + j) * entry.dataLength + entry.dataLength <
        2 ^ 64 := by
      rw [Nat.add_mul]
      have hdiv := Nat.div_mul_le_self (layer * len * 2 + len) entry.dataLength
      omega
    rw [transferBlock_largestFile hn hpos hentryPages (by omega) hroom, transferBlock, List.length_replicate] at hblock
    dsimp only at hblock
    split_ifs at hblock with hsafe
    rw [ThreadResult.issued.injEq, Tiling.Placement.mk.injEq] at hblock
    have hsame := eq_of_div_mod hblock.1 (Nat.eq_of_mul_eq_mul_right hpos hblock.2.1)
    rw [hk.length hmax] at hsame
    rw [← hsize]
    omega
  · intro h nvmeFiles hnvmeFiles _
    have hne : nvmeFiles ≠ [] := fun hnil => hn.ne' (by rw [← hnvmeFiles, hnil]; rfl)
    rw [kernelsAgree_iff_transferBlock hne]
    intro j entry hentry
    obtain ⟨⟨piece, hpiece, hsize⟩, -, -⟩ := hv.entry hmax hentry
    have hunits := h piece hpiece
    rw [hsize] at hunits
    rw [hunits, hk.length hmax, Nat.add_assoc]

/-- **A granule of the size of the tensor** has as many units of each length as entries if it is transferred
in one piece, or in pieces of one length.  Otherwise the rest must fill the last unit of K in either length. -/
theorem units_iff {maxIOsize : ℕ} (hmax : 0 < maxIOsize) (hlen : 0 < len) (offset : ℕ) :
    (∀ piece ∈ Tiling.cut maxIOsize len, (offset + len) / piece.2 = offset / piece.2 + len ⌈/⌉ maxIOsize) ↔
      len ≤ maxIOsize ∨ maxIOsize ∣ len ∨
        (maxIOsize ≤ offset % maxIOsize + len % maxIOsize ∧
          offset % (len % maxIOsize) + len / maxIOsize * maxIOsize < (len / maxIOsize + 1) * (len % maxIOsize)) := by
  by_cases hone : len ≤ maxIOsize
  · refine iff_of_true ?_ (Or.inl hone)
    rw [Tiling.cut_of_le hlen hone]
    intro piece hpiece
    rw [List.mem_singleton] at hpiece
    subst hpiece
    have hceil : len ⌈/⌉ maxIOsize = 1 := by
      rw [← Tiling.length_cut hmax, Tiling.cut_of_le hlen hone]
      rfl
    rw [hceil, Nat.add_div_right _ hlen]
  by_cases hdvd : maxIOsize ∣ len
  · refine iff_of_true ?_ (Or.inr (Or.inl hdvd))
    intro piece hpiece
    rw [Tiling.cut_of_dvd hmax hdvd] at hpiece
    obtain ⟨j, -, rfl⟩ := List.mem_map.1 hpiece
    obtain ⟨q, rfl⟩ := hdvd
    have hceil : maxIOsize * q ⌈/⌉ maxIOsize = q := by
      simpa using smul_ceilDiv hmax q
    rw [hceil, Nat.add_mul_div_left _ _ hmax]
  · -- full pieces, and a shorter one
    have hrest : 0 < len % maxIOsize := Nat.pos_of_ne_zero fun hzero => hdvd (Nat.dvd_of_mod_eq_zero hzero)
    have hsplit := Nat.div_add_mod' len maxIOsize
    have hshort := Nat.mod_lt len hmax
    have hpieces := @Tiling.forall_cut_of_not_dvd maxIOsize len hmax (Nat.not_le.1 hone) hdvd fun size =>
      (offset + len) / size = offset / size + (len / maxIOsize + 1)
    have hfull : (offset + len) / maxIOsize = offset / maxIOsize + (len / maxIOsize + 1) ↔
        maxIOsize ≤ offset % maxIOsize + len % maxIOsize := by
      rw [Nat.add_div hmax]
      split_ifs with hfill
      · exact iff_of_true (by omega) hfill
      · exact iff_of_false (by omega) hfill
    have hlast : (offset + len) / (len % maxIOsize) = offset / (len % maxIOsize) + (len / maxIOsize + 1) ↔
        offset % (len % maxIOsize) + len / maxIOsize * maxIOsize <
          (len / maxIOsize + 1) * (len % maxIOsize) := by
      have hsum : offset + len = offset % (len % maxIOsize) + len + len % maxIOsize * (offset / (len % maxIOsize)) := by
        have hoff := Nat.mod_add_div offset (len % maxIOsize)
        omega
      have hmul : len / maxIOsize * (len % maxIOsize) ≤ len / maxIOsize * maxIOsize :=
        Nat.mul_le_mul_left _ hshort.le
      rw [hsum, Nat.add_mul_div_left _ _ hrest, Nat.add_comm, Nat.add_left_cancel_iff, Nat.div_eq_iff hrest]
      rw [Nat.add_mul]
      omega
    rw [Tiling.ceilDiv_of_not_dvd hmax hdvd, hpieces, hfull, hlast, or_iff_right hone, or_iff_right hdvd]

/-! ### Three pages, cut by two -/

/-- Three pages on a controller that transfers two pages at once. -/
def threePageGpu : GPUController :=
  (GPUController.registerTensorMemory ⟨[some 8192], [], ∅⟩ ⟨0, 65536⟩ 12288
    ((List.range 16).map (· * 4096)) []).getD ⟨[], [], ∅⟩

/-- Two pages, on the same controller. -/
def twoPageEntry : PRPMappingEntry := ⟨.dualPage, 8192, 0, 4096, 0⟩

/-- **A tensor of three pages** has two entries.  For the first of V the offset of V is one unit, and two
entries of K come before it. -/
theorem not_kernelsAgree_threePages :
    ∃ kMappings vMappings, threePageGpu.getPrpMappings ⟨0, 12288⟩ = some kMappings ∧
      threePageGpu.getPrpMappings ⟨12288, 12288⟩ = some vMappings ∧
      ¬ KernelsAgree [largestFile] kMappings vMappings 12288 0 := by
  refine ⟨_, _, rfl, rfl, fun h => ?_⟩
  have hserved := h.kvV 0 _ rfl
  rw [servedAs_iff] at hserved
  revert hserved
  decide +kernel

/-- A granule of one piece. -/
theorem kernelsAgree_iff_onePiece : GranuleEntries 8192 8192 [twoPageEntry] ∧
    ∀ nvmeFiles : List NVMeFile, nvmeFiles.length = 3 → (∀ file ∈ nvmeFiles, file.getFileSize < 2 ^ 64) →
      KernelsAgree nvmeFiles [twoPageEntry] [twoPageEntry] 8192 5 := by
  have hentries : GranuleEntries 8192 8192 [twoPageEntry] := by
    rw [GranuleEntries, Tiling.cut_of_le (by decide) le_rfl]
    rfl
  exact ⟨hentries, (@kernelsAgree_iff [twoPageEntry] [twoPageEntry] 8192 5 8192 8192 3 (by decide) ⟨2, rfl⟩
    ⟨2, rfl⟩ le_rfl (by decide) (by decide) (by decide) hentries hentries).2
    ((units_iff (by decide) (by decide) _).2 (Or.inl le_rfl))⟩

end GeminiFS
end InfiniKV
