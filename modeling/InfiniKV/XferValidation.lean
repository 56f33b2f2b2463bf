/-
**What a batched transfer checks before it starts.**

The loop over the tensors begins with the second: of the first K tensor and the first file the sizes are
compared before it, of the first V tensor they are not compared at all.  Of the other files only the total size
is compared, and the layer number is taken as it comes.  A transfer that should not have been started is left
to the device code, which drops the slices that do not fit.

Main definitions:

* `InfiniKV.GeminiFS.XferValid` — the tensors and the layer of a call fit into its files;
* `InfiniKV.GeminiFS.ValidatedBeforeStart` — a call that starts a kernel is valid, and another keeps nothing;
* `InfiniKV.GeminiFS.PassesChecks`, `InfiniKV.GeminiFS.UncheckedRight` — what the call checks, and what it does
  not.

Main results:

* `InfiniKV.GeminiFS.xferContexts_isSome_iff` — what the checks of a call amount to;
* `InfiniKV.GeminiFS.validatedBeforeStart_iff` — **when a call is validated before it starts**.
-/

import InfiniKV.XferSlices

set_option relaxedAutoImplicit false
set_option autoImplicit false

namespace InfiniKV
namespace GeminiFS

/-- The bytes of K and V of a layer lie in a file of `totalFileSize` bytes. -/
def LayerFits (totalFileSize : UInt64) (layerIdx : Int32) (len : ℕ) : Prop :=
  0 ≤ layerIdx.toInt * len * 2 ∧ layerIdx.toInt * len * 2 + 2 * len ≤ totalFileSize.toNat

/-- Every tensor has the size of the tensors of its file, and the bytes of the layer lie in every file. -/
structure XferValid (m : GPUFileManager) (kCaches vCaches : List Tensor) (gpuFileIds : List ℕ)
    (layerIdx : Int32) : Prop where
  tensors : ∀ (cache : KV) (i : ℕ) (tensor : Tensor) (fileId : ℕ),
    (cache.tensors kCaches vCaches)[i]? = some tensor → gpuFileIds[i]? = some fileId →
      ∃ desc, m.descs.lookup fileId = some desc ∧ tensor.nbytes = (desc.tensorShape 2).toNat
  layer : ∀ fileId ∈ gpuFileIds, ∃ desc, m.descs.lookup fileId = some desc ∧
    LayerFits desc.totalFileSize layerIdx (kCaches.headD ⟨0, 0⟩).nbytes

/-- A call has launched a kernel. -/
def XferCall.Launched (call : XferCall) : Prop := ∃ op ∈ call.stream, op.isKernel = true

/-- **A call that launches a kernel is valid**, and one that does not returns `false` and leaves the pool, when
its stream has been worked off, with the entries it had. -/
structure ValidatedBeforeStart (m : GPUFileManager) (gpu : GPUController) (pool : BatchIoPool)
    (cuda : CudaOutcomes) (kCaches vCaches : List Tensor) (gpuFileIds : List ℕ) (layerIdx : Int32)
    (isRead : Bool) (device : ℕ → List GPUIoContext) : Prop where
  launched : (geminifsBatchedXferOn m gpu pool cuda kCaches vCaches gpuFileIds layerIdx isRead).Launched →
    XferValid m kCaches vCaches gpuFileIds layerIdx
  otherwise : ¬ (geminifsBatchedXferOn m gpu pool cuda kCaches vCaches gpuFileIds layerIdx isRead).Launched →
    (geminifsBatchedXferOn m gpu pool cuda kCaches vCaches gpuFileIds layerIdx isRead).returned = false ∧
      ∃ d, runStream (geminifsBatchedXferOn m gpu pool cuda kCaches vCaches gpuFileIds layerIdx isRead).stream
        ⟨(geminifsBatchedXferOn m gpu pool cuda kCaches vCaches gpuFileIds layerIdx isRead).pool, device, []⟩ =
          some d ∧ d.pool.free.Perm pool.free

/-! ### The checks of a call -/

/-- What `geminifs_batched_xfer` checks: the numbers of tensors and files, the sizes it compares, and that
files are open and tensors registered. -/
structure PassesChecks (m : GPUFileManager) (gpu : GPUController) (kCaches vCaches : List Tensor)
    (gpuFileIds : List ℕ) : Prop where
  nonempty : kCaches ≠ []
  lengths : kCaches.length = vCaches.length ∧ kCaches.length = gpuFileIds.length
  first : ∃ desc, m.descs.lookup (gpuFileIds.headD 0) = some desc ∧
    (kCaches.headD ⟨0, 0⟩).nbytes = (desc.tensorShape 2).toNat ∧
    ∀ (i : ℕ) (k v : Tensor) (fileId : ℕ), 0 < i → kCaches[i]? = some k → vCaches[i]? = some v →
      gpuFileIds[i]? = some fileId →
        sizesMatch m (kCaches.headD ⟨0, 0⟩).nbytes desc.totalFileSize k v fileId = true
  opened : ∀ fileId ∈ gpuFileIds, ∃ nvmeFiles, m.ctxs.lookup fileId = some nvmeFiles ∧ nvmeFiles ≠ []
  registered : ∀ cache : KV, ∀ tensor ∈ cache.tensors kCaches vCaches,
    ∃ mappings, gpu.getPrpMappings tensor = some mappings ∧ mappings ≠ []
  slices : (slicesFrom gpu .k 0 kCaches).length = (slicesFrom gpu .v 0 vCaches).length

/-- What it does not check: the size of the first V tensor, the size of the tensors of the other files, and
the layer. -/
structure UncheckedRight (m : GPUFileManager) (kCaches vCaches : List Tensor) (gpuFileIds : List ℕ)
    (layerIdx : Int32) : Prop where
  firstV : (vCaches.headD ⟨0, 0⟩).nbytes = (kCaches.headD ⟨0, 0⟩).nbytes
  shapes : ∀ (i : ℕ) (fileId : ℕ) (desc : GPUFileDesc), 0 < i → gpuFileIds[i]? = some fileId →
    m.descs.lookup fileId = some desc → (desc.tensorShape 2).toNat = (kCaches.headD ⟨0, 0⟩).nbytes
  layer : ∀ desc, m.descs.lookup (gpuFileIds.headD 0) = some desc →
    LayerFits desc.totalFileSize layerIdx (kCaches.headD ⟨0, 0⟩).nbytes

/-- The pool has an entry for each batch, and the first batch is copied. -/
def FirstBatchCopied (gpu : GPUController) (pool : BatchIoPool) (cuda : CudaOutcomes)
    (kCaches vCaches : List Tensor) : Prop :=
  (slices gpu kCaches vCaches).length ⌈/⌉ MAX_IOCTX_PER_BATCH ≤ pool.free.length ∧ cuda.memcpyAsync 0 = true

variable {m : GPUFileManager} {gpu : GPUController} {pool : BatchIoPool} {cuda : CudaOutcomes}
  {kCaches vCaches : List Tensor} {gpuFileIds : List ℕ} {layerIdx : Int32} {isRead : Bool}
  {device : ℕ → List GPUIoContext} {ioctxs : List GPUIoContext}

/-- When contexts can be filled in. -/
theorem fillCtx_isSome_iff {offset : ℕ} {tensors : List Tensor} {fileIds : List ℕ}
    (hlen : tensors.length = fileIds.length) :
    (∃ ctxs, fillCtx m gpu offset tensors fileIds = some ctxs) ↔
      (∀ fileId ∈ fileIds, ∃ nvmeFiles, m.ctxs.lookup fileId = some nvmeFiles ∧ nvmeFiles ≠ []) ∧
        ∀ tensor ∈ tensors, ∃ mappings, gpu.getPrpMappings tensor = some mappings ∧ mappings ≠ [] := by
  induction tensors generalizing fileIds with
  | nil =>
      obtain rfl : fileIds = [] := List.length_eq_zero_iff.1 hlen.symm
      exact iff_of_true ⟨[], rfl⟩ ⟨by simp, by simp⟩
  | cons tensor tensors ih =>
      cases fileIds with
      | nil => simp at hlen
      | cons fileId fileIds =>
          specialize ih (Nat.succ.inj hlen)
          rw [List.forall_mem_cons, List.forall_mem_cons]
          constructor
          · rintro ⟨ctxs, h⟩
            simp only [fillCtx, Option.bind_eq_bind, Option.bind_eq_some_iff] at h
            obtain ⟨here, hhere, rest, hrest, -⟩ := h
            obtain ⟨nvmeFiles, mappings, hfiles, hmappings, hne, hne', -⟩ := fillOne_eq_some.1 hhere
            obtain ⟨hopened, hregistered⟩ := ih.1 ⟨rest, hrest⟩
            exact ⟨⟨⟨nvmeFiles, hfiles, hne⟩, hopened⟩, ⟨mappings, hmappings, hne'⟩, hregistered⟩
          · rintro ⟨⟨⟨nvmeFiles, hfiles, hne⟩, hopened⟩, ⟨mappings, hmappings, hne'⟩, hregistered⟩
            obtain ⟨rest, hrest⟩ := ih.2 ⟨hopened, hregistered⟩
            refine ⟨ioContexts nvmeFiles mappings offset ++ rest, ?_⟩
            simp only [fillCtx, Option.bind_eq_bind, Option.bind_eq_some_iff]
            exact ⟨_, fillOne_eq_some.2 ⟨nvmeFiles, mappings, hfiles, hmappings, hne, hne', rfl⟩, rest, hrest, rfl⟩

/-- As many contexts are filled in as there are slices. -/
theorem length_of_fillCtx {offset : ℕ} {tensors : List Tensor} {fileIds : List ℕ} (cache : KV)
    (hlen : tensors.length = fileIds.length) (h : fillCtx m gpu offset tensors fileIds = some ioctxs) :
    ioctxs.length = (slicesFrom gpu cache 0 tensors).length := by
  have hlength := congrArg List.length (@map_some_of_fillCtx m gpu cache _ _ _ _ 0 hlen h)
  rwa [List.length_map, List.length_map] at hlength

/-- The tensors and files from the second on, one by one. -/
theorem forall_zip_iff {ks vs : List Tensor} {fileIds : List ℕ} {P : Tensor → Tensor → ℕ → Bool} :
    ((ks.zip (vs.zip fileIds)).all fun p => P p.1 p.2.1 p.2.2) = true ↔
      ∀ (i : ℕ) (k v : Tensor) (fileId : ℕ), ks[i]? = some k → vs[i]? = some v → fileIds[i]? = some fileId →
        P k v fileId = true := by
  rw [List.all_eq_true]
  constructor
  · intro h i k v fileId hk hv hfileId
    exact h (k, v, fileId) (List.mem_of_getElem? (i := i)
      (List.getElem?_zip_eq_some.2 ⟨hk, List.getElem?_zip_eq_some.2 ⟨hv, hfileId⟩⟩))
  · rintro h ⟨k, v, fileId⟩ hp
    obtain ⟨i, hi⟩ := List.mem_iff_getElem?.1 hp
    obtain ⟨hk, hrest⟩ := List.getElem?_zip_eq_some.1 hi
    obtain ⟨hv, hfileId⟩ := List.getElem?_zip_eq_some.1 hrest
    exact h i k v fileId hk hv hfileId

/-- **What the checks of a call amount to.** -/
theorem xferContexts_isSome_iff :
    (∃ ioctxs, xferContexts m gpu kCaches vCaches gpuFileIds layerIdx = some ioctxs) ↔
      PassesChecks m gpu kCaches vCaches gpuFileIds := by
  constructor
  · rintro ⟨ioctxs, h⟩
    obtain ⟨k, ks, v, vs, fileId, fileIds, desc, kIoctxs, vIoctxs, ⟨rfl, rfl, rfl⟩, ⟨hlen, hlen'⟩, hdesc, hbytes,
      hall, hk, hv, -, -⟩ := xferContexts_eq_some.1 h
    obtain ⟨hopened, hkRegistered⟩ := (fillCtx_isSome_iff (by simp [hlen'])).1 ⟨kIoctxs, hk⟩
    obtain ⟨-, hvRegistered⟩ := (fillCtx_isSome_iff (by simp [← hlen, hlen'])).1 ⟨vIoctxs, hv⟩
    refine ⟨List.cons_ne_nil _ _, ⟨by simp [hlen], by simp [hlen']⟩, ⟨desc, hdesc, hbytes, ?_⟩, hopened, ?_,
      (map_some_of_xferContexts h).2⟩
    · -- the second tensor is the first that the loop compares
      intro i k' v' fileId' hi hk' hv' hfileId'
      obtain ⟨j, rfl⟩ := Nat.exists_eq_succ_of_ne_zero hi.ne'
      exact forall_zip_iff.1 hall j k' v' fileId' hk' hv' hfileId'
    · intro cache
      cases cache with
      | k => exact hkRegistered
      | v => exact hvRegistered
  · rintro ⟨hnonempty, ⟨hlen, hlen'⟩, ⟨desc, hdesc, hbytes, hrest⟩, hopened, hregistered, hslices⟩
    obtain ⟨k, ks, rfl⟩ := List.exists_cons_of_ne_nil hnonempty
    obtain ⟨v, vs, rfl⟩ := List.exists_cons_of_length_pos (by rw [← hlen]; exact Nat.succ_pos _)
    obtain ⟨fileId, fileIds, rfl⟩ := List.exists_cons_of_length_pos (l := gpuFileIds)
      (by rw [← hlen']; exact Nat.succ_pos _)
    obtain ⟨kIoctxs, hk⟩ := (@fillCtx_isSome_iff m gpu (layerOffset layerIdx k.nbytes .k) _ _ hlen').2
      ⟨hopened, hregistered .k⟩
    obtain ⟨vIoctxs, hv⟩ := (@fillCtx_isSome_iff m gpu (layerOffset layerIdx k.nbytes .v) _ _
      (hlen.symm.trans hlen')).2 ⟨hopened, hregistered .v⟩
    refine ⟨combine kIoctxs vIoctxs, xferContexts_eq_some.2 ⟨k, ks, v, vs, fileId, fileIds, desc, kIoctxs, vIoctxs,
      ⟨rfl, rfl, rfl⟩, ⟨by simpa using hlen, by simpa using hlen'⟩, hdesc, hbytes, ?_, hk, hv, ?_, rfl⟩⟩
    · exact forall_zip_iff.2 fun i k' v' fileId' hk' hv' hfileId' =>
        hrest (i + 1) k' v' fileId' (Nat.succ_pos i) hk' hv' hfileId'
    · rw [length_of_fillCtx .k hlen' hk, length_of_fillCtx .v (hlen.symm.trans hlen') hv, hslices]

/-- **A call that passes its checks is valid if what it does not check is right.** -/
theorem xferValid_iff (h : PassesChecks m gpu kCaches vCaches gpuFileIds) :
    XferValid m kCaches vCaches gpuFileIds layerIdx ↔ UncheckedRight m kCaches vCaches gpuFileIds layerIdx := by
  obtain ⟨hnonempty, ⟨hlen, hlen'⟩, ⟨desc, hdesc, hbytes, hrest⟩, -, -, -⟩ := h
  obtain ⟨k, ks, rfl⟩ := List.exists_cons_of_ne_nil hnonempty
  obtain ⟨v, vs, rfl⟩ := List.exists_cons_of_length_pos (by rw [← hlen]; exact Nat.succ_pos _)
  obtain ⟨fileId, fileIds, rfl⟩ := List.exists_cons_of_length_pos (l := gpuFileIds)
    (by rw [← hlen']; exact Nat.succ_pos _)
  dsimp only [List.headD_cons] at hdesc hbytes hrest
  constructor
  · intro hvalid
    refine ⟨?_, ?_, ?_⟩
    · obtain ⟨desc', hdesc', hv⟩ := hvalid.tensors .v 0 v fileId rfl rfl
      rw [hdesc] at hdesc'
      cases hdesc'
      exact hv.trans hbytes.symm
    · intro i fileId' desc' hi hfileId' hdesc'
      have hik : i < (k :: ks).length := hlen' ▸ (List.getElem?_eq_some_iff.1 hfileId').1
      have hiv : i < (v :: vs).length := hlen ▸ hik
      obtain ⟨desc'', hdesc'', hk⟩ := hvalid.tensors .k i _ fileId' (List.getElem?_eq_getElem hik) hfileId'
      rw [hdesc'] at hdesc''
      cases hdesc''
      obtain ⟨⟨hmatch, -⟩, -⟩ := sizesMatch_iff.1
        (hrest i _ _ fileId' hi (List.getElem?_eq_getElem hik) (List.getElem?_eq_getElem hiv) hfileId')
      exact hk.symm.trans hmatch
    · intro desc' hdesc'
      obtain ⟨desc'', hdesc'', hfits⟩ := hvalid.layer fileId List.mem_cons_self
      rw [List.headD_cons, hdesc''] at hdesc'
      cases hdesc'
      exact hfits
  · rintro ⟨hfirstV, hshapes, hlayer⟩
    dsimp only [List.headD_cons] at hfirstV hshapes hlayer
    -- what the loop says of a file from the second on
    have hfile : ∀ (i : ℕ) (fileId' : ℕ), 0 < i → (fileId :: fileIds)[i]? = some fileId' →
        ∃ desc', m.descs.lookup fileId' = some desc' ∧ desc'.totalFileSize = desc.totalFileSize ∧
          ∀ (cache : KV) (tensor : Tensor), (cache.tensors (k :: ks) (v :: vs))[i]? = some tensor →
            tensor.nbytes = k.nbytes := by
      intro i fileId' hi hfileId'
      have hik : i < (k :: ks).length := hlen' ▸ (List.getElem?_eq_some_iff.1 hfileId').1
      have hiv : i < (v :: vs).length := hlen ▸ hik
      obtain ⟨⟨hk, hv⟩, desc', hdesc', hsize⟩ := sizesMatch_iff.1
        (hrest i _ _ fileId' hi (List.getElem?_eq_getElem hik) (List.getElem?_eq_getElem hiv) hfileId')
      refine ⟨desc', hdesc', hsize, ?_⟩
      intro cache tensor htensor
      cases cache with
      | k =>
          obtain ⟨hi', rfl⟩ := List.getElem?_eq_some_iff.1 htensor
          exact hk
      | v =>
          obtain ⟨hi', rfl⟩ := List.getElem?_eq_some_iff.1 htensor
          exact hv
    refine ⟨?_, ?_⟩
    · intro cache i tensor fileId' htensor hfileId'
      cases i with
      | zero =>
          rw [List.getElem?_cons_zero] at hfileId'
          cases hfileId'
          refine ⟨desc, hdesc, ?_⟩
          cases cache with
          | k =>
              cases htensor
              exact hbytes
          | v =>
              cases htensor
              exact hfirstV.trans hbytes
      | succ i =>
          obtain ⟨desc', hdesc', -, htensors⟩ := hfile (i + 1) fileId' (Nat.succ_pos i) hfileId'
          exact ⟨desc', hdesc', (htensors cache tensor htensor).trans
            (hshapes (i + 1) fileId' desc' (Nat.succ_pos i) hfileId' hdesc').symm⟩
    · intro fileId' hmem
      obtain ⟨i, hi⟩ := List.mem_iff_getElem?.1 hmem
      cases i with
      | zero =>
          rw [List.getElem?_cons_zero] at hi
          cases hi
          exact ⟨desc, hdesc, hlayer desc hdesc⟩
      | succ i =>
          obtain ⟨desc', hdesc', hsize, -⟩ := hfile (i + 1) fileId' (Nat.succ_pos i) hi
          refine ⟨desc', hdesc', ?_⟩
          rw [hsize]
          exact hlayer desc hdesc

/-! ### When a call is validated -/

/-- When the pool has its entries back. -/
theorem keeps_nothing_iff {call : XferCall}
    (hcall : geminifsBatchedXferOn m gpu pool cuda kCaches vCaches gpuFileIds layerIdx isRead = call) :
    (∃ d, runStream call.stream ⟨call.pool, device, []⟩ = some d ∧ d.pool.free.Perm pool.free) ↔
      cuda.launchHostFunc = true ∨ call.pool.free = pool.free := by
  subst hcall
  obtain ⟨taken, d, hsplit, -, hrun, hperm⟩ := geminifsBatchedXferOn_released m gpu pool cuda kCaches vCaches
    gpuFileIds layerIdx isRead device
  rw [hrun]
  constructor
  · rintro ⟨d', hd', hback⟩
    cases hd'
    by_cases hhost : cuda.launchHostFunc = true
    · exact Or.inl hhost
    · -- what was taken is not in the pool
      rw [if_neg hhost] at hperm
      have hlength := hperm.symm.trans hback
      have htaken : taken = [] := by
        have hlen := hlength.length_eq
        rw [hsplit, List.length_append] at hlen
        exact List.length_eq_zero_iff.1 (by omega)
      rw [htaken, List.nil_append] at hsplit
      exact Or.inr hsplit.symm
  · rintro (hhost | hpool)
    · rw [if_pos hhost] at hperm
      exact ⟨d, rfl, hperm⟩
    · rw [hpool, ite_self] at hperm
      exact ⟨d, rfl, hperm⟩

/-- A call that passes its checks has a slice. -/
theorem length_slices_pos (h : PassesChecks m gpu kCaches vCaches gpuFileIds) :
    0 < (slices gpu kCaches vCaches).length := by
  obtain ⟨k, ks, rfl⟩ := List.exists_cons_of_ne_nil h.nonempty
  obtain ⟨mappings, hmappings, hne⟩ := h.registered .k k List.mem_cons_self
  have hmem : (⟨0, .k, 0⟩ : CacheSlice) ∈ slices gpu (k :: ks) vCaches := by
    rw [slices, (perm_interleave h.slices).mem_iff, List.mem_append, mem_slicesFrom]
    exact Or.inl ⟨rfl, le_refl 0, k, mappings, rfl, hmappings, List.length_pos_iff.2 hne⟩
  exact List.length_pos_of_mem hmem

/-- A release is no kernel. -/
theorem not_isKernel_launchRelease {entries : List (Option ℕ)} {op : StreamOp}
    (hop : op ∈ launchRelease cuda entries) : op.isKernel = false := by
  rw [launchRelease] at hop
  split_ifs at hop
  · rw [List.mem_singleton] at hop
    subst hop
    rfl
  · cases hop

/-- **When a kernel is launched, and what the call returns and leaves of the pool otherwise.** -/
theorem launched_cases {call : XferCall}
    (hcall : geminifsBatchedXferOn m gpu pool cuda kCaches vCaches gpuFileIds layerIdx isRead = call) :
    (PassesChecks m gpu kCaches vCaches gpuFileIds ∧ FirstBatchCopied gpu pool cuda kCaches vCaches ∧
        call.Launched) ∨
      (PassesChecks m gpu kCaches vCaches gpuFileIds ∧ ¬ FirstBatchCopied gpu pool cuda kCaches vCaches ∧
        ¬ call.Launched ∧ call.returned = false ∧ (call.pool.free = pool.free ↔ pool.free = [])) ∨
      (¬ PassesChecks m gpu kCaches vCaches gpuFileIds ∧ ¬ call.Launched ∧ call.returned = false ∧
        call.pool.free = pool.free) := by
  subst hcall
  cases h : xferContexts m gpu kCaches vCaches gpuFileIds layerIdx with
  | none =>
      have hchecks : ¬ PassesChecks m gpu kCaches vCaches gpuFileIds := by
        intro hchecks
        obtain ⟨ioctxs, hsome⟩ := xferContexts_isSome_iff.2 hchecks
        rw [h] at hsome
        cases hsome
      rw [geminifsBatchedXferOn_of_none h]
      refine Or.inr (Or.inr ⟨hchecks, ?_, rfl, rfl⟩)
      rintro ⟨op, hop, -⟩
      cases hop
  | some ioctxs =>
      have hchecks := xferContexts_isSome_iff.1 ⟨ioctxs, h⟩
      have hlength : (slices gpu kCaches vCaches).length = ioctxs.length := by
        have hlen := congrArg List.length (map_some_of_xferContexts h).1
        rw [List.length_map, List.length_map] at hlen
        exact hlen.symm
      have hbatches : (batches ioctxs).length =
          (slices gpu kCaches vCaches).length ⌈/⌉ MAX_IOCTX_PER_BATCH := by
        rw [batches, List.length_map, List.length_range, hlength]
      have hpos : 0 < (batches ioctxs).length := by
        rw [hbatches, Tiling.lt_ceilDiv_iff (by decide), Nat.zero_mul]
        exact length_slices_pos hchecks
      rcases Nat.lt_or_ge pool.free.length (batches ioctxs).length with hlt | hle
      · obtain ⟨entries, pool', -, hpool', hcall⟩ := geminifsBatchedXferOn_of_lt h hlt
        rw [hcall]
        refine Or.inr (Or.inl ⟨hchecks, ?_, ?_, rfl, ?_⟩)
        · rintro ⟨hle, -⟩
          rw [← hbatches] at hle
          exact Nat.not_lt.2 hle hlt
        · rintro ⟨op, hop, hkernel⟩
          rw [not_isKernel_launchRelease hop] at hkernel
          cases hkernel
        · rw [hpool']
          exact eq_comm
      · obtain ⟨entries, pool', -, hpool', hcall⟩ := geminifsBatchedXferOn_of_le h hle
        obtain ⟨entry, rest, hentries⟩ := List.exists_cons_of_length_pos
          (show 0 < (pool.free.take (batches ioctxs).length).length by rw [List.length_take]; omega)
        rw [hcall, hentries, launchBatches_cons 0 entry rest hpos]
        by_cases hcopied : cuda.memcpyAsync 0 = true
        · refine Or.inl ⟨hchecks, ⟨hbatches ▸ hle, hcopied⟩, ?_⟩
          rw [if_pos hcopied]
          exact ⟨_, List.mem_append_left _ (List.mem_append_left _ (List.mem_cons_of_mem _ List.mem_cons_self)), rfl⟩
        · rw [if_neg hcopied]
          refine Or.inr (Or.inl ⟨hchecks, fun hfirst => hcopied hfirst.2, ?_, rfl, ?_⟩)
          · rintro ⟨op, hop, hkernel⟩
            rw [List.nil_append] at hop
            rw [not_isKernel_launchRelease hop] at hkernel
            cases hkernel
          · -- an entry has been taken
            constructor
            · intro hsame
              have hlen := congrArg List.length hsame
              dsimp only at hlen
              rw [hpool', List.length_drop] at hlen
              omega
            · intro hempty
              rw [hempty, List.length_nil] at hle
              omega

/-- **When a batched transfer is validated before it starts**: if it starts a kernel, then the first V tensor,
the tensors of the other files and the layer, which it does not check, must be right; if it gets no further
than the pool, then the host function that puts its entries back must be launched. -/
theorem validatedBeforeStart_iff (m : GPUFileManager) (gpu : GPUController) (pool : BatchIoPool)
    (cuda : CudaOutcomes) (kCaches vCaches : List Tensor) (gpuFileIds : List ℕ) (layerIdx : Int32)
    (isRead : Bool) (device : ℕ → List GPUIoContext) :
    ValidatedBeforeStart m gpu pool cuda kCaches vCaches gpuFileIds layerIdx isRead device ↔
      (PassesChecks m gpu kCaches vCaches gpuFileIds →
        (FirstBatchCopied gpu pool cuda kCaches vCaches →
          UncheckedRight m kCaches vCaches gpuFileIds layerIdx) ∧
        (¬ FirstBatchCopied gpu pool cuda kCaches vCaches →
          cuda.launchHostFunc = true ∨ pool.free = [])) := by
  have hkeeps := @keeps_nothing_iff m gpu pool cuda kCaches vCaches gpuFileIds layerIdx isRead device _ rfl
  rcases @launched_cases m gpu pool cuda kCaches vCaches gpuFileIds layerIdx isRead _ rfl with
    ⟨hchecks, hfirst, hlaunched⟩ | ⟨hchecks, hfirst, hnot, hreturned, hpool⟩ | ⟨hchecks, hnot, hreturned, hpool⟩
  · constructor
    · intro h _
      exact ⟨fun _ => (xferValid_iff hchecks).1 (h.launched hlaunched), fun hno => absurd hfirst hno⟩
    · intro h
      exact ⟨fun _ => (xferValid_iff hchecks).2 ((h hchecks).1 hfirst), fun hno => absurd hlaunched hno⟩
  · rw [hpool] at hkeeps
    constructor
    · intro h _
      exact ⟨fun hyes => absurd hyes hfirst, fun _ => hkeeps.1 (h.otherwise hnot).2⟩
    · intro h
      exact ⟨fun hyes => absurd hyes hnot, fun _ => ⟨hreturned, hkeeps.2 ((h hchecks).2 hfirst)⟩⟩
  · refine iff_of_true ⟨fun hyes => absurd hyes hnot, fun _ => ⟨hreturned, hkeeps.2 (Or.inr hpool)⟩⟩ ?_
    intro hyes
    exact absurd hyes hchecks

/-- The file has eight layers, and layer 8 is transferred; and a V tensor of two pages goes into a file of
one-page tensors. -/
theorem not_validatedBeforeStart_onePage : ∃ m, onePageServed 1 8 = some m ∧
    ¬ ValidatedBeforeStart m (onePageGpu 1) (.new 4) ⟨fun _ => true, true⟩ [⟨0, 4096⟩] [⟨4096, 4096⟩] [0] 8
      false (fun _ => []) ∧
    ¬ ValidatedBeforeStart m (onePageGpu 1) (.new 4) ⟨fun _ => true, true⟩ [⟨4096, 4096⟩] [⟨0, 8192⟩] [0] 0
      false (fun _ => []) := by
  obtain ⟨m, hm⟩ := Option.isSome_iff_exists.1 (show (onePageServed 1 8).isSome = true by decide +kernel)
  have hdesc : ((onePageServed 1 8).bind fun m => (m.descs.lookup 0).map fun desc =>
      (desc.totalFileSize.toNat, (desc.tensorShape 2).toNat)) = some (65536, 4096) := by
    decide +kernel
  have hlaunched : ((onePageServed 1 8).map fun m =>
      ((geminifsBatchedXferOn m (onePageGpu 1) (.new 4) ⟨fun _ => true, true⟩ [⟨0, 4096⟩] [⟨4096, 4096⟩] [0] 8
        false).stream.any StreamOp.isKernel,
      (geminifsBatchedXferOn m (onePageGpu 1) (.new 4) ⟨fun _ => true, true⟩ [⟨4096, 4096⟩] [⟨0, 8192⟩] [0] 0
        false).stream.any StreamOp.isKernel)) = some (true, true) := by
    decide +kernel
  rw [hm, Option.bind_some] at hdesc
  obtain ⟨desc, hlookup, hsizes⟩ := Option.map_eq_some_iff.1 hdesc
  obtain ⟨htotal, hshape⟩ := Prod.mk.inj hsizes
  rw [hm, Option.map_some, Option.some_inj] at hlaunched
  obtain ⟨hlayer, hfirstV⟩ := Prod.mk.inj hlaunched
  refine ⟨m, hm, fun h => ?_, fun h => ?_⟩
  · obtain ⟨desc', hlookup', hfits⟩ := (h.launched (List.any_eq_true.1 hlayer)).layer 0 List.mem_cons_self
    rw [hlookup] at hlookup'
    cases hlookup'
    have hbound := hfits.2
    rw [htotal] at hbound
    revert hbound
    decide
  · obtain ⟨desc', hlookup', hv⟩ := (h.launched (List.any_eq_true.1 hfirstV)).tensors .v 0 _ 0 rfl rfl
    rw [hlookup] at hlookup'
    cases hlookup'
    rw [hshape] at hv
    cases hv

end GeminiFS
end InfiniKV
