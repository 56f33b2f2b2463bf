/-
**The slices of a batched transfer.**

The contexts of K and V are interleaved, cut into batches, and indexed again by block and thread, with rounding
at both levels.  A slice is an entry of a tensor of the call; here the contexts that the threads take are
traced back to the slices.

Main definitions:

* `InfiniKV.GeminiFS.CacheSlice`, `InfiniKV.GeminiFS.slices` — the slices of a call, K and V in turn;
* `InfiniKV.GeminiFS.IssuedOnce` — each of them is issued once, in the slot of its number.

Main results:

* `InfiniKV.GeminiFS.map_some_of_xferContexts` — the contexts are those of the slices;
* `InfiniKV.GeminiFS.batchedXfer_issues_slices_once` — **a call that returns true issues each slice once**.
-/

import InfiniKV.SliceAccess
import InfiniKV.XferStream

set_option relaxedAutoImplicit false
set_option autoImplicit false

namespace InfiniKV
namespace GeminiFS

variable {cuda : CudaOutcomes} {ioctxs : List GPUIoContext} {len : ℕ} {isRead : Bool}

/-! ### Slices -/

/-- Slice `slice` of the K or the V tensor that belongs to file number `file` of a call. -/
structure CacheSlice where
  file : ℕ
  cache : KV
  slice : ℕ
  deriving DecidableEq

/-- The K or the V tensors of a call. -/
def KV.tensors (kCaches vCaches : List Tensor) : KV → List Tensor
  | .k => kCaches
  | .v => vCaches

/-- The slices of a call: an entry of each of its tensors. -/
def CacheSlice.Of (gpu : GPUController) (kCaches vCaches : List Tensor) (s : CacheSlice) : Prop :=
  ∃ tensor mappings, (s.cache.tensors kCaches vCaches)[s.file]? = some tensor ∧
    gpu.getPrpMappings tensor = some mappings ∧ s.slice < mappings.length

/-- Entry `j` of tensor `i`, with the NVMe files of file `i`. -/
def entryContext (m : GPUFileManager) (gpu : GPUController) (offset : ℕ) (tensors : List Tensor)
    (fileIds : List ℕ) (i j : ℕ) : Option GPUIoContext := do
  let tensor ← tensors[i]?
  let fileId ← fileIds[i]?
  let nvmeFiles ← m.ctxs.lookup fileId
  let mappings ← gpu.getPrpMappings tensor
  let entry ← mappings[j]?
  return ⟨nvmeFiles, entry, j, offset⟩

/-- The context of a slice. -/
def CacheSlice.context (m : GPUFileManager) (gpu : GPUController) (kCaches vCaches : List Tensor)
    (gpuFileIds : List ℕ) (layerIdx : Int32) (s : CacheSlice) : Option GPUIoContext :=
  entryContext m gpu (layerOffset layerIdx (kCaches.headD ⟨0, 0⟩).nbytes s.cache)
    (s.cache.tensors kCaches vCaches) gpuFileIds s.file s.slice

/-- The slices of the tensors from number `i` on, tensor by tensor. -/
def slicesFrom (gpu : GPUController) (cache : KV) : ℕ → List Tensor → List CacheSlice
  | _, [] => []
  | i, tensor :: tensors =>
      (List.range ((gpu.getPrpMappings tensor).getD []).length).map (fun j => ⟨i, cache, j⟩) ++
        slicesFrom gpu cache (i + 1) tensors

/-- One of each, in turn. -/
def interleave {α : Type} : List α → List α → List α
  | k :: ks, v :: vs => k :: v :: interleave ks vs
  | _, _ => []

/-- The slices of a call: one of K, one of V, and so on. -/
def slices (gpu : GPUController) (kCaches vCaches : List Tensor) : List CacheSlice :=
  interleave (slicesFrom gpu .k 0 kCaches) (slicesFrom gpu .v 0 vCaches)

/-- **Each slice is issued once**: what the threads of all kernels have served, one after the other, are the
contexts of the slices, and slot `t` of batch `b` has the slice with the number `b * batch_size + t`. -/
structure IssuedOnce (m : GPUFileManager) (gpu : GPUController) (kCaches vCaches : List Tensor)
    (gpuFileIds : List ℕ) (layerIdx : Int32) (d : StreamState) : Prop where
  nodup : (slices gpu kCaches vCaches).Nodup
  mem : ∀ s, s ∈ slices gpu kCaches vCaches ↔ s.Of gpu kCaches vCaches
  served : (d.kernels.flatMap List.reduceOption).map some =
    (slices gpu kCaches vCaches).map (CacheSlice.context m gpu kCaches vCaches gpuFileIds layerIdx)
  slot : ∀ b t, d.slot b t =
    if t < min MAX_IOCTX_PER_BATCH (slices gpu kCaches vCaches).length then
      ((slices gpu kCaches vCaches)[b * min MAX_IOCTX_PER_BATCH (slices gpu kCaches vCaches).length + t]?).bind
        (CacheSlice.context m gpu kCaches vCaches gpuFileIds layerIdx)
    else none

/-! ### Each slice is issued once -/

/-- Nothing is left out, if there are as many of the one as of the other. -/
theorem perm_interleave {α : Type} {ks vs : List α} (hlen : ks.length = vs.length) :
    (interleave ks vs).Perm (ks ++ vs) := by
  induction ks generalizing vs with
  | nil =>
      obtain rfl : vs = [] := List.length_eq_zero_iff.1 hlen.symm
      exact List.Perm.refl _
  | cons k ks ih =>
      cases vs with
      | nil => simp at hlen
      | cons v vs =>
          rw [interleave, List.cons_append]
          have hrest := (ih (Nat.succ.inj hlen)).cons v
          exact (hrest.trans List.perm_middle.symm).cons k

theorem map_interleave {α β : Type} (f : α → β) (ks vs : List α) :
    (interleave ks vs).map f = interleave (ks.map f) (vs.map f) := by
  induction ks generalizing vs with
  | nil => rfl
  | cons k ks ih =>
      cases vs with
      | nil => rfl
      | cons v vs =>
          rw [interleave, List.map_cons, List.map_cons, ih]
          rfl

theorem combine_eq_interleave (ks vs : List GPUIoContext) : combine ks vs = interleave ks vs := by
  induction ks generalizing vs with
  | nil => rfl
  | cons k ks ih =>
      cases vs with
      | nil => rfl
      | cons v vs => rw [combine, interleave, ih]

theorem mem_slicesFrom {gpu : GPUController} {cache : KV} {s : CacheSlice} (tensors : List Tensor) (i : ℕ) :
    s ∈ slicesFrom gpu cache i tensors ↔ s.cache = cache ∧ i ≤ s.file ∧ ∃ tensor mappings,
      tensors[s.file - i]? = some tensor ∧ gpu.getPrpMappings tensor = some mappings ∧
        s.slice < mappings.length := by
  induction tensors generalizing i with
  | nil => simp [slicesFrom]
  | cons tensor tensors ih =>
      rw [slicesFrom, List.mem_append, ih, List.mem_map]
      obtain ⟨file, cache', slice⟩ := s
      constructor
      · rintro (⟨j, hj, heq⟩ | ⟨hcache, hfile, hrest⟩)
        · cases heq
          rw [List.mem_range] at hj
          cases hmappings : gpu.getPrpMappings tensor with
          | none => simp [hmappings] at hj
          | some mappings => exact ⟨rfl, le_refl _, tensor, mappings, by simp, hmappings, by simpa [hmappings] using hj⟩
        · dsimp only at hfile hrest ⊢
          refine ⟨hcache, by omega, ?_⟩
          rwa [show file - i = file - (i + 1) + 1 by omega, List.getElem?_cons_succ]
      · rintro ⟨hcache, hfile, hrest⟩
        dsimp only at hcache hfile hrest ⊢
        rcases Nat.eq_or_lt_of_le hfile with rfl | hlt
        · obtain ⟨tensor', mappings, htensor, hmappings, hslice⟩ := hrest
          rw [Nat.sub_self, List.getElem?_cons_zero] at htensor
          cases htensor
          exact Or.inl ⟨slice, by simpa [hmappings] using hslice, by rw [hcache]⟩
        · rw [show file - i = file - (i + 1) + 1 by omega, List.getElem?_cons_succ] at hrest
          exact Or.inr ⟨hcache, hlt, hrest⟩

theorem nodup_slicesFrom (gpu : GPUController) (cache : KV) (i : ℕ) (tensors : List Tensor) :
    (slicesFrom gpu cache i tensors).Nodup := by
  induction tensors generalizing i with
  | nil => exact List.nodup_nil
  | cons tensor tensors ih =>
      rw [slicesFrom, List.nodup_append]
      refine ⟨?_, ih (i + 1), ?_⟩
      · exact List.nodup_range.map fun j j' heq => congrArg CacheSlice.slice heq
      · -- the later slices are of later files
        rintro s hs s' hs' rfl
        obtain ⟨j, -, rfl⟩ := List.mem_map.1 hs
        have hfile := ((mem_slicesFrom tensors (i + 1)).1 hs').2.1
        exact absurd hfile (Nat.not_succ_le_self i)

/-- The contexts that are filled in are those of the slices. -/
theorem map_some_of_fillCtx {m : GPUFileManager} {gpu : GPUController} {cache : KV} {offset : ℕ}
    {tensors : List Tensor} {fileIds : List ℕ} {ctxs : List GPUIoContext} (i : ℕ)
    (hlen : tensors.length = fileIds.length) (h : fillCtx m gpu offset tensors fileIds = some ctxs) :
    ctxs.map some = (slicesFrom gpu cache i tensors).map fun s =>
      entryContext m gpu offset tensors fileIds (s.file - i) s.slice := by
  induction tensors generalizing fileIds ctxs i with
  | nil =>
      cases h
      rfl
  | cons tensor tensors ih =>
      cases fileIds with
      | nil => simp at hlen
      | cons fileId fileIds =>
          simp only [fillCtx, Option.bind_eq_bind, Option.bind_eq_some_iff] at h
          obtain ⟨here, hhere, rest, hrest, heq⟩ := h
          cases heq
          obtain ⟨nvmeFiles, mappings, hfiles, hmappings, -, -, rfl⟩ := fillOne_eq_some.1 hhere
          rw [slicesFrom, List.map_append, List.map_append, List.map_map, ih (i + 1) (Nat.succ.inj hlen) hrest]
          congr 1
          · apply List.ext_getElem
            · simp [ioContexts, hmappings]
            · intro j hj hj'
              simp only [List.length_map, ioContexts, List.length_mapIdx] at hj
              simp [ioContexts, entryContext, hfiles, hmappings, List.getElem?_eq_getElem hj]
          · apply List.map_congr_left
            intro s hs
            have hfile := ((mem_slicesFrom tensors (i + 1)).1 hs).2.1
            rw [show s.file - i = s.file - (i + 1) + 1 by omega, entryContext, entryContext,
              List.getElem?_cons_succ, List.getElem?_cons_succ]

/-- The contexts of a call are those of its slices, in the same order. -/
theorem map_some_of_xferContexts {m : GPUFileManager} {gpu : GPUController} {kCaches vCaches : List Tensor}
    {gpuFileIds : List ℕ} {layerIdx : Int32}
    (h : xferContexts m gpu kCaches vCaches gpuFileIds layerIdx = some ioctxs) :
    ioctxs.map some =
        (slices gpu kCaches vCaches).map (CacheSlice.context m gpu kCaches vCaches gpuFileIds layerIdx) ∧
      (slicesFrom gpu .k 0 kCaches).length = (slicesFrom gpu .v 0 vCaches).length := by
  obtain ⟨k, ks, v, vs, fileId, fileIds, desc, kIoctxs, vIoctxs, ⟨hks, hvs, hfileIds⟩, ⟨hlen, hlen'⟩, -, -, -, hk,
    hv, hsame, rfl⟩ := xferContexts_eq_some.1 h
  have hkSlices := @map_some_of_fillCtx m gpu .k _ _ _ _ 0 (by simp [hks, hfileIds, hlen']) hk
  have hvSlices := @map_some_of_fillCtx m gpu .v _ _ _ _ 0 (by simp [hvs, hfileIds, ← hlen, hlen']) hv
  have hlens : (slicesFrom gpu .k 0 kCaches).length = (slicesFrom gpu .v 0 vCaches).length := by
    have hk' := congrArg List.length hkSlices
    have hv' := congrArg List.length hvSlices
    simp only [List.length_map] at hk' hv'
    rw [← hk', ← hv', hsame]
  refine ⟨?_, hlens⟩
  rw [combine_eq_interleave, map_interleave, slices, map_interleave, hkSlices, hvSlices]
  congr 1
  · apply List.map_congr_left
    intro s hs
    rw [CacheSlice.context, ((mem_slicesFrom _ _).1 hs).1, hks]
    rfl
  · apply List.map_congr_left
    intro s hs
    rw [CacheSlice.context, ((mem_slicesFrom _ _).1 hs).1, hks]
    rfl

/-- The kernels of all batches issue each slice once. -/
theorem issuedOnce_of_kernels {m : GPUFileManager} {gpu : GPUController} {kCaches vCaches : List Tensor}
    {gpuFileIds : List ℕ} {layerIdx : Int32} {d : StreamState}
    (h : xferContexts m gpu kCaches vCaches gpuFileIds layerIdx = some ioctxs)
    (hkernels : d.kernels = (batches ioctxs).map servedBy) :
    IssuedOnce m gpu kCaches vCaches gpuFileIds layerIdx d := by
  obtain ⟨hcontexts, hlens⟩ := map_some_of_xferContexts h
  have hlength : (slices gpu kCaches vCaches).length = ioctxs.length := by
    have hlen := congrArg List.length hcontexts
    rw [List.length_map, List.length_map] at hlen
    exact hlen.symm
  refine ⟨?_, ?_, ?_, ?_⟩
  · rw [slices, (perm_interleave hlens).nodup_iff, List.nodup_append]
    refine ⟨nodup_slicesFrom _ _ _ _, nodup_slicesFrom _ _ _ _, ?_⟩
    rintro s hs s' hs' rfl
    have hk := ((mem_slicesFrom _ _).1 hs).1
    rw [((mem_slicesFrom _ _).1 hs').1] at hk
    cases hk
  · intro s
    rw [slices, (perm_interleave hlens).mem_iff, List.mem_append, mem_slicesFrom, mem_slicesFrom, CacheSlice.Of]
    obtain ⟨file, cache, slice⟩ := s
    cases cache <;> simp [KV.tensors]
  · have hserved : d.kernels.flatMap List.reduceOption = ioctxs := by
      rw [hkernels, List.flatMap_map, List.flatMap_congr fun batch _ => reduceOption_servedBy batch,
        List.flatMap_id', flatten_batches]
    rw [hserved, hcontexts]
  · intro b t
    have hslot : d.slot b t = ((batches ioctxs)[b]?).bind fun batch => batch[t]? := by
      rw [StreamState.slot, hkernels, List.getElem?_map]
      cases (batches ioctxs)[b]? with
      | none => rfl
      | some batch => exact getElem?_servedBy batch t
    have helem : ∀ p : ℕ, ((slices gpu kCaches vCaches)[p]?).bind
        (CacheSlice.context m gpu kCaches vCaches gpuFileIds layerIdx) = ioctxs[p]? := by
      intro p
      have hp : ((ioctxs.map some)[p]?).join = (((slices gpu kCaches vCaches).map
          (CacheSlice.context m gpu kCaches vCaches gpuFileIds layerIdx))[p]?).join := by rw [hcontexts]
      rw [List.getElem?_map, List.getElem?_map] at hp
      cases hslice : (slices gpu kCaches vCaches)[p]? with
      | none =>
          rw [hslice] at hp
          cases hctx : ioctxs[p]? with
          | none => rfl
          | some ctx => simp [hctx] at hp
      | some s =>
          rw [hslice] at hp
          cases hctx : ioctxs[p]? with
          | none => simpa [hctx] using hp.symm
          | some ctx => simpa [hctx] using hp.symm
    rw [hslot, hlength, helem]
    rcases Nat.lt_or_ge b (ioctxs.length ⌈/⌉ MAX_IOCTX_PER_BATCH) with hb | hb
    · rw [batches, List.getElem?_map, List.getElem?_range hb]
      dsimp only [Option.map_some, Option.bind_some]
      rw [List.getElem?_take, List.getElem?_drop]
    · -- there is no such batch, and no such context
      have hout := (length_le_batches ioctxs).trans
        (Nat.mul_le_mul_right (min MAX_IOCTX_PER_BATCH ioctxs.length) hb)
      rw [batches, List.getElem?_map, List.getElem?_eq_none (by simpa using hb),
        List.getElem?_eq_none (by omega), ite_self]
      rfl

/-- **A call that returns true issues each slice once**: the threads of its kernels serve the contexts of all
slices, each in the slot of its number.  Whatever it returns, each entry it has taken from the pool is put back
once. -/
theorem batchedXfer_issues_slices_once (m : GPUFileManager) (gpu : GPUController) (pool : BatchIoPool)
    (kCaches vCaches : List Tensor) (gpuFileIds : List ℕ) (layerIdx : Int32) (device : ℕ → List GPUIoContext)
    (hmemcpy : ∀ i, cuda.memcpyAsync i = true) (hhost : cuda.launchHostFunc = true) {call : XferCall}
    (hcall : geminifsBatchedXferOn m gpu pool cuda kCaches vCaches gpuFileIds layerIdx isRead = call) :
    ∃ taken d, pool.free = taken ++ call.pool.free ∧ releasedEntries call.stream = taken ∧
      runStream call.stream ⟨call.pool, device, []⟩ = some d ∧ d.pool.free.Perm pool.free ∧
      (call.returned = true → IssuedOnce m gpu kCaches vCaches gpuFileIds layerIdx d) := by
  subst hcall
  obtain ⟨taken, d, hsplit, hreleased, hrun, hperm⟩ := geminifsBatchedXferOn_released m gpu pool cuda kCaches
    vCaches gpuFileIds layerIdx isRead device
  rw [if_pos hhost] at hreleased hperm
  refine ⟨taken, d, hsplit, hreleased, hrun, hperm, fun hreturned => ?_⟩
  cases h : xferContexts m gpu kCaches vCaches gpuFileIds layerIdx with
  | none =>
      rw [geminifsBatchedXferOn_of_none h] at hreturned
      cases hreturned
  | some ioctxs =>
      rcases Nat.lt_or_ge pool.free.length (batches ioctxs).length with hlt | hle
      · obtain ⟨entries, pool', -, -, hcall⟩ := geminifsBatchedXferOn_of_lt h hlt
        rw [hcall] at hreturned
        cases hreturned
      · obtain ⟨entries, pool', hentries, hpool', hcall⟩ := geminifsBatchedXferOn_of_le h hle
        rw [hcall] at hrun
        dsimp only at hrun
        have htaken : (pool.free.take (batches ioctxs).length).length = (batches ioctxs).length := by
          rw [List.length_take, Nat.min_eq_left hle]
        rw [launchBatches_of_ok hmemcpy 0 _ (by rw [Nat.zero_add, htaken])] at hrun
        obtain ⟨d₁, hrun₁, hpool₁, hkernels₁⟩ := @runStream_flatMap_batchOps
          (kCaches.headD ⟨0, 0⟩).nbytes isRead ((pool.free.take (batches ioctxs).length).zip
            ((batches ioctxs).drop 0)) ⟨pool', device, []⟩
        -- the release at the end leaves what the kernels have served
        have hnodup : (pool.free.take (batches ioctxs).length ++ d₁.pool.free).Nodup := by
          rw [hpool₁, hpool', List.take_append_drop]
          exact pool.nodup
        obtain ⟨-, d₂, hrun₂, hkernels₂, -⟩ := @runStream_launchRelease cuda _ entries d₁ hentries hnodup
        rw [runStream_append, hrun₁, Option.bind_some, hrun₂] at hrun
        cases hrun
        apply issuedOnce_of_kernels h
        have hsnd := List.map_snd_zip (le_of_eq htaken.symm)
        rw [hkernels₂, hkernels₁, List.nil_append, List.drop_zero]
        exact (List.map_map.symm.trans (congrArg (List.map servedBy) hsnd))

/-- Four tensors of 160 pages, on a controller that transfers one page at once. -/
def smallIoGpu : GPUController :=
  (GPUController.registerTensorMemory ⟨[some 4096], [], ∅⟩ ⟨0, 4 * 655360⟩ 655360
    ((List.range 640).map (· * 4096)) []).getD ⟨[], [], ∅⟩

/-- Two files of one layer of such tensors, which are open. -/
def twoFilesServed : Option GPUFileManager := do
  let created ← (freshManager 1).createGPUFiles (2 * 655360) 2 [2, 1, 655360] fun _ _ => some []
  created.2.serveRun [.initGPUFile 0 fun _ => true, .initGPUFile 1 fun _ => true, .openGPUFile true,
    .openGPUFile true]

/-- The K and the V tensors of the two files have 640 slices, which take two batches. -/
theorem batchedXfer_issues_slices_once_twoBatches : ∃ m, twoFilesServed = some m ∧
    (slices smallIoGpu [⟨0, 655360⟩, ⟨655360, 655360⟩] [⟨1310720, 655360⟩, ⟨1966080, 655360⟩]).length = 640 ∧
    (geminifsBatchedXferOn m smallIoGpu (.new 4) ⟨fun _ => true, true⟩ [⟨0, 655360⟩, ⟨655360, 655360⟩]
      [⟨1310720, 655360⟩, ⟨1966080, 655360⟩] [0, 1] 0 true).returned = true ∧
    ∃ d, IssuedOnce m smallIoGpu [⟨0, 655360⟩, ⟨655360, 655360⟩] [⟨1310720, 655360⟩, ⟨1966080, 655360⟩] [0, 1] 0 d := by
  obtain ⟨m, hm⟩ := Option.isSome_iff_exists.1 (show twoFilesServed.isSome = true by decide +kernel)
  have hreturned : (twoFilesServed.map fun m => (geminifsBatchedXferOn m smallIoGpu (.new 4) ⟨fun _ => true, true⟩
      [⟨0, 655360⟩, ⟨655360, 655360⟩] [⟨1310720, 655360⟩, ⟨1966080, 655360⟩] [0, 1] 0 true).returned) =
        some true := by
    decide +kernel
  rw [hm, Option.map_some, Option.some_inj] at hreturned
  obtain ⟨taken, d, -, -, -, -, honce⟩ := @batchedXfer_issues_slices_once ⟨fun _ => true, true⟩ true m smallIoGpu
    (.new 4) [⟨0, 655360⟩, ⟨655360, 655360⟩] [⟨1310720, 655360⟩, ⟨1966080, 655360⟩] [0, 1] 0 (fun _ => [])
    (fun _ => rfl) rfl _ rfl
  exact ⟨m, hm, by decide +kernel, hreturned, d, honce hreturned⟩

end GeminiFS
end InfiniKV
