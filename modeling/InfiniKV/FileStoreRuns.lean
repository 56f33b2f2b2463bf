/-
**The store of GPU files.**

Tensors are written to GPU files and read back, while files are created, deleted, set up, opened and closed, and
the memory is used for other things.  A call puts its commands on a stream; the controllers move the bytes of all
its commands in any order.  What a call that returns true has written to a tensor of a file is what the next one
reads there, whatever comes between.

Main definitions:

* `InfiniKV.GeminiFS.FileStore` — the manager, the pool of contexts, the memory and the disks;
* `InfiniKV.GeminiFS.FileStore.step` — managing files, computing, and transferring tensors;
* `InfiniKV.GeminiFS.FileStore.Holds` — what a tensor of a file holds;
* `InfiniKV.GeminiFS.FileStore.Allowed`, `StoreOp.Spares` — what is promised of the operations between.

Main results:

* `InfiniKV.GeminiFS.FileStore.moved_of_xfer` — **what a call moves**, whether it returns true or false;
* `InfiniKV.GeminiFS.FileStore.xfer_order` — **the order of the moves does not matter**;
* `InfiniKV.GeminiFS.FileStore.Holds.step` — an operation that spares a tensor leaves it as it is;
* `InfiniKV.GeminiFS.FileStore.read_returns_last_write` — **what is read is what was written last**;
* `InfiniKV.GeminiFS.FileStore.xfer_deterministic` — **transfers are deterministic**.
-/

import InfiniKV.FileStore
import Mathlib.Data.Nat.Pairing

set_option relaxedAutoImplicit false
set_option autoImplicit false

namespace InfiniKV
namespace GeminiFS

/-! ### The store -/

/-- The manager, the pool of contexts and what its entries hold on the device, the memory and the disks. -/
structure FileStore where
  manager : GPUFileManager
  pool : BatchIoPool
  ioctxs : ℕ → List GPUIoContext
  storage : Storage

/-- A transfer: how the calls to the CUDA runtime go, its arguments, what its threads find, and the order in which
the bytes are moved. -/
structure Xfer where
  cuda : CudaOutcomes
  kCaches : List Tensor
  vCaches : List Tensor
  gpuFileIds : List ℕ
  layerIdx : Int32
  isRead : Bool
  threads : ℕ → ThreadEnv
  order : List ByteMove

/-- Files are managed, and the file system may write where no file is; the memory is used for something else; or
tensors are transferred. -/
inductive StoreOp where
  | manage (op : GPUFileManager.FileOp) (disks : ℕ × ℕ → UInt8)
  | compute (ram : ℕ → UInt8)
  | xfer (x : Xfer)

/-- What the threads of the kernels of a call move, one after the other. -/
def kernelMoves (nvmeControllers : List NVMeController) (lists : ℕ → List ℕ) (tensorSize : ℕ) (isRead : Bool) :
    (ℕ → ThreadEnv) → List GPUIoContext → Option (List ByteMove)
  | _, [] => some []
  | threads, ctx :: ctxs => do
      let moves ← ctx.byteMoves nvmeControllers lists (threads 0) tensorSize isRead
      let rest ← kernelMoves nvmeControllers lists tensorSize isRead (fun i => threads (i + 1)) ctxs
      return moves ++ rest

namespace FileStore

variable (gpu : GPUController) (lists : ℕ → List ℕ)

/-- The call of a transfer. -/
def call (s : FileStore) (x : Xfer) : XferCall :=
  geminifsBatchedXferOn s.manager gpu s.pool x.cuda x.kCaches x.vCaches x.gpuFileIds x.layerIdx x.isRead

/-- The store after a transfer, where `none` stands for a failed assertion, or another order than one of the bytes
that are moved.  The stream is worked off before the next operation. -/
def xfer (s : FileStore) (x : Xfer) : Option FileStore := do
  let d ← runStream (s.call gpu x).stream ⟨(s.call gpu x).pool, s.ioctxs, []⟩
  let moves ← kernelMoves s.manager.nvmeControllers lists (x.kCaches.headD ⟨0, 0⟩).nbytes x.isRead x.threads
    (d.kernels.flatMap List.reduceOption)
  if x.order.Perm moves then
    some { s with pool := d.pool, ioctxs := d.ioctxs, storage := s.storage.exec x.order }
  else none

/-- The store after an operation. -/
def step (s : FileStore) : StoreOp → Option FileStore
  | .manage op disks =>
      (s.manager.fileStep op).map fun manager => { s with manager, storage := ⟨s.storage.ram, disks⟩ }
  | .compute ram => some { s with storage := ⟨ram, s.storage.disks⟩ }
  | .xfer x => s.xfer gpu lists x

end FileStore

/-! ### What is served -/

section Served

variable {m : GPUFileManager} {gpu : GPUController} {cuda : CudaOutcomes} {ioctxs : List GPUIoContext}
  {kCaches vCaches : List Tensor} {gpuFileIds : List ℕ} {layerIdx : Int32} {isRead : Bool} {len : ℕ}

/-- The loop over the batches launches those before the first that cannot be copied. -/
theorem launchBatches_eq_take (i : ℕ) (entries : List ℕ) (hlen : i + entries.length ≤ (batches ioctxs).length) :
    ∃ n, (launchBatches cuda ioctxs len isRead i entries).2 =
        ((entries.zip ((batches ioctxs).drop i)).take n).flatMap (fun p => batchOps len isRead p.1 p.2) ∧
      ((launchBatches cuda ioctxs len isRead i entries).1 = true → entries.length ≤ n) := by
  induction entries generalizing i with
  | nil => exact ⟨0, rfl, fun _ => Nat.zero_le 0⟩
  | cons entry entries ih =>
      rw [List.length_cons] at hlen
      have hi : i < (batches ioctxs).length := by omega
      rw [launchBatches_cons i entry entries hi]
      by_cases hcopy : cuda.memcpyAsync i = true
      · obtain ⟨n, htake, hreturned⟩ := ih (i + 1) (by omega)
        rw [if_pos hcopy]
        refine ⟨n + 1, ?_, fun h => Nat.succ_le_succ (hreturned h)⟩
        rw [List.drop_eq_getElem_cons hi, List.zip_cons_cons, List.take_succ_cons, List.flatMap_cons, htake]
        rfl
      · rw [if_neg hcopy]
        exact ⟨0, rfl, fun h => absurd h Bool.false_ne_true⟩

/-- With enough entries in the pool, the kernels of a call serve the contexts of its first batches, and those of all
of them if it returns true. -/
theorem kernels_of_le {pool : BatchIoPool} (device : ℕ → List GPUIoContext) {call : XferCall}
    (hcall : geminifsBatchedXferOn m gpu pool cuda kCaches vCaches gpuFileIds layerIdx isRead = call)
    (h : xferContexts m gpu kCaches vCaches gpuFileIds layerIdx = some ioctxs)
    (hle : (batches ioctxs).length ≤ pool.free.length) :
    ∃ d n, runStream call.stream ⟨call.pool, device, []⟩ = some d ∧
      d.kernels.flatMap List.reduceOption = ((batches ioctxs).take n).flatten ∧
      (call.returned = true → (batches ioctxs).length ≤ n) := by
  subst hcall
  obtain ⟨entries, pool', hentries, hpool', hcall⟩ := geminifsBatchedXferOn_of_le h hle
  have htaken : (pool.free.take (batches ioctxs).length).length = (batches ioctxs).length := by
    rw [List.length_take, Nat.min_eq_left hle]
  obtain ⟨n, htake, hall⟩ := @launchBatches_eq_take cuda ioctxs isRead (kCaches.headD ⟨0, 0⟩).nbytes 0
    (pool.free.take (batches ioctxs).length) (by rw [Nat.zero_add, htaken])
  obtain ⟨d₁, hrun₁, hpool₁, hkernels₁⟩ := @runStream_flatMap_batchOps (kCaches.headD ⟨0, 0⟩).nbytes isRead
    (((pool.free.take (batches ioctxs).length).zip ((batches ioctxs).drop 0)).take n) ⟨pool', device, []⟩
  have hnodup : (pool.free.take (batches ioctxs).length ++ d₁.pool.free).Nodup := by
    rw [hpool₁, hpool', List.take_append_drop]
    exact pool.nodup
  obtain ⟨-, d, hrun, hkernels, -⟩ := @runStream_launchRelease cuda _ entries d₁ hentries hnodup
  rw [hcall]
  refine ⟨d, n, by rw [htake, runStream_append, hrun₁]; exact hrun, ?_, fun hreturned => htaken ▸ hall hreturned⟩
  rw [hkernels, hkernels₁, List.nil_append, List.drop_zero, List.flatMap_map,
    List.flatMap_congr fun p _ => reduceOption_servedBy p.2, List.flatMap_def, List.map_take,
    List.map_snd_zip (le_of_eq htaken.symm)]

/-- **What the threads of a call serve**: contexts of its slices, and those of all of them if it returns true. -/
theorem served_of_call {pool : BatchIoPool} {device : ℕ → List GPUIoContext} {call : XferCall}
    (hcall : geminifsBatchedXferOn m gpu pool cuda kCaches vCaches gpuFileIds layerIdx isRead = call) :
    ∃ d, runStream call.stream ⟨call.pool, device, []⟩ = some d ∧
      (∀ ctx ∈ d.kernels.flatMap List.reduceOption, ∃ s ∈ slices gpu kCaches vCaches,
        s.context m gpu kCaches vCaches gpuFileIds layerIdx = some ctx) ∧
      (call.returned = true → ∀ s ∈ slices gpu kCaches vCaches, ∃ ctx ∈ d.kernels.flatMap List.reduceOption,
        s.context m gpu kCaches vCaches gpuFileIds layerIdx = some ctx) := by
  cases h : xferContexts m gpu kCaches vCaches gpuFileIds layerIdx with
  | none =>
      rw [← hcall, geminifsBatchedXferOn_of_none h]
      exact ⟨⟨pool, device, []⟩, rfl, fun ctx hctx => absurd hctx List.not_mem_nil,
        fun hreturned => absurd hreturned Bool.false_ne_true⟩
  | some ioctxs =>
      rcases Nat.lt_or_ge pool.free.length (batches ioctxs).length with hlt | hle
      · obtain ⟨entries, pool', hentries, hpool', hnone⟩ := geminifsBatchedXferOn_of_lt h hlt
        have hnodup : (pool.free ++ pool'.free).Nodup := by
          rw [hpool', List.append_nil]
          exact pool.nodup
        obtain ⟨-, d, hrun, hkernels, -⟩ := @runStream_launchRelease cuda pool.free entries ⟨pool', device, []⟩
          hentries hnodup
        rw [← hcall, hnone]
        refine ⟨d, hrun, ?_, fun hreturned => absurd hreturned Bool.false_ne_true⟩
        rw [hkernels]
        exact fun ctx hctx => absurd hctx List.not_mem_nil
      · obtain ⟨d, n, hrun, hserved, hall⟩ := kernels_of_le device hcall h hle
        obtain ⟨hcontexts, -⟩ := map_some_of_xferContexts h
        refine ⟨d, hrun, ?_, ?_⟩
        · rw [hserved]
          intro ctx hctx
          obtain ⟨batch, hbatch, hctx⟩ := List.mem_flatten.1 hctx
          have hmem : ctx ∈ ioctxs := by
            rw [← flatten_batches ioctxs]
            exact List.mem_flatten.2 ⟨batch, List.mem_of_mem_take hbatch, hctx⟩
          have hsome := List.mem_map_of_mem (f := some) hmem
          rw [hcontexts] at hsome
          exact List.mem_map.1 hsome
        · intro hreturned s hs
          have hsome := List.mem_map_of_mem
            (f := CacheSlice.context m gpu kCaches vCaches gpuFileIds layerIdx) hs
          rw [← hcontexts] at hsome
          obtain ⟨ctx, hctx, heq⟩ := List.mem_map.1 hsome
          refine ⟨ctx, ?_, heq.symm⟩
          rw [hserved, List.take_of_length_le (hall hreturned), flatten_batches]
          exact hctx

end Served

/-! ### What a call moves -/

section Slices

variable {m : GPUFileManager} {gpu : GPUController} {kCaches vCaches : List Tensor} {gpuFileIds : List ℕ}
  {layerIdx : Int32}

/-- The slices of a call are an entry of each of its tensors. -/
theorem mem_slices {ioctxs : List GPUIoContext}
    (h : xferContexts m gpu kCaches vCaches gpuFileIds layerIdx = some ioctxs) (s : CacheSlice) :
    s ∈ slices gpu kCaches vCaches ↔ s.Of gpu kCaches vCaches := by
  obtain ⟨-, hlens⟩ := map_some_of_xferContexts h
  rw [slices, (perm_interleave hlens).mem_iff, List.mem_append, mem_slicesFrom, mem_slicesFrom, CacheSlice.Of]
  obtain ⟨file, cache, slice⟩ := s
  cases cache <;> simp [KV.tensors]

/-- The context of a slice, if there is one. -/
theorem context_eq_some {s : CacheSlice} {ctx : GPUIoContext} :
    s.context m gpu kCaches vCaches gpuFileIds layerIdx = some ctx ↔
      ∃ tensor fileId nvmeFiles mappings entry, (s.cache.tensors kCaches vCaches)[s.file]? = some tensor ∧
        gpuFileIds[s.file]? = some fileId ∧ m.ctxs.lookup fileId = some nvmeFiles ∧
        gpu.getPrpMappings tensor = some mappings ∧ mappings[s.slice]? = some entry ∧
        ctx = ⟨nvmeFiles, entry, s.slice, layerOffset layerIdx (kCaches.headD ⟨0, 0⟩).nbytes s.cache⟩ := by
  simp only [CacheSlice.context, entryContext, Option.bind_eq_bind, Option.bind_eq_some_iff]
  constructor
  · rintro ⟨tensor, htensor, fileId, hfileId, nvmeFiles, hfiles, mappings, hmappings, entry, hentry, heq⟩
    exact ⟨tensor, fileId, nvmeFiles, mappings, entry, htensor, hfileId, hfiles, hmappings, hentry,
      (Option.some.inj heq).symm⟩
  · rintro ⟨tensor, fileId, nvmeFiles, mappings, entry, htensor, hfileId, hfiles, hmappings, hentry, rfl⟩
    exact ⟨tensor, htensor, fileId, hfileId, nvmeFiles, hfiles, mappings, hmappings, entry, hentry, rfl⟩

/-- Each tensor that contexts are filled in for has entries, and its file is open. -/
theorem found_of_fillCtx {offset : ℕ} {tensors : List Tensor} {fileIds : List ℕ} {ctxs : List GPUIoContext}
    (h : fillCtx m gpu offset tensors fileIds = some ctxs) {i : ℕ} {tensor : Tensor} {fileId : ℕ}
    (htensor : tensors[i]? = some tensor) (hfileId : fileIds[i]? = some fileId) :
    ∃ span mappings, m.ctxs.lookup fileId = some span ∧ gpu.getPrpMappings tensor = some mappings := by
  induction tensors generalizing fileIds ctxs i with
  | nil =>
      rw [List.getElem?_nil] at htensor
      cases htensor
  | cons first tensors ih =>
      cases fileIds with
      | nil =>
          rw [List.getElem?_nil] at hfileId
          cases hfileId
      | cons firstId fileIds =>
          simp only [fillCtx, Option.bind_eq_bind, Option.bind_eq_some_iff] at h
          obtain ⟨here, hhere, rest, hrest, -⟩ := h
          cases i with
          | zero =>
              cases htensor
              cases hfileId
              obtain ⟨span, mappings, hspan, hmappings, -⟩ := fillOne_eq_some.1 hhere
              exact ⟨span, mappings, hspan, hmappings⟩
          | succ i => exact ih hrest htensor hfileId

/-- Each tensor of a call whose checks pass has entries, and its file is open. -/
theorem found_of_xferContexts {ioctxs : List GPUIoContext}
    (h : xferContexts m gpu kCaches vCaches gpuFileIds layerIdx = some ioctxs) {cache : KV} {i : ℕ}
    {tensor : Tensor} {fileId : ℕ} (htensor : (cache.tensors kCaches vCaches)[i]? = some tensor)
    (hfileId : gpuFileIds[i]? = some fileId) :
    ∃ span mappings, m.ctxs.lookup fileId = some span ∧ gpu.getPrpMappings tensor = some mappings := by
  obtain ⟨k, ks, v, vs, fileId₀, fileIds, desc, kIoctxs, vIoctxs, -, -, -, -, -, hk, hv, -⟩ :=
    xferContexts_eq_some.1 h
  cases cache with
  | k => exact found_of_fillCtx hk htensor hfileId
  | v => exact found_of_fillCtx hv htensor hfileId

end Slices

section Moves

variable {nvmeControllers : List NVMeController} {lists : ℕ → List ℕ} {tensorSize : ℕ} {isRead : Bool}

/-- If no assertion fails, then the kernels move something. -/
theorem kernelMoves_isSome (ctxs : List GPUIoContext) (threads : ℕ → ThreadEnv)
    (h : ∀ ctx ∈ ctxs, ∀ env, ∃ moves, ctx.byteMoves nvmeControllers lists env tensorSize isRead = some moves) :
    ∃ moves, kernelMoves nvmeControllers lists tensorSize isRead threads ctxs = some moves := by
  induction ctxs generalizing threads with
  | nil => exact ⟨[], rfl⟩
  | cons ctx ctxs ih =>
      obtain ⟨hctx, hctxs⟩ := List.forall_mem_cons.1 h
      obtain ⟨moves, hmoves⟩ := hctx (threads 0)
      obtain ⟨rest, hrest⟩ := ih (fun i => threads (i + 1)) hctxs
      exact ⟨moves ++ rest, by rw [kernelMoves, hmoves, hrest]; rfl⟩

/-- What the kernels move is what is moved for each of the contexts. -/
theorem mem_kernelMoves (ctxs : List GPUIoContext) {threads : ℕ → ThreadEnv} {moves : List ByteMove}
    (h : kernelMoves nvmeControllers lists tensorSize isRead threads ctxs = some moves) :
    (∀ move ∈ moves, ∃ ctx ∈ ctxs, ∃ env part,
      ctx.byteMoves nvmeControllers lists env tensorSize isRead = some part ∧ move ∈ part) ∧
    ∀ ctx ∈ ctxs, ∃ env part,
      ctx.byteMoves nvmeControllers lists env tensorSize isRead = some part ∧ ∀ move ∈ part, move ∈ moves := by
  induction ctxs generalizing threads moves with
  | nil =>
      cases h
      exact ⟨fun move hmove => absurd hmove List.not_mem_nil, fun ctx hctx => absurd hctx List.not_mem_nil⟩
  | cons ctx ctxs ih =>
      simp only [kernelMoves, Option.bind_eq_bind, Option.bind_eq_some_iff] at h
      obtain ⟨first, hfirst, rest, hrest, heq⟩ := h
      cases heq
      obtain ⟨hfrom, hall⟩ := ih hrest
      constructor
      · intro move hmove
        rcases List.mem_append.1 hmove with hmem | hmem
        · exact ⟨ctx, List.mem_cons_self, _, first, hfirst, hmem⟩
        · obtain ⟨ctx', hctx', hpart⟩ := hfrom move hmem
          exact ⟨ctx', List.mem_cons_of_mem _ hctx', hpart⟩
      · refine List.forall_mem_cons.2 ⟨⟨_, first, hfirst, fun move hmove => List.mem_append_left _ hmove⟩, ?_⟩
        intro ctx' hctx'
        obtain ⟨env, part, hpart, hmem⟩ := hall ctx' hctx'
        exact ⟨env, part, hpart, fun move hmove => List.mem_append_right _ (hmem move hmove)⟩

end Moves

/-- The layer of a transfer. -/
def Xfer.layer (x : Xfer) : ℕ := x.layerIdx.toInt.toNat

/-- What callers see to: a layer is not negative, and the tensors have `len` bytes. -/
structure Xfer.WellFormed (x : Xfer) (len : ℕ) : Prop where
  layer : 0 ≤ x.layerIdx.toInt
  length : (x.kCaches.headD ⟨0, 0⟩).nbytes = len

/-- The tensors of a transfer share no byte. -/
def Xfer.TensorsApart (x : Xfer) (len : ℕ) : Prop :=
  ∀ (i i' : ℕ) (cache cache' : KV) (tensor tensor' : Tensor),
    (cache.tensors x.kCaches x.vCaches)[i]? = some tensor →
    (cache'.tensors x.kCaches x.vCaches)[i']? = some tensor' → (i, cache) ≠ (i', cache') →
      tensor.dataPtr + len ≤ tensor'.dataPtr ∨ tensor'.dataPtr + len ≤ tensor.dataPtr

/-- A move of byte `k` of the K or the V tensor that belongs to file number `i` of a transfer, to or from where it
lies in the file. -/
structure Xfer.Moves (x : Xfer) (m : GPUFileManager) (device : DmaDevice) (unit perTensor i : ℕ) (cache : KV)
    (k : ℕ) (move : ByteMove) : Prop where
  lt : k < perTensor * unit
  isRead : move.isRead = x.isRead
  places : ∃ tensor fileId, (cache.tensors x.kCaches x.vCaches)[i]? = some tensor ∧
    x.gpuFileIds[i]? = some fileId ∧ move.address = device.byteAddr (tensor.dataPtr + k) ∧
    m.location unit perTensor fileId (2 * x.layer + cache.number) k = some move.disk

/-- No two GPU files have one NVMe file, what is open is right, and the file systems have laid the files. -/
structure GPUFileManager.Ready (m : GPUFileManager) (unit : ℕ) : Prop where
  owners : m.Owners
  openRight : m.OpenRight
  sound : m.Sound unit

namespace FileStore

variable {gpu : GPUController} {lists : ℕ → List ℕ} {device : DmaDevice} {unit perTensor : ℕ} {s s' : FileStore}
  {x : Xfer}

/-- What is moved for the context of a slice of a call. -/
theorem byteMoves_of_context (hdenotes : gpu.Denotes device lists unit perTensor) (hpos : 0 < unit)
    (hpage : 4096 ∣ unit) (hlen : perTensor * unit < 2 ^ 32) (hready : s.manager.Ready unit)
    (hx : x.WellFormed (perTensor * unit)) {slice : CacheSlice} {ctx : GPUIoContext}
    (hctx : slice.context s.manager gpu x.kCaches x.vCaches x.gpuFileIds x.layerIdx = some ctx) (env : ThreadEnv) :
    ∃ moves, ctx.byteMoves s.manager.nvmeControllers lists env (x.kCaches.headD ⟨0, 0⟩).nbytes x.isRead =
        some moves ∧
      (∀ move ∈ moves, ∃ k, x.Moves s.manager device unit perTensor slice.file slice.cache k move) ∧
      ∀ fileId, x.gpuFileIds[slice.file]? = some fileId →
        s.manager.Room unit perTensor fileId (2 * x.layer + slice.cache.number) → ∀ k < unit, ∃ move ∈ moves,
          x.Moves s.manager device unit perTensor slice.file slice.cache (slice.slice * unit + k) move := by
  obtain ⟨tensor, fileId, span, mappings, entry, htensor, hfileId, hspan, hmappings, hentry, rfl⟩ :=
    context_eq_some.1 hctx
  obtain ⟨hcount, hentries⟩ := hdenotes tensor mappings hmappings
  have hslice : slice.slice < perTensor := hcount ▸ (List.getElem?_eq_some_iff.1 hentry).1
  have hlt : ∀ k < unit, slice.slice * unit + k < perTensor * unit := by
    intro k hk
    calc slice.slice * unit + k < slice.slice * unit + unit := Nat.add_lt_add_left hk _
      _ = (slice.slice + 1) * unit := (Nat.succ_mul _ _).symm
      _ ≤ perTensor * unit := Nat.mul_le_mul_right unit hslice
  obtain ⟨moves, hmoves, honly, hall⟩ := GPUFileManager.byteMoves_slice hready.owners hready.openRight hready.sound
    hpos hpage hspan (hentries _ entry hentry) hslice (2 * x.layer + slice.cache.number) env x.isRead
  refine ⟨moves, ?_, ?_, ?_⟩
  · rw [hx.length, layerOffset_of_nonneg hx.layer hlen, KV.fileOffset_eq]
    exact hmoves
  · intro move hmove
    obtain ⟨k, hk, hread, haddress, hdisk⟩ := honly move hmove
    refine ⟨slice.slice * unit + k, hlt k hk, hread, tensor, fileId, htensor, hfileId, ?_, hdisk⟩
    rw [haddress, Nat.add_assoc]
  · intro fileId' hfileId' hroom k hk
    obtain rfl : fileId' = fileId := Option.some.inj (hfileId'.symm.trans hfileId)
    obtain ⟨disk, hdisk, hmem⟩ := hall hroom k hk
    refine ⟨_, hmem, hlt k hk, rfl, tensor, fileId', htensor, hfileId, ?_, hdisk⟩
    rw [Nat.add_assoc]

/-- **What a call moves**: bytes of its tensors, to or from where they lie in its files, and all of those of each
tensor that has room, if the call returns true. -/
theorem moved_of_xfer (hdenotes : gpu.Denotes device lists unit perTensor) (hpos : 0 < unit) (hpage : 4096 ∣ unit)
    (hlen : perTensor * unit < 2 ^ 32) (hready : s.manager.Ready unit) (hx : x.WellFormed (perTensor * unit))
    (h : s.xfer gpu lists x = some s') :
    s'.manager = s.manager ∧ s'.storage = s.storage.exec x.order ∧
      (∀ move ∈ x.order, ∃ i cache k, x.Moves s.manager device unit perTensor i cache k move) ∧
      ((s.call gpu x).returned = true → ∀ i cache tensor fileId,
        (cache.tensors x.kCaches x.vCaches)[i]? = some tensor → x.gpuFileIds[i]? = some fileId →
        s.manager.Room unit perTensor fileId (2 * x.layer + cache.number) → ∀ k < perTensor * unit,
          ∃ move ∈ x.order, x.Moves s.manager device unit perTensor i cache k move) := by
  simp only [xfer, Option.bind_eq_bind, Option.bind_eq_some_iff] at h
  obtain ⟨d, hrun, moves, hmoves, hif⟩ := h
  split_ifs at hif with hperm
  cases hif
  obtain ⟨d', hrun', hfrom, hall⟩ := @served_of_call s.manager gpu x.cuda x.kCaches x.vCaches x.gpuFileIds
    x.layerIdx x.isRead s.pool s.ioctxs (s.call gpu x) rfl
  obtain rfl : d = d' := Option.some.inj (hrun.symm.trans hrun')
  obtain ⟨hmem, hparts⟩ := mem_kernelMoves _ hmoves
  refine ⟨rfl, rfl, ?_, ?_⟩
  · intro move hmove
    obtain ⟨ctx, hctx, env, part, hpart, hmovePart⟩ := hmem move (hperm.mem_iff.1 hmove)
    obtain ⟨slice, -, hslice⟩ := hfrom ctx hctx
    obtain ⟨part', hpart', honly, -⟩ := byteMoves_of_context hdenotes hpos hpage hlen hready hx hslice env
    obtain rfl : part = part' := Option.some.inj (hpart.symm.trans hpart')
    obtain ⟨k, hk⟩ := honly move hmovePart
    exact ⟨slice.file, slice.cache, k, hk⟩
  · intro hreturned i cache tensor fileId htensor hfileId hroom k hk
    -- the call has returned true, so there are contexts for its tensors
    cases hcontexts : xferContexts s.manager gpu x.kCaches x.vCaches x.gpuFileIds x.layerIdx with
    | none =>
        rw [call, geminifsBatchedXferOn_of_none hcontexts] at hreturned
        cases hreturned
    | some ioctxs =>
        obtain ⟨-, mappings, -, hmappings⟩ := found_of_xferContexts hcontexts htensor hfileId
        have hindex : k / unit < mappings.length := by
          rw [(hdenotes tensor mappings hmappings).1]
          exact (Nat.div_lt_iff_lt_mul hpos).2 hk
        obtain ⟨ctx, hctx, hslice⟩ := hall hreturned ⟨i, cache, k / unit⟩
          ((mem_slices hcontexts _).2 ⟨tensor, mappings, htensor, hmappings, hindex⟩)
        obtain ⟨env, part, hpart, hsub⟩ := hparts ctx hctx
        obtain ⟨part', hpart', -, hpartAll⟩ := byteMoves_of_context hdenotes hpos hpage hlen hready hx hslice env
        obtain rfl : part = part' := Option.some.inj (hpart.symm.trans hpart')
        obtain ⟨move, hmove, hmoves⟩ := hpartAll fileId hfileId hroom (k % unit) (Nat.mod_lt _ hpos)
        refine ⟨move, hperm.mem_iff.2 (hsub move hmove), ?_⟩
        dsimp only at hmoves
        rwa [Nat.div_add_mod'] at hmoves

/-- **No assertion fails** in the kernels of a call, in whatever order the bytes are moved, and the entries that
it takes from the pool are put back. -/
theorem xfer_isSome (hdenotes : gpu.Denotes device lists unit perTensor) (hpos : 0 < unit) (hpage : 4096 ∣ unit)
    (hlen : perTensor * unit < 2 ^ 32) (hready : s.manager.Ready unit) (hx : x.WellFormed (perTensor * unit)) :
    ∃ moves, ∀ order : List ByteMove, order.Perm moves → ∃ s', s.xfer gpu lists { x with order } = some s' ∧
      s'.manager = s.manager ∧ (x.cuda.launchHostFunc = true → s'.pool.free.Perm s.pool.free) := by
  obtain ⟨d, hrun, hfrom, -⟩ := @served_of_call s.manager gpu x.cuda x.kCaches x.vCaches x.gpuFileIds x.layerIdx
    x.isRead s.pool s.ioctxs (s.call gpu x) rfl
  obtain ⟨taken, d', -, -, hrun', hperm⟩ := geminifsBatchedXferOn_released s.manager gpu s.pool x.cuda x.kCaches
    x.vCaches x.gpuFileIds x.layerIdx x.isRead s.ioctxs
  obtain rfl : d = d' := Option.some.inj (hrun.symm.trans hrun')
  obtain ⟨moves, hmoves⟩ := @kernelMoves_isSome s.manager.nvmeControllers lists (x.kCaches.headD ⟨0, 0⟩).nbytes
    x.isRead (d.kernels.flatMap List.reduceOption) x.threads (fun ctx hctx env => by
      obtain ⟨slice, -, hslice⟩ := hfrom ctx hctx
      obtain ⟨moves, hmoves, -⟩ := byteMoves_of_context hdenotes hpos hpage hlen hready hx hslice env
      exact ⟨moves, hmoves⟩)
  refine ⟨moves, fun order horder => ?_⟩
  refine ⟨{ s with pool := d.pool, ioctxs := d.ioctxs, storage := s.storage.exec order }, ?_, rfl, fun hhost => ?_⟩
  · have hcall : s.call gpu { x with order } = s.call gpu x := rfl
    rw [xfer, hcall, hrun, Option.bind_eq_bind, Option.bind_some, hmoves, Option.bind_eq_bind, Option.bind_some,
      if_pos horder]
  · rwa [if_pos hhost] at hperm

/-- A call whose checks pass returns true, if the pool has enough entries and all batches are copied. -/
theorem returned_of_le {ioctxs : List GPUIoContext}
    (h : xferContexts s.manager gpu x.kCaches x.vCaches x.gpuFileIds x.layerIdx = some ioctxs)
    (hle : (batches ioctxs).length ≤ s.pool.free.length) (hcopy : ∀ i, x.cuda.memcpyAsync i = true) :
    (s.call gpu x).returned = true := by
  obtain ⟨entries, pool', -, -, hcall⟩ := @geminifsBatchedXferOn_of_le x.cuda ioctxs x.isRead s.manager gpu s.pool
    x.kCaches x.vCaches x.gpuFileIds x.layerIdx h hle
  have htaken : (s.pool.free.take (batches ioctxs).length).length = (batches ioctxs).length := by
    rw [List.length_take, Nat.min_eq_left hle]
  rw [call, hcall, launchBatches_of_ok hcopy 0 _ (by rw [Nat.zero_add, htaken])]

/-! ### The order of the moves -/

/-- A call that writes changes the disks only. -/
theorem exec_of_write (hwrite : x.isRead = false)
    (honly : ∀ move ∈ x.order, ∃ i cache k, x.Moves s.manager device unit perTensor i cache k move) :
    s.storage.exec x.order = ⟨s.storage.ram,
      Moves.copy (x.order.map fun move => (move.address, move.disk)) s.storage.ram s.storage.disks⟩ := by
  refine exec_disks (fun move hmove => ?_) s.storage
  obtain ⟨i, cache, k, hmoves⟩ := honly move hmove
  rw [hmoves.isRead, hwrite]

/-- A call that reads changes the memory only. -/
theorem exec_of_read (hread : x.isRead = true)
    (honly : ∀ move ∈ x.order, ∃ i cache k, x.Moves s.manager device unit perTensor i cache k move) :
    s.storage.exec x.order = ⟨Moves.copy (x.order.map fun move => (move.disk, move.address)) s.storage.disks
      s.storage.ram, s.storage.disks⟩ := by
  refine exec_ram (fun move hmove => ?_) s.storage
  obtain ⟨i, cache, k, hmoves⟩ := honly move hmove
  rw [hmoves.isRead, hread]

/-- A call for distinct files moves to each place of a disk from one address. -/
theorem singleSource_disks (hready : s.manager.Ready unit) (hnodup : x.gpuFileIds.Nodup)
    (honly : ∀ move ∈ x.order, ∃ i cache k, x.Moves s.manager device unit perTensor i cache k move) :
    Moves.SingleSource (x.order.map fun move => (move.address, move.disk)) := by
  -- two moves to one place are of one byte of one tensor
  intro address address' disk hmem hmem'
  obtain ⟨move₁, hmove₁, heq₁⟩ := List.mem_map.1 hmem
  obtain ⟨move₂, hmove₂, heq₂⟩ := List.mem_map.1 hmem'
  cases heq₁
  rw [Prod.mk.injEq] at heq₂
  obtain ⟨rfl, hsame⟩ := heq₂
  obtain ⟨i₁, cache₁, k₁, hlt₁, -, tensor₁, fileId₁, htensor₁, hfileId₁, haddress₁, hdisk₁⟩ := honly move₁ hmove₁
  obtain ⟨i₂, cache₂, k₂, hlt₂, -, tensor₂, fileId₂, htensor₂, hfileId₂, haddress₂, hdisk₂⟩ := honly move₂ hmove₂
  rw [hsame] at hdisk₂
  obtain ⟨rfl, hgranule, rfl⟩ := GPUFileManager.location_inj hready.owners hready.sound hlt₁ hlt₂ hdisk₁ hdisk₂
  have hcache : cache₁ = cache₂ := by
    cases cache₁ <;> cases cache₂ <;> simp [KV.number] at hgranule ⊢
  subst hcache
  obtain rfl : i₁ = i₂ := (List.getElem?_inj (List.getElem?_eq_some_iff.1 hfileId₁).1 hnodup).1
    (hfileId₁.trans hfileId₂.symm)
  obtain rfl : tensor₁ = tensor₂ := Option.some.inj (htensor₁.symm.trans htensor₂)
  rw [haddress₁, haddress₂]

/-- A call for tensors that are apart moves to each address from one place of a disk. -/
theorem singleSource_ram (haddr : Function.Injective device.byteAddr) (hapart : x.TensorsApart (perTensor * unit))
    (honly : ∀ move ∈ x.order, ∃ i cache k, x.Moves s.manager device unit perTensor i cache k move) :
    Moves.SingleSource (x.order.map fun move => (move.disk, move.address)) := by
  -- two moves to one address are of one byte of one tensor
  intro source source' address hmem hmem'
  obtain ⟨move₁, hmove₁, heq₁⟩ := List.mem_map.1 hmem
  obtain ⟨move₂, hmove₂, heq₂⟩ := List.mem_map.1 hmem'
  cases heq₁
  rw [Prod.mk.injEq] at heq₂
  obtain ⟨rfl, hsame⟩ := heq₂
  obtain ⟨i₁, cache₁, k₁, hlt₁, -, tensor₁, fileId₁, htensor₁, hfileId₁, haddress₁, hdisk₁⟩ := honly move₁ hmove₁
  obtain ⟨i₂, cache₂, k₂, hlt₂, -, tensor₂, fileId₂, htensor₂, hfileId₂, haddress₂, hdisk₂⟩ := honly move₂ hmove₂
  rw [haddress₁, haddress₂] at hsame
  have hbyte := haddr hsame
  have hkey : (i₁, cache₁) = (i₂, cache₂) := by
    by_contra hne
    rcases hapart i₁ i₂ cache₁ cache₂ tensor₁ tensor₂ htensor₁ htensor₂ hne with hle | hle
    · omega
    · omega
  cases hkey
  obtain rfl : tensor₁ = tensor₂ := Option.some.inj (htensor₁.symm.trans htensor₂)
  obtain rfl : fileId₁ = fileId₂ := Option.some.inj (hfileId₁.symm.trans hfileId₂)
  obtain rfl : k₁ = k₂ := by omega
  exact Option.some.inj (hdisk₁.symm.trans hdisk₂)

/-- **The order in which the bytes are moved does not matter**, if a call writes to distinct files, or reads into
tensors that are apart. -/
theorem xfer_order (hdenotes : gpu.Denotes device lists unit perTensor) (hpos : 0 < unit) (hpage : 4096 ∣ unit)
    (hlen : perTensor * unit < 2 ^ 32) (haddr : Function.Injective device.byteAddr) (hready : s.manager.Ready unit)
    (hx : x.WellFormed (perTensor * unit)) (hwrite : x.isRead = false → x.gpuFileIds.Nodup)
    (hread : x.isRead = true → x.TensorsApart (perTensor * unit)) (h : s.xfer gpu lists x = some s')
    {order : List ByteMove} (horder : x.order.Perm order) : s.xfer gpu lists { x with order } = some s' := by
  obtain ⟨-, -, honly, -⟩ := moved_of_xfer hdenotes hpos hpage hlen hready hx h
  have hkind : ∀ move ∈ x.order, move.isRead = x.isRead := by
    intro move hmove
    obtain ⟨i, cache, k, hmoves⟩ := honly move hmove
    exact hmoves.isRead
  have hkind' : ∀ move ∈ order, move.isRead = x.isRead := fun move hmove => hkind move (horder.mem_iff.2 hmove)
  have hsame : s.storage.exec order = s.storage.exec x.order := by
    cases hdirection : x.isRead with
    | true =>
        rw [hdirection] at hkind hkind'
        rw [exec_ram hkind, exec_ram hkind',
          Moves.copy_perm (singleSource_ram haddr (hread hdirection) honly) (horder.map _)]
    | false =>
        rw [hdirection] at hkind hkind'
        rw [exec_disks hkind, exec_disks hkind',
          Moves.copy_perm (singleSource_disks hready (hwrite hdirection) honly) (horder.map _)]
  simp only [xfer, Option.bind_eq_bind, Option.bind_eq_some_iff] at h ⊢
  obtain ⟨d, hrun, moves, hmoves, hif⟩ := h
  split_ifs at hif with hperm
  refine ⟨d, hrun, moves, hmoves, ?_⟩
  rw [if_pos (horder.symm.trans hperm), hsame]
  exact hif

/-! ### What a tensor of a file holds -/

/-- A tensor of a file that has been set up holds certain bytes. -/
structure Holds (s : FileStore) (unit perTensor fileId granule : ℕ) (bytes : ℕ → UInt8) : Prop where
  opened : ∃ desc, s.manager.descs.lookup fileId = some desc ∧ desc.nvmeMapping.hasNvmeController 0 = true ∧
    (0, desc.nvmeMapping.fileId 0) ∈ s.manager.devFds
  room : s.manager.Room unit perTensor fileId granule
  bytes : ∀ k < perTensor * unit, ∃ disk, s.manager.location unit perTensor fileId granule k = some disk ∧
    s.storage.disks disk = bytes k

/-- **What is written** is held. -/
theorem holds_of_write (hdenotes : gpu.Denotes device lists unit perTensor) (hpos : 0 < unit) (hpage : 4096 ∣ unit)
    (hlen : perTensor * unit < 2 ^ 32) (hready : s.manager.Ready unit) (hx : x.WellFormed (perTensor * unit))
    (hwrite : x.isRead = false) (hnodup : x.gpuFileIds.Nodup) (h : s.xfer gpu lists x = some s')
    (hreturned : (s.call gpu x).returned = true) {i : ℕ} {cache : KV} {tensor : Tensor} {fileId : ℕ}
    (htensor : (cache.tensors x.kCaches x.vCaches)[i]? = some tensor) (hfileId : x.gpuFileIds[i]? = some fileId)
    (hroom : s.manager.Room unit perTensor fileId (2 * x.layer + cache.number)) :
    s'.Holds unit perTensor fileId (2 * x.layer + cache.number) fun k =>
      s.storage.ram (device.byteAddr (tensor.dataPtr + k)) := by
  obtain ⟨hmanager, hstorage, honly, hall⟩ := moved_of_xfer hdenotes hpos hpage hlen hready hx h
  constructor
  · rw [hmanager]
    cases hcontexts : xferContexts s.manager gpu x.kCaches x.vCaches x.gpuFileIds x.layerIdx with
    | none =>
        rw [call, geminifsBatchedXferOn_of_none hcontexts] at hreturned
        cases hreturned
    | some ioctxs =>
        obtain ⟨span, -, hspan, -⟩ := found_of_xferContexts hcontexts htensor hfileId
        exact hready.owners.found (hready.openRight.ctxs fileId span hspan)
  · rw [hmanager]
    exact hroom
  · intro k hk
    obtain ⟨move, hmove, hmoves⟩ := hall hreturned i cache tensor fileId htensor hfileId hroom k hk
    obtain ⟨tensor', fileId', htensor', hfileId', haddress, hdisk⟩ := hmoves.places
    obtain rfl : tensor = tensor' := Option.some.inj (htensor.symm.trans htensor')
    obtain rfl : fileId = fileId' := Option.some.inj (hfileId.symm.trans hfileId')
    refine ⟨move.disk, by rw [hmanager]; exact hdisk, ?_⟩
    rw [hstorage, exec_of_write hwrite honly, ← haddress]
    exact Moves.copy_of_mem (singleSource_disks hready hnodup honly) (List.mem_map.2 ⟨move, hmove, rfl⟩)

/-- **What is read** is what is held. -/
theorem ram_of_read (hdenotes : gpu.Denotes device lists unit perTensor) (hpos : 0 < unit) (hpage : 4096 ∣ unit)
    (hlen : perTensor * unit < 2 ^ 32) (haddr : Function.Injective device.byteAddr)
    (hready : s.manager.Ready unit) (hx : x.WellFormed (perTensor * unit)) (hread : x.isRead = true)
    (hapart : x.TensorsApart (perTensor * unit)) (h : s.xfer gpu lists x = some s')
    (hreturned : (s.call gpu x).returned = true) {i : ℕ} {cache : KV} {tensor : Tensor} {fileId : ℕ}
    (htensor : (cache.tensors x.kCaches x.vCaches)[i]? = some tensor) (hfileId : x.gpuFileIds[i]? = some fileId)
    {bytes : ℕ → UInt8} (hholds : s.Holds unit perTensor fileId (2 * x.layer + cache.number) bytes) :
    ∀ k < perTensor * unit, s'.storage.ram (device.byteAddr (tensor.dataPtr + k)) = bytes k := by
  intro k hk
  obtain ⟨-, hstorage, honly, hall⟩ := moved_of_xfer hdenotes hpos hpage hlen hready hx h
  obtain ⟨move, hmove, hmoves⟩ := hall hreturned i cache tensor fileId htensor hfileId hholds.room k hk
  obtain ⟨tensor', fileId', htensor', hfileId', haddress, hdisk⟩ := hmoves.places
  obtain rfl : tensor = tensor' := Option.some.inj (htensor.symm.trans htensor')
  obtain rfl : fileId = fileId' := Option.some.inj (hfileId.symm.trans hfileId')
  obtain ⟨disk, hdisk', hbyte⟩ := hholds.bytes k hk
  obtain rfl : disk = move.disk := Option.some.inj (hdisk'.symm.trans hdisk)
  rw [hstorage, exec_of_read hread honly, ← haddress, ← hbyte]
  exact Moves.copy_of_mem (singleSource_ram haddr hapart honly) (List.mem_map.2 ⟨move, hmove, rfl⟩)

/-! ### Operations in between -/

/-- The file system leaves the bytes of the files alone that are there before and after an operation. -/
def KeepsData (s s' : FileStore) : Prop :=
  ∀ (i : ℕ) (c c' : NVMeController) (id : ℕ) (hdr : GeminiHdr) (x y : ℕ),
    s.manager.nvmeControllers[i]? = some c → s'.manager.nvmeControllers[i]? = some c' → c.files id = some hdr →
    c'.files id = some hdr → Extents.image hdr.onDisk x = some y →
      s'.storage.disks (i, y) = s.storage.disks (i, y)

/-- What is promised of an operation: no file is deleted that was set up, the file systems lay the files as they
should and leave those alone that are there, and transfers are well formed. -/
def Allowed (unit perTensor : ℕ) (s : FileStore) (op : StoreOp) (s' : FileStore) : Prop :=
  match op with
  | .manage op _ => s.manager.NotOpened op ∧ s'.manager.Sound unit ∧ KeepsData s s'
  | .compute _ => True
  | .xfer x => x.WellFormed (perTensor * unit)

end FileStore

/-- An operation does not write to the tensors of a layer of a file. -/
def StoreOp.Spares (fileId layer : ℕ) : StoreOp → Prop
  | .xfer x => x.isRead = false → fileId ∈ x.gpuFileIds → x.layer ≠ layer
  | _ => True

namespace FileStore

variable {gpu : GPUController} {lists : ℕ → List ℕ} {device : DmaDevice} {unit perTensor : ℕ} {s s' : FileStore}
  {x : Xfer}

/-- What is promised keeps the store ready. -/
theorem ready_of_step (hdenotes : gpu.Denotes device lists unit perTensor) (hpos : 0 < unit) (hpage : 4096 ∣ unit)
    (hlen : perTensor * unit < 2 ^ 32) (hready : s.manager.Ready unit) {op : StoreOp}
    (hstep : s.step gpu lists op = some s') (hallowed : Allowed unit perTensor s op s') :
    s'.manager.Ready unit := by
  cases op with
  | manage op disks =>
      obtain ⟨hnot, hsound, -⟩ := hallowed
      rw [step, Option.map_eq_some_iff] at hstep
      obtain ⟨manager, hmanager, rfl⟩ := hstep
      exact ⟨hready.owners.fileStep hmanager, hready.openRight.fileStep hready.owners hmanager hnot, hsound⟩
  | compute ram =>
      cases hstep
      exact hready
  | xfer x =>
      obtain ⟨hmanager, -⟩ := moved_of_xfer hdenotes hpos hpage hlen hready hallowed hstep
      rwa [hmanager]

/-- Managing files leaves a tensor of a file as it is. -/
theorem Holds.manage (hready : s.manager.Ready unit) {fileId granule : ℕ} {bytes : ℕ → UInt8}
    (h : s.Holds unit perTensor fileId granule bytes) {op : GPUFileManager.FileOp} {manager : GPUFileManager}
    {disks : ℕ × ℕ → UInt8} (hmanager : s.manager.fileStep op = some manager) (hnot : s.manager.NotOpened op)
    (hkeeps : KeepsData s { s with manager, storage := ⟨s.storage.ram, disks⟩ }) :
    Holds { s with manager, storage := ⟨s.storage.ram, disks⟩ } unit perTensor fileId granule bytes := by
  have hstays := GPUFileManager.stays_of_fileStep hready.owners hmanager hnot h.opened
  have hdevice : ∀ block hdr, s.manager.nvmeHdr fileId (block % s.manager.devices) = some hdr →
      manager.nvmeHdr fileId (block % s.manager.devices) = some hdr := by
    intro block hdr hhdr
    refine hstays.nvmeHdr ?_ hhdr
    obtain ⟨-, c, -, hc, -⟩ := GPUFileManager.nvmeHdr_eq_some.1 hhdr
    have hlt := (List.getElem?_eq_some_iff.1 hc).1
    have hmod := Nat.mod_lt block (show 0 < s.manager.devices by rw [GPUFileManager.devices]; omega)
    rw [GPUFileManager.devices] at hmod ⊢
    omega
  constructor
  · obtain ⟨desc, hdesc, hhas, hmem⟩ := h.opened
    exact ⟨desc, hstays.lookup desc hdesc, hhas, hstays.devFds _ hmem⟩
  · intro j hj
    obtain ⟨hdr, hhdr, hfits⟩ := h.room j hj
    refine ⟨hdr, ?_, ?_⟩
    · rw [hstays.devices]
      exact hdevice _ hdr hhdr
    · rw [hstays.devices]
      exact hfits
  · intro k hk
    obtain ⟨disk, hdisk, hbyte⟩ := h.bytes k hk
    obtain ⟨hplace, hdr, hhdr, himage⟩ := GPUFileManager.location_eq_some.1 hdisk
    have hhdr' : manager.nvmeHdr fileId disk.1 = some hdr := by
      rw [hplace] at hhdr ⊢
      exact hdevice _ hdr hhdr
    refine ⟨disk, GPUFileManager.location_eq_some.2 ⟨?_, hdr, hhdr', ?_⟩, ?_⟩
    · rw [hstays.devices]
      exact hplace
    · rw [hstays.devices]
      exact himage
    · obtain ⟨desc, c, hdesc, hc, hfile⟩ := GPUFileManager.nvmeHdr_eq_some.1 hhdr
      obtain ⟨desc', c', hdesc', hc', hfile'⟩ := GPUFileManager.nvmeHdr_eq_some.1 hhdr'
      obtain rfl : desc' = desc := Option.some.inj (hdesc'.symm.trans (hstays.lookup desc hdesc))
      rw [← hbyte]
      exact hkeeps disk.1 c c' _ hdr _ disk.2 hc hc' hfile hfile' himage

/-- A transfer that does not write to a tensor of a file leaves it as it is. -/
theorem Holds.xfer (hdenotes : gpu.Denotes device lists unit perTensor) (hpos : 0 < unit) (hpage : 4096 ∣ unit)
    (hlen : perTensor * unit < 2 ^ 32) (hready : s.manager.Ready unit) {fileId layer : ℕ} {cache : KV}
    {bytes : ℕ → UInt8} (h : s.Holds unit perTensor fileId (2 * layer + cache.number) bytes)
    (hxfer : s.xfer gpu lists x = some s') (hx : x.WellFormed (perTensor * unit))
    (hspares : (StoreOp.xfer x).Spares fileId layer) :
    s'.Holds unit perTensor fileId (2 * layer + cache.number) bytes := by
  obtain ⟨hmanager, hstorage, honly, -⟩ := moved_of_xfer hdenotes hpos hpage hlen hready hx hxfer
  refine ⟨by rw [hmanager]; exact h.opened, by rw [hmanager]; exact h.room, fun k hk => ?_⟩
  obtain ⟨disk, hdisk, hbyte⟩ := h.bytes k hk
  refine ⟨disk, by rw [hmanager]; exact hdisk, ?_⟩
  rw [hstorage, ← hbyte]
  cases hread : x.isRead with
  | true => rw [exec_of_read hread honly]
  | false =>
      rw [exec_of_write hread honly]
      apply Moves.copy_of_forall_not_mem
      -- nothing is moved to the byte, for it would be one of this tensor
      intro address hmem
      obtain ⟨move, hmove, heq⟩ := List.mem_map.1 hmem
      cases heq
      obtain ⟨i, cache', k', hlt, -, tensor, fileId', -, hfileId, -, hdisk'⟩ := honly move hmove
      obtain ⟨rfl, hgranule, -⟩ := GPUFileManager.location_inj hready.owners hready.sound hk hlt hdisk hdisk'
      have hlayer : x.layer ≠ layer := hspares hread (List.mem_of_getElem? hfileId)
      have hnumber : ∀ kv : KV, kv.number ≤ 1 := fun kv => by cases kv <;> decide
      have hcache := hnumber cache
      have hcache' := hnumber cache'
      omega

/-- **An operation that spares a tensor** of a file leaves it as it is. -/
theorem Holds.step (hdenotes : gpu.Denotes device lists unit perTensor) (hpos : 0 < unit) (hpage : 4096 ∣ unit)
    (hlen : perTensor * unit < 2 ^ 32) (hready : s.manager.Ready unit) {fileId layer : ℕ} {cache : KV}
    {bytes : ℕ → UInt8} (h : s.Holds unit perTensor fileId (2 * layer + cache.number) bytes) {op : StoreOp}
    (hstep : s.step gpu lists op = some s') (hallowed : Allowed unit perTensor s op s')
    (hspares : op.Spares fileId layer) : s'.Holds unit perTensor fileId (2 * layer + cache.number) bytes := by
  cases op with
  | manage op disks =>
      obtain ⟨hnot, -, hkeeps⟩ := hallowed
      rw [FileStore.step, Option.map_eq_some_iff] at hstep
      obtain ⟨manager, hmanager, rfl⟩ := hstep
      exact h.manage hready hmanager hnot hkeeps
  | compute ram =>
      cases hstep
      exact ⟨h.opened, h.room, h.bytes⟩
  | xfer x => exact h.xfer hdenotes hpos hpage hlen hready hstep hallowed hspares

/-! ### A K and a V tensor of one slice -/

/-- A device that gives each page its own address. -/
def cacheDevice : DmaDevice := ⟨fun page => page * 4096, fun context k => Nat.pair context k * 4096⟩

/-- A K and a V tensor of 65536 bytes. -/
def cacheTensor : Tensor := ⟨0, 131072⟩

/-- How they are cut. -/
def cacheSliced : DmaContext := (performDMASlicing [some 1048576] 0 131072 65536).getD ⟨0, []⟩

/-- Their entries. -/
def cacheDma : DmaContext :=
  (initializePRPEntries (cacheDevice.ioaddrs cacheTensor) (cacheDevice.prpPages 0 (getPrpListSize cacheSliced))
    cacheSliced).getD ⟨0, []⟩

/-- The controller on which they are registered. -/
def cacheGpu : GPUController :=
  (GPUController.registerTensorMemory ⟨[some 1048576], [], ∅⟩ cacheTensor 65536 (cacheDevice.ioaddrs cacheTensor)
    (cacheDevice.prpPages 0 (getPrpListSize cacheSliced))).getD ⟨[], [], ∅⟩

/-- The lists of their entries. -/
def cacheLists : ℕ → List ℕ :=
  Registration.writeLists cacheDevice (fun _ => []) ⟨0, cacheTensor, 65536, cacheDma⟩

/-- The header of an NVMe file of two tensors. -/
def cacheHdr : GeminiHdr :=
  ⟨0x7366696e696d6567, GEMINI_HDR_MAX_SIZE, 131072, 12, [⟨0, 1048576, 131072, 0⟩]⟩

/-- The controller with the file. -/
def cacheController : NVMeController :=
  { GPUFileManager.freshController with files := Function.update (fun _ => none) 0 (some cacheHdr) }

/-- A manager with one GPU file, of one layer, which is open. -/
def cacheManager : GPUFileManager :=
  { freshManager 1 with
    dirtyBitmap := Function.update (fun _ => false) 0 true
    descs := (∅ : AList fun _ : ℕ => GPUFileDesc).insert 0 (GPUFileDesc.new 0 131072 [2, 1, 65536] [0])
    nvmeControllers := [cacheController]
    devFds := (∅ : AList fun _ : ℕ × ℕ => NVMeFile).insert (0, 0) ⟨cacheHdr, 4096, 9⟩
    ctxs := (∅ : AList fun _ : ℕ => List NVMeFile).insert 0 [⟨cacheHdr, 4096, 9⟩] }

/-- The tensors have been registered. -/
theorem dmaReady_cacheGpu : DmaReady cacheDevice [some 1048576] 65536 cacheGpu cacheLists where
  registered := ⟨1, .tensor (.none fun _ => []) (by decide) (by decide) (by decide) List.not_mem_nil
    (show performDMASlicing [some 1048576] 0 131072 65536 = some cacheSliced by decide +kernel)
    (show initializePRPEntries _ _ _ = some cacheDma by decide +kernel)
    (show GPUController.registerTensorMemory _ _ _ _ _ = some cacheGpu from rfl)⟩
  accepted := by
    intro maxIOsize hmem
    rw [List.mem_singleton, Option.some_inj] at hmem
    exact ⟨1024, by rw [hmem]; decide⟩
  pos := by decide
  lt := by decide
  page := by decide
  unit := by decide
  ioaddr := fun a b heq => Nat.eq_of_mul_eq_mul_right (show 0 < 4096 by decide) heq
  aligned := fun page => Nat.dvd_mul_left 4096 page
  prpPage := fun a a' b b' heq => Nat.pair_eq_pair.1 (Nat.eq_of_mul_eq_mul_right (show 0 < 4096 by decide) heq)
  addresses := by
    intro tensor entries hentries entry hentry
    have hall : (cacheGpu.hostMappings.entries.all fun found => found.2.all fun entry =>
        decide (entry.prp1 < 2 ^ 64 ∧ entry.prp2 < 2 ^ 64)) = true := by decide +kernel
    rw [GPUController.getPrpMappings] at hentries
    split_ifs at hentries
    rw [List.all_eq_true] at hall
    have hmem := List.all_eq_true.1 (hall _ (AList.mem_lookup_iff.1 hentries)) entry hentry
    exact of_decide_eq_true hmem

/-- What is found in a map with one entry. -/
theorem eq_of_lookup_insert_empty {κ α : Type} [DecidableEq κ] {key key' : κ} {value value' : α}
    (h : ((∅ : AList fun _ : κ => α).insert key value).lookup key' = some value') :
    key' = key ∧ value' = value := by
  by_cases hkey : key' = key
  · subst hkey
    rw [AList.lookup_insert] at h
    exact ⟨rfl, (Option.some.inj h).symm⟩
  · rw [AList.lookup_insert_ne hkey, AList.lookup_empty] at h
    cases h

/-- The header is right. -/
theorem sound_cacheHdr : cacheHdr.Sound 65536 9 where
  mapped := ⟨by decide, by decide, List.pairwise_singleton _ _, by decide⟩
  block := by decide
  lba := by decide
  lt := by decide
  joined := by
    intro row _ before a b after heq
    -- there is one extent
    have hlength := congrArg List.length heq
    rw [List.length_append, List.length_cons, List.length_cons, show cacheHdr.onDisk.length = 1 from rfl] at hlength
    omega

/-- The controller has one file. -/
theorem files_cacheController {id : ℕ} {hdr : GeminiHdr} (h : cacheController.files id = some hdr) :
    id = 0 ∧ hdr = cacheHdr := by
  by_cases hid : id = 0
  · subst hid
    exact ⟨rfl, (Option.some.inj h).symm⟩
  · change Function.update (fun _ => none) 0 (some cacheHdr) id = some hdr at h
    rw [Function.update_of_ne hid] at h
    cases h

theorem sound_cacheController : cacheController.Sound 65536 where
  page := by decide
  blocks := by decide
  count := by decide
  files := by
    intro id hdr hfile
    obtain ⟨-, rfl⟩ := files_cacheController hfile
    exact sound_cacheHdr
  apart := by
    intro id id' hdr hdr' hfile hfile' hne
    exact absurd ((files_cacheController hfile).1.trans (files_cacheController hfile').1.symm) hne

theorem controllers_cacheManager {j : ℕ} {c : NVMeController} (h : cacheManager.nvmeControllers[j]? = some c) :
    j = 0 ∧ c = cacheController := by
  cases j with
  | zero => exact ⟨rfl, (Option.some.inj h).symm⟩
  | succ j => cases h

/-- The manager is ready. -/
theorem ready_cacheManager : cacheManager.Ready 65536 where
  owners := {
    isValid := by
      intro fileId desc hdesc
      obtain ⟨-, rfl⟩ := eq_of_lookup_insert_empty hdesc
      decide
    has := by
      intro fileId desc hdesc j c _ hc
      obtain ⟨-, rfl⟩ := eq_of_lookup_insert_empty hdesc
      obtain ⟨rfl, rfl⟩ := controllers_cacheManager hc
      exact ⟨by decide, cacheHdr, by decide⟩
    apart := by
      intro fileId fileId' desc desc' hdesc hdesc' hne
      exact absurd ((eq_of_lookup_insert_empty hdesc).1.trans (eq_of_lookup_insert_empty hdesc').1.symm) hne }
  openRight := {
    devFds := by
      intro i id file hfile
      obtain ⟨hkey, rfl⟩ := eq_of_lookup_insert_empty hfile
      cases hkey
      exact ⟨cacheController, rfl, by decide⟩
    ctxs := by
      intro fileId files hfiles
      obtain ⟨rfl, rfl⟩ := eq_of_lookup_insert_empty hfiles
      decide +kernel }
  sound := by
    intro c hc
    rw [List.mem_singleton.1 hc]
    exact sound_cacheController

theorem room_cacheManager : cacheManager.Room 65536 1 0 0 := by
  intro j hj
  obtain rfl : j = 0 := by omega
  exact ⟨cacheHdr, by decide +kernel, by decide +kernel⟩

/-- A store with this manager. -/
def cacheStore : FileStore := ⟨cacheManager, .new 4, fun _ => [], ⟨UInt8.ofNat, fun _ => 0⟩⟩

/-- A transfer of the layer, for tensors `k` and `v`. -/
def cacheXfer (k v : Tensor) (isRead : Bool) (order : List ByteMove) : Xfer :=
  ⟨⟨fun _ => true, true⟩, [k], [v], [0], 0, isRead, fun _ => ⟨fun _ => 0, 1, 0⟩, order⟩

/-- It transfers, and returns true. -/
theorem cacheXfer_eq_some {s : FileStore} (hmanager : s.manager = cacheManager) (hpool : s.pool.free.length = 4)
    {k v : Tensor} (hk : k.nbytes = 65536) (isRead : Bool)
    (hcontexts : (xferContexts cacheManager cacheGpu [k] [v] [0] 0).map (fun ioctxs => (batches ioctxs).length) =
      some 1) :
    ∃ order s', s.xfer cacheGpu cacheLists (cacheXfer k v isRead order) = some s' ∧
      s'.manager = cacheManager ∧ s'.pool.free.length = 4 ∧
      (s.call cacheGpu (cacheXfer k v isRead order)).returned = true := by
  obtain ⟨hpos, hpage, -, hdenotes⟩ := dmaReady_cacheGpu.denotes
  obtain ⟨ioctxs, hioctxs, hbatches⟩ := Option.map_eq_some_iff.1 hcontexts
  obtain ⟨order, hmoves⟩ := @xfer_isSome cacheGpu cacheLists cacheDevice _ _ s (cacheXfer k v isRead []) hdenotes
    hpos hpage (by decide) (hmanager ▸ ready_cacheManager) ⟨le_refl 0, hk⟩
  obtain ⟨s', hs', hsame, hperm⟩ := hmoves order (List.Perm.refl order)
  refine ⟨order, s', hs', hsame.trans hmanager, (hperm rfl).length_eq.trans hpool, ?_⟩
  refine @returned_of_le cacheGpu s (cacheXfer k v isRead order) ioctxs ?_ ?_ fun _ => rfl
  · rw [hmanager]
    exact hioctxs
  · rw [hbatches, hpool]
    decide

/-- Tensors of 65536 bytes at 65536 and at 0 are apart. -/
theorem tensorsApart_cacheXfer (order : List ByteMove) :
    (cacheXfer ⟨65536, 65536⟩ ⟨0, 65536⟩ true order).TensorsApart 65536 := by
  intro i i' cache cache' tensor tensor' htensor htensor' hne
  have hplace : ∀ (i : ℕ) (cache : KV) (tensor : Tensor),
      (cache.tensors [⟨65536, 65536⟩] [⟨0, 65536⟩])[i]? = some tensor →
        i = 0 ∧ tensor.dataPtr = 65536 - 65536 * cache.number := by
    intro i cache tensor htensor
    cases cache <;> cases i <;> cases htensor <;> exact ⟨rfl, rfl⟩
  obtain ⟨rfl, hstart⟩ := hplace i cache tensor htensor
  obtain ⟨rfl, hstart'⟩ := hplace i' cache' tensor' htensor'
  rw [hstart, hstart']
  cases cache <;> cases cache' <;> simp [KV.number] at hne ⊢

/-! ### Transfers -/

/-- **What is read is what was written last.**  A call that returned true has written tensors to GPU files.
Whatever is done in the meantime, if it does not write to that layer of the file: a call that reads the layer and
returns true finds in the file what was in the tensor when it was written. -/
theorem read_returns_last_write {maxIOsizes : List (Option ℕ)} {len : ℕ}
    (hdma : DmaReady device maxIOsizes len gpu lists) {s₀ s₁ s₂ s₃ : FileStore} {w r : Xfer} {ops : List StoreOp}
    (hready : s₀.manager.Ready (sliceSize maxIOsizes len))
    (hw : w.WellFormed len) (hwrite : w.isRead = false) (hnodup : w.gpuFileIds.Nodup)
    (hwritten : s₀.xfer gpu lists w = some s₁) (hwReturned : (s₀.call gpu w).returned = true)
    {fileId : ℕ} (hrun : ops.foldlM (step gpu lists) s₁ = some s₂)
    (hallowed : AlongSteps (step gpu lists) (fun s op s' =>
      Allowed (sliceSize maxIOsizes len) (sliceCount maxIOsizes len) s op s' ∧ op.Spares fileId w.layer) s₁ ops)
    (hr : r.WellFormed len) (hread : r.isRead = true) (hapart : r.TensorsApart len) (hlayer : r.layer = w.layer)
    (hloaded : s₂.xfer gpu lists r = some s₃) (hrReturned : (s₂.call gpu r).returned = true)
    {cache : KV} {i j : ℕ} {source target : Tensor}
    (hsource : (cache.tensors w.kCaches w.vCaches)[i]? = some source) (hi : w.gpuFileIds[i]? = some fileId)
    (htarget : (cache.tensors r.kCaches r.vCaches)[j]? = some target) (hj : r.gpuFileIds[j]? = some fileId)
    (hroom : s₀.manager.Room (sliceSize maxIOsizes len) (sliceCount maxIOsizes len) fileId
      (2 * w.layer + cache.number)) :
    ∀ k < len, s₃.storage.ram (device.byteAddr (target.dataPtr + k)) =
      s₀.storage.ram (device.byteAddr (source.dataPtr + k)) := by
  obtain ⟨hpos, hpage, hlen, hdenotes⟩ := hdma.denotes
  have hlt : sliceCount maxIOsizes len * sliceSize maxIOsizes len < 2 ^ 32 := hlen.symm ▸ hdma.lt
  have haddr := DmaDevice.byteAddr_injective hdma.ioaddr hdma.aligned
  generalize sliceSize maxIOsizes len = unit at *
  generalize sliceCount maxIOsizes len = perTensor at *
  subst hlen
  have hholds := holds_of_write hdenotes hpos hpage hlt hready hw hwrite hnodup hwritten hwReturned hsource hi hroom
  have hready₁ : s₁.manager.Ready unit := by
    rw [(moved_of_xfer hdenotes hpos hpage hlt hready hw hwritten).1]
    exact hready
  have hinv := foldlM_inv_along (fun s => s.manager.Ready unit ∧
    s.Holds unit perTensor fileId (2 * w.layer + cache.number) fun k =>
      s₀.storage.ram (device.byteAddr (source.dataPtr + k)))
    (fun s op s' ⟨hready, hholds⟩ hstep ⟨hallowed, hspares⟩ =>
      ⟨ready_of_step hdenotes hpos hpage hlt hready hstep hallowed,
        hholds.step hdenotes hpos hpage hlt hready hstep hallowed hspares⟩)
    ops ⟨hready₁, hholds⟩ hallowed hrun
  obtain ⟨hready₂, hholds₂⟩ := hinv
  rw [← hlayer] at hholds₂
  exact ram_of_read hdenotes hpos hpage hlt haddr hready₂ hr hread hapart hloaded hrReturned htarget hj hholds₂

/-- The tensors are written, the memory is overwritten, and K is read into the place where V was. -/
theorem read_returns_last_write_twoTensors : ∃ (order order' : List ByteMove) (s₁ s₂ s₃ : FileStore),
    cacheStore.xfer cacheGpu cacheLists (cacheXfer ⟨0, 65536⟩ ⟨65536, 65536⟩ false order) = some s₁ ∧
    s₁.step cacheGpu cacheLists (.compute fun _ => 0) = some s₂ ∧
    s₂.xfer cacheGpu cacheLists (cacheXfer ⟨65536, 65536⟩ ⟨0, 65536⟩ true order') = some s₃ ∧
    ∀ k < 65536, s₃.storage.ram (cacheDevice.byteAddr (65536 + k)) =
      cacheStore.storage.ram (cacheDevice.byteAddr (0 + k)) := by
  obtain ⟨order, s₁, hs₁, hmanager, hpool, hreturned⟩ := @cacheXfer_eq_some cacheStore rfl rfl ⟨0, 65536⟩
    ⟨65536, 65536⟩ rfl false (by decide +kernel)
  obtain ⟨s₂, hs₂⟩ : ∃ s₂, s₁.step cacheGpu cacheLists (.compute fun _ => 0) = some s₂ := ⟨_, rfl⟩
  have hsame : s₂.manager = s₁.manager ∧ s₂.pool = s₁.pool := by
    cases hs₂
    exact ⟨rfl, rfl⟩
  obtain ⟨order', s₃, hs₃, -, -, hreturned'⟩ := @cacheXfer_eq_some s₂ (hsame.1.trans hmanager)
    (by rw [hsame.2, hpool]) ⟨65536, 65536⟩ ⟨0, 65536⟩ rfl true (by decide +kernel)
  refine ⟨order, order', s₁, s₂, s₃, hs₁, hs₂, hs₃, ?_⟩
  exact @read_returns_last_write cacheGpu cacheLists cacheDevice [some 1048576] 65536 dmaReady_cacheGpu cacheStore
    s₁ s₂ s₃ (cacheXfer ⟨0, 65536⟩ ⟨65536, 65536⟩ false order) (cacheXfer ⟨65536, 65536⟩ ⟨0, 65536⟩ true order')
    [.compute fun _ => 0] ready_cacheManager ⟨le_refl 0, rfl⟩ rfl (List.nodup_singleton 0) hs₁ hreturned 0
    (by rw [List.foldlM_cons, hs₂]; rfl) (fun s' _ => ⟨⟨trivial, trivial⟩, trivial⟩) ⟨le_refl 0, rfl⟩ rfl
    (tensorsApart_cacheXfer order') rfl hs₃ hreturned' .k 0 0 ⟨0, 65536⟩ ⟨65536, 65536⟩ rfl rfl rfl rfl
    room_cacheManager

/-- The bytes that a call moves are the same in all orders. -/
theorem perm_of_xfer {s'' : FileStore} {order : List ByteMove} (h : s.xfer gpu lists x = some s')
    (h' : s.xfer gpu lists { x with order } = some s'') : order.Perm x.order := by
  simp only [xfer, Option.bind_eq_bind, Option.bind_eq_some_iff] at h h'
  obtain ⟨d, hrun, moves, hmoves, hif⟩ := h
  obtain ⟨d', hrun', moves', hmoves', hif'⟩ := h'
  obtain rfl : d' = d := Option.some.inj (hrun'.symm.trans hrun)
  obtain rfl : moves' = moves := Option.some.inj (hmoves'.symm.trans hmoves)
  split_ifs at hif with hperm
  split_ifs at hif' with hperm'
  exact hperm'.trans hperm.symm

/-- **Transfers are deterministic.**  Let a call write to distinct files, or read into tensors that are apart.  No
assertion fails in its kernels, and whatever the order in which the controllers move its bytes, it ends in one
store. -/
theorem xfer_deterministic {maxIOsizes : List (Option ℕ)} {len : ℕ}
    (hdma : DmaReady device maxIOsizes len gpu lists) (hready : s.manager.Ready (sliceSize maxIOsizes len))
    (hx : x.WellFormed len) (hwrite : x.isRead = false → x.gpuFileIds.Nodup)
    (hread : x.isRead = true → x.TensorsApart len) :
    ∃ moves s', ∀ order, s.xfer gpu lists { x with order } = if order.Perm moves then some s' else none := by
  obtain ⟨hpos, hpage, hlen, hdenotes⟩ := hdma.denotes
  have hlt : sliceCount maxIOsizes len * sliceSize maxIOsizes len < 2 ^ 32 := hlen.symm ▸ hdma.lt
  have haddr := DmaDevice.byteAddr_injective hdma.ioaddr hdma.aligned
  generalize sliceSize maxIOsizes len = unit at *
  generalize sliceCount maxIOsizes len = perTensor at *
  subst hlen
  obtain ⟨moves, hmoves⟩ := xfer_isSome hdenotes hpos hpage hlt hready hx
  obtain ⟨s', hs', -⟩ := hmoves moves (List.Perm.refl moves)
  refine ⟨moves, s', fun order => ?_⟩
  split_ifs with hperm
  · exact @xfer_order gpu lists device _ _ s s' { x with order := moves } hdenotes hpos hpage hlt haddr hready
      ⟨hx.layer, hx.length⟩ hwrite hread hs' order hperm.symm
  · cases hs'' : s.xfer gpu lists { x with order } with
    | none => rfl
    | some s'' => exact absurd (@perm_of_xfer gpu lists s s' { x with order := moves } s'' order hs' hs'') hperm

/-- The tensors are written, or K and V are read into each other's place. -/
theorem xfer_deterministic_twoTensors :
    (∃ moves s', ∀ order, cacheStore.xfer cacheGpu cacheLists (cacheXfer ⟨0, 65536⟩ ⟨65536, 65536⟩ false order) =
      if order.Perm moves then some s' else none) ∧
    ∃ moves s', ∀ order, cacheStore.xfer cacheGpu cacheLists (cacheXfer ⟨65536, 65536⟩ ⟨0, 65536⟩ true order) =
      if order.Perm moves then some s' else none :=
  ⟨@xfer_deterministic cacheGpu cacheLists cacheDevice cacheStore (cacheXfer ⟨0, 65536⟩ ⟨65536, 65536⟩ false [])
      [some 1048576] 65536 dmaReady_cacheGpu ready_cacheManager ⟨le_refl 0, rfl⟩ (fun _ => List.nodup_singleton 0)
      fun hread => absurd hread Bool.false_ne_true,
    @xfer_deterministic cacheGpu cacheLists cacheDevice cacheStore (cacheXfer ⟨65536, 65536⟩ ⟨0, 65536⟩ true [])
      [some 1048576] 65536 dmaReady_cacheGpu ready_cacheManager ⟨le_refl 0, rfl⟩
      (fun hwrite => absurd hwrite.symm Bool.false_ne_true) fun _ => tensorsApart_cacheXfer []⟩

end FileStore

end GeminiFS
end InfiniKV
