/-
**A batched transfer on its stream.**

`geminifs_batched_xfer` checks its arguments, fills in the I/O contexts of the K and V tensors, and takes an
entry of a pool for each batch of them.  What follows is put on a CUDA stream: each batch is copied to its
entry and handed to a kernel, and at last a host function puts the entries back into the pool.  The stream is
worked off in order, so the contexts a kernel reads are those that were copied before it.

An entry that is put back while it is in the pool would make a cycle of the free list; the run of the stream
is then undefined.

Main definitions:

* `InfiniKV.GeminiFS.BatchIoPool` — the pool, whose free list has every entry at most once;
* `InfiniKV.GeminiFS.xferContexts`, `InfiniKV.GeminiFS.geminifsBatchedXferOn` — the call, with what it puts on
  the stream;
* `InfiniKV.GeminiFS.StreamOp.step`, `InfiniKV.GeminiFS.runStream` — the stream is worked off.

Main results:

* `InfiniKV.GeminiFS.geminifsBatchedXfer_eq_bind` — the batches of a layer are those of `geminifsBatchedXfer`;
* `InfiniKV.GeminiFS.runStream_flatMap_batchOps` — what the kernels of all batches serve;
* `InfiniKV.GeminiFS.geminifsBatchedXferOn_released` — **each entry is put back once**.
-/

import InfiniKV.BatchedXfer
import Mathlib.Data.List.ReduceOption

set_option relaxedAutoImplicit false
set_option autoImplicit false

namespace InfiniKV
namespace GeminiFS

/-! ### The pool of I/O contexts -/

/-- `BatchIoPool`: the numbers of the entries in the free list, its head first. -/
structure BatchIoPool where
  free : List ℕ
  nodup : free.Nodup

namespace BatchIoPool

/-- `BatchIoPool(capacity)`: the entries are released one after the other. -/
def new (capacity : ℕ) : BatchIoPool :=
  ⟨(List.range capacity).reverse, List.nodup_reverse.2 List.nodup_range⟩

/-- `acquire`, where `none` stands for a null pointer. -/
def acquire (pool : BatchIoPool) : Option (ℕ × BatchIoPool) :=
  match pool with
  | ⟨[], _⟩ => none
  | ⟨entry :: free, nodup⟩ => some (entry, ⟨free, nodup.of_cons⟩)

/-- `release`.  `none` stands for the cycle that an entry makes which is in the list already. -/
def release (pool : BatchIoPool) (obj : ℕ) : Option BatchIoPool :=
  if h : obj ∈ pool.free then none else some ⟨obj :: pool.free, List.nodup_cons.2 ⟨h, pool.nodup⟩⟩

end BatchIoPool

/-- An entry for each batch, up to the first that is not there: whether there is one for each, the entries,
and the pool. -/
def allocateIoContexts : List (Option ℕ) → BatchIoPool → Bool × List (Option ℕ) × BatchIoPool
  | [], pool => (true, [], pool)
  | entry :: entries, pool =>
      match pool.acquire with
      | none => (false, entry :: entries, pool)
      | some (obj, pool') =>
          let rest := allocateIoContexts entries pool'
          (rest.1, some obj :: rest.2.1, rest.2.2)

/-! ### The call -/

/-- `THREADS_PER_BLOCK`. -/
def THREADS_PER_BLOCK : ℕ := 32

/-- What is put on a stream. -/
inductive StreamOp where
  | memcpyAsync (entry : ℕ) (ioctxs : List GPUIoContext)
  | nvmeBatchXferKernel (blocks entry tensorSize totalCount : ℕ) (isRead : Bool)
  | launchHostFunc (batches : List (Option ℕ))

/-- Is it a kernel? -/
def StreamOp.isKernel : StreamOp → Bool
  | .nvmeBatchXferKernel .. => true
  | _ => false

/-- Whether the calls to the CUDA runtime succeed: the copy of each batch, and the launch of the host
function. -/
structure CudaOutcomes where
  memcpyAsync : ℕ → Bool
  launchHostFunc : Bool

/-- A call: whether it returns `true`, what it leaves of the pool, and what it has put on the stream. -/
structure XferCall where
  returned : Bool
  pool : BatchIoPool
  stream : List StreamOp

/-- The offset of the K or the V tensor of a layer.  The layer number is signed; it is multiplied as an
unsigned 64-bit number. -/
def layerOffset (layerIdx : Int32) (len : ℕ) : KV → ℕ
  | .k => (layerIdx.toInt * len * 2 % 2 ^ 64).toNat
  | .v => ((layerIdx.toInt * len * 2 + len) % 2 ^ 64).toNat

/-- `geminifs_batched_xfer` before the pool: the checks, and the contexts of K and V, one by one. -/
def xferContexts (m : GPUFileManager) (gpu : GPUController) (kCaches vCaches : List Tensor)
    (gpuFileIds : List ℕ) (layerIdx : Int32) : Option (List GPUIoContext) :=
  match kCaches, vCaches, gpuFileIds with
  | k :: ks, v :: vs, fileId :: fileIds =>
      if ks.length ≠ vs.length ∨ ks.length ≠ fileIds.length then none
      else match m.descs.lookup fileId with
        | none => none
        | some desc =>
            if k.nbytes ≠ (desc.tensorShape (Fin.last 2)).toNat then none
            else if !((ks.zip (vs.zip fileIds)).all fun p =>
                sizesMatch m k.nbytes desc.totalFileSize p.1 p.2.1 p.2.2) then none
            else do
              let kIoctxs ← fillCtx m gpu (layerOffset layerIdx k.nbytes .k) (k :: ks)
                (fileId :: fileIds)
              let vIoctxs ← fillCtx m gpu (layerOffset layerIdx k.nbytes .v) (v :: vs)
                (fileId :: fileIds)
              if kIoctxs.length ≠ vIoctxs.length then none
              else some (combine kIoctxs vIoctxs)
  | _, _, _ => none

/-- The host function that puts the entries back is put on the stream. -/
def launchRelease (cuda : CudaOutcomes) (entries : List (Option ℕ)) : List StreamOp :=
  if cuda.launchHostFunc then [.launchHostFunc entries] else []

/-- The loop over the batches, from the `i`-th on: whether all are copied, and what is put on the
stream. -/
def launchBatches (cuda : CudaOutcomes) (ioctxs : List GPUIoContext) (len : ℕ) (isRead : Bool) :
    ℕ → List ℕ → Bool × List StreamOp
  | _, [] => (true, [])
  | i, entry :: entries =>
      let ioctxsPerBatch := min MAX_IOCTX_PER_BATCH ioctxs.length
      let thisBatchSize := min ioctxsPerBatch (ioctxs.length - ioctxsPerBatch * i)
      if cuda.memcpyAsync i then
        let rest := launchBatches cuda ioctxs len isRead (i + 1) entries
        (rest.1, .memcpyAsync entry ((ioctxs.drop (i * ioctxsPerBatch)).take thisBatchSize) ::
          .nvmeBatchXferKernel ((thisBatchSize + THREADS_PER_BLOCK - 1) / THREADS_PER_BLOCK) entry len
            thisBatchSize isRead :: rest.2)
      else (false, [])

/-- **`geminifs_batched_xfer`.** -/
def geminifsBatchedXferOn (m : GPUFileManager) (gpu : GPUController) (pool : BatchIoPool)
    (cuda : CudaOutcomes) (kCaches vCaches : List Tensor) (gpuFileIds : List ℕ) (layerIdx : Int32)
    (isRead : Bool) : XferCall :=
  match xferContexts m gpu kCaches vCaches gpuFileIds layerIdx with
  | none => ⟨false, pool, []⟩
  | some ioctxs =>
      let batchLoopSize := (ioctxs.length + MAX_IOCTX_PER_BATCH - 1) / MAX_IOCTX_PER_BATCH
      let allocated := allocateIoContexts (List.replicate batchLoopSize none) pool
      let len := (kCaches.headD ⟨0, 0⟩).nbytes
      if allocated.1 then
        let launched := launchBatches cuda ioctxs len isRead 0 allocated.2.1.reduceOption
        ⟨launched.1, allocated.2.2, launched.2 ++ launchRelease cuda allocated.2.1⟩
      else ⟨false, allocated.2.2, launchRelease cuda allocated.2.1⟩

/-! ### The stream is worked off -/

/-- The pool, the contexts in each of its entries on the device, and for each kernel that has run what its
threads have served. -/
structure StreamState where
  pool : BatchIoPool
  ioctxs : ℕ → List GPUIoContext
  kernels : List (List (Option GPUIoContext))

/-- The context that thread `tid` of a kernel takes for its own, if it does not return at once. -/
def threadContext (ioctxs : List GPUIoContext) (totalCount tid : ℕ) : Option GPUIoContext :=
  if totalCount ≤ tid then none else ioctxs[tid]?

/-- The numbers of the threads of a launch. -/
def threadIds (blocks : ℕ) : List ℕ :=
  (List.range blocks).flatMap fun blockIdx =>
    (List.range THREADS_PER_BLOCK).map fun threadIdx => threadIdx + blockIdx * THREADS_PER_BLOCK

/-- `release_ioctx`: null pointers are left out. -/
def releaseIoctx : List (Option ℕ) → BatchIoPool → Option BatchIoPool
  | [], pool => some pool
  | none :: entries, pool => releaseIoctx entries pool
  | some entry :: entries, pool => do releaseIoctx entries (← pool.release entry)

/-- One operation of a stream. -/
def StreamOp.step (d : StreamState) : StreamOp → Option StreamState
  | .memcpyAsync entry ioctxs =>
      let copied := ioctxs ++ (d.ioctxs entry).drop ioctxs.length
      some { d with ioctxs := Function.update d.ioctxs entry copied }
  | .nvmeBatchXferKernel blocks entry _ totalCount _ =>
      let served := (threadIds blocks).map (threadContext (d.ioctxs entry) totalCount)
      some { d with kernels := d.kernels ++ [served] }
  | .launchHostFunc entries => (releaseIoctx entries d.pool).map fun pool => { d with pool := pool }

/-- A stream, in order. -/
def runStream (ops : List StreamOp) (d : StreamState) : Option StreamState := ops.foldlM StreamOp.step d

/-- What thread `t` of kernel `b` has served. -/
def StreamState.slot (d : StreamState) (b t : ℕ) : Option GPUIoContext :=
  ((d.kernels[b]?).bind fun kernel => kernel[t]?).join

/-- The entries that the host functions on a stream put back. -/
def releasedEntries (ops : List StreamOp) : List ℕ :=
  ops.flatMap fun op =>
    match op with
    | .launchHostFunc entries => entries.reduceOption
    | _ => []

/-! ### Entries are taken and put back -/

/-- **What is taken from the pool**: its first entries, as many as are asked for or as there are. -/
theorem allocateIoContexts_spec (n : ℕ) (pool : BatchIoPool) :
    (allocateIoContexts (List.replicate n none) pool).1 = decide (n ≤ pool.free.length) ∧
      (allocateIoContexts (List.replicate n none) pool).2.1.reduceOption = pool.free.take n ∧
      (allocateIoContexts (List.replicate n none) pool).2.2.free = pool.free.drop n := by
  induction n generalizing pool with
  | zero => exact ⟨by simp [allocateIoContexts], rfl, rfl⟩
  | succ n ih =>
      obtain ⟨free, nodup⟩ := pool
      cases free with
      | nil =>
          have hnone : (List.replicate (n + 1) (none : Option ℕ)).reduceOption = [] := by
            simp [List.reduceOption]
          exact ⟨by simp [allocateIoContexts, List.replicate_succ, BatchIoPool.acquire], hnone, rfl⟩
      | cons entry free =>
          obtain ⟨henough, hentries, hpool⟩ := ih ⟨free, nodup.of_cons⟩
          refine ⟨?_, ?_, ?_⟩
          · simpa [allocateIoContexts, List.replicate_succ, BatchIoPool.acquire] using henough
          · rw [List.take_succ_cons, ← hentries]
            rfl
          · rw [List.drop_succ_cons, ← hpool]
            rfl

/-- Entries that are not in the pool are put back. -/
theorem releaseIoctx_spec (entries : List (Option ℕ)) (pool : BatchIoPool)
    (h : (entries.reduceOption ++ pool.free).Nodup) :
    ∃ pool', releaseIoctx entries pool = some pool' ∧
      pool'.free.Perm (entries.reduceOption ++ pool.free) := by
  induction entries generalizing pool with
  | nil => exact ⟨pool, rfl, List.Perm.refl _⟩
  | cons entry entries ih =>
      cases entry with
      | none => exact ih pool h
      | some entry =>
          rw [List.reduceOption_cons_of_some, List.cons_append, List.nodup_cons] at h
          have hfree : entry ∉ pool.free := fun hmem => h.1 (List.mem_append_right _ hmem)
          have hrelease : pool.release entry =
              some ⟨entry :: pool.free, List.nodup_cons.2 ⟨hfree, pool.nodup⟩⟩ := dif_neg hfree
          -- the entry moves from the head of one list to the head of the other
          have hperm : (entries.reduceOption ++ entry :: pool.free).Perm
              (entry :: (entries.reduceOption ++ pool.free)) := List.perm_middle
          obtain ⟨pool', hrun, hpool'⟩ := ih ⟨entry :: pool.free, List.nodup_cons.2 ⟨hfree, pool.nodup⟩⟩
            (hperm.nodup_iff.2 (List.nodup_cons.2 h))
          refine ⟨pool', ?_, ?_⟩
          · rw [releaseIoctx, hrelease]
            exact hrun
          · rw [List.reduceOption_cons_of_some, List.cons_append]
            exact hpool'.trans hperm

/-! ### Streams -/

variable {cuda : CudaOutcomes} {ioctxs : List GPUIoContext} {len : ℕ} {isRead : Bool}

theorem runStream_append (ops ops' : List StreamOp) (d : StreamState) :
    runStream (ops ++ ops') d = (runStream ops d).bind (runStream ops') := List.foldlM_append

/-- The copy of a batch, and its kernel. -/
def batchOps (len : ℕ) (isRead : Bool) (entry : ℕ) (batch : List GPUIoContext) : List StreamOp :=
  [.memcpyAsync entry batch,
    .nvmeBatchXferKernel ((batch.length + THREADS_PER_BLOCK - 1) / THREADS_PER_BLOCK) entry len batch.length
      isRead]

/-- The number of batches is the quotient, rounded up. -/
theorem length_batches (ioctxs : List GPUIoContext) :
    (batches ioctxs).length = (ioctxs.length + MAX_IOCTX_PER_BATCH - 1) / MAX_IOCTX_PER_BATCH := by
  rw [batches, List.length_map, List.length_range]
  exact Nat.ceilDiv_eq_add_pred_div _ _

/-- One pass of the loop over the batches. -/
theorem launchBatches_cons (i entry : ℕ) (entries : List ℕ) (hi : i < (batches ioctxs).length) :
    launchBatches cuda ioctxs len isRead i (entry :: entries) =
      if cuda.memcpyAsync i then
        ((launchBatches cuda ioctxs len isRead (i + 1) entries).1,
          batchOps len isRead entry ((batches ioctxs).get ⟨i, hi⟩) ++
            (launchBatches cuda ioctxs len isRead (i + 1) entries).2)
      else (false, []) := by
  have hget : (batches ioctxs).get ⟨i, hi⟩ =
      (ioctxs.drop (i * min MAX_IOCTX_PER_BATCH ioctxs.length)).take
        (min MAX_IOCTX_PER_BATCH ioctxs.length) := by
    simp [batches]
  have hlength : ((batches ioctxs).get ⟨i, hi⟩).length = min (min MAX_IOCTX_PER_BATCH ioctxs.length)
      (ioctxs.length - min MAX_IOCTX_PER_BATCH ioctxs.length * i) := by
    rw [hget, List.length_take, List.length_drop, Nat.mul_comm i]
  have hcopied : (ioctxs.drop (i * min MAX_IOCTX_PER_BATCH ioctxs.length)).take
      (min (min MAX_IOCTX_PER_BATCH ioctxs.length)
        (ioctxs.length - min MAX_IOCTX_PER_BATCH ioctxs.length * i)) =
      (batches ioctxs).get ⟨i, hi⟩ := by
    rw [hget, List.take_eq_take_min (i := min MAX_IOCTX_PER_BATCH ioctxs.length), List.length_drop,
      Nat.mul_comm i]
  rw [launchBatches, hcopied, batchOps, hlength]
  rfl

/-- All batches are copied: each is launched. -/
theorem launchBatches_of_ok (hok : ∀ i, cuda.memcpyAsync i = true) (i : ℕ) (entries : List ℕ)
    (hlen : i + entries.length = (batches ioctxs).length) :
    launchBatches cuda ioctxs len isRead i entries =
      (true, (entries.zip ((batches ioctxs).drop i)).flatMap fun p => batchOps len isRead p.1 p.2) := by
  induction entries generalizing i with
  | nil => rfl
  | cons entry entries ih =>
      have hi : i < (batches ioctxs).length := by
        rw [← hlen, List.length_cons]
        omega
      rw [launchBatches_cons i entry entries hi, if_pos (hok i), ih (i + 1) (by rw [← hlen, List.length_cons]; omega),
        List.drop_eq_getElem_cons hi, List.zip_cons_cons, List.flatMap_cons]
      rfl

/-- The loop does not touch the pool. -/
theorem launchBatches_pool (i : ℕ) (entries : List ℕ) (hlen : i + entries.length ≤ (batches ioctxs).length)
    (d : StreamState) :
    (∃ d', runStream (launchBatches cuda ioctxs len isRead i entries).2 d = some d' ∧ d'.pool = d.pool) ∧
      releasedEntries (launchBatches cuda ioctxs len isRead i entries).2 = [] := by
  induction entries generalizing i d with
  | nil => exact ⟨⟨d, rfl, rfl⟩, rfl⟩
  | cons entry entries ih =>
      rw [List.length_cons] at hlen
      rw [launchBatches_cons i entry entries (by omega)]
      split_ifs
      · obtain ⟨⟨d', hrun, hpool⟩, hreleased⟩ := ih (i + 1) (by omega) _
        exact ⟨⟨d', hrun, hpool⟩, hreleased⟩
      · exact ⟨⟨d, rfl, rfl⟩, rfl⟩

/-! ### What the threads serve -/

/-- Two levels of rounding: the threads of a launch are numbered without a gap. -/
theorem threadIds_eq (blocks : ℕ) : threadIds blocks = List.range (blocks * THREADS_PER_BLOCK) := by
  induction blocks with
  | zero => simp [threadIds]
  | succ blocks ih =>
      have hlast : (List.range THREADS_PER_BLOCK).map (fun threadIdx => threadIdx + blocks * THREADS_PER_BLOCK) =
          (List.range THREADS_PER_BLOCK).map (blocks * THREADS_PER_BLOCK + ·) :=
        List.map_congr_left fun threadIdx _ => Nat.add_comm threadIdx _
      rw [threadIds] at ih ⊢
      rw [List.range_succ, List.flatMap_append, ih, List.flatMap_singleton, hlast, Nat.succ_mul,
        List.range_add]

/-- What the threads serve of a batch of contexts. -/
def servedBy (batch : List GPUIoContext) : List (Option GPUIoContext) :=
  (List.range ((batch.length + THREADS_PER_BLOCK - 1) / THREADS_PER_BLOCK * THREADS_PER_BLOCK)).map
    fun tid => batch[tid]?

/-- There is a thread for each context of a batch. -/
theorem length_le_threads (n : ℕ) : n ≤ (n + THREADS_PER_BLOCK - 1) / THREADS_PER_BLOCK * THREADS_PER_BLOCK := by
  rw [THREADS_PER_BLOCK]
  omega

/-- The threads serve the contexts of the batch, in order. -/
theorem reduceOption_servedBy (batch : List GPUIoContext) : (servedBy batch).reduceOption = batch := by
  obtain ⟨idle, hidle⟩ := Nat.exists_eq_add_of_le (length_le_threads batch.length)
  have hbusy : (List.range batch.length).map (fun tid => batch[tid]?) = batch.map some := by
    apply List.ext_getElem
    · simp
    · intro tid h h'
      simp [List.getElem?_eq_getElem (show tid < batch.length by simpa using h)]
  have hrest : ((List.range idle).map fun tid => batch[batch.length + tid]?).reduceOption = [] := by
    apply List.filterMap_eq_nil_iff.2
    intro slot hslot
    obtain ⟨tid, -, rfl⟩ := List.mem_map.1 hslot
    simp
  rw [servedBy, hidle, List.range_add, List.map_append, List.map_map, List.reduceOption_append, hbusy]
  have hmap : (batch.map some).reduceOption = batch := by simp [List.reduceOption]
  rw [hmap]
  exact (congrArg (batch ++ ·) hrest).trans (List.append_nil batch)

/-- Thread `t` serves context `t`. -/
theorem getElem?_servedBy (batch : List GPUIoContext) (t : ℕ) : ((servedBy batch)[t]?).join = batch[t]? := by
  rw [servedBy, List.getElem?_map]
  rcases Nat.lt_or_ge t ((batch.length + THREADS_PER_BLOCK - 1) / THREADS_PER_BLOCK * THREADS_PER_BLOCK) with
    ht | ht
  · rw [List.getElem?_range ht]
    rfl
  · rw [List.getElem?_eq_none (by simpa using ht),
      List.getElem?_eq_none ((length_le_threads batch.length).trans ht)]
    rfl

/-- A kernel reads the batch that was copied before it. -/
theorem runStream_batchOps (entry : ℕ) (batch : List GPUIoContext) (d : StreamState) :
    ∃ d', runStream (batchOps len isRead entry batch) d = some d' ∧ d'.pool = d.pool ∧
      d'.kernels = d.kernels ++ [servedBy batch] := by
  refine ⟨_, rfl, rfl, ?_⟩
  have hserved : ∀ rest : List GPUIoContext, ∀ tid,
      threadContext (batch ++ rest) batch.length tid = batch[tid]? := by
    intro rest tid
    rw [threadContext]
    split_ifs with htid
    · exact (List.getElem?_eq_none htid).symm
    · exact List.getElem?_append_left (Nat.lt_of_not_le htid)
  dsimp only
  rw [Function.update_self, threadIds_eq, servedBy, List.map_congr_left fun tid _ => hserved _ tid]

/-- The kernels of all batches, one after the other. -/
theorem runStream_flatMap_batchOps (launches : List (ℕ × List GPUIoContext)) (d : StreamState) :
    ∃ d', runStream (launches.flatMap fun p => batchOps len isRead p.1 p.2) d = some d' ∧
      d'.pool = d.pool ∧ d'.kernels = d.kernels ++ launches.map fun p => servedBy p.2 := by
  induction launches generalizing d with
  | nil => exact ⟨d, rfl, rfl, (List.append_nil _).symm⟩
  | cons launch launches ih =>
      obtain ⟨d₁, hrun₁, hpool₁, hkernels₁⟩ := @runStream_batchOps len isRead launch.1 launch.2 d
      obtain ⟨d', hrun, hpool, hkernels⟩ := ih d₁
      refine ⟨d', ?_, hpool.trans hpool₁, ?_⟩
      · rw [List.flatMap_cons, runStream_append, hrun₁]
        exact hrun
      · rw [hkernels, hkernels₁, List.map_cons, List.append_assoc]
        rfl

/-! ### The checks -/

/-- What the contexts of a call are, if its checks pass. -/
theorem xferContexts_eq_some {m : GPUFileManager} {gpu : GPUController} {kCaches vCaches : List Tensor}
    {gpuFileIds : List ℕ} {layerIdx : Int32} :
    xferContexts m gpu kCaches vCaches gpuFileIds layerIdx = some ioctxs ↔
    ∃ k ks v vs fileId fileIds desc kIoctxs vIoctxs,
      (kCaches = k :: ks ∧ vCaches = v :: vs ∧ gpuFileIds = fileId :: fileIds) ∧
      (ks.length = vs.length ∧ ks.length = fileIds.length) ∧
      m.descs.lookup fileId = some desc ∧ k.nbytes = (desc.tensorShape 2).toNat ∧
      ((ks.zip (vs.zip fileIds)).all fun p =>
        sizesMatch m k.nbytes desc.totalFileSize p.1 p.2.1 p.2.2) = true ∧
      fillCtx m gpu (layerOffset layerIdx k.nbytes .k) kCaches gpuFileIds = some kIoctxs ∧
      fillCtx m gpu (layerOffset layerIdx k.nbytes .v) vCaches gpuFileIds = some vIoctxs ∧
      kIoctxs.length = vIoctxs.length ∧ ioctxs = combine kIoctxs vIoctxs := by
  constructor
  · intro h
    match kCaches, vCaches, gpuFileIds, h with
    | k :: ks, v :: vs, fileId :: fileIds, h =>
        simp only [xferContexts] at h
        split_ifs at h with hlens
        cases hdesc : m.descs.lookup fileId with
        | none => simp [hdesc] at h
        | some desc =>
            simp only [hdesc] at h
            split_ifs at h with hbytes hall
            simp only [Option.bind_eq_bind, Option.bind_eq_some_iff] at h
            obtain ⟨kIoctxs, hk, vIoctxs, hv, hif⟩ := h
            split_ifs at hif with hsame
            cases hif
            refine ⟨k, ks, v, vs, fileId, fileIds, desc, kIoctxs, vIoctxs, ⟨rfl, rfl, rfl⟩, ?_, hdesc,
              not_not.1 hbytes, by simpa using hall, hk, hv, not_not.1 hsame, rfl⟩
            exact ⟨by omega, by omega⟩
  · rintro ⟨k, ks, v, vs, fileId, fileIds, desc, kIoctxs, vIoctxs, ⟨rfl, rfl, rfl⟩, ⟨hlen, hlen'⟩, hdesc,
      hbytes, hall, hk, hv, hsame, rfl⟩
    simp only [xferContexts]
    rw [if_neg (by omega)]
    simp only [hdesc]
    have hshape : ¬k.nbytes ≠ (desc.tensorShape (Fin.last 2)).toNat := not_not.2 hbytes
    rw [if_neg hshape, hall, if_neg (by simp), hk, hv]
    simp only [Option.bind_eq_bind, Option.bind_some]
    rw [if_neg (not_not.2 hsame)]

/-- The offset of a layer whose number is not negative. -/
theorem layerOffset_of_nonneg {layerIdx : Int32} (hlayer : 0 ≤ layerIdx.toInt) {len : ℕ} (hlen : len < 2 ^ 32)
    (cache : KV) : layerOffset layerIdx len cache = KV.fileOffset layerIdx.toInt.toNat len cache := by
  obtain ⟨n, hn⟩ := Int.eq_ofNat_of_zero_le hlayer
  have hbound : n < 2 ^ 31 := by
    have hlt := layerIdx.toInt_lt
    rw [hn] at hlt
    exact_mod_cast hlt
  have hmul : n * len ≤ (2 ^ 31 - 1) * (2 ^ 32 - 1) := Nat.mul_le_mul (by omega) (by omega)
  have hcast : ((n : ℤ) * len * 2).toNat = n * len * 2 := by
    rw [show ((n : ℤ) * len * 2) = ((n * len * 2 : ℕ) : ℤ) by push_cast; rfl, Int.toNat_natCast]
  cases cache with
  | k =>
      rw [layerOffset, KV.fileOffset, hn, Int.toNat_natCast,
        show ((n : ℤ) * len * 2 % 2 ^ 64) = ((n * len * 2 % 2 ^ 64 : ℕ) : ℤ) by push_cast; rfl, Int.toNat_natCast,
        Nat.mod_eq_of_lt (by omega)]
  | v =>
      rw [layerOffset, KV.fileOffset, hn, Int.toNat_natCast,
        show (((n : ℤ) * len * 2 + len) % 2 ^ 64) = (((n * len * 2 + len) % 2 ^ 64 : ℕ) : ℤ) by push_cast; rfl,
        Int.toNat_natCast, Nat.mod_eq_of_lt (by omega)]

/-- **The batches of a layer whose number is not negative** are those that the host side of a transfer hands
to the kernel. -/
theorem geminifsBatchedXfer_eq_bind {m : GPUFileManager} {gpu : GPUController} {kCaches vCaches : List Tensor}
    {gpuFileIds : List ℕ} {layerIdx : Int32} {available : ℕ} (hlayer : 0 ≤ layerIdx.toInt) :
    geminifsBatchedXfer m gpu kCaches vCaches gpuFileIds layerIdx.toInt.toNat available =
      (xferContexts m gpu kCaches vCaches gpuFileIds layerIdx).bind fun ioctxs =>
        if available < (batches ioctxs).length then none else some (batches ioctxs) := by
  have hoffset : ∀ (k : Tensor) (desc : GPUFileDesc), k.nbytes = (desc.tensorShape 2).toNat → ∀ cache,
      layerOffset layerIdx k.nbytes cache = KV.fileOffset layerIdx.toInt.toNat k.nbytes cache := by
    intro k desc hbytes cache
    exact layerOffset_of_nonneg hlayer (hbytes ▸ UInt32.toNat_lt _) cache
  apply Option.ext
  intro out
  rw [geminifsBatchedXfer_eq_some, Option.bind_eq_some_iff]
  constructor
  · rintro ⟨k, ks, v, vs, fileId, fileIds, desc, kIoctxs, vIoctxs, hlists, hlens, hdesc, hbytes, hall, hk, hv,
      hsame, havail, rfl⟩
    rw [← hoffset k desc hbytes] at hk hv
    exact ⟨_, xferContexts_eq_some.2 ⟨k, ks, v, vs, fileId, fileIds, desc, kIoctxs, vIoctxs, hlists, hlens, hdesc,
      hbytes, hall, hk, hv, hsame, rfl⟩, if_neg (Nat.not_lt.2 havail)⟩
  · rintro ⟨ioctxs, hioctxs, hif⟩
    obtain ⟨k, ks, v, vs, fileId, fileIds, desc, kIoctxs, vIoctxs, hlists, hlens, hdesc, hbytes, hall, hk, hv,
      hsame, rfl⟩ := xferContexts_eq_some.1 hioctxs
    rw [hoffset k desc hbytes] at hk hv
    split_ifs at hif with havail
    cases hif
    exact ⟨k, ks, v, vs, fileId, fileIds, desc, kIoctxs, vIoctxs, hlists, hlens, hdesc, hbytes, hall, hk, hv,
      hsame, Nat.not_lt.1 havail, rfl⟩

/-! ### How a call ends -/

section Call

variable {m : GPUFileManager} {gpu : GPUController} {pool : BatchIoPool} {kCaches vCaches : List Tensor}
  {gpuFileIds : List ℕ} {layerIdx : Int32}

/-- A check fails: the pool is not asked. -/
theorem geminifsBatchedXferOn_of_none (h : xferContexts m gpu kCaches vCaches gpuFileIds layerIdx = none) :
    geminifsBatchedXferOn m gpu pool cuda kCaches vCaches gpuFileIds layerIdx isRead = ⟨false, pool, []⟩ := by
  rw [geminifsBatchedXferOn, h]

/-- The pool has too few entries: all it has are taken, and nothing is launched. -/
theorem geminifsBatchedXferOn_of_lt (h : xferContexts m gpu kCaches vCaches gpuFileIds layerIdx = some ioctxs)
    (hlt : pool.free.length < (batches ioctxs).length) :
    ∃ entries pool', entries.reduceOption = pool.free ∧ pool'.free = [] ∧
      geminifsBatchedXferOn m gpu pool cuda kCaches vCaches gpuFileIds layerIdx isRead =
        ⟨false, pool', launchRelease cuda entries⟩ := by
  obtain ⟨henough, hentries, hpool⟩ := allocateIoContexts_spec (batches ioctxs).length pool
  rw [decide_eq_false (by omega)] at henough
  rw [List.take_of_length_le hlt.le] at hentries
  rw [List.drop_eq_nil_of_le hlt.le] at hpool
  refine ⟨_, _, hentries, hpool, ?_⟩
  rw [geminifsBatchedXferOn, h]
  dsimp only
  rw [← length_batches, henough]
  rfl

/-- There is an entry for each batch. -/
theorem geminifsBatchedXferOn_of_le (h : xferContexts m gpu kCaches vCaches gpuFileIds layerIdx = some ioctxs)
    (hle : (batches ioctxs).length ≤ pool.free.length) :
    ∃ entries pool', entries.reduceOption = pool.free.take (batches ioctxs).length ∧
      pool'.free = pool.free.drop (batches ioctxs).length ∧
      geminifsBatchedXferOn m gpu pool cuda kCaches vCaches gpuFileIds layerIdx isRead =
        ⟨(launchBatches cuda ioctxs (kCaches.headD ⟨0, 0⟩).nbytes isRead 0
            (pool.free.take (batches ioctxs).length)).1, pool',
          (launchBatches cuda ioctxs (kCaches.headD ⟨0, 0⟩).nbytes isRead 0
            (pool.free.take (batches ioctxs).length)).2 ++ launchRelease cuda entries⟩ := by
  obtain ⟨henough, hentries, hpool⟩ := allocateIoContexts_spec (batches ioctxs).length pool
  rw [decide_eq_true hle] at henough
  refine ⟨_, _, hentries, hpool, ?_⟩
  rw [geminifsBatchedXferOn, h]
  dsimp only
  rw [← length_batches, henough, hentries]
  rfl

/-- What the release at the end of a call does. -/
theorem runStream_launchRelease {taken : List ℕ} {entries : List (Option ℕ)} (d : StreamState)
    (hentries : entries.reduceOption = taken) (hnodup : (taken ++ d.pool.free).Nodup) :
    releasedEntries (launchRelease cuda entries) = (if cuda.launchHostFunc then taken else []) ∧
      ∃ d', runStream (launchRelease cuda entries) d = some d' ∧ d'.kernels = d.kernels ∧
        d'.pool.free.Perm (if cuda.launchHostFunc then taken ++ d.pool.free else d.pool.free) := by
  rw [launchRelease]
  split_ifs
  · subst hentries
    obtain ⟨pool', hrun, hperm⟩ := releaseIoctx_spec entries d.pool hnodup
    refine ⟨by simp [releasedEntries], { d with pool := pool' }, ?_, rfl, hperm⟩
    simp [runStream, StreamOp.step, hrun]
  · exact ⟨rfl, d, rfl, rfl, List.Perm.refl _⟩

/-- **What a call does to the pool**: it takes entries from its head, and puts each of them back once, if the
host function can be launched. -/
theorem geminifsBatchedXferOn_released (m : GPUFileManager) (gpu : GPUController) (pool : BatchIoPool)
    (cuda : CudaOutcomes) (kCaches vCaches : List Tensor) (gpuFileIds : List ℕ) (layerIdx : Int32)
    (isRead : Bool) (device : ℕ → List GPUIoContext) :
    ∃ taken d, pool.free = taken ++ (geminifsBatchedXferOn m gpu pool cuda kCaches vCaches gpuFileIds layerIdx
        isRead).pool.free ∧
      releasedEntries (geminifsBatchedXferOn m gpu pool cuda kCaches vCaches gpuFileIds layerIdx
        isRead).stream = (if cuda.launchHostFunc then taken else []) ∧
      runStream (geminifsBatchedXferOn m gpu pool cuda kCaches vCaches gpuFileIds layerIdx isRead).stream
        ⟨(geminifsBatchedXferOn m gpu pool cuda kCaches vCaches gpuFileIds layerIdx isRead).pool, device, []⟩ =
          some d ∧
      d.pool.free.Perm (if cuda.launchHostFunc then pool.free else
        (geminifsBatchedXferOn m gpu pool cuda kCaches vCaches gpuFileIds layerIdx isRead).pool.free) := by
  cases h : xferContexts m gpu kCaches vCaches gpuFileIds layerIdx with
  | none =>
      rw [geminifsBatchedXferOn_of_none h]
      exact ⟨[], ⟨pool, device, []⟩, rfl, by simp [releasedEntries], rfl, by simp⟩
  | some ioctxs =>
      rcases Nat.lt_or_ge pool.free.length (batches ioctxs).length with hlt | hle
      · obtain ⟨entries, pool', hentries, hpool', hcall⟩ := geminifsBatchedXferOn_of_lt h hlt
        rw [hcall]
        have hnodup : (pool.free ++ pool'.free).Nodup := by
          rw [hpool', List.append_nil]
          exact pool.nodup
        obtain ⟨hreleased, d, hrun, -, hperm⟩ :=
          @runStream_launchRelease cuda pool.free entries ⟨pool', device, []⟩ hentries hnodup
        refine ⟨pool.free, d, ?_, hreleased, hrun, ?_⟩
        · rw [hpool', List.append_nil]
        · simpa [hpool'] using hperm
      · obtain ⟨entries, pool', hentries, hpool', hcall⟩ := geminifsBatchedXferOn_of_le h hle
        rw [hcall]
        have hsplit : pool.free.take (batches ioctxs).length ++ pool'.free = pool.free := by
          rw [hpool', List.take_append_drop]
        obtain ⟨⟨d₁, hrun₁, hpool₁⟩, hreleased₁⟩ := @launchBatches_pool cuda ioctxs
          (kCaches.headD ⟨0, 0⟩).nbytes isRead 0 (pool.free.take (batches ioctxs).length)
          (by rw [List.length_take]; omega) ⟨pool', device, []⟩
        have hnodup : (pool.free.take (batches ioctxs).length ++ d₁.pool.free).Nodup := by
          rw [hpool₁, hsplit]
          exact pool.nodup
        obtain ⟨hreleased, d, hrun, -, hperm⟩ :=
          @runStream_launchRelease cuda _ entries d₁ hentries hnodup
        refine ⟨pool.free.take (batches ioctxs).length, d, hsplit.symm, ?_, ?_, ?_⟩
        · rw [releasedEntries, List.flatMap_append, ← releasedEntries, ← releasedEntries, hreleased₁,
            List.nil_append, hreleased]
        · rw [runStream_append, hrun₁]
          exact hrun
        · rwa [hpool₁, hsplit] at hperm

end Call

end GeminiFS
end InfiniKV
