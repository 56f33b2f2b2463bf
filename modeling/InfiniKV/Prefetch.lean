/-
**Layer-wise prefetch.**

The read of the first layer is issued by `start_load_kv`, and that of each further layer by the wait for
the layer before it.  How far this goes is decided by the engine and by the backend, which count all
layers of the model, while there is a KV cache for the layers with attention only.  If these are all
layers, then the wait for the last one issues no read.  In a hybrid model it asks for a KV cache that
does not exist.

Main definitions:

* `InfiniKV.BatchedXfer.transfers`, `InfiniKV.Worker.issued` — the blocks that were read;
* `InfiniKV.Worker.Prefetched` — every layer is read once, before the wait for it returns.

Main results:

* `InfiniKV.Worker.retrieveLayer_ok` — when a retrieval returns;
* `InfiniKV.Worker.Serves.forwardLayers` — a worker for a model remains one;
* `InfiniKV.Worker.LayerInv.next` — one layer;
* `InfiniKV.Worker.prefetched_iff` — **when prefetch reads everything once and in time**.
-/

import InfiniKV.EngineInit
import InfiniKV.LoadFailure

set_option relaxedAutoImplicit false
set_option autoImplicit false

namespace InfiniKV

/-- What a batched transfer moves: each file with its block, in one layer. -/
def BatchedXfer.transfers (x : BatchedXfer) : List (ℕ × ℕ × ℕ) :=
  (x.gpuFileIds.zip x.blockIds).map fun p => (p.1, p.2, x.layer)

/-- Each file with its block, in each of the first `n` layers. -/
def layerTransfers (fileIds : List GPUFileMetadata) (blockIds : List ℕ) (n : ℕ) : List (ℕ × ℕ × ℕ) :=
  (List.range n).flatMap fun l => (fileIds.zip blockIds).map fun p => (p.1.id, p.2, l)

/-- Without files there is nothing to transfer. -/
@[simp] theorem layerTransfers_nil (blockIds : List ℕ) (n : ℕ) : layerTransfers [] blockIds n = [] := by
  simp [layerTransfers]

namespace Worker

variable {ops : GeminiFSOps} {w w₁ w' : Worker} {metadata metadata₁ metadata' : InfiniKVConnectorMetadata}
  {fileIds : List GPUFileMetadata} {blockIds : List ℕ} {i : ℕ}

/-- The reads that were issued between two states. -/
def issued (w w' : Worker) : List (ℕ × ℕ × ℕ) :=
  (w'.infinikvEngine.storageBackend.reads.drop w.infinikvEngine.storageBackend.reads.length).flatMap
    fun x => x.1.transfers

/-- **Every layer is read once, before the wait for it returns.**  `w` is the worker before the forward
pass, `w₁` is the worker after `start_load_kv`.  After `i` layers the reads of the layers up to `i` have
been issued, each of every loaded file into its block, and the wait for layer `i` returns; and at the
end the layers have all been read. -/
structure Prefetched (ops : GeminiFSOps) (w w₁ : Worker) (metadata₁ : InfiniKVConnectorMetadata)
    (attnLayers : ℕ) (fileIds : List GPUFileMetadata) (blockIds : List ℕ) : Prop where
  loaded : loadedFiles metadata₁.requests = .ok (fileIds, blockIds)
  inTime : ∀ i < attnLayers, ∃ w' metadata', forwardLayers ops i w₁ metadata₁ = .ok (w', metadata') ∧
    w.issued w' = layerTransfers fileIds blockIds (i + 1) ∧
    ∃ w'', w'.waitForLayerLoad ops metadata' = .ok w''
  all : ∃ w' metadata', forwardLayers ops attnLayers w₁ metadata₁ = .ok (w', metadata') ∧
    w.issued w' = layerTransfers fileIds blockIds attnLayers

/-! ### When a layer returns -/

/-- The blocks of a transfer are inside the cache of its layer. -/
theorem checkBlocks_ok {kvcaches : List KVCache} {layer numBlocks : ℕ}
    (hcache : kvcaches[layer]? = some numBlocks) (hblocks : ∀ b ∈ blockIds, b < numBlocks) :
    GeminiFSBackend.checkBlocks kvcaches layer (blockIds.map fun b => (b, layer)) = .ok () := by
  induction blockIds with
  | nil => rfl
  | cons b bs ih =>
      rw [List.map_cons, GeminiFSBackend.checkBlocks, if_neg (by simp)]
      simp only [hcache]
      rw [if_pos (hblocks b List.mem_cons_self)]
      exact ih fun b' hb' => hblocks b' (List.mem_cons_of_mem _ hb')

/-- **When a retrieval returns**: after the last layer, or if there is a cache for the next one. -/
theorem retrieveLayer_ok {e : InfiniKVEngine} {kvcaches : List KVCache}
    (hlen : fileIds.length = blockIds.length)
    (hblocks : ∀ b ∈ blockIds, ∀ numBlocks ∈ kvcaches, b < numBlocks)
    (hlayer : e.storageBackend.numLayers ≤ i + 1 ∨ i + 1 < kvcaches.length) :
    ∃ e', e.retrieveLayer ops kvcaches i fileIds blockIds = .ok e' := by
  rw [InfiniKVEngine.retrieveLayer]
  split
  · exact ⟨e, rfl⟩
  · rw [GeminiFSBackend.layerwiseBatchGet]
    split
    · exact ⟨_, rfl⟩
    · rename_i hlt
      have hnext : ((i : ℤ) + 1).toNat = i + 1 := by omega
      have hi : i + 1 < kvcaches.length := by omega
      have hcache := List.getElem?_eq_getElem hi
      simp only [hnext, hcache, hlen, ne_eq, not_true_eq_false, if_false]
      rw [checkBlocks_ok hcache fun b hb => hblocks b hb _ (List.getElem_mem hi)]
      exact ⟨_, rfl⟩

/-- A retrieval of a layer without a cache raises an exception. -/
theorem retrieveLayer_error {e : InfiniKVEngine} {kvcaches : List KVCache}
    (hengine : i < e.numLayers) (hbackend : i + 1 < e.storageBackend.numLayers)
    (hcache : kvcaches.length = i + 1) :
    e.retrieveLayer ops kvcaches i fileIds blockIds = .error .indexError := by
  have hnext : ((i : ℤ) + 1).toNat = i + 1 := by omega
  rw [InfiniKVEngine.retrieveLayer, if_neg (by omega), GeminiFSBackend.layerwiseBatchGet,
    if_neg (by omega)]
  simp only [hnext, List.getElem?_eq_none hcache.le]
  rfl

/-- Without a stream, saving a layer counts it. -/
theorem saveKvLayer_of_none (hcaches : w.kvcaches ≠ []) (hstream : metadata.saveStream = none) :
    w.saveKvLayer metadata = .ok ({ w with currentLayer := w.currentLayer + 1 }, metadata) := by
  rw [saveKvLayer, if_neg hcaches]
  cases metadata.ioTasks with
  | none => rfl
  | some ioTasks =>
      simp only
      rw [if_pos (Or.inr hstream)]

/-- Waiting for a layer leaves the KV caches. -/
theorem waitForLayerLoad_kvcaches (h : w.waitForLayerLoad ops metadata = .ok w') :
    w'.kvcaches = w.kvcaches := by
  rw [waitForLayerLoad] at h
  split at h
  · cases h
  · obtain ⟨⟨fs, bs⟩, -, h⟩ := bind_eq_ok.1 h
    simp only at h
    split at h
    · cases h
      rfl
    · obtain ⟨e', -, h⟩ := bind_eq_ok.1 h
      cases h
      rfl

/-- So do the layers of a forward pass. -/
theorem forwardLayers_kvcaches {n : ℕ} (h : forwardLayers ops n w metadata = .ok (w', metadata')) :
    w'.kvcaches = w.kvcaches := by
  induction n generalizing w metadata with
  | zero =>
      cases h
      rfl
  | succ n ih =>
      obtain ⟨w₁, hwait, h⟩ := bind_eq_ok.1 h
      obtain ⟨⟨w₂, metadata₂⟩, hsave, h⟩ := bind_eq_ok.1 h
      have hframe : w₂.kvcaches = w₁.kvcaches := by
        rcases saveKvLayer_cases hsave with ⟨-, rfl, -⟩ | ⟨_, _, _, -, -, -, -, rfl, -⟩
        · rfl
        · rfl
      rw [ih h, hframe, waitForLayerLoad_kvcaches hwait]

/-- **A worker for a model remains one**, through any number of layers of a forward pass. -/
theorem Serves.forwardLayers {vllm : VllmConfig} {outcome : ℕ × Option CudaStream} {n : ℕ}
    (hw : w.Serves vllm) (hstart : w.startLoadKv ops outcome metadata = .ok (w₁, metadata₁))
    (h : Worker.forwardLayers ops n w₁ metadata₁ = .ok (w', metadata')) : w'.Serves vllm := by
  obtain ⟨fileIds, -, hinv, -⟩ := readInv_startLoadKv hw.engineLayers hw.backendLayers hstart
  have hend := readInv_layers hinv h
  refine ⟨hend.engineLayers, hend.backendLayers, ?_⟩
  rw [forwardLayers_kvcaches h, (startLoadKv_frame hstart).2.2]
  exact hw.kvcaches

/-! ### The layers -/

/-- What holds after `i` layers of a forward pass that began with `w`, on a backend with `numLayers`
layers. -/
structure LayerInv (ops : GeminiFSOps) (w w' : Worker) (metadata' : InfiniKVConnectorMetadata)
    (numLayers : ℕ) (fileIds : List GPUFileMetadata) (blockIds : List ℕ) (i : ℕ) : Prop where
  reads : ReadInv ops w' metadata' w.infinikvEngine.storageBackend.reads numLayers
    w.infinikvEngine.storageBackend.useMla fileIds blockIds i
  kvcaches : w'.kvcaches = w.kvcaches
  stream : metadata'.saveStream = none
  length : fileIds.length = blockIds.length
  blocks : ∀ b ∈ blockIds, ∀ numBlocks ∈ w.kvcaches, b < numBlocks
  caches : w.kvcaches ≠ []

variable {numLayers : ℕ}

/-- The reads that were issued after `i` layers. -/
theorem LayerInv.issued (hinv : LayerInv ops w w' metadata' numLayers fileIds blockIds i) :
    w.issued w' = layerTransfers fileIds blockIds (min (i + 1) numLayers) := by
  rw [Worker.issued, hinv.reads.reads, List.drop_left]
  split
  · rename_i hnil
    simp [hnil, layerTransfers]
  · rw [layerReads, List.flatMap_map, layerTransfers]
    congr 1
    funext l
    simp only [BatchedXfer.transfers]
    rw [← List.map_id blockIds, List.zip_map, List.map_map]
    simp

/-- The wait for layer `i` returns, if it is the last layer or the next one has a cache. -/
theorem LayerInv.wait_ok (hinv : LayerInv ops w w' metadata' numLayers fileIds blockIds i)
    (hlayer : fileIds = [] ∨ numLayers ≤ i + 1 ∨ i + 1 < w.kvcaches.length) :
    ∃ w'', w'.waitForLayerLoad ops metadata' = .ok w'' := by
  have hcaches : w'.kvcaches ≠ [] := by
    rw [hinv.kvcaches]
    exact hinv.caches
  rw [waitForLayerLoad, if_neg hcaches, hinv.reads.loaded]
  by_cases hnil : fileIds = []
  · exact ⟨w', if_pos hnil⟩
  · have hnext : w'.infinikvEngine.storageBackend.numLayers ≤ i + 1 ∨ i + 1 < w'.kvcaches.length := by
      rw [hinv.reads.backendLayers, hinv.kvcaches]
      exact hlayer.resolve_left hnil
    have hblocks : ∀ b ∈ blockIds, ∀ numBlocks ∈ w'.kvcaches, b < numBlocks := by
      rw [hinv.kvcaches]
      exact hinv.blocks
    obtain ⟨e', he⟩ : ∃ e', w'.infinikvEngine.retrieveLayer ops w'.kvcaches i fileIds blockIds = .ok e' :=
      retrieveLayer_ok hinv.length hblocks hnext
    refine ⟨{ w' with infinikvEngine := e' }, ?_⟩
    show (if fileIds = [] then _ else _) = _
    rw [if_neg hnil, hinv.reads.currentLayer, he]
    rfl

/-- The wait for the last layer with a cache fails, if the engine counts further layers. -/
theorem LayerInv.wait_error (hinv : LayerInv ops w w' metadata' numLayers fileIds blockIds i)
    (hne : fileIds ≠ []) (hlayers : i + 1 < numLayers) (hcache : w.kvcaches.length = i + 1) :
    w'.waitForLayerLoad ops metadata' = .error .indexError := by
  have hbackend := hinv.reads.backendLayers
  have hengine := hinv.reads.engineLayers
  have herror : w'.infinikvEngine.retrieveLayer ops w'.kvcaches w'.currentLayer fileIds blockIds =
      .error .indexError := by
    rw [hinv.reads.currentLayer, hinv.kvcaches]
    exact retrieveLayer_error (by omega) (by omega) hcache
  rw [hinv.kvcaches] at herror
  rw [waitForLayerLoad, hinv.kvcaches, if_neg hinv.caches, hinv.reads.loaded]
  show (if fileIds = [] then _ else _) = _
  rw [if_neg hne, herror]
  rfl

/-- **One layer**: the wait issues the read of the next layer, and saving counts the layer. -/
theorem LayerInv.next {w'' : Worker}
    (hinv : LayerInv ops w w' metadata' numLayers fileIds blockIds i)
    (hwait : w'.waitForLayerLoad ops metadata' = .ok w'') :
    w''.saveKvLayer metadata' = .ok ({ w'' with currentLayer := w''.currentLayer + 1 }, metadata') ∧
      LayerInv ops w { w'' with currentLayer := w''.currentLayer + 1 } metadata' numLayers fileIds
        blockIds (i + 1) := by
  have hframe : w''.kvcaches = w.kvcaches := (waitForLayerLoad_kvcaches hwait).trans hinv.kvcaches
  have hsave := saveKvLayer_of_none (w := w'') (by rw [hframe]; exact hinv.caches) hinv.stream
  exact ⟨hsave, (readInv_layer hinv.reads hwait hsave).1, hframe, hinv.stream, hinv.length, hinv.blocks,
    hinv.caches⟩

/-- **The layers of a forward pass**, as long as each wait returns. -/
theorem LayerInv.layers {n : ℕ} (hinv : LayerInv ops w w₁ metadata₁ numLayers fileIds blockIds i)
    (hlayer : ∀ j < n, fileIds = [] ∨ numLayers ≤ i + j + 1 ∨ i + j + 1 < w.kvcaches.length) :
    ∃ w' metadata', forwardLayers ops n w₁ metadata₁ = .ok (w', metadata') ∧
      LayerInv ops w w' metadata' numLayers fileIds blockIds (i + n) := by
  induction n generalizing w₁ i with
  | zero => exact ⟨w₁, metadata₁, rfl, hinv⟩
  | succ n ih =>
      obtain ⟨w₂, hwait⟩ := hinv.wait_ok (hlayer 0 (Nat.succ_pos n))
      obtain ⟨hsave, hinv'⟩ := hinv.next hwait
      obtain ⟨w', metadata', hrun, hend⟩ := ih hinv' (by
        intro j hj
        have hnext := hlayer (j + 1) (by omega)
        rwa [show i + (j + 1) + 1 = i + 1 + j + 1 by omega] at hnext)
      refine ⟨w', metadata', ?_, ?_⟩
      · rw [forwardLayers]
        exact bind_eq_ok.2 ⟨w₂, hwait, bind_eq_ok.2 ⟨_, hsave, hrun⟩⟩
      · rwa [show i + (n + 1) = i + 1 + n by omega]

/-- `start_load_kv` begins the layers. -/
theorem layerInv_startLoadKv {outcome : ℕ × Option CudaStream}
    (hengine : w.infinikvEngine.numLayers = numLayers)
    (hbackend : w.infinikvEngine.storageBackend.numLayers = numLayers)
    (hstream : metadata.saveStream = none)
    (hblocks : ∀ request ∈ metadata.requests, ∀ b ∈ request.blockIds, ∀ numBlocks ∈ w.kvcaches,
      b < numBlocks)
    (h : w.startLoadKv ops outcome metadata = .ok (w₁, metadata₁)) :
    ∃ fileIds, LayerInv ops w w₁ metadata₁ numLayers fileIds (w.loadedBlocks metadata.requests) 0 := by
  obtain ⟨fileIds, hlen, hreads, -⟩ := readInv_startLoadKv hengine hbackend h
  obtain ⟨requests, ioTasks, engine, reads, -, -, hcases⟩ := startLoadKv_cases h
  have hcaches : w.kvcaches ≠ [] := by
    rintro hnil
    obtain ⟨_, hload, -⟩ := bind_eq_ok.1 h
    rw [prepareForLoad, if_pos hnil] at hload
    cases hload
  have hnone : metadata₁.saveStream = none := by
    rcases hcases with ⟨-, -, -, -, hs⟩ | ⟨q', -, -, -, -, -, hs⟩
    · exact hs
    · exact hs.trans hstream
  refine ⟨fileIds, hreads, (startLoadKv_frame h).2.2, hnone, hlen, ?_, hcaches⟩
  -- the blocks that are loaded are blocks of the requests
  intro b hb
  obtain ⟨request, hrequest, hb⟩ := List.mem_flatMap.1 hb
  cases hspec : request.loadSpec with
  | none => simp [hspec] at hb
  | some s =>
      simp only [hspec] at hb
      exact hblocks request hrequest b (List.mem_of_mem_take hb)

/-! ### The condition -/

/-- All layers have a KV cache if there are as many caches as layers. -/
theorem numAttnLayers_eq_iff (vllm : VllmConfig) :
    vllm.numAttnLayers = vllm.getNumLayers ↔ ∀ t ∈ vllm.layerTypes, t.hasKvCache = true :=
  List.countP_eq_length

/-- **When prefetch reads everything once and in time**, in a forward pass whose loads have been
prepared: exactly if there is nothing to load, or every layer of the model has a KV cache.  The metadata
of a step has no stream when it is built, and nothing sets one; and the blocks of a request are blocks
of every cache. -/
theorem prefetched_iff {vllm : VllmConfig} {outcome : ℕ × Option CudaStream} (hw : w.Serves vllm)
    (hstream : metadata.saveStream = none)
    (hblocks : ∀ request ∈ metadata.requests, ∀ b ∈ request.blockIds, ∀ numBlocks ∈ w.kvcaches,
      b < numBlocks)
    (hstart : w.startLoadKv ops outcome metadata = .ok (w₁, metadata₁)) :
    (∃ fileIds blockIds, Prefetched ops w w₁ metadata₁ vllm.numAttnLayers fileIds blockIds) ↔
      w.loadedBlocks metadata.requests = [] ∨ ∀ t ∈ vllm.layerTypes, t.hasKvCache = true := by
  obtain ⟨fileIds, hinv⟩ := layerInv_startLoadKv hw.engineLayers hw.backendLayers hstream hblocks hstart
  have hfiles : fileIds = [] ↔ w.loadedBlocks metadata.requests = [] := by
    rw [← List.length_eq_zero_iff, hinv.length, List.length_eq_zero_iff]
  have hpos : 0 < vllm.numAttnLayers := by
    rw [← hw.kvcaches]
    exact List.length_pos_iff.2 hinv.caches
  have hle : vllm.numAttnLayers ≤ vllm.getNumLayers := List.countP_le_length
  rw [← numAttnLayers_eq_iff]
  constructor
  · rintro ⟨fs, bs, hprefetched⟩
    by_contra hnot
    rw [not_or] at hnot
    -- the wait for the last layer with attention asks for one more cache
    obtain ⟨w', metadata', hrun, -, w'', hwait⟩ := hprefetched.inTime (vllm.numAttnLayers - 1) (by omega)
    obtain ⟨w₂, metadata₂, hrun', hinv'⟩ := hinv.layers (n := vllm.numAttnLayers - 1) (by
      intro j hj
      rw [hw.kvcaches]
      omega)
    rw [hrun] at hrun'
    cases hrun'
    rw [Nat.zero_add] at hinv'
    have herror := hinv'.wait_error (fun hnil => hnot.1 (hfiles.1 hnil)) (by omega) (by
      rw [hw.kvcaches]
      omega)
    rw [herror] at hwait
    cases hwait
  · intro hcond
    have hlayer : ∀ j < vllm.numAttnLayers,
        fileIds = [] ∨ vllm.getNumLayers ≤ 0 + j + 1 ∨ 0 + j + 1 < w.kvcaches.length := by
      intro j hj
      rw [hw.kvcaches]
      rcases hcond with hnil | hall
      · exact Or.inl (hfiles.2 hnil)
      · omega
    have hissued : ∀ j ≤ vllm.numAttnLayers, layerTransfers fileIds (w.loadedBlocks metadata.requests)
        (min j vllm.getNumLayers) = layerTransfers fileIds (w.loadedBlocks metadata.requests) j := by
      intro j hj
      rw [Nat.min_eq_left (hj.trans hle)]
    refine ⟨fileIds, w.loadedBlocks metadata.requests, hinv.reads.loaded, ?_, ?_⟩
    · intro j hj
      obtain ⟨w', metadata', hrun, hinv'⟩ := hinv.layers (n := j) fun k hk => hlayer k (hk.trans hj)
      rw [Nat.zero_add] at hinv'
      refine ⟨w', metadata', hrun, hinv'.issued.trans (hissued (j + 1) hj), hinv'.wait_ok ?_⟩
      have hlayer' := hlayer j hj
      rwa [Nat.zero_add] at hlayer'
    · obtain ⟨w', metadata', hrun, hinv'⟩ := hinv.layers (n := vllm.numAttnLayers) hlayer
      refine ⟨w', metadata', hrun, ?_⟩
      rw [hinv'.issued]
      rcases hcond with hnil | hall
      · rw [hfiles.2 hnil, layerTransfers_nil, layerTransfers_nil]
      · rw [Nat.min_eq_right (by omega), ← hall]

/-! ### Two models -/

/-- A small model with the given layers. -/
def modelOf (layerTypes : List LayerType) : VllmConfig :=
  ⟨['m'], layerTypes, false, 1, 1, 1, 1, 0, 2, Nat.two_pos⟩

/-- A worker for the model in whose store both chunks of `1, 2, 3, 4` have files. -/
def modelWorker (layerTypes : List LayerType) : Worker :=
  let vllm := modelOf layerTypes
  let config : InfiniKVEngineConfig := ⟨2, false, Nat.two_pos⟩
  let w := init config (vllm.engineMetadata config) vllm.connectorNumLayers vllm.blockSize
    (List.replicate vllm.numAttnLayers 16)
  { w with
    infinikvEngine := (w.infinikvEngine.prepareForStore ⟨fun n => some n, fun _ => true⟩ [1, 2, 3, 4]
      none [5, 6] none).2 }

/-- The theorem at a model with two layers of full attention, both chunks loaded. -/
theorem prefetched_iff_full_attention :
    let w := modelWorker [.fullAttention, .fullAttention]
    ∃ w₁ metadata₁ fileIds blockIds,
      w.startLoadKv ⟨fun n => some n, fun _ => true⟩ (0, none) loadMetadata = .ok (w₁, metadata₁) ∧
      w.loadedBlocks loadMetadata.requests = [7, 8] ∧
      Prefetched ⟨fun n => some n, fun _ => true⟩ w w₁ metadata₁ 2 fileIds blockIds := by
  intro w
  have hrun : (w.startLoadKv ⟨fun n => some n, fun _ => true⟩ (0, none) loadMetadata).map
      (fun _ => ()) = .ok () := by decide +kernel
  obtain ⟨⟨w₁, metadata₁⟩, hstart, -⟩ := map_eq_ok.1 hrun
  have hserves : w.Serves (modelOf [.fullAttention, .fullAttention]) :=
    ⟨by decide +kernel, by decide +kernel, by decide +kernel⟩
  obtain ⟨fileIds, blockIds, hprefetched⟩ :=
    (prefetched_iff hserves rfl (by decide +kernel) hstart).2 (Or.inr (by decide))
  exact ⟨w₁, metadata₁, fileIds, blockIds, hstart, by decide +kernel, hprefetched⟩

/-- **A hybrid model**: of its two layers only one has a KV cache, and the wait for this layer asks for
the cache of another. -/
theorem not_prefetched_hybrid :
    let w := modelWorker [.linearAttention, .fullAttention]
    w.Serves (modelOf [.linearAttention, .fullAttention]) ∧
    ∃ w₁ metadata₁,
      w.startLoadKv ⟨fun n => some n, fun _ => true⟩ (0, none) loadMetadata = .ok (w₁, metadata₁) ∧
      w₁.waitForLayerLoad ⟨fun n => some n, fun _ => true⟩ metadata₁ = .error .indexError ∧
      ¬ ∃ fileIds blockIds, Prefetched ⟨fun n => some n, fun _ => true⟩ w w₁ metadata₁
        (modelOf [.linearAttention, .fullAttention]).numAttnLayers fileIds blockIds := by
  intro w
  have hrun : (w.startLoadKv ⟨fun n => some n, fun _ => true⟩ (0, none) loadMetadata).map
      (fun r => (r.1.waitForLayerLoad ⟨fun n => some n, fun _ => true⟩ r.2).map fun _ => ()) =
      .ok (.error .indexError) := by decide +kernel
  obtain ⟨⟨w₁, metadata₁⟩, hstart, hwait⟩ := map_eq_ok.1 hrun
  have herror := map_eq_error.1 hwait
  refine ⟨⟨by decide +kernel, by decide +kernel, by decide +kernel⟩, w₁, metadata₁, hstart, herror, ?_⟩
  rintro ⟨fileIds, blockIds, hprefetched⟩
  obtain ⟨w', metadata', hlayers, -, w'', hok⟩ := hprefetched.inTime 0 (by decide)
  cases hlayers
  rw [herror] at hok
  cases hok

end Worker

end InfiniKV
