/-
**Which loads fail silently.**

The scheduler counts the tokens of an external hit as computed before the worker has read them.  The
worker may then find fewer chunks than the scheduler saw, or a read may fail; a block that was not
filled has to be reported by `get_block_ids_with_load_errors`, which reports nothing.

Main definitions:

* `InfiniKV.getBlockIdsWithLoadErrors` — the blocks reported;
* `InfiniKV.Worker.neededBlocks`, `loadedBlocks` — the blocks that the load specs of a step ask for,
  and those that the store can fill;
* `InfiniKV.Worker.LoadsReported` — every block asked for is filled in every layer, or reported;
* `InfiniKV.Worker.LoadsComplete` — **the condition**: nothing is asked for, or every read succeeds and
  every block asked for is one the store can fill.

Main results:

* `InfiniKV.Worker.forwardPass_reads` — the reads of a forward pass: one per layer, of all files;
* `InfiniKV.Worker.loadsReported_iff` — **no load fails silently exactly when the condition holds**.
-/

import InfiniKV.Pairing

set_option relaxedAutoImplicit false
set_option autoImplicit false

namespace InfiniKV

/-- `get_block_ids_with_load_errors`. -/
def getBlockIdsWithLoadErrors : Finset ℕ := ∅

namespace Worker

open InfiniKVEngine

variable (ops : GeminiFSOps) (w : Worker)

/-! ### Blocks to load -/

/-- The number of chunks that can be loaded for a request. -/
def loadedCount (request : ReqMeta) (loadSpec : LoadSpec) : ℕ :=
  let X := request.tokenIds.take loadSpec.externalCachedTokens
  w.infinikvEngine.storedRun X
    (min (w.maskedTokenCount loadSpec) X.length / w.infinikvEngine.tokenDatabase.chunkSize)

/-- The blocks that the store can fill, for the load specs of a step. -/
def loadedBlocks (requests : List ReqMeta) : List ℕ :=
  requests.flatMap fun r => match r.loadSpec with
    | none => []
    | some s => r.blockIds.take (w.loadedCount r s)

/-- The blocks that the load specs of a step ask for: those of the tokens between the local and the
external hit. -/
def neededBlocks (requests : List ReqMeta) : List ℕ :=
  requests.flatMap fun r => match r.loadSpec with
    | none => []
    | some s => (r.blockIds.take (cdiv s.externalCachedTokens w.infinikvChunkSize)).drop
        (s.vllmCachedTokens / w.infinikvChunkSize)

variable {ops w}

/-- The blocks of the transfers of a request are the first blocks of its table. -/
theorem map_blockId_requestTransfers {request : ReqMeta} {loadSpec : LoadSpec}
    {ts : List ChunkTransfer} (h : w.requestTransfers request loadSpec = .ok ts) :
    ts.map (·.blockId) = request.blockIds.take (w.loadedCount request loadSpec) := by
  obtain ⟨k, hk⟩ := w.infinikvEngine.exists_numFalses_of_loadTransfers h
  have hcount : w.loadedCount request loadSpec =
      w.infinikvEngine.storedRun (request.tokenIds.take loadSpec.externalCachedTokens) k := by
    have hk' := hk
    rw [take_skipMask, numFalses_skipMask] at hk'
    rw [loadedCount, List.length_take, hk',
      Nat.mul_div_cancel _ w.infinikvEngine.tokenDatabase.chunkSize_pos]
  obtain ⟨-, -, hblocks⟩ := w.infinikvEngine.loadTransfers_spec hk h
  have hlen : ts.length = w.loadedCount request loadSpec := by
    rw [hcount]
    exact w.infinikvEngine.length_of_loadTransfers hk h
  refine List.ext_getElem? fun i => ?_
  rw [List.getElem?_map, List.getElem?_take, ← hlen]
  split
  · rename_i hi
    obtain ⟨t, ht⟩ : ∃ t, ts[i]? = some t := ⟨_, List.getElem?_eq_getElem hi⟩
    rw [ht, hblocks i t ht]
    rfl
  · rename_i hi
    rw [List.getElem?_eq_none (by omega)]
    rfl

/-- The files and blocks that the loop of `_prepare_for_load` collects. -/
theorem loadRequests_spec {rs rs' : List ReqMeta} {fileIds : List GPUFileMetadata}
    {blockIds : List ℕ} (h : w.loadRequests rs = .ok (rs', fileIds, blockIds)) :
    blockIds = w.loadedBlocks rs ∧ fileIds.length = blockIds.length ∧
      loadedFiles rs' = .ok (fileIds, blockIds) := by
  induction rs generalizing rs' fileIds blockIds with
  | nil =>
      cases h
      exact ⟨rfl, rfl, rfl⟩
  | cons r rs ih =>
      rw [loadRequests] at h
      obtain ⟨⟨r', fs, bs⟩, hr, h⟩ := bind_eq_ok.1 h
      obtain ⟨⟨rs₂, fs₂, bs₂⟩, hrs, h⟩ := bind_eq_ok.1 h
      cases h
      obtain ⟨hblocks, hlen, hfiles⟩ := ih hrs
      rcases loadRequest_cases hr with ⟨hs, rfl, rfl, rfl⟩ | ⟨s, ts, hs, hts, rfl, rfl, rfl⟩
      · refine ⟨?_, hlen, ?_⟩
        · rw [loadedBlocks, List.flatMap_cons, hs]
          exact hblocks
        · rw [loadedFiles, hs]
          exact hfiles
      · refine ⟨?_, ?_, ?_⟩
        · rw [loadedBlocks, List.flatMap_cons, hs, map_blockId_requestTransfers hts, hblocks]
          rfl
        · rw [List.length_append, List.length_append, hlen, List.length_map, List.length_map]
        · simp only [loadedFiles, hfiles]
          rfl

/-! ### The reads of a forward pass -/

/-- Saving the requests leaves what their load specs list. -/
theorem loadedFiles_saveRequests {c : ℕ} {e e' : InfiniKVEngine} {rs rs' : List ReqMeta}
    {tasks : List IOSpec} (h : saveRequests ops c e rs = .ok (rs', tasks, e')) :
    loadedFiles rs' = loadedFiles rs := by
  induction rs generalizing e rs' tasks with
  | nil =>
      cases h
      rfl
  | cons r rs ih =>
      rw [saveRequests] at h
      obtain ⟨⟨r₁, tasks₁, e₁⟩, h₁, h⟩ := bind_eq_ok.1 h
      obtain ⟨⟨rs₂, tasks₂, e₂⟩, h₂, h⟩ := bind_eq_ok.1 h
      cases h
      have hload : r₁.loadSpec = r.loadSpec := by
        rcases saveRequest_cases h₁ with ⟨-, rfl, -, -⟩ | ⟨s, ts, b, -, -, -, -, -, rfl⟩
        · rfl
        · rfl
      rw [loadedFiles, loadedFiles, hload, ih h₂]

/-- The reads of the first `m` layers, after `n` earlier reads. -/
def layerReads (ops : GeminiFSOps) (useMla : Bool) (fileIds : List GPUFileMetadata)
    (blockIds : List ℕ) (n m : ℕ) : List (BatchedXfer × Bool) :=
  (List.range m).map fun l =>
    (⟨useMla, fileIds.map (·.id), blockIds, l⟩, ops.geminifsBatchedRead (n + l))

theorem layerReads_succ (useMla : Bool) (fileIds : List GPUFileMetadata) (blockIds : List ℕ)
    (n m : ℕ) :
    layerReads ops useMla fileIds blockIds n (m + 1) = layerReads ops useMla fileIds blockIds n m ++
      [(⟨useMla, fileIds.map (·.id), blockIds, m⟩, ops.geminifsBatchedRead (n + m))] := by
  rw [layerReads, List.range_succ, List.map_append]
  rfl

/-- What is kept while the layers of a forward pass are run through, when layer `i` is next: the
engine has issued the reads of the layers up to `i`, as far as there are layers. -/
structure ReadInv (ops : GeminiFSOps) (w : Worker) (metadata : InfiniKVConnectorMetadata)
    (reads₀ : List (BatchedXfer × Bool)) (numLayers : ℕ) (useMla : Bool)
    (fileIds : List GPUFileMetadata) (blockIds : List ℕ) (i : ℕ) : Prop where
  currentLayer : w.currentLayer = i
  engineLayers : w.infinikvEngine.numLayers = numLayers
  backendLayers : w.infinikvEngine.storageBackend.numLayers = numLayers
  useMla_eq : w.infinikvEngine.storageBackend.useMla = useMla
  loaded : loadedFiles metadata.requests = .ok (fileIds, blockIds)
  reads : w.infinikvEngine.storageBackend.reads =
    reads₀ ++ if fileIds = [] then [] else
      layerReads ops useMla fileIds blockIds reads₀.length (min (i + 1) numLayers)

variable {reads₀ : List (BatchedXfer × Bool)} {numLayers : ℕ} {useMla : Bool}
  {fileIds : List GPUFileMetadata} {blockIds : List ℕ} {i : ℕ}

/-- A retrieval that follows the reads of the layers up to `i`. -/
theorem retrieveLayer_reads {e e' : InfiniKVEngine} {kvcaches : List KVCache}
    (h : e.retrieveLayer ops kvcaches ((i : ℤ) - 1) fileIds blockIds = .ok e')
    (hengine : e.numLayers = numLayers) (hbackend : e.storageBackend.numLayers = numLayers)
    (hmla : e.storageBackend.useMla = useMla)
    (hreads : e.storageBackend.reads =
      reads₀ ++ layerReads ops useMla fileIds blockIds reads₀.length (min i numLayers)) :
    ∃ reads, e' = e.withReads reads ∧
      reads = reads₀ ++ layerReads ops useMla fileIds blockIds reads₀.length (min (i + 1) numLayers) := by
  rcases e.retrieveLayer_cases ops h with ⟨hlast, rfl⟩ | ⟨-, hlt, rfl⟩
  · refine ⟨e'.storageBackend.reads, rfl, ?_⟩
    rw [hreads, show min (i + 1) numLayers = min i numLayers by omega]
  · refine ⟨_, rfl, ?_⟩
    have hi : i < numLayers := by omega
    have hlen : e.storageBackend.reads.length = reads₀.length + i := by
      rw [hreads, List.length_append, layerReads, List.length_map, List.length_range, Nat.min_eq_left
        (Nat.le_of_lt hi)]
    rw [hlen, hreads, Nat.min_eq_left (Nat.le_of_lt hi), Nat.min_eq_left hi, layerReads_succ,
      List.append_assoc, hmla, show ((i : ℤ) - 1 + 1).toNat = i by omega]

/-- One more layer. -/
theorem readInv_layer {metadata metadata' : InfiniKVConnectorMetadata} {w₁ w' : Worker}
    (hinv : ReadInv ops w metadata reads₀ numLayers useMla fileIds blockIds i)
    (hwait : w.waitForLayerLoad ops metadata = .ok w₁)
    (hsave : w₁.saveKvLayer metadata = .ok (w', metadata')) :
    ReadInv ops w' metadata' reads₀ numLayers useMla fileIds blockIds (i + 1) ∧
      w'.numLayers = w.numLayers := by
  -- the wait issues the read of the next layer
  have hw₁ : ∃ reads, w₁ = { w with infinikvEngine := w.infinikvEngine.withReads reads } ∧
      reads = reads₀ ++ if fileIds = [] then [] else
        layerReads ops useMla fileIds blockIds reads₀.length (min (i + 1 + 1) numLayers) := by
    rw [waitForLayerLoad] at hwait
    split at hwait
    · cases hwait
    · obtain ⟨⟨fs, bs⟩, hload, hwait⟩ := bind_eq_ok.1 hwait
      rw [hinv.loaded] at hload
      cases hload
      have hreads := hinv.reads
      by_cases hnil : fileIds = []
      · simp only [if_pos hnil] at hwait hreads ⊢
        cases hwait
        exact ⟨_, rfl, hreads⟩
      · simp only [if_neg hnil] at hwait hreads ⊢
        obtain ⟨e', he, hwait⟩ := bind_eq_ok.1 hwait
        cases hwait
        have hcast : (w.currentLayer : ℤ) = ((i + 1 : ℕ) : ℤ) - 1 := by
          rw [hinv.currentLayer]
          omega
        rw [hcast] at he
        obtain ⟨reads, rfl, heq⟩ := retrieveLayer_reads he hinv.engineLayers hinv.backendLayers
          hinv.useMla_eq hreads
        exact ⟨reads, rfl, heq⟩
  obtain ⟨reads, rfl, hreads⟩ := hw₁
  -- saving the layer leaves the reads and counts the layer
  rcases saveKvLayer_cases hsave with ⟨-, rfl, rfl⟩ | ⟨_, _, _, -, -, -, -, rfl, rfl⟩
  · exact ⟨⟨congrArg (· + 1) hinv.currentLayer, hinv.engineLayers, hinv.backendLayers, hinv.useMla_eq,
      hinv.loaded, hreads⟩, rfl⟩
  · exact ⟨⟨congrArg (· + 1) hinv.currentLayer, hinv.engineLayers, hinv.backendLayers, hinv.useMla_eq,
      hinv.loaded, hreads⟩, rfl⟩

/-- Any number of layers. -/
theorem readInv_layers {n : ℕ} {metadata metadata' : InfiniKVConnectorMetadata} {w' : Worker}
    (hinv : ReadInv ops w metadata reads₀ numLayers useMla fileIds blockIds i)
    (h : forwardLayers ops n w metadata = .ok (w', metadata')) :
    ReadInv ops w' metadata' reads₀ numLayers useMla fileIds blockIds (i + n) := by
  induction n generalizing w metadata i with
  | zero =>
      cases h
      exact hinv
  | succ n ih =>
      obtain ⟨w₁, hwait, h⟩ := bind_eq_ok.1 h
      obtain ⟨⟨w₂, metadata₂⟩, hsave, h⟩ := bind_eq_ok.1 h
      have hnext := ih (readInv_layer hinv hwait hsave).1 h
      rw [show i + (n + 1) = i + 1 + n by omega]
      exact hnext

/-- `start_load_kv` issues the read of the first layer. -/
theorem readInv_startLoadKv {outcome : ℕ × Option CudaStream}
    {metadata metadata' : InfiniKVConnectorMetadata} {w' : Worker}
    (hengine : w.infinikvEngine.numLayers = numLayers)
    (hbackend : w.infinikvEngine.storageBackend.numLayers = numLayers)
    (h : w.startLoadKv ops outcome metadata = .ok (w', metadata')) :
    ∃ fileIds, fileIds.length = (w.loadedBlocks metadata.requests).length ∧
      ReadInv ops w' metadata' w.infinikvEngine.storageBackend.reads numLayers
        w.infinikvEngine.storageBackend.useMla fileIds (w.loadedBlocks metadata.requests) 0 ∧
      w'.numLayers = w.numLayers := by
  obtain ⟨⟨w₁, metadata₁⟩, hload, h⟩ := bind_eq_ok.1 h
  simp only [prepareForLoad] at hload
  split at hload
  · cases hload
  · obtain ⟨⟨requests, fileIds, blockIds⟩, hrs, hload⟩ := bind_eq_ok.1 hload
    obtain ⟨hblocks, hlen, hfiles⟩ := loadRequests_spec hrs
    change blockIds = w.loadedBlocks metadata.requests at hblocks
    subst hblocks
    -- the engine after the loads have been prepared
    have hw₁ : ∃ reads, w₁ = { w with
          currentLayer := 0
          infinikvEngine := w.infinikvEngine.withReads reads } ∧
        metadata₁ = { metadata with requests } ∧
        reads = w.infinikvEngine.storageBackend.reads ++ if fileIds = [] then [] else
          layerReads ops w.infinikvEngine.storageBackend.useMla fileIds
            (w.loadedBlocks metadata.requests) w.infinikvEngine.storageBackend.reads.length
            (min (0 + 1) numLayers) := by
      by_cases hnil : fileIds = []
      · simp only [if_pos hnil] at hload ⊢
        cases hload
        exact ⟨_, rfl, rfl, (List.append_nil _).symm⟩
      · simp only [if_neg hnil] at hload ⊢
        obtain ⟨e', he, hload⟩ := bind_eq_ok.1 hload
        cases hload
        obtain ⟨reads, rfl, heq⟩ := retrieveLayer_reads (i := 0) he hengine hbackend rfl
          (by rw [Nat.zero_min]; exact (List.append_nil _).symm)
        exact ⟨reads, rfl, rfl, heq⟩
    obtain ⟨reads, rfl, rfl, hreads⟩ := hw₁
    obtain ⟨requests', ioTasks, engine, hsave, hcases⟩ := prepareForSave_cases h
    obtain ⟨hsame, -, hnum, -, -⟩ := saveRequests_spec hsave
    have hfiles' := (loadedFiles_saveRequests hsave).trans hfiles
    refine ⟨fileIds, hlen, ?_⟩
    rcases hcases with ⟨-, rfl, rfl⟩ | ⟨q', -, -, rfl, rfl⟩
    · exact ⟨⟨rfl, hnum.trans hengine, hsame.numLayers.trans hbackend, hsame.useMla, hfiles',
        hsame.reads.trans hreads⟩, rfl⟩
    · exact ⟨⟨rfl, hnum.trans hengine, hsame.numLayers.trans hbackend, hsame.useMla, hfiles',
        hsame.reads.trans hreads⟩, rfl⟩

/-- **The reads of a forward pass**: none, when nothing can be loaded; otherwise one per layer, of all
the blocks that can be loaded. -/
theorem forwardPass_reads {outcome : ℕ × Option CudaStream}
    {metadata metadata' : InfiniKVConnectorMetadata} {w' : Worker}
    (hengine : w.infinikvEngine.numLayers = numLayers)
    (hbackend : w.infinikvEngine.storageBackend.numLayers = numLayers)
    (h : w.forwardPass ops outcome metadata = .ok (w', metadata')) :
    ∃ fileIds, fileIds.length = (w.loadedBlocks metadata.requests).length ∧
      w'.infinikvEngine.storageBackend.reads = w.infinikvEngine.storageBackend.reads ++
        if fileIds = [] then [] else
          layerReads ops w.infinikvEngine.storageBackend.useMla fileIds
            (w.loadedBlocks metadata.requests) w.infinikvEngine.storageBackend.reads.length
            (min (w.numLayers + 1) numLayers) := by
  obtain ⟨⟨w₁, metadata₁⟩, hstart, h⟩ := bind_eq_ok.1 h
  obtain ⟨fileIds, hlen, hinv, hnum⟩ := readInv_startLoadKv hengine hbackend hstart
  have hend := readInv_layers hinv h
  simp only [hnum, Nat.zero_add] at hend
  exact ⟨fileIds, hlen, hend.reads⟩

/-! ### What is reported -/

/-- **No silent load failure**: each block asked for is the target of a successful read of every layer
in this step, or it is reported. -/
def LoadsReported (w w' : Worker) (requests : List ReqMeta) : Prop :=
  ∀ b ∈ w.neededBlocks requests,
    (∀ l < w.numLayers, ∃ x ∈ w'.infinikvEngine.storageBackend.reads.drop
      w.infinikvEngine.storageBackend.reads.length, x.1.layer = l ∧ b ∈ x.1.blockIds ∧ x.2 = true) ∨
    b ∈ getBlockIdsWithLoadErrors

/-- **The condition**: no block is asked for; or every read of a layer succeeds, and the store can fill
every block asked for. -/
def LoadsComplete (ops : GeminiFSOps) (w : Worker) (requests : List ReqMeta) : Prop :=
  w.neededBlocks requests = [] ∨
    (∀ l < w.numLayers,
      ops.geminifsBatchedRead (w.infinikvEngine.storageBackend.reads.length + l) = true) ∧
    w.neededBlocks requests ⊆ w.loadedBlocks requests

theorem mem_layerReads {n m : ℕ} {x : BatchedXfer × Bool} :
    x ∈ layerReads ops useMla fileIds blockIds n m ↔
      ∃ l < m, x = (⟨useMla, fileIds.map (·.id), blockIds, l⟩, ops.geminifsBatchedRead (n + l)) := by
  rw [layerReads, List.mem_map]
  constructor
  · rintro ⟨l, hl, rfl⟩
    exact ⟨l, List.mem_range.1 hl, rfl⟩
  · rintro ⟨l, hl, rfl⟩
    exact ⟨l, List.mem_range.2 hl, rfl⟩

/-- **Exactly when no load fails silently**, for a forward pass of a model with at least one attention
layer, all of which the store keeps. -/
theorem loadsReported_iff (ops : GeminiFSOps) (w w' : Worker) (outcome : ℕ × Option CudaStream)
    (metadata metadata' : InfiniKVConnectorMetadata)
    (hengine : w.infinikvEngine.numLayers = w.infinikvEngine.storageBackend.numLayers)
    (hpos : 0 < w.numLayers) (hlayers : w.numLayers ≤ w.infinikvEngine.numLayers)
    (h : w.forwardPass ops outcome metadata = .ok (w', metadata')) :
    LoadsReported w w' metadata.requests ↔ LoadsComplete ops w metadata.requests := by
  obtain ⟨fileIds, hlen, hreads⟩ := forwardPass_reads hengine rfl h
  have hmin : w.numLayers ≤ min (w.numLayers + 1) w.infinikvEngine.storageBackend.numLayers := by
    omega
  unfold LoadsReported
  rw [hreads, List.drop_left]
  constructor
  · intro hreported
    rcases List.eq_nil_or_concat (w.neededBlocks metadata.requests) with hnil | ⟨_, b₀, hb₀⟩
    · exact Or.inl hnil
    · -- nothing is reported, so each block asked for was read in every layer
      have hread : ∀ b ∈ w.neededBlocks metadata.requests, ∀ l < w.numLayers,
          b ∈ w.loadedBlocks metadata.requests ∧
          ops.geminifsBatchedRead (w.infinikvEngine.storageBackend.reads.length + l) = true := by
        intro b hb l hl
        rcases hreported b hb with hok | herr
        · obtain ⟨x, hx, hxl, hxb, hxok⟩ := hok l hl
          split at hx
          · cases hx
          · obtain ⟨l', -, rfl⟩ := mem_layerReads.1 hx
            cases hxl
            exact ⟨hxb, hxok⟩
        · cases herr
      refine Or.inr ⟨?_, ?_⟩
      · intro l hl
        exact (hread b₀ (by rw [hb₀]; simp) l hl).2
      · intro b hb
        exact (hread b hb 0 hpos).1
  · rintro (hnil | ⟨hok, hsub⟩) b hb
    · rw [hnil] at hb
      cases hb
    · refine Or.inl fun l hl => ?_
      have hne : fileIds ≠ [] := by
        rintro rfl
        have := List.length_pos_of_mem (hsub hb)
        rw [← hlen] at this
        cases this
      rw [if_neg hne]
      exact ⟨_, mem_layerReads.2 ⟨l, by omega, rfl⟩, rfl, hsub hb, hok l hl⟩

/-- The metadata of a step that loads both chunks of `1, 2, 3, 4`. -/
def loadMetadata : InfiniKVConnectorMetadata where
  requests := [loadRequestAfter 0]
  numTotalScheduledTokens := 1
  stage := .prefill
  ioCount := 0
  saveStream := none
  ioTasks := none

/-- The theorem at a step whose chunks are both in the store and whose reads succeed. -/
theorem loadsReported_iff_stored :
    ∃ w' metadata', storedWorker.forwardPass ⟨fun n => some n, fun _ => true⟩ (0, none) loadMetadata =
      .ok (w', metadata') ∧ LoadsReported storedWorker w' loadMetadata.requests := by
  have hrun : (storedWorker.forwardPass ⟨fun n => some n, fun _ => true⟩ (0, none) loadMetadata).map
      (fun _ => ()) = .ok () := by decide +kernel
  obtain ⟨⟨w', metadata'⟩, hpass, -⟩ := map_eq_ok.1 hrun
  refine ⟨w', metadata', hpass, (loadsReported_iff _ storedWorker w' _ loadMetadata metadata'
    (by decide +kernel) (by decide) (by decide) hpass).2 (Or.inr ⟨fun _ _ => rfl, ?_⟩)⟩
  show loadMetadata.requests.flatMap _ ⊆ loadMetadata.requests.flatMap _
  decide +kernel

/-- **A load that fails silently**: the store has none of the chunks, nothing is read, and nothing is
reported. -/
theorem silent_load_failure :
    let w := { storedWorker with infinikvEngine := emptyEngine }
    ∃ w' metadata', w.forwardPass ⟨fun n => some n, fun _ => true⟩ (0, none) loadMetadata =
      .ok (w', metadata') ∧ ¬ LoadsReported w w' loadMetadata.requests := by
  intro w
  have hrun : (w.forwardPass ⟨fun n => some n, fun _ => true⟩ (0, none) loadMetadata).map
      (fun r => r.1.infinikvEngine.storageBackend.reads) = .ok [] := by decide +kernel
  obtain ⟨⟨w', metadata'⟩, hpass, hreads⟩ := map_eq_ok.1 hrun
  refine ⟨w', metadata', hpass, ?_⟩
  intro hreported
  rcases hreported 7 (by decide) with hok | herr
  · obtain ⟨x, hx, -⟩ := hok 0 (by decide)
    simp only at hreads
    rw [hreads] at hx
    cases hx
  · cases herr

end Worker

end InfiniKV
