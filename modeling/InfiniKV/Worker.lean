/-
**The worker side of the connector.**

At the start of a forward pass the worker prepares the loads and the saves of the step: it collects
the files to load and reads the first layer, opens files for the chunks to save, queues their tasks,
asks the simulator for a stream, and pops the queue if there is one.  Then, for every attention
layer, it starts the read of the next layer and writes the current one.

The outcome of `Simulator.execute`, an estimate in floating point, is an input of the step.

Main definitions:

* `InfiniKV.Worker` — the state of the worker side of `InfiniKVConnectorV1Impl`;
* `InfiniKV.Worker.prepareForLoad`, `prepareForSave`, `startLoadKv`, `waitForLayerLoad`,
  `saveKvLayer` — the source's functions;
* `InfiniKV.Worker.workerStep` — `start_load_kv`, then `save_kv_layer` once per attention layer;
* `InfiniKV.Worker.forwardPass` — the same, with `wait_for_layer_load` before each `save_kv_layer`.

Main results:

* `InfiniKV.Worker.prepareForLoad_frame` — preparing the loads issues reads and changes nothing else;
* `InfiniKV.Worker.prepareForSave_cases` — **what preparing the saves does**, with and without a
  stream;
* `InfiniKV.Worker.saveKvLayer_cases` — a layer is written, or nothing happens.
-/

import InfiniKV.ConnectorMetadata
import InfiniKV.Engine

set_option relaxedAutoImplicit false
set_option autoImplicit false

namespace InfiniKV

/-- The worker side of the connector. -/
structure Worker where
  infinikvEngine : InfiniKVEngine
  taskQueue : TaskQueueforSave
  numLayers : ℕ
  infinikvChunkSize : ℕ
  kvcaches : List KVCache
  currentLayer : ℕ

namespace Worker

/-- `InfiniKVConnectorV1Impl.__init__` on the worker, for a model with `numLayers` attention
layers. -/
def init (config : InfiniKVEngineConfig) (metadata : InfiniKVEngineMetadata)
    (numLayers blockSize : ℕ) (kvcaches : List KVCache) : Worker where
  infinikvEngine := .init config metadata
  taskQueue := .init numLayers
  numLayers := numLayers
  infinikvChunkSize := blockSize
  kvcaches := kvcaches
  currentLayer := 0

variable (ops : GeminiFSOps) (w : Worker)

/-! ### Preparing the loads -/

/-- The number of leading tokens of a request that the load mask skips. -/
def maskedTokenCount (loadSpec : LoadSpec) : ℕ :=
  loadSpec.vllmCachedTokens / w.infinikvChunkSize * w.infinikvChunkSize

/-- The transfers that `_prepare_for_load` obtains for a request. -/
def requestTransfers (request : ReqMeta) (loadSpec : LoadSpec) : Except PyError (List ChunkTransfer) :=
  let tokenMask := skipMask (w.maskedTokenCount loadSpec) request.tokenIds.length
  w.infinikvEngine.loadTransfers (request.tokenIds.take loadSpec.externalCachedTokens)
    (some (tokenMask.take loadSpec.externalCachedTokens)) request.blockIds

/-- The body of the loop of `_prepare_for_load`: the request with its load spec filled in, and the
files and blocks found for it. -/
def loadRequest (request : ReqMeta) : Except PyError (ReqMeta × List GPUFileMetadata × List ℕ) :=
  match request.loadSpec with
  | none => .ok (request, [], [])
  | some loadSpec =>
      let tokenMask := skipMask (w.maskedTokenCount loadSpec) request.tokenIds.length
      do
        let (_, fileIds, blockIdsToLoad) ← w.infinikvEngine.prepareForLoad
          (request.tokenIds.take loadSpec.externalCachedTokens)
          (some (tokenMask.take loadSpec.externalCachedTokens)) request.blockIds
        .ok ({ request with loadSpec := some { loadSpec with
          gpuFiles := some fileIds
          blockIdsToLoad := some blockIdsToLoad } }, fileIds, blockIdsToLoad)

/-- The loop of `_prepare_for_load`. -/
def loadRequests : List ReqMeta → Except PyError (List ReqMeta × List GPUFileMetadata × List ℕ)
  | [] => .ok ([], [], [])
  | request :: rest => do
      let (request, fileIds, blockIds) ← w.loadRequest request
      let (rest, fileIds', blockIds') ← loadRequests rest
      .ok (request :: rest, fileIds ++ fileIds', blockIds ++ blockIds')

/-- `_prepare_for_load`. -/
def prepareForLoad (metadata : InfiniKVConnectorMetadata) :
    Except PyError (Worker × InfiniKVConnectorMetadata) :=
  if w.kvcaches = [] then .error (.assertionError "")
  else do
    let (requests, allReqFileIds, allReqBlockIds) ← w.loadRequests metadata.requests
    if allReqFileIds = [] then .ok (w, { metadata with requests })
    else do
      let engine ← w.infinikvEngine.retrieveLayer ops w.kvcaches (-1) allReqFileIds allReqBlockIds
      .ok ({ w with infinikvEngine := engine }, { metadata with requests })

/-! ### Preparing the saves -/

/-- The body of the loop of `_prepare_for_save`: the request with its save spec filled in, the tasks
made for it, and the engine. -/
def saveRequest (chunkSize : ℕ) (engine : InfiniKVEngine) (request : ReqMeta) :
    Except PyError (ReqMeta × List IOSpec × InfiniKVEngine) :=
  match request.saveSpec with
  | none => .ok (request, [], engine)
  | some saveSpec =>
      if saveSpec.canSave = false then .ok (request, [], engine)
      else if saveSpec.skipLeadingTokens = request.tokenIds.length then .ok (request, [], engine)
      else
        let skipLeadingTokens := saveSpec.skipLeadingTokens / chunkSize * chunkSize
        let storeMask := skipMask skipLeadingTokens request.tokenIds.length
        match engine.prepareForStore ops request.tokenIds (some storeMask) request.blockIds
            (some skipLeadingTokens) with
        | (.error err, _) => .error err
        | (.ok (gpuFiles, blockIdsToSave), engine) =>
            if gpuFiles = [] then
              .ok ({ request with saveSpec := some { saveSpec with canSave := false } }, [], engine)
            else
              .ok ({ request with saveSpec := some { saveSpec with
                  gpuFiles := some gpuFiles
                  blockIdsToSave := some blockIdsToSave } },
                (gpuFiles.zip blockIdsToSave).map (fun (gpuFile, blockId) => ⟨gpuFile, blockId, 0, ""⟩),
                engine)

/-- The loop of `_prepare_for_save`. -/
def saveRequests (chunkSize : ℕ) : InfiniKVEngine → List ReqMeta →
    Except PyError (List ReqMeta × List IOSpec × InfiniKVEngine)
  | engine, [] => .ok ([], [], engine)
  | engine, request :: rest => do
      let (request, ioTasks, engine) ← saveRequest ops chunkSize engine request
      let (rest, ioTasks', engine) ← saveRequests chunkSize engine rest
      .ok (request :: rest, ioTasks ++ ioTasks', engine)

/-- `_prepare_for_save`, when `Simulator.execute` returns `outcome`.  The number of tasks that the
simulator allows for is not used. -/
def prepareForSave (outcome : ℕ × Option CudaStream) (metadata : InfiniKVConnectorMetadata) :
    Except PyError (Worker × InfiniKVConnectorMetadata) := do
  let (requests, ioTasks, engine) ← saveRequests ops w.infinikvChunkSize w.infinikvEngine metadata.requests
  let taskQueue := if ioTasks.length > 0 then w.taskQueue.submitTasks ioTasks else w.taskQueue
  match outcome.2 with
  | none => .ok ({ w with infinikvEngine := engine, taskQueue := taskQueue },
      { metadata with requests, ioCount := 0, ioTasks := none, saveStream := none })
  | some _ => do
      let ioCount := taskQueue.getExistIoNum
      let (tasks, taskQueue) ← taskQueue.getNextNtasks ioCount
      .ok ({ w with infinikvEngine := engine, taskQueue := taskQueue },
        { metadata with requests, ioCount := ioCount, ioTasks := some tasks })

/-- `start_load_kv`. -/
def startLoadKv (outcome : ℕ × Option CudaStream) (metadata : InfiniKVConnectorMetadata) :
    Except PyError (Worker × InfiniKVConnectorMetadata) := do
  let (w, metadata) ← { w with currentLayer := 0 }.prepareForLoad ops metadata
  w.prepareForSave ops outcome metadata

/-! ### Layers -/

/-- The files and blocks that `wait_for_layer_load` collects from the load specs. -/
def loadedFiles : List ReqMeta → Except PyError (List GPUFileMetadata × List ℕ)
  | [] => .ok ([], [])
  | request :: rest =>
      match request.loadSpec with
      | none => loadedFiles rest
      | some loadSpec =>
          match loadSpec.gpuFiles, loadSpec.blockIdsToLoad with
          | some fileIds, some blockIds =>
              (loadedFiles rest).map fun (fileIds', blockIds') => (fileIds ++ fileIds', blockIds ++ blockIds')
          | _, _ => .error .typeError

/-- `wait_for_layer_load`. -/
def waitForLayerLoad (metadata : InfiniKVConnectorMetadata) : Except PyError Worker :=
  if w.kvcaches = [] then .error (.assertionError "")
  else do
    let (allReqFileIds, allReqBlockIds) ← loadedFiles metadata.requests
    if allReqFileIds = [] then .ok w
    else do
      let engine ← w.infinikvEngine.retrieveLayer ops w.kvcaches w.currentLayer allReqFileIds
        allReqBlockIds
      .ok { w with infinikvEngine := engine }

/-- A task after its layer was written. -/
def advance (numLayers : ℕ) (t : IOSpec) : IOSpec :=
  if t.layer < numLayers then { t with layer := t.layer + 1 } else t

/-- `save_kv_layer`: without a stream in the metadata nothing is written. -/
def saveKvLayer (metadata : InfiniKVConnectorMetadata) :
    Except PyError (Worker × InfiniKVConnectorMetadata) :=
  if w.kvcaches = [] then .error (.assertionError "")
  else
    let w := { w with currentLayer := w.currentLayer + 1 }
    match metadata.ioTasks with
    | none => .ok (w, metadata)
    | some ioTasks =>
        if metadata.ioCount = 0 ∨ metadata.saveStream = none then .ok (w, metadata)
        else
          let active := ioTasks.filter fun t => decide (t.layer < w.numLayers)
          do
            let engine ← w.infinikvEngine.storeLayer w.kvcaches (active.map (·.gpuFile))
              (active.map (·.blockId)) (active.map (·.layer))
            .ok ({ w with infinikvEngine := engine },
              { metadata with ioTasks := some (ioTasks.map (advance w.numLayers)) })

/-- `save_kv_layer`, `n` times. -/
def saveKvLayers : ℕ → Worker → InfiniKVConnectorMetadata →
    Except PyError (Worker × InfiniKVConnectorMetadata)
  | 0, w, metadata => .ok (w, metadata)
  | n + 1, w, metadata => do
      let (w, metadata) ← w.saveKvLayer metadata
      saveKvLayers n w metadata

/-- A step of the worker: `start_load_kv`, then `save_kv_layer` once per attention layer. -/
def workerStep (outcome : ℕ × Option CudaStream) (metadata : InfiniKVConnectorMetadata) :
    Except PyError (Worker × InfiniKVConnectorMetadata) := do
  let (w, metadata) ← w.startLoadKv ops outcome metadata
  saveKvLayers w.numLayers w metadata

/-- `wait_for_layer_load` and `save_kv_layer`, `n` times. -/
def forwardLayers : ℕ → Worker → InfiniKVConnectorMetadata →
    Except PyError (Worker × InfiniKVConnectorMetadata)
  | 0, w, metadata => .ok (w, metadata)
  | n + 1, w, metadata => do
      let w ← w.waitForLayerLoad ops metadata
      let (w, metadata) ← w.saveKvLayer metadata
      forwardLayers n w metadata

/-- A forward pass: `start_load_kv`, then `wait_for_layer_load` and `save_kv_layer` for each attention
layer. -/
def forwardPass (outcome : ℕ × Option CudaStream) (metadata : InfiniKVConnectorMetadata) :
    Except PyError (Worker × InfiniKVConnectorMetadata) := do
  let (w, metadata) ← w.startLoadKv ops outcome metadata
  forwardLayers ops w.numLayers w metadata

/-! ### What preparing the loads changes -/

/-- Two requests that differ in their load specs only. -/
def SameSave (r r' : ReqMeta) : Prop := r' = { r with loadSpec := r'.loadSpec }

variable {ops w}

/-- **What loading a request does**: nothing, or the transfers are collected in its load spec. -/
theorem loadRequest_cases {r r' : ReqMeta} {fileIds : List GPUFileMetadata} {blockIds : List ℕ}
    (h : w.loadRequest r = .ok (r', fileIds, blockIds)) :
    (r.loadSpec = none ∧ r' = r ∧ fileIds = [] ∧ blockIds = []) ∨
      ∃ s ts, r.loadSpec = some s ∧ w.requestTransfers r s = .ok ts ∧
        fileIds = ts.map (·.gpuFile) ∧ blockIds = ts.map (·.blockId) ∧
        r' = { r with loadSpec := some { s with
          gpuFiles := some (ts.map (·.gpuFile))
          blockIdsToLoad := some (ts.map (·.blockId)) } } := by
  rw [loadRequest] at h
  split at h
  · rename_i hnone
    cases h
    exact Or.inl ⟨hnone, rfl, rfl, rfl⟩
  · rename_i s hs
    obtain ⟨_, hprep, h⟩ := bind_eq_ok.1 h
    obtain ⟨ts, hts, rfl⟩ := map_eq_ok.1 hprep
    cases h
    exact Or.inr ⟨s, ts, hs, hts, rfl, rfl, rfl⟩

theorem loadRequest_sameSave {r r' : ReqMeta} {fileIds : List GPUFileMetadata} {blockIds : List ℕ}
    (h : w.loadRequest r = .ok (r', fileIds, blockIds)) : SameSave r r' := by
  rcases loadRequest_cases h with ⟨-, rfl, -, -⟩ | ⟨s, ts, -, -, -, -, rfl⟩
  · rfl
  · rfl

theorem loadRequests_sameSave {rs rs' : List ReqMeta} {fileIds : List GPUFileMetadata}
    {blockIds : List ℕ} (h : w.loadRequests rs = .ok (rs', fileIds, blockIds)) :
    List.Forall₂ SameSave rs rs' := by
  induction rs generalizing rs' fileIds blockIds with
  | nil =>
      cases h
      exact .nil
  | cons r rs ih =>
      rw [loadRequests] at h
      obtain ⟨⟨r', _, _⟩, hr, h⟩ := bind_eq_ok.1 h
      obtain ⟨⟨rs'', _, _⟩, hrs, h⟩ := bind_eq_ok.1 h
      cases h
      exact .cons (loadRequest_sameSave hr) (ih hrs)

/-- **Preparing the loads issues reads and changes nothing else**, except for the load specs. -/
theorem prepareForLoad_frame {metadata metadata' : InfiniKVConnectorMetadata} {w' : Worker}
    (h : w.prepareForLoad ops metadata = .ok (w', metadata')) :
    ∃ reads requests, w' = { w with infinikvEngine := w.infinikvEngine.withReads reads } ∧
      metadata' = { metadata with requests } ∧ List.Forall₂ SameSave metadata.requests requests := by
  rw [prepareForLoad] at h
  split at h
  · cases h
  · obtain ⟨⟨requests, fileIds, blockIds⟩, hrs, h⟩ := bind_eq_ok.1 h
    have hsame := loadRequests_sameSave hrs
    simp only at h
    split at h
    · cases h
      exact ⟨w.infinikvEngine.storageBackend.reads, requests, rfl, rfl, hsame⟩
    · obtain ⟨engine, he, h⟩ := bind_eq_ok.1 h
      cases h
      rcases w.infinikvEngine.retrieveLayer_cases ops he with ⟨-, rfl⟩ | ⟨-, -, rfl⟩
      · exact ⟨w.infinikvEngine.storageBackend.reads, requests, rfl, rfl, hsame⟩
      · exact ⟨_, requests, rfl, rfl, hsame⟩

/-! ### What preparing the saves changes -/

/-- The task made for a transfer. -/
def taskOf (t : ChunkTransfer) : IOSpec := ⟨t.gpuFile, t.blockId, 0, ""⟩

/-- A request is to be saved: it has a save spec that allows it and leaves tokens to save. -/
def Saves (r : ReqMeta) : Prop :=
  ∃ s, r.saveSpec = some s ∧ s.canSave = true ∧ s.skipLeadingTokens ≠ r.tokenIds.length

/-- The mask under which a request is saved. -/
def storeMask (chunkSize : ℕ) (r : ReqMeta) (s : SaveSpec) : List Bool :=
  skipMask (s.skipLeadingTokens / chunkSize * chunkSize) r.tokenIds.length

/-- **What saving a request does**: nothing, or `prepare_for_store` under the store mask, with a task
for each transfer it prepares. -/
theorem saveRequest_cases {c : ℕ} {e e' : InfiniKVEngine} {r r' : ReqMeta} {tasks : List IOSpec}
    (h : saveRequest ops c e r = .ok (r', tasks, e')) :
    (¬ Saves r ∧ r' = r ∧ tasks = [] ∧ e' = e) ∨
      ∃ s ts b, Saves r ∧ r.saveSpec = some s ∧
        e.storeTransfers ops r.tokenIds (some (storeMask c r s)) r.blockIds = (.ok ts, b) ∧
        e' = { e with storageBackend := b } ∧ tasks = ts.map taskOf ∧
        r' = { r with saveSpec := some (if ts = [] then { s with canSave := false } else { s with
          gpuFiles := some (ts.map (·.gpuFile)), blockIdsToSave := some (ts.map (·.blockId)) }) } := by
  rw [saveRequest] at h
  split at h
  · rename_i hnone
    cases h
    refine Or.inl ⟨?_, rfl, rfl, rfl⟩
    rintro ⟨s, hs, -⟩
    rw [hs] at hnone
    cases hnone
  · rename_i s hs
    split at h
    · rename_i hcan
      cases h
      refine Or.inl ⟨?_, rfl, rfl, rfl⟩
      rintro ⟨s', hs', hcan', -⟩
      cases hs.symm.trans hs'
      rw [hcan] at hcan'
      cases hcan'
    · rename_i hcan
      split at h
      · rename_i hskip
        cases h
        refine Or.inl ⟨?_, rfl, rfl, rfl⟩
        rintro ⟨s', hs', -, hskip'⟩
        cases hs.symm.trans hs'
        exact hskip' hskip
      · rename_i hskip
        have hsaves : Saves r := ⟨s, hs, by simpa using hcan, hskip⟩
        refine Or.inr ⟨s, ?_⟩
        simp only [InfiniKVEngine.prepareForStore] at h
        cases hst : e.storeTransfers ops r.tokenIds (some (storeMask c r s)) r.blockIds with
        | mk res b =>
            rw [storeMask] at hst
            rw [hst] at h
            cases res with
            | error err => cases h
            | ok ts =>
                refine ⟨ts, b, hsaves, hs, rfl, ?_⟩
                simp only [Except.map, List.map_eq_nil_iff] at h
                by_cases hts : ts = []
                · rw [if_pos hts] at h
                  cases h
                  exact ⟨rfl, by simp [hts], by rw [if_pos hts]⟩
                · rw [if_neg hts] at h
                  cases h
                  exact ⟨rfl, by simp [List.zip_map', taskOf, Function.comp_def], by rw [if_neg hts]⟩

/-- Saving a request does not depend on its load spec, nor on the reads issued before. -/
theorem saveRequest_withReads (c : ℕ) (e : InfiniKVEngine) (reads : List (BatchedXfer × Bool))
    {r r' : ReqMeta} (h : SameSave r r') :
    saveRequest ops c (e.withReads reads) r' =
      (saveRequest ops c e r).map fun (x, tasks, e') =>
        ({ x with loadSpec := r'.loadSpec }, tasks, e'.withReads reads) := by
  obtain ⟨l, rfl⟩ : ∃ l, r' = { r with loadSpec := l } := ⟨_, h⟩
  obtain ⟨reqId, tokenIds, slotMapping, blockIds, saveSpec, loadSpec⟩ := r
  unfold saveRequest
  cases saveSpec with
  | none => rfl
  | some s =>
      simp only
      split
      · rfl
      · split
        · rfl
        · simp only [InfiniKVEngine.prepareForStore, InfiniKVEngine.storeTransfers_withReads]
          cases e.storeTransfers ops tokenIds
              (some (skipMask (s.skipLeadingTokens / c * c) tokenIds.length)) blockIds with
          | mk res b =>
              cases res with
              | error err => rfl
              | ok ts =>
                  simp only [Except.map]
                  split
                  · rfl
                  · rfl

/-- Saving the requests does not depend on their load specs, nor on the reads issued before. -/
theorem saveRequests_withReads {c : ℕ} {e : InfiniKVEngine} {reads : List (BatchedXfer × Bool)}
    {rs rs' rs'' : List ReqMeta} (h : List.Forall₂ SameSave rs rs') {tasks : List IOSpec}
    {e'' : InfiniKVEngine}
    (hsave : saveRequests ops c (e.withReads reads) rs' = .ok (rs'', tasks, e'')) :
    ∃ x e', saveRequests ops c e rs = .ok (x, tasks, e') ∧ e'' = e'.withReads reads ∧
      List.Forall₂ SameSave x rs'' := by
  induction h generalizing e rs'' tasks e'' with
  | nil =>
      cases hsave
      exact ⟨[], e, rfl, rfl, .nil⟩
  | cons hr hrs ih =>
      rw [saveRequests, saveRequest_withReads c e reads hr] at hsave
      obtain ⟨_, h₁, hsave⟩ := bind_eq_ok.1 hsave
      obtain ⟨⟨r₁, tasks₁, e₁⟩, h₁', rfl⟩ := map_eq_ok.1 h₁
      obtain ⟨⟨_, tasks₂, e₂⟩, h₂, hsave⟩ := bind_eq_ok.1 hsave
      cases hsave
      obtain ⟨x, e', hx, rfl, hsame⟩ := ih h₂
      exact ⟨r₁ :: x, e', by rw [saveRequests, h₁']; simp only [bind, Except.bind, hx], rfl,
        .cons rfl hsame⟩

/-- What saving the requests of a step leaves: every new file has a task, and no task has started. -/
theorem saveRequests_spec {c : ℕ} {e e' : InfiniKVEngine} {rs rs' : List ReqMeta}
    {tasks : List IOSpec} (h : saveRequests ops c e rs = .ok (rs', tasks, e')) :
    e.storageBackend.SameTransfers e'.storageBackend ∧ e'.tokenDatabase = e.tokenDatabase ∧
      e'.numLayers = e.numLayers ∧ (∀ t ∈ tasks, t.layer = 0) ∧
      ∀ key f, e'.storageBackend.get key = some f →
        e.storageBackend.get key = some f ∨ ∃ t ∈ tasks, t.gpuFile = f := by
  induction rs generalizing e rs' tasks with
  | nil =>
      cases h
      exact ⟨.refl _, rfl, rfl, by simp, fun _ _ hf => Or.inl hf⟩
  | cons r rs ih =>
      rw [saveRequests] at h
      obtain ⟨⟨r₁, tasks₁, e₁⟩, h₁, h⟩ := bind_eq_ok.1 h
      obtain ⟨⟨rs₂, tasks₂, e₂⟩, h₂, h⟩ := bind_eq_ok.1 h
      cases h
      obtain ⟨hsame₂, hdb₂, hnum₂, hlayer₂, hget₂⟩ := ih h₂
      rcases saveRequest_cases h₁ with ⟨-, -, rfl, rfl⟩ | ⟨s, ts, b, -, -, hst, rfl, rfl, -⟩
      · exact ⟨hsame₂, hdb₂, hnum₂, hlayer₂, hget₂⟩
      · have hsame₁ := e.storeTransfers_sameTransfers ops r.tokenIds (some (storeMask c r s)) r.blockIds
        rw [hst] at hsame₁
        refine ⟨hsame₁.trans hsame₂, hdb₂, hnum₂, ?_, ?_⟩
        · intro t ht
          rcases List.mem_append.1 ht with ht | ht
          · obtain ⟨x, -, rfl⟩ := List.mem_map.1 ht
            rfl
          · exact hlayer₂ t ht
        · intro key f hf
          rcases hget₂ key f hf with hf | ⟨t, ht, hf⟩
          · rcases e.storeTransfers_get ops (congrArg Prod.fst hst) (by rw [hst]; exact hf) with
              hf | ⟨t, ht, -, hf⟩
            · exact Or.inl hf
            · exact Or.inr ⟨taskOf t, List.mem_append_left _ (List.mem_map_of_mem ht), hf⟩
          · exact Or.inr ⟨t, List.mem_append_right _ ht, hf⟩

/-- Popping as many tasks as there are empties the queue. -/
theorem getNextNtasks_all {q q' : TaskQueueforSave} {ts : List IOSpec}
    (h : q.getNextNtasks q.getExistIoNum = .ok (ts, q')) : ts = q.tasks ∧ q'.tasks = [] := by
  obtain ⟨htasks, hlen, -⟩ := TaskQueueforSave.getNextNtasks_spec h
  rw [TaskQueueforSave.getExistIoNum, min_self] at hlen
  have hnil : q'.tasks = [] := by
    have := congrArg List.length htasks
    rw [List.length_append] at this
    exact List.length_eq_zero_iff.1 (by omega)
  rw [hnil, List.append_nil] at htasks
  exact ⟨htasks.symm, hnil⟩

/-- **What preparing the saves does**: the tasks of the requests are submitted; without a stream they
wait, and with a stream the whole queue is moved to the metadata of the step, whose own stream stays
what it was. -/
theorem prepareForSave_cases {outcome : ℕ × Option CudaStream}
    {metadata metadata' : InfiniKVConnectorMetadata} {w' : Worker}
    (h : w.prepareForSave ops outcome metadata = .ok (w', metadata')) :
    ∃ requests ioTasks engine,
      saveRequests ops w.infinikvChunkSize w.infinikvEngine metadata.requests =
        .ok (requests, ioTasks, engine) ∧
      ((outcome.2 = none ∧
          w' = { w with infinikvEngine := engine, taskQueue := w.taskQueue.submitTasks ioTasks } ∧
          metadata' = { metadata with requests, ioCount := 0, ioTasks := none, saveStream := none }) ∨
        ∃ q', outcome.2 ≠ none ∧ q'.tasks = [] ∧
          w' = { w with infinikvEngine := engine, taskQueue := q' } ∧
          metadata' = { metadata with
            requests
            ioCount := (w.taskQueue.submitTasks ioTasks).tasks.length
            ioTasks := some (w.taskQueue.submitTasks ioTasks).tasks }) := by
  rw [prepareForSave] at h
  obtain ⟨⟨requests, ioTasks, engine⟩, hsave, h⟩ := bind_eq_ok.1 h
  refine ⟨requests, ioTasks, engine, hsave, ?_⟩
  have hqueue : (if ioTasks.length > 0 then w.taskQueue.submitTasks ioTasks else w.taskQueue) =
      w.taskQueue.submitTasks ioTasks := by
    split
    · rfl
    · rename_i hlen
      have hnil : ioTasks = [] := List.length_eq_zero_iff.1 (by omega)
      rw [hnil]
      rfl
  simp only [hqueue] at h
  cases hout : outcome.2 with
  | none =>
      rw [hout] at h
      cases h
      exact Or.inl ⟨rfl, rfl, rfl⟩
  | some stream =>
      rw [hout] at h
      obtain ⟨⟨tasks, q'⟩, hpop, h⟩ := bind_eq_ok.1 h
      obtain ⟨rfl, hnil⟩ := getNextNtasks_all hpop
      cases h
      exact Or.inr ⟨q', Option.some_ne_none _, hnil, rfl, rfl⟩

/-- **What `start_load_kv` does**, in terms of the state and the metadata before it. -/
theorem startLoadKv_cases {outcome : ℕ × Option CudaStream}
    {metadata metadata' : InfiniKVConnectorMetadata} {w' : Worker}
    (h : w.startLoadKv ops outcome metadata = .ok (w', metadata')) :
    ∃ requests ioTasks engine reads,
      saveRequests ops w.infinikvChunkSize w.infinikvEngine metadata.requests =
        .ok (requests, ioTasks, engine) ∧
      List.Forall₂ SameSave requests metadata'.requests ∧
      ((outcome.2 = none ∧
          w' = { w with
            currentLayer := 0
            infinikvEngine := engine.withReads reads
            taskQueue := w.taskQueue.submitTasks ioTasks } ∧
          metadata'.ioCount = 0 ∧ metadata'.ioTasks = none ∧ metadata'.saveStream = none) ∨
        ∃ q', outcome.2 ≠ none ∧ q'.tasks = [] ∧
          w' = { w with
            currentLayer := 0
            infinikvEngine := engine.withReads reads
            taskQueue := q' } ∧
          metadata'.ioCount = (w.taskQueue.submitTasks ioTasks).tasks.length ∧
          metadata'.ioTasks = some (w.taskQueue.submitTasks ioTasks).tasks ∧
          metadata'.saveStream = metadata.saveStream) := by
  rw [startLoadKv] at h
  obtain ⟨⟨w₁, metadata₁⟩, hload, h⟩ := bind_eq_ok.1 h
  obtain ⟨reads, requests₁, rfl, rfl, hsame⟩ := prepareForLoad_frame hload
  obtain ⟨requests, ioTasks, engine, hsave, hcases⟩ := prepareForSave_cases h
  obtain ⟨x, e', hsave', rfl, hsame'⟩ := saveRequests_withReads hsame hsave
  refine ⟨x, ioTasks, e', reads, hsave', ?_⟩
  rcases hcases with ⟨hout, rfl, rfl⟩ | ⟨q', hout, hnil, rfl, rfl⟩
  · exact ⟨hsame', Or.inl ⟨hout, rfl, rfl, rfl, rfl⟩⟩
  · exact ⟨hsame', Or.inr ⟨q', hout, hnil, rfl, rfl, rfl, rfl⟩⟩

/-- `start_load_kv` leaves the configuration and the KV caches. -/
theorem startLoadKv_frame {outcome : ℕ × Option CudaStream}
    {metadata metadata' : InfiniKVConnectorMetadata} {w' : Worker}
    (h : w.startLoadKv ops outcome metadata = .ok (w', metadata')) :
    w'.infinikvEngine.tokenDatabase = w.infinikvEngine.tokenDatabase ∧
      w'.infinikvChunkSize = w.infinikvChunkSize ∧ w'.kvcaches = w.kvcaches := by
  obtain ⟨requests, ioTasks, engine, reads, hsave, -, hcases⟩ := startLoadKv_cases h
  have hdb : engine.tokenDatabase = w.infinikvEngine.tokenDatabase := (saveRequests_spec hsave).2.1
  rcases hcases with ⟨-, rfl, -⟩ | ⟨q', -, -, rfl, -⟩
  · exact ⟨hdb, rfl, rfl⟩
  · exact ⟨hdb, rfl, rfl⟩

/-! ### What saving a layer changes -/

/-- The tasks of a step that have a layer left to write. -/
def activeTasks (numLayers : ℕ) (tasks : List IOSpec) : List IOSpec :=
  tasks.filter fun t => decide (t.layer < numLayers)

/-- **What saving a layer does**: nothing but counting the layer, when there are no tasks or no stream
in the metadata; otherwise a write of the active tasks. -/
theorem saveKvLayer_cases {metadata metadata' : InfiniKVConnectorMetadata} {w' : Worker}
    (h : w.saveKvLayer metadata = .ok (w', metadata')) :
    ((metadata.ioTasks = none ∨ metadata.ioCount = 0 ∨ metadata.saveStream = none) ∧
        w' = { w with currentLayer := w.currentLayer + 1 } ∧ metadata' = metadata) ∨
      ∃ ioTasks layer rest, metadata.ioTasks = some ioTasks ∧ metadata.ioCount ≠ 0 ∧
        metadata.saveStream ≠ none ∧
        (activeTasks w.numLayers ioTasks).map (·.layer) = layer :: rest ∧
        w' = { w with
          currentLayer := w.currentLayer + 1
          infinikvEngine := w.infinikvEngine.withWrites (w.infinikvEngine.storageBackend.writes ++
            [⟨w.infinikvEngine.storageBackend.useMla,
              ((activeTasks w.numLayers ioTasks).map (·.gpuFile)).map (·.id),
              (activeTasks w.numLayers ioTasks).map (·.blockId), layer⟩]) } ∧
        metadata' = { metadata with ioTasks := some (ioTasks.map (advance w.numLayers)) } := by
  unfold saveKvLayer at h
  split at h
  · cases h
  · cases htasks : metadata.ioTasks with
    | none =>
        simp only [htasks] at h
        cases h
        exact Or.inl ⟨Or.inl rfl, rfl, rfl⟩
    | some ioTasks =>
        simp only [htasks] at h
        split at h
        · rename_i hstop
          cases h
          exact Or.inl ⟨Or.inr hstop, rfl, rfl⟩
        · rename_i hgo
          rw [not_or] at hgo
          obtain ⟨engine, he, h⟩ := bind_eq_ok.1 h
          obtain ⟨layer, rest, hlayers, rfl⟩ := InfiniKVEngine.storeLayer_cases _ he
          cases h
          exact Or.inr ⟨ioTasks, layer, rest, rfl, hgo.1, hgo.2, hlayers, rfl, rfl⟩

end Worker

end InfiniKV
