/-
**How the engine and the worker are set up.**

The chunk size and the number of layers are kept in several places.  The engine reads the chunk size
from its configuration and the number of layers from the shape of the KV cache; the shape is computed
by `init_infinikv_engine`, with the block size of vLLM for the chunk size and with all layers of the
model; and the connector has the block size of vLLM and, for a hybrid model, counts the layers with
full attention only.

Main definitions:

* `InfiniKV.LayerType`, `InfiniKV.VllmConfig` — the model and the configuration of vLLM;
* `InfiniKV.VllmConfig.engineMetadata`, `initInfinikvEngine` — **`init_infinikv_engine`**;
* `InfiniKV.VllmConfig.initWorker` — `InfiniKVConnectorV1Impl.__init__` on the worker;
* `InfiniKV.Worker.Serves` — a worker for a model.

Main results:

* `InfiniKV.VllmConfig.initWorker_eq_ok` — the worker after initialisation, if it succeeds;
* `InfiniKV.VllmConfig.serves_of_initWorker` — it is a worker for the model.
-/

import InfiniKV.Worker

set_option relaxedAutoImplicit false
set_option autoImplicit false

namespace InfiniKV

/-- The type of a layer of the model, as `hf_config.layer_types` lists it. -/
inductive LayerType where
  | fullAttention
  | slidingAttention
  | linearAttention
  deriving DecidableEq, Repr

/-- A layer has a paged KV cache unless its attention is linear; such a layer is a `MambaBase`, and has
a recurrent state instead. -/
def LayerType.hasKvCache : LayerType → Bool
  | .fullAttention => true
  | .slidingAttention => true
  | .linearAttention => false

/-- What is read of the configuration of vLLM, on a worker with all layers of the model.  A model whose
configuration does not list the types of its layers has full attention in all of them. -/
structure VllmConfig where
  model : Str
  layerTypes : List LayerType
  useMla : Bool
  totalNumKvHeads : ℕ
  headSize : ℕ
  tensorParallelSize : ℕ
  worldSize : ℤ
  rank : ℤ
  blockSize : ℕ
  blockSize_pos : 0 < blockSize

namespace VllmConfig

variable (vllm : VllmConfig)

/-- `get_num_layers`. -/
def getNumLayers : ℕ := vllm.layerTypes.length

/-- `get_num_kv_heads`. -/
def getNumKvHeads : ℕ :=
  if vllm.useMla then 1 else max 1 (vllm.totalNumKvHeads / vllm.tensorParallelSize)

/-- The metadata that `init_infinikv_engine` makes: if the chunk size is not the block size of vLLM, the
shape of the KV cache has the latter, and the configuration is left as it is. -/
def engineMetadata (config : InfiniKVEngineConfig) : InfiniKVEngineMetadata :=
  let numLayer := vllm.getNumLayers
  let chunkSize := config.chunkSize
  let chunkSize := if chunkSize ≠ vllm.blockSize then vllm.blockSize else chunkSize
  { modelName := vllm.model
    worldSize := vllm.worldSize
    workerId := vllm.rank
    fmt := "vllm".toList
    kvShape := (numLayer, if vllm.useMla then 1 else 2, chunkSize, vllm.getNumKvHeads, vllm.headSize)
    useMla := vllm.useMla }

/-- **`init_infinikv_engine`**.  If there is an engine already, nothing is returned.  With MLA the
configuration is asked for `remote_serde`, which it does not have. -/
def initInfinikvEngine (config : InfiniKVEngineConfig) (hasEngine : Bool) :
    Except PyError (Option InfiniKVEngine) :=
  if hasEngine then .ok none
  else if vllm.useMla then .error .attributeError
  else .ok (some (.init config (vllm.engineMetadata config)))

/-- The number of layers of the connector: all of them, or in a hybrid model those with full
attention. -/
def connectorNumLayers : ℕ :=
  if vllm.layerTypes.any (· ≠ .fullAttention) then vllm.layerTypes.count .fullAttention
  else vllm.getNumLayers

/-- The number of layers with attention, which are those with a KV cache. -/
def numAttnLayers : ℕ := vllm.layerTypes.countP LayerType.hasKvCache

/-- `InfiniKVConnectorV1Impl.__init__` on the worker, and the KV caches that are collected before the
first load. -/
def initWorker (config : InfiniKVEngineConfig) (hasEngine : Bool) (kvcaches : List KVCache) :
    Except PyError Worker := do
  let engine ← vllm.initInfinikvEngine config hasEngine
  match engine with
  | none => .error (.assertionError "")
  | some engine => .ok ⟨engine, .init vllm.connectorNumLayers, vllm.connectorNumLayers, vllm.blockSize,
      kvcaches, 0⟩

/-- `gpu_file_shape` of the backend, for elements of `itemsize` bytes. -/
def gpuFileShape (metadata : InfiniKVEngineMetadata) (itemsize : ℕ) : ℕ × ℕ × ℕ :=
  let (numLayers, _, chunkSize, numKvHead, headSize) := metadata.kvShape
  (if metadata.useMla then 1 else 2, numLayers, chunkSize * numKvHead * headSize * itemsize)

/-- **The shape of the KV cache has the block size of vLLM**, whatever the configuration says. -/
@[simp] theorem kvShape_engineMetadata (config : InfiniKVEngineConfig) :
    (vllm.engineMetadata config).kvShape =
      (vllm.getNumLayers, if vllm.useMla then 1 else 2, vllm.blockSize, vllm.getNumKvHeads,
        vllm.headSize) := by
  by_cases hsize : config.chunkSize = vllm.blockSize
  · simp [engineMetadata, hsize]
  · simp [engineMetadata, hsize]

/-- **The worker after initialisation**, if it succeeds. -/
theorem initWorker_eq_ok {config : InfiniKVEngineConfig} {hasEngine : Bool} {kvcaches : List KVCache}
    {w : Worker} (h : vllm.initWorker config hasEngine kvcaches = .ok w) :
    vllm.useMla = false ∧ w = .init config (vllm.engineMetadata config) vllm.connectorNumLayers
      vllm.blockSize kvcaches := by
  obtain ⟨engine, hengine, h⟩ := bind_eq_ok.1 h
  rw [initInfinikvEngine] at hengine
  split at hengine
  · cases hengine
    cases h
  · split at hengine
    · cases hengine
    · rename_i hmla
      cases hengine
      cases h
      exact ⟨by simpa using hmla, rfl⟩

/-- The layers with full attention have a KV cache. -/
theorem count_fullAttention_le (types : List LayerType) :
    types.count .fullAttention ≤ types.countP LayerType.hasKvCache := by
  rw [List.count]
  refine List.countP_mono_left fun t _ ht => ?_
  rw [beq_iff_eq] at ht
  rw [ht]
  rfl

/-- All layers with a KV cache have full attention if and only if there are no sliding windows. -/
theorem count_fullAttention_eq_iff (types : List LayerType) :
    types.count .fullAttention = types.countP LayerType.hasKvCache ↔ ∀ t ∈ types, t ≠ .slidingAttention := by
  induction types with
  | nil => simp
  | cons t types ih =>
      have hle := count_fullAttention_le types
      rw [List.forall_mem_cons, ← ih, List.count_cons, List.countP_cons]
      cases t with
      | fullAttention => simp [LayerType.hasKvCache]
      | linearAttention => simp [LayerType.hasKvCache]
      | slidingAttention =>
          -- the count on the left does not grow
          simp [LayerType.hasKvCache]
          omega

/-- In a model that is not hybrid all layers have full attention. -/
theorem connectorNumLayers_eq_count :
    vllm.connectorNumLayers = vllm.layerTypes.count .fullAttention := by
  rw [connectorNumLayers]
  split
  · rfl
  · rename_i h
    simp only [List.any_eq_true, decide_eq_true_eq, not_exists, not_and, not_not] at h
    rw [getNumLayers, eq_comm, List.count_eq_length]
    exact fun t ht => (h t ht).symm

/-- **The connector counts at most the layers with a KV cache.** -/
theorem connectorNumLayers_le : vllm.connectorNumLayers ≤ vllm.numAttnLayers := by
  rw [connectorNumLayers_eq_count]
  exact count_fullAttention_le _

/-- It counts all of them if and only if the model has no sliding windows. -/
theorem connectorNumLayers_eq_iff :
    vllm.connectorNumLayers = vllm.numAttnLayers ↔ ∀ t ∈ vllm.layerTypes, t ≠ .slidingAttention := by
  rw [connectorNumLayers_eq_count]
  exact count_fullAttention_eq_iff _

end VllmConfig

/-! ### Workers for a model -/

/-- A worker for a model: the engine and the backend count all layers, and there is a KV cache for each
layer with attention. -/
structure Worker.Serves (w : Worker) (vllm : VllmConfig) : Prop where
  engineLayers : w.infinikvEngine.numLayers = vllm.getNumLayers
  backendLayers : w.infinikvEngine.storageBackend.numLayers = vllm.getNumLayers
  kvcaches : w.kvcaches.length = vllm.numAttnLayers

/-- The worker after initialisation is one for the model. -/
theorem VllmConfig.serves_of_initWorker {vllm : VllmConfig} {config : InfiniKVEngineConfig}
    {hasEngine : Bool} {kvcaches : List KVCache} {w : Worker}
    (h : vllm.initWorker config hasEngine kvcaches = .ok w)
    (hkvcaches : kvcaches.length = vllm.numAttnLayers) : w.Serves vllm := by
  obtain ⟨-, rfl⟩ := vllm.initWorker_eq_ok h
  exact ⟨rfl, rfl, hkvcaches⟩

end InfiniKV
