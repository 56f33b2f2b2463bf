/-
**The GeminiFS backend.**

`GeminiFSBackend` keeps the index from cache engine keys to GPU files in memory and issues the
batched transfers between GPU files and the paged KV cache.  A file enters the index when it is
opened, before anything is written to it.

The file system underneath is outside of the model: the outcome of each call is given by an oracle,
numbered in the order of the calls, and the transfers that were issued are recorded.

Main definitions:

* `InfiniKV.GeminiFSOps` — the outcomes of the calls into the file system;
* `InfiniKV.BatchedXfer` — a batched transfer of one layer;
* `InfiniKV.GeminiFSBackend` — the backend, with the record of its transfers;
* `InfiniKV.GeminiFSBackend.allocate`, `layerwiseBatchPut`, `layerwiseBatchGet` — its operations.

Main results:

* `InfiniKV.GeminiFSBackend.Extends` — **the index only grows**: a key that is in it keeps its file;
* `InfiniKV.GeminiFSBackend.get_allocate` — what is in the index after a file was allocated.
-/

import InfiniKV.TokenDatabase
import Mathlib.Data.List.AList

set_option relaxedAutoImplicit false
set_option autoImplicit false

namespace InfiniKV

/-- A GPU file and the key it was opened for. -/
structure GPUFileMetadata where
  id : ℕ
  key : CacheEngineKey
  deriving DecidableEq

/-- The outcomes of the calls into the file system: of the `n`-th attempt to open a file, and of the
`n`-th batched read. -/
structure GeminiFSOps where
  gpuOpenFile : ℕ → Option ℕ
  geminifsBatchedRead : ℕ → Bool

/-- A batched transfer of one layer: file `i` of the list against block `i` of the list. -/
structure BatchedXfer where
  unified : Bool
  gpuFileIds : List ℕ
  blockIds : List ℕ
  layer : ℕ
  deriving DecidableEq

/-- The paged KV cache of one attention layer is known by its number of blocks. -/
abbrev KVCache := ℕ

/-- The backend, the number of attempts to open a file, and the transfers issued so far. -/
structure GeminiFSBackend where
  dict : AList fun _ : CacheEngineKey => GPUFileMetadata
  useMla : Bool
  numLayers : ℕ
  numGpuFiles : ℕ
  openCalls : ℕ
  writes : List BatchedXfer
  reads : List (BatchedXfer × Bool)

namespace GeminiFSBackend

/-- `GeminiFSBackend.__init__`. -/
def init (metadata : InfiniKVEngineMetadata) : GeminiFSBackend where
  dict := ∅
  useMla := metadata.useMla
  numLayers := metadata.kvShape.1
  numGpuFiles := 0
  openCalls := 0
  writes := []
  reads := []

variable (b : GeminiFSBackend)

/-! ### The index -/

/-- `contains`. -/
def contains (key : CacheEngineKey) : Bool := decide (key ∈ b.dict)

/-- The key of a chunk, as the token database yields it, is in the index. -/
def hasChunk (y : ℕ × ℕ × CacheEngineKey) : Bool := b.contains y.2.2

/-- `get`. -/
def get (key : CacheEngineKey) : Option GPUFileMetadata := b.dict.lookup key

/-- `allocate`: the key is in the index as soon as a file is open for it. -/
def allocate (ops : GeminiFSOps) (key : CacheEngineKey) : Option GPUFileMetadata × GeminiFSBackend :=
  match ops.gpuOpenFile b.openCalls with
  | none => (none, { b with openCalls := b.openCalls + 1 })
  | some gpuFileId =>
      let gpuFileMeta : GPUFileMetadata := ⟨gpuFileId, key⟩
      (some gpuFileMeta, { b with
        openCalls := b.openCalls + 1
        numGpuFiles := b.numGpuFiles + 1
        dict := b.dict.insert key gpuFileMeta })

/-! ### Transfers -/

/-- The checks made for each block while the slices of the cache of a layer are collected. -/
def checkBlocks (kvcaches : List KVCache) (layer : ℕ) : List (ℕ × ℕ) → Except PyError Unit
  | [] => .ok ()
  | (blockId, layerId) :: rest =>
      if layer ≠ layerId then .error (.assertionError "")
      else match kvcaches[layerId]? with
        | none => .error .indexError
        | some numBlocks => if blockId < numBlocks then checkBlocks kvcaches layer rest
            else .error .indexError

/-- `layerwise_batch_put`: the first layer id decides the layer, and all others must agree. -/
def layerwiseBatchPut (kvcaches : List KVCache) (gpuFiles : List GPUFileMetadata)
    (blockIds layerIds : List ℕ) : Except PyError GeminiFSBackend :=
  if gpuFiles.length ≠ blockIds.length ∨ blockIds.length ≠ layerIds.length then
    .error (.assertionError "")
  else match layerIds with
    | [] => .error .indexError
    | layer :: _ => do
        checkBlocks kvcaches layer (blockIds.zip layerIds)
        .ok { b with writes := b.writes ++ [⟨b.useMla, gpuFiles.map (·.id), blockIds, layer⟩] }

/-- `layerwise_batch_get`: the layer after `layer` is read, and the outcome is dropped. -/
def layerwiseBatchGet (ops : GeminiFSOps) (kvcaches : List KVCache) (layer : ℤ)
    (gpuFiles : List GPUFileMetadata) (blockIds : List ℕ) : Except PyError GeminiFSBackend :=
  if layer + 1 ≥ b.numLayers then .ok b
  else
    let next := (layer + 1).toNat
    match kvcaches[next]? with
    | none => .error .indexError
    | some _ =>
        if gpuFiles.length ≠ blockIds.length then .error (.assertionError "")
        else do
          checkBlocks kvcaches next (blockIds.map fun blockId => (blockId, next))
          .ok { b with reads := b.reads ++
            [(⟨b.useMla, gpuFiles.map (·.id), blockIds, next⟩, ops.geminifsBatchedRead b.reads.length)] }

/-! ### The index only grows -/

variable {b} {ops : GeminiFSOps} {key : CacheEngineKey}

theorem contains_iff : b.contains key = true ↔ key ∈ b.dict := by simp [contains]

theorem contains_iff_get : b.contains key = true ↔ ∃ f, b.get key = some f := by
  rw [contains_iff, get, ← AList.lookup_isSome, Option.isSome_iff_exists]

theorem get_eq_none : b.get key = none ↔ b.contains key = false := by
  rw [get, AList.lookup_eq_none, contains, decide_eq_false_iff_not]

/-- A backend extends another one when every file of its index is still there. -/
def Extends (b b' : GeminiFSBackend) : Prop :=
  ∀ key f, b.get key = some f → b'.get key = some f

theorem Extends.refl (b : GeminiFSBackend) : b.Extends b := fun _ _ h => h

theorem Extends.trans {b₁ b₂ b₃ : GeminiFSBackend} (h : b₁.Extends b₂) (h' : b₂.Extends b₃) :
    b₁.Extends b₃ := fun key f hf => h' key f (h key f hf)

theorem Extends.contains {b' : GeminiFSBackend} (h : b.Extends b') (hk : b.contains key = true) :
    b'.contains key = true := by
  obtain ⟨f, hf⟩ := contains_iff_get.1 hk
  exact contains_iff_get.2 ⟨f, h key f hf⟩

/-- An attempt that opens no file leaves the index as it is. -/
theorem allocate_of_none (h : ops.gpuOpenFile b.openCalls = none) :
    b.allocate ops key = (none, { b with openCalls := b.openCalls + 1 }) := by
  simp [allocate, h]

theorem allocate_of_some {i : ℕ} (h : ops.gpuOpenFile b.openCalls = some i) :
    b.allocate ops key = (some ⟨i, key⟩, { b with
      openCalls := b.openCalls + 1
      numGpuFiles := b.numGpuFiles + 1
      dict := b.dict.insert key ⟨i, key⟩ }) := by
  simp [allocate, h]

/-- What is in the index after a file was allocated. -/
theorem get_allocate {i : ℕ} (h : ops.gpuOpenFile b.openCalls = some i) (key' : CacheEngineKey) :
    (b.allocate ops key).2.get key' = if key' = key then some ⟨i, key⟩ else b.get key' := by
  rw [allocate_of_some h]
  by_cases hk : key' = key
  · subst hk
    simp [get]
  · simp [get, hk, AList.lookup_insert_ne]

theorem contains_allocate {i : ℕ} (h : ops.gpuOpenFile b.openCalls = some i) (key' : CacheEngineKey) :
    (b.allocate ops key).2.contains key' = true ↔ key' = key ∨ b.contains key' = true := by
  rw [contains_iff_get, contains_iff_get, get_allocate h]
  by_cases hk : key' = key
  · simp [hk]
  · simp [hk]

/-- Allocating a file for a key that has none extends the index. -/
theorem extends_allocate (hk : b.contains key = false) : b.Extends (b.allocate ops key).2 := by
  intro key' f hf
  cases ho : ops.gpuOpenFile b.openCalls with
  | none =>
      rw [allocate_of_none ho]
      exact hf
  | some i =>
      rw [get_allocate ho, if_neg, hf]
      rintro rfl
      rw [get_eq_none.2 hk] at hf
      cases hf

/-- Two backends that differ in their index only: in particular the same transfers were issued. -/
structure SameTransfers (b b' : GeminiFSBackend) : Prop where
  writes : b'.writes = b.writes
  reads : b'.reads = b.reads
  numLayers : b'.numLayers = b.numLayers
  useMla : b'.useMla = b.useMla

theorem SameTransfers.refl (b : GeminiFSBackend) : b.SameTransfers b := ⟨rfl, rfl, rfl, rfl⟩

theorem SameTransfers.trans {b₁ b₂ b₃ : GeminiFSBackend} (h : b₁.SameTransfers b₂)
    (h' : b₂.SameTransfers b₃) : b₁.SameTransfers b₃ :=
  ⟨h'.writes.trans h.writes, h'.reads.trans h.reads, h'.numLayers.trans h.numLayers,
    h'.useMla.trans h.useMla⟩

theorem sameTransfers_allocate : b.SameTransfers (b.allocate ops key).2 := by
  cases ho : ops.gpuOpenFile b.openCalls with
  | none =>
      rw [allocate_of_none ho]
      exact ⟨rfl, rfl, rfl, rfl⟩
  | some i =>
      rw [allocate_of_some ho]
      exact ⟨rfl, rfl, rfl, rfl⟩

end GeminiFSBackend

end InfiniKV
