/-
**The cache engine.**

`InfiniKVEngine` ties the token database to the backend.  `lookup` counts the leading tokens whose
chunks are in the index, `prepare_for_load` collects the files of the leading chunks that the mask
does not skip, and `prepare_for_store` opens a file for each chunk that has none.  Both loops hand
out the blocks of the table they are given with an index of their own, which starts at zero.

Main definitions:

* `InfiniKV.InfiniKVEngine` — the engine;
* `InfiniKV.ChunkTransfer` — a chunk, its file, and the block paired with it;
* `InfiniKV.InfiniKVEngine.lookup`, `prepareForLoad`, `prepareForStore` — the source's functions;
* `InfiniKV.InfiniKVEngine.storedRun` — the leading chunks, from a given one on, that have a file.

Main results:

* `InfiniKV.InfiniKVEngine.lookup_tensor` — `lookup` returns the end of the run of leading chunks
  in the index;
* `InfiniKV.InfiniKVEngine.loadLoop_spec`, `loadLoop_ok` — **what `prepare_for_load` returns**, and
  that it returns when the table is long enough;
* `InfiniKV.InfiniKVEngine.prepareForStore_extends` — `prepare_for_store` only adds to the index,
  also when it raises.
-/

import InfiniKV.Backend

set_option relaxedAutoImplicit false
set_option autoImplicit false

namespace InfiniKV

/-- The engine.  Nothing ever enters the lookup cache. -/
structure InfiniKVEngine where
  tokenDatabase : ChunkedTokenDatabase
  storageBackend : GeminiFSBackend
  numLayers : ℕ
  lookupCache : List CacheEngineKey
  lookupCache_eq : lookupCache = []

/-- One round of a loop over chunks: the chunk, its file, and the block paired with it. -/
structure ChunkTransfer where
  start : ℕ
  stop : ℕ
  key : CacheEngineKey
  gpuFile : GPUFileMetadata
  blockId : ℕ
  deriving DecidableEq

/-- The chunk of a transfer, as the token database yields it. -/
def ChunkTransfer.chunk (t : ChunkTransfer) : ℕ × ℕ × CacheEngineKey := (t.start, t.stop, t.key)

/-- `mask[start:stop] = True`. -/
def setRange (mask : List Bool) (start stop : ℕ) : List Bool :=
  mask.mapIdx fun i m => if start ≤ i ∧ i < stop then true else m

/-- The mask that is false on the first `v` of `n` entries and true on the others. -/
def skipMask (v n : ℕ) : List Bool := List.replicate (min v n) false ++ List.replicate (n - v) true

theorem skipMask_of_le {v n : ℕ} (h : v ≤ n) :
    skipMask v n = List.replicate v false ++ List.replicate (n - v) true := by
  rw [skipMask, min_eq_left h]

@[simp] theorem numFalses_skipMask (v n : ℕ) :
    ChunkedTokenDatabase.numFalses (some (skipMask v n)) = min v n := by
  simp [ChunkedTokenDatabase.numFalses, skipMask, List.count_replicate]

theorem take_skipMask (v n m : ℕ) : (skipMask v n).take m = skipMask v (min m n) := by
  rw [skipMask, skipMask, List.take_append, List.take_replicate, List.take_replicate,
    List.length_replicate]
  congr 2
  · omega
  · omega

/-- What a `for` loop over a generator does once all values have been taken. -/
def exhausted {α : Type} (raises : Option PyError) (a : α) : Except PyError α :=
  match raises with
  | none => .ok a
  | some e => .error e

namespace InfiniKVEngine

/-- `InfiniKVEngine.__init__`. -/
def init (config : InfiniKVEngineConfig) (metadata : InfiniKVEngineMetadata) : InfiniKVEngine where
  tokenDatabase := .init config metadata
  storageBackend := .init metadata
  numLayers := metadata.kvShape.1
  lookupCache := []
  lookupCache_eq := rfl

variable (e : InfiniKVEngine) (ops : GeminiFSOps)

/-! ### Lookup -/

/-- The loop of `lookup`. -/
def lookupLoop (raises : Option PyError) :
    List (ℕ × ℕ × CacheEngineKey) → ℕ → ℕ → Except PyError ℕ
  | [], stop, _ => exhausted raises stop
  | (_, stop, key) :: rest, _, oldEnd =>
      if e.storageBackend.contains key then lookupLoop raises rest stop stop else .ok oldEnd

/-- **`lookup`**. -/
def lookup (tokens : Tokens) : Except PyError ℕ :=
  let chunks := e.tokenDatabase.processTokens tokens none
  e.lookupLoop chunks.raises chunks.yields 0 0

/-! ### Loading -/

/-- The loop of `prepare_for_load`. -/
def loadLoop (blockIds : List ℕ) (raises : Option PyError) :
    List (ℕ × ℕ × CacheEngineKey) → ℕ → Except PyError (List ChunkTransfer)
  | [], _ => exhausted raises []
  | (start, stop, key) :: rest, index =>
      if key ∈ e.lookupCache then loadLoop blockIds raises rest index
      else match e.storageBackend.get key with
        | none => .ok []
        | some gpuFileMeta => match blockIds[index]? with
            | none => .error .indexError
            | some blockId => (loadLoop blockIds raises rest (index + 1)).map
                (⟨start, stop, key, gpuFileMeta, blockId⟩ :: ·)

/-- The transfers that `prepare_for_load` prepares. -/
def loadTransfers (tokens : List ℤ) (mask : Option (List Bool)) (blockIds : List ℕ) :
    Except PyError (List ChunkTransfer) :=
  let chunks := e.tokenDatabase.processTokens ⟨.tensor, tokens⟩ mask
  e.loadLoop blockIds chunks.raises chunks.yields 0

/-- **`prepare_for_load`**. -/
def prepareForLoad (tokens : List ℤ) (mask : Option (List Bool)) (blockIds : List ℕ) :
    Except PyError (List Bool × List GPUFileMetadata × List ℕ) :=
  (e.loadTransfers tokens mask blockIds).map fun ts =>
    (ts.foldl (fun retMask t => setRange retMask t.start t.stop) (List.replicate tokens.length false),
      ts.map (·.gpuFile), ts.map (·.blockId))

/-! ### Storing -/

/-- The loop of `prepare_for_store`. -/
def storeLoop (blockIds : List ℕ) (raises : Option PyError) :
    List (ℕ × ℕ × CacheEngineKey) → ℕ → GeminiFSBackend →
      Except PyError (List ChunkTransfer) × GeminiFSBackend
  | [], _, b => (exhausted raises [], b)
  | (start, stop, key) :: rest, index, b =>
      if b.contains key then storeLoop blockIds raises rest index b
      else match b.allocate ops key with
        | (none, b') => (.ok [], b')
        | (some gpuFile, b') => match blockIds[index]? with
            | none => (.error .indexError, b')
            | some blockId =>
                let (ts, b'') := storeLoop blockIds raises rest (index + 1) b'
                (ts.map (⟨start, stop, key, gpuFile, blockId⟩ :: ·), b'')

/-- The transfers that `prepare_for_store` prepares, and the backend it leaves. -/
def storeTransfers (tokens : List ℤ) (mask : Option (List Bool)) (blockIds : List ℕ) :
    Except PyError (List ChunkTransfer) × GeminiFSBackend :=
  let chunks := e.tokenDatabase.processTokens ⟨.tensor, tokens⟩ mask
  storeLoop ops blockIds chunks.raises chunks.yields 0 e.storageBackend

/-- **`prepare_for_store`**: what it returns or raises, and the engine it leaves.  Nothing depends on
`offset`. -/
def prepareForStore (tokens : List ℤ) (mask : Option (List Bool)) (blockIds : List ℕ)
    (_offset : Option ℕ) : Except PyError (List GPUFileMetadata × List ℕ) × InfiniKVEngine :=
  let (ts, b) := e.storeTransfers ops tokens mask blockIds
  (ts.map fun ts => (ts.map (·.gpuFile), ts.map (·.blockId)), { e with storageBackend := b })

/-! ### Layers -/

/-- `store_layer`. -/
def storeLayer (kvcaches : List KVCache) (gpuFiles : List GPUFileMetadata)
    (blockIds layerIds : List ℕ) : Except PyError InfiniKVEngine :=
  (e.storageBackend.layerwiseBatchPut kvcaches gpuFiles blockIds layerIds).map fun b =>
    { e with storageBackend := b }

/-- `retrieve_layer`. -/
def retrieveLayer (kvcaches : List KVCache) (nextLayer : ℤ) (gpuFiles : List GPUFileMetadata)
    (blockIds : List ℕ) : Except PyError InfiniKVEngine :=
  if nextLayer ≥ e.numLayers then .ok e
  else (e.storageBackend.layerwiseBatchGet ops kvcaches nextLayer gpuFiles blockIds).map fun b =>
    { e with storageBackend := b }

/-! ### The leading chunks that have a file -/

/-- The number of chunks of `X`, from chunk `k` on, that have a file before the first one that has
none. -/
def storedRun (X : List ℤ) (k : ℕ) : ℕ :=
  (List.range' k (e.tokenDatabase.numChunks X - k)).findIdx
    fun j => !e.storageBackend.contains (e.tokenDatabase.keyAt X j)

theorem storedRun_le (X : List ℤ) (k : ℕ) : e.storedRun X k ≤ e.tokenDatabase.numChunks X - k := by
  rw [storedRun]
  refine le_trans List.findIdx_le_length ?_
  rw [List.length_range']

/-- The chunks of the run have files. -/
theorem contains_of_lt_storedRun {X : List ℤ} {k i : ℕ} (h : i < e.storedRun X k) :
    e.storageBackend.contains (e.tokenDatabase.keyAt X (k + i)) = true := by
  simpa using List.not_of_lt_findIdx h

/-- The run is maximal. -/
theorem not_contains_storedRun {X : List ℤ} {k : ℕ}
    (h : k + e.storedRun X k < e.tokenDatabase.numChunks X) :
    e.storageBackend.contains (e.tokenDatabase.keyAt X (k + e.storedRun X k)) = false := by
  unfold storedRun at h ⊢
  have hlt : (List.range' k (e.tokenDatabase.numChunks X - k)).findIdx
      (fun j => !e.storageBackend.contains (e.tokenDatabase.keyAt X j)) <
        (List.range' k (e.tokenDatabase.numChunks X - k)).length := by
    rw [List.length_range']
    omega
  simpa only [List.getElem_range', Nat.one_mul, Bool.not_eq_true'] using List.findIdx_getElem (w := hlt)

/-- The run is the only number with these two properties. -/
theorem storedRun_eq {X : List ℤ} {k r : ℕ}
    (h : ∀ i < r, e.storageBackend.contains (e.tokenDatabase.keyAt X (k + i)) = true)
    (hr : r = e.tokenDatabase.numChunks X - k ∨
      r < e.tokenDatabase.numChunks X - k ∧
        e.storageBackend.contains (e.tokenDatabase.keyAt X (k + r)) = false) :
    e.storedRun X k = r := by
  have hle := e.storedRun_le X k
  rcases Nat.lt_trichotomy (e.storedRun X k) r with hlt | heq | hgt
  · have h₁ := e.not_contains_storedRun (X := X) (k := k) (by omega)
    rw [h _ hlt] at h₁
    cases h₁
  · exact heq
  · rcases hr with hr | ⟨-, hr⟩
    · omega
    · rw [e.contains_of_lt_storedRun hgt] at hr
      cases hr

theorem takeWhile_chunkAt (X : List ℤ) (k : ℕ) :
    ((List.range' k (e.tokenDatabase.numChunks X - k)).map (e.tokenDatabase.chunkAt X)).takeWhile
        e.storageBackend.hasChunk =
      (List.range' k (e.storedRun X k)).map (e.tokenDatabase.chunkAt X) := by
  have hle := e.storedRun_le X k
  have htake : (List.range' k (e.tokenDatabase.numChunks X - k)).take (e.storedRun X k) =
      List.range' k (e.storedRun X k) := by
    rw [List.take_range'_of_length_ge hle]
  rw [List.takeWhile_map, List.takeWhile_eq_take_findIdx_not]
  exact congrArg _ htake

/-! ### What lookup returns -/

theorem lookupLoop_eq (ys : List (ℕ × ℕ × CacheEngineKey)) (oldEnd : ℕ) :
    e.lookupLoop none ys oldEnd oldEnd =
      .ok (((ys.takeWhile e.storageBackend.hasChunk).getLast?.map (·.2.1)).getD oldEnd) := by
  induction ys generalizing oldEnd with
  | nil => rfl
  | cons y ys ih =>
      obtain ⟨start, stop, key⟩ := y
      have hstep : e.lookupLoop none ((start, stop, key) :: ys) oldEnd oldEnd =
          if e.storageBackend.hasChunk (start, stop, key) then e.lookupLoop none ys stop stop
          else .ok oldEnd := rfl
      by_cases hk : e.storageBackend.hasChunk (start, stop, key) = true
      · rw [hstep, if_pos hk, ih, List.takeWhile_cons_of_pos hk, List.getLast?_cons]
        cases (ys.takeWhile e.storageBackend.hasChunk).getLast? with
        | none => rfl
        | some z => rfl
      · rw [hstep, if_neg hk, List.takeWhile_cons_of_neg hk]
        rfl

/-- **`lookup` returns the end of the run of leading chunks in the index.** -/
theorem lookup_tensor (X : List ℤ) :
    e.lookup ⟨.tensor, X⟩ = .ok (min (e.storedRun X 0 * e.tokenDatabase.chunkSize) X.length) := by
  rw [lookup, e.tokenDatabase.processTokens_tensor X (k := 0) (by simp [ChunkedTokenDatabase.numFalses])]
  rw [lookupLoop_eq, takeWhile_chunkAt]
  cases hr : e.storedRun X 0 with
  | zero => simp
  | succ r => simp [List.range'_concat, ChunkedTokenDatabase.chunkAt, Nat.succ_mul]

/-! ### What is prepared for loading -/

/-- The transfers prepared: the leading chunks that have a file, each with its file, and the blocks
from the current index on. -/
theorem loadLoop_spec {blockIds : List ℕ} {ys : List (ℕ × ℕ × CacheEngineKey)} {index : ℕ}
    {ts : List ChunkTransfer} (h : e.loadLoop blockIds none ys index = .ok ts) :
    ts.map ChunkTransfer.chunk = (ys.takeWhile e.storageBackend.hasChunk) ∧
      (∀ t ∈ ts, e.storageBackend.get t.key = some t.gpuFile) ∧
      ∀ (i : ℕ) (t : ChunkTransfer), ts[i]? = some t → blockIds[index + i]? = some t.blockId := by
  induction ys generalizing index ts with
  | nil =>
      simp only [loadLoop, exhausted, Except.ok.injEq] at h
      subst h
      simp
  | cons y ys ih =>
      obtain ⟨start, stop, key⟩ := y
      simp only [loadLoop, e.lookupCache_eq, List.not_mem_nil, if_false] at h
      cases hg : e.storageBackend.get key with
      | none =>
          have hk : ¬ e.storageBackend.hasChunk (start, stop, key) = true := by
            rw [GeminiFSBackend.hasChunk, GeminiFSBackend.get_eq_none.1 hg]
            exact Bool.false_ne_true
          simp only [hg, Except.ok.injEq] at h
          subst h
          rw [List.takeWhile_cons_of_neg hk]
          simp
      | some f =>
          have hk : e.storageBackend.hasChunk (start, stop, key) = true :=
            GeminiFSBackend.contains_iff_get.2 ⟨f, hg⟩
          cases hb : blockIds[index]? with
          | none => simp [hg, hb] at h
          | some blockId =>
              simp only [hg, hb] at h
              cases hrest : e.loadLoop blockIds none ys (index + 1) with
              | error err => simp [hrest, Except.map] at h
              | ok rest =>
                  simp only [hrest, Except.map, Except.ok.injEq] at h
                  subst h
                  obtain ⟨hchunks, hfiles, hblocks⟩ := ih hrest
                  refine ⟨?_, ?_, ?_⟩
                  · rw [List.takeWhile_cons_of_pos hk, List.map_cons, hchunks]
                    rfl
                  · intro t ht
                    rcases List.mem_cons.1 ht with rfl | ht
                    · exact hg
                    · exact hfiles t ht
                  · intro i t ht
                    cases i with
                    | zero =>
                        simp only [List.getElem?_cons_zero, Option.some.injEq] at ht
                        subst ht
                        exact hb
                    | succ i =>
                        rw [List.getElem?_cons_succ] at ht
                        rw [← hblocks i t ht]
                        congr 1
                        omega

/-- The loop returns when the table has a block for every chunk it reaches. -/
theorem loadLoop_ok {blockIds : List ℕ} {ys : List (ℕ × ℕ × CacheEngineKey)} {index : ℕ}
    (h : index + (ys.takeWhile e.storageBackend.hasChunk).length ≤ blockIds.length) :
    ∃ ts, e.loadLoop blockIds none ys index = .ok ts := by
  induction ys generalizing index with
  | nil => exact ⟨[], rfl⟩
  | cons y ys ih =>
      obtain ⟨start, stop, key⟩ := y
      simp only [loadLoop, e.lookupCache_eq, List.not_mem_nil, if_false]
      cases hg : e.storageBackend.get key with
      | none => exact ⟨[], rfl⟩
      | some f =>
          have hk : e.storageBackend.hasChunk (start, stop, key) = true :=
            GeminiFSBackend.contains_iff_get.2 ⟨f, hg⟩
          rw [List.takeWhile_cons_of_pos hk, List.length_cons] at h
          obtain ⟨blockId, hb⟩ : ∃ b, blockIds[index]? = some b :=
            ⟨_, List.getElem?_eq_getElem (by omega)⟩
          have hrest : index + 1 + (ys.takeWhile e.storageBackend.hasChunk).length ≤
              blockIds.length := by omega
          obtain ⟨ts, hts⟩ := ih hrest
          exact ⟨_, by simp only [hb, hts]; rfl⟩

/-- **What `prepare_for_load` prepares**, under a mask whose false entries fill `k` chunks: the run
of chunks from chunk `k` on that have a file, in order, paired with the first blocks of the
table. -/
theorem loadTransfers_spec {X : List ℤ} {mask : Option (List Bool)} {k : ℕ}
    (hk : ChunkedTokenDatabase.numFalses mask = k * e.tokenDatabase.chunkSize) {blockIds : List ℕ}
    {ts : List ChunkTransfer} (h : e.loadTransfers X mask blockIds = .ok ts) :
    ts.map ChunkTransfer.chunk = (List.range' k (e.storedRun X k)).map (e.tokenDatabase.chunkAt X) ∧
      (∀ t ∈ ts, e.storageBackend.get t.key = some t.gpuFile) ∧
      ∀ (i : ℕ) (t : ChunkTransfer), ts[i]? = some t → blockIds[i]? = some t.blockId := by
  rw [loadTransfers, e.tokenDatabase.processTokens_tensor X hk] at h
  obtain ⟨hchunks, hfiles, hblocks⟩ := e.loadLoop_spec h
  rw [takeWhile_chunkAt] at hchunks
  exact ⟨hchunks, hfiles, by simpa using hblocks⟩

/-- It prepares a transfer for each chunk of that run. -/
theorem length_of_loadTransfers {X : List ℤ} {mask : Option (List Bool)} {k : ℕ}
    (hk : ChunkedTokenDatabase.numFalses mask = k * e.tokenDatabase.chunkSize) {blockIds : List ℕ}
    {ts : List ChunkTransfer} (h : e.loadTransfers X mask blockIds = .ok ts) :
    ts.length = e.storedRun X k := by
  obtain ⟨hchunks, -, -⟩ := e.loadTransfers_spec hk h
  simpa using congrArg List.length hchunks

/-- When `prepare_for_load` returns, the false entries of the mask fill whole chunks. -/
theorem exists_numFalses_of_loadTransfers {X : List ℤ} {mask : Option (List Bool)}
    {blockIds : List ℕ} {ts : List ChunkTransfer} (h : e.loadTransfers X mask blockIds = .ok ts) :
    ∃ k, ChunkedTokenDatabase.numFalses mask = k * e.tokenDatabase.chunkSize := by
  by_cases hmod : ChunkedTokenDatabase.numFalses mask % e.tokenDatabase.chunkSize ≠ 0
  · rw [loadTransfers, e.tokenDatabase.processTokens_of_mod_ne_zero _ hmod] at h
    cases h
  · exact ⟨_, (Nat.div_mul_cancel (Nat.dvd_of_mod_eq_zero (not_not.1 hmod))).symm⟩

/-- Transfer `i` that `prepare_for_load` prepares is that of chunk `k + i`, with block `i`. -/
theorem loadTransfers_getElem {X : List ℤ} {mask : Option (List Bool)} {k : ℕ}
    (hk : ChunkedTokenDatabase.numFalses mask = k * e.tokenDatabase.chunkSize) {blockIds : List ℕ}
    {ts : List ChunkTransfer} (h : e.loadTransfers X mask blockIds = .ok ts) {i : ℕ}
    {t : ChunkTransfer} (hi : ts[i]? = some t) :
    t.chunk = e.tokenDatabase.chunkAt X (k + i) ∧ blockIds[i]? = some t.blockId ∧
      e.storageBackend.get t.key = some t.gpuFile := by
  obtain ⟨hchunks, hfiles, hblocks⟩ := e.loadTransfers_spec hk h
  refine ⟨?_, hblocks i t hi, hfiles t (List.mem_of_getElem? hi)⟩
  have hlt : i < e.storedRun X k := by
    rw [← e.length_of_loadTransfers hk h]
    exact (List.getElem?_eq_some_iff.1 hi).1
  have hget := congrArg (·[i]?) hchunks
  simp only [List.getElem?_map, hi, Option.map_some] at hget
  rw [List.getElem?_range' hlt, Option.map_some, Option.some.injEq, Nat.one_mul] at hget
  exact hget

/-- `prepare_for_load` returns when the table has a block for every chunk of the run. -/
theorem loadTransfers_ok {X : List ℤ} {mask : Option (List Bool)} {k : ℕ}
    (hk : ChunkedTokenDatabase.numFalses mask = k * e.tokenDatabase.chunkSize) {blockIds : List ℕ}
    (h : e.storedRun X k ≤ blockIds.length) : ∃ ts, e.loadTransfers X mask blockIds = .ok ts := by
  rw [loadTransfers, e.tokenDatabase.processTokens_tensor X hk]
  refine e.loadLoop_ok ?_
  rw [takeWhile_chunkAt, List.length_map, List.length_range', Nat.zero_add]
  exact h

/-! ### What is prepared for storing -/

/-- **Induction along the loop of `prepare_for_store`**: a chunk that has a file is skipped, the loop
ends when no file can be opened, and a file that was opened is paired with the next block, if there
is one. -/
theorem storeLoop_induction (blockIds : List ℕ)
    {motive : List (ℕ × ℕ × CacheEngineKey) → ℕ → GeminiFSBackend →
      Except PyError (List ChunkTransfer) → GeminiFSBackend → Prop}
    (nil : ∀ index b, motive [] index b (.ok []) b)
    (skip : ∀ start stop key rest index b r b', b.contains key = true → motive rest index b r b' →
      motive ((start, stop, key) :: rest) index b r b')
    (full : ∀ start stop key rest index b, b.contains key = false →
      ops.gpuOpenFile b.openCalls = none →
      motive ((start, stop, key) :: rest) index b (.ok []) (b.allocate ops key).2)
    (noBlock : ∀ start stop key rest index b i, b.contains key = false →
      ops.gpuOpenFile b.openCalls = some i → blockIds[index]? = none →
      motive ((start, stop, key) :: rest) index b (.error .indexError) (b.allocate ops key).2)
    (store : ∀ start stop key rest index b i blockId r b', b.contains key = false →
      ops.gpuOpenFile b.openCalls = some i → blockIds[index]? = some blockId →
      motive rest (index + 1) (b.allocate ops key).2 r b' →
      motive ((start, stop, key) :: rest) index b
        (r.map (⟨start, stop, key, ⟨i, key⟩, blockId⟩ :: ·)) b')
    (ys : List (ℕ × ℕ × CacheEngineKey)) (index : ℕ) (b : GeminiFSBackend) :
    motive ys index b (storeLoop ops blockIds none ys index b).1
      (storeLoop ops blockIds none ys index b).2 := by
  induction ys generalizing index b with
  | nil => exact nil index b
  | cons y ys ih =>
      obtain ⟨start, stop, key⟩ := y
      rw [storeLoop]
      cases hk : b.contains key with
      | true => exact skip _ _ _ _ _ _ _ _ hk (ih index b)
      | false =>
          simp only [Bool.false_eq_true, if_false]
          cases ho : ops.gpuOpenFile b.openCalls with
          | none =>
              have hfull := full start stop key ys index b hk ho
              rw [GeminiFSBackend.allocate_of_none ho] at hfull ⊢
              exact hfull
          | some i =>
              have hno := noBlock start stop key ys index b i hk ho
              have hst := fun blockId r b' => store start stop key ys index b i blockId r b' hk ho
              rw [GeminiFSBackend.allocate_of_some ho] at hno hst ⊢
              cases hb : blockIds[index]? with
              | none => exact hno hb
              | some blockId => exact hst blockId _ _ hb (ih _ _)

/-- The loop only adds to the index, also when it raises. -/
theorem storeLoop_extends (blockIds : List ℕ) (ys : List (ℕ × ℕ × CacheEngineKey)) (index : ℕ)
    (b : GeminiFSBackend) : b.Extends (storeLoop ops blockIds none ys index b).2 := by
  refine storeLoop_induction ops blockIds (motive := fun _ _ b _ b' => b.Extends b') ?_ ?_ ?_ ?_ ?_
    ys index b
  · intro index b
    exact .refl b
  · intro _ _ _ _ _ _ _ _ _ ih
    exact ih
  · intro _ _ _ _ _ _ hk _
    exact GeminiFSBackend.extends_allocate hk
  · intro _ _ _ _ _ _ _ hk _ _
    exact GeminiFSBackend.extends_allocate hk
  · intro _ _ _ _ _ _ _ _ _ _ hk _ _ ih
    exact (GeminiFSBackend.extends_allocate hk).trans ih

theorem storeLoop_sameTransfers (blockIds : List ℕ) (ys : List (ℕ × ℕ × CacheEngineKey)) (index : ℕ)
    (b : GeminiFSBackend) : b.SameTransfers (storeLoop ops blockIds none ys index b).2 := by
  refine storeLoop_induction ops blockIds (motive := fun _ _ b _ b' => b.SameTransfers b')
    ?_ ?_ ?_ ?_ ?_ ys index b
  · intro index b
    exact .refl b
  · intro _ _ _ _ _ _ _ _ _ ih
    exact ih
  · intro _ _ _ _ _ _ _ _
    exact GeminiFSBackend.sameTransfers_allocate
  · intro _ _ _ _ _ _ _ _ _ _
    exact GeminiFSBackend.sameTransfers_allocate
  · intro _ _ _ _ _ _ _ _ _ _ _ _ _ ih
    exact GeminiFSBackend.sameTransfers_allocate.trans ih

/-- Every file that the loop adds to the index is the file of a transfer it returns. -/
theorem storeLoop_get {blockIds : List ℕ} {ys : List (ℕ × ℕ × CacheEngineKey)} {index : ℕ}
    {b : GeminiFSBackend} {ts : List ChunkTransfer}
    (h : (storeLoop ops blockIds none ys index b).1 = .ok ts) {key : CacheEngineKey}
    {f : GPUFileMetadata} (hf : (storeLoop ops blockIds none ys index b).2.get key = some f) :
    b.get key = some f ∨ ∃ t ∈ ts, t.key = key ∧ t.gpuFile = f := by
  revert h hf
  refine storeLoop_induction ops blockIds (motive := fun _ _ b r b' => ∀ {ts}, r = .ok ts →
    b'.get key = some f → b.get key = some f ∨ ∃ t ∈ ts, t.key = key ∧ t.gpuFile = f)
    ?_ ?_ ?_ ?_ ?_ ys index b
  · intro index b ts _ hf
    exact Or.inl hf
  · intro _ _ _ _ _ _ _ _ _ ih ts h hf
    exact ih h hf
  · intro _ _ _ _ _ b _ ho ts _ hf
    rw [GeminiFSBackend.allocate_of_none ho] at hf
    exact Or.inl hf
  · intro _ _ _ _ _ _ _ _ _ _ ts h _
    cases h
  · intro start stop key' rest index b i blockId r b' hk ho hb ih ts h hf
    obtain ⟨ts', hr, rfl⟩ := map_eq_ok.1 h
    rcases ih hr hf with hold | ⟨t, ht, hkey⟩
    · rw [GeminiFSBackend.get_allocate ho] at hold
      split at hold
      · rename_i heq
        cases hold
        exact Or.inr ⟨_, List.mem_cons_self .., heq.symm, rfl⟩
      · exact Or.inl hold
    · exact Or.inr ⟨t, List.mem_cons_of_mem _ ht, hkey⟩

/-- The chunks that are run through for a tensor: none when the mask is refused, and otherwise the
loop over them raises no exception of its own. -/
theorem storeTransfers_cases (tokens : List ℤ) (mask : Option (List Bool)) (blockIds : List ℕ) :
    (∃ err, e.storeTransfers ops tokens mask blockIds = (.error err, e.storageBackend)) ∨
      ∃ ys, e.storeTransfers ops tokens mask blockIds =
        storeLoop ops blockIds none ys 0 e.storageBackend := by
  rw [storeTransfers]
  by_cases hmod : ChunkedTokenDatabase.numFalses mask % e.tokenDatabase.chunkSize ≠ 0
  · rw [e.tokenDatabase.processTokens_of_mod_ne_zero _ hmod]
    exact Or.inl ⟨_, rfl⟩
  · rw [e.tokenDatabase.processTokens_tensor tokens
      (Nat.div_mul_cancel (Nat.dvd_of_mod_eq_zero (not_not.1 hmod))).symm]
    exact Or.inr ⟨_, rfl⟩

/-- **`prepare_for_store` only adds to the index**, also when it raises. -/
theorem prepareForStore_extends (tokens : List ℤ) (mask : Option (List Bool)) (blockIds : List ℕ)
    (offset : Option ℕ) :
    e.storageBackend.Extends (e.prepareForStore ops tokens mask blockIds offset).2.storageBackend := by
  show e.storageBackend.Extends (e.storeTransfers ops tokens mask blockIds).2
  rcases e.storeTransfers_cases ops tokens mask blockIds with ⟨err, h⟩ | ⟨ys, h⟩
  · rw [h]
    exact .refl _
  · rw [h]
    exact storeLoop_extends ops blockIds ys 0 _

theorem storeTransfers_sameTransfers (tokens : List ℤ) (mask : Option (List Bool))
    (blockIds : List ℕ) :
    e.storageBackend.SameTransfers (e.storeTransfers ops tokens mask blockIds).2 := by
  rcases e.storeTransfers_cases ops tokens mask blockIds with ⟨err, h⟩ | ⟨ys, h⟩
  · rw [h]
    exact .refl _
  · rw [h]
    exact storeLoop_sameTransfers ops blockIds ys 0 _

/-- Every file that `prepare_for_store` adds to the index is one that it returns. -/
theorem storeTransfers_get {tokens : List ℤ} {mask : Option (List Bool)} {blockIds : List ℕ}
    {ts : List ChunkTransfer} (h : (e.storeTransfers ops tokens mask blockIds).1 = .ok ts)
    {key : CacheEngineKey} {f : GPUFileMetadata}
    (hf : (e.storeTransfers ops tokens mask blockIds).2.get key = some f) :
    e.storageBackend.get key = some f ∨ ∃ t ∈ ts, t.key = key ∧ t.gpuFile = f := by
  rcases e.storeTransfers_cases ops tokens mask blockIds with ⟨err, heq⟩ | ⟨ys, heq⟩
  · rw [heq] at hf
    exact Or.inl hf
  · rw [heq] at h hf
    exact storeLoop_get ops h hf

/-! ### What the transfers of a layer change -/

/-- The engine with another record of reads. -/
def withReads (reads : List (BatchedXfer × Bool)) : InfiniKVEngine :=
  { e with storageBackend := { e.storageBackend with reads := reads } }

/-- The engine with another record of writes. -/
def withWrites (writes : List BatchedXfer) : InfiniKVEngine :=
  { e with storageBackend := { e.storageBackend with writes := writes } }

@[simp] theorem tokenDatabase_withReads (reads : List (BatchedXfer × Bool)) :
    (e.withReads reads).tokenDatabase = e.tokenDatabase := rfl

@[simp] theorem get_withReads (reads : List (BatchedXfer × Bool)) (key : CacheEngineKey) :
    (e.withReads reads).storageBackend.get key = e.storageBackend.get key := rfl

@[simp] theorem contains_withReads (reads : List (BatchedXfer × Bool)) (key : CacheEngineKey) :
    (e.withReads reads).storageBackend.contains key = e.storageBackend.contains key := rfl

@[simp] theorem writes_withReads (reads : List (BatchedXfer × Bool)) :
    (e.withReads reads).storageBackend.writes = e.storageBackend.writes := rfl

@[simp] theorem get_withWrites (writes : List BatchedXfer) (key : CacheEngineKey) :
    (e.withWrites writes).storageBackend.get key = e.storageBackend.get key := rfl

@[simp] theorem writes_withWrites (writes : List BatchedXfer) :
    (e.withWrites writes).storageBackend.writes = writes := rfl

theorem storeLoop_reads (blockIds : List ℕ) (raises : Option PyError)
    (reads : List (BatchedXfer × Bool)) (ys : List (ℕ × ℕ × CacheEngineKey)) (index : ℕ)
    (b : GeminiFSBackend) :
    storeLoop ops blockIds raises ys index { b with reads := reads } =
      ((storeLoop ops blockIds raises ys index b).1,
        { (storeLoop ops blockIds raises ys index b).2 with reads := reads }) := by
  induction ys generalizing index b with
  | nil => rfl
  | cons y ys ih =>
      obtain ⟨start, stop, key⟩ := y
      rw [storeLoop, storeLoop]
      cases hk : b.contains key with
      | true =>
          have hk' : ({ b with reads := reads } : GeminiFSBackend).contains key = true := hk
          rw [hk', if_pos rfl, if_pos rfl, ih]
      | false =>
          have hk' : ({ b with reads := reads } : GeminiFSBackend).contains key = false := hk
          rw [hk', if_neg Bool.false_ne_true, if_neg Bool.false_ne_true]
          cases ho : ops.gpuOpenFile b.openCalls with
          | none =>
              have ho' : ops.gpuOpenFile ({ b with reads := reads } : GeminiFSBackend).openCalls = none := ho
              rw [GeminiFSBackend.allocate_of_none ho, GeminiFSBackend.allocate_of_none ho']
          | some i =>
              have ho' : ops.gpuOpenFile ({ b with reads := reads } : GeminiFSBackend).openCalls = some i := ho
              rw [GeminiFSBackend.allocate_of_some ho, GeminiFSBackend.allocate_of_some ho']
              cases blockIds[index]? with
              | none => rfl
              | some blockId =>
                  have hrec := ih (index + 1) { b with
                    openCalls := b.openCalls + 1
                    numGpuFiles := b.numGpuFiles + 1
                    dict := b.dict.insert key ⟨i, key⟩ }
                  simp only at hrec ⊢
                  rw [hrec]

/-- The transfers prepared for storing do not depend on the reads issued before. -/
theorem storeTransfers_withReads (reads : List (BatchedXfer × Bool)) (tokens : List ℤ)
    (mask : Option (List Bool)) (blockIds : List ℕ) :
    (e.withReads reads).storeTransfers ops tokens mask blockIds =
      ((e.storeTransfers ops tokens mask blockIds).1,
        { (e.storeTransfers ops tokens mask blockIds).2 with reads := reads }) :=
  storeLoop_reads ops blockIds _ reads _ 0 _

/-- The record of reads after `retrieve_layer`: unchanged past the last layer, and otherwise longer by
a read of the layer after `nextLayer`. -/
theorem retrieveLayer_cases {kvcaches : List KVCache} {nextLayer : ℤ}
    {gpuFiles : List GPUFileMetadata} {blockIds : List ℕ} {e' : InfiniKVEngine}
    (h : e.retrieveLayer ops kvcaches nextLayer gpuFiles blockIds = .ok e') :
    ((e.numLayers ≤ nextLayer ∨ e.storageBackend.numLayers ≤ nextLayer + 1) ∧ e' = e) ∨
      (nextLayer < e.numLayers ∧ nextLayer + 1 < e.storageBackend.numLayers ∧
        e' = e.withReads (e.storageBackend.reads ++
          [(⟨e.storageBackend.useMla, gpuFiles.map (·.id), blockIds, (nextLayer + 1).toNat⟩,
            ops.geminifsBatchedRead e.storageBackend.reads.length)])) := by
  rw [retrieveLayer] at h
  split at h
  · rename_i hge
    cases h
    exact Or.inl ⟨Or.inl hge, rfl⟩
  · rename_i hlt
    obtain ⟨b, hb, rfl⟩ := map_eq_ok.1 h
    rw [GeminiFSBackend.layerwiseBatchGet] at hb
    split at hb
    · rename_i hge
      cases hb
      exact Or.inl ⟨Or.inr hge, rfl⟩
    · rename_i hlt'
      simp only at hb
      split at hb
      · cases hb
      · split at hb
        · cases hb
        · obtain ⟨_, -, hb⟩ := bind_eq_ok.1 hb
          cases hb
          exact Or.inr ⟨by omega, by omega, rfl⟩

/-- The record of writes after `store_layer` is longer by a write of the first of the layers. -/
theorem storeLayer_cases {kvcaches : List KVCache} {gpuFiles : List GPUFileMetadata}
    {blockIds layerIds : List ℕ} {e' : InfiniKVEngine}
    (h : e.storeLayer kvcaches gpuFiles blockIds layerIds = .ok e') :
    ∃ layer rest, layerIds = layer :: rest ∧
      e' = e.withWrites (e.storageBackend.writes ++
        [⟨e.storageBackend.useMla, gpuFiles.map (·.id), blockIds, layer⟩]) := by
  rw [storeLayer] at h
  obtain ⟨b, hb, rfl⟩ := map_eq_ok.1 h
  unfold GeminiFSBackend.layerwiseBatchPut at hb
  split at hb
  · cases hb
  · cases layerIds with
    | nil => cases hb
    | cons layer rest =>
        obtain ⟨_, -, hb⟩ := bind_eq_ok.1 hb
        cases hb
        exact ⟨layer, rest, rfl, rfl⟩

end InfiniKVEngine

end InfiniKV
