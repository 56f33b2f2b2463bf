/-
**Chunk size and block size.**

`init_infinikv_engine` computes the shape of the KV cache for the block size of vLLM, and says so if the
configured chunk size is another one; but the configuration is handed on unchanged, and the token
database reads its chunk size from there.  The masks of the connector are aligned to the block size, and
`process_tokens` checks them against the chunk size.  If the two sizes are equal, then every chunk is a
block and no mask is refused in any run of the system; otherwise the first chunk is not a block.

Main definitions:

* `InfiniKV.Worker.MasksFit` — the masks for a request skip whole chunks;
* `InfiniKV.VllmConfig.ChunkSizesAgree` — chunks are blocks, and no mask is refused.

Main results:

* `InfiniKV.Worker.startLoadKv_ne_valueError` — masks that fit are not refused;
* `InfiniKV.Scheduler.masksFit_of_schedule` — the masks of a step fit, if chunks are blocks;
* `InfiniKV.VllmConfig.chunkSizesAgree_iff` — **the sizes agree exactly if they are configured so**.
-/

import InfiniKV.EngineInit
import InfiniKV.SameKeys
import InfiniKV.StaleSave

set_option relaxedAutoImplicit false
set_option autoImplicit false

namespace InfiniKV

/-! ### Who raises a `ValueError` -/

namespace InfiniKVEngine

variable {e : InfiniKVEngine} {ops : GeminiFSOps} {blockIds : List ℕ} {raises : Option PyError}
  {ys : List (ℕ × ℕ × CacheEngineKey)} {index : ℕ} {msg : String}

theorem exhausted_ne_valueError {α : Type} {a : α} (h : raises ≠ some (.valueError msg)) :
    exhausted raises a ≠ .error (.valueError msg) := by
  cases raises with
  | none => simp [exhausted]
  | some e =>
      intro h'
      cases h'
      exact h rfl

/-- The loop of `prepare_for_load` raises no `ValueError` of its own. -/
theorem loadLoop_ne_valueError (h : raises ≠ some (.valueError msg)) :
    e.loadLoop blockIds raises ys index ≠ .error (.valueError msg) := by
  induction ys generalizing index with
  | nil => exact exhausted_ne_valueError h
  | cons y ys ih =>
      obtain ⟨start, stop, key⟩ := y
      rw [loadLoop]
      split
      · exact ih
      · split
        · simp
        · split
          · simp
          · exact map_ne_error ih

/-- Nor does the loop of `prepare_for_store`. -/
theorem storeLoop_ne_valueError {b : GeminiFSBackend} (h : raises ≠ some (.valueError msg)) :
    (storeLoop ops blockIds raises ys index b).1 ≠ .error (.valueError msg) := by
  induction ys generalizing index b with
  | nil => exact exhausted_ne_valueError h
  | cons y ys ih =>
      obtain ⟨start, stop, key⟩ := y
      rw [storeLoop]
      split
      · exact ih
      · split
        · simp
        · split
          · simp
          · exact map_ne_error ih

/-- `process_tokens` raises nothing for a tensor, if the mask skips whole chunks. -/
theorem raises_processTokens {X : List ℤ} {mask : Option (List Bool)}
    (h : e.tokenDatabase.chunkSize ∣ ChunkedTokenDatabase.numFalses mask) :
    (e.tokenDatabase.processTokens ⟨.tensor, X⟩ mask).raises = none := by
  obtain ⟨k, hk⟩ := h
  rw [Nat.mul_comm] at hk
  rw [e.tokenDatabase.processTokens_tensor X hk]

theorem loadTransfers_ne_valueError {X : List ℤ} {mask : Option (List Bool)}
    (h : e.tokenDatabase.chunkSize ∣ ChunkedTokenDatabase.numFalses mask) :
    e.loadTransfers X mask blockIds ≠ .error (.valueError msg) := by
  refine loadLoop_ne_valueError ?_
  rw [raises_processTokens h]
  simp

theorem storeTransfers_ne_valueError {X : List ℤ} {mask : Option (List Bool)}
    (h : e.tokenDatabase.chunkSize ∣ ChunkedTokenDatabase.numFalses mask) :
    (e.storeTransfers ops X mask blockIds).1 ≠ .error (.valueError msg) := by
  refine storeLoop_ne_valueError ?_
  rw [raises_processTokens h]
  simp

/-- Reading a layer raises no `ValueError`. -/
theorem retrieveLayer_ne_valueError {kvcaches : List KVCache} {layer : ℤ}
    {fileIds : List GPUFileMetadata} :
    e.retrieveLayer ops kvcaches layer fileIds blockIds ≠ .error (.valueError msg) := by
  have hcheck : ∀ next (bs : List (ℕ × ℕ)),
      GeminiFSBackend.checkBlocks kvcaches next bs ≠ .error (.valueError msg) := by
    intro next bs
    induction bs with
    | nil => simp [GeminiFSBackend.checkBlocks]
    | cons b bs ih =>
        obtain ⟨blockId, layerId⟩ := b
        rw [GeminiFSBackend.checkBlocks]
        split
        · simp
        · split
          · simp
          · split
            · exact ih
            · simp
  rw [retrieveLayer]
  split
  · simp
  · refine map_ne_error ?_
    rw [GeminiFSBackend.layerwiseBatchGet]
    split
    · simp
    · simp only
      split
      · simp
      · split
        · simp
        · exact bind_ne_error (hcheck _ _) fun _ _ => by simp

end InfiniKVEngine

theorem TaskQueueforSave.popTasks_ne_valueError {n : ℕ} {q : TaskQueueforSave} {msg : String} :
    popTasks n q ≠ .error (.valueError msg) := by
  induction n generalizing q with
  | zero => simp [popTasks]
  | succ n ih =>
      rw [popTasks]
      split
      · simp
      · split
        · exact map_ne_error ih
        · simp

namespace Worker

variable {ops : GeminiFSOps} {w : Worker} {msg : String}

/-- **The masks for a request skip whole chunks**: that of its load, and that of its save if it is to be
saved. -/
structure MasksFit (w : Worker) (m : ReqMeta) : Prop where
  load : ∀ l, m.loadSpec = some l → w.infinikvEngine.tokenDatabase.chunkSize ∣
    ChunkedTokenDatabase.numFalses (some
      ((skipMask (w.maskedTokenCount l) m.tokenIds.length).take l.externalCachedTokens))
  save : ∀ s, m.saveSpec = some s → s.canSave = true → w.infinikvEngine.tokenDatabase.chunkSize ∣
    ChunkedTokenDatabase.numFalses (some (storeMask w.infinikvChunkSize m s))

/-- The loads of a step are not refused. -/
theorem loadRequests_ne_valueError {rs : List ReqMeta} (h : ∀ m ∈ rs, w.MasksFit m) :
    w.loadRequests rs ≠ .error (.valueError msg) := by
  induction rs with
  | nil => simp [loadRequests]
  | cons m rs ih =>
      rw [loadRequests]
      refine bind_ne_error ?_ fun _ _ => bind_ne_error (ih fun m' hm' => h m' (List.mem_cons_of_mem _ hm'))
        fun _ _ => by simp
      rw [loadRequest]
      split
      · simp
      · rename_i l hl
        refine bind_ne_error (map_ne_error ?_) fun _ _ => by simp
        exact InfiniKVEngine.loadTransfers_ne_valueError ((h m List.mem_cons_self).load l hl)

/-- Saving a request is not refused. -/
theorem saveRequest_ne_valueError {c : ℕ} {e : InfiniKVEngine} {m : ReqMeta}
    (h : ∀ s, m.saveSpec = some s → s.canSave = true →
      e.tokenDatabase.chunkSize ∣ ChunkedTokenDatabase.numFalses (some (storeMask c m s))) :
    saveRequest ops c e m ≠ .error (.valueError msg) := by
  rw [saveRequest]
  split
  · simp
  · rename_i s hs
    split
    · simp
    · rename_i hcan
      split
      · simp
      · have hstore : (e.prepareForStore ops m.tokenIds (some (storeMask c m s)) m.blockIds
            (some (s.skipLeadingTokens / c * c))).1 ≠ .error (.valueError msg) :=
          map_ne_error (InfiniKVEngine.storeTransfers_ne_valueError (h s hs (by simpa using hcan)))
        rw [storeMask] at hstore
        simp only
        split
        · rename_i err _ herr
          rw [herr] at hstore
          exact fun h' => hstore (by cases h'; rfl)
        · split
          · simp
          · simp

/-- The saves of a step are not refused. -/
theorem saveRequests_ne_valueError {c : ℕ} {e : InfiniKVEngine} {rs : List ReqMeta}
    (h : ∀ m ∈ rs, ∀ s, m.saveSpec = some s → s.canSave = true →
      e.tokenDatabase.chunkSize ∣ ChunkedTokenDatabase.numFalses (some (storeMask c m s))) :
    saveRequests ops c e rs ≠ .error (.valueError msg) := by
  induction rs generalizing e with
  | nil => simp [saveRequests]
  | cons m rs ih =>
      rw [saveRequests]
      refine bind_ne_error (saveRequest_ne_valueError (h m List.mem_cons_self)) ?_
      rintro ⟨m', tasks, e'⟩ hm
      have hdb : e'.tokenDatabase = e.tokenDatabase := by
        rcases saveRequest_cases hm with ⟨-, -, -, rfl⟩ | ⟨s, ts, b, -, -, -, rfl, -⟩
        · rfl
        · rfl
      refine bind_ne_error (ih ?_) fun _ _ => by simp
      rw [hdb]
      exact fun m₁ hm₁ => h m₁ (List.mem_cons_of_mem _ hm₁)

/-- **Masks that fit are not refused**: `start_load_kv` raises no `ValueError`. -/
theorem startLoadKv_ne_valueError {outcome : ℕ × Option CudaStream}
    {metadata : InfiniKVConnectorMetadata} (h : ∀ m ∈ metadata.requests, w.MasksFit m) :
    w.startLoadKv ops outcome metadata ≠ .error (.valueError msg) := by
  refine bind_ne_error ?_ ?_
  · rw [prepareForLoad]
    split
    · simp
    · refine bind_ne_error (loadRequests_ne_valueError fun m hm => ⟨(h m hm).load, (h m hm).save⟩) ?_
      rintro ⟨requests, fileIds, blockIds⟩ -
      simp only
      split
      · simp
      · exact bind_ne_error InfiniKVEngine.retrieveLayer_ne_valueError fun _ _ => by simp
  · rintro ⟨w₁, metadata₁⟩ hload
    obtain ⟨reads, requests, rfl, rfl, hsame⟩ := prepareForLoad_frame hload
    refine bind_ne_error (saveRequests_ne_valueError ?_) ?_
    · -- the save specs are those from before
      intro m' hm' s hs hcan
      change m' ∈ requests at hm'
      obtain ⟨hlen, hget⟩ := List.forall₂_iff_get.1 hsame
      obtain ⟨⟨i, hi⟩, rfl⟩ := List.get_of_mem hm'
      have hi' : i < metadata.requests.length := by omega
      have hmm : SameSave (metadata.requests.get ⟨i, hi'⟩) (requests.get ⟨i, hi⟩) := hget i hi' hi
      rw [hmm] at hs ⊢
      exact (h _ (List.get_mem _ _)).save s hs hcan
    · rintro ⟨requests', ioTasks, engine⟩ -
      simp only
      split
      · simp
      · exact bind_ne_error TaskQueueforSave.popTasks_ne_valueError fun _ _ => by simp

end Worker

/-! ### The masks of a step -/

namespace Scheduler

variable {kv : KVCacheOps} {lookup : List ℤ → Except PyError ℕ} {s s' : Scheduler} {p : Pass}
  {metadata : InfiniKVConnectorMetadata} {c : SchedulerConnector} {t t' : RequestTracker}
  {l : Option LoadSpec} {m : ReqMeta} {x : ScheduledRequest} {w : Worker}

/-- As many tokens are handed over as may be hashed. -/
theorem length_tokenIds_of_fromTracker (h : c.fromTracker t l = .ok (some m, t')) :
    m.tokenIds.length = ReqMeta.numTokensToSave t c.blockSize c.discardPartialChunks := by
  rcases ReqMeta.fromRequestTracker_cases h with ⟨-, -, hnone, -⟩ | ⟨m', hm', -, htokens, -⟩
  · cases hnone
  · cases hm'
    rw [length_applyMmHashesToTokenIds htokens, List.length_take]
    exact min_eq_left (ReqMeta.numTokensToSave_le ..)

/-- The load spec that is handed over may be loaded. -/
theorem loadSpec_of_fromTracker (h : c.fromTracker t l = .ok (some m, t')) :
    m.loadSpec = l.filter (·.canLoad) := by
  rcases ReqMeta.fromRequestTracker_cases h with ⟨-, -, hnone, -⟩ | ⟨m', hm', -, -, -, -, hl, -⟩
  · cases hnone
  · cases hm'
    exact hl

/-- A multiple of the block size that does not exceed the tokens of the tracker does not exceed those that
are handed over. -/
theorem le_numTokensToSave {size n : ℕ} (hsize : 0 < size) (hdvd : size ∣ n)
    (hle : n ≤ t.tokenIds.length) (discard : Bool) : n ≤ ReqMeta.numTokensToSave t size discard := by
  rw [ReqMeta.numTokensToSave]
  split
  · obtain ⟨k, rfl⟩ := hdvd
    rw [Nat.mul_comm] at hle ⊢
    exact Nat.mul_le_mul_right _ ((Nat.le_div_iff_mul_le hsize).2 hle)
  · exact hle

/-- The mask of a save skips whole blocks. -/
theorem save_fits (hsize : c.blockSize = w.infinikvChunkSize) (hpos : 0 < w.infinikvChunkSize)
    (h : c.fromTracker t l = .ok (some m, t')) {spec : SaveSpec} (hspec : m.saveSpec = some spec)
    (hcan : spec.canSave = true) : w.infinikvChunkSize ∣
      ChunkedTokenDatabase.numFalses (some (Worker.storeMask w.infinikvChunkSize m spec)) := by
  have hlen := length_tokenIds_of_fromTracker h
  rcases ReqMeta.fromRequestTracker_cases h with ⟨-, -, hnone, -⟩ | ⟨m', hm', -, -, -, hsave, -⟩
  · cases hnone
  · cases hm'
    cases hsave.symm.trans hspec
    have hboundary : ReqMeta.belowBoundary t c.blockSize = false := by
      have hskip : (c.forceSkipSave || ReqMeta.belowBoundary t c.infinikvChunkSize) = false := by
        simpa using hcan
      exact (Bool.or_eq_false_iff.1 hskip).2
    rw [← hsize] at hpos ⊢
    -- there are more tokens than were saved before
    have hlt := ReqMeta.lt_numTokensToSave hpos hboundary c.discardPartialChunks
    have hle := Nat.div_mul_le_self t.numSavedTokens c.blockSize
    rw [Worker.storeMask, numFalses_skipMask]
    simp only
    rw [min_eq_left (by omega)]
    exact Nat.dvd_mul_left ..

/-- The mask of a load skips whole blocks, if the tokens reach beyond the local hit. -/
theorem load_fits {spec : LoadSpec} (hlen : w.maskedTokenCount spec ≤ m.tokenIds.length)
    (hext : spec.vllmCachedTokens ≤ spec.externalCachedTokens) : w.infinikvChunkSize ∣
      ChunkedTokenDatabase.numFalses (some
        ((skipMask (w.maskedTokenCount spec) m.tokenIds.length).take spec.externalCachedTokens)) := by
  have hle : w.maskedTokenCount spec ≤ spec.vllmCachedTokens := Nat.div_mul_le_self _ _
  rw [take_skipMask, numFalses_skipMask, min_eq_left (by omega)]
  exact Nat.dvd_mul_left ..

/-- The tracker of a request that was admitted reaches to the local hit, and so does the external hit, if a
lookup reports no more tokens than it is asked for. -/
theorem localHit_le (hlookup : ∀ tokenIds n, lookup tokenIds = .ok n → n ≤ tokenIds.length)
    (hp : Pass.PassInv s p) (hx : x ∈ p.scheduled) (hkind : x.kind ≠ .running) {spec : LoadSpec}
    (hspec : LoadableFor s lookup x spec) {r : Request} (hr : p.scheduler.requests x.reqId = some r)
    {n k : ℕ} (ht : RequestTracker.fromNewRequest (Pass.newRequestData x r) (r.numComputedTokens + n) k =
      .ok t) :
    spec.vllmCachedTokens ≤ t.tokenIds.length ∧
      spec.vllmCachedTokens ≤ spec.externalCachedTokens := by
  obtain ⟨hlocal, hhit, r₀, tokenIds, hr₀, htokens, hanswer⟩ := hspec
  obtain ⟨r₁, hr₁, -, hreq, -⟩ := (hp.entry_cases hx).resolve_left fun hrun => hkind hrun.1
  cases hr₀.symm.trans hr₁
  cases hr.symm.trans hreq
  -- the external hit is inside the prompt
  have hprompt : spec.externalCachedTokens ≤ r₀.promptTokenIds.length := by
    obtain ⟨Z, j, hZ, hj, rfl⟩ := SchedulerConnector.tokensToLookup_eq_ok htokens
    have hle := hlookup _ _ hanswer
    rw [List.length_take] at hle
    have hlen := length_applyMmHashesToTokenIds hZ
    omega
  refine ⟨?_, by omega⟩
  cases ht
  show _ ≤ (r₀.promptTokenIds.take _).length
  rw [List.length_take]
  refine Nat.le_min.2 ⟨?_, by omega⟩
  show _ ≤ x.numLocalComputedTokens + x.numExternalComputedTokens + n
  omega

/-- **The masks of a step fit**, if chunks are blocks and a lookup reports no more tokens than it is
asked for. -/
theorem masksFit_of_schedule (hs : s.WellFormed) (hnamed : s.connector.Named)
    (hlookup : ∀ tokenIds n, lookup tokenIds = .ok n → n ≤ tokenIds.length)
    (hsize : s.connector.blockSize = w.infinikvChunkSize)
    (hchunk : w.infinikvEngine.tokenDatabase.chunkSize = w.infinikvChunkSize)
    (h : s.schedule kv lookup = .ok (p, metadata, s')) : ∀ m ∈ metadata.requests, w.MasksFit m := by
  intro m hm
  have hsched := schedule_spec hs hnamed h
  have hp := hsched.pass
  have hpos : 0 < w.infinikvChunkSize := hchunk ▸ w.infinikvEngine.tokenDatabase.chunkSize_pos
  have hsize' : p.scheduler.connector.blockSize = w.infinikvChunkSize := hp.connector.blockSize.trans hsize
  have hmem : m ∈ SchedulerConnector.metasOf m.reqId metadata.requests := List.mem_filter.2 ⟨hm, by simp⟩
  cases hsched.built m.reqId with
  | other _ _ _ _ hmetas =>
      rw [hmetas] at hmem
      cases hmem
  | new d hd hid n _ t t' m' ht hm' _ _ hmetas =>
      rw [hmetas, Option.mem_toList] at hmem
      cases hmem
      refine ⟨fun spec hspec => ?_, fun spec hspec hcan => ?_⟩
      · rw [hchunk]
        obtain ⟨x, hx, hd'⟩ := List.mem_filterMap.1 hd
        obtain ⟨r', hr', rfl⟩ := Option.map_eq_some_iff.1 hd'
        obtain ⟨hxs, hkind⟩ := Pass.mem_newReqs.1 hx
        have hne : x.kind ≠ .running := by
          rcases hkind with hkind | ⟨hkind, -⟩
          · simp [hkind]
          · simp [hkind]
        have hid' : x.reqId = m.reqId := hid
        rw [loadSpec_of_fromTracker hm'] at hspec
        obtain ⟨hl, hcan⟩ := Option.filter_eq_some_iff.1 hspec
        rw [← hid'] at hl
        have hloadable := schedulePass_loadable hs (schedulePass_of_schedule h) x hxs hne spec hl hcan
        obtain ⟨htlen, hext⟩ := localHit_le hlookup hp hxs hne hloadable hr' ht
        refine load_fits ?_ hext
        rw [length_tokenIds_of_fromTracker hm', hsize']
        refine le_numTokensToSave hpos (Nat.dvd_mul_left ..) ?_ _
        exact (Nat.div_mul_le_self _ _).trans htlen
      · rw [hchunk]
        exact save_fits hsize' hpos hm' hspec hcan
  | cached req hreq hid n _ t t' r m' _ _ _ _ hm' _ _ hmetas =>
      rw [hmetas, Option.mem_toList] at hmem
      cases hmem
      refine ⟨fun spec hspec => ?_, fun spec hspec hcan => ?_⟩
      · -- no load spec is looked at
        rw [loadSpec_of_fromTracker hm'] at hspec
        cases hspec
      · rw [hchunk]
        exact save_fits hsize' hpos hm' hspec hcan

end Scheduler

/-! ### Agreement -/

/-- The text of the `ValueError` of `process_tokens`. -/
def maskMessage : String := "The number of Falses in the mask is not a multiple of the chunk size."

namespace VllmConfig

variable {vllm : VllmConfig} {config : InfiniKVEngineConfig} {hasEngine : Bool} {kvcaches : List KVCache}
  {w : Worker}

/-- **Chunk and block size agree**, for a worker that was set up.  The size of a part of a GPU file is that
of the keys, or the values, of a block of vLLM.  Every chunk that the token database yields is a block of
the token sequence, which is full unless partial chunks are kept.  And in every run that begins with the
worker, whatever metadata is built, preparing the loads and the saves does not raise the `ValueError` about
the mask. -/
structure ChunkSizesAgree (vllm : VllmConfig) (config : InfiniKVEngineConfig) (w : Worker) : Prop where
  shape : ∀ itemsize, (gpuFileShape w.infinikvEngine.tokenDatabase.metadata itemsize).2.2 =
    vllm.blockSize * vllm.getNumKvHeads * vllm.headSize * itemsize
  chunks : ∀ tokens mask, ∀ y ∈ (w.infinikvEngine.tokenDatabase.processTokens tokens mask).yields,
    ∃ j, y.1 = j * vllm.blockSize ∧ y.2.1 = min (y.1 + vllm.blockSize) tokens.ids.length ∧
      (config.saveUnfullChunk = false → y.2.1 = y.1 + vllm.blockSize)
  masks : ∀ (kv : KVCacheOps) (fs : GeminiFSOps) (setup : Setup) (sys : System) (p : Pass)
    (metadata : InfiniKVConnectorMetadata) (s : Scheduler) (outcome : ℕ × Option CudaStream),
    (System.init setup).worker = w → setup.blockSize = vllm.blockSize → System.Run kv fs setup sys →
    sys.scheduler.schedule kv sys.worker.lookup = .ok (p, metadata, s) →
    sys.worker.startLoadKv fs outcome metadata ≠ .error (.valueError maskMessage)

/-- If every chunk is a block, then the sizes are equal: the first of two chunks shows it. -/
theorem chunkSize_eq_of_chunks (db : ChunkedTokenDatabase) {size : ℕ}
    (h : ∀ tokens mask, ∀ y ∈ (db.processTokens tokens mask).yields,
      y.2.1 = min (y.1 + size) tokens.ids.length) : db.chunkSize = size := by
  have hpos := db.chunkSize_pos
  let X : List ℤ := List.replicate (db.chunkSize + db.chunkSize) 0
  have hlen : X.length = db.chunkSize + db.chunkSize := List.length_replicate
  have hmem : db.chunkAt X 0 ∈ (db.processTokens ⟨.tensor, X⟩ none).yields := by
    refine db.mem_yields_tensor.2 ⟨0, (Nat.zero_mul _).symm, 0, le_rfl, db.lt_numChunks_of_le ?_, rfl⟩
    omega
  have hend := h ⟨.tensor, X⟩ none _ hmem
  simp only [ChunkedTokenDatabase.chunkAt, hlen] at hend
  omega

/-- **The sizes agree exactly if they are configured so**, for every worker that `init_infinikv_engine` and
the connector set up. -/
theorem chunkSizesAgree_iff (h : vllm.initWorker config hasEngine kvcaches = .ok w) :
    vllm.ChunkSizesAgree config w ↔ config.chunkSize = vllm.blockSize := by
  obtain ⟨-, rfl⟩ := vllm.initWorker_eq_ok h
  constructor
  · intro hagree
    refine chunkSize_eq_of_chunks (.init config (vllm.engineMetadata config)) fun tokens mask y hy => ?_
    obtain ⟨j, -, hend, -⟩ := hagree.chunks tokens mask y hy
    exact hend
  · intro hsize
    refine ⟨fun itemsize => ?_, fun tokens mask y hy => ?_, ?_⟩
    · show (gpuFileShape (vllm.engineMetadata config) itemsize).2.2 = _
      simp [gpuFileShape]
    · obtain ⟨j, hj, hstart, hend⟩ := ChunkedTokenDatabase.range_of_mem_yields _ hy
      change y.1 = j * config.chunkSize at hstart
      change y.2.1 = min (j * config.chunkSize + config.chunkSize) tokens.ids.length at hend
      rw [hsize] at hstart hend
      refine ⟨j, hstart, by rw [hend, hstart], fun hfull => ?_⟩
      -- without partial chunks, a chunk ends inside the sequence
      change j < if config.saveUnfullChunk then _ else tokens.ids.length / config.chunkSize at hj
      rw [if_neg (by simp [hfull]), hsize, Nat.lt_iff_add_one_le,
        Nat.le_div_iff_mul_le vllm.blockSize_pos, Nat.succ_mul] at hj
      omega
    · intro kv fs setup sys p metadata s outcome hworker hblock hrun hsched
      have hsys := hrun.configured
      obtain ⟨hs, hnamed⟩ := hrun.scheduler.wellFormed
      have hconfig : setup.engineConfig.chunkSize = config.chunkSize :=
        congrArg (fun w => w.infinikvEngine.tokenDatabase.chunkSize) hworker
      refine Worker.startLoadKv_ne_valueError (Scheduler.masksFit_of_schedule hs hnamed ?_ ?_ ?_ hsched)
      · intro tokenIds n hn
        rw [Worker.lookup, InfiniKVEngine.lookup_tensor, Except.ok.injEq] at hn
        omega
      · rw [hsys.blockSize, hsys.infinikvChunkSize]
      · rw [hsys.tokenDatabase, hsys.infinikvChunkSize, hblock, ← hsize]
        exact hconfig

/-- A model of one layer, in blocks of 16 tokens. -/
def blocksOfSixteen : VllmConfig := ⟨['m'], [.fullAttention], false, 1, 1, 1, 1, 0, 16, by decide⟩

/-- The theorem at chunks of 16 tokens. -/
theorem chunkSizesAgree_iff_sixteen :
    ∃ w, blocksOfSixteen.initWorker ⟨16, false, by decide⟩ false [8] = .ok w ∧
      blocksOfSixteen.ChunkSizesAgree ⟨16, false, by decide⟩ w := by
  obtain ⟨w, hw⟩ : ∃ w, blocksOfSixteen.initWorker ⟨16, false, by decide⟩ false [8] = .ok w := ⟨_, rfl⟩
  exact ⟨w, hw, (chunkSizesAgree_iff hw).2 rfl⟩

/-- A system with the default chunk size, and blocks of 16 tokens, in which a step has 16 tokens. -/
def defaultSetup : Setup where
  schedulerConfig := ⟨16, 4, 0, true, 100, .fcfs, true⟩
  kvRole := .both
  discardPartialChunks := true
  skipLastNTokens := 0
  engineConfig := ⟨128, false, by decide⟩
  engineMetadata := blocksOfSixteen.engineMetadata ⟨128, false, by decide⟩
  numLayers := 1
  blockSize := 16
  kvcaches := [8]

/-- **The default chunk size**: when the second half of a prompt of 32 tokens is computed, the first 16
tokens are masked, which is no multiple of 128. -/
theorem chunkSizes_disagree_default :
    ∃ w, blocksOfSixteen.initWorker ⟨128, false, by decide⟩ false [8] = .ok w ∧
      ¬ blocksOfSixteen.ChunkSizesAgree ⟨128, false, by decide⟩ w := by
  refine ⟨_, rfl, fun hagree => ?_⟩
  let sys₁ := System.after System.oneBlock System.newFiles (System.init defaultSetup)
    (.add "a" (List.replicate 32 1) [] 0 0)
  let sys₂ := System.after System.oneBlock System.newFiles sys₁
    (.step (0, none) [] ⟨fun _ => [], fun _ _ => false⟩)
  have hrun : System.Run System.oneBlock System.newFiles defaultSetup sys₂ :=
    (Relation.ReflTransGen.single ⟨_, System.apply_after (by decide +kernel)⟩).tail
      ⟨_, System.apply_after (by decide +kernel)⟩
  have heval : (sys₂.scheduler.schedule System.oneBlock sys₂.worker.lookup).map (fun r =>
      (sys₂.worker.startLoadKv System.newFiles (0, none) r.2.1).map fun _ => ()) =
      .ok (.error (.valueError maskMessage)) := by decide +kernel
  obtain ⟨⟨p, metadata, s⟩, hsched, hstart⟩ := map_eq_ok.1 heval
  exact hagree.masks System.oneBlock System.newFiles defaultSetup sys₂ p metadata s (0, none) rfl rfl hrun
    hsched (map_eq_error.1 hstart)

end VllmConfig

end InfiniKV
