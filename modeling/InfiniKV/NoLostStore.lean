/-
**Which stores are lost.**

A key is visible to `lookup` from the moment its file is opened.  Its data is written later, if at
all: the task goes through the queue, which refuses a second task for a block, and through the
metadata of a step, from which `save_kv_layer` writes only if the metadata carries a stream of its
own.  `_prepare_for_save` never sets that stream.

Main definitions:

* `InfiniKV.Worker.NoLostStore` — every file of the index has been written in every layer, or has a
  task in the queue;
* `InfiniKV.Worker.newTasks` — the tasks that a step makes;
* `InfiniKV.Worker.KeepsTasks` — **the condition on a step**: no task is refused by the queue, and the
  queue is not emptied into metadata without a stream;
* `InfiniKV.Worker.Step`, `InfiniKV.Worker.KeepingStep` — any step, and a step that meets the
  condition.

Main results:

* `InfiniKV.Worker.workerStep_inv` — a step that meets the condition keeps the invariant;
* `InfiniKV.Worker.noLostStore_of_keepingSteps` — **no store is lost in a run of such steps**;
* `InfiniKV.Worker.lost_store` — a store is lost in a run of one step, as soon as the simulator
  grants a stream.
-/

import InfiniKV.Worker
import Mathlib.Logic.Relation

set_option relaxedAutoImplicit false
set_option autoImplicit false

namespace InfiniKV

namespace Worker

/-- **No lost store**: for every file of the index and every layer, a write of the layer has been
issued, or a task for the file is in the queue. -/
def NoLostStore (w : Worker) : Prop :=
  ∀ key f, w.infinikvEngine.storageBackend.get key = some f → ∀ l < w.numLayers,
    (∃ x ∈ w.infinikvEngine.storageBackend.writes, x.layer = l ∧ f.id ∈ x.gpuFileIds) ∨
      ∃ t ∈ w.taskQueue.tasks, t.gpuFile = f

/-- The tasks that a step makes: those of the transfers prepared for its requests. -/
def newTasks (ops : GeminiFSOps) (w : Worker) (metadata : InfiniKVConnectorMetadata) : List IOSpec :=
  match saveRequests ops w.infinikvChunkSize w.infinikvEngine metadata.requests with
  | .ok (_, ioTasks, _) => ioTasks
  | .error _ => []

/-- The condition on a step.  The queue refuses none of its tasks: their blocks are pairwise distinct
and none has a task.  And the simulator grants no stream, or there is no task to pop, or the metadata
carries a stream. -/
structure KeepsTasks (ops : GeminiFSOps) (w : Worker) (outcome : ℕ × Option CudaStream)
    (metadata : InfiniKVConnectorMetadata) : Prop where
  nodup : ((newTasks ops w metadata).map (·.blockId)).Nodup
  fresh : ∀ t ∈ newTasks ops w metadata, t.blockId ∉ w.taskQueue.pendingBlockIds
  stream : outcome.2 = none ∨ (w.taskQueue.tasks = [] ∧ newTasks ops w metadata = []) ∨
    metadata.saveStream ≠ none

/-- A step of the worker, with any metadata and any outcome of the simulator. -/
def Step (ops : GeminiFSOps) (w w' : Worker) : Prop :=
  ∃ outcome metadata metadata', w.workerStep ops outcome metadata = .ok (w', metadata')

/-- A step that meets the condition. -/
def KeepingStep (ops : GeminiFSOps) (w w' : Worker) : Prop :=
  ∃ outcome metadata metadata', KeepsTasks ops w outcome metadata ∧
    w.workerStep ops outcome metadata = .ok (w', metadata')

/-- What is kept along a run: no store is lost, and no layer of a queued task has been written. -/
structure SaveInv (w : Worker) : Prop where
  noLostStore : NoLostStore w
  layer_eq : ∀ t ∈ w.taskQueue.tasks, t.layer = 0

variable {ops : GeminiFSOps} {w w' : Worker}

/-! ### The tasks of a step -/

theorem newTasks_eq {metadata : InfiniKVConnectorMetadata} {requests : List ReqMeta}
    {ioTasks : List IOSpec} {engine : InfiniKVEngine}
    (h : saveRequests ops w.infinikvChunkSize w.infinikvEngine metadata.requests =
      .ok (requests, ioTasks, engine)) : newTasks ops w metadata = ioTasks := by
  rw [newTasks, h]

/-! ### The layers of a step -/

/-- What saving layers may change: the writes only grow, and the index and the queue stay. -/
structure LayersFrame (w w' : Worker) : Prop where
  get : ∀ key, w'.infinikvEngine.storageBackend.get key = w.infinikvEngine.storageBackend.get key
  writes : w.infinikvEngine.storageBackend.writes ⊆ w'.infinikvEngine.storageBackend.writes
  taskQueue : w'.taskQueue = w.taskQueue
  numLayers : w'.numLayers = w.numLayers

theorem LayersFrame.refl (w : Worker) : LayersFrame w w :=
  ⟨fun _ => rfl, List.Subset.refl _, rfl, rfl⟩

theorem LayersFrame.trans {w₁ w₂ w₃ : Worker} (h : LayersFrame w₁ w₂) (h' : LayersFrame w₂ w₃) :
    LayersFrame w₁ w₃ :=
  ⟨fun key => (h'.get key).trans (h.get key), List.Subset.trans h.writes h'.writes,
    h'.taskQueue.trans h.taskQueue, h'.numLayers.trans h.numLayers⟩

theorem saveKvLayer_frame {metadata metadata' : InfiniKVConnectorMetadata}
    (h : w.saveKvLayer metadata = .ok (w', metadata')) : LayersFrame w w' := by
  rcases saveKvLayer_cases h with ⟨-, rfl, -⟩ | ⟨_, _, _, -, -, -, -, rfl, -⟩
  · exact ⟨fun _ => rfl, List.Subset.refl _, rfl, rfl⟩
  · exact ⟨fun _ => rfl, List.subset_append_left _ _, rfl, rfl⟩

theorem saveKvLayers_frame {n : ℕ} {metadata metadata' : InfiniKVConnectorMetadata}
    (h : saveKvLayers n w metadata = .ok (w', metadata')) : LayersFrame w w' := by
  induction n generalizing w metadata with
  | zero =>
      cases h
      exact .refl _
  | succ n ih =>
      obtain ⟨⟨w₁, metadata₁⟩, h₁, h₂⟩ := bind_eq_ok.1 h
      exact (saveKvLayer_frame h₁).trans (ih h₂)

/-- With a stream in the metadata, `n` layers of every task are written. -/
theorem saveKvLayers_writes {n l₀ : ℕ} {metadata metadata' : InfiniKVConnectorMetadata}
    {tasks : List IOSpec} (h : saveKvLayers n w metadata = .ok (w', metadata'))
    (htasks : metadata.ioTasks = some tasks) (hcount : metadata.ioCount ≠ 0)
    (hstream : metadata.saveStream ≠ none) (hlayer : ∀ t ∈ tasks, t.layer = l₀)
    (hn : l₀ + n ≤ w.numLayers) :
    ∀ t ∈ tasks, ∀ l, l₀ ≤ l → l < l₀ + n →
      ∃ x ∈ w'.infinikvEngine.storageBackend.writes, x.layer = l ∧ t.gpuFile.id ∈ x.gpuFileIds := by
  induction n generalizing w metadata tasks l₀ with
  | zero =>
      intro t _ l h₁ h₂
      omega
  | succ n ih =>
      obtain ⟨⟨w₁, metadata₁⟩, h₁, h₂⟩ := bind_eq_ok.1 h
      have hactive : activeTasks w.numLayers tasks = tasks := by
        refine List.filter_eq_self.2 fun t ht => ?_
        rw [hlayer t ht]
        simp only [decide_eq_true_iff]
        omega
      have hframe := saveKvLayers_frame h₂
      rcases saveKvLayer_cases h₁ with ⟨hidle, -, -⟩ | ⟨tasks', layer, rest, ht', -, -, hl, rfl, rfl⟩
      · rcases hidle with hidle | hidle | hidle
        · rw [htasks] at hidle
          cases hidle
        · exact absurd hidle hcount
        · exact absurd hidle hstream
      · cases htasks.symm.trans ht'
        rw [hactive] at hl
        have hl₀ : layer = l₀ := by
          obtain ⟨t, ht, hteq⟩ := List.mem_map.1 (hl ▸ List.mem_cons_self .. : layer ∈ tasks.map (·.layer))
          rw [← hteq, hlayer t ht]
        subst hl₀
        intro t ht l hge hlt
        rcases Nat.eq_or_lt_of_le hge with rfl | hgt
        · -- the layer written by the first call
          refine ⟨_, hframe.writes (List.mem_append_right _ (List.mem_singleton.2 rfl)), rfl, ?_⟩
          rw [hactive]
          exact List.mem_map_of_mem (List.mem_map_of_mem ht)
        · -- a layer written by a later one, when every task has advanced by one layer
          refine ih h₂ rfl hcount hstream ?_ ?_ (advance w.numLayers t) (List.mem_map_of_mem ht) l hgt
            (by omega) |>.imp ?_
          · intro t' ht'
            obtain ⟨s, hs, rfl⟩ := List.mem_map.1 ht'
            rw [advance, if_pos (by rw [hlayer s hs]; omega)]
            show s.layer + 1 = _
            rw [hlayer s hs]
          · show layer + 1 + n ≤ w.numLayers
            omega
          · rintro x ⟨hx, hxl, hxf⟩
            refine ⟨hx, hxl, ?_⟩
            rw [advance, if_pos (by rw [hlayer t ht]; omega)] at hxf
            exact hxf

/-! ### Steps and runs -/

/-- After the requests of a step were saved and none of its tasks was refused, every file of the index
was already safe before, or has a task in the queue. -/
theorem get_of_submitTasks (hinv : SaveInv w) {metadata : InfiniKVConnectorMetadata}
    {requests : List ReqMeta} {ioTasks : List IOSpec} {engine : InfiniKVEngine}
    (hsave : saveRequests ops w.infinikvChunkSize w.infinikvEngine metadata.requests =
      .ok (requests, ioTasks, engine))
    (hqueue : (w.taskQueue.submitTasks ioTasks).tasks = w.taskQueue.tasks ++ ioTasks)
    {key : CacheEngineKey} {f : GPUFileMetadata} (hf : engine.storageBackend.get key = some f) {l : ℕ}
    (hl : l < w.numLayers) :
    (∃ x ∈ w.infinikvEngine.storageBackend.writes, x.layer = l ∧ f.id ∈ x.gpuFileIds) ∨
      ∃ t ∈ (w.taskQueue.submitTasks ioTasks).tasks, t.gpuFile = f := by
  obtain ⟨-, -, -, -, hget⟩ := saveRequests_spec hsave
  rw [hqueue]
  rcases hget key f hf with hold | ⟨t, ht, rfl⟩
  · rcases hinv.noLostStore key f hold l hl with hw | ⟨t, ht, rfl⟩
    · exact Or.inl hw
    · exact Or.inr ⟨t, List.mem_append_left _ ht, rfl⟩
  · exact Or.inr ⟨t, List.mem_append_right _ ht, rfl⟩

/-- **A step that meets the condition keeps the invariant.** -/
theorem workerStep_inv (hinv : SaveInv w) {outcome : ℕ × Option CudaStream}
    {metadata metadata' : InfiniKVConnectorMetadata} (hkeep : KeepsTasks ops w outcome metadata)
    (h : w.workerStep ops outcome metadata = .ok (w', metadata')) : SaveInv w' := by
  obtain ⟨⟨w₁, metadata₁⟩, hstart, hlayers⟩ := bind_eq_ok.1 h
  simp only at hlayers
  have hframe := saveKvLayers_frame hlayers
  obtain ⟨requests, ioTasks, engine, reads, hsave, -, hcases⟩ := startLoadKv_cases hstart
  have hnew := newTasks_eq hsave
  obtain ⟨hsame, -, -, hzero, -⟩ := saveRequests_spec hsave
  have hqueue : (w.taskQueue.submitTasks ioTasks).tasks = w.taskQueue.tasks ++ ioTasks :=
    TaskQueueforSave.tasks_submitTasks_of_fresh (hnew ▸ hkeep.nodup) (hnew ▸ hkeep.fresh)
  have hlayer₀ : ∀ t ∈ (w.taskQueue.submitTasks ioTasks).tasks, t.layer = 0 := by
    intro t ht
    rcases TaskQueueforSave.mem_submitTasks ht with ht | ht
    · exact hinv.layer_eq t ht
    · exact hzero t ht
  rcases hcases with ⟨-, rfl, -, -, -⟩ | ⟨q', hout, hnil, rfl, hcount, htasks, hstream⟩
  · -- no stream: every task waits in the queue
    constructor
    · intro key f hf l hl
      rw [hframe.get] at hf
      rw [hframe.numLayers] at hl
      rw [hframe.taskQueue]
      rcases get_of_submitTasks hinv hsave hqueue hf hl with ⟨x, hx, hxf⟩ | ht
      · refine Or.inl ⟨x, hframe.writes ?_, hxf⟩
        show x ∈ engine.storageBackend.writes
        rw [hsame.writes]
        exact hx
      · exact Or.inr ht
    · intro t ht
      rw [hframe.taskQueue] at ht
      exact hlayer₀ t ht
  · -- a stream: the queue is empty, and what was in it is written in every layer
    constructor
    · intro key f hf l hl
      rw [hframe.get] at hf
      rw [hframe.numLayers] at hl
      rcases get_of_submitTasks hinv hsave hqueue hf hl with ⟨x, hx, hxf⟩ | ⟨t, ht, rfl⟩
      · refine Or.inl ⟨x, hframe.writes ?_, hxf⟩
        show x ∈ engine.storageBackend.writes
        rw [hsame.writes]
        exact hx
      · refine Or.inl ?_
        have hset : metadata.saveStream ≠ none := by
          rcases hkeep.stream with hnone | ⟨hempty, hnone⟩ | hset
          · exact absurd hnone hout
          · rw [hqueue, hempty, ← hnew, hnone] at ht
            cases ht
          · exact hset
        have hpos : metadata₁.ioCount ≠ 0 := by
          rw [hcount]
          exact Nat.ne_of_gt (List.length_pos_of_mem ht)
        exact saveKvLayers_writes hlayers htasks hpos (by rw [hstream]; exact hset) hlayer₀
          (Nat.zero_add _ |>.le) t ht l (Nat.zero_le l) (by rw [Nat.zero_add]; exact hl)
    · intro t ht
      rw [hframe.taskQueue] at ht
      exact absurd (hnil ▸ ht : t ∈ []) (List.not_mem_nil)

theorem saveInv_init (config : InfiniKVEngineConfig) (metadata : InfiniKVEngineMetadata)
    (numLayers blockSize : ℕ) (kvcaches : List KVCache) :
    SaveInv (init config metadata numLayers blockSize kvcaches) := by
  constructor
  · intro key f hf
    cases hf
  · intro t ht
    cases ht

/-- **No store is lost in a run of steps that meet the condition.** -/
theorem noLostStore_of_keepingSteps (ops : GeminiFSOps) (config : InfiniKVEngineConfig)
    (metadata : InfiniKVEngineMetadata) (numLayers blockSize : ℕ) (kvcaches : List KVCache) (w : Worker)
    (hrun : Relation.ReflTransGen (KeepingStep ops)
      (init config metadata numLayers blockSize kvcaches) w) : NoLostStore w := by
  suffices hinv : SaveInv w from hinv.noLostStore
  induction hrun with
  | refl => exact saveInv_init config metadata numLayers blockSize kvcaches
  | tail _ hstep ih =>
      obtain ⟨outcome, md, md', hkeep, h⟩ := hstep
      exact workerStep_inv ih hkeep h

/-- A worker with two layers and chunks of two tokens. -/
def smallWorker : Worker :=
  init ⟨2, false, Nat.two_pos⟩ ⟨['m'], 1, 0, ['v'], (2, 2, 2, 1, 1), false⟩ 2 2 [8, 8]

/-- Every attempt to open a file returns a new one, and every read succeeds. -/
def unlimitedOps : GeminiFSOps := ⟨fun n => some n, fun _ => true⟩

/-- The metadata of a step that saves the first chunk of a request. -/
def oneChunkMetadata : InfiniKVConnectorMetadata where
  requests := [⟨"r", [1, 2], [10, 11], [5], some ⟨"r", 0, true, none, none⟩, none⟩]
  numTotalScheduledTokens := 2
  stage := .prefill
  ioCount := 0
  saveStream := none
  ioTasks := none

/-- The theorem at a run of one step that stores a chunk without being granted a stream. -/
theorem noLostStore_of_keepingSteps_one_chunk :
    ∃ w key f, w.infinikvEngine.storageBackend.get key = some f ∧ NoLostStore w := by
  have hkey : (smallWorker.workerStep unlimitedOps (0, none) oneChunkMetadata).map
      (fun r => (r.1.infinikvEngine.storageBackend.get
        (smallWorker.infinikvEngine.tokenDatabase.keyAt [1, 2] 0)).isSome) = .ok true := by decide +kernel
  have hnew : (newTasks unlimitedOps smallWorker oneChunkMetadata).map (·.blockId) = [5] := by
    decide +kernel
  obtain ⟨⟨w, metadata'⟩, hstep, hsome⟩ := map_eq_ok.1 hkey
  obtain ⟨f, hf⟩ := Option.isSome_iff_exists.1 hsome
  refine ⟨w, _, f, hf, noLostStore_of_keepingSteps unlimitedOps _ _ _ _ _ w
    (Relation.ReflTransGen.single ⟨_, _, _, ⟨?_, ?_, Or.inl rfl⟩, hstep⟩)⟩
  · show ((newTasks unlimitedOps smallWorker oneChunkMetadata).map (·.blockId)).Nodup
    rw [hnew]
    decide
  · intro t _
    exact Finset.notMem_empty _

/-- **A store is lost** in a run of one step that stores a chunk and is granted a stream: the task is
popped, and no layer is written. -/
theorem lost_store :
    ∃ w, Relation.ReflTransGen (Step unlimitedOps) smallWorker w ∧ ¬ NoLostStore w := by
  have hend : (smallWorker.workerStep unlimitedOps (1, some 0) oneChunkMetadata).map
      (fun r => (r.1.infinikvEngine.storageBackend.get
        (smallWorker.infinikvEngine.tokenDatabase.keyAt [1, 2] 0) |>.map (·.id),
        r.1.infinikvEngine.storageBackend.writes, r.1.taskQueue.tasks, r.1.numLayers)) =
      .ok (some 0, [], [], 2) := by decide +kernel
  obtain ⟨⟨w, metadata'⟩, hstep, heq⟩ := map_eq_ok.1 hend
  simp only [Prod.mk.injEq] at heq
  obtain ⟨hget, hwrites, htasks, hlayers⟩ := heq
  obtain ⟨f, hf, -⟩ := Option.map_eq_some_iff.1 hget
  refine ⟨w, Relation.ReflTransGen.single ⟨_, _, _, hstep⟩, ?_⟩
  intro hsafe
  rcases hsafe _ f hf 0 (by rw [hlayers]; decide) with ⟨x, hx, -⟩ | ⟨t, ht, -⟩
  · rw [hwrites] at hx
    cases hx
  · rw [htasks] at ht
    cases ht

end Worker

end InfiniKV
