/-
**Asynchronous saves.**

With asynchronous saving a layer is not written when it has been computed: `save_kv_layer_async` queues the
files and blocks of the step with the layer, and `launch_io` writes as many queued layers as its budget
allows.  The tasks of a step are advanced by each layer, while what is queued is a copy of what they were.

Without a budget, `launch_io` is to drain the queue; but the budget is counted down before it is looked at,
and a budget of `None` raises.  And the tasks of a step are used up after the layers the connector counts.  In
a model with sliding windows these are fewer than the layers that are saved: what is queued for a further
layer is empty, and the attempt to write it raises.

Main definitions:

* `InfiniKV.StoreLayerTask`, `InfiniKV.AsyncWorker` — a queued layer, and a worker with its queue;
* `InfiniKV.AsyncWorker.saveKvLayerAsync`, `launchIo` — the source's functions;
* `InfiniKV.AsyncWorker.Calls` — the calls of any number of steps, in the order of the layers, with calls of
  `launch_io` in between;
* `InfiniKV.AsyncWorker.IssuedOnce` — what is issued over these calls, and in which order.

Main results:

* `InfiniKV.AsyncWorker.Inv.apply` — **one call**;
* `InfiniKV.AsyncWorker.Inv.run` — all calls;
* `InfiniKV.AsyncWorker.issuedOnce_iff` — **when every layer is issued once and in order**.
-/

import InfiniKV.Prefetch

set_option relaxedAutoImplicit false
set_option autoImplicit false

namespace InfiniKV

/-- A queued layer: the files, the blocks they are filled from, and the layer of each.  An event is known by
a number. -/
structure StoreLayerTask where
  gpuFiles : List GPUFileMetadata
  blockIds : List ℕ
  layerIds : List ℕ
  completionEvent : ℕ
  deriving DecidableEq

/-- `layerwise_batch_put_for_async`, which differs from `layerwise_batch_put` in what its stream waits for. -/
def GeminiFSBackend.layerwiseBatchPutForAsync (b : GeminiFSBackend) (kvcaches : List KVCache)
    (gpuFiles : List GPUFileMetadata) (blockIds layerIds : List ℕ) (_completionEvent : ℕ) :
    Except PyError GeminiFSBackend :=
  b.layerwiseBatchPut kvcaches gpuFiles blockIds layerIds

/-- `store_layer_for_async`. -/
def InfiniKVEngine.storeLayerForAsync (e : InfiniKVEngine) (kvcaches : List KVCache)
    (gpuFiles : List GPUFileMetadata) (blockIds layerIds : List ℕ) (completionEvent : ℕ) :
    Except PyError InfiniKVEngine :=
  (e.storageBackend.layerwiseBatchPutForAsync kvcaches gpuFiles blockIds layerIds completionEvent).map
    fun b => { e with storageBackend := b }

/-- A worker with its queue of layers, and the metadata of the step. -/
structure AsyncWorker extends Worker where
  pendingStoreLayerTasks : List StoreLayerTask
  metadata : InfiniKVConnectorMetadata

namespace AsyncWorker

variable (w : AsyncWorker)

/-! ### The calls -/

/-- The loop of `_launch_pending_store_layer_tasks`: the queue that is left, and the engine.  `None` cannot be
counted down. -/
def launchPendingStoreLayerTasks (kvcaches : List KVCache) :
    List StoreLayerTask → Option ℤ → InfiniKVEngine → Except PyError (List StoreLayerTask × InfiniKVEngine)
  | [], _, e => .ok ([], e)
  | _ :: _, none, _ => .error .typeError
  | task :: rest, some budget, e =>
      if budget > 0 then do
        let e ← e.storeLayerForAsync kvcaches task.gpuFiles task.blockIds task.layerIds
          task.completionEvent
        launchPendingStoreLayerTasks kvcaches rest (some (budget - 1)) e
      else .ok (task :: rest, e)

/-- **`launch_io`**. -/
def launchIo (budget : Option ℤ) : Except PyError AsyncWorker :=
  (launchPendingStoreLayerTasks w.kvcaches w.pendingStoreLayerTasks budget w.infinikvEngine).map
    fun (pending, e) => { w with infinikvEngine := e, pendingStoreLayerTasks := pending }

/-- **`save_kv_layer_async`**. -/
def saveKvLayerAsync (completionEvent : ℕ) : Except PyError AsyncWorker :=
  if w.kvcaches = [] then .error (.assertionError "")
  else
    let w := { w with currentLayer := w.currentLayer + 1 }
    match w.metadata.ioTasks with
    | none => .ok w
    | some ioTasks =>
        if w.metadata.ioCount = 0 then .ok w
        else
          let active := ioTasks.filter fun t => decide (t.layer < w.numLayers)
          .ok { w with
            metadata := { w.metadata with ioTasks := some (ioTasks.map (Worker.advance w.numLayers)) }
            pendingStoreLayerTasks := w.pendingStoreLayerTasks ++
              [⟨active.map (·.gpuFile), active.map (·.blockId), active.map (·.layer), completionEvent⟩] }

/-- A task of a step: a file, and the block it is filled from. -/
abbrev IoTask := GPUFileMetadata × ℕ

/-- The tasks of a step whose next layer is `layer`. -/
def tasksAt (layer : ℕ) (ioTasks : List IoTask) : List IOSpec :=
  ioTasks.map fun task => ⟨task.1, task.2, layer, ""⟩

/-- A step begins: its metadata has the tasks that `_prepare_for_save` took from the queue. -/
def startStep (ioTasks : List IoTask) : AsyncWorker :=
  { w with
    currentLayer := 0
    metadata := { w.metadata with ioCount := ioTasks.length, ioTasks := some (tasksAt 0 ioTasks) } }

/-- What a worker is called for. -/
inductive Op where
  | startStep (ioTasks : List IoTask)
  | saveKvLayerAsync (completionEvent : ℕ)
  | launchIo (budget : Option ℕ)

/-- A call. -/
def apply : Op → Except PyError AsyncWorker
  | .startStep ioTasks => .ok (w.startStep ioTasks)
  | .saveKvLayerAsync completionEvent => w.saveKvLayerAsync completionEvent
  | .launchIo budget => w.launchIo (budget.map Int.ofNat)

/-- Calls, one after the other. -/
def run : List Op → AsyncWorker → Except PyError AsyncWorker
  | [], w => .ok w
  | op :: ops, w => do
      let w ← w.apply op
      run ops w

/-- The calls of steps with `layers` layers each, with calls of `launch_io` anywhere: `left` layers of the
current step are still to come, and then the given steps. -/
inductive Calls (layers : ℕ) : ℕ → List (List IoTask) → List Op → Prop where
  | done : Calls layers 0 [] []
  | launch {left : ℕ} {steps : List (List IoTask)} {ops : List Op} (budget : Option ℕ)
      (h : Calls layers left steps ops) : Calls layers left steps (.launchIo budget :: ops)
  | layer {left : ℕ} {steps : List (List IoTask)} {ops : List Op} (completionEvent : ℕ)
      (h : Calls layers left steps ops) :
      Calls layers (left + 1) steps (.saveKvLayerAsync completionEvent :: ops)
  | step {ioTasks : List IoTask} {steps : List (List IoTask)} {ops : List Op} (hne : ioTasks ≠ [])
      (h : Calls layers layers steps ops) : Calls layers 0 (ioTasks :: steps) (.startStep ioTasks :: ops)

/-! ### What is issued -/

/-- What a queued layer moves: each file with its block and its layer. -/
def transfersOf (task : StoreLayerTask) : List (ℕ × ℕ × ℕ) :=
  (task.gpuFiles.zip (task.blockIds.zip task.layerIds)).map fun p => (p.1.id, p.2)

/-- What has been issued, write by write. -/
def log : List (List (ℕ × ℕ × ℕ)) := w.infinikvEngine.storageBackend.writes.map BatchedXfer.transfers

/-- What is queued, layer by layer. -/
def queue : List (List (ℕ × ℕ × ℕ)) := w.pendingStoreLayerTasks.map transfersOf

variable {w} {w' : AsyncWorker} {e e' : InfiniKVEngine} {kvcaches : List KVCache}
  {gpuFiles : List GPUFileMetadata} {blockIds layerIds : List ℕ} {completionEvent : ℕ}
  {pending rest : List StoreLayerTask}

/-- A write that is made: it moves something, and each of its blocks is one of the cache of its layer. -/
structure Checked (kvcaches : List KVCache) (x : List (ℕ × ℕ × ℕ)) : Prop where
  ne_nil : x ≠ []
  inRange : ∀ t ∈ x, ∃ numBlocks, kvcaches[t.2.2]? = some numBlocks ∧ t.2.1 < numBlocks

/-- The blocks of a write all have its layer, and are blocks of the cache of this layer. -/
theorem blocks_of_checkBlocks {layer : ℕ} {blocks : List (ℕ × ℕ)}
    (h : GeminiFSBackend.checkBlocks kvcaches layer blocks = .ok ()) :
    ∀ p ∈ blocks, p.2 = layer ∧ ∃ numBlocks, kvcaches[layer]? = some numBlocks ∧ p.1 < numBlocks := by
  induction blocks with
  | nil => simp
  | cons p blocks ih =>
      obtain ⟨blockId, layerId⟩ := p
      rw [GeminiFSBackend.checkBlocks] at h
      split at h
      · cases h
      · rename_i hlayer
        rw [not_not] at hlayer
        subst hlayer
        split at h
        · cases h
        · rename_i numBlocks hcache
          split at h
          · rename_i hblock
            exact List.forall_mem_cons.2 ⟨⟨rfl, numBlocks, hcache, hblock⟩, ih h⟩
          · cases h

/-- **A write that returns** moves what was queued, and has been checked. -/
theorem storeLayerForAsync_cases
    (h : e.storeLayerForAsync kvcaches gpuFiles blockIds layerIds completionEvent = .ok e') :
    ∃ x : BatchedXfer, e' = e.withWrites (e.storageBackend.writes ++ [x]) ∧
      x.transfers = transfersOf ⟨gpuFiles, blockIds, layerIds, completionEvent⟩ ∧
      Checked kvcaches x.transfers := by
  obtain ⟨b, hb, rfl⟩ := map_eq_ok.1 h
  unfold GeminiFSBackend.layerwiseBatchPutForAsync GeminiFSBackend.layerwiseBatchPut at hb
  split at hb
  · cases hb
  · rename_i hlens
    rw [not_or, not_not, not_not] at hlens
    cases layerIds with
    | nil => cases hb
    | cons layer layerIds =>
        obtain ⟨_, hcheck, hb⟩ := bind_eq_ok.1 hb
        cases hb
        have hblocks := blocks_of_checkBlocks hcheck
        refine ⟨_, rfl, ?_, ?_, ?_⟩
        · -- the layers are all the first one
          have hzip : blockIds.zip (layer :: layerIds) = blockIds.map fun b => (b, layer) := by
            refine List.ext_getElem (by simp [hlens.2]) ?_
            intro i h₁ h₂
            have hi := (hblocks _ (List.getElem_mem h₁)).1
            rw [List.getElem_zip] at hi ⊢
            rw [List.getElem_map]
            exact Prod.ext rfl hi
          rw [BatchedXfer.transfers, transfersOf, hzip]
          simp [List.zip_map_left, List.zip_map_right, Function.comp_def]
        · intro hnil
          have hlen := congrArg List.length hnil
          simp [BatchedXfer.transfers, hlens.1, hlens.2] at hlen
        · -- the block of a transfer is one of those that were checked
          intro t ht
          obtain ⟨p, hp, rfl⟩ := List.mem_map.1 ht
          obtain ⟨i, hi, rfl⟩ := List.mem_iff_getElem.1 hp
          simp only [List.length_zip] at hi
          have hi' : i < (blockIds.zip (layer :: layerIds)).length := by
            rw [List.length_zip]
            omega
          obtain ⟨-, numBlocks, hcache, hblock⟩ := hblocks _ (List.getElem_mem hi')
          refine ⟨numBlocks, hcache, ?_⟩
          simpa using hblock

/-- The number of queued layers that a budget is to launch. -/
def launched : Option ℤ → ℕ → ℕ
  | none, pending => pending
  | some budget, pending => min budget.toNat pending

/-- **What `launch_io` does when it returns**: layers are issued from the front of the queue, each of them
checked; and as many as the budget allows. -/
theorem launchPending_cases {budget : Option ℤ}
    (h : launchPendingStoreLayerTasks kvcaches pending budget e = .ok (rest, e')) :
    ∃ (done : List StoreLayerTask) (xs : List BatchedXfer), pending = done ++ rest ∧
      e' = e.withWrites (e.storageBackend.writes ++ xs) ∧
      xs.map BatchedXfer.transfers = done.map transfersOf ∧
      (∀ task ∈ done, Checked kvcaches (transfersOf task)) ∧
      done.length = launched budget pending.length := by
  induction pending generalizing budget e with
  | nil =>
      rw [launchPendingStoreLayerTasks] at h
      cases h
      refine ⟨[], [], rfl, ?_, rfl, by simp, ?_⟩
      · rw [List.append_nil]
        rfl
      · cases budget with
        | none => rfl
        | some b => simp [launched]
  | cons task pending ih =>
      cases budget with
      | none => cases h
      | some b =>
          rw [launchPendingStoreLayerTasks] at h
          split at h
          · rename_i hpos
            obtain ⟨e₁, hstore, h⟩ := bind_eq_ok.1 h
            obtain ⟨x, rfl, hx, hchecked⟩ := storeLayerForAsync_cases hstore
            obtain ⟨done, xs, rfl, rfl, hxs, hdone, hlen⟩ := ih h
            refine ⟨task :: done, x :: xs, rfl, ?_, ?_, ?_, ?_⟩
            · rw [InfiniKVEngine.writes_withWrites, List.append_assoc]
              rfl
            · rw [List.map_cons, List.map_cons, hxs, hx]
            · exact List.forall_mem_cons.2 ⟨hx ▸ hchecked, hdone⟩
            · simp only [List.length_cons, hlen, launched]
              omega
          · rename_i hpos
            cases h
            refine ⟨[], [], rfl, ?_, rfl, by simp, ?_⟩
            · rw [List.append_nil]
              rfl
            · simp only [List.length_nil, launched]
              omega

/-! ### When writes return -/

/-- The blocks of these tasks are blocks of all caches. -/
def InRange (kvcaches : List KVCache) (ioTasks : List IoTask) : Prop :=
  ∀ t ∈ ioTasks, ∀ numBlocks ∈ kvcaches, t.2 < numBlocks

/-- What is queued for a layer below the number of layers that the connector counts. -/
structure Writable (kvcaches : List KVCache) (task : StoreLayerTask) : Prop where
  exists_tasks : ∃ (ioTasks : List IoTask) (layer : ℕ), ioTasks ≠ [] ∧ layer < kvcaches.length ∧
    InRange kvcaches ioTasks ∧
    task = ⟨ioTasks.map Prod.fst, ioTasks.map Prod.snd, ioTasks.map fun _ => layer, task.completionEvent⟩

theorem checkBlocks_tasks {ioTasks : List IoTask} {layer numBlocks : ℕ}
    (hcache : kvcaches[layer]? = some numBlocks) (hblocks : ∀ t ∈ ioTasks, t.2 < numBlocks) :
    GeminiFSBackend.checkBlocks kvcaches layer
      ((ioTasks.map Prod.snd).zip (ioTasks.map fun _ => layer)) = .ok () := by
  induction ioTasks with
  | nil => rfl
  | cons t ts ih =>
      rw [List.map_cons, List.map_cons, List.zip_cons_cons, GeminiFSBackend.checkBlocks,
        if_neg (not_not.2 rfl)]
      simp only [hcache]
      rw [if_pos (hblocks t List.mem_cons_self)]
      exact ih fun t' ht' => hblocks t' (List.mem_cons_of_mem _ ht')

/-- Such a layer can be written. -/
theorem Writable.store {task : StoreLayerTask} (h : Writable kvcaches task) :
    ∃ e', e.storeLayerForAsync kvcaches task.gpuFiles task.blockIds task.layerIds
      task.completionEvent = .ok e' := by
  obtain ⟨ioTasks, layer, hne, hlayer, hblocks, htask⟩ := h.exists_tasks
  obtain ⟨t, ts, rfl⟩ := List.exists_cons_of_ne_nil hne
  have hcheck : GeminiFSBackend.checkBlocks kvcaches layer
      (((t :: ts).map Prod.snd).zip ((t :: ts).map fun _ => layer)) = .ok () :=
    checkBlocks_tasks (List.getElem?_eq_getElem hlayer) fun t' ht' =>
      hblocks t' ht' _ (List.getElem_mem hlayer)
  have hput : ∃ b, e.storageBackend.layerwiseBatchPutForAsync kvcaches ((t :: ts).map Prod.fst)
      ((t :: ts).map Prod.snd) ((t :: ts).map fun _ => layer) task.completionEvent = .ok b := by
    unfold GeminiFSBackend.layerwiseBatchPutForAsync GeminiFSBackend.layerwiseBatchPut
    rw [if_neg (by simp)]
    exact ⟨_, bind_eq_ok.2 ⟨(), hcheck, rfl⟩⟩
  obtain ⟨b, hb⟩ := hput
  rw [htask]
  exact ⟨{ e with storageBackend := b }, map_eq_ok.2 ⟨b, hb, rfl⟩⟩

/-- A budget is launched without an exception, if what is queued can be written. -/
theorem launchPending_ok (hpending : ∀ task ∈ pending, Writable kvcaches task) (budget : ℤ) :
    ∃ r, launchPendingStoreLayerTasks kvcaches pending (some budget) e = .ok r := by
  induction pending generalizing budget e with
  | nil => exact ⟨_, rfl⟩
  | cons task pending ih =>
      rw [launchPendingStoreLayerTasks]
      split_ifs
      · obtain ⟨e₁, hstore⟩ := (hpending task List.mem_cons_self).store (e := e)
        obtain ⟨r, hr⟩ := ih (e := e₁) (fun t ht => hpending t (List.mem_cons_of_mem _ ht)) (budget - 1)
        exact ⟨r, bind_eq_ok.2 ⟨e₁, hstore, hr⟩⟩
      · exact ⟨_, rfl⟩

/-! ### One call -/

/-- What the tasks of a step move in one layer. -/
theorem transfersOf_tasks (ioTasks : List IoTask) (layer : ℕ) :
    transfersOf ⟨ioTasks.map Prod.fst, ioTasks.map Prod.snd, ioTasks.map fun _ => layer, completionEvent⟩ =
      ioTasks.map fun t => (t.1.id, t.2, layer) := by
  induction ioTasks with
  | nil => rfl
  | cons t ts ih => exact congrArg (List.cons (t.1.id, t.2, layer)) ih

/-- What is queued for a layer of a step. -/
def layerTransfersOf (numLayers layer : ℕ) (ioTasks : List IoTask) : List (ℕ × ℕ × ℕ) :=
  if layer < numLayers then ioTasks.map fun t => (t.1.id, t.2, layer) else []

/-- The layers of a step. -/
def stepTransfers (numLayers layers : ℕ) (ioTasks : List IoTask) : List (List (ℕ × ℕ × ℕ)) :=
  (List.range layers).map fun layer => layerTransfersOf numLayers layer ioTasks

/-- The layers that are still to be queued: `left` of the current step, and those of the given steps. -/
def toQueue (numLayers layers left : ℕ) (ioTasks : List IoTask) (steps : List (List IoTask)) :
    List (List (ℕ × ℕ × ℕ)) :=
  (stepTransfers numLayers layers ioTasks).drop (layers - left) ++
    steps.flatMap (stepTransfers numLayers layers)

/-- What holds between two calls: `left` layers of the current step are still to come. -/
structure Inv (layers : ℕ) (w : AsyncWorker) (left : ℕ) (ioTasks : List IoTask) : Prop where
  kvcaches : w.kvcaches.length = layers
  left_le : left ≤ layers
  metadata : 0 < left → ioTasks ≠ [] ∧ w.metadata.ioCount ≠ 0 ∧
    w.metadata.ioTasks = some (tasksAt (min (layers - left) w.numLayers) ioTasks)

/-- What is queued of the tasks of a step. -/
theorem filter_tasksAt (numLayers layer : ℕ) (ioTasks : List IoTask) :
    (tasksAt (min layer numLayers) ioTasks).filter (fun t => decide (t.layer < numLayers)) =
      if layer < numLayers then tasksAt layer ioTasks else [] := by
  split_ifs with h
  · rw [min_eq_left h.le, List.filter_eq_self.2]
    intro t ht
    obtain ⟨task, -, rfl⟩ := List.mem_map.1 ht
    exact decide_eq_true h
  · rw [min_eq_right (not_lt.1 h), List.filter_eq_nil_iff.2]
    intro t ht
    obtain ⟨task, -, rfl⟩ := List.mem_map.1 ht
    simp

/-- The tasks of a step after a layer. -/
theorem advance_tasksAt (numLayers layer : ℕ) (ioTasks : List IoTask) :
    (tasksAt (min layer numLayers) ioTasks).map (Worker.advance numLayers) =
      tasksAt (min (layer + 1) numLayers) ioTasks := by
  rw [tasksAt, tasksAt, List.map_map]
  refine List.map_congr_left fun t _ => ?_
  rw [Function.comp_apply, Worker.advance]
  rcases Nat.lt_or_ge layer numLayers with h | h
  · rw [min_eq_left h.le, min_eq_left (Nat.succ_le_of_lt h), if_pos h]
  · rw [min_eq_right h, min_eq_right (h.trans (Nat.le_succ layer)), if_neg (lt_irrefl numLayers)]

/-- **What `save_kv_layer_async` does**: the layer is queued, and the tasks of the step go on to the next. -/
theorem Inv.saveKvLayerAsync {layers left : ℕ} {ioTasks : List IoTask}
    (hinv : Inv layers w (left + 1) ioTasks) (completionEvent : ℕ) :
    ∃ w' task, w.saveKvLayerAsync completionEvent = .ok w' ∧
      w'.pendingStoreLayerTasks = w.pendingStoreLayerTasks ++ [task] ∧
      transfersOf task = layerTransfersOf w.numLayers (layers - (left + 1)) ioTasks ∧
      (layers - (left + 1) < w.numLayers → task = ⟨ioTasks.map Prod.fst, ioTasks.map Prod.snd,
        ioTasks.map fun _ => layers - (left + 1), completionEvent⟩) ∧
      w'.infinikvEngine = w.infinikvEngine ∧ w'.numLayers = w.numLayers ∧ w'.kvcaches = w.kvcaches ∧
      Inv layers w' left ioTasks := by
  obtain ⟨hne, hcount, htasks⟩ := hinv.metadata (Nat.succ_pos left)
  have hcaches : w.kvcaches ≠ [] := by
    rw [← List.length_pos_iff, hinv.kvcaches]
    exact (Nat.succ_pos left).trans_le hinv.left_le
  rw [AsyncWorker.saveKvLayerAsync, if_neg hcaches]
  simp only [htasks, if_neg hcount, filter_tasksAt, advance_tasksAt]
  have htask : layers - (left + 1) < w.numLayers →
      (⟨(if layers - (left + 1) < w.numLayers then tasksAt (layers - (left + 1)) ioTasks else []).map
          (·.gpuFile),
        (if layers - (left + 1) < w.numLayers then tasksAt (layers - (left + 1)) ioTasks else []).map
          (·.blockId),
        (if layers - (left + 1) < w.numLayers then tasksAt (layers - (left + 1)) ioTasks else []).map
          (·.layer), completionEvent⟩ : StoreLayerTask) =
      ⟨ioTasks.map Prod.fst, ioTasks.map Prod.snd, ioTasks.map fun _ => layers - (left + 1),
        completionEvent⟩ := by
    intro h
    rw [if_pos h]
    simp [tasksAt, List.map_map, Function.comp_def]
  refine ⟨_, _, rfl, rfl, ?_, htask, rfl, rfl, rfl, hinv.kvcaches, by have := hinv.left_le; omega, ?_⟩
  · rw [layerTransfersOf]
    by_cases h : layers - (left + 1) < w.numLayers
    · rw [htask h, if_pos h, transfersOf_tasks]
    · rw [if_neg h, if_neg h]
      rfl
  · intro hleft
    refine ⟨hne, hcount, ?_⟩
    have hle := hinv.left_le
    rw [show layers - (left + 1) + 1 = layers - left by omega]

/-- **What a call of `launch_io` does when it returns.** -/
theorem launchIo_cases {budget : Option ℤ} (h : w.launchIo budget = .ok w') :
    ∃ done : List StoreLayerTask, w.pendingStoreLayerTasks = done ++ w'.pendingStoreLayerTasks ∧
      w'.log = w.log ++ done.map transfersOf ∧
      (∀ task ∈ done, Checked w.kvcaches (transfersOf task)) ∧
      done.length = launched budget w.pendingStoreLayerTasks.length ∧
      w'.kvcaches = w.kvcaches ∧ w'.numLayers = w.numLayers ∧ w'.metadata = w.metadata := by
  obtain ⟨⟨rest, e'⟩, hlaunch, rfl⟩ := map_eq_ok.1 h
  obtain ⟨done, xs, hpending, rfl, hxs, hdone, hlen⟩ := launchPending_cases hlaunch
  refine ⟨done, hpending, ?_, hdone, hlen, rfl, rfl, rfl⟩
  simp [log, ← hxs]

/-- The number of layers that a call queues. -/
def Op.queued : Op → ℕ
  | .startStep _ => 0
  | .saveKvLayerAsync _ => 1
  | .launchIo _ => 0

variable {layers left : ℕ} {ioTasks : List IoTask} {steps : List (List IoTask)} {op : Op} {ops : List Op}

/-- The next layer of a step. -/
theorem drop_stepTransfers (numLayers : ℕ) (hleft : left + 1 ≤ layers) :
    (stepTransfers numLayers layers ioTasks).drop (layers - (left + 1)) =
      layerTransfersOf numLayers (layers - (left + 1)) ioTasks ::
        (stepTransfers numLayers layers ioTasks).drop (layers - left) := by
  have hlt : layers - (left + 1) < (stepTransfers numLayers layers ioTasks).length := by
    simp only [stepTransfers, List.length_map, List.length_range]
    omega
  rw [List.drop_eq_getElem_cons hlt, show layers - (left + 1) + 1 = layers - left by omega]
  simp [stepTransfers]

/-- What a call keeps, and what it adds to the log. -/
structure Grows (w w' : AsyncWorker) : Prop where
  numLayers : w'.numLayers = w.numLayers
  kvcaches : w'.kvcaches = w.kvcaches
  log : ∃ xs, w'.log = w.log ++ xs ∧ ∀ x ∈ xs, Checked w.kvcaches x

theorem Grows.refl (w : AsyncWorker) : Grows w w :=
  ⟨rfl, rfl, [], (List.append_nil _).symm, by simp⟩

theorem Grows.trans {w₁ w₂ w₃ : AsyncWorker} (h₁ : Grows w₁ w₂) (h₂ : Grows w₂ w₃) : Grows w₁ w₃ := by
  obtain ⟨xs, hlog₁, hxs⟩ := h₁.log
  obtain ⟨ys, hlog₂, hys⟩ := h₂.log
  rw [h₁.kvcaches] at hys
  refine ⟨h₂.numLayers.trans h₁.numLayers, h₂.kvcaches.trans h₁.kvcaches, xs ++ ys, ?_, ?_⟩
  · rw [hlog₂, hlog₁, List.append_assoc]
  · exact List.forall_mem_append.2 ⟨hxs, hys⟩

theorem Grows.of_launchIo {budget : Option ℤ} (h : w.launchIo budget = .ok w') : Grows w w' := by
  obtain ⟨done, -, hlog, hdone, -, hcaches, hlayers, -⟩ := launchIo_cases h
  exact ⟨hlayers, hcaches, _, hlog, by simpa using hdone⟩

/-- **One call**, when it returns: what has been issued and what is queued, together, grow by what the call
queues, which is taken from the front of what is still to be queued. -/
theorem Inv.apply (hinv : Inv layers w left ioTasks) (hcalls : Calls layers left steps (op :: ops))
    (h : w.apply op = .ok w') :
    ∃ left' ioTasks' steps', Calls layers left' steps' ops ∧ Inv layers w' left' ioTasks' ∧ Grows w w' ∧
      w'.log ++ w'.queue = w.log ++ w.queue ++
        (toQueue w.numLayers layers left ioTasks steps).take op.queued ∧
      (toQueue w.numLayers layers left ioTasks steps).drop op.queued =
        toQueue w.numLayers layers left' ioTasks' steps' := by
  cases hcalls with
  | launch budget hcalls =>
      obtain ⟨done, hpending, hlog, -, -, hcaches, hlayers, hmeta⟩ := launchIo_cases h
      refine ⟨left, ioTasks, steps, hcalls, ⟨?_, hinv.left_le, ?_⟩, .of_launchIo h, ?_, rfl⟩
      · rw [hcaches, hinv.kvcaches]
      · rw [hmeta, hlayers]
        exact hinv.metadata
      · rw [hlog, queue, queue, hpending]
        simp [Op.queued]
  | layer completionEvent hcalls =>
      rename_i left
      obtain ⟨w₁, task, hsave, hpending, htransfers, -, hengine, hlayers, hcaches, hinv'⟩ :=
        hinv.saveKvLayerAsync completionEvent
      cases hsave.symm.trans h
      have hlog : w'.log = w.log := by rw [log, log, hengine]
      have hto : toQueue w.numLayers layers (left + 1) ioTasks steps =
          layerTransfersOf w.numLayers (layers - (left + 1)) ioTasks ::
            toQueue w.numLayers layers left ioTasks steps := by
        rw [toQueue, drop_stepTransfers _ hinv.left_le]
        rfl
      refine ⟨left, ioTasks, steps, hcalls, hinv', ⟨hlayers, hcaches, [], ?_, by simp⟩, ?_, ?_⟩
      · rw [hlog, List.append_nil]
      · rw [hto]
        simp [hlog, queue, hpending, htransfers, Op.queued]
      · rw [hto]
        rfl
  | step hne hcalls =>
      rename_i ioTasks' steps'
      cases h
      refine ⟨layers, ioTasks', steps', hcalls, ⟨hinv.kvcaches, le_rfl, ?_⟩,
        ⟨rfl, rfl, [], (List.append_nil _).symm, by simp⟩, ?_, ?_⟩
      · intro _
        refine ⟨hne, ?_, ?_⟩
        · exact fun hzero => hne (List.length_eq_zero_iff.1 hzero)
        · rw [Nat.sub_self, Nat.zero_min]
          rfl
      · simp [log, queue, startStep, Op.queued]
      · have hnone : (stepTransfers w.numLayers layers ioTasks).drop layers = [] := by
          rw [List.drop_eq_nil_iff, stepTransfers, List.length_map, List.length_range]
        simp [toQueue, hnone, Op.queued]

/-! ### All calls -/

/-- The number of layers that calls queue. -/
def queued : List Op → ℕ
  | [] => 0
  | op :: ops => op.queued + queued ops

/-- Calls one after the other, cut into two. -/
theorem run_append (ops₁ ops₂ : List Op) (w : AsyncWorker) :
    run (ops₁ ++ ops₂) w = run ops₁ w >>= run ops₂ := by
  induction ops₁ generalizing w with
  | nil => rfl
  | cons op ops₁ ih =>
      change (w.apply op >>= run (ops₁ ++ ops₂)) = (w.apply op >>= run ops₁) >>= run ops₂
      rw [bind_assoc]
      exact congrArg _ (funext ih)

variable {ops₁ ops₂ : List Op}

/-- **All calls**, when they return. -/
theorem Inv.run (hinv : Inv layers w left ioTasks) (hcalls : Calls layers left steps (ops₁ ++ ops₂))
    (h : run ops₁ w = .ok w') :
    ∃ left' ioTasks' steps', Calls layers left' steps' ops₂ ∧ Inv layers w' left' ioTasks' ∧ Grows w w' ∧
      w'.log ++ w'.queue = w.log ++ w.queue ++
        (toQueue w.numLayers layers left ioTasks steps).take (queued ops₁) ∧
      (toQueue w.numLayers layers left ioTasks steps).drop (queued ops₁) =
        toQueue w.numLayers layers left' ioTasks' steps' := by
  induction ops₁ generalizing w left ioTasks steps with
  | nil =>
      cases h
      exact ⟨left, ioTasks, steps, hcalls, hinv, .refl _, (List.append_nil _).symm, rfl⟩
  | cons op ops₁ ih =>
      obtain ⟨w₁, happly, h⟩ := bind_eq_ok.1 h
      obtain ⟨left₁, ioTasks₁, steps₁, hcalls₁, hinv₁, hgrows₁, htake₁, hdrop₁⟩ := hinv.apply hcalls happly
      obtain ⟨left', ioTasks', steps', hcalls', hinv', hgrows, htake, hdrop⟩ := ih hinv₁ hcalls₁ h
      rw [hgrows₁.numLayers, ← hdrop₁] at htake hdrop
      refine ⟨left', ioTasks', steps', hcalls', hinv', hgrows₁.trans hgrows, ?_, ?_⟩
      · rw [htake, htake₁, queued, List.take_add, List.append_assoc]
      · rw [queued, ← List.drop_drop, hdrop]

/-- The layers that are queued can be written, and so can those of the current step and of the steps to
come. -/
structure Ready (layers : ℕ) (w : AsyncWorker) (left : ℕ) (ioTasks : List IoTask)
    (steps : List (List IoTask)) : Prop where
  pending : ∀ task ∈ w.pendingStoreLayerTasks, Writable w.kvcaches task
  current : 0 < left → w.numLayers = layers ∧ InRange w.kvcaches ioTasks
  steps : ∀ ioTasks ∈ steps, w.numLayers = layers ∧ InRange w.kvcaches ioTasks

/-- **A call returns**, if it is not one of `launch_io` without a budget while layers are queued. -/
theorem Ready.apply (hready : Ready layers w left ioTasks steps) (hinv : Inv layers w left ioTasks)
    (hcalls : Calls layers left steps (op :: ops))
    (hnone : op = .launchIo none → w.pendingStoreLayerTasks = []) :
    ∃ w' left' ioTasks' steps', w.apply op = .ok w' ∧ Calls layers left' steps' ops ∧
      Inv layers w' left' ioTasks' ∧ Ready layers w' left' ioTasks' steps' := by
  cases hcalls with
  | launch budget hcalls =>
      have hok : ∃ r, launchPendingStoreLayerTasks w.kvcaches w.pendingStoreLayerTasks
          (budget.map Int.ofNat) w.infinikvEngine = .ok r := by
        cases budget with
        | none =>
            rw [hnone rfl]
            exact ⟨_, rfl⟩
        | some b => exact launchPending_ok hready.pending b
      obtain ⟨r, hr⟩ := hok
      have hlaunch : w.launchIo (budget.map Int.ofNat) =
          .ok { w with infinikvEngine := r.2, pendingStoreLayerTasks := r.1 } := map_eq_ok.2 ⟨r, hr, rfl⟩
      obtain ⟨done, hpending, -, -, -, -, -, -⟩ := launchIo_cases hlaunch
      refine ⟨_, left, ioTasks, steps, hlaunch, hcalls, ⟨hinv.kvcaches, hinv.left_le, hinv.metadata⟩,
        ⟨?_, hready.current, hready.steps⟩⟩
      intro task htask
      exact hready.pending task (hpending ▸ List.mem_append_right done htask)
  | layer completionEvent hcalls =>
      rename_i left
      obtain ⟨w', task, hsave, hpending, -, htask, -, hlayers, hcaches, hinv'⟩ :=
        hinv.saveKvLayerAsync completionEvent
      obtain ⟨hnum, hrange⟩ := hready.current (Nat.succ_pos left)
      have hlt : layers - (left + 1) < layers := by
        have := hinv.left_le
        omega
      obtain ⟨hne, -, -⟩ := hinv.metadata (Nat.succ_pos left)
      refine ⟨w', left, ioTasks, steps, hsave, hcalls, hinv', ⟨?_, ?_, ?_⟩⟩
      · rw [hpending, hcaches, htask (hnum ▸ hlt)]
        refine List.forall_mem_append.2 ⟨hready.pending, ?_⟩
        rw [List.forall_mem_singleton]
        exact ⟨ioTasks, layers - (left + 1), hne, hinv.kvcaches ▸ hlt, hrange, rfl⟩
      · rw [hlayers, hcaches]
        exact fun _ => ⟨hnum, hrange⟩
      · rw [hlayers, hcaches]
        exact hready.steps
  | step hne hcalls =>
      rename_i ioTasks' steps'
      obtain ⟨hcurrent, hsteps⟩ := List.forall_mem_cons.1 hready.steps
      refine ⟨_, layers, ioTasks', steps', rfl, hcalls, ⟨hinv.kvcaches, le_rfl, ?_⟩,
        ⟨hready.pending, fun _ => hcurrent, hsteps⟩⟩
      intro _
      refine ⟨hne, fun hzero => hne (List.length_eq_zero_iff.1 hzero), ?_⟩
      rw [Nat.sub_self, Nat.zero_min]
      rfl

/-- `launch_io` is called without a budget only when nothing is queued. -/
def NoneOnlyEmpty (w : AsyncWorker) (ops : List Op) : Prop :=
  ∀ ops₁ ops₂ w₁, ops = ops₁ ++ .launchIo none :: ops₂ → run ops₁ w = .ok w₁ →
    w₁.pendingStoreLayerTasks = []

/-- **All calls return**, if no call without a budget finds layers queued. -/
theorem Ready.run (hready : Ready layers w left ioTasks steps) (hinv : Inv layers w left ioTasks)
    (hcalls : Calls layers left steps ops) (hnone : NoneOnlyEmpty w ops) :
    ∃ w', run ops w = .ok w' ∧ ∀ task ∈ w'.pendingStoreLayerTasks, Writable w'.kvcaches task := by
  induction ops generalizing w left ioTasks steps with
  | nil => exact ⟨w, rfl, hready.pending⟩
  | cons op ops ih =>
      obtain ⟨w₁, left₁, ioTasks₁, steps₁, happly, hcalls₁, hinv₁, hready₁⟩ :=
        hready.apply hinv hcalls fun hop => hnone [] ops w (by rw [hop]; rfl) rfl
      have hnone₁ : NoneOnlyEmpty w₁ ops := by
        intro ops₁ ops₂ w₂ hops hrun
        refine hnone (op :: ops₁) ops₂ w₂ (by rw [hops]; rfl) ?_
        exact bind_eq_ok.2 ⟨w₁, happly, hrun⟩
      obtain ⟨w', hrun, hpending⟩ := ih hready₁ hinv₁ hcalls₁ hnone₁
      exact ⟨w', bind_eq_ok.2 ⟨w₁, happly, hrun⟩, hpending⟩

/-- What is to be queued before the first step. -/
theorem toQueue_zero (numLayers layers : ℕ) (ioTasks : List IoTask) (steps : List (List IoTask)) :
    toQueue numLayers layers 0 ioTasks steps = steps.flatMap (stepTransfers numLayers layers) := by
  have hnone : (stepTransfers numLayers layers ioTasks).drop layers = [] := by
    rw [List.drop_eq_nil_iff, stepTransfers, List.length_map, List.length_range]
  simp [toQueue, hnone]

/-- Before the first step there are no tasks. -/
theorem Inv.start (hcaches : w.kvcaches.length = layers) : Inv layers w 0 [] :=
  ⟨hcaches, Nat.zero_le layers, fun h => absurd h (lt_irrefl 0)⟩

/-- After all steps, all layers have been issued or are queued. -/
theorem log_queue_of_run (hcaches : w.kvcaches.length = layers) (hcalls : Calls layers 0 steps ops)
    (h : run ops w = .ok w') :
    Grows w w' ∧
      w'.log ++ w'.queue = w.log ++ w.queue ++ steps.flatMap (stepTransfers w.numLayers layers) := by
  rw [← List.append_nil ops] at hcalls
  obtain ⟨left', ioTasks', steps', hcalls', -, hgrows, htake, hdrop⟩ := (Inv.start hcaches).run hcalls h
  cases hcalls'
  rw [toQueue_zero, toQueue_zero, List.flatMap_nil, List.drop_eq_nil_iff] at hdrop
  rw [toQueue_zero, List.take_of_length_le hdrop] at htake
  exact ⟨hgrows, htake⟩

/-- A budget of all queued layers drains the queue. -/
theorem drain_cases (h : w.launchIo (some w.pendingStoreLayerTasks.length) = .ok w') :
    w'.queue = [] ∧ w'.log = w.log ++ w.queue := by
  obtain ⟨done, hpending, hlog, -, hlen, -, -, -⟩ := launchIo_cases h
  have hnil : w'.pendingStoreLayerTasks = [] := by
    have hsum := congrArg List.length hpending
    rw [List.length_append, hlen, launched, Int.toNat_natCast, Nat.min_self] at hsum
    exact List.length_eq_zero_iff.1 (by omega)
  rw [hnil, List.append_nil] at hpending
  exact ⟨by rw [queue, hnil, List.map_nil], by rw [hlog, queue, hpending]⟩

/-- What the layers of a step are to move. -/
def written (numLayers : ℕ) (ioTasks : List IoTask) : List (ℕ × ℕ × ℕ) :=
  (List.range numLayers).flatMap fun layer => ioTasks.map fun t => (t.1.id, t.2, layer)

theorem flatten_stepTransfers (numLayers : ℕ) (steps : List (List IoTask)) :
    (steps.flatMap (stepTransfers numLayers numLayers)).flatten = steps.flatMap (written numLayers) := by
  induction steps with
  | nil => rfl
  | cons ioTasks steps ih =>
      rw [List.flatMap_cons, List.flatMap_cons, List.flatten_append, ih]
      congr 1
      rw [stepTransfers, written, List.flatMap]
      refine congrArg List.flatten (List.map_congr_left fun layer hlayer => ?_)
      rw [layerTransfersOf, if_pos (List.mem_range.1 hlayer)]

/-! ### When every layer is issued once -/

/-- What these calls are to do, for the tasks of the given steps: each call returns, and what has been issued
and what is queued are the layers that have been saved so far, in their order; each call of `launch_io`
issues as many layers as its budget allows, or all of them; and after the calls, once the queue has been
drained, each task has been written for each layer that the connector counts, once. -/
structure IssuedOnce (w : AsyncWorker) (layers : ℕ) (steps : List (List IoTask)) (ops : List Op) :
    Prop where
  fifo : ∀ ops₁ ops₂, ops = ops₁ ++ ops₂ → ∃ w₁, run ops₁ w = .ok w₁ ∧
    w₁.log ++ w₁.queue =
      w.log ++ (steps.flatMap (stepTransfers w.numLayers layers)).take (queued ops₁)
  launch : ∀ ops₁ ops₂ budget w₁ w₂, ops = ops₁ ++ .launchIo budget :: ops₂ → run ops₁ w = .ok w₁ →
    w₁.launchIo (budget.map Int.ofNat) = .ok w₂ →
    ∃ issued, w₂.log = w₁.log ++ issued ∧ w₁.queue = issued ++ w₂.queue ∧
      issued.length = launched (budget.map Int.ofNat) w₁.queue.length
  drained : ∃ w₁ w₂, run ops w = .ok w₁ ∧
    w₁.launchIo (some w₁.pendingStoreLayerTasks.length) = .ok w₂ ∧ w₂.queue = [] ∧
    ∃ issued, w₂.log = w.log ++ issued ∧ issued.flatten = steps.flatMap (written w.numLayers)

/-- **When every layer is issued once and in order**, for a worker for a model whose queue is empty and any
calls of any number of steps: if and only if no call without a budget finds layers queued, and, if there are
steps at all, the model has no sliding windows and the blocks are blocks of the caches. -/
theorem issuedOnce_iff {vllm : VllmConfig} (hw : w.toWorker.Serves vllm)
    (hlayers : w.numLayers = vllm.connectorNumLayers) (hempty : w.pendingStoreLayerTasks = [])
    (hcalls : Calls vllm.numAttnLayers 0 steps ops) :
    IssuedOnce w vllm.numAttnLayers steps ops ↔
      NoneOnlyEmpty w ops ∧ (steps = [] ∨ ∀ t ∈ vllm.layerTypes, t ≠ .slidingAttention) ∧
        ∀ ioTasks ∈ steps, InRange w.kvcaches ioTasks := by
  have hqueue : w.queue = [] := by rw [queue, hempty, List.map_nil]
  have hle := vllm.connectorNumLayers_le
  rw [← vllm.connectorNumLayers_eq_iff]
  constructor
  · intro honce
    refine ⟨?_, ?_⟩
    · intro ops₁ ops₂ w₁ hops hrun
      obtain ⟨w₂, hrun₂, -⟩ := honce.fifo (ops₁ ++ [.launchIo none]) ops₂ (by simp [hops])
      rw [run_append, hrun] at hrun₂
      obtain ⟨w₃, hw₃, hrun₂⟩ := bind_eq_ok.1 hrun₂
      cases hw₃
      obtain ⟨w₃, hlaunch, -⟩ := bind_eq_ok.1 hrun₂
      obtain ⟨r, hr, -⟩ := map_eq_ok.1 hlaunch
      cases hpending : w₁.pendingStoreLayerTasks with
      | nil => rfl
      | cons task rest =>
          rw [hpending] at hr
          cases hr
    · -- after the queue has been drained, every layer has been checked
      obtain ⟨w₁, w₂, hrun, hdrain, -, -⟩ := honce.drained
      obtain ⟨hgrows, hlog⟩ := log_queue_of_run hw.kvcaches hcalls hrun
      obtain ⟨xs, hxs, hchecked⟩ := (hgrows.trans (.of_launchIo hdrain)).log
      rw [hqueue, List.append_nil, ← (drain_cases hdrain).2, hxs, List.append_cancel_left_eq] at hlog
      have hlayer : ∀ ioTasks ∈ steps, ∀ layer < vllm.numAttnLayers,
          Checked w.kvcaches (layerTransfersOf w.numLayers layer ioTasks) := by
        intro ioTasks hsteps layer hlt
        refine hchecked _ (hlog ▸ List.mem_flatMap.2 ⟨ioTasks, hsteps, ?_⟩)
        exact List.mem_map.2 ⟨layer, List.mem_range.2 hlt, rfl⟩
      have hcount : steps = [] ∨ vllm.connectorNumLayers = vllm.numAttnLayers := by
        rcases List.eq_nil_or_concat steps with hnil | ⟨steps', ioTasks, rfl⟩
        · exact Or.inl hnil
        · refine Or.inr (le_antisymm hle (not_lt.1 fun hlt => ?_))
          refine (hlayer ioTasks (by simp) _ hlt).ne_nil ?_
          rw [layerTransfersOf, hlayers, if_neg (lt_irrefl _)]
      refine ⟨hcount, ?_⟩
      intro ioTasks hsteps t ht numBlocks hcache
      obtain ⟨layer, hlt, hget⟩ := List.mem_iff_getElem.1 hcache
      rw [hw.kvcaches] at hlt
      have hcounted : layer < w.numLayers := by
        rcases hcount with rfl | hcount
        · cases hsteps
        · rwa [hlayers, hcount]
      have hrange := (hlayer ioTasks hsteps layer hlt).inRange
      rw [layerTransfersOf, if_pos hcounted] at hrange
      obtain ⟨numBlocks', hcache', hblock⟩ := hrange _ (List.mem_map.2 ⟨t, ht, rfl⟩)
      rw [List.getElem?_eq_getElem (hw.kvcaches ▸ hlt), hget] at hcache'
      cases hcache'
      exact hblock
  · rintro ⟨hnone, hcount, hrange⟩
    have hready : Ready vllm.numAttnLayers w 0 [] steps := by
      refine ⟨by simp [hempty], fun h => absurd h (lt_irrefl 0), ?_⟩
      intro ioTasks hsteps
      refine ⟨?_, hrange ioTasks hsteps⟩
      rcases hcount with rfl | hcount
      · cases hsteps
      · rw [hlayers, hcount]
    obtain ⟨w', hrun, hpending⟩ := hready.run (.start hw.kvcaches) hcalls hnone
    refine ⟨?_, ?_, ?_⟩
    · intro ops₁ ops₂ hops
      rw [hops, run_append] at hrun
      obtain ⟨w₁, hrun₁, -⟩ := bind_eq_ok.1 hrun
      rw [hops] at hcalls
      obtain ⟨-, -, -, -, -, -, htake, -⟩ := (Inv.start hw.kvcaches).run hcalls hrun₁
      rw [hqueue, List.append_nil, toQueue_zero] at htake
      exact ⟨w₁, hrun₁, htake⟩
    · intro ops₁ ops₂ budget w₁ w₂ _ _ hlaunch
      obtain ⟨done, hdone, hlog, -, hlen, -, -, -⟩ := launchIo_cases hlaunch
      refine ⟨done.map transfersOf, hlog, ?_, ?_⟩
      · rw [queue, queue, hdone, List.map_append]
      · rw [List.length_map, hlen, queue, List.length_map]
    · obtain ⟨r, hr⟩ := launchPending_ok hpending w'.pendingStoreLayerTasks.length
        (e := w'.infinikvEngine)
      have hdrain : w'.launchIo (some w'.pendingStoreLayerTasks.length) =
          .ok { w' with infinikvEngine := r.2, pendingStoreLayerTasks := r.1 } := map_eq_ok.2 ⟨r, hr, rfl⟩
      obtain ⟨hnil, hlog⟩ := drain_cases hdrain
      obtain ⟨-, hall⟩ := log_queue_of_run hw.kvcaches hcalls hrun
      refine ⟨w', _, hrun, hdrain, hnil, steps.flatMap (stepTransfers w.numLayers vllm.numAttnLayers), ?_, ?_⟩
      · rw [hlog, hall, hqueue, List.append_nil]
      · rcases hcount with rfl | hcount
        · rfl
        · rw [hlayers, hcount, flatten_stepTransfers]

/-! ### Two models -/

/-- A worker for a small model with the given layers, whose queue is empty. -/
def asyncWorker (layerTypes : List LayerType) : AsyncWorker where
  toWorker := Worker.modelWorker layerTypes
  pendingStoreLayerTasks := []
  metadata := { Worker.loadMetadata with requests := [] }

/-- The key of a chunk of the small model. -/
def asyncKey (chunkHash : Str) : CacheEngineKey := ⟨"vllm".toList, ['m'], 1, 1, chunkHash⟩

/-- A step with two files. -/
def twoFiles : List IoTask := [(⟨4, asyncKey ['a']⟩, 7), (⟨5, asyncKey ['b']⟩, 8)]

/-- The theorem at a model with two layers of full attention, the first of which is issued before the second
is saved. -/
theorem issuedOnce_full_attention :
    let w := asyncWorker [.fullAttention, .fullAttention]
    IssuedOnce w 2 [twoFiles]
      [.startStep twoFiles, .saveKvLayerAsync 1, .launchIo (some 3), .saveKvLayerAsync 2] := by
  intro w
  have hserves : w.toWorker.Serves (Worker.modelOf [.fullAttention, .fullAttention]) :=
    ⟨by decide +kernel, by decide +kernel, by decide +kernel⟩
  refine (issuedOnce_iff hserves rfl rfl ?_).2
    ⟨?_, Or.inr (by decide), ?_⟩
  · exact .step (by simp [twoFiles]) (.layer 1 (.launch (some 3) (.layer 2 .done)))
  · intro ops₁ ops₂ w₁ hops
    have hmem : Op.launchIo none ∈ [.startStep twoFiles, .saveKvLayerAsync 1, .launchIo (some 3),
        .saveKvLayerAsync 2] := hops ▸ by simp
    simp at hmem
  · intro ioTasks hsteps t ht numBlocks hcache
    obtain rfl := List.mem_singleton.1 hsteps
    obtain rfl : numBlocks = 16 := List.eq_of_mem_replicate (n := 2) hcache
    simp only [twoFiles, List.mem_cons, List.not_mem_nil, or_false] at ht
    rcases ht with rfl | rfl
    · decide
    · decide

/-- **A call without a budget** raises when a layer is queued; and in a model with a sliding window so does
the attempt to write what is queued for its second layer. -/
theorem not_issuedOnce_launchIo :
    let ops := [.startStep twoFiles, .saveKvLayerAsync 1, .launchIo none]
    let slidingOps := [.startStep twoFiles, .saveKvLayerAsync 1, .saveKvLayerAsync 2, .launchIo (some 2)]
    Calls 1 0 [twoFiles] ops ∧ Calls 2 0 [twoFiles] slidingOps ∧
      (run ops (asyncWorker [.fullAttention])).map (fun _ => ()) = .error .typeError ∧
      (run slidingOps (asyncWorker [.fullAttention, .slidingAttention])).map (fun _ => ()) =
        .error .indexError ∧
      ¬ IssuedOnce (asyncWorker [.fullAttention]) 1 [twoFiles] ops ∧
      ¬ IssuedOnce (asyncWorker [.fullAttention, .slidingAttention]) 2 [twoFiles] slidingOps := by
  intro ops slidingOps
  have hnone : (run ops (asyncWorker [.fullAttention])).map (fun _ => ()) = .error .typeError := by
    decide +kernel
  have hsliding : (run slidingOps (asyncWorker [.fullAttention, .slidingAttention])).map (fun _ => ()) =
      .error .indexError := by decide +kernel
  refine ⟨.step (by simp [twoFiles]) (.layer 1 (.launch none .done)),
    .step (by simp [twoFiles]) (.layer 1 (.layer 2 (.launch (some 2) .done))), hnone, hsliding, ?_, ?_⟩
  · intro honce
    obtain ⟨w₁, hrun, -⟩ := honce.fifo ops [] (List.append_nil _).symm
    rw [hrun] at hnone
    cases hnone
  · intro honce
    obtain ⟨w₁, hrun, -⟩ := honce.fifo slidingOps [] (List.append_nil _).symm
    rw [hrun] at hsliding
    cases hsliding

end AsyncWorker
end InfiniKV
