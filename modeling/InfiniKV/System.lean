/-
**The scheduler and the worker together.**

In every step the scheduler makes a pass, in which it looks up prompts in the store of the worker, and
hands the metadata of the step over; the worker prepares the loads and the saves and runs the layers;
requests may be aborted meanwhile; and the scheduler updates its requests from the output of the
model.  Between steps requests are added and aborted.

A task of the queue does not say which request it was made for, and a key of the store does not say
which tokens it was made of.  Properties of runs refer to both, so that the system carries a history.

Main definitions:

* `InfiniKV.Setup`, `InfiniKV.System` — the configuration and the state;
* `InfiniKV.History` — what happened so far;
* `InfiniKV.System.apply` — **what an event does**;
* `InfiniKV.System.Run` — the runs of the system.

Main results:

* `InfiniKV.System.apply_scheduler` — an event of the system is a step of its scheduler;
* `InfiniKV.Worker.forwardLayers_frame` — the layers change neither the index nor the queue;
* `InfiniKV.System.Run.configured` — the configuration of a run is that of its set-up.
-/

import InfiniKV.TrackerAgreement
import InfiniKV.Worker

set_option relaxedAutoImplicit false
set_option autoImplicit false

namespace InfiniKV

open Relation Scheduler

/-- How the scheduler, the connector and the worker are set up. -/
structure Setup where
  schedulerConfig : SchedulerConfig
  kvRole : KVRole
  discardPartialChunks : Bool
  skipLastNTokens : ℕ
  engineConfig : InfiniKVEngineConfig
  engineMetadata : InfiniKVEngineMetadata
  numLayers : ℕ
  blockSize : ℕ
  kvcaches : List KVCache

/-- What happened so far: the ids under which requests were added, the token sequences that were handed
over to be saved, and the tasks in the queue with the requests they were made for. -/
structure History where
  added : List String
  saved : List (List ℤ)
  queued : List (String × IOSpec)

/-- The state of the system. -/
structure System where
  scheduler : Scheduler
  worker : Worker
  history : History

/-! ### What the history records of a step -/

/-- The token sequences that the metadata of a step hands over to be saved. -/
def InfiniKVConnectorMetadata.savedTokens (metadata : InfiniKVConnectorMetadata) : List (List ℤ) :=
  (metadata.requests.filter fun m => m.saveSpec.any (·.canSave)).map (·.tokenIds)

/-- The tasks that were made for a request. -/
def ReqMeta.tasks (m : ReqMeta) : List IOSpec :=
  match m.saveSpec with
  | some ⟨_, _, _, some gpuFiles, some blockIdsToSave⟩ =>
      (gpuFiles.zip blockIdsToSave).map fun (gpuFile, blockId) => ⟨gpuFile, blockId, 0, ""⟩
  | _ => []

/-- The tasks that were made in a step, with the requests they were made for. -/
def InfiniKVConnectorMetadata.submitted (metadata : InfiniKVConnectorMetadata) :
    List (String × IOSpec) :=
  metadata.requests.flatMap fun m => m.tasks.map fun t => (m.reqId, t)

/-- The history after `start_load_kv` has turned the metadata of a step into `metadata'`, and left
`queue`. -/
def History.record (history : History) (metadata metadata' : InfiniKVConnectorMetadata)
    (queue : TaskQueueforSave) : History :=
  { history with
    saved := history.saved ++ metadata.savedTokens
    queued := (history.queued ++ metadata'.submitted).filter fun x => decide (x.2 ∈ queue.tasks) }

/-! ### The layers -/

namespace Worker

variable {fs : GeminiFSOps} {w w' : Worker} {metadata metadata' : InfiniKVConnectorMetadata}

/-- What the layers of a step leave as it is: the index, the queue and the configuration. -/
structure SameIndex (w w' : Worker) : Prop where
  dict : w'.infinikvEngine.storageBackend.dict = w.infinikvEngine.storageBackend.dict
  openCalls : w'.infinikvEngine.storageBackend.openCalls = w.infinikvEngine.storageBackend.openCalls
  tokenDatabase : w'.infinikvEngine.tokenDatabase = w.infinikvEngine.tokenDatabase
  taskQueue : w'.taskQueue = w.taskQueue
  infinikvChunkSize : w'.infinikvChunkSize = w.infinikvChunkSize

theorem SameIndex.refl (w : Worker) : SameIndex w w := ⟨rfl, rfl, rfl, rfl, rfl⟩

theorem SameIndex.trans {w₁ w₂ w₃ : Worker} (h : SameIndex w₁ w₂) (h' : SameIndex w₂ w₃) :
    SameIndex w₁ w₃ :=
  ⟨h'.dict.trans h.dict, h'.openCalls.trans h.openCalls, h'.tokenDatabase.trans h.tokenDatabase,
    h'.taskQueue.trans h.taskQueue, h'.infinikvChunkSize.trans h.infinikvChunkSize⟩

theorem waitForLayerLoad_sameIndex (h : w.waitForLayerLoad fs metadata = .ok w') : SameIndex w w' := by
  rw [waitForLayerLoad] at h
  split at h
  · cases h
  · obtain ⟨⟨fileIds, blockIds⟩, -, h⟩ := bind_eq_ok.1 h
    simp only at h
    split at h
    · cases h
      exact .refl w
    · obtain ⟨engine, he, h⟩ := bind_eq_ok.1 h
      cases h
      rcases w.infinikvEngine.retrieveLayer_cases fs he with ⟨-, rfl⟩ | ⟨-, -, rfl⟩
      · exact .refl w
      · exact ⟨rfl, rfl, rfl, rfl, rfl⟩

theorem saveKvLayer_sameIndex (h : w.saveKvLayer metadata = .ok (w', metadata')) : SameIndex w w' := by
  rcases saveKvLayer_cases h with ⟨-, rfl, -⟩ | ⟨_, _, _, -, -, -, -, rfl, -⟩
  · exact ⟨rfl, rfl, rfl, rfl, rfl⟩
  · exact ⟨rfl, rfl, rfl, rfl, rfl⟩

/-- The layers change neither the index nor the queue. -/
theorem forwardLayers_frame {n : ℕ} (h : forwardLayers fs n w metadata = .ok (w', metadata')) :
    SameIndex w w' := by
  induction n generalizing w metadata with
  | zero =>
      cases h
      exact .refl _
  | succ n ih =>
      obtain ⟨w₁, hwait, h⟩ := bind_eq_ok.1 h
      obtain ⟨⟨w₂, metadata₂⟩, hsave, h⟩ := bind_eq_ok.1 h
      exact ((waitForLayerLoad_sameIndex hwait).trans (saveKvLayer_sameIndex hsave)).trans (ih h)

end Worker

/-! ### Events -/

/-- The lookup of the scheduler is answered by the engine of the worker. -/
def Worker.lookup (w : Worker) (tokenIds : List ℤ) : Except PyError ℕ :=
  w.infinikvEngine.lookup ⟨.tensor, tokenIds⟩

/-- What may happen: a request is added or aborted, draft tokens arrive, the scheduler is paused, or a
step is made, in which `Simulator.execute` returns `outcome`. -/
inductive Event where
  | add (requestId : String) (promptTokenIds : List ℤ) (mmFeatures : List MultiModalFeatureSpec)
      (priority arrivalTime : ℤ)
  | finish (requestId : String)
  | draft (requestId : String) (specTokenIds : List ℤ)
  | pause (pauseState : PauseState)
  | step (outcome : ℕ × Option CudaStream) (aborted : List String) (modelOutput : ModelRunnerOutput)

namespace System

/-- The system before anything happened. -/
def init (setup : Setup) : System where
  scheduler := .init setup.schedulerConfig
    (.init setup.blockSize setup.kvRole setup.discardPartialChunks setup.skipLastNTokens)
  worker := .init setup.engineConfig setup.engineMetadata setup.numLayers setup.blockSize setup.kvcaches
  history := ⟨[], [], []⟩

variable (kv : KVCacheOps) (fs : GeminiFSOps) (sys : System)

/-- A step of the system. -/
def applyStep (outcome : ℕ × Option CudaStream) (aborted : List String)
    (modelOutput : ModelRunnerOutput) : Except PyError System := do
  let (p, metadata, s) ← sys.scheduler.schedule kv sys.worker.lookup
  let (w, metadata') ← sys.worker.startLoadKv fs outcome metadata
  let history := sys.history.record metadata metadata' w.taskQueue
  let (w, _) ← Worker.forwardLayers fs w.numLayers w metadata'
  .ok ⟨(aborted.foldl Scheduler.finishRequest s).updateFromOutput modelOutput p.output, w, history⟩

/-- **What an event does.** -/
def apply : Event → Except PyError System
  | .add requestId promptTokenIds mmFeatures priority arrivalTime =>
      (sys.scheduler.addRequest requestId promptTokenIds mmFeatures priority arrivalTime).map fun s =>
        ⟨s, sys.worker, { sys.history with added := sys.history.added ++ [requestId] }⟩
  | .finish requestId => .ok { sys with scheduler := sys.scheduler.finishRequest requestId }
  | .draft requestId specTokenIds =>
      .ok { sys with scheduler := sys.scheduler.updateDraftTokenIds requestId specTokenIds }
  | .pause pauseState => .ok { sys with scheduler := { sys.scheduler with pauseState } }
  | .step outcome aborted modelOutput => sys.applyStep kv fs outcome aborted modelOutput

/-- The runs of the system: an event that raises an exception ends a run. -/
def Run (setup : Setup) (sys : System) : Prop :=
  ReflTransGen (fun a b => ∃ event, apply kv fs a event = .ok b) (init setup) sys

/-! ### Events of the scheduler -/

variable {kv fs sys} {sys' : System} {setup : Setup}

/-- **What a step does**: a pass of the scheduler, `start_load_kv`, the layers, and the update. -/
theorem applyStep_cases {outcome : ℕ × Option CudaStream} {aborted : List String}
    {modelOutput : ModelRunnerOutput}
    (h : sys.applyStep kv fs outcome aborted modelOutput = .ok sys') :
    ∃ p metadata s w metadata' w' metadata'',
      sys.scheduler.schedule kv sys.worker.lookup = .ok (p, metadata, s) ∧
      sys.worker.startLoadKv fs outcome metadata = .ok (w, metadata') ∧
      Worker.forwardLayers fs w.numLayers w metadata' = .ok (w', metadata'') ∧
      sys' = ⟨(aborted.foldl finishRequest s).updateFromOutput modelOutput p.output, w',
        sys.history.record metadata metadata' w.taskQueue⟩ := by
  obtain ⟨⟨p, metadata, s⟩, hsched, h⟩ := bind_eq_ok.1 h
  obtain ⟨⟨w, metadata'⟩, hstart, h⟩ := bind_eq_ok.1 h
  obtain ⟨⟨w', metadata''⟩, hlayers, h⟩ := bind_eq_ok.1 h
  cases h
  exact ⟨p, metadata, s, w, metadata', w', metadata'', hsched, hstart, hlayers, rfl⟩

theorem updateFromOutput_requests {s : Scheduler} {id : String} (h : s.requests id = none)
    (modelOutput : ModelRunnerOutput) (output : SchedulerOutput) :
    (s.updateFromOutput modelOutput output).requests id = none := by
  unfold updateFromOutput
  generalize output.scheduledSpecDecodeTokens = l
  induction l generalizing s with
  | nil => exact h
  | cons x l ih =>
      obtain ⟨requestId, specTokenIds⟩ := x
      refine ih ?_
      simp only [updateRequest]
      split
      · exact h
      · rename_i r hr
        -- the request that is updated is known, the other one is not
        have hne : id ≠ requestId := by
          rintro rfl
          rw [h] at hr
          cases hr
        split
        · rw [(kept_finishRequest hne).requests]
          exact (Function.update_of_ne hne _ _).trans h
        · exact (Function.update_of_ne hne _ _).trans h

/-- An event of the system is a step of its scheduler. -/
theorem apply_scheduler {event : Event} (h : sys.apply kv fs event = .ok sys') :
    Step kv sys.scheduler sys'.scheduler := by
  cases event with
  | add requestId promptTokenIds mmFeatures priority arrivalTime =>
      obtain ⟨s, hs, rfl⟩ := map_eq_ok.1 h
      exact .add requestId promptTokenIds mmFeatures priority arrivalTime hs
  | finish requestId =>
      cases h
      exact .finish _ requestId
  | draft requestId specTokenIds =>
      cases h
      exact .draft _ requestId specTokenIds
  | pause pauseState =>
      cases h
      exact .pause _ pauseState
  | step outcome aborted modelOutput =>
      obtain ⟨p, metadata, s, w, metadata', w', metadata'', hsched, -, -, rfl⟩ := applyStep_cases h
      exact .step sys.worker.lookup aborted modelOutput hsched

/-- A step of the system: what the pass, `start_load_kv`, the layers and the update do. -/
structure Stepped (kv : KVCacheOps) (fs : GeminiFSOps) (sys : System)
    (outcome : ℕ × Option CudaStream) (p : Pass) (metadata metadata' : InfiniKVConnectorMetadata)
    (s₁ s₂ : Scheduler) (w : Worker) (sys' : System) : Prop where
  schedule : sys.scheduler.schedule kv sys.worker.lookup = .ok (p, metadata, s₁)
  scheduled : Scheduled sys.scheduler p metadata s₁
  startLoadKv : sys.worker.startLoadKv fs outcome metadata = .ok (w, metadata')
  layers : w.SameIndex sys'.worker
  drops : Drops s₁ s₂
  quiet : Quiet (draftsOf p) s₂ sys'.scheduler
  unknown : ∀ id, s₂.requests id = none → sys'.scheduler.requests id = none
  history : sys'.history = sys.history.record metadata metadata' w.taskQueue

/-- **What an event does**: it leaves the worker and the connector alone, or it is a step. -/
theorem apply_cases (hs : sys.scheduler.WellFormed) (hnamed : sys.scheduler.connector.Named)
    {event : Event} (h : sys.apply kv fs event = .ok sys') :
    (Quiet (fun _ => []) sys.scheduler sys'.scheduler ∧ sys'.worker = sys.worker ∧
        ∃ ids, sys'.history = { sys.history with added := sys.history.added ++ ids } ∧
          ∀ id, sys.scheduler.requests id = none → sys'.scheduler.requests id = none ∨ id ∈ ids) ∨
      ∃ outcome aborted modelOutput, event = .step outcome aborted modelOutput ∧
        ∃ p metadata metadata' s₁ s₂ w,
          Stepped kv fs sys outcome p metadata metadata' s₁ s₂ w sys' := by
  have hsame : sys.history = { sys.history with added := sys.history.added ++ [] } := by
    rw [List.append_nil]
  cases event with
  | add requestId promptTokenIds mmFeatures priority arrivalTime =>
      obtain ⟨s, hadd, rfl⟩ := map_eq_ok.1 h
      refine Or.inl ⟨quiet_addRequest hs hadd, rfl, [requestId], rfl, fun id hnone => ?_⟩
      rw [addRequest] at hadd
      split at hadd
      · cases hadd
      · cases hadd
        by_cases hid : id = requestId
        · exact Or.inr (List.mem_singleton.2 hid)
        · exact Or.inl ((Function.update_of_ne hid _ _).trans hnone)
  | finish requestId =>
      cases h
      have hdrops := drops_finishRequest hs.running_nodup hs.waiting_nodup requestId
      refine Or.inl ⟨hdrops.quiet _, rfl, [], hsame, fun id hnone => Or.inl ?_⟩
      rcases hdrops.dropped id with hkept | hgone
      · exact hkept.requests.trans hnone
      · exact hgone.requests
  | draft requestId specTokenIds =>
      cases h
      refine Or.inl ⟨quiet_updateDraftTokenIds hs requestId specTokenIds, rfl, [], hsame,
        fun id hnone => Or.inl ?_⟩
      simp only [updateDraftTokenIds]
      split
      · exact hnone
      · rename_i r hr
        have hne : id ≠ requestId := by
          rintro rfl
          rw [hnone] at hr
          cases hr
        exact (Function.update_of_ne hne _ _).trans hnone
  | pause pauseState =>
      cases h
      exact Or.inl ⟨quiet_pause hs pauseState, rfl, [], hsame, fun id hnone => Or.inl hnone⟩
  | step outcome aborted modelOutput =>
      obtain ⟨p, metadata, s, w, metadata', w', metadata'', hsched, hstart, hlayers, rfl⟩ :=
        applyStep_cases h
      have hspec := schedule_spec hs hnamed hsched
      obtain ⟨hdrops, hquiet⟩ := afterPass_cases hspec.pass (hspec.wellFormed hs) aborted modelOutput
      exact Or.inr ⟨outcome, aborted, modelOutput, rfl, p, metadata, metadata', s, _, w, hsched, hspec,
        hstart, Worker.forwardLayers_frame hlayers, hdrops, hquiet,
        fun id hnone => updateFromOutput_requests hnone modelOutput p.output, rfl⟩

/-- The ids that were used stay in the history. -/
theorem added_isPrefix (hs : sys.scheduler.WellFormed) (hnamed : sys.scheduler.connector.Named)
    {event : Event} (h : sys.apply kv fs event = .ok sys') :
    sys.history.added <+: sys'.history.added := by
  rcases apply_cases hs hnamed h with ⟨-, -, ids, hhistory, -⟩ |
    ⟨_, _, _, -, _, _, _, _, _, _, hstep⟩
  · rw [hhistory]
    exact List.prefix_append _ _
  · rw [hstep.history]
    exact List.prefix_refl _

/-- The scheduler of a run is in a reachable state. -/
theorem Run.scheduler (h : Run kv fs setup sys) : Reachable kv sys.scheduler := by
  have hlift : ∀ a b, (∃ event, apply kv fs a event = .ok b) → Step kv a.scheduler b.scheduler := by
    rintro a b ⟨event, hevent⟩
    exact apply_scheduler hevent
  exact ⟨setup.schedulerConfig, setup.blockSize, setup.kvRole, setup.discardPartialChunks,
    setup.skipLastNTokens, ReflTransGen.lift System.scheduler hlift _ _ h⟩

/-! ### The configuration -/

/-- The configuration of a system, which does not change. -/
structure Configured (setup : Setup) (sys : System) : Prop where
  blockSize : sys.scheduler.connector.blockSize = setup.blockSize
  infinikvChunkSize : sys.worker.infinikvChunkSize = setup.blockSize
  tokenDatabase : sys.worker.infinikvEngine.tokenDatabase =
    .init setup.engineConfig setup.engineMetadata

theorem Configured.apply (hs : sys.scheduler.WellFormed) (hnamed : sys.scheduler.connector.Named)
    (hsys : Configured setup sys) {event : Event} (h : sys.apply kv fs event = .ok sys') :
    Configured setup sys' := by
  rcases apply_cases hs hnamed h with ⟨hquiet, hworker, -⟩ |
    ⟨outcome, aborted, modelOutput, -, p, metadata, metadata', s₁, s₂, w, hstep⟩
  · refine ⟨?_, ?_, ?_⟩
    · rw [hquiet.connector]
      exact hsys.blockSize
    · rw [hworker]
      exact hsys.infinikvChunkSize
    · rw [hworker]
      exact hsys.tokenDatabase
  · obtain ⟨hdb, hsize, -⟩ := Worker.startLoadKv_frame hstep.startLoadKv
    refine ⟨?_, ?_, ?_⟩
    · rw [hstep.quiet.connector, hstep.drops.connector, hstep.scheduled.connector]
      exact hstep.scheduled.pass.connector.blockSize.trans hsys.blockSize
    · rw [hstep.layers.infinikvChunkSize, hsize]
      exact hsys.infinikvChunkSize
    · rw [hstep.layers.tokenDatabase, hdb]
      exact hsys.tokenDatabase

/-- **In every run the configuration is that of the set-up.** -/
theorem Run.configured (h : Run kv fs setup sys) : Configured setup sys := by
  induction h with
  | refl => exact ⟨rfl, rfl, rfl⟩
  | tail hrun hstep ih =>
      obtain ⟨event, hevent⟩ := hstep
      obtain ⟨hs, hnamed⟩ := (Run.scheduler hrun).wellFormed
      exact ih.apply hs hnamed hevent

end System

end InfiniKV
