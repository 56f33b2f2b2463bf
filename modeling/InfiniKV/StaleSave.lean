/-
**When a save task is stale.**

A task waits in the queue until a stream is granted, which may take many steps.  Meanwhile the request
it was made for may be finished or preempted, and its block handed out to another request.  The queue
has an operation that withdraws the tasks of a request, but the tasks are made without the id of a
request, and nothing calls it.

Main definitions:

* `InfiniKV.System.NoStaleTask` — the tasks that are popped in a step refer to blocks that still
  belong to the requests they were made for;
* `InfiniKV.System.KeepsTasks`, `InfiniKV.System.KeepingRun` — the runs in which no request is finished
  or preempted while it has a task in the queue;
* `InfiniKV.System.QueueInv` — what holds of the queue between the events of such a run.

Main results:

* `InfiniKV.Worker.saveRequests_tasks` — the tasks of a step, request by request;
* `InfiniKV.System.noStaleTask_of_keepingRun` — **no stale task is popped in such a run**;
* `InfiniKV.System.stale_task` — a run in which one is.
-/

import InfiniKV.System

set_option relaxedAutoImplicit false
set_option autoImplicit false

namespace InfiniKV

open Relation Scheduler

/-! ### The tasks of a step -/

/-- The blocks of the transfers that are prepared for storing come from the table. -/
theorem InfiniKVEngine.storeTransfers_blockId {e : InfiniKVEngine} {fs : GeminiFSOps}
    {tokens : List ℤ} {mask : Option (List Bool)} {blockIds : List ℕ} {ts : List ChunkTransfer}
    (h : (e.storeTransfers fs tokens mask blockIds).1 = .ok ts) : ∀ t ∈ ts, t.blockId ∈ blockIds := by
  rcases e.storeTransfers_cases fs tokens mask blockIds with ⟨err, heq⟩ | ⟨ys, heq⟩
  · rw [heq] at h
    cases h
  · rw [heq] at h
    revert h
    refine storeLoop_induction fs blockIds (motive := fun _ _ _ r _ => ∀ {ts}, r = .ok ts →
      ∀ t ∈ ts, t.blockId ∈ blockIds) ?_ ?_ ?_ ?_ ?_ ys 0 e.storageBackend
    · intro index b ts h
      cases h
      simp
    · intro _ _ _ _ _ _ _ _ _ ih
      exact ih
    · intro _ _ _ _ _ _ _ _ ts h
      cases h
      simp
    · intro _ _ _ _ _ _ _ _ _ _ ts h
      cases h
    · intro _ _ _ _ _ _ _ blockId _ _ _ _ hb ih ts h
      obtain ⟨ts', hr, rfl⟩ := map_eq_ok.1 h
      intro t ht
      rcases List.mem_cons.1 ht with rfl | ht
      · exact List.mem_of_getElem? hb
      · exact ih hr t ht

namespace ReqMeta

/-- No files were opened for the request so far. -/
def Fresh (m : ReqMeta) : Prop := ∀ s, m.saveSpec = some s → s.gpuFiles = none

theorem tasks_of_fresh {m : ReqMeta} (h : m.Fresh) : m.tasks = [] := by
  obtain ⟨_, _, _, _, saveSpec, _⟩ := m
  cases saveSpec with
  | none => rfl
  | some s =>
      obtain ⟨_, _, _, gpuFiles, _⟩ := s
      cases h _ rfl
      rfl

end ReqMeta

namespace Worker

variable {fs : GeminiFSOps} {c : ℕ} {e e' : InfiniKVEngine} {tasks : List IOSpec}

theorem SameSave.sameTasks {r r' : ReqMeta} (h : SameSave r r') :
    r'.tasks = r.tasks ∧ r'.reqId = r.reqId := by
  rw [h]
  exact ⟨rfl, rfl⟩

/-- The tasks made for a request are found in its save spec, and refer to blocks of its table. -/
theorem saveRequest_tasks {r r' : ReqMeta} (hfresh : r.Fresh)
    (h : saveRequest fs c e r = .ok (r', tasks, e')) :
    r'.tasks = tasks ∧ r'.reqId = r.reqId ∧ ∀ t ∈ tasks, Saves r ∧ t.blockId ∈ r.blockIds := by
  rcases saveRequest_cases h with ⟨-, rfl, rfl, -⟩ | ⟨s, ts, b, hsaves, hs, hst, -, rfl, rfl⟩
  · exact ⟨ReqMeta.tasks_of_fresh hfresh, rfl, by simp⟩
  · refine ⟨?_, rfl, ?_⟩
    · have hnone := hfresh s hs
      by_cases hts : ts = []
      · subst hts
        rw [if_pos rfl]
        refine ReqMeta.tasks_of_fresh ?_
        rintro s' hs'
        cases hs'
        exact hnone
      · rw [if_neg hts]
        simp [ReqMeta.tasks, List.zip_map', taskOf, Function.comp_def]
    · intro t ht
      obtain ⟨x, hx, rfl⟩ := List.mem_map.1 ht
      exact ⟨hsaves, InfiniKVEngine.storeTransfers_blockId (congrArg Prod.fst hst) x hx⟩

/-- **The tasks of a step, request by request.** -/
theorem saveRequests_tasks {rs rs' : List ReqMeta} (hfresh : ∀ r ∈ rs, r.Fresh)
    (h : saveRequests fs c e rs = .ok (rs', tasks, e')) :
    tasks = rs'.flatMap ReqMeta.tasks ∧ ∀ r' ∈ rs', ∀ t ∈ r'.tasks,
      ∃ r ∈ rs, r.reqId = r'.reqId ∧ Saves r ∧ t.blockId ∈ r.blockIds := by
  induction rs generalizing e rs' tasks with
  | nil =>
      cases h
      exact ⟨rfl, by simp⟩
  | cons r rs ih =>
      rw [saveRequests] at h
      obtain ⟨⟨r₁, tasks₁, e₁⟩, h₁, h⟩ := bind_eq_ok.1 h
      obtain ⟨⟨rs₂, tasks₂, e₂⟩, h₂, h⟩ := bind_eq_ok.1 h
      cases h
      obtain ⟨rfl, hid, hblocks⟩ := saveRequest_tasks (hfresh r (List.mem_cons_self ..)) h₁
      obtain ⟨rfl, hrest⟩ := ih (fun r' hr' => hfresh r' (List.mem_cons_of_mem _ hr')) h₂
      refine ⟨rfl, fun r' hr' t ht => ?_⟩
      rcases List.mem_cons.1 hr' with rfl | hr'
      · obtain ⟨hsaves, hb⟩ := hblocks t ht
        exact ⟨r, List.mem_cons_self .., hid.symm, hsaves, hb⟩
      · obtain ⟨r₀, hr₀, hrest⟩ := hrest r' hr' t ht
        exact ⟨r₀, List.mem_cons_of_mem _ hr₀, hrest⟩

/-- **What `start_load_kv` submits, pops and leaves in the queue.** -/
theorem startLoadKv_tasks {w w' : Worker} {outcome : ℕ × Option CudaStream}
    {metadata metadata' : InfiniKVConnectorMetadata} (hfresh : ∀ r ∈ metadata.requests, r.Fresh)
    (h : w.startLoadKv fs outcome metadata = .ok (w', metadata')) :
    (∀ x ∈ metadata'.submitted, ∃ r ∈ metadata.requests, r.reqId = x.1 ∧ Saves r ∧
      x.2.blockId ∈ r.blockIds) ∧
    (∀ ts, metadata'.ioTasks = some ts → ∀ t ∈ ts,
      t ∈ w.taskQueue.tasks ∨ ∃ id, (id, t) ∈ metadata'.submitted) ∧
    ∀ t ∈ w'.taskQueue.tasks, t ∈ w.taskQueue.tasks ∨ ∃ id, (id, t) ∈ metadata'.submitted := by
  obtain ⟨requests, ioTasks, engine, reads, hsave, hsame, hcases⟩ := startLoadKv_cases h
  obtain ⟨hio, hblocks⟩ := saveRequests_tasks hfresh hsave
  have hsubmitted : metadata'.submitted = requests.flatMap fun m => m.tasks.map fun t => (m.reqId, t) := by
    rw [InfiniKVConnectorMetadata.submitted]
    clear hio hblocks hsave hcases
    generalize metadata'.requests = requests' at hsame
    induction hsame with
    | nil => rfl
    | cons hr _ ih =>
        obtain ⟨htasks, hid⟩ := hr.sameTasks
        rw [List.flatMap_cons, List.flatMap_cons, ih, htasks, hid]
  have hnew : ∀ t ∈ (w.taskQueue.submitTasks ioTasks).tasks,
      t ∈ w.taskQueue.tasks ∨ ∃ id, (id, t) ∈ metadata'.submitted := by
    intro t ht
    rcases TaskQueueforSave.mem_submitTasks ht with ht | ht
    · exact Or.inl ht
    · rw [hio] at ht
      obtain ⟨r, hr, ht⟩ := List.mem_flatMap.1 ht
      refine Or.inr ⟨r.reqId, ?_⟩
      rw [hsubmitted]
      exact List.mem_flatMap.2 ⟨r, hr, List.mem_map_of_mem ht⟩
  refine ⟨?_, ?_, ?_⟩
  · intro x hx
    rw [hsubmitted] at hx
    obtain ⟨r', hr', hx⟩ := List.mem_flatMap.1 hx
    obtain ⟨t, ht, rfl⟩ := List.mem_map.1 hx
    exact hblocks r' hr' t ht
  · intro ts hts t ht
    rcases hcases with ⟨-, -, -, hnone, -⟩ | ⟨q', -, -, -, -, hsome, -⟩
    · rw [hnone] at hts
      cases hts
    · rw [hsome] at hts
      cases hts
      exact hnew t ht
  · intro t ht
    rcases hcases with ⟨-, rfl, -⟩ | ⟨q', -, hnil, rfl, -⟩
    · exact hnew t ht
    · change t ∈ q'.tasks at ht
      rw [hnil] at ht
      cases ht

end Worker

/-! ### The metadata of a step -/

namespace Scheduler

variable {s s' : Scheduler} {p : Pass} {metadata : InfiniKVConnectorMetadata} {m : ReqMeta}

/-- What is built from a tracker has the blocks of the tracker, and no files. -/
theorem fromTracker_fresh {c : SchedulerConnector} {t t' : RequestTracker} {l : Option LoadSpec}
    (h : c.fromTracker t l = .ok (some m, t')) : m.Fresh ∧ m.blockIds = t'.allocatedBlockIds := by
  rw [(fromTracker_frame h).2]
  rcases ReqMeta.fromRequestTracker_cases h with ⟨-, -, hnone, -⟩ | ⟨m', hm', -, -, hblocks, hsave, -, -⟩
  · cases hnone
  · cases hm'
    refine ⟨?_, hblocks⟩
    intro s hs
    rw [hsave] at hs
    cases hs
    rfl

/-- Every entry of the metadata is that of a scheduled request, and has the blocks of its tracker. -/
theorem Scheduled.mem_requests (hsched : Scheduled s p metadata s') (hm : m ∈ metadata.requests) :
    m.Fresh ∧ ∃ x ∈ p.scheduled, x.reqId = m.reqId ∧
      ∃ t, s'.connector.requestTrackers m.reqId = some t ∧ t.allocatedBlockIds = m.blockIds := by
  have hmem : m ∈ SchedulerConnector.metasOf m.reqId metadata.requests :=
    List.mem_filter.2 ⟨hm, by simp⟩
  cases hsched.built m.reqId with
  | other _ _ _ _ hmetas =>
      rw [hmetas] at hmem
      cases hmem
  | new d hd hid n _ t t' m' _ hm' htracker _ hmetas =>
      rw [hmetas, Option.mem_toList] at hmem
      cases hmem
      obtain ⟨hfresh, hblocks⟩ := fromTracker_fresh hm'
      have hid' : m.reqId ∈ p.output.scheduledNewReqs.map (·.reqId) := List.mem_map.2 ⟨d, hd, hid⟩
      rw [hsched.pass.scheduledNewReqs_reqId] at hid'
      obtain ⟨x, hx, hxid⟩ := List.mem_map.1 hid'
      exact ⟨hfresh, x, (Pass.mem_newReqs.1 hx).1, hxid, t', htracker, hblocks.symm⟩
  | cached req hreq hid n _ t t' r m' _ _ _ _ hm' htracker _ hmetas =>
      rw [hmetas, Option.mem_toList] at hmem
      cases hmem
      obtain ⟨hfresh, hblocks⟩ := fromTracker_fresh hm'
      have hid' : m.reqId ∈ p.output.scheduledCachedReqs.map (·.reqId) :=
        List.mem_map.2 ⟨req, hreq, hid⟩
      rw [Pass.scheduledCachedReqs_reqId] at hid'
      obtain ⟨x, hx, hxid⟩ := List.mem_map.1 hid'
      exact ⟨hfresh, x, (Pass.mem_cachedReqs.1 hx).1, hxid, t', htracker, hblocks.symm⟩

/-- The blocks of an entry of the metadata are those of the request, if its tracker can be trusted. -/
theorem Scheduled.blockIds_eq (hinv : TrackerInv s) (hsched : Scheduled s p metadata s')
    (hm : m ∈ metadata.requests) (htrust : ∀ r, s.requests m.reqId = some r → Trusted s r) :
    m.blockIds = s'.reqToBlocks m.reqId := by
  obtain ⟨-, x, hx, hid, t, ht, hblocks⟩ := hsched.mem_requests hm
  rw [← hid] at htrust ht ⊢
  obtain ⟨t', r, ht', -, -, -, halloc⟩ := trackerAgrees_of_trusted hinv hsched hx htrust
  cases ht.symm.trans ht'
  rw [hsched.reqToBlocks, ← halloc, hblocks]

end Scheduler

/-! ### Runs without stale tasks -/

namespace System

variable (kv : KVCacheOps) (fs : GeminiFSOps)

/-- **No stale task**: when `start_load_kv` has turned the metadata of a step into `metadata'`, every
task that it popped was made for a request, and its block belongs to every such request. -/
def NoStaleTask (history : History) (metadata' : InfiniKVConnectorMetadata) (s : Scheduler) : Prop :=
  ∀ ts, metadata'.ioTasks = some ts → ∀ t ∈ ts,
    (∃ id, (id, t) ∈ history.queued ++ metadata'.submitted) ∧
    ∀ id, (id, t) ∈ history.queued ++ metadata'.submitted → t.blockId ∈ s.reqToBlocks id

/-- No task of the request is in the queue. -/
def Unqueued (sys : System) (id : String) : Prop := ∀ t, (id, t) ∉ sys.history.queued

/-- The pass of the scheduler preempts no request that has a task in the queue, and the metadata it
builds saves no request that was preempted before, unless the second model runner is used. -/
def KeepsTasks (sys : System) : Prop :=
  ∀ p metadata s, sys.scheduler.schedule kv sys.worker.lookup = .ok (p, metadata, s) →
    (∀ id ∈ p.preempted, sys.Unqueued id) ∧
    ∀ m ∈ metadata.requests, Worker.Saves m → sys.scheduler.config.useV2ModelRunner = true ∨
      ∀ r, sys.scheduler.requests m.reqId = some r → r.numPreemptions = 0

/-- The event does not free the blocks of a request that has a task in the queue. -/
def KeepingStep (sys sys' : System) : Prop :=
  ∃ event, sys.apply kv fs event = .ok sys' ∧
    (∀ outcome aborted modelOutput, event = .step outcome aborted modelOutput → sys.KeepsTasks kv) ∧
    ∀ id ∈ sys'.scheduler.finishedReqIds, sys'.Unqueued id

/-- The runs in which no request is finished or preempted while it has a task in the queue. -/
def KeepingRun (setup : Setup) (sys : System) : Prop :=
  ReflTransGen (KeepingStep kv fs) (init setup) sys

/-- **What holds of the queue between the events of such a run.** -/
structure QueueInv (sys : System) : Prop where
  owned : ∀ x ∈ sys.history.queued, x.2.blockId ∈ sys.scheduler.reqToBlocks x.1
  queued : ∀ t ∈ sys.worker.taskQueue.tasks, ∃ id, (id, t) ∈ sys.history.queued

variable {kv fs} {sys sys' : System} {setup : Setup}

theorem KeepingRun.run (h : KeepingRun kv fs setup sys) : Run kv fs setup sys := by
  refine ReflTransGen.mono ?_ _ _ h
  rintro a b ⟨event, hevent, -⟩
  exact ⟨event, hevent⟩

/-- A pass takes no block from a request that it does not preempt. -/
theorem mem_reqToBlocks_of_scheduled {s s' : Scheduler} {p : Pass}
    {metadata : InfiniKVConnectorMetadata} {id : String} {b : ℕ} (hs : s.WellFormed)
    (hsched : Scheduled s p metadata s') (hpre : id ∉ p.preempted) (hb : b ∈ s.reqToBlocks id) :
    b ∈ s'.reqToBlocks id := by
  rw [hsched.reqToBlocks]
  cases hsched.pass.fate id with
  | untouched _ hblocks =>
      rw [hblocks]
      exact hb
  | scheduled _ _ _ _ _ _ _ hblocks =>
      rw [hblocks]
      exact List.mem_append_left _ hb
  | preempted _ _ _ _ _ _ _ _ hpreempted => exact absurd hpreempted hpre
  | admitted _ _ _ hwait =>
      -- a waiting request has no blocks
      obtain ⟨_, -, -, -, hnil⟩ := hs.waiting_request id hwait
      rw [hnil] at hb
      cases hb

/-- **The blocks of the tasks that are queued or made in a step** belong to their requests when the tasks
are popped. -/
theorem owned_of_keepsTasks {p : Pass} {metadata metadata' : InfiniKVConnectorMetadata} {s : Scheduler}
    {w : Worker} {outcome : ℕ × Option CudaStream} (hreach : Reachable kv sys.scheduler)
    (hinv : QueueInv sys) (hkeeps : sys.KeepsTasks kv)
    (hsched : sys.scheduler.schedule kv sys.worker.lookup = .ok (p, metadata, s))
    (hstart : sys.worker.startLoadKv fs outcome metadata = .ok (w, metadata')) :
    ∀ x ∈ sys.history.queued ++ metadata'.submitted, x.2.blockId ∈ s.reqToBlocks x.1 := by
  obtain ⟨hs, hnamed⟩ := hreach.wellFormed
  have hspec := schedule_spec hs hnamed hsched
  obtain ⟨hpre, hsaves⟩ := hkeeps p metadata s hsched
  intro x hx
  rcases List.mem_append.1 hx with hx | hx
  · refine mem_reqToBlocks_of_scheduled hs hspec ?_ (hinv.owned x hx)
    exact fun hmem => hpre x.1 hmem x.2 hx
  · obtain ⟨hsubmitted, -, -⟩ :=
      Worker.startLoadKv_tasks (fun m hm => (hspec.mem_requests hm).1) hstart
    obtain ⟨m, hm, hid, hsave, hb⟩ := hsubmitted x hx
    rw [← hid, ← hspec.blockIds_eq hreach.trackerInv hm fun r hr => ?_]
    · exact hb
    · rcases hsaves m hm hsave with hv2 | hzero
      · exact Or.inl hv2
      · exact Or.inr (hzero r hr)

/-- An event that frees no block of a request with a task in the queue keeps the invariant. -/
theorem KeepingStep.queueInv (hreach : Reachable kv sys.scheduler) (hinv : QueueInv sys)
    (h : KeepingStep kv fs sys sys') : QueueInv sys' := by
  obtain ⟨event, hevent, hkeeps, hfin⟩ := h
  obtain ⟨hs, hnamed⟩ := hreach.wellFormed
  have hunfinished : ∀ x ∈ sys'.history.queued, x.1 ∉ sys'.scheduler.finishedReqIds :=
    fun x hx hmem => hfin x.1 hmem x.2 hx
  rcases apply_cases hs hnamed hevent with ⟨hquiet, hworker, ids, hhistory, -⟩ |
    ⟨outcome, aborted, modelOutput, rfl, p, metadata, metadata', s₁, s₂, w, hstep⟩
  · have hqueued : sys'.history.queued = sys.history.queued := by rw [hhistory]
    constructor
    · intro x hx
      rw [hquiet.reqToBlocks (hunfinished x hx)]
      exact hinv.owned x (hqueued ▸ hx)
    · rw [hworker, hqueued]
      exact hinv.queued
  · have howned := owned_of_keepsTasks hreach hinv (hkeeps outcome aborted modelOutput rfl)
      hstep.schedule hstep.startLoadKv
    obtain ⟨-, -, hleft⟩ :=
      Worker.startLoadKv_tasks (fun m hm => (hstep.scheduled.mem_requests hm).1) hstep.startLoadKv
    constructor
    · intro x hx
      -- the request of a task that is left is finished neither by an abort nor by the update
      have hfin' := hunfinished x hx
      have hfin₂ : x.1 ∉ s₂.finishedReqIds := fun hmem => hfin' (hstep.quiet.finishedReqIds hmem)
      rw [hstep.quiet.reqToBlocks hfin', (hstep.drops.quiet (draftsOf p)).reqToBlocks hfin₂]
      rw [hstep.history] at hx
      exact howned x (List.mem_filter.1 hx).1
    · intro t ht
      rw [hstep.layers.taskQueue] at ht
      rw [hstep.history]
      have hrecord : ∀ id, (id, t) ∈ sys.history.queued ++ metadata'.submitted →
          (id, t) ∈ (sys.history.record metadata metadata' w.taskQueue).queued :=
        fun id hmem => List.mem_filter.2 ⟨hmem, decide_eq_true ht⟩
      rcases hleft t ht with hold | ⟨id, hnew⟩
      · obtain ⟨id, hid⟩ := hinv.queued t hold
        exact ⟨id, hrecord id (List.mem_append_left _ hid)⟩
      · exact ⟨id, hrecord id (List.mem_append_right _ hnew)⟩

theorem queueInv_init (setup : Setup) : QueueInv (init setup) := by
  constructor
  · intro x hx
    cases hx
  · intro t ht
    cases ht

theorem KeepingRun.queueInv (h : KeepingRun kv fs setup sys) : QueueInv sys := by
  induction h with
  | refl => exact queueInv_init setup
  | tail hrun hstep ih => exact hstep.queueInv (KeepingRun.run hrun).scheduler ih

/-- **No stale task is popped** in a run in which no request is finished or preempted while it has a
task in the queue, and no request that was preempted is saved by the first model runner. -/
theorem noStaleTask_of_keepingRun (hrun : KeepingRun kv fs setup sys) (hkeeps : sys.KeepsTasks kv)
    {p : Pass} {metadata metadata' : InfiniKVConnectorMetadata} {s : Scheduler} {w : Worker}
    {outcome : ℕ × Option CudaStream}
    (hsched : sys.scheduler.schedule kv sys.worker.lookup = .ok (p, metadata, s))
    (hstart : sys.worker.startLoadKv fs outcome metadata = .ok (w, metadata')) :
    NoStaleTask sys.history metadata' s := by
  have hreach := hrun.run.scheduler
  obtain ⟨hs, hnamed⟩ := hreach.wellFormed
  have hspec := schedule_spec hs hnamed hsched
  have howned := owned_of_keepsTasks hreach hrun.queueInv hkeeps hsched hstart
  obtain ⟨-, hpopped, -⟩ :=
    Worker.startLoadKv_tasks (fun m hm => (hspec.mem_requests hm).1) hstart
  intro ts hts t ht
  refine ⟨?_, fun id hid => howned (id, t) hid⟩
  rcases hpopped ts hts t ht with hold | ⟨id, hnew⟩
  · obtain ⟨id, hid⟩ := hrun.queueInv.queued t hold
    exact ⟨id, List.mem_append_left _ hid⟩
  · exact ⟨id, List.mem_append_right _ hnew⟩

/-! ### Two runs -/

/-- A system with blocks and chunks of two tokens, and two layers of eight blocks. -/
def smallSetup (useV2ModelRunner : Bool) : Setup where
  schedulerConfig := ⟨100, 4, 0, true, 100, .fcfs, useV2ModelRunner⟩
  kvRole := .both
  discardPartialChunks := true
  skipLastNTokens := 0
  engineConfig := ⟨2, false, Nat.two_pos⟩
  engineMetadata := ⟨['m'], 1, 0, ['v'], (2, 2, 2, 1, 1), false⟩
  numLayers := 2
  blockSize := 2
  kvcaches := [8, 8]

/-- Block 1 is free whenever a block is asked for. -/
def oneBlock : KVCacheOps := ⟨fun _ => ([], 0), fun _ => some [1], fun _ => 0⟩

/-- Every attempt to open a file returns a new one, and every read succeeds. -/
def newFiles : GeminiFSOps := ⟨fun n => some n, fun _ => true⟩

/-- Every request gets one token in a step, and goes on or stops. -/
def oneTokenEach (stop : Bool) : ModelRunnerOutput := ⟨fun _ => [9], fun _ _ => stop⟩

/-- The system after an event. -/
def after (kv : KVCacheOps) (fs : GeminiFSOps) (sys : System) (event : Event) : System :=
  (sys.apply kv fs event).toOption.getD sys

theorem apply_after {event : Event} (h : (sys.apply kv fs event).toOption.isSome = true) :
    sys.apply kv fs event = .ok (after kv fs sys event) := by
  rw [after]
  cases hev : sys.apply kv fs event with
  | error e =>
      rw [hev] at h
      cases h
  | ok sys' => rfl

/-- Nothing is preempted in the next pass. -/
theorem keepsTasks_of_preempted_eq_nil (hv2 : sys.scheduler.config.useV2ModelRunner = true)
    (h : ((sys.scheduler.schedule oneBlock sys.worker.lookup).toOption.map (·.1.preempted)) = some []) :
    sys.KeepsTasks oneBlock := by
  intro p metadata s hsched
  rw [hsched] at h
  simp only [Except.toOption, Option.map_some, Option.some.injEq] at h
  refine ⟨?_, fun _ _ _ => Or.inl hv2⟩
  rw [h]
  intro id hid
  cases hid

/-- The theorem at a task that waits for a step and is popped while its request is running. -/
theorem noStaleTask_of_keepingRun_waiting : ∃ sys p metadata s w metadata' t,
    KeepingRun oneBlock newFiles (smallSetup true) sys ∧
    sys.scheduler.schedule oneBlock sys.worker.lookup = .ok (p, metadata, s) ∧
    sys.worker.startLoadKv newFiles (1, some 0) metadata = .ok (w, metadata') ∧
    metadata'.ioTasks = some [t] ∧ NoStaleTask sys.history metadata' s := by
  -- the request is added, and in the first step no stream is granted
  let sys₁ := after oneBlock newFiles (init (smallSetup true)) (.add "a" [1, 2] [] 0 0)
  let sys₂ := after oneBlock newFiles sys₁ (.step (0, none) [] (oneTokenEach false))
  have hkeeps₁ : sys₁.KeepsTasks oneBlock := keepsTasks_of_preempted_eq_nil rfl (by decide +kernel)
  have hkeeps₂ : sys₂.KeepsTasks oneBlock :=
    keepsTasks_of_preempted_eq_nil (by decide +kernel) (by decide +kernel)
  have hfin : ∀ id ∈ sys₂.scheduler.finishedReqIds, sys₂.Unqueued id := by
    have hnil : sys₂.scheduler.finishedReqIds = [] := by decide +kernel
    rw [hnil]
    intro id hid
    cases hid
  have hrun : KeepingRun oneBlock newFiles (smallSetup true) sys₂ := by
    refine (ReflTransGen.single ⟨_, apply_after (by decide +kernel), ?_, ?_⟩).tail
      ⟨_, apply_after (by decide +kernel), fun _ _ _ _ => hkeeps₁, hfin⟩
    · intro _ _ _ hevent
      cases hevent
    · intro id hid
      cases hid
  have heval : (sys₂.scheduler.schedule oneBlock sys₂.worker.lookup >>= fun r =>
      (sys₂.worker.startLoadKv newFiles (1, some 0) r.2.1).map fun r =>
        r.2.ioTasks.map (·.map (·.blockId))) = .ok (some [1]) := by decide +kernel
  obtain ⟨⟨p, metadata, s⟩, hsched, heval'⟩ := bind_eq_ok.1 heval
  obtain ⟨⟨w, metadata'⟩, hstart, htasks⟩ := map_eq_ok.1 heval'
  obtain ⟨ts, hts, hblocks⟩ := Option.map_eq_some_iff.1 htasks
  obtain ⟨t, rfl⟩ := List.length_eq_one_iff.1 (by simpa using congrArg List.length hblocks)
  exact ⟨sys₂, p, metadata, s, w, metadata', t, hrun, hsched, hstart, hts,
    noStaleTask_of_keepingRun hrun hkeeps₂ hsched hstart⟩

/-- **A stale task**: the first request is finished while its task waits, its block goes to the second
request, and the file of the first one is to be written from there. -/
theorem stale_task : ∃ sys p metadata s w metadata',
    Run oneBlock newFiles (smallSetup true) sys ∧
    sys.scheduler.schedule oneBlock sys.worker.lookup = .ok (p, metadata, s) ∧
    sys.worker.startLoadKv newFiles (1, some 0) metadata = .ok (w, metadata') ∧
    ¬ NoStaleTask sys.history metadata' s := by
  let sys₁ := after oneBlock newFiles (init (smallSetup true)) (.add "a" [1, 2] [] 0 0)
  let sys₂ := after oneBlock newFiles sys₁ (.step (0, none) [] (oneTokenEach true))
  let sys₃ := after oneBlock newFiles sys₂ (.add "b" [3, 4] [] 0 0)
  have hrun : Run oneBlock newFiles (smallSetup true) sys₃ :=
    ((ReflTransGen.single ⟨_, apply_after (by decide +kernel)⟩).tail
      ⟨_, apply_after (by decide +kernel)⟩).tail ⟨_, apply_after (by decide +kernel)⟩
  have hqueued : sys₃.history.queued.map (·.1) = ["a"] := by decide +kernel
  have heval : (sys₃.scheduler.schedule oneBlock sys₃.worker.lookup >>= fun r =>
      (sys₃.worker.startLoadKv newFiles (1, some 0) r.2.1).map fun r' =>
        (r'.2.ioTasks, r.2.2.reqToBlocks "a")) = .ok (some (sys₃.history.queued.map (·.2)), []) := by
    decide +kernel
  obtain ⟨⟨p, metadata, s⟩, hsched, heval'⟩ := bind_eq_ok.1 heval
  obtain ⟨⟨w, metadata'⟩, hstart, heq⟩ := map_eq_ok.1 heval'
  obtain ⟨htasks, hfreed⟩ := Prod.mk.inj heq
  refine ⟨sys₃, p, metadata, s, w, metadata', hrun, hsched, hstart, fun hno => ?_⟩
  obtain ⟨⟨id, t⟩, hx, hid⟩ := List.mem_map.1 (hqueued ▸ List.mem_singleton.2 rfl :
    "a" ∈ sys₃.history.queued.map (·.1))
  obtain ⟨-, howned⟩ := hno _ htasks t (List.mem_map.2 ⟨_, hx, rfl⟩)
  have hb := howned id (List.mem_append_left _ hx)
  change id = "a" at hid
  rw [hid, hfreed] at hb
  cases hb

end System

end InfiniKV
