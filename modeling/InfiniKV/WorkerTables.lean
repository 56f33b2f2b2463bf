/-
**The block tables of the worker.**

The scheduler sends the model runner the whole block table of a request that is new or resumed, and of a running
request only the blocks that are new.  The runner keeps what it has been told of a request until it hears that the
request is finished.  So it has a table of a request that was preempted, whose blocks have been given away; the
scheduler marks the request as resumed when it comes back, and the table is then replaced.

Main definitions:

* `InfiniKV.ModelRunner` — the tables of the runner, and the requests of its persistent batch;
* `InfiniKV.ModelRunner.updateStates` — what it makes of the output of a step;
* `InfiniKV.Scheduler.WorkerStep` — a step of the scheduler, and of the runner with it.

Main results:

* `InfiniKV.ModelRunner.cachedLoop_eq` — what the loop over the cached requests does to each of them;
* `InfiniKV.Scheduler.worker_tables_agree` — **the runner has the tables of all running requests**, in every run.
-/

import InfiniKV.TrackerAgreement

set_option relaxedAutoImplicit false
set_option autoImplicit false

namespace InfiniKV

open Relation

/-! ### The model runner -/

/-- `GPUModelRunner`, as far as its block tables go: the `block_ids` of each cached state, with a list for each
group of KV caches, and the requests of the persistent batch. -/
structure ModelRunner where
  requests : Dict (List (List ℕ))
  inputBatch : List String

namespace ModelRunner

/-- The runner within `_update_states`, and `reqs_to_add`. -/
structure Update where
  runner : ModelRunner
  reqsToAdd : List String

/-- A new request: its state is made, or, in the streaming case, updated. -/
def addNewReq (u : Update) (data : NewRequestData) : Update where
  runner :=
    { requests := Function.update u.runner.requests data.reqId (some data.blockIds)
      inputBatch :=
        if (u.runner.requests data.reqId).isSome then u.runner.inputBatch.filter (· ≠ data.reqId)
        else u.runner.inputBatch }
  reqsToAdd := u.reqsToAdd ++ [data.reqId]

/-- The new blocks of each group are put behind those that are there. -/
def extendBlockIds : List (List ℕ) → List (List ℕ) → List (List ℕ)
  | blockIds :: rest, newIds :: newRest => (blockIds ++ newIds) :: extendBlockIds rest newRest
  | blockIds, _ => blockIds

/-- The block ids of a cached request after a step. -/
def newBlockIdsOf (resumedReqIds inputBatch : List String) (req : CachedRequest) (blockIds : List (List ℕ)) :
    Except PyError (List (List ℕ)) :=
  if req.reqId ∉ resumedReqIds then
    match req.newBlockIds with
    | some newBlockIds => .ok (extendBlockIds blockIds newBlockIds)
    | none => .ok blockIds
  else if req.reqId ∈ inputBatch then .error (.assertionError "")
  else match req.newBlockIds with
    | some newBlockIds => .ok newBlockIds
    | none => .error (.assertionError "")

/-- The body of the loop of `_update_states` over the cached requests. -/
def updateCachedReq (resumedReqIds : List String) (u : Update) (req : CachedRequest) : Except PyError Update :=
  match u.runner.requests req.reqId with
  | none => .error .keyError
  | some blockIds => do
      let blockIds ← newBlockIdsOf resumedReqIds u.runner.inputBatch req blockIds
      .ok ⟨{ u.runner with requests := Function.update u.runner.requests req.reqId (some blockIds) },
        if req.reqId ∈ u.runner.inputBatch then u.reqsToAdd else u.reqsToAdd ++ [req.reqId]⟩

/-- The runner without the finished requests, and without those in its batch that are not scheduled or are resumed. -/
def dropRequests (runner : ModelRunner) (output : SchedulerOutput) (resumedReqIds : List String) : ModelRunner where
  requests := fun requestId => if requestId ∈ output.finishedReqIds then none else runner.requests requestId
  inputBatch := runner.inputBatch.filter fun requestId =>
    requestId ∉ output.finishedReqIds ∧ requestId ∈ output.numScheduledTokens.map Prod.fst ∧
      requestId ∉ resumedReqIds

/-- `_update_states`. -/
def updateStates (runner : ModelRunner) (output : SchedulerOutput) (resumedReqIds : List String) :
    Except PyError ModelRunner := do
  let u := output.scheduledNewReqs.foldl addNewReq ⟨runner.dropRequests output resumedReqIds, []⟩
  let u ← output.scheduledCachedReqs.foldlM (updateCachedReq resumedReqIds) u
  .ok { u.runner with inputBatch := u.runner.inputBatch ++ u.reqsToAdd }

/-! ### The loops -/

/-- **What the loop over the new requests does** to each of them, and to all others. -/
theorem newLoop_eq (news : List NewRequestData) (hnodup : (news.map (·.reqId)).Nodup) (u : Update) :
    (∀ data ∈ news, (news.foldl addNewReq u).runner.requests data.reqId = some data.blockIds) ∧
      (∀ id ∉ news.map (·.reqId), (news.foldl addNewReq u).runner.requests id = u.runner.requests id ∧
        (id ∈ (news.foldl addNewReq u).runner.inputBatch ↔ id ∈ u.runner.inputBatch)) ∧
      (∀ id, id ∈ (news.foldl addNewReq u).runner.inputBatch → id ∈ u.runner.inputBatch) ∧
      (news.foldl addNewReq u).reqsToAdd = u.reqsToAdd ++ news.map (·.reqId) := by
  induction news generalizing u with
  | nil => exact ⟨nofun, fun _ _ => ⟨rfl, Iff.rfl⟩, fun _ h => h, (List.append_nil _).symm⟩
  | cons data news ih =>
      obtain ⟨hnot, hnodup⟩ := List.nodup_cons.1 hnodup
      obtain ⟨hnews, hothers, hbatch, hadd⟩ := ih hnodup (addNewReq u data)
      have hsub : ∀ id, id ∈ (addNewReq u data).runner.inputBatch → id ∈ u.runner.inputBatch := by
        intro id hid
        simp only [addNewReq] at hid
        split_ifs at hid
        · exact List.mem_of_mem_filter hid
        · exact hid
      rw [List.foldl_cons]
      refine ⟨?_, ?_, fun id hid => hsub id (hbatch id hid), ?_⟩
      · intro data' hdata'
        rcases List.mem_cons.1 hdata' with rfl | hmem
        · rw [(hothers _ hnot).1]
          exact Function.update_self ..
        · exact hnews data' hmem
      · intro id hid
        rw [List.map_cons, List.mem_cons, not_or] at hid
        rw [(hothers id hid.2).1, (hothers id hid.2).2]
        refine ⟨Function.update_of_ne hid.1 _ _, hsub id, fun hmem => ?_⟩
        simp only [addNewReq]
        split_ifs
        · exact List.mem_filter.2 ⟨hmem, by simpa using hid.1⟩
        · exact hmem
      · rw [hadd, addNewReq, List.append_assoc]
        rfl

/-- **What the loop over the cached requests does** to each of them, and to all others: it does not fail if each of
them is known, and each of the resumed ones has blocks and is not in the batch. -/
theorem cachedLoop_eq (resumedReqIds : List String) (reqs : List CachedRequest)
    (hnodup : (reqs.map (·.reqId)).Nodup) (u : Update) (tables : CachedRequest → List (List ℕ))
    (hreqs : ∀ req ∈ reqs, ∃ blockIds, u.runner.requests req.reqId = some blockIds ∧
      newBlockIdsOf resumedReqIds u.runner.inputBatch req blockIds = .ok (tables req)) :
    ∃ u', reqs.foldlM (updateCachedReq resumedReqIds) u = .ok u' ∧
      (∀ req ∈ reqs, u'.runner.requests req.reqId = some (tables req)) ∧
      (∀ id ∉ reqs.map (·.reqId), u'.runner.requests id = u.runner.requests id) ∧
      u'.runner.inputBatch = u.runner.inputBatch ∧
      ∀ id, id ∈ u'.reqsToAdd ↔ id ∈ u.reqsToAdd ∨ id ∈ reqs.map (·.reqId) ∧ id ∉ u.runner.inputBatch := by
  induction reqs generalizing u with
  | nil => exact ⟨u, rfl, nofun, fun _ _ => rfl, rfl, fun id => by simp⟩
  | cons req reqs ih =>
      obtain ⟨hnot, hnodup⟩ := List.nodup_cons.1 hnodup
      obtain ⟨⟨blockIds, hget, hnew⟩, hrest⟩ := List.forall_mem_cons.1 hreqs
      obtain ⟨u₁, hu₁⟩ : ∃ u₁ : Update, u₁ =
          ⟨{ u.runner with requests := Function.update u.runner.requests req.reqId (some (tables req)) },
            if req.reqId ∈ u.runner.inputBatch then u.reqsToAdd else u.reqsToAdd ++ [req.reqId]⟩ := ⟨_, rfl⟩
      have hstep : updateCachedReq resumedReqIds u req = .ok u₁ := by
        rw [updateCachedReq, hget]
        dsimp only
        rw [hnew, hu₁]
        rfl
      have hother : ∀ id, id ≠ req.reqId → u₁.runner.requests id = u.runner.requests id := by
        intro id hid
        rw [hu₁]
        exact Function.update_of_ne hid _ _
      have hbatch : u₁.runner.inputBatch = u.runner.inputBatch := by rw [hu₁]
      obtain ⟨u', hloop, htables, hothers, hbatch', hadd⟩ := ih hnodup u₁ fun req' hreq' => by
        obtain ⟨blockIds', hget', hnew'⟩ := hrest req' hreq'
        have hne : req'.reqId ≠ req.reqId := fun heq => hnot (List.mem_map.2 ⟨req', hreq', heq⟩)
        exact ⟨blockIds', by rw [hother _ hne, hget'], by rw [hbatch]; exact hnew'⟩
      refine ⟨u', by rw [List.foldlM_cons, hstep]; exact hloop, ?_, ?_, hbatch'.trans hbatch, ?_⟩
      · intro req' hreq'
        rcases List.mem_cons.1 hreq' with rfl | hmem
        · rw [hothers _ hnot, hu₁]
          exact Function.update_self ..
        · exact htables req' hmem
      · intro id hid
        rw [List.map_cons, List.mem_cons, not_or] at hid
        rw [hothers id hid.2, hother id hid.1]
      · intro id
        rw [hadd, hbatch, hu₁, List.map_cons, List.mem_cons]
        dsimp only
        split_ifs with hin
        · by_cases hid : id = req.reqId
          · simp [hid, hin]
          · simp [hid]
        · by_cases hid : id = req.reqId
          · simp [hid, hin]
          · simp [hid]

/-- The loop over the cached requests fails if a resumed one has no blocks. -/
theorem newBlockIds_of_cachedLoop {resumedReqIds : List String} {reqs : List CachedRequest} {u u' : Update}
    (h : reqs.foldlM (updateCachedReq resumedReqIds) u = .ok u') {req : CachedRequest} (hreq : req ∈ reqs)
    (hresumed : req.reqId ∈ resumedReqIds) : req.newBlockIds ≠ none := by
  induction reqs generalizing u with
  | nil => cases hreq
  | cons req' reqs ih =>
      rw [List.foldlM_cons] at h
      obtain ⟨u₁, hstep, hrest⟩ := bind_eq_ok.1 h
      rcases List.mem_cons.1 hreq with rfl | hmem
      · intro hnone
        rw [updateCachedReq] at hstep
        cases hget : u.runner.requests req.reqId with
        | none =>
            rw [hget] at hstep
            cases hstep
        | some blockIds =>
            rw [hget] at hstep
            obtain ⟨blockIds', hnew, -⟩ := bind_eq_ok.1 hstep
            rw [newBlockIdsOf, if_neg (not_not.2 hresumed), hnone] at hnew
            split_ifs at hnew
      · exact ih hrest hmem

end ModelRunner

/-! ### The scheduler and its worker -/

/-- The resumed requests of an output, as `_make_cached_request_data` finds them: none of them may have been
scheduled in the step before. -/
def Pass.resumedReqIds (p : Pass) (prevStepScheduledReqIds : List String) : Except PyError (List String) :=
  let resumedReqs := if p.scheduler.config.useV2ModelRunner then [] else p.ofKind .resumed
  if ∃ x ∈ resumedReqs, x.reqId ∈ prevStepScheduledReqIds then .error (.assertionError "")
  else .ok (resumedReqs.map (·.reqId))

namespace Scheduler

/-- The scheduler, the requests it scheduled in the last step, and the model runner. -/
structure WithWorker where
  scheduler : Scheduler
  prevStepScheduledReqIds : List String
  runner : ModelRunner

/-- **A step of the scheduler, and of the runner with it**: the runner takes in the output of each pass. -/
inductive WorkerStep (ops : KVCacheOps) : WithWorker → WithWorker → Prop
  | add {w : WithWorker} {s' : Scheduler} (requestId : String) (promptTokenIds : List ℤ)
      (mmFeatures : List MultiModalFeatureSpec) (priority arrivalTime : ℤ)
      (h : w.scheduler.addRequest requestId promptTokenIds mmFeatures priority arrivalTime = .ok s') :
      WorkerStep ops w { w with scheduler := s' }
  | finish (w : WithWorker) (requestId : String) :
      WorkerStep ops w { w with scheduler := w.scheduler.finishRequest requestId }
  | draft (w : WithWorker) (requestId : String) (specTokenIds : List ℤ) :
      WorkerStep ops w { w with scheduler := w.scheduler.updateDraftTokenIds requestId specTokenIds }
  | pause (w : WithWorker) (pauseState : PauseState) :
      WorkerStep ops w { w with scheduler := { w.scheduler with pauseState := pauseState } }
  | step {w : WithWorker} {s' : Scheduler} {p : Pass} {metadata : InfiniKVConnectorMetadata}
      {resumedReqIds : List String} {runner : ModelRunner} (lookup : List ℤ → Except PyError ℕ)
      (aborted : List String) (modelOutput : ModelRunnerOutput)
      (h : w.scheduler.schedule ops lookup = .ok (p, metadata, s'))
      (hresumed : p.resumedReqIds w.prevStepScheduledReqIds = .ok resumedReqIds)
      (hrunner : w.runner.updateStates p.output resumedReqIds = .ok runner) :
      WorkerStep ops w ⟨(aborted.foldl finishRequest s').updateFromOutput modelOutput p.output,
        p.scheduled.map (·.reqId), runner⟩

/-- The states that a scheduler and its worker, of the first version, can get into. -/
def WorkerReachable (ops : KVCacheOps) (w : WithWorker) : Prop :=
  ∃ config blockSize kvRole discardPartialChunks skipLastNTokens, config.useV2ModelRunner = false ∧
    ReflTransGen (WorkerStep ops)
      ⟨init config (.init blockSize kvRole discardPartialChunks skipLastNTokens), [], ⟨fun _ => none, []⟩⟩ w

/-- **What holds of the tables of the runner between steps**: it has those of the running requests, and some table
of each request that was preempted. -/
structure WorkerInv (w : WithWorker) : Prop where
  running : ∀ id ∈ w.scheduler.running, w.runner.requests id = some [w.scheduler.reqToBlocks id]
  preempted : ∀ id r, w.scheduler.requests id = some r → r.status = .preempted →
    (w.runner.requests id).isSome = true ∧ id ∉ w.scheduler.finishedReqIds ∧ id ∉ w.prevStepScheduledReqIds

variable {ops : KVCacheOps} {lookup : List ℤ → Except PyError ℕ} {s s' : Scheduler} {p : Pass}
  {metadata : InfiniKVConnectorMetadata} {x : ScheduledRequest} {w w' : WithWorker}

/-- Changes besides scheduling tell the runner nothing that it would have to know. -/
theorem WorkerInv.quiet {drafts : String → List ℤ} (hinv : WorkerInv w) (h : Quiet drafts w.scheduler s') :
    WorkerInv { w with scheduler := s' } := by
  constructor
  · intro id hrun
    cases h.change id with
    | same hkept =>
        dsimp only
        rw [hkept.reqToBlocks]
        exact hinv.running id (hkept.running.1 hrun)
    | added _ _ _ _ _ _ _ hrun' => exact absurd hrun hrun'
    | finished _ _ _ _ hrun' => exact absurd hrun hrun'
    | grown _ _ _ _ _ _ _ _ _ _ _ hblocks hrun' =>
        dsimp only
        rw [hblocks]
        exact hinv.running id (hrun'.1 hrun)
  · intro id r hr hstatus
    cases h.change id with
    | same hkept =>
        obtain ⟨hsome, hfin, hprev⟩ := hinv.preempted id r (hkept.requests ▸ hr) hstatus
        exact ⟨hsome, fun hmem => hfin (hkept.finishedReqIds.1 hmem), hprev⟩
    | added _ _ _ _ _ hreq =>
        cases hreq.symm.trans hr
        cases hstatus
    | finished _ _ hreq =>
        cases hreq.symm.trans hr
    | grown r₀ r₁ _ hr₀ hreq _ _ hstatus₁ _ _ _ _ _ _ hfin =>
        cases hreq.symm.trans hr
        obtain ⟨hsome, hunfinished, hprev⟩ := hinv.preempted id r₀ hr₀ (hstatus₁.symm.trans hstatus)
        exact ⟨hsome, fun hmem => hunfinished (hfin.1 hmem), hprev⟩

/-! ### What the runner makes of a pass -/

/-- A request that waits is new, or was preempted and is resumed. -/
theorem kindOfStatus_cases {status : RequestStatus} {kind : ScheduledKind}
    (h : Pass.kindOfStatus status = .ok kind) :
    status = .waiting ∧ kind = .new ∨ status = .preempted ∧ kind = .resumed := by
  cases status with
  | waiting => exact Or.inl ⟨rfl, (Except.ok.inj h).symm⟩
  | preempted => exact Or.inr ⟨rfl, (Except.ok.inj h).symm⟩
  | running => cases h

/-- **The block table of a scheduled request**: the new blocks behind those it had, if it was running, and those of
the entry if it has been admitted. -/
theorem blocks_of_entry (hp : Pass.PassInv s p) (hx : x ∈ p.scheduled) :
    (x.kind = .running ∧ x.reqId ∈ s.running ∧
        p.scheduler.reqToBlocks x.reqId = s.reqToBlocks x.reqId ++ x.newBlocks) ∨
      p.scheduler.reqToBlocks x.reqId = x.newBlocks ∧
        (x.kind = .new ∨ x.kind = .resumed ∧ ∃ r, s.requests x.reqId = some r ∧ r.status = .preempted) := by
  have hentries := hp.entriesOf_eq hx
  cases hp.fate x.reqId with
  | untouched _ _ _ _ hnil =>
      rw [hnil] at hentries
      cases hentries
  | scheduled _ y _ hrun _ _ _ hblocks hy hkind =>
      rw [hy, List.cons.injEq] at hentries
      obtain ⟨rfl, -⟩ := hentries
      exact Or.inl ⟨hkind, hrun, hblocks⟩
  | preempted _ _ _ _ _ _ _ hnil =>
      rw [hnil] at hentries
      cases hentries
  | admitted r y hr _ _ _ _ hblocks hy hkind =>
      rw [hy, List.cons.injEq] at hentries
      obtain ⟨rfl, -⟩ := hentries
      rcases kindOfStatus_cases hkind with ⟨-, hnew⟩ | ⟨hstatus, hresumed⟩
      · exact Or.inr ⟨hblocks, Or.inl hnew⟩
      · exact Or.inr ⟨hblocks, Or.inr ⟨hresumed, r, hr, hstatus⟩⟩

/-- What the runner makes of the entry of a request that was running. -/
theorem newBlockIdsOf_running {resumedReqIds : List String} (inputBatch : List String) (table : List ℕ)
    (hnot : x.reqId ∉ resumedReqIds) :
    ModelRunner.newBlockIdsOf resumedReqIds inputBatch (Pass.cachedRequest x) [table] =
      .ok [table ++ x.newBlocks] := by
  rw [ModelRunner.newBlockIdsOf, Pass.cachedRequest]
  dsimp only
  rw [if_pos hnot]
  by_cases hnil : x.newBlocks = []
  · simp [hnil]
  · simp [hnil, ModelRunner.extendBlockIds]

/-- What the runner makes of the entry of a request that is resumed. -/
theorem newBlockIdsOf_resumed {resumedReqIds inputBatch : List String} (blockIds : List (List ℕ))
    (hmem : x.reqId ∈ resumedReqIds) (hbatch : x.reqId ∉ inputBatch) (hblocks : x.newBlocks ≠ []) :
    ModelRunner.newBlockIdsOf resumedReqIds inputBatch (Pass.cachedRequest x) blockIds = .ok [x.newBlocks] := by
  rw [ModelRunner.newBlockIdsOf, Pass.cachedRequest]
  dsimp only
  rw [if_neg (not_not.2 hmem), if_neg hbatch, if_neg hblocks]

/-- None of the resumed requests was scheduled in the step before. -/
theorem resumedReqIds_eq (hinv : WorkerInv w) (hp : Pass.PassInv w.scheduler p)
    (hv1 : p.scheduler.config.useV2ModelRunner = false) :
    p.resumedReqIds w.prevStepScheduledReqIds = .ok ((p.ofKind .resumed).map (·.reqId)) := by
  rw [Pass.resumedReqIds, hv1, if_neg Bool.false_ne_true]
  refine if_neg ?_
  rintro ⟨x, hx, hprev⟩
  obtain ⟨hx, hkind⟩ := Pass.mem_ofKind.1 hx
  rcases blocks_of_entry hp hx with ⟨hrunning, -⟩ | ⟨-, hnew | ⟨-, r, hr, hstatus⟩⟩
  · rw [hkind] at hrunning
    cases hrunning
  · rw [hkind] at hnew
    cases hnew
  · exact (hinv.preempted _ r hr hstatus).2.2 hprev

/-- What holds of the runner after the loop over the new requests of a pass. -/
structure AfterNew (w : WithWorker) (p : Pass) (u : ModelRunner.Update) : Prop where
  news : ∀ data ∈ p.output.scheduledNewReqs, u.runner.requests data.reqId = some data.blockIds
  kept : ∀ id ∉ p.output.scheduledNewReqs.map (·.reqId), id ∉ w.scheduler.finishedReqIds →
    u.runner.requests id = w.runner.requests id
  batch : ∀ id ∈ u.runner.inputBatch, id ∈ p.scheduled.map (·.reqId) ∧ id ∉ (p.ofKind .resumed).map (·.reqId)
  reqsToAdd : u.reqsToAdd = p.newReqs.map (·.reqId)

theorem afterNew (hp : Pass.PassInv w.scheduler p) :
    AfterNew w p (p.output.scheduledNewReqs.foldl ModelRunner.addNewReq
      ⟨w.runner.dropRequests p.output ((p.ofKind .resumed).map (·.reqId)), []⟩) := by
  obtain ⟨hnews, hothers, hbatch, hadd⟩ := ModelRunner.newLoop_eq p.output.scheduledNewReqs
    (List.nodup_append.1 hp.output_nodup).1
    ⟨w.runner.dropRequests p.output ((p.ofKind .resumed).map (·.reqId)), []⟩
  have hfinished : p.output.finishedReqIds = w.scheduler.finishedReqIds := hp.finishedReqIds
  refine ⟨hnews, ?_, ?_, ?_⟩
  · intro id hnew hfin
    rw [(hothers id hnew).1, ModelRunner.dropRequests]
    exact if_neg (by rw [hfinished]; exact hfin)
  · intro id hid
    have hmem := hbatch id hid
    rw [ModelRunner.dropRequests, List.mem_filter, decide_eq_true_iff] at hmem
    obtain ⟨-, -, hscheduled, hnot⟩ := hmem
    refine ⟨?_, hnot⟩
    rw [Pass.output, List.map_map] at hscheduled
    exact hscheduled
  · rw [hadd, List.nil_append, hp.scheduledNewReqs_reqId]

/-- Each cached request of a pass is known to the runner, which finds its block table. -/
theorem AfterNew.cached {u : ModelRunner.Update} (h : AfterNew w p u) (hs : w.scheduler.WellFormed)
    (hinv : WorkerInv w) (hp : Pass.PassInv w.scheduler p)
    (hblocks : ∀ x ∈ p.scheduled, x.kind = .resumed → x.newBlocks ≠ []) (hx : x ∈ p.cachedReqs) :
    ∃ blockIds, u.runner.requests x.reqId = some blockIds ∧
      ModelRunner.newBlockIdsOf ((p.ofKind .resumed).map (·.reqId)) u.runner.inputBatch (Pass.cachedRequest x)
        blockIds = .ok [p.scheduler.reqToBlocks x.reqId] := by
  have hnotNew : x.reqId ∉ p.output.scheduledNewReqs.map (·.reqId) := fun hmem =>
    (List.nodup_append.1 hp.output_nodup).2.2 _ hmem _
      (List.mem_map.2 ⟨_, List.mem_map_of_mem hx, rfl⟩) rfl
  obtain ⟨hxp, hkind⟩ := Pass.mem_cachedReqs.1 hx
  rcases blocks_of_entry hp hxp with ⟨hrunning, hrun, htable⟩ | ⟨htable, hnew | ⟨hresumed, r, hr, hstatus⟩⟩
  · refine ⟨[w.scheduler.reqToBlocks x.reqId], ?_, ?_⟩
    · rw [h.kept _ hnotNew (hs.running_unfinished _ hrun)]
      exact hinv.running _ hrun
    · rw [htable]
      refine newBlockIdsOf_running _ _ fun hmem => ?_
      obtain ⟨y, hy, hyx⟩ := List.mem_map.1 hmem
      obtain ⟨hyp, hykind⟩ := Pass.mem_ofKind.1 hy
      rw [hp.entry_inj hyp hxp hyx, hrunning] at hykind
      cases hykind
  · rw [hnew] at hkind
    simp at hkind
  · obtain ⟨hsome, hunfinished, -⟩ := hinv.preempted _ r hr hstatus
    obtain ⟨blockIds, hblockIds⟩ := Option.isSome_iff_exists.1 hsome
    have hmem : x.reqId ∈ (p.ofKind .resumed).map (·.reqId) :=
      List.mem_map_of_mem (Pass.mem_ofKind.2 ⟨hxp, hresumed⟩)
    refine ⟨blockIds, ?_, ?_⟩
    · rw [h.kept _ hnotNew hunfinished]
      exact hblockIds
    · rw [htable]
      exact newBlockIdsOf_resumed _ hmem (fun hin => (h.batch _ hin).2 hmem) (hblocks x hxp hresumed)

/-- **What the runner makes of a pass**: it has the table of each scheduled request and leaves all others as they are,
and its batch is made of the scheduled requests. -/
theorem updateStates_eq (hs : w.scheduler.WellFormed) (hinv : WorkerInv w) (hp : Pass.PassInv w.scheduler p)
    (hv1 : p.scheduler.config.useV2ModelRunner = false)
    (hblocks : ∀ x ∈ p.scheduled, x.kind = .resumed → x.newBlocks ≠ []) :
    ∃ runner, w.runner.updateStates p.output ((p.ofKind .resumed).map (·.reqId)) = .ok runner ∧
      (∀ x ∈ p.scheduled, runner.requests x.reqId = some [p.scheduler.reqToBlocks x.reqId]) ∧
      (∀ id, p.entriesOf id = [] → id ∉ w.scheduler.finishedReqIds →
        runner.requests id = w.runner.requests id) ∧
      ∀ id, id ∈ runner.inputBatch ↔ id ∈ p.scheduled.map (·.reqId) := by
  have hnew := afterNew hp
  obtain ⟨u, hu⟩ : ∃ u, u = p.output.scheduledNewReqs.foldl ModelRunner.addNewReq
    ⟨w.runner.dropRequests p.output ((p.ofKind .resumed).map (·.reqId)), []⟩ := ⟨_, rfl⟩
  rw [← hu] at hnew
  obtain ⟨-, hcachedNodup, hdisjoint⟩ := List.nodup_append.1 hp.output_nodup
  obtain ⟨u', hloop, htables, hothers, hbatch, hadd⟩ := ModelRunner.cachedLoop_eq
    ((p.ofKind .resumed).map (·.reqId)) p.output.scheduledCachedReqs hcachedNodup u
    (fun req => [p.scheduler.reqToBlocks req.reqId]) (fun req hreq => by
      obtain ⟨x, hx, rfl⟩ := List.mem_map.1 hreq
      exact hnew.cached hs hinv hp hblocks hx)
  -- what is scheduled is new or cached
  have hkinds : ∀ x ∈ p.scheduled, x ∈ p.newReqs ∨ x ∈ p.cachedReqs := by
    intro x hx
    rw [Pass.mem_newReqs, Pass.mem_cachedReqs]
    cases hkind : x.kind with
    | new => exact Or.inl ⟨hx, Or.inl rfl⟩
    | resumed => exact Or.inr ⟨hx, Or.inr ⟨rfl, hv1⟩⟩
    | running => exact Or.inr ⟨hx, Or.inl rfl⟩
  refine ⟨{ u'.runner with inputBatch := u'.runner.inputBatch ++ u'.reqsToAdd }, ?_, ?_, ?_, ?_⟩
  · rw [ModelRunner.updateStates, ← hu]
    dsimp only
    rw [hloop]
    rfl
  · intro x hx
    rcases hkinds x hx with hxnew | hxcached
    · obtain ⟨r, hr⟩ := hp.request_of_mem hx
      have hdata : Pass.newRequestData x r ∈ p.output.scheduledNewReqs :=
        List.mem_filterMap.2 ⟨x, hxnew, by rw [hr]; rfl⟩
      have htable : p.scheduler.reqToBlocks x.reqId = x.newBlocks := by
        rcases blocks_of_entry hp hx with ⟨hrunning, -⟩ | ⟨htable, -⟩
        · have hkind := (Pass.mem_newReqs.1 hxnew).2
          rw [hrunning] at hkind
          simp at hkind
        · exact htable
      have hnotCached : x.reqId ∉ p.output.scheduledCachedReqs.map (·.reqId) := fun hmem =>
        hdisjoint _ (List.mem_map_of_mem hdata) _ hmem rfl
      dsimp only
      rw [hothers _ hnotCached, htable]
      exact hnew.news _ hdata
    · exact htables _ (List.mem_map_of_mem hxcached)
  · intro id hnil hfin
    obtain ⟨hnotNew, hnotCached⟩ := notMem_output_of_nil hp hnil
    dsimp only
    rw [hothers _ hnotCached, hnew.kept _ hnotNew hfin]
  · intro id
    dsimp only
    rw [List.mem_append, hbatch, hadd, hnew.reqsToAdd, Pass.scheduledCachedReqs_reqId]
    constructor
    · rintro (hin | hmem | ⟨hmem, -⟩)
      · exact (hnew.batch id hin).1
      · obtain ⟨x, hx, rfl⟩ := List.mem_map.1 hmem
        exact List.mem_map_of_mem (Pass.mem_newReqs.1 hx).1
      · obtain ⟨x, hx, rfl⟩ := List.mem_map.1 hmem
        exact List.mem_map_of_mem (Pass.mem_cachedReqs.1 hx).1
    · intro hmem
      obtain ⟨x, hx, rfl⟩ := List.mem_map.1 hmem
      by_cases hin : x.reqId ∈ u.runner.inputBatch
      · exact Or.inl hin
      · rcases hkinds x hx with hxnew | hxcached
        · exact Or.inr (Or.inl (List.mem_map_of_mem hxnew))
        · exact Or.inr (Or.inr ⟨List.mem_map_of_mem hxcached, hin⟩)

/-! ### Along a run -/

/-- The running requests after a pass are those that it scheduled, and those that it left alone. -/
theorem Scheduled.requests_of_running (hs : w.scheduler.WellFormed) (hinv : WorkerInv w)
    (hsched : Scheduled w.scheduler p metadata s') {runner : ModelRunner}
    (htables : ∀ x ∈ p.scheduled, runner.requests x.reqId = some [p.scheduler.reqToBlocks x.reqId])
    (hothers : ∀ id, p.entriesOf id = [] → id ∉ w.scheduler.finishedReqIds →
      runner.requests id = w.runner.requests id) :
    ∀ id ∈ s'.running, runner.requests id = some [s'.reqToBlocks id] := by
  intro id hrun
  rw [hsched.running] at hrun
  rw [hsched.reqToBlocks]
  have hentry : ∀ x, p.entriesOf id = [x] → runner.requests id = some [p.scheduler.reqToBlocks id] := by
    intro x hentries
    obtain ⟨hx, rfl⟩ := Pass.mem_scheduled_of_entriesOf hentries
    exact htables x hx
  cases hsched.pass.fate id with
  | untouched _ hblocks hrun₀ _ hentries =>
      rw [hothers id hentries (hs.running_unfinished id (hrun₀.1 hrun)), hblocks]
      exact hinv.running id (hrun₀.1 hrun)
  | scheduled _ x _ _ _ _ _ _ hentries => exact hentry x hentries
  | preempted _ _ _ hrun' => exact absurd hrun hrun'
  | admitted _ x _ _ _ _ _ _ hentries => exact hentry x hentries

/-- The tables of the runner after a pass. -/
theorem Scheduled.workerInv (hs : w.scheduler.WellFormed) (hinv : WorkerInv w)
    (hsched : Scheduled w.scheduler p metadata s') {runner : ModelRunner}
    (htables : ∀ x ∈ p.scheduled, runner.requests x.reqId = some [p.scheduler.reqToBlocks x.reqId])
    (hothers : ∀ id, p.entriesOf id = [] → id ∉ w.scheduler.finishedReqIds →
      runner.requests id = w.runner.requests id) :
    WorkerInv ⟨s', p.scheduled.map (·.reqId), runner⟩ := by
  refine ⟨hsched.requests_of_running hs hinv htables hothers, ?_⟩
  intro id r' hr' hstatus
  dsimp only at hr' ⊢
  rw [hsched.requests] at hr'
  obtain ⟨r₁, hr₁, rfl⟩ := Option.map_eq_some_iff.1 hr'
  rw [afterSchedule_status] at hstatus
  rw [hsched.finishedReqIds]
  -- a request that waits has no entry in the pass
  have hnotMem : p.entriesOf id = [] → id ∉ p.scheduled.map (·.reqId) := by
    intro hnil hmem
    obtain ⟨x, hx, rfl⟩ := List.mem_map.1 hmem
    have hentries := hsched.pass.entriesOf_eq hx
    rw [hnil] at hentries
    cases hentries
  cases hsched.pass.fate id with
  | untouched hreq _ _ _ hentries =>
      obtain ⟨hsome, hfin, -⟩ := hinv.preempted id r₁ (hreq ▸ hr₁) hstatus
      exact ⟨by rw [hothers id hentries hfin]; exact hsome, List.not_mem_nil, hnotMem hentries⟩
  | scheduled r _ hr hrun _ _ hreq =>
      cases hreq.symm.trans hr₁
      obtain ⟨r₀, hr₀, hstatus₀⟩ := hs.running_request id hrun
      cases hr.symm.trans hr₀
      exact absurd (hstatus₀.symm.trans hstatus) (by decide)
  | preempted _ _ hrun _ _ _ _ hentries =>
      refine ⟨?_, List.not_mem_nil, hnotMem hentries⟩
      rw [hothers id hentries (hs.running_unfinished id hrun), hinv.running id hrun]
      rfl
  | admitted _ _ _ _ _ _ hreq =>
      cases hreq.symm.trans hr₁
      cases hstatus

/-- The runner has taken in the output of a pass only if each resumed request has blocks. -/
theorem newBlocks_of_updateStates (hv1 : p.scheduler.config.useV2ModelRunner = false) {runner : ModelRunner}
    (h : w.runner.updateStates p.output ((p.ofKind .resumed).map (·.reqId)) = .ok runner) :
    ∀ x ∈ p.scheduled, x.kind = .resumed → x.newBlocks ≠ [] := by
  intro x hx hkind hnil
  obtain ⟨u, hloop, -⟩ := bind_eq_ok.1 h
  have hcached : Pass.cachedRequest x ∈ p.output.scheduledCachedReqs :=
    List.mem_map_of_mem (Pass.mem_cachedReqs.2 ⟨hx, Or.inr ⟨hkind, hv1⟩⟩)
  have hresumed : (Pass.cachedRequest x).reqId ∈ (p.ofKind .resumed).map (·.reqId) :=
    List.mem_map_of_mem (Pass.mem_ofKind.2 ⟨hx, hkind⟩)
  exact ModelRunner.newBlockIds_of_cachedLoop hloop hcached hresumed (if_pos hnil)

/-- A step with the worker is a step of the scheduler. -/
theorem WorkerStep.step_scheduler (h : WorkerStep ops w w') : Step ops w.scheduler w'.scheduler := by
  cases h with
  | add requestId promptTokenIds mmFeatures priority arrivalTime h =>
      exact .add requestId promptTokenIds mmFeatures priority arrivalTime h
  | finish requestId => exact .finish _ requestId
  | draft requestId specTokenIds => exact .draft _ requestId specTokenIds
  | pause pauseState => exact .pause _ pauseState
  | step lookup aborted modelOutput h => exact .step lookup aborted modelOutput h

/-- **A step keeps the tables of the runner right.** -/
theorem WorkerStep.workerInv (hs : w.scheduler.WellFormed) (hnamed : w.scheduler.connector.Named)
    (hv1 : w.scheduler.config.useV2ModelRunner = false) (hinv : WorkerInv w) (h : WorkerStep ops w w') :
    WorkerInv w' ∧ w'.scheduler.config = w.scheduler.config := by
  cases h with
  | add requestId promptTokenIds mmFeatures priority arrivalTime h =>
      have hquiet := quiet_addRequest hs h
      exact ⟨hinv.quiet hquiet, hquiet.config⟩
  | finish requestId =>
      have hquiet := (drops_finishRequest hs.running_nodup hs.waiting_nodup requestId).quiet fun _ => []
      exact ⟨hinv.quiet hquiet, hquiet.config⟩
  | draft requestId specTokenIds =>
      have hquiet := quiet_updateDraftTokenIds hs requestId specTokenIds
      exact ⟨hinv.quiet hquiet, hquiet.config⟩
  | pause pauseState =>
      have hquiet := quiet_pause hs pauseState
      exact ⟨hinv.quiet hquiet, hquiet.config⟩
  | @step s' p metadata resumedReqIds runner lookup aborted modelOutput h hresumed hrunner =>
      have hsched := schedule_spec hs hnamed h
      have hv1' : p.scheduler.config.useV2ModelRunner = false := by
        rw [hsched.pass.config]
        exact hv1
      obtain rfl := Except.ok.inj ((resumedReqIds_eq hinv hsched.pass hv1').symm.trans hresumed)
      obtain ⟨runner', hrunner', htables, hothers, -⟩ := updateStates_eq hs hinv hsched.pass hv1'
        (newBlocks_of_updateStates hv1' hrunner)
      obtain rfl := Except.ok.inj (hrunner'.symm.trans hrunner)
      have hinv' := hsched.workerInv hs hinv htables hothers
      obtain ⟨hdrops, hquiet⟩ := afterPass_cases hsched.pass (hsched.wellFormed hs) aborted modelOutput
      have hinv'' := (hinv'.quiet (hdrops.quiet fun _ => [])).quiet hquiet
      exact ⟨hinv'', hquiet.config.trans ((hdrops.quiet fun _ => []).config.trans hsched.config)⟩

/-- **The tables of the runner are right in every reachable state.** -/
theorem WorkerReachable.workerInv (h : WorkerReachable ops w) :
    WorkerInv w ∧ w.scheduler.WellFormed ∧ w.scheduler.connector.Named ∧
      w.scheduler.config.useV2ModelRunner = false := by
  obtain ⟨config, blockSize, kvRole, discard, skip, hv1, hrun⟩ := h
  induction hrun with
  | refl =>
      refine ⟨⟨?_, ?_⟩, wellFormed_init _ _, (fun id t ht => by cases ht), hv1⟩
      · intro id hrun
        cases hrun
      · intro id r hr
        cases hr
  | tail _ hstep ih =>
      obtain ⟨hinv, hs, hnamed, hv1⟩ := ih
      obtain ⟨hinv', hconfig⟩ := hstep.workerInv hs hnamed hv1 hinv
      obtain ⟨hs', hnamed'⟩ := hstep.step_scheduler.wellFormed hs hnamed
      exact ⟨hinv', hs', hnamed', hconfig ▸ hv1⟩

/-- **The runner has the block tables of all running requests**, in every run: it takes in the output of each pass in
which every resumed request has blocks, its batch is then made of the scheduled requests, and of these and of all
other running requests it has exactly the block table. -/
theorem worker_tables_agree (hreach : WorkerReachable ops w)
    (h : w.scheduler.schedule ops lookup = .ok (p, metadata, s')) :
    ∃ resumedReqIds, p.resumedReqIds w.prevStepScheduledReqIds = .ok resumedReqIds ∧
      ((∃ runner, w.runner.updateStates p.output resumedReqIds = .ok runner) ↔
        ∀ x ∈ p.scheduled, x.kind = .resumed → x.newBlocks ≠ []) ∧
      ∀ runner, w.runner.updateStates p.output resumedReqIds = .ok runner →
        (∀ id, id ∈ runner.inputBatch ↔ id ∈ p.scheduled.map (·.reqId)) ∧
        (∀ x ∈ p.scheduled, runner.requests x.reqId = some [s'.reqToBlocks x.reqId]) ∧
        ∀ id ∈ s'.running, runner.requests id = some [s'.reqToBlocks id] := by
  obtain ⟨hinv, hs, hnamed, hv1⟩ := hreach.workerInv
  have hsched := schedule_spec hs hnamed h
  have hv1' : p.scheduler.config.useV2ModelRunner = false := by
    rw [hsched.pass.config]
    exact hv1
  refine ⟨_, resumedReqIds_eq hinv hsched.pass hv1', ⟨?_, ?_⟩, ?_⟩
  · rintro ⟨runner, hrunner⟩
    exact newBlocks_of_updateStates hv1' hrunner
  · intro hblocks
    obtain ⟨runner, hrunner, -⟩ := updateStates_eq hs hinv hsched.pass hv1' hblocks
    exact ⟨runner, hrunner⟩
  · intro runner hrunner
    obtain ⟨runner', hrunner', htables, hothers, hbatch⟩ := updateStates_eq hs hinv hsched.pass hv1'
      (newBlocks_of_updateStates hv1' hrunner)
    obtain rfl := Except.ok.inj (hrunner'.symm.trans hrunner)
    refine ⟨hbatch, ?_, hsched.requests_of_running hs hinv htables hothers⟩
    rw [hsched.reqToBlocks]
    exact htables

/-! ### A run with a preemption -/

/-- A step without aborts, if the runner takes in the output. -/
def WithWorker.step (w : WithWorker) (ops : KVCacheOps) (lookup : List ℤ → Except PyError ℕ)
    (modelOutput : ModelRunnerOutput) : Except PyError WithWorker := do
  let (p, _, s') ← w.scheduler.schedule ops lookup
  let resumedReqIds ← p.resumedReqIds w.prevStepScheduledReqIds
  let runner ← w.runner.updateStates p.output resumedReqIds
  .ok ⟨s'.updateFromOutput modelOutput p.output, p.scheduled.map (·.reqId), runner⟩

/-- The state after such a step. -/
def WithWorker.afterStep (w : WithWorker) (ops : KVCacheOps) (lookup : List ℤ → Except PyError ℕ)
    (modelOutput : ModelRunnerOutput) : WithWorker :=
  (w.step ops lookup modelOutput).toOption.getD w

/-- The state after a request was added. -/
def WithWorker.afterAdd (w : WithWorker) (requestId : String) (promptTokenIds : List ℤ) : WithWorker :=
  { w with scheduler := w.scheduler.afterAdd requestId promptTokenIds }

theorem workerStep_afterStep {modelOutput : ModelRunnerOutput}
    (h : (w.step ops lookup modelOutput).toOption.isSome = true) :
    WorkerStep ops w (w.afterStep ops lookup modelOutput) := by
  rw [WithWorker.afterStep]
  cases hstep : w.step ops lookup modelOutput with
  | error e =>
      rw [hstep] at h
      cases h
  | ok w' =>
      obtain ⟨⟨p, metadata, s'⟩, hsched, hrest⟩ := bind_eq_ok.1 hstep
      obtain ⟨resumedReqIds, hresumed, hrest⟩ := bind_eq_ok.1 hrest
      obtain ⟨runner, hrunner, hrest⟩ := bind_eq_ok.1 hrest
      cases hrest
      exact .step lookup [] modelOutput hsched hresumed hrunner

theorem workerStep_afterAdd {requestId : String} {promptTokenIds : List ℤ}
    (h : (w.scheduler.requests requestId).isNone = true) :
    WorkerStep ops w (w.afterAdd requestId promptTokenIds) := by
  refine .add requestId promptTokenIds [] 0 0 ?_
  rw [Scheduler.afterAdd, addRequest, Option.isNone_iff_eq_none.1 h]
  rfl

/-- Two requests are started, the second one is preempted, and the first one is finished. -/
def workerAfterPreemption : WithWorker :=
  ((((⟨smallScheduler, [], ⟨fun _ => none, []⟩⟩ : WithWorker).afterAdd "a" [1, 2, 3, 4]).afterAdd "b"
    [5, 6, 7, 8]).afterStep fiveBlocks (fun _ => .ok 0) oneToken).afterStep fiveBlocks (fun _ => .ok 0) oneToken

theorem reachable_workerAfterPreemption : WorkerReachable fiveBlocks workerAfterPreemption := by
  refine ⟨_, _, _, _, _, rfl, ReflTransGen.refl.tail (workerStep_afterAdd ?_) |>.tail (workerStep_afterAdd ?_)
    |>.tail (workerStep_afterStep ?_) |>.tail (workerStep_afterStep ?_)⟩
  · decide +kernel
  · decide +kernel
  · decide +kernel
  · decide +kernel

/-- The runner still has the table that the second request had before it was preempted, and then gets the new one. -/
theorem worker_tables_agree_resumed : ∃ p metadata s' resumedReqIds runner,
    workerAfterPreemption.scheduler.schedule fiveBlocks (fun _ => .ok 4) = .ok (p, metadata, s') ∧
      workerAfterPreemption.runner.requests "b" = some [[3, 4]] ∧ s'.reqToBlocks "b" = [3, 4, 1] ∧
      workerAfterPreemption.runner.updateStates p.output resumedReqIds = .ok runner ∧
      runner.requests "b" = some [s'.reqToBlocks "b"] := by
  have heval : (workerAfterPreemption.scheduler.schedule fiveBlocks fun _ => .ok 4).map
      (fun r => (r.1.scheduled, r.2.2.reqToBlocks "b")) =
      .ok ([⟨"b", .resumed, 0, 4, 1, [3, 4, 1], []⟩], [3, 4, 1]) := by
    decide +kernel
  obtain ⟨⟨p, metadata, s'⟩, hsched, heq⟩ := map_eq_ok.1 heval
  obtain ⟨hscheduled, htable⟩ := Prod.mk.inj heq
  obtain ⟨resumedReqIds, -, hok, hagree⟩ := worker_tables_agree reachable_workerAfterPreemption hsched
  obtain ⟨runner, hrunner⟩ := hok.2 fun x hx _ => by
    rw [hscheduled, List.mem_singleton] at hx
    rw [hx]
    exact List.cons_ne_nil _ _
  refine ⟨p, metadata, s', resumedReqIds, runner, hsched, by decide +kernel, htable, hrunner, ?_⟩
  refine (hagree runner hrunner).2.1 ⟨"b", .resumed, 0, 4, 1, [3, 4, 1], []⟩ ?_
  rw [hscheduled]
  exact List.mem_singleton.2 rfl

end Scheduler
end InfiniKV
