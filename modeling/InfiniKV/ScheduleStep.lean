/-
**A step of the scheduler, request by request.**

The output of a pass lists each scheduled request once, as a new or as a cached one, and the
connector builds its metadata from that.  Together with the fate of the request in the pass this says
what a call of `schedule` does for it.  Between steps the queues stay well formed, whatever happens.

Main definitions:

* `InfiniKV.Scheduler.Reachable` — the states that a scheduler can get into.

Main results:

* `InfiniKV.Scheduler.schedule_spec` — **what a call of `schedule` does**: the fate of each request
  in the pass, and what the connector builds for it;
* `InfiniKV.Scheduler.Reachable.wellFormed` — the queues of a reachable state are well formed.
-/

import InfiniKV.SchedulePass

set_option relaxedAutoImplicit false
set_option autoImplicit false

namespace InfiniKV

open Relation

/-- Looking up a key among the pairs made of a list finds the first entry with that key. -/
theorem lookup_map_eq {α β : Type} (l : List α) (key : α → String) (f : α → β) (id : String) :
    (l.map fun x => (key x, f x)).lookup id = ((l.filter (key · = id)).head?).map f := by
  induction l with
  | nil => rfl
  | cons x l ih =>
      rw [List.map_cons, List.lookup_cons]
      by_cases hx : key x = id
      · simp [hx]
      · have hne : (id == key x) = false := by simpa using Ne.symm hx
        rw [hne, List.filter_cons_of_neg (by simpa using hx)]
        exact ih

namespace Pass

variable {s : Scheduler} {p : Pass} {id : String} {x y : ScheduledRequest}

/-! ### The output of a pass -/

/-- A request has at most one entry. -/
theorem PassInv.entriesOf_eq (hp : PassInv s p) (hx : x ∈ p.scheduled) : p.entriesOf x.reqId = [x] := by
  have hmem : x ∈ p.entriesOf x.reqId := List.mem_filter.2 ⟨hx, by simp⟩
  cases hp.fate x.reqId with
  | untouched _ _ _ _ hentries =>
      rw [hentries] at hmem
      cases hmem
  | scheduled _ y _ _ _ _ _ _ hentries =>
      rw [hentries] at hmem ⊢
      rw [List.mem_singleton.1 hmem]
  | preempted _ _ _ _ _ _ _ hentries =>
      rw [hentries] at hmem
      cases hmem
  | admitted _ y _ _ _ _ _ _ hentries =>
      rw [hentries] at hmem ⊢
      rw [List.mem_singleton.1 hmem]

theorem PassInv.entry_inj (hp : PassInv s p) (hx : x ∈ p.scheduled) (hy : y ∈ p.scheduled)
    (h : x.reqId = y.reqId) : x = y := by
  have heq := hp.entriesOf_eq hx
  rw [h, hp.entriesOf_eq hy, List.cons.injEq] at heq
  exact heq.1.symm

/-- **What an entry says about its request**: it was running and is scheduled again, or it was admitted
from the queue. -/
theorem PassInv.entry_cases (hp : PassInv s p) (hx : x ∈ p.scheduled) :
    (x.kind = .running ∧ x.numExternalComputedTokens = 0) ∨
      ∃ r, s.requests x.reqId = some r ∧ kindOfStatus r.status = .ok x.kind ∧
        p.scheduler.requests x.reqId = some { r with
          status := .running
          numComputedTokens := x.numLocalComputedTokens + x.numExternalComputedTokens } ∧
        (0 < x.numExternalComputedTokens → ∃ hit, p.scheduler.connector.loadSpecs x.reqId =
          some ⟨x.numLocalComputedTokens, hit, true, none, none⟩ ∧
            x.numLocalComputedTokens + x.numExternalComputedTokens ≤ hit) := by
  have hentries := hp.entriesOf_eq hx
  cases hp.fate x.reqId with
  | untouched _ _ _ _ hnil =>
      rw [hnil] at hentries
      cases hentries
  | scheduled _ y _ _ _ _ _ _ hy hkind _ _ hext =>
      rw [hy, List.cons.injEq] at hentries
      obtain ⟨rfl, -⟩ := hentries
      exact Or.inl ⟨hkind, hext⟩
  | preempted _ _ _ _ _ _ _ hnil =>
      rw [hnil] at hentries
      cases hentries
  | admitted r y hr _ _ _ hreq _ hy hkind _ _ _ hload =>
      rw [hy, List.cons.injEq] at hentries
      obtain ⟨rfl, -⟩ := hentries
      exact Or.inr ⟨r, hr, hkind, hreq, hload⟩

theorem mem_scheduled_of_entriesOf (h : p.entriesOf id = [x]) : x ∈ p.scheduled ∧ x.reqId = id := by
  have hmem : x ∈ p.entriesOf id := h ▸ List.mem_singleton.2 rfl
  obtain ⟨hx, hid⟩ := List.mem_filter.1 hmem
  exact ⟨hx, by simpa using hid⟩

/-- The ids of the entries are pairwise distinct. -/
theorem PassInv.scheduled_nodup (hp : PassInv s p) : (p.scheduled.map (·.reqId)).Nodup := by
  rw [List.nodup_iff_count_le_one]
  intro id
  have hcount : (p.scheduled.map (·.reqId)).count id = (p.entriesOf id).length := by
    rw [entriesOf, ← List.countP_eq_length_filter, List.count, List.countP_map]
    rfl
  rw [hcount]
  cases hp.fate id with
  | untouched _ _ _ _ hentries => simp [hentries]
  | scheduled _ y _ _ _ _ _ _ hentries => simp [hentries]
  | preempted _ _ _ _ _ _ _ hentries => simp [hentries]
  | admitted _ y _ _ _ _ _ _ hentries => simp [hentries]

/-- Every entry has a request. -/
theorem PassInv.request_of_mem (hp : PassInv s p) (hx : x ∈ p.scheduled) :
    ∃ r, p.scheduler.requests x.reqId = some r := by
  have hentries := hp.entriesOf_eq hx
  cases hp.fate x.reqId with
  | untouched _ _ _ _ hnil =>
      rw [hnil] at hentries
      cases hentries
  | scheduled _ _ _ _ _ _ hreq => exact ⟨_, hreq⟩
  | preempted _ _ _ _ _ hreq => exact ⟨_, hreq⟩
  | admitted _ _ _ _ _ _ hreq => exact ⟨_, hreq⟩

theorem mem_ofKind {kind : ScheduledKind} : x ∈ p.ofKind kind ↔ x ∈ p.scheduled ∧ x.kind = kind := by
  rw [ofKind, List.mem_filter, decide_eq_true_iff]

/-- The new requests of the output: those of kind `new`, and under the second model runner also the
resumed ones. -/
theorem mem_newReqs : x ∈ p.newReqs ↔ x ∈ p.scheduled ∧
    (x.kind = .new ∨ x.kind = .resumed ∧ p.scheduler.config.useV2ModelRunner = true) := by
  rw [newReqs]
  split
  · rename_i h
    rw [List.mem_append, mem_ofKind, mem_ofKind]
    simp only [h]
    tauto
  · rename_i h
    rw [mem_ofKind]
    simp only [h]
    tauto

theorem mem_cachedReqs : x ∈ p.cachedReqs ↔ x ∈ p.scheduled ∧
    (x.kind = .running ∨ x.kind = .resumed ∧ p.scheduler.config.useV2ModelRunner = false) := by
  rw [cachedReqs]
  split
  · rename_i h
    rw [mem_ofKind]
    simp only [h]
    tauto
  · rename_i h
    rw [Bool.not_eq_true] at h
    rw [List.mem_append, mem_ofKind, mem_ofKind]
    simp only [h]
    tauto

theorem PassInv.ofKind_nodup (hp : PassInv s p) (kind : ScheduledKind) :
    ((p.ofKind kind).map (·.reqId)).Nodup :=
  hp.scheduled_nodup.sublist ((List.filter_sublist).map _)

theorem PassInv.append_nodup (hp : PassInv s p) {l l' : List ScheduledRequest}
    (hl : (l.map (·.reqId)).Nodup) (hl' : (l'.map (·.reqId)).Nodup) (hsub : l ⊆ p.scheduled)
    (hsub' : l' ⊆ p.scheduled) (hdisj : ∀ x ∈ l, x ∉ l') : ((l ++ l').map (·.reqId)).Nodup := by
  rw [List.map_append, List.nodup_append]
  refine ⟨hl, hl', ?_⟩
  intro a ha b hb hab
  obtain ⟨x, hx, rfl⟩ := List.mem_map.1 ha
  obtain ⟨y, hy, rfl⟩ := List.mem_map.1 hb
  exact hdisj x hx (hp.entry_inj (hsub hx) (hsub' hy) hab ▸ hy)

/-- The output lists each request once, as a new or as a cached one. -/
theorem PassInv.newReqs_cachedReqs_nodup (hp : PassInv s p) :
    ((p.newReqs ++ p.cachedReqs).map (·.reqId)).Nodup := by
  have hnew : (p.newReqs.map (·.reqId)).Nodup := by
    rw [newReqs]
    split
    · refine hp.append_nodup (hp.ofKind_nodup _) (hp.ofKind_nodup _) (List.filter_subset_self _)
        (List.filter_subset_self _) fun x hx hx' => ?_
      exact absurd ((mem_ofKind.1 hx).2.symm.trans (mem_ofKind.1 hx').2) (by decide)
    · exact hp.ofKind_nodup _
  have hcached : (p.cachedReqs.map (·.reqId)).Nodup := by
    rw [cachedReqs]
    split
    · exact hp.ofKind_nodup _
    · refine hp.append_nodup (hp.ofKind_nodup _) (hp.ofKind_nodup _) (List.filter_subset_self _)
        (List.filter_subset_self _) fun x hx hx' => ?_
      exact absurd ((mem_ofKind.1 hx).2.symm.trans (mem_ofKind.1 hx').2) (by decide)
  refine hp.append_nodup hnew hcached (fun x hx => (mem_newReqs.1 hx).1)
    (fun x hx => (mem_cachedReqs.1 hx).1) fun x hx hx' => ?_
  rcases (mem_newReqs.1 hx).2 with h | ⟨h, hv⟩ <;> rcases (mem_cachedReqs.1 hx').2 with h' | ⟨h', hv'⟩
  · exact absurd (h.symm.trans h') (by decide)
  · exact absurd (h.symm.trans h') (by decide)
  · exact absurd (h.symm.trans h') (by decide)
  · rw [hv] at hv'
    cases hv'

/-- The ids of the new requests of the output. -/
theorem PassInv.scheduledNewReqs_reqId (hp : PassInv s p) :
    p.output.scheduledNewReqs.map (·.reqId) = p.newReqs.map (·.reqId) := by
  have hsub : ∀ x ∈ p.newReqs, x ∈ p.scheduled := fun x hx => (mem_newReqs.1 hx).1
  show (p.newReqs.filterMap fun x =>
    (p.scheduler.requests x.reqId).map (newRequestData x)).map (·.reqId) = _
  generalize p.newReqs = l at hsub ⊢
  induction l with
  | nil => rfl
  | cons x l ih =>
      obtain ⟨r, hr⟩ := hp.request_of_mem (hsub x (List.mem_cons_self ..))
      rw [List.filterMap_cons_some (by rw [hr]; rfl), List.map_cons, List.map_cons,
        ih fun y hy => hsub y (List.mem_cons_of_mem _ hy)]
      rfl

theorem scheduledCachedReqs_reqId : p.output.scheduledCachedReqs.map (·.reqId) =
    p.cachedReqs.map (·.reqId) := by
  show (p.cachedReqs.map cachedRequest).map (·.reqId) = _
  rw [List.map_map]
  rfl

theorem PassInv.output_nodup (hp : PassInv s p) : (p.output.scheduledNewReqs.map (·.reqId) ++
    p.output.scheduledCachedReqs.map (·.reqId)).Nodup := by
  rw [hp.scheduledNewReqs_reqId, scheduledCachedReqs_reqId, ← List.map_append]
  exact hp.newReqs_cachedReqs_nodup

theorem lookup_numScheduledTokens (p : Pass) (id : String) :
    p.output.numScheduledTokens.lookup id = (p.entriesOf id).head?.map (·.numNewTokens) :=
  lookup_map_eq ..

end Pass

namespace Scheduler

variable {ops : KVCacheOps} {lookup : List ℤ → Except PyError ℕ} {s s' : Scheduler} {p : Pass}
  {metadata : InfiniKVConnectorMetadata}

/-! ### A call of `schedule` -/

/-- A request after `_update_after_schedule`. -/
def afterSchedule (p : Pass) (id : String) (r : Request) : Request :=
  match (p.entriesOf id).head? with
  | none => r
  | some x => { r with
      numComputedTokens := r.numComputedTokens + x.numNewTokens
      isPrefillChunk := decide (r.numComputedTokens + x.numNewTokens < r.numTokens) }

/-- **What a call of `schedule` does**: the fate of each request in the pass, what the connector builds
for it, and the state that is left. -/
structure Scheduled (s : Scheduler) (p : Pass) (metadata : InfiniKVConnectorMetadata)
    (s' : Scheduler) : Prop where
  pass : Pass.PassInv s p
  built : ∀ id, SchedulerConnector.Built p.scheduler.connector p.scheduler.requests p.output
    metadata.requests s'.connector id
  named : s'.connector.Named
  connector : s'.connector = { p.scheduler.connector with
    loadSpecs := s'.connector.loadSpecs
    requestTrackers := s'.connector.requestTrackers
    requestsInStep := p.scheduler.connector.requestsInStep.filter (· ∉ s.finishedReqIds) }
  requests : ∀ id, s'.requests id = (p.scheduler.requests id).map (afterSchedule p id)
  frame : s' = { p.scheduler with
    connector := s'.connector
    requests := s'.requests
    finishedReqIds := [] }

/-- `_update_after_schedule` counts the tokens of the entries of a pass. -/
theorem updateAfterSchedule_requests (s : Scheduler) (p : Pass) (id : String) :
    (s.updateAfterSchedule p.output).requests id = (s.requests id).map (afterSchedule p id) := by
  have hlookup := Pass.lookup_numScheduledTokens p id
  cases hx : (p.entriesOf id).head? with
  | none =>
      rw [hx, Option.map_none] at hlookup
      have hid : afterSchedule p id = fun r => r := by
        funext r
        rw [afterSchedule, hx]
      rw [hid, Option.map_id']
      simp only [updateAfterSchedule, hlookup]
  | some x =>
      rw [hx, Option.map_some] at hlookup
      have hid : afterSchedule p id = fun r : Request => { r with
          numComputedTokens := r.numComputedTokens + x.numNewTokens
          isPrefillChunk := decide (r.numComputedTokens + x.numNewTokens < r.numTokens) } := by
        funext r
        rw [afterSchedule, hx]
      simp only [updateAfterSchedule, hlookup, hid]

/-- A call of `schedule` makes a pass. -/
theorem schedulePass_of_schedule (h : s.schedule ops lookup = .ok (p, metadata, s')) :
    s.schedulePass ops lookup = .ok p := by
  obtain ⟨p₁, hpass, h⟩ := bind_eq_ok.1 h
  split at h
  · obtain ⟨_, -, h⟩ := bind_eq_ok.1 h
    cases h
    exact hpass
  · cases h

theorem schedule_spec (hs : s.WellFormed) (hnamed : s.connector.Named)
    (h : s.schedule ops lookup = .ok (p, metadata, s')) : Scheduled s p metadata s' := by
  obtain ⟨p₁, hpass, h⟩ := bind_eq_ok.1 h
  split at h
  · obtain ⟨⟨metadata₁, c⟩, hbuild, h⟩ := bind_eq_ok.1 h
    cases h
    have hp := schedulePass_fate hs hpass
    have hnamed' : p.scheduler.connector.Named := by
      intro id t ht
      rw [hp.connector.requestTrackers] at ht
      exact hnamed id t ht
    obtain ⟨hnamed'', hframe⟩ := SchedulerConnector.buildConnectorMeta_frame hnamed' hbuild
    refine ⟨hp, SchedulerConnector.buildConnectorMeta_cases hnamed' hp.output_nodup hbuild, hnamed'',
      ?_, ?_, rfl⟩
    · rw [← hp.finishedReqIds]
      exact hframe
    · intro id
      exact updateAfterSchedule_requests _ p id
  · cases h

/-! ### The queues stay well formed -/

@[simp] theorem afterSchedule_status (p : Pass) (id : String) (r : Request) :
    (afterSchedule p id r).status = r.status := by
  unfold afterSchedule
  split
  · rfl
  · rfl

theorem afterSchedule_of_nil {id : String} (h : p.entriesOf id = []) (r : Request) :
    afterSchedule p id r = r := by
  rw [afterSchedule, h]
  rfl

theorem Scheduled.running (h : Scheduled s p metadata s') : s'.running = p.scheduler.running := by
  rw [h.frame]

theorem Scheduled.waiting (h : Scheduled s p metadata s') : s'.waiting = p.scheduler.waiting := by
  rw [h.frame]

theorem Scheduled.reqToBlocks (h : Scheduled s p metadata s') :
    s'.reqToBlocks = p.scheduler.reqToBlocks := by
  rw [h.frame]

theorem Scheduled.finishedReqIds (h : Scheduled s p metadata s') : s'.finishedReqIds = [] := by
  rw [h.frame]

theorem Scheduled.config (h : Scheduled s p metadata s') : s'.config = s.config := by
  rw [h.frame]
  exact h.pass.config

/-- A call of `schedule` keeps the queues well formed. -/
theorem Scheduled.wellFormed (hs : s.WellFormed) (h : Scheduled s p metadata s') : s'.WellFormed := by
  have hp := h.pass
  refine ⟨?_, ?_, ?_, ?_, ?_, ?_, ?_⟩
  · rw [h.running]
    exact hp.running_nodup
  · rw [h.waiting]
    exact hp.waiting_nodup
  · intro id hrun
    rw [h.running] at hrun
    rw [h.waiting]
    cases hp.fate id with
    | untouched _ _ hrun₀ hwait₀ _ => exact fun hw => hs.disjoint id (hrun₀.1 hrun) (hwait₀.1 hw)
    | scheduled _ _ _ _ _ hwait' => exact hwait'
    | preempted _ _ _ hrun' => exact absurd hrun hrun'
    | admitted _ _ _ _ _ hwait' => exact hwait'
  · intro id hrun
    rw [h.running] at hrun
    rw [h.requests]
    cases hp.fate id with
    | untouched hreq _ hrun₀ _ _ =>
        obtain ⟨r, hr, hstatus⟩ := hs.running_request id (hrun₀.1 hrun)
        rw [hreq, hr]
        exact ⟨_, rfl, by rw [afterSchedule_status, hstatus]⟩
    | scheduled r _ hr hrun₀ _ _ hreq =>
        obtain ⟨r', hr', hstatus⟩ := hs.running_request id hrun₀
        cases hr.symm.trans hr'
        rw [hreq]
        exact ⟨_, rfl, by rw [afterSchedule_status]; exact hstatus⟩
    | preempted _ _ _ hrun' => exact absurd hrun hrun'
    | admitted r _ _ _ _ _ hreq =>
        rw [hreq]
        exact ⟨_, rfl, by rw [afterSchedule_status]⟩
  · intro id hwait
    rw [h.waiting] at hwait
    rw [h.requests, h.reqToBlocks]
    cases hp.fate id with
    | untouched hreq hblocks _ hwait₀ hentries =>
        obtain ⟨r, hr, hrest⟩ := hs.waiting_request id (hwait₀.1 hwait)
        rw [hreq, hr, hblocks, Option.map_some, afterSchedule_of_nil hentries]
        exact ⟨r, rfl, hrest⟩
    | scheduled _ _ _ _ _ hwait' => exact absurd hwait hwait'
    | preempted r _ _ _ _ hreq hblocks hentries =>
        rw [hreq, hblocks, Option.map_some, afterSchedule_of_nil hentries]
        exact ⟨_, rfl, RequestStatus.noConfusion, rfl, rfl⟩
    | admitted _ _ _ _ _ hwait' => exact absurd hwait hwait'
  · intro id hnone
    rw [h.requests, Option.map_eq_none_iff] at hnone
    rw [h.reqToBlocks]
    cases hp.fate id with
    | untouched hreq hblocks _ _ _ =>
        rw [hblocks]
        exact hs.unknown_blocks id (hreq.symm.trans hnone)
    | scheduled _ _ _ _ _ _ hreq =>
        rw [hreq] at hnone
        cases hnone
    | preempted _ _ _ _ _ hreq =>
        rw [hreq] at hnone
        cases hnone
    | admitted _ _ _ _ _ _ hreq =>
        rw [hreq] at hnone
        cases hnone
  · intro id _
    rw [h.finishedReqIds]
    exact List.not_mem_nil

/-! ### What happens besides -/

/-- A request that is left alone. -/
structure Kept (s s' : Scheduler) (id : String) : Prop where
  requests : s'.requests id = s.requests id
  reqToBlocks : s'.reqToBlocks id = s.reqToBlocks id
  running : id ∈ s'.running ↔ id ∈ s.running
  waiting : id ∈ s'.waiting ↔ id ∈ s.waiting
  finishedReqIds : id ∈ s'.finishedReqIds ↔ id ∈ s.finishedReqIds

theorem Kept.refl (s : Scheduler) (id : String) : Kept s s id := ⟨rfl, rfl, Iff.rfl, Iff.rfl, Iff.rfl⟩

theorem Kept.trans {s₁ s₂ s₃ : Scheduler} {id : String} (h : Kept s₁ s₂ id) (h' : Kept s₂ s₃ id) :
    Kept s₁ s₃ id :=
  ⟨h'.requests.trans h.requests, h'.reqToBlocks.trans h.reqToBlocks, h'.running.trans h.running,
    h'.waiting.trans h.waiting, h'.finishedReqIds.trans h.finishedReqIds⟩

/-- What may happen to a request besides scheduling: nothing; it is added; it is finished, and its blocks
are freed; or it grows by output tokens, and draft tokens that were rejected are no longer counted as
computed. -/
inductive Change (drafts : String → List ℤ) (s s' : Scheduler) (id : String) : Prop
  | same (h : Kept s s' id)
  | added (promptTokenIds : List ℤ) (mmFeatures : List MultiModalFeatureSpec) (priority arrivalTime : ℤ)
      (hnone : s.requests id = none)
      (hreq : s'.requests id = some (newRequest promptTokenIds mmFeatures priority arrivalTime))
      (hblocks : s'.reqToBlocks id = s.reqToBlocks id) (hrun : id ∉ s'.running)
      (hwait : id ∈ s'.waiting) (hfin : id ∈ s'.finishedReqIds ↔ id ∈ s.finishedReqIds)
  | finished (r : Request) (hr : s.requests id = some r) (hreq : s'.requests id = none)
      (hblocks : s'.reqToBlocks id = []) (hrun : id ∉ s'.running) (hwait : id ∉ s'.waiting)
      (hfin : id ∈ s'.finishedReqIds)
  | grown (r r' : Request) (generated : List ℤ) (hr : s.requests id = some r)
      (hreq : s'.requests id = some r') (hprompt : r'.promptTokenIds = r.promptTokenIds)
      (hmm : r'.mmFeatures = r.mmFeatures) (hstatus : r'.status = r.status)
      (hnum : r'.numPreemptions = r.numPreemptions) (houtput : r.outputTokenIds <+: r'.outputTokenIds)
      (hcomputed : r'.numComputedTokens = verifiedTokens r (drafts id) generated)
      (hblocks : s'.reqToBlocks id = s.reqToBlocks id) (hrun : id ∈ s'.running ↔ id ∈ s.running)
      (hwait : id ∈ s'.waiting ↔ id ∈ s.waiting)
      (hfin : id ∈ s'.finishedReqIds ↔ id ∈ s.finishedReqIds)

/-- Changes to requests that leave the connector alone. -/
structure Quiet (drafts : String → List ℤ) (s s' : Scheduler) : Prop where
  running_nodup : s'.running.Nodup
  waiting_nodup : s'.waiting.Nodup
  config : s'.config = s.config
  connector : s'.connector = s.connector
  change : ∀ id, Change drafts s s' id

theorem verifiedTokens_nil (r : Request) (generated : List ℤ) :
    verifiedTokens r [] generated = r.numComputedTokens := by
  simp [verifiedTokens]

/-- Such changes keep the queues well formed. -/
theorem Quiet.wellFormed {drafts : String → List ℤ} (hs : s.WellFormed) (h : Quiet drafts s s') :
    s'.WellFormed := by
  refine ⟨h.running_nodup, h.waiting_nodup, ?_, ?_, ?_, ?_, ?_⟩
  · intro id hrun
    cases h.change id with
    | same hkept =>
        exact fun hw => hs.disjoint id (hkept.running.1 hrun) (hkept.waiting.1 hw)
    | added _ _ _ _ _ _ _ hrun' => exact absurd hrun hrun'
    | finished _ _ _ _ hrun' => exact absurd hrun hrun'
    | grown _ _ _ _ _ _ _ _ _ _ _ _ hrun₀ hwait₀ =>
        exact fun hw => hs.disjoint id (hrun₀.1 hrun) (hwait₀.1 hw)
  · intro id hrun
    cases h.change id with
    | same hkept =>
        rw [hkept.requests]
        exact hs.running_request id (hkept.running.1 hrun)
    | added _ _ _ _ _ _ _ hrun' => exact absurd hrun hrun'
    | finished _ _ _ _ hrun' => exact absurd hrun hrun'
    | grown r r' _ hr hreq _ _ hstatus _ _ _ _ hrun₀ =>
        obtain ⟨r₀, hr₀, hstatus₀⟩ := hs.running_request id (hrun₀.1 hrun)
        cases hr.symm.trans hr₀
        exact ⟨r', hreq, hstatus.trans hstatus₀⟩
  · intro id hwait
    cases h.change id with
    | same hkept =>
        rw [hkept.requests, hkept.reqToBlocks]
        exact hs.waiting_request id (hkept.waiting.1 hwait)
    | added _ _ _ _ hnone hreq hblocks =>
        exact ⟨_, hreq, RequestStatus.noConfusion, rfl, hblocks.trans (hs.unknown_blocks id hnone)⟩
    | finished _ _ _ _ _ hwait' => exact absurd hwait hwait'
    | grown r r' _ hr hreq _ _ hstatus _ _ hcomputed hblocks _ hwait₀ =>
        obtain ⟨r₀, hr₀, hstatus₀, hzero, hnil⟩ := hs.waiting_request id (hwait₀.1 hwait)
        cases hr.symm.trans hr₀
        refine ⟨r', hreq, hstatus ▸ hstatus₀, ?_, hblocks.trans hnil⟩
        rw [hcomputed, verifiedTokens, hzero]
        simp
  · intro id hnone
    cases h.change id with
    | same hkept =>
        rw [hkept.reqToBlocks]
        exact hs.unknown_blocks id (hkept.requests.symm.trans hnone)
    | added _ _ _ _ _ hreq =>
        rw [hreq] at hnone
        cases hnone
    | finished _ _ _ hblocks => exact hblocks
    | grown _ _ _ _ hreq =>
        rw [hreq] at hnone
        cases hnone
  · intro id hrun
    cases h.change id with
    | same hkept =>
        exact fun hf => hs.running_unfinished id (hkept.running.1 hrun) (hkept.finishedReqIds.1 hf)
    | added _ _ _ _ _ _ _ hrun' => exact absurd hrun hrun'
    | finished _ _ _ _ hrun' => exact absurd hrun hrun'
    | grown _ _ _ _ _ _ _ _ _ _ _ _ hrun₀ _ hfin =>
        exact fun hf => hs.running_unfinished id (hrun₀.1 hrun) (hfin.1 hf)

/-- A request that is not finished keeps its blocks. -/
theorem Quiet.reqToBlocks {drafts : String → List ℤ} (h : Quiet drafts s s') {id : String}
    (hfin : id ∉ s'.finishedReqIds) : s'.reqToBlocks id = s.reqToBlocks id := by
  cases h.change id with
  | same hkept => exact hkept.reqToBlocks
  | added _ _ _ _ _ _ hblocks => exact hblocks
  | finished _ _ _ _ _ _ hfin' => exact absurd hfin' hfin
  | grown _ _ _ _ _ _ _ _ _ _ _ hblocks => exact hblocks

/-- A finished request stays so until the next call of `schedule`. -/
theorem Quiet.finishedReqIds {drafts : String → List ℤ} (h : Quiet drafts s s') {id : String}
    (hfin : id ∈ s.finishedReqIds) : id ∈ s'.finishedReqIds := by
  cases h.change id with
  | same hkept => exact hkept.finishedReqIds.2 hfin
  | added _ _ _ _ _ _ _ _ _ hiff => exact hiff.2 hfin
  | finished _ _ _ _ _ _ hfin' => exact hfin'
  | grown _ _ _ _ _ _ _ _ _ _ _ _ _ _ hiff => exact hiff.2 hfin

theorem quiet_addRequest (hs : s.WellFormed) {requestId : String} {promptTokenIds : List ℤ}
    {mmFeatures : List MultiModalFeatureSpec} {priority arrivalTime : ℤ}
    (h : s.addRequest requestId promptTokenIds mmFeatures priority arrivalTime = .ok s') :
    Quiet (fun _ => []) s s' := by
  rw [addRequest] at h
  split at h
  · cases h
  · rename_i hnone
    cases h
    have hwait : requestId ∉ s.waiting := by
      intro hw
      obtain ⟨r, hr, -⟩ := hs.waiting_request _ hw
      rw [hnone] at hr
      cases hr
    have hrun : requestId ∉ s.running := by
      intro hw
      obtain ⟨r, hr, -⟩ := hs.running_request _ hw
      rw [hnone] at hr
      cases hr
    refine ⟨hs.running_nodup, ?_, rfl, rfl, fun id => ?_⟩
    · refine List.nodup_append.2 ⟨hs.waiting_nodup, List.nodup_singleton _, ?_⟩
      rintro a ha b hb rfl
      exact hwait (List.mem_singleton.1 hb ▸ ha)
    · by_cases hid : id = requestId
      · subst hid
        exact .added promptTokenIds mmFeatures priority arrivalTime hnone (Function.update_self ..) rfl
          hrun (List.mem_append_right _ (List.mem_singleton.2 rfl)) Iff.rfl
      · refine .same ⟨Function.update_of_ne hid _ _, rfl, Iff.rfl, ?_, Iff.rfl⟩
        show id ∈ s.waiting ++ [requestId] ↔ id ∈ s.waiting
        simp [hid]

theorem quiet_pause (hs : s.WellFormed) (pauseState : PauseState) :
    Quiet (fun _ => []) s { s with pauseState := pauseState } :=
  ⟨hs.running_nodup, hs.waiting_nodup, rfl, rfl, fun _ => .same ⟨rfl, rfl, Iff.rfl, Iff.rfl, Iff.rfl⟩⟩

theorem quiet_updateDraftTokenIds (hs : s.WellFormed) (requestId : String) (specTokenIds : List ℤ) :
    Quiet (fun _ => []) s (s.updateDraftTokenIds requestId specTokenIds) := by
  rw [updateDraftTokenIds]
  split
  · exact ⟨hs.running_nodup, hs.waiting_nodup, rfl, rfl, fun id => .same (.refl s id)⟩
  · rename_i r hr
    refine ⟨hs.running_nodup, hs.waiting_nodup, rfl, rfl, fun id => ?_⟩
    by_cases hid : id = requestId
    · subst hid
      exact .grown r _ [] hr (Function.update_self ..) rfl rfl rfl rfl (List.prefix_refl _)
        (verifiedTokens_nil _ _).symm rfl Iff.rfl Iff.rfl Iff.rfl
    · exact .same ⟨Function.update_of_ne hid _ _, rfl, Iff.rfl, Iff.rfl, Iff.rfl⟩

/-! ### Finished requests -/

/-- A request that is finished: its blocks are freed, and it is forgotten. -/
structure Gone (s s' : Scheduler) (id : String) : Prop where
  known : ∃ r, s.requests id = some r
  requests : s'.requests id = none
  reqToBlocks : s'.reqToBlocks id = []
  running : id ∉ s'.running
  waiting : id ∉ s'.waiting
  finishedReqIds : id ∈ s'.finishedReqIds

theorem Gone.change {drafts : String → List ℤ} {id : String} (h : Gone s s' id) :
    Change drafts s s' id := by
  obtain ⟨r, hr⟩ := h.known
  exact .finished r hr h.requests h.reqToBlocks h.running h.waiting h.finishedReqIds

/-- Finishing requests leaves each request alone, or finishes it. -/
structure Drops (s s' : Scheduler) : Prop where
  running_nodup : s'.running.Nodup
  waiting_nodup : s'.waiting.Nodup
  config : s'.config = s.config
  connector : s'.connector = s.connector
  dropped : ∀ id, Kept s s' id ∨ Gone s s' id

theorem Drops.quiet (h : Drops s s') (drafts : String → List ℤ) : Quiet drafts s s' := by
  refine ⟨h.running_nodup, h.waiting_nodup, h.config, h.connector, fun id => ?_⟩
  rcases h.dropped id with hkept | hgone
  · exact .same hkept
  · exact hgone.change

theorem Drops.trans {s₁ s₂ s₃ : Scheduler} (h : Drops s₁ s₂) (h' : Drops s₂ s₃) : Drops s₁ s₃ := by
  refine ⟨h'.running_nodup, h'.waiting_nodup, h'.config.trans h.config,
    h'.connector.trans h.connector, fun id => ?_⟩
  rcases h.dropped id with hkept | hgone
  · rcases h'.dropped id with hkept' | hgone'
    · exact Or.inl (hkept.trans hkept')
    · exact Or.inr ⟨hkept.requests ▸ hgone'.known, hgone'.requests, hgone'.reqToBlocks,
        hgone'.running, hgone'.waiting, hgone'.finishedReqIds⟩
  · rcases h'.dropped id with hkept' | hgone'
    · exact Or.inr ⟨hgone.known, hkept'.requests.trans hgone.requests,
        hkept'.reqToBlocks.trans hgone.reqToBlocks, fun h => hgone.running (hkept'.running.1 h),
        fun h => hgone.waiting (hkept'.waiting.1 h), hkept'.finishedReqIds.2 hgone.finishedReqIds⟩
    · -- a request that is forgotten is not finished again
      obtain ⟨r, hr⟩ := hgone'.known
      rw [hgone.requests] at hr
      cases hr

theorem kept_finishRequest {id requestId : String} (hid : id ≠ requestId) :
    Kept s (s.finishRequest requestId) id := by
  rw [finishRequest]
  split
  · exact .refl s id
  · refine ⟨Function.update_of_ne hid _ _, Function.update_of_ne hid _ _,
      List.mem_erase_of_ne hid, List.mem_erase_of_ne hid, ?_⟩
    show id ∈ s.finishedReqIds ++ [requestId] ↔ id ∈ s.finishedReqIds
    simp [hid]

theorem gone_finishRequest (hrun : s.running.Nodup) (hwait : s.waiting.Nodup) {requestId : String}
    {r : Request} (hr : s.requests requestId = some r) :
    Gone s (s.finishRequest requestId) requestId := by
  simp only [finishRequest, hr]
  exact ⟨⟨r, hr⟩, Function.update_self .., Function.update_self .., hrun.not_mem_erase,
    hwait.not_mem_erase, List.mem_append_right _ (List.mem_singleton.2 rfl)⟩

theorem drops_finishRequest (hrun : s.running.Nodup) (hwait : s.waiting.Nodup) (requestId : String) :
    Drops s (s.finishRequest requestId) := by
  cases hr : s.requests requestId with
  | none =>
      have hsame : s.finishRequest requestId = s := by rw [finishRequest, hr]
      rw [hsame]
      exact ⟨hrun, hwait, rfl, rfl, fun id => Or.inl (.refl s id)⟩
  | some r =>
      have hgone := gone_finishRequest hrun hwait hr
      refine ⟨?_, ?_, ?_, ?_, fun id => ?_⟩
      · simp only [finishRequest, hr]
        exact hrun.erase _
      · simp only [finishRequest, hr]
        exact hwait.erase _
      · simp only [finishRequest, hr]
      · simp only [finishRequest, hr]
      · by_cases hid : id = requestId
        · subst hid
          exact Or.inr hgone
        · exact Or.inl (kept_finishRequest hid)

theorem drops_finishRequests (hrun : s.running.Nodup) (hwait : s.waiting.Nodup) (ids : List String) :
    Drops s (ids.foldl finishRequest s) := by
  induction ids generalizing s with
  | nil => exact ⟨hrun, hwait, rfl, rfl, fun id => Or.inl (.refl s id)⟩
  | cons requestId ids ih =>
      have hdrop := drops_finishRequest hrun hwait requestId
      exact hdrop.trans (ih hdrop.running_nodup hdrop.waiting_nodup)

/-! ### The update from the output of the model -/

theorem updateRequestWithOutput_frame (checkStop : Request → Bool) (r : Request) (ts : List ℤ) :
    ∃ ts', (updateRequestWithOutput checkStop r ts).1 =
      { r with outputTokenIds := r.outputTokenIds ++ ts' } := by
  induction ts generalizing r with
  | nil => exact ⟨[], by simp [updateRequestWithOutput]⟩
  | cons t ts ih =>
      rw [updateRequestWithOutput]
      split
      · exact ⟨[t], rfl⟩
      · obtain ⟨ts', hts'⟩ := ih { r with outputTokenIds := r.outputTokenIds ++ [t] }
        exact ⟨t :: ts', by rw [hts']; simp⟩

/-- The update of a request changes no other, and grows or finishes the request. -/
theorem updateRequest_change (hrun : s.running.Nodup) (hwait : s.waiting.Nodup)
    (modelOutput : ModelRunnerOutput) (requestId : String) (specTokenIds : List ℤ) :
    (s.updateRequest modelOutput requestId specTokenIds).running.Nodup ∧
      (s.updateRequest modelOutput requestId specTokenIds).waiting.Nodup ∧
      (s.updateRequest modelOutput requestId specTokenIds).config = s.config ∧
      (s.updateRequest modelOutput requestId specTokenIds).connector = s.connector ∧
      (∀ id ≠ requestId, Kept s (s.updateRequest modelOutput requestId specTokenIds) id) ∧
      ∀ drafts : String → List ℤ, drafts requestId = specTokenIds →
        Change drafts s (s.updateRequest modelOutput requestId specTokenIds) requestId := by
  unfold updateRequest
  cases hr : s.requests requestId with
  | none =>
      exact ⟨hrun, hwait, rfl, rfl, fun id _ => .refl s id, fun _ _ => .same (.refl s requestId)⟩
  | some r =>
      simp only
      obtain ⟨ts, hts⟩ := updateRequestWithOutput_frame (modelOutput.checkStop requestId)
        { r with numComputedTokens :=
          verifiedTokens r specTokenIds (modelOutput.sampledTokenIds requestId) }
        (modelOutput.sampledTokenIds requestId)
      generalize updateRequestWithOutput (modelOutput.checkStop requestId)
        { r with numComputedTokens :=
          verifiedTokens r specTokenIds (modelOutput.sampledTokenIds requestId) }
        (modelOutput.sampledTokenIds requestId) = res at hts ⊢
      obtain ⟨r', stopped⟩ := res
      simp only at hts
      have hset : ∀ id ≠ requestId, Kept s (s.setRequest requestId r') id := fun id hid =>
        ⟨Function.update_of_ne hid _ _, rfl, Iff.rfl, Iff.rfl, Iff.rfl⟩
      cases stopped with
      | true =>
          have hdrop := drops_finishRequest (s := s.setRequest requestId r') hrun hwait requestId
          have hself : (s.setRequest requestId r').requests requestId = some r' :=
            Function.update_self ..
          have hgone := gone_finishRequest (s := s.setRequest requestId r') hrun hwait hself
          exact ⟨hdrop.running_nodup, hdrop.waiting_nodup, hdrop.config, hdrop.connector,
            fun id hid => (hset id hid).trans (kept_finishRequest hid),
            fun _ _ => .finished r hr hgone.requests hgone.reqToBlocks hgone.running hgone.waiting
              hgone.finishedReqIds⟩
      | false =>
          refine ⟨hrun, hwait, rfl, rfl, hset, fun drafts hdrafts => ?_⟩
          refine .grown r r' (modelOutput.sampledTokenIds requestId) hr (Function.update_self ..) ?_ ?_
            ?_ ?_ ?_ ?_ rfl Iff.rfl Iff.rfl Iff.rfl
          · rw [hts]
          · rw [hts]
          · rw [hts]
          · rw [hts]
          · rw [hts]
            exact List.prefix_append _ _
          · rw [hts, hdrafts]

theorem Change.of_kept {drafts : String → List ℤ} {s₁ s₂ s₃ : Scheduler} {id : String}
    (h : Change drafts s₁ s₂ id) (hkept : Kept s₂ s₃ id) : Change drafts s₁ s₃ id := by
  cases h with
  | same h => exact .same (h.trans hkept)
  | added prompt mm priority arrival hnone hreq hblocks hrun hwait hfin =>
      exact .added prompt mm priority arrival hnone (hkept.requests.trans hreq)
        (hkept.reqToBlocks.trans hblocks) (fun h => hrun (hkept.running.1 h)) (hkept.waiting.2 hwait)
        (hkept.finishedReqIds.trans hfin)
  | finished r hr hreq hblocks hrun hwait hfin =>
      exact .finished r hr (hkept.requests.trans hreq) (hkept.reqToBlocks.trans hblocks)
        (fun h => hrun (hkept.running.1 h)) (fun h => hwait (hkept.waiting.1 h))
        (hkept.finishedReqIds.2 hfin)
  | grown r r' generated hr hreq hprompt hmm hstatus hnum houtput hcomputed hblocks hrun hwait hfin =>
      exact .grown r r' generated hr (hkept.requests.trans hreq) hprompt hmm hstatus hnum houtput
        hcomputed (hkept.reqToBlocks.trans hblocks) (hkept.running.trans hrun)
        (hkept.waiting.trans hwait) (hkept.finishedReqIds.trans hfin)

theorem Change.of_kept_left {drafts : String → List ℤ} {s₁ s₂ s₃ : Scheduler} {id : String}
    (hkept : Kept s₁ s₂ id) (h : Change drafts s₂ s₃ id) : Change drafts s₁ s₃ id := by
  cases h with
  | same h => exact .same (hkept.trans h)
  | added prompt mm priority arrival hnone hreq hblocks hrun hwait hfin =>
      exact .added prompt mm priority arrival (hkept.requests ▸ hnone) hreq
        (hblocks.trans hkept.reqToBlocks) hrun hwait (hfin.trans hkept.finishedReqIds)
  | finished r hr hreq hblocks hrun hwait hfin =>
      exact .finished r (hkept.requests ▸ hr) hreq hblocks hrun hwait hfin
  | grown r r' generated hr hreq hprompt hmm hstatus hnum houtput hcomputed hblocks hrun hwait hfin =>
      exact .grown r r' generated (hkept.requests ▸ hr) hreq hprompt hmm hstatus hnum houtput
        hcomputed (hblocks.trans hkept.reqToBlocks) (hrun.trans hkept.running)
        (hwait.trans hkept.waiting) (hfin.trans hkept.finishedReqIds)

/-- The update from an output that lists each request once. -/
theorem updateRequests_change {drafts : String → List ℤ} {l : List (String × List ℤ)}
    (hnodup : (l.map Prod.fst).Nodup) (hdrafts : ∀ x ∈ l, drafts x.1 = x.2)
    (modelOutput : ModelRunnerOutput) (hrun : s.running.Nodup) (hwait : s.waiting.Nodup)
    (hs' : s' = l.foldl (fun s x => s.updateRequest modelOutput x.1 x.2) s) :
    Quiet drafts s s' ∧ ∀ id ∉ l.map Prod.fst, Kept s s' id := by
  induction l generalizing s with
  | nil =>
      subst hs'
      exact ⟨⟨hrun, hwait, rfl, rfl, fun id => .same (.refl _ id)⟩, fun id _ => .refl _ id⟩
  | cons x l ih =>
      obtain ⟨requestId, specTokenIds⟩ := x
      rw [List.map_cons, List.nodup_cons] at hnodup
      obtain ⟨hrun₁, hwait₁, hconfig, hconn, hother, hself⟩ :=
        updateRequest_change hrun hwait modelOutput requestId specTokenIds
      obtain ⟨hquiet, hkept⟩ := ih hnodup.2 (fun x hx => hdrafts x (List.mem_cons_of_mem _ hx)) hrun₁
        hwait₁ hs'
      refine ⟨⟨hquiet.running_nodup, hquiet.waiting_nodup, hquiet.config.trans hconfig,
        hquiet.connector.trans hconn, fun id => ?_⟩, fun id hid => ?_⟩
      · by_cases hid : id = requestId
        · subst hid
          exact (hself drafts (hdrafts _ (List.mem_cons_self ..))).of_kept (hkept _ hnodup.1)
        · exact .of_kept_left (hother id hid) (hquiet.change id)
      · rw [List.map_cons, List.mem_cons, not_or] at hid
        exact (hother id hid.1).trans (hkept id hid.2)

/-- The draft tokens that a pass has scheduled for a request. -/
def draftsOf (p : Pass) (id : String) : List ℤ :=
  match (p.entriesOf id).head? with
  | none => []
  | some x => x.specTokenIds

theorem quiet_updateFromOutput (hp : Pass.PassInv s p) {s₂ : Scheduler} (hrun : s₂.running.Nodup)
    (hwait : s₂.waiting.Nodup) (modelOutput : ModelRunnerOutput) :
    Quiet (draftsOf p) s₂ (s₂.updateFromOutput modelOutput p.output) := by
  refine (updateRequests_change (l := p.output.scheduledSpecDecodeTokens) ?_ ?_ modelOutput hrun hwait
    rfl).1
  · show ((p.scheduled.map fun x => (x.reqId, x.specTokenIds)).map Prod.fst).Nodup
    rw [List.map_map]
    exact hp.scheduled_nodup
  · intro y hy
    obtain ⟨x, hx, rfl⟩ := List.mem_map.1 hy
    simp only [draftsOf, hp.entriesOf_eq hx, List.head?_cons]

/-- What happens after a pass: aborts while the model runs, and the update from its output. -/
theorem afterPass_cases (hp : Pass.PassInv s p) {s₁ : Scheduler} (hs₁ : s₁.WellFormed)
    (aborted : List String) (modelOutput : ModelRunnerOutput) :
    Drops s₁ (aborted.foldl finishRequest s₁) ∧ Quiet (draftsOf p) (aborted.foldl finishRequest s₁)
      ((aborted.foldl finishRequest s₁).updateFromOutput modelOutput p.output) := by
  have hdrops := drops_finishRequests hs₁.running_nodup hs₁.waiting_nodup aborted
  exact ⟨hdrops, quiet_updateFromOutput hp hdrops.running_nodup hdrops.waiting_nodup modelOutput⟩

/-! ### Runs -/

/-- **What a step does**: it leaves the connector alone; or it is a call of `schedule`, then aborts, then
the update from the output of the model. -/
theorem Step.cases (hs : s.WellFormed) (hnamed : s.connector.Named) (h : Step ops s s') :
    Quiet (fun _ => []) s s' ∨
      ∃ p metadata s₁ s₂, (∃ lookup, s.schedule ops lookup = .ok (p, metadata, s₁)) ∧
        Scheduled s p metadata s₁ ∧ Drops s₁ s₂ ∧ Quiet (draftsOf p) s₂ s' := by
  cases h with
  | add requestId promptTokenIds mmFeatures priority arrivalTime h =>
      exact Or.inl (quiet_addRequest hs h)
  | finish requestId =>
      have hdrops := drops_finishRequest hs.running_nodup hs.waiting_nodup requestId
      exact Or.inl (hdrops.quiet _)
  | draft requestId specTokenIds => exact Or.inl (quiet_updateDraftTokenIds hs requestId specTokenIds)
  | pause pauseState => exact Or.inl (quiet_pause hs pauseState)
  | @step s₁ p metadata lookup aborted modelOutput h =>
      have hsched := schedule_spec hs hnamed h
      obtain ⟨hdrops, hquiet⟩ := afterPass_cases hsched.pass (hsched.wellFormed hs) aborted modelOutput
      exact Or.inr ⟨p, metadata, s₁, _, ⟨lookup, h⟩, hsched, hdrops, hquiet⟩

/-- The states that a scheduler can get into, from the start on. -/
def Reachable (ops : KVCacheOps) (s : Scheduler) : Prop :=
  ∃ config blockSize kvRole discardPartialChunks skipLastNTokens,
    ReflTransGen (Step ops)
      (init config (.init blockSize kvRole discardPartialChunks skipLastNTokens)) s

theorem wellFormed_init (config : SchedulerConfig) (connector : SchedulerConnector) :
    (init config connector).WellFormed :=
  ⟨List.nodup_nil, List.nodup_nil, by simp [init], by simp [init], by simp [init], fun _ _ => rfl,
    by simp [init]⟩

theorem Step.wellFormed (hs : s.WellFormed) (hnamed : s.connector.Named) (h : Step ops s s') :
    s'.WellFormed ∧ s'.connector.Named := by
  rcases h.cases hs hnamed with hquiet | ⟨p, metadata, s₁, s₂, -, hsched, hdrops, hquiet⟩
  · refine ⟨hquiet.wellFormed hs, ?_⟩
    rw [hquiet.connector]
    exact hnamed
  · refine ⟨hquiet.wellFormed ((hdrops.quiet fun _ => []).wellFormed
      (hsched.wellFormed hs)), ?_⟩
    rw [hquiet.connector, hdrops.connector]
    exact hsched.named

/-- **The queues of a reachable state are well formed**, and the trackers carry their ids. -/
theorem Reachable.wellFormed (h : Reachable ops s) : s.WellFormed ∧ s.connector.Named := by
  obtain ⟨config, blockSize, kvRole, discard, skip, hrun⟩ := h
  induction hrun with
  | refl => exact ⟨wellFormed_init _ _, fun id t ht => by cases ht⟩
  | tail _ hstep ih => exact hstep.wellFormed ih.1 ih.2

/-! ### A run with a preemption -/

/-- A scheduler with blocks of two tokens and the first model runner. -/
def smallScheduler : Scheduler :=
  init ⟨100, 4, 0, true, 100, .fcfs, false⟩ (.init 2 .both true 0)

/-- The scheduler after a request was added. -/
def afterAdd (s : Scheduler) (requestId : String) (promptTokenIds : List ℤ) : Scheduler :=
  (s.addRequest requestId promptTokenIds [] 0 0).toOption.getD s

/-- The scheduler after a step. -/
def afterStep (s : Scheduler) (ops : KVCacheOps) (lookup : List ℤ → Except PyError ℕ)
    (modelOutput : ModelRunnerOutput) : Scheduler :=
  match s.schedule ops lookup with
  | .ok (p, _, s') => s'.updateFromOutput modelOutput p.output
  | .error _ => s

theorem step_afterAdd {requestId : String} {promptTokenIds : List ℤ}
    (h : (s.requests requestId).isNone = true) : Step ops s (s.afterAdd requestId promptTokenIds) := by
  have hok : s.addRequest requestId promptTokenIds [] 0 0 =
      .ok (s.afterAdd requestId promptTokenIds) := by
    rw [afterAdd, addRequest, Option.isNone_iff_eq_none.1 h]
    rfl
  exact .add requestId promptTokenIds [] 0 0 hok

theorem step_afterStep {modelOutput : ModelRunnerOutput}
    (h : (s.schedule ops lookup).toOption.isSome = true) :
    Step ops s (s.afterStep ops lookup modelOutput) := by
  rw [afterStep]
  cases hsched : s.schedule ops lookup with
  | error e =>
      rw [hsched] at h
      cases h
  | ok res =>
      obtain ⟨p, metadata, s'⟩ := res
      exact .step lookup [] modelOutput hsched

/-- Five free blocks: two requests get two blocks each, then the first one gets the fifth, and there is
none for the second one until the first one is finished. -/
def fiveBlocks : KVCacheOps where
  getComputedBlocks := fun _ => ([], 0)
  allocateSlots := fun call => ([none, some [1, 2], none, some [3, 4], some [5], none, none,
    some [3, 4, 1]] : List (Option (List ℕ)))[call]?.join
  tryScheduleEncoderInputs := fun _ => 0

/-- Every request gets one token in a step, and the first request stops after its second one. -/
def oneToken : ModelRunnerOutput where
  sampledTokenIds := fun _ => [9]
  checkStop := fun requestId request => decide (requestId = "a" ∧ request.outputTokenIds.length = 2)

/-- Two requests are started, the second one is preempted, and the first one is finished. -/
def afterPreemption : Scheduler :=
  ((((smallScheduler.afterAdd "a" [1, 2, 3, 4]).afterAdd "b" [5, 6, 7, 8]).afterStep fiveBlocks
    (fun _ => .ok 0) oneToken).afterStep fiveBlocks (fun _ => .ok 0) oneToken)

theorem reachable_afterPreemption : Reachable fiveBlocks afterPreemption := by
  refine ⟨_, _, _, _, _, ReflTransGen.refl.tail (step_afterAdd ?_) |>.tail (step_afterAdd ?_)
    |>.tail (step_afterStep ?_) |>.tail (step_afterStep ?_)⟩
  · decide +kernel
  · decide +kernel
  · decide +kernel
  · decide +kernel

end Scheduler

end InfiniKV
