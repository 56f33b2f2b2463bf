/-
**When the trackers agree with the scheduler.**

The connector keeps its own record of the tokens and the blocks of a request.  It is advanced from its
own length and by appending the blocks of a step, so it is right only if it was right before.  After a
preemption the blocks of a request are freed, and when it is resumed as a cached request the blocks of
its new table are appended to those of the old one.

Main definitions:

* `InfiniKV.Scheduler.TrackerAgrees` — the tracker of a scheduled request agrees with the scheduler;
* `InfiniKV.Scheduler.TrackerInv` — what holds of the trackers of running requests between steps.

Main results:

* `InfiniKV.Scheduler.trackerAgrees_of_not_preempted` — **in every run, the tracker of a scheduled
  request agrees with the scheduler** if the request has never been preempted, or the second model
  runner is used;
* `InfiniKV.Scheduler.tracker_disagrees` — the tracker of a resumed request that does not.
-/

import InfiniKV.ScheduleStep

set_option relaxedAutoImplicit false
set_option autoImplicit false

namespace InfiniKV

open Relation SchedulerConnector

namespace Scheduler

variable {ops : KVCacheOps} {lookup : List ℤ → Except PyError ℕ} {s s' : Scheduler} {p : Pass}
  {metadata : InfiniKVConnectorMetadata} {x : ScheduledRequest} {id : String}

/-- **The tracker of a scheduled request agrees with the scheduler**: its tokens are a prefix of those
of the request, no more than are computed or scheduled, and its blocks are the block table. -/
def TrackerAgrees (p : Pass) (s' : Scheduler) (x : ScheduledRequest) : Prop :=
  ∃ t r, s'.connector.requestTrackers x.reqId = some t ∧ p.scheduler.requests x.reqId = some r ∧
    t.tokenIds <+: r.allTokenIds ∧ t.tokenIds.length ≤ r.numComputedTokens + x.numNewTokens ∧
    t.allocatedBlockIds = p.scheduler.reqToBlocks x.reqId

/-- A request whose tracker can be trusted: it has never been preempted, or it is handed over as a new
request when it is resumed. -/
def Trusted (s : Scheduler) (r : Request) : Prop :=
  s.config.useV2ModelRunner = true ∨ r.numPreemptions = 0

/-- **What holds of the trackers of running requests between steps.** -/
structure TrackerInv (s : Scheduler) : Prop where
  agrees : ∀ id ∈ s.running, ∀ r, s.requests id = some r → Trusted s r →
    ∃ t, s.connector.requestTrackers id = some t ∧ t.tokenIds <+: r.allTokenIds ∧
      t.tokenIds.length ≤ r.numComputedTokens ∧ t.allocatedBlockIds = s.reqToBlocks id
  preempted : ∀ id r, s.requests id = some r → r.status = .preempted → 0 < r.numPreemptions

/-! ### What is built for a request -/

/-- Building the metadata of a request changes neither the tokens nor the blocks of its tracker. -/
theorem fromTracker_frame {c : SchedulerConnector} {t t' : RequestTracker} {l : Option LoadSpec}
    {m : Option ReqMeta} (h : c.fromTracker t l = .ok (m, t')) :
    t'.tokenIds = t.tokenIds ∧ t'.allocatedBlockIds = t.allocatedBlockIds := by
  rcases ReqMeta.fromRequestTracker_cases h with ⟨-, -, -, rfl⟩ | ⟨m', -, -, -, -, -, -, rfl⟩
  · exact ⟨rfl, rfl⟩
  · split
    · exact ⟨rfl, rfl⟩
    · exact ⟨rfl, rfl⟩

theorem scheduledTokensOf_eq (hp : Pass.PassInv s p) (hx : x ∈ p.scheduled) :
    scheduledTokensOf p.output x.reqId = .ok x.numNewTokens := by
  rw [scheduledTokensOf, Pass.lookup_numScheduledTokens, hp.entriesOf_eq hx]
  rfl

/-- The tokens of a tracker that is advanced along its request. -/
theorem advanceTracker_tokenIds {t : RequestTracker} {r : Request} (h : t.tokenIds <+: r.allTokenIds)
    (n : ℕ) (blocks : Option (List (List ℕ))) :
    (advanceTracker t r n blocks).tokenIds = r.allTokenIds.take (t.tokenIds.length + n) := by
  show t.tokenIds ++ (r.allTokenIds.drop t.tokenIds.length).take n = _
  rw [List.take_add, ← List.prefix_iff_eq_take.1 h]

/-- The blocks of a tracker that is advanced. -/
theorem advanceTracker_blocks (t : RequestTracker) (r : Request) (n : ℕ) (x : ScheduledRequest) :
    (advanceTracker t r n (Pass.cachedRequest x).newBlockIds).allocatedBlockIds =
      t.allocatedBlockIds ++ x.newBlocks := by
  simp only [advanceTracker, RequestTracker.update, Pass.cachedRequest]
  by_cases hx : x.newBlocks = []
  · simp [hx]
  · simp [hx]

/-- The tracker of a request that was running before. -/
theorem trackerAgrees_of_cached (hsched : Scheduled s p metadata s') (hx : x ∈ p.cachedReqs)
    {r r' : Request} {t : RequestTracker} (hreq : p.scheduler.requests x.reqId = some r')
    (hall : r'.allTokenIds = r.allTokenIds) (hnum : r'.numComputedTokens = r.numComputedTokens)
    (ht : s.connector.requestTrackers x.reqId = some t) (hpre : t.tokenIds <+: r.allTokenIds)
    (hlen : t.tokenIds.length ≤ r.numComputedTokens)
    (hblocks : p.scheduler.reqToBlocks x.reqId = t.allocatedBlockIds ++ x.newBlocks) :
    TrackerAgrees p s' x := by
  have hp := hsched.pass
  have hxs := (Pass.mem_cachedReqs.1 hx).1
  have hmem : x.reqId ∈ p.output.scheduledCachedReqs.map (·.reqId) := by
    rw [Pass.scheduledCachedReqs_reqId]
    exact List.mem_map_of_mem hx
  cases hsched.built x.reqId with
  | other _ hcached => exact absurd hmem hcached
  | new d hd hid =>
      have hmem' : x.reqId ∈ p.output.scheduledNewReqs.map (·.reqId) := by
        rw [← hid]
        exact List.mem_map_of_mem hd
      exact absurd rfl ((List.nodup_append.1 hp.output_nodup).2.2 _ hmem' _ hmem)
  | cached req hreq' hid n hn t₁ t' r₁ m _ ht₁ _ hr₁ hm htracker =>
      -- the entry of the request is the one made from `x`
      obtain ⟨y, hy, rfl⟩ := List.mem_map.1 hreq'
      have hyx : y = x := hp.entry_inj (Pass.mem_cachedReqs.1 hy).1 hxs hid
      subst hyx
      rw [scheduledTokensOf_eq hp hxs, Except.ok.injEq] at hn
      rw [hp.connector.requestTrackers] at ht₁
      cases ht.symm.trans ht₁
      cases hreq.symm.trans hr₁
      obtain ⟨htokens, halloc⟩ := fromTracker_frame hm
      rw [← hall] at hpre
      rw [advanceTracker_tokenIds hpre] at htokens
      rw [advanceTracker_blocks] at halloc
      refine ⟨t', r', htracker, hreq, ?_, ?_, halloc.trans hblocks.symm⟩
      · rw [htokens]
        exact List.take_prefix _ _
      · rw [htokens, List.length_take]
        omega

/-- The tracker of a request that is handed over as a new one. -/
theorem trackerAgrees_of_new (hsched : Scheduled s p metadata s') (hx : x ∈ p.newReqs)
    {r : Request} (hreq : p.scheduler.requests x.reqId = some r)
    (hblocks : p.scheduler.reqToBlocks x.reqId = x.newBlocks) : TrackerAgrees p s' x := by
  have hp := hsched.pass
  have hxs := (Pass.mem_newReqs.1 hx).1
  have hmem : x.reqId ∈ p.output.scheduledNewReqs.map (·.reqId) := by
    rw [hp.scheduledNewReqs_reqId]
    exact List.mem_map_of_mem hx
  cases hsched.built x.reqId with
  | other hnew => exact absurd hmem hnew
  | new d hd hid n hn t t' m ht hm htracker =>
      obtain ⟨y, hy, hd'⟩ := List.mem_filterMap.1 hd
      obtain ⟨r', hr', rfl⟩ := Option.map_eq_some_iff.1 hd'
      have hyx : y = x := hp.entry_inj (Pass.mem_newReqs.1 hy).1 hxs hid
      subst hyx
      rw [scheduledTokensOf_eq hp hxs, Except.ok.injEq] at hn
      cases hreq.symm.trans hr'
      cases ht
      obtain ⟨htokens, halloc⟩ := fromTracker_frame hm
      refine ⟨t', r, htracker, hreq, ?_, ?_, halloc.trans hblocks.symm⟩
      · rw [htokens]
        exact (List.take_prefix _ _).trans (List.prefix_append _ _)
      · rw [htokens, hn]
        exact List.length_take_le _ _
  | cached req hreq' hid =>
      have hmem' : x.reqId ∈ p.output.scheduledCachedReqs.map (·.reqId) := by
        rw [← hid]
        exact List.mem_map_of_mem hreq'
      exact absurd rfl ((List.nodup_append.1 hp.output_nodup).2.2 _ hmem _ hmem')

/-- **The tracker of a scheduled request agrees with the scheduler**, if it could be trusted before. -/
theorem trackerAgrees_of_trusted (hinv : TrackerInv s)
    (hsched : Scheduled s p metadata s') (hx : x ∈ p.scheduled)
    (htrust : ∀ r, s.requests x.reqId = some r → Trusted s r) : TrackerAgrees p s' x := by
  have hp := hsched.pass
  have hentries := hp.entriesOf_eq hx
  cases hp.fate x.reqId with
  | untouched _ _ _ _ hnil =>
      rw [hnil] at hentries
      cases hentries
  | scheduled r y hr hrun _ _ hreq hblocks hy hkind =>
      rw [hy, List.cons.injEq] at hentries
      obtain ⟨rfl, -⟩ := hentries
      obtain ⟨t, ht, hpre, hlen, halloc⟩ := hinv.agrees _ hrun r hr (htrust r hr)
      rw [← halloc] at hblocks
      exact trackerAgrees_of_cached hsched (Pass.mem_cachedReqs.2 ⟨hx, Or.inl hkind⟩) hreq rfl rfl ht
        hpre hlen hblocks
  | preempted _ _ _ _ _ _ _ hnil =>
      rw [hnil] at hentries
      cases hentries
  | admitted r y hr hwait _ _ hreq hblocks hy hkind =>
      rw [hy, List.cons.injEq] at hentries
      obtain ⟨rfl, -⟩ := hentries
      refine trackerAgrees_of_new hsched (Pass.mem_newReqs.2 ⟨hx, ?_⟩) hreq hblocks
      cases hstatus : r.status with
      | waiting =>
          rw [hstatus, Pass.kindOfStatus, Except.ok.injEq] at hkind
          exact Or.inl hkind.symm
      | preempted =>
          rw [hstatus, Pass.kindOfStatus, Except.ok.injEq] at hkind
          refine Or.inr ⟨hkind.symm, ?_⟩
          rw [hp.config]
          rcases htrust r hr with hv2 | hzero
          · exact hv2
          · have := hinv.preempted _ r hr hstatus
            omega
      | running =>
          rw [hstatus] at hkind
          cases hkind

/-! ### Along a run -/

/-- The draft tokens of a request were scheduled beyond its own tokens. -/
def DraftBound (drafts : String → List ℤ) (s : Scheduler) : Prop :=
  ∀ id r, s.requests id = some r →
    drafts id = [] ∨ r.numTokens + (drafts id).length ≤ r.numComputedTokens

theorem notMem_output_of_nil (hp : Pass.PassInv s p) (h : p.entriesOf id = []) :
    id ∉ p.output.scheduledNewReqs.map (·.reqId) ∧
      id ∉ p.output.scheduledCachedReqs.map (·.reqId) := by
  have hne : ∀ x ∈ p.scheduled, x.reqId ≠ id := fun x hx heq => by
    have := hp.entriesOf_eq hx
    rw [heq, h] at this
    cases this
  rw [hp.scheduledNewReqs_reqId, Pass.scheduledCachedReqs_reqId]
  constructor
  · intro hmem
    obtain ⟨x, hx, hxid⟩ := List.mem_map.1 hmem
    exact hne x (Pass.mem_newReqs.1 hx).1 hxid
  · intro hmem
    obtain ⟨x, hx, hxid⟩ := List.mem_map.1 hmem
    exact hne x (Pass.mem_cachedReqs.1 hx).1 hxid

@[simp] theorem afterSchedule_numPreemptions (p : Pass) (id : String) (r : Request) :
    (afterSchedule p id r).numPreemptions = r.numPreemptions := by
  unfold afterSchedule
  split
  · rfl
  · rfl

@[simp] theorem afterSchedule_allTokenIds (p : Pass) (id : String) (r : Request) :
    (afterSchedule p id r).allTokenIds = r.allTokenIds := by
  unfold afterSchedule
  split
  · rfl
  · rfl

theorem afterSchedule_numComputedTokens {x : ScheduledRequest} (h : p.entriesOf id = [x])
    (r : Request) :
    (afterSchedule p id r).numComputedTokens = r.numComputedTokens + x.numNewTokens := by
  rw [afterSchedule, h]
  rfl

/-- The trackers of running requests after a call of `schedule`. -/
theorem Scheduled.trackerInv (hs : s.WellFormed) (hinv : TrackerInv s)
    (hsched : Scheduled s p metadata s') : TrackerInv s' := by
  have hp := hsched.pass
  -- a scheduled request: what its tracker agrees on is what is left between the steps
  have hentry : ∀ x ∈ p.scheduled, ∀ r, s'.requests x.reqId = some r →
      (∀ r, s.requests x.reqId = some r → Trusted s r) →
      ∃ t, s'.connector.requestTrackers x.reqId = some t ∧ t.tokenIds <+: r.allTokenIds ∧
        t.tokenIds.length ≤ r.numComputedTokens ∧ t.allocatedBlockIds = s'.reqToBlocks x.reqId := by
    intro x hx r' hr' htrust
    obtain ⟨t, r, ht, hr, hpre, hlen, halloc⟩ := trackerAgrees_of_trusted hinv hsched hx htrust
    rw [hsched.requests, hr, Option.map_some, Option.some.injEq] at hr'
    subst hr'
    refine ⟨t, ht, ?_, ?_, ?_⟩
    · rwa [afterSchedule_allTokenIds]
    · rwa [afterSchedule_numComputedTokens (hp.entriesOf_eq hx)]
    · rwa [hsched.reqToBlocks]
  constructor
  · intro id hrun r' hr' htrust'
    rw [hsched.running] at hrun
    have hreq' := hr'
    rw [hsched.requests] at hreq'
    obtain ⟨r₁, hr₁, rfl⟩ := Option.map_eq_some_iff.1 hreq'
    have htrust : Trusted s r₁ := by
      rw [Trusted, hsched.config, afterSchedule_numPreemptions] at htrust'
      exact htrust'
    cases hp.fate id with
    | untouched hreq hblocks hrun₀ _ hentries =>
        rw [hreq] at hr₁
        obtain ⟨t, ht, hpre, hlen, halloc⟩ := hinv.agrees id (hrun₀.1 hrun) r₁ hr₁ htrust
        obtain ⟨hnew, hcached⟩ := notMem_output_of_nil hp hentries
        rw [afterSchedule_of_nil hentries, hsched.reqToBlocks, hblocks]
        refine ⟨t, ?_, hpre, hlen, halloc⟩
        cases hsched.built id with
        | other _ _ htracker =>
            have hfin : id ∉ p.output.finishedReqIds := by
              show id ∉ p.scheduler.finishedReqIds
              rw [hp.finishedReqIds]
              exact hs.running_unfinished id (hrun₀.1 hrun)
            rw [htracker, if_neg hfin, hp.connector.requestTrackers, ht]
        | new d hd hid => exact absurd (List.mem_map.2 ⟨d, hd, hid⟩) hnew
        | cached req hreq hid => exact absurd (List.mem_map.2 ⟨req, hreq, hid⟩) hcached
    | scheduled r x hr _ _ _ hreq _ hentries =>
        obtain ⟨hx, rfl⟩ := Pass.mem_scheduled_of_entriesOf hentries
        refine hentry x hx _ hr' fun r₀ hr₀ => ?_
        cases hr.symm.trans hr₀
        cases hreq.symm.trans hr₁
        exact htrust
    | preempted _ _ _ hrun' => exact absurd hrun hrun'
    | admitted r x hr _ _ _ hreq _ hentries =>
        obtain ⟨hx, rfl⟩ := Pass.mem_scheduled_of_entriesOf hentries
        refine hentry x hx _ hr' fun r₀ hr₀ => ?_
        cases hr.symm.trans hr₀
        cases hreq.symm.trans hr₁
        exact htrust
  · intro id r' hr' hstatus
    rw [hsched.requests] at hr'
    obtain ⟨r₁, hr₁, rfl⟩ := Option.map_eq_some_iff.1 hr'
    rw [afterSchedule_status] at hstatus
    rw [afterSchedule_numPreemptions]
    cases hp.fate id with
    | untouched hreq => exact hinv.preempted id r₁ (hreq ▸ hr₁) hstatus
    | scheduled r _ hr _ _ _ hreq =>
        cases hreq.symm.trans hr₁
        exact hinv.preempted id r hr hstatus
    | preempted r _ _ _ _ hreq =>
        cases hreq.symm.trans hr₁
        exact Nat.succ_pos _
    | admitted r _ _ _ _ _ hreq =>
        cases hreq.symm.trans hr₁
        cases hstatus

/-- The draft tokens of a pass are bounded after it. -/
theorem Scheduled.draftBound (hsched : Scheduled s p metadata s') : DraftBound (draftsOf p) s' := by
  intro id r' hr'
  rw [hsched.requests] at hr'
  obtain ⟨r₁, hr₁, rfl⟩ := Option.map_eq_some_iff.1 hr'
  cases hsched.pass.fate id with
  | untouched _ _ _ _ hentries => exact Or.inl (by rw [draftsOf, hentries]; rfl)
  | scheduled r x hr _ _ _ hreq _ hentries _ _ hspec =>
      cases hreq.symm.trans hr₁
      have hdrafts : draftsOf p id = x.specTokenIds := by
        rw [draftsOf, hentries]
        rfl
      rw [hdrafts, afterSchedule_numComputedTokens hentries]
      by_cases hnil : x.specTokenIds = []
      · exact Or.inl hnil
      · refine Or.inr ?_
        have hpos := List.length_pos_iff.2 hnil
        show (afterSchedule p id _).allTokenIds.length + _ ≤ _
        rw [afterSchedule_allTokenIds]
        show r.numTokens + x.specTokenIds.length ≤ r.numComputedTokens + x.numNewTokens
        omega
  | preempted _ _ _ _ _ _ _ hentries => exact Or.inl (by rw [draftsOf, hentries]; rfl)
  | admitted _ x _ _ _ _ _ _ hentries _ _ hspec =>
      refine Or.inl ?_
      rw [draftsOf, hentries]
      exact hspec

/-- Finishing requests keeps the bound on the draft tokens of the others. -/
theorem DraftBound.drops {drafts : String → List ℤ} (h : DraftBound drafts s) (hdrops : Drops s s') :
    DraftBound drafts s' := by
  intro id r hr
  rcases hdrops.dropped id with hkept | hgone
  · exact h id r (hkept.requests ▸ hr)
  · rw [hgone.requests] at hr
    cases hr

/-- Rejected draft tokens lie beyond the own tokens of a request, so that these stay computed. -/
theorem le_verifiedTokens {drafts : List ℤ} {r : Request} (generated : List ℤ)
    (h : drafts = [] ∨ r.numTokens + drafts.length ≤ r.numComputedTokens) {n : ℕ}
    (hn : n ≤ r.numTokens) (hn' : n ≤ r.numComputedTokens) : n ≤ verifiedTokens r drafts generated := by
  rcases h with rfl | h
  · rwa [verifiedTokens_nil]
  · rw [verifiedTokens]
    split
    · omega
    · exact hn'

/-- Changes besides scheduling keep the trackers right: tokens are only appended, and draft tokens that
are rejected were never among the tokens of a tracker. -/
theorem TrackerInv.quiet {drafts : String → List ℤ} (hinv : TrackerInv s)
    (hbound : DraftBound drafts s) (h : Quiet drafts s s') : TrackerInv s' := by
  constructor
  · intro id hrun r' hr' htrust
    rw [Trusted, h.config] at htrust
    rw [h.connector]
    cases h.change id with
    | same hkept =>
        rw [hkept.reqToBlocks]
        exact hinv.agrees id (hkept.running.1 hrun) r' (hkept.requests ▸ hr') htrust
    | added _ _ _ _ _ _ _ hrun' => exact absurd hrun hrun'
    | finished _ _ _ _ hrun' => exact absurd hrun hrun'
    | grown r r₁ generated hr hreq hprompt _ _ hnum houtput hcomputed hblocks hrun₀ =>
        cases hreq.symm.trans hr'
        rw [hnum] at htrust
        obtain ⟨t, ht, hpre, hlen, halloc⟩ := hinv.agrees id (hrun₀.1 hrun) r hr htrust
        have hall : r.allTokenIds <+: r'.allTokenIds := by
          rw [Request.allTokenIds, Request.allTokenIds, hprompt]
          exact (List.prefix_append_right_inj _).2 houtput
        refine ⟨t, ht, hpre.trans hall, ?_, halloc.trans hblocks.symm⟩
        rw [hcomputed]
        exact le_verifiedTokens generated (hbound id r hr) hpre.length_le hlen
  · intro id r' hr' hstatus'
    cases h.change id with
    | same hkept => exact hinv.preempted id r' (hkept.requests ▸ hr') hstatus'
    | added _ _ _ _ _ hreq =>
        cases hreq.symm.trans hr'
        cases hstatus'
    | finished _ _ hreq =>
        rw [hreq] at hr'
        cases hr'
    | grown r r₁ _ hr hreq _ _ hstatus hnum =>
        cases hreq.symm.trans hr'
        rw [hnum]
        exact hinv.preempted id r hr (hstatus.symm.trans hstatus')

theorem Step.trackerInv (hs : s.WellFormed) (hnamed : s.connector.Named) (hinv : TrackerInv s)
    (h : Step ops s s') : TrackerInv s' := by
  rcases h.cases hs hnamed with hquiet | ⟨p, metadata, s₁, s₂, -, hsched, hdrops, hquiet⟩
  · exact hinv.quiet (fun _ _ _ => Or.inl rfl) hquiet
  · have hinv₁ : TrackerInv s₁ := hsched.trackerInv hs hinv
    have hinv₂ : TrackerInv s₂ :=
      hinv₁.quiet (fun _ _ _ => Or.inl rfl) (hdrops.quiet fun _ => [])
    exact hinv₂.quiet (hsched.draftBound.drops hdrops) hquiet

theorem trackerInv_init (config : SchedulerConfig) (connector : SchedulerConnector) :
    TrackerInv (init config connector) := by
  constructor
  · intro id hrun
    cases hrun
  · intro id r hr
    cases hr

/-- **The trackers of running requests are right in every reachable state.** -/
theorem Reachable.trackerInv (h : Reachable ops s) : TrackerInv s := by
  obtain ⟨config, blockSize, kvRole, discard, skip, hrun⟩ := h
  -- the invariant and the well-formedness of the queues carry each other along the run
  induction hrun with
  | refl => exact trackerInv_init _ _
  | tail hrun hstep ih =>
      obtain ⟨hs, hnamed⟩ := Reachable.wellFormed ⟨config, blockSize, kvRole, discard, skip, hrun⟩
      exact hstep.trackerInv hs hnamed ih

/-- **In every run, the tracker of a scheduled request agrees with the scheduler** after the metadata of
the step was built, if the request has never been preempted or the second model runner is used. -/
theorem trackerAgrees_of_not_preempted (hreach : Reachable ops s)
    (h : s.schedule ops lookup = .ok (p, metadata, s')) (hx : x ∈ p.scheduled)
    (hcond : s.config.useV2ModelRunner = true ∨
      ∀ r, s.requests x.reqId = some r → r.numPreemptions = 0) : TrackerAgrees p s' x := by
  obtain ⟨hs, hnamed⟩ := hreach.wellFormed
  refine trackerAgrees_of_trusted hreach.trackerInv (schedule_spec hs hnamed h) hx fun r hr => ?_
  rcases hcond with hv2 | hzero
  · exact Or.inl hv2
  · exact Or.inr (hzero r hr)

/-- The theorem at a request of four tokens in its first step. -/
theorem trackerAgrees_of_not_preempted_new : ∃ s p metadata s' x, Reachable fiveBlocks s ∧
    s.schedule fiveBlocks (fun _ => .ok 0) = .ok (p, metadata, s') ∧ x ∈ p.scheduled ∧
    TrackerAgrees p s' x := by
  have hreach : Reachable fiveBlocks (smallScheduler.afterAdd "a" [1, 2, 3, 4]) :=
    ⟨_, _, _, _, _, ReflTransGen.single (step_afterAdd (by decide +kernel))⟩
  have heval : ((smallScheduler.afterAdd "a" [1, 2, 3, 4]).schedule fiveBlocks
      fun _ => .ok 0).map (fun r => r.1.scheduled) =
      .ok [⟨"a", .new, 0, 0, 4, [1, 2], []⟩] := by decide +kernel
  obtain ⟨⟨p, metadata, s'⟩, hsched, hscheduled⟩ := map_eq_ok.1 heval
  have hx : (⟨"a", .new, 0, 0, 4, [1, 2], []⟩ : ScheduledRequest) ∈ p.scheduled :=
    hscheduled ▸ List.mem_singleton.2 rfl
  refine ⟨_, p, metadata, s', _, hreach, hsched, hx,
    trackerAgrees_of_not_preempted hreach hsched hx (Or.inr ?_)⟩
  intro r hr
  have hr' : ((smallScheduler.afterAdd "a" [1, 2, 3, 4]).requests "a").map (·.numPreemptions) =
    some 0 := by decide +kernel
  rwa [hr, Option.map_some, Option.some.injEq] at hr'

/-- **The tracker of a resumed request keeps the blocks that were freed** when it was preempted, and the
new block table is appended to them. -/
theorem tracker_disagrees : ∃ s p metadata s' x, Reachable fiveBlocks s ∧
    s.schedule fiveBlocks (fun _ => .ok 4) = .ok (p, metadata, s') ∧ x ∈ p.scheduled ∧
    ¬ TrackerAgrees p s' x := by
  have heval : (afterPreemption.schedule fiveBlocks fun _ => .ok 4).map
      (fun r => (r.1.scheduled, r.1.scheduler.reqToBlocks "b",
        (r.2.2.connector.requestTrackers "b").map (·.allocatedBlockIds))) =
      .ok ([⟨"b", .resumed, 0, 4, 1, [3, 4, 1], []⟩], [3, 4, 1], some [3, 4, 3, 4, 1]) := by
    decide +kernel
  obtain ⟨⟨p, metadata, s'⟩, hsched, heq⟩ := map_eq_ok.1 heval
  simp only [Prod.mk.injEq] at heq
  obtain ⟨hscheduled, htable, htracker⟩ := heq
  refine ⟨_, p, metadata, s', _, reachable_afterPreemption, hsched,
    hscheduled ▸ List.mem_singleton.2 rfl, ?_⟩
  rintro ⟨t, r, ht, -, -, -, halloc⟩
  rw [ht, Option.map_some, Option.some.injEq, halloc, htable] at htracker
  exact absurd htracker (by decide)

end Scheduler

end InfiniKV
