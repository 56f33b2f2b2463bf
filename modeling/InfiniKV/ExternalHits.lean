/-
**Which external hits are loaded.**

When the scheduler takes a request out of the waiting queue it counts as computed the tokens found
locally and the tokens that the connector reported.  The worker loads the latter only if the metadata
of the step has an entry for the request with its load spec.  `build_connector_meta` takes load specs
for new requests only, and a request that was preempted before is handed over as a cached one, unless
the second model runner is used.

Main definitions:

* `InfiniKV.Scheduler.LoadedOnce` — exactly one entry of the metadata has a load spec that covers the
  tokens reported for a request.

Main results:

* `InfiniKV.Scheduler.loadedOnce_iff` — **in every run, a reported hit is loaded exactly when** the
  request was not preempted before, or the second model runner is used;
* `InfiniKV.Scheduler.hit_not_loaded` — a hit of a resumed request that is not loaded.
-/

import InfiniKV.ScheduleStep

set_option relaxedAutoImplicit false
set_option autoImplicit false

namespace InfiniKV

open Relation SchedulerConnector

namespace Scheduler

/-- An entry of the metadata covers the tokens reported for a request: it is an entry of the request
with a load spec that may be used and that reaches from the local hit, or from before it, to the end of
the tokens counted as computed. -/
def Covers (x : ScheduledRequest) (m : ReqMeta) : Bool :=
  decide (m.reqId = x.reqId) && match m.loadSpec with
    | none => false
    | some l => l.canLoad && decide (l.vllmCachedTokens ≤ x.numLocalComputedTokens) &&
        decide (x.numLocalComputedTokens + x.numExternalComputedTokens ≤ l.externalCachedTokens)

/-- **Exactly one entry of the metadata covers the tokens reported for a request.** -/
def LoadedOnce (metadata : InfiniKVConnectorMetadata) (x : ScheduledRequest) : Prop :=
  ∃ m, metadata.requests.filter (Covers x) = [m]

variable {ops : KVCacheOps} {lookup : List ℤ → Except PyError ℕ} {s s' : Scheduler} {p : Pass}
  {metadata : InfiniKVConnectorMetadata} {x : ScheduledRequest}

/-- Only the entries of the request can cover its tokens. -/
theorem filter_covers (x : ScheduledRequest) (metas : List ReqMeta) :
    metas.filter (Covers x) = (metasOf x.reqId metas).filter (Covers x) := by
  rw [metasOf, List.filter_filter]
  refine List.filter_congr fun m _ => ?_
  by_cases hm : m.reqId = x.reqId
  · simp [hm]
  · simp [Covers, hm]

/-- What a pass records for a request whose hit was reported: it was waiting, and its load spec says
what was reported. -/
theorem admitted_of_pos (hp : Pass.PassInv s p) (hx : x ∈ p.scheduled)
    (hn : 0 < x.numExternalComputedTokens) :
    ∃ r hit, s.requests x.reqId = some r ∧ Pass.kindOfStatus r.status = .ok x.kind ∧
      p.scheduler.connector.loadSpecs x.reqId =
        some ⟨x.numLocalComputedTokens, hit, true, none, none⟩ ∧
      x.numLocalComputedTokens + x.numExternalComputedTokens ≤ hit := by
  rcases hp.entry_cases hx with ⟨-, hext⟩ | ⟨r, hr, hkind, -, hload⟩
  · omega
  · obtain ⟨hit, hspec, hle⟩ := hload hn
    exact ⟨r, hit, hr, hkind, hspec, hle⟩

/-- A request that is handed over as a new one gets exactly one entry, with its load spec. -/
theorem loadedOnce_of_new (hsched : Scheduled s p metadata s') (hx : x ∈ p.newReqs) {hit : ℕ}
    (hspec : p.scheduler.connector.loadSpecs x.reqId =
      some ⟨x.numLocalComputedTokens, hit, true, none, none⟩)
    (hle : x.numLocalComputedTokens + x.numExternalComputedTokens ≤ hit) : LoadedOnce metadata x := by
  have hmem : x.reqId ∈ p.output.scheduledNewReqs.map (·.reqId) := by
    rw [hsched.pass.scheduledNewReqs_reqId]
    exact List.mem_map_of_mem hx
  cases hsched.built x.reqId with
  | other hnew => exact absurd hmem hnew
  | new d _ _ n _ t t' m _ hm _ _ hmetas =>
      rw [hspec] at hm
      rcases ReqMeta.fromRequestTracker_cases hm with ⟨-, hnone, -, -⟩ | ⟨m', rfl, hid, -, -, -, hl, -⟩
      · cases hnone
      · refine ⟨m', ?_⟩
        have hmid : m'.reqId = x.reqId := by
          have hm' : m' ∈ metasOf x.reqId metadata.requests := by
            rw [hmetas]
            exact List.mem_singleton.2 rfl
          simpa using (List.mem_filter.1 hm').2
        have hcovers : Covers x m' = true := by
          rw [Covers, hl]
          simp [Option.filter, hmid, hle]
        rw [filter_covers, hmetas]
        simp [hcovers]
  | cached req hreq hid =>
      have hmem' : x.reqId ∈ p.output.scheduledCachedReqs.map (·.reqId) := by
        rw [← hid]
        exact List.mem_map_of_mem hreq
      exact absurd rfl ((List.nodup_append.1 hsched.pass.output_nodup).2.2 _ hmem _ hmem')

/-- A request that is handed over as a cached one gets no load spec. -/
theorem not_loadedOnce_of_cached (hsched : Scheduled s p metadata s') (hx : x ∈ p.cachedReqs) :
    ¬ LoadedOnce metadata x := by
  rintro ⟨m₀, hm₀⟩
  rw [filter_covers] at hm₀
  have hmem : x.reqId ∈ p.output.scheduledCachedReqs.map (·.reqId) := by
    rw [Pass.scheduledCachedReqs_reqId]
    exact List.mem_map_of_mem hx
  cases hsched.built x.reqId with
  | other _ hcached => exact hcached hmem
  | new d hd hid =>
      have hmem' : x.reqId ∈ p.output.scheduledNewReqs.map (·.reqId) := by
        rw [← hid]
        exact List.mem_map_of_mem hd
      exact absurd rfl ((List.nodup_append.1 hsched.pass.output_nodup).2.2 _ hmem' _ hmem)
  | cached req _ _ n _ t t' r m _ _ _ _ hm _ _ hmetas =>
      rw [hmetas] at hm₀
      rcases ReqMeta.fromRequestTracker_cases hm with ⟨-, -, rfl, -⟩ | ⟨m', rfl, -, -, -, -, hl, -⟩
      · cases hm₀
      · have hcovers : Covers x m' = false := by
          rw [Covers, hl]
          simp
        simp [hcovers] at hm₀

/-- **In every run, a reported hit is loaded exactly when** the request was not preempted before, or the
second model runner is used: whenever a call of `schedule` counts `n > 0` reported tokens of a request
as computed, exactly one entry of the metadata built in the same call has a usable load spec that
covers them. -/
theorem loadedOnce_iff (hreach : Reachable ops s)
    (h : s.schedule ops lookup = .ok (p, metadata, s')) (hx : x ∈ p.scheduled)
    (hn : 0 < x.numExternalComputedTokens) :
    LoadedOnce metadata x ↔
      s.config.useV2ModelRunner = true ∨
        ∀ r, s.requests x.reqId = some r → r.status ≠ .preempted := by
  obtain ⟨hs, hnamed⟩ := hreach.wellFormed
  have hsched := schedule_spec hs hnamed h
  obtain ⟨r, hit, hr, hkind, hspec, hle⟩ := admitted_of_pos hsched.pass hx hn
  have hconfig : p.scheduler.config = s.config := hsched.pass.config
  cases hstatus : r.status with
  | running =>
      rw [hstatus] at hkind
      cases hkind
  | waiting =>
      rw [hstatus, Pass.kindOfStatus, Except.ok.injEq] at hkind
      have hnew : x ∈ p.newReqs := Pass.mem_newReqs.2 ⟨hx, Or.inl hkind.symm⟩
      refine ⟨fun _ => Or.inr fun r' hr' => ?_, fun _ => loadedOnce_of_new hsched hnew hspec hle⟩
      cases hr.symm.trans hr'
      rw [hstatus]
      exact RequestStatus.noConfusion
  | preempted =>
      rw [hstatus, Pass.kindOfStatus, Except.ok.injEq] at hkind
      cases hv2 : s.config.useV2ModelRunner with
      | true =>
          have hnew : x ∈ p.newReqs :=
            Pass.mem_newReqs.2 ⟨hx, Or.inr ⟨hkind.symm, by rw [hconfig, hv2]⟩⟩
          exact ⟨fun _ => Or.inl rfl, fun _ => loadedOnce_of_new hsched hnew hspec hle⟩
      | false =>
          have hcached : x ∈ p.cachedReqs :=
            Pass.mem_cachedReqs.2 ⟨hx, Or.inr ⟨hkind.symm, by rw [hconfig, hv2]⟩⟩
          constructor
          · intro hloaded
            exact absurd hloaded (not_loadedOnce_of_cached hsched hcached)
          · rintro (h | h)
            · cases h
            · exact absurd hstatus (h r hr)

/-- The theorem at a new request of four tokens that are all stored: the last one is computed again. -/
theorem loadedOnce_iff_new : ∃ s p metadata s' x, Reachable fiveBlocks s ∧
    s.schedule fiveBlocks (fun _ => .ok 4) = .ok (p, metadata, s') ∧ x ∈ p.scheduled ∧
    0 < x.numExternalComputedTokens ∧ LoadedOnce metadata x := by
  have hreach : Reachable fiveBlocks (smallScheduler.afterAdd "a" [1, 2, 3, 4]) :=
    ⟨_, _, _, _, _, ReflTransGen.single (step_afterAdd (by decide +kernel))⟩
  have heval : ((smallScheduler.afterAdd "a" [1, 2, 3, 4]).schedule fiveBlocks
      fun _ => .ok 4).map (fun r => r.1.scheduled) =
      .ok [⟨"a", .new, 0, 3, 1, [1, 2], []⟩] := by decide +kernel
  obtain ⟨⟨p, metadata, s'⟩, hsched, hscheduled⟩ := map_eq_ok.1 heval
  have hx : (⟨"a", .new, 0, 3, 1, [1, 2], []⟩ : ScheduledRequest) ∈ p.scheduled :=
    hscheduled ▸ List.mem_singleton.2 rfl
  refine ⟨_, p, metadata, s', _, hreach, hsched, hx, by decide,
    (loadedOnce_iff hreach hsched hx (by decide)).2 (Or.inr ?_)⟩
  intro r hr
  have hr' : ((smallScheduler.afterAdd "a" [1, 2, 3, 4]).requests "a").map (·.status) =
    some .waiting := by decide +kernel
  rw [hr, Option.map_some, Option.some.injEq] at hr'
  rw [hr']
  exact RequestStatus.noConfusion

/-- **A hit that is not loaded**: the first two chunks of the preempted request are stored, its four
tokens are counted as computed when it is resumed, and no load spec reaches the worker. -/
theorem hit_not_loaded : ∃ s p metadata s' x, Reachable fiveBlocks s ∧
    s.schedule fiveBlocks (fun _ => .ok 4) = .ok (p, metadata, s') ∧ x ∈ p.scheduled ∧
    0 < x.numExternalComputedTokens ∧ ¬ LoadedOnce metadata x := by
  have heval : (afterPreemption.schedule fiveBlocks fun _ => .ok 4).map
      (fun r => (r.1.scheduled, r.2.1.requests.filter
        (Covers ⟨"b", .resumed, 0, 4, 1, [3, 4, 1], []⟩))) =
      .ok ([⟨"b", .resumed, 0, 4, 1, [3, 4, 1], []⟩], []) := by decide +kernel
  obtain ⟨⟨p, metadata, s'⟩, hsched, heq⟩ := map_eq_ok.1 heval
  obtain ⟨hscheduled, hnone⟩ := Prod.mk.inj heq
  refine ⟨_, p, metadata, s', _, reachable_afterPreemption, hsched,
    hscheduled ▸ List.mem_singleton.2 rfl, by decide, ?_⟩
  rintro ⟨m, hm⟩
  rw [hnone] at hm
  cases hm

end Scheduler

end InfiniKV
