/-
**The store is prefix-closed.**

What a request masks when it is saved was stored before: in an earlier step of the request itself, or
by another request, if a lookup of its prompt has found it.  The scheduler counts these tokens without
asking the worker whether they were stored.  It may: a token is counted as saved in the step that
saves it, and the one thing that keeps the worker from storing a chunk, that no file can be opened,
also keeps it from storing any chunk after that.

Main definitions:

* `InfiniKV.StoredUpTo` — the full chunks among the first tokens of a request are in the index;
* `InfiniKV.System.StoreInv` — what holds of the store, the load specs and the trackers between events.

Main results:

* `InfiniKV.Scheduler.fromTracker_stored` — what may be masked is in the index, and what is counted as
  saved is in the index or among the saves of the step;
* `InfiniKV.System.prefixClosed_of_run` — **in every run the store is prefix-closed**, so that a lookup
  hides no chunk that is stored.
-/

import InfiniKV.SameKeys
import InfiniKV.StaleSave
import InfiniKV.StoreChains

set_option relaxedAutoImplicit false
set_option autoImplicit false

namespace InfiniKV

open Relation Scheduler

/-! ### Tokens that are stored -/

/-- The full chunks among the first `k` tokens, rewritten by the hashes of multimodal items, are in the
index. -/
def StoredUpTo (e : InfiniKVEngine) (tokens : List ℤ) (mm : List (Str × PlaceholderRange)) (k : ℕ) :
    Prop :=
  k ≤ tokens.length ∧ ∀ Y, applyMmHashesToTokenIds (tokens.take k) mm = .ok Y →
    ∀ j, (j + 1) * e.tokenDatabase.chunkSize ≤ k →
      e.storageBackend.contains (e.tokenDatabase.keyAt Y j) = true

section StoredUpTo

variable {e e' : InfiniKVEngine} {tokens tokens' : List ℤ} {mm : List (Str × PlaceholderRange)} {k : ℕ}

theorem storedUpTo_zero (e : InfiniKVEngine) (tokens : List ℤ) (mm : List (Str × PlaceholderRange)) :
    StoredUpTo e tokens mm 0 := by
  refine ⟨Nat.zero_le _, fun Y _ j hj => ?_⟩
  have hpos : 0 < (j + 1) * e.tokenDatabase.chunkSize :=
    Nat.mul_pos (Nat.succ_pos j) e.tokenDatabase.chunkSize_pos
  omega

/-- More tokens do not matter. -/
theorem StoredUpTo.of_prefix (h : StoredUpTo e tokens mm k) (hpre : tokens <+: tokens') :
    StoredUpTo e tokens' mm k := by
  refine ⟨h.1.trans hpre.length_le, fun Y hY => h.2 Y ?_⟩
  rw [← hY, List.prefix_iff_eq_take.1 hpre, List.take_take, min_eq_left h.1]

theorem StoredUpTo.of_grows {fs : GeminiFSOps} {rs : List ReqMeta} (hgrows : Worker.Grows fs e e' rs)
    (h : StoredUpTo e tokens mm k) : StoredUpTo e' tokens mm k := by
  refine ⟨h.1, fun Y hY j hj => ?_⟩
  rw [hgrows.tokenDatabase] at hj ⊢
  exact hgrows.extend.contains (h.2 Y hY j hj)

/-- A full chunk keeps its key when the sequence is cut after it. -/
theorem keyAt_take_of_le (db : ChunkedTokenDatabase) {Z : List ℤ} {j n : ℕ}
    (hj : (j + 1) * db.chunkSize ≤ n) (hn : n ≤ Z.length) : db.keyAt (Z.take n) j = db.keyAt Z j := by
  refine db.keyAt_take (db.lt_numChunks_of_le (hj.trans hn)) ((Nat.min_le_left _ _).trans hj) ?_
  refine db.lt_numChunks_of_le ?_
  rw [List.length_take, min_eq_left hn]
  exact hj

/-- What is stored of the first `k` tokens is what is stored of any longer part. -/
theorem StoredUpTo.contains (h : StoredUpTo e tokens mm k) {n : ℕ} (hkn : k ≤ n)
    (hn : n ≤ tokens.length) {Y : List ℤ} (hY : applyMmHashesToTokenIds (tokens.take n) mm = .ok Y) {j : ℕ}
    (hj : (j + 1) * e.tokenDatabase.chunkSize ≤ k) :
    e.storageBackend.contains (e.tokenDatabase.keyAt Y j) = true := by
  have hlen : Y.length = n := by
    rw [length_applyMmHashesToTokenIds hY, List.length_take, min_eq_left hn]
  have hcut := applyMmHashesToTokenIds_take k hY
  rw [List.take_take, min_eq_left hkn] at hcut
  rw [← keyAt_take_of_le e.tokenDatabase hj (by omega)]
  exact h.2 _ hcut j hj

/-- **What a lookup of the prompt has found is stored.** -/
theorem storedUpTo_of_lookup {c : SchedulerConnector} {r : Request} {tokenIds : List ℤ} {hit : ℕ}
    (htokens : c.tokensToLookup r = .ok tokenIds) (hhit : e.lookup ⟨.tensor, tokenIds⟩ = .ok hit) :
    StoredUpTo e r.promptTokenIds (mmHashesOf r.mmFeatures) hit := by
  obtain ⟨Z, n, hZ, hn, rfl⟩ := SchedulerConnector.tokensToLookup_eq_ok htokens
  have hlen := length_applyMmHashesToTokenIds hZ
  rw [e.lookup_tensor, Except.ok.injEq, List.length_take, min_eq_left hn] at hhit
  refine ⟨by omega, fun Y hY j hj => ?_⟩
  have hcut := applyMmHashesToTokenIds_take hit hZ
  cases hcut.symm.trans hY
  have hrun : (j + 1) * e.tokenDatabase.chunkSize ≤
      e.storedRun (Z.take n) 0 * e.tokenDatabase.chunkSize := by omega
  have hlt : j < e.storedRun (Z.take n) 0 :=
    Nat.le_of_mul_le_mul_right hrun e.tokenDatabase.chunkSize_pos
  have hcontains := e.contains_of_lt_storedRun hlt
  rw [Nat.zero_add, keyAt_take_of_le e.tokenDatabase (by omega) hn] at hcontains
  rwa [keyAt_take_of_le e.tokenDatabase hj (by omega)]

end StoredUpTo

/-! ### Trackers -/

namespace Scheduler

variable {e : InfiniKVEngine} {c : SchedulerConnector} {r : Request} {t t' : RequestTracker}
  {l : Option LoadSpec} {m : Option ReqMeta}

/-- **What may be masked is in the index, and what is counted as saved is in the index or among the saves
of the step.** -/
theorem fromTracker_stored (hsize : c.blockSize = e.tokenDatabase.chunkSize) (htracked : r.Tracked t)
    (hstored : StoredUpTo e r.allTokenIds (mmHashesOf r.mmFeatures) t.numSavedTokens)
    (h : c.fromTracker t l = .ok (m, t')) :
    r.Tracked t' ∧ (∀ x ∈ m.toList, Worker.Masked e x) ∧
      (StoredUpTo e r.allTokenIds (mmHashesOf r.mmFeatures) t'.numSavedTokens ∨
        ∃ x ∈ m.toList, Worker.Saves x ∧ t'.numSavedTokens ≤ r.allTokenIds.length ∧
          applyMmHashesToTokenIds (r.allTokenIds.take t'.numSavedTokens) (mmHashesOf r.mmFeatures) =
            .ok x.tokenIds) := by
  rcases ReqMeta.fromRequestTracker_cases h with
    ⟨-, -, rfl, rfl⟩ | ⟨x, rfl, -, happly, -, hsave, -, rfl⟩
  · exact ⟨htracked, by simp, Or.inl hstored⟩
  · cases hskip : (c.forceSkipSave || ReqMeta.belowBoundary t c.infinikvChunkSize) with
    | true =>
        rw [if_pos rfl]
        refine ⟨htracked, ?_, Or.inl hstored⟩
        -- nothing is saved
        intro y hy s hs hcan
        cases Option.mem_toList.1 hy
        rw [hsave, hskip] at hs
        cases hs
        cases hcan
    | false =>
        rw [if_neg Bool.false_ne_true]
        have hpos : 0 < c.infinikvChunkSize := by
          show 0 < c.blockSize
          rw [hsize]
          exact e.tokenDatabase.chunkSize_pos
        have hlt := ReqMeta.lt_numTokensToSave hpos (Bool.or_eq_false_iff.1 hskip).2 c.discardPartialChunks
        have hle := ReqMeta.numTokensToSave_le t c.infinikvChunkSize c.discardPartialChunks
        generalize ReqMeta.numTokensToSave t c.infinikvChunkSize c.discardPartialChunks = n at *
        have hlen := htracked.tokenIds.length_le
        rw [htracked.mm, List.prefix_iff_eq_take.1 htracked.tokenIds, List.take_take,
          min_eq_left (by omega)] at happly
        have hxlen : x.tokenIds.length = n := by
          rw [length_applyMmHashesToTokenIds happly, List.length_take]
          omega
        refine ⟨⟨htracked.tokenIds, htracked.mm⟩, ?_, Or.inr ⟨x, by simp, ?_, by simp only; omega, happly⟩⟩
        · intro y hy s hs _ j _ hj
          cases Option.mem_toList.1 hy
          rw [hsave] at hs
          cases hs
          exact hstored.contains (by omega) (by omega) happly hj
        · refine ⟨_, hsave, by rw [hskip]; rfl, ?_⟩
          simp only
          omega

end Scheduler

/-! ### Requests keep their tokens in a pass -/

/-- Two states of a request with the same tokens and multimodal items. -/
structure Request.SameTokens (r r' : Request) : Prop where
  promptTokenIds : r'.promptTokenIds = r.promptTokenIds
  allTokenIds : r'.allTokenIds = r.allTokenIds
  mmFeatures : r'.mmFeatures = r.mmFeatures

theorem Request.Tracked.of_sameTokens {r r' : Request} {t : RequestTracker} (h : r.Tracked t)
    (hsame : r.SameTokens r') : r'.Tracked t := by
  refine ⟨?_, ?_⟩
  · rw [hsame.allTokenIds]
    exact h.tokenIds
  · rw [hsame.mmFeatures]
    exact h.mm

namespace Scheduler

variable {kv : KVCacheOps} {lookup : List ℤ → Except PyError ℕ} {s s' : Scheduler} {p : Pass}
  {metadata : InfiniKVConnectorMetadata} {id : String}

/-- A pass neither adds nor forgets requests, and leaves their tokens as they are. -/
theorem passInv_requests (hp : Pass.PassInv s p) (id : String) :
    (s.requests id = none ∧ p.scheduler.requests id = none) ∨
      ∃ r r', s.requests id = some r ∧ p.scheduler.requests id = some r' ∧ r.SameTokens r' := by
  cases hp.fate id with
  | untouched hreq =>
      cases hr : s.requests id with
      | none => exact Or.inl ⟨rfl, hreq.trans hr⟩
      | some r => exact Or.inr ⟨r, r, rfl, hreq.trans hr, rfl, rfl, rfl⟩
  | scheduled r _ hr _ _ _ hreq => exact Or.inr ⟨r, _, hr, hreq, rfl, rfl, rfl⟩
  | preempted r hr _ _ _ hreq => exact Or.inr ⟨r, _, hr, hreq, rfl, rfl, rfl⟩
  | admitted r _ hr _ _ _ hreq => exact Or.inr ⟨r, _, hr, hreq, rfl, rfl, rfl⟩

theorem afterSchedule_sameTokens (p : Pass) (id : String) (r : Request) :
    r.SameTokens (afterSchedule p id r) := by
  unfold afterSchedule
  split
  · exact ⟨rfl, rfl, rfl⟩
  · exact ⟨rfl, rfl, rfl⟩

/-- A request after a call of `schedule`, as it was in the pass and before it. -/
theorem Scheduled.request_of_some (hsched : Scheduled s p metadata s') {r' : Request}
    (h : s'.requests id = some r') : ∃ r r₁, s.requests id = some r ∧
      p.scheduler.requests id = some r₁ ∧ r.SameTokens r₁ ∧ r₁.SameTokens r' := by
  rw [hsched.requests] at h
  obtain ⟨r₁, hr₁, rfl⟩ := Option.map_eq_some_iff.1 h
  rcases passInv_requests hsched.pass id with ⟨-, hnone⟩ | ⟨r, r₂, hr, hr₂, hsame⟩
  · rw [hr₁] at hnone
    cases hnone
  · cases hr₁.symm.trans hr₂
    exact ⟨r, r₁, hr, hr₁, hsame, afterSchedule_sameTokens p id r₁⟩

theorem Scheduled.exists_request (hsched : Scheduled s p metadata s') {r : Request}
    (h : s.requests id = some r) : ∃ r₁ r', p.scheduler.requests id = some r₁ ∧
      s'.requests id = some r' ∧ r.SameTokens r₁ ∧ r₁.SameTokens r' := by
  rcases passInv_requests hsched.pass id with ⟨hnone, -⟩ | ⟨r₀, r₁, hr₀, hr₁, hsame⟩
  · rw [h] at hnone
    cases hnone
  · cases h.symm.trans hr₀
    refine ⟨r₁, afterSchedule p id r₁, hr₁, ?_, hsame, afterSchedule_sameTokens p id r₁⟩
    rw [hsched.requests, hr₁, Option.map_some]

end Scheduler

/-! ### Between events -/

namespace System

/-- **What holds of the store, the load specs and the trackers between events.** -/
structure StoreInv (fs : GeminiFSOps) (e : InfiniKVEngine) (history : History) (s : Scheduler) :
    Prop where
  blockSize : s.connector.blockSize = e.tokenDatabase.chunkSize
  chains : ∀ key, e.storageBackend.contains key = true → ∃ Y ∈ history.saved, e.EndsChain Y key
  known : ∀ id r, s.requests id = some r → id ∈ history.added
  loads : ∀ id l, s.connector.loadSpecs id = some l → id ∈ history.added ∧
    ∀ r, s.requests id = some r →
      StoredUpTo e r.promptTokenIds (mmHashesOf r.mmFeatures) l.externalCachedTokens
  trackers : e.storageBackend.Alive fs → ∀ id t, s.connector.requestTrackers id = some t →
    id ∉ s.finishedReqIds → ∃ r, s.requests id = some r ∧ r.Tracked t ∧
      StoredUpTo e r.allTokenIds (mmHashesOf r.mmFeatures) t.numSavedTokens

variable {kv : KVCacheOps} {fs : GeminiFSOps} {e e' : InfiniKVEngine} {history history' : History}
  {s s' : Scheduler} {p : Pass} {metadata : InfiniKVConnectorMetadata}

theorem allTokenIds_prefix {r r' : Request} (hprompt : r'.promptTokenIds = r.promptTokenIds)
    (houtput : r.outputTokenIds <+: r'.outputTokenIds) : r.allTokenIds <+: r'.allTokenIds := by
  rw [Request.allTokenIds, Request.allTokenIds, hprompt]
  exact (List.prefix_append_right_inj _).2 houtput

/-- Changes that leave the connector alone keep the invariant, if no id is used again. -/
theorem StoreInv.quiet {drafts : String → List ℤ} (hinv : StoreInv fs e history s)
    (hquiet : Quiet drafts s s') (hadded : history.added ⊆ history'.added)
    (hsaved : history'.saved = history.saved)
    (hnew : ∀ id, s.requests id = none →
      s'.requests id = none ∨ (id ∈ history'.added ∧ id ∉ history.added)) :
    StoreInv fs e history' s' := by
  refine ⟨?_, ?_, ?_, ?_, ?_⟩
  · rw [hquiet.connector]
    exact hinv.blockSize
  · rw [hsaved]
    exact hinv.chains
  · intro id r' hr'
    cases hr : s.requests id with
    | none =>
        rcases hnew id hr with hnone | ⟨hmem, -⟩
        · rw [hnone] at hr'
          cases hr'
        · exact hmem
    | some r => exact hadded (hinv.known id r hr)
  · intro id l hl
    rw [hquiet.connector] at hl
    obtain ⟨hmem, hstored⟩ := hinv.loads id l hl
    refine ⟨hadded hmem, fun r' hr' => ?_⟩
    cases hquiet.change id with
    | same hkept => exact hstored r' (hkept.requests ▸ hr')
    | added _ _ _ _ hnone =>
        -- the id of a load spec was used before
        rcases hnew id hnone with hnone' | ⟨-, hnotMem⟩
        · rw [hnone'] at hr'
          cases hr'
        · exact absurd hmem hnotMem
    | finished _ _ hnone =>
        rw [hnone] at hr'
        cases hr'
    | grown r r₁ _ hr hreq hprompt hmm =>
        cases hreq.symm.trans hr'
        rw [hprompt, hmm]
        exact hstored r hr
  · intro ha id t ht hfin
    rw [hquiet.connector] at ht
    cases hquiet.change id with
    | same hkept =>
        obtain ⟨r, hr, hrest⟩ := hinv.trackers ha id t ht fun h => hfin (hkept.finishedReqIds.2 h)
        exact ⟨r, hkept.requests.trans hr, hrest⟩
    | added _ _ _ _ hnone _ _ _ _ hiff =>
        obtain ⟨r, hr, -⟩ := hinv.trackers ha id t ht fun h => hfin (hiff.2 h)
        rw [hnone] at hr
        cases hr
    | finished _ _ _ _ _ _ hfin' => exact absurd hfin' hfin
    | grown r r' _ hr hreq hprompt hmm _ _ houtput _ _ _ _ hiff =>
        obtain ⟨r₀, hr₀, htracked, hstored⟩ := hinv.trackers ha id t ht fun h => hfin (hiff.2 h)
        cases hr.symm.trans hr₀
        have hpre := allTokenIds_prefix hprompt houtput
        refine ⟨r', hreq, ⟨htracked.tokenIds.trans hpre, ?_⟩, ?_⟩
        · rw [hmm]
          exact htracked.mm
        · rw [hmm]
          exact hstored.of_prefix hpre

/-! ### A call of `schedule` -/

/-- The load specs of a pass hold what is stored. -/
theorem StoreInv.loads_pass (hinv : StoreInv fs e history s)
    (hspecs : ∀ id l, p.scheduler.connector.loadSpecs id = some l →
      LoadSpecFrom s (fun tokenIds => e.lookup ⟨.tensor, tokenIds⟩) id l) (id : String) (l : LoadSpec)
    (hl : p.scheduler.connector.loadSpecs id = some l) : id ∈ history.added ∧
      ∀ r, s.requests id = some r →
        StoredUpTo e r.promptTokenIds (mmHashesOf r.mmFeatures) l.externalCachedTokens := by
  rcases hspecs id l hl with ⟨l₀, hl₀, heq⟩ | ⟨r, tokenIds, hr, htokens, hhit⟩
  · rw [heq]
    exact hinv.loads id l₀ hl₀
  · refine ⟨hinv.known id r hr, fun r' hr' => ?_⟩
    cases hr.symm.trans hr'
    exact storedUpTo_of_lookup htokens hhit

/-- The load specs that are left after the metadata was built. -/
theorem StoreInv.loads_scheduled (hinv : StoreInv fs e history s)
    (hspecs : ∀ id l, p.scheduler.connector.loadSpecs id = some l →
      LoadSpecFrom s (fun tokenIds => e.lookup ⟨.tensor, tokenIds⟩) id l)
    (hsched : Scheduled s p metadata s') (id : String) (l : LoadSpec)
    (hl : s'.connector.loadSpecs id = some l) : id ∈ history.added ∧
      ∀ r, s'.requests id = some r →
        StoredUpTo e r.promptTokenIds (mmHashesOf r.mmFeatures) l.externalCachedTokens := by
  have hl' : p.scheduler.connector.loadSpecs id = some l := by
    cases hsched.built id with
    | other _ _ _ hload => exact hload ▸ hl
    | new _ _ _ _ _ _ _ _ _ _ _ hload =>
        rw [hload] at hl
        cases hl
    | cached _ _ _ _ _ _ _ _ _ _ _ _ _ _ _ hload => exact hload ▸ hl
  obtain ⟨hmem, hstored⟩ := hinv.loads_pass hspecs id l hl'
  refine ⟨hmem, fun r' hr' => ?_⟩
  obtain ⟨r, r₁, hr, -, hsame, hsame'⟩ := hsched.request_of_some hr'
  rw [hsame'.promptTokenIds, hsame'.mmFeatures, hsame.promptTokenIds, hsame.mmFeatures]
  exact hstored r hr

/-- What is counted as saved for a request is in the index, or among the saves of the step. -/
def SavedOrSaving (e : InfiniKVEngine) (ms : List ReqMeta) (r : Request) (t : RequestTracker) : Prop :=
  StoredUpTo e r.allTokenIds (mmHashesOf r.mmFeatures) t.numSavedTokens ∨
    ∃ x ∈ ms, Worker.Saves x ∧ t.numSavedTokens ≤ r.allTokenIds.length ∧
      applyMmHashesToTokenIds (r.allTokenIds.take t.numSavedTokens) (mmHashesOf r.mmFeatures) =
        .ok x.tokenIds

theorem SavedOrSaving.of_sameTokens {ms ms' : List ReqMeta} {r r' : Request} {t : RequestTracker}
    (h : SavedOrSaving e ms r t) (hsub : ms ⊆ ms') (hsame : r.SameTokens r') :
    SavedOrSaving e ms' r' t := by
  rw [SavedOrSaving, hsame.allTokenIds, hsame.mmFeatures]
  rcases h with h | ⟨x, hx, hrest⟩
  · exact Or.inl h
  · exact Or.inr ⟨x, hsub hx, hrest⟩

/-- The tracker that is made for a new request follows it. -/
theorem tracked_fromNewRequest {x : ScheduledRequest} {r : Request} {n k : ℕ} {t : RequestTracker}
    (h : RequestTracker.fromNewRequest (Pass.newRequestData x r) n k = .ok t) :
    r.Tracked t ∧ t.numSavedTokens = k := by
  cases h
  refine ⟨⟨?_, ?_⟩, rfl⟩
  · exact (List.take_prefix _ _).trans (List.prefix_append _ _)
  · show ((mmHashesOf r.mmFeatures).map (·.1)).zip ((mmHashesOf r.mmFeatures).map (·.2)) = _
    rw [List.zip_map']
    simp

/-- A tracker that is advanced follows its request as before. -/
theorem tracked_advanceTracker {r : Request} {t : RequestTracker} (h : r.Tracked t) (n : ℕ)
    (blocks : Option (List (List ℕ))) :
    r.Tracked (SchedulerConnector.advanceTracker t r n blocks) := by
  refine ⟨?_, h.mm⟩
  rw [advanceTracker_tokenIds h.tokenIds]
  exact List.take_prefix _ _

/-- **What a call of `schedule` builds for a request**: nothing is masked that is not in the index, and
what is counted as saved is in the index or among the saves of the step. -/
theorem StoreInv.built (hinv : StoreInv fs e history s) (ha : e.storageBackend.Alive fs)
    (hspecs : ∀ id l, p.scheduler.connector.loadSpecs id = some l →
      LoadSpecFrom s (fun tokenIds => e.lookup ⟨.tensor, tokenIds⟩) id l)
    (hsched : Scheduled s p metadata s') (id : String) :
    (∀ m ∈ SchedulerConnector.metasOf id metadata.requests, Worker.Masked e m) ∧
      ∀ t, s'.connector.requestTrackers id = some t → ∃ r, s'.requests id = some r ∧ r.Tracked t ∧
        SavedOrSaving e metadata.requests r t := by
  have hsize : p.scheduler.connector.blockSize = e.tokenDatabase.chunkSize :=
    hsched.pass.connector.blockSize.trans hinv.blockSize
  have hfinished : p.output.finishedReqIds = s.finishedReqIds := hsched.pass.finishedReqIds
  have hsub : SchedulerConnector.metasOf id metadata.requests ⊆ metadata.requests :=
    List.filter_subset_self _
  -- what is built from a tracker that follows a request whose tokens are stored as far as it says
  have hfrom : ∀ r t l m t', p.scheduler.requests id = some r → r.Tracked t →
      StoredUpTo e r.allTokenIds (mmHashesOf r.mmFeatures) t.numSavedTokens →
      p.scheduler.connector.fromTracker t l = .ok (m, t') →
      SchedulerConnector.metasOf id metadata.requests = m.toList →
      s'.connector.requestTrackers id = some t' →
      (∀ m ∈ SchedulerConnector.metasOf id metadata.requests, Worker.Masked e m) ∧
        ∀ t, s'.connector.requestTrackers id = some t → ∃ r, s'.requests id = some r ∧ r.Tracked t ∧
          SavedOrSaving e metadata.requests r t := by
    intro r t l m t' hr htracked hstored hm hmetas htracker
    obtain ⟨htracked', hmasked, hsaved⟩ := fromTracker_stored hsize htracked hstored hm
    rw [← hmetas] at hmasked hsaved
    refine ⟨hmasked, fun t₁ ht₁ => ?_⟩
    cases htracker.symm.trans ht₁
    have hsame := afterSchedule_sameTokens p id r
    refine ⟨afterSchedule p id r, ?_, htracked'.of_sameTokens hsame,
      SavedOrSaving.of_sameTokens hsaved hsub hsame⟩
    rw [hsched.requests, hr, Option.map_some]
  cases hsched.built id with
  | other _ _ htracker _ hmetas =>
      rw [hmetas]
      refine ⟨by simp, fun t ht => ?_⟩
      rw [htracker, hsched.pass.connector.requestTrackers] at ht
      split at ht
      · cases ht
      · rename_i hfin
        rw [hfinished] at hfin
        obtain ⟨r, hr, htracked, hstored⟩ := hinv.trackers ha id t ht hfin
        obtain ⟨r₁, r', -, hr', hsame, hsame'⟩ := hsched.exists_request hr
        refine ⟨r', hr', (htracked.of_sameTokens hsame).of_sameTokens hsame', Or.inl ?_⟩
        rw [hsame'.allTokenIds, hsame'.mmFeatures, hsame.allTokenIds, hsame.mmFeatures]
        exact hstored
  | new d hd hid n _ t t' m ht hm htracker _ hmetas =>
      obtain ⟨x, -, hd'⟩ := List.mem_filterMap.1 hd
      obtain ⟨r, hr, rfl⟩ := Option.map_eq_some_iff.1 hd'
      change x.reqId = id at hid
      rw [hid] at hr
      obtain ⟨htracked, hnum⟩ := tracked_fromNewRequest ht
      refine hfrom r t _ m t' hr htracked ?_ hm hmetas htracker
      rw [hnum]
      cases hl : p.scheduler.connector.loadSpecs id with
      | none => exact storedUpTo_zero ..
      | some l =>
          rcases passInv_requests hsched.pass id with ⟨-, hnone⟩ | ⟨r₀, r₁, hr₀, hr₁, hsame⟩
          · rw [hr] at hnone
            cases hnone
          · cases hr.symm.trans hr₁
            have hstored := (hinv.loads_pass hspecs id l hl).2 r₀ hr₀
            rw [← hsame.promptTokenIds, ← hsame.mmFeatures] at hstored
            exact hstored.of_prefix (List.prefix_append _ _)
  | cached req _ _ n _ t t' r m hfin ht _ hr hm htracker _ hmetas =>
      rw [hsched.pass.connector.requestTrackers] at ht
      rw [hfinished] at hfin
      obtain ⟨r₀, hr₀, htracked, hstored⟩ := hinv.trackers ha id t ht hfin
      obtain ⟨r₁, r', hr₁, -, hsame, -⟩ := hsched.exists_request hr₀
      cases hr.symm.trans hr₁
      rw [← hsame.allTokenIds, ← hsame.mmFeatures] at hstored
      exact hfrom r _ _ m t' hr (tracked_advanceTracker (htracked.of_sameTokens hsame) n _) hstored hm
        hmetas htracker

/-! ### A step -/

/-- The saves of a step keep the invariant. -/
theorem StoreInv.step (hfull : fs.StaysFull) (hinv : StoreInv fs e history s) (hs : s.WellFormed)
    (hnamed : s.connector.Named)
    (hsched : s.schedule kv (fun tokenIds => e.lookup ⟨.tensor, tokenIds⟩) = .ok (p, metadata, s'))
    {requests : List ReqMeta} {tasks : List IOSpec}
    (hsave : Worker.saveRequests fs e.tokenDatabase.chunkSize e metadata.requests =
      .ok (requests, tasks, e')) (hadded : history'.added = history.added)
    (hsaved : history'.saved = history.saved ++ metadata.savedTokens) :
    StoreInv fs e' history' s' := by
  have hspec := schedule_spec hs hnamed hsched
  have hspecs := schedulePass_loadSpecs hs (schedulePass_of_schedule hsched)
  have hbuilt := fun ha id => hinv.built ha hspecs hspec id
  have hgrows : Worker.Grows fs e e' metadata.requests := by
    refine Worker.saveRequests_grows hfull (fun ha m hm => ?_) hsave
    exact (hbuilt ha m.reqId).1 m (List.mem_filter.2 ⟨hm, by simp⟩)
  refine ⟨?_, ?_, ?_, ?_, ?_⟩
  · rw [hgrows.tokenDatabase, ← hinv.blockSize, hspec.connector]
    exact hspec.pass.connector.blockSize
  · intro key hk
    rw [hsaved]
    rcases hgrows.chains key hk with hold | ⟨m, hm, hsaves, hends⟩
    · obtain ⟨Y, hY, hends⟩ := hinv.chains key hold
      exact ⟨Y, List.mem_append_left _ hY, hgrows.endsChain hends⟩
    · refine ⟨m.tokenIds, List.mem_append_right _ (List.mem_map_of_mem (List.mem_filter.2 ⟨hm, ?_⟩)),
        hends⟩
      obtain ⟨spec, hspec', hcan, -⟩ := hsaves
      simp [hspec', hcan]
  · intro id r' hr'
    obtain ⟨r, -, hr, -⟩ := hspec.request_of_some hr'
    rw [hadded]
    exact hinv.known id r hr
  · intro id l hl
    obtain ⟨hmem, hstored⟩ := hinv.loads_scheduled hspecs hspec id l hl
    rw [hadded]
    exact ⟨hmem, fun r hr => (hstored r hr).of_grows hgrows⟩
  · intro ha id t ht _
    obtain ⟨r, hr, htracked, hsaved'⟩ := (hbuilt (hgrows.alive ha) id).2 t ht
    refine ⟨r, hr, htracked, ?_⟩
    rcases hsaved' with hstored | ⟨x, hx, hsaves, hle, happly⟩
    · exact hstored.of_grows hgrows
    · -- the step has stored every chunk of what it saves
      refine ⟨hle, fun Y hY j hj => ?_⟩
      cases happly.symm.trans hY
      refine hgrows.saved ha x hx hsaves j (e'.tokenDatabase.lt_numChunks_of_le ?_)
      rw [length_applyMmHashesToTokenIds happly, List.length_take, min_eq_left hle]
      exact hj

/-! ### Runs -/

/-- An engine with the same index and the same number of attempts to open a file. -/
theorem grows_of_dict_eq (hdict : e'.storageBackend.dict = e.storageBackend.dict)
    (hopen : e'.storageBackend.openCalls = e.storageBackend.openCalls)
    (hdb : e'.tokenDatabase = e.tokenDatabase) : Worker.Grows fs e e' [] := by
  refine ⟨?_, hdb, ?_, ?_, by simp⟩
  · intro key f hf
    rw [GeminiFSBackend.get, hdict]
    exact hf
  · intro ha
    exact ha.of_le (Nat.le_of_eq hopen.symm)
  · intro key hk
    rw [GeminiFSBackend.contains, hdict] at hk
    exact Or.inl hk

theorem StoreInv.of_grows (hinv : StoreInv fs e history s) (hgrows : Worker.Grows fs e e' []) :
    StoreInv fs e' history s := by
  refine ⟨?_, ?_, hinv.known, ?_, ?_⟩
  · rw [hgrows.tokenDatabase]
    exact hinv.blockSize
  · intro key hk
    rcases hgrows.chains key hk with hold | ⟨r, hr, -⟩
    · obtain ⟨Y, hY, hends⟩ := hinv.chains key hold
      exact ⟨Y, hY, hgrows.endsChain hends⟩
    · cases hr
  · intro id l hl
    obtain ⟨hmem, hstored⟩ := hinv.loads id l hl
    exact ⟨hmem, fun r hr => (hstored r hr).of_grows hgrows⟩
  · intro ha id t ht hfin
    obtain ⟨r, hr, htracked, hstored⟩ := hinv.trackers (hgrows.alive ha) id t ht hfin
    exact ⟨r, hr, htracked, hstored.of_grows hgrows⟩

/-- The invariant of a system: that of its store, and the connector uses the chunks of the engine. -/
structure RunInv (fs : GeminiFSOps) (sys : System) : Prop where
  chunkSize : sys.worker.infinikvChunkSize = sys.worker.infinikvEngine.tokenDatabase.chunkSize
  store : StoreInv fs sys.worker.infinikvEngine sys.history sys.scheduler

variable {sys sys' : System} {setup : Setup}

/-- An event keeps the invariant, if it does not use the id of an earlier request. -/
theorem RunInv.apply (hfull : fs.StaysFull) (hreach : Reachable kv sys.scheduler)
    (hinv : RunInv fs sys) {event : Event} (h : sys.apply kv fs event = .ok sys')
    (hids : sys'.history.added.Nodup) : RunInv fs sys' := by
  obtain ⟨hs, hnamed⟩ := hreach.wellFormed
  rcases apply_cases hs hnamed h with ⟨hquiet, hworker, ids, hhistory, hnew⟩ |
    ⟨outcome, aborted, modelOutput, -, p, metadata, metadata', s₁, s₂, w, hstep⟩
  · have hadded : sys'.history.added = sys.history.added ++ ids := by rw [hhistory]
    refine ⟨by rw [hworker]; exact hinv.chunkSize, ?_⟩
    rw [hworker]
    refine hinv.store.quiet hquiet ?_ (by rw [hhistory]) fun id hnone => ?_
    · rw [hadded]
      exact List.subset_append_left _ _
    · rcases hnew id hnone with hnone' | hmem
      · exact Or.inl hnone'
      · rw [hadded] at hids ⊢
        refine Or.inr ⟨List.mem_append_right _ hmem, fun hold => ?_⟩
        exact (List.nodup_append.1 hids).2.2 id hold id hmem rfl
  · have hadded : sys'.history.added = sys.history.added := by rw [hstep.history]; rfl
    have hsaved : sys'.history.saved = sys.history.saved ++ metadata.savedTokens := by
      rw [hstep.history]
      rfl
    obtain ⟨requests, tasks, engine, reads, hsave, -, hcases⟩ :=
      Worker.startLoadKv_cases hstep.startLoadKv
    obtain ⟨hdb, hsize, -⟩ := Worker.startLoadKv_frame hstep.startLoadKv
    rw [hinv.chunkSize] at hsave
    have hw : w.infinikvEngine = engine.withReads reads := by
      rcases hcases with ⟨-, rfl, -⟩ | ⟨q', -, -, rfl, -⟩
      · rfl
      · rfl
    constructor
    · rw [hstep.layers.infinikvChunkSize, hsize, hstep.layers.tokenDatabase, hdb, hinv.chunkSize]
    · -- the pass and the saves, the layers, the aborts and the update
      have hinv₁ := hinv.store.step hfull hs hnamed hstep.schedule hsave hadded hsaved
      have hinv₂ : StoreInv fs sys'.worker.infinikvEngine sys'.history s₁ := by
        refine hinv₁.of_grows (grows_of_dict_eq ?_ ?_ ?_)
        · rw [hstep.layers.dict, hw]
          rfl
        · rw [hstep.layers.openCalls, hw]
          rfl
        · rw [hstep.layers.tokenDatabase, hw]
          rfl
      have hinv₃ : StoreInv fs sys'.worker.infinikvEngine sys'.history s₂ := by
        refine hinv₂.quiet (hstep.drops.quiet fun _ => []) (List.Subset.refl _) rfl fun id hnone => ?_
        rcases hstep.drops.dropped id with hkept | hgone
        · exact Or.inl (hkept.requests.trans hnone)
        · exact Or.inl hgone.requests
      exact hinv₃.quiet hstep.quiet (List.Subset.refl _) rfl
        fun id hnone => Or.inl (hstep.unknown id hnone)

theorem runInv_init (hsize : setup.engineConfig.chunkSize = setup.blockSize) :
    RunInv fs (init setup) := by
  refine ⟨hsize.symm, hsize.symm, ?_, ?_, ?_, ?_⟩
  · intro key hk
    rw [GeminiFSBackend.contains_iff] at hk
    exact absurd hk (AList.notMem_empty key)
  · intro id r hr
    cases hr
  · intro id l hl
    cases hl
  · intro _ id t ht
    cases ht

theorem Run.runInv (hrun : Run kv fs setup sys)
    (hsize : setup.engineConfig.chunkSize = setup.blockSize) (hfull : fs.StaysFull)
    (hids : sys.history.added.Nodup) : RunInv fs sys := by
  induction hrun with
  | refl => exact runInv_init hsize
  | @tail sys sys' hrun hstep ih =>
      obtain ⟨event, hevent⟩ := hstep
      have hreach : Reachable kv sys.scheduler := Run.scheduler hrun
      obtain ⟨hs, hnamed⟩ := hreach.wellFormed
      -- the ids that were used before are pairwise distinct as well
      have hids₀ := hids.sublist (added_isPrefix hs hnamed hevent).sublist
      exact (ih hids₀).apply hfull hreach hevent hids

/-- **In every run the store is prefix-closed**, if chunks are blocks, no request uses the id of another
one, and no file can be opened once that has failed: when the key of a chunk of a token sequence is in
the index, so are the keys of the chunks before it, and a lookup of the sequence reaches beyond it.
The hash function must not collide between the messages of the sequence and those of the sequences
that were saved, and where partial chunks are saved, first chunks are told from later ones by the
range of token ids. -/
theorem prefixClosed_of_run (hrun : Run kv fs setup sys)
    (hsize : setup.engineConfig.chunkSize = setup.blockSize) (hfull : fs.StaysFull)
    (hids : sys.history.added.Nodup) (X : List ℤ)
    (hfree : ∀ Y ∈ sys.history.saved, HashChain.CollisionFree Sha256.sha256
      (sys.worker.infinikvEngine.tokenDatabase.messagesOf X)
      (sys.worker.infinikvEngine.tokenDatabase.messagesOf Y))
    (hrange : sys.worker.infinikvEngine.tokenDatabase.saveUnfullChunk = false ∨
      (∀ x ∈ X, TokenId x) ∧ ∀ Y ∈ sys.history.saved, ∀ y ∈ Y, TokenId y) :
    ∀ i < sys.worker.infinikvEngine.tokenDatabase.numChunks X,
      sys.worker.infinikvEngine.storageBackend.contains
        (sys.worker.infinikvEngine.tokenDatabase.keyAt X i) = true →
      (∀ j ≤ i, sys.worker.infinikvEngine.storageBackend.contains
        (sys.worker.infinikvEngine.tokenDatabase.keyAt X j) = true) ∧
      ∃ n, sys.worker.infinikvEngine.lookup ⟨.tensor, X⟩ = .ok n ∧
        min ((i + 1) * sys.worker.infinikvEngine.tokenDatabase.chunkSize) X.length ≤ n := by
  intro i hi hcontains
  obtain ⟨-, hinv⟩ := hrun.runInv hsize hfull hids
  generalize sys.worker.infinikvEngine = e at *
  obtain ⟨Y, hY, i', hi', hkey, hbefore⟩ := hinv.chains _ hcontains
  have hsep : e.tokenDatabase.Separated X Y := by
    rcases hrange with hunfull | ⟨hX, hsaved⟩
    · exact e.tokenDatabase.separated_of_full hunfull X Y
    · exact e.tokenDatabase.separated_of_tokenId hX (hsaved Y hY)
  have hdigest : e.tokenDatabase.digestAt X i = e.tokenDatabase.digestAt Y i' := by
    simpa [ChunkedTokenDatabase.keyAt, ChunkedTokenDatabase.makeKeyByHash] using hkey
  obtain ⟨rfl, hdigests⟩ := e.tokenDatabase.digestAt_eq_of_le hsep (hfree Y hY) hi hi' hdigest
  have hclosed : ∀ j ≤ i, e.storageBackend.contains (e.tokenDatabase.keyAt X j) = true := by
    intro j hj
    rw [ChunkedTokenDatabase.keyAt, hdigests j hj]
    exact hbefore j hj
  refine ⟨hclosed, _, e.lookup_tensor X, ?_⟩
  -- the run of stored chunks does not end before chunk `i`
  have hrun : i < e.storedRun X 0 := by
    by_contra hge
    have hmissing := e.not_contains_storedRun (X := X) (k := 0) (by omega)
    rw [Nat.zero_add, hclosed _ (by omega)] at hmissing
    cases hmissing
  have hmul : (i + 1) * e.tokenDatabase.chunkSize ≤ e.storedRun X 0 * e.tokenDatabase.chunkSize :=
    Nat.mul_le_mul_right _ hrun
  omega

/-- The theorem at a request of two chunks, after the step that saves it. -/
theorem prefixClosed_of_run_two_chunks : ∃ sys, Run fiveBlocks newFiles (smallSetup true) sys ∧
    sys.worker.infinikvEngine.storageBackend.contains
      (sys.worker.infinikvEngine.tokenDatabase.keyAt [1, 2, 3, 4] 0) = true := by
  let sys₁ := after fiveBlocks newFiles (init (smallSetup true)) (.add "a" [1, 2, 3, 4] [] 0 0)
  let sys₂ := after fiveBlocks newFiles sys₁ (.step (0, none) [] (oneTokenEach false))
  have hrun : Run fiveBlocks newFiles (smallSetup true) sys₂ :=
    (ReflTransGen.single ⟨_, apply_after (by decide +kernel)⟩).tail
      ⟨_, apply_after (by decide +kernel)⟩
  have hsaved : sys₂.history.saved = [[1, 2, 3, 4]] := by decide +kernel
  have hadded : sys₂.history.added = ["a"] := by decide +kernel
  refine ⟨sys₂, hrun, (prefixClosed_of_run hrun rfl ?_ ?_ [1, 2, 3, 4] ?_ (Or.inl ?_) 1 ?_ ?_).1 0
    (Nat.zero_le 1)⟩
  · intro m n _ hnone
    cases hnone
  · rw [hadded]
    exact List.nodup_singleton _
  · rw [hsaved]
    intro Y hY
    cases List.mem_singleton.1 hY
    unfold HashChain.CollisionFree
    decide +kernel
  · decide +kernel
  · decide +kernel
  · decide +kernel

end System

end InfiniKV
