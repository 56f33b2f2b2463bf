/-
**The scheduler side of the connector.**

The scheduler asks the connector for the tokens of a request that are stored outside, tells it when
blocks have been allocated for the request, and at the end of a step has it build the metadata for
the worker.  In between the connector remembers a load spec for each request it has reported tokens
of, and a tracker for each request it has built metadata for.

The request objects are shared between the scheduler and the connector.  A request is known by its
id, and `_requests_in_step`, which holds objects of the scheduler, is the set of their ids.

Main definitions:

* `InfiniKV.Request`, `InfiniKV.SchedulerOutput` — what the scheduler shares with the connector;
* `InfiniKV.SchedulerConnector` — the state of the scheduler side of `InfiniKVConnectorV1Impl`;
* `InfiniKV.SchedulerConnector.getNumNewMatchedTokens`, `updateStateAfterAlloc`,
  `buildConnectorMeta` — the source's functions.

Main results:

* `InfiniKV.SchedulerConnector.getNumNewMatchedTokens_cases` — what is reported, and the load spec
  that is remembered with it;
* `InfiniKV.SchedulerConnector.buildConnectorMeta_cases` — **the metadata of a step**: one tracker
  and at most one entry for each new and each cached request, in order.
-/

import InfiniKV.ConnectorMetadata

set_option relaxedAutoImplicit false
set_option autoImplicit false

namespace InfiniKV

/-! ### Requests -/

/-- A `dict` whose keys are strings. -/
abbrev Dict (α : Type) := String → Option α

/-- The status of a request that is not finished. -/
inductive RequestStatus where
  | waiting
  | running
  | preempted
  deriving DecidableEq

/-- A request of the scheduler. -/
structure Request where
  promptTokenIds : List ℤ
  outputTokenIds : List ℤ
  specTokenIds : List ℤ
  mmFeatures : List MultiModalFeatureSpec
  status : RequestStatus
  numComputedTokens : ℕ
  numPreemptions : ℕ
  isPrefillChunk : Bool
  priority : ℤ
  arrivalTime : ℤ
  deriving DecidableEq

namespace Request

variable (request : Request)

/-- `all_token_ids`. -/
def allTokenIds : List ℤ := request.promptTokenIds ++ request.outputTokenIds

/-- `num_tokens`. -/
def numTokens : ℕ := request.allTokenIds.length

/-- `num_tokens_with_spec`. -/
def numTokensWithSpec : ℕ := request.numTokens + request.specTokenIds.length

/-- `has_encoder_inputs`. -/
def hasEncoderInputs : Bool := !request.mmFeatures.isEmpty

end Request

/-! ### The output of the scheduler -/

/-- An entry of `CachedRequestData`: a request that was scheduled before, and the blocks allocated for
it in this step, if any. -/
structure CachedRequest where
  reqId : String
  newBlockIds : Option (List (List ℕ))
  deriving DecidableEq

/-- The output of the scheduler. -/
structure SchedulerOutput where
  scheduledNewReqs : List NewRequestData
  scheduledCachedReqs : List CachedRequest
  numScheduledTokens : List (String × ℕ)
  totalNumScheduledTokens : ℕ
  scheduledSpecDecodeTokens : List (String × List ℤ)
  finishedReqIds : List String
  deriving DecidableEq

/-! ### The connector -/

/-- The role of the instance in the transfer of KV caches. -/
inductive KVRole where
  | producer
  | consumer
  | both
  deriving DecidableEq

/-- The scheduler side of the connector. -/
structure SchedulerConnector where
  blockSize : ℕ
  kvRole : KVRole
  discardPartialChunks : Bool
  skipLastNTokens : ℕ
  loadSpecs : Dict LoadSpec
  requestTrackers : Dict RequestTracker
  requestsInStep : Finset String

namespace SchedulerConnector

/-- `InfiniKVConnectorV1Impl.__init__` on the scheduler. -/
def init (blockSize : ℕ) (kvRole : KVRole) (discardPartialChunks : Bool) (skipLastNTokens : ℕ) :
    SchedulerConnector where
  blockSize := blockSize
  kvRole := kvRole
  discardPartialChunks := discardPartialChunks
  skipLastNTokens := skipLastNTokens
  loadSpecs := fun _ => none
  requestTrackers := fun _ => none
  requestsInStep := ∅

variable (c : SchedulerConnector)

/-- `_infinikv_chunk_size`. -/
def infinikvChunkSize : ℕ := c.blockSize

/-- `load_specs[requestId] = loadSpec`, or `load_specs.pop(requestId)`. -/
def setLoadSpec (requestId : String) (loadSpec : Option LoadSpec) : SchedulerConnector :=
  { c with loadSpecs := Function.update c.loadSpecs requestId loadSpec }

/-- `_request_trackers[reqId] = tracker`. -/
def setTracker (reqId : String) (tracker : RequestTracker) : SchedulerConnector :=
  { c with requestTrackers := Function.update c.requestTrackers reqId (some tracker) }

@[simp] theorem loadSpecs_setLoadSpec (requestId : String) (l : Option LoadSpec) :
    (c.setLoadSpec requestId l).loadSpecs = Function.update c.loadSpecs requestId l := rfl

@[simp] theorem requestTrackers_setLoadSpec (requestId : String) (l : Option LoadSpec) :
    (c.setLoadSpec requestId l).requestTrackers = c.requestTrackers := rfl

@[simp] theorem loadSpecs_setTracker (reqId : String) (t : RequestTracker) :
    (c.setTracker reqId t).loadSpecs = c.loadSpecs := rfl

@[simp] theorem requestTrackers_setTracker (reqId : String) (t : RequestTracker) :
    (c.setTracker reqId t).requestTrackers = Function.update c.requestTrackers reqId (some t) := rfl

/-- The tokens that `get_num_new_matched_tokens` looks up. -/
def tokensToLookup (request : Request) : Except PyError (List ℤ) := do
  let tokenIds ← applyMmHashesToTokenIds request.promptTokenIds (mmHashesOf request.mmFeatures)
  .ok (if c.skipLastNTokens > 0 then tokenIds.take (tokenIds.length - c.skipLastNTokens) else tokenIds)

/-- **`get_num_new_matched_tokens`**.  Every lookup client supports the reuse of a producer's caches,
so the role of the instance makes no difference. -/
def getNumNewMatchedTokens (lookup : List ℤ → Except PyError ℕ) (requestId : String)
    (request : Request) (numComputedTokens : ℕ) : Except PyError (ℕ × SchedulerConnector) := do
  let tokenIds ← c.tokensToLookup request
  let numExternalHitTokens ← lookup tokenIds
  let needToAllocate : ℤ := numExternalHitTokens - numComputedTokens
  let needToAllocate := if numExternalHitTokens = request.numTokens then needToAllocate - 1
    else needToAllocate
  if needToAllocate ≤ 0 then .ok (0, c)
  else .ok (needToAllocate.toNat,
    c.setLoadSpec requestId (some ⟨numComputedTokens, numExternalHitTokens, false, none, none⟩))

/-- **`update_state_after_alloc`**. -/
def updateStateAfterAlloc (requestId : String) (request : Request) (numExternalTokens : ℕ) :
    Except PyError SchedulerConnector :=
  let c := { c with requestsInStep := insert requestId c.requestsInStep }
  match c.loadSpecs requestId with
  | none => .ok c
  | some loadSpec =>
      if numExternalTokens = 0 then
        .ok (c.setLoadSpec requestId (some { loadSpec with canLoad := false }))
      else if loadSpec.externalCachedTokens ≠ request.numTokens ∧
          ¬ (numExternalTokens : ℤ) = loadSpec.externalCachedTokens - loadSpec.vllmCachedTokens then
        .error (.assertionError s!"Mismatch in number of tokens: {numExternalTokens} vs {loadSpec.externalCachedTokens} - {loadSpec.vllmCachedTokens} for request {requestId}")
      else
        .ok (c.setLoadSpec requestId (some { loadSpec with canLoad := true }))

/-! ### The metadata of a step -/

/-- The value of `num_scheduled_tokens` at a request. -/
def scheduledTokensOf (output : SchedulerOutput) (reqId : String) : Except PyError ℕ :=
  match output.numScheduledTokens.lookup reqId with
  | none => .error .keyError
  | some numNewTokens => .ok numNewTokens

/-- `force_skip_save`. -/
def forceSkipSave : Bool := decide (c.kvRole = .consumer)

/-- `from_request_tracker`, as `build_connector_meta` calls it. -/
def fromTracker (tracker : RequestTracker) (loadSpec : Option LoadSpec) :
    Except PyError (Option ReqMeta × RequestTracker) :=
  ReqMeta.fromRequestTracker tracker c.blockSize c.infinikvChunkSize loadSpec c.forceSkipSave
    c.discardPartialChunks

/-- The metadata of a request, and the connector with the tracker that is left. -/
def reqMetaOf (reqId : String) (tracker : RequestTracker) (loadSpec : Option LoadSpec) :
    Except PyError (Option ReqMeta × SchedulerConnector) :=
  (c.fromTracker tracker loadSpec).map fun (reqMeta, tracker) => (reqMeta, c.setTracker reqId tracker)

/-- The tokens that a load spec counts as saved. -/
def externalCachedTokens (loadSpec : Option LoadSpec) : ℕ :=
  match loadSpec with
  | none => 0
  | some loadSpec => loadSpec.externalCachedTokens

/-- The body of the loop of `build_connector_meta` over the new requests. -/
def newRequestMeta (output : SchedulerOutput) (request : NewRequestData) :
    Except PyError (Option ReqMeta × SchedulerConnector) := do
  let loadSpec := c.loadSpecs request.reqId
  let c := c.setLoadSpec request.reqId none
  let numScheduledTokens ← scheduledTokensOf output request.reqId
  let numTokensToCompute := request.numComputedTokens + numScheduledTokens
  let tracker ← RequestTracker.fromNewRequest request numTokensToCompute (externalCachedTokens loadSpec)
  c.reqMetaOf request.reqId tracker loadSpec

/-- The tracker of a cached request, advanced by as many tokens of the request as are scheduled, from
its own length on. -/
def advanceTracker (tracker : RequestTracker) (request : Request) (numNewTokens : ℕ)
    (newBlockIds : Option (List (List ℕ))) : RequestTracker :=
  let numCurrentTokens := tracker.tokenIds.length
  let newTokenIds := (request.allTokenIds.drop numCurrentTokens).take numNewTokens
  tracker.update newTokenIds newBlockIds

/-- The body of the loop of `build_connector_meta` over the cached requests. -/
def cachedRequestMeta (requests : Dict Request) (output : SchedulerOutput) (req : CachedRequest) :
    Except PyError (Option ReqMeta × SchedulerConnector) :=
  match c.requestTrackers req.reqId with
  | none => .error .keyError
  | some tracker => do
      let numNewTokens ← scheduledTokensOf output req.reqId
      match if req.reqId ∈ c.requestsInStep then requests req.reqId else none with
      | none => .error (.valueError s!"Request {req.reqId} is not in _requests_in_step, but it is scheduled to be cached")
      | some request =>
          c.reqMetaOf req.reqId (advanceTracker tracker request numNewTokens req.newBlockIds) none

/-- A loop that may add an entry to the metadata in every round. -/
def addRequests {α : Type}
    (body : SchedulerConnector → α → Except PyError (Option ReqMeta × SchedulerConnector)) :
    SchedulerConnector → List α → Except PyError (List ReqMeta × SchedulerConnector)
  | c, [] => .ok ([], c)
  | c, a :: rest => do
      let (reqMeta, c) ← body c a
      let (reqMetas, c) ← addRequests body c rest
      .ok (reqMeta.toList ++ reqMetas, c)

/-- The connector without the requests that are finished. -/
def popFinished (finishedReqIds : List String) : SchedulerConnector :=
  { c with
    requestTrackers := fun reqId => if reqId ∈ finishedReqIds then none else c.requestTrackers reqId
    requestsInStep := c.requestsInStep.filter (· ∉ finishedReqIds) }

/-- The stage of a step: a prefill as soon as there is a new request, or more than one token is
scheduled for a cached one. -/
def stageOf (output : SchedulerOutput) : Stage :=
  if output.scheduledNewReqs ≠ [] ∨
      ∃ req ∈ output.scheduledCachedReqs, 1 < (output.numScheduledTokens.lookup req.reqId).getD 0 then
    .prefill else .decode

/-- **`build_connector_meta`**, where the requests are those of the scheduler. -/
def buildConnectorMeta (requests : Dict Request) (output : SchedulerOutput) :
    Except PyError (InfiniKVConnectorMetadata × SchedulerConnector) := do
  let c := c.popFinished output.finishedReqIds
  let (newMetas, c) ← addRequests (fun c => c.newRequestMeta output) c output.scheduledNewReqs
  let (cachedMetas, c) ← addRequests (fun c => c.cachedRequestMeta requests output) c
    output.scheduledCachedReqs
  .ok (⟨newMetas ++ cachedMetas, output.totalNumScheduledTokens, stageOf output, 0, none, none⟩, c)

/-! ### What is reported and remembered -/

variable {c}

/-- **What `get_num_new_matched_tokens` reports**: nothing, and then nothing changes; or the tokens from
the local hit up to the external one, less the last token when the whole request is stored, and then
the load spec of the request is replaced. -/
theorem getNumNewMatchedTokens_cases {lookup : List ℤ → Except PyError ℕ} {requestId : String}
    {request : Request} {k n : ℕ} {c' : SchedulerConnector}
    (h : c.getNumNewMatchedTokens lookup requestId request k = .ok (n, c')) :
    (n = 0 ∧ c' = c) ∨
      ∃ tokenIds hit, c.tokensToLookup request = .ok tokenIds ∧ lookup tokenIds = .ok hit ∧ 0 < n ∧
        k + n = (if hit = request.numTokens then hit - 1 else hit) ∧
        c' = c.setLoadSpec requestId (some ⟨k, hit, false, none, none⟩) := by
  obtain ⟨tokenIds, htokens, h⟩ := bind_eq_ok.1 h
  obtain ⟨hit, hhit, h⟩ := bind_eq_ok.1 h
  simp only at h
  by_cases hall : hit = request.numTokens
  · rw [if_pos hall] at h
    by_cases hneed : (hit : ℤ) - k - 1 ≤ 0
    · rw [if_pos hneed] at h
      cases h
      exact Or.inl ⟨rfl, rfl⟩
    · rw [if_neg hneed] at h
      cases h
      refine Or.inr ⟨tokenIds, hit, htokens, hhit, by omega, ?_, rfl⟩
      rw [if_pos hall]
      omega
  · rw [if_neg hall] at h
    by_cases hneed : (hit : ℤ) - k ≤ 0
    · rw [if_pos hneed] at h
      cases h
      exact Or.inl ⟨rfl, rfl⟩
    · rw [if_neg hneed] at h
      cases h
      refine Or.inr ⟨tokenIds, hit, htokens, hhit, by omega, ?_, rfl⟩
      rw [if_neg hall]
      omega

/-- **What `update_state_after_alloc` does**: the request is in the step, and its load spec, if there is
one, may be used when there are tokens to load. -/
theorem updateStateAfterAlloc_eq {requestId : String} {request : Request} {n : ℕ}
    {c' : SchedulerConnector} (h : c.updateStateAfterAlloc requestId request n = .ok c') :
    c' = ({ c with requestsInStep := insert requestId c.requestsInStep } :
      SchedulerConnector).setLoadSpec requestId
        ((c.loadSpecs requestId).map fun s => { s with canLoad := decide (n ≠ 0) }) := by
  rw [updateStateAfterAlloc] at h
  simp only at h
  cases hspec : c.loadSpecs requestId with
  | none =>
      rw [hspec] at h
      cases h
      rw [Option.map_none, setLoadSpec, ← hspec, Function.update_eq_self]
  | some loadSpec =>
      rw [hspec] at h
      simp only at h
      split at h
      · rename_i hn
        cases h
        simp [hn]
      · rename_i hn
        split at h
        · cases h
        · cases h
          simp [hn]

/-! ### Building the metadata -/

/-- The trackers carry the ids they are kept under. -/
def Named (c : SchedulerConnector) : Prop :=
  ∀ reqId t, c.requestTrackers reqId = some t → t.reqId = reqId

/-- What a round for request `reqId` may change: the load spec and the tracker of the request. -/
structure ChangesOnly (reqId : String) (c c' : SchedulerConnector) : Prop where
  frame : c' = { c with loadSpecs := c'.loadSpecs, requestTrackers := c'.requestTrackers }
  loadSpecs : ∀ id ≠ reqId, c'.loadSpecs id = c.loadSpecs id
  requestTrackers : ∀ id ≠ reqId, c'.requestTrackers id = c.requestTrackers id

/-- Two connectors that agree on request `id`. -/
structure SameAt (id : String) (c c' : SchedulerConnector) : Prop where
  frame : c' = { c with loadSpecs := c'.loadSpecs, requestTrackers := c'.requestTrackers }
  loadSpecs : c'.loadSpecs id = c.loadSpecs id
  requestTrackers : c'.requestTrackers id = c.requestTrackers id

theorem SameAt.refl (id : String) (c : SchedulerConnector) : SameAt id c c := ⟨rfl, rfl, rfl⟩

theorem SameAt.trans {id : String} {c₁ c₂ c₃ : SchedulerConnector} (h : SameAt id c₁ c₂)
    (h' : SameAt id c₂ c₃) : SameAt id c₁ c₃ := by
  refine ⟨?_, h'.loadSpecs.trans h.loadSpecs, h'.requestTrackers.trans h.requestTrackers⟩
  rw [h'.frame, h.frame]

theorem ChangesOnly.sameAt {reqId id : String} {c c' : SchedulerConnector}
    (h : ChangesOnly reqId c c') (hne : id ≠ reqId) : SameAt id c c' :=
  ⟨h.frame, h.loadSpecs id hne, h.requestTrackers id hne⟩

/-- The entries of the metadata that belong to request `id`. -/
def metasOf (id : String) (metas : List ReqMeta) : List ReqMeta := metas.filter (·.reqId = id)

@[simp] theorem metasOf_append (id : String) (ms ms' : List ReqMeta) :
    metasOf id (ms ++ ms') = metasOf id ms ++ metasOf id ms' := List.filter_append ..

theorem metasOf_eq_self {id : String} {ms : List ReqMeta} (h : ∀ m ∈ ms, m.reqId = id) :
    metasOf id ms = ms :=
  List.filter_eq_self.2 fun m hm => decide_eq_true (h m hm)

theorem metasOf_eq_nil {id : String} {ms : List ReqMeta} (h : ∀ m ∈ ms, m.reqId ≠ id) :
    metasOf id ms = [] :=
  List.filter_eq_nil_iff.2 fun m hm => by simpa using h m hm

/-- A round of one of the two loops: it keeps the trackers named, changes nothing of another request,
and an entry that it adds carries the id of the request. -/
def LocalBody {α : Type} (key : α → String)
    (body : SchedulerConnector → α → Except PyError (Option ReqMeta × SchedulerConnector)) : Prop :=
  ∀ c a m c', Named c → body c a = .ok (m, c') →
    Named c' ∧ ChangesOnly (key a) c c' ∧ ∀ x ∈ m.toList, x.reqId = key a

section Loop

variable {α : Type} {key : α → String}
  {body : SchedulerConnector → α → Except PyError (Option ReqMeta × SchedulerConnector)}
  {c c' : SchedulerConnector} {l : List α} {ms : List ReqMeta}

theorem addRequests_named (hbody : LocalBody key body) (hc : Named c)
    (h : addRequests body c l = .ok (ms, c')) : Named c' := by
  induction l generalizing c ms with
  | nil =>
      cases h
      exact hc
  | cons a l ih =>
      obtain ⟨⟨m, c₁⟩, h₁, h⟩ := bind_eq_ok.1 h
      obtain ⟨⟨ms', c₂⟩, h₂, h⟩ := bind_eq_ok.1 h
      cases h
      exact ih (hbody _ _ _ _ hc h₁).1 h₂

/-- The loop changes load specs and trackers only. -/
theorem addRequests_frame (hbody : LocalBody key body) (hc : Named c)
    (h : addRequests body c l = .ok (ms, c')) :
    c' = { c with loadSpecs := c'.loadSpecs, requestTrackers := c'.requestTrackers } := by
  induction l generalizing c ms with
  | nil =>
      cases h
      rfl
  | cons a l ih =>
      obtain ⟨⟨m, c₁⟩, h₁, h⟩ := bind_eq_ok.1 h
      obtain ⟨⟨ms', c₂⟩, h₂, h⟩ := bind_eq_ok.1 h
      cases h
      obtain ⟨hc₁, hchange, -⟩ := hbody _ _ _ _ hc h₁
      rw [ih hc₁ h₂, hchange.frame]

/-- A request that the loop does not run through is left alone. -/
theorem addRequests_of_notMem (hbody : LocalBody key body) (hc : Named c)
    (h : addRequests body c l = .ok (ms, c')) {id : String} (hid : id ∉ l.map key) :
    SameAt id c c' ∧ metasOf id ms = [] := by
  induction l generalizing c ms with
  | nil =>
      cases h
      exact ⟨.refl id _, rfl⟩
  | cons a l ih =>
      obtain ⟨⟨m, c₁⟩, h₁, h⟩ := bind_eq_ok.1 h
      obtain ⟨⟨ms', c₂⟩, h₂, h⟩ := bind_eq_ok.1 h
      cases h
      rw [List.map_cons, List.mem_cons, not_or] at hid
      obtain ⟨hc₁, hchange, hname⟩ := hbody _ _ _ _ hc h₁
      obtain ⟨hsame, hnil⟩ := ih hc₁ h₂ hid.2
      refine ⟨(hchange.sameAt hid.1).trans hsame, ?_⟩
      rw [metasOf_append, hnil, List.append_nil]
      exact metasOf_eq_nil fun x hx hx' => hid.1 ((hx'.symm.trans (hname x hx)))

/-- A request that the loop runs through once is changed by its own round only. -/
theorem addRequests_of_mem (hbody : LocalBody key body) (hc : Named c)
    (h : addRequests body c l = .ok (ms, c')) (hnodup : (l.map key).Nodup) {a : α} (ha : a ∈ l) :
    ∃ c₁ c₂ m, SameAt (key a) c c₁ ∧ body c₁ a = .ok (m, c₂) ∧ SameAt (key a) c₂ c' ∧
      metasOf (key a) ms = m.toList := by
  induction l generalizing c ms with
  | nil => cases ha
  | cons b l ih =>
      obtain ⟨⟨m, c₁⟩, h₁, h⟩ := bind_eq_ok.1 h
      obtain ⟨⟨ms', c₂⟩, h₂, h⟩ := bind_eq_ok.1 h
      cases h
      obtain ⟨hc₁, hchange, hname⟩ := hbody _ _ _ _ hc h₁
      rw [List.map_cons, List.nodup_cons] at hnodup
      rcases List.mem_cons.1 ha with rfl | ha
      · obtain ⟨hsame, hnil⟩ := addRequests_of_notMem hbody hc₁ h₂ hnodup.1
        refine ⟨c, c₁, m, .refl _ _, h₁, hsame, ?_⟩
        rw [metasOf_append, hnil, List.append_nil, metasOf_eq_self hname]
      · have hne : key a ≠ key b := fun heq => hnodup.1 (heq ▸ List.mem_map_of_mem ha)
        obtain ⟨c₃, c₄, m', hsame, hround, hsame', hmetas⟩ := ih hc₁ h₂ hnodup.2 ha
        refine ⟨c₃, c₄, m', (hchange.sameAt hne).trans hsame, hround, hsame', ?_⟩
        rw [metasOf_append, hmetas, metasOf_eq_nil, List.nil_append]
        exact fun x hx hx' => hne (hx'.symm.trans (hname x hx))

end Loop

theorem fromTracker_reqId {t t' : RequestTracker} {l : Option LoadSpec} {m : Option ReqMeta}
    (h : c.fromTracker t l = .ok (m, t')) : t'.reqId = t.reqId ∧ ∀ x ∈ m.toList, x.reqId = t.reqId := by
  rcases ReqMeta.fromRequestTracker_cases h with ⟨-, -, rfl, rfl⟩ | ⟨m', rfl, hid, -, -, -, -, rfl⟩
  · exact ⟨rfl, by simp⟩
  · refine ⟨?_, by simpa using hid⟩
    split
    · rfl
    · rfl

theorem fromNewRequest_reqId {d : NewRequestData} {n k : ℕ} {t : RequestTracker}
    (h : RequestTracker.fromNewRequest d n k = .ok t) : t.reqId = d.reqId := by
  rw [RequestTracker.fromNewRequest] at h
  split at h
  · cases h
  · cases h
    rfl

/-- A round for a new request: its load spec is taken, and it gets a tracker of its own. -/
theorem newRequestMeta_eq {output : SchedulerOutput} {d : NewRequestData} {m : Option ReqMeta}
    {c' : SchedulerConnector} (h : c.newRequestMeta output d = .ok (m, c')) :
    ∃ n t t', scheduledTokensOf output d.reqId = .ok n ∧
      RequestTracker.fromNewRequest d (d.numComputedTokens + n)
        (externalCachedTokens (c.loadSpecs d.reqId)) = .ok t ∧
      c.fromTracker t (c.loadSpecs d.reqId) = .ok (m, t') ∧
      c' = (c.setLoadSpec d.reqId none).setTracker d.reqId t' := by
  obtain ⟨n, hn, h⟩ := bind_eq_ok.1 h
  obtain ⟨t, ht, h⟩ := bind_eq_ok.1 h
  obtain ⟨⟨m', t'⟩, hm, h⟩ := map_eq_ok.1 h
  cases h
  exact ⟨n, t, t', hn, ht, hm, rfl⟩

/-- A round for a cached request: its tracker is advanced. -/
theorem cachedRequestMeta_eq {requests : Dict Request} {output : SchedulerOutput}
    {req : CachedRequest} {m : Option ReqMeta} {c' : SchedulerConnector}
    (h : c.cachedRequestMeta requests output req = .ok (m, c')) :
    ∃ t n r t', c.requestTrackers req.reqId = some t ∧ scheduledTokensOf output req.reqId = .ok n ∧
      req.reqId ∈ c.requestsInStep ∧ requests req.reqId = some r ∧
      c.fromTracker (advanceTracker t r n req.newBlockIds) none = .ok (m, t') ∧
      c' = c.setTracker req.reqId t' := by
  rw [cachedRequestMeta] at h
  split at h
  · cases h
  · rename_i t ht
    obtain ⟨n, hn, h⟩ := bind_eq_ok.1 h
    split at h
    · cases h
    · rename_i r hr
      obtain ⟨⟨m', t'⟩, hm, h⟩ := map_eq_ok.1 h
      cases h
      split at hr
      · rename_i hmem
        exact ⟨t, n, r, t', ht, hn, hmem, hr, hm, rfl⟩
      · cases hr

theorem changesOnly_setTracker (reqId : String) (t : RequestTracker) :
    ChangesOnly reqId c (c.setTracker reqId t) :=
  ⟨rfl, fun _ _ => rfl, fun _ hne => Function.update_of_ne hne _ _⟩

theorem changesOnly_setLoadSpec_setTracker (reqId : String) (l : Option LoadSpec)
    (t : RequestTracker) : ChangesOnly reqId c ((c.setLoadSpec reqId l).setTracker reqId t) :=
  ⟨rfl, fun _ hne => Function.update_of_ne hne _ _, fun _ hne => Function.update_of_ne hne _ _⟩

theorem named_setTracker (hc : Named c) {reqId : String} {t : RequestTracker} (ht : t.reqId = reqId) :
    Named (c.setTracker reqId t) := by
  intro id t' h
  by_cases hid : id = reqId
  · subst hid
    rw [requestTrackers_setTracker, Function.update_self] at h
    cases h
    exact ht
  · rw [requestTrackers_setTracker, Function.update_of_ne hid] at h
    exact hc id t' h

theorem localBody_newRequestMeta (output : SchedulerOutput) :
    LocalBody (·.reqId) (fun c => newRequestMeta c output) := by
  intro c d m c' hc h
  obtain ⟨n, t, t', -, ht, hm, rfl⟩ := newRequestMeta_eq h
  obtain ⟨ht', hmetas⟩ := fromTracker_reqId hm
  rw [fromNewRequest_reqId ht] at ht' hmetas
  have hc₁ : Named (c.setLoadSpec d.reqId none) := hc
  exact ⟨named_setTracker hc₁ ht', changesOnly_setLoadSpec_setTracker .., hmetas⟩

theorem localBody_cachedRequestMeta (requests : Dict Request) (output : SchedulerOutput) :
    LocalBody (·.reqId) (fun c => cachedRequestMeta c requests output) := by
  intro c req m c' hc h
  obtain ⟨t, n, r, t', ht, -, -, -, hm, rfl⟩ := cachedRequestMeta_eq h
  obtain ⟨ht', hmetas⟩ := fromTracker_reqId hm
  have hid : (advanceTracker t r n req.newBlockIds).reqId = req.reqId := hc _ t ht
  rw [hid] at ht' hmetas
  exact ⟨named_setTracker hc ht', changesOnly_setTracker .., hmetas⟩

/-- **What `build_connector_meta` does for a request**: nothing, when it is not scheduled; for a new
request the load spec is taken and a tracker is made; for a cached request the tracker is advanced
and no load spec is looked at. -/
inductive Built (c : SchedulerConnector) (requests : Dict Request) (output : SchedulerOutput)
    (metas : List ReqMeta) (c' : SchedulerConnector) (id : String) : Prop
  | other (hnew : id ∉ output.scheduledNewReqs.map (·.reqId))
      (hcached : id ∉ output.scheduledCachedReqs.map (·.reqId))
      (htracker : c'.requestTrackers id = if id ∈ output.finishedReqIds then none
        else c.requestTrackers id)
      (hload : c'.loadSpecs id = c.loadSpecs id) (hmetas : metasOf id metas = [])
  | new (d : NewRequestData) (hd : d ∈ output.scheduledNewReqs) (hid : d.reqId = id) (n : ℕ)
      (hn : scheduledTokensOf output id = .ok n) (t t' : RequestTracker) (m : Option ReqMeta)
      (ht : RequestTracker.fromNewRequest d (d.numComputedTokens + n)
        (externalCachedTokens (c.loadSpecs id)) = .ok t)
      (hm : c.fromTracker t (c.loadSpecs id) = .ok (m, t'))
      (htracker : c'.requestTrackers id = some t') (hload : c'.loadSpecs id = none)
      (hmetas : metasOf id metas = m.toList)
  | cached (req : CachedRequest) (hreq : req ∈ output.scheduledCachedReqs) (hid : req.reqId = id)
      (n : ℕ) (hn : scheduledTokensOf output id = .ok n) (t t' : RequestTracker) (r : Request)
      (m : Option ReqMeta) (hfin : id ∉ output.finishedReqIds) (ht : c.requestTrackers id = some t)
      (hin : id ∈ c.requestsInStep) (hr : requests id = some r)
      (hm : c.fromTracker (advanceTracker t r n req.newBlockIds) none = .ok (m, t'))
      (htracker : c'.requestTrackers id = some t') (hload : c'.loadSpecs id = c.loadSpecs id)
      (hmetas : metasOf id metas = m.toList)

theorem named_popFinished (hc : Named c) (finished : List String) : Named (c.popFinished finished) := by
  intro id t h
  simp only [popFinished] at h
  split at h
  · cases h
  · exact hc id t h

theorem SameAt.fromTracker {id : String} {c c' : SchedulerConnector} (h : SameAt id c c') :
    c'.fromTracker = c.fromTracker := by
  rw [h.frame]
  rfl

theorem SameAt.requestsInStep {id : String} {c c' : SchedulerConnector} (h : SameAt id c c') :
    c'.requestsInStep = c.requestsInStep := by
  rw [h.frame]

/-- **The metadata of a step**, request by request. -/
theorem buildConnectorMeta_cases {requests : Dict Request} {output : SchedulerOutput}
    {metadata : InfiniKVConnectorMetadata} {c' : SchedulerConnector} (hc : Named c)
    (hnodup : (output.scheduledNewReqs.map (·.reqId) ++
      output.scheduledCachedReqs.map (·.reqId)).Nodup)
    (h : c.buildConnectorMeta requests output = .ok (metadata, c')) (id : String) :
    Built c requests output metadata.requests c' id := by
  obtain ⟨⟨ms, c₁⟩, hnew, h⟩ := bind_eq_ok.1 h
  obtain ⟨⟨ms', c₂⟩, hcached, h⟩ := bind_eq_ok.1 h
  cases h
  have hc₀ := named_popFinished hc output.finishedReqIds
  have hc₁ := addRequests_named (localBody_newRequestMeta output) hc₀ hnew
  rw [List.nodup_append] at hnodup
  obtain ⟨hnd, hnd', hdisj⟩ := hnodup
  by_cases hidn : id ∈ output.scheduledNewReqs.map (·.reqId)
  · -- a new request: the second loop leaves it alone
    obtain ⟨d, hd, rfl⟩ := List.mem_map.1 hidn
    have hidc : d.reqId ∉ output.scheduledCachedReqs.map (·.reqId) := fun hmem =>
      hdisj _ hidn _ hmem rfl
    obtain ⟨c₃, c₄, m, hsame, hround, hsame', hmetas⟩ :=
      addRequests_of_mem (localBody_newRequestMeta output) hc₀ hnew hnd hd
    obtain ⟨hsame'', hnil⟩ :=
      addRequests_of_notMem (localBody_cachedRequestMeta requests output) hc₁ hcached hidc
    obtain ⟨n, t, t', hn, ht, hm, rfl⟩ := newRequestMeta_eq hround
    have hspec : c₃.loadSpecs d.reqId = c.loadSpecs d.reqId := hsame.loadSpecs
    rw [hspec] at ht hm
    rw [hsame.fromTracker] at hm
    refine .new d hd rfl n hn t t' m ht hm ?_ ?_ ?_
    · rw [hsame''.requestTrackers, hsame'.requestTrackers, requestTrackers_setTracker,
        Function.update_self]
    · rw [hsame''.loadSpecs, hsame'.loadSpecs, loadSpecs_setTracker, loadSpecs_setLoadSpec,
        Function.update_self]
    · show metasOf d.reqId (ms ++ ms') = m.toList
      rw [metasOf_append, hmetas, hnil, List.append_nil]
  · obtain ⟨hsame, hnil⟩ :=
      addRequests_of_notMem (localBody_newRequestMeta output) hc₀ hnew hidn
    by_cases hidc : id ∈ output.scheduledCachedReqs.map (·.reqId)
    · -- a cached request: the first loop leaves it alone
      obtain ⟨req, hreq, rfl⟩ := List.mem_map.1 hidc
      obtain ⟨c₃, c₄, m, hsame₁, hround, hsame₂, hmetas⟩ :=
        addRequests_of_mem (localBody_cachedRequestMeta requests output) hc₁ hcached hnd' hreq
      obtain ⟨t, n, r, t', ht, hn, hin, hr, hm, rfl⟩ := cachedRequestMeta_eq hround
      have hsame₀ := hsame.trans hsame₁
      rw [hsame₀.requestTrackers] at ht
      rw [hsame₀.requestsInStep] at hin
      rw [hsame₀.fromTracker] at hm
      simp only [popFinished] at ht
      split at ht
      · cases ht
      · rename_i hfin
        refine .cached req hreq rfl n hn t t' r m hfin ht (Finset.mem_filter.1 hin).1 hr hm ?_ ?_ ?_
        · rw [hsame₂.requestTrackers, requestTrackers_setTracker, Function.update_self]
        · rw [hsame₂.loadSpecs, loadSpecs_setTracker, hsame₀.loadSpecs]
          rfl
        · show metasOf req.reqId (ms ++ ms') = m.toList
          rw [metasOf_append, hmetas, hnil, List.nil_append]
    · obtain ⟨hsame', hnil'⟩ :=
        addRequests_of_notMem (localBody_cachedRequestMeta requests output) hc₁ hcached hidc
      refine .other hidn hidc ?_ ?_ ?_
      · rw [(hsame.trans hsame').requestTrackers]
        rfl
      · rw [(hsame.trans hsame').loadSpecs]
        rfl
      · show metasOf id (ms ++ ms') = []
        rw [metasOf_append, hnil, hnil', List.append_nil]

/-- Building the metadata keeps the trackers named, and the configuration. -/
theorem buildConnectorMeta_frame {requests : Dict Request} {output : SchedulerOutput}
    {metadata : InfiniKVConnectorMetadata} {c' : SchedulerConnector} (hc : Named c)
    (h : c.buildConnectorMeta requests output = .ok (metadata, c')) :
    Named c' ∧ c' = { c with
      loadSpecs := c'.loadSpecs
      requestTrackers := c'.requestTrackers
      requestsInStep := c.requestsInStep.filter (· ∉ output.finishedReqIds) } := by
  obtain ⟨⟨ms, c₁⟩, hnew, h⟩ := bind_eq_ok.1 h
  obtain ⟨⟨ms', c₂⟩, hcached, h⟩ := bind_eq_ok.1 h
  cases h
  have hc₀ := named_popFinished hc output.finishedReqIds
  have hc₁ := addRequests_named (localBody_newRequestMeta output) hc₀ hnew
  refine ⟨addRequests_named (localBody_cachedRequestMeta requests output) hc₁ hcached, ?_⟩
  have hframe := addRequests_frame (localBody_newRequestMeta output) hc₀ hnew
  have hframe' := addRequests_frame (localBody_cachedRequestMeta requests output) hc₁ hcached
  rw [hframe', hframe]
  rfl

end SchedulerConnector

end InfiniKV
