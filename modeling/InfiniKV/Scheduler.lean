/-
**The scheduler.**

A pass of `Scheduler.schedule` first runs through the running requests, preempting others when no
blocks can be allocated for one of them, and then, if none was preempted, through the waiting ones.
A waiting request is matched against the local cache and against the connector before blocks are
allocated for it; when that fails, the pass ends, and the request is matched again later.

The KV cache manager and the budget of encoder inputs are outside of the model: the outcome of each
call is given by an oracle, numbered in the order of the calls, and the block table of each request
is recorded.  There is one group of KV caches, of full attention, so a table only grows until it is
freed.  Requests have no LoRA adapter and no grammar, and are not streamed.

Main definitions:

* `InfiniKV.Scheduler` — the state of the scheduler, with its side of the connector;
* `InfiniKV.Pass` — the state of a pass, with the requests scheduled and preempted so far;
* `InfiniKV.Pass.runningLoop`, `InfiniKV.Pass.waitingLoop` — its two loops;
* `InfiniKV.Scheduler.schedule`, `updateFromOutput`, `addRequest`, `finishRequest`,
  `updateDraftTokenIds` — the source's functions;
* `InfiniKV.Scheduler.Step` — what may happen to the scheduler.
-/

import InfiniKV.SchedulerConnector
import Mathlib.Data.Prod.Lex
import Mathlib.Data.String.Basic

set_option relaxedAutoImplicit false
set_option autoImplicit false

namespace InfiniKV

/-- The outcomes of the calls that a pass makes, by the number of the call: the blocks of a locally
cached prefix and its tokens, the blocks allocated, if any, and the tokens that the budget of encoder
inputs allows for. -/
structure KVCacheOps where
  getComputedBlocks : ℕ → List ℕ × ℕ
  allocateSlots : ℕ → Option (List ℕ)
  tryScheduleEncoderInputs : ℕ → ℕ

/-- The order in which requests are scheduled. -/
inductive SchedulingPolicy where
  | fcfs
  | priority
  deriving DecidableEq

/-- Which requests are scheduled at all. -/
inductive PauseState where
  | unpaused
  | pausedNew
  | pausedAll
  deriving DecidableEq

/-- The configuration of the scheduler. -/
structure SchedulerConfig where
  maxNumScheduledTokens : ℕ
  maxNumRunningReqs : ℕ
  longPrefillTokenThreshold : ℕ
  enableChunkedPrefill : Bool
  maxModelLen : ℕ
  policy : SchedulingPolicy
  useV2ModelRunner : Bool
  deriving DecidableEq

/-- The scheduler.  Both queues hold ids of requests. -/
structure Scheduler where
  config : SchedulerConfig
  requests : Dict Request
  waiting : List String
  running : List String
  finishedReqIds : List String
  pauseState : PauseState
  reqToBlocks : String → List ℕ
  connector : SchedulerConnector
  calls : ℕ

/-- How a request comes to be scheduled. -/
inductive ScheduledKind where
  | new
  | resumed
  | running
  deriving DecidableEq

/-- A request scheduled in a pass: the tokens found for it locally and outside, if it was waiting, the
tokens to compute, the blocks that are handed to the worker, and its draft tokens. -/
structure ScheduledRequest where
  reqId : String
  kind : ScheduledKind
  numLocalComputedTokens : ℕ
  numExternalComputedTokens : ℕ
  numNewTokens : ℕ
  newBlocks : List ℕ
  specTokenIds : List ℤ
  deriving DecidableEq

/-- A pass of `schedule`. -/
structure Pass where
  scheduler : Scheduler
  tokenBudget : ℕ
  scheduled : List ScheduledRequest
  preempted : List String

/-- A request after it was preempted. -/
def Request.preempt (request : Request) : Request :=
  { request with
    status := .preempted
    numComputedTokens := 0
    specTokenIds := []
    numPreemptions := request.numPreemptions + 1 }

namespace Scheduler

/-- `Scheduler.__init__`. -/
def init (config : SchedulerConfig) (connector : SchedulerConnector) : Scheduler where
  config := config
  requests := fun _ => none
  waiting := []
  running := []
  finishedReqIds := []
  pauseState := .unpaused
  reqToBlocks := fun _ => []
  connector := connector
  calls := 0

variable (s : Scheduler)

/-- The state after one more call outside. -/
def count : Scheduler := { s with calls := s.calls + 1 }

/-- `requests[requestId] = request`. -/
def setRequest (requestId : String) (request : Request) : Scheduler :=
  { s with requests := Function.update s.requests requestId (some request) }

/-- The key that the policy `PRIORITY` orders requests by. -/
def priorityKey (requestId : String) : ℤ ×ₗ ℤ :=
  match s.requests requestId with
  | none => toLex (0, 0)
  | some request => toLex (request.priority, request.arrivalTime)

/-- `waiting.peek_request`. -/
def peekRequest : Option String :=
  match s.config.policy with
  | .fcfs => s.waiting.head?
  | .priority => s.waiting.minOn? fun requestId => toLex (s.priorityKey requestId, requestId)

/-- The request to preempt. -/
def preemptedReq : Option String :=
  match s.config.policy with
  | .fcfs => s.running.getLast?
  | .priority => s.running.maxOn? s.priorityKey

/-- `_preempt_request`: the blocks are freed, and the request waits in front of all others. -/
def preemptRequest (requestId : String) (request : Request) : Scheduler :=
  { s with
    reqToBlocks := Function.update s.reqToBlocks requestId []
    waiting := requestId :: s.waiting }.setRequest requestId request.preempt

end Scheduler

namespace Pass

variable (ops : KVCacheOps) (lookup : List ℤ → Except PyError ℕ) (p : Pass)

/-- The pass after one more call outside. -/
def count : Pass := { p with scheduler := p.scheduler.count }

/-- The number of tokens to compute for a running request, before encoder inputs are scheduled. -/
def numNewTokensOfRunning (request : Request) : ℕ :=
  let numNewTokens := request.numTokensWithSpec - request.numComputedTokens
  let threshold := p.scheduler.config.longPrefillTokenThreshold
  let numNewTokens := if 0 < threshold ∧ threshold < numNewTokens then threshold else numNewTokens
  let numNewTokens := min numNewTokens p.tokenBudget
  min numNewTokens (p.scheduler.config.maxModelLen - 1 - request.numComputedTokens)

/-- The number of tokens to compute after encoder inputs are scheduled. -/
def scheduleEncoderInputs (request : Request) (numNewTokens : ℕ) : ℕ × Pass :=
  if request.hasEncoderInputs then
    (min numNewTokens (ops.tryScheduleEncoderInputs p.scheduler.calls), p.count)
  else (numNewTokens, p)

/-! ### Running requests -/

/-- The running queue without the request that is preempted.  Under the policy `PRIORITY` the request
may have been scheduled before it in the pass; this is taken back, and the index of the loop with
it. -/
def removeRunning (requestId : String) (reqIndex : ℕ) : ℕ × Pass :=
  match p.scheduler.config.policy with
  | .fcfs => (reqIndex,
      { p with scheduler := { p.scheduler with running := p.scheduler.running.dropLast } })
  | .priority =>
      let scheduler := { p.scheduler with running := p.scheduler.running.erase requestId }
      let taken : List ScheduledRequest := p.scheduled.filter (·.reqId = requestId)
      if taken ≠ [] then
        (reqIndex - 1, { p with
          scheduler := scheduler
          scheduled := p.scheduled.filter (·.reqId ≠ requestId)
          tokenBudget := p.tokenBudget + (taken.map (·.numNewTokens)).sum })
      else (reqIndex, { p with scheduler := scheduler })

/-- A request is preempted. -/
def preempt (requestId : String) (reqIndex : ℕ) : Except PyError (ℕ × Pass) :=
  match p.scheduler.requests requestId with
  | none => .error .keyError
  | some request =>
      if request.status = .running then
        let (reqIndex, p) := p.removeRunning requestId reqIndex
        .ok (reqIndex, { p with
          scheduler := p.scheduler.preemptRequest requestId request
          preempted := p.preempted ++ [requestId] })
      else .error (.assertionError "Only running requests can be preempted")

/-- The loop that allocates blocks for a running request, preempting others, or in the end the request
itself, until there are enough.  The first argument is the number of running requests. -/
def allocateOrPreempt (requestId : String) : ℕ → ℕ → Pass →
    Except PyError (Option (List ℕ) × ℕ × Pass)
  | fuel, reqIndex, p =>
      match ops.allocateSlots p.scheduler.calls with
      | some newBlocks => .ok (some newBlocks, reqIndex, p.count)
      | none => match fuel, p.scheduler.preemptedReq with
          | fuel + 1, some victim => do
              let (reqIndex, p) ← p.count.preempt victim reqIndex
              if victim = requestId then .ok (none, reqIndex, p)
              else allocateOrPreempt requestId fuel reqIndex p
          | _, _ => .error .indexError

/-- The draft tokens scheduled with a running request. -/
def scheduledSpecTokens (request : Request) (numNewTokens : ℕ) : List ℤ :=
  request.specTokenIds.take (numNewTokens + request.numComputedTokens - request.numTokens)

/-- A running request is scheduled. -/
def scheduleRunning (requestId : String) (request : Request) (numNewTokens : ℕ)
    (newBlocks : List ℕ) : Pass :=
  { p with
    scheduler := { p.scheduler with
      reqToBlocks := Function.update p.scheduler.reqToBlocks requestId
        (p.scheduler.reqToBlocks requestId ++ newBlocks) }.setRequest requestId
          { request with specTokenIds := [] }
    tokenBudget := p.tokenBudget - numNewTokens
    scheduled := p.scheduled ++ [⟨requestId, .running, 0, 0, numNewTokens, newBlocks,
      scheduledSpecTokens request numNewTokens⟩] }

/-- **The loop over the running requests.**  The first argument is their number at its start. -/
def runningLoop : ℕ → ℕ → Pass → Except PyError Pass
  | 0, _, p => .ok p
  | fuel + 1, reqIndex, p =>
      if p.tokenBudget = 0 then .ok p
      else match p.scheduler.running[reqIndex]? with
        | none => .ok p
        | some requestId => match p.scheduler.requests requestId with
            | none => .error .keyError
            | some request =>
                let (numNewTokens, p) :=
                  p.scheduleEncoderInputs ops request (p.numNewTokensOfRunning request)
                if numNewTokens = 0 then runningLoop fuel (reqIndex + 1) p
                else do
                  let (newBlocks, reqIndex, p) ←
                    allocateOrPreempt ops requestId p.scheduler.running.length reqIndex p
                  match newBlocks with
                  | none => .ok p
                  | some newBlocks =>
                      let p := p.scheduleRunning requestId request numNewTokens newBlocks
                      runningLoop fuel (reqIndex + 1) p

/-! ### Waiting requests -/

/-- The tokens found for a waiting request, and the blocks of those found locally.  Only a request
without computed tokens is matched. -/
structure Matched where
  computedBlocks : List ℕ
  numLocalComputedTokens : ℕ
  numExternalComputedTokens : ℕ
  numComputedTokens : ℕ

/-- A waiting request is matched against the local cache and against the connector. -/
def matchTokens (requestId : String) (request : Request) : Except PyError (Matched × Pass) :=
  if request.numComputedTokens = 0 then do
    let (computedBlocks, numLocal) := ops.getComputedBlocks p.scheduler.calls
    let (numExternal, connector) ←
      p.scheduler.connector.getNumNewMatchedTokens lookup requestId request numLocal
    .ok (⟨computedBlocks, numLocal, numExternal, numLocal + numExternal⟩,
      { p with scheduler := { p.scheduler.count with connector := connector } })
  else .ok (⟨[], 0, 0, request.numComputedTokens⟩, p)

/-- The number of tokens to compute for a waiting request, before the budget is looked at. -/
def numNewTokensOfWaiting (request : Request) (numComputedTokens : ℕ) : ℕ :=
  let numNewTokens := request.numTokens - numComputedTokens
  let threshold := p.scheduler.config.longPrefillTokenThreshold
  if 0 < threshold ∧ threshold < numNewTokens then threshold else numNewTokens

/-- How a waiting request is scheduled, by its status. -/
def kindOfStatus : RequestStatus → Except PyError ScheduledKind
  | .waiting => .ok .new
  | .preempted => .ok .resumed
  | .running => .error (.runtimeError "Invalid request status: RUNNING")

/-- A waiting request is scheduled: the connector is told, the request moves to the running queue, and
its computed tokens are those found. -/
def admitWaiting (requestId : String) (request : Request) (found : Matched) (numNewTokens : ℕ)
    (newBlocks : List ℕ) : Except PyError Pass := do
  let connector ← p.scheduler.connector.updateStateAfterAlloc requestId request
    found.numExternalComputedTokens
  let kind ← kindOfStatus request.status
  let blocks := p.scheduler.reqToBlocks requestId ++ found.computedBlocks ++ newBlocks
  .ok { p with
    scheduler := { p.scheduler with
      connector := connector
      reqToBlocks := Function.update p.scheduler.reqToBlocks requestId blocks
      waiting := p.scheduler.waiting.erase requestId
      running := p.scheduler.running ++ [requestId] }.setRequest requestId
        { request with
          status := .running
          numComputedTokens := found.numComputedTokens }
    tokenBudget := p.tokenBudget - numNewTokens
    scheduled := p.scheduled ++ [⟨requestId, kind, found.numLocalComputedTokens,
      found.numExternalComputedTokens, numNewTokens, blocks, []⟩] }

/-- **The loop over the waiting requests.**  The first argument is their number at its start. -/
def waitingLoop : ℕ → Pass → Except PyError Pass
  | 0, p => .ok p
  | fuel + 1, p =>
      if p.tokenBudget = 0 ∨ p.scheduler.running.length = p.scheduler.config.maxNumRunningReqs then
        .ok p
      else match p.scheduler.peekRequest with
        | none => .ok p
        | some requestId => match p.scheduler.requests requestId with
            | none => .error .keyError
            | some request => do
                let (found, p) ← p.matchTokens ops lookup requestId request
                let numNewTokens := p.numNewTokensOfWaiting request found.numComputedTokens
                if p.scheduler.config.enableChunkedPrefill = false ∧ numNewTokens > p.tokenBudget then
                  .ok p
                else
                  let numNewTokens := min numNewTokens p.tokenBudget
                  if numNewTokens = 0 then .error (.assertionError "")
                  else
                    let (numNewTokens, p) := p.scheduleEncoderInputs ops request numNewTokens
                    if numNewTokens = 0 then .ok p
                    else match ops.allocateSlots p.scheduler.calls with
                      | none => .ok p.count
                      | some newBlocks => do
                          let p ← p.count.admitWaiting requestId request found numNewTokens newBlocks
                          waitingLoop fuel p

/-! ### The output of a pass -/

/-- The requests of a pass that are scheduled in the given way. -/
def ofKind (kind : ScheduledKind) : List ScheduledRequest := p.scheduled.filter (·.kind = kind)

/-- The requests handed to the worker as new ones: with the second model runner the resumed ones are
among them. -/
def newReqs : List ScheduledRequest :=
  if p.scheduler.config.useV2ModelRunner then p.ofKind .new ++ p.ofKind .resumed else p.ofKind .new

/-- The requests handed to the worker as cached ones. -/
def cachedReqs : List ScheduledRequest :=
  if p.scheduler.config.useV2ModelRunner then p.ofKind .running else p.ofKind .running ++ p.ofKind .resumed

/-- `NewRequestData.from_request`. -/
def newRequestData (x : ScheduledRequest) (request : Request) : NewRequestData where
  reqId := x.reqId
  promptTokenIds := request.promptTokenIds
  mmFeatures := request.mmFeatures
  blockIds := [x.newBlocks]
  numComputedTokens := request.numComputedTokens

/-- An entry of `_make_cached_request_data`. -/
def cachedRequest (x : ScheduledRequest) : CachedRequest where
  reqId := x.reqId
  newBlockIds := if x.newBlocks = [] then none else some [x.newBlocks]

/-- The output of the pass. -/
def output : SchedulerOutput where
  scheduledNewReqs := p.newReqs.filterMap fun x => (p.scheduler.requests x.reqId).map (newRequestData x)
  scheduledCachedReqs := p.cachedReqs.map cachedRequest
  numScheduledTokens := p.scheduled.map fun x => (x.reqId, x.numNewTokens)
  totalNumScheduledTokens := (p.scheduled.map (·.numNewTokens)).sum
  scheduledSpecDecodeTokens := p.scheduled.map fun x => (x.reqId, x.specTokenIds)
  finishedReqIds := p.scheduler.finishedReqIds

end Pass

namespace Scheduler

variable (ops : KVCacheOps) (lookup : List ℤ → Except PyError ℕ) (s : Scheduler)

/-- The pass at its start. -/
def startPass : Pass where
  scheduler := s
  tokenBudget := if s.pauseState = .pausedAll then 0 else s.config.maxNumScheduledTokens
  scheduled := []
  preempted := []

/-- The two loops of `schedule`.  Waiting requests are looked at only if none was preempted. -/
def schedulePass : Except PyError Pass := do
  let p ← Pass.runningLoop ops s.running.length 0 s.startPass
  if p.preempted = [] ∧ s.pauseState = .unpaused then
    Pass.waitingLoop ops lookup p.scheduler.waiting.length p
  else .ok p

/-- `_update_after_schedule`. -/
def updateAfterSchedule (output : SchedulerOutput) : Scheduler :=
  { s with
    requests := fun requestId => match output.numScheduledTokens.lookup requestId with
      | none => s.requests requestId
      | some numScheduledTokens => (s.requests requestId).map fun request =>
          { request with
            numComputedTokens := request.numComputedTokens + numScheduledTokens
            isPrefillChunk := decide (request.numComputedTokens + numScheduledTokens < request.numTokens) }
    finishedReqIds := [] }

/-- **`schedule`**: the pass, the metadata built from its output, and the scheduler that is left. -/
def schedule : Except PyError (Pass × InfiniKVConnectorMetadata × Scheduler) := do
  let p ← s.schedulePass ops lookup
  if p.output.totalNumScheduledTokens ≤ s.config.maxNumScheduledTokens ∧
      p.scheduler.running.length ≤ s.config.maxNumRunningReqs ∧
      p.scheduled.length ≤ p.scheduler.running.length then do
    let (metadata, connector) ←
      p.scheduler.connector.buildConnectorMeta p.scheduler.requests p.output
    .ok (p, metadata, { p.scheduler with connector := connector }.updateAfterSchedule p.output)
  else .error (.assertionError "")

/-! ### Requests come, go, and grow -/

/-- A request as it is added. -/
def newRequest (promptTokenIds : List ℤ) (mmFeatures : List MultiModalFeatureSpec)
    (priority arrivalTime : ℤ) : Request where
  promptTokenIds := promptTokenIds
  outputTokenIds := []
  specTokenIds := []
  mmFeatures := mmFeatures
  status := .waiting
  numComputedTokens := 0
  numPreemptions := 0
  isPrefillChunk := false
  priority := priority
  arrivalTime := arrivalTime

/-- `add_request`. -/
def addRequest (requestId : String) (promptTokenIds : List ℤ)
    (mmFeatures : List MultiModalFeatureSpec) (priority arrivalTime : ℤ) : Except PyError Scheduler :=
  match s.requests requestId with
  | some _ => .error (.assertionError "duplicate request id")
  | none => .ok ({ s with waiting := s.waiting ++ [requestId] }.setRequest requestId
      (newRequest promptTokenIds mmFeatures priority arrivalTime))

/-- `finish_requests` and `_free_request` for one request: its blocks are freed, and it is forgotten. -/
def finishRequest (requestId : String) : Scheduler :=
  match s.requests requestId with
  | none => s
  | some _ => { s with
      running := s.running.erase requestId
      waiting := s.waiting.erase requestId
      finishedReqIds := s.finishedReqIds ++ [requestId]
      reqToBlocks := Function.update s.reqToBlocks requestId []
      requests := Function.update s.requests requestId none }

/-- `update_draft_token_ids` for one request. -/
def updateDraftTokenIds (requestId : String) (specTokenIds : List ℤ) : Scheduler :=
  match s.requests requestId with
  | none => s
  | some request => s.setRequest requestId { request with
      specTokenIds := if request.isPrefillChunk then [] else specTokenIds }

/-- `_update_request_with_output`: tokens are appended until one of them stops the request. -/
def updateRequestWithOutput (checkStop : Request → Bool) : Request → List ℤ → Request × Bool
  | request, [] => (request, false)
  | request, outputTokenId :: rest =>
      let request := { request with outputTokenIds := request.outputTokenIds ++ [outputTokenId] }
      if checkStop request then (request, true) else updateRequestWithOutput checkStop request rest

/-- The computed tokens of a request after its draft tokens were verified: all accepted ones came with
one more token. -/
def verifiedTokens (request : Request) (scheduledSpecTokenIds generatedTokenIds : List ℤ) : ℕ :=
  if scheduledSpecTokenIds ≠ [] ∧ generatedTokenIds ≠ [] ∧ request.numComputedTokens > 0 then
    request.numComputedTokens + (generatedTokenIds.length - 1) - scheduledSpecTokenIds.length
  else request.numComputedTokens

/-- What the model runner returns: the tokens sampled for each request, and when a request stops. -/
structure ModelRunnerOutput where
  sampledTokenIds : String → List ℤ
  checkStop : String → Request → Bool

/-- The body of the loop of `update_from_output`, for a request and its draft tokens. -/
def updateRequest (modelOutput : ModelRunnerOutput) (requestId : String) (specTokenIds : List ℤ) :
    Scheduler :=
  match s.requests requestId with
  | none => s
  | some request =>
      let generatedTokenIds := modelOutput.sampledTokenIds requestId
      let (request, stopped) := updateRequestWithOutput (modelOutput.checkStop requestId)
        { request with numComputedTokens := verifiedTokens request specTokenIds generatedTokenIds }
        generatedTokenIds
      if stopped then (s.setRequest requestId request).finishRequest requestId
      else s.setRequest requestId request

/-- `update_from_output`. -/
def updateFromOutput (modelOutput : ModelRunnerOutput) (output : SchedulerOutput) : Scheduler :=
  output.scheduledSpecDecodeTokens.foldl (fun s x => s.updateRequest modelOutput x.1 x.2) s

/-- **What may happen to the scheduler**: requests are added and aborted, draft tokens arrive, it is
paused, and a step is made: a pass, aborts while the model runs, and the update from its output.  What
a lookup returns may be different in every step. -/
inductive Step (ops : KVCacheOps) : Scheduler → Scheduler → Prop
  | add {s s' : Scheduler} (requestId : String) (promptTokenIds : List ℤ)
      (mmFeatures : List MultiModalFeatureSpec) (priority arrivalTime : ℤ)
      (h : s.addRequest requestId promptTokenIds mmFeatures priority arrivalTime = .ok s') : Step ops s s'
  | finish (s : Scheduler) (requestId : String) : Step ops s (s.finishRequest requestId)
  | draft (s : Scheduler) (requestId : String) (specTokenIds : List ℤ) :
      Step ops s (s.updateDraftTokenIds requestId specTokenIds)
  | pause (s : Scheduler) (pauseState : PauseState) : Step ops s { s with pauseState := pauseState }
  | step {s s' : Scheduler} {p : Pass} {metadata : InfiniKVConnectorMetadata}
      (lookup : List ℤ → Except PyError ℕ) (aborted : List String) (modelOutput : ModelRunnerOutput)
      (h : s.schedule ops lookup = .ok (p, metadata, s')) :
      Step ops s ((aborted.foldl finishRequest s').updateFromOutput modelOutput p.output)

end Scheduler

end InfiniKV
