/-
**The monitor of statistics.**

The monitor counts requests and tokens, and has a table of the requests that retrieve and one of those that
store.  From time to time `get_stats_and_clear` reports the counters and what took how long, sets the counters
back, and drops the requests that have finished.  Each method holds a lock that all of them share, so calls
from several threads are a sequence of calls.

A session is a monitor with what its callers know: the numbers they were given, the requests they finished,
and the reports.  Floats are a parameter: only the zero of an end time that has not been set matters.

Main definitions:

* `InfiniKV.InfiniKVStatsMonitor` — the monitor, with the methods of the source;
* `InfiniKV.InfiniKVStatsMonitor.retrieves`, `stores` — its tables of requests;
* `InfiniKV.StatsSession`, `InfiniKV.StatsSession.run` — sessions, and sequences of calls;
* `InfiniKV.StatsConserved` — what is to hold after any of them.

Main results:

* `InfiniKV.StatsSession.Inv.step` — one call;
* `InfiniKV.stats_conserved` — **nothing is lost or counted twice**.
-/

import InfiniKV.Python
import InfiniKV.RequestTable
import Mathlib.Algebra.BigOperators.Group.List.Basic
import Mathlib.Algebra.Ring.Int.Defs

set_option relaxedAutoImplicit false
set_option autoImplicit false

namespace InfiniKV

/-- Floats, as far as the monitor computes with them: `ratio` divides two integers, and `speed` divides an
integer by a float. -/
structure FloatOps (F : Type) where
  zero : F
  isZero : F → Bool
  sub : F → F → F
  ratio : ℤ → ℤ → F
  speed : ℤ → F → F
  isZero_zero : isZero zero = true

/-- A request that retrieves.  The end time is zero as long as it has not finished. -/
structure RetrieveRequestStats (F : Type) where
  numTokens : ℤ
  localHitTokens : ℤ
  remoteHitTokens : ℤ
  startTime : F
  endTime : F
  deriving DecidableEq

/-- A request that stores. -/
structure StoreRequestStats (F : Type) where
  numTokens : ℤ
  startTime : F
  endTime : F
  deriving DecidableEq

variable {F : Type} (ops : FloatOps F)

namespace RetrieveRequestStats

/-- Whether a request has finished. -/
def finished (stats : RetrieveRequestStats F) : Bool := !ops.isZero stats.endTime

/-- `time_to_retrieve`. -/
def timeToRetrieve (stats : RetrieveRequestStats F) : F :=
  if ops.isZero stats.endTime then ops.zero else ops.sub stats.endTime stats.startTime

/-- `retrieve_speed`. -/
def retrieveSpeed (stats : RetrieveRequestStats F) : F :=
  if ops.isZero (stats.timeToRetrieve ops) then ops.zero
  else ops.speed (stats.localHitTokens + stats.remoteHitTokens) (stats.timeToRetrieve ops)

end RetrieveRequestStats

namespace StoreRequestStats

/-- Whether a request has finished. -/
def finished (stats : StoreRequestStats F) : Bool := !ops.isZero stats.endTime

/-- `time_to_store`. -/
def timeToStore (stats : StoreRequestStats F) : F :=
  if ops.isZero stats.endTime then ops.zero else ops.sub stats.endTime stats.startTime

/-- `store_speed`. -/
def storeSpeed (stats : StoreRequestStats F) : F :=
  if ops.isZero (stats.timeToStore ops) then ops.zero
  else ops.speed stats.numTokens (stats.timeToStore ops)

end StoreRequestStats

/-- `InfiniKVStats`. -/
structure InfiniKVStats (F : Type) where
  intervalRetrieveRequests : ℤ
  intervalStoreRequests : ℤ
  intervalRequestedTokens : ℤ
  intervalHitTokens : ℤ
  intervalRemoteReadRequests : ℤ
  intervalRemoteReadBytes : ℤ
  intervalRemoteWriteRequests : ℤ
  intervalRemoteWriteBytes : ℤ
  intervalRemoteTimeToGet : List F
  intervalRemoteTimeToPut : List F
  intervalRemoteTimeToGetSync : List F
  cacheHitRate : F
  localCacheUsageBytes : ℤ
  remoteCacheUsageBytes : ℤ
  localStorageUsageBytes : ℤ
  timeToRetrieve : List F
  timeToStore : List F
  retrieveSpeed : List F
  storeSpeed : List F

/-- `InfiniKVStatsMonitor`. -/
structure InfiniKVStatsMonitor (F : Type) where
  intervalRetrieveRequests : ℤ
  intervalStoreRequests : ℤ
  intervalRequestedTokens : ℤ
  intervalHitTokens : ℤ
  intervalRemoteReadRequests : ℤ
  intervalRemoteReadBytes : ℤ
  intervalRemoteWriteRequests : ℤ
  intervalRemoteWriteBytes : ℤ
  intervalRemoteTimeToGet : List F
  intervalRemoteTimeToPut : List F
  intervalRemoteTimeToGetSync : List F
  localCacheUsageBytes : ℤ
  remoteCacheUsageBytes : ℤ
  localStorageUsageBytes : ℤ
  retrieveRequests : PyDict ℕ (RetrieveRequestStats F)
  storeRequests : PyDict ℕ (StoreRequestStats F)
  retrieveRequestId : ℕ
  storeRequestId : ℕ

namespace InfiniKVStatsMonitor

/-! ### The methods -/

/-- `InfiniKVStatsMonitor.__init__`. -/
def init : InfiniKVStatsMonitor F where
  intervalRetrieveRequests := 0
  intervalStoreRequests := 0
  intervalRequestedTokens := 0
  intervalHitTokens := 0
  intervalRemoteReadRequests := 0
  intervalRemoteReadBytes := 0
  intervalRemoteWriteRequests := 0
  intervalRemoteWriteBytes := 0
  intervalRemoteTimeToGet := []
  intervalRemoteTimeToPut := []
  intervalRemoteTimeToGetSync := []
  localCacheUsageBytes := 0
  remoteCacheUsageBytes := 0
  localStorageUsageBytes := 0
  retrieveRequests := .empty
  storeRequests := .empty
  retrieveRequestId := 0
  storeRequestId := 0

variable (m : InfiniKVStatsMonitor F)

/-- `on_retrieve_request`, which returns the number of the request. -/
def onRetrieveRequest (numTokens : ℤ) (currTime : F) : InfiniKVStatsMonitor F × ℕ :=
  let m := { m with
    intervalRequestedTokens := m.intervalRequestedTokens + numTokens
    intervalRetrieveRequests := m.intervalRetrieveRequests + 1
    retrieveRequests := m.retrieveRequests.set m.retrieveRequestId ⟨numTokens, 0, 0, currTime, ops.zero⟩
    retrieveRequestId := m.retrieveRequestId + 1 }
  (m, m.retrieveRequestId - 1)

/-- What `on_retrieve_finished` does to a request. -/
def finishRetrieve (retrievedTokens : ℤ) (currTime : F) (stats : RetrieveRequestStats F) :
    RetrieveRequestStats F :=
  { stats with localHitTokens := retrievedTokens, endTime := currTime }

/-- `on_retrieve_finished`. -/
def onRetrieveFinished (requestId : ℕ) (retrievedTokens : ℤ) (currTime : F) :
    Except PyError (InfiniKVStatsMonitor F) :=
  match m.retrieveRequests.get? requestId with
  | none => .error (.assertionError "")
  | some stats => .ok { m with
      retrieveRequests := m.retrieveRequests.set requestId (finishRetrieve retrievedTokens currTime stats)
      intervalHitTokens := m.intervalHitTokens + retrievedTokens }

/-- `on_store_request`, which returns the number of the request. -/
def onStoreRequest (numTokens : ℤ) (currTime : F) : InfiniKVStatsMonitor F × ℕ :=
  let m := { m with
    intervalStoreRequests := m.intervalStoreRequests + 1
    storeRequests := m.storeRequests.set m.storeRequestId ⟨numTokens, currTime, ops.zero⟩
    storeRequestId := m.storeRequestId + 1 }
  (m, m.storeRequestId - 1)

/-- What `on_store_finished` does to a request.  The number of tokens stays if it is not given, for which it
is `-1`. -/
def finishStore (numTokens : ℤ) (currTime : F) (stats : StoreRequestStats F) : StoreRequestStats F :=
  let stats := { stats with endTime := currTime }
  if numTokens ≥ 0 then { stats with numTokens := numTokens } else stats

/-- `on_store_finished`. -/
def onStoreFinished (requestId : ℕ) (numTokens : ℤ) (currTime : F) :
    Except PyError (InfiniKVStatsMonitor F) :=
  match m.storeRequests.get? requestId with
  | none => .error (.assertionError "")
  | some stats => .ok { m with
      storeRequests := m.storeRequests.set requestId (finishStore numTokens currTime stats) }

/-- `update_local_cache_usage`. -/
def updateLocalCacheUsage (usage : ℤ) : InfiniKVStatsMonitor F := { m with localCacheUsageBytes := usage }

/-- `update_remote_cache_usage`. -/
def updateRemoteCacheUsage (usage : ℤ) : InfiniKVStatsMonitor F := { m with remoteCacheUsageBytes := usage }

/-- `update_local_storage_usage`. -/
def updateLocalStorageUsage (usage : ℤ) : InfiniKVStatsMonitor F := { m with localStorageUsageBytes := usage }

/-- `update_interval_remote_read_metrics`. -/
def updateIntervalRemoteReadMetrics (readBytes : ℤ) : InfiniKVStatsMonitor F :=
  { m with
    intervalRemoteReadRequests := m.intervalRemoteReadRequests + 1
    intervalRemoteReadBytes := m.intervalRemoteReadBytes + readBytes }

/-- `update_interval_remote_write_metrics`. -/
def updateIntervalRemoteWriteMetrics (writeBytes : ℤ) : InfiniKVStatsMonitor F :=
  { m with
    intervalRemoteWriteRequests := m.intervalRemoteWriteRequests + 1
    intervalRemoteWriteBytes := m.intervalRemoteWriteBytes + writeBytes }

/-- `update_interval_remote_time_to_get`. -/
def updateIntervalRemoteTimeToGet (getTime : F) : InfiniKVStatsMonitor F :=
  { m with intervalRemoteTimeToGet := m.intervalRemoteTimeToGet ++ [getTime] }

/-- `update_interval_remote_time_to_put`. -/
def updateIntervalRemoteTimeToPut (putTime : F) : InfiniKVStatsMonitor F :=
  { m with intervalRemoteTimeToPut := m.intervalRemoteTimeToPut ++ [putTime] }

/-- `update_interval_remote_time_to_get_sync`. -/
def updateIntervalRemoteTimeToGetSync (getTimeSync : F) : InfiniKVStatsMonitor F :=
  { m with intervalRemoteTimeToGetSync := m.intervalRemoteTimeToGetSync ++ [getTimeSync] }

/-- `_clear`. -/
def clear : InfiniKVStatsMonitor F :=
  { m with
    intervalRetrieveRequests := 0
    intervalStoreRequests := 0
    intervalRequestedTokens := 0
    intervalHitTokens := 0
    intervalRemoteReadRequests := 0
    intervalRemoteReadBytes := 0
    intervalRemoteWriteRequests := 0
    intervalRemoteWriteBytes := 0
    intervalRemoteTimeToGet := []
    intervalRemoteTimeToPut := []
    intervalRemoteTimeToGetSync := []
    retrieveRequests := m.retrieveRequests.filter fun stats => ops.isZero stats.endTime
    storeRequests := m.storeRequests.filter fun stats => ops.isZero stats.endTime }

/-- `filter_out_invalid`. -/
def filterOutInvalid (stats : List F) : List F := stats.filter fun x => !ops.isZero x

/-- What `get_stats_and_clear` returns. -/
def getStats : InfiniKVStats F where
  intervalRetrieveRequests := m.intervalRetrieveRequests
  intervalStoreRequests := m.intervalStoreRequests
  intervalRequestedTokens := m.intervalRequestedTokens
  intervalHitTokens := m.intervalHitTokens
  intervalRemoteReadRequests := m.intervalRemoteReadRequests
  intervalRemoteReadBytes := m.intervalRemoteReadBytes
  intervalRemoteWriteRequests := m.intervalRemoteWriteRequests
  intervalRemoteWriteBytes := m.intervalRemoteWriteBytes
  intervalRemoteTimeToGet := m.intervalRemoteTimeToGet
  intervalRemoteTimeToPut := m.intervalRemoteTimeToPut
  intervalRemoteTimeToGetSync := m.intervalRemoteTimeToGetSync
  cacheHitRate := if m.intervalRequestedTokens = 0 then ops.zero
    else ops.ratio m.intervalHitTokens m.intervalRequestedTokens
  localCacheUsageBytes := m.localCacheUsageBytes
  remoteCacheUsageBytes := m.remoteCacheUsageBytes
  localStorageUsageBytes := m.localStorageUsageBytes
  timeToRetrieve := filterOutInvalid ops (m.retrieveRequests.values.map fun stats => stats.timeToRetrieve ops)
  timeToStore := filterOutInvalid ops (m.storeRequests.values.map fun stats => stats.timeToStore ops)
  retrieveSpeed := filterOutInvalid ops (m.retrieveRequests.values.map fun stats => stats.retrieveSpeed ops)
  storeSpeed := filterOutInvalid ops (m.storeRequests.values.map fun stats => stats.storeSpeed ops)

/-- **`get_stats_and_clear`**. -/
def getStatsAndClear : InfiniKVStatsMonitor F × InfiniKVStats F := (m.clear ops, m.getStats ops)

/-! ### The tables of requests -/

/-- The requests that retrieve. -/
def retrieves : RequestTable (RetrieveRequestStats F) := ⟨m.retrieveRequests, m.retrieveRequestId⟩

/-- The requests that store. -/
def stores : RequestTable (StoreRequestStats F) := ⟨m.storeRequests, m.storeRequestId⟩

variable {m}

/-- A request that is in its table finishes. -/
theorem onRetrieveFinished_eq {requestId : ℕ} {retrievedTokens : ℤ} {currTime : F}
    {t : RequestTable (RetrieveRequestStats F)}
    (h : m.retrieves.finish? requestId (finishRetrieve retrievedTokens currTime) = some t) :
    m.onRetrieveFinished requestId retrievedTokens currTime = .ok { m with
      retrieveRequests := t.entries
      intervalHitTokens := m.intervalHitTokens + retrievedTokens } ∧ t.nextId = m.retrieveRequestId := by
  obtain ⟨stats, hstats, rfl⟩ := Option.map_eq_some_iff.1 h
  refine ⟨?_, rfl⟩
  rw [onRetrieveFinished, show m.retrieveRequests.get? requestId = some stats from hstats]
  rfl

theorem onStoreFinished_eq {requestId : ℕ} {numTokens : ℤ} {currTime : F}
    {t : RequestTable (StoreRequestStats F)}
    (h : m.stores.finish? requestId (finishStore numTokens currTime) = some t) :
    m.onStoreFinished requestId numTokens currTime = .ok { m with storeRequests := t.entries } ∧
      t.nextId = m.storeRequestId := by
  obtain ⟨stats, hstats, rfl⟩ := Option.map_eq_some_iff.1 h
  refine ⟨?_, rfl⟩
  rw [onStoreFinished, show m.storeRequests.get? requestId = some stats from hstats]
  rfl

/-- The requests that have not finished stay. -/
theorem retrieves_clear : (m.clear ops).retrieves = m.retrieves.clear (RetrieveRequestStats.finished ops) := by
  simp [retrieves, clear, RequestTable.clear, RetrieveRequestStats.finished]

theorem stores_clear : (m.clear ops).stores = m.stores.clear (StoreRequestStats.finished ops) := by
  simp [stores, clear, RequestTable.clear, StoreRequestStats.finished]

end InfiniKVStatsMonitor

/-! ### Sessions -/

/-- A report: what `get_stats_and_clear` returned, and the finished requests that were in the tables. -/
structure StatsReport (F : Type) where
  stats : InfiniKVStats F
  retrieves : List (ℕ × RetrieveRequestStats F)
  stores : List (ℕ × StoreRequestStats F)

/-- A monitor, and what its callers know of their requests and of the reports. -/
structure StatsSession (F : Type) where
  monitor : InfiniKVStatsMonitor F
  retrieves : Ledger (RetrieveRequestStats F)
  stores : Ledger (StoreRequestStats F)
  reports : List (StatsReport F)

/-- A call of a method of the monitor, with what the clock shows. -/
inductive StatsOp (F : Type) where
  | onRetrieveRequest (numTokens : ℤ) (currTime : F)
  | onRetrieveFinished (requestId : ℕ) (retrievedTokens : ℤ) (currTime : F)
  | onStoreRequest (numTokens : ℤ) (currTime : F)
  | onStoreFinished (requestId : ℕ) (numTokens : ℤ) (currTime : F)
  | getStatsAndClear
  | updateLocalCacheUsage (usage : ℤ)
  | updateRemoteCacheUsage (usage : ℤ)
  | updateLocalStorageUsage (usage : ℤ)
  | updateIntervalRemoteReadMetrics (readBytes : ℤ)
  | updateIntervalRemoteWriteMetrics (writeBytes : ℤ)
  | updateIntervalRemoteTimeToGet (getTime : F)
  | updateIntervalRemoteTimeToPut (putTime : F)
  | updateIntervalRemoteTimeToGetSync (getTimeSync : F)

namespace StatsSession

/-- A new monitor. -/
def new : StatsSession F := ⟨.init, .new, .new, []⟩

/-- A call. -/
def step (s : StatsSession F) : StatsOp F → Except PyError (StatsSession F)
  | .onRetrieveRequest numTokens currTime =>
      let (m, requestId) := s.monitor.onRetrieveRequest ops numTokens currTime
      .ok { s with
        monitor := m
        retrieves := s.retrieves.request requestId ⟨numTokens, 0, 0, currTime, ops.zero⟩ }
  | .onRetrieveFinished requestId retrievedTokens currTime => do
      let m ← s.monitor.onRetrieveFinished requestId retrievedTokens currTime
      .ok { s with
        monitor := m
        retrieves := s.retrieves.finish requestId
          (InfiniKVStatsMonitor.finishRetrieve retrievedTokens currTime) }
  | .onStoreRequest numTokens currTime =>
      let (m, requestId) := s.monitor.onStoreRequest ops numTokens currTime
      .ok { s with
        monitor := m
        stores := s.stores.request requestId ⟨numTokens, currTime, ops.zero⟩ }
  | .onStoreFinished requestId numTokens currTime => do
      let m ← s.monitor.onStoreFinished requestId numTokens currTime
      .ok { s with
        monitor := m
        stores := s.stores.finish requestId (InfiniKVStatsMonitor.finishStore numTokens currTime) }
  | .getStatsAndClear =>
      let (m, stats) := s.monitor.getStatsAndClear ops
      let retrieves := s.monitor.retrieves.source (RetrieveRequestStats.finished ops)
      let stores := s.monitor.stores.source (StoreRequestStats.finished ops)
      .ok { s with
        monitor := m
        retrieves := s.retrieves.report retrieves
        stores := s.stores.report stores
        reports := s.reports ++ [⟨stats, retrieves, stores⟩] }
  | .updateLocalCacheUsage usage => .ok { s with monitor := s.monitor.updateLocalCacheUsage usage }
  | .updateRemoteCacheUsage usage => .ok { s with monitor := s.monitor.updateRemoteCacheUsage usage }
  | .updateLocalStorageUsage usage => .ok { s with monitor := s.monitor.updateLocalStorageUsage usage }
  | .updateIntervalRemoteReadMetrics readBytes =>
      .ok { s with monitor := s.monitor.updateIntervalRemoteReadMetrics readBytes }
  | .updateIntervalRemoteWriteMetrics writeBytes =>
      .ok { s with monitor := s.monitor.updateIntervalRemoteWriteMetrics writeBytes }
  | .updateIntervalRemoteTimeToGet getTime =>
      .ok { s with monitor := s.monitor.updateIntervalRemoteTimeToGet getTime }
  | .updateIntervalRemoteTimeToPut putTime =>
      .ok { s with monitor := s.monitor.updateIntervalRemoteTimeToPut putTime }
  | .updateIntervalRemoteTimeToGetSync getTimeSync =>
      .ok { s with monitor := s.monitor.updateIntervalRemoteTimeToGetSync getTimeSync }

/-- Calls, one after the other. -/
def run : List (StatsOp F) → StatsSession F → Except PyError (StatsSession F)
  | [], s => .ok s
  | op :: calls, s => do
      let s ← s.step ops op
      run calls s

/-- A request finishes after it was made, once, and when the clock does not show zero. -/
def Allowed (s : StatsSession F) : StatsOp F → Prop
  | .onRetrieveFinished requestId _ currTime => s.retrieves.Unfinished requestId ∧ ops.isZero currTime = false
  | .onStoreFinished requestId _ currTime => s.stores.Unfinished requestId ∧ ops.isZero currTime = false
  | _ => True

/-- Each call is allowed when its turn comes. -/
def Valid : StatsSession F → List (StatsOp F) → Prop
  | _, [] => True
  | s, op :: calls => s.Allowed ops op ∧ ∀ s', s.step ops op = .ok s' → Valid s' calls

end StatsSession

/-! ### The counters -/

/-- The four counters of an interval. -/
inductive StatsCounter where
  | retrieveRequests
  | storeRequests
  | requestedTokens
  | hitTokens

namespace StatsCounter

/-- The counter in the monitor. -/
def current (m : InfiniKVStatsMonitor F) : StatsCounter → ℤ
  | retrieveRequests => m.intervalRetrieveRequests
  | storeRequests => m.intervalStoreRequests
  | requestedTokens => m.intervalRequestedTokens
  | hitTokens => m.intervalHitTokens

/-- The counter in a report. -/
def reported (stats : InfiniKVStats F) : StatsCounter → ℤ
  | retrieveRequests => stats.intervalRetrieveRequests
  | storeRequests => stats.intervalStoreRequests
  | requestedTokens => stats.intervalRequestedTokens
  | hitTokens => stats.intervalHitTokens

/-- What a call is to add. -/
def added : StatsOp F → StatsCounter → ℤ
  | .onRetrieveRequest _ _, retrieveRequests => 1
  | .onRetrieveRequest numTokens _, requestedTokens => numTokens
  | .onRetrieveFinished _ retrievedTokens _, hitTokens => retrievedTokens
  | .onStoreRequest _ _, storeRequests => 1
  | _, _ => 0

end StatsCounter

/-! ### What is conserved -/

/-- The finished requests of a report are what its distributions are computed from. -/
structure StatsReport.FromSources (r : StatsReport F) : Prop where
  timeToRetrieve : r.stats.timeToRetrieve =
    InfiniKVStatsMonitor.filterOutInvalid ops (r.retrieves.map fun e => e.2.timeToRetrieve ops)
  retrieveSpeed : r.stats.retrieveSpeed =
    InfiniKVStatsMonitor.filterOutInvalid ops (r.retrieves.map fun e => e.2.retrieveSpeed ops)
  timeToStore : r.stats.timeToStore =
    InfiniKVStatsMonitor.filterOutInvalid ops (r.stores.map fun e => e.2.timeToStore ops)
  storeSpeed : r.stats.storeSpeed =
    InfiniKVStatsMonitor.filterOutInvalid ops (r.stores.map fun e => e.2.storeSpeed ops)

/-- What holds of a table of requests and its ledger, for given sources of the reports: no number is given
twice, a request that has not finished is in the table, each finished one is in one source or, before the
next report, in the table, and those in a source are no longer in the table. -/
structure RequestsConserved {σ : Type} (done : σ → Bool) (t : RequestTable σ) (l : Ledger σ)
    (sources : List (List (ℕ × σ))) : Prop where
  ids : (l.requested.map Prod.fst).Nodup
  unfinished : ∀ id, l.Unfinished id → ∃ s, t.entries.get? id = some s ∧ done s = false
  finished : (l.finished.map Prod.fst).Nodup
  once : (sources.flatten ++ t.source done).Perm l.finished
  dropped : ∀ source ∈ sources, ∀ e ∈ source, t.entries.get? e.1 = none

/-- **What is to hold after any calls.** -/
structure StatsConserved (calls : List (StatsOp F)) (s : StatsSession F) : Prop where
  counters : ∀ c : StatsCounter, (s.reports.map fun r => c.reported r.stats).sum + c.current s.monitor =
    (calls.map fun op => c.added op).sum
  retrieves : RequestsConserved (RetrieveRequestStats.finished ops) s.monitor.retrieves s.retrieves
    (s.reports.map StatsReport.retrieves)
  stores : RequestsConserved (StoreRequestStats.finished ops) s.monitor.stores s.stores
    (s.reports.map StatsReport.stores)
  sources : ∀ r ∈ s.reports, r.FromSources ops

/-! ### The invariant -/

namespace InfiniKVStatsMonitor

/-- The requests whose end time is zero add nothing to a distribution. -/
theorem filterOutInvalid_map_values {σ : Type} (d : PyDict ℕ σ) (done : σ → Bool) (f : σ → F)
    (h : ∀ s, done s = false → ops.isZero (f s) = true) :
    filterOutInvalid ops (d.values.map f) =
      filterOutInvalid ops ((d.entries.filter fun e => done e.2).map fun e => f e.2) := by
  rw [PyDict.values, List.map_map]
  induction d.entries with
  | nil => rfl
  | cons e es ih =>
      simp only [filterOutInvalid] at ih ⊢
      cases hdone : done e.2 with
      | false => simp [hdone, h e.2 hdone, ih]
      | true => simp [hdone, List.filter_cons, ih]

/-- **What is reported comes from the finished requests.** -/
theorem fromSources (m : InfiniKVStatsMonitor F) :
    StatsReport.FromSources ops ⟨m.getStats ops, m.retrieves.source (RetrieveRequestStats.finished ops),
      m.stores.source (StoreRequestStats.finished ops)⟩ := by
  have hretrieve : ∀ s : RetrieveRequestStats F, s.finished ops = false →
      ops.isZero (s.timeToRetrieve ops) = true := by
    intro s hs
    rw [RetrieveRequestStats.finished, Bool.not_eq_false'] at hs
    rw [RetrieveRequestStats.timeToRetrieve, if_pos hs, ops.isZero_zero]
  have hstore : ∀ s : StoreRequestStats F, s.finished ops = false →
      ops.isZero (s.timeToStore ops) = true := by
    intro s hs
    rw [StoreRequestStats.finished, Bool.not_eq_false'] at hs
    rw [StoreRequestStats.timeToStore, if_pos hs, ops.isZero_zero]
  constructor
  · exact filterOutInvalid_map_values ops _ _ _ hretrieve
  · refine filterOutInvalid_map_values ops _ _ _ fun s hs => ?_
    rw [RetrieveRequestStats.retrieveSpeed, if_pos (hretrieve s hs), ops.isZero_zero]
  · exact filterOutInvalid_map_values ops _ _ _ hstore
  · refine filterOutInvalid_map_values ops _ _ _ fun s hs => ?_
    rw [StoreRequestStats.storeSpeed, if_pos (hstore s hs), ops.isZero_zero]

end InfiniKVStatsMonitor

namespace StatsSession

/-- What holds after some calls. -/
structure Inv (calls : List (StatsOp F)) (s : StatsSession F) : Prop where
  counters : ∀ c : StatsCounter, (s.reports.map fun r => c.reported r.stats).sum + c.current s.monitor =
    (calls.map fun op => c.added op).sum
  retrieves : Tracks (RetrieveRequestStats.finished ops) s.monitor.retrieves s.retrieves
  stores : Tracks (StoreRequestStats.finished ops) s.monitor.stores s.stores
  retrieves_reported : s.retrieves.reported = (s.reports.map StatsReport.retrieves).flatten
  stores_reported : s.stores.reported = (s.reports.map StatsReport.stores).flatten
  sources : ∀ r ∈ s.reports, r.FromSources ops

variable {ops} {calls : List (StatsOp F)} {s : StatsSession F} {op : StatsOp F}

/-- A call that reports nothing, and changes the counters by what it is to add. -/
theorem Inv.of_counters (h : Inv ops calls s) {s' : StatsSession F} (hreports : s'.reports = s.reports)
    (hcounters : ∀ c : StatsCounter, c.current s'.monitor = c.current s.monitor + c.added op)
    (hretrieves : Tracks (RetrieveRequestStats.finished ops) s'.monitor.retrieves s'.retrieves)
    (hretrieves' : s'.retrieves.reported = s.retrieves.reported)
    (hstores : Tracks (StoreRequestStats.finished ops) s'.monitor.stores s'.stores)
    (hstores' : s'.stores.reported = s.stores.reported) : Inv ops (calls ++ [op]) s' where
  counters := by
    intro c
    have hc := h.counters c
    rw [hreports, hcounters c, List.map_append, List.sum_append, ← hc]
    simp [add_assoc]
  retrieves := hretrieves
  stores := hstores
  retrieves_reported := by rw [hretrieves', hreports, h.retrieves_reported]
  stores_reported := by rw [hstores', hreports, h.stores_reported]
  sources := hreports ▸ h.sources

/-- A call that changes neither the tables nor the four counters. -/
theorem Inv.of_update (h : Inv ops calls s) {m : InfiniKVStatsMonitor F}
    (hcounters : ∀ c : StatsCounter, c.current m = c.current s.monitor + c.added op)
    (hretrieves : m.retrieves = s.monitor.retrieves) (hstores : m.stores = s.monitor.stores) :
    Inv ops (calls ++ [op]) { s with monitor := m } :=
  h.of_counters rfl hcounters (hretrieves ▸ h.retrieves) rfl (hstores ▸ h.stores) rfl

/-- **One call** that is allowed returns, and keeps the invariant. -/
theorem Inv.step (h : Inv ops calls s) (hop : s.Allowed ops op) :
    ∃ s', s.step ops op = .ok s' ∧ Inv ops (calls ++ [op]) s' := by
  have hzero := ops.isZero_zero
  cases op with
  | onRetrieveRequest numTokens currTime =>
      refine ⟨_, rfl, h.of_counters rfl ?_ (h.retrieves.request ?_) rfl h.stores rfl⟩
      · intro c
        cases c <;> simp [StatsCounter.current, StatsCounter.added]
      · simp [RetrieveRequestStats.finished, hzero]
  | onStoreRequest numTokens currTime =>
      refine ⟨_, rfl, h.of_counters rfl ?_ h.retrieves rfl (h.stores.request ?_) rfl⟩
      · intro c
        cases c <;> simp [StatsCounter.current, StatsCounter.added]
      · simp [StoreRequestStats.finished, hzero]
  | onRetrieveFinished requestId retrievedTokens currTime =>
      obtain ⟨hunfinished, hclock⟩ := hop
      obtain ⟨t, ht, htracks⟩ := h.retrieves.finish hunfinished
        (f := InfiniKVStatsMonitor.finishRetrieve retrievedTokens currTime)
        (fun s => by simp [RetrieveRequestStats.finished, InfiniKVStatsMonitor.finishRetrieve, hclock])
      obtain ⟨hfinished, hid⟩ := InfiniKVStatsMonitor.onRetrieveFinished_eq ht
      refine ⟨_, bind_eq_ok.2 ⟨_, hfinished, rfl⟩, h.of_counters rfl ?_ ?_ rfl h.stores rfl⟩
      · intro c
        cases c <;> simp [StatsCounter.current, StatsCounter.added]
      · have heq : t = ⟨t.entries, s.monitor.retrieveRequestId⟩ := hid ▸ rfl
        rw [heq] at htracks
        exact htracks
  | onStoreFinished requestId numTokens currTime =>
      obtain ⟨hunfinished, hclock⟩ := hop
      have hdone : ∀ s, (InfiniKVStatsMonitor.finishStore numTokens currTime s).finished ops = true := by
        intro s
        rw [InfiniKVStatsMonitor.finishStore]
        split
        · simp [StoreRequestStats.finished, hclock]
        · simp [StoreRequestStats.finished, hclock]
      obtain ⟨t, ht, htracks⟩ := h.stores.finish hunfinished hdone
      obtain ⟨hfinished, hid⟩ := InfiniKVStatsMonitor.onStoreFinished_eq ht
      refine ⟨_, bind_eq_ok.2 ⟨_, hfinished, rfl⟩, h.of_counters rfl ?_ h.retrieves rfl ?_ rfl⟩
      · intro c
        cases c <;> simp [StatsCounter.current, StatsCounter.added]
      · have heq : t = ⟨t.entries, s.monitor.storeRequestId⟩ := hid ▸ rfl
        rw [heq] at htracks
        exact htracks
  | getStatsAndClear =>
      refine ⟨_, rfl, ?_, ?_, ?_, ?_, ?_, ?_⟩
      · -- what was in the counters is now in the report
        intro c
        have hc := h.counters c
        cases c <;> simpa [StatsCounter.current, StatsCounter.reported, StatsCounter.added,
          InfiniKVStatsMonitor.getStatsAndClear, InfiniKVStatsMonitor.getStats,
          InfiniKVStatsMonitor.clear] using hc
      · have hclear := h.retrieves.clear
        rw [← InfiniKVStatsMonitor.retrieves_clear] at hclear
        exact hclear
      · have hclear := h.stores.clear
        rw [← InfiniKVStatsMonitor.stores_clear] at hclear
        exact hclear
      · simp [Ledger.report, h.retrieves_reported]
      · simp [Ledger.report, h.stores_reported]
      · refine List.forall_mem_append.2 ⟨h.sources, ?_⟩
        rw [List.forall_mem_singleton]
        exact InfiniKVStatsMonitor.fromSources ops s.monitor
  | _ =>
      refine ⟨_, rfl, h.of_update ?_ rfl rfl⟩
      intro c
      cases c <;> exact (add_zero _).symm

/-- A new monitor. -/
theorem Inv.new : Inv ops [] (StatsSession.new : StatsSession F) where
  counters := by
    intro c
    cases c <;> rfl
  retrieves := .new
  stores := .new
  retrieves_reported := rfl
  stores_reported := rfl
  sources := by simp [StatsSession.new]

/-- **All calls** that are allowed return, and keep the invariant. -/
theorem Inv.run {calls₁ calls₂ : List (StatsOp F)} (h : Inv ops calls₁ s) (hvalid : Valid ops s calls₂) :
    ∃ s', StatsSession.run ops calls₂ s = .ok s' ∧ Inv ops (calls₁ ++ calls₂) s' := by
  induction calls₂ generalizing calls₁ s with
  | nil => exact ⟨s, rfl, (List.append_nil calls₁).symm ▸ h⟩
  | cons op calls₂ ih =>
      obtain ⟨hop, hvalid⟩ := hvalid
      obtain ⟨s₁, hstep, hinv₁⟩ := h.step hop
      obtain ⟨s', hrun, hinv⟩ := ih hinv₁ (hvalid s₁ hstep)
      refine ⟨s', bind_eq_ok.2 ⟨s₁, hstep, hrun⟩, ?_⟩
      rwa [List.append_assoc] at hinv

end StatsSession

/-- A table and its ledger, if the sources of the reports are what has been reported. -/
theorem RequestsConserved.of_tracks {σ : Type} {done : σ → Bool} {t : RequestTable σ} {l : Ledger σ}
    {sources : List (List (ℕ × σ))} (h : Tracks done t l) (hreported : l.reported = sources.flatten) :
    RequestsConserved done t l sources where
  ids := h.requested_nodup
  unfinished := by
    intro id hid
    obtain ⟨e, he, rfl⟩ := List.mem_map.1 hid.1
    exact ⟨e.2, h.current e he hid.2, h.undone e he⟩
  finished := h.nodup
  once := hreported ▸ h.finished
  dropped := by
    intro source hsource e he
    refine h.reported e ?_
    rw [hreported]
    exact List.mem_flatten.2 ⟨source, hsource, he⟩

/-- **Nothing is lost or counted twice**: any calls on a new monitor, in which each number that was given to a
request is finished at most once and when the clock does not show zero, return; and then what has been
reported and what the counters show add up to all that was counted, no number was given twice, the requests
that have not finished are in the tables, and each finished one is in one source of a report and then no
longer in the tables, or is still to be reported. -/
theorem stats_conserved (ops : FloatOps F) (calls : List (StatsOp F))
    (hvalid : StatsSession.Valid ops .new calls) :
    ∃ s, StatsSession.run ops calls .new = .ok s ∧ StatsConserved ops calls s := by
  obtain ⟨s, hrun, hinv⟩ := (StatsSession.Inv.new : StatsSession.Inv ops [] .new).run hvalid
  exact ⟨s, hrun, hinv.counters, .of_tracks hinv.retrieves hinv.retrieves_reported,
    .of_tracks hinv.stores hinv.stores_reported, hinv.sources⟩

/-- A clock that shows whole numbers. -/
def wholeOps : FloatOps ℤ := ⟨0, fun x => x == 0, fun x y => x - y, fun x y => x / y, fun x y => x / y, rfl⟩

/-- A request that is reported after a report that comes before it finishes. -/
def spanningCalls : List (StatsOp ℤ) :=
  [.onRetrieveRequest 8 1, .getStatsAndClear, .onRetrieveFinished 0 6 3, .onStoreRequest 4 4, .getStatsAndClear]

/-- The theorem at these calls: it is in the second report only. -/
theorem stats_conserved_spanning :
    ∃ s, StatsSession.run wholeOps spanningCalls .new = .ok s ∧ StatsConserved wholeOps spanningCalls s ∧
      s.reports.map StatsReport.retrieves = [[], [(0, ⟨8, 6, 0, 1, 3⟩)]] ∧
      s.reports.map (fun r => r.stats.retrieveSpeed) = [[], [3]] := by
  have hvalid : StatsSession.Valid wholeOps .new spanningCalls := by
    refine ⟨trivial, fun s₁ h₁ => ⟨trivial, fun s₂ h₂ => ⟨?_, fun s₃ h₃ => ⟨trivial, fun s₄ h₄ =>
      ⟨trivial, fun s₅ h₅ => trivial⟩⟩⟩⟩⟩
    cases h₁
    cases h₂
    exact ⟨⟨by decide, by decide⟩, rfl⟩
  obtain ⟨s, hrun, hconserved⟩ := stats_conserved wholeOps spanningCalls hvalid
  refine ⟨s, hrun, hconserved, ?_⟩
  have hreports : (StatsSession.run wholeOps spanningCalls .new).map (fun s =>
      (s.reports.map StatsReport.retrieves, s.reports.map fun r => r.stats.retrieveSpeed)) =
      .ok ([[], [(0, ⟨8, 6, 0, 1, 3⟩)]], [[], [3]]) := by decide
  rw [hrun] at hreports
  exact ⟨congrArg Prod.fst (Except.ok.inj hreports), congrArg Prod.snd (Except.ok.inj hreports)⟩

end InfiniKV
