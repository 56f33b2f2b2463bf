/-
**Batches of messages.**

A worker packs its messages into batches, and the manager handles the parts of a batch one after the other.
One exception handler stands around the loop over the parts, so a part that cannot be decoded, or whose
handler raises, ends the handling of the batch, and what comes after it is lost.

The two encodings of messages are parameters: what matters is whether a part can be decoded, and to what.

Main definitions:

* `InfiniKV.MsgCodec` — the encodings;
* `InfiniKV.handlePart`, `InfiniKV.handleParts`, `InfiniKV.handleBatchedRequest` — a part, and a batch;
* `InfiniKV.BatchApplied` — each worker message of the batch is applied once, and in order;
* `InfiniKV.MsgCodec.Faulty` — the parts that cannot be decoded or whose handlers raise, by the tables of the manager;
* `InfiniKV.NothingLost` — no worker message comes after such a part.

Main results:

* `InfiniKV.raises_handlePart_iff` — the parts that raise are the faulty ones;
* `InfiniKV.manager_handleParts` — the manager after a batch, from the messages that were applied;
* `InfiniKV.batchApplied_iff` — **when each worker message is applied**.
-/

import InfiniKV.ChunkPool
import InfiniKV.Sha256

set_option relaxedAutoImplicit false
set_option autoImplicit false

namespace InfiniKV

/-- The bytes of a part of a request. -/
abbrev MsgPart := List UInt8

/-- The encodings of messages: what a part in JSON, and one in MessagePack, is decoded to. -/
structure MsgCodec where
  json : MsgPart → Except PyError Msg
  msgpack : MsgPart → Except PyError Msg

/-- A part that begins with a brace is in JSON. -/
def MsgCodec.decode (codec : MsgCodec) (part : MsgPart) : Except PyError Msg :=
  if part.head? = some 0x7b then codec.json part else codec.msgpack part

/-- The worker message that a part is, if it is well-formed and is one. -/
def MsgCodec.workerMsg (codec : MsgCodec) (part : MsgPart) : Option WorkerMsg :=
  match codec.decode part with
  | .ok (.worker msg) => some msg
  | _ => none

/-- The manager in the course of a batch, with the worker messages that were handed to their handlers. -/
structure BatchState where
  manager : InfiniKVControllerManager
  applied : List WorkerMsg

/-- The exception of a call whose result is not used. -/
def raisedBy {α : Type} : Except PyError α → Option PyError
  | .ok _ => none
  | .error e => some e

/-- A part is handled. -/
def handlePart (codec : MsgCodec) (zmq : ZmqOps) (s : BatchState) (part : MsgPart) : Outcome BatchState :=
  match codec.decode part with
  | .error e => ⟨s, some e⟩
  | .ok (.worker msg) =>
      (s.manager.handleWorkerMessage zmq msg).map fun m => ⟨m, s.applied ++ [msg]⟩
  | .ok (.orch msg) => ⟨s, raisedBy (s.manager.handleOrchestrationMessage zmq msg)⟩
  | .ok .other => ⟨s, none⟩

/-- The loop over the parts, up to the first exception. -/
def handleParts (codec : MsgCodec) (zmq : ZmqOps) : List MsgPart → BatchState → Outcome BatchState
  | [], s => ⟨s, none⟩
  | part :: parts, s =>
      let o := handlePart codec zmq s part
      match o.raises with
      | some e => ⟨o.state, some e⟩
      | none => handleParts codec zmq parts o.state

/-- **`handle_batched_request`**, for one request.  The exception is logged. -/
def handleBatchedRequest (codec : MsgCodec) (zmq : ZmqOps) (m : InfiniKVControllerManager)
    (parts : List MsgPart) : BatchState :=
  (handleParts codec zmq parts ⟨m, []⟩).state

/-- Worker messages are handled, whether they raise or not. -/
def applyMessages (zmq : ZmqOps) (msgs : List WorkerMsg) (m : InfiniKVControllerManager) :
    InfiniKVControllerManager :=
  msgs.foldl (fun m msg => (m.handleWorkerMessage zmq msg).state) m

/-- **Each worker message of the batch is applied once, and in order**, whatever the other parts are. -/
structure BatchApplied (codec : MsgCodec) (zmq : ZmqOps) (m : InfiniKVControllerManager)
    (parts : List MsgPart) : Prop where
  applied : (handleBatchedRequest codec zmq m parts).applied = parts.filterMap codec.workerMsg
  manager : (handleBatchedRequest codec zmq m parts).manager =
    applyMessages zmq (parts.filterMap codec.workerMsg) m

variable {codec : MsgCodec} {zmq : ZmqOps} {s : BatchState} {part : MsgPart} {parts : List MsgPart}

/-! ### What is applied -/

/-- A part is handed to its handler if it is a worker message. -/
theorem state_handlePart (codec : MsgCodec) (zmq : ZmqOps) (s : BatchState) (part : MsgPart) :
    (handlePart codec zmq s part).state =
      ⟨applyMessages zmq (codec.workerMsg part).toList s.manager,
        s.applied ++ (codec.workerMsg part).toList⟩ := by
  rw [handlePart, MsgCodec.workerMsg]
  cases codec.decode part with
  | error e => simp [applyMessages]
  | ok msg =>
      cases msg with
      | worker msg => rfl
      | orch msg => simp [applyMessages]
      | other => simp [applyMessages]

/-- A part raises: the rest of the batch is lost. -/
theorem handleParts_of_raises (h : (handlePart codec zmq s part).raises ≠ none) :
    (handleParts codec zmq (part :: parts) s).state = (handlePart codec zmq s part).state ∧
      (handleParts codec zmq (part :: parts) s).raises ≠ none := by
  obtain ⟨e, he⟩ := Option.ne_none_iff_exists'.1 h
  rw [handleParts, he]
  exact ⟨rfl, by simp⟩

/-- A part does not raise. -/
theorem handleParts_of_not_raises (h : (handlePart codec zmq s part).raises = none) :
    handleParts codec zmq (part :: parts) s = handleParts codec zmq parts (handlePart codec zmq s part).state := by
  rw [handleParts, h]

/-- **The manager after a batch**: the messages that were applied, one after the other. -/
theorem manager_handleParts (codec : MsgCodec) (zmq : ZmqOps) (parts : List MsgPart) (s : BatchState) :
    ∃ msgs, (handleParts codec zmq parts s).state.applied = s.applied ++ msgs ∧
      (handleParts codec zmq parts s).state.manager = applyMessages zmq msgs s.manager := by
  induction parts generalizing s with
  | nil => exact ⟨[], (List.append_nil _).symm, rfl⟩
  | cons part parts ih =>
      by_cases h : (handlePart codec zmq s part).raises = none
      · rw [handleParts_of_not_raises h]
        obtain ⟨msgs, happlied, hmanager⟩ := ih (handlePart codec zmq s part).state
        refine ⟨(codec.workerMsg part).toList ++ msgs, ?_, ?_⟩
        · rw [happlied, state_handlePart, List.append_assoc]
        · rw [hmanager, state_handlePart, applyMessages, applyMessages, applyMessages, List.foldl_append]
      · rw [(handleParts_of_raises h).1, state_handlePart]
        exact ⟨_, rfl, rfl⟩

/-! ### The parts that raise -/

/-- The handler of a worker message raises, by the tables it finds: no socket to the worker can be connected, the
worker is not on the list of its instance, or the instance is a key of the pool and the key is not. -/
def InfiniKVControllerManager.Raises (zmq : ZmqOps) (m : InfiniKVControllerManager) : WorkerMsg → Prop
  | .register msg => zmq.connect m.regController.numSockets (RegistrationController.url msg) ≠ none
  | .deregister msg =>
      ∃ workers, m.regController.workerMapping.get? msg.instanceId = some workers ∧ msg.workerId ∉ workers
  | .kvAdmit msg => m.kvController.kvPool.get? msg.instanceId ≠ none ∧ m.kvController.kvPool.get? msg.key = none
  | .kvEvict _ => False

/-- A part cannot be decoded, or its handler raises.  Of the orchestration messages it is the lookups that do. -/
def MsgCodec.Faulty (codec : MsgCodec) (zmq : ZmqOps) (m : InfiniKVControllerManager) (part : MsgPart) : Prop :=
  (∃ e, codec.decode part = .error e) ∨ (∃ msg, codec.decode part = .ok (.worker msg) ∧ m.Raises zmq msg) ∨
    ∃ tokens, codec.decode part = .ok (.orch (.lookup tokens))

/-- When the handler of a worker message raises. -/
theorem raises_handleWorkerMessage (zmq : ZmqOps) (m : InfiniKVControllerManager) (msg : WorkerMsg) :
    (m.handleWorkerMessage zmq msg).raises ≠ none ↔ m.Raises zmq msg := by
  cases msg with
  | register msg =>
      change (m.regController.register zmq msg).raises ≠ none ↔ _
      rw [RegistrationController.raises_register]
      rfl
  | deregister msg =>
      change (m.regController.deregister msg).raises ≠ none ↔ _
      rw [ne_eq, RegistrationController.raises_deregister, InfiniKVControllerManager.Raises]
      push Not
      rfl
  | kvAdmit msg =>
      change (m.kvController.admitChunk msg).raises ≠ none ↔ _
      rw [ne_eq, KVController.raises_admitChunk, InfiniKVControllerManager.Raises]
      push Not
      rfl
  | kvEvict msg =>
      change (m.kvController.evict msg).raises ≠ none ↔ _
      rw [KVController.raises_evict]
      exact iff_of_false (fun h => h rfl) id

/-- Of the orchestration messages the lookups raise, and no others. -/
theorem raisedBy_handleOrchestrationMessage (m : InfiniKVControllerManager) (msg : OrchMsg) :
    raisedBy (m.handleOrchestrationMessage zmq msg) ≠ none ↔ ∃ tokens, msg = .lookup tokens := by
  cases msg with
  | lookup tokens => exact iff_of_true (by simp [InfiniKVControllerManager.handleOrchestrationMessage,
      KVController.lookup, raisedBy]) ⟨tokens, rfl⟩
  | _ => exact iff_of_false (fun h => h rfl) (by simp)

/-- **The parts that raise are the faulty ones.** -/
theorem raises_handlePart_iff (codec : MsgCodec) (zmq : ZmqOps) (s : BatchState) (part : MsgPart) :
    (handlePart codec zmq s part).raises ≠ none ↔ codec.Faulty zmq s.manager part := by
  rw [handlePart, MsgCodec.Faulty]
  cases codec.decode part with
  | error e => simp
  | ok msg =>
      cases msg with
      | worker msg => simpa [Outcome.map] using raises_handleWorkerMessage zmq s.manager msg
      | orch msg => simpa using raisedBy_handleOrchestrationMessage s.manager msg
      | other => simp

/-! ### When everything is applied -/

/-- No worker message comes after a part that is faulty in the state which the worker messages before it leave. -/
def NothingLost (codec : MsgCodec) (zmq : ZmqOps) (m : InfiniKVControllerManager) (parts : List MsgPart) : Prop :=
  ∀ before part after, parts = before ++ part :: after →
    codec.Faulty zmq (applyMessages zmq (before.filterMap codec.workerMsg) m) part →
      after.filterMap codec.workerMsg = []

theorem filterMap_workerMsg_cons (codec : MsgCodec) (part : MsgPart) (parts : List MsgPart) :
    (part :: parts).filterMap codec.workerMsg = (codec.workerMsg part).toList ++ parts.filterMap codec.workerMsg := by
  rw [List.filterMap_cons]
  cases codec.workerMsg part <;> rfl

/-- Where there are no worker messages, none is lost. -/
theorem nothingLost_of_eq_nil (m : InfiniKVControllerManager) (h : parts.filterMap codec.workerMsg = []) :
    NothingLost codec zmq m parts := by
  rintro before part after rfl -
  rw [List.filterMap_append, List.append_eq_nil_iff, filterMap_workerMsg_cons, List.append_eq_nil_iff] at h
  exact h.2.2

/-- What is lost after the first part, and after the others. -/
theorem nothingLost_cons {m : InfiniKVControllerManager} :
    NothingLost codec zmq m (part :: parts) ↔
      (codec.Faulty zmq m part → parts.filterMap codec.workerMsg = []) ∧
        NothingLost codec zmq (applyMessages zmq (codec.workerMsg part).toList m) parts := by
  have happly : ∀ before : List MsgPart, applyMessages zmq ((part :: before).filterMap codec.workerMsg) m =
      applyMessages zmq (before.filterMap codec.workerMsg) (applyMessages zmq (codec.workerMsg part).toList m) := by
    intro before
    rw [filterMap_workerMsg_cons, applyMessages, List.foldl_append]
    rfl
  constructor
  · intro h
    refine ⟨h [] part parts rfl, fun before part' after heq hfaulty => ?_⟩
    rw [← happly] at hfaulty
    exact h (part :: before) part' after (congrArg (part :: ·) heq) hfaulty
  · rintro ⟨hfirst, hrest⟩ before part' after heq hfaulty
    cases before with
    | nil =>
        obtain ⟨rfl, rfl⟩ := List.cons.inj heq
        exact hfirst hfaulty
    | cons part'' before =>
        obtain ⟨rfl, rfl⟩ := List.cons.inj heq
        rw [happly] at hfaulty
        exact hrest before part' after rfl hfaulty

/-- What is applied is all there is, if and only if nothing is lost. -/
theorem applied_handleParts_iff (parts : List MsgPart) (s : BatchState) :
    (handleParts codec zmq parts s).state.applied = s.applied ++ parts.filterMap codec.workerMsg ↔
      NothingLost codec zmq s.manager parts := by
  induction parts generalizing s with
  | nil => exact iff_of_true (List.append_nil _).symm (nothingLost_of_eq_nil _ rfl)
  | cons part parts ih =>
      have hstate := state_handlePart codec zmq s part
      have happlied := congrArg BatchState.applied hstate
      dsimp only at happlied
      rw [nothingLost_cons, filterMap_workerMsg_cons, ← List.append_assoc, ← happlied]
      by_cases h : (handlePart codec zmq s part).raises = none
      · have hsound : ¬ codec.Faulty zmq s.manager part := fun hfaulty =>
          (raises_handlePart_iff codec zmq s part).2 hfaulty h
        rw [handleParts_of_not_raises h, ih, hstate]
        simp [hsound]
      · have hfaulty := (raises_handlePart_iff codec zmq s part).1 h
        rw [(handleParts_of_raises h).1, List.self_eq_append_right]
        exact ⟨fun hnone => ⟨fun _ => hnone, nothingLost_of_eq_nil _ hnone⟩, fun hlost => hlost.1 hfaulty⟩

/-- **When each worker message of a batch is applied once and in order**, for any manager and any parts: if and
only if no worker message comes after a part that cannot be decoded or whose handler raises. -/
theorem batchApplied_iff (codec : MsgCodec) (zmq : ZmqOps) (m : InfiniKVControllerManager)
    (parts : List MsgPart) :
    BatchApplied codec zmq m parts ↔ NothingLost codec zmq m parts := by
  rw [← applied_handleParts_iff parts ⟨m, []⟩]
  refine ⟨fun h => h.applied, fun happlied => ⟨happlied, ?_⟩⟩
  obtain ⟨msgs, hmsgs, hmanager⟩ := manager_handleParts codec zmq parts ⟨m, []⟩
  rw [happlied, List.append_cancel_left_eq] at hmsgs
  rw [handleBatchedRequest, hmanager, hmsgs]

/-! ### Two batches -/

/-- The message that a chunk has been admitted, in JSON. -/
def admitPart : MsgPart := Sha256.asciiBytes ("\x7b\"type\":\"KVAdmitMsg\",\"instance_id\":\"a\",\"worker_id\":0," ++
  "\"key\":\"k\",\"location\":\"gpu\"\x7d").toList

/-- A lookup, in JSON. -/
def lookupPart : MsgPart := Sha256.asciiBytes "\x7b\"type\":\"LookupMsg\",\"tokens\":[]\x7d".toList

/-- The encodings, on the parts of the two batches. -/
def smallCodec : MsgCodec where
  json := fun part =>
    if part = admitPart then .ok (.worker (.kvAdmit ⟨"a", 0, "k", "gpu"⟩))
    else if part = lookupPart then .ok (.orch (.lookup []))
    else .error (.valueError "")
  msgpack := fun _ => .error (.valueError "")

/-- **The admission is lost** after a part that is not JSON, and after a lookup. -/
theorem not_batchApplied_malformed :
    ((handleBatchedRequest smallCodec quietOps .init [[0x7b], admitPart]).applied = [] ∧
      ¬ BatchApplied smallCodec quietOps .init [[0x7b], admitPart]) ∧
    (handleBatchedRequest smallCodec quietOps .init [lookupPart, admitPart]).applied = [] ∧
      ¬ BatchApplied smallCodec quietOps .init [lookupPart, admitPart] := by
  have hmalformed : (handleBatchedRequest smallCodec quietOps .init [[0x7b], admitPart]).applied = [] := by
    decide +kernel
  have hlookup : (handleBatchedRequest smallCodec quietOps .init [lookupPart, admitPart]).applied = [] := by
    decide +kernel
  refine ⟨⟨hmalformed, fun h => ?_⟩, hlookup, fun h => ?_⟩
  · have happlied := hmalformed.symm.trans h.applied
    revert happlied
    decide +kernel
  · have happlied := hlookup.symm.trans h.applied
    revert happlied
    decide +kernel

end InfiniKV
