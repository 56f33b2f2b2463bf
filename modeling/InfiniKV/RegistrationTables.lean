/-
**The tables of registration.**

The controller for registration has three tables: the workers of each instance, the socket to each worker,
and the instance at each address.  They are to agree with each other and with the workers that are
registered, whatever messages have come.

They do not always.  A worker that registers twice is listed twice.  An address is forgotten when any worker
deregisters from it, and also when one does that was not registered; and such a message raises when its
instance has workers.

Main definitions:

* `InfiniKV.RegistrationRun` — a controller, and the address of each worker that is registered;
* `InfiniKV.TablesAgree` — the tables agree with each other and with these workers;
* `InfiniKV.TablesCondition` — the messages that do no harm.

Main results:

* `InfiniKV.TablesAgree.handle_iff` — one message;
* `InfiniKV.tablesAgree_iff` — **when the tables agree**;
* `InfiniKV.TablesAgree.clearSockets_eq` — with such tables each worker of an instance is told once to clear.
-/

import InfiniKV.Controllers
import InfiniKV.Runs

set_option relaxedAutoImplicit false
set_option autoImplicit false

namespace InfiniKV

/-- A message about a registration. -/
inductive RegistrationOp where
  | register (msg : RegisterMsg)
  | deregister (msg : DeRegisterMsg)

/-- It is handled. -/
def RegistrationController.handle (zmq : ZmqOps) (r : RegistrationController) :
    RegistrationOp → Outcome RegistrationController
  | .register msg => r.register zmq msg
  | .deregister msg => r.deregister msg

/-- A controller, and the address from which each worker is registered. -/
structure RegistrationRun where
  controller : RegistrationController
  registered : PyDict (String × ℤ) String

/-- **The tables agree**: the list of an instance has each of its workers once, and is not empty; the workers
in the lists are those with a socket; and an address with a registered worker has its instance. -/
structure TablesAgree (s : RegistrationRun) : Prop where
  workers : ∀ instanceId workerId, workerId ∈ s.controller.getWorkers instanceId ↔
    s.registered.get? (instanceId, workerId) ≠ none
  nodup : ∀ instanceId, (s.controller.getWorkers instanceId).Nodup
  nonempty : ∀ instanceId, s.controller.workerMapping.get? instanceId ≠ some []
  sockets : ∀ instanceId workerId, workerId ∈ s.controller.getWorkers instanceId ↔
    s.controller.getSocket instanceId workerId ≠ none
  instances : ∀ instanceId workerId ip, s.registered.get? (instanceId, workerId) = some ip →
    s.controller.getInstanceId ip = some instanceId

namespace RegistrationRun

variable (zmq : ZmqOps)

/-- A new controller. -/
def init : RegistrationRun := ⟨.init, .empty⟩

/-- A message is handled.  A worker is registered if a socket to it can be connected. -/
def handle (s : RegistrationRun) (op : RegistrationOp) : RegistrationRun where
  controller := (s.controller.handle zmq op).state
  registered :=
    match op with
    | .register msg =>
        if zmq.connect s.controller.numSockets (RegistrationController.url msg) = none then
          s.registered.set (msg.instanceId, msg.workerId) msg.ip
        else s.registered
    | .deregister msg => s.registered.erase (msg.instanceId, msg.workerId)

/-- What is to hold of a message: the tables agree after it; and if a worker deregisters that is not
registered, this does not raise and leaves the tables as they are. -/
structure Right (s : RegistrationRun) (op : RegistrationOp) : Prop where
  agree : TablesAgree (s.handle zmq op)
  unregistered : ∀ msg, op = .deregister msg → s.registered.get? (msg.instanceId, msg.workerId) = none →
    (s.controller.deregister msg).raises = none ∧ (s.controller.deregister msg).state = s.controller

end RegistrationRun

/-- **The messages that do no harm**: a worker that registers is not registered, unless there can be no socket
to it, and no worker of another instance is registered from its address; from the address of a worker that
deregisters no other worker is registered; and when a worker deregisters that is not registered, neither its
address nor its instance is known. -/
def TablesCondition (zmq : ZmqOps) (s : RegistrationRun) : RegistrationOp → Prop
  | .register msg =>
      (zmq.connect s.controller.numSockets (RegistrationController.url msg) = none →
        s.registered.get? (msg.instanceId, msg.workerId) = none) ∧
      ∀ instanceId workerId, s.registered.get? (instanceId, workerId) = some msg.ip →
        instanceId = msg.instanceId
  | .deregister msg =>
      if s.registered.get? (msg.instanceId, msg.workerId) = none then
        s.controller.getInstanceId msg.ip = none ∧ s.controller.workerMapping.get? msg.instanceId = none
      else ∀ instanceId workerId, (instanceId, workerId) ≠ (msg.instanceId, msg.workerId) →
        s.registered.get? (instanceId, workerId) ≠ some msg.ip

variable {zmq : ZmqOps} {s : RegistrationRun} {r : RegistrationController}

/-! ### Lists of workers -/

/-- The workers of an instance whose list has been set. -/
theorem getWorkers_set (r : RegistrationController) (instanceId : String) (workers : List ℤ)
    (instanceId' : String) :
    ({ r with workerMapping := r.workerMapping.set instanceId workers } :
      RegistrationController).getWorkers instanceId' =
      if instanceId' = instanceId then workers else r.getWorkers instanceId' := by
  rw [RegistrationController.getWorkers, PyDict.get?_set]
  split_ifs with h
  · rfl
  · rfl

/-- The workers of an instance after one of them has been removed. -/
theorem getWorkers_removed (r : RegistrationController) {instanceId : String} {workers : List ℤ}
    (workerId : ℤ) (h : r.workerMapping.get? instanceId = some workers) (instanceId' : String) :
    ((if workers.erase workerId = [] then r.workerMapping.erase instanceId
      else r.workerMapping.set instanceId (workers.erase workerId)).get? instanceId').getD [] =
      if instanceId' = instanceId then (r.getWorkers instanceId').erase workerId
      else r.getWorkers instanceId' := by
  by_cases hnil : workers.erase workerId = []
  · rw [if_pos hnil, PyDict.get?_erase]
    by_cases heq : instanceId' = instanceId
    · simp [heq, RegistrationController.getWorkers, h, hnil]
    · simp [heq, RegistrationController.getWorkers]
  · rw [if_neg hnil, PyDict.get?_set]
    by_cases heq : instanceId' = instanceId
    · simp [heq, RegistrationController.getWorkers, h]
    · simp [heq, RegistrationController.getWorkers]

/-! ### One message -/

namespace TablesAgree

/-- A worker that is not registered is in no list. -/
theorem not_mem_workers (h : TablesAgree s) {instanceId : String} {workerId : ℤ}
    (hreg : s.registered.get? (instanceId, workerId) = none) :
    workerId ∉ s.controller.getWorkers instanceId :=
  fun hmem => (h.workers _ _).1 hmem hreg

/-- A registered worker is in the list of its instance. -/
theorem exists_workers (h : TablesAgree s) {instanceId : String} {workerId : ℤ}
    (hreg : s.registered.get? (instanceId, workerId) ≠ none) :
    ∃ workers, s.controller.workerMapping.get? instanceId = some workers ∧ workerId ∈ workers := by
  have hmem := (h.workers _ _).2 hreg
  rw [RegistrationController.getWorkers] at hmem
  cases hget : s.controller.workerMapping.get? instanceId with
  | none =>
      rw [hget] at hmem
      cases hmem
  | some workers =>
      rw [hget] at hmem
      exact ⟨workers, rfl, hmem⟩

/-- A worker registers, and a socket to it can be connected. -/
theorem register_connect_iff (h : TablesAgree s) {msg : RegisterMsg}
    (hconn : zmq.connect s.controller.numSockets (RegistrationController.url msg) = none) :
    TablesAgree (s.handle zmq (.register msg)) ↔ TablesCondition zmq s (.register msg) := by
  have hstate : s.handle zmq (.register msg) = ⟨{
      workerMapping := s.controller.workerMapping.set msg.instanceId
        (s.controller.getWorkers msg.instanceId ++ [msg.workerId])
      socketMapping := s.controller.socketMapping.set (msg.instanceId, msg.workerId)
        ⟨s.controller.numSockets, RegistrationController.url msg⟩
      instanceMapping := s.controller.instanceMapping.set msg.ip msg.instanceId
      numSockets := s.controller.numSockets + 1 },
      s.registered.set (msg.instanceId, msg.workerId) msg.ip⟩ := by
    rw [RegistrationRun.handle, RegistrationController.handle,
      RegistrationController.register_of_connect hconn]
    simp only [if_pos hconn]
  have hworkers : ∀ instanceId, (s.handle zmq (.register msg)).controller.getWorkers instanceId =
      if instanceId = msg.instanceId then s.controller.getWorkers msg.instanceId ++ [msg.workerId]
      else s.controller.getWorkers instanceId := by
    rw [hstate]
    exact getWorkers_set s.controller _ _
  have hregistered : ∀ key, (s.handle zmq (.register msg)).registered.get? key =
      if key = (msg.instanceId, msg.workerId) then some msg.ip else s.registered.get? key := by
    rw [hstate]
    exact PyDict.get?_set _ _ _
  constructor
  · intro hagree
    refine ⟨fun _ => ?_, ?_⟩
    · -- the worker would be listed twice
      have hnodup := hagree.nodup msg.instanceId
      rw [hworkers, if_pos rfl] at hnodup
      by_contra hreg
      exact (List.nodup_append.1 hnodup).2.2 _ ((h.workers _ _).2 hreg) _ (List.mem_singleton_self _) rfl
    · intro instanceId workerId hreg
      by_cases heq : (instanceId, workerId) = (msg.instanceId, msg.workerId)
      · exact (Prod.mk.inj heq).1
      · have hinst := hagree.instances instanceId workerId msg.ip (by rw [hregistered, if_neg heq, hreg])
        rw [hstate, RegistrationController.getInstanceId, PyDict.get?_set_self] at hinst
        exact (Option.some.inj hinst).symm
  · rintro ⟨hnew, hothers⟩
    have hnot := h.not_mem_workers (hnew hconn)
    constructor
    · intro instanceId workerId
      rw [hworkers, hregistered]
      by_cases heq : instanceId = msg.instanceId
      · subst heq
        rw [if_pos rfl, List.mem_append, List.mem_singleton, h.workers]
        by_cases hworker : workerId = msg.workerId
        · simp [hworker]
        · simp [hworker]
      · simp [heq, h.workers]
    · intro instanceId
      rw [hworkers]
      split_ifs with heq
      · refine List.nodup_append.2 ⟨h.nodup _, List.nodup_singleton _, ?_⟩
        intro a ha b hb hab
        rw [List.mem_singleton] at hb
        exact hnot (hb ▸ hab ▸ ha)
      · exact h.nodup instanceId
    · intro instanceId
      rw [hstate]
      simp only [PyDict.get?_set]
      split_ifs
      · simp
      · exact h.nonempty instanceId
    · intro instanceId workerId
      rw [hworkers, hstate, RegistrationController.getSocket, PyDict.get?_set]
      by_cases heq : instanceId = msg.instanceId
      · subst heq
        rw [if_pos rfl, List.mem_append, List.mem_singleton, h.sockets]
        by_cases hworker : workerId = msg.workerId
        · simp [hworker]
        · simp [hworker, RegistrationController.getSocket]
      · simp [heq, h.sockets, RegistrationController.getSocket]
    · intro instanceId workerId ip hip
      rw [hregistered] at hip
      rw [hstate, RegistrationController.getInstanceId, PyDict.get?_set]
      by_cases heq : (instanceId, workerId) = (msg.instanceId, msg.workerId)
      · rw [if_pos heq] at hip
        rw [if_pos (Option.some.inj hip).symm, (Prod.mk.inj heq).1]
      · rw [if_neg heq] at hip
        by_cases haddr : ip = msg.ip
        · rw [if_pos haddr, hothers instanceId workerId (haddr ▸ hip)]
        · rw [if_neg haddr]
          exact h.instances instanceId workerId ip hip

/-- A worker registers, and there can be no socket to it. -/
theorem register_error_iff (h : TablesAgree s) {msg : RegisterMsg} {e : PyError}
    (hconn : zmq.connect s.controller.numSockets (RegistrationController.url msg) = some e) :
    TablesAgree (s.handle zmq (.register msg)) ↔ TablesCondition zmq s (.register msg) := by
  have hstate : s.handle zmq (.register msg) = ⟨{ s.controller with
      instanceMapping := s.controller.instanceMapping.set msg.ip msg.instanceId
      numSockets := s.controller.numSockets + 1 }, s.registered⟩ := by
    rw [RegistrationRun.handle, RegistrationController.handle,
      RegistrationController.register_of_error hconn]
    simp [hconn]
  have hinst : ∀ ip, (s.handle zmq (.register msg)).controller.getInstanceId ip =
      if ip = msg.ip then some msg.instanceId else s.controller.getInstanceId ip := by
    rw [hstate]
    exact PyDict.get?_set _ _ _
  constructor
  · intro hagree
    refine ⟨fun hnone => absurd (hconn.symm.trans hnone) (by simp), ?_⟩
    intro instanceId workerId hreg
    have hsame := hagree.instances instanceId workerId msg.ip (by rw [hstate]; exact hreg)
    rw [hinst, if_pos rfl] at hsame
    exact (Option.some.inj hsame).symm
  · rintro ⟨-, hothers⟩
    refine ⟨?_, ?_, ?_, ?_, ?_⟩
    · rw [hstate]
      exact h.workers
    · rw [hstate]
      exact h.nodup
    · rw [hstate]
      exact h.nonempty
    · rw [hstate]
      exact h.sockets
    · intro instanceId workerId ip hip
      rw [hstate] at hip
      rw [hinst]
      split_ifs with haddr
      · rw [hothers instanceId workerId (haddr ▸ hip)]
      · exact h.instances instanceId workerId ip hip

/-- A registered worker deregisters. -/
theorem deregister_iff (h : TablesAgree s) {msg : DeRegisterMsg}
    (hreg : s.registered.get? (msg.instanceId, msg.workerId) ≠ none) :
    TablesAgree (s.handle zmq (.deregister msg)) ↔ TablesCondition zmq s (.deregister msg) := by
  obtain ⟨workers, hget, hmem⟩ := h.exists_workers hreg
  have hstate : s.handle zmq (.deregister msg) = ⟨{ s.controller with
      workerMapping := if workers.erase msg.workerId = [] then s.controller.workerMapping.erase msg.instanceId
        else s.controller.workerMapping.set msg.instanceId (workers.erase msg.workerId)
      socketMapping := s.controller.socketMapping.erase (msg.instanceId, msg.workerId)
      instanceMapping := s.controller.instanceMapping.erase msg.ip },
      s.registered.erase (msg.instanceId, msg.workerId)⟩ := by
    rw [RegistrationRun.handle, RegistrationController.handle,
      RegistrationController.deregister_of_mem hget hmem]
  have hworkers : ∀ instanceId, (s.handle zmq (.deregister msg)).controller.getWorkers instanceId =
      if instanceId = msg.instanceId then (s.controller.getWorkers instanceId).erase msg.workerId
      else s.controller.getWorkers instanceId := by
    rw [hstate]
    exact getWorkers_removed s.controller msg.workerId hget
  have hregistered : ∀ key, (s.handle zmq (.deregister msg)).registered.get? key =
      if key = (msg.instanceId, msg.workerId) then none else s.registered.get? key := by
    rw [hstate]
    exact PyDict.get?_erase _ _
  have hinst : ∀ ip, (s.handle zmq (.deregister msg)).controller.getInstanceId ip =
      if ip = msg.ip then none else s.controller.getInstanceId ip := by
    rw [hstate]
    exact PyDict.get?_erase _ _
  rw [TablesCondition, if_neg hreg]
  constructor
  · intro hagree instanceId workerId hne hip
    have hsame := hagree.instances instanceId workerId msg.ip (by rw [hregistered, if_neg hne, hip])
    rw [hinst, if_pos rfl] at hsame
    cases hsame
  · intro hothers
    constructor
    · intro instanceId workerId
      rw [hworkers, hregistered]
      by_cases heq : instanceId = msg.instanceId
      · subst heq
        rw [if_pos rfl, (h.nodup _).mem_erase_iff, h.workers]
        by_cases hworker : workerId = msg.workerId
        · simp [hworker]
        · simp [hworker]
      · simp [heq, h.workers]
    · intro instanceId
      rw [hworkers]
      split_ifs
      · exact (h.nodup instanceId).erase _
      · exact h.nodup instanceId
    · intro instanceId
      rw [hstate]
      by_cases hnil : workers.erase msg.workerId = []
      · simp only [if_pos hnil, PyDict.get?_erase]
        split_ifs
        · simp
        · exact h.nonempty instanceId
      · simp only [if_neg hnil, PyDict.get?_set]
        split_ifs
        · simpa using hnil
        · exact h.nonempty instanceId
    · intro instanceId workerId
      rw [hworkers, hstate, RegistrationController.getSocket, PyDict.get?_erase]
      by_cases heq : instanceId = msg.instanceId
      · subst heq
        rw [if_pos rfl, (h.nodup _).mem_erase_iff, h.sockets]
        by_cases hworker : workerId = msg.workerId
        · simp [hworker]
        · simp [hworker, RegistrationController.getSocket]
      · simp [heq, h.sockets, RegistrationController.getSocket]
    · intro instanceId workerId ip hip
      rw [hregistered] at hip
      by_cases heq : (instanceId, workerId) = (msg.instanceId, msg.workerId)
      · rw [if_pos heq] at hip
        cases hip
      · rw [if_neg heq] at hip
        have haddr : ip ≠ msg.ip := fun haddr => hothers instanceId workerId heq (haddr ▸ hip)
        rw [hinst, if_neg haddr]
        exact h.instances instanceId workerId ip hip

/-- A worker deregisters that is not registered. -/
theorem deregister_unregistered_iff (h : TablesAgree s) {msg : DeRegisterMsg}
    (hreg : s.registered.get? (msg.instanceId, msg.workerId) = none) :
    (s.controller.deregister msg).raises = none ∧ (s.controller.deregister msg).state = s.controller ↔
      TablesCondition zmq s (.deregister msg) := by
  have hnot := h.not_mem_workers hreg
  rw [TablesCondition, if_pos hreg, RegistrationController.getInstanceId]
  constructor
  · rintro ⟨hraises, hstate⟩
    have hnone : s.controller.workerMapping.get? msg.instanceId = none := by
      rw [RegistrationController.raises_deregister] at hraises
      cases hget : s.controller.workerMapping.get? msg.instanceId with
      | none => rfl
      | some workers =>
          rw [RegistrationController.getWorkers, hget] at hnot
          exact absurd (hraises workers hget) hnot
    refine ⟨?_, hnone⟩
    rw [RegistrationController.deregister_of_none hnone] at hstate
    have hinst := congrArg (fun r => r.instanceMapping.get? msg.ip) hstate
    simpa [PyDict.get?_erase] using hinst.symm
  · rintro ⟨hip, hnone⟩
    have hsocket : s.controller.socketMapping.get? (msg.instanceId, msg.workerId) = none := by
      by_contra hsocket
      exact hnot ((h.sockets _ _).2 hsocket)
    rw [RegistrationController.deregister_of_none hnone, PyDict.erase_eq_self hip,
      PyDict.erase_eq_self hsocket]
    exact ⟨rfl, rfl⟩

/-- **One message**: what is to hold of it does if and only if it does no harm. -/
theorem handle_iff (h : TablesAgree s) (op : RegistrationOp) :
    s.Right zmq op ↔ TablesCondition zmq s op := by
  cases op with
  | register msg =>
      have hright : s.Right zmq (.register msg) ↔ TablesAgree (s.handle zmq (.register msg)) :=
        ⟨fun hr => hr.agree, fun hagree => ⟨hagree, fun _ heq => by cases heq⟩⟩
      rw [hright]
      cases hconn : zmq.connect s.controller.numSockets (RegistrationController.url msg) with
      | none => exact h.register_connect_iff hconn
      | some e => exact h.register_error_iff hconn
  | deregister msg =>
      by_cases hreg : s.registered.get? (msg.instanceId, msg.workerId) = none
      · rw [← h.deregister_unregistered_iff hreg]
        refine ⟨fun hr => hr.unregistered msg rfl hreg, fun hsame => ⟨?_, ?_⟩⟩
        · have hstate : s.handle zmq (.deregister msg) = s := by
            rw [RegistrationRun.handle, RegistrationController.handle, hsame.2]
            simp only [PyDict.erase_eq_self hreg]
          rw [hstate]
          exact h
        · intro msg' heq _
          cases heq
          exact hsame
      · rw [← h.deregister_iff hreg]
        refine ⟨fun hr => hr.agree, fun hagree => ⟨hagree, ?_⟩⟩
        intro msg' heq hnone
        cases heq
        exact absurd hnone hreg

/-- The empty tables of a new controller. -/
theorem init : TablesAgree .init where
  workers := fun _ _ => iff_of_false (by simp [RegistrationRun.init, RegistrationController.init,
    RegistrationController.getWorkers]) (fun h => h rfl)
  nodup := fun _ => List.nodup_nil
  nonempty := by simp [RegistrationRun.init, RegistrationController.init]
  sockets := fun _ _ => iff_of_false (by simp [RegistrationRun.init, RegistrationController.init,
    RegistrationController.getWorkers]) (fun h => h rfl)
  instances := by simp [RegistrationRun.init]

/-- **Each worker of an instance is told once to clear**, through its socket. -/
theorem clearSockets_eq (h : TablesAgree s) (instanceId : String) :
    ∃ sockets, clearSockets s.controller instanceId (s.controller.getWorkers instanceId) = .ok sockets ∧
      sockets.map some = (s.controller.getWorkers instanceId).map (s.controller.getSocket instanceId) := by
  have hsockets : ∀ workerId ∈ s.controller.getWorkers instanceId,
      s.controller.getSocket instanceId workerId ≠ none := fun workerId => (h.sockets _ _).1
  revert hsockets
  induction s.controller.getWorkers instanceId with
  | nil => exact fun _ => ⟨[], rfl, rfl⟩
  | cons workerId workerIds ih =>
      intro hsockets
      obtain ⟨hsocket, hrest⟩ := List.forall_mem_cons.1 hsockets
      obtain ⟨sockets, hclear, hmap⟩ := ih hrest
      obtain ⟨socket, hget⟩ := Option.ne_none_iff_exists'.1 hsocket
      refine ⟨socket :: sockets, ?_, ?_⟩
      · rw [clearSockets, hget]
        simp only [hclear]
        rfl
      · rw [List.map_cons, List.map_cons, hmap, hget]

end TablesAgree

/-! ### All messages -/

/-- **When the tables agree**, for any messages to a new controller: the tables agree after each message, and
none that deregisters a worker that is not registered raises or changes them, if and only if each message does
no harm to the tables that it finds. -/
theorem tablesAgree_iff (zmq : ZmqOps) (ops : List RegistrationOp) :
    Along (RegistrationRun.handle zmq) (RegistrationRun.Right zmq) .init ops ↔
      Along (RegistrationRun.handle zmq) (TablesCondition zmq) .init ops :=
  along_iff_of_inv TablesAgree (fun _ _ _ hright => hright.agree) (fun _ op h => h.handle_iff op)
    TablesAgree.init ops

/-! ### Three runs -/

/-- Of two workers at one address one deregisters. -/
def sharedAddress : List RegistrationOp :=
  [.register ⟨"a", 0, "h", 1⟩, .register ⟨"a", 1, "h", 2⟩, .deregister ⟨"a", 0, "h", 1⟩]

/-- A worker registers twice. -/
def registeredTwice : List RegistrationOp := [.register ⟨"a", 0, "h", 1⟩, .register ⟨"a", 0, "h", 1⟩]

/-- A worker deregisters that is not registered. -/
def unknownWorker : List RegistrationOp := [.register ⟨"a", 0, "h", 1⟩, .deregister ⟨"a", 5, "g", 1⟩]

/-- **The address is forgotten** although a worker is still registered from it; a worker is listed twice; and
the list has no worker to remove. -/
theorem not_tablesAgree_sharedAddress :
    ¬ Along (RegistrationRun.handle quietOps) (RegistrationRun.Right quietOps) .init sharedAddress ∧
      ¬ Along (RegistrationRun.handle quietOps) (RegistrationRun.Right quietOps) .init registeredTwice ∧
      ¬ Along (RegistrationRun.handle quietOps) (RegistrationRun.Right quietOps) .init unknownWorker := by
  refine ⟨?_, ?_, ?_⟩
  · rintro ⟨-, -, hright, -⟩
    have hinst := hright.agree.instances "a" 1 "h" (by decide +kernel)
    revert hinst
    decide +kernel
  · rintro ⟨-, hright, -⟩
    have hnodup := hright.agree.nodup "a"
    revert hnodup
    decide +kernel
  · rintro ⟨-, hright, -⟩
    have hraises := (hright.unregistered _ rfl (by decide +kernel)).1
    revert hraises
    decide +kernel

end InfiniKV
