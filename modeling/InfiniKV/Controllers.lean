/-
**The controllers of the cluster.**

A controller manager has two controllers.  The one for registration knows the workers of each instance, the
socket to each worker, and the instance at each address; the other has a pool that maps each chunk to the
workers that hold it.  Workers send messages to register and deregister, and to say that a chunk has been
admitted or evicted.  They come in batches, and an exception ends the handling of a batch.

An exception does not undo what a handler has done before it, so a handler leaves a state behind also when it
raises.  Of ZeroMQ only matters whether a socket can be connected.

Main definitions:

* `InfiniKV.RegistrationController`, `InfiniKV.KVController`, `InfiniKV.InfiniKVControllerManager` — the
  controllers and the manager;
* `InfiniKV.Outcome` — the state that a handler leaves behind, and the exception it ends with;
* `InfiniKV.InfiniKVControllerManager.handleWorkerMessage`, `handleOrchestrationMessage` — the handlers.
-/

import InfiniKV.Python
import InfiniKV.PyDict

set_option relaxedAutoImplicit false
set_option autoImplicit false

namespace InfiniKV

/-! ### Messages -/

/-- `RegisterMsg`. -/
structure RegisterMsg where
  instanceId : String
  workerId : ℤ
  ip : String
  port : ℤ
  deriving DecidableEq

/-- `DeRegisterMsg`. -/
structure DeRegisterMsg where
  instanceId : String
  workerId : ℤ
  ip : String
  port : ℤ
  deriving DecidableEq

/-- `KVAdmitMsg`. -/
structure KVAdmitMsg where
  instanceId : String
  workerId : ℤ
  key : String
  location : String
  deriving DecidableEq

/-- `KVEvictMsg`. -/
structure KVEvictMsg where
  instanceId : String
  workerId : ℤ
  key : String
  location : String
  deriving DecidableEq

/-- `ClearMsg`, without the locations, which nothing reads. -/
structure ClearMsg where
  instanceId : String
  tokens : Option (List ℤ)
  deriving DecidableEq

/-- What a worker sends to the controller. -/
inductive WorkerMsg where
  | register (msg : RegisterMsg)
  | deregister (msg : DeRegisterMsg)
  | kvAdmit (msg : KVAdmitMsg)
  | kvEvict (msg : KVEvictMsg)
  deriving DecidableEq

/-- What an orchestrator sends.  The operations in the last cases are not implemented. -/
inductive OrchMsg where
  | queryInst (ip : String)
  | lookup (tokens : List ℤ)
  | clear (msg : ClearMsg)
  | pin
  | compress
  | move
  | health
  | checkFinish
  deriving DecidableEq

/-- A message of any kind.  The kinds that are neither from a worker nor from an orchestrator are not told
apart. -/
inductive Msg where
  | worker (msg : WorkerMsg)
  | orch (msg : OrchMsg)
  | other
  deriving DecidableEq

/-- What an orchestration message is answered with. -/
inductive OrchRetMsg where
  | queryInst (instanceId : Option String)
  | clear (success : Bool)
  | error (error : String)
  deriving DecidableEq

/-! ### Sockets and outcomes -/

/-- A socket to a worker, known by the number of the attempt that connected it. -/
structure ZmqSocket where
  number : ℕ
  url : String
  deriving DecidableEq

/-- The calls into ZeroMQ: the exception of the `n`-th attempt to connect a socket, if there is one, and what
the given sockets answer when the tokens to clear are sent to them. -/
structure ZmqOps where
  connect : ℕ → String → Option PyError
  executeWorkers : List ZmqSocket → Option (List ℤ) → Except PyError (List Bool)

/-- Sockets that can always be connected, to workers that always clear what they are asked to. -/
def quietOps : ZmqOps := ⟨fun _ _ => none, fun sockets _ => .ok (sockets.map fun _ => true)⟩

/-- What a handler leaves behind, and the exception it ends with, if any. -/
structure Outcome (σ : Type) where
  state : σ
  raises : Option PyError

/-- What a handler leaves behind in a part of a larger state. -/
def Outcome.map {σ τ : Type} (f : σ → τ) (o : Outcome σ) : Outcome τ := ⟨f o.state, o.raises⟩

/-! ### Registration -/

/-- `RegistrationController`, with the number of sockets it has asked for. -/
structure RegistrationController where
  workerMapping : PyDict String (List ℤ)
  socketMapping : PyDict (String × ℤ) ZmqSocket
  instanceMapping : PyDict String String
  numSockets : ℕ

namespace RegistrationController

/-- `RegistrationController.__init__`. -/
def init : RegistrationController := ⟨.empty, .empty, .empty, 0⟩

variable (zmq : ZmqOps) (r : RegistrationController)

/-- `get_socket`. -/
def getSocket (instanceId : String) (workerId : ℤ) : Option ZmqSocket :=
  r.socketMapping.get? (instanceId, workerId)

/-- `get_workers`. -/
def getWorkers (instanceId : String) : List ℤ := (r.workerMapping.get? instanceId).getD []

/-- `get_instance_id`. -/
def getInstanceId (ip : String) : Option String := r.instanceMapping.get? ip

/-- The address that is connected to. -/
def url (msg : RegisterMsg) : String := msg.ip ++ ":" ++ toString msg.port

/-- **`register`**.  The instance at the address is known from then on, also if there can be no socket. -/
def register (msg : RegisterMsg) : Outcome RegistrationController :=
  let url := url msg
  let r := { r with instanceMapping := r.instanceMapping.set msg.ip msg.instanceId }
  let number := r.numSockets
  let r := { r with numSockets := r.numSockets + 1 }
  match zmq.connect number url with
  | some e => ⟨r, some e⟩
  | none =>
      let r := { r with socketMapping := r.socketMapping.set (msg.instanceId, msg.workerId) ⟨number, url⟩ }
      ⟨{ r with workerMapping :=
          r.workerMapping.set msg.instanceId (r.getWorkers msg.instanceId ++ [msg.workerId]) }, none⟩

/-- The socket of a worker is closed.  The coroutine that would deregister its chunks is made and not
awaited, so the pool stays as it is. -/
def closeSocket (instanceId : String) (workerId : ℤ) : RegistrationController :=
  { r with socketMapping := r.socketMapping.erase (instanceId, workerId) }

/-- **`deregister`**.  A worker that its instance does not have cannot be removed from its list. -/
def deregister (msg : DeRegisterMsg) : Outcome RegistrationController :=
  let r := { r with instanceMapping := r.instanceMapping.erase msg.ip }
  match r.workerMapping.get? msg.instanceId with
  | none => ⟨r.closeSocket msg.instanceId msg.workerId, none⟩
  | some workers =>
      if msg.workerId ∈ workers then
        let workers := workers.erase msg.workerId
        let r := { r with workerMapping :=
          if workers = [] then r.workerMapping.erase msg.instanceId
          else r.workerMapping.set msg.instanceId workers }
        ⟨r.closeSocket msg.instanceId msg.workerId, none⟩
      else ⟨r, some (.valueError "list.remove(x): x not in list")⟩

variable {zmq} {r}

/-- A worker registers, if a socket to it can be connected. -/
theorem register_of_connect {msg : RegisterMsg} (h : zmq.connect r.numSockets (url msg) = none) :
    r.register zmq msg = ⟨{
      workerMapping := r.workerMapping.set msg.instanceId (r.getWorkers msg.instanceId ++ [msg.workerId])
      socketMapping := r.socketMapping.set (msg.instanceId, msg.workerId) ⟨r.numSockets, url msg⟩
      instanceMapping := r.instanceMapping.set msg.ip msg.instanceId
      numSockets := r.numSockets + 1 }, none⟩ := by
  simp only [register, h]
  rfl

/-- If not, only its address is known. -/
theorem register_of_error {msg : RegisterMsg} {e : PyError}
    (h : zmq.connect r.numSockets (url msg) = some e) :
    r.register zmq msg = ⟨{ r with
      instanceMapping := r.instanceMapping.set msg.ip msg.instanceId
      numSockets := r.numSockets + 1 }, some e⟩ := by
  simp only [register, h]

/-- A worker of an instance without workers deregisters. -/
theorem deregister_of_none {msg : DeRegisterMsg} (h : r.workerMapping.get? msg.instanceId = none) :
    r.deregister msg = ⟨{ r with
      socketMapping := r.socketMapping.erase (msg.instanceId, msg.workerId)
      instanceMapping := r.instanceMapping.erase msg.ip }, none⟩ := by
  simp only [deregister, h, closeSocket]

/-- One of the workers of an instance deregisters. -/
theorem deregister_of_mem {msg : DeRegisterMsg} {workers : List ℤ}
    (h : r.workerMapping.get? msg.instanceId = some workers) (hmem : msg.workerId ∈ workers) :
    r.deregister msg = ⟨{ r with
      workerMapping := if workers.erase msg.workerId = [] then r.workerMapping.erase msg.instanceId
        else r.workerMapping.set msg.instanceId (workers.erase msg.workerId)
      socketMapping := r.socketMapping.erase (msg.instanceId, msg.workerId)
      instanceMapping := r.instanceMapping.erase msg.ip }, none⟩ := by
  simp only [deregister, h, if_pos hmem, closeSocket]

/-- Another worker cannot be removed from the list of the instance. -/
theorem deregister_of_not_mem {msg : DeRegisterMsg} {workers : List ℤ}
    (h : r.workerMapping.get? msg.instanceId = some workers) (hmem : msg.workerId ∉ workers) :
    r.deregister msg = ⟨{ r with instanceMapping := r.instanceMapping.erase msg.ip },
      some (.valueError "list.remove(x): x not in list")⟩ := by
  simp only [deregister, h, if_neg hmem]

/-- When a registration raises. -/
theorem raises_register (msg : RegisterMsg) :
    (r.register zmq msg).raises = zmq.connect r.numSockets (url msg) := by
  cases h : zmq.connect r.numSockets (url msg) with
  | none => rw [register_of_connect h]
  | some e => rw [register_of_error h]

/-- When a deregistration raises. -/
theorem raises_deregister (msg : DeRegisterMsg) :
    (r.deregister msg).raises = none ↔
      ∀ workers, r.workerMapping.get? msg.instanceId = some workers → msg.workerId ∈ workers := by
  cases h : r.workerMapping.get? msg.instanceId with
  | none => simp [deregister_of_none h]
  | some workers =>
      by_cases hmem : msg.workerId ∈ workers
      · simp [deregister_of_mem h hmem, hmem]
      · simp [deregister_of_not_mem h hmem, hmem]

/-- The sockets after a deregistration that does not raise. -/
theorem socketMapping_deregister {msg : DeRegisterMsg} (h : (r.deregister msg).raises = none) :
    (r.deregister msg).state.socketMapping = r.socketMapping.erase (msg.instanceId, msg.workerId) := by
  rw [raises_deregister] at h
  cases hget : r.workerMapping.get? msg.instanceId with
  | none => rw [deregister_of_none hget]
  | some workers => rw [deregister_of_mem hget (h workers hget)]

end RegistrationController

/-! ### The pool -/

/-- `KVChunkMetadata`: who holds a chunk, and where. -/
structure KVChunkMetadata where
  instanceId : String
  workerId : ℤ
  location : String
  deriving DecidableEq

/-- `KVController`. -/
structure KVController where
  kvPool : PyDict String (List KVChunkMetadata)

namespace KVController

/-- `KVController.__init__`. -/
def init : KVController := ⟨.empty⟩

variable (c : KVController)

/-- **`admit`**.  It is the instance that is looked for among the keys, not the key. -/
def admitChunk (msg : KVAdmitMsg) : Outcome KVController :=
  let pool := if c.kvPool.get? msg.instanceId = none then c.kvPool.set msg.key [] else c.kvPool
  match pool.get? msg.key with
  | none => ⟨⟨pool⟩, some .keyError⟩
  | some chunks =>
      ⟨⟨pool.set msg.key (chunks ++ [⟨msg.instanceId, msg.workerId, msg.location⟩])⟩, none⟩

/-- **`evict`**. -/
def evict (msg : KVEvictMsg) : Outcome KVController :=
  match c.kvPool.get? msg.key with
  | none => ⟨c, none⟩
  | some chunks =>
      let remaining := chunks.filter fun chunk =>
        decide (chunk ≠ ⟨msg.instanceId, msg.workerId, msg.location⟩)
      if remaining ≠ [] then ⟨⟨c.kvPool.set msg.key remaining⟩, none⟩
      else ⟨⟨c.kvPool.erase msg.key⟩, none⟩

/-- `lookup`.  The token database of the controller is made without a configuration and has no attribute
`save_unfull_chunk`, which is read before the first chunk, whatever the tokens. -/
def lookup (_c : KVController) (_tokens : List ℤ) : Except PyError OrchRetMsg := .error .attributeError

end KVController

/-! ### Operations on workers -/

/-- The loop of `InfiniKVClusterExecutor.clear`: the sockets of the workers, or the first worker without
one. -/
def clearSockets (r : RegistrationController) (instanceId : String) : List ℤ → Except ℤ (List ZmqSocket)
  | [] => .ok []
  | workerId :: workerIds =>
      match r.getSocket instanceId workerId with
      | none => .error workerId
      | some socket => (clearSockets r instanceId workerIds).map (socket :: ·)

/-- **`InfiniKVClusterExecutor.clear`**. -/
def clusterClear (zmq : ZmqOps) (r : RegistrationController) (msg : ClearMsg) :
    Except PyError OrchRetMsg :=
  match clearSockets r msg.instanceId (r.getWorkers msg.instanceId) with
  | .error workerId => .ok (.error ("Worker " ++ toString workerId ++ " not registeredfor instance " ++
      msg.instanceId))
  | .ok sockets => (zmq.executeWorkers sockets msg.tokens).map fun results => .clear (results.all id)

/-- The text of an exception, as far as the model has it. -/
def PyError.str : PyError → String
  | .valueError msg => msg
  | .assertionError msg => msg
  | .runtimeError msg => msg
  | _ => ""

/-- `InfiniKVClusterExecutor.execute`: an exception becomes an answer. -/
def execute (operation : String) (result : Except PyError OrchRetMsg) : OrchRetMsg :=
  match result with
  | .ok msg => msg
  | .error .attributeError => .error ("Operation '" ++ operation ++ "' is not supported.")
  | .error e => .error e.str

/-- What the operations that are not implemented raise. -/
def notImplemented : Except PyError OrchRetMsg := .error (.runtimeError "")

/-! ### The manager -/

/-- `InfiniKVControllerManager`. -/
structure InfiniKVControllerManager where
  kvController : KVController
  regController : RegistrationController

namespace InfiniKVControllerManager

/-- `InfiniKVControllerManager.__init__`. -/
def init : InfiniKVControllerManager := ⟨.init, .init⟩

variable (zmq : ZmqOps) (m : InfiniKVControllerManager)

/-- **`handle_worker_message`**. -/
def handleWorkerMessage : WorkerMsg → Outcome InfiniKVControllerManager
  | .register msg => (m.regController.register zmq msg).map fun r => { m with regController := r }
  | .deregister msg => (m.regController.deregister msg).map fun r => { m with regController := r }
  | .kvAdmit msg => (m.kvController.admitChunk msg).map fun c => { m with kvController := c }
  | .kvEvict msg => (m.kvController.evict msg).map fun c => { m with kvController := c }

/-- `handle_orchestration_message`.  Nothing is changed by any of them. -/
def handleOrchestrationMessage : OrchMsg → Except PyError OrchRetMsg
  | .queryInst ip => .ok (.queryInst (m.regController.getInstanceId ip))
  | .lookup tokens => m.kvController.lookup tokens
  | .clear msg => .ok (execute "clear" (clusterClear zmq m.regController msg))
  | .pin => .ok (execute "pin" notImplemented)
  | .compress => .ok (execute "compress" notImplemented)
  | .move => .ok (execute "move" notImplemented)
  | .health => .ok (execute "health" notImplemented)
  | .checkFinish => .ok (execute "check_finish" notImplemented)

end InfiniKVControllerManager

end InfiniKV
