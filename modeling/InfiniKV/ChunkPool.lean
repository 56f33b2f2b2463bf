/-
**The pool of chunks.**

The pool of the controller is to map each chunk to those who hold it: the workers that have admitted it, as
long as they have not evicted it and have not been deregistered.  A ledger of sets says so, and is compared
with the pool after each message.

An eviction does to the pool what it should.  An admission looks for the instance among the keys of the pool
where it should look for the key: it drops what others have admitted for the key, or raises when the instance
is also a key.  And a deregistration leaves the chunks of the worker in the pool.

Main definitions:

* `InfiniKV.PoolLedger` — the workers that are registered, and who holds which chunk;
* `InfiniKV.PoolRight` — the pool is what the ledger says;
* `InfiniKV.PoolRun` — a manager with the ledger of the messages it has handled;
* `InfiniKV.PoolCondition` — the messages that do no harm.

Main results:

* `InfiniKV.KVController.holds_admitChunk`, `InfiniKV.KVController.holds_evict` — what an admission and an
  eviction do;
* `InfiniKV.PoolRight.handle_iff` — one message;
* `InfiniKV.poolRight_iff` — **when the pool is right**.
-/

import InfiniKV.Controllers
import InfiniKV.Runs
import Mathlib.Data.Set.Insert

set_option relaxedAutoImplicit false
set_option autoImplicit false

namespace InfiniKV

/-! ### What an admission and an eviction do -/

/-- Who admits the chunk. -/
def KVAdmitMsg.chunk (msg : KVAdmitMsg) : KVChunkMetadata := ⟨msg.instanceId, msg.workerId, msg.location⟩

/-- Who evicts the chunk. -/
def KVEvictMsg.chunk (msg : KVEvictMsg) : KVChunkMetadata := ⟨msg.instanceId, msg.workerId, msg.location⟩

/-- The worker that holds a chunk. -/
def KVChunkMetadata.holder (chunk : KVChunkMetadata) : String × ℤ := (chunk.instanceId, chunk.workerId)

namespace KVController

/-- What the pool lists for a key. -/
def Holds (c : KVController) (key : String) (chunk : KVChunkMetadata) : Prop :=
  ∃ chunks, c.kvPool.get? key = some chunks ∧ chunk ∈ chunks

/-- No key has an empty list. -/
def NoEmpty (c : KVController) : Prop := ∀ key, c.kvPool.get? key ≠ some []

variable {c : KVController}

/-- What the pool lists after an assignment. -/
theorem holds_set {pool : PyDict String (List KVChunkMetadata)} {key key' : String}
    {chunks : List KVChunkMetadata} {chunk : KVChunkMetadata} :
    (⟨pool.set key chunks⟩ : KVController).Holds key' chunk ↔
      if key' = key then chunk ∈ chunks else (⟨pool⟩ : KVController).Holds key' chunk := by
  rw [Holds, PyDict.get?_set]
  split_ifs with h
  · simp
  · rfl

/-- An assignment of a list that is not empty. -/
theorem noEmpty_set {pool : PyDict String (List KVChunkMetadata)} {key : String}
    {chunks : List KVChunkMetadata} (h : ∀ key', key' ≠ key → pool.get? key' ≠ some [])
    (hchunks : chunks ≠ []) : (⟨pool.set key chunks⟩ : KVController).NoEmpty := by
  intro key'
  rw [PyDict.get?_set]
  split_ifs with hkey
  · simpa using hchunks
  · exact h key' hkey

/-- An admission when the instance is not a key of the pool. -/
theorem admitChunk_of_none {msg : KVAdmitMsg} (hinst : c.kvPool.get? msg.instanceId = none) :
    c.admitChunk msg = ⟨⟨(c.kvPool.set msg.key []).set msg.key [msg.chunk]⟩, none⟩ := by
  rw [admitChunk]
  simp only [if_pos hinst, PyDict.get?_set_self]
  rfl

/-- An admission when the instance and the key are keys of the pool. -/
theorem admitChunk_of_some {msg : KVAdmitMsg} {chunks : List KVChunkMetadata}
    (hinst : c.kvPool.get? msg.instanceId ≠ none) (hkey : c.kvPool.get? msg.key = some chunks) :
    c.admitChunk msg = ⟨⟨c.kvPool.set msg.key (chunks ++ [msg.chunk])⟩, none⟩ := by
  rw [admitChunk]
  simp only [if_neg hinst, hkey]
  rfl

/-- An admission when the instance is a key of the pool, and the key is not. -/
theorem admitChunk_keyError {msg : KVAdmitMsg} (hinst : c.kvPool.get? msg.instanceId ≠ none)
    (hkey : c.kvPool.get? msg.key = none) : c.admitChunk msg = ⟨c, some .keyError⟩ := by
  rw [admitChunk]
  simp only [if_neg hinst, hkey]

/-- An admission raises when the instance is a key of the pool and the key is not. -/
theorem raises_admitChunk (msg : KVAdmitMsg) :
    (c.admitChunk msg).raises = none ↔
      (c.kvPool.get? msg.instanceId ≠ none → c.kvPool.get? msg.key ≠ none) := by
  by_cases hinst : c.kvPool.get? msg.instanceId = none
  · rw [admitChunk_of_none hinst]
    simp [hinst]
  · cases hkey : c.kvPool.get? msg.key with
    | none => simp [admitChunk_keyError hinst hkey, hinst]
    | some chunks => simp [admitChunk_of_some hinst hkey]

/-- **An admission** that does not raise: what was listed for the key stays if the instance is a key of the
pool. -/
theorem holds_admitChunk {msg : KVAdmitMsg} (h : (c.admitChunk msg).raises = none) (key : String)
    (chunk : KVChunkMetadata) :
    (c.admitChunk msg).state.Holds key chunk ↔ key = msg.key ∧ chunk = msg.chunk ∨
      c.Holds key chunk ∧ (key = msg.key → c.kvPool.get? msg.instanceId ≠ none) := by
  rw [raises_admitChunk] at h
  by_cases hinst : c.kvPool.get? msg.instanceId = none
  · rw [admitChunk_of_none hinst, holds_set, holds_set]
    by_cases hkey : key = msg.key
    · simp [hkey, hinst]
    · simp [hkey, Holds]
  · cases hget : c.kvPool.get? msg.key with
    | none => exact absurd hget (h hinst)
    | some chunks =>
        rw [admitChunk_of_some hinst hget, holds_set]
        by_cases hkey : key = msg.key
        · simp [hkey, Holds, hget, hinst, or_comm]
        · simp [hkey, Holds]

/-- An admission leaves no key with an empty list. -/
theorem noEmpty_admitChunk (h : c.NoEmpty) {msg : KVAdmitMsg} (hraises : (c.admitChunk msg).raises = none) :
    (c.admitChunk msg).state.NoEmpty := by
  rw [raises_admitChunk] at hraises
  by_cases hinst : c.kvPool.get? msg.instanceId = none
  · rw [admitChunk_of_none hinst]
    refine noEmpty_set (fun key hkey => ?_) (by simp)
    rw [PyDict.get?_set_ne _ _ hkey]
    exact h key
  · cases hget : c.kvPool.get? msg.key with
    | none => exact absurd hget (hraises hinst)
    | some chunks =>
        rw [admitChunk_of_some hinst hget]
        exact noEmpty_set (fun key _ => h key) (by simp)

/-- An eviction does not raise. -/
theorem raises_evict (msg : KVEvictMsg) : (c.evict msg).raises = none := by
  rw [evict]
  cases c.kvPool.get? msg.key with
  | none => rfl
  | some chunks =>
      dsimp only
      split_ifs <;> rfl

/-- **An eviction** removes who evicts the chunk. -/
theorem holds_evict (msg : KVEvictMsg) (key : String) (chunk : KVChunkMetadata) :
    (c.evict msg).state.Holds key chunk ↔ c.Holds key chunk ∧ (key, chunk) ≠ (msg.key, msg.chunk) := by
  rw [evict]
  cases hget : c.kvPool.get? msg.key with
  | none =>
      dsimp only
      refine (and_iff_left_of_imp ?_).symm
      rintro ⟨chunks, hchunks, -⟩ heq
      rw [(Prod.mk.inj heq).1, hget] at hchunks
      cases hchunks
  | some chunks =>
      dsimp only
      split_ifs with hrest
      · rw [holds_set]
        by_cases hkey : key = msg.key
        · simp [hkey, Holds, hget, KVEvictMsg.chunk]
        · simp [hkey, Holds]
      · -- nothing else is listed for the key
        rw [not_not, List.filter_eq_nil_iff] at hrest
        simp only [Holds, PyDict.get?_erase]
        by_cases hkey : key = msg.key
        · subst hkey
          simpa [hget, KVEvictMsg.chunk] using hrest chunk
        · simp [hkey]

/-- An eviction leaves no key with an empty list. -/
theorem noEmpty_evict (h : c.NoEmpty) (msg : KVEvictMsg) : (c.evict msg).state.NoEmpty := by
  rw [evict]
  cases hget : c.kvPool.get? msg.key with
  | none => exact h
  | some chunks =>
      dsimp only
      split_ifs with hrest
      · exact noEmpty_set (fun key _ => h key) hrest
      · intro key
        simp only [PyDict.get?_erase]
        split_ifs
        · simp
        · exact h key

end KVController

/-! ### The ledger -/

/-- The workers that are registered, and who holds which chunk. -/
structure PoolLedger where
  registered : Set (String × ℤ)
  live : Set (String × KVChunkMetadata)

namespace PoolLedger

/-- A new ledger. -/
def new : PoolLedger := ⟨∅, ∅⟩

/-- What a message says.  A worker that is not registered cannot be deregistered. -/
def handle (l : PoolLedger) : WorkerMsg → PoolLedger
  | .register msg => { l with registered := insert (msg.instanceId, msg.workerId) l.registered }
  | .deregister msg =>
      { registered := l.registered \ {(msg.instanceId, msg.workerId)}
        live := {e ∈ l.live |
          (msg.instanceId, msg.workerId) ∈ l.registered → e.2.holder ≠ (msg.instanceId, msg.workerId)} }
  | .kvAdmit msg => { l with live := insert (msg.key, msg.chunk) l.live }
  | .kvEvict msg => { l with live := l.live \ {(msg.key, msg.chunk)} }

end PoolLedger

/-! ### When the pool is right -/

/-- **The pool is what the ledger says**: a key that nobody holds is absent. -/
structure PoolRight (m : InfiniKVControllerManager) (l : PoolLedger) : Prop where
  holds : ∀ key chunk, m.kvController.Holds key chunk ↔ (key, chunk) ∈ l.live
  absent : ∀ key, (∀ chunk, (key, chunk) ∉ l.live) → m.kvController.kvPool.get? key = none

/-- A manager with the ledger of the messages it has handled. -/
structure PoolRun where
  manager : InfiniKVControllerManager
  ledger : PoolLedger

namespace PoolRun

/-- No message has been handled. -/
def init : PoolRun := ⟨.init, .new⟩

/-- A message of a worker is handled. -/
def handle (zmq : ZmqOps) (s : PoolRun) (msg : WorkerMsg) : PoolRun :=
  ⟨(s.manager.handleWorkerMessage zmq msg).state, s.ledger.handle msg⟩

/-- What is to hold of a message: it does not raise, and the pool is right after it. -/
def Right (zmq : ZmqOps) (s : PoolRun) (msg : WorkerMsg) : Prop :=
  (s.manager.handleWorkerMessage zmq msg).raises = none ∧
    PoolRight (s.handle zmq msg).manager (s.handle zmq msg).ledger

end PoolRun

/-- **The messages that do no harm**: a socket to a worker that registers can be connected; a worker that
deregisters is one that its instance has, if its instance has any, and holds no chunk if there is a socket to
it; and when a chunk is admitted, then if the instance is a key of the pool so is the key of the chunk, and if
it is not then nobody else is listed for the key. -/
def PoolCondition (zmq : ZmqOps) (m : InfiniKVControllerManager) : WorkerMsg → Prop
  | .register msg => zmq.connect m.regController.numSockets (RegistrationController.url msg) = none
  | .deregister msg =>
      (∀ workers, m.regController.workerMapping.get? msg.instanceId = some workers → msg.workerId ∈ workers) ∧
        (m.regController.getSocket msg.instanceId msg.workerId ≠ none →
          ∀ key chunk, m.kvController.Holds key chunk → chunk.holder ≠ (msg.instanceId, msg.workerId))
  | .kvAdmit msg =>
      (m.kvController.kvPool.get? msg.instanceId ≠ none → m.kvController.kvPool.get? msg.key ≠ none) ∧
        (m.kvController.kvPool.get? msg.instanceId = none →
          ∀ chunk, m.kvController.Holds msg.key chunk → chunk = msg.chunk)
  | .kvEvict _ => True

/-- There is a socket to each worker that is registered. -/
def Connected (m : InfiniKVControllerManager) (l : PoolLedger) : Prop :=
  ∀ instanceId workerId, m.regController.getSocket instanceId workerId ≠ none ↔
    (instanceId, workerId) ∈ l.registered

variable {zmq : ZmqOps} {m : InfiniKVControllerManager} {l : PoolLedger} {s : PoolRun} {msg : WorkerMsg}

/-- The pool is right if the lists are, and none of them is empty. -/
theorem PoolRight.noEmpty (h : PoolRight m l) : m.kvController.NoEmpty := by
  intro key hnil
  have hnone : ∀ chunk, (key, chunk) ∉ l.live := by
    intro chunk hlive
    obtain ⟨chunks, hchunks, hmem⟩ := (h.holds key chunk).2 hlive
    cases hnil.symm.trans hchunks
    cases hmem
  rw [h.absent key hnone] at hnil
  cases hnil

theorem PoolRight.of_noEmpty (hholds : ∀ key chunk, m.kvController.Holds key chunk ↔ (key, chunk) ∈ l.live)
    (hempty : m.kvController.NoEmpty) : PoolRight m l := by
  refine ⟨hholds, fun key hnone => ?_⟩
  cases hget : m.kvController.kvPool.get? key with
  | none => rfl
  | some chunks =>
      cases chunks with
      | nil => exact absurd hget (hempty key)
      | cons chunk chunks =>
          exact absurd ((hholds key chunk).1 ⟨_, hget, List.mem_cons_self⟩) (hnone chunk)

/-- **One message**: it does not raise and leaves the pool right if and only if it does no harm. -/
theorem PoolRight.handle_iff (h : PoolRight s.manager s.ledger) (hconn : Connected s.manager s.ledger) :
    s.Right zmq msg ↔ PoolCondition zmq s.manager msg := by
  cases msg with
  | register msg =>
      refine Iff.trans (and_iff_left ⟨h.holds, h.absent⟩) ?_
      exact iff_of_eq (congrArg (· = none) (RegistrationController.raises_register msg))
  | deregister msg =>
      refine and_congr (RegistrationController.raises_deregister msg) ?_
      rw [hconn]
      constructor
      · intro hright hreg key chunk hholds
        -- the pool is as before, so what the ledger has dropped was not in it
        exact ((hright.holds key chunk).1 hholds).2 hreg
      · intro hnone
        refine .of_noEmpty (fun key chunk => (h.holds key chunk).trans ?_) h.noEmpty
        refine (and_iff_left_of_imp fun hlive hreg => ?_).symm
        exact hnone hreg key chunk ((h.holds key chunk).2 hlive)
  | kvAdmit msg =>
      rw [PoolCondition, ← KVController.raises_admitChunk]
      refine and_congr_right fun hraises => ?_
      have hholds := KVController.holds_admitChunk hraises
      constructor
      · intro hright hinst chunk hchunk
        have hlive := (hright.holds msg.key chunk).2 (Or.inr ((h.holds msg.key chunk).1 hchunk))
        rcases (hholds msg.key chunk).1 hlive with ⟨-, rfl⟩ | ⟨-, hne⟩
        · rfl
        · exact absurd hinst (hne rfl)
      · intro hothers
        refine .of_noEmpty (fun key chunk => (hholds key chunk).trans ?_)
          (KVController.noEmpty_admitChunk h.noEmpty hraises)
        have hlive : (key, chunk) ∈ (s.handle zmq (.kvAdmit msg)).ledger.live ↔
            key = msg.key ∧ chunk = msg.chunk ∨ s.manager.kvController.Holds key chunk := by
          rw [h.holds, ← Prod.mk.injEq]
          rfl
        rw [hlive]
        constructor
        · exact Or.imp_right And.left
        · rintro (heq | hchunk)
          · exact Or.inl heq
          · by_cases hkey : key = msg.key
            · subst hkey
              by_cases hinst : s.manager.kvController.kvPool.get? msg.instanceId = none
              · exact Or.inl ⟨rfl, hothers hinst chunk hchunk⟩
              · exact Or.inr ⟨hchunk, fun _ => hinst⟩
            · exact Or.inr ⟨hchunk, fun heq => absurd heq hkey⟩
  | kvEvict msg =>
      refine iff_of_true ⟨KVController.raises_evict msg, ?_⟩ trivial
      refine .of_noEmpty (fun key chunk => (KVController.holds_evict msg key chunk).trans ?_)
        (KVController.noEmpty_evict h.noEmpty msg)
      rw [h.holds]
      rfl

/-- A message that does not raise keeps the sockets to the workers that are registered. -/
theorem Connected.handle (h : Connected s.manager s.ledger)
    (hraises : (s.manager.handleWorkerMessage zmq msg).raises = none) :
    Connected (s.handle zmq msg).manager (s.handle zmq msg).ledger := by
  cases msg with
  | register msg =>
      have hconnect : zmq.connect s.manager.regController.numSockets (RegistrationController.url msg) =
          none := (RegistrationController.raises_register msg).symm.trans hraises
      intro instanceId workerId
      change ((s.manager.regController.register zmq msg).state.socketMapping.get? (instanceId, workerId) ≠
        none ↔ _)
      rw [RegistrationController.register_of_connect hconnect, PyDict.get?_set]
      by_cases heq : (instanceId, workerId) = (msg.instanceId, msg.workerId)
      · rw [if_pos heq, heq]
        exact iff_of_true (by simp) (Set.mem_insert _ _)
      · rw [if_neg heq]
        refine (h instanceId workerId).trans (Iff.symm ?_)
        exact (Set.mem_insert_iff).trans (or_iff_right heq)
  | deregister msg =>
      intro instanceId workerId
      change ((s.manager.regController.deregister msg).state.socketMapping.get? (instanceId, workerId) ≠
        none ↔ (instanceId, workerId) ∈ s.ledger.registered ∧
          (instanceId, workerId) ≠ (msg.instanceId, msg.workerId))
      rw [RegistrationController.socketMapping_deregister hraises, PyDict.get?_erase, ← h]
      by_cases heq : (instanceId, workerId) = (msg.instanceId, msg.workerId)
      · simp [heq]
      · rw [if_neg heq, and_iff_left heq]
        rfl
  | kvAdmit msg => exact h
  | kvEvict msg => exact h

/-- The empty pool of a new manager. -/
theorem PoolRight.init : PoolRight PoolRun.init.manager PoolRun.init.ledger where
  holds := by
    intro key chunk
    refine iff_of_false ?_ (by simp [PoolRun.init, PoolLedger.new])
    rintro ⟨chunks, hchunks, -⟩
    cases hchunks
  absent := fun _ _ => rfl

/-- **When the pool is right**, for any messages of workers to a new manager: no handler raises and the pool is
right after each message if and only if each message does no harm to the pool that it finds. -/
theorem poolRight_iff (zmq : ZmqOps) (msgs : List WorkerMsg) :
    Along (PoolRun.handle zmq) (PoolRun.Right zmq) .init msgs ↔
      Along (PoolRun.handle zmq) (fun s msg => PoolCondition zmq s.manager msg) .init msgs := by
  refine along_iff_of_inv (fun s => PoolRight s.manager s.ledger ∧ Connected s.manager s.ledger)
    ?_ ?_ ⟨.init, ?_⟩ msgs
  · rintro s msg ⟨-, hconn⟩ ⟨hraises, hright⟩
    exact ⟨hright, hconn.handle hraises⟩
  · rintro s msg ⟨hright, hconn⟩
    exact hright.handle_iff hconn
  · intro instanceId workerId
    exact iff_of_false (fun h => h rfl) (by simp [PoolRun.init, PoolLedger.new])

/-! ### Two runs -/

/-- Two instances admit the same chunk. -/
def sameChunk : List WorkerMsg := [.kvAdmit ⟨"a", 0, "k", "gpu"⟩, .kvAdmit ⟨"b", 1, "k", "gpu"⟩]

/-- A worker deregisters while it holds a chunk. -/
def leavingWorker : List WorkerMsg :=
  [.register ⟨"a", 0, "h", 1⟩, .kvAdmit ⟨"a", 0, "k", "gpu"⟩, .deregister ⟨"a", 0, "h", 1⟩]

/-- **The second admission drops the first**, and the worker that is gone is still listed. -/
theorem not_poolRight_sameChunk :
    ((sameChunk.foldl (PoolRun.handle quietOps) .init).manager.kvController.kvPool.get? "k" =
        some [⟨"b", 1, "gpu"⟩] ∧
      ¬ Along (PoolRun.handle quietOps) (PoolRun.Right quietOps) .init sameChunk) ∧
    (leavingWorker.foldl (PoolRun.handle quietOps) .init).manager.kvController.kvPool.get? "k" =
        some [⟨"a", 0, "gpu"⟩] ∧
      ¬ Along (PoolRun.handle quietOps) (PoolRun.Right quietOps) .init leavingWorker := by
  have hsame : (sameChunk.foldl (PoolRun.handle quietOps) .init).manager.kvController.kvPool.get? "k" =
      some [⟨"b", 1, "gpu"⟩] := by decide +kernel
  have hleaving : (leavingWorker.foldl (PoolRun.handle quietOps) .init).manager.kvController.kvPool.get? "k" =
      some [⟨"a", 0, "gpu"⟩] := by decide +kernel
  refine ⟨⟨hsame, ?_⟩, hleaving, ?_⟩
  · rintro ⟨-, ⟨-, hright⟩, -⟩
    -- the ledger has both instances
    obtain ⟨chunks, hchunks, hmem⟩ := (hright.holds "k" ⟨"a", 0, "gpu"⟩).2
      (Or.inr (Or.inl rfl))
    cases hsame.symm.trans hchunks
    revert hmem
    decide
  · rintro ⟨-, -, ⟨-, hright⟩, -⟩
    -- the ledger has dropped the chunk
    have hlive := (hright.holds "k" ⟨"a", 0, "gpu"⟩).1 ⟨_, hleaving, List.mem_cons_self⟩
    exact hlive.2 (Or.inl rfl) rfl

end InfiniKV
