/-
**Clearing a prefix.**

The engine clears a prefix by asking its backend to remove the key of each chunk, and a worker does so when the
controller tells it to.  The three do not fit together: the engine hands the locations over with the key, which the
backend does not take; the backend reads the size of a file, which is not recorded; and it returns nothing, where the
engine counts.  The first of these ends a call for the first chunk already, so that only what has no chunk is cleared.

Main definitions:

* `InfiniKV.AttachedEngine` — an engine, with the usage of its backend and the queue of its worker;
* `InfiniKV.AttachedEngine.remove`, `InfiniKV.AttachedEngine.callRemove` — removing a key, and a call with positional
  arguments;
* `InfiniKV.AttachedEngine.clear`, `InfiniKV.AttachedEngine.handleClear` — clearing, and the request to clear;
* `InfiniKV.AttachedEngine.ClearsExactly` — what clearing is to do.

Main results:

* `InfiniKV.AttachedEngine.clear_unchanged` — clearing changes nothing;
* `InfiniKV.AttachedEngine.handleClear_fails` — **a request to clear is never answered with success**;
* `InfiniKV.AttachedEngine.clear_of_pos` — **clearing raises where there is a chunk**;
* `InfiniKV.AttachedEngine.clearsExactly_iff` — **when clearing does what it is to do**.
-/

import InfiniKV.Controllers
import InfiniKV.Engine

set_option relaxedAutoImplicit false
set_option autoImplicit false

namespace InfiniKV

/-- An engine, with the usage of its backend, the usage that the statistics have been told of, the name of the
instance, and the messages that a worker, if there is one, is to send. -/
structure AttachedEngine where
  engine : InfiniKVEngine
  usage : ℤ
  localStorageUsage : ℤ
  instanceId : String
  msgQueue : Option (List WorkerMsg)

/-- `size` of a file, an attribute that `GPUFileMetadata` does not have. -/
def GPUFileMetadata.size (_gpuFile : GPUFileMetadata) : Except PyError ℤ := .error .attributeError

/-- A positional argument of a call. -/
inductive RemoveArg where
  | key (key : CacheEngineKey)
  | locations (locations : Option (List String))

/-- What the worker answers a request with.  The text of an error is made of the exception. -/
inductive ControlRetMsg where
  | clearWorkerRet (success : Bool)
  | error (e : PyError)
  deriving DecidableEq

namespace AttachedEngine

variable (e : AttachedEngine)

/-! ### Removing a key -/

/-- The message that a chunk has been evicted. -/
def evictMsg (key : CacheEngineKey) : WorkerMsg :=
  .kvEvict ⟨e.instanceId, key.workerId, String.ofList key.chunkHash, "geminifs_disk"⟩

/-- `put_msg`, if there is a worker. -/
def putMsg (msg : WorkerMsg) : AttachedEngine := { e with msgQueue := e.msgQueue.map (· ++ [msg]) }

/-- `dict.pop`. -/
def popKey (key : CacheEngineKey) : AttachedEngine :=
  { e with engine.storageBackend.dict := e.engine.storageBackend.dict.erase key }

/-- **`GeminiFSBackend.remove`**.  It returns nothing. -/
def remove (key : CacheEngineKey) : Except PyError (Option ℤ) × AttachedEngine :=
  match e.engine.storageBackend.get key with
  | none => (.error .keyError, e)
  | some gpuFile => match gpuFile.size with
      | .error err => (.error err, e)
      | .ok size =>
          let usage := e.usage - size
          (.ok none, ({ e.popKey key with usage := usage, localStorageUsage := usage }).putMsg (e.evictMsg key))

/-- A call of `remove`, which takes one positional argument. -/
def callRemove : List RemoveArg → Except PyError (Option ℤ) × AttachedEngine
  | [.key key] => e.remove key
  | _ => (.error .typeError, e)

/-! ### Clearing -/

/-- The loop of `clear`. -/
def clearLoop (locations : Option (List String)) (raises : Option PyError) :
    List (ℕ × ℕ × CacheEngineKey) → ℤ → AttachedEngine → Except PyError ℤ × AttachedEngine
  | [], numRemoved, e => (exhausted raises numRemoved, e)
  | (_, _, key) :: rest, numRemoved, e => match e.callRemove [.key key, .locations locations] with
      | (.error err, e) => (.error err, e)
      | (.ok none, e) => (.error .typeError, e)
      | (.ok (some removed), e) => clearLoop locations raises rest (numRemoved + removed) e

/-- **`InfiniKVEngine.clear`**.  Without tokens, everything is to be cleared, by a method that the backend does not
have. -/
def clear (tokens : Option Tokens) (locations : Option (List String)) : Except PyError ℤ × AttachedEngine :=
  match tokens with
  | none => (.error .attributeError, e)
  | some tokens =>
      if tokens.ids.length = 0 then (.error .attributeError, e)
      else
        let chunks := e.engine.tokenDatabase.processTokens tokens none
        clearLoop locations chunks.raises chunks.yields 0 e

/-- **`InfiniKVWorker.handle_request`**, for a request to clear. -/
def handleClear (tokens : Option (List ℤ)) : ControlRetMsg × AttachedEngine :=
  match e.clear (tokens.map fun ids => ⟨.list, ids⟩) none with
  | (.ok result, e) => (.clearWorkerRet (decide (0 < result)), e)
  | (.error err, e) => (.error err, e)

/-! ### What clearing is to do -/

/-- The keys of the chunks of a sequence. -/
def keysOf (X : List ℤ) : List CacheEngineKey :=
  (List.range (e.engine.tokenDatabase.numChunks X)).map (e.engine.tokenDatabase.keyAt X)

/-- The keys of the chunks of a sequence that are in the store. -/
def storedKeysOf (X : List ℤ) : List CacheEngineKey := (e.keysOf X).filter fun key => e.engine.storageBackend.contains key

/-- **Exactly a prefix is cleared**: the number of its chunks in the store is returned, the store is without their
keys and as it was otherwise, there is a message for each of them if there is a worker, and the usage is less by the
size of a file for each. -/
def ClearsExactly (perFileSize : ℤ) (tokens : Tokens) : Prop :=
  ∃ e', e.clear (some tokens) none = (.ok (e.storedKeysOf tokens.ids).length, e') ∧
    (∀ key, e'.engine.storageBackend.get key =
      if key ∈ e.keysOf tokens.ids then none else e.engine.storageBackend.get key) ∧
    e'.msgQueue = e.msgQueue.map (· ++ (e.storedKeysOf tokens.ids).map e.evictMsg) ∧
    e'.usage = e.usage - (e.storedKeysOf tokens.ids).length * perFileSize

/-! ### What clearing does -/

variable {e}

/-- The first chunk ends the loop. -/
theorem clearLoop_cons (locations : Option (List String)) (raises : Option PyError)
    (y : ℕ × ℕ × CacheEngineKey) (rest : List (ℕ × ℕ × CacheEngineKey)) (numRemoved : ℤ) :
    clearLoop locations raises (y :: rest) numRemoved e = (.error .typeError, e) := rfl

/-- The loop changes nothing: the first chunk ends it before anything is removed. -/
theorem clearLoop_unchanged (locations : Option (List String)) (raises : Option PyError)
    (ys : List (ℕ × ℕ × CacheEngineKey)) (numRemoved : ℤ) : (clearLoop locations raises ys numRemoved e).2 = e := by
  cases ys with
  | nil => rfl
  | cons y rest => rfl

/-- **Clearing changes nothing.** -/
theorem clear_unchanged (tokens : Option Tokens) (locations : Option (List String)) :
    (e.clear tokens locations).2 = e := by
  cases tokens with
  | none => rfl
  | some tokens =>
      rw [clear]
      by_cases hempty : tokens.ids.length = 0
      · rw [if_pos hempty]
      · rw [if_neg hempty]
        exact clearLoop_unchanged ..

/-- Where clearing returns, it has removed nothing. -/
theorem clear_eq_ok (tokens : Option Tokens) (locations : Option (List String)) :
    ∀ n, (e.clear tokens locations).1 = .ok n → n = 0 := by
  intro n hclear
  cases tokens with
  | none => cases hclear
  | some tokens =>
      rw [clear] at hclear
      dsimp only at hclear
      split at hclear
      · cases hclear
      · cases hyields : (e.engine.tokenDatabase.processTokens tokens none).yields with
        | cons y rest =>
            rw [hyields, clearLoop_cons] at hclear
            cases hclear
        | nil =>
            rw [hyields, clearLoop] at hclear
            cases hraises : (e.engine.tokenDatabase.processTokens tokens none).raises with
            | none =>
                rw [hraises] at hclear
                cases hclear
                rfl
            | some err =>
                rw [hraises] at hclear
                cases hclear

/-- A chunk is yielded, or hashing the first one raises. -/
theorem yields_ne_nil_or_raises (db : ChunkedTokenDatabase) {tokens : Tokens} (h : 0 < db.numChunks tokens.ids) :
    (db.processTokens tokens none).yields ≠ [] ∨ ∃ err, (db.processTokens tokens none).raises = some err := by
  have hlength : 0 < (db.chunkTokens tokens.ids).length := by rwa [ChunkedTokenDatabase.length_chunkTokens]
  cases hchunks : db.chunkTokens tokens.ids with
  | nil =>
      rw [hchunks] at hlength
      cases hlength
  | cons chunk chunks =>
      rw [ChunkedTokenDatabase.processTokens, ChunkedTokenDatabase.processHashes,
        if_neg (by rw [ChunkedTokenDatabase.numFalses, Nat.zero_mod]; exact fun h => h rfl), hchunks,
        ChunkedTokenDatabase.prefixHash]
      cases ChunkedTokenDatabase.hash tokens.form chunk ChunkedTokenDatabase.getInitHash with
      | error err => exact Or.inr ⟨err, rfl⟩
      | ok d =>
          refine Or.inl ?_
          simp [Generator.yield, Generator.filterMap, List.zipIdx_cons, ChunkedTokenDatabase.numFalses]

/-- Without a chunk, nothing is yielded. -/
theorem processTokens_of_numChunks_eq_zero (db : ChunkedTokenDatabase) {tokens : Tokens}
    (h : db.numChunks tokens.ids = 0) : db.processTokens tokens none = ⟨[], none⟩ := by
  have hchunks : db.chunkTokens tokens.ids = [] := by
    rw [← List.length_eq_zero_iff, ChunkedTokenDatabase.length_chunkTokens, h]
  rw [ChunkedTokenDatabase.processTokens, ChunkedTokenDatabase.processHashes,
    if_neg (by rw [ChunkedTokenDatabase.numFalses, Nat.zero_mod]; exact fun h => h rfl), hchunks]
  rfl

/-- **Clearing raises where there is a chunk.** -/
theorem clear_of_pos {tokens : Tokens} (locations : Option (List String))
    (h : 0 < e.engine.tokenDatabase.numChunks tokens.ids) :
    ∃ err, e.clear (some tokens) locations = (.error err, e) := by
  rw [clear]
  dsimp only
  by_cases hempty : tokens.ids.length = 0
  · rw [if_pos hempty]
    exact ⟨_, rfl⟩
  · rw [if_neg hempty]
    cases hyields : (e.engine.tokenDatabase.processTokens tokens none).yields with
    | cons y rest => exact ⟨_, clearLoop_cons ..⟩
    | nil =>
        rcases yields_ne_nil_or_raises e.engine.tokenDatabase h with hne | ⟨err, hraises⟩
        · exact absurd hyields hne
        · rw [hraises]
          exact ⟨err, rfl⟩

/-- Tokens without a chunk are cleared. -/
theorem clear_of_numChunks_eq_zero {tokens : Tokens} (locations : Option (List String)) (hne : tokens.ids ≠ [])
    (h : e.engine.tokenDatabase.numChunks tokens.ids = 0) : e.clear (some tokens) locations = (.ok 0, e) := by
  rw [clear]
  dsimp only
  rw [if_neg fun hlength => hne (List.length_eq_zero_iff.1 hlength), processTokens_of_numChunks_eq_zero _ h]
  rfl

/-- **A request to clear changes nothing, and is never answered with success.** -/
theorem handleClear_fails (e : AttachedEngine) (tokens : Option (List ℤ)) :
    (e.handleClear tokens).2 = e ∧ (e.handleClear tokens).1 ≠ .clearWorkerRet true := by
  have hunchanged := clear_unchanged (e := e) (tokens.map fun ids => ⟨.list, ids⟩) none
  have hremoved := clear_eq_ok (e := e) (tokens.map fun ids => ⟨.list, ids⟩) none
  rw [handleClear]
  generalize e.clear (tokens.map fun ids => ⟨.list, ids⟩) none = cleared at hunchanged hremoved ⊢
  obtain ⟨err | result, e'⟩ := cleared
  · exact ⟨hunchanged, by rintro ⟨⟩⟩
  · obtain rfl := hremoved result rfl
    refine ⟨hunchanged, fun hsuccess => ?_⟩
    cases hsuccess

/-- **When clearing does what it is to do**: where there is no chunk to be cleared. -/
theorem clearsExactly_iff (e : AttachedEngine) (perFileSize : ℤ) (tokens : Tokens) (hne : tokens.ids ≠ []) :
    e.ClearsExactly perFileSize tokens ↔ e.engine.tokenDatabase.numChunks tokens.ids = 0 := by
  constructor
  · rintro ⟨e', hclear, -⟩
    by_contra hpos
    obtain ⟨err, herror⟩ := clear_of_pos (e := e) none (Nat.pos_of_ne_zero hpos)
    rw [herror] at hclear
    cases hclear
  · intro h
    have hkeys : e.keysOf tokens.ids = [] := by rw [keysOf, h, List.range_zero, List.map_nil]
    have hstored : e.storedKeysOf tokens.ids = [] := by rw [storedKeysOf, hkeys, List.filter_nil]
    refine ⟨e, ?_, ?_, ?_, ?_⟩
    · rw [clear_of_numChunks_eq_zero none hne h, hstored]
      rfl
    · intro key
      rw [hkeys, if_neg List.not_mem_nil]
    · rw [hstored, List.map_nil]
      cases e.msgQueue with
      | none => rfl
      | some msgs => exact congrArg some (List.append_nil msgs).symm
    · rw [hstored]
      simp

/-- An engine with chunks of two tokens, and a worker. -/
def smallEngine : AttachedEngine where
  engine := .init ⟨2, false, by decide⟩ ⟨['m'], 1, 0, ['v'], (1, 2, 2, 1, 1), false⟩
  usage := 0
  localStorageUsage := 0
  instanceId := "a"
  msgQueue := some []

/-- The theorem at one token, which makes no chunk. -/
theorem clearsExactly_iff_oneToken : smallEngine.ClearsExactly 16 ⟨.list, [1]⟩ :=
  (clearsExactly_iff smallEngine 16 ⟨.list, [1]⟩ (by decide)).2 (by decide)

/-- Two tokens make a chunk: although the store is empty, clearing them raises. -/
theorem not_clearsExactly_twoTokens :
    smallEngine.clear (some ⟨.list, [1, 2]⟩) none = (.error .typeError, smallEngine) ∧
      ¬smallEngine.ClearsExactly 16 ⟨.list, [1, 2]⟩ := by
  have hclear : smallEngine.clear (some ⟨.list, [1, 2]⟩) none = (.error .typeError, smallEngine) := rfl
  refine ⟨hclear, ?_⟩
  rintro ⟨e', hclear', -⟩
  rw [hclear] at hclear'
  cases hclear'

end AttachedEngine

end InfiniKV
