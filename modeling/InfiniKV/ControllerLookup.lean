/-
**Lookups at the controller.**

The controller splits the tokens of a lookup into chunks with a token database of its own, and walks along the chunks
as long as they are in the pool; an instance that holds one of them is answered with the end of the last one.  The
database is made without a configuration.  Its chunk size is assigned behind that, but not whether to keep a chunk
that is not full, and this is read before the first chunk: no lookup returns.

Main definitions:

* `InfiniKV.BareTokenDatabase` — a token database that may lack an attribute;
* `InfiniKV.KVController.lookupIn` — the lookup, with a token database;
* `InfiniKV.KVController.leadingRun` — the longest leading run of chunks that are in the pool;
* `InfiniKV.KVController.LayoutRight`, `InfiniKV.KVController.LookupRight` — what a lookup is to answer.

Main results:

* `InfiniKV.KVController.lookupIn_right` — **a database that has the attribute gives the right answer**;
* `InfiniKV.KVController.admitted_found` — a chunk that a worker has admitted is found then, behind those before it;
* `InfiniKV.KVController.not_lookupRight` — **the database of the controller never does**.
-/

import InfiniKV.Controllers
import InfiniKV.KeySoundness

set_option relaxedAutoImplicit false
set_option autoImplicit false

namespace InfiniKV

/-! ### The token database -/

/-- A token database in which whether to keep a chunk that is not full may not have been set. -/
structure BareTokenDatabase where
  chunkSize : ℕ
  saveUnfullChunk : Option Bool
  chunkSize_pos : 0 < chunkSize

/-- Stands for the metadata, which are not read where no keys are made. -/
def noMetadata : InfiniKVEngineMetadata := ⟨[], 0, 0, [], (0, 0, 0, 0, 0), false⟩

namespace BareTokenDatabase

/-- `ChunkedTokenDatabase.__init__`, with the chunk size assigned afterwards. -/
def init (config : Option InfiniKVEngineConfig) (chunkSize : ℕ) (hpos : 0 < chunkSize) : BareTokenDatabase :=
  ⟨chunkSize, config.map (·.saveUnfullChunk), hpos⟩

variable (db : BareTokenDatabase)

/-- The database with the attribute set. -/
def configured (saveUnfullChunk : Bool) : ChunkedTokenDatabase :=
  ⟨db.chunkSize, saveUnfullChunk, noMetadata, db.chunkSize_pos⟩

/-- **`process_tokens` with `make_key=False`**.  The attribute is read when the first chunk is asked for, behind the
check of the mask. -/
def processHashes (tokens : Tokens) (mask : Option (List Bool)) : Generator (ℕ × ℕ × Str) :=
  match db.saveUnfullChunk with
  | some saveUnfullChunk => (db.configured saveUnfullChunk).processHashes tokens mask
  | none =>
      if ChunkedTokenDatabase.numFalses mask % db.chunkSize ≠ 0 then
        .raise (.valueError "The number of Falses in the mask is not a multiple of the chunk size.")
      else .raise .attributeError

end BareTokenDatabase

/-- What is yielded for the chunks of a sequence. -/
def ChunkedTokenDatabase.hashChunks (db : ChunkedTokenDatabase) (X : List ℤ) : List (ℕ × ℕ × Str) :=
  (List.range (db.numChunks X)).map fun j =>
    (j * db.chunkSize, min (j * db.chunkSize + db.chunkSize) X.length, db.digestAt X j)

/-- Unsigned 32-bit integers are all hashed. -/
theorem ChunkedTokenDatabase.processHashes_list (db : ChunkedTokenDatabase) {X : List ℤ}
    (hfit : ∀ x ∈ X, FitsUInt32 x) : db.processHashes ⟨.list, X⟩ none = ⟨db.hashChunks X, none⟩ := by
  have hchunks : ∀ c ∈ db.chunkTokens X, ∀ x ∈ c, FitsUInt32 x := by
    intro c hc x hx
    obtain ⟨i, -, rfl⟩ := List.mem_map.1 hc
    exact hfit x (List.mem_of_mem_drop (List.mem_of_mem_take hx))
  have hyields : (prefixHash .tensor getInitHash (db.chunkTokens X)).yields =
      (List.range (db.numChunks X)).map (db.digestAt X) := by
    rw [yields_prefixHash_tensor, length_chunkTokens]
    rfl
  simp only [processHashes, numFalses, Nat.zero_mod, prefixHash_list _ _ hchunks, hyields, raises_prefixHash_tensor,
    ne_eq, not_true_eq_false, if_false, zipIdx_map_range, List.filterMap_map, Function.comp_def, Nat.not_lt_zero]
  rw [hashChunks, List.filterMap_eq_map']

/-- The ends of the chunks increase. -/
theorem ChunkedTokenDatabase.pairwise_hashChunks (db : ChunkedTokenDatabase) (X : List ℤ) :
    (db.hashChunks X).Pairwise fun y y' => y.2.1 ≤ y'.2.1 := by
  rw [hashChunks, List.pairwise_map]
  refine List.pairwise_lt_range.imp fun {i j} hij => ?_
  have hmul : i * db.chunkSize ≤ j * db.chunkSize := Nat.mul_le_mul_right _ (Nat.le_of_lt hij)
  dsimp only
  omega

/-! ### The last element with a property -/

/-- If there is an element with a property, there is a last one. -/
theorem exists_last_of_exists {α : Type} {P : α → Prop} {l : List α} (h : ∃ a ∈ l, P a) :
    ∃ before a after, l = before ++ a :: after ∧ P a ∧ ∀ a' ∈ after, ¬P a' := by
  induction l with
  | nil =>
      obtain ⟨a, ha, -⟩ := h
      cases ha
  | cons x l ih =>
      by_cases hlater : ∃ a ∈ l, P a
      · obtain ⟨before, a, after, rfl, ha⟩ := ih hlater
        exact ⟨x :: before, a, after, rfl, ha⟩
      · obtain ⟨a, ha, hP⟩ := h
        have hafter : ∀ a' ∈ l, ¬P a' := fun a' ha' hP' => hlater ⟨a', ha', hP'⟩
        rcases List.mem_cons.1 ha with rfl | ha
        · exact ⟨[], a, l, rfl, hP, hafter⟩
        · exact absurd hP (hafter a ha)

namespace KVController

/-! ### The lookup -/

/-- The token database that `KVController.__init__` makes. -/
def tokenDatabase : BareTokenDatabase := .init none 256 (by decide)

variable (c : KVController)

/-- The loop of `lookup`. -/
def lookupLoop (raises : Option PyError) :
    List (ℕ × ℕ × Str) → PyDict String (String × ℕ) → Except PyError (PyDict String (String × ℕ))
  | [], layoutInfo => match raises with
      | none => .ok layoutInfo
      | some e => .error e
  | (_, stop, key) :: rest, layoutInfo => match c.kvPool.get? (String.ofList key) with
      | none => .ok layoutInfo
      | some [] => .error .indexError
      | some (chunk :: _) => lookupLoop raises rest (layoutInfo.set chunk.instanceId (chunk.location, stop))

/-- **`lookup`**, with a token database. -/
def lookupIn (db : BareTokenDatabase) (tokens : List ℤ) : Except PyError (PyDict String (String × ℕ)) :=
  let chunks := db.processHashes ⟨.list, tokens⟩ none
  c.lookupLoop chunks.raises chunks.yields .empty

/-- The database of the controller lacks an attribute, so the lookup raises. -/
theorem lookupIn_tokenDatabase (tokens : List ℤ) : c.lookupIn tokenDatabase tokens = .error .attributeError := rfl

/-! ### What a lookup is to answer -/

/-- The entries of the pool are not empty. -/
def NoEmptyLists : Prop := ∀ key chunks, c.kvPool.get? key = some chunks → chunks ≠ []

/-- Who is first in the entry of a chunk. -/
def headOf (chunkHash : Str) : Option KVChunkMetadata := (c.kvPool.get? (String.ofList chunkHash)).bind List.head?

/-- **The longest leading run of chunks that are in the pool**: who is first in the entry of each, and where the chunk
ends. -/
def leadingRun (chunks : List (ℕ × ℕ × Str)) : List (KVChunkMetadata × ℕ) :=
  (chunks.takeWhile fun y => (c.kvPool.get? (String.ofList y.2.2)).isSome).filterMap fun y =>
    (c.headOf y.2.2).map fun chunk => (chunk, y.2.1)

/-- The number of tokens in a run. -/
def runLength (run : List (KVChunkMetadata × ℕ)) : ℕ := (run.getLast?.map Prod.snd).getD 0

/-- **The answer is right**: an instance is mapped to the location and the end of the last chunk of the run that it is
first for, and no end is behind the run. -/
structure LayoutRight (run : List (KVChunkMetadata × ℕ)) (layoutInfo : PyDict String (String × ℕ)) : Prop where
  get?_eq_some_iff : ∀ instanceId location stop, layoutInfo.get? instanceId = some (location, stop) ↔
    ∃ before y after, run = before ++ y :: after ∧ y.1.instanceId = instanceId ∧ (y.1.location, y.2) = (location, stop) ∧
      ∀ y' ∈ after, y'.1.instanceId ≠ instanceId
  stop_le : ∀ instanceId location stop, layoutInfo.get? instanceId = some (location, stop) → stop ≤ runLength run

/-- A chunk of the tokens, of a worker with the given chunk size, is found if it is in the pool with those before
it. -/
def Finds (chunkSize : ℕ) (tokens : List ℤ) (layoutInfo : PyDict String (String × ℕ)) : Prop :=
  ∀ (worker : ChunkedTokenDatabase) (j : ℕ), worker.chunkSize = chunkSize → j < worker.numChunks tokens →
    (∀ i ≤ j, (c.kvPool.get? (String.ofList (worker.digestAt tokens i))).isSome = true) →
    ∃ instanceId location stop, layoutInfo.get? instanceId = some (location, stop) ∧
      min ((j + 1) * chunkSize) tokens.length ≤ stop

/-- **A lookup does what it is for**: it returns, and the answer is right.  Whether chunks that are not full count is
up to `saveUnfullChunk`. -/
def LookupRight (saveUnfullChunk : Bool) (tokens : List ℤ) : Prop :=
  ∃ layoutInfo, c.lookupIn tokenDatabase tokens = .ok layoutInfo ∧
    LayoutRight (c.leadingRun ((tokenDatabase.configured saveUnfullChunk).hashChunks tokens)) layoutInfo ∧
    c.Finds tokenDatabase.chunkSize tokens layoutInfo

/-! ### With the attribute set -/

variable {c}

theorem headOf_of_get? {chunkHash : Str} {chunk : KVChunkMetadata} {chunks : List KVChunkMetadata}
    (h : c.kvPool.get? (String.ofList chunkHash) = some (chunk :: chunks)) : c.headOf chunkHash = some chunk := by
  rw [headOf, h]
  rfl

/-- The first chunk is in the pool, or there is no run. -/
theorem leadingRun_cons {y : ℕ × ℕ × Str} {rest : List (ℕ × ℕ × Str)} :
    c.leadingRun (y :: rest) = if (c.kvPool.get? (String.ofList y.2.2)).isSome
      then ((c.headOf y.2.2).map fun chunk => (chunk, y.2.1)).toList ++ c.leadingRun rest else [] := by
  rw [leadingRun, List.takeWhile_cons]
  by_cases h : (c.kvPool.get? (String.ofList y.2.2)).isSome
  · rw [if_pos h, if_pos h, List.filterMap_cons]
    cases (c.headOf y.2.2).map fun chunk => (chunk, y.2.1) with
    | none => rfl
    | some y' => rfl
  · rw [if_neg h, if_neg h, List.filterMap_nil]

/-- The assignments along a run. -/
def assignRun (layoutInfo : PyDict String (String × ℕ)) (run : List (KVChunkMetadata × ℕ)) :
    PyDict String (String × ℕ) :=
  run.foldl (fun layoutInfo y => layoutInfo.set y.1.instanceId (y.1.location, y.2)) layoutInfo

/-- **The loop assigns along the run.** -/
theorem lookupLoop_eq (hno : c.NoEmptyLists) (chunks : List (ℕ × ℕ × Str)) (layoutInfo : PyDict String (String × ℕ)) :
    c.lookupLoop none chunks layoutInfo = .ok (assignRun layoutInfo (c.leadingRun chunks)) := by
  induction chunks generalizing layoutInfo with
  | nil => rfl
  | cons y rest ih =>
      obtain ⟨start, stop, key⟩ := y
      rw [lookupLoop, leadingRun_cons]
      dsimp only
      cases hget : c.kvPool.get? (String.ofList key) with
      | none => rfl
      | some chunks =>
          cases chunks with
          | nil => exact absurd rfl (hno _ _ hget)
          | cons chunk chunks =>
              rw [headOf_of_get? hget]
              exact ih _

/-- The ends of the chunks of a run increase. -/
theorem pairwise_leadingRun {chunks : List (ℕ × ℕ × Str)} (h : chunks.Pairwise fun y y' => y.2.1 ≤ y'.2.1) :
    (c.leadingRun chunks).Pairwise fun y y' => y.2 ≤ y'.2 := by
  refine (h.sublist (List.takeWhile_sublist _)).filterMap _ fun y y' hle z hz z' hz' => ?_
  obtain ⟨-, -, rfl⟩ := Option.map_eq_some_iff.1 hz
  obtain ⟨-, -, rfl⟩ := Option.map_eq_some_iff.1 hz'
  exact hle

/-- A chunk of a run ends inside it. -/
theorem le_runLength {run : List (KVChunkMetadata × ℕ)} (h : run.Pairwise fun y y' => y.2 ≤ y'.2)
    {y : KVChunkMetadata × ℕ} (hy : y ∈ run) : y.2 ≤ runLength run := by
  rcases List.eq_nil_or_concat run with rfl | ⟨before, last, rfl⟩
  · cases hy
  · rw [List.concat_eq_append] at h hy ⊢
    rw [runLength, List.getLast?_append, List.getLast?_singleton]
    rcases List.mem_append.1 hy with hy | hy
    · exact (List.pairwise_append.1 h).2.2 y hy last (List.mem_singleton_self last)
    · rw [List.mem_singleton.1 hy]
      exact le_rfl

/-- The assignments along a run make the right answer. -/
theorem layoutRight_assignRun {run : List (KVChunkMetadata × ℕ)} (h : run.Pairwise fun y y' => y.2 ≤ y'.2) :
    LayoutRight run (assignRun .empty run) := by
  have hiff : ∀ instanceId location stop, (assignRun .empty run).get? instanceId = some (location, stop) ↔
      ∃ before y after, run = before ++ y :: after ∧ y.1.instanceId = instanceId ∧
        (y.1.location, y.2) = (location, stop) ∧ ∀ y' ∈ after, y'.1.instanceId ≠ instanceId := by
    intro instanceId location stop
    rw [assignRun, PyDict.get?_foldl_set (fun y : KVChunkMetadata × ℕ => y.1.instanceId) fun y => (y.1.location, y.2)]
    exact or_iff_left fun hempty => by cases hempty.2
  refine ⟨hiff, fun instanceId location stop hget => ?_⟩
  obtain ⟨before, y, after, hrun, -, hy, -⟩ := (hiff instanceId location stop).1 hget
  rw [← (Prod.mk.inj hy).2]
  exact le_runLength h (hrun ▸ List.mem_append_right _ List.mem_cons_self)

/-- **A database that has the attribute gives the right answer.** -/
theorem lookupIn_right (hno : c.NoEmptyLists) {db : BareTokenDatabase} {saveUnfullChunk : Bool}
    (hattr : db.saveUnfullChunk = some saveUnfullChunk) {tokens : List ℤ} (hfit : ∀ x ∈ tokens, FitsUInt32 x) :
    ∃ layoutInfo, c.lookupIn db tokens = .ok layoutInfo ∧
      LayoutRight (c.leadingRun ((db.configured saveUnfullChunk).hashChunks tokens)) layoutInfo := by
  have hchunks : db.processHashes ⟨.list, tokens⟩ none
      = ⟨(db.configured saveUnfullChunk).hashChunks tokens, none⟩ := by
    rw [BareTokenDatabase.processHashes, hattr]
    exact (db.configured saveUnfullChunk).processHashes_list hfit
  refine ⟨_, ?_, layoutRight_assignRun (pairwise_leadingRun ((db.configured saveUnfullChunk).pairwise_hashChunks tokens))⟩
  rw [lookupIn, hchunks]
  exact lookupLoop_eq hno _ _

/-- An element is taken if all up to it satisfy the condition. -/
theorem getElem_mem_takeWhile {α : Type} {p : α → Bool} {l : List α} {j : ℕ} (hj : j < l.length)
    (h : ∀ i, ∀ hi : i < l.length, i ≤ j → p l[i] = true) : l[j] ∈ l.takeWhile p := by
  induction l generalizing j with
  | nil => cases hj
  | cons a l ih =>
      have ha := h 0 (Nat.zero_lt_succ _) (Nat.zero_le j)
      rw [List.getElem_cons_zero] at ha
      rw [List.takeWhile_cons, if_pos ha]
      cases j with
      | zero => exact List.mem_cons_self
      | succ j =>
          refine List.mem_cons_of_mem _ (ih (Nat.lt_of_succ_lt_succ hj) fun i hi hij => ?_)
          exact h (i + 1) (Nat.succ_lt_succ hi) (Nat.succ_le_succ hij)

/-- Databases with one chunk size have the same digests. -/
theorem digestAt_eq_of_chunkSize_eq {db db' : ChunkedTokenDatabase} (hsize : db.chunkSize = db'.chunkSize)
    {X : List ℤ} {j : ℕ} (hj : j < db.numChunks X) (hj' : j < db'.numChunks X) :
    db.digestAt X j = db'.digestAt X j := by
  rw [ChunkedTokenDatabase.digestAt, ChunkedTokenDatabase.digestAt, db.take_chunkTokens hj, db'.take_chunkTokens hj']
  refine congrArg _ (List.map_congr_left fun i _ => ?_)
  rw [ChunkedTokenDatabase.chunk, ChunkedTokenDatabase.chunk, hsize]

/-- **A chunk that a worker has admitted is found**, if those before it are in the pool as well and the database of
the lookup has the chunk. -/
theorem admitted_found (hno : c.NoEmptyLists) {db : BareTokenDatabase} {saveUnfullChunk : Bool}
    (hattr : db.saveUnfullChunk = some saveUnfullChunk) {tokens : List ℤ} (hfit : ∀ x ∈ tokens, FitsUInt32 x)
    {worker : ChunkedTokenDatabase} (hsize : worker.chunkSize = db.chunkSize) {j : ℕ}
    (hj : j < worker.numChunks tokens) (hj' : j < (db.configured saveUnfullChunk).numChunks tokens)
    (hpool : ∀ i ≤ j, (c.kvPool.get? (String.ofList (worker.digestAt tokens i))).isSome = true) :
    ∃ layoutInfo, c.lookupIn db tokens = .ok layoutInfo ∧ ∃ instanceId location stop,
      layoutInfo.get? instanceId = some (location, stop) ∧ min ((j + 1) * db.chunkSize) tokens.length ≤ stop := by
  obtain ⟨layoutInfo, hlookup, hright⟩ := lookupIn_right hno hattr hfit
  refine ⟨layoutInfo, hlookup, ?_⟩
  have hpairwise := pairwise_leadingRun (c := c) ((db.configured saveUnfullChunk).pairwise_hashChunks tokens)
  have hlength : ((db.configured saveUnfullChunk).hashChunks tokens).length
      = (db.configured saveUnfullChunk).numChunks tokens := by
    rw [ChunkedTokenDatabase.hashChunks, List.length_map, List.length_range]
  -- the chunks up to it are in the pool, so that it is in the run
  have hdigest : ∀ i ≤ j, worker.digestAt tokens i = (db.configured saveUnfullChunk).digestAt tokens i := fun i hi =>
    digestAt_eq_of_chunkSize_eq hsize (lt_of_le_of_lt hi hj) (lt_of_le_of_lt hi hj')
  have htake : ((db.configured saveUnfullChunk).hashChunks tokens)[j] ∈
      ((db.configured saveUnfullChunk).hashChunks tokens).takeWhile fun y =>
        (c.kvPool.get? (String.ofList y.2.2)).isSome := by
    refine getElem_mem_takeWhile (by omega) fun i hi hij => ?_
    simp only [ChunkedTokenDatabase.hashChunks, List.getElem_map, List.getElem_range]
    rw [← hdigest i hij]
    exact hpool i hij
  obtain ⟨chunks, hget⟩ := Option.isSome_iff_exists.1 (hpool j le_rfl)
  cases chunks with
  | nil => exact absurd rfl (hno _ _ hget)
  | cons chunk chunks =>
      rw [hdigest j le_rfl] at hget
      have hmem : (chunk, min (j * db.chunkSize + db.chunkSize) tokens.length) ∈
          c.leadingRun ((db.configured saveUnfullChunk).hashChunks tokens) := by
        refine List.mem_filterMap.2 ⟨_, htake, ?_⟩
        simp only [ChunkedTokenDatabase.hashChunks, List.getElem_map, List.getElem_range, headOf_of_get? hget]
        rfl
      -- the last chunk that its instance is first for is not before it
      obtain ⟨before, y, after, hrun, hkey, hafter⟩ := exists_last_of_exists
        (P := fun y : KVChunkMetadata × ℕ => y.1.instanceId = chunk.instanceId) ⟨_, hmem, rfl⟩
      have hle : min (j * db.chunkSize + db.chunkSize) tokens.length ≤ y.2 := by
        rw [hrun] at hmem hpairwise
        rcases List.mem_append.1 hmem with hbefore | hcons
        · exact (List.pairwise_append.1 hpairwise).2.2 _ hbefore y List.mem_cons_self
        · rcases List.mem_cons.1 hcons with heq | hlater
          · rw [← heq]
          · exact absurd rfl (hafter _ hlater)
      refine ⟨chunk.instanceId, y.1.location, y.2, ?_, by rwa [Nat.succ_mul]⟩
      exact (hright.get?_eq_some_iff _ _ _).2 ⟨before, y, after, hrun, hkey, rfl, hafter⟩

/-! ### The database of the controller -/

/-- **No lookup does what it is for**: it raises before the first chunk. -/
theorem not_lookupRight (c : KVController) (saveUnfullChunk : Bool) (tokens : List ℤ) :
    ¬c.LookupRight saveUnfullChunk tokens := by
  rintro ⟨layoutInfo, hlookup, -⟩
  rw [lookupIn_tokenDatabase] at hlookup
  cases hlookup

/-- The lookup of no tokens, in an empty pool. -/
theorem not_lookupRight_empty :
    init.NoEmptyLists ∧ init.lookupIn tokenDatabase [] = .error .attributeError ∧ ¬init.LookupRight true [] := by
  have hraise : init.lookupIn tokenDatabase [] = .error .attributeError := rfl
  have hno : init.NoEmptyLists := by
    intro key chunks hget
    cases hget
  refine ⟨hno, hraise, ?_⟩
  rintro ⟨layoutInfo, hlookup, -⟩
  rw [hraise] at hlookup
  cases hlookup

end KVController

end InfiniKV
