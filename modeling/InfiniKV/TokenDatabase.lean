/-
**The chunked token database: from tokens to cache engine keys.**

`ChunkedTokenDatabase.process_tokens` cuts a token sequence into chunks, hashes them in a chain —
each chunk is hashed together with the hexadecimal digest of the prefix before it — and yields, for
every chunk that the mask does not skip, its range and its cache engine key.

Tokens come as a tensor or as a list of integers; the two are turned into bytes by different code,
and only the second can raise.

Main definitions:

* `InfiniKV.CacheEngineKey`, `InfiniKV.InfiniKVEngineMetadata`, `InfiniKV.InfiniKVEngineConfig`;
* `InfiniKV.Tokens` — tokens, in one of their two forms;
* `InfiniKV.ChunkedTokenDatabase.chunkTokens`, `prefixHash`, `processTokens` — the source's
  functions;
* `InfiniKV.ChunkedTokenDatabase.keyAt`, `chunkAt` — the key of chunk `j` of a token sequence, and
  what is yielded for it.

Main results:

* `InfiniKV.ChunkedTokenDatabase.processTokens_tensor` — **what is yielded for a tensor**, under a
  mask whose false entries fill whole chunks;
* `InfiniKV.ChunkedTokenDatabase.processTokens_list` — a list of unsigned 32-bit integers is treated
  like the tensor with the same entries;
* `InfiniKV.ChunkedTokenDatabase.keyAt_congr`, `chunkAt_take` — the key of a chunk depends on the
  tokens up to its end only.
-/

import InfiniKV.HashChain
import InfiniKV.Python
import InfiniKV.Sha256

set_option relaxedAutoImplicit false
set_option autoImplicit false

namespace InfiniKV

open Sha256

/-! ### Keys and configuration -/

/-- The key of a chunk in the cache engine. -/
structure CacheEngineKey where
  fmt : Str
  modelName : Str
  worldSize : ℤ
  workerId : ℤ
  chunkHash : Str
  deriving DecidableEq

/-- What an engine knows about its model.  The entries of `kvShape` are the number of layers, the
number of parts of an entry (keys and values, or one), the chunk size, the number of heads and the
head size. -/
structure InfiniKVEngineMetadata where
  modelName : Str
  worldSize : ℤ
  workerId : ℤ
  fmt : Str
  kvShape : ℕ × ℕ × ℕ × ℕ × ℕ
  useMla : Bool

/-- The part of the engine configuration that the token database reads. -/
structure InfiniKVEngineConfig where
  chunkSize : ℕ
  saveUnfullChunk : Bool
  chunkSize_pos : 0 < chunkSize

/-- Tokens are handed over as a tensor or as a list. -/
inductive TokenForm where
  | tensor
  | list
  deriving DecidableEq

/-- A token sequence in one of its two forms. -/
structure Tokens where
  form : TokenForm
  ids : List ℤ

/-- The token database of an engine. -/
structure ChunkedTokenDatabase where
  chunkSize : ℕ
  saveUnfullChunk : Bool
  metadata : InfiniKVEngineMetadata
  chunkSize_pos : 0 < chunkSize

/-- `ChunkedTokenDatabase.__init__`. -/
def ChunkedTokenDatabase.init (config : InfiniKVEngineConfig) (metadata : InfiniKVEngineMetadata) :
    ChunkedTokenDatabase :=
  ⟨config.chunkSize, config.saveUnfullChunk, metadata, config.chunkSize_pos⟩

/-- A token as an unsigned 32-bit integer fits when it is one. -/
def FitsUInt32 (x : ℤ) : Prop := 0 ≤ x ∧ x < 2 ^ 32

instance : DecidablePred FitsUInt32 := fun x => inferInstanceAs (Decidable (0 ≤ x ∧ x < 2 ^ 32))

/-- The bytes of a sequence of tokens, each reduced to 32 bits. -/
def wordBytes (xs : List ℤ) : List UInt8 := xs.flatMap fun x => uint32Bytes (x % 2 ^ 32).toNat

/-- The bytes that are hashed for a chunk: a tensor is converted with wrap-around, a list goes
through an array of unsigned integers, which refuses an entry that does not fit. -/
def tokensBytes : TokenForm → List ℤ → Except PyError (List UInt8)
  | .tensor, xs => .ok (wordBytes xs)
  | .list, xs => if ∀ x ∈ xs, FitsUInt32 x then .ok (wordBytes xs) else .error .overflowError

/-- The message hashed for a chunk: the text of the preceding digest, then the bytes of the
tokens. -/
def hashMessage (prefixHash : Str) (chunk : List ℤ) : List UInt8 :=
  asciiBytes prefixHash ++ wordBytes chunk

namespace ChunkedTokenDatabase

variable (db : ChunkedTokenDatabase)

/-! ### The source's functions -/

/-- `_make_key_by_hash`. -/
def makeKeyByHash (chunkHash : Str) : CacheEngineKey :=
  ⟨db.metadata.fmt, db.metadata.modelName, db.metadata.worldSize, db.metadata.workerId, chunkHash⟩

/-- `_get_init_hash`. -/
def getInitHash : Str := []

/-- `_hash`. -/
def hash (form : TokenForm) (tokens : List ℤ) (prefixHash : Str) : Except PyError Str :=
  (tokensBytes form tokens).map fun bytes => hexdigest (asciiBytes prefixHash ++ bytes)

/-- `_chunk_tokens`. -/
def chunkTokens (tokens : List ℤ) : List (List ℤ) :=
  let stop := if db.saveUnfullChunk then tokens.length
    else tokens.length - tokens.length % db.chunkSize
  (List.range (cdiv stop db.chunkSize)).map fun i => (tokens.drop (i * db.chunkSize)).take db.chunkSize

/-- `_prefix_hash`, from a given prefix hash on. -/
def prefixHash (form : TokenForm) : Str → List (List ℤ) → Generator Str
  | _, [] => ⟨[], none⟩
  | p, chunk :: chunks =>
      match hash form chunk p with
      | .error e => .raise e
      | .ok d => .yield d (prefixHash form d chunks)

/-- The number of false entries of a mask. -/
def numFalses : Option (List Bool) → ℕ
  | some mask => mask.count false
  | none => 0

/-- `process_tokens` with `make_key=False`: the range and the hash of every chunk that the mask does
not skip. -/
def processHashes (tokens : Tokens) (mask : Option (List Bool)) : Generator (ℕ × ℕ × Str) :=
  if numFalses mask % db.chunkSize ≠ 0 then
    .raise (.valueError "The number of Falses in the mask is not a multiple of the chunk size.")
  else
    let prefixHashes := prefixHash tokens.form getInitHash (db.chunkTokens tokens.ids)
    ⟨prefixHashes.yields.zipIdx.filterMap fun (hashVal, chunkId) =>
      let startIdx := chunkId * db.chunkSize
      let endIdx := min (startIdx + db.chunkSize) tokens.ids.length
      if startIdx < numFalses mask then none else some (startIdx, endIdx, hashVal),
      prefixHashes.raises⟩

/-- **`process_tokens`**: the range and the key of every chunk that the mask does not skip. -/
def processTokens (tokens : Tokens) (mask : Option (List Bool)) :
    Generator (ℕ × ℕ × CacheEngineKey) :=
  (db.processHashes tokens mask).filterMap fun (s, e, h) => some (s, e, db.makeKeyByHash h)

/-! ### The chunks of a token sequence -/

/-- The number of chunks of a token sequence. -/
def numChunks (X : List ℤ) : ℕ :=
  if db.saveUnfullChunk then cdiv X.length db.chunkSize else X.length / db.chunkSize

@[simp] theorem length_chunkTokens (X : List ℤ) : (db.chunkTokens X).length = db.numChunks X := by
  have hc := db.chunkSize_pos
  simp only [chunkTokens, numChunks, List.length_map, List.length_range]
  split
  · rfl
  · have h := Nat.div_add_mod X.length db.chunkSize
    have : X.length - X.length % db.chunkSize = X.length / db.chunkSize * db.chunkSize := by
      rw [Nat.mul_comm]; omega
    rw [this, cdiv_mul hc]

/-- A chunk starts inside the sequence. -/
theorem lt_length_of_lt_numChunks {X : List ℤ} {j : ℕ} (h : j < db.numChunks X) :
    j * db.chunkSize < X.length := by
  have hc := db.chunkSize_pos
  unfold numChunks at h
  split at h
  · exact (lt_cdiv_iff hc).1 h
  · have h₁ : (j + 1) * db.chunkSize ≤ X.length := (Nat.le_div_iff_mul_le hc).1 h
    rw [Nat.succ_mul] at h₁
    omega

/-- A chunk that is wholly inside the sequence is one of its chunks. -/
theorem lt_numChunks_of_le {X : List ℤ} {j : ℕ} (h : (j + 1) * db.chunkSize ≤ X.length) :
    j < db.numChunks X := by
  have hc := db.chunkSize_pos
  unfold numChunks
  split
  · refine (lt_cdiv_iff hc).2 ?_
    rw [Nat.succ_mul] at h
    omega
  · exact (Nat.le_div_iff_mul_le hc).2 h

theorem numChunks_le_cdiv (X : List ℤ) : db.numChunks X ≤ cdiv X.length db.chunkSize := by
  by_contra h
  exact absurd (db.lt_length_of_lt_numChunks (not_le.1 h))
    (not_lt.2 ((cdiv_le_iff db.chunkSize_pos).1 le_rfl))

/-- Chunk `j` of a token sequence. -/
def chunk (X : List ℤ) (j : ℕ) : List ℤ := (X.drop (j * db.chunkSize)).take db.chunkSize

theorem chunkTokens_eq (X : List ℤ) :
    db.chunkTokens X = (List.range (db.numChunks X)).map (db.chunk X) := by
  rw [← db.length_chunkTokens]
  simp [chunkTokens, chunk]

theorem take_chunkTokens {X : List ℤ} {n : ℕ} (h : n ≤ db.numChunks X) :
    (db.chunkTokens X).take n = (List.range n).map (db.chunk X) := by
  rw [chunkTokens_eq, ← List.map_take, List.take_range, min_eq_left h]

theorem chunk_congr {X Y : List ℤ} {n j : ℕ} (h : X.take (n * db.chunkSize) = Y.take (n * db.chunkSize))
    (hj : j < n) : db.chunk X j = db.chunk Y j := by
  have hle : (j + 1) * db.chunkSize ≤ n * db.chunkSize := Nat.mul_le_mul_right _ hj
  rw [Nat.succ_mul] at hle
  have key : ∀ Z : List ℤ, db.chunk Z j = ((Z.take (n * db.chunkSize)).drop (j * db.chunkSize)).take
      db.chunkSize := by
    intro Z
    rw [chunk, List.drop_take, List.take_take, min_eq_left (by omega)]
  rw [key X, key Y, h]

theorem chunk_ne_nil {X : List ℤ} {j : ℕ} (h : j < db.numChunks X) : db.chunk X j ≠ [] := by
  have h₁ := db.lt_length_of_lt_numChunks h
  have h₂ := db.chunkSize_pos
  intro hnil
  have := congrArg List.length hnil
  simp only [chunk, List.length_take, List.length_drop, List.length_nil] at this
  omega

/-! ### Keys of chunks -/

/-- The digest that chunk `j` of a token sequence is keyed by. -/
def digestAt (X : List ℤ) (j : ℕ) : Str :=
  HashChain.digest hexdigest hashMessage getInitHash ((db.chunkTokens X).take (j + 1))

/-- **The key of chunk `j`** of a token sequence. -/
def keyAt (X : List ℤ) (j : ℕ) : CacheEngineKey := db.makeKeyByHash (db.digestAt X j)

/-- What is yielded for chunk `j`: its range and its key. -/
def chunkAt (X : List ℤ) (j : ℕ) : ℕ × ℕ × CacheEngineKey :=
  (j * db.chunkSize, min (j * db.chunkSize + db.chunkSize) X.length, db.keyAt X j)

/-- The key of a chunk depends on the tokens up to its end only. -/
theorem keyAt_congr {X Y : List ℤ} {j : ℕ} (hX : j < db.numChunks X) (hY : j < db.numChunks Y)
    (h : X.take ((j + 1) * db.chunkSize) = Y.take ((j + 1) * db.chunkSize)) :
    db.keyAt X j = db.keyAt Y j := by
  rw [keyAt, keyAt, digestAt, digestAt, db.take_chunkTokens hX, db.take_chunkTokens hY]
  congr 2
  refine List.map_congr_left fun i hi => db.chunk_congr h (List.mem_range.1 hi)

/-- A token sequence that is cut at or after the end of a chunk keeps its key. -/
theorem keyAt_take {X : List ℤ} {j n : ℕ} (hX : j < db.numChunks X)
    (hn : min ((j + 1) * db.chunkSize) X.length ≤ n) (hY : j < db.numChunks (X.take n)) :
    db.keyAt (X.take n) j = db.keyAt X j := by
  refine db.keyAt_congr hY hX ?_
  rw [List.take_take]
  rcases Nat.lt_or_ge n ((j + 1) * db.chunkSize) with h | h
  · have hlen : X.length ≤ n := by omega
    rw [min_eq_right (Nat.le_of_lt h), List.take_of_length_le hlen, List.take_of_length_le (by omega)]
  · rw [min_eq_left h]

/-- A sequence that is cut after its first `r` chunks has these chunks. -/
theorem numChunks_take {X : List ℤ} {r : ℕ} (h : r ≤ db.numChunks X) :
    db.numChunks (X.take (r * db.chunkSize)) = r := by
  have hc := db.chunkSize_pos
  refine Nat.le_antisymm ?_ ?_
  · by_contra hlt
    have h₁ := db.lt_length_of_lt_numChunks (not_le.1 hlt)
    rw [List.length_take] at h₁
    omega
  · cases r with
    | zero => exact Nat.zero_le _
    | succ j =>
        have h₁ := db.lt_length_of_lt_numChunks h
        unfold numChunks at h ⊢
        split at h
        · rw [if_pos ‹_›]
          refine (lt_cdiv_iff hc).2 ?_
          rw [List.length_take, Nat.succ_mul]
          omega
        · rw [if_neg ‹_›]
          refine (Nat.le_div_iff_mul_le hc).2 ?_
          rw [List.length_take]
          exact Nat.le_min.2 ⟨le_rfl, (Nat.le_div_iff_mul_le hc).1 h⟩

/-- What is yielded for the first `r` chunks does not depend on the tokens after them. -/
theorem chunkAt_take {X : List ℤ} {j r : ℕ} (hj : j < r) (hr : r ≤ db.numChunks X) :
    db.chunkAt (X.take (r * db.chunkSize)) j = db.chunkAt X j := by
  have hle : (j + 1) * db.chunkSize ≤ r * db.chunkSize := Nat.mul_le_mul_right _ hj
  have hkey : db.keyAt (X.take (r * db.chunkSize)) j = db.keyAt X j :=
    db.keyAt_take (by omega) (by omega) (by rw [db.numChunks_take hr]; exact hj)
  rw [Nat.succ_mul] at hle
  simp only [chunkAt, hkey, List.length_take, Prod.mk.injEq, true_and, and_true]
  omega

/-! ### What is yielded -/

theorem yields_prefixHash_tensor (p : Str) (cs : List (List ℤ)) :
    (prefixHash .tensor p cs).yields =
      (List.range cs.length).map fun j => HashChain.digest hexdigest hashMessage p (cs.take (j + 1)) := by
  induction cs generalizing p with
  | nil => rfl
  | cons c cs ih =>
      simp only [prefixHash, hash, tokensBytes, Except.map, Generator.yield, ih, List.length_cons,
        List.range_succ_eq_map, List.map_cons, List.map_map]
      rfl

theorem raises_prefixHash_tensor (p : Str) (cs : List (List ℤ)) :
    (prefixHash .tensor p cs).raises = none := by
  induction cs generalizing p with
  | nil => rfl
  | cons c cs ih => simp [prefixHash, hash, tokensBytes, Except.map, Generator.yield, ih]

/-- A list of unsigned 32-bit integers is hashed like a tensor. -/
theorem prefixHash_list (p : Str) (cs : List (List ℤ)) (h : ∀ c ∈ cs, ∀ x ∈ c, FitsUInt32 x) :
    prefixHash .list p cs = prefixHash .tensor p cs := by
  induction cs generalizing p with
  | nil => rfl
  | cons c cs ih =>
      have hc : ∀ x ∈ c, FitsUInt32 x := h c (List.mem_cons_self ..)
      simp only [prefixHash, hash, tokensBytes, if_pos hc, Except.map]
      rw [ih _ fun c' hc' => h c' (List.mem_cons_of_mem _ hc')]

/-- Skipping the first `k` of `n` indices. -/
theorem filterMap_range_skip {α : Type} (F : ℕ → α) (k n : ℕ) :
    ((List.range n).filterMap fun j => if j * db.chunkSize < k * db.chunkSize then none else some (F j))
      = (List.range' k (n - k)).map F := by
  have hlt : ∀ j, j * db.chunkSize < k * db.chunkSize ↔ j < k :=
    fun j => Nat.mul_lt_mul_right db.chunkSize_pos
  simp only [hlt]
  have hskip : ∀ m ≤ k, ((List.range' 0 m).filterMap fun j => if j < k then none else some (F j))
      = [] := by
    intro m hm
    refine List.filterMap_eq_nil_iff.2 fun j hj => if_pos ?_
    rw [List.mem_range'_1] at hj
    omega
  rcases Nat.le_total n k with h | h
  · rw [List.range_eq_range', hskip n h, Nat.sub_eq_zero_of_le h]
    rfl
  · obtain ⟨m, rfl⟩ := Nat.exists_eq_add_of_le h
    rw [List.range_eq_range', ← List.range'_append_1, List.filterMap_append, hskip k le_rfl,
      List.nil_append, Nat.zero_add, Nat.add_sub_cancel_left, ← List.filterMap_eq_map]
    refine List.filterMap_congr fun j hj => ?_
    rw [List.mem_range'_1] at hj
    exact if_neg (by omega)

theorem zipIdx_map_range {α : Type} (g : ℕ → α) (n : ℕ) :
    ((List.range n).map g).zipIdx = (List.range n).map fun j => (g j, j) :=
  List.ext_getElem (by simp) (by simp)

/-- **What is yielded for a tensor**: when the false entries of the mask fill `k` chunks, the chunks
from chunk `k` on. -/
theorem processTokens_tensor (X : List ℤ) {mask : Option (List Bool)} {k : ℕ}
    (h : numFalses mask = k * db.chunkSize) :
    db.processTokens ⟨.tensor, X⟩ mask =
      ⟨(List.range' k (db.numChunks X - k)).map (db.chunkAt X), none⟩ := by
  have hmod : ¬ k * db.chunkSize % db.chunkSize ≠ 0 := by simp
  have hyields : (prefixHash .tensor getInitHash (db.chunkTokens X)).yields =
      (List.range (db.numChunks X)).map (db.digestAt X) := by
    rw [yields_prefixHash_tensor, length_chunkTokens]
    rfl
  simp only [processTokens, processHashes, h, if_neg hmod, hyields, raises_prefixHash_tensor,
    zipIdx_map_range, List.filterMap_map, Function.comp_def, Generator.filterMap,
    filterMap_range_skip]
  rw [List.filterMap_eq_map']
  rfl

/-- A mask that does not fill whole chunks is refused. -/
theorem processTokens_of_mod_ne_zero (tokens : Tokens) {mask : Option (List Bool)}
    (h : numFalses mask % db.chunkSize ≠ 0) :
    db.processTokens tokens mask =
      ⟨[], some (.valueError
        "The number of Falses in the mask is not a multiple of the chunk size.")⟩ := by
  rw [processTokens, processHashes, if_pos h]
  rfl

/-- The chunks that are yielded for a tensor. -/
theorem mem_yields_tensor {X : List ℤ} {mask : Option (List Bool)} {y : ℕ × ℕ × CacheEngineKey} :
    y ∈ (db.processTokens ⟨.tensor, X⟩ mask).yields ↔
      ∃ k, numFalses mask = k * db.chunkSize ∧ ∃ j, k ≤ j ∧ j < db.numChunks X ∧ y = db.chunkAt X j := by
  constructor
  · intro h
    by_cases hmod : numFalses mask % db.chunkSize ≠ 0
    · rw [db.processTokens_of_mod_ne_zero _ hmod] at h
      simp at h
    · obtain ⟨k, hk⟩ : ∃ k, numFalses mask = k * db.chunkSize :=
        ⟨_, (Nat.div_mul_cancel (Nat.dvd_of_mod_eq_zero (not_not.1 hmod))).symm⟩
      rw [db.processTokens_tensor X hk] at h
      obtain ⟨j, hj, rfl⟩ := List.mem_map.1 h
      rw [List.mem_range'_1] at hj
      exact ⟨k, hk, j, hj.1, by omega, rfl⟩
  · rintro ⟨k, hk, j, hkj, hj, rfl⟩
    rw [db.processTokens_tensor X hk]
    refine List.mem_map.2 ⟨j, ?_, rfl⟩
    rw [List.mem_range'_1]
    omega

/-- There are at most as many hashes as chunks. -/
theorem length_yields_prefixHash_le (form : TokenForm) (p : Str) (cs : List (List ℤ)) :
    (prefixHash form p cs).yields.length ≤ cs.length := by
  induction cs generalizing p with
  | nil => exact le_rfl
  | cons c cs ih =>
      rw [prefixHash]
      split
      · exact Nat.zero_le _
      · exact Nat.succ_le_succ (ih _)

/-- **The range of what is yielded** is that of one of the chunks, in either form of the tokens. -/
theorem range_of_mem_yields {tokens : Tokens} {mask : Option (List Bool)} {y : ℕ × ℕ × CacheEngineKey}
    (h : y ∈ (db.processTokens tokens mask).yields) :
    ∃ j < db.numChunks tokens.ids, y.1 = j * db.chunkSize ∧
      y.2.1 = min (j * db.chunkSize + db.chunkSize) tokens.ids.length := by
  obtain ⟨⟨start, stop, hashVal⟩, hmem, hy⟩ := List.mem_filterMap.1 h
  cases hy
  rw [processHashes] at hmem
  split at hmem
  · cases hmem
  · obtain ⟨⟨hashVal', j⟩, hj, hsome⟩ := List.mem_filterMap.1 hmem
    have hlt := (List.mem_zipIdx' hj).1
    have hle := length_yields_prefixHash_le tokens.form getInitHash (db.chunkTokens tokens.ids)
    rw [length_chunkTokens] at hle
    simp only at hsome
    split at hsome
    · cases hsome
    · cases hsome
      exact ⟨j, by omega, rfl, rfl⟩

/-- A list of unsigned 32-bit integers is treated like the tensor with the same entries. -/
theorem processTokens_list (X : List ℤ) (mask : Option (List Bool)) (h : ∀ x ∈ X, FitsUInt32 x) :
    db.processTokens ⟨.list, X⟩ mask = db.processTokens ⟨.tensor, X⟩ mask := by
  have hchunks : ∀ c ∈ db.chunkTokens X, ∀ x ∈ c, FitsUInt32 x := by
    intro c hc x hx
    obtain ⟨i, -, rfl⟩ := List.mem_map.1 hc
    exact h x (List.mem_of_mem_drop (List.mem_of_mem_take hx))
  simp only [processTokens, processHashes, prefixHash_list _ _ hchunks]

end ChunkedTokenDatabase

end InfiniKV
