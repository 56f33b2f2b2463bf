/-
**Lookup and load agree.**

The scheduler asks `lookup` how many leading tokens of a prompt are in the store, and the worker
later asks `prepare_for_load` for the files of these tokens.  The two are separate loops: the first
hashes the whole prompt, the second the truncated prompt under a mask, and the index may have grown
in between.

Main definitions:

* `InfiniKV.StoreCall`, `InfiniKV.InfiniKVEngine.storeCalls` — a sequence of calls of
  `prepare_for_store`.

Main results:

* `InfiniKV.foldl_setRange` — the mask that `prepare_for_load` returns;
* `InfiniKV.InfiniKVEngine.storeCalls_extends` — any number of stores only add to the index;
* `InfiniKV.InfiniKVEngine.lookup_then_prepareForLoad` — **what was looked up can be loaded**, in
  every later state of the engine.
-/

import InfiniKV.Engine

set_option relaxedAutoImplicit false
set_option autoImplicit false

namespace InfiniKV

/-! ### The mask that is returned -/

theorem setRange_eq (mask : List Bool) (start stop : ℕ) :
    setRange mask start stop = mask.mapIdx fun i m => m || decide (start ≤ i ∧ i < stop) := by
  unfold setRange
  refine congrArg (List.mapIdx · mask) ?_
  funext i m
  split
  · simp [*]
  · simp [*]

/-- Setting several ranges sets the entries that one of them covers. -/
theorem foldl_setRange (ts : List ChunkTransfer) (mask : List Bool) :
    ts.foldl (fun retMask t => setRange retMask t.start t.stop) mask =
      mask.mapIdx fun i m => m || ts.any fun t => decide (t.start ≤ i ∧ i < t.stop) := by
  induction ts generalizing mask with
  | nil => exact List.ext_getElem (by simp) (by simp)
  | cons t ts ih =>
      rw [List.foldl_cons, ih, setRange_eq, List.mapIdx_mapIdx]
      simp only [Function.comp_def, List.any_cons, Bool.or_assoc]

/-- When the ranges cover exactly the entries from `v` on, the mask is false before `v` and true from
`v` on. -/
theorem foldl_setRange_replicate {ts : List ChunkTransfer} {v n : ℕ} (hv : v ≤ n)
    (h : ∀ i < n, (∃ t ∈ ts, t.start ≤ i ∧ i < t.stop) ↔ v ≤ i) :
    ts.foldl (fun retMask t => setRange retMask t.start t.stop) (List.replicate n false) =
      List.replicate v false ++ List.replicate (n - v) true := by
  rw [foldl_setRange]
  refine List.ext_getElem (by simp; omega) ?_
  intro i h₁ h₂
  have hi : i < n := by simpa using h₁
  have hany : (ts.any fun t => decide (t.start ≤ i ∧ i < t.stop)) = decide (v ≤ i) := by
    rw [Bool.eq_iff_iff, List.any_eq_true, decide_eq_true_iff, ← h i hi]
    simp only [decide_eq_true_iff]
  rw [List.getElem_mapIdx, List.getElem_replicate, Bool.false_or, hany, List.getElem_append]
  split
  · rename_i hlt
    simp only [List.length_replicate] at hlt
    simp [hlt]
  · rename_i hlt
    simp only [List.length_replicate, not_lt] at hlt
    simp [hlt]

/-- The arguments of a call of `prepare_for_store`. -/
structure StoreCall where
  tokens : List ℤ
  mask : Option (List Bool)
  blockIds : List ℕ
  offset : Option ℕ

namespace InfiniKVEngine

variable (e : InfiniKVEngine) (ops : GeminiFSOps)

/-! ### Later states of the engine -/

/-- The engine after a sequence of calls of `prepare_for_store`, whether they return or raise. -/
def storeCalls (calls : List StoreCall) : InfiniKVEngine :=
  calls.foldl (fun e c => (e.prepareForStore ops c.tokens c.mask c.blockIds c.offset).2) e

@[simp] theorem tokenDatabase_storeCalls (calls : List StoreCall) :
    (e.storeCalls ops calls).tokenDatabase = e.tokenDatabase := by
  induction calls generalizing e with
  | nil => rfl
  | cons c calls ih => exact ih _

/-- Any number of stores only add to the index. -/
theorem storeCalls_extends (calls : List StoreCall) :
    e.storageBackend.Extends (e.storeCalls ops calls).storageBackend := by
  induction calls generalizing e with
  | nil => exact .refl _
  | cons c calls ih => exact (e.prepareForStore_extends ops _ _ _ _).trans (ih _)

/-! ### Loading what was looked up -/

/-- The run of a sequence that is cut after its own leading run, in an engine with a larger index. -/
theorem storedRun_take {e e' : InfiniKVEngine} (hdb : e'.tokenDatabase = e.tokenDatabase)
    (hext : e.storageBackend.Extends e'.storageBackend) {X : List ℤ} {k : ℕ} (hk : k ≤ e.storedRun X 0) :
    e'.storedRun (X.take (e.storedRun X 0 * e.tokenDatabase.chunkSize)) k = e.storedRun X 0 - k := by
  have hr : e.storedRun X 0 ≤ e.tokenDatabase.numChunks X := e.storedRun_le X 0
  have hnum := e.tokenDatabase.numChunks_take hr
  refine e'.storedRun_eq ?_ (Or.inl (by rw [hdb, hnum]))
  intro i hi
  have hkey := congrArg (·.2.2) (e.tokenDatabase.chunkAt_take (X := X) (j := k + i) (by omega) hr)
  have hstored := e.contains_of_lt_storedRun (X := X) (k := 0) (i := k + i) (by omega)
  rw [Nat.zero_add] at hstored
  rw [hdb]
  simp only [ChunkedTokenDatabase.chunkAt] at hkey
  rw [hkey]
  exact hext.contains hstored

/-- The ranges of the transfers of a run cover the tokens from its first chunk on. -/
theorem covers_iff {db : ChunkedTokenDatabase} {X : List ℤ} {k r : ℕ} (hk : k ≤ r)
    {ts : List ChunkTransfer}
    (hts : ts.map ChunkTransfer.chunk = (List.range' k (r - k)).map (db.chunkAt X)) {i : ℕ}
    (hi : i < X.length) (hir : i < r * db.chunkSize) :
    (∃ t ∈ ts, t.start ≤ i ∧ i < t.stop) ↔ k * db.chunkSize ≤ i := by
  have hc := db.chunkSize_pos
  have hchunk : ∀ y, (∃ t ∈ ts, t.chunk = y) ↔ ∃ j, k ≤ j ∧ j < r ∧ db.chunkAt X j = y := by
    intro y
    rw [← List.mem_map, hts, List.mem_map]
    constructor
    · rintro ⟨j, hj, rfl⟩
      rw [List.mem_range'_1] at hj
      exact ⟨j, hj.1, by omega, rfl⟩
    · rintro ⟨j, h₁, h₂, rfl⟩
      exact ⟨j, List.mem_range'_1.2 ⟨h₁, by omega⟩, rfl⟩
  constructor
  · rintro ⟨t, ht, h₁, -⟩
    obtain ⟨j, hj, -, hy⟩ := (hchunk t.chunk).1 ⟨t, ht, rfl⟩
    have hstart : j * db.chunkSize = t.start := congrArg (·.1) hy
    have := Nat.mul_le_mul_right db.chunkSize hj
    omega
  · intro hki
    have hdiv := Nat.div_add_mod i db.chunkSize
    have hmod := Nat.mod_lt i hc
    rw [Nat.mul_comm] at hdiv
    obtain ⟨t, ht, hy⟩ := (hchunk (db.chunkAt X (i / db.chunkSize))).2
      ⟨_, (Nat.le_div_iff_mul_le hc).2 hki, (Nat.div_lt_iff_lt_mul hc).2 hir, rfl⟩
    have hstart : t.start = i / db.chunkSize * db.chunkSize := congrArg (·.1) hy
    have hstop : t.stop = min (i / db.chunkSize * db.chunkSize + db.chunkSize) X.length :=
      congrArg (·.2.1) hy
    exact ⟨t, ht, by omega, by omega⟩

/-- What `prepare_for_load` returns for the leading run of a sequence in an engine with a larger
index. -/
theorem prepareForLoad_of_extends {e e' : InfiniKVEngine} (hdb : e'.tokenDatabase = e.tokenDatabase)
    (hext : e.storageBackend.Extends e'.storageBackend) {X : List ℤ} {k n : ℕ} {blockIds : List ℕ}
    (hn : n = min (e.storedRun X 0 * e.tokenDatabase.chunkSize) X.length)
    (hk : k * e.tokenDatabase.chunkSize ≤ n) (hblocks : e.storedRun X 0 - k ≤ blockIds.length) :
    ∃ files blocks,
      e'.prepareForLoad (X.take n) (some (skipMask (k * e.tokenDatabase.chunkSize) n)) blockIds =
        .ok (skipMask (k * e.tokenDatabase.chunkSize) n, files, blocks) ∧
      files.length = e.storedRun X 0 - k ∧
      ∀ i f, files[i]? = some f →
        e.storageBackend.get (e.tokenDatabase.keyAt X (k + i)) = some f := by
  have hr : e.storedRun X 0 ≤ e.tokenDatabase.numChunks X := e.storedRun_le X 0
  have hkr : k ≤ e.storedRun X 0 := by
    have : k * e.tokenDatabase.chunkSize ≤ e.storedRun X 0 * e.tokenDatabase.chunkSize := by omega
    exact Nat.le_of_mul_le_mul_right this e.tokenDatabase.chunkSize_pos
  have htake : X.take n = X.take (e.storedRun X 0 * e.tokenDatabase.chunkSize) := by
    rw [hn, ← List.take_eq_take_min]
  have hlen : (X.take n).length = n := by
    rw [List.length_take]
    omega
  have hrun : e'.storedRun (X.take n) k = e.storedRun X 0 - k := by
    rw [htake]
    exact storedRun_take hdb hext hkr
  have hfalses : ChunkedTokenDatabase.numFalses (some (skipMask (k * e.tokenDatabase.chunkSize) n)) =
      k * e'.tokenDatabase.chunkSize := by
    rw [numFalses_skipMask, hdb, min_eq_left hk]
  have htable : e'.storedRun (X.take n) k ≤ blockIds.length := by
    rw [hrun]
    exact hblocks
  obtain ⟨ts, hts⟩ := e'.loadTransfers_ok hfalses htable
  obtain ⟨hchunks, -, -⟩ := e'.loadTransfers_spec hfalses hts
  rw [hrun, hdb] at hchunks
  have hlen_ts : ts.length = e.storedRun X 0 - k := (e'.length_of_loadTransfers hfalses hts).trans hrun
  refine ⟨ts.map (·.gpuFile), ts.map (·.blockId), ?_, by simpa using hlen_ts, ?_⟩
  · rw [prepareForLoad, hts, Except.map, hlen]
    rw [foldl_setRange_replicate hk fun i hi => covers_iff hkr hchunks (by omega) (by omega),
      skipMask_of_le hk]
  · intro i f hf
    rw [List.getElem?_map, Option.map_eq_some_iff] at hf
    obtain ⟨t, ht, rfl⟩ := hf
    have hi : i < e.storedRun X 0 - k := by
      rw [← hlen_ts]
      exact (List.getElem?_eq_some_iff.1 ht).1
    obtain ⟨hchunk, -, hfile⟩ := e'.loadTransfers_getElem hfalses hts ht
    rw [hdb, htake, e.tokenDatabase.chunkAt_take (by omega) hr] at hchunk
    have hkey : t.key = e.tokenDatabase.keyAt X (k + i) := congrArg (·.2.2) hchunk
    obtain ⟨g, hg⟩ := GeminiFSBackend.contains_iff_get.1
      (e.contains_of_lt_storedRun (X := X) (k := 0) (i := k + i) (by omega))
    rw [Nat.zero_add] at hg
    have hg' := hext _ _ hg
    rw [← hkey, hfile] at hg'
    rw [hg, hg']

/-- **Lookup and load agree and are exact.**  `lookup` returns the end of the longest run of leading
chunks that are in the index.  After any further stores, `prepare_for_load` of the tokens found, under
a mask that skips whole chunks, returns the mask of the rest and the files that the chunks had at the
time of the lookup, whenever the table has a block for each of these chunks. -/
theorem lookup_then_prepareForLoad (form : TokenForm) (X : List ℤ)
    (hform : form = .list → ∀ x ∈ X, FitsUInt32 x) :
    let ys := (e.tokenDatabase.processTokens ⟨form, X⟩ none).yields
    ∃ r n, r ≤ ys.length ∧
      (∀ i < r, ∃ y, ys[i]? = some y ∧ e.storageBackend.contains y.2.2 = true) ∧
      (∀ y, ys[r]? = some y → e.storageBackend.contains y.2.2 = false) ∧
      e.lookup ⟨form, X⟩ = .ok n ∧
      (r = 0 → n = 0) ∧ (∀ i y, r = i + 1 → ys[i]? = some y → n = y.2.1) ∧
      ∀ (calls : List StoreCall) (v : ℕ) (blockIds : List ℕ),
        e.tokenDatabase.chunkSize ∣ v → v ≤ n → r - v / e.tokenDatabase.chunkSize ≤ blockIds.length →
        ∃ files blocks,
          (e.storeCalls ops calls).prepareForLoad (X.take n) (some (skipMask v n)) blockIds =
            .ok (skipMask v n, files, blocks) ∧
          files.length = r - v / e.tokenDatabase.chunkSize ∧
          ∀ i f, files[i]? = some f →
            ∃ y, ys[v / e.tokenDatabase.chunkSize + i]? = some y ∧
              e.storageBackend.get y.2.2 = some f := by
  have hproc : e.tokenDatabase.processTokens ⟨form, X⟩ none =
      e.tokenDatabase.processTokens ⟨.tensor, X⟩ none := by
    cases form with
    | tensor => rfl
    | list => exact e.tokenDatabase.processTokens_list X none (hform rfl)
  have hlookup : e.lookup ⟨form, X⟩ = e.lookup ⟨.tensor, X⟩ := by simp only [lookup, hproc]
  have hr : e.storedRun X 0 ≤ e.tokenDatabase.numChunks X := e.storedRun_le X 0
  rw [hlookup, hproc, e.tokenDatabase.processTokens_tensor X (k := 0)
    (by simp [ChunkedTokenDatabase.numFalses]), e.lookup_tensor X, Nat.sub_zero]
  have hget : ∀ j < e.tokenDatabase.numChunks X,
      ((List.range' 0 (e.tokenDatabase.numChunks X)).map (e.tokenDatabase.chunkAt X))[j]? =
        some (e.tokenDatabase.chunkAt X j) := by
    intro j hj
    simp [hj]
  refine ⟨e.storedRun X 0, _, by simpa using hr, ?_, ?_, rfl, ?_, ?_, ?_⟩
  · intro i hi
    refine ⟨_, hget i (by omega), ?_⟩
    have := e.contains_of_lt_storedRun hi
    rwa [Nat.zero_add] at this
  · intro y hy
    rcases Nat.lt_or_ge (e.storedRun X 0) (e.tokenDatabase.numChunks X) with hlt | hge
    · rw [hget _ hlt, Option.some.injEq] at hy
      subst hy
      have := e.not_contains_storedRun (X := X) (k := 0) (by rwa [Nat.zero_add])
      rwa [Nat.zero_add] at this
    · rw [List.getElem?_eq_none (by simpa using hge)] at hy
      cases hy
  · intro h
    rw [h, Nat.zero_mul, Nat.zero_min]
  · intro i y hi hy
    rw [hget i (by omega), Option.some.injEq] at hy
    subst hy
    rw [hi, Nat.succ_mul]
    rfl
  · intro calls v blockIds hdvd hvn hblocks
    obtain ⟨files, blocks, hload, hlen, hfiles⟩ := prepareForLoad_of_extends
      (e.tokenDatabase_storeCalls ops calls) (e.storeCalls_extends ops calls) rfl
      (by rw [Nat.div_mul_cancel hdvd]; exact hvn) hblocks
    rw [Nat.div_mul_cancel hdvd] at hload
    refine ⟨files, blocks, hload, hlen, ?_⟩
    intro i f hf
    have hi := (List.getElem?_eq_some_iff.1 hf).1
    exact ⟨_, hget _ (by omega), hfiles i f hf⟩

/-- The theorem at an engine in which the first of two chunks was stored: two tokens are found, and
their file can be loaded. -/
theorem lookup_then_prepareForLoad_one_chunk :
    let ops : GeminiFSOps := ⟨fun n => some n, fun _ => true⟩
    let metadata : InfiniKVEngineMetadata := ⟨['m'], 1, 0, ['v'], (1, 2, 2, 1, 1), false⟩
    let e := ((InfiniKVEngine.init ⟨2, false, by decide⟩ metadata).prepareForStore ops [1, 2] none [7]
      none).2
    e.lookup ⟨.tensor, [1, 2, 3, 4, 5]⟩ = .ok 2 ∧
      ∃ files blocks, (e.storeCalls ops [⟨[1, 2, 3, 4], none, [7, 8], none⟩]).prepareForLoad [1, 2]
        (some (skipMask 0 2)) [7, 8, 9] = .ok (skipMask 0 2, files, blocks) ∧ files.length = 1 := by
  intro ops metadata e
  have hlookup : e.lookup ⟨.tensor, [1, 2, 3, 4, 5]⟩ = .ok 2 := by decide +kernel
  have hends : (e.tokenDatabase.processTokens ⟨.tensor, [1, 2, 3, 4, 5]⟩ none).yields.map (·.2.1) =
      [2, 4] := by decide +kernel
  obtain ⟨r, n, -, hstored, -, hn, hzero, hend, hload⟩ :=
    e.lookup_then_prepareForLoad ops .tensor [1, 2, 3, 4, 5] (by intro h; cases h)
  rw [hlookup, Except.ok.injEq] at hn
  subst hn
  have hr : r = 1 := by
    cases r with
    | zero => exact absurd (hzero rfl) (by decide)
    | succ i =>
        obtain ⟨y, hy, -⟩ := hstored i (Nat.lt_succ_self i)
        have hget := congrArg (·[i]?) hends
        simp only [List.getElem?_map, hy, Option.map_some, ← hend i y rfl hy] at hget
        cases i with
        | zero => rfl
        | succ i =>
            cases i with
            | zero => exact absurd hget (by decide)
            | succ i => exact absurd hget (by simp)
  subst hr
  obtain ⟨files, blocks, hfiles, hlen, -⟩ := hload [⟨[1, 2, 3, 4], none, [7, 8], none⟩] 0 [7, 8, 9]
    (Nat.dvd_zero _) (Nat.zero_le _) (by decide)
  exact ⟨hlookup, files, blocks, hfiles, by simpa using hlen⟩

end InfiniKVEngine

end InfiniKV
