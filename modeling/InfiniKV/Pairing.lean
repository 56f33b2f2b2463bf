/-
**Which block is paired with which chunk.**

`prepare_for_load` and `prepare_for_store` are handed the whole block table of a request, but number
the blocks they hand out from zero, whatever the mask skips and whichever chunks already have a file.
Chunk `j` of the tokens lies in block `j` of the table, so a pair is right only if the chunk is the
one with the number of the pair.

Main definitions:

* `InfiniKV.Aligned` — every transfer is paired with the block that holds its chunk;
* `InfiniKV.GeminiFSBackend.numMissing`, `numStored` — the number of keys without a file, and of those
  for which a file can be opened;
* `InfiniKV.InfiniKVEngine.StoresLeadingChunks`, `InfiniKV.Worker.LoadsFromStart` — **the conditions**
  under which the pairs are right.

Main results:

* `InfiniKV.InfiniKVEngine.storeTransfers_aligned_iff` — `prepare_for_store` pairs a chunk with its own
  block exactly when it stores leading chunks;
* `InfiniKV.Worker.requestTransfers_aligned_iff` — `_prepare_for_load` pairs a chunk with its own block,
  and loads into no locally cached block, exactly when nothing is cached locally or nothing is loaded.
-/

import InfiniKV.Worker
import Mathlib.Data.Finset.Card

set_option relaxedAutoImplicit false
set_option autoImplicit false

namespace InfiniKV

/-- Every transfer is paired with the block that holds its chunk. -/
def Aligned (chunkSize : ℕ) (blockIds : List ℕ) (ts : List ChunkTransfer) : Prop :=
  ∀ t ∈ ts, blockIds[t.start / chunkSize]? = some t.blockId

instance (chunkSize : ℕ) (blockIds : List ℕ) (ts : List ChunkTransfer) :
    Decidable (Aligned chunkSize blockIds ts) :=
  inferInstanceAs (Decidable (∀ t ∈ ts, blockIds[t.start / chunkSize]? = some t.blockId))

namespace GeminiFSBackend

/-- The number of keys of a list that have no file. -/
def numMissing (b : GeminiFSBackend) (keys : List CacheEngineKey) : ℕ :=
  (keys.toFinset.filter fun key => b.contains key = false).card

/-- The number of keys of a list that have no file and for which one can be opened, before the first
attempt that fails. -/
def numStored (ops : GeminiFSOps) (b : GeminiFSBackend) (keys : List CacheEngineKey) : ℕ :=
  (List.range' b.openCalls (b.numMissing keys)).findIdx fun n => (ops.gpuOpenFile n).isNone

variable {b : GeminiFSBackend} {ops : GeminiFSOps} {key : CacheEngineKey} {keys : List CacheEngineKey}

theorem numMissing_cons_of_contains (h : b.contains key = true) :
    b.numMissing (key :: keys) = b.numMissing keys := by
  rw [numMissing, List.toFinset_cons, Finset.filter_insert, if_neg (by simp [h]), numMissing]

/-- Opening a file for a key takes it off the missing ones. -/
theorem numMissing_cons_of_not_contains {i : ℕ} (h : b.contains key = false)
    (ho : ops.gpuOpenFile b.openCalls = some i) :
    b.numMissing (key :: keys) = (b.allocate ops key).2.numMissing keys + 1 := by
  have hset : (keys.toFinset.filter fun key' => (b.allocate ops key).2.contains key' = false) =
      (keys.toFinset.filter fun key' => b.contains key' = false).erase key := by
    ext key'
    have hiff : (b.allocate ops key).2.contains key' = true ↔ key' = key ∨ b.contains key' = true :=
      contains_allocate ho key'
    simp only [Finset.mem_filter, Finset.mem_erase, ← Bool.not_eq_true]
    rw [hiff]
    tauto
  rw [numMissing, numMissing, hset, List.toFinset_cons, Finset.filter_insert, if_pos h,
    ← Finset.card_erase_add_one (Finset.mem_insert_self key _), Finset.erase_insert_eq_erase]

theorem numStored_cons_of_contains (h : b.contains key = true) :
    b.numStored ops (key :: keys) = b.numStored ops keys := by
  rw [numStored, numMissing_cons_of_contains h, numStored]

theorem numStored_cons_of_none (h : b.contains key = false)
    (ho : ops.gpuOpenFile b.openCalls = none) : b.numStored ops (key :: keys) = 0 := by
  have hpos : 0 < b.numMissing (key :: keys) :=
    Finset.card_pos.2 ⟨key, Finset.mem_filter.2 ⟨by simp, h⟩⟩
  obtain ⟨m, hm⟩ := Nat.exists_eq_succ_of_ne_zero (Nat.ne_of_gt hpos)
  rw [numStored, hm, List.range'_succ, List.findIdx_cons, ho]
  rfl

theorem numStored_cons_of_some {i : ℕ} (h : b.contains key = false)
    (ho : ops.gpuOpenFile b.openCalls = some i) :
    b.numStored ops (key :: keys) = (b.allocate ops key).2.numStored ops keys + 1 := by
  have hcalls : (b.allocate ops key).2.openCalls = b.openCalls + 1 := by rw [allocate_of_some ho]
  rw [numStored, numMissing_cons_of_not_contains h ho, List.range'_succ, List.findIdx_cons, ho,
    numStored, hcalls]
  rfl

end GeminiFSBackend

/-! ### Storing -/

namespace InfiniKVEngine

variable {ops : GeminiFSOps} {blockIds : List ℕ} {ys : List (ℕ × ℕ × CacheEngineKey)} {index : ℕ}
  {b : GeminiFSBackend} {ts : List ChunkTransfer}

/-- The loop returns when the table has a block for every chunk. -/
theorem storeLoop_ok (h : index + ys.length ≤ blockIds.length) :
    ∃ ts, (storeLoop ops blockIds none ys index b).1 = .ok ts := by
  revert h
  refine storeLoop_induction ops blockIds (motive := fun ys index _ r _ =>
    index + ys.length ≤ blockIds.length → ∃ ts, r = .ok ts) ?_ ?_ ?_ ?_ ?_ ys index b
  · intro index b _
    exact ⟨[], rfl⟩
  · intro start stop key rest index b r b' _ ih h
    rw [List.length_cons] at h
    exact ih (by omega)
  · intro start stop key rest index b _ _ _
    exact ⟨[], rfl⟩
  · intro start stop key rest index b i _ _ hb h
    rw [List.length_cons] at h
    rw [List.getElem?_eq_getElem (by omega)] at hb
    cases hb
  · intro start stop key rest index b i blockId r b' _ _ _ ih h
    rw [List.length_cons] at h
    obtain ⟨ts, rfl⟩ := ih (by omega)
    exact ⟨_, rfl⟩

/-- **What the loop stores**: some of the chunks, in order, as many as keys are missing and files can
be opened, with keys that had no file; and they get the blocks from the current index on. -/
theorem storeLoop_spec (h : (storeLoop ops blockIds none ys index b).1 = .ok ts) :
    (ts.map ChunkTransfer.chunk).Sublist ys ∧ ts.length = b.numStored ops (ys.map (·.2.2)) ∧
      (ts.map (·.key)).Nodup ∧ (∀ t ∈ ts, b.contains t.key = false) ∧
      ∀ (i : ℕ) (t : ChunkTransfer), ts[i]? = some t → blockIds[index + i]? = some t.blockId := by
  revert h
  refine storeLoop_induction ops blockIds (motive := fun ys index b r _ => ∀ {ts}, r = .ok ts →
    (ts.map ChunkTransfer.chunk).Sublist ys ∧ ts.length = b.numStored ops (ys.map (·.2.2)) ∧
      (ts.map (·.key)).Nodup ∧ (∀ t ∈ ts, b.contains t.key = false) ∧
      ∀ (i : ℕ) (t : ChunkTransfer), ts[i]? = some t → blockIds[index + i]? = some t.blockId)
    ?_ ?_ ?_ ?_ ?_ ys index b
  · intro index b ts h
    cases h
    exact ⟨.slnil, rfl, List.nodup_nil, by simp, by simp⟩
  · intro start stop key rest index b r b' hk ih ts h
    obtain ⟨hsub, hlen, hrest⟩ := ih h
    refine ⟨hsub.cons _, ?_, hrest⟩
    rw [hlen, List.map_cons, GeminiFSBackend.numStored_cons_of_contains hk]
  · intro start stop key rest index b hk ho ts h
    cases h
    refine ⟨List.nil_sublist _, ?_, List.nodup_nil, by simp, by simp⟩
    rw [List.map_cons, GeminiFSBackend.numStored_cons_of_none hk ho, List.length_nil]
  · intro start stop key rest index b i _ _ _ ts h
    cases h
  · intro start stop key rest index b i blockId r b' hk ho hb ih ts h
    obtain ⟨ts', hr, rfl⟩ := map_eq_ok.1 h
    obtain ⟨hsub, hlen, hnodup, hfresh, hblocks⟩ := ih hr
    have hnew : ∀ t ∈ ts', t.key ≠ key ∧ b.contains t.key = false := by
      intro t ht
      have hc : ¬ (b.allocate ops key).2.contains t.key = true := by
        rw [hfresh t ht]
        exact Bool.false_ne_true
      rw [GeminiFSBackend.contains_allocate ho, not_or] at hc
      exact ⟨hc.1, by simpa using hc.2⟩
    refine ⟨hsub.cons_cons _, ?_, ?_, ?_, ?_⟩
    · rw [List.length_cons, hlen, List.map_cons, GeminiFSBackend.numStored_cons_of_some hk ho]
    · rw [List.map_cons, List.nodup_cons]
      refine ⟨?_, hnodup⟩
      intro hmem
      obtain ⟨t, ht, heq⟩ := List.mem_map.1 hmem
      exact (hnew t ht).1 heq
    · intro t ht
      rcases List.mem_cons.1 ht with rfl | ht
      · exact hk
      · exact (hnew t ht).2
    · intro j t ht
      cases j with
      | zero =>
          cases ht
          exact hb
      | succ j =>
          rw [← hblocks j t ht]
          congr 1
          omega

/-- As long as the leading chunks are missing, they are the ones stored. -/
theorem storeLoop_take (h : (storeLoop ops blockIds none ys index b).1 = .ok ts) (m : ℕ)
    (hnodup : ((ys.take m).map (·.2.2)).Nodup) (hfresh : ∀ y ∈ ys.take m, b.contains y.2.2 = false) :
    (ts.map ChunkTransfer.chunk).take m = (ys.take m).take ts.length := by
  revert h m
  refine storeLoop_induction ops blockIds (motive := fun ys _ b r _ => ∀ {ts}, r = .ok ts → ∀ m,
    ((ys.take m).map (·.2.2)).Nodup → (∀ y ∈ ys.take m, b.contains y.2.2 = false) →
    (ts.map ChunkTransfer.chunk).take m = (ys.take m).take ts.length) ?_ ?_ ?_ ?_ ?_ ys index b
  · intro index b ts h m _ _
    cases h
    simp
  · intro start stop key rest index b r b' hk _ ts _ m _ hfresh
    cases m with
    | zero => simp
    | succ m =>
        have := hfresh (start, stop, key) (by simp)
        rw [hk] at this
        cases this
  · intro start stop key rest index b _ _ ts h m _ _
    cases h
    simp
  · intro start stop key rest index b i _ _ _ ts h
    cases h
  · intro start stop key rest index b i blockId r b' hk ho hb ih ts h m hnodup hfresh
    obtain ⟨ts', hr, rfl⟩ := map_eq_ok.1 h
    cases m with
    | zero => simp
    | succ m =>
        rw [List.take_succ_cons, List.map_cons, List.nodup_cons] at hnodup
        rw [List.map_cons, List.take_succ_cons, List.take_succ_cons, List.length_cons,
          List.take_succ_cons, ih hr m hnodup.2 ?_]
        · rfl
        · intro y hy
          have hne : y.2.2 ≠ key := fun heq => hnodup.1 (List.mem_map.2 ⟨y, hy, heq⟩)
          have hold := hfresh y (by rw [List.take_succ_cons]; exact List.mem_cons_of_mem _ hy)
          by_contra hc
          rw [Bool.not_eq_false, GeminiFSBackend.contains_allocate ho] at hc
          rcases hc with hc | hc
          · exact hne hc
          · rw [hc] at hold
            cases hold

/-- A block that is paired with its own chunk has the number of that chunk. -/
theorem index_eq_of_aligned {db : ChunkedTokenDatabase} {X : List ℤ} (hnodup : blockIds.Nodup)
    (haligned : Aligned db.chunkSize blockIds ts) {i j : ℕ} {t : ChunkTransfer} (hi : ts[i]? = some t)
    (hblock : blockIds[i]? = some t.blockId) (hj : t.chunk = db.chunkAt X j) : i = j := by
  have hstart : t.start / db.chunkSize = j := by
    have : t.start = j * db.chunkSize := congrArg (·.1) hj
    rw [this, Nat.mul_div_cancel _ db.chunkSize_pos]
  have hj' := haligned t (List.mem_of_getElem? hi)
  rw [hstart] at hj'
  obtain ⟨h₁, h₁'⟩ := List.getElem?_eq_some_iff.1 hblock
  obtain ⟨h₂, h₂'⟩ := List.getElem?_eq_some_iff.1 hj'
  exact (List.Nodup.getElem_inj_iff hnodup).1 (h₁'.trans h₂'.symm)

/-- Transfers of the leading chunks are paired with their own blocks. -/
theorem aligned_of_leading {db : ChunkedTokenDatabase} {X : List ℤ}
    (h : ∀ (i : ℕ) (t : ChunkTransfer), ts[i]? = some t →
      t.chunk = db.chunkAt X i ∧ blockIds[i]? = some t.blockId) :
    Aligned db.chunkSize blockIds ts := by
  intro t ht
  obtain ⟨i, hi⟩ := List.getElem?_of_mem ht
  obtain ⟨hchunk, hblock⟩ := h i t hi
  have hstart : t.start = i * db.chunkSize := congrArg (·.1) hchunk
  rw [hstart, Nat.mul_div_cancel _ db.chunkSize_pos]
  exact hblock

/-- Transfers of chunks from chunk `k` on, in order, that are paired with their own blocks are those of the
leading chunks. -/
theorem leading_of_aligned {db : ChunkedTokenDatabase} {X : List ℤ} {k n : ℕ} (hnodup : blockIds.Nodup)
    (haligned : Aligned db.chunkSize blockIds ts)
    (hsub : (ts.map ChunkTransfer.chunk).Sublist ((List.range' k n).map (db.chunkAt X)))
    (hblocks : ∀ (i : ℕ) (t : ChunkTransfer), ts[i]? = some t → blockIds[i]? = some t.blockId) {i : ℕ}
    {t : ChunkTransfer} (hi : ts[i]? = some t) : t.chunk = db.chunkAt X i ∧ k ≤ i := by
  have hmem := hsub.subset (List.mem_map_of_mem (f := ChunkTransfer.chunk) (List.mem_of_getElem? hi))
  obtain ⟨j, hj, hchunk⟩ := List.mem_map.1 hmem
  have hij := index_eq_of_aligned hnodup haligned hi (hblocks i t hi) hchunk.symm
  subst hij
  exact ⟨hchunk.symm, (List.mem_range'_1.1 hj).1⟩

variable (ops) (e : InfiniKVEngine)

/-- **The condition for storing**: no file is opened at all, or nothing is masked and the leading
chunks, as many as files are opened, have no file and are pairwise distinct. -/
def StoresLeadingChunks (X : List ℤ) (k : ℕ) : Prop :=
  let keys := (List.range' k (e.tokenDatabase.numChunks X - k)).map (e.tokenDatabase.keyAt X)
  let n := e.storageBackend.numStored ops keys
  n = 0 ∨ (k = 0 ∧ (keys.take n).Nodup ∧ ∀ key ∈ keys.take n, e.storageBackend.contains key = false)

/-- **Store pairing.**  Under a mask that skips `k` chunks and with a table that covers the tokens,
`prepare_for_store` returns; each chunk it stores is paired with its own block if the condition holds,
and only then, unless a block occurs twice in the table. -/
theorem storeTransfers_aligned_iff (X : List ℤ) (k t : ℕ) (blockIds : List ℕ) (offset : Option ℕ)
    (hlen : cdiv X.length e.tokenDatabase.chunkSize ≤ blockIds.length) :
    let mask := List.replicate (k * e.tokenDatabase.chunkSize) false ++ List.replicate t true
    ∃ ts, (e.storeTransfers ops X (some mask) blockIds).1 = .ok ts ∧
      (e.prepareForStore ops X (some mask) blockIds offset).1 =
        .ok (ts.map (·.gpuFile), ts.map (·.blockId)) ∧
      (e.StoresLeadingChunks ops X k → Aligned e.tokenDatabase.chunkSize blockIds ts) ∧
      (blockIds.Nodup → Aligned e.tokenDatabase.chunkSize blockIds ts →
        e.StoresLeadingChunks ops X k) := by
  intro mask
  have hmask : ChunkedTokenDatabase.numFalses (some mask) = k * e.tokenDatabase.chunkSize := by
    simp [ChunkedTokenDatabase.numFalses, mask, List.count_replicate]
  have hproc := e.tokenDatabase.processTokens_tensor X hmask
  have hnum := e.tokenDatabase.numChunks_le_cdiv X
  have hst : e.storeTransfers ops X (some mask) blockIds = storeLoop ops blockIds none
      ((List.range' k (e.tokenDatabase.numChunks X - k)).map (e.tokenDatabase.chunkAt X)) 0
      e.storageBackend := by
    rw [storeTransfers, hproc]
  have hroom : 0 + ((List.range' k (e.tokenDatabase.numChunks X - k)).map
      (e.tokenDatabase.chunkAt X)).length ≤ blockIds.length := by
    rw [List.length_map, List.length_range']
    omega
  obtain ⟨ts, hts⟩ := storeLoop_ok (b := e.storageBackend) hroom
  obtain ⟨hsub, hcount, hkeys, hfresh, hblocks⟩ := storeLoop_spec hts
  have hkeys_eq : ((List.range' k (e.tokenDatabase.numChunks X - k)).map
      (e.tokenDatabase.chunkAt X)).map (·.2.2) =
        (List.range' k (e.tokenDatabase.numChunks X - k)).map (e.tokenDatabase.keyAt X) := by
    rw [List.map_map]
    rfl
  rw [hkeys_eq] at hcount
  simp only [Nat.zero_add] at hblocks
  refine ⟨ts, by rw [hst, hts], ?_, ?_, ?_⟩
  · show Except.map _ (e.storeTransfers ops X (some mask) blockIds).1 = _
    rw [hst, hts]
    rfl
  · rintro (hzero | ⟨rfl, hnodup, habsent⟩)
    · rw [hzero, List.length_eq_zero_iff] at hcount
      subst hcount
      intro t ht
      cases ht
    · refine aligned_of_leading (X := X) fun i t hi => ⟨?_, hblocks i t hi⟩
      rw [← hcount, ← hkeys_eq, ← List.map_take] at hnodup habsent
      have htake := storeLoop_take hts ts.length hnodup fun y hy =>
        habsent _ (List.mem_map_of_mem hy)
      rw [List.take_take, min_self, List.take_of_length_le (by simp)] at htake
      have hget := congrArg (·[i]?) htake
      have hlt : i < ts.length := (List.getElem?_eq_some_iff.1 hi).1
      simp only [List.getElem?_map, hi, Option.map_some, List.getElem?_take, if_pos hlt] at hget
      obtain ⟨j, hj, hchunk⟩ := Option.map_eq_some_iff.1 hget.symm
      obtain ⟨hj', hj''⟩ := List.getElem?_eq_some_iff.1 hj
      rw [List.getElem_range', Nat.zero_add, Nat.one_mul] at hj''
      rw [← hchunk, hj'']
  · intro hnodup haligned
    rcases Nat.eq_zero_or_pos ts.length with hzero | hpos
    · exact Or.inl (by rw [← hcount, hzero])
    · have hleading : ∀ (i : ℕ) (t : ChunkTransfer), ts[i]? = some t →
          t.chunk = e.tokenDatabase.chunkAt X i ∧ k ≤ i :=
        fun i t hi => leading_of_aligned hnodup haligned hsub hblocks hi
      have hk : k = 0 := by
        obtain ⟨t, ht⟩ : ∃ t, ts[0]? = some t := ⟨_, List.getElem?_eq_getElem hpos⟩
        exact Nat.le_zero.1 (hleading 0 t ht).2
      subst hk
      have hle : ts.length ≤ e.tokenDatabase.numChunks X := by simpa using hsub.length_le
      have heq : ((List.range' 0 (e.tokenDatabase.numChunks X - 0)).map
          (e.tokenDatabase.keyAt X)).take ts.length = ts.map (·.key) := by
        refine List.ext_getElem (by simp; omega) ?_
        intro i h₁ h₂
        have hi : i < ts.length := by simpa using h₂
        have hkey := congrArg (·.2.2) (hleading i ts[i] (List.getElem?_eq_getElem hi)).1
        simp only [List.getElem_take, List.getElem_map, List.getElem_range', Nat.zero_add, Nat.one_mul]
        exact hkey.symm
      refine Or.inr ⟨rfl, ?_, ?_⟩
      · rw [← hcount, heq]
        exact hkeys
      · rw [← hcount, heq]
        intro key hkey
        obtain ⟨t, ht, rfl⟩ := List.mem_map.1 hkey
        exact hfresh t ht

/-- An engine without any files, with chunks of two tokens. -/
def emptyEngine : InfiniKVEngine :=
  init ⟨2, false, Nat.two_pos⟩ ⟨['m'], 1, 0, ['v'], (1, 2, 2, 1, 1), false⟩

/-- The theorem at an engine without any files and a mask that skips nothing. -/
theorem storeTransfers_aligned_iff_cold :
    let ops : GeminiFSOps := ⟨fun n => some n, fun _ => true⟩
    ∃ ts, (emptyEngine.storeTransfers ops [1, 2, 3, 4] (some [true, true, true, true]) [5, 6]).1 = .ok ts ∧
      Aligned 2 [5, 6] ts ∧ ts.length = 2 := by
  intro ops
  obtain ⟨ts, hts, -, hif, -⟩ := emptyEngine.storeTransfers_aligned_iff ops [1, 2, 3, 4] 0 4 [5, 6] none
    (by decide)
  have hcond : emptyEngine.StoresLeadingChunks ops [1, 2, 3, 4] 0 :=
    Or.inr ⟨rfl, by decide +kernel, by decide +kernel⟩
  have hlen : (emptyEngine.storeTransfers ops [1, 2, 3, 4] (some [true, true, true, true]) [5, 6]).1.map
      List.length = .ok 2 := by decide +kernel
  refine ⟨ts, hts, hif hcond, ?_⟩
  have hts' : (emptyEngine.storeTransfers ops [1, 2, 3, 4] (some [true, true, true, true]) [5, 6]).1 =
      .ok ts := hts
  rw [hts'] at hlen
  exact Except.ok.inj hlen

/-- **A misaligned store**: when the first of two chunks is masked, the second is paired with the block
of the first. -/
theorem misaligned_store :
    let ops : GeminiFSOps := ⟨fun n => some n, fun _ => true⟩
    ∃ ts, (emptyEngine.storeTransfers ops [1, 2, 3, 4]
        (some (List.replicate (1 * emptyEngine.tokenDatabase.chunkSize) false ++ List.replicate 2 true))
        [5, 6]).1 = .ok ts ∧
      ¬ Aligned emptyEngine.tokenDatabase.chunkSize [5, 6] ts := by
  intro ops
  have hrun : (emptyEngine.storeTransfers ops [1, 2, 3, 4]
      (some (List.replicate (1 * emptyEngine.tokenDatabase.chunkSize) false ++ List.replicate 2 true))
      [5, 6]).1.map (fun ts => decide (Aligned emptyEngine.tokenDatabase.chunkSize [5, 6] ts)) =
        .ok false := by decide +kernel
  obtain ⟨ts, hts, hdec⟩ := map_eq_ok.1 hrun
  exact ⟨ts, hts, of_decide_eq_false hdec⟩

end InfiniKVEngine

/-! ### Loading -/

namespace Worker

open InfiniKVEngine

variable (w : Worker)

/-- **The condition for loading**: nothing is cached locally, or the first chunk that is not cached
locally cannot be loaded — the mask is refused, there is no such chunk, or it has no file. -/
def LoadsFromStart (request : ReqMeta) (loadSpec : LoadSpec) : Prop :=
  let db := w.infinikvEngine.tokenDatabase
  let X := request.tokenIds.take loadSpec.externalCachedTokens
  let k := loadSpec.vllmCachedTokens / db.chunkSize
  loadSpec.vllmCachedTokens = 0 ∨ ¬ db.chunkSize ∣ loadSpec.vllmCachedTokens ∨ db.numChunks X ≤ k ∨
    w.infinikvEngine.storageBackend.contains (db.keyAt X k) = false

/-- The number of tokens that the load mask skips. -/
theorem numFalses_loadMask (request : ReqMeta) {loadSpec : LoadSpec}
    (hv : w.infinikvChunkSize ∣ loadSpec.vllmCachedTokens) :
    ChunkedTokenDatabase.numFalses (some ((skipMask (w.maskedTokenCount loadSpec)
      request.tokenIds.length).take loadSpec.externalCachedTokens)) =
        min loadSpec.vllmCachedTokens
          (request.tokenIds.take loadSpec.externalCachedTokens).length := by
  rw [take_skipMask, numFalses_skipMask, maskedTokenCount, Nat.div_mul_cancel hv, List.length_take]

/-- If anything is loaded, it starts with the first chunk that is not cached locally. -/
theorem requestTransfers_of_pos {request : ReqMeta} {loadSpec : LoadSpec}
    (hv : w.infinikvChunkSize ∣ loadSpec.vllmCachedTokens) {ts : List ChunkTransfer}
    (h : w.requestTransfers request loadSpec = .ok ts) (hpos : 0 < ts.length) :
    ∃ k, loadSpec.vllmCachedTokens = k * w.infinikvEngine.tokenDatabase.chunkSize ∧
      0 < w.infinikvEngine.storedRun (request.tokenIds.take loadSpec.externalCachedTokens) k ∧
      ∀ (i : ℕ) (t : ChunkTransfer), ts[i]? = some t →
        t.chunk = w.infinikvEngine.tokenDatabase.chunkAt
          (request.tokenIds.take loadSpec.externalCachedTokens) (k + i) ∧
        request.blockIds[i]? = some t.blockId := by
  have hfalses := w.numFalses_loadMask request hv
  obtain ⟨k, hk⟩ := w.infinikvEngine.exists_numFalses_of_loadTransfers h
  have hrun : 0 < w.infinikvEngine.storedRun
      (request.tokenIds.take loadSpec.externalCachedTokens) k := by
    have hlen := w.infinikvEngine.length_of_loadTransfers hk h
    omega
  have hle := w.infinikvEngine.storedRun_le (request.tokenIds.take loadSpec.externalCachedTokens) k
  have hlt := w.infinikvEngine.tokenDatabase.lt_length_of_lt_numChunks
    (X := request.tokenIds.take loadSpec.externalCachedTokens) (j := k) (by omega)
  refine ⟨k, ?_, hrun, ?_⟩
  · -- the mask does not end the sequence, so it is as long as the local hit
    rw [hfalses] at hk
    omega
  · intro i t hi
    obtain ⟨h₁, h₂, -⟩ := w.infinikvEngine.loadTransfers_getElem hk h hi
    exact ⟨h₁, h₂⟩

/-- What the loop of `_prepare_for_load` takes from the engine are the files and blocks of the
transfers. -/
theorem loadRequest_eq {request : ReqMeta} {loadSpec : LoadSpec}
    (hload : request.loadSpec = some loadSpec) :
    (w.loadRequest request).map (·.2) = (w.requestTransfers request loadSpec).map fun ts =>
      (ts.map (·.gpuFile), ts.map (·.blockId)) := by
  simp only [loadRequest, hload, requestTransfers, InfiniKVEngine.prepareForLoad]
  cases w.infinikvEngine.loadTransfers (request.tokenIds.take loadSpec.externalCachedTokens)
      (some ((skipMask (w.maskedTokenCount loadSpec) request.tokenIds.length).take
        loadSpec.externalCachedTokens)) request.blockIds with
  | error err => rfl
  | ok ts => rfl

/-- **Load pairing.**  Every pair that `_prepare_for_load` obtains for a request is a chunk with its own
block, and no block that holds locally cached tokens is loaded into, if the condition holds; and only
then, when the table covers the tokens to load and no block occurs twice in it. -/
theorem requestTransfers_aligned_iff (request : ReqMeta) (loadSpec : LoadSpec)
    (hload : request.loadSpec = some loadSpec)
    (hv : w.infinikvChunkSize ∣ loadSpec.vllmCachedTokens) :
    let Right := ∀ ts, w.requestTransfers request loadSpec = .ok ts →
      Aligned w.infinikvEngine.tokenDatabase.chunkSize request.blockIds ts ∧
        ∀ t ∈ ts, t.blockId ∉
          request.blockIds.take (loadSpec.vllmCachedTokens / w.infinikvChunkSize)
    ((w.loadRequest request).map (·.2) = (w.requestTransfers request loadSpec).map fun ts =>
      (ts.map (·.gpuFile), ts.map (·.blockId))) ∧
    (w.LoadsFromStart request loadSpec → Right) ∧
    (request.blockIds.Nodup →
      cdiv loadSpec.externalCachedTokens w.infinikvEngine.tokenDatabase.chunkSize ≤
        request.blockIds.length →
      Right → w.LoadsFromStart request loadSpec) := by
  intro Right
  have hc := w.infinikvEngine.tokenDatabase.chunkSize_pos
  refine ⟨w.loadRequest_eq hload, ?_, ?_⟩
  · intro hcond ts hts
    rcases Nat.eq_zero_or_pos ts.length with hzero | hpos
    · rw [List.length_eq_zero_iff.1 hzero]
      constructor
      · intro t ht
        cases ht
      · intro t ht
        cases ht
    · obtain ⟨k, hk, hrun, hget⟩ := w.requestTransfers_of_pos hv hts hpos
      have hdiv : loadSpec.vllmCachedTokens / w.infinikvEngine.tokenDatabase.chunkSize = k := by
        rw [hk, Nat.mul_div_cancel _ hc]
      have hle := w.infinikvEngine.storedRun_le
        (request.tokenIds.take loadSpec.externalCachedTokens) k
      rcases hcond with hzero | hdvd | hnum | habsent
      · -- nothing is cached locally: the run starts with the first chunk and the first block
        have hk0 : k = 0 := by
          rw [hzero] at hk
          exact (Nat.mul_eq_zero.1 hk.symm).resolve_right (Nat.ne_of_gt hc)
        subst hk0
        simp only [Nat.zero_add] at hget
        refine ⟨aligned_of_leading hget, ?_⟩
        intro t _
        rw [hzero, Nat.zero_div]
        exact List.not_mem_nil
      · exact absurd ⟨k, by rw [hk, Nat.mul_comm]⟩ hdvd
      · rw [hdiv] at hnum
        omega
      · rw [hdiv] at habsent
        have hstored := w.infinikvEngine.contains_of_lt_storedRun hrun
        rw [Nat.add_zero, habsent] at hstored
        cases hstored
  · intro hnodup htable hright
    by_contra hcond
    simp only [LoadsFromStart, not_or, not_le, Bool.not_eq_false, not_not] at hcond
    obtain ⟨hne, ⟨k, hk⟩, hnum, hstored⟩ := hcond
    rw [Nat.mul_comm] at hk
    have hdiv : loadSpec.vllmCachedTokens / w.infinikvEngine.tokenDatabase.chunkSize = k := by
      rw [hk, Nat.mul_div_cancel _ hc]
    rw [hdiv] at hnum hstored
    have hlt := w.infinikvEngine.tokenDatabase.lt_length_of_lt_numChunks hnum
    have hfalses := w.numFalses_loadMask request hv
    rw [min_eq_left (by omega), hk] at hfalses
    have hle := w.infinikvEngine.storedRun_le (request.tokenIds.take loadSpec.externalCachedTokens) k
    have hcover := w.infinikvEngine.tokenDatabase.numChunks_le_cdiv
      (request.tokenIds.take loadSpec.externalCachedTokens)
    have hmono : cdiv (request.tokenIds.take loadSpec.externalCachedTokens).length
        w.infinikvEngine.tokenDatabase.chunkSize ≤
        cdiv loadSpec.externalCachedTokens w.infinikvEngine.tokenDatabase.chunkSize := by
      refine Nat.div_le_div_right ?_
      rw [List.length_take]
      omega
    have hroom : w.infinikvEngine.storedRun (request.tokenIds.take loadSpec.externalCachedTokens) k ≤
        request.blockIds.length := by omega
    obtain ⟨ts, hts⟩ := w.infinikvEngine.loadTransfers_ok hfalses hroom
    -- the first pair is a later chunk with the first block
    have hrun : 0 < w.infinikvEngine.storedRun
        (request.tokenIds.take loadSpec.externalCachedTokens) k := by
      by_contra hzero
      have hnot := w.infinikvEngine.not_contains_storedRun
        (X := request.tokenIds.take loadSpec.externalCachedTokens) (k := k) (by omega)
      rw [show w.infinikvEngine.storedRun (request.tokenIds.take loadSpec.externalCachedTokens) k = 0
        by omega, Nat.add_zero, hstored] at hnot
      cases hnot
    have hlen := w.infinikvEngine.length_of_loadTransfers hfalses hts
    obtain ⟨t, ht⟩ : ∃ t, ts[0]? = some t := ⟨_, List.getElem?_eq_getElem (by omega)⟩
    obtain ⟨hchunk, hblock, -⟩ := w.infinikvEngine.loadTransfers_getElem hfalses hts ht
    have hindex := index_eq_of_aligned hnodup (hright ts hts).1 ht hblock hchunk
    rw [hk] at hne
    exact hne (by rw [show k = 0 by omega, Nat.zero_mul])

/-- A worker in whose store both chunks of `1, 2, 3, 4` have files. -/
def storedWorker : Worker where
  infinikvEngine := (emptyEngine.prepareForStore ⟨fun n => some n, fun _ => true⟩ [1, 2, 3, 4] none
    [5, 6] none).2
  taskQueue := .init 1
  numLayers := 1
  infinikvChunkSize := 2
  kvcaches := [16]
  currentLayer := 0

/-- A request for the chunks of `1, 2, 3, 4` after the first `v` tokens. -/
def loadRequestAfter (v : ℕ) : ReqMeta :=
  ⟨"r", [1, 2, 3, 4], [], [7, 8], none, some ⟨v, 4, true, none, none⟩⟩

/-- The theorem at a request without locally cached tokens. -/
theorem requestTransfers_aligned_iff_from_start :
    ∃ ts, storedWorker.requestTransfers (loadRequestAfter 0) ⟨0, 4, true, none, none⟩ = .ok ts ∧
      Aligned 2 [7, 8] ts ∧ ts.length = 2 := by
  have hrun : (storedWorker.requestTransfers (loadRequestAfter 0) ⟨0, 4, true, none, none⟩).map
      List.length = .ok 2 := by decide +kernel
  obtain ⟨ts, hts, hlen⟩ := map_eq_ok.1 hrun
  obtain ⟨-, hif, -⟩ := storedWorker.requestTransfers_aligned_iff (loadRequestAfter 0)
    ⟨0, 4, true, none, none⟩ rfl (by decide)
  exact ⟨ts, hts, (hif (Or.inl rfl) ts hts).1, hlen⟩

/-- **A misaligned load**: when the first of two chunks is cached locally, the second is loaded into
the block of the first. -/
theorem misaligned_load :
    ∃ ts, storedWorker.requestTransfers (loadRequestAfter 2) ⟨2, 4, true, none, none⟩ = .ok ts ∧
      ¬ Aligned storedWorker.infinikvEngine.tokenDatabase.chunkSize (loadRequestAfter 2).blockIds ts ∧
      ∃ t ∈ ts, t.blockId ∈ (loadRequestAfter 2).blockIds.take 1 := by
  have hrun : (storedWorker.requestTransfers (loadRequestAfter 2) ⟨2, 4, true, none, none⟩).map
      (fun ts => (decide (Aligned storedWorker.infinikvEngine.tokenDatabase.chunkSize
        (loadRequestAfter 2).blockIds ts), decide (∃ t ∈ ts, t.blockId ∈ [7]))) =
      .ok (false, true) := by decide +kernel
  obtain ⟨ts, hts, hdec⟩ := map_eq_ok.1 hrun
  simp only [Prod.mk.injEq, decide_eq_false_iff_not, decide_eq_true_iff] at hdec
  exact ⟨ts, hts, hdec.1, hdec.2⟩

end Worker

end InfiniKV
