/-
**What saving adds to the store.**

`prepare_for_store` runs through the chunks of a token sequence in order, from the first one that the
mask does not skip, and stops when no file can be opened.  So the chunks of the sequence that are in
the index afterwards have no gap, if those that the mask skips were in the index before; and if no
attempt to open a file has failed, all of them are there.

Main definitions:

* `InfiniKV.GeminiFSOps.StaysFull` — once no file can be opened, none can be opened ever after;
* `InfiniKV.InfiniKVEngine.EndsChain` — a key is that of a chunk whose predecessors are in the index;
* `InfiniKV.Worker.Grows` — what saving a list of requests adds.

Main results:

* `InfiniKV.InfiniKVEngine.storeTransfers_chains` — what `prepare_for_store` adds;
* `InfiniKV.Worker.saveRequests_grows` — **every key that the saves of a step add ends a chain**.
-/

import InfiniKV.KeySoundness
import InfiniKV.Worker

set_option relaxedAutoImplicit false
set_option autoImplicit false

namespace InfiniKV

/-- Once no file can be opened, none can be opened ever after. -/
def GeminiFSOps.StaysFull (fs : GeminiFSOps) : Prop :=
  ∀ m n, m ≤ n → fs.gpuOpenFile m = none → fs.gpuOpenFile n = none

namespace GeminiFSBackend

variable {fs : GeminiFSOps} {b b' : GeminiFSBackend}

/-- No attempt to open a file has failed so far. -/
def Alive (fs : GeminiFSOps) (b : GeminiFSBackend) : Prop :=
  ∀ n < b.openCalls, fs.gpuOpenFile n ≠ none

theorem Alive.of_le (h : b'.Alive fs) (hle : b.openCalls ≤ b'.openCalls) : b.Alive fs :=
  fun n hn => h n (Nat.lt_of_lt_of_le hn hle)

theorem gpuOpenFile_of_not_alive (hfull : fs.StaysFull) (h : ¬ b.Alive fs) :
    fs.gpuOpenFile b.openCalls = none := by
  simp only [Alive, not_forall, not_not] at h
  obtain ⟨n, hn, hnone⟩ := h
  exact hfull n b.openCalls (Nat.le_of_lt hn) hnone

theorem openCalls_allocate (key : CacheEngineKey) :
    (b.allocate fs key).2.openCalls = b.openCalls + 1 := by
  cases ho : fs.gpuOpenFile b.openCalls with
  | none => rw [allocate_of_none ho]
  | some i => rw [allocate_of_some ho]

end GeminiFSBackend

namespace InfiniKVEngine

open GeminiFSBackend

variable {fs : GeminiFSOps} {e : InfiniKVEngine}

/-! ### The loop of `prepare_for_store` -/

/-- What the loop has done when it returns: the index was extended by the first `n` chunks, and if these
are not all, an attempt to open a file has failed. -/
structure StoredPrefix (fs : GeminiFSOps) (ys : List (ℕ × ℕ × CacheEngineKey)) (n : ℕ)
    (b b' : GeminiFSBackend) : Prop where
  extend : b.Extends b'
  openCalls : b.openCalls ≤ b'.openCalls
  stored : ∀ y ∈ ys.take n, b'.hasChunk y = true
  only : ∀ key, b'.contains key = true → b.contains key = true ∨ ∃ y ∈ ys.take n, y.2.2 = key
  all : b'.Alive fs → ys.length ≤ n

theorem storeLoop_prefix {blockIds : List ℕ} {ys : List (ℕ × ℕ × CacheEngineKey)} {index : ℕ}
    {b : GeminiFSBackend} {ts : List ChunkTransfer}
    (h : (storeLoop fs blockIds none ys index b).1 = .ok ts) :
    ∃ n, StoredPrefix fs ys n b (storeLoop fs blockIds none ys index b).2 := by
  revert h
  refine storeLoop_induction fs blockIds (motive := fun ys _ b r b' => ∀ {ts}, r = .ok ts →
    ∃ n, StoredPrefix fs ys n b b') ?_ ?_ ?_ ?_ ?_ ys index b
  · intro index b ts _
    exact ⟨0, .refl b, le_rfl, by simp, fun key hk => Or.inl hk, fun _ => le_rfl⟩
  · intro start stop key rest index b r b' hk ih ts h
    obtain ⟨n, hn⟩ := ih h
    refine ⟨n + 1, hn.extend, hn.openCalls, ?_, ?_, fun ha => Nat.succ_le_succ (hn.all ha)⟩
    · intro y hy
      rcases List.mem_cons.1 hy with rfl | hy
      · exact hn.extend.contains hk
      · exact hn.stored y hy
    · intro key' hk'
      rcases hn.only key' hk' with hold | ⟨y, hy, rfl⟩
      · exact Or.inl hold
      · exact Or.inr ⟨y, List.mem_cons_of_mem _ hy, rfl⟩
  · intro start stop key rest index b hk ho ts _
    refine ⟨0, extends_allocate hk, ?_, by simp, ?_, ?_⟩
    · rw [openCalls_allocate]
      exact Nat.le_succ _
    · intro key' hk'
      rw [allocate_of_none ho] at hk'
      exact Or.inl hk'
    · intro ha
      refine absurd ho (ha b.openCalls ?_)
      rw [openCalls_allocate]
      exact Nat.lt_succ_self _
  · intro _ _ _ _ _ _ _ _ _ _ ts h
    cases h
  · intro start stop key rest index b i blockId r b' hk ho _ ih ts h
    obtain ⟨ts', hr, rfl⟩ := map_eq_ok.1 h
    obtain ⟨n, hn⟩ := ih hr
    have hle := hn.openCalls
    rw [openCalls_allocate] at hle
    refine ⟨n + 1, (extends_allocate hk).trans hn.extend, by omega, ?_, ?_,
      fun ha => Nat.succ_le_succ (hn.all ha)⟩
    · intro y hy
      rcases List.mem_cons.1 hy with rfl | hy
      · exact hn.extend.contains ((contains_allocate ho key).2 (Or.inl rfl))
      · exact hn.stored y hy
    · intro key' hk'
      rcases hn.only key' hk' with hold | ⟨y, hy, rfl⟩
      · rcases (contains_allocate ho key').1 hold with rfl | hold
        · exact Or.inr ⟨_, List.mem_cons_self .., rfl⟩
        · exact Or.inl hold
      · exact Or.inr ⟨y, List.mem_cons_of_mem _ hy, rfl⟩

/-- When no file can be opened, the loop adds nothing. -/
theorem storeLoop_contains_of_none {blockIds : List ℕ} {ys : List (ℕ × ℕ × CacheEngineKey)}
    {index : ℕ} {b : GeminiFSBackend} (h : fs.gpuOpenFile b.openCalls = none) {key : CacheEngineKey}
    (hk : (storeLoop fs blockIds none ys index b).2.contains key = true) : b.contains key = true := by
  revert h hk
  refine storeLoop_induction fs blockIds (motive := fun _ _ b _ b' =>
    fs.gpuOpenFile b.openCalls = none → b'.contains key = true → b.contains key = true)
    ?_ ?_ ?_ ?_ ?_ ys index b
  · intro _ _ _ hk
    exact hk
  · intro _ _ _ _ _ _ _ _ _ ih
    exact ih
  · intro _ _ _ _ _ b _ ho _ hk
    rw [allocate_of_none ho] at hk
    exact hk
  · intro _ _ _ _ _ b i _ ho _ hnone
    rw [ho] at hnone
    cases hnone
  · intro _ _ _ _ _ b i _ _ _ _ ho _ _ hnone
    rw [ho] at hnone
    cases hnone

/-! ### What `prepare_for_store` adds -/

/-- The key is that of a chunk of `X`, and the chunks before it are in the index as well. -/
def EndsChain (e : InfiniKVEngine) (X : List ℤ) (key : CacheEngineKey) : Prop :=
  ∃ i < e.tokenDatabase.numChunks X, key = e.tokenDatabase.keyAt X i ∧
    ∀ j ≤ i, e.storageBackend.contains (e.tokenDatabase.keyAt X j) = true

/-- When `prepare_for_store` returns, the false entries of the mask fill `k` chunks, and it has run
through the chunks from chunk `k` on. -/
theorem storeTransfers_prefix {X : List ℤ} {mask : Option (List Bool)} {blockIds : List ℕ}
    {ts : List ChunkTransfer} {b : GeminiFSBackend}
    (h : e.storeTransfers fs X mask blockIds = (.ok ts, b)) :
    ∃ k n, ChunkedTokenDatabase.numFalses mask = k * e.tokenDatabase.chunkSize ∧
      StoredPrefix fs ((List.range' k (e.tokenDatabase.numChunks X - k)).map
        (e.tokenDatabase.chunkAt X)) n e.storageBackend b := by
  by_cases hmod : ChunkedTokenDatabase.numFalses mask % e.tokenDatabase.chunkSize ≠ 0
  · rw [storeTransfers, e.tokenDatabase.processTokens_of_mod_ne_zero _ hmod] at h
    cases h
  · have hk := (Nat.div_mul_cancel (Nat.dvd_of_mod_eq_zero (not_not.1 hmod))).symm
    rw [storeTransfers, e.tokenDatabase.processTokens_tensor X hk] at h
    obtain ⟨n, hn⟩ := storeLoop_prefix (congrArg Prod.fst h)
    simp only at hn h
    rw [h] at hn
    exact ⟨_, n, hk, hn⟩

/-- **What `prepare_for_store` adds**, if the chunks that the mask skips are in the index: keys that end
chains, and all keys if no attempt to open a file fails. -/
theorem storeTransfers_chains {X : List ℤ} {mask : Option (List Bool)}
    (hmask : ∀ j < e.tokenDatabase.numChunks X,
      (j + 1) * e.tokenDatabase.chunkSize ≤ ChunkedTokenDatabase.numFalses mask →
        e.storageBackend.contains (e.tokenDatabase.keyAt X j) = true)
    {blockIds : List ℕ} {ts : List ChunkTransfer} {b : GeminiFSBackend}
    (h : e.storeTransfers fs X mask blockIds = (.ok ts, b)) :
    (∀ key, b.contains key = true → e.storageBackend.contains key = true ∨
      EndsChain { e with storageBackend := b } X key) ∧
    (b.Alive fs → ∀ j < e.tokenDatabase.numChunks X,
      b.contains (e.tokenDatabase.keyAt X j) = true) := by
  obtain ⟨k, n, hk, hn⟩ := storeTransfers_prefix h
  have htake : ((List.range' k (e.tokenDatabase.numChunks X - k)).map
      (e.tokenDatabase.chunkAt X)).take n =
      (List.range' k (min n (e.tokenDatabase.numChunks X - k))).map (e.tokenDatabase.chunkAt X) := by
    rw [← List.map_take]
    rcases Nat.le_total n (e.tokenDatabase.numChunks X - k) with hle | hle
    · rw [List.take_range'_of_length_ge hle, min_eq_left hle]
    · rw [List.take_range'_of_length_le hle, min_eq_right hle]
  -- the chunks below `k + n` are in the index
  have hstored : ∀ j < e.tokenDatabase.numChunks X, j < k + n →
      b.contains (e.tokenDatabase.keyAt X j) = true := by
    intro j hj hjn
    rcases Nat.lt_or_ge j k with hjk | hjk
    · refine hn.extend.contains (hmask j hj ?_)
      rw [hk]
      exact Nat.mul_le_mul_right _ hjk
    · refine hn.stored (e.tokenDatabase.chunkAt X j) ?_
      rw [htake]
      exact List.mem_map_of_mem (List.mem_range'_1.2 ⟨hjk, by omega⟩)
  constructor
  · intro key hkey
    rcases hn.only key hkey with hold | ⟨y, hy, rfl⟩
    · exact Or.inl hold
    · rw [htake] at hy
      obtain ⟨i, hi, rfl⟩ := List.mem_map.1 hy
      rw [List.mem_range'_1] at hi
      have hi' : i < e.tokenDatabase.numChunks X := by omega
      refine Or.inr ⟨i, hi', rfl, fun j hj => hstored j ?_ ?_⟩
      · omega
      · omega
  · intro ha j hj
    have hall := hn.all ha
    rw [List.length_map, List.length_range'] at hall
    exact hstored j hj (by omega)

end InfiniKVEngine

/-! ### What the saves of a step add -/

namespace Worker

open InfiniKVEngine GeminiFSBackend

variable {fs : GeminiFSOps} {c : ℕ} {e e' e'' : InfiniKVEngine} {r r' : ReqMeta} {tasks : List IOSpec}

/-- The chunks that the store mask of a request skips are in the index. -/
def Masked (e : InfiniKVEngine) (r : ReqMeta) : Prop :=
  ∀ s, r.saveSpec = some s → s.canSave = true → ∀ j < e.tokenDatabase.numChunks r.tokenIds,
    (j + 1) * e.tokenDatabase.chunkSize ≤ s.skipLeadingTokens →
      e.storageBackend.contains (e.tokenDatabase.keyAt r.tokenIds j) = true

/-- **What saving a list of requests adds to the store.** -/
structure Grows (fs : GeminiFSOps) (e e' : InfiniKVEngine) (rs : List ReqMeta) : Prop where
  extend : e.storageBackend.Extends e'.storageBackend
  tokenDatabase : e'.tokenDatabase = e.tokenDatabase
  alive : e'.storageBackend.Alive fs → e.storageBackend.Alive fs
  chains : ∀ key, e'.storageBackend.contains key = true → e.storageBackend.contains key = true ∨
    ∃ r ∈ rs, Saves r ∧ e'.EndsChain r.tokenIds key
  saved : e'.storageBackend.Alive fs → ∀ r ∈ rs, Saves r →
    ∀ j < e'.tokenDatabase.numChunks r.tokenIds,
      e'.storageBackend.contains (e'.tokenDatabase.keyAt r.tokenIds j) = true

theorem Grows.refl_of_not_saves (fs : GeminiFSOps) (e : InfiniKVEngine) {rs : List ReqMeta}
    (h : ∀ r ∈ rs, ¬ Saves r) : Grows fs e e rs :=
  ⟨.refl _, rfl, fun h => h, fun _ hk => Or.inl hk, fun _ r hr hs => absurd hs (h r hr)⟩

theorem Grows.endsChain {rs : List ReqMeta} {X : List ℤ} {key : CacheEngineKey}
    (hgrows : Grows fs e e' rs) (h : e.EndsChain X key) : e'.EndsChain X key := by
  obtain ⟨i, hi, rfl, hbefore⟩ := h
  rw [← hgrows.tokenDatabase] at hi hbefore ⊢
  exact ⟨i, hi, rfl, fun j hj => hgrows.extend.contains (hbefore j hj)⟩

theorem Grows.masked {rs : List ReqMeta} (hgrows : Grows fs e e' rs) (h : Masked e r) :
    Masked e' r := by
  intro s hs hcan j hj hle
  rw [hgrows.tokenDatabase] at hj hle ⊢
  exact hgrows.extend.contains (h s hs hcan j hj hle)

theorem Grows.append {rs rs' : List ReqMeta} (h : Grows fs e e' rs) (h' : Grows fs e' e'' rs') :
    Grows fs e e'' (rs ++ rs') := by
  refine ⟨h.extend.trans h'.extend, h'.tokenDatabase.trans h.tokenDatabase,
    fun ha => h.alive (h'.alive ha), ?_, ?_⟩
  · intro key hk
    rcases h'.chains key hk with hk | ⟨r, hr, hsaves, hends⟩
    · rcases h.chains key hk with hk | ⟨r, hr, hsaves, hends⟩
      · exact Or.inl hk
      · exact Or.inr ⟨r, List.mem_append_left _ hr, hsaves, h'.endsChain hends⟩
    · exact Or.inr ⟨r, List.mem_append_right _ hr, hsaves, hends⟩
  · intro ha r hr hsaves j hj
    rcases List.mem_append.1 hr with hr | hr
    · rw [h'.tokenDatabase] at hj ⊢
      exact h'.extend.contains (h.saved (h'.alive ha) r hr hsaves j hj)
    · exact h'.saved ha r hr hsaves j hj

/-- What saving a request adds. -/
theorem saveRequest_grows (hfull : fs.StaysFull)
    (hmask : e.storageBackend.Alive fs → Masked e r)
    (h : saveRequest fs e.tokenDatabase.chunkSize e r = .ok (r', tasks, e')) : Grows fs e e' [r] := by
  rcases saveRequest_cases h with ⟨hno, -, -, rfl⟩ | ⟨s, ts, b, hsaves, hs, hst, rfl, -, -⟩
  · exact .refl_of_not_saves fs e' fun x hx => List.mem_singleton.1 hx ▸ hno
  · obtain ⟨k, n, -, hpre⟩ := storeTransfers_prefix hst
    have halive : b.Alive fs → e.storageBackend.Alive fs := fun ha => ha.of_le hpre.openCalls
    by_cases ha : e.storageBackend.Alive fs
    · -- what the store mask skips is in the index
      have hskipped : ∀ j < e.tokenDatabase.numChunks r.tokenIds, (j + 1) * e.tokenDatabase.chunkSize ≤
          ChunkedTokenDatabase.numFalses (some (storeMask e.tokenDatabase.chunkSize r s)) →
          e.storageBackend.contains (e.tokenDatabase.keyAt r.tokenIds j) = true := by
        intro j hj hle
        obtain ⟨s', hs', hcan, -⟩ := id hsaves
        cases hs.symm.trans hs'
        rw [storeMask, numFalses_skipMask] at hle
        refine hmask ha s hs hcan j hj (hle.trans ((Nat.min_le_left _ _).trans ?_))
        exact Nat.div_mul_le_self _ _
      obtain ⟨hchains, hall⟩ := storeTransfers_chains hskipped hst
      refine ⟨hpre.extend, rfl, halive, ?_, ?_⟩
      · intro key hk
        rcases hchains key hk with hold | hends
        · exact Or.inl hold
        · exact Or.inr ⟨r, List.mem_singleton.2 rfl, hsaves, hends⟩
      · intro ha' x hx _
        cases List.mem_singleton.1 hx
        exact hall ha'
    · -- no file can be opened any more
      have hnone := gpuOpenFile_of_not_alive hfull ha
      refine ⟨hpre.extend, rfl, halive, ?_, fun ha' => absurd (halive ha') ha⟩
      intro key hk
      rcases e.storeTransfers_cases fs r.tokenIds
        (some (storeMask e.tokenDatabase.chunkSize r s)) r.blockIds with ⟨err, heq⟩ | ⟨ys, heq⟩
      · rw [heq] at hst
        cases hst
      · have hb : (storeLoop fs r.blockIds none ys 0 e.storageBackend).2 = b := by
          rw [← heq, hst]
        exact Or.inl (storeLoop_contains_of_none hnone (hb ▸ hk))

/-- **Every key that the saves of a step add ends a chain**, and unless a file could not be opened, the
requests of the step are stored as a whole. -/
theorem saveRequests_grows (hfull : fs.StaysFull) {rs rs' : List ReqMeta}
    (hmask : e.storageBackend.Alive fs → ∀ r ∈ rs, Masked e r)
    (h : saveRequests fs e.tokenDatabase.chunkSize e rs = .ok (rs', tasks, e')) :
    Grows fs e e' rs := by
  induction rs generalizing e rs' tasks with
  | nil =>
      cases h
      exact .refl_of_not_saves fs _ (by simp)
  | cons r rs ih =>
      rw [saveRequests] at h
      obtain ⟨⟨r₁, tasks₁, e₁⟩, h₁, h⟩ := bind_eq_ok.1 h
      obtain ⟨⟨rs₂, tasks₂, e₂⟩, h₂, h⟩ := bind_eq_ok.1 h
      cases h
      have hfirst := saveRequest_grows hfull (fun ha => hmask ha r (List.mem_cons_self ..)) h₁
      rw [← hfirst.tokenDatabase] at h₂
      refine hfirst.append (ih ?_ h₂)
      intro ha x hx
      exact hfirst.masked (hmask (hfirst.alive ha) x (List.mem_cons_of_mem _ hx))

end Worker

end InfiniKV
