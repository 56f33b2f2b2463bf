/-
**What holds of the KV cache blocks in every run.**

A manager is made, and the scheduler calls it: any number of requests wait, run, are preempted and come back,
load blocks from the connector, and end, in any order.

Main definitions:

* `InfiniKV.KVCache.AllowedRun` — the calls are those of the scheduler.

Main results:

* `InfiniKV.KVCache.manager_never_raises` — **no call fails**;
* `InfiniKV.KVCache.blocks_accounted` — **no block is lost, and none is given away twice**;
* `InfiniKV.KVCache.uncached_blocks_exclusive` — **a block that is not cached yet has one holder**;
* `InfiniKV.KVCache.common_prefix_shared` — **the common prefix is the same blocks in all tables**;
* `InfiniKV.KVCache.longest_cached_prefix` — **what is found is the longest prefix that is cached**;
* `InfiniKV.KVCache.allocate_succeeds_alone` — **a request that has the pool for itself gets its slots**.
-/

import InfiniKV.KVCacheRuns

set_option relaxedAutoImplicit false
set_option autoImplicit false

namespace InfiniKV
namespace KVCache

variable {η : Type} [DecidableEq η]

/-- The calls are those of the scheduler, each in the state in which it comes. -/
def AllowedRun (depth : η → ℕ) (m : KVCacheManager η) (calls : List (ManagerCall η)) : Prop :=
  Along (afterCall KVCacheManager.call) (fun m c => ManagerCall.Allowed depth m c) m calls

/-- The manager after some calls. -/
def KVCacheManager.after (m : KVCacheManager η) (calls : List (ManagerCall η)) : KVCacheManager η :=
  calls.foldl (afterCall KVCacheManager.call) m

/-! ### An example -/

/-- A manager of six blocks of two tokens each. -/
def sixBlocks : KVCacheManager ℕ :=
  (KVCacheManager.new 6 8 2 true false : Except PyError (KVCacheManager ℕ)).toOption.get (by decide +kernel)

/-- The place of a hash of the example. -/
def lastDigit (hash : ℕ) : ℕ := hash % 10

/-- Two requests, the first block of which is the same. -/
def requestA (numTokens numComputedTokens : ℕ) : Request ℕ := ⟨"a", numTokens, numComputedTokens, [10, 11, 12], false⟩

def requestB (numTokens numComputedTokens : ℕ) : Request ℕ := ⟨"b", numTokens, numComputedTokens, [10, 21], false⟩

/-- They run together, for a while; one of them loads blocks, and both end. -/
def twoRequests : List (ManagerCall ℕ) :=
  [.schedule (requestA 5 0) 5 0 0 false, .schedule (requestB 5 0) 0 0 2 true, .cache (requestB 5 4) 4,
    .allocate (requestB 5 4) 1 0, .commonPrefix "a", .allocate (requestA 6 5) 1 0, .free "a", .evict [1], .reset,
    .free "b", .reset]

theorem allowedRun_twoRequests : AllowedRun lastDigit sixBlocks twoRequests := by
  unfold AllowedRun
  decide +kernel

theorem allowedRun_take (n : ℕ) : AllowedRun lastDigit sixBlocks (twoRequests.take n) :=
  along_take allowedRun_twoRequests n

theorem new_sixBlocks :
    (KVCacheManager.new 6 8 2 true false : Except PyError (KVCacheManager ℕ)) = .ok sixBlocks := rfl

section
variable {depth : η → ℕ} {m : KVCacheManager η} {free : List KVCacheBlock} {numBlocks maxModelLen blockSize : ℕ}
  {enableCaching useEagle : Bool} {calls : List (ManagerCall η)}

omit [DecidableEq η] in
/-- A new manager. -/
theorem managerInv_new (hsize : 0 < blockSize)
    (hnew : KVCacheManager.new numBlocks maxModelLen blockSize enableCaching useEagle = .ok m) :
    (∃ free, ManagerInv depth m free) ∧
      m.config = (maxModelLen, enableCaching, useEagle, blockSize, numBlocks) := by
  have hblocks : 0 < numBlocks := by
    rcases Nat.eq_zero_or_pos numBlocks with rfl | hpos
    · cases hnew
    · exact hpos
  obtain ⟨pool, free, hpool, hinv, hzero, hnone, -, hnum, hcaching⟩ :=
    @poolInv_new η numBlocks enableCaching hblocks
  rw [KVCacheManager.new, hpool] at hnew
  obtain rfl := Except.ok.inj hnew
  have hempty : ∀ id, ((PyDict.empty : PyDict String (List KVCacheBlock)).get? id).getD [] = [] := fun _ => rfl
  refine ⟨⟨free, hinv, hsize, hcaching, fun id b hb => ?_, fun b => hzero b, fun {id id' i j b} hi => ?_,
    fun {b key} hb => ?_, fun {b key id i} hb => ?_, fun _ => Nat.le_refl _, fun {id i b} hi => ?_⟩, ?_⟩
  · cases hb
  · cases hi
  · rw [show pool.blockHash b = none from hnone b] at hb
    cases hb
  · rw [show pool.blockHash b = none from hnone b] at hb
    cases hb
  · cases hi
  · simp only [KVCacheManager.config, hnum]

/-- **The invariant holds after every run.** -/
theorem managerInv_after (hsize : 0 < blockSize)
    (hnew : KVCacheManager.new numBlocks maxModelLen blockSize enableCaching useEagle = .ok m)
    (hallowed : AllowedRun depth m calls) :
    (∃ free, ManagerInv depth (m.after calls) free) ∧
      (m.after calls).config = (maxModelLen, enableCaching, useEagle, blockSize, numBlocks) := by
  refine foldl_inv (fun m : KVCacheManager η => (∃ free, ManagerInv depth m free) ∧
    m.config = (maxModelLen, enableCaching, useEagle, blockSize, numBlocks)) ?_ calls (managerInv_new hsize hnew)
    hallowed
  rintro m c ⟨⟨free, hinv⟩, hconfig⟩ hc
  obtain ⟨answer, m', free', hcall, hinv', hconfig'⟩ := hinv.call hc
  rw [afterCall, hcall]
  exact ⟨⟨free', hinv'⟩, hconfig'.trans hconfig⟩

/-- **No call fails**, whatever the requests do. -/
theorem manager_never_raises (hsize : 0 < blockSize)
    (hnew : KVCacheManager.new numBlocks maxModelLen blockSize enableCaching useEagle = .ok m)
    (hallowed : AllowedRun depth m calls) :
    ∀ answer ∈ answers KVCacheManager.call m calls, ∃ a, answer = .ok a := by
  refine answers_ok (fun m => ∃ free, ManagerInv depth m free) ?_ (managerInv_new hsize hnew).1 calls hallowed
  rintro m c ⟨free, hinv⟩ hc
  obtain ⟨answer, m', free', hcall, hinv', -⟩ := hinv.call hc
  exact ⟨answer, m', hcall, free', hinv'⟩

/-- Such a run. -/
theorem manager_never_raises_twoRequests :
    AllowedRun lastDigit sixBlocks twoRequests ∧
      ∀ answer ∈ answers KVCacheManager.call sixBlocks twoRequests, ∃ a, answer = .ok a :=
  ⟨allowedRun_twoRequests, manager_never_raises (by decide) new_sixBlocks allowedRun_twoRequests⟩

/-! ### Blocks are neither lost nor given away twice -/

omit [DecidableEq η] in
/-- A block is counted once for each request that has it. -/
theorem ManagerInv.refCnt_eq_countP (h : ManagerInv depth m free) (b : KVCacheBlock) :
    m.blockPool.refCnt b = m.reqToBlocks.entries.countP fun e => b ∈ e.2 := by
  rw [h.refCnt]
  congr 1
  refine PyDict.total_eq_countP (p := fun table => decide (b ∈ table)) fun id table hget => ?_
  have htable : m.getBlocks id = table := by rw [KVCacheManager.getBlocks, hget, Option.getD_some]
  rw [← htable, h.count]
  simp

omit [DecidableEq η] in
/-- The blocks in the queue are those that no request has, but for the null block. -/
theorem ManagerInv.length_free (h : ManagerInv depth m free) :
    free.length = m.blockPool.blocks.countP fun b =>
      b ≠ m.blockPool.nullBlock ∧ ∀ e ∈ m.reqToBlocks.entries, b ∉ e.2 := by
  have hnodup : m.blockPool.blocks.Nodup := List.nodup_range.map fun i j hij => by cases hij; rfl
  rw [List.countP_eq_length_filter]
  refine ((List.perm_ext_iff_of_nodup h.pool.queue.nodup_list (hnodup.filter _)).2 fun b => ?_).length_eq
  rw [h.pool.mem_free, List.mem_filter, h.refCnt_eq_countP]
  simp only [List.not_mem_nil, not_false_eq_true, and_true, decide_eq_true_eq]
  have hzero : ((m.reqToBlocks.entries.countP fun e => decide (b ∈ e.2) : ℕ) : ℤ) = 0 ↔
      ∀ e ∈ m.reqToBlocks.entries, b ∉ e.2 := by
    rw [Int.natCast_eq_zero, List.countP_eq_zero]
    simp
  rw [hzero]

omit [DecidableEq η] in
/-- Where one request has all the blocks that are not free, its blocks, the free ones and the null block are all
there are. -/
theorem ManagerInv.length_free_alone (h : ManagerInv depth m free) (id : String)
    (halone : ∀ id', id' ≠ id → m.getBlocks id' = []) :
    free.length + (m.getBlocks id).length + 1 = m.blockPool.numGpuBlocks := by
  have hnodup : m.blockPool.blocks.Nodup := List.nodup_range.map fun i j hij => by cases hij; rfl
  have hnull : m.blockPool.nullBlock ∉ free ++ m.getBlocks id := by
    rw [List.mem_append, not_or]
    exact ⟨fun hmem => ((h.pool.mem_free _).1 hmem).2.1 rfl, fun hmem => (h.held id _ hmem).2 rfl⟩
  have hdisj : (free ++ m.getBlocks id).Nodup :=
    List.nodup_append.2 ⟨h.pool.queue.nodup_list, h.nodup_getBlocks id, fun b hb c hc heq =>
      h.notMem_of_free hb (heq ▸ hc)⟩
  have hmem : ∀ b, b ∈ m.blockPool.nullBlock :: (free ++ m.getBlocks id) ↔ b ∈ m.blockPool.blocks := by
    intro b
    rw [List.mem_cons, List.mem_append]
    constructor
    · rintro (rfl | hb | hb)
      · exact h.pool.null
      · exact ((h.pool.mem_free b).1 hb).1
      · exact (h.held id b hb).1
    · intro hb
      by_cases hbnull : b = m.blockPool.nullBlock
      · exact Or.inl hbnull
      by_cases hzero : m.blockPool.refCnt b = 0
      · exact Or.inr (Or.inl ((h.pool.mem_free b).2 ⟨hb, hbnull, hzero, List.not_mem_nil⟩))
      · -- somebody has the block
        rw [h.refCnt_eq_countP, Int.natCast_eq_zero, List.countP_eq_zero, not_forall] at hzero
        obtain ⟨⟨id', table⟩, hentry⟩ := hzero
        simp only [not_forall, not_not, decide_eq_true_eq] at hentry
        obtain ⟨hentry, hbtable⟩ := hentry
        have htable : m.getBlocks id' = table := by
          rw [KVCacheManager.getBlocks, PyDict.mem_entries.1 hentry, Option.getD_some]
        rw [← htable] at hbtable
        by_cases hid : id' = id
        · exact Or.inr (Or.inr (hid ▸ hbtable))
        · rw [halone id' hid] at hbtable
          cases hbtable
  have hlength := ((List.perm_ext_iff_of_nodup (List.nodup_cons.2 ⟨hnull, hdisj⟩) hnodup).2 hmem).length_eq
  rw [List.length_cons, List.length_append, BlockPool.blocks, List.length_map, List.length_range] at hlength
  exact hlength

/-- **No block is lost, and none is given away twice**: after every run, a block is counted once for each request
that has it, those that no request has are free, and once no request has any, all are free but the null block,
so that the prefix cache may be reset. -/
theorem blocks_accounted (hsize : 0 < blockSize)
    (hnew : KVCacheManager.new numBlocks maxModelLen blockSize enableCaching useEagle = .ok m)
    (hallowed : AllowedRun depth m calls) :
    (∀ b, (m.after calls).blockPool.refCnt b = (m.after calls).reqToBlocks.entries.countP fun e => b ∈ e.2) ∧
      (m.after calls).blockPool.getNumFreeBlocks = (m.after calls).blockPool.blocks.countP (fun b =>
        b ≠ (m.after calls).blockPool.nullBlock ∧ ∀ e ∈ (m.after calls).reqToBlocks.entries, b ∉ e.2) ∧
      ((∀ id, (m.after calls).getBlocks id = []) →
        (m.after calls).blockPool.getNumFreeBlocks = numBlocks - 1 ∧ (m.after calls).resetPrefixCache.1 = true) := by
  obtain ⟨⟨free, h⟩, hconfig⟩ := managerInv_after hsize hnew hallowed
  refine ⟨h.refCnt_eq_countP, by rw [h.pool.numFree_eq, h.length_free], fun hempty => ?_⟩
  have hnum : (m.after calls).blockPool.numGpuBlocks = numBlocks := by
    simp only [KVCacheManager.config, Prod.mk.injEq] at hconfig
    exact hconfig.2.2.2.2
  have hfree := h.length_free_alone "" fun id' _ => hempty id'
  rw [hempty, List.length_nil, Nat.add_zero, hnum] at hfree
  have hcount : (m.after calls).blockPool.getNumFreeBlocks = numBlocks - 1 := by
    rw [h.pool.numFree_eq]
    omega
  refine ⟨hcount, ?_⟩
  rw [KVCacheManager.resetPrefixCache, BlockPool.resetPrefixCache, hcount, hnum,
    if_neg (by rw [Int.sub_sub_self]; exact fun hne => hne rfl)]

/-- Such a run, at the end of which all blocks are free. -/
theorem blocks_accounted_twoRequests :
    (∀ id, (sixBlocks.after twoRequests).getBlocks id = []) ∧
      (sixBlocks.after twoRequests).blockPool.getNumFreeBlocks = 5 := by
  have hempty : ∀ id, (sixBlocks.after twoRequests).getBlocks id = [] := by
    have hentries : (sixBlocks.after twoRequests).reqToBlocks.entries = [] := by decide +kernel
    intro id
    rw [KVCacheManager.getBlocks, PyDict.get?, hentries]
    rfl
  exact ⟨hempty, ((blocks_accounted (by decide) new_sixBlocks allowedRun_twoRequests).2.2 hempty).1⟩

/-! ### Blocks that are shared, and blocks that are not -/

/-- **A block that is not counted as cached yet is in one table, at one place, and is found under no hash**, so that
nobody else reads it while its tokens are computed. -/
theorem uncached_blocks_exclusive (hsize : 0 < blockSize)
    (hnew : KVCacheManager.new numBlocks maxModelLen blockSize enableCaching useEagle = .ok m)
    (hallowed : AllowedRun depth m calls) {id : String} {i : ℕ} {b : KVCacheBlock}
    (hi : ((m.after calls).getBlocks id)[i]? = some b) (hle : (m.after calls).cachedOf id ≤ i) :
    (∀ id' j, ((m.after calls).getBlocks id')[j]? = some b → id' = id ∧ j = i) ∧
      ∀ key, b ∉ (m.after calls).blockPool.cachedBlockHashToBlock.blocksAt key := by
  obtain ⟨⟨free, h⟩, -⟩ := managerInv_after hsize hnew hallowed
  obtain ⟨hone, hnone⟩ := h.own hi hle
  refine ⟨fun id' j hj => ⟨?_, h.position hj hi⟩, fun key hmem => ?_⟩
  · exact h.unique hone (List.mem_of_getElem? hj) (List.mem_of_getElem? hi)
  · rw [← h.pool.hash, hnone] at hmem
    cases hmem

/-- After four calls of the run, the last block of the second request. -/
theorem uncached_blocks_exclusive_twoRequests :
    ((sixBlocks.after (twoRequests.take 4)).getBlocks "b")[2]? = some (.block 5) ∧
      ∀ id' j, ((sixBlocks.after (twoRequests.take 4)).getBlocks id')[j]? = some (.block 5) →
        id' = "b" ∧ j = 2 :=
  ⟨by decide +kernel, (uncached_blocks_exclusive (by decide) new_sixBlocks (allowedRun_take 4)
    (by decide +kernel) (by decide +kernel)).1⟩

omit [DecidableEq η] in
/-- The blocks that are counted as often as there are tables are the same in all of them. -/
theorem ManagerInv.commonPrefix (h : ManagerInv depth m free) (id : String) {k : ℕ}
    (hk : k = ((m.getBlocks id).takeWhile fun b =>
      m.blockPool.refCnt b = m.reqToBlocks.entries.length).length) :
    (∀ id' table, m.reqToBlocks.get? id' = some table → table.take k = (m.getBlocks id).take k) ∧
      (k < (m.getBlocks id).length →
        ∃ id' table, m.reqToBlocks.get? id' = some table ∧ table[k]? ≠ (m.getBlocks id)[k]?) := by
  have htables : ∀ {id' table}, m.reqToBlocks.get? id' = some table → m.getBlocks id' = table := fun hget => by
    rw [KVCacheManager.getBlocks, hget, Option.getD_some]
  -- a block is counted as often as there are tables exactly when it is in all of them
  have hcount : ∀ b, m.blockPool.refCnt b = m.reqToBlocks.entries.length ↔
      ∀ e ∈ m.reqToBlocks.entries, b ∈ e.2 := by
    intro b
    rw [h.refCnt_eq_countP, Int.natCast_inj, List.countP_eq_length]
    simp only [decide_eq_true_eq]
  have hsplit : (m.getBlocks id).takeWhile (fun b => m.blockPool.refCnt b = m.reqToBlocks.entries.length) ++
      (m.getBlocks id).dropWhile (fun b => m.blockPool.refCnt b = m.reqToBlocks.entries.length) =
      m.getBlocks id := List.takeWhile_append_dropWhile
  have hall := List.all_takeWhile (p := fun b => decide (m.blockPool.refCnt b = m.reqToBlocks.entries.length))
    (l := m.getBlocks id)
  have hnot := List.head?_dropWhile_not
    (fun b => decide (m.blockPool.refCnt b = m.reqToBlocks.entries.length)) (m.getBlocks id)
  generalize hshared : (m.getBlocks id).takeWhile
    (fun b => m.blockPool.refCnt b = m.reqToBlocks.entries.length) = shared at hsplit hall
  generalize (m.getBlocks id).dropWhile
    (fun b => m.blockPool.refCnt b = m.reqToBlocks.entries.length) = rest at hsplit hnot
  rw [hshared] at hk
  subst hk
  have hinit : shared <+: m.getBlocks id := ⟨rest, hsplit⟩
  refine ⟨fun id' table hget => ?_, fun hlt => ?_⟩
  · have hshares : shared <+: table := by
      rw [List.prefix_iff_getElem?]
      intro i hi
      have hone := hcount shared[i] |>.1 (by simpa using List.all_eq_true.1 hall _ (List.getElem_mem hi))
      obtain ⟨j, hj⟩ := List.mem_iff_getElem?.1 (hone (id', table) (PyDict.mem_entries.2 hget))
      have hij : i = j := h.position (getElem?_of_isInit hinit (List.getElem?_eq_getElem hi))
        (by rw [htables hget]; exact hj)
      exact (congrArg (table[·]?) hij).trans hj
    rw [← List.prefix_iff_eq_take.1 hshares, ← List.prefix_iff_eq_take.1 hinit]
  · cases rest with
    | nil =>
        rw [List.append_nil] at hsplit
        rw [hsplit] at hlt
        exact absurd hlt (Nat.lt_irrefl _)
    | cons b rest =>
        have hb : (m.getBlocks id)[shared.length]? = some b := by
          rw [← hsplit, List.getElem?_append_right (Nat.le_refl _), Nat.sub_self]
          rfl
        change decide (m.blockPool.refCnt b = m.reqToBlocks.entries.length) = false at hnot
        rw [decide_eq_false_iff_not, hcount, not_forall] at hnot
        obtain ⟨⟨id', table⟩, hentry⟩ := hnot
        rw [not_forall] at hentry
        obtain ⟨hentry, hbtable⟩ := hentry
        refine ⟨id', table, PyDict.mem_entries.1 hentry, fun heq => hbtable ?_⟩
        exact List.mem_of_getElem? (heq.trans hb)


/-- **The common prefix is the same blocks in all tables**, and there are no more of them: as many blocks as
`get_num_common_prefix_blocks` says are, in this order, the first ones of each request. -/
theorem common_prefix_shared (hsize : 0 < blockSize)
    (hnew : KVCacheManager.new numBlocks maxModelLen blockSize true useEagle = .ok m)
    (hallowed : AllowedRun depth m calls) (id : String) {k : ℕ} {m' : KVCacheManager η}
    (hk : (m.after calls).getNumCommonPrefixBlocks id = (k, m')) :
    (∀ id' table, (m.after calls).reqToBlocks.get? id' = some table →
      table.take k = ((m.after calls).getBlocks id).take k) ∧
    (k < ((m.after calls).getBlocks id).length → ∃ id' table,
      (m.after calls).reqToBlocks.get? id' = some table ∧ table[k]? ≠ ((m.after calls).getBlocks id)[k]?) := by
  obtain ⟨⟨free, h⟩, hconfig⟩ := managerInv_after hsize hnew hallowed
  have hcaching : (m.after calls).enableCaching = true := by
    simp only [KVCacheManager.config, Prod.mk.injEq] at hconfig
    exact hconfig.2.1
  rw [KVCacheManager.getNumCommonPrefixBlocks, if_pos hcaching] at hk
  cases hget : (m.after calls).reqToBlocks.get? id with
  | none =>
      -- a request without a table has no blocks in common with others
      have hnil : (m.after calls).getBlocks id = [] := by rw [KVCacheManager.getBlocks, hget]; rfl
      have hzero : k = 0 := by
        refine (congrArg Prod.fst hk).symm.trans ?_
        simp only [getBlocks_extendBlocks, if_true, hnil, List.append_nil, List.takeWhile_nil, List.length_nil]
      rw [hzero, hnil]
      exact ⟨fun _ _ _ => rfl, fun hlt => absurd hlt (Nat.lt_irrefl 0)⟩
  | some table =>
      have hsame : (m.after calls).extendBlocks id [] = m.after calls := by
        have hset := PyDict.set_eq_self hget
        rw [KVCacheManager.extendBlocks, List.append_nil, KVCacheManager.getBlocks, hget, Option.getD_some, hset]
      simp only [hsame, Prod.mk.injEq] at hk
      exact h.commonPrefix id hk.1.symm

/-- After four calls of the run, the first block of both requests. -/
theorem common_prefix_shared_twoRequests :
    ((sixBlocks.after (twoRequests.take 4)).getNumCommonPrefixBlocks "a").1 = 1 ∧
      ∀ id' table, (sixBlocks.after (twoRequests.take 4)).reqToBlocks.get? id' = some table →
        table.take 1 = ((sixBlocks.after (twoRequests.take 4)).getBlocks "a").take 1 :=
  ⟨by decide +kernel, (common_prefix_shared (by decide) new_sixBlocks (allowedRun_take 4) "a"
    (Prod.ext (show _ = 1 by decide +kernel) rfl)).1⟩

/-! ### What is found, and what is given -/

/-- **What is found is the longest prefix that is cached**: after every run, the first hashes of a request under which
some block is cached, as far as at least one token is left to compute; with speculative decoding the last one
is computed again. -/
theorem longest_cached_prefix (hsize : 0 < blockSize)
    (hnew : KVCacheManager.new numBlocks maxModelLen blockSize true useEagle = .ok m)
    (hallowed : AllowedRun depth m calls) {request : Request η}
    (hr : request.WellFormed depth (m.after calls)) (hread : request.skipReadingPrefixCache = false) :
    ∃ (hits : ℕ) (blocks : List KVCacheBlock),
      (m.after calls).getComputedBlocks request = .ok (blocks, blocks.length * blockSize) ∧
      blocks.length * blockSize < request.numTokens ∧ blocks.length = (if useEagle then hits - 1 else hits) ∧
      (∀ (k : ℕ) (b : KVCacheBlock), blocks[k]? = some b → ∃ hash, request.blockHashes[k]? = some hash ∧
        (m.after calls).blockPool.blockHash b = some (hash, 0)) ∧
      hits ≤ (request.numTokens - 1) / blockSize ∧
      (∀ k < hits, ∃ hash b, request.blockHashes[k]? = some hash ∧
        (m.after calls).blockPool.blockHash b = some (hash, 0)) ∧
      (hits < (request.numTokens - 1) / blockSize → ∀ hash, request.blockHashes[hits]? = some hash →
        ∀ b, (m.after calls).blockPool.blockHash b ≠ some (hash, 0)) := by
  obtain ⟨⟨free, h⟩, hconfig⟩ := managerInv_after hsize hnew hallowed
  simp only [KVCacheManager.config, Prod.mk.injEq] at hconfig
  obtain ⟨-, hcaching, heagle, hblockSize, -⟩ := hconfig
  obtain ⟨hits, blocks, hcomputed, hlt, hlength, hat, hlongest⟩ := h.getComputedBlocks hr
  obtain ⟨hle, hfound, hnext⟩ := hlongest hcaching hread
  rw [hblockSize] at hcomputed hlt hle hnext
  rw [heagle] at hlength
  exact ⟨hits, blocks, hcomputed, hlt, hlength, fun k b hk => hat hk, hle, hfound, hnext⟩

/-- After the first call of the run, the second request finds its first block. -/
theorem longest_cached_prefix_twoRequests :
    ∃ (hits : ℕ) (blocks : List KVCacheBlock),
      (sixBlocks.after (twoRequests.take 1)).getComputedBlocks (requestB 5 0) = .ok (blocks, blocks.length * 2) ∧
        blocks.length = hits := by
  obtain ⟨hits, blocks, hcomputed, -, hlength, -⟩ := longest_cached_prefix (by decide) new_sixBlocks
    (allowedRun_take 1) (show (requestB 5 0).WellFormed lastDigit _ by decide +kernel) rfl
  exact ⟨hits, blocks, hcomputed, hlength⟩

/-- **A request that has the pool for itself gets its slots**, if the pool has enough blocks for it: once all others
have been preempted, it goes on. -/
theorem allocate_succeeds_alone (hsize : 0 < blockSize)
    (hnew : KVCacheManager.new numBlocks maxModelLen blockSize enableCaching useEagle = .ok m)
    (hallowed : AllowedRun depth m calls) {request : Request η} {numNewTokens numLookaheadTokens : ℕ}
    (hc : (ManagerCall.allocate request numNewTokens numLookaheadTokens).Allowed depth (m.after calls))
    (halone : ∀ id, id ≠ request.requestId → (m.after calls).getBlocks id = [])
    (hfits : cdiv (min (min request.numComputedTokens maxModelLen + numNewTokens + numLookaheadTokens)
      maxModelLen) blockSize < numBlocks) :
    ∃ newBlocks m', (m.after calls).call (.allocate request numNewTokens numLookaheadTokens) =
        .ok (.slots (some newBlocks), m') ∧
      m'.getBlocks request.requestId = (m.after calls).getBlocks request.requestId ++ newBlocks ∧
      min (min request.numComputedTokens maxModelLen + numNewTokens + numLookaheadTokens) maxModelLen ≤
        (m'.getBlocks request.requestId).length * blockSize := by
  obtain ⟨⟨free, h⟩, hconfig⟩ := managerInv_after hsize hnew hallowed
  simp only [KVCacheManager.config, Prod.mk.injEq] at hconfig
  obtain ⟨hmax, -, -, hblockSize, hnum⟩ := hconfig
  have hlength := h.length_free_alone request.requestId halone
  rcases h.allocate numLookaheadTokens hc.1 hc.2 with
    ⟨hlt, -⟩ | ⟨newBlocks, m', -, hcall, -, htable, hroom, -⟩
  · rw [hmax, hblockSize] at hlt
    omega
  · rw [hmax, hblockSize] at hroom
    exact ⟨newBlocks, m', hcall, htable, hroom⟩

/-- After the first call of the run, the first request takes a fourth block. -/
theorem allocate_succeeds_alone_twoRequests :
    ∃ newBlocks m', (sixBlocks.after (twoRequests.take 1)).call (.allocate (requestA 6 5) 1 2) =
        .ok (.slots (some newBlocks), m') ∧
      m'.getBlocks "a" = (sixBlocks.after (twoRequests.take 1)).getBlocks "a" ++ newBlocks ∧
      8 ≤ (m'.getBlocks "a").length * 2 :=
  allocate_succeeds_alone (by decide) new_sixBlocks (allowedRun_take 1)
    (show (ManagerCall.allocate (requestA 6 5) 1 2).Allowed lastDigit _ by decide +kernel)
    (fun id hid => by
      have hentries : (sixBlocks.after (twoRequests.take 1)).reqToBlocks.entries.map Prod.fst = ["a"] := by
        decide +kernel
      rw [KVCacheManager.getBlocks]
      cases hget : (sixBlocks.after (twoRequests.take 1)).reqToBlocks.get? id with
      | none => rfl
      | some table =>
          have hmem := List.mem_map_of_mem (f := Prod.fst) (PyDict.mem_entries.2 hget)
          rw [hentries, List.mem_singleton] at hmem
          exact absurd hmem hid) (by decide)

end

end KVCache
end InfiniKV
