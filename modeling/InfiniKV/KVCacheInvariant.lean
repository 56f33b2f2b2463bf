/-
**The invariant of the manager of the KV cache blocks.**

The reference count of a block is the number of the tables it is in.  A block has the same place in all of them,
because what is cached under a hash is only found at the place the hash is of; a block that is in no table
yet is free.  The blocks of a table behind those that are counted as cached have no hash, so that they are
found by nobody else.

Main definitions:

* `InfiniKV.KVCache.KVCacheManager.cachedOf` — how many blocks of a request are counted as cached;
* `InfiniKV.KVCache.ManagerInv` — what holds of the manager.

Main results:

* `InfiniKV.KVCache.ManagerInv.appendNewBlocks`, `InfiniKV.KVCache.ManagerInv.touchComputedBlocks`,
  `InfiniKV.KVCache.ManagerInv.cacheGroupBlocks`, `InfiniKV.KVCache.ManagerInv.freeTable`, … — **each change of a
  table keeps the invariant**.
-/

import InfiniKV.KVCacheManager

set_option relaxedAutoImplicit false
set_option autoImplicit false

namespace InfiniKV
namespace KVCache

variable {η : Type}

/-- How many blocks of a request are counted as cached. -/
def KVCacheManager.cachedOf (m : KVCacheManager η) (requestId : String) : ℕ :=
  (m.numCachedBlock.get? requestId).getD 0

/-- What no call changes. -/
def KVCacheManager.config (m : KVCacheManager η) : ℕ × Bool × Bool × ℕ × ℕ :=
  (m.maxModelLen, m.enableCaching, m.useEagle, m.blockSize, m.blockPool.numGpuBlocks)

/-- **What holds of the manager**, where `depth` is the place of the block a hash is of. -/
structure ManagerInv (depth : η → ℕ) (m : KVCacheManager η) (free : List KVCacheBlock) : Prop where
  pool : PoolInv m.blockPool free []
  blockSize : 0 < m.blockSize
  caching : m.blockPool.enableCaching = m.enableCaching
  held : ∀ id, ∀ b ∈ m.getBlocks id, b ∈ m.blockPool.blocks ∧ b ≠ m.blockPool.nullBlock
  refCnt : ∀ b, m.blockPool.refCnt b = m.reqToBlocks.total fun table => table.count b
  position : ∀ {id id' : String} {i j : ℕ} {b : KVCacheBlock}, (m.getBlocks id)[i]? = some b →
    (m.getBlocks id')[j]? = some b → i = j
  group : ∀ {b : KVCacheBlock} {key : BlockHashWithGroupId η}, m.blockPool.blockHash b = some key → key.2 = 0
  depth : ∀ {b : KVCacheBlock} {key : BlockHashWithGroupId η} {id : String} {i : ℕ},
    m.blockPool.blockHash b = some key → (m.getBlocks id)[i]? = some b → depth key.1 = i
  cachedLe : ∀ id, m.cachedOf id ≤ (m.getBlocks id).length
  own : ∀ {id : String} {i : ℕ} {b : KVCacheBlock}, (m.getBlocks id)[i]? = some b → m.cachedOf id ≤ i →
    m.blockPool.refCnt b = 1 ∧ m.blockPool.blockHash b = none

/-! ### Tables -/

section
variable {m : KVCacheManager η} {requestId id id' : String} {blocks free : List KVCacheBlock} {b : KVCacheBlock}
  {depth : η → ℕ} {i j n : ℕ}

/-- The tables after blocks were appended to one of them. -/
theorem getBlocks_extendBlocks : (m.extendBlocks requestId blocks).getBlocks id =
    if id = requestId then m.getBlocks requestId ++ blocks else m.getBlocks id := by
  rw [KVCacheManager.getBlocks, KVCacheManager.extendBlocks, PyDict.get?_set]
  split
  · rfl
  · rfl

/-- A block of a table that blocks were appended to is an old one or one of these. -/
theorem getElem?_extendBlocks (hi : ((m.extendBlocks requestId blocks).getBlocks id)[i]? = some b) :
    (m.getBlocks id)[i]? = some b ∨
      id = requestId ∧ ∃ k, i = (m.getBlocks requestId).length + k ∧ blocks[k]? = some b := by
  rw [getBlocks_extendBlocks] at hi
  by_cases hid : id = requestId
  · subst hid
    rw [if_pos rfl] at hi
    rcases Nat.lt_or_ge i (m.getBlocks id).length with hlt | hge
    · rw [List.getElem?_append_left hlt] at hi
      exact Or.inl hi
    · rw [List.getElem?_append_right hge] at hi
      exact Or.inr ⟨rfl, _, by omega, hi⟩
  · rw [if_neg hid] at hi
    exact Or.inl hi

/-- What a table holds is counted. -/
theorem total_eq_getBlocks (m : KVCacheManager η) (id : String) (b : KVCacheBlock) :
    m.reqToBlocks.total (fun table => table.count b) =
      (m.getBlocks id).count b + (m.reqToBlocks.erase id).total fun table => table.count b := by
  rw [PyDict.total_eq _ m.reqToBlocks id, KVCacheManager.getBlocks]
  cases m.reqToBlocks.get? id with
  | none => rfl
  | some table => rfl

/-- The blocks that are appended are counted, too. -/
theorem total_extendBlocks : (m.extendBlocks requestId blocks).reqToBlocks.total (fun table => table.count b) =
    m.reqToBlocks.total (fun table => table.count b) + blocks.count b := by
  change PyDict.total _ (m.reqToBlocks.set requestId (m.getBlocks requestId ++ blocks)) = _
  rw [PyDict.total_set, List.count_append, total_eq_getBlocks m requestId]
  omega

theorem ManagerInv.nodup_getBlocks (h : ManagerInv depth m free) (id : String) :
    (m.getBlocks id).Nodup := by
  rw [List.nodup_iff_getElem?_ne_getElem?]
  intro i j hij hj heq
  have hb := List.getElem?_eq_getElem hj
  exact absurd (h.position (heq.trans hb) hb) (by omega)

/-- A table holds a block once. -/
theorem ManagerInv.count (h : ManagerInv depth m free) :
    (m.getBlocks id).count b = if b ∈ m.getBlocks id then 1 else 0 := (h.nodup_getBlocks id).count

/-- A block that is in a table is counted. -/
theorem ManagerInv.refCnt_pos (h : ManagerInv depth m free) (hb : b ∈ m.getBlocks id) :
    1 ≤ m.blockPool.refCnt b := by
  rw [h.refCnt, total_eq_getBlocks m id, h.count, if_pos hb]
  omega

/-- No table holds a block that is free. -/
theorem ManagerInv.notMem_of_free (h : ManagerInv depth m free) (hb : b ∈ free) : b ∉ m.getBlocks id := by
  intro hmem
  have h₁ := ((h.pool.mem_free b).1 hb).2.2.1
  have h₂ := h.refCnt_pos hmem
  omega

/-- A block that is counted once is in one table only. -/
theorem ManagerInv.unique (h : ManagerInv depth m free) (hone : m.blockPool.refCnt b = 1)
    (hb : b ∈ m.getBlocks id) (hb' : b ∈ m.getBlocks id') : id = id' := by
  by_contra hne
  rw [h.refCnt, total_eq_getBlocks m id, h.count, if_pos hb] at hone
  have hrest : (m.reqToBlocks.erase id).total (fun table => table.count b) = 0 := by omega
  rw [PyDict.total_eq _ _ id', PyDict.erase_get?_ne _ (Ne.symm hne)] at hrest
  have hcount : (m.getBlocks id').count b = 0 := by
    rw [KVCacheManager.getBlocks]
    cases hget : m.reqToBlocks.get? id' with
    | none => rfl
    | some table =>
        rw [hget] at hrest
        change table.count b + _ = 0 at hrest
        exact Nat.eq_zero_of_add_eq_zero_right hrest
  rw [h.count, if_pos hb'] at hcount
  omega

end

/-! ### Blocks are appended -/

section
variable {m : KVCacheManager η} {id id' : String} {blocks free free' : List KVCacheBlock}
  {pool : BlockPool η} {depth : η → ℕ}

/-- A block that is behind those that are counted as cached is not appended to a table again, where those that
are appended are free or cached. -/
theorem ManagerInv.notMem_of_own (h : ManagerInv depth m free) {i : ℕ} {b : KVCacheBlock}
    (hfresh : ∀ b ∈ blocks, m.blockPool.refCnt b = 0 ∨ m.blockPool.blockHash b ≠ none)
    (hi : (m.getBlocks id)[i]? = some b) (hle : m.cachedOf id ≤ i) : b ∉ blocks := by
  intro hmem
  obtain ⟨hone, hnone⟩ := h.own hi hle
  rcases hfresh b hmem with hzero | hsome
  · omega
  · exact hsome hnone

/-- **Blocks are appended to a table**: they are counted once more, they stand at the same place in the other
tables, if they are in any, and those that are not counted as cached are in none. -/
theorem ManagerInv.extend (h : ManagerInv depth m free) (blocks : List KVCacheBlock) (cached : PyDict String ℕ)
    (hpool : PoolInv pool free' [])
    (hconfig : (pool.numGpuBlocks, pool.nullBlock, pool.enableCaching) =
      (m.blockPool.numGpuBlocks, m.blockPool.nullBlock, m.blockPool.enableCaching))
    (hblocks : ∀ b ∈ blocks, b ∈ m.blockPool.blocks ∧ b ≠ m.blockPool.nullBlock) (hnodup : blocks.Nodup)
    (hcount : ∀ b, pool.refCnt b = m.blockPool.refCnt b + blocks.count b)
    (hhash : ∀ {b key}, pool.blockHash b = some key → m.blockPool.blockHash b = some key)
    (hfresh : ∀ b ∈ blocks, m.blockPool.refCnt b = 0 ∨ m.blockPool.blockHash b ≠ none)
    (hplace : ∀ {k b id' j}, blocks[k]? = some b → (m.getBlocks id')[j]? = some b →
      (m.getBlocks id).length + k = j)
    (hdepth : ∀ {k b key}, blocks[k]? = some b → pool.blockHash b = some key →
      depth key.1 = (m.getBlocks id).length + k)
    (hother : ∀ id', id' ≠ id → (cached.get? id').getD 0 = m.cachedOf id')
    (hge : m.cachedOf id ≤ (cached.get? id).getD 0)
    (hle : (cached.get? id).getD 0 ≤ (m.getBlocks id).length + blocks.length)
    (hown : ∀ {k b}, blocks[k]? = some b → (cached.get? id).getD 0 ≤ (m.getBlocks id).length + k →
      pool.refCnt b = 1 ∧ pool.blockHash b = none) :
    ManagerInv depth { ({ m with blockPool := pool }).extendBlocks id blocks with numCachedBlock := cached }
      free' := by
  simp only [Prod.mk.injEq] at hconfig
  obtain ⟨hnum, hnull, hcaching⟩ := hconfig
  have hpoolBlocks : pool.blocks = m.blockPool.blocks := by rw [BlockPool.blocks, hnum, BlockPool.blocks]
  -- a block of a table is an old one or one of those that are appended
  have hcases : ∀ {id' i b}, (({ m with blockPool := pool }).extendBlocks id blocks |>.getBlocks id')[i]? = some b →
      (m.getBlocks id')[i]? = some b ∨
        id' = id ∧ ∃ k, i = (m.getBlocks id).length + k ∧ blocks[k]? = some b := getElem?_extendBlocks
  refine ⟨hpool, h.blockSize, hcaching.trans h.caching, fun id' b hb => ?_, fun b => ?_, fun {id₁ id₂ i j b} hi hj => ?_,
    fun {b key} hb => h.group (hhash hb), fun {b key id' i} hb hi => ?_, fun id' => ?_, fun {id' i b} hi hci => ?_⟩
  · obtain ⟨i, hi⟩ := List.mem_iff_getElem?.1 hb
    change b ∈ pool.blocks ∧ b ≠ pool.nullBlock
    rw [hpoolBlocks, hnull]
    rcases hcases hi with hold | ⟨-, k, -, hk⟩
    · exact h.held id' b (List.mem_of_getElem? hold)
    · exact hblocks b (List.mem_of_getElem? hk)
  · change pool.refCnt b = (({ m with blockPool := pool }).extendBlocks id blocks).reqToBlocks.total _
    rw [total_extendBlocks, hcount, h.refCnt]
    rfl
  · rcases hcases hi with hold | ⟨-, k, rfl, hk⟩
    · rcases hcases hj with hold' | ⟨-, k', rfl, hk'⟩
      · exact h.position hold hold'
      · exact (hplace hk' hold).symm
    · rcases hcases hj with hold' | ⟨-, k', rfl, hk'⟩
      · exact hplace hk hold'
      · have hlt : k < blocks.length := (List.getElem?_eq_some_iff.1 hk).1
        rw [(List.getElem?_inj hlt hnodup).1 (hk.trans hk'.symm)]
  · rcases hcases hi with hold | ⟨-, k, rfl, hk⟩
    · exact h.depth (hhash hb) hold
    · exact hdepth hk hb
  · change (cached.get? id').getD 0 ≤ (({ m with blockPool := pool }).extendBlocks id blocks |>.getBlocks id').length
    rw [getBlocks_extendBlocks]
    by_cases hid : id' = id
    · subst hid
      rw [if_pos rfl, List.length_append]
      exact hle
    · rw [if_neg hid, hother id' hid]
      exact h.cachedLe id'
  · change (cached.get? id').getD 0 ≤ i at hci
    rcases hcases hi with hold | ⟨rfl, k, rfl, hk⟩
    · have hci' : m.cachedOf id' ≤ i := by
        by_cases hid : id' = id
        · subst hid
          exact Nat.le_trans hge hci
        · rw [← hother id' hid]
          exact hci
      obtain ⟨hone, hnone⟩ := h.own hold hci'
      constructor
      · change pool.refCnt b = 1
        rw [hcount, hone, List.count_eq_zero_of_not_mem (h.notMem_of_own hfresh hold hci')]
        rfl
      · change pool.blockHash b = none
        cases hb : pool.blockHash b with
        | none => rfl
        | some key =>
            rw [hhash hb] at hnone
            cases hnone
    · exact hown hk hci

/-- The entry of a table may be made at any time. -/
theorem ManagerInv.extendNone (h : ManagerInv depth m free) (id : String) :
    ManagerInv depth (m.extendBlocks id []) free :=
  h.extend [] m.numCachedBlock h.pool rfl nofun List.nodup_nil
    (fun _ => (Int.add_zero _).symm) (fun hb => hb) nofun nofun nofun (fun _ _ => rfl) (Nat.le_refl _)
    (h.cachedLe id) nofun

variable [DecidableEq η]

/-- Blocks that are free are appended to a table. -/
theorem ManagerInv.appendNewBlocks (h : ManagerInv depth m free) (id : String) {n : ℕ} (hn : n ≤ free.length) :
    ∃ m', m.appendNewBlocks id n = .ok (free.take n, m') ∧ ManagerInv depth m' (free.drop n) ∧
      m'.reqToBlocks = m.reqToBlocks.set id (m.getBlocks id ++ free.take n) ∧
      m'.numCachedBlock = m.numCachedBlock ∧ m'.config = m.config := by
  obtain ⟨q, cache, hnew, hpool⟩ := h.pool.getNewBlocks hn
  have hfree : ∀ b ∈ free.take n, b ∈ free := fun b hb => List.mem_of_mem_take hb
  have hnodup : (free.take n).Nodup := h.pool.queue.nodup_list.sublist (List.take_sublist n free)
  refine ⟨_, ?_, h.extend (free.take n) m.numCachedBlock hpool rfl (fun b hb => ?_) hnodup (fun b => ?_)
    (fun {b key} hb => ?_) (fun b hb => ?_) (fun {k b id' j} hk hj => ?_) (fun {k b key} hk hb => ?_)
    (fun _ _ => rfl) (Nat.le_refl _) ?_ (fun {k b} hk _ => ?_), rfl, rfl, rfl⟩
  · rw [KVCacheManager.appendNewBlocks, hnew]
    rfl
  · obtain ⟨h₁, h₂, -, -⟩ := (h.pool.mem_free b).1 (hfree b hb)
    exact ⟨h₁, h₂⟩
  · change (if b ∈ free.take n then (1 : ℤ) else m.blockPool.refCnt b) = _
    rw [hnodup.count]
    by_cases hb : b ∈ free.take n
    · rw [if_pos hb, if_pos hb, ((h.pool.mem_free b).1 (hfree b hb)).2.2.1]
      rfl
    · rw [if_neg hb, if_neg hb]
      exact (Int.add_zero _).symm
  · change (if b ∈ free.take n then none else m.blockPool.blockHash b) = some key at hb
    split at hb
    · cases hb
    · exact hb
  · exact Or.inl ((h.pool.mem_free b).1 (hfree b hb)).2.2.1
  · exact absurd (List.mem_of_getElem? hj) (h.notMem_of_free (hfree b (List.mem_of_getElem? hk)))
  · change (if b ∈ free.take n then none else m.blockPool.blockHash b) = some key at hb
    rw [if_pos (List.mem_of_getElem? hk)] at hb
    cases hb
  · exact Nat.le_trans (h.cachedLe id) (Nat.le_add_right _ _)
  · have hmem := List.mem_of_getElem? hk
    exact ⟨if_pos hmem, if_pos hmem⟩

omit [DecidableEq η] in
/-- Blocks that are cached under hashes of their places are put into a table that has none. -/
theorem ManagerInv.touchComputedBlocks (h : ManagerInv depth m free) (hempty : m.getBlocks id = [])
    (hnone : m.numCachedBlock.get? id = none)
    (hcached : ∀ {k b}, blocks[k]? = some b → ∃ hash, m.blockPool.blockHash b = some (hash, 0) ∧ depth hash = k) :
    ∃ m' free', m.touchComputedBlocks id blocks = .ok m' ∧ ManagerInv depth m' free' ∧
      free'.length + KVCacheManager.getNumEvictableBlocks m.blockPool blocks = free.length ∧
      m'.reqToBlocks = m.reqToBlocks.set id blocks ∧
      m'.numCachedBlock = m.numCachedBlock.set id blocks.length ∧ m'.config = m.config := by
  have hsome : ∀ b ∈ blocks, m.blockPool.blockHash b ≠ none := by
    intro b hb
    obtain ⟨k, hk⟩ := List.mem_iff_getElem?.1 hb
    obtain ⟨hash, hhash, -⟩ := hcached hk
    rw [hhash]
    exact Option.some_ne_none _
  have hin : ∀ b ∈ blocks, b ∈ m.blockPool.blocks ∧ b ≠ m.blockPool.nullBlock := by
    intro b hb
    obtain ⟨h₁, h₂, -⟩ := h.pool.cached b (hsome b hb)
    exact ⟨h₁, h₂⟩
  have hnodup : blocks.Nodup := by
    rw [List.nodup_iff_getElem?_ne_getElem?]
    intro i j hij hj heq
    obtain ⟨hash, hhash, hi⟩ := hcached (heq.trans (List.getElem?_eq_getElem hj))
    obtain ⟨hash', hhash', hj'⟩ := hcached (List.getElem?_eq_getElem hj)
    rw [hhash] at hhash'
    cases hhash'
    omega
  have hlen : (m.getBlocks id).length = 0 := by rw [hempty]; rfl
  have hzero : m.cachedOf id = 0 := by rw [KVCacheManager.cachedOf, hnone]; rfl
  have hset : ∀ k : ℕ, ((m.numCachedBlock.set id k).get? id).getD 0 = k := fun k => by
    rw [PyDict.get?_set_self, Option.getD_some]
  have hother : ∀ id', id' ≠ id → ((m.numCachedBlock.set id blocks.length).get? id').getD 0 = m.cachedOf id' :=
    fun id' hid => by rw [PyDict.get?_set_ne _ _ hid, KVCacheManager.cachedOf]
  cases hcaching : m.enableCaching with
  | false =>
      -- nothing is cached without prefix caching
      have hnil : blocks = [] := by
        cases blocks with
        | nil => rfl
        | cons b blocks =>
            have := (h.pool.cached b (hsome b List.mem_cons_self)).2.2
            rw [h.caching, hcaching] at this
            cases this
      subst hnil
      refine ⟨_, free, ?_, h.extend [] (m.numCachedBlock.set id 0) h.pool rfl nofun
        List.nodup_nil (fun b => (Int.add_zero _).symm) (fun hb => hb) nofun nofun nofun hother ?_ ?_ nofun, rfl, ?_,
        rfl, rfl⟩
      · rw [KVCacheManager.touchComputedBlocks, if_neg (by rw [hcaching]; exact Bool.false_ne_true),
          if_neg (fun hne => hne rfl)]
        rfl
      · rw [hset, hzero]
      · rw [hset]
        exact Nat.zero_le _
      · change m.reqToBlocks.set id (m.getBlocks id ++ []) = _
        rw [hempty]
        rfl
  | true =>
      obtain ⟨q, free', htouch, hpool, hfree⟩ := h.pool.touch hnodup hin
      refine ⟨_, free', ?_, h.extend blocks (m.numCachedBlock.set id blocks.length) hpool rfl hin hnodup
        (fun b => ?_) (fun hb => hb) (fun b hb => Or.inr (hsome b hb)) (fun {k b id' j} hk hj => ?_)
        (fun {k b key} hk hb => ?_) hother ?_ ?_ (fun {k b} hk hle => ?_), ?_, ?_, rfl, rfl⟩
      · rw [KVCacheManager.touchComputedBlocks, if_pos hcaching, htouch]
        rfl
      · change (if b ∈ blocks then m.blockPool.refCnt b + 1 else m.blockPool.refCnt b) = _
        rw [hnodup.count]
        by_cases hb : b ∈ blocks
        · rw [if_pos hb, if_pos hb]
          rfl
        · rw [if_neg hb, if_neg hb]
          exact (Int.add_zero _).symm
      · obtain ⟨hash, hhash, hk'⟩ := hcached hk
        have hj' := h.depth hhash hj
        rw [hlen, ← hj', hk', Nat.zero_add]
      · obtain ⟨hash, hhash, hk'⟩ := hcached hk
        change m.blockPool.blockHash b = some key at hb
        rw [hhash] at hb
        cases hb
        rw [hlen, hk', Nat.zero_add]
      · rw [hset, hzero]
        exact Nat.zero_le _
      · rw [hset]
        exact Nat.le_add_left _ _
      · rw [hset, hlen, Nat.zero_add] at hle
        exact absurd hk (by rw [List.getElem?_eq_none hle]; exact Option.some_ne_none b |>.symm)
      · rw [← hfree]
        congr 1
        rw [KVCacheManager.getNumEvictableBlocks]
        refine List.countP_congr fun b hb => ?_
        have hisNull : m.blockPool.isNull b = false := by simpa [BlockPool.isNull] using (hin b hb).2
        simp [hisNull]
      · change m.reqToBlocks.set id (m.getBlocks id ++ blocks) = _
        rw [hempty]
        rfl

end

/-! ### Blocks are cached -/

section
variable [DecidableEq η] {m : KVCacheManager η} {id : String} {free : List KVCacheBlock} {depth : η → ℕ}

omit [DecidableEq η] in
/-- The place of an entry between two bounds. -/
theorem getElem?_drop_take {l : List KVCacheBlock} {cached full i : ℕ} {b : KVCacheBlock} :
    ((l.take full).drop cached)[i]? = some b ↔ l[cached + i]? = some b ∧ cached + i < full := by
  rw [List.getElem?_drop, List.getElem?_take]
  split
  · simp [*]
  · simp [*]

/-- The blocks of a table from `cached` up to `full` have the hashes of their places, and the others what they had. -/
def CachedUpTo (before after : KVCacheBlock → Option (BlockHashWithGroupId η)) (table : List KVCacheBlock)
    (hashes : List η) (cached full : ℕ) : Prop :=
  ∀ b, (∃ i, table[i]? = some b ∧ cached ≤ i ∧ i < full ∧ after b = hashes[i]?.map (·, 0)) ∨
    after b = before b ∧ ∀ i, table[i]? = some b → cached ≤ i → full ≤ i

/-- **The pool caches the full blocks** of a table. -/
theorem ManagerInv.cacheFullBlocks (h : ManagerInv depth m free) {hashes : List η} {full : ℕ}
    (hcaching : m.enableCaching = true) (hlt : m.cachedOf id < full) (hhashes : full ≤ hashes.length)
    (hfull : full ≤ (m.getBlocks id).length) :
    ∃ cache blockHash, m.blockPool.cacheFullBlocks hashes (m.getBlocks id) (m.cachedOf id) full 0 =
        .ok { m.blockPool with cachedBlockHashToBlock := cache, blockHash := blockHash } ∧
      PoolInv { m.blockPool with cachedBlockHashToBlock := cache, blockHash := blockHash } free [] ∧
      CachedUpTo m.blockPool.blockHash blockHash (m.getBlocks id) hashes (m.cachedOf id) full := by
  have hnodup : (((m.getBlocks id).take full).drop (m.cachedOf id)).Nodup :=
    (h.nodup_getBlocks id).sublist ((List.drop_sublist _ _).trans (List.take_sublist _ _))
  have hlength : (((m.getBlocks id).take full).drop (m.cachedOf id)).length ≤
      (hashes.drop (m.cachedOf id)).length := by
    simp only [List.length_drop, List.length_take]
    omega
  obtain ⟨cache, blockHash, hloop, hpool, hset, hkeep⟩ := h.pool.cacheLoop 0 (hashes.drop (m.cachedOf id)) hnodup
    (h.caching.trans hcaching) hlength fun b hb => by
      obtain ⟨i, hi⟩ := List.mem_iff_getElem?.1 hb
      obtain ⟨hi, -⟩ := getElem?_drop_take.1 hi
      obtain ⟨hblocks, hnull⟩ := h.held _ b (List.mem_of_getElem? hi)
      exact ⟨hblocks, hnull, (h.own hi (Nat.le_add_right _ _)).2⟩
  refine ⟨cache, blockHash, ?_, hpool, fun b => ?_⟩
  · rw [BlockPool.cacheFullBlocks, if_neg (Nat.not_le.2 hlt), if_neg (Nat.not_lt.2 hhashes), hloop]
  · by_cases hb : b ∈ ((m.getBlocks id).take full).drop (m.cachedOf id)
    · obtain ⟨i, hi⟩ := List.mem_iff_getElem?.1 hb
      have hhash := hset i b hi
      rw [List.getElem?_drop] at hhash
      obtain ⟨hi, hlt⟩ := getElem?_drop_take.1 hi
      exact Or.inl ⟨_, hi, Nat.le_add_right _ _, hlt, hhash⟩
    · refine Or.inr ⟨hkeep b hb, fun i hi hle => ?_⟩
      by_contra hcon
      refine hb (List.mem_of_getElem? (i := i - m.cachedOf id) (getElem?_drop_take.2 ?_))
      rw [Nat.add_sub_of_le hle]
      exact ⟨hi, by omega⟩

omit [DecidableEq η] in
/-- Blocks that are cached have the hash of their place, and are in no other table. -/
theorem ManagerInv.cachedUpTo (h : ManagerInv depth m free) {hashes : List η} {full : ℕ}
    {cache : BlockHashToBlockMap η} {blockHash : KVCacheBlock → Option (BlockHashWithGroupId η)}
    (hdepth : ∀ {i hash}, hashes[i]? = some hash → depth hash = i) (hlt : m.cachedOf id < full)
    (hfull : full ≤ (m.getBlocks id).length)
    (hpool : PoolInv { m.blockPool with cachedBlockHashToBlock := cache, blockHash := blockHash } free [])
    (hcached : CachedUpTo m.blockPool.blockHash blockHash (m.getBlocks id) hashes (m.cachedOf id) full) :
    ManagerInv depth { m with
      blockPool := { m.blockPool with cachedBlockHashToBlock := cache, blockHash := blockHash }
      numCachedBlock := m.numCachedBlock.set id full } free := by
  have hcachedOf : ∀ id', ((m.numCachedBlock.set id full).get? id').getD 0 =
      if id' = id then full else m.cachedOf id' := by
    intro id'
    rw [PyDict.get?_set, KVCacheManager.cachedOf]
    split
    · rfl
    · rfl
  refine { h with
    pool := hpool
    group := fun {b key} hb => ?_
    depth := fun {b key id' i} hb hi => ?_
    cachedLe := fun id' => ?_
    own := fun {id' i b} hi hle => ?_ }
  · change blockHash b = some key at hb
    rcases hcached b with ⟨i, -, -, -, hhash⟩ | ⟨hhash, -⟩
    · rw [hhash] at hb
      obtain ⟨hash, -, rfl⟩ := Option.map_eq_some_iff.1 hb
      rfl
    · exact h.group (hhash ▸ hb)
  · change blockHash b = some key at hb
    rcases hcached b with ⟨j, hj, -, -, hhash⟩ | ⟨hhash, -⟩
    · rw [hhash] at hb
      obtain ⟨hash, hhash, rfl⟩ := Option.map_eq_some_iff.1 hb
      exact (hdepth hhash).trans (h.position hj hi)
    · exact h.depth (hhash ▸ hb) hi
  · change ((m.numCachedBlock.set id full).get? id').getD 0 ≤ (m.getBlocks id').length
    rw [hcachedOf]
    split
    · rename_i hid
      rw [hid]
      exact hfull
    · exact h.cachedLe id'
  · change ((m.numCachedBlock.set id full).get? id').getD 0 ≤ i at hle
    change (m.getBlocks id')[i]? = some b at hi
    change m.blockPool.refCnt b = 1 ∧ blockHash b = none
    rw [hcachedOf] at hle
    rcases hcached b with ⟨j, hj, hcj, hjlt, -⟩ | ⟨hhash, hout⟩
    · -- nobody else has the blocks that are cached anew
      exfalso
      obtain rfl : j = i := h.position hj hi
      have hid : id = id' := h.unique (h.own hj hcj).1 (List.mem_of_getElem? hj) (List.mem_of_getElem? hi)
      rw [if_pos hid.symm] at hle
      omega
    · have hci : m.cachedOf id' ≤ i := by
        by_cases hid : id' = id
        · rw [if_pos hid] at hle
          rw [hid]
          omega
        · rwa [if_neg hid] at hle
      rw [hhash]
      exact h.own hi hci

omit [DecidableEq η] in
/-- Nothing is appended to a table that is there. -/
theorem set_getBlocks_nil (hlen : 0 < (m.getBlocks id).length) :
    m.reqToBlocks.set id (m.getBlocks id ++ []) = m.reqToBlocks := by
  rw [List.append_nil]
  rw [KVCacheManager.getBlocks] at hlen ⊢
  cases htable : m.reqToBlocks.get? id with
  | none =>
      rw [htable] at hlen
      cases hlen
  | some table => exact PyDict.set_eq_self htable

/-- **Full blocks of a request are cached under its hashes.** -/
theorem ManagerInv.cacheGroupBlocks (h : ManagerInv depth m free) {request : Request η} {numTokens : ℕ}
    (hcaching : m.enableCaching = true)
    (hhashes : numTokens / m.blockSize ≤ request.blockHashes.length)
    (hdepth : ∀ {i hash}, request.blockHashes[i]? = some hash → depth hash = i)
    (hfull : numTokens / m.blockSize ≤ (m.getBlocks request.requestId).length) :
    ∃ m', m.cacheGroupBlocks request numTokens = .ok m' ∧ ManagerInv depth m' free ∧
      m'.reqToBlocks = m.reqToBlocks ∧ m'.config = m.config := by
  rcases Nat.lt_or_ge (m.cachedOf request.requestId) (numTokens / m.blockSize) with hlt | hge
  · obtain ⟨cache, blockHash, hcall, hpool, hcached⟩ := h.cacheFullBlocks hcaching hlt hhashes hfull
    refine ⟨_, ?_, h.cachedUpTo hdepth hlt hfull hpool hcached, rfl, rfl⟩
    rw [KVCacheManager.cacheGroupBlocks]
    change (if numTokens / m.blockSize ≤ m.cachedOf request.requestId then _ else _) = _
    rw [if_neg (Nat.not_le.2 hlt)]
    change (m.blockPool.cacheFullBlocks request.blockHashes (m.getBlocks request.requestId)
      (m.cachedOf request.requestId) (numTokens / m.blockSize) 0 >>= _) = _
    rw [hcall]
    change Except.ok { m with
      blockPool := { m.blockPool with cachedBlockHashToBlock := cache, blockHash := blockHash }
      reqToBlocks := m.reqToBlocks.set request.requestId (m.getBlocks request.requestId ++ [])
      numCachedBlock := m.numCachedBlock.set request.requestId (numTokens / m.blockSize) } = _
    rw [set_getBlocks_nil (by omega)]
  · exact ⟨m, if_pos hge, h, rfl, rfl⟩

/-! ### Blocks are given back -/

omit [DecidableEq η] in
/-- The table of a request that is freed is gone. -/
theorem getBlocks_erase (m : KVCacheManager η) (pool : BlockPool η) (cached : PyDict String ℕ)
    (requestId id : String) :
    ({ m with
      blockPool := pool
      reqToBlocks := m.reqToBlocks.erase requestId
      numCachedBlock := cached } : KVCacheManager η).getBlocks id =
      if id = requestId then [] else m.getBlocks id := by
  change ((m.reqToBlocks.erase requestId).get? id).getD [] = _
  rw [PyDict.get?_erase]
  split
  · rfl
  · rfl

omit [DecidableEq η] in
/-- **The blocks of a request are given back.** -/
theorem ManagerInv.freeTable (h : ManagerInv depth m free) (requestId : String) :
    ∃ m' free', m.free requestId = .ok m' ∧ ManagerInv depth m' free' ∧
      m'.reqToBlocks = m.reqToBlocks.erase requestId ∧ m'.config = m.config := by
  have hmem : ∀ b, b ∈ (m.getBlocks requestId).reverse ↔ b ∈ m.getBlocks requestId := fun b => List.mem_reverse
  obtain ⟨q, hfree, hpool⟩ := h.pool.freeBlocks (List.nodup_reverse.2 (h.nodup_getBlocks requestId))
    fun b hb => by
      rw [hmem] at hb
      obtain ⟨h₁, h₂⟩ := h.held _ b hb
      exact ⟨h₁, h₂, h.refCnt_pos hb⟩
  -- what is left in a table was there before, and is not of the request
  have hget : ∀ {id : String} {i : ℕ} {b : KVCacheBlock},
      (if id = requestId then [] else m.getBlocks id)[i]? = some b → id ≠ requestId ∧ (m.getBlocks id)[i]? = some b := by
    intro id i b hi
    by_cases hid : id = requestId
    · rw [if_pos hid] at hi
      cases hi
    · rw [if_neg hid] at hi
      exact ⟨hid, hi⟩
  refine ⟨{ m with
    blockPool := { m.blockPool with
      freeBlockQueue := q
      refCnt := fun b => if b ∈ (m.getBlocks requestId).reverse then m.blockPool.refCnt b - 1
        else m.blockPool.refCnt b }
    reqToBlocks := m.reqToBlocks.erase requestId
    numCachedBlock := m.numCachedBlock.erase requestId }, _, ?_,
    { pool := hpool
      blockSize := h.blockSize
      caching := h.caching
      held := fun id b hb => ?_
      refCnt := fun b => ?_
      position := fun {id id' i j b} hi hj => ?_
      group := fun hb => h.group hb
      depth := fun {b key id i} hb hi => ?_
      cachedLe := fun id => ?_
      own := fun {id i b} hi hle => ?_ }, rfl, rfl⟩
  · rw [KVCacheManager.free, hfree]
    rfl
  · rw [getBlocks_erase] at hb
    obtain ⟨i, hi⟩ := List.mem_iff_getElem?.1 hb
    exact h.held id b (List.mem_of_getElem? (hget hi).2)
  · change (if b ∈ (m.getBlocks requestId).reverse then m.blockPool.refCnt b - 1 else m.blockPool.refCnt b) =
      ((m.reqToBlocks.erase requestId).total fun table => table.count b : ℕ)
    have htotal := h.refCnt b
    rw [total_eq_getBlocks m requestId, h.count] at htotal
    by_cases hb : b ∈ m.getBlocks requestId
    · rw [if_pos hb] at htotal
      rw [if_pos ((hmem b).2 hb)]
      omega
    · rw [if_neg hb] at htotal
      rw [if_neg fun hb' => hb ((hmem b).1 hb')]
      omega
  · rw [getBlocks_erase] at hi hj
    exact h.position (hget hi).2 (hget hj).2
  · rw [getBlocks_erase] at hi
    exact h.depth hb (hget hi).2
  · change ((m.numCachedBlock.erase requestId).get? id).getD 0 ≤ _
    rw [getBlocks_erase, PyDict.get?_erase]
    split
    · exact Nat.le_refl _
    · exact h.cachedLe id
  · rw [getBlocks_erase] at hi
    obtain ⟨hid, hi⟩ := hget hi
    change ((m.numCachedBlock.erase requestId).get? id).getD 0 ≤ i at hle
    rw [PyDict.erase_get?_ne _ hid] at hle
    obtain ⟨hone, hnone⟩ := h.own hi hle
    have hb : b ∉ (m.getBlocks requestId).reverse := fun hb =>
      hid (h.unique hone (List.mem_of_getElem? hi) ((hmem b).1 hb))
    exact ⟨(if_neg hb).trans hone, hnone⟩

/-! ### The prefix cache shrinks -/

omit [DecidableEq η] in
/-- Hashes may be taken from blocks at any time. -/
theorem ManagerInv.shrink (h : ManagerInv depth m free) {cache : BlockHashToBlockMap η}
    {blockHash : KVCacheBlock → Option (BlockHashWithGroupId η)}
    (hpool : PoolInv { m.blockPool with cachedBlockHashToBlock := cache, blockHash := blockHash } free [])
    (hhash : ∀ b, blockHash b = none ∨ blockHash b = m.blockPool.blockHash b) :
    ManagerInv depth
      { m with blockPool := { m.blockPool with cachedBlockHashToBlock := cache, blockHash := blockHash } }
      free := by
  have hold : ∀ {b key}, blockHash b = some key → m.blockPool.blockHash b = some key := by
    intro b key hb
    rcases hhash b with hnone | heq
    · rw [hnone] at hb
      cases hb
    · rw [← heq, hb]
  refine { h with
    pool := hpool
    group := fun hb => h.group (hold hb)
    depth := fun hb hi => h.depth (hold hb) hi
    own := fun {id i b} hi hle => ?_ }
  obtain ⟨hone, hnone⟩ := h.own hi hle
  refine ⟨hone, ?_⟩
  rcases hhash b with hb | hb
  · exact hb
  · exact hb.trans hnone

theorem ManagerInv.evictBlocks (h : ManagerInv depth m free) {blockIds : List ℕ}
    (hids : ∀ blockId ∈ blockIds, blockId < m.blockPool.numGpuBlocks) :
    ∃ m', m.evictBlocks blockIds = .ok m' ∧ ManagerInv depth m' free ∧ m'.reqToBlocks = m.reqToBlocks ∧
      m'.config = m.config := by
  obtain ⟨cache, blockHash, hevict, hpool, hhash⟩ := h.pool.evictBlocks hids
  refine ⟨_, by rw [KVCacheManager.evictBlocks, hevict]; rfl, h.shrink hpool fun b => ?_, rfl, rfl⟩
  rw [hhash]
  split
  · exact Or.inl rfl
  · exact Or.inr rfl

omit [DecidableEq η] in
theorem ManagerInv.resetPrefixCache (h : ManagerInv depth m free) :
    ManagerInv depth m.resetPrefixCache.2 free ∧ m.resetPrefixCache.2.reqToBlocks = m.reqToBlocks ∧
      m.resetPrefixCache.2.config = m.config := by
  obtain ⟨cache, blockHash, hreset, hpool, hhash⟩ := h.pool.resetPrefixCache
  rw [KVCacheManager.resetPrefixCache, hreset]
  refine ⟨h.shrink hpool fun b => ?_, rfl, rfl⟩
  rw [hhash]
  split
  · exact Or.inl rfl
  · exact Or.inr rfl

end

end KVCache
end InfiniKV
