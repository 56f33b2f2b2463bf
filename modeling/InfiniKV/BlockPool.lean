/-
**The pool of KV cache blocks.**

A block is free, or requests hold it, as many as its reference count says.  A full block may be cached under the
hash of its tokens, whether it is held or free; a free block that is cached is found again until the pool
hands it out for other tokens.  Two blocks may be cached under one hash.

Main definitions:

* `InfiniKV.KVCache.BlockHashToBlockMap` — the cached blocks by their hash;
* `InfiniKV.KVCache.BlockPool` — the pool, with `getNewBlocks`, `touch`, `freeBlocks`, `cacheFullBlocks`,
  `evictBlocks` and `resetPrefixCache`;
* `InfiniKV.KVCache.PoolInv` — what holds of the pool.

Main results:

* `InfiniKV.KVCache.PoolInv.getNewBlocks`, `InfiniKV.KVCache.PoolInv.touch`,
  `InfiniKV.KVCache.PoolInv.freeBlocks`, … — **each method keeps the invariant**, and raises no exception where
  its blocks are as they should be.
-/

import InfiniKV.FreeBlockQueue

set_option relaxedAutoImplicit false
set_option autoImplicit false

namespace InfiniKV
namespace KVCache

variable {η : Type} [DecidableEq η]

/-! ### Cached blocks by their hash -/

/-- `BlockHashWithGroupId`, where `η` are the block hashes. -/
abbrev BlockHashWithGroupId (η : Type) := η × ℕ

/-- The blocks of a key: one block, or a dictionary from block ids, which is never empty. -/
inductive CachedBlocks where
  | single (block : KVCacheBlock)
  | dict (first : KVCacheBlock) (rest : List KVCacheBlock)

/-- The blocks, in their order. -/
def CachedBlocks.toList : CachedBlocks → List KVCacheBlock
  | .single block => [block]
  | .dict first rest => first :: rest

/-- `BlockHashToBlockMap`. -/
structure BlockHashToBlockMap (η : Type) where
  cache : BlockHashWithGroupId η → Option CachedBlocks

namespace BlockHashToBlockMap

/-- `BlockHashToBlockMap()`. -/
def empty : BlockHashToBlockMap η := ⟨fun _ => none⟩

/-- `get_one_block`. -/
def getOneBlock (m : BlockHashToBlockMap η) (key : BlockHashWithGroupId η) : Option KVCacheBlock :=
  match m.cache key with
  | none => none
  | some (.single block) => some block
  | some (.dict first _) => some first

/-- `insert`. -/
def insert (m : BlockHashToBlockMap η) (key : BlockHashWithGroupId η) (block : KVCacheBlock) :
    BlockHashToBlockMap η :=
  ⟨Function.update m.cache key <| some <| match m.cache key with
    | none => .single block
    | some (.single old) => if old = block then .dict old [] else .dict old [block]
    | some (.dict first rest) => .dict first (if block ∈ first :: rest then rest else rest ++ [block])⟩

/-- `pop`. -/
def pop (m : BlockHashToBlockMap η) (key : BlockHashWithGroupId η) (block : KVCacheBlock) :
    Option KVCacheBlock × BlockHashToBlockMap η :=
  match m.cache key with
  | none => (none, m)
  | some (.single old) => if old = block then (some old, ⟨Function.update m.cache key none⟩) else (none, m)
  | some (.dict first rest) =>
      (if block ∈ first :: rest then some block else none,
        ⟨Function.update m.cache key <| match (first :: rest).erase block with
          | [] => none
          | first :: rest => some (.dict first rest)⟩)

/-- The blocks of a key. -/
def blocksAt (m : BlockHashToBlockMap η) (key : BlockHashWithGroupId η) : List KVCacheBlock :=
  ((m.cache key).map CachedBlocks.toList).getD []

end BlockHashToBlockMap

/-! ### The pool -/

/-- `BlockPool`, with the attributes of its blocks. -/
structure BlockPool (η : Type) where
  numGpuBlocks : ℕ
  enableCaching : Bool
  refCnt : KVCacheBlock → ℤ
  blockHash : KVCacheBlock → Option (BlockHashWithGroupId η)
  freeBlockQueue : FreeKVCacheBlockQueue
  cachedBlockHashToBlock : BlockHashToBlockMap η
  nullBlock : KVCacheBlock

namespace BlockPool

/-- The blocks of the pool. -/
def blocks (pool : BlockPool η) : List KVCacheBlock := (List.range pool.numGpuBlocks).map .block

/-- `BlockPool(num_gpu_blocks, enable_caching)`. -/
def new (numGpuBlocks : ℕ) (enableCaching : Bool) : Except PyError (BlockPool η) := do
  if numGpuBlocks = 0 then
    throw (.assertionError "")
  let (nullBlock, queue) ← (FreeKVCacheBlockQueue.new ((List.range numGpuBlocks).map .block)).popleft
  .ok {
    numGpuBlocks := numGpuBlocks
    enableCaching := enableCaching
    refCnt := fun _ => 0
    blockHash := fun _ => none
    freeBlockQueue := queue
    cachedBlockHashToBlock := .empty
    nullBlock := nullBlock }

/-- `is_null`, which is set of the null block. -/
def isNull (pool : BlockPool η) (block : KVCacheBlock) : Bool := block = pool.nullBlock

/-- `get_num_free_blocks`. -/
def getNumFreeBlocks (pool : BlockPool η) : ℤ := pool.freeBlockQueue.numFreeBlocks

/-- `get_cached_block`. -/
def getCachedBlock (pool : BlockPool η) (blockHash : η) (kvCacheGroupIds : List ℕ) :
    Option (List KVCacheBlock) :=
  kvCacheGroupIds.mapM fun groupId => pool.cachedBlockHashToBlock.getOneBlock (blockHash, groupId)

/-- `_maybe_evict_cached_block`. -/
def maybeEvictCachedBlock (pool : BlockPool η) (block : KVCacheBlock) : Bool × BlockPool η :=
  match pool.blockHash block with
  | none => (false, pool)
  | some key =>
      match pool.cachedBlockHashToBlock.pop key block with
      | (none, cache) => (false, { pool with cachedBlockHashToBlock := cache })
      | (some _, cache) =>
          (true, { pool with
            cachedBlockHashToBlock := cache
            blockHash := Function.update pool.blockHash block none })

/-- The loop of `get_new_blocks`. -/
def takeNew (pool : BlockPool η) : List KVCacheBlock → Except PyError (BlockPool η)
  | [] => .ok pool
  | block :: rest =>
      let pool := if pool.enableCaching then (pool.maybeEvictCachedBlock block).2 else pool
      if pool.refCnt block ≠ 0 then .error (.assertionError "")
      else takeNew { pool with refCnt := Function.update pool.refCnt block (pool.refCnt block + 1) } rest

/-- `get_new_blocks`. -/
def getNewBlocks (pool : BlockPool η) (numBlocks : ℤ) :
    Except PyError (List KVCacheBlock × BlockPool η) := do
  if pool.getNumFreeBlocks < numBlocks then
    throw (.valueError s!"Cannot get {numBlocks} free blocks from the pool")
  let (ret, queue) ← pool.freeBlockQueue.popleftN numBlocks
  let pool ← takeNew { pool with freeBlockQueue := queue } ret
  .ok (ret, pool)

/-- The queue when a block is touched: `ref_cnt == 0` means that the block is in it. -/
def unqueue (pool : BlockPool η) (block : KVCacheBlock) : Except PyError FreeKVCacheBlockQueue :=
  if pool.refCnt block = 0 ∧ pool.isNull block = false then pool.freeBlockQueue.remove block
  else .ok pool.freeBlockQueue

/-- `touch`. -/
def touch (pool : BlockPool η) : List KVCacheBlock → Except PyError (BlockPool η)
  | [] => .ok pool
  | block :: rest => do
      let queue ← pool.unqueue block
      touch { pool with
        freeBlockQueue := queue
        refCnt := Function.update pool.refCnt block (pool.refCnt block + 1) } rest

/-- `block.ref_cnt -= 1`, for one block after the other. -/
def release (refCnt : KVCacheBlock → ℤ) : List KVCacheBlock → KVCacheBlock → ℤ
  | [] => refCnt
  | block :: rest => release (Function.update refCnt block (refCnt block - 1)) rest

/-- `free_blocks`. -/
def freeBlocks (pool : BlockPool η) (orderedBlocks : List KVCacheBlock) : Except PyError (BlockPool η) := do
  let refCnt := release pool.refCnt orderedBlocks
  let queue ← pool.freeBlockQueue.appendN
    (orderedBlocks.filter fun block => refCnt block = 0 ∧ pool.isNull block = false)
  .ok { pool with refCnt := refCnt, freeBlockQueue := queue }

/-- The loop of `cache_full_blocks`, over the blocks and their hashes. -/
def cacheLoop (pool : BlockPool η) (kvCacheGroupId : ℕ) :
    List KVCacheBlock → List η → Except PyError (BlockPool η)
  | [], _ => .ok pool
  | block :: rest, hashes =>
      if pool.isNull block then cacheLoop pool kvCacheGroupId rest hashes.tail
      else if pool.blockHash block ≠ none then .error (.assertionError "")
      else match hashes with
        | [] => .error .indexError
        | hash :: hashes =>
            cacheLoop { pool with
              blockHash := Function.update pool.blockHash block (some (hash, kvCacheGroupId))
              cachedBlockHashToBlock := pool.cachedBlockHashToBlock.insert (hash, kvCacheGroupId) block }
              kvCacheGroupId rest hashes

/-- `cache_full_blocks`, where the hashes of the request are those of blocks of this size. -/
def cacheFullBlocks (pool : BlockPool η) (blockHashes : List η) (blocks : List KVCacheBlock)
    (numCachedBlocks numFullBlocks kvCacheGroupId : ℕ) : Except PyError (BlockPool η) :=
  if numFullBlocks ≤ numCachedBlocks then .ok pool
  else if blockHashes.length < numFullBlocks then .error (.assertionError "")
  else pool.cacheLoop kvCacheGroupId ((blocks.take numFullBlocks).drop numCachedBlocks)
    (blockHashes.drop numCachedBlocks)

/-- `evict_blocks`. -/
def evictBlocks (pool : BlockPool η) : List ℕ → Except PyError (BlockPool η)
  | [] => .ok pool
  | blockId :: rest =>
      if blockId < pool.numGpuBlocks then evictBlocks (pool.maybeEvictCachedBlock (.block blockId)).2 rest
      else .error (.assertionError <|
        s!"Invalid block_id {blockId} >= {pool.numGpuBlocks}. This indicates a bug in the KV connector - " ++
          "workers should only report block IDs that were allocated by the scheduler.")

/-- `reset_prefix_cache`. -/
def resetPrefixCache (pool : BlockPool η) : Bool × BlockPool η :=
  if (pool.numGpuBlocks : ℤ) - pool.getNumFreeBlocks ≠ 1 then (false, pool)
  else (true, { pool with
    cachedBlockHashToBlock := .empty
    blockHash := fun block => if block ∈ pool.blocks then none else pool.blockHash block })

end BlockPool

/-! ### What is cached under a hash -/

omit [DecidableEq η] in
theorem BlockHashToBlockMap.getOneBlock_eq (m : BlockHashToBlockMap η) (key : BlockHashWithGroupId η) :
    m.getOneBlock key = (m.blocksAt key).head? := by
  rw [BlockHashToBlockMap.getOneBlock, BlockHashToBlockMap.blocksAt]
  cases m.cache key with
  | none => rfl
  | some blocks => cases blocks <;> rfl

omit [DecidableEq η] in
theorem BlockHashToBlockMap.blocksAt_mk (cache : BlockHashWithGroupId η → Option CachedBlocks)
    (key : BlockHashWithGroupId η) :
    (⟨cache⟩ : BlockHashToBlockMap η).blocksAt key = ((cache key).map CachedBlocks.toList).getD [] := rfl

section
variable {m : BlockHashToBlockMap η} {key key' : BlockHashWithGroupId η} {block : KVCacheBlock}

/-- The blocks of a key after another one was put in. -/
theorem BlockHashToBlockMap.blocksAt_insert : (m.insert key block).blocksAt key =
    if block ∈ m.blocksAt key then m.blocksAt key else m.blocksAt key ++ [block] := by
  rw [BlockHashToBlockMap.insert, BlockHashToBlockMap.blocksAt_mk, Function.update_self]
  cases hcache : m.cache key with
  | none =>
      have hat : m.blocksAt key = [] := by rw [BlockHashToBlockMap.blocksAt, hcache]; rfl
      rw [hat, if_neg List.not_mem_nil]
      rfl
  | some blocks =>
      cases blocks with
      | single old =>
          have hat : m.blocksAt key = [old] := by rw [BlockHashToBlockMap.blocksAt, hcache]; rfl
          rw [hat]
          by_cases hold : old = block
          · subst hold
            simp [CachedBlocks.toList]
          · simp [CachedBlocks.toList, hold, Ne.symm hold]
      | dict first rest =>
          have hat : m.blocksAt key = first :: rest := by rw [BlockHashToBlockMap.blocksAt, hcache]; rfl
          rw [hat]
          by_cases hmem : block ∈ first :: rest
          · simp only [Option.map_some, CachedBlocks.toList, Option.getD_some, if_pos hmem]
          · simp only [Option.map_some, CachedBlocks.toList, Option.getD_some, if_neg hmem, List.cons_append]

theorem BlockHashToBlockMap.blocksAt_insert_of_ne (h : key' ≠ key) :
    (m.insert key block).blocksAt key' = m.blocksAt key' := by
  rw [BlockHashToBlockMap.insert, BlockHashToBlockMap.blocksAt_mk, Function.update_of_ne h,
    BlockHashToBlockMap.blocksAt]

/-- A block that is cached under a key is found there and taken out. -/
theorem BlockHashToBlockMap.pop_eq (hmem : block ∈ m.blocksAt key) :
    ∃ m', m.pop key block = (some block, m') ∧ m'.blocksAt key = (m.blocksAt key).erase block ∧
      ∀ key', key' ≠ key → m'.blocksAt key' = m.blocksAt key' := by
  have hother : ∀ x key', key' ≠ key →
      (⟨Function.update m.cache key x⟩ : BlockHashToBlockMap η).blocksAt key' = m.blocksAt key' := by
    intro x key' hne
    rw [BlockHashToBlockMap.blocksAt_mk, Function.update_of_ne hne, BlockHashToBlockMap.blocksAt]
  rw [BlockHashToBlockMap.blocksAt] at hmem ⊢
  rw [BlockHashToBlockMap.pop]
  cases hcache : m.cache key with
  | none =>
      rw [hcache] at hmem
      cases hmem
  | some blocks =>
      rw [hcache] at hmem
      cases blocks with
      | single old =>
          obtain rfl : block = old := by simpa [CachedBlocks.toList] using hmem
          refine ⟨⟨Function.update m.cache key none⟩, by simp only [if_true], ?_, hother none⟩
          simp [BlockHashToBlockMap.blocksAt, CachedBlocks.toList]
      | dict first rest =>
          have hmem : block ∈ first :: rest := hmem
          refine ⟨⟨Function.update m.cache key <| match (first :: rest).erase block with
            | [] => none
            | first :: rest => some (.dict first rest)⟩, by simp only [if_pos hmem], ?_, hother _⟩
          simp only [BlockHashToBlockMap.blocksAt, Function.update_self, Option.map_some, Option.getD_some,
            CachedBlocks.toList]
          cases (first :: rest).erase block <;> rfl

end

/-! ### The invariant -/

/-- **What holds of the pool**: the queue has the blocks that nobody holds, but for those in `held`, and a block
has a hash exactly when it is cached under it. -/
structure PoolInv (pool : BlockPool η) (free held : List KVCacheBlock) : Prop where
  null : pool.nullBlock ∈ pool.blocks
  queue : Represents pool.freeBlockQueue free
  nonneg : ∀ b, 0 ≤ pool.refCnt b
  mem_free : ∀ b, b ∈ free ↔ b ∈ pool.blocks ∧ b ≠ pool.nullBlock ∧ pool.refCnt b = 0 ∧ b ∉ held
  hash : ∀ b key, pool.blockHash b = some key ↔ b ∈ pool.cachedBlockHashToBlock.blocksAt key
  nodup : ∀ key, (pool.cachedBlockHashToBlock.blocksAt key).Nodup
  cached : ∀ b, pool.blockHash b ≠ none →
    b ∈ pool.blocks ∧ b ≠ pool.nullBlock ∧ pool.enableCaching = true

section
variable {pool : BlockPool η} {free held l : List KVCacheBlock} {b : KVCacheBlock}

omit [DecidableEq η] in
theorem BlockPool.real_of_mem (h : b ∈ pool.blocks) : b.Real := by
  obtain ⟨i, -, rfl⟩ := List.mem_map.1 h
  exact ⟨nofun, nofun⟩

omit [DecidableEq η] in
theorem PoolInv.numFree_eq (h : PoolInv pool free held) : pool.getNumFreeBlocks = free.length := h.queue.count

omit [DecidableEq η] in
/-- A new pool: all blocks are free but the null block. -/
theorem poolInv_new (numGpuBlocks : ℕ) (enableCaching : Bool) (hpos : 0 < numGpuBlocks) :
    ∃ (pool : BlockPool η) (free : List KVCacheBlock), BlockPool.new numGpuBlocks enableCaching = .ok pool ∧
      PoolInv pool free [] ∧ (∀ b, pool.refCnt b = 0) ∧ (∀ b, pool.blockHash b = none) ∧
      free.length + 1 = numGpuBlocks ∧ pool.numGpuBlocks = numGpuBlocks ∧ pool.enableCaching = enableCaching := by
  obtain ⟨n, rfl⟩ := Nat.exists_eq_succ_of_ne_zero (Nat.pos_iff_ne_zero.1 hpos)
  have hblocks : (List.range (n + 1)).map KVCacheBlock.block =
      .block 0 :: (List.range n).map fun i => KVCacheBlock.block (i + 1) := by
    rw [List.range_succ_eq_map, List.map_cons, List.map_map]
    rfl
  have hnodup : ((List.range (n + 1)).map KVCacheBlock.block).Nodup :=
    List.nodup_range.map fun i j hij => by cases hij; rfl
  have hqueue := represents_new hnodup (by simp) (by simp)
  rw [hblocks] at hqueue hnodup
  obtain ⟨q, hq, hfree⟩ := hqueue.popleft
  refine ⟨⟨n + 1, enableCaching, fun _ => 0, fun _ => none, q, .empty, .block 0⟩,
    (List.range n).map fun i => KVCacheBlock.block (i + 1), ?_, ?_, fun _ => rfl, fun _ => rfl, ?_, rfl, rfl⟩
  · rw [BlockPool.new, if_neg (Nat.succ_ne_zero n), hblocks, hq]
    rfl
  · refine ⟨?_, hfree, fun _ => Int.le_refl _, fun b => ?_, fun b key => ?_, fun _ => List.nodup_nil, fun b hb =>
      absurd rfl hb⟩
    · simp [BlockPool.blocks]
    · change _ ↔ b ∈ (List.range (n + 1)).map KVCacheBlock.block ∧ b ≠ .block 0 ∧ (0 : ℤ) = 0 ∧ b ∉ []
      rw [hblocks]
      have hnot := (List.nodup_cons.1 hnodup).1
      constructor
      · intro hb
        refine ⟨List.mem_cons_of_mem _ hb, ?_, rfl, List.not_mem_nil⟩
        rintro rfl
        exact hnot hb
      · rintro ⟨hb, hne, -, -⟩
        exact (List.mem_cons.1 hb).resolve_left hne
    · exact iff_of_false nofun List.not_mem_nil
  · simp

/-- A block is no longer cached. -/
theorem PoolInv.maybeEvict (h : PoolInv pool free held) (b : KVCacheBlock) :
    ∃ m, (pool.maybeEvictCachedBlock b).2 = { pool with
        cachedBlockHashToBlock := m, blockHash := Function.update pool.blockHash b none } ∧
      PoolInv { pool with
        cachedBlockHashToBlock := m, blockHash := Function.update pool.blockHash b none } free held := by
  rw [BlockPool.maybeEvictCachedBlock]
  cases hb : pool.blockHash b with
  | none =>
      have hsame : Function.update pool.blockHash b none = pool.blockHash := by rw [← hb, Function.update_eq_self]
      rw [hsame]
      exact ⟨_, rfl, h⟩
  | some key =>
      obtain ⟨m, hm, hkey, hother⟩ := BlockHashToBlockMap.pop_eq ((h.hash b key).1 hb)
      refine ⟨m, by simp only [hm], ?_⟩
      refine { h with hash := fun b' key' => ?_, nodup := fun key' => ?_, cached := fun b' hb' => ?_ }
      · change Function.update pool.blockHash b none b' = some key' ↔ b' ∈ m.blocksAt key'
        by_cases hbb : b' = b
        · subst hbb
          rw [Function.update_self]
          refine iff_of_false nofun ?_
          by_cases hkk : key' = key
          · rw [hkk, hkey]
            exact List.Nodup.not_mem_erase (h.nodup key)
          · rw [hother key' hkk, ← h.hash, hb]
            exact fun heq => hkk (Option.some.inj heq).symm
        · rw [Function.update_of_ne hbb, h.hash]
          by_cases hkk : key' = key
          · rw [hkk, hkey, List.mem_erase_of_ne hbb]
          · rw [hother key' hkk]
      · change (m.blocksAt key').Nodup
        by_cases hkk : key' = key
        · rw [hkk, hkey]
          exact (h.nodup key).erase b
        · rw [hother key' hkk]
          exact h.nodup key'
      · change Function.update pool.blockHash b none b' ≠ none at hb'
        by_cases hbb : b' = b
        · subst hbb
          rw [Function.update_self] at hb'
          exact absurd rfl hb'
        · rw [Function.update_of_ne hbb] at hb'
          exact h.cached b' hb'

/-- Blocks that were taken out of the queue lose their hashes and have one holder each. -/
theorem PoolInv.takeNew (h : PoolInv pool free l) (hnodup : l.Nodup)
    (hl : ∀ b ∈ l, b ∈ pool.blocks ∧ b ≠ pool.nullBlock ∧ pool.refCnt b = 0) :
    ∃ m, pool.takeNew l = .ok { pool with
        cachedBlockHashToBlock := m
        blockHash := fun b => if b ∈ l then none else pool.blockHash b
        refCnt := fun b => if b ∈ l then 1 else pool.refCnt b } ∧
      PoolInv { pool with
        cachedBlockHashToBlock := m
        blockHash := fun b => if b ∈ l then none else pool.blockHash b
        refCnt := fun b => if b ∈ l then 1 else pool.refCnt b } free [] := by
  induction l generalizing pool with
  | nil =>
      simp only [List.not_mem_nil, if_false]
      exact ⟨_, rfl, h⟩
  | cons b l ih =>
      obtain ⟨hb, hnodup⟩ := List.nodup_cons.1 hnodup
      obtain ⟨hblocks, hnull, href⟩ := hl b List.mem_cons_self
      -- with or without caching, the block has no hash any more
      obtain ⟨m, hm, hevict⟩ : ∃ m, (if pool.enableCaching then (pool.maybeEvictCachedBlock b).2 else pool) =
          { pool with cachedBlockHashToBlock := m, blockHash := Function.update pool.blockHash b none } ∧
          PoolInv { pool with
            cachedBlockHashToBlock := m, blockHash := Function.update pool.blockHash b none } free (b :: l) := by
        cases hcaching : pool.enableCaching with
        | true =>
            obtain ⟨m, hm, hevict⟩ := h.maybeEvict b
            exact ⟨m, by rw [if_pos rfl, hm, hcaching], by rw [← hcaching]; exact hevict⟩
        | false =>
            have hnone : pool.blockHash b = none := by
              by_contra hsome
              have := (h.cached b hsome).2.2
              rw [hcaching] at this
              cases this
            have hsame : Function.update pool.blockHash b none = pool.blockHash := by
              rw [← hnone, Function.update_eq_self]
            refine ⟨pool.cachedBlockHashToBlock, ?_, ?_⟩
            · rw [if_neg Bool.false_ne_true, hsame, ← hcaching]
            · rw [hsame, ← hcaching]
              exact h
      have hnext : PoolInv { pool with
          cachedBlockHashToBlock := m
          blockHash := Function.update pool.blockHash b none
          refCnt := Function.update pool.refCnt b (pool.refCnt b + 1) } free l := by
        refine { hevict with nonneg := fun c => ?_, mem_free := fun c => ?_ }
        · by_cases hcb : c = b
          · subst hcb
            change 0 ≤ Function.update pool.refCnt c (pool.refCnt c + 1) c
            rw [Function.update_self, href]
            decide
          · change 0 ≤ Function.update pool.refCnt b (pool.refCnt b + 1) c
            rw [Function.update_of_ne hcb]
            exact h.nonneg c
        · rw [h.mem_free]
          change _ ↔ c ∈ pool.blocks ∧ c ≠ pool.nullBlock ∧
            Function.update pool.refCnt b (pool.refCnt b + 1) c = 0 ∧ c ∉ l
          by_cases hcb : c = b
          · subst hcb
            rw [Function.update_self, href]
            simp
          · rw [Function.update_of_ne hcb, List.mem_cons, not_or]
            simp [hcb]
      obtain ⟨m', hm', hinv⟩ := ih hnext hnodup fun c hc => by
        have hcb : c ≠ b := by
          rintro rfl
          exact hb hc
        obtain ⟨h₁, h₂, h₃⟩ := hl c (List.mem_cons_of_mem b hc)
        exact ⟨h₁, h₂, (Function.update_of_ne hcb _ _).trans h₃⟩
      have hhash : (fun c => if c ∈ l then none else Function.update pool.blockHash b none c) =
          fun c => if c ∈ b :: l then none else pool.blockHash c := by
        funext c
        by_cases hcb : c = b
        · subst hcb
          simp [hb]
        · rw [Function.update_of_ne hcb]
          simp [hcb]
      have hcount : (fun c => if c ∈ l then 1 else Function.update pool.refCnt b (pool.refCnt b + 1) c) =
          fun c => if c ∈ b :: l then 1 else pool.refCnt c := by
        funext c
        by_cases hcb : c = b
        · subst hcb
          simp [hb, href]
        · rw [Function.update_of_ne hcb]
          simp [hcb]
      simp only [hhash, hcount] at hm' hinv
      refine ⟨m', ?_, hinv⟩
      rw [BlockPool.takeNew, hm]
      simp only [ne_eq, href, not_true_eq_false, if_false]
      rw [← hm']
      simp only [href]

/-- `get_new_blocks` hands out the first free blocks. -/
theorem PoolInv.getNewBlocks (h : PoolInv pool free []) {n : ℕ} (hn : n ≤ free.length) :
    ∃ q m, pool.getNewBlocks n = .ok (free.take n, { pool with
        freeBlockQueue := q
        cachedBlockHashToBlock := m
        blockHash := fun b => if b ∈ free.take n then none else pool.blockHash b
        refCnt := fun b => if b ∈ free.take n then 1 else pool.refCnt b }) ∧
      PoolInv { pool with
        freeBlockQueue := q
        cachedBlockHashToBlock := m
        blockHash := fun b => if b ∈ free.take n then none else pool.blockHash b
        refCnt := fun b => if b ∈ free.take n then 1 else pool.refCnt b } (free.drop n) [] := by
  obtain ⟨q, hq, hqueue⟩ := h.queue.popleftN hn
  have hnodup := h.queue.nodup_list
  have hsplit : ∀ b, b ∈ free ↔ b ∈ free.take n ∨ b ∈ free.drop n := fun b => by
    rw [← List.mem_append, List.take_append_drop]
  have hdisj : ∀ b ∈ free.take n, b ∉ free.drop n := by
    rw [← List.take_append_drop n free] at hnodup
    exact fun b hb hb' => (List.nodup_append.1 hnodup).2.2 b hb b hb' rfl
  have hheld : PoolInv { pool with freeBlockQueue := q } (free.drop n) (free.take n) := by
    refine { h with queue := hqueue, mem_free := fun b => ?_ }
    have hfree := h.mem_free b
    constructor
    · intro hb
      obtain ⟨h₁, h₂, h₃, -⟩ := hfree.1 ((hsplit b).2 (Or.inr hb))
      exact ⟨h₁, h₂, h₃, fun htake => hdisj b htake hb⟩
    · rintro ⟨h₁, h₂, h₃, h₄⟩
      exact ((hsplit b).1 (hfree.2 ⟨h₁, h₂, h₃, List.not_mem_nil⟩)).resolve_left h₄
  obtain ⟨m, hm, hinv⟩ := hheld.takeNew (hnodup.sublist (List.take_sublist n free)) fun b hb => by
    obtain ⟨h₁, h₂, h₃, -⟩ := (h.mem_free b).1 ((hsplit b).2 (Or.inl hb))
    exact ⟨h₁, h₂, h₃⟩
  refine ⟨q, m, ?_, hinv⟩
  rw [BlockPool.getNewBlocks, h.numFree_eq, if_neg (by omega)]
  change (do
    let (ret, queue) ← pool.freeBlockQueue.popleftN n
    let pool ← BlockPool.takeNew { pool with freeBlockQueue := queue } ret
    Except.ok (ret, pool) : Except PyError _) = _
  rw [hq]
  change (do
    let pool ← BlockPool.takeNew { pool with freeBlockQueue := q } (free.take n)
    Except.ok (free.take n, pool) : Except PyError _) = _
  rw [hm]
  rfl

omit [DecidableEq η] in
/-- Blocks of the pool that are touched have one more holder each; those that were free leave the queue. -/
theorem PoolInv.touch (h : PoolInv pool free []) (hnodup : l.Nodup)
    (hl : ∀ b ∈ l, b ∈ pool.blocks ∧ b ≠ pool.nullBlock) :
    ∃ q free', pool.touch l = .ok { pool with
        freeBlockQueue := q
        refCnt := fun b => if b ∈ l then pool.refCnt b + 1 else pool.refCnt b } ∧
      PoolInv { pool with
        freeBlockQueue := q
        refCnt := fun b => if b ∈ l then pool.refCnt b + 1 else pool.refCnt b } free' [] ∧
      free'.length + l.countP (fun b => pool.refCnt b = 0) = free.length := by
  induction l generalizing pool free with
  | nil =>
      simp only [List.not_mem_nil, if_false]
      exact ⟨_, free, rfl, h, rfl⟩
  | cons b l ih =>
      obtain ⟨hb, hnodup⟩ := List.nodup_cons.1 hnodup
      obtain ⟨hblocks, hnull⟩ := hl b List.mem_cons_self
      have hisNull : pool.isNull b = false := by simpa [BlockPool.isNull] using hnull
      -- the block is free exactly when nobody holds it
      obtain ⟨q, free₁, hq, hqueue, hmem, hlen⟩ : ∃ q free₁, pool.unqueue b = .ok q ∧
          Represents q free₁ ∧ (∀ c, c ∈ free₁ ↔ c ∈ free ∧ c ≠ b) ∧
          free₁.length + (if pool.refCnt b = 0 then 1 else 0) = free.length := by
        by_cases href : pool.refCnt b = 0
        · have hfree : b ∈ free := (h.mem_free b).2 ⟨hblocks, hnull, href, List.not_mem_nil⟩
          obtain ⟨xs, ys, rfl⟩ := List.append_of_mem hfree
          obtain ⟨q, hq, hqueue⟩ := h.queue.remove
          have hout := h.queue.nodup_list
          rw [List.nodup_middle, List.nodup_cons] at hout
          refine ⟨q, xs ++ ys, by rw [BlockPool.unqueue, if_pos ⟨href, hisNull⟩, hq], hqueue, fun c => ?_, ?_⟩
          · constructor
            · intro hc
              refine ⟨?_, fun heq => hout.1 (heq ▸ hc)⟩
              simp only [List.mem_append, List.mem_cons] at hc ⊢
              exact hc.imp id Or.inr
            · rintro ⟨hc, hne⟩
              simp only [List.mem_append, List.mem_cons] at hc ⊢
              exact hc.imp id fun hc => hc.resolve_left hne
          · rw [if_pos href]
            simp
            omega
        · have hnot : b ∉ free := fun hmem => href ((h.mem_free b).1 hmem).2.2.1
          refine ⟨_, free, by rw [BlockPool.unqueue, if_neg fun hcon => href hcon.1], h.queue, fun c => ?_,
            by rw [if_neg href]; rfl⟩
          exact ⟨fun hc => ⟨hc, fun heq => hnot (heq ▸ hc)⟩, fun hc => hc.1⟩
      have hnext : PoolInv { pool with
          freeBlockQueue := q
          refCnt := Function.update pool.refCnt b (pool.refCnt b + 1) } free₁ [] := by
        refine { h with queue := hqueue, nonneg := fun c => ?_, mem_free := fun c => ?_ }
        · change 0 ≤ Function.update pool.refCnt b (pool.refCnt b + 1) c
          have hpos := h.nonneg b
          by_cases hcb : c = b
          · subst hcb
            rw [Function.update_self]
            omega
          · rw [Function.update_of_ne hcb]
            exact h.nonneg c
        · rw [hmem, h.mem_free]
          change _ ↔ c ∈ pool.blocks ∧ c ≠ pool.nullBlock ∧
            Function.update pool.refCnt b (pool.refCnt b + 1) c = 0 ∧ c ∉ []
          have hpos := h.nonneg b
          by_cases hcb : c = b
          · subst hcb
            rw [Function.update_self]
            refine iff_of_false (fun hcon => hcon.2 rfl) fun hcon => ?_
            have := hcon.2.2.1
            omega
          · rw [Function.update_of_ne hcb]
            exact ⟨fun hcon => hcon.1, fun hcon => ⟨hcon, hcb⟩⟩
      obtain ⟨q', free', hq', hinv, hlen'⟩ := ih hnext hnodup fun c hc => hl c (List.mem_cons_of_mem b hc)
      have hne : ∀ c ∈ l, c ≠ b := by
        rintro c hc rfl
        exact hb hc
      have hcount : (fun c => if c ∈ l then Function.update pool.refCnt b (pool.refCnt b + 1) c + 1
          else Function.update pool.refCnt b (pool.refCnt b + 1) c) =
          fun c => if c ∈ b :: l then pool.refCnt c + 1 else pool.refCnt c := by
        funext c
        by_cases hcb : c = b
        · subst hcb
          simp [hb]
        · rw [Function.update_of_ne hcb]
          simp [hcb]
      have hcountP : l.countP (fun c => Function.update pool.refCnt b (pool.refCnt b + 1) c = 0) =
          l.countP fun c => pool.refCnt c = 0 := by
        refine List.countP_congr fun c hc => ?_
        rw [Function.update_of_ne (hne c hc)]
      simp only [hcount] at hq' hinv
      rw [hcountP] at hlen'
      refine ⟨q', free', ?_, hinv, ?_⟩
      · rw [BlockPool.touch, hq]
        exact hq'
      · rw [List.countP_cons]
        simp only [decide_eq_true_eq]
        omega

/-- What is left of the reference counts when each of some blocks has lost a holder. -/
theorem release_eq (refCnt : KVCacheBlock → ℤ) (hnodup : l.Nodup) :
    BlockPool.release refCnt l = fun b => if b ∈ l then refCnt b - 1 else refCnt b := by
  induction l generalizing refCnt with
  | nil => simp only [BlockPool.release, List.not_mem_nil, if_false]
  | cons b l ih =>
      obtain ⟨hb, hnodup⟩ := List.nodup_cons.1 hnodup
      rw [BlockPool.release, ih _ hnodup]
      funext c
      by_cases hcb : c = b
      · subst hcb
        simp [hb]
      · rw [Function.update_of_ne hcb]
        simp [hcb]

omit [DecidableEq η] in
/-- Blocks that are given back have one holder less each; those that have none any more come to the end of the
queue. -/
theorem PoolInv.freeBlocks (h : PoolInv pool free []) (hnodup : l.Nodup)
    (hl : ∀ b ∈ l, b ∈ pool.blocks ∧ b ≠ pool.nullBlock ∧ 1 ≤ pool.refCnt b) :
    ∃ q, pool.freeBlocks l = .ok { pool with
        freeBlockQueue := q
        refCnt := fun b => if b ∈ l then pool.refCnt b - 1 else pool.refCnt b } ∧
      PoolInv { pool with
        freeBlockQueue := q
        refCnt := fun b => if b ∈ l then pool.refCnt b - 1 else pool.refCnt b }
        (free ++ l.filter fun b => pool.refCnt b = 1) [] := by
  have hfilter : (l.filter fun b => (if b ∈ l then pool.refCnt b - 1 else pool.refCnt b) = 0 ∧
      pool.isNull b = false) = l.filter fun b => pool.refCnt b = 1 := by
    refine List.filter_congr fun b hb => ?_
    have hisNull : pool.isNull b = false := by simpa [BlockPool.isNull] using (hl b hb).2.1
    rw [if_pos hb, hisNull, decide_eq_decide]
    constructor
    · rintro ⟨h₁, -⟩
      omega
    · intro h₁
      exact ⟨by omega, rfl⟩
  have hdisj : (free ++ l.filter fun b => pool.refCnt b = 1).Nodup := by
    refine List.nodup_append.2 ⟨h.queue.nodup_list, hnodup.filter _, fun b hb c hc => ?_⟩
    rintro rfl
    have h₁ := ((h.mem_free b).1 hb).2.2.1
    have h₂ := (hl b (List.mem_of_mem_filter hc)).2.2
    omega
  obtain ⟨q, hq, hqueue⟩ := h.queue.appendN hdisj
    (fun hmem => (BlockPool.real_of_mem (hl _ (List.mem_of_mem_filter hmem)).1).1 rfl)
    fun hmem => (BlockPool.real_of_mem (hl _ (List.mem_of_mem_filter hmem)).1).2 rfl
  refine ⟨q, ?_, { h with queue := hqueue, nonneg := fun b => ?_, mem_free := fun b => ?_ }⟩
  · rw [BlockPool.freeBlocks]
    simp only [release_eq _ hnodup, hfilter, hq]
    rfl
  · change 0 ≤ if b ∈ l then pool.refCnt b - 1 else pool.refCnt b
    split
    · rename_i hb
      have := (hl b hb).2.2
      omega
    · exact h.nonneg b
  · change _ ↔ b ∈ pool.blocks ∧ b ≠ pool.nullBlock ∧
      (if b ∈ l then pool.refCnt b - 1 else pool.refCnt b) = 0 ∧ b ∉ []
    rw [List.mem_append, h.mem_free, List.mem_filter, decide_eq_true_iff]
    by_cases hb : b ∈ l
    · obtain ⟨h₁, h₂, h₃⟩ := hl b hb
      rw [if_pos hb]
      constructor
      · rintro (⟨-, -, h₄, -⟩ | ⟨-, h₄⟩)
        · omega
        · exact ⟨h₁, h₂, by omega, List.not_mem_nil⟩
      · rintro ⟨-, -, h₄, -⟩
        exact Or.inr ⟨hb, by omega⟩
    · rw [if_neg hb]
      exact ⟨fun hcon => hcon.resolve_right fun hcon => hb hcon.1, Or.inl⟩

/-- Full blocks are cached under their hashes. -/
theorem PoolInv.cacheLoop (h : PoolInv pool free []) (groupId : ℕ) (hashes : List η) (hnodup : l.Nodup)
    (hcaching : pool.enableCaching = true) (hlen : l.length ≤ hashes.length)
    (hl : ∀ b ∈ l, b ∈ pool.blocks ∧ b ≠ pool.nullBlock ∧ pool.blockHash b = none) :
    ∃ m blockHash, pool.cacheLoop groupId l hashes = .ok { pool with
        cachedBlockHashToBlock := m, blockHash := blockHash } ∧
      PoolInv { pool with cachedBlockHashToBlock := m, blockHash := blockHash } free [] ∧
      (∀ (i : ℕ) (b : KVCacheBlock), l[i]? = some b → blockHash b = hashes[i]?.map (·, groupId)) ∧
      ∀ b ∉ l, blockHash b = pool.blockHash b := by
  induction l generalizing pool hashes with
  | nil => exact ⟨_, _, rfl, h, nofun, fun _ _ => rfl⟩
  | cons b l ih =>
      obtain ⟨hb, hnodup⟩ := List.nodup_cons.1 hnodup
      obtain ⟨hblocks, hnull, hnone⟩ := hl b List.mem_cons_self
      have hisNull : pool.isNull b = false := by simpa [BlockPool.isNull] using hnull
      cases hashes with
      | nil => simp at hlen
      | cons hash hashes =>
          -- no key has the block yet
          have hfresh : ∀ key, b ∉ pool.cachedBlockHashToBlock.blocksAt key := fun key hmem => by
            have := (h.hash b key).2 hmem
            rw [hnone] at this
            cases this
          have hnext : PoolInv { pool with
              blockHash := Function.update pool.blockHash b (some (hash, groupId))
              cachedBlockHashToBlock := pool.cachedBlockHashToBlock.insert (hash, groupId) b } free [] := by
            refine { h with hash := fun c key => ?_, nodup := fun key => ?_, cached := fun c hc => ?_ }
            · change Function.update pool.blockHash b (some (hash, groupId)) c = some key ↔
                c ∈ (pool.cachedBlockHashToBlock.insert (hash, groupId) b).blocksAt key
              by_cases hkey : key = (hash, groupId)
              · rw [hkey, BlockHashToBlockMap.blocksAt_insert, if_neg (hfresh _), List.mem_append,
                  List.mem_singleton]
                by_cases hcb : c = b
                · subst hcb
                  rw [Function.update_self]
                  exact iff_of_true rfl (Or.inr rfl)
                · rw [Function.update_of_ne hcb, h.hash]
                  exact ⟨Or.inl, fun hc => hc.resolve_right hcb⟩
              · rw [BlockHashToBlockMap.blocksAt_insert_of_ne hkey, ← h.hash]
                by_cases hcb : c = b
                · subst hcb
                  rw [Function.update_self, hnone]
                  exact iff_of_false (fun heq => hkey (Option.some.inj heq).symm) nofun
                · rw [Function.update_of_ne hcb]
            · change ((pool.cachedBlockHashToBlock.insert (hash, groupId) b).blocksAt key).Nodup
              by_cases hkey : key = (hash, groupId)
              · rw [hkey, BlockHashToBlockMap.blocksAt_insert, if_neg (hfresh _)]
                refine List.nodup_append.2 ⟨h.nodup _, List.nodup_singleton b, fun c hc d hd => ?_⟩
                rw [List.mem_singleton.1 hd]
                rintro rfl
                exact hfresh _ hc
              · rw [BlockHashToBlockMap.blocksAt_insert_of_ne hkey]
                exact h.nodup key
            · change Function.update pool.blockHash b (some (hash, groupId)) c ≠ none at hc
              by_cases hcb : c = b
              · subst hcb
                exact ⟨hblocks, hnull, hcaching⟩
              · rw [Function.update_of_ne hcb] at hc
                exact h.cached c hc
          have hne : ∀ c ∈ l, c ≠ b := by
            rintro c hc rfl
            exact hb hc
          obtain ⟨m, blockHash, hm, hinv, hcachedAt, hother⟩ := ih hnext hashes hnodup hcaching
            (by simpa using hlen) fun c hc => by
              obtain ⟨h₁, h₂, h₃⟩ := hl c (List.mem_cons_of_mem b hc)
              exact ⟨h₁, h₂, (Function.update_of_ne (hne c hc) _ _).trans h₃⟩
          refine ⟨m, blockHash, ?_, hinv, fun i c hc => ?_, fun c hc => ?_⟩
          · rw [BlockPool.cacheLoop]
            simp only [hisNull, hnone, ne_eq, not_true_eq_false, if_false, Bool.false_eq_true]
            exact hm
          · cases i with
            | zero =>
                obtain rfl : b = c := by simpa using hc
                rw [hother b hb]
                exact Function.update_self _ _ _
            | succ i => exact hcachedAt i c (by simpa using hc)
          · rw [List.mem_cons, not_or] at hc
            rw [hother c hc.2]
            exact Function.update_of_ne hc.1 _ _

/-- Blocks that are evicted are no longer cached; who holds them, and which of them are free, stays. -/
theorem PoolInv.evictBlocks (h : PoolInv pool free []) {blockIds : List ℕ}
    (hids : ∀ blockId ∈ blockIds, blockId < pool.numGpuBlocks) :
    ∃ m blockHash, pool.evictBlocks blockIds = .ok { pool with
        cachedBlockHashToBlock := m, blockHash := blockHash } ∧
      PoolInv { pool with cachedBlockHashToBlock := m, blockHash := blockHash } free [] ∧
      ∀ b, blockHash b = if b ∈ blockIds.map KVCacheBlock.block then none else pool.blockHash b := by
  induction blockIds generalizing pool with
  | nil => exact ⟨_, _, rfl, h, fun b => by simp⟩
  | cons blockId blockIds ih =>
      obtain ⟨m, hm, hevict⟩ := h.maybeEvict (.block blockId)
      obtain ⟨m', blockHash, hm', hinv, hhash⟩ := ih hevict fun id hid =>
        hids id (List.mem_cons_of_mem blockId hid)
      refine ⟨m', blockHash, ?_, hinv, fun b => ?_⟩
      · rw [BlockPool.evictBlocks, if_pos (hids blockId List.mem_cons_self), hm]
        exact hm'
      · rw [hhash b]
        change (if _ then none else Function.update pool.blockHash (.block blockId) none b) = _
        by_cases hb : b = .block blockId
        · subst hb
          simp
        · rw [Function.update_of_ne hb]
          simp [hb]

omit [DecidableEq η] in
/-- The prefix cache is reset where all blocks are free. -/
theorem PoolInv.resetPrefixCache (h : PoolInv pool free []) :
    ∃ m blockHash, pool.resetPrefixCache.2 = { pool with cachedBlockHashToBlock := m, blockHash := blockHash } ∧
      PoolInv { pool with cachedBlockHashToBlock := m, blockHash := blockHash } free [] ∧
      ∀ b, blockHash b = if pool.resetPrefixCache.1 then none else pool.blockHash b := by
  rw [BlockPool.resetPrefixCache]
  split
  · exact ⟨_, _, rfl, h, fun b => rfl⟩
  · have hnone : ∀ b, (if b ∈ pool.blocks then none else pool.blockHash b) = none := by
      intro b
      split
      · rfl
      · rename_i hb
        by_contra hsome
        exact hb (h.cached b hsome).1
    have hhash : ∀ b key, ¬ (if b ∈ pool.blocks then none else pool.blockHash b) = some key := by
      intro b key heq
      rw [hnone b] at heq
      cases heq
    exact ⟨_, _, rfl, { h with
      hash := fun b key => iff_of_false (hhash b key) List.not_mem_nil
      nodup := fun _ => List.nodup_nil
      cached := fun b hb => absurd (hnone b) hb }, hnone⟩

end

end KVCache
end InfiniKV
