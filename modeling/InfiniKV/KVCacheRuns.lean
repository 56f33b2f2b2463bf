/-
**Runs of the manager of the KV cache blocks.**

The scheduler looks a request up in the cache, allocates slots for it, caches its blocks when they have been loaded,
and gives them back, in any order and for any number of requests.  As long as it calls the manager in the way
it is meant to, no call fails, and the invariant of the manager holds after each of them.

Main definitions:

* `InfiniKV.KVCache.Request.WellFormed`, `InfiniKV.KVCache.ManagerCall.Allowed` — the calls of the scheduler.

Main results:

* `InfiniKV.KVCache.ManagerInv.allocateSlots`, `InfiniKV.KVCache.ManagerInv.call` — **no call fails, and each keeps
  the invariant**.
-/

import InfiniKV.KVCacheInvariant
import InfiniKV.Runs

set_option relaxedAutoImplicit false
set_option autoImplicit false

namespace InfiniKV
namespace KVCache

variable {η : Type} [DecidableEq η]

/-! ### The cached prefix -/

theorem getElem?_of_isInit {α : Type} {xs ys : List α} (h : xs <+: ys) {k : ℕ} {a : α} (hk : xs[k]? = some a) :
    ys[k]? = some a := by
  obtain ⟨hlt, rfl⟩ := List.getElem?_eq_some_iff.1 hk
  exact List.prefix_iff_getElem?.1 h k hlt

section
variable {pool : BlockPool η} {free held : List KVCacheBlock} {hashes : List η} {hash : η} {b : KVCacheBlock}

omit [DecidableEq η] in
/-- A block is found under a hash if some block is cached under it. -/
theorem PoolInv.getCachedBlock (h : PoolInv pool free held) (hash : η) :
    (∃ b, pool.getCachedBlock hash [0] = some [b] ∧ pool.blockHash b = some (hash, 0)) ∨
      pool.getCachedBlock hash [0] = none ∧ ∀ b, pool.blockHash b ≠ some (hash, 0) := by
  have hone : pool.getCachedBlock hash [0] =
      (pool.cachedBlockHashToBlock.blocksAt (hash, 0)).head?.map fun b => [b] := by
    rw [BlockPool.getCachedBlock, ← BlockHashToBlockMap.getOneBlock_eq]
    cases hget : pool.cachedBlockHashToBlock.getOneBlock (hash, 0) with
    | none => simp [hget]
    | some b => simp [hget]
  cases hat : pool.cachedBlockHashToBlock.blocksAt (hash, 0) with
  | nil =>
      rw [hat] at hone
      refine Or.inr ⟨hone, fun b hb => ?_⟩
      have hmem := (h.hash b (hash, 0)).1 hb
      rw [hat] at hmem
      cases hmem
  | cons b rest =>
      rw [hat] at hone
      exact Or.inl ⟨b, hone, (h.hash b (hash, 0)).2 (hat ▸ List.mem_cons_self)⟩

omit [DecidableEq η] in
/-- **The cached prefix**: each of its blocks is cached under the hash of its place, and nothing is cached under the
next hash, if there is one. -/
theorem PoolInv.hitLoop (h : PoolInv pool free held) (hashes : List η) :
    (∀ {k : ℕ} {b : KVCacheBlock}, (KVCacheManager.hitLoop pool hashes)[k]? = some b →
      ∃ hash, hashes[k]? = some hash ∧ pool.blockHash b = some (hash, 0)) ∧
    (KVCacheManager.hitLoop pool hashes).length ≤ hashes.length ∧
    ∀ hash, hashes[(KVCacheManager.hitLoop pool hashes).length]? = some hash →
      ∀ b, pool.blockHash b ≠ some (hash, 0) := by
  induction hashes with
  | nil => exact ⟨nofun, Nat.le_refl _, nofun⟩
  | cons hash hashes ih =>
      rw [KVCacheManager.hitLoop]
      rcases h.getCachedBlock hash with ⟨b, hget, hb⟩ | ⟨hget, hnone⟩
      · simp only [hget]
        refine ⟨fun {k c} hk => ?_, Nat.succ_le_succ ih.2.1, fun hash' hhash' => ?_⟩
        · cases k with
          | zero =>
              cases hk
              exact ⟨hash, rfl, hb⟩
          | succ k => exact ih.1 hk
        · exact ih.2.2 hash' hhash'
      · simp only [hget]
        refine ⟨nofun, Nat.zero_le _, fun hash' hhash' => ?_⟩
        cases hhash'
        exact hnone

end

/-! ### Allocation -/

/-- A request the scheduler may ask for: it is not empty, not too long, and its hashes are those of its full blocks,
in their order. -/
structure Request.WellFormed (depth : η → ℕ) (m : KVCacheManager η) (request : Request η) : Prop where
  pos : 0 < request.numTokens
  le : request.numTokens ≤ m.maxModelLen
  hashes : request.numTokens / m.blockSize ≤ request.blockHashes.length
  depths : request.blockHashes.map depth = List.range request.blockHashes.length

section
variable {m : KVCacheManager η} {request : Request η} {id : String} {blocks free : List KVCacheBlock}
  {depth : η → ℕ} {numTokens : ℕ}

omit [DecidableEq η] in
/-- The hashes of a request are of their places. -/
theorem Request.WellFormed.depth_eq (hr : request.WellFormed depth m) {i : ℕ} {hash : η}
    (hi : request.blockHashes[i]? = some hash) : depth hash = i := by
  have hlt : i < request.blockHashes.length := (List.getElem?_eq_some_iff.1 hi).1
  have hmap := congrArg (fun l => l[i]?) hr.depths
  simpa [hi, List.getElem?_range hlt] using hmap

omit [DecidableEq η] in
/-- How many blocks have to be allocated. -/
theorem getNumBlocksToAllocate_eq (h : blocks = [] ∨ m.numCachedBlock.get? id = none) :
    m.getNumBlocksToAllocate id numTokens blocks =
      .ok (cdiv numTokens m.blockSize - (blocks.length + (m.getBlocks id).length) +
        KVCacheManager.getNumEvictableBlocks m.blockPool blocks) := by
  rw [KVCacheManager.getNumBlocksToAllocate]
  cases hget : m.numCachedBlock.get? id with
  | none => rfl
  | some n =>
      obtain rfl : blocks = [] := h.resolve_right (by rw [hget]; exact Option.some_ne_none n)
      simp [KVCacheManager.getNumEvictableBlocks]

/-- Further blocks are allocated behind those of the table. -/
theorem ManagerInv.allocateNewBlocks (h : ManagerInv depth m free)
    (hroom : cdiv numTokens m.blockSize - (m.getBlocks id).length ≤ free.length) :
    ∃ newBlocks m' free', m.allocateNewBlocks id numTokens = .ok (newBlocks, m') ∧ ManagerInv depth m' free' ∧
      m'.reqToBlocks = m.reqToBlocks.set id (m.getBlocks id ++ newBlocks) ∧
      newBlocks.length = cdiv numTokens m.blockSize - (m.getBlocks id).length ∧
      m'.numCachedBlock = m.numCachedBlock ∧ m'.config = m.config := by
  rcases Nat.lt_or_ge (m.getBlocks id).length (cdiv numTokens m.blockSize) with hlt | hge
  · obtain ⟨m', happend, hinv, htables, hcached, hconfig⟩ := h.appendNewBlocks id hroom
    refine ⟨_, m', _, ?_, hinv, htables, ?_, hcached, hconfig⟩
    · rw [KVCacheManager.allocateNewBlocks]
      have hsub : (cdiv numTokens m.blockSize : ℤ) - (m.getBlocks id).length =
          (cdiv numTokens m.blockSize - (m.getBlocks id).length : ℕ) := by omega
      rw [hsub, if_neg (by omega)]
      exact happend
    · rw [List.length_take]
      omega
  · refine ⟨[], m.extendBlocks id [], free, ?_, h.extendNone id, rfl, by rw [List.length_nil]; omega, rfl, rfl⟩
    rw [KVCacheManager.allocateNewBlocks, if_pos (by omega)]

/-- The cached prefix is put into the table of a new request, with blocks for the tokens of the connector. -/
theorem ManagerInv.allocateNewComputedBlocks (h : ManagerInv depth m free) {numLocal : ℕ} (numExternal : ℕ)
    (hempty : m.getBlocks id = []) (hnone : m.numCachedBlock.get? id = none)
    (hcached : ∀ {k b}, blocks[k]? = some b → ∃ hash, m.blockPool.blockHash b = some (hash, 0) ∧ depth hash = k)
    (hlocal : blocks.length * m.blockSize = numLocal)
    (hroom : cdiv (numLocal + numExternal) m.blockSize - blocks.length +
      KVCacheManager.getNumEvictableBlocks m.blockPool blocks ≤ free.length) :
    ∃ m' free' taken, m.allocateNewComputedBlocks id blocks numLocal numExternal = .ok m' ∧
      ManagerInv depth m' free' ∧ m'.reqToBlocks = m.reqToBlocks.set id (blocks ++ taken) ∧
      taken.length = cdiv (numLocal + numExternal) m.blockSize - blocks.length ∧
      free'.length + taken.length + KVCacheManager.getNumEvictableBlocks m.blockPool blocks = free.length ∧
      m'.config = m.config := by
  obtain ⟨m₁, free₁, htouch, hinv, hfree, htables, hcachedBlock, hconfig⟩ :=
    h.touchComputedBlocks hempty hnone hcached
  have hblockSize : m₁.blockSize = m.blockSize := by
    simp only [KVCacheManager.config, Prod.mk.injEq] at hconfig
    exact hconfig.2.2.2.1
  have hget : m₁.getBlocks id = blocks := by
    rw [KVCacheManager.getBlocks, htables, PyDict.get?_set_self, Option.getD_some]
  have hunfold : m.allocateNewComputedBlocks id blocks numLocal numExternal = (do
      let m ← m.touchComputedBlocks id blocks
      if 0 < numExternal then
        let r ← m.appendNewBlocks id
          ((cdiv (numLocal + numExternal) m.blockSize : ℤ) - (m.getBlocks id).length)
        .ok r.2
      else .ok m) := by
    rw [KVCacheManager.allocateNewComputedBlocks, hnone]
    simp only [hempty, List.length_nil, ne_eq, not_true_eq_false, if_false]
  rw [hunfold, htouch]
  rcases Nat.eq_zero_or_pos numExternal with rfl | hext
  · have hzero : cdiv (numLocal + 0) m.blockSize - blocks.length = 0 := by
      rw [Nat.add_zero, ← hlocal, cdiv_mul h.blockSize, Nat.sub_self]
    refine ⟨m₁, free₁, [], rfl, hinv, by rw [htables, List.append_nil], hzero.symm, by simpa using hfree, hconfig⟩
  · -- the blocks for these tokens come behind the cached ones
    have hle : blocks.length ≤ cdiv (numLocal + numExternal) m.blockSize := by
      by_contra hcon
      have := (cdiv_le_iff h.blockSize (k := blocks.length)).1 (Nat.le_of_not_le hcon)
      omega
    obtain ⟨m₂, happend, hinv', htables', -, hconfig'⟩ := hinv.appendNewBlocks id
      (n := cdiv (numLocal + numExternal) m.blockSize - blocks.length) (by omega)
    refine ⟨m₂, _, free₁.take (cdiv (numLocal + numExternal) m.blockSize - blocks.length), ?_, hinv', ?_, ?_, ?_,
      hconfig'.trans hconfig⟩
    · have hsub : (cdiv (numLocal + numExternal) m₁.blockSize : ℤ) - (m₁.getBlocks id).length =
          (cdiv (numLocal + numExternal) m.blockSize - blocks.length : ℕ) := by
        rw [hget, hblockSize]
        omega
      change (if 0 < numExternal then
        (m₁.appendNewBlocks id ((cdiv (numLocal + numExternal) m₁.blockSize : ℤ) - (m₁.getBlocks id).length)) >>=
          fun r => Except.ok r.2
        else Except.ok m₁ : Except PyError _) = _
      rw [if_pos hext, hsub, happend]
      rfl
    · rw [htables', hget, htables, PyDict.set_set]
    · rw [List.length_take]
      omega
    · rw [List.length_drop, List.length_take]
      omega

/-- The blocks `allocate_slots` asks for. -/
def KVCacheManager.blocksNeeded (m : KVCacheManager η) (request : Request η) (computed : List KVCacheBlock)
    (numTokensNeedSlot : ℕ) : ℕ :=
  cdiv numTokensNeedSlot m.blockSize - (computed.length + (m.getBlocks request.requestId).length) +
    getNumEvictableBlocks m.blockPool computed

/-- The cached prefix and the blocks of the connector, where there are any. -/
theorem ManagerInv.appendComputed (h : ManagerInv depth m free) (id : String) (numTokens numLocal : ℕ)
    {numExternal : ℕ}
    (hfresh : blocks ≠ [] ∨ 0 < numExternal → m.getBlocks id = [] ∧ m.numCachedBlock.get? id = none ∧
      blocks.length * m.blockSize = numLocal)
    (hcached : ∀ {k b}, blocks[k]? = some b → ∃ hash, m.blockPool.blockHash b = some (hash, 0) ∧ depth hash = k)
    (hneed : blocks ≠ [] ∨ 0 < numExternal → numLocal + numExternal ≤ numTokens)
    (hroom : cdiv numTokens m.blockSize - (blocks.length + (m.getBlocks id).length) +
      KVCacheManager.getNumEvictableBlocks m.blockPool blocks ≤ free.length) :
    ∃ m' free' taken, m.appendComputed id blocks numLocal numExternal = .ok m' ∧ ManagerInv depth m' free' ∧
      (∀ id', id' ≠ id → m'.reqToBlocks.get? id' = m.reqToBlocks.get? id') ∧
      m'.getBlocks id = m.getBlocks id ++ blocks ++ taken ∧ (numExternal = 0 → taken = []) ∧
      cdiv numTokens m.blockSize - (m'.getBlocks id).length ≤ free'.length ∧ m'.config = m.config := by
  by_cases hsome : blocks ≠ [] ∨ 0 < numExternal
  · obtain ⟨hempty, hnone, hlocal⟩ := hfresh hsome
    have hle : cdiv (numLocal + numExternal) m.blockSize ≤ cdiv numTokens m.blockSize := by
      rw [cdiv_le_iff h.blockSize]
      exact Nat.le_trans (hneed hsome) ((cdiv_le_iff h.blockSize).1 (Nat.le_refl _))
    rw [hempty, List.length_nil, Nat.add_zero] at hroom
    obtain ⟨m', free', taken, hcall, hinv, htables, hlen, hfree, hconfig⟩ :=
      h.allocateNewComputedBlocks numExternal hempty hnone hcached hlocal (by omega)
    have hget : m'.getBlocks id = blocks ++ taken := by
      rw [KVCacheManager.getBlocks, htables, PyDict.get?_set_self, Option.getD_some]
    refine ⟨m', free', taken, ?_, hinv, fun id' hid => ?_, ?_, fun hzero => ?_, ?_, hconfig⟩
    · rw [KVCacheManager.appendComputed, if_pos hsome, hcall]
    · rw [htables, PyDict.get?_set_ne _ _ hid]
    · rw [hget, hempty, List.nil_append]
    · rw [hzero, Nat.add_zero, ← hlocal, cdiv_mul h.blockSize, Nat.sub_self] at hlen
      exact List.length_eq_zero_iff.1 hlen
    · rw [hget, List.length_append]
      omega
  · rw [not_or, not_not] at hsome
    obtain ⟨rfl, hzero⟩ := hsome
    refine ⟨m, free, [], ?_, h, fun _ _ => rfl, by rw [List.append_nil, List.append_nil], fun _ => rfl, ?_, rfl⟩
    · rw [KVCacheManager.appendComputed, if_neg (by simp [hzero])]
    · rw [List.length_nil, Nat.zero_add] at hroom
      omega

/-- The end of `allocate_slots`: full blocks are cached, unless caching is off or put off. -/
def KVCacheManager.cacheAllocated (m : KVCacheManager η) (request : Request η) (newBlocks : List KVCacheBlock)
    (numTokens : ℕ) (delayCacheBlocks : Bool) : Except PyError (Option (List KVCacheBlock) × KVCacheManager η) :=
  if ¬ m.enableCaching ∨ delayCacheBlocks then .ok (some newBlocks, m)
  else m.cacheGroupBlocks request numTokens >>= fun m => .ok (some newBlocks, m)

/-- `allocate_slots`, where there is something to allocate, and it is known how many blocks that takes. -/
theorem allocateSlots_eq {numNew numNewComputed numLookahead numExternal numTokensNeedSlot needed : ℕ} {delay : Bool}
    (hslot : numTokensNeedSlot = min (min (request.numComputedTokens + numNewComputed + numExternal)
      m.maxModelLen + numNew + numLookahead) m.maxModelLen)
    (hpos : 0 < numNew ∨ 0 < numExternal)
    (hneeded : m.getNumBlocksToAllocate request.requestId numTokensNeedSlot blocks = .ok needed) :
    m.allocateSlots request numNew numNewComputed blocks numLookahead numExternal delay =
      if m.blockPool.getNumFreeBlocks < needed then .ok (none, m)
      else
        m.appendComputed request.requestId blocks (request.numComputedTokens + numNewComputed) numExternal >>= fun m' =>
          m'.allocateNewBlocks request.requestId numTokensNeedSlot >>= fun r =>
            r.2.cacheAllocated request r.1 (min (min (request.numComputedTokens + numNewComputed + numExternal)
              m.maxModelLen + numNew) request.numTokens) delay := by
  have hguard : ¬ (numNew = 0 ∧ numExternal = 0) := by omega
  rw [KVCacheManager.allocateSlots, if_neg hguard]
  simp only [← hslot, hneeded]
  rfl

/-- The blocks that are found, those for what comes from elsewhere, and new ones are put behind the table. -/
theorem ManagerInv.appendSlots (h : ManagerInv depth m free) (id : String) (numTokens numLocal : ℕ)
    {numExternal : ℕ}
    (hfresh : blocks ≠ [] ∨ 0 < numExternal → m.getBlocks id = [] ∧ m.numCachedBlock.get? id = none ∧
      blocks.length * m.blockSize = numLocal)
    (hcached : ∀ {k b}, blocks[k]? = some b → ∃ hash, m.blockPool.blockHash b = some (hash, 0) ∧ depth hash = k)
    (hneed : blocks ≠ [] ∨ 0 < numExternal → numLocal + numExternal ≤ numTokens)
    (hroom : cdiv numTokens m.blockSize - (blocks.length + (m.getBlocks id).length) +
      KVCacheManager.getNumEvictableBlocks m.blockPool blocks ≤ free.length) :
    ∃ m₁ m' free' taken newBlocks, m.appendComputed id blocks numLocal numExternal = .ok m₁ ∧
      m₁.allocateNewBlocks id numTokens = .ok (newBlocks, m') ∧ ManagerInv depth m' free' ∧
      (∀ id', id' ≠ id → m'.reqToBlocks.get? id' = m.reqToBlocks.get? id') ∧
      m'.getBlocks id = m.getBlocks id ++ blocks ++ taken ++ newBlocks ∧ (numExternal = 0 → taken = []) ∧
      cdiv numTokens m.blockSize ≤ (m'.getBlocks id).length ∧ m'.config = m.config := by
  obtain ⟨m₁, free₁, taken, happend, hinv₁, hother₁, hget₁, htaken, hroom, hconfig₁⟩ :=
    h.appendComputed id numTokens numLocal hfresh hcached hneed hroom
  have hsize : m₁.blockSize = m.blockSize := congrArg (fun config => config.2.2.2.1) hconfig₁
  rw [← hsize] at hroom
  obtain ⟨newBlocks, m₂, free₂, hnew, hinv₂, htables₂, hlen, -, hconfig₂⟩ := hinv₁.allocateNewBlocks hroom
  have hget₂ : m₂.getBlocks id = m₁.getBlocks id ++ newBlocks := by
    rw [KVCacheManager.getBlocks, htables₂, PyDict.get?_set_self, Option.getD_some]
  refine ⟨m₁, m₂, free₂, taken, newBlocks, happend, hnew, hinv₂, fun id' hid => ?_, ?_, htaken, ?_,
    hconfig₂.trans hconfig₁⟩
  · rw [htables₂, PyDict.get?_set_ne _ _ hid, hother₁ id' hid]
  · rw [hget₂, hget₁]
  · rw [hget₂, List.length_append, hlen, hsize]
    omega

/-- **What is allocated may be cached at once**, with nothing else changed. -/
theorem ManagerInv.cacheAllocated (h : ManagerInv depth m free) (newBlocks : List KVCacheBlock) (delay : Bool)
    (hdepth : ∀ {i hash}, request.blockHashes[i]? = some hash → depth hash = i)
    (hhashes : numTokens / m.blockSize ≤ request.blockHashes.length)
    (hfull : numTokens / m.blockSize ≤ (m.getBlocks request.requestId).length) :
    ∃ m', m.cacheAllocated request newBlocks numTokens delay = .ok (some newBlocks, m') ∧ ManagerInv depth m' free ∧
      m'.reqToBlocks = m.reqToBlocks ∧ m'.config = m.config := by
  rw [KVCacheManager.cacheAllocated]
  by_cases hskip : ¬ m.enableCaching ∨ delay
  · exact ⟨m, if_pos hskip, h, rfl, rfl⟩
  · rw [if_neg hskip]
    rw [not_or, not_not] at hskip
    obtain ⟨m', hcache, hinv, htables, hconfig⟩ := h.cacheGroupBlocks hskip.1 hhashes hdepth hfull
    exact ⟨m', by rw [hcache]; rfl, hinv, htables, hconfig⟩

/-- **Slots are allocated, or there is not enough room**, and then nothing has changed. -/
theorem ManagerInv.allocateSlots (h : ManagerInv depth m free) (hr : request.WellFormed depth m)
    (numNew numNewComputed numLookahead numExternal : ℕ) (delay : Bool) {numTokensNeedSlot : ℕ}
    (hslot : numTokensNeedSlot = min (min (request.numComputedTokens + numNewComputed + numExternal)
      m.maxModelLen + numNew + numLookahead) m.maxModelLen)
    (hpos : 0 < numNew ∨ 0 < numExternal)
    (hfresh : blocks ≠ [] ∨ 0 < numExternal → m.getBlocks request.requestId = [] ∧
      m.numCachedBlock.get? request.requestId = none ∧ request.numComputedTokens = 0 ∧
      numNewComputed + numExternal ≤ request.numTokens)
    (hlocal : blocks.length * m.blockSize = numNewComputed)
    (hcached : ∀ {k b}, blocks[k]? = some b →
      ∃ hash, m.blockPool.blockHash b = some (hash, 0) ∧ depth hash = k) :
    (free.length < m.blocksNeeded request blocks numTokensNeedSlot ∧
      m.allocateSlots request numNew numNewComputed blocks numLookahead numExternal delay = .ok (none, m)) ∨
    m.blocksNeeded request blocks numTokensNeedSlot ≤ free.length ∧ ∃ newBlocks m' free' taken,
      m.allocateSlots request numNew numNewComputed blocks numLookahead numExternal delay =
        .ok (some newBlocks, m') ∧ ManagerInv depth m' free' ∧
      m'.getBlocks request.requestId = m.getBlocks request.requestId ++ blocks ++ taken ++ newBlocks ∧
      (numExternal = 0 → taken = []) ∧
      numTokensNeedSlot ≤ (m'.getBlocks request.requestId).length * m.blockSize ∧
      (∀ id, id ≠ request.requestId → m'.reqToBlocks.get? id = m.reqToBlocks.get? id) ∧ m'.config = m.config := by
  have hneeded : m.getNumBlocksToAllocate request.requestId numTokensNeedSlot blocks =
      .ok (m.blocksNeeded request blocks numTokensNeedSlot) :=
    getNumBlocksToAllocate_eq <| by
      by_cases hnil : blocks = []
      · exact Or.inl hnil
      · exact Or.inr (hfresh (Or.inl hnil)).2.1
  rw [allocateSlots_eq hslot hpos hneeded, h.pool.numFree_eq]
  rcases Nat.lt_or_ge free.length (m.blocksNeeded request blocks numTokensNeedSlot) with hlt | hge
  · exact Or.inl ⟨hlt, if_pos (by omega)⟩
  refine Or.inr ⟨hge, ?_⟩
  rw [if_neg (by omega)]
  obtain ⟨m₁, m₂, free₂, taken, newBlocks, happend, hnew, hinv, hother, hget, htaken, hrequired, hconfig⟩ :=
    h.appendSlots request.requestId numTokensNeedSlot (request.numComputedTokens + numNewComputed) (fun hsome => by
      obtain ⟨h₁, h₂, h₃, -⟩ := hfresh hsome
      exact ⟨h₁, h₂, by omega⟩) hcached (fun hsome => by
      obtain ⟨-, -, h₃, h₄⟩ := hfresh hsome
      have := hr.le
      omega) hge
  rw [happend]
  change ∃ _ _ _ _, (m₁.allocateNewBlocks request.requestId numTokensNeedSlot >>= _) = _ ∧ _
  rw [hnew]
  -- what is cached has slots
  have hsize : m₂.blockSize = m.blockSize := congrArg (fun config => config.2.2.2.1) hconfig
  generalize hnumCached : min (min (request.numComputedTokens + numNewComputed + numExternal) m.maxModelLen + numNew)
    request.numTokens = numCached
  have hslots := (cdiv_le_iff h.blockSize).1 hrequired
  have hfull : numCached / m₂.blockSize ≤ (m₂.getBlocks request.requestId).length := by
    have hle : numCached ≤ numTokensNeedSlot := by
      have := hr.le
      omega
    rw [hsize]
    refine Nat.div_le_of_le_mul ?_
    rw [Nat.mul_comm]
    exact Nat.le_trans hle hslots
  have hhashes : numCached / m₂.blockSize ≤ request.blockHashes.length := by
    rw [hsize]
    exact Nat.le_trans (Nat.div_le_div_right (by omega)) hr.hashes
  obtain ⟨m₃, hcache, hinv₃, htables₃, hconfig₃⟩ :=
    hinv.cacheAllocated newBlocks delay (fun hi => hr.depth_eq hi) hhashes hfull
  have hget₃ : m₃.getBlocks request.requestId = m₂.getBlocks request.requestId := by
    rw [KVCacheManager.getBlocks, htables₃, KVCacheManager.getBlocks]
  refine ⟨newBlocks, m₃, free₂, taken, hcache, hinv₃, ?_, htaken, ?_, fun id hid => ?_, hconfig₃.trans hconfig⟩
  · rw [hget₃, hget]
  · rw [hget₃]
    exact hslots
  · rw [htables₃, hother id hid]

omit [DecidableEq η] in
/-- **The prefix of a request that is found**: its first blocks that are cached, but for the last of them with
speculative decoding, and never all tokens of the request. -/
theorem ManagerInv.getComputedBlocks (h : ManagerInv depth m free) (hr : request.WellFormed depth m) :
    ∃ (hits : ℕ) (blocks : List KVCacheBlock), m.getComputedBlocks request = .ok (blocks, blocks.length * m.blockSize) ∧
      blocks.length * m.blockSize < request.numTokens ∧
      blocks.length = (if m.useEagle then hits - 1 else hits) ∧
      (∀ {k : ℕ} {b : KVCacheBlock}, blocks[k]? = some b →
        ∃ hash, request.blockHashes[k]? = some hash ∧ m.blockPool.blockHash b = some (hash, 0)) ∧
      (m.enableCaching = true → request.skipReadingPrefixCache = false →
        hits ≤ (request.numTokens - 1) / m.blockSize ∧
        (∀ k < hits, ∃ hash b, request.blockHashes[k]? = some hash ∧
          m.blockPool.blockHash b = some (hash, 0)) ∧
        (hits < (request.numTokens - 1) / m.blockSize →
          ∀ hash, request.blockHashes[hits]? = some hash → ∀ b, m.blockPool.blockHash b ≠ some (hash, 0))) := by
  by_cases hskip : ¬ m.enableCaching ∨ request.skipReadingPrefixCache
  · refine ⟨0, [], by rw [KVCacheManager.getComputedBlocks, if_pos hskip]; simp, by simpa using hr.pos, by simp,
      nofun, fun hcaching hread => ?_⟩
    rw [hcaching, hread] at hskip
    simp at hskip
  have hpos := hr.pos
  have hmax : ((request.numTokens : ℤ) - 1) / m.blockSize = ((request.numTokens - 1) / m.blockSize : ℕ) := by
    have hpred : (request.numTokens : ℤ) - 1 = (request.numTokens - 1 : ℕ) := by omega
    rw [hpred, Int.natCast_ediv]
  obtain ⟨hat, hlen, hnext⟩ := h.pool.hitLoop
    (request.blockHashes.take ((request.numTokens - 1) / m.blockSize))
  generalize hhits : KVCacheManager.hitLoop m.blockPool
    (request.blockHashes.take ((request.numTokens - 1) / m.blockSize)) = hits at hat hlen hnext
  have hcomputed : m.getComputedBlocks request =
      .ok (if m.useEagle ∧ hits ≠ [] then hits.dropLast else hits,
        (if m.useEagle ∧ hits ≠ [] then hits.dropLast else hits).length * m.blockSize) := by
    rw [KVCacheManager.getComputedBlocks, if_neg hskip, KVCacheManager.findLongestCacheHit]
    simp only [hmax, Int.toNat_natCast, hhits]
    rw [if_neg (Int.not_lt.2 (Int.natCast_nonneg _))]
  have hle : hits.length ≤ (request.numTokens - 1) / m.blockSize := by
    rw [List.length_take] at hlen
    omega
  -- what is dropped for speculative decoding is the last block only
  obtain ⟨hlength, hinit⟩ : (if m.useEagle ∧ hits ≠ [] then hits.dropLast else hits).length =
        (if m.useEagle then hits.length - 1 else hits.length) ∧
      ∀ {k : ℕ} {b : KVCacheBlock},
        (if m.useEagle ∧ hits ≠ [] then hits.dropLast else hits)[k]? = some b → hits[k]? = some b := by
    by_cases heagle : m.useEagle = true
    · by_cases hnil : hits = []
      · simp [heagle, hnil]
      · refine ⟨by simp [heagle, hnil], fun {k b} hk => ?_⟩
        rw [if_pos ⟨heagle, hnil⟩] at hk
        exact getElem?_of_isInit (List.dropLast_prefix hits) hk
    · simp [heagle]
  refine ⟨hits.length, _, hcomputed, ?_, hlength, fun {k b} hk => ?_, fun _ _ => ⟨hle, fun k hk => ?_,
    fun hlt hash hhash => ?_⟩⟩
  · have hless : (if m.useEagle ∧ hits ≠ [] then hits.dropLast else hits).length ≤
        (request.numTokens - 1) / m.blockSize := by
      rw [hlength]
      split <;> omega
    have hmul := Nat.le_trans (Nat.mul_le_mul_right m.blockSize hless) (Nat.div_mul_le_self _ _)
    omega
  · obtain ⟨hash, hhash, hb⟩ := hat (hinit hk)
    exact ⟨hash, getElem?_of_isInit (List.take_prefix _ _) hhash, hb⟩
  · obtain ⟨hash, hhash, hb⟩ := hat (List.getElem?_eq_getElem hk)
    exact ⟨hash, _, getElem?_of_isInit (List.take_prefix _ _) hhash, hb⟩
  · refine hnext hash ?_
    rw [List.getElem?_take_of_lt hlt]
    exact hhash

end

/-! ### Calls that are allowed -/

/-- The tokens of a request that are found in the cache. -/
def KVCacheManager.numHitTokens (m : KVCacheManager η) (request : Request η) : ℕ :=
  match m.getComputedBlocks request with
  | .ok (_, numTokens) => numTokens
  | .error _ => 0

/-- **The calls of the scheduler.**  A request that waits has no blocks, and the connector finds no more tokens than
there are; a request has as many slots as tokens are cached of it; the blocks that are evicted are of the pool. -/
def ManagerCall.Allowed (depth : η → ℕ) (m : KVCacheManager η) : ManagerCall η → Prop
  | .schedule request numNewTokens _ numExternalComputedTokens _ =>
      request.WellFormed depth m ∧ request.numComputedTokens = 0 ∧ m.getBlocks request.requestId = [] ∧
        m.numCachedBlock.get? request.requestId = none ∧ (0 < numNewTokens ∨ 0 < numExternalComputedTokens) ∧
        m.numHitTokens request + numExternalComputedTokens ≤ request.numTokens
  | .allocate request numNewTokens _ => request.WellFormed depth m ∧ 0 < numNewTokens
  | .cache request numComputedTokens =>
      request.WellFormed depth m ∧ numComputedTokens ≤ request.numTokens ∧
        numComputedTokens ≤ (m.getBlocks request.requestId).length * m.blockSize
  | .evict blockIds => ∀ blockId ∈ blockIds, blockId < m.blockPool.numGpuBlocks
  | .free _ | .reset | .commonPrefix _ => True

instance (depth : η → ℕ) (m : KVCacheManager η) (request : Request η) :
    Decidable (request.WellFormed depth m) :=
  decidable_of_iff (0 < request.numTokens ∧ request.numTokens ≤ m.maxModelLen ∧
      request.numTokens / m.blockSize ≤ request.blockHashes.length ∧
      request.blockHashes.map depth = List.range request.blockHashes.length)
    ⟨fun ⟨h₁, h₂, h₃, h₄⟩ => ⟨h₁, h₂, h₃, h₄⟩, fun ⟨h₁, h₂, h₃, h₄⟩ => ⟨h₁, h₂, h₃, h₄⟩⟩

instance (depth : η → ℕ) (m : KVCacheManager η) (c : ManagerCall η) : Decidable (c.Allowed depth m) :=
  match c with
  | .schedule request numNewTokens _ numExternalComputedTokens _ =>
      inferInstanceAs (Decidable (request.WellFormed depth m ∧ request.numComputedTokens = 0 ∧
        m.getBlocks request.requestId = [] ∧ m.numCachedBlock.get? request.requestId = none ∧
        (0 < numNewTokens ∨ 0 < numExternalComputedTokens) ∧
        m.numHitTokens request + numExternalComputedTokens ≤ request.numTokens))
  | .allocate request numNewTokens _ =>
      inferInstanceAs (Decidable (request.WellFormed depth m ∧ 0 < numNewTokens))
  | .cache request numComputedTokens =>
      inferInstanceAs (Decidable (request.WellFormed depth m ∧ numComputedTokens ≤ request.numTokens ∧
        numComputedTokens ≤ (m.getBlocks request.requestId).length * m.blockSize))
  | .evict blockIds =>
      inferInstanceAs (Decidable (∀ blockId ∈ blockIds, blockId < m.blockPool.numGpuBlocks))
  | .free _ | .reset | .commonPrefix _ => inferInstanceAs (Decidable True)

section
variable {m : KVCacheManager η} {request : Request η} {free : List KVCacheBlock} {depth : η → ℕ}

/-- A request that waits gets its cached prefix and slots for the rest, or nothing. -/
theorem ManagerInv.schedule (h : ManagerInv depth m free) {numNew numLookahead numExternal : ℕ} {async : Bool}
    (hc : (ManagerCall.schedule request numNew numLookahead numExternal async).Allowed depth m) :
    m.call (.schedule request numNew numLookahead numExternal async) = .ok (.slots none, m) ∨
    ∃ newBlocks m' free',
      m.call (.schedule request numNew numLookahead numExternal async) = .ok (.slots (some newBlocks), m') ∧
      ManagerInv depth m' free' ∧
      min (min (m.numHitTokens request + numExternal) m.maxModelLen + numNew + numLookahead) m.maxModelLen ≤
        (m'.getBlocks request.requestId).length * m.blockSize ∧
      (∀ id, id ≠ request.requestId → m'.reqToBlocks.get? id = m.reqToBlocks.get? id) ∧
      m'.config = m.config := by
  obtain ⟨hr, hzero, hempty, hnone, hpos, hle⟩ := hc
  obtain ⟨-, blocks, hcomputed, -, -, hat, -⟩ := h.getComputedBlocks hr
  have hhits : m.numHitTokens request = blocks.length * m.blockSize := by
    rw [KVCacheManager.numHitTokens, hcomputed]
  rw [hhits] at hle
  have hcall : m.call (.schedule request numNew numLookahead numExternal async) =
      (m.allocateSlots request numNew (blocks.length * m.blockSize) blocks numLookahead numExternal async).map
        fun r => (.slots r.1, r.2) := by
    rw [KVCacheManager.call, hcomputed]
    rfl
  rw [hcall]
  rcases h.allocateSlots hr numNew _ numLookahead numExternal async rfl hpos
    (fun _ => ⟨hempty, hnone, hzero, hle⟩) rfl (fun hk => by
      obtain ⟨hash, hhash, hb⟩ := hat hk
      exact ⟨hash, hb, hr.depth_eq hhash⟩) with
    ⟨-, hslots⟩ | ⟨-, newBlocks, m', free', taken, hslots, hinv, -, -, hroom, hother, hconfig⟩
  · exact Or.inl (by rw [hslots]; rfl)
  · refine Or.inr ⟨newBlocks, m', free', by rw [hslots]; rfl, hinv, ?_, hother, hconfig⟩
    rw [hzero, Nat.zero_add] at hroom
    rw [hhits]
    exact hroom

/-- A request that runs gets slots behind those it has, or nothing. -/
theorem ManagerInv.allocate (h : ManagerInv depth m free) {numNew : ℕ} (numLookahead : ℕ)
    (hr : request.WellFormed depth m) (hpos : 0 < numNew) :
    (free.length < cdiv (min (min request.numComputedTokens m.maxModelLen + numNew + numLookahead)
        m.maxModelLen) m.blockSize - (m.getBlocks request.requestId).length ∧
      m.call (.allocate request numNew numLookahead) = .ok (.slots none, m)) ∨
    ∃ newBlocks m' free',
      m.call (.allocate request numNew numLookahead) = .ok (.slots (some newBlocks), m') ∧
      ManagerInv depth m' free' ∧
      m'.getBlocks request.requestId = m.getBlocks request.requestId ++ newBlocks ∧
      min (min request.numComputedTokens m.maxModelLen + numNew + numLookahead) m.maxModelLen ≤
        (m'.getBlocks request.requestId).length * m.blockSize ∧
      (∀ id, id ≠ request.requestId → m'.reqToBlocks.get? id = m.reqToBlocks.get? id) ∧
      m'.config = m.config := by
  have hcall : m.call (.allocate request numNew numLookahead) =
      (m.allocateSlots request numNew 0 [] numLookahead 0 false).map fun r => (.slots r.1, r.2) := rfl
  rw [hcall]
  rcases h.allocateSlots hr numNew 0 numLookahead 0 false rfl (Or.inl hpos)
    (fun hcon => by simp at hcon) (show ([] : List KVCacheBlock).length * _ = 0 from Nat.zero_mul _) nofun with
    ⟨hlt, hslots⟩ | ⟨-, newBlocks, m', free', taken, hslots, hinv, hget, htaken, hroom, hother, hconfig⟩
  · refine Or.inl ⟨?_, by rw [hslots]; rfl⟩
    simpa [KVCacheManager.blocksNeeded, KVCacheManager.getNumEvictableBlocks] using hlt
  · refine Or.inr ⟨newBlocks, m', free', by rw [hslots]; rfl, hinv, ?_, hroom, hother, hconfig⟩
    rw [hget, htaken rfl, List.append_nil, List.append_nil]

/-- Blocks that were loaded are cached. -/
theorem ManagerInv.cacheBlocks (h : ManagerInv depth m free) {numComputed : ℕ}
    (hc : (ManagerCall.cache request numComputed).Allowed depth m) :
    ∃ m', m.call (.cache request numComputed) = .ok (.done, m') ∧ ManagerInv depth m' free ∧
      m'.reqToBlocks = m.reqToBlocks ∧ m'.config = m.config := by
  obtain ⟨hr, hle, hslots⟩ := hc
  by_cases hcaching : m.enableCaching = true
  · obtain ⟨m', hcache, hinv, htables, hconfig⟩ := h.cacheGroupBlocks hcaching
      (Nat.le_trans (Nat.div_le_div_right hle) hr.hashes) (fun hi => hr.depth_eq hi)
      (Nat.div_le_of_le_mul (by rwa [Nat.mul_comm] at hslots))
    refine ⟨m', ?_, hinv, htables, hconfig⟩
    rw [KVCacheManager.call, KVCacheManager.cacheBlocks, if_pos hcaching, hcache]
    rfl
  · refine ⟨m, ?_, h, rfl, rfl⟩
    rw [KVCacheManager.call, KVCacheManager.cacheBlocks, if_neg hcaching]
    rfl

/-- **A call that is allowed does not fail**, and the manager is as it should be afterwards. -/
theorem ManagerInv.call (h : ManagerInv depth m free) {c : ManagerCall η} (hc : c.Allowed depth m) :
    ∃ answer m' free', m.call c = .ok (answer, m') ∧ ManagerInv depth m' free' ∧ m'.config = m.config := by
  cases c with
  | schedule request numNew numLookahead numExternal async =>
      rcases h.schedule hc with hcall | ⟨newBlocks, m', free', hcall, hinv, -, -, hconfig⟩
      · exact ⟨_, m, free, hcall, h, rfl⟩
      · exact ⟨_, m', free', hcall, hinv, hconfig⟩
  | allocate request numNew numLookahead =>
      rcases h.allocate numLookahead hc.1 hc.2 with
        ⟨-, hcall⟩ | ⟨newBlocks, m', free', hcall, hinv, -, -, -, hconfig⟩
      · exact ⟨_, m, free, hcall, h, rfl⟩
      · exact ⟨_, m', free', hcall, hinv, hconfig⟩
  | cache request numComputed =>
      obtain ⟨m', hcall, hinv, -, hconfig⟩ := h.cacheBlocks hc
      exact ⟨_, m', free, hcall, hinv, hconfig⟩
  | free requestId =>
      obtain ⟨m', free', hfree, hinv, -, hconfig⟩ := h.freeTable requestId
      exact ⟨.done, m', free', by rw [KVCacheManager.call, hfree]; rfl, hinv, hconfig⟩
  | evict blockIds =>
      obtain ⟨m', hevict, hinv, -, hconfig⟩ := h.evictBlocks hc
      exact ⟨.done, m', free, by rw [KVCacheManager.call, hevict]; rfl, hinv, hconfig⟩
  | reset =>
      obtain ⟨hinv, -, hconfig⟩ := h.resetPrefixCache
      exact ⟨_, _, free, rfl, hinv, hconfig⟩
  | commonPrefix id =>
      refine ⟨_, _, free, rfl, ?_, ?_⟩
      · rw [KVCacheManager.getNumCommonPrefixBlocks]
        split
        · exact h.extendNone id
        · exact h
      · rw [KVCacheManager.getNumCommonPrefixBlocks]
        split
        · rfl
        · rfl

end

end KVCache
end InfiniKV
