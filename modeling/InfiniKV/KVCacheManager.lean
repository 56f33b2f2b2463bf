/-
**The manager of the KV cache blocks of the requests.**

The manager keeps a table of blocks for each request.  A request that is scheduled for the first time gets the
blocks that are cached under the longest prefix of its hashes, then blocks for the tokens that the connector
loads and for those that are to be computed; a request that runs gets further blocks at the end of its table.
Full blocks are cached under the hashes of the request, and how many of its blocks are cached is remembered.

The model is of one group of full attention layers, whose block size is the one of the hashes: no token of the
prefix is skipped.

Main definitions:

* `InfiniKV.KVCache.KVCacheManager` — the manager, with `getComputedBlocks`, `allocateSlots`, `cacheBlocks`,
  `free`, `evictBlocks`, `resetPrefixCache` and `getNumCommonPrefixBlocks`;
* `InfiniKV.KVCache.ManagerCall` — a call of the scheduler to the manager;
* `InfiniKV.KVCache.KVCacheManager.call` — what it answers, and the manager afterwards.
-/

import InfiniKV.BlockPool
import InfiniKV.PyDict

set_option relaxedAutoImplicit false
set_option autoImplicit false

namespace InfiniKV
namespace KVCache

variable {η : Type} [DecidableEq η]

/-- What the manager reads of a `Request`, where `η` are the block hashes. -/
structure Request (η : Type) where
  requestId : String
  numTokens : ℕ
  numComputedTokens : ℕ
  blockHashes : List η
  skipReadingPrefixCache : Bool

/-- `KVCacheManager`, with its `UnitaryKVCacheCoordinator` and the `FullAttentionManager` of the one group. -/
structure KVCacheManager (η : Type) where
  maxModelLen : ℕ
  enableCaching : Bool
  useEagle : Bool
  blockSize : ℕ
  blockPool : BlockPool η
  reqToBlocks : PyDict String (List KVCacheBlock)
  numCachedBlock : PyDict String ℕ

namespace KVCacheManager

/-- `KVCacheManager(kv_cache_config, max_model_len, …)`. -/
def new (numBlocks maxModelLen blockSize : ℕ) (enableCaching useEagle : Bool) :
    Except PyError (KVCacheManager η) := do
  let pool ← BlockPool.new numBlocks enableCaching
  .ok {
    maxModelLen := maxModelLen
    enableCaching := enableCaching
    useEagle := useEagle
    blockSize := blockSize
    blockPool := pool
    reqToBlocks := .empty
    numCachedBlock := .empty }

/-- The table of a request: `req_to_blocks.get(request_id) or []`. -/
def getBlocks (m : KVCacheManager η) (requestId : String) : List KVCacheBlock :=
  (m.reqToBlocks.get? requestId).getD []

/-- `self.req_to_blocks[request_id]`, to which `blocks` are appended: the entry is there afterwards, also where
there are none. -/
def extendBlocks (m : KVCacheManager η) (requestId : String) (blocks : List KVCacheBlock) : KVCacheManager η :=
  { m with reqToBlocks := m.reqToBlocks.set requestId (m.getBlocks requestId ++ blocks) }

/-! ### Blocks that are cached -/

/-- The loop of `find_longest_cache_hit`. -/
def hitLoop (pool : BlockPool η) : List η → List KVCacheBlock
  | [] => []
  | blockHash :: rest =>
      match pool.getCachedBlock blockHash [0] with
      | some (cached :: _) => cached :: hitLoop pool rest
      | _ => []

/-- `find_longest_cache_hit`, where the hit is aligned to the block size. -/
def findLongestCacheHit (m : KVCacheManager η) (blockHashes : List η) (maxLength : ℤ) :
    Except PyError (List KVCacheBlock × ℕ) :=
  let maxNumBlocks := maxLength / m.blockSize
  if maxNumBlocks < 0 then
    .error (.valueError "Stop argument for islice() must be None or an integer: 0 <= x <= sys.maxsize.")
  else
    let computed := hitLoop m.blockPool (blockHashes.take maxNumBlocks.toNat)
    let computed := if m.useEagle ∧ computed ≠ [] then computed.dropLast else computed
    .ok (computed, computed.length * m.blockSize)

/-- `get_computed_blocks`. -/
def getComputedBlocks (m : KVCacheManager η) (request : Request η) :
    Except PyError (List KVCacheBlock × ℕ) :=
  if ¬ m.enableCaching ∨ request.skipReadingPrefixCache then .ok ([], 0)
  else m.findLongestCacheHit request.blockHashes ((request.numTokens : ℤ) - 1)

/-! ### Blocks that are allocated -/

/-- `_get_num_evictable_blocks`. -/
def getNumEvictableBlocks (pool : BlockPool η) (blocks : List KVCacheBlock) : ℕ :=
  blocks.countP fun block => pool.refCnt block = 0 ∧ pool.isNull block = false

/-- `get_num_blocks_to_allocate`, where the differences are at least zero. -/
def getNumBlocksToAllocate (m : KVCacheManager η) (requestId : String) (numTokens : ℕ)
    (newComputedBlocks : List KVCacheBlock) : Except PyError ℕ :=
  let numRequiredBlocks := cdiv numTokens m.blockSize
  let numReqBlocks := (m.getBlocks requestId).length
  match m.numCachedBlock.get? requestId with
  | some _ =>
      if newComputedBlocks.length ≠ 0 then .error (.assertionError "")
      else .ok (numRequiredBlocks - numReqBlocks)
  | none =>
      let numNewBlocks := numRequiredBlocks - (newComputedBlocks.length + numReqBlocks)
      .ok (numNewBlocks + getNumEvictableBlocks m.blockPool newComputedBlocks)

/-- The computed blocks of a new request are touched, and put into its table. -/
def touchComputedBlocks (m : KVCacheManager η) (requestId : String) (newComputedBlocks : List KVCacheBlock) :
    Except PyError (KVCacheManager η) :=
  if m.enableCaching then do
    let pool ← m.blockPool.touch newComputedBlocks
    .ok { ({ m with blockPool := pool }).extendBlocks requestId newComputedBlocks with
      numCachedBlock := m.numCachedBlock.set requestId newComputedBlocks.length }
  else if newComputedBlocks ≠ [] then
    .error (.assertionError "Computed blocks should be empty when prefix caching is disabled")
  else
    .ok { m.extendBlocks requestId newComputedBlocks with
      numCachedBlock := m.numCachedBlock.set requestId newComputedBlocks.length }

/-- `get_new_blocks`, and the blocks are appended to the table. -/
def appendNewBlocks (m : KVCacheManager η) (requestId : String) (numBlocks : ℤ) :
    Except PyError (List KVCacheBlock × KVCacheManager η) := do
  let (newBlocks, pool) ← m.blockPool.getNewBlocks numBlocks
  .ok (newBlocks, ({ m with blockPool := pool }).extendBlocks requestId newBlocks)

/-- `allocate_new_computed_blocks`. -/
def allocateNewComputedBlocks (m : KVCacheManager η) (requestId : String)
    (newComputedBlocks : List KVCacheBlock) (numLocalComputedTokens numExternalComputedTokens : ℕ) :
    Except PyError (KVCacheManager η) :=
  match m.numCachedBlock.get? requestId with
  | some _ => if newComputedBlocks.length ≠ 0 then .error (.assertionError "") else .ok m
  | none =>
      if (m.getBlocks requestId).length ≠ 0 then .error (.assertionError "")
      else do
        let m ← m.touchComputedBlocks requestId newComputedBlocks
        if 0 < numExternalComputedTokens then
          let numTotalComputedTokens := numLocalComputedTokens + numExternalComputedTokens
          let (_, m) ← m.appendNewBlocks requestId
            ((cdiv numTotalComputedTokens m.blockSize : ℤ) - (m.getBlocks requestId).length)
          .ok m
        else .ok m

/-- `allocate_new_blocks`. -/
def allocateNewBlocks (m : KVCacheManager η) (requestId : String) (numTokens : ℕ) :
    Except PyError (List KVCacheBlock × KVCacheManager η) :=
  let numNewBlocks : ℤ := (cdiv numTokens m.blockSize : ℤ) - (m.getBlocks requestId).length
  if numNewBlocks ≤ 0 then .ok ([], m.extendBlocks requestId [])
  else m.appendNewBlocks requestId numNewBlocks

/-- `cache_blocks`, of the manager of the group. -/
def cacheGroupBlocks (m : KVCacheManager η) (request : Request η) (numTokens : ℕ) :
    Except PyError (KVCacheManager η) :=
  let numCachedBlocks := (m.numCachedBlock.get? request.requestId).getD 0
  let numFullBlocks := numTokens / m.blockSize
  if numFullBlocks ≤ numCachedBlocks then .ok m
  else do
    let pool ← m.blockPool.cacheFullBlocks request.blockHashes (m.getBlocks request.requestId) numCachedBlocks
      numFullBlocks 0
    .ok { ({ m with blockPool := pool }).extendBlocks request.requestId [] with
      numCachedBlock := m.numCachedBlock.set request.requestId numFullBlocks }

/-- `cache_blocks`. -/
def cacheBlocks (m : KVCacheManager η) (request : Request η) (numComputedTokens : ℕ) :
    Except PyError (KVCacheManager η) :=
  if m.enableCaching then m.cacheGroupBlocks request numComputedTokens else .ok m

/-- Are there computed blocks to append, or external tokens to allocate blocks for? -/
def appendComputed (m : KVCacheManager η) (requestId : String) (newComputedBlocks : List KVCacheBlock)
    (numLocalComputedTokens numExternalComputedTokens : ℕ) : Except PyError (KVCacheManager η) :=
  if newComputedBlocks ≠ [] ∨ 0 < numExternalComputedTokens then
    m.allocateNewComputedBlocks requestId newComputedBlocks numLocalComputedTokens numExternalComputedTokens
  else .ok m

/-- `allocate_slots`: the new blocks, or `none` where there are not enough free blocks. -/
def allocateSlots (m : KVCacheManager η) (request : Request η) (numNewTokens numNewComputedTokens : ℕ)
    (newComputedBlocks : List KVCacheBlock) (numLookaheadTokens numExternalComputedTokens : ℕ)
    (delayCacheBlocks : Bool) : Except PyError (Option (List KVCacheBlock) × KVCacheManager η) := do
  if numNewTokens = 0 ∧ numExternalComputedTokens = 0 then
    throw (.valueError
      "num_new_tokens must be greater than 0 when there are no external computed tokens")
  let numLocalComputedTokens := request.numComputedTokens + numNewComputedTokens
  let totalComputedTokens := min (numLocalComputedTokens + numExternalComputedTokens) m.maxModelLen
  let numTokensMainModel := totalComputedTokens + numNewTokens
  let numTokensNeedSlot := min (numTokensMainModel + numLookaheadTokens) m.maxModelLen
  let numBlocksToAllocate ← m.getNumBlocksToAllocate request.requestId numTokensNeedSlot newComputedBlocks
  if m.blockPool.getNumFreeBlocks < numBlocksToAllocate then
    return (none, m)
  let m ← m.appendComputed request.requestId newComputedBlocks numLocalComputedTokens
    numExternalComputedTokens
  let (newBlocks, m) ← m.allocateNewBlocks request.requestId numTokensNeedSlot
  if ¬ m.enableCaching ∨ delayCacheBlocks then
    return (some newBlocks, m)
  let m ← m.cacheGroupBlocks request (min numTokensMainModel request.numTokens)
  return (some newBlocks, m)

/-! ### Blocks that are given back -/

/-- `free`. -/
def free (m : KVCacheManager η) (requestId : String) : Except PyError (KVCacheManager η) := do
  let pool ← m.blockPool.freeBlocks (m.getBlocks requestId).reverse
  .ok { m with
    blockPool := pool
    reqToBlocks := m.reqToBlocks.erase requestId
    numCachedBlock := m.numCachedBlock.erase requestId }

/-- `evict_blocks`. -/
def evictBlocks (m : KVCacheManager η) (blockIds : List ℕ) : Except PyError (KVCacheManager η) := do
  let pool ← m.blockPool.evictBlocks blockIds
  .ok { m with blockPool := pool }

/-- `reset_prefix_cache`. -/
def resetPrefixCache (m : KVCacheManager η) : Bool × KVCacheManager η :=
  (m.blockPool.resetPrefixCache.1, { m with blockPool := m.blockPool.resetPrefixCache.2 })

/-- `get_num_common_prefix_blocks`. -/
def getNumCommonPrefixBlocks (m : KVCacheManager η) (runningRequestId : String) : ℕ × KVCacheManager η :=
  if m.enableCaching then
    let m := m.extendBlocks runningRequestId []
    (((m.getBlocks runningRequestId).takeWhile fun block =>
      m.blockPool.refCnt block = m.reqToBlocks.entries.length).length, m)
  else (0, m)

end KVCacheManager

/-! ### Calls -/

/-- A call of the scheduler.  A request that waits is looked up in the cache before its slots are allocated;
one that runs, or whose blocks have been loaded in the meantime, is not. -/
inductive ManagerCall (η : Type) where
  | schedule (request : Request η) (numNewTokens numLookaheadTokens numExternalComputedTokens : ℕ)
      (loadKvAsync : Bool)
  | allocate (request : Request η) (numNewTokens numLookaheadTokens : ℕ)
  | cache (request : Request η) (numComputedTokens : ℕ)
  | free (requestId : String)
  | evict (blockIds : List ℕ)
  | reset
  | commonPrefix (runningRequestId : String)

/-- What a call answers. -/
inductive Answer where
  | slots (newBlocks : Option (List KVCacheBlock))
  | done
  | resetSuccessful (success : Bool)
  | numCommonPrefixBlocks (n : ℕ)
  deriving DecidableEq

/-- A call, with its answer. -/
def KVCacheManager.call (m : KVCacheManager η) : ManagerCall η → Except PyError (Answer × KVCacheManager η)
  | .schedule request numNewTokens numLookaheadTokens numExternalComputedTokens loadKvAsync => do
      let (computed, numComputed) ← m.getComputedBlocks request
      let (newBlocks, m) ← m.allocateSlots request numNewTokens numComputed computed numLookaheadTokens
        numExternalComputedTokens loadKvAsync
      .ok (.slots newBlocks, m)
  | .allocate request numNewTokens numLookaheadTokens => do
      let (newBlocks, m) ← m.allocateSlots request numNewTokens 0 [] numLookaheadTokens 0 false
      .ok (.slots newBlocks, m)
  | .cache request numComputedTokens => do
      let m ← m.cacheBlocks request numComputedTokens
      .ok (.done, m)
  | .free requestId => do
      let m ← m.free requestId
      .ok (.done, m)
  | .evict blockIds => do
      let m ← m.evictBlocks blockIds
      .ok (.done, m)
  | .reset => .ok (.resetSuccessful m.resetPrefixCache.1, m.resetPrefixCache.2)
  | .commonPrefix runningRequestId =>
      .ok (.numCommonPrefixBlocks (m.getNumCommonPrefixBlocks runningRequestId).1,
        (m.getNumCommonPrefixBlocks runningRequestId).2)

end KVCache
end InfiniKV
