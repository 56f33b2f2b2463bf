/-
**What the scheduler side hands to the worker side.**

For every scheduled request the scheduler keeps a `RequestTracker` — the tokens and blocks seen so
far and the number of tokens saved — and from it builds the `ReqMeta` of a step: the tokens that may
be hashed, the block table, and what to load and to save.  Placeholder tokens of multimodal items are
overwritten by sixteen bits of the hash of the item.

Main definitions:

* `InfiniKV.LoadSpec`, `InfiniKV.SaveSpec`, `InfiniKV.ReqMeta`, `InfiniKV.InfiniKVConnectorMetadata`;
* `InfiniKV.hexHashToInt16`, `InfiniKV.applyMmHashesToTokenIds` — the rewriting of placeholders;
* `InfiniKV.RequestTracker`, with `fromNewRequest` and `update`;
* `InfiniKV.ReqMeta.fromRequestTracker` — **the metadata of a request in a step**.

Main results:

* `InfiniKV.applyMmHashesToTokenIds_take` — rewriting and truncating commute;
* `InfiniKV.ReqMeta.fromRequestTracker_cases` — what can be built from a tracker, and what becomes
  of the tracker.
-/

import InfiniKV.TaskQueue

set_option relaxedAutoImplicit false
set_option autoImplicit false

namespace InfiniKV

/-! ### Multimodal items -/

/-- The value of a hexadecimal digit. -/
def hexDigitValue (c : Char) : Option ℕ :=
  if '0' ≤ c ∧ c ≤ '9' then some (c.toNat - '0'.toNat)
  else if 'a' ≤ c ∧ c ≤ 'f' then some (c.toNat - 'a'.toNat + 10)
  else if 'A' ≤ c ∧ c ≤ 'F' then some (c.toNat - 'A'.toNat + 10)
  else none

/-- The value of hexadecimal digits, with single underscores between them. -/
def hexDigitsValue : Str → ℕ → Option ℕ
  | [], acc => some acc
  | '_' :: c :: cs, acc => (hexDigitValue c).bind fun d => hexDigitsValue cs (16 * acc + d)
  | c :: cs, acc => (hexDigitValue c).bind fun d => hexDigitsValue cs (16 * acc + d)

/-- The value of an unsigned hexadecimal literal, with or without `0x` in front. -/
def hexLiteralValue : Str → Option ℕ
  | '0' :: 'x' :: c :: cs => hexDigitsValue (c :: cs) 0
  | '0' :: 'X' :: c :: cs => hexDigitsValue (c :: cs) 0
  | [] => none
  | '_' :: _ => none
  | cs => hexDigitsValue cs 0

/-- White space, as `int` strips it off. -/
def isSpace (c : Char) : Bool := c ∈ [' ', '\t', '\n', '\r', '\x0b', '\x0c']

/-- `int(s, 16)`. -/
def intOfHex (s : Str) : Except PyError ℤ :=
  let stripped := ((s.dropWhile isSpace).reverse.dropWhile isSpace).reverse
  let value : Option ℤ := match stripped with
    | '-' :: cs => (hexLiteralValue cs).map fun n => -(n : ℤ)
    | '+' :: cs => (hexLiteralValue cs).map fun n => (n : ℤ)
    | cs => (hexLiteralValue cs).map fun n => (n : ℤ)
  match value with
  | some n => .ok n
  | none => .error (.valueError "invalid literal for int() with base 16")

/-- `hex_hash_to_int16`. -/
def hexHashToInt16 (s : Str) : Except PyError ℤ := (intOfHex s).map (· % 2 ^ 16)

/-- The place of a multimodal item in the prompt. -/
structure PlaceholderRange where
  offset : ℕ
  length : ℕ
  deriving DecidableEq

/-- A multimodal item of a request. -/
structure MultiModalFeatureSpec where
  mmHash : Option Str
  mmPosition : PlaceholderRange
  deriving DecidableEq

/-- `token_ids[start:stop] = value`. -/
def fillRange (X : List ℤ) (start stop : ℕ) (value : ℤ) : List ℤ :=
  X.mapIdx fun i x => if start ≤ i ∧ i < stop then value else x

/-- `apply_mm_hashes_to_token_ids`, over the pairs of a hash and a place. -/
def applyMmHashesToTokenIds : List ℤ → List (Str × PlaceholderRange) → Except PyError (List ℤ)
  | X, [] => .ok X
  | X, (hashStr, placeholder) :: rest =>
      if placeholder.offset ≥ X.length then applyMmHashesToTokenIds X rest
      else do
        let value ← hexHashToInt16 hashStr
        applyMmHashesToTokenIds (fillRange X placeholder.offset
          (min (placeholder.offset + placeholder.length) X.length) value) rest

@[simp] theorem length_fillRange (X : List ℤ) (start stop : ℕ) (value : ℤ) :
    (fillRange X start stop value).length = X.length := by
  simp [fillRange]

theorem length_applyMmHashesToTokenIds {X Y : List ℤ} {hs : List (Str × PlaceholderRange)}
    (h : applyMmHashesToTokenIds X hs = .ok Y) : Y.length = X.length := by
  induction hs generalizing X with
  | nil =>
      cases h
      rfl
  | cons p hs ih =>
      obtain ⟨hashStr, placeholder⟩ := p
      rw [applyMmHashesToTokenIds] at h
      split at h
      · exact ih h
      · cases hv : hexHashToInt16 hashStr with
        | error e =>
            rw [hv] at h
            cases h
        | ok value =>
            rw [hv] at h
            exact (ih h).trans (length_fillRange ..)

/-- Filling a range and truncating commute. -/
theorem take_fillRange (X : List ℤ) (n start stop : ℕ) (value : ℤ) :
    (fillRange X start (min stop X.length) value).take n =
      fillRange (X.take n) start (min stop (X.take n).length) value := by
  refine List.ext_getElem (by simp) ?_
  intro i h₁ h₂
  have hi : i < n ∧ i < X.length := by simpa using h₁
  simp only [fillRange, List.getElem_take, List.getElem_mapIdx, List.length_take]
  by_cases h : start ≤ i ∧ i < stop
  · rw [if_pos (by omega), if_pos (by omega)]
  · rw [if_neg (by omega), if_neg (by omega)]

theorem fillRange_of_length_le {X : List ℤ} {start stop : ℕ} (h : X.length ≤ start) (value : ℤ) :
    fillRange X start stop value = X := by
  refine List.ext_getElem (by simp) ?_
  intro i h₁ h₂
  simp only [fillRange, List.getElem_mapIdx]
  exact if_neg (by omega)

/-- **Rewriting and truncating commute**: what the worker rewrites after truncating is what the
scheduler rewrites, truncated. -/
theorem applyMmHashesToTokenIds_take {X Y : List ℤ} {hs : List (Str × PlaceholderRange)} (n : ℕ)
    (h : applyMmHashesToTokenIds X hs = .ok Y) :
    applyMmHashesToTokenIds (X.take n) hs = .ok (Y.take n) := by
  induction hs generalizing X with
  | nil =>
      cases h
      rfl
  | cons p hs ih =>
      obtain ⟨hashStr, placeholder⟩ := p
      rw [applyMmHashesToTokenIds] at h ⊢
      by_cases hX : placeholder.offset ≥ X.length
      · rw [if_pos hX] at h
        rw [if_pos (by rw [List.length_take]; omega)]
        exact ih h
      · rw [if_neg hX] at h
        cases hv : hexHashToInt16 hashStr with
        | error e =>
            rw [hv] at h
            cases h
        | ok value =>
            rw [hv] at h
            have hrest := ih h
            rw [take_fillRange] at hrest
            by_cases hn : placeholder.offset ≥ (X.take n).length
            · rw [if_pos hn]
              rwa [fillRange_of_length_le hn] at hrest
            · rw [if_neg hn]
              exact hrest

/-! ### Load and save specifications -/

/-- What to load for a request. -/
structure LoadSpec where
  vllmCachedTokens : ℕ
  externalCachedTokens : ℕ
  canLoad : Bool
  gpuFiles : Option (List GPUFileMetadata)
  blockIdsToLoad : Option (List ℕ)
  deriving DecidableEq

/-- What to save for a request. -/
structure SaveSpec where
  reqId : String
  skipLeadingTokens : ℕ
  canSave : Bool
  gpuFiles : Option (List GPUFileMetadata)
  blockIdsToSave : Option (List ℕ)
  deriving DecidableEq

/-- The metadata of a request in a step. -/
structure ReqMeta where
  reqId : String
  tokenIds : List ℤ
  slotMapping : List ℕ
  blockIds : List ℕ
  saveSpec : Option SaveSpec
  loadSpec : Option LoadSpec
  deriving DecidableEq

/-- The kind of a step. -/
inductive Stage where
  | prefill
  | decode
  deriving DecidableEq

/-- A stream is known by a number. -/
abbrev CudaStream := ℕ

/-- The metadata of a step. -/
structure InfiniKVConnectorMetadata where
  requests : List ReqMeta
  numTotalScheduledTokens : ℕ
  stage : Stage
  ioCount : ℕ
  saveStream : Option CudaStream
  ioTasks : Option (List IOSpec)
  deriving DecidableEq

/-! ### Trackers -/

/-- What the scheduler hands over for a request it schedules for the first time. -/
structure NewRequestData where
  reqId : String
  promptTokenIds : List ℤ
  mmFeatures : List MultiModalFeatureSpec
  blockIds : List (List ℕ)
  numComputedTokens : ℕ
  deriving DecidableEq

/-- What the scheduler side remembers of a request. -/
structure RequestTracker where
  reqId : String
  tokenIds : List ℤ
  allocatedBlockIds : List ℕ
  numSavedTokens : ℕ
  mmHashes : List Str
  mmPositions : List PlaceholderRange
  deriving DecidableEq

/-- The hashes and places of the multimodal items that have a hash. -/
def mmHashesOf (mmFeatures : List MultiModalFeatureSpec) : List (Str × PlaceholderRange) :=
  mmFeatures.filterMap fun f => f.mmHash.map fun h => (h, f.mmPosition)

namespace RequestTracker

/-- `from_new_request`. -/
def fromNewRequest (newRequest : NewRequestData) (numTokensToCompute externalCachedTokens : ℕ) :
    Except PyError RequestTracker :=
  match newRequest.blockIds with
  | [] => .error .indexError
  | unfoldedBlockIds :: _ => .ok
      { reqId := newRequest.reqId
        tokenIds := newRequest.promptTokenIds.take numTokensToCompute
        allocatedBlockIds := unfoldedBlockIds
        numSavedTokens := externalCachedTokens
        mmHashes := (mmHashesOf newRequest.mmFeatures).map (·.1)
        mmPositions := (mmHashesOf newRequest.mmFeatures).map (·.2) }

/-- `update`. -/
def update (tracker : RequestTracker) (newTokenIds : List ℤ) (newBlockIds : Option (List (List ℕ))) :
    RequestTracker :=
  { tracker with
    tokenIds := tracker.tokenIds ++ newTokenIds
    allocatedBlockIds := tracker.allocatedBlockIds ++ (match newBlockIds with
      | none => []
      | some [] => []
      | some (blockIds :: _) => blockIds) }

end RequestTracker

namespace ReqMeta

/-- **`from_request_tracker`**: the metadata, if there is anything to load or to save, and the
tracker. -/
def fromRequestTracker (tracker : RequestTracker) (blockSize externalChunkSize : ℕ)
    (loadSpec : Option LoadSpec) (skipSave discardPartialChunks : Bool) :
    Except PyError (Option ReqMeta × RequestTracker) :=
  let inputTokenLen := tracker.tokenIds.length
  let skipLeadingTokens := tracker.numSavedTokens
  let chunkBoundary := cdiv (tracker.numSavedTokens + 1) externalChunkSize * externalChunkSize
  let skipSave := skipSave || decide (inputTokenLen < chunkBoundary)
  if skipSave ∧ loadSpec = none then .ok (none, tracker)
  else
    let numTokensToSave := if discardPartialChunks then
      inputTokenLen / externalChunkSize * externalChunkSize else inputTokenLen
    let tracker' := if skipSave then tracker else { tracker with numSavedTokens := numTokensToSave }
    do
      let tokenIds ← applyMmHashesToTokenIds (tracker.tokenIds.take numTokensToSave)
        (tracker.mmHashes.zip tracker.mmPositions)
      let slots := tracker.allocatedBlockIds.flatMap fun b =>
        (List.range blockSize).map fun offset => offset + b * blockSize
      .ok (some
        { reqId := tracker.reqId
          tokenIds := tokenIds
          slotMapping := slots.take tokenIds.length
          blockIds := tracker.allocatedBlockIds
          saveSpec := some ⟨tracker.reqId, skipLeadingTokens, !skipSave, none, none⟩
          loadSpec := loadSpec.filter (·.canLoad) }, tracker')

/-- The tokens of a tracker do not reach the next chunk boundary after those saved. -/
def belowBoundary (tracker : RequestTracker) (externalChunkSize : ℕ) : Bool :=
  decide (tracker.tokenIds.length <
    cdiv (tracker.numSavedTokens + 1) externalChunkSize * externalChunkSize)

/-- The number of tokens of a tracker that may be hashed. -/
def numTokensToSave (tracker : RequestTracker) (externalChunkSize : ℕ) (discardPartialChunks : Bool) :
    ℕ :=
  if discardPartialChunks then tracker.tokenIds.length / externalChunkSize * externalChunkSize
  else tracker.tokenIds.length

theorem numTokensToSave_le (tracker : RequestTracker) (externalChunkSize : ℕ)
    (discardPartialChunks : Bool) :
    numTokensToSave tracker externalChunkSize discardPartialChunks ≤ tracker.tokenIds.length := by
  unfold numTokensToSave
  split
  · exact Nat.div_mul_le_self _ _
  · exact le_rfl

/-- A tracker that saves has more tokens to save than it has saved. -/
theorem lt_numTokensToSave {t : RequestTracker} {size : ℕ} (hsize : 0 < size)
    (h : belowBoundary t size = false) (discard : Bool) :
    t.numSavedTokens < numTokensToSave t size discard := by
  rw [belowBoundary, decide_eq_false_iff_not, not_lt] at h
  have hle : t.numSavedTokens + 1 ≤ cdiv (t.numSavedTokens + 1) size * size :=
    (cdiv_le_iff hsize).1 le_rfl
  rw [numTokensToSave]
  split
  · have hdiv : cdiv (t.numSavedTokens + 1) size ≤ t.tokenIds.length / size :=
      (Nat.le_div_iff_mul_le hsize).2 h
    exact Nat.lt_of_lt_of_le hle (Nat.mul_le_mul_right _ hdiv)
  · omega

/-- **What can be built from a tracker**: nothing, when there is nothing to save and no load spec; or
the metadata of the tokens that may be hashed, and then the tracker counts them as saved unless
nothing is to be saved. -/
theorem fromRequestTracker_cases {tracker tracker' : RequestTracker} {blockSize c : ℕ}
    {loadSpec : Option LoadSpec} {skipSave discard : Bool} {reqMeta : Option ReqMeta}
    (h : fromRequestTracker tracker blockSize c loadSpec skipSave discard = .ok (reqMeta, tracker')) :
    ((skipSave || belowBoundary tracker c) = true ∧ loadSpec = none ∧ reqMeta = none ∧
        tracker' = tracker) ∨
      ∃ m, reqMeta = some m ∧ m.reqId = tracker.reqId ∧
        applyMmHashesToTokenIds (tracker.tokenIds.take (numTokensToSave tracker c discard))
          (tracker.mmHashes.zip tracker.mmPositions) = .ok m.tokenIds ∧
        m.blockIds = tracker.allocatedBlockIds ∧
        m.saveSpec = some ⟨tracker.reqId, tracker.numSavedTokens,
          !(skipSave || belowBoundary tracker c), none, none⟩ ∧
        m.loadSpec = loadSpec.filter (·.canLoad) ∧
        tracker' = if (skipSave || belowBoundary tracker c) = true then tracker
          else { tracker with numSavedTokens := numTokensToSave tracker c discard } := by
  have heq : fromRequestTracker tracker blockSize c loadSpec skipSave discard =
      if (skipSave || belowBoundary tracker c) = true ∧ loadSpec = none then .ok (none, tracker)
      else (applyMmHashesToTokenIds (tracker.tokenIds.take (numTokensToSave tracker c discard))
        (tracker.mmHashes.zip tracker.mmPositions)).bind fun tokenIds => .ok (some
          ⟨tracker.reqId, tokenIds, (tracker.allocatedBlockIds.flatMap fun b =>
            (List.range blockSize).map fun offset => offset + b * blockSize).take tokenIds.length,
            tracker.allocatedBlockIds, some ⟨tracker.reqId, tracker.numSavedTokens,
              !(skipSave || belowBoundary tracker c), none, none⟩, loadSpec.filter (·.canLoad)⟩,
          if (skipSave || belowBoundary tracker c) = true then tracker
          else { tracker with numSavedTokens := numTokensToSave tracker c discard }) := rfl
  rw [heq] at h
  split at h
  · rename_i hskip
    cases h
    exact Or.inl ⟨hskip.1, hskip.2, rfl, rfl⟩
  · refine Or.inr ?_
    cases happly : applyMmHashesToTokenIds
        (tracker.tokenIds.take (numTokensToSave tracker c discard))
        (tracker.mmHashes.zip tracker.mmPositions) with
    | error e =>
        rw [happly] at h
        cases h
    | ok tokenIds =>
        rw [happly] at h
        cases h
        exact ⟨_, rfl, rfl, rfl, rfl, rfl, rfl, rfl⟩

end ReqMeta

end InfiniKV
