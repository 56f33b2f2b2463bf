/-
**Scheduler and worker compute the same keys.**

The scheduler rewrites the whole prompt by the hashes of its multimodal items, cuts off the last
tokens, and has the rest looked up.  The worker gets the tokens that were scheduled so far, which may
end before the prompt does or go on behind it; they are cut first and rewritten then, and cut again to
what was found.  A placeholder that runs over the end of the one sequence may lie inside the other.  Up
to the end of the shorter sequence both sides have the same tokens all the same, and a chunk that ends
there has the same key.

Main definitions:

* `InfiniKV.Request.Tracked` — a tracker that follows a request.

Main results:

* `InfiniKV.Request.Tracked.take_eq` — **both sides have the same tokens**, as far as both go;
* `InfiniKV.worker_keys_eq_lookup_keys` — **both sides compute the same keys**.
-/

import InfiniKV.SchedulerConnector

set_option relaxedAutoImplicit false
set_option autoImplicit false

namespace InfiniKV

/-- The tracker follows the request: its tokens are a prefix of those of the request, and it has the
multimodal items of the request. -/
structure Request.Tracked (r : Request) (t : RequestTracker) : Prop where
  tokenIds : t.tokenIds <+: r.allTokenIds
  mm : t.mmHashes.zip t.mmPositions = mmHashesOf r.mmFeatures

/-! ### The same tokens -/

/-- What is looked up is the rewritten prompt, cut somewhere. -/
theorem SchedulerConnector.tokensToLookup_eq_ok {c : SchedulerConnector} {r : Request} {X : List ℤ}
    (h : c.tokensToLookup r = .ok X) :
    ∃ Z n, applyMmHashesToTokenIds r.promptTokenIds (mmHashesOf r.mmFeatures) = .ok Z ∧
      n ≤ Z.length ∧ X = Z.take n := by
  obtain ⟨Z, hZ, hX⟩ := bind_eq_ok.1 h
  simp only [Except.ok.injEq] at hX
  subst hX
  split
  · exact ⟨Z, _, hZ, Nat.sub_le _ _, rfl⟩
  · exact ⟨Z, Z.length, hZ, le_rfl, List.take_length.symm⟩

/-- **Both sides have the same tokens**, as far as both go: `Y` is what the worker gets, `Z` is the
rewritten prompt. -/
theorem Request.Tracked.take_eq {r : Request} {t : RequestTracker} (htracked : r.Tracked t) {n : ℕ}
    {Y Z : List ℤ}
    (hY : applyMmHashesToTokenIds (t.tokenIds.take n) (t.mmHashes.zip t.mmPositions) = .ok Y)
    (hZ : applyMmHashesToTokenIds r.promptTokenIds (mmHashesOf r.mmFeatures) = .ok Z) {q : ℕ}
    (hqY : q ≤ Y.length) (hqZ : q ≤ Z.length) : Y.take q = Z.take q := by
  have hlenY := length_applyMmHashesToTokenIds hY
  have hlenZ := length_applyMmHashesToTokenIds hZ
  rw [List.length_take] at hlenY
  -- before they are rewritten, both are a part of the tokens of the request
  have hsame : (t.tokenIds.take n).take q = r.promptTokenIds.take q := by
    have htokens := List.prefix_iff_eq_take.1 htracked.tokenIds
    have hprompt : r.promptTokenIds.take q = r.allTokenIds.take q := by
      rw [Request.allTokenIds, List.take_append_of_le_length (by omega)]
    rw [hprompt, htokens, List.take_take, List.take_take]
    congr 1
    omega
  have hcutY := applyMmHashesToTokenIds_take q hY
  have hcutZ := applyMmHashesToTokenIds_take q hZ
  rw [hsame, htracked.mm, hcutZ, Except.ok.injEq] at hcutY
  exact hcutY.symm

/-! ### The same keys -/

/-- Two sequences that agree up to the end of a chunk, where it ends at the same place in both, have
the same key for it. -/
theorem ChunkedTokenDatabase.keyAt_eq_of_take_eq (db : ChunkedTokenDatabase) {X Y : List ℤ} {j : ℕ}
    (hX : j < db.numChunks X) (hY : j < db.numChunks Y)
    (hstop : min (j * db.chunkSize + db.chunkSize) X.length =
      min (j * db.chunkSize + db.chunkSize) Y.length)
    (h : X.take (min (j * db.chunkSize + db.chunkSize) X.length) =
      Y.take (min (j * db.chunkSize + db.chunkSize) X.length)) : db.keyAt X j = db.keyAt Y j := by
  refine db.keyAt_congr hX hY ?_
  rw [← List.take_eq_take_min, hstop, ← List.take_eq_take_min] at h
  rwa [Nat.succ_mul]

section Keys

variable (config : InfiniKVEngineConfig) (metadata metadata' : InfiniKVEngineMetadata)
  {c : SchedulerConnector} {r : Request} {t t' : RequestTracker} {blockSize chunkSize : ℕ}
  {l : Option LoadSpec} {skipSave discard : Bool} {m : ReqMeta} {X : List ℤ}

/-- **Both sides compute the same keys.**  The lookup is answered by an engine with `metadata`, the
worker has an engine with `metadata'`; it cuts the tokens of the request to the `n` that were found, and
masks some of them.  Chunks of the same range have the same hash, and the same key if it is the same
engine; and every whole chunk inside both sequences that is not masked is computed on both sides. -/
theorem worker_keys_eq_lookup_keys (htracked : r.Tracked t)
    (hmeta : ReqMeta.fromRequestTracker t blockSize chunkSize l skipSave discard = .ok (some m, t'))
    (hlookup : c.tokensToLookup r = .ok X) (n : ℕ) (mask : Option (List Bool)) :
    (∀ (s e : ℕ) (k k' : CacheEngineKey),
      (s, e, k) ∈ ((ChunkedTokenDatabase.init config metadata).processTokens ⟨.tensor, X⟩ none).yields →
      (s, e, k') ∈ ((ChunkedTokenDatabase.init config metadata').processTokens
        ⟨.tensor, m.tokenIds.take n⟩ mask).yields →
      k.chunkHash = k'.chunkHash ∧ (metadata = metadata' → k = k')) ∧
    ∀ i j : ℕ, ChunkedTokenDatabase.numFalses mask = i * config.chunkSize → i ≤ j →
      (j + 1) * config.chunkSize ≤ X.length →
      (j + 1) * config.chunkSize ≤ (m.tokenIds.take n).length →
      ∃ k k', (j * config.chunkSize, (j + 1) * config.chunkSize, k) ∈
          ((ChunkedTokenDatabase.init config metadata).processTokens ⟨.tensor, X⟩ none).yields ∧
        (j * config.chunkSize, (j + 1) * config.chunkSize, k') ∈
          ((ChunkedTokenDatabase.init config metadata').processTokens
            ⟨.tensor, m.tokenIds.take n⟩ mask).yields := by
  have hmask : ChunkedTokenDatabase.numFalses none = 0 * config.chunkSize := (Nat.zero_mul _).symm
  refine ⟨?_, ?_⟩
  · intro s e k k' hk hk'
    obtain ⟨-, -, j, -, hj, hy⟩ := (ChunkedTokenDatabase.mem_yields_tensor _).1 hk
    obtain ⟨-, -, j', -, hj', hy'⟩ := (ChunkedTokenDatabase.mem_yields_tensor _).1 hk'
    simp only [ChunkedTokenDatabase.chunkAt, Prod.mk.injEq] at hy hy'
    obtain ⟨hs, he, rfl⟩ := hy
    obtain ⟨hs', he', rfl⟩ := hy'
    have hjj : j = j' := Nat.eq_of_mul_eq_mul_right config.chunkSize_pos (hs.symm.trans hs')
    subst hjj
    have hkey : ((ChunkedTokenDatabase.init config metadata).keyAt X j) =
        (ChunkedTokenDatabase.init config metadata).keyAt (m.tokenIds.take n) j := by
      refine ChunkedTokenDatabase.keyAt_eq_of_take_eq _ hj hj' (he.symm.trans he') ?_
      -- the chunk ends inside both sequences
      have hmeta' := ReqMeta.fromRequestTracker_cases hmeta
      obtain ⟨Z, p, hZ, hp, rfl⟩ := SchedulerConnector.tokensToLookup_eq_ok hlookup
      rw [← he]
      rw [List.length_take] at he he'
      rcases hmeta' with ⟨-, -, hnone, -⟩ | ⟨m', hm', -, hY, -⟩
      · cases hnone
      · cases hm'
        have htake := htracked.take_eq hY hZ (q := e) (by omega) (by omega)
        rw [List.take_take, List.take_take, min_eq_left (by omega), min_eq_left (by omega), htake]
    have hdigest := congrArg CacheEngineKey.chunkHash hkey
    refine ⟨hdigest, ?_⟩
    rintro rfl
    exact hkey
  · intro i j hi hij hX hY
    refine ⟨(ChunkedTokenDatabase.init config metadata).keyAt X j,
      (ChunkedTokenDatabase.init config metadata').keyAt (m.tokenIds.take n) j, ?_, ?_⟩
    · refine (ChunkedTokenDatabase.mem_yields_tensor _).2
        ⟨0, hmask, j, Nat.zero_le j, ChunkedTokenDatabase.lt_numChunks_of_le _ hX, ?_⟩
      rw [ChunkedTokenDatabase.chunkAt, ← Nat.succ_mul]
      exact congrArg (fun stop => (j * config.chunkSize, stop, _)) (min_eq_left hX).symm
    · refine (ChunkedTokenDatabase.mem_yields_tensor _).2
        ⟨i, hi, j, hij, ChunkedTokenDatabase.lt_numChunks_of_le _ hY, ?_⟩
      rw [ChunkedTokenDatabase.chunkAt, ← Nat.succ_mul]
      exact congrArg (fun stop => (j * config.chunkSize, stop, _)) (min_eq_left hY).symm

end Keys

/-! ### A placeholder that is cut -/

/-- A prompt with an image whose placeholder runs over its end, and one without a hash. -/
def imageRequest : Request where
  promptTokenIds := [5, 6, 7, 8]
  outputTokenIds := [9]
  specTokenIds := []
  mmFeatures := [⟨some ['a', 'b'], ⟨1, 9⟩⟩, ⟨none, ⟨0, 2⟩⟩]
  status := .running
  numComputedTokens := 0
  numPreemptions := 0
  isPrefillChunk := false
  priority := 0
  arrivalTime := 0

/-- A tracker of its first three tokens. -/
def imageTracker : RequestTracker := ⟨"image", [5, 6, 7], [0, 1], 0, [['a', 'b']], [⟨1, 9⟩]⟩

/-- The worker gets the first two tokens, the lookup has three, and they agree. -/
theorem worker_keys_eq_lookup_keys_image :
    ∃ m t' X, ReqMeta.fromRequestTracker imageTracker 2 2 none false true = .ok (some m, t') ∧
      (SchedulerConnector.init 2 .both true 1).tokensToLookup imageRequest = .ok X ∧
      m.tokenIds = [5, 171] ∧ X = [5, 171, 171] ∧
      ∀ (metadata : InfiniKVEngineMetadata) (s e : ℕ) (k k' : CacheEngineKey),
        (s, e, k) ∈ ((ChunkedTokenDatabase.init ⟨2, false, by decide⟩ metadata).processTokens
          ⟨.tensor, X⟩ none).yields →
        (s, e, k') ∈ ((ChunkedTokenDatabase.init ⟨2, false, by decide⟩ metadata).processTokens
          ⟨.tensor, m.tokenIds.take 2⟩ none).yields → k = k' := by
  have htracked : imageRequest.Tracked imageTracker := ⟨⟨[8, 9], rfl⟩, rfl⟩
  have hmeta : ReqMeta.fromRequestTracker imageTracker 2 2 none false true =
      .ok (some ⟨"image", [5, 171], [0, 1], [0, 1], some ⟨"image", 0, true, none, none⟩, none⟩,
        { imageTracker with numSavedTokens := 2 }) := by
    rfl
  have hlookup : (SchedulerConnector.init 2 .both true 1).tokensToLookup imageRequest =
      .ok [5, 171, 171] := by
    rfl
  refine ⟨_, _, _, hmeta, hlookup, rfl, rfl, ?_⟩
  intro metadata s e k k' hk hk'
  exact ((worker_keys_eq_lookup_keys _ metadata metadata htracked hmeta hlookup 2 none).1 s e k k' hk
    hk').2 rfl

end InfiniKV
