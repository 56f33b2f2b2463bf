/-
**Save windows.**

For each scheduled request `build_connector_meta` advances the tracker by the tokens and blocks of the step
and builds the metadata of the request from it.  The metadata lets the worker save the tokens from the saved
ones on, aligned down to a chunk, to the end of what may be hashed, and the tracker counts these as saved.

Counted in full chunks, the windows fit together whether partial chunks are discarded or not: a call saves
the chunks from the first one that is not saved to the last one that is full, and afterwards the first one
that is not saved is the larger of the two.

Main definitions:

* `InfiniKV.TrackerCall`, `InfiniKV.ReqMeta.buildMetas` — the calls of `from_request_tracker` for one request;
* `InfiniKV.CachedRound`, `InfiniKV.ReqMeta.cachedRequestMetas` — the rounds of `build_connector_meta` for one;
* `InfiniKV.ReqMeta.HasChunk` — a chunk lies in the unmasked window of metadata that may be saved.

Main results:

* `InfiniKV.ReqMeta.hasChunk_iff_storeMask` — the window is what the store mask leaves;
* `InfiniKV.ReqMeta.saved_div_call`, `hasChunk_call_iff` — **one call**;
* `InfiniKV.ReqMeta.hasChunk_iff_first` — a chunk is in the window of the first call that finds it full;
* `InfiniKV.ReqMeta.saveWindows_cover_once` — **each chunk is saved once**, and the saved tokens grow;
* `InfiniKV.ReqMeta.hasChunk_rounds_iff` — a chunk is in the window of the first round that finds it full.
-/

import InfiniKV.SchedulerConnector
import InfiniKV.Worker

set_option relaxedAutoImplicit false
set_option autoImplicit false

namespace InfiniKV

/-- What a step brings for a request: the tokens and the blocks its tracker is advanced by, and the load
spec that is left for it. -/
structure TrackerCall where
  newTokenIds : List ℤ
  newBlockIds : Option (List (List ℕ))
  loadSpec : Option LoadSpec

/-- A round of `build_connector_meta` for a cached request: the requests of the scheduler, what it has scheduled, and the
request. -/
structure CachedRound where
  requests : Dict Request
  output : SchedulerOutput
  req : CachedRequest

namespace ReqMeta

/-- The metadata may be saved. -/
def CanSave (m : ReqMeta) : Prop := ∃ s, m.saveSpec = some s ∧ s.canSave = true

/-- Chunk `j` lies in the unmasked window of metadata that may be saved. -/
def HasChunk (chunkSize j : ℕ) (m : ReqMeta) : Prop :=
  ∃ s, m.saveSpec = some s ∧ s.canSave = true ∧
    s.skipLeadingTokens / chunkSize * chunkSize ≤ j * chunkSize ∧ (j + 1) * chunkSize ≤ m.tokenIds.length

/-- The calls for one request on an instance that is not a consumer: what each of them builds, and the
tracker it leaves. -/
def buildMetas (blockSize chunkSize : ℕ) (discardPartialChunks : Bool) :
    RequestTracker → List TrackerCall → Except PyError (List (Option ReqMeta × RequestTracker))
  | _, [] => .ok []
  | tracker, call :: calls => do
      let (reqMeta, tracker) ← fromRequestTracker (tracker.update call.newTokenIds call.newBlockIds)
        blockSize chunkSize call.loadSpec false discardPartialChunks
      let rest ← buildMetas blockSize chunkSize discardPartialChunks tracker calls
      .ok ((reqMeta, tracker) :: rest)

/-- Rounds of `build_connector_meta` for cached requests: what each of them builds, and the connector it leaves. -/
def cachedRequestMetas : SchedulerConnector → List CachedRound →
    Except PyError (List (Option ReqMeta × SchedulerConnector))
  | _, [] => .ok []
  | con, round :: rounds => do
      let (reqMeta, con) ← con.cachedRequestMeta round.requests round.output round.req
      let rest ← cachedRequestMetas con rounds
      .ok ((reqMeta, con) :: rest)

variable {t t' : RequestTracker} {m : ReqMeta} {om : Option ReqMeta} {blockSize c j : ℕ}
  {loadSpec : Option LoadSpec} {discard : Bool} {calls : List TrackerCall}
  {results : List (Option ReqMeta × RequestTracker)}

/-! ### The window and the store mask -/

theorem getElem?_skipMask {v n p : ℕ} : (skipMask v n)[p]? = some true ↔ v ≤ p ∧ p < n := by
  rcases Nat.lt_or_ge p (min v n) with hlt | hge
  · rw [skipMask, List.getElem?_append_left (by rwa [List.length_replicate]),
      List.getElem?_replicate_of_lt hlt]
    simp only [Option.some.injEq, Bool.false_eq_true, false_iff]
    omega
  · rw [skipMask, List.getElem?_append_right (by rwa [List.length_replicate]), List.length_replicate,
      List.getElem?_replicate]
    split_ifs with h
    · simp only [true_iff]
      omega
    · simp only [false_iff]
      omega

/-- **The window is what the store mask leaves**: the tokens of a chunk are all unmasked exactly if the chunk
lies in the window. -/
theorem hasChunk_iff_storeMask (hc : 0 < c) {s : SaveSpec} (hs : m.saveSpec = some s)
    (hsave : s.canSave = true) :
    m.HasChunk c j ↔
      ∀ p, j * c ≤ p → p < (j + 1) * c → (Worker.storeMask c m s)[p]? = some true := by
  have hlt : j * c < (j + 1) * c := Nat.mul_lt_mul_of_pos_right (Nat.lt_succ_self j) hc
  constructor
  · rintro ⟨s', hs', -, hstart, hend⟩ p hp hp'
    cases hs.symm.trans hs'
    exact getElem?_skipMask.2 ⟨by omega, by omega⟩
  · intro hmask
    have hfirst := getElem?_skipMask.1 (hmask _ le_rfl hlt)
    have hlast := getElem?_skipMask.1 (hmask ((j + 1) * c - 1) (by omega) (by omega))
    exact ⟨s, hs, hsave, hfirst.1, by omega⟩

/-! ### One call -/

/-- The next chunk boundary, in chunks. -/
theorem belowBoundary_eq_false_iff (hc : 0 < c) :
    belowBoundary t c = false ↔ t.numSavedTokens / c < t.tokenIds.length / c := by
  have hceil : cdiv (t.numSavedTokens + 1) c = t.numSavedTokens / c + 1 := by
    rw [cdiv, show t.numSavedTokens + 1 + c - 1 = t.numSavedTokens + c by omega,
      Nat.add_div_right _ hc]
  rw [belowBoundary, decide_eq_false_iff_not, not_lt, hceil, Nat.lt_iff_add_one_le,
    Nat.le_div_iff_mul_le hc]

/-- A chunk is among the tokens to save as soon as it is full. -/
theorem le_numTokensToSave_iff (hc : 0 < c) :
    (j + 1) * c ≤ numTokensToSave t c discard ↔ (j + 1) * c ≤ t.tokenIds.length := by
  rw [numTokensToSave]
  split_ifs
  · rw [← Nat.le_div_iff_mul_le hc, ← Nat.le_div_iff_mul_le hc, Nat.mul_div_cancel _ hc]
  · exact Iff.rfl

theorem numTokensToSave_div (hc : 0 < c) :
    numTokensToSave t c discard / c = t.tokenIds.length / c := by
  rw [numTokensToSave]
  split_ifs
  · exact Nat.mul_div_cancel _ hc
  · rfl

/-- **What a call leaves**: the tokens are unchanged, and the first chunk that is not saved is the first one
that is not full, unless it was beyond it before. -/
theorem saved_div_call (hc : 0 < c)
    (h : fromRequestTracker t blockSize c loadSpec false discard = .ok (om, t')) :
    t'.tokenIds = t.tokenIds ∧
      t'.numSavedTokens / c = max (t.numSavedTokens / c) (t.tokenIds.length / c) := by
  have hbelow := belowBoundary_eq_false_iff (t := t) hc
  have hcases : t' = if belowBoundary t c = true then t
      else { t with numSavedTokens := numTokensToSave t c discard } := by
    rcases fromRequestTracker_cases h with ⟨hskip, -, -, rfl⟩ | ⟨m, -, -, -, -, -, -, rfl⟩
    · rw [if_pos (by simpa using hskip)]
    · rw [Bool.false_or]
  cases hb : belowBoundary t c with
  | true =>
      rw [hb, if_pos rfl] at hcases
      subst hcases
      have hle : ¬ t'.numSavedTokens / c < t'.tokenIds.length / c := by
        rw [← hbelow, hb]
        exact Bool.noConfusion
      exact ⟨rfl, (max_eq_left (not_lt.1 hle)).symm⟩
  | false =>
      rw [hb, if_neg Bool.false_ne_true] at hcases
      subst hcases
      exact ⟨rfl, (numTokensToSave_div hc).trans (max_eq_right (hbelow.1 hb).le).symm⟩

/-- **What a call lets the worker save**: the chunks from the first one that is not saved on, as far as they
are full. -/
theorem hasChunk_call_iff (hc : 0 < c)
    (h : fromRequestTracker t blockSize c loadSpec false discard = .ok (om, t')) :
    (∃ m, om = some m ∧ m.HasChunk c j) ↔
      t.numSavedTokens / c ≤ j ∧ (j + 1) * c ≤ t.tokenIds.length := by
  have hbelow := belowBoundary_eq_false_iff (t := t) hc
  rw [← Nat.le_div_iff_mul_le hc]
  rcases fromRequestTracker_cases h with ⟨hskip, -, rfl, -⟩ | ⟨m, rfl, -, htokens, -, hsave, -, -⟩
  · -- nothing is built when no chunk has become full
    have hle : ¬ t.numSavedTokens / c < t.tokenIds.length / c := by
      rw [← hbelow, show belowBoundary t c = true by simpa using hskip]
      exact Bool.noConfusion
    simp only [reduceCtorEq, false_and, exists_false, false_iff]
    omega
  · have hlen : m.tokenIds.length = numTokensToSave t c discard := by
      rw [length_applyMmHashesToTokenIds htokens, List.length_take,
        min_eq_left (numTokensToSave_le t c discard)]
    have hchunk : (∃ m', some m = some m' ∧ m'.HasChunk c j) ↔
        belowBoundary t c = false ∧ t.numSavedTokens / c ≤ j ∧ j + 1 ≤ t.tokenIds.length / c := by
      simp only [Option.some.injEq, exists_eq_left', HasChunk, hsave, Bool.false_or,
        Bool.not_eq_true', hlen, le_numTokensToSave_iff hc, Nat.mul_le_mul_right_iff hc]
      rw [Nat.le_div_iff_mul_le hc]
    rw [hchunk, hbelow]
    omega

/-- **The saved tokens grow**: they never decrease, and they increase when the metadata may be saved. -/
theorem saved_call (hc : 0 < c)
    (h : fromRequestTracker t blockSize c loadSpec false discard = .ok (om, t')) :
    t.numSavedTokens ≤ t'.numSavedTokens ∧
      ∀ m, om = some m → m.CanSave → t.numSavedTokens < t'.numSavedTokens := by
  rcases fromRequestTracker_cases h with ⟨-, -, rfl, rfl⟩ | ⟨m, rfl, -, -, -, hsave, -, rfl⟩
  · exact ⟨le_rfl, by simp⟩
  · rw [Bool.false_or] at hsave ⊢
    cases hb : belowBoundary t c with
    | true =>
        rw [if_pos rfl]
        refine ⟨le_rfl, ?_⟩
        rintro m' hm ⟨s, hs, hcan⟩
        cases hm
        rw [hsave, hb] at hs
        cases hs
        exact absurd hcan (by simp)
    | false =>
        rw [if_neg Bool.false_ne_true]
        have hlt := lt_numTokensToSave hc hb discard
        exact ⟨hlt.le, fun _ _ _ => hlt⟩

/-! ### All calls of a request -/

/-- A call, and the calls after it. -/
theorem buildMetas_cons {call : TrackerCall}
    (h : buildMetas blockSize c discard t (call :: calls) = .ok results) :
    ∃ om t₁ rest, results = (om, t₁) :: rest ∧
      fromRequestTracker (t.update call.newTokenIds call.newBlockIds) blockSize c call.loadSpec false
        discard = .ok (om, t₁) ∧
      buildMetas blockSize c discard t₁ calls = .ok rest := by
  obtain ⟨⟨om, t₁⟩, hcall, h⟩ := bind_eq_ok.1 h
  obtain ⟨rest, hrest, h⟩ := bind_eq_ok.1 h
  cases h
  exact ⟨om, t₁, rest, rfl, hcall, hrest⟩

/-- Advancing a tracker leaves the saved tokens. -/
@[simp] theorem numSavedTokens_update (newTokenIds : List ℤ) (newBlockIds : Option (List (List ℕ))) :
    (t.update newTokenIds newBlockIds).numSavedTokens = t.numSavedTokens := rfl

/-- A chunk before the first one that is not saved is in no later window. -/
theorem not_hasChunk_of_saved (hc : 0 < c) (h : buildMetas blockSize c discard t calls = .ok results)
    (hj : j < t.numSavedTokens / c) : ∀ r ∈ results, ∀ m, r.1 = some m → ¬ m.HasChunk c j := by
  induction calls generalizing t results with
  | nil =>
      cases h
      simp
  | cons call calls ih =>
      obtain ⟨om, t₁, rest, rfl, hcall, hrest⟩ := buildMetas_cons h
      intro r hr m hm hchunk
      rcases List.mem_cons.1 hr with rfl | hr
      · have hlow := ((hasChunk_call_iff hc hcall).1 ⟨m, hm, hchunk⟩).1
        rw [numSavedTokens_update] at hlow
        omega
      · have hsaved := (saved_div_call hc hcall).2
        rw [numSavedTokens_update] at hsaved
        exact ih hrest (by omega) r hr m hm hchunk

/-- **A chunk is in the window of the first call that finds it full**, and of no other, if it was not saved
before. -/
theorem hasChunk_iff_first (hc : 0 < c) (h : buildMetas blockSize c discard t calls = .ok results)
    (hj : t.numSavedTokens / c ≤ j) {i : ℕ} {r : Option ReqMeta × RequestTracker}
    (hr : results[i]? = some r) :
    (∃ m, r.1 = some m ∧ m.HasChunk c j) ↔
      (j + 1) * c ≤ r.2.tokenIds.length ∧
        ∀ r' ∈ results.take i, r'.2.tokenIds.length < (j + 1) * c := by
  induction calls generalizing t results i with
  | nil =>
      cases h
      simp at hr
  | cons call calls ih =>
      obtain ⟨om, t₁, rest, rfl, hcall, hrest⟩ := buildMetas_cons h
      obtain ⟨htokens, hsaved⟩ := saved_div_call hc hcall
      have hchunk := hasChunk_call_iff (j := j) hc hcall
      rw [numSavedTokens_update] at hsaved hchunk
      cases i with
      | zero =>
          cases hr
          rw [htokens, hchunk]
          simp [hj]
      | succ i =>
          rw [List.getElem?_cons_succ] at hr
          rw [List.take_succ_cons, List.forall_mem_cons, htokens]
          by_cases hfull : (j + 1) * c ≤ (t.update call.newTokenIds call.newBlockIds).tokenIds.length
          · -- the chunk was saved by this call
            have hpast : j < t₁.numSavedTokens / c := by
              rw [← Nat.le_div_iff_mul_le hc] at hfull
              omega
            refine ⟨?_, fun hfirst => absurd hfull (not_le.2 hfirst.2.1)⟩
            rintro ⟨m, hm, hin⟩
            exact absurd hin (not_hasChunk_of_saved hc hrest hpast r (List.mem_of_getElem? hr) m hm)
          · have hnext : t₁.numSavedTokens / c ≤ j := by
              rw [← Nat.le_div_iff_mul_le hc] at hfull
              omega
            rw [ih hrest hnext hr]
            exact and_congr_right fun _ => (and_iff_right (not_le.1 hfull)).symm

/-- The saved tokens before and after each call. -/
def savedTokens (t : RequestTracker) (results : List (Option ReqMeta × RequestTracker)) : List ℕ :=
  t.numSavedTokens :: results.map fun r => r.2.numSavedTokens

/-- **The saved tokens grow**, over all calls. -/
theorem savedTokens_grow (hc : 0 < c) (h : buildMetas blockSize c discard t calls = .ok results) :
    (savedTokens t results).Pairwise (· ≤ ·) ∧
      ∀ (i : ℕ) (m : ReqMeta) (t' : RequestTracker), results[i]? = some (some m, t') → m.CanSave →
        ∃ n, (savedTokens t results)[i]? = some n ∧ n < t'.numSavedTokens := by
  induction calls generalizing t results with
  | nil =>
      cases h
      simp [savedTokens]
  | cons call calls ih =>
      obtain ⟨om, t₁, rest, rfl, hcall, hrest⟩ := buildMetas_cons h
      obtain ⟨hle, hlt⟩ := saved_call hc hcall
      rw [numSavedTokens_update] at hle hlt
      obtain ⟨hpairwise, hgrow⟩ := ih hrest
      have hcons : savedTokens t ((om, t₁) :: rest) = t.numSavedTokens :: savedTokens t₁ rest := rfl
      rw [hcons]
      constructor
      · refine List.pairwise_cons.2 ⟨?_, hpairwise⟩
        intro n hn
        rcases List.mem_cons.1 hn with rfl | hn
        · exact hle
        · exact hle.trans (List.rel_of_pairwise_cons hpairwise hn)
      · intro i m t' hi hsave
        cases i with
        | zero =>
            cases hi
            exact ⟨t.numSavedTokens, rfl, hlt m rfl hsave⟩
        | succ i => exact hgrow i m t' hi hsave

/-- **Each chunk is saved once.**  Over the calls for a request the saved tokens never decrease, and they
increase whenever metadata may be saved; and a chunk from the initially saved tokens on that some call finds
full lies in the window of exactly one call, the first that finds it full. -/
theorem saveWindows_cover_once (hc : 0 < c)
    (h : buildMetas blockSize c discard t calls = .ok results) :
    (savedTokens t results).Pairwise (· ≤ ·) ∧
    (∀ (i : ℕ) (m : ReqMeta) (t' : RequestTracker), results[i]? = some (some m, t') → m.CanSave →
      ∃ n, (savedTokens t results)[i]? = some n ∧ n < t'.numSavedTokens) ∧
    ∀ j, t.numSavedTokens ≤ j * c → (∃ r ∈ results, (j + 1) * c ≤ r.2.tokenIds.length) →
      ∃ i m t', results[i]? = some (some m, t') ∧ m.HasChunk c j ∧
        (j + 1) * c ≤ t'.tokenIds.length ∧
        (∀ r ∈ results.take i, r.2.tokenIds.length < (j + 1) * c) ∧
        ∀ i' m' t'', results[i']? = some (some m', t'') → m'.HasChunk c j → i' = i := by
  refine ⟨(savedTokens_grow hc h).1, (savedTokens_grow hc h).2, ?_⟩
  intro j hsaved hfull
  have hj : t.numSavedTokens / c ≤ j := Nat.div_le_of_le_mul (by rwa [Nat.mul_comm])
  -- the first call that finds the chunk full
  obtain ⟨r₀, hr₀, hlen₀⟩ := hfull
  let full : Option ReqMeta × RequestTracker → Bool :=
    fun r => decide ((j + 1) * c ≤ r.2.tokenIds.length)
  have hlt : results.findIdx full < results.length :=
    List.findIdx_lt_length_of_exists ⟨r₀, hr₀, decide_eq_true hlen₀⟩
  have hfirst : ∀ r ∈ results.take (results.findIdx full), r.2.tokenIds.length < (j + 1) * c := by
    intro r hr
    obtain ⟨i', hi', rfl⟩ := List.mem_iff_getElem.1 hr
    rw [List.length_take] at hi'
    rw [List.getElem_take]
    simpa [full] using List.not_of_lt_findIdx (p := full) (i := i') (by omega)
  have hat := List.findIdx_getElem (p := full) (w := hlt)
  have hget := List.getElem?_eq_getElem hlt
  obtain ⟨m, hm, hchunk⟩ := (hasChunk_iff_first hc h hj hget).2 ⟨of_decide_eq_true hat, hfirst⟩
  refine ⟨results.findIdx full, m, results[results.findIdx full].2, ?_, hchunk,
    of_decide_eq_true hat, hfirst, ?_⟩
  · rw [hget, ← hm]
  · -- another call with the chunk in its window would be the first one as well
    intro i' m' t'' hi' hchunk'
    obtain ⟨hlen', hbefore'⟩ := (hasChunk_iff_first hc h hj hi').1 ⟨m', rfl, hchunk'⟩
    rcases Nat.lt_trichotomy i' (results.findIdx full) with hlt' | heq | hgt
    · have hmem := List.mem_of_getElem? ((List.getElem?_take_of_lt hlt').trans hi')
      have hshort := hfirst _ hmem
      exact absurd hlen' (not_le.2 hshort)
    · exact heq
    · have hmem := List.mem_of_getElem? ((List.getElem?_take_of_lt hgt).trans hget)
      have hshort := hbefore' _ hmem
      exact absurd (of_decide_eq_true hat) (not_le.2 hshort)

/-- A request of which five tokens are scheduled at first, one of them alone after that, and then four, with
chunks of two tokens of which the first has been saved. -/
def fiveOneFour : List TrackerCall := [⟨[], none, none⟩, ⟨[6], none, none⟩, ⟨[7, 8, 9, 10], none, none⟩]

/-- The theorem at these calls, with partial chunks: the third chunk is partial at first, and in the window of
one of the later calls. -/
theorem saveWindows_cover_once_partial :
    ∃ results, buildMetas 2 2 false ⟨"r", [1, 2, 3, 4, 5], [0, 1, 2, 3, 4], 2, [], []⟩ fiveOneFour =
        .ok results ∧
      ∃ (i : ℕ) (m : ReqMeta) (t' : RequestTracker), results[i]? = some (some m, t') ∧
        m.HasChunk 2 2 := by
  have heval : (buildMetas 2 2 false ⟨"r", [1, 2, 3, 4, 5], [0, 1, 2, 3, 4], 2, [], []⟩
      fiveOneFour).map (fun results => results.map fun r => r.2.tokenIds.length) =
      .ok [5, 6, 10] := by decide
  obtain ⟨results, hresults, hlens⟩ := map_eq_ok.1 heval
  refine ⟨results, hresults, ?_⟩
  obtain ⟨-, -, hcover⟩ := saveWindows_cover_once Nat.two_pos hresults
  have hlast : ∃ r ∈ results, (2 + 1) * 2 ≤ r.2.tokenIds.length := by
    have hmem : 10 ∈ results.map fun r => r.2.tokenIds.length := by
      rw [hlens]
      decide
    obtain ⟨r, hr, hlen⟩ := List.mem_map.1 hmem
    exact ⟨r, hr, by omega⟩
  obtain ⟨i, m, t', hi, hchunk, -⟩ := hcover 2 (by decide) hlast
  exact ⟨i, m, t', hi, hchunk⟩

/-! ### Rounds of the scheduler -/

section
variable {con con' : SchedulerConnector} {rounds : List CachedRound} {reqId : String}
  {left : List (Option ReqMeta × SchedulerConnector)}

/-- A round for a cached request is a call for it, unless the instance is a consumer. -/
theorem cachedRequestMeta_call {round : CachedRound} (hrole : con.kvRole ≠ .consumer)
    (h : con.cachedRequestMeta round.requests round.output round.req = .ok (om, con')) :
    ∃ (t : RequestTracker) (call : TrackerCall) (t' : RequestTracker), con.requestTrackers round.req.reqId = some t ∧
      fromRequestTracker (t.update call.newTokenIds call.newBlockIds) con.blockSize con.infinikvChunkSize
        call.loadSpec false con.discardPartialChunks = .ok (om, t') ∧
      con' = con.setTracker round.req.reqId t' := by
  have hskip : con.forceSkipSave = false := by
    rw [SchedulerConnector.forceSkipSave, decide_eq_false hrole]
  obtain ⟨t, n, request, t', ht, -, -, -, hfrom, rfl⟩ := SchedulerConnector.cachedRequestMeta_eq h
  rw [SchedulerConnector.fromTracker, hskip] at hfrom
  exact ⟨t, ⟨(request.allTokenIds.drop t.tokenIds.length).take n, round.req.newBlockIds, none⟩, t', ht, hfrom, rfl⟩

/-- **The rounds for a cached request are calls for it**: they build the same, and leave the same trackers. -/
theorem cachedRequestMetas_calls (hrole : con.kvRole ≠ .consumer) (ht : con.requestTrackers reqId = some t)
    (hreq : ∀ round ∈ rounds, round.req.reqId = reqId) (h : cachedRequestMetas con rounds = .ok left) :
    ∃ calls results, buildMetas con.blockSize con.infinikvChunkSize con.discardPartialChunks t calls = .ok results ∧
      left.map (fun r => (r.1, r.2.requestTrackers reqId)) = results.map fun r => (r.1, some r.2) := by
  induction rounds generalizing con t left with
  | nil =>
      cases h
      exact ⟨[], [], rfl, rfl⟩
  | cons round rounds ih =>
      rw [List.forall_mem_cons] at hreq
      obtain ⟨rfl, hreq⟩ := hreq
      obtain ⟨⟨om, con₁⟩, hround, h⟩ := bind_eq_ok.1 h
      obtain ⟨rest, hrest, h⟩ := bind_eq_ok.1 h
      cases h
      obtain ⟨t₀, call, t₁, ht₀, hcall, rfl⟩ := cachedRequestMeta_call hrole hround
      obtain rfl := Option.some.inj (ht.symm.trans ht₀)
      have ht₁ : (con.setTracker round.req.reqId t₁).requestTrackers round.req.reqId = some t₁ := by
        rw [SchedulerConnector.requestTrackers_setTracker, Function.update_self]
      have hrole₁ : (con.setTracker round.req.reqId t₁).kvRole ≠ .consumer := hrole
      obtain ⟨calls, results, hresults, hsame⟩ := ih hrole₁ ht₁ hreq hrest
      refine ⟨call :: calls, (om, t₁) :: results, ?_, ?_⟩
      · rw [buildMetas]
        exact bind_eq_ok.2 ⟨(om, t₁), hcall, bind_eq_ok.2 ⟨results, hresults, rfl⟩⟩
      · rw [List.map_cons, List.map_cons, hsame, ht₁]

/-- **A chunk is in the window of the first round that finds it full**, and of no other, if it was not saved before. -/
theorem hasChunk_rounds_iff (hc : 0 < con.infinikvChunkSize) (hrole : con.kvRole ≠ .consumer)
    (ht : con.requestTrackers reqId = some t) (hreq : ∀ round ∈ rounds, round.req.reqId = reqId)
    (h : cachedRequestMetas con rounds = .ok left) (hj : t.numSavedTokens / con.infinikvChunkSize ≤ j) {i : ℕ}
    {r : Option ReqMeta × SchedulerConnector} (hr : left[i]? = some r) :
    (∃ m, r.1 = some m ∧ m.HasChunk con.infinikvChunkSize j) ↔
      (∃ t' ∈ r.2.requestTrackers reqId, (j + 1) * con.infinikvChunkSize ≤ t'.tokenIds.length) ∧
        ∀ r' ∈ left.take i, ∀ t' ∈ r'.2.requestTrackers reqId,
          t'.tokenIds.length < (j + 1) * con.infinikvChunkSize := by
  obtain ⟨calls, results, hresults, hsame⟩ := cachedRequestMetas_calls hrole ht hreq h
  have hat : (results.map fun r => (r.1, some r.2))[i]? = some (r.1, r.2.requestTrackers reqId) := by
    rw [← hsame, List.getElem?_map, hr, Option.map_some]
  rw [List.getElem?_map] at hat
  obtain ⟨r₀, hr₀, heq⟩ := Option.map_eq_some_iff.1 hat
  obtain ⟨hmeta, htracker⟩ := Prod.mk.inj heq
  have hbefore : (left.take i).map (fun r => r.2.requestTrackers reqId) = (results.take i).map fun r => some r.2 := by
    have hboth := congrArg (fun l => (l.take i).map Prod.snd) hsame
    simpa only [← List.map_take, List.map_map, Function.comp_def] using hboth
  have hall : (∀ r' ∈ left.take i, ∀ t' ∈ r'.2.requestTrackers reqId,
      t'.tokenIds.length < (j + 1) * con.infinikvChunkSize) ↔
      ∀ r' ∈ results.take i, r'.2.tokenIds.length < (j + 1) * con.infinikvChunkSize := by
    have hleft := List.forall_mem_map (f := fun r : Option ReqMeta × SchedulerConnector => r.2.requestTrackers reqId)
      (l := left.take i) (P := fun t' => ∀ t'' ∈ t', t''.tokenIds.length < (j + 1) * con.infinikvChunkSize)
    rw [← hleft, hbefore, List.forall_mem_map]
    simp only [Option.mem_some_iff, forall_eq']
  rw [hall, ← htracker, ← hmeta, hasChunk_iff_first hc hresults hj hr₀]
  simp only [Option.mem_some_iff, exists_eq_left']

end

end ReqMeta
end InfiniKV
