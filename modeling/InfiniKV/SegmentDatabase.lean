/-
**Segments.**

The segment database splits tokens at the occurrences of a separator.  The segments are cut out of the tokens, and
their places are computed from their lengths, as if one separator lay between each two of them.  Where occurrences
overlap there is less between them, and the places run ahead of the segments.  Where the separator is empty, or longer
than the tokens, the one segment there is is yielded first, but the splitting goes on behind it.

Main definitions:

* `InfiniKV.SegmentTokenDatabase` — the database;
* `InfiniKV.SegmentTokenDatabase.fastSplitBySubtensor`, `processHashes`, `processTokens` — the source's functions;
* `InfiniKV.SegmentTokenDatabase.Tiles`, `SplitsRight` — what the segments are to be;
* `InfiniKV.SegmentTokenDatabase.Spaced` — matches that do not overlap.

Main results:

* `InfiniKV.SegmentTokenDatabase.placed_of_spaced` — **without overlaps the places are those of the segments**;
* `InfiniKV.SegmentTokenDatabase.exists_behind` — behind an overlap, a segment is placed beyond the end;
* `InfiniKV.SegmentTokenDatabase.splitsRight_iff` — **when the splitting is right**.
-/

import InfiniKV.TokenDatabase

set_option relaxedAutoImplicit false
set_option autoImplicit false

namespace InfiniKV

open Sha256

/-- A database that splits tokens at a separator, which a tokenizer has made. -/
structure SegmentTokenDatabase where
  sepTokens : List ℤ
  metadata : InfiniKVEngineMetadata

namespace SegmentTokenDatabase

variable (db : SegmentTokenDatabase)

/-! ### The source's functions -/

/-- `sep_len`. -/
def sepLen : ℕ := db.sepTokens.length

/-- `_make_key_by_hash`. -/
def makeKeyByHash (chunkHash : Str) : CacheEngineKey :=
  ⟨db.metadata.fmt, db.metadata.modelName, db.metadata.worldSize, db.metadata.workerId, chunkHash⟩

/-- `_hash`, of a tensor. -/
def hash (tokens : List ℤ) : Str := hexdigest (wordBytes tokens)

/-- The starts of the windows that are the separator. -/
def separatorMatches (tokens : List ℤ) : List ℕ :=
  (List.range (tokens.length - db.sepLen + 1)).filter fun i =>
    decide ((tokens.drop i).take db.sepLen = db.sepTokens)

/-- The loop of `_fast_split_by_subtensor`. -/
def splitLoop (tokens : List ℤ) : ℕ → List ℕ → List (List ℤ)
  | start, [] => [tokens.drop start]
  | start, idx :: rest => (tokens.take idx).drop start :: splitLoop tokens (idx + db.sepLen) rest

/-- **`_fast_split_by_subtensor`**.  Yielding the tokens does not end it; there are no windows that are longer than the
tokens. -/
def fastSplitBySubtensor (tokens : List ℤ) : Generator (List ℤ) :=
  let early := if db.sepLen = 0 ∨ tokens.length < db.sepLen then [tokens] else []
  if tokens.length < db.sepLen then
    ⟨early, some (.runtimeError ("maximum size for tensor at dimension 0 is " ++ toString tokens.length ++
      " but size is " ++ toString db.sepLen))⟩
  else ⟨early ++ db.splitLoop tokens 0 (db.separatorMatches tokens), none⟩

/-- The loop of `process_tokens`, with `make_key=False`. -/
def segmentLoop (numFalses : ℕ) : List (List ℤ) → ℕ → ℕ → List (ℕ × ℕ × Str)
  | [], _, _ => []
  | tokenChunk :: rest, idx, startIdx =>
      let endIdx := startIdx + tokenChunk.length
      let startIdx := if idx > 0 then startIdx + db.sepLen else startIdx
      let endIdx := if idx > 0 then endIdx + db.sepLen else endIdx
      if startIdx ≥ numFalses then (startIdx, endIdx, hash tokenChunk) :: segmentLoop numFalses rest (idx + 1) endIdx
      else segmentLoop numFalses rest (idx + 1) endIdx

/-- **`process_tokens`, with `make_key=False`**. -/
def processHashes (tokens : Tokens) (mask : Option (List Bool)) : Generator (ℕ × ℕ × Str) :=
  let numFalses := ChunkedTokenDatabase.numFalses mask
  if tokens.form ≠ .tensor then
    .raise (.assertionError "Only tokens in tensor format are supported for now.")
  else if ¬numFalses < tokens.ids.length then
    .raise (.assertionError "The number of Falses in the mask shouldn't be less than the length of tokens.")
  else
    let tokenChunks := db.fastSplitBySubtensor tokens.ids
    ⟨db.segmentLoop numFalses tokenChunks.yields 0 0, tokenChunks.raises⟩

/-- **`process_tokens`**. -/
def processTokens (tokens : Tokens) (mask : Option (List Bool)) : Generator (ℕ × ℕ × CacheEngineKey) :=
  (db.processHashes tokens mask).filterMap fun (s, e, h) => some (s, e, db.makeKeyByHash h)

/-! ### What the segments are to be -/

/-- **Segments tile a sequence**, from a position on: one separator lies between each two of them, and the last one
ends with the sequence. -/
def Tiles (sep X : List ℤ) : ℕ → List (ℕ × ℕ) → Prop
  | _, [] => False
  | pos, [(s, e)] => s = pos ∧ s ≤ e ∧ e = X.length
  | pos, (s, e) :: segment :: segments => s = pos ∧ s ≤ e ∧ e + sep.length ≤ X.length ∧
      (X.drop e).take sep.length = sep ∧ Tiles sep X (e + sep.length) (segment :: segments)

/-- The places of the segments that are yielded without a mask. -/
def places (X : List ℤ) : List (ℕ × ℕ) := (db.processHashes ⟨.tensor, X⟩ none).yields.map fun y => (y.1, y.2.1)

/-- **The splitting is right**: there is no exception, the segments tile the tokens, there is one if the separator is
empty or longer than the tokens, and what is yielded for a place is the hash of the tokens there. -/
structure SplitsRight (X : List ℤ) : Prop where
  raises : ∀ mask, ChunkedTokenDatabase.numFalses mask < X.length →
    (db.processHashes ⟨.tensor, X⟩ mask).raises = none
  tiles : Tiles db.sepTokens X 0 (db.places X)
  single : db.sepLen = 0 ∨ X.length < db.sepLen → db.places X = [(0, X.length)]
  hash : ∀ mask s e h, ChunkedTokenDatabase.numFalses mask < X.length →
    (s, e, h) ∈ (db.processHashes ⟨.tensor, X⟩ mask).yields → h = SegmentTokenDatabase.hash ((X.take e).drop s)

/-! ### The places of the segments -/

/-- The segments are placed one after the other, with room for a separator behind each. -/
def placed : List (List ℤ) → ℕ → List (ℕ × ℕ × Str)
  | [], _ => []
  | tokenChunk :: rest, pos =>
      (pos, pos + tokenChunk.length, hash tokenChunk) :: placed rest (pos + tokenChunk.length + db.sepLen)

/-- What the mask skips is left out, and nothing else. -/
theorem segmentLoop_eq_filter (numFalses : ℕ) (chunks : List (List ℤ)) (idx startIdx : ℕ) :
    db.segmentLoop numFalses chunks idx startIdx =
      (db.placed chunks (if idx > 0 then startIdx + db.sepLen else startIdx)).filter fun y => numFalses ≤ y.1 := by
  induction chunks generalizing idx startIdx with
  | nil => rfl
  | cons tokenChunk rest ih =>
      have hend : (if idx > 0 then startIdx + tokenChunk.length + db.sepLen else startIdx + tokenChunk.length)
          = (if idx > 0 then startIdx + db.sepLen else startIdx) + tokenChunk.length := by
        by_cases hidx : idx > 0
        · rw [if_pos hidx, if_pos hidx]
          omega
        · rw [if_neg hidx, if_neg hidx]
      rw [segmentLoop, placed, List.filter_cons]
      dsimp only
      rw [hend, ih, if_pos (Nat.succ_pos idx)]
      generalize (if idx > 0 then startIdx + db.sepLen else startIdx) = pos
      by_cases hskip : pos ≥ numFalses
      · rw [if_pos hskip, if_pos (decide_eq_true hskip)]
      · rw [if_neg hskip, if_neg (by rwa [decide_eq_true_eq])]

/-- What is yielded for a tensor. -/
theorem processHashes_tensor {X : List ℤ} {mask : Option (List Bool)}
    (h : ChunkedTokenDatabase.numFalses mask < X.length) :
    db.processHashes ⟨.tensor, X⟩ mask = ⟨(db.placed (db.fastSplitBySubtensor X).yields 0).filter fun y =>
      ChunkedTokenDatabase.numFalses mask ≤ y.1, (db.fastSplitBySubtensor X).raises⟩ := by
  rw [processHashes]
  dsimp only
  rw [if_neg (fun hne => hne rfl), if_neg (not_not.2 h), segmentLoop_eq_filter, if_neg (lt_irrefl 0)]

theorem processHashes_none {X : List ℤ} (hX : X ≠ []) :
    db.processHashes ⟨.tensor, X⟩ none =
      ⟨db.placed (db.fastSplitBySubtensor X).yields 0, (db.fastSplitBySubtensor X).raises⟩ := by
  rw [processHashes_tensor db (by exact List.length_pos_iff.2 hX)]
  refine congrArg (fun ys => (⟨ys, _⟩ : Generator _)) (List.filter_eq_self.2 fun y _ => ?_)
  exact decide_eq_true (Nat.zero_le _)

/-! ### Matches -/

variable {db}

/-- There is an occurrence of the separator. -/
def MatchAt (db : SegmentTokenDatabase) (X : List ℤ) (i : ℕ) : Prop :=
  i + db.sepLen ≤ X.length ∧ (X.drop i).take db.sepLen = db.sepTokens

instance (db : SegmentTokenDatabase) (X : List ℤ) (i : ℕ) : Decidable (db.MatchAt X i) :=
  inferInstanceAs (Decidable (_ ∧ _))

theorem mem_separatorMatches {X : List ℤ} (hle : db.sepLen ≤ X.length) {i : ℕ} :
    i ∈ db.separatorMatches X ↔ db.MatchAt X i := by
  rw [separatorMatches, List.mem_filter, List.mem_range, decide_eq_true_eq, MatchAt]
  refine and_congr_left fun _ => ?_
  omega

theorem pairwise_separatorMatches (X : List ℤ) : (db.separatorMatches X).Pairwise (· < ·) :=
  List.pairwise_lt_range.filter _

/-- Matches, from a position on, none of which starts before the one before it has ended. -/
def Spaced (sepLen : ℕ) : ℕ → List ℕ → Prop
  | _, [] => True
  | pos, i :: rest => pos ≤ i ∧ Spaced sepLen (i + sepLen) rest

/-- Matches that do not overlap are spaced. -/
theorem spaced_of_pairwise {sepLen : ℕ} {ms : List ℕ} (h : ms.Pairwise fun i j => i + sepLen ≤ j) {pos : ℕ}
    (hpos : ∀ i ∈ ms, pos ≤ i) : Spaced sepLen pos ms := by
  induction ms generalizing pos with
  | nil => trivial
  | cons i rest ih =>
      rw [List.pairwise_cons] at h
      exact ⟨hpos i List.mem_cons_self, ih h.2 h.1⟩

theorem le_of_spaced {sepLen pos : ℕ} {ms : List ℕ} (h : Spaced sepLen pos ms) : ∀ i ∈ ms, pos ≤ i := by
  induction ms generalizing pos with
  | nil => exact fun i hi => by cases hi
  | cons i rest ih =>
      intro j hj
      rcases List.mem_cons.1 hj with rfl | hj
      · exact h.1
      · have hle := ih h.2 j hj
        have hpos := h.1
        omega

/-- Spaced matches do not overlap. -/
theorem pairwise_of_spaced {sepLen pos : ℕ} {ms : List ℕ} (h : Spaced sepLen pos ms) :
    ms.Pairwise fun i j => i + sepLen ≤ j := by
  induction ms generalizing pos with
  | nil => exact List.Pairwise.nil
  | cons i rest ih => exact List.pairwise_cons.2 ⟨le_of_spaced h.2, ih h.2⟩

/-- **The matches are spaced exactly if no two occurrences overlap.** -/
theorem spaced_separatorMatches_iff {X : List ℤ} (hle : db.sepLen ≤ X.length) :
    Spaced db.sepLen 0 (db.separatorMatches X) ↔
      ∀ i j, i < j → db.MatchAt X i → db.MatchAt X j → i + db.sepLen ≤ j := by
  constructor
  · intro h i j hij hi hj
    have hpairwise := pairwise_of_spaced h
    rw [← mem_separatorMatches hle] at hi hj
    obtain ⟨k, hk, rfl⟩ := List.mem_iff_getElem.1 hi
    obtain ⟨l, hl, rfl⟩ := List.mem_iff_getElem.1 hj
    rcases Nat.lt_trichotomy k l with hkl | rfl | hlk
    · exact List.pairwise_iff_getElem.1 hpairwise k l hk hl hkl
    · exact absurd hij (lt_irrefl _)
    · have := List.pairwise_iff_getElem.1 (pairwise_separatorMatches X) l k hl hk hlk
      omega
  · intro h
    refine spaced_of_pairwise ?_ fun i _ => Nat.zero_le i
    refine (pairwise_separatorMatches X).imp_of_mem fun {i j} hi hj hij => ?_
    exact h i j hij ((mem_separatorMatches hle).1 hi) ((mem_separatorMatches hle).1 hj)

/-! ### Segments between matches -/

/-- The places of the segments between spaced matches. -/
def placesOf (sepLen length : ℕ) : ℕ → List ℕ → List (ℕ × ℕ)
  | pos, [] => [(pos, length)]
  | pos, i :: rest => (pos, i) :: placesOf sepLen length (i + sepLen) rest

/-- **Without overlaps the places are those of the segments.** -/
theorem placed_of_spaced {X : List ℤ} {ms : List ℕ} {pos : ℕ} (hpos : pos ≤ X.length)
    (hms : ∀ i ∈ ms, db.MatchAt X i) (h : Spaced db.sepLen pos ms) :
    db.placed (db.splitLoop X pos ms) pos =
      (placesOf db.sepLen X.length pos ms).map fun y => (y.1, y.2, hash ((X.take y.2).drop y.1)) := by
  induction ms generalizing pos with
  | nil =>
      rw [splitLoop, placed, placed, placesOf, List.map_singleton, List.length_drop, List.take_length]
      rw [Nat.add_sub_cancel' hpos]
  | cons i rest ih =>
      rw [List.forall_mem_cons] at hms
      have hi := hms.1.1
      have hlength : ((X.take i).drop pos).length = i - pos := by
        rw [List.length_drop, List.length_take, min_eq_left (by omega)]
      rw [splitLoop, placed, placesOf, List.map_cons, hlength, Nat.add_sub_cancel' h.1, ih hi hms.2 h.2]

/-- The places between spaced matches tile the tokens. -/
theorem tiles_placesOf {X : List ℤ} {ms : List ℕ} {pos : ℕ} (hpos : pos ≤ X.length)
    (hms : ∀ i ∈ ms, db.MatchAt X i) (h : Spaced db.sepLen pos ms) :
    Tiles db.sepTokens X pos (placesOf db.sepLen X.length pos ms) := by
  induction ms generalizing pos with
  | nil => exact ⟨rfl, hpos, rfl⟩
  | cons i rest ih =>
      rw [List.forall_mem_cons] at hms
      have htiles := ih hms.1.1 hms.2 h.2
      cases rest with
      | nil => exact ⟨rfl, h.1, hms.1.1, hms.1.2, htiles⟩
      | cons j rest => exact ⟨rfl, h.1, hms.1.1, hms.1.2, htiles⟩

/-- Segments that tile a sequence end inside it. -/
theorem le_of_tiles {sep X : List ℤ} {pos : ℕ} {segments : List (ℕ × ℕ)} (h : Tiles sep X pos segments) :
    ∀ segment ∈ segments, segment.2 ≤ X.length := by
  induction segments generalizing pos with
  | nil => cases h
  | cons segment segments ih =>
      obtain ⟨s, e⟩ := segment
      cases segments with
      | nil =>
          intro segment hmem
          rw [List.mem_singleton.1 hmem]
          exact le_of_eq h.2.2
      | cons segment' segments =>
          obtain ⟨-, -, hend, -, hrest⟩ := h
          refine List.forall_mem_cons.2 ⟨?_, ih hrest⟩
          dsimp only
          omega

/-! ### Overlaps -/

/-- **Behind an overlap, a segment is placed beyond the end**: once the places are ahead of the segments they stay so,
and the last segment ends with the tokens. -/
theorem exists_behind {X : List ℤ} {ms : List ℕ} {pos start : ℕ} (hstart : start ≤ X.length)
    (hms : ∀ i ∈ ms, db.MatchAt X i) (h : start < pos) :
    ∃ y ∈ db.placed (db.splitLoop X start ms) pos, X.length < y.2.1 := by
  induction ms generalizing pos start with
  | nil =>
      refine ⟨_, List.mem_singleton_self _, ?_⟩
      dsimp only
      rw [List.length_drop]
      omega
  | cons i rest ih =>
      rw [List.forall_mem_cons] at hms
      have hlength : i - start ≤ ((X.take i).drop start).length := by
        have hi := hms.1.1
        rw [List.length_drop, List.length_take, min_eq_left (by omega)]
      have hrest : ∃ y ∈ db.placed (db.splitLoop X (i + db.sepLen) rest)
          (pos + ((X.take i).drop start).length + db.sepLen), X.length < y.2.1 :=
        ih hms.1.1 hms.2 (by omega)
      obtain ⟨y, hy, hbehind⟩ := hrest
      exact ⟨y, List.mem_cons_of_mem _ hy, hbehind⟩

/-- The places are inside the tokens only if the matches are spaced. -/
theorem spaced_of_forall_le {X : List ℤ} {ms : List ℕ} {pos : ℕ} (hms : ∀ i ∈ ms, db.MatchAt X i)
    (h : ∀ y ∈ db.placed (db.splitLoop X pos ms) pos, y.2.1 ≤ X.length) : Spaced db.sepLen pos ms := by
  induction ms generalizing pos with
  | nil => trivial
  | cons i rest ih =>
      rw [List.forall_mem_cons] at hms
      rw [splitLoop, placed, List.forall_mem_cons] at h
      have hi := hms.1.1
      have hlength : ((X.take i).drop pos).length = i - pos := by
        rw [List.length_drop, List.length_take, min_eq_left (by omega)]
      rw [hlength] at h
      by_cases hle : pos ≤ i
      · rw [Nat.add_sub_cancel' hle] at h
        exact ⟨hle, ih hms.2 h.2⟩
      · -- the match overlaps the one before it
        have hahead : i + db.sepLen < pos + (i - pos) + db.sepLen := by omega
        obtain ⟨y, hy, hbehind⟩ := exists_behind hi hms.2 hahead
        exact absurd (h.2 y hy) (not_le.2 hbehind)

/-! ### When the splitting is right -/

theorem forall_mem_separatorMatches {X : List ℤ} (hle : db.sepLen ≤ X.length) :
    ∀ i ∈ db.separatorMatches X, db.MatchAt X i := fun _ hi => (mem_separatorMatches hle).1 hi

/-- A separator that is not empty and not longer than the tokens splits them at its matches. -/
theorem fastSplit_of_le {X : List ℤ} (hpos : 0 < db.sepLen) (hle : db.sepLen ≤ X.length) :
    db.fastSplitBySubtensor X = ⟨db.splitLoop X 0 (db.separatorMatches X), none⟩ := by
  have hearly : ¬(db.sepLen = 0 ∨ X.length < db.sepLen) := by omega
  rw [fastSplitBySubtensor, if_neg (not_lt.2 hle), if_neg hearly, List.nil_append]

/-- An empty separator makes at least two segments. -/
theorem two_le_length_places {X : List ℤ} (hX : X ≠ []) (hsep : db.sepLen = 0) : 2 ≤ (db.places X).length := by
  have hsplit : ∃ tokenChunk rest, (db.fastSplitBySubtensor X).yields = X :: tokenChunk :: rest := by
    rw [fastSplitBySubtensor, if_neg (by omega), if_pos (Or.inl hsep)]
    cases db.separatorMatches X with
    | nil => exact ⟨_, _, rfl⟩
    | cons i rest => exact ⟨_, _, rfl⟩
  obtain ⟨tokenChunk, rest, hyields⟩ := hsplit
  rw [places, processHashes_none db hX, hyields, placed, placed, List.length_map, List.length_cons, List.length_cons]
  omega

/-- **When the splitting is right**: the separator is neither empty nor longer than the tokens, and no two of its
occurrences overlap. -/
theorem splitsRight_iff (db : SegmentTokenDatabase) (X : List ℤ) (hX : X ≠ []) :
    db.SplitsRight X ↔ 0 < db.sepLen ∧ db.sepLen ≤ X.length ∧
      ∀ i j, i < j → db.MatchAt X i → db.MatchAt X j → i + db.sepLen ≤ j := by
  have hnone : ChunkedTokenDatabase.numFalses none < X.length := List.length_pos_iff.2 hX
  constructor
  · intro h
    have hle : db.sepLen ≤ X.length := by
      by_contra hlt
      have hraises := h.raises none hnone
      rw [processHashes_tensor db hnone, fastSplitBySubtensor] at hraises
      dsimp only at hraises
      rw [if_pos (not_le.1 hlt)] at hraises
      cases hraises
    have hpos : 0 < db.sepLen := by
      by_contra hzero
      have hlength : 2 ≤ (db.places X).length := two_le_length_places hX (Nat.eq_zero_of_not_pos hzero)
      rw [h.single (Or.inl (Nat.eq_zero_of_not_pos hzero)), List.length_singleton] at hlength
      omega
    refine ⟨hpos, hle, (spaced_separatorMatches_iff hle).1 ?_⟩
    refine spaced_of_forall_le (forall_mem_separatorMatches hle) fun y hy => ?_
    refine le_of_tiles h.tiles (y.1, y.2.1) ?_
    rw [places, processHashes_none db hX, fastSplit_of_le hpos hle]
    exact List.mem_map_of_mem hy
  · rintro ⟨hpos, hle, hspaced⟩
    rw [← spaced_separatorMatches_iff hle] at hspaced
    have hmatches : ∀ i ∈ db.separatorMatches X, db.MatchAt X i := forall_mem_separatorMatches hle
    have hplaced := placed_of_spaced (Nat.zero_le _) hmatches hspaced
    have hplaces : db.places X = placesOf db.sepLen X.length 0 (db.separatorMatches X) := by
      rw [places, processHashes_none db hX, fastSplit_of_le hpos hle]
      dsimp only
      rw [hplaced, List.map_map]
      exact List.map_id _
    refine ⟨fun mask hmask => ?_, ?_, fun hor => ?_, fun mask s e h hmask hmem => ?_⟩
    · rw [processHashes_tensor db hmask, fastSplit_of_le hpos hle]
    · rw [hplaces]
      exact tiles_placesOf (Nat.zero_le _) hmatches hspaced
    · omega
    · rw [processHashes_tensor db hmask, fastSplit_of_le hpos hle] at hmem
      dsimp only at hmem
      rw [hplaced] at hmem
      obtain ⟨y, -, hy⟩ := List.mem_map.1 (List.mem_of_mem_filter hmem)
      cases hy
      rfl

/-- A database that splits at the token `0`, or at two of them. -/
def zeroDatabase (sepTokens : List ℤ) : SegmentTokenDatabase := ⟨sepTokens, ⟨['m'], 1, 0, ['v'], (1, 2, 1, 1, 1), false⟩⟩

/-- The theorem at a separator of one token, which does not overlap with itself. -/
theorem splitsRight_iff_oneZero : (zeroDatabase [0]).SplitsRight [7, 0, 8] := by
  refine ((zeroDatabase [0]).splitsRight_iff [7, 0, 8] (by decide)).2 ⟨by decide, by decide, fun i j hij _ _ => ?_⟩
  exact hij

/-- Three zeros hold two overlapping separators: the last segment is placed behind the tokens. -/
theorem not_splitsRight_threeZeros :
    (zeroDatabase [0, 0]).places [0, 0, 0] = [(0, 0), (2, 2), (4, 4)] ∧ ¬(zeroDatabase [0, 0]).SplitsRight [0, 0, 0] := by
  have hplaces : (zeroDatabase [0, 0]).places [0, 0, 0] = [(0, 0), (2, 2), (4, 4)] := rfl
  refine ⟨hplaces, fun h => ?_⟩
  have hle := le_of_tiles h.tiles (4, 4) (by rw [hplaces]; decide)
  exact absurd hle (by decide)

end SegmentTokenDatabase

end InfiniKV
