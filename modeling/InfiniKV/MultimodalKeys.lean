/-
**Images and keys.**

The hash of a multimodal item reaches the keys through the tokens of its placeholder, which are overwritten with
sixteen bits of it.  Two items whose hashes have these bits in common write the same tokens, and the chunks that hold
them get the same keys.  What the keys of two requests do tell apart are the tokens that are written.

Main definitions:

* `InfiniKV.hexValue` — the number that hexadecimal digits stand for;
* `InfiniKV.coveringHash`, `InfiniKV.writtenAt` — the hash that is written last at a position, and what stands there
  then;
* `InfiniKV.DifferAt` — two requests differ in the hash of an item that covers a position;
* `InfiniKV.ChunkedTokenDatabase.KeysDiffer` — the keys of two sequences differ from a position on.

Main results:

* `InfiniKV.getElem?_applyMmHashesToTokenIds` — **what the rewriting leaves at a position**;
* `InfiniKV.ChunkedTokenDatabase.keyAt_eq_iff_of_length_eq` — when two sequences of one length agree on the key of a
  chunk, whatever the tokens are;
* `InfiniKV.ChunkedTokenDatabase.keysDiffer_applyMmHashes_iff` — **when different images have different keys**.
-/

import InfiniKV.KeySoundness
import InfiniKV.KeyStrings
import Mathlib.Data.List.GetD

set_option relaxedAutoImplicit false
set_option autoImplicit false

namespace InfiniKV

open Sha256

/-! ### Hexadecimal hashes -/

/-- The number that hexadecimal digits stand for. -/
def hexValue (s : Str) : ℕ := s.foldl (fun acc c => 16 * acc + (hexDigitValue c).getD 0) 0

/-- The hash of an item: hexadecimal digits, at least one. -/
def IsHexHash (s : Str) : Prop := s ≠ [] ∧ IsHex s

instance (s : Str) : Decidable (IsHexHash s) := inferInstanceAs (Decidable (s ≠ [] ∧ IsHex s))

theorem isSpace_of_isHex {c : Char} (h : (hexDigitValue c).isSome = true) : isSpace c = false :=
  isSpace_of_test (fun c => (hexDigitValue c).isSome) (by decide) h

/-- A row of digits has the value of its digits. -/
theorem hexDigitsValue_of_isHex {cs : Str} (h : IsHex cs) (acc : ℕ) :
    hexDigitsValue cs acc = some (cs.foldl (fun acc c => 16 * acc + (hexDigitValue c).getD 0) acc) := by
  induction cs generalizing acc with
  | nil => rfl
  | cons c cs ih =>
      rw [IsHex, List.forall_mem_cons] at h
      have hne : c ≠ '_' := ne_of_test (fun c => (hexDigitValue c).isSome) h.1 (by decide)
      obtain ⟨d, hd⟩ := Option.isSome_iff_exists.1 h.1
      rw [hexDigitsValue, hd, Option.bind_some, ih h.2, List.foldl_cons, hd, Option.getD_some]
      · intro c' cs' heq
        exact absurd heq hne

/-- Hexadecimal digits are read as a literal without `0x` in front. -/
theorem hexLiteralValue_of_isHexHash {s : Str} (h : IsHexHash s) : hexLiteralValue s = some (hexValue s) := by
  obtain ⟨hne, hhex⟩ := h
  rw [hexLiteralValue.eq_def]
  split
  · exact absurd (hhex 'x' (by simp)) (by decide)
  · exact absurd (hhex 'X' (by simp)) (by decide)
  · exact absurd rfl hne
  · exact absurd (hhex '_' (by simp)) (by decide)
  · exact hexDigitsValue_of_isHex hhex 0

/-- A hash is read as the number it stands for. -/
theorem intOfHex_of_isHexHash {s : Str} (h : IsHexHash s) : intOfHex s = .ok (hexValue s : ℤ) := by
  have hvalue := hexLiteralValue_of_isHexHash h
  rw [intOfHex, strip_of_forall fun c hc => isSpace_of_isHex (h.2 c hc)]
  cases s with
  | nil => exact absurd rfl h.1
  | cons c cs =>
      have hc := h.2 c List.mem_cons_self
      have hminus : c ≠ '-' := ne_of_test (fun c => (hexDigitValue c).isSome) hc (by decide)
      have hplus : c ≠ '+' := ne_of_test (fun c => (hexDigitValue c).isSome) hc (by decide)
      simp [hminus, hplus, hvalue]

/-- **What is written for a hash**: its sixteen low bits. -/
theorem hexHashToInt16_of_isHexHash {s : Str} (h : IsHexHash s) :
    hexHashToInt16 s = .ok ((hexValue s : ℤ) % 2 ^ 16) := by
  rw [hexHashToInt16, intOfHex_of_isHexHash h]
  rfl

/-! ### What is written -/

/-- A place holds a position. -/
def PlaceholderRange.Covers (r : PlaceholderRange) (q : ℕ) : Prop := r.offset ≤ q ∧ q < r.offset + r.length

instance (r : PlaceholderRange) (q : ℕ) : Decidable (r.Covers q) :=
  inferInstanceAs (Decidable (r.offset ≤ q ∧ q < r.offset + r.length))

/-- The hash of the last item that covers a position. -/
def coveringHash (items : List (Str × PlaceholderRange)) (q : ℕ) : Option Str :=
  (items.filter fun item => item.2.Covers q).getLast?.map Prod.fst

/-- What stands at a position after the items have been written: sixteen bits of the last hash, or the token if no
item covers the position. -/
def writtenAt (T : List ℤ) (items : List (Str × PlaceholderRange)) (q : ℕ) : ℤ :=
  match coveringHash items q with
  | some hashStr => (hexValue hashStr : ℤ) % 2 ^ 16
  | none => T.getD q 0

/-- The items behind the first one come later. -/
theorem coveringHash_cons (item : Str × PlaceholderRange) (items : List (Str × PlaceholderRange)) (q : ℕ) :
    coveringHash (item :: items) q = (coveringHash items q).or (if item.2.Covers q then some item.1 else none) := by
  rw [coveringHash, coveringHash]
  by_cases hcovers : item.2.Covers q
  · rw [List.filter_cons, if_pos (decide_eq_true hcovers), List.getLast?_cons, if_pos hcovers]
    cases (items.filter fun item => item.2.Covers q).getLast? with
    | none => rfl
    | some item' => rfl
  · rw [List.filter_cons, if_neg (by rwa [decide_eq_true_eq]), if_neg hcovers, Option.or_none]

/-- The first item is written before the others. -/
theorem writtenAt_cons {T : List ℤ} {item : Str × PlaceholderRange} {items : List (Str × PlaceholderRange)} {q : ℕ}
    (hq : q < T.length) :
    writtenAt T (item :: items) q = writtenAt (fillRange T item.2.offset
      (min (item.2.offset + item.2.length) T.length) ((hexValue item.1 : ℤ) % 2 ^ 16)) items q := by
  rw [writtenAt, writtenAt, coveringHash_cons]
  cases coveringHash items q with
  | some hashStr => rfl
  | none =>
      have hq' : q < (fillRange T item.2.offset (min (item.2.offset + item.2.length) T.length)
          ((hexValue item.1 : ℤ) % 2 ^ 16)).length := by rwa [length_fillRange]
      rw [Option.none_or]
      dsimp only
      rw [List.getD_eq_getElem _ _ hq']
      simp only [fillRange, List.getElem_mapIdx]
      by_cases hcovers : item.2.Covers q
      · have hrange : item.2.offset ≤ q ∧ q < min (item.2.offset + item.2.length) T.length :=
          ⟨hcovers.1, Nat.lt_min.2 ⟨hcovers.2, hq⟩⟩
        rw [if_pos hcovers, if_pos hrange]
      · have hrange : ¬(item.2.offset ≤ q ∧ q < min (item.2.offset + item.2.length) T.length) :=
          fun h => hcovers ⟨h.1, (Nat.lt_min.1 h.2).1⟩
        rw [if_neg hcovers, if_neg hrange]
        exact List.getD_eq_getElem _ _ hq

/-- Hashes are written without an exception. -/
theorem exists_applyMmHashesToTokenIds {items : List (Str × PlaceholderRange)}
    (hhex : ∀ item ∈ items, IsHexHash item.1) (T : List ℤ) : ∃ X, applyMmHashesToTokenIds T items = .ok X := by
  induction items generalizing T with
  | nil => exact ⟨T, rfl⟩
  | cons item items ih =>
      rw [List.forall_mem_cons] at hhex
      rw [applyMmHashesToTokenIds]
      by_cases hstart : item.2.offset ≥ T.length
      · rw [if_pos hstart]
        exact ih hhex.2 T
      · rw [if_neg hstart, hexHashToInt16_of_isHexHash hhex.1]
        exact ih hhex.2 _

/-- **What the rewriting leaves at a position.** -/
theorem getElem?_applyMmHashesToTokenIds {items : List (Str × PlaceholderRange)}
    (hhex : ∀ item ∈ items, IsHexHash item.1) {T X : List ℤ} (h : applyMmHashesToTokenIds T items = .ok X) {q : ℕ}
    (hq : q < T.length) : X[q]? = some (writtenAt T items q) := by
  induction items generalizing T with
  | nil =>
      cases h
      rw [List.getElem?_eq_getElem hq, writtenAt, coveringHash, List.filter_nil]
      exact congrArg some (List.getD_eq_getElem _ _ hq).symm
  | cons item items ih =>
      rw [List.forall_mem_cons] at hhex
      rw [writtenAt_cons hq]
      rw [applyMmHashesToTokenIds] at h
      by_cases hstart : item.2.offset ≥ T.length
      · -- the item starts behind the tokens
        rw [if_pos hstart] at h
        rw [fillRange_of_length_le hstart]
        exact ih hhex.2 h hq
      · rw [if_neg hstart, hexHashToInt16_of_isHexHash hhex.1] at h
        exact ih hhex.2 h (by rwa [length_fillRange])

/-! ### Keys of sequences of one length -/

/-- The bytes of a token depend on its value modulo `2 ^ 32`. -/
theorem wordBytes_map_mod (xs : List ℤ) : wordBytes (xs.map (· % 2 ^ 32)) = wordBytes xs := by
  rw [wordBytes, wordBytes, List.flatMap_map]
  refine List.flatMap_congr fun x _ => ?_
  rw [Int.emod_emod]

theorem messages_map_mod (d : Str) (cs : List (List ℤ)) :
    HashChain.messages hexdigest hashMessage d (cs.map (List.map (· % 2 ^ 32)))
      = HashChain.messages hexdigest hashMessage d cs := by
  induction cs generalizing d with
  | nil => rfl
  | cons c cs ih =>
      rw [List.map_cons, HashChain.messages, HashChain.messages, hashMessage, wordBytes_map_mod, ← hashMessage, ih]

namespace ChunkedTokenDatabase

variable (db : ChunkedTokenDatabase)

theorem numChunks_congr {X Y : List ℤ} (h : X.length = Y.length) : db.numChunks X = db.numChunks Y := by
  rw [numChunks, numChunks, h]

/-- **When two sequences of one length agree on the key of a chunk**: the tokens up to the end of the chunk are the
same modulo `2 ^ 32`. -/
theorem keyAt_eq_iff_of_length_eq {X Y : List ℤ} (hlength : X.length = Y.length)
    (hfree : HashChain.CollisionFree sha256 (db.messagesOf X) (db.messagesOf Y)) {j : ℕ} (hj : j < db.numChunks X) :
    db.keyAt X j = db.keyAt Y j ↔
      (X.take ((j + 1) * db.chunkSize)).map (· % 2 ^ 32) = (Y.take ((j + 1) * db.chunkSize)).map (· % 2 ^ 32) := by
  have hj' : j < db.numChunks Y := (db.numChunks_congr hlength) ▸ hj
  have hkey : db.keyAt X j = db.keyAt Y j ↔ db.digestAt X j = db.digestAt Y j := by
    simp [keyAt, makeKeyByHash]
  -- the reduced chunks have the messages of the chunks, and the bytes of the reduced tokens determine them
  have hfits : ∀ cs : List (List ℤ), ∀ a ∈ cs.map (List.map (· % 2 ^ 32)), ∀ x ∈ a, FitsUInt32 x := by
    intro cs a ha x hx
    obtain ⟨c, -, rfl⟩ := List.mem_map.1 ha
    obtain ⟨y, -, rfl⟩ := List.mem_map.1 hx
    constructor <;> omega
  have hmessages : HashChain.messages hexdigest hashMessage getInitHash ((db.chunkTokens X).take (j + 1))
        = HashChain.messages hexdigest hashMessage getInitHash ((db.chunkTokens Y).take (j + 1)) ↔
      ((db.chunkTokens X).take (j + 1)).map (List.map (· % 2 ^ 32))
        = ((db.chunkTokens Y).take (j + 1)).map (List.map (· % 2 ^ 32)) := by
    rw [← messages_map_mod, ← messages_map_mod getInitHash ((db.chunkTokens Y).take (j + 1))]
    constructor
    · exact HashChain.eq_of_messages_eq fun a ha b hb p =>
        hashMessage_inj (hfits _ a ha) (hfits _ b hb) p
    · intro h
      rw [h]
  have hflatten : ∀ Z : List ℤ, j < db.numChunks Z →
      (((db.chunkTokens Z).take (j + 1)).map (List.map (· % 2 ^ 32))).flatten
        = (Z.take ((j + 1) * db.chunkSize)).map (· % 2 ^ 32) := by
    intro Z hZ
    rw [← List.map_flatten, db.take_chunkTokens hZ, db.flatten_chunks]
  rw [hkey]
  constructor
  · intro h
    have hchain := HashChain.messages_eq_of_digest_eq_of_length_eq hexdigest_eq_of_hashMessage_eq
      ((db.chunkTokens X).take (j + 1)) ((db.chunkTokens Y).take (j + 1))
      (by simp only [List.length_take, length_chunkTokens, db.numChunks_congr hlength])
      (fun m hm n hn hmn => hfree m (db.messages_take_subset X _ hm) n (db.messages_take_subset Y _ hn)
        (hexdigest_inj hmn)) h
    rw [← hflatten X hj, ← hflatten Y hj', hmessages.1 hchain]
  · intro h
    refine HashChain.digest_eq_of_messages_eq _ _ (hmessages.2 ?_)
    rw [db.take_chunkTokens hj, db.take_chunkTokens hj', List.map_map, List.map_map]
    refine List.map_congr_left fun i hi => ?_
    have hle : (i + 1) * db.chunkSize ≤ (j + 1) * db.chunkSize :=
      Nat.mul_le_mul_right _ (by have := List.mem_range.1 hi; omega)
    have hchunk : ∀ Z : List ℤ, (db.chunk Z i).map (· % 2 ^ 32)
        = (((Z.take ((j + 1) * db.chunkSize)).map (· % 2 ^ 32)).drop (i * db.chunkSize)).take db.chunkSize := by
      intro Z
      rw [← List.map_drop, ← List.map_take, List.drop_take, List.take_take, chunk]
      rw [Nat.succ_mul] at hle
      rw [min_eq_left (by omega)]
    rw [Function.comp_apply, Function.comp_apply, hchunk X, hchunk Y, h]

/-! ### Images and keys -/

/-- **The keys differ from a position on**: those of every chunk that ends behind it. -/
def KeysDiffer (X Y : List ℤ) (p : ℕ) : Prop :=
  ∀ (mask mask' : Option (List Bool)) (s e e' : ℕ) (k k' : CacheEngineKey),
    (s, e, k) ∈ (db.processTokens ⟨.tensor, X⟩ mask).yields →
    (s, e', k') ∈ (db.processTokens ⟨.tensor, Y⟩ mask').yields → p < e → k ≠ k'

/-- Without a mask, every chunk is yielded. -/
theorem chunkAt_mem_yields {X : List ℤ} {j : ℕ} (hj : j < db.numChunks X) :
    db.chunkAt X j ∈ (db.processTokens ⟨.tensor, X⟩ none).yields :=
  db.mem_yields_tensor.2 ⟨0, by rw [numFalses, Nat.zero_mul], j, Nat.zero_le j, hj, rfl⟩

theorem keysDiffer_iff_keyAt {X Y : List ℤ} (hlength : X.length = Y.length) (p : ℕ) :
    db.KeysDiffer X Y p ↔ ∀ j < db.numChunks X, p < min (j * db.chunkSize + db.chunkSize) X.length →
      db.keyAt X j ≠ db.keyAt Y j := by
  constructor
  · intro h j hj hp
    have hj' : j < db.numChunks Y := (db.numChunks_congr hlength) ▸ hj
    exact h none none _ _ _ _ _ (db.chunkAt_mem_yields hj) (db.chunkAt_mem_yields hj') hp
  · intro h mask mask' s e e' k k' hmem hmem' hp
    obtain ⟨-, -, j, -, hj, hy⟩ := db.mem_yields_tensor.1 hmem
    obtain ⟨-, -, j', -, hj', hy'⟩ := db.mem_yields_tensor.1 hmem'
    simp only [chunkAt, Prod.mk.injEq] at hy hy'
    obtain ⟨rfl, rfl, rfl⟩ := hy
    obtain ⟨hs, -, rfl⟩ := hy'
    obtain rfl : j = j' := Nat.eq_of_mul_eq_mul_right db.chunkSize_pos hs
    exact h j hj hp

/-- It is the chunk of the position that decides: the later keys depend on its key. -/
theorem keysDiffer_iff {X Y : List ℤ} (hlength : X.length = Y.length)
    (hfree : HashChain.CollisionFree sha256 (db.messagesOf X) (db.messagesOf Y)) (p : ℕ) :
    db.KeysDiffer X Y p ↔ X.length ≤ p ∨ db.numChunks X ≤ p / db.chunkSize ∨
      (X.take ((p / db.chunkSize + 1) * db.chunkSize)).map (· % 2 ^ 32)
        ≠ (Y.take ((p / db.chunkSize + 1) * db.chunkSize)).map (· % 2 ^ 32) := by
  have hc := db.chunkSize_pos
  have hp := Nat.lt_div_mul_add (a := p) hc
  rw [db.keysDiffer_iff_keyAt hlength]
  constructor
  · intro h
    by_cases hend : X.length ≤ p
    · exact Or.inl hend
    · by_cases hj : db.numChunks X ≤ p / db.chunkSize
      · exact Or.inr (Or.inl hj)
      · have hj' := not_le.1 hj
        have hne := h _ hj' (Nat.lt_min.2 ⟨hp, not_le.1 hend⟩)
        rw [Ne, db.keyAt_eq_iff_of_length_eq hlength hfree hj'] at hne
        exact Or.inr (Or.inr hne)
  · intro h j hj hpj heq
    obtain ⟨hpj, hplen⟩ := Nat.lt_min.1 hpj
    have hle : p / db.chunkSize ≤ j := by
      rw [← Nat.succ_mul] at hpj
      exact Nat.lt_succ_iff.1 ((Nat.div_lt_iff_lt_mul hc).2 hpj)
    rcases h with hend | hnum | hne
    · omega
    · omega
    · refine hne ?_
      -- the tokens up to the end of the later chunk agree, and those up to the end of the earlier one are among them
      have htake := (db.keyAt_eq_iff_of_length_eq hlength hfree hj).1 heq
      have hmul : (p / db.chunkSize + 1) * db.chunkSize ≤ (j + 1) * db.chunkSize :=
        Nat.mul_le_mul_right _ (Nat.succ_le_succ hle)
      have hcut : ∀ Z : List ℤ, (Z.take ((p / db.chunkSize + 1) * db.chunkSize)).map (· % 2 ^ 32)
          = ((Z.take ((j + 1) * db.chunkSize)).map (· % 2 ^ 32)).take ((p / db.chunkSize + 1) * db.chunkSize) := by
        intro Z
        rw [← List.map_take, List.take_take, min_eq_left hmul]
      rw [hcut X, hcut Y, htake]

/-- **When different images have different keys**: no chunk ends behind the position, or what is written differs at
some position up to the end of its chunk. -/
theorem keysDiffer_applyMmHashes_iff {items items' : List (Str × PlaceholderRange)}
    (hhex : ∀ item ∈ items, IsHexHash item.1) (hhex' : ∀ item ∈ items', IsHexHash item.1) (T : List ℤ) (p : ℕ) :
    ∃ X Y, applyMmHashesToTokenIds T items = .ok X ∧ applyMmHashesToTokenIds T items' = .ok Y ∧
      (HashChain.CollisionFree sha256 (db.messagesOf X) (db.messagesOf Y) →
        (db.KeysDiffer X Y p ↔ T.length ≤ p ∨ db.numChunks T ≤ p / db.chunkSize ∨
          ∃ q, q < T.length ∧ q < (p / db.chunkSize + 1) * db.chunkSize ∧
            writtenAt T items q % 2 ^ 32 ≠ writtenAt T items' q % 2 ^ 32)) := by
  obtain ⟨X, hX⟩ := exists_applyMmHashesToTokenIds hhex T
  obtain ⟨Y, hY⟩ := exists_applyMmHashesToTokenIds hhex' T
  refine ⟨X, Y, hX, hY, fun hfree => ?_⟩
  have hlengthX := length_applyMmHashesToTokenIds hX
  have hlengthY := length_applyMmHashesToTokenIds hY
  have htake : (X.take ((p / db.chunkSize + 1) * db.chunkSize)).map (· % 2 ^ 32)
        = (Y.take ((p / db.chunkSize + 1) * db.chunkSize)).map (· % 2 ^ 32) ↔
      ∀ q, q < T.length → q < (p / db.chunkSize + 1) * db.chunkSize →
        writtenAt T items q % 2 ^ 32 = writtenAt T items' q % 2 ^ 32 := by
    rw [List.ext_getElem?_iff]
    refine forall_congr' fun q => ?_
    rw [List.getElem?_map, List.getElem?_map, List.getElem?_take, List.getElem?_take]
    by_cases hq : q < (p / db.chunkSize + 1) * db.chunkSize
    · rw [if_pos hq, if_pos hq]
      by_cases hqT : q < T.length
      · rw [getElem?_applyMmHashesToTokenIds hhex hX hqT, getElem?_applyMmHashesToTokenIds hhex' hY hqT]
        simp [hq, hqT]
      · rw [List.getElem?_eq_none (by omega), List.getElem?_eq_none (by omega)]
        simp [hqT]
    · rw [if_neg hq, if_neg hq]
      simp [hq]
  rw [db.keysDiffer_iff (hlengthX.trans hlengthY.symm) hfree, Ne, htake, hlengthX, db.numChunks_congr hlengthX]
  simp only [not_forall, exists_prop, Ne]

end ChunkedTokenDatabase

/-- **Two requests differ in the hash of an item that covers a position**: the items are at one place in the two
lists. -/
def DifferAt (items items' : List (Str × PlaceholderRange)) (p : ℕ) : Prop :=
  ∃ (i : ℕ) (item item' : Str × PlaceholderRange), items[i]? = some item ∧ items'[i]? = some item' ∧
    item.2.Covers p ∧ item'.2.Covers p ∧ item.1 ≠ item'.1

/-- A database of chunks of one token. -/
def unitDatabase : ChunkedTokenDatabase := ⟨1, true, ⟨['m'], 1, 0, ['v'], (1, 2, 1, 1, 1), false⟩, by decide⟩

/-- The theorem at two images whose hashes differ in their low bits: the keys differ. -/
theorem keysDiffer_applyMmHashes_iff_lowBits :
    ∃ X Y, applyMmHashesToTokenIds [7] [(['a', '1'], ⟨0, 1⟩)] = .ok X ∧
      applyMmHashesToTokenIds [7] [(['a', '2'], ⟨0, 1⟩)] = .ok Y ∧ unitDatabase.KeysDiffer X Y 0 := by
  have hhex : ∀ item ∈ [((['a', '1'] : Str), (⟨0, 1⟩ : PlaceholderRange))], IsHexHash item.1 := by decide
  have hhex' : ∀ item ∈ [((['a', '2'] : Str), (⟨0, 1⟩ : PlaceholderRange))], IsHexHash item.1 := by decide
  obtain ⟨X, Y, hX, hY, hiff⟩ := unitDatabase.keysDiffer_applyMmHashes_iff hhex hhex' [7] 0
  refine ⟨X, Y, hX, hY, (hiff ?_).2 (Or.inr (Or.inr ⟨0, by decide, by decide, by decide⟩))⟩
  obtain rfl : [161] = X := Except.ok.inj hX
  obtain rfl : [162] = Y := Except.ok.inj hY
  unfold HashChain.CollisionFree
  decide +kernel

/-- **Two different images with one key**: their hashes differ above the low bits. -/
theorem not_keysDiffer_highBits :
    DifferAt [(['1', '0', '0', 'a', '1'], ⟨0, 1⟩)] [(['2', '0', '0', 'a', '1'], ⟨0, 1⟩)] 0 ∧
      ∃ X, applyMmHashesToTokenIds [7] [(['1', '0', '0', 'a', '1'], ⟨0, 1⟩)] = .ok X ∧
        applyMmHashesToTokenIds [7] [(['2', '0', '0', 'a', '1'], ⟨0, 1⟩)] = .ok X ∧
        ¬unitDatabase.KeysDiffer X X 0 := by
  refine ⟨⟨0, _, _, rfl, rfl, by decide, by decide, by decide⟩, [161], rfl, rfl, fun h => ?_⟩
  have hmem := unitDatabase.chunkAt_mem_yields (X := [161]) (j := 0) (by decide)
  exact h none none _ _ _ _ _ hmem hmem (by decide) rfl

end InfiniKV
