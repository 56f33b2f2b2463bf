/-
**The keys of the token database identify prefixes.**

The hash of a chunk is taken over the hexadecimal text of the preceding digest followed by the raw
bytes of the tokens; nothing marks where the one ends and the other begins, and the first chunk has
no text before it.  What keeps a first chunk apart from a later one is the range of the token ids:
the text is made of bytes from `48` on, while the most significant byte of a token id below `2 ^ 28`
is below `16`.

Main definitions:

* `InfiniKV.TokenId` — the range of token ids: vocabularies and 16-bit multimodal hashes lie in it;
* `InfiniKV.ChunkedTokenDatabase.messagesOf` — the messages hashed for a token sequence.

Main results:

* `InfiniKV.hashMessage_nil_ne` — **no first message is a later message**;
* `InfiniKV.ChunkedTokenDatabase.digestAt_eq_iff` — a digest determines the prefix it was taken of;
* `InfiniKV.ChunkedTokenDatabase.processTokens_key_sound` — **two keys are equal exactly when the
  ranges and the prefixes are**, and the form of the tokens does not matter.
-/

import InfiniKV.TokenDatabase

set_option relaxedAutoImplicit false
set_option autoImplicit false

namespace InfiniKV

open Sha256

/-- The range of token ids. -/
def TokenId (x : ℤ) : Prop := 0 ≤ x ∧ x < 2 ^ 28

instance : DecidablePred TokenId := fun x => inferInstanceAs (Decidable (0 ≤ x ∧ x < 2 ^ 28))

theorem TokenId.fitsUInt32 {x : ℤ} (h : TokenId x) : FitsUInt32 x := by
  obtain ⟨h₁, h₂⟩ := h
  constructor <;> omega

/-! ### Bytes of tokens -/

@[simp] theorem wordBytes_nil : wordBytes [] = [] := rfl

theorem wordBytes_cons (x : ℤ) (xs : List ℤ) :
    wordBytes (x :: xs) = uint32Bytes (x % 2 ^ 32).toNat ++ wordBytes xs := rfl

theorem length_wordBytes (xs : List ℤ) : (wordBytes xs).length = 4 * xs.length := by
  induction xs with
  | nil => rfl
  | cons x xs ih =>
      rw [wordBytes_cons, List.length_append, ih, length_uint32Bytes, List.length_cons]
      omega

/-- The bytes of tokens that fit determine the tokens. -/
theorem wordBytes_inj : ∀ {xs ys : List ℤ}, (∀ x ∈ xs, FitsUInt32 x) → (∀ y ∈ ys, FitsUInt32 y) →
    wordBytes xs = wordBytes ys → xs = ys
  | [], [], _, _, _ => rfl
  | [], y :: ys, _, _, h => by simp [wordBytes_cons, uint32Bytes] at h
  | x :: xs, [], _, _, h => by simp [wordBytes_cons, uint32Bytes] at h
  | x :: xs, y :: ys, hx, hy, h => by
      rw [wordBytes_cons, wordBytes_cons] at h
      obtain ⟨h₁, h₂⟩ := List.append_inj h rfl
      obtain ⟨hx₁, hx₂⟩ := hx x (by simp)
      obtain ⟨hy₁, hy₂⟩ := hy y (by simp)
      have hxy := uint32Bytes_inj (by omega) (by omega) h₁
      rw [show x = y by omega, wordBytes_inj (fun z hz => hx z (List.mem_cons_of_mem _ hz))
        (fun z hz => hy z (List.mem_cons_of_mem _ hz)) h₂]

/-! ### Framing -/

/-- The preceding digest can be read off a message. -/
theorem hexdigest_eq_of_hashMessage_eq (m n : List UInt8) (a b : List ℤ)
    (h : hashMessage (hexdigest m) a = hashMessage (hexdigest n) b) : hexdigest m = hexdigest n :=
  asciiBytes_hexdigest_inj (List.append_inj h (by simp)).1

/-- **No first message is a later message**, if it starts with a token id: its fourth byte is below
`16`, and that of a later message is the code of a hexadecimal digit. -/
theorem hashMessage_nil_ne {x : ℤ} (hx : TokenId x) (xs b : List ℤ) (m : List UInt8) :
    hashMessage [] (x :: xs) ≠ hashMessage (hexdigest m) b := by
  intro h
  obtain ⟨hx₁, hx₂⟩ := hx
  have h₃ := congrArg (fun l => l[3]?) h
  have hlen : 3 < (asciiBytes (hexdigest m)).length := by simp
  simp only [hashMessage, asciiBytes_nil, List.nil_append, wordBytes_cons,
    List.getElem?_append_left hlen] at h₃
  have hmem := List.mem_of_getElem? h₃.symm
  have hle := le_of_mem_asciiBytes_hexdigest hmem
  rw [UInt8.toNat_ofNat'] at hle
  omega

theorem length_hashMessage_nil (a : List ℤ) : (hashMessage [] a).length = 4 * a.length := by
  simp [hashMessage, length_wordBytes]

theorem length_hashMessage_hexdigest (m : List UInt8) (a : List ℤ) :
    (hashMessage (hexdigest m) a).length = 64 + 4 * a.length := by
  simp [hashMessage, length_wordBytes]

theorem hashMessage_inj {a b : List ℤ} (ha : ∀ x ∈ a, FitsUInt32 x) (hb : ∀ x ∈ b, FitsUInt32 x)
    (p : Str) (h : hashMessage p a = hashMessage p b) : a = b :=
  wordBytes_inj ha hb (List.append_cancel_left h)

namespace ChunkedTokenDatabase

variable (db : ChunkedTokenDatabase)

/-- The messages hashed for a token sequence. -/
def messagesOf (X : List ℤ) : List (List UInt8) :=
  HashChain.messages hexdigest hashMessage getInitHash (db.chunkTokens X)

/-! ### From digests to prefixes -/

theorem mem_of_mem_chunk {X : List ℤ} {j : ℕ} {x : ℤ} (h : x ∈ db.chunk X j) : x ∈ X :=
  List.mem_of_mem_drop (List.mem_of_mem_take h)

/-- The first chunks of a sequence, put together, are its first tokens. -/
theorem flatten_chunks (X : List ℤ) (n : ℕ) :
    ((List.range n).map (db.chunk X)).flatten = X.take (n * db.chunkSize) := by
  induction n with
  | zero => simp
  | succ n ih =>
      rw [List.range_succ, List.map_append, List.flatten_append, ih, Nat.succ_mul, List.take_add]
      simp [chunk]

theorem messages_take_subset (X : List ℤ) (n : ℕ) :
    HashChain.messages hexdigest hashMessage getInitHash ((db.chunkTokens X).take n) ⊆
      db.messagesOf X := by
  intro m hm
  rw [messagesOf, ← List.take_append_drop n (db.chunkTokens X), HashChain.messages_append]
  exact List.mem_append_left _ hm

theorem mem_chunkTokens {X a : List ℤ} (h : a ∈ db.chunkTokens X) :
    ∃ j < db.numChunks X, a = db.chunk X j := by
  rw [chunkTokens_eq] at h
  obtain ⟨j, hj, rfl⟩ := List.mem_map.1 h
  exact ⟨j, List.mem_range.1 hj, rfl⟩

/-- No first message of one sequence is a later message of the other one. -/
def Separated (X Y : List ℤ) : Prop :=
  ∀ a ∈ db.chunkTokens X, ∀ b ∈ db.chunkTokens Y, ∀ m,
    hashMessage getInitHash a ≠ hashMessage (hexdigest m) b ∧
      hashMessage (hexdigest m) a ≠ hashMessage getInitHash b

/-- Token ids keep first messages and later ones apart. -/
theorem separated_of_tokenId {X Y : List ℤ} (hX : ∀ x ∈ X, TokenId x) (hY : ∀ y ∈ Y, TokenId y) :
    db.Separated X Y := by
  have hfirst : ∀ Z : List ℤ, (∀ z ∈ Z, TokenId z) → ∀ a ∈ db.chunkTokens Z, ∀ (b : List ℤ)
      (m : List UInt8), hashMessage getInitHash a ≠ hashMessage (hexdigest m) b := by
    intro Z hZ a ha b m
    obtain ⟨j, hj, rfl⟩ := db.mem_chunkTokens ha
    cases hchunk : db.chunk Z j with
    | nil => exact absurd hchunk (db.chunk_ne_nil hj)
    | cons x xs =>
        have hx : x ∈ db.chunk Z j := hchunk ▸ List.mem_cons_self ..
        exact hashMessage_nil_ne (hZ x (db.mem_of_mem_chunk hx)) xs b m
  intro a ha b hb m
  exact ⟨hfirst X hX a ha b m, (hfirst Y hY b hb a m).symm⟩

/-- Messages of full chunks are kept apart by their lengths. -/
theorem separated_of_full (hfull : db.saveUnfullChunk = false) (X Y : List ℤ) : db.Separated X Y := by
  have hlen : ∀ Z : List ℤ, ∀ a ∈ db.chunkTokens Z, a.length = db.chunkSize := by
    intro Z a ha
    obtain ⟨j, hj, rfl⟩ := db.mem_chunkTokens ha
    have hle : (j + 1) * db.chunkSize ≤ Z.length := by
      rw [numChunks, hfull] at hj
      exact (Nat.le_div_iff_mul_le db.chunkSize_pos).1 hj
    rw [Nat.succ_mul] at hle
    rw [chunk, List.length_take, List.length_drop]
    omega
  intro a ha b hb m
  have hlena := hlen X a ha
  have hlenb := hlen Y b hb
  constructor
  · intro h
    have := congrArg List.length h
    rw [getInitHash, length_hashMessage_nil, length_hashMessage_hexdigest] at this
    omega
  · intro h
    have := congrArg List.length h
    rw [getInitHash, length_hashMessage_nil, length_hashMessage_hexdigest] at this
    omega

/-- Equal digests end chains of the same messages. -/
theorem messages_eq_of_digestAt_eq {X Y : List ℤ} (hsep : db.Separated X Y)
    (hfree : HashChain.CollisionFree sha256 (db.messagesOf X) (db.messagesOf Y)) {i j : ℕ}
    (hi : i < db.numChunks X) (hj : j < db.numChunks Y) (h : db.digestAt X i = db.digestAt Y j) :
    HashChain.messages hexdigest hashMessage getInitHash ((db.chunkTokens X).take (i + 1)) =
      HashChain.messages hexdigest hashMessage getInitHash ((db.chunkTokens Y).take (j + 1)) :=
  HashChain.messages_eq_of_digest_eq hexdigest_eq_of_hashMessage_eq _ _
    (by simp [← List.length_pos_iff]; omega) (by simp [← List.length_pos_iff]; omega)
    (fun a ha b hb => hsep a (List.mem_of_mem_take ha) b (List.mem_of_mem_take hb))
    (fun m hm n hn hmn => hfree m (db.messages_take_subset X _ hm) n
      (db.messages_take_subset Y _ hn) (hexdigest_inj hmn)) h

/-- **A digest determines the digests before it.** -/
theorem digestAt_eq_of_le {X Y : List ℤ} (hsep : db.Separated X Y)
    (hfree : HashChain.CollisionFree sha256 (db.messagesOf X) (db.messagesOf Y)) {i j : ℕ}
    (hi : i < db.numChunks X) (hj : j < db.numChunks Y) (h : db.digestAt X i = db.digestAt Y j) :
    i = j ∧ ∀ k ≤ i, db.digestAt X k = db.digestAt Y k := by
  have hmsgs := db.messages_eq_of_digestAt_eq hsep hfree hi hj h
  have hij : i = j := by
    have := congrArg List.length hmsgs
    simp only [HashChain.length_messages, List.length_take, length_chunkTokens] at this
    omega
  subst hij
  refine ⟨rfl, fun k hk => HashChain.digest_eq_of_messages_eq _ _ ?_⟩
  have htake := congrArg (List.take (k + 1)) hmsgs
  rw [← HashChain.messages_take, ← HashChain.messages_take, List.take_take, List.take_take,
    min_eq_left (by omega)] at htake
  exact htake

/-- A digest determines the prefix it was taken of. -/
theorem digestAt_eq_iff {X Y : List ℤ} (hX : ∀ x ∈ X, TokenId x) (hY : ∀ y ∈ Y, TokenId y)
    (hfree : HashChain.CollisionFree sha256 (db.messagesOf X) (db.messagesOf Y)) {i j : ℕ}
    (hi : i < db.numChunks X) (hj : j < db.numChunks Y) :
    db.digestAt X i = db.digestAt Y j ↔
      i = j ∧ X.take ((i + 1) * db.chunkSize) = Y.take ((i + 1) * db.chunkSize) := by
  constructor
  · intro h
    have hfits : ∀ Z : List ℤ, (∀ z ∈ Z, TokenId z) → ∀ n, ∀ a ∈ (db.chunkTokens Z).take n, ∀ z ∈ a,
        FitsUInt32 z := by
      intro Z hZ n a ha z hz
      obtain ⟨k, -, rfl⟩ := db.mem_chunkTokens (List.mem_of_mem_take ha)
      exact (hZ z (db.mem_of_mem_chunk hz)).fitsUInt32
    -- the chains are made of the same messages, hence of the same chunks
    have hmsgs := db.messages_eq_of_digestAt_eq (db.separated_of_tokenId hX hY) hfree hi hj h
    have hchunks : (db.chunkTokens X).take (i + 1) = (db.chunkTokens Y).take (j + 1) :=
      HashChain.eq_of_messages_eq (fun a ha b hb p => hashMessage_inj (hfits X hX _ a ha)
        (hfits Y hY _ b hb) p) hmsgs
    rw [db.take_chunkTokens hi, db.take_chunkTokens hj] at hchunks
    have hij : i = j := by simpa using congrArg List.length hchunks
    subst hij
    exact ⟨rfl, by simpa only [flatten_chunks] using congrArg List.flatten hchunks⟩
  · rintro ⟨rfl, h⟩
    have := db.keyAt_congr hi hj h
    simpa [keyAt, makeKeyByHash] using this

/-- What a generator yields is a chunk of the sequence, whatever the mask and the form. -/
theorem exists_of_mem_yields {tokens : Tokens} {mask : Option (List Bool)}
    (hfit : ∀ x ∈ tokens.ids, FitsUInt32 x) {y : ℕ × ℕ × CacheEngineKey}
    (h : y ∈ (db.processTokens tokens mask).yields) :
    ∃ j < db.numChunks tokens.ids, y = db.chunkAt tokens.ids j := by
  obtain ⟨form, X⟩ := tokens
  have hform : db.processTokens ⟨form, X⟩ mask = db.processTokens ⟨.tensor, X⟩ mask := by
    cases form with
    | tensor => rfl
    | list => exact db.processTokens_list X mask hfit
  rw [hform] at h
  obtain ⟨-, -, j, -, hj, rfl⟩ := db.mem_yields_tensor.1 h
  exact ⟨j, hj, rfl⟩

/-- **Key soundness and completeness.**  For token ids, and a hash function without collisions
between the messages of the two sequences, the keys yielded for two chunks are equal exactly when
the chunks have the same range and the sequences agree up to the end of it; and what is yielded does
not depend on whether the tokens come as a tensor or as a list. -/
theorem processTokens_key_sound (X Y : List ℤ) (hX : ∀ x ∈ X, TokenId x) (hY : ∀ y ∈ Y, TokenId y)
    (hfree : HashChain.CollisionFree sha256 (db.messagesOf X) (db.messagesOf Y)) :
    (∀ (form form' : TokenForm) (mask mask' : Option (List Bool)) (s e s' e' : ℕ)
        (k k' : CacheEngineKey),
      (s, e, k) ∈ (db.processTokens ⟨form, X⟩ mask).yields →
      (s', e', k') ∈ (db.processTokens ⟨form', Y⟩ mask').yields →
      (k = k' ↔ (s, e) = (s', e') ∧ X.take e = Y.take e)) ∧
    ∀ mask, db.processTokens ⟨.list, X⟩ mask = db.processTokens ⟨.tensor, X⟩ mask := by
  refine ⟨?_, fun mask => db.processTokens_list X mask fun x hx => (hX x hx).fitsUInt32⟩
  intro form form' mask mask' s e s' e' k k' h h'
  obtain ⟨i, hi, hy⟩ := db.exists_of_mem_yields (fun x hx => (hX x hx).fitsUInt32) h
  obtain ⟨j, hj, hy'⟩ := db.exists_of_mem_yields (fun x hx => (hY x hx).fitsUInt32) h'
  simp only [chunkAt, Prod.mk.injEq] at hy hy'
  obtain ⟨rfl, rfl, rfl⟩ := hy
  obtain ⟨rfl, rfl, rfl⟩ := hy'
  have hkey : db.keyAt X i = db.keyAt Y j ↔ db.digestAt X i = db.digestAt Y j := by
    simp [keyAt, makeKeyByHash]
  have hend : ∀ Z : List ℤ, Z.take (min (i * db.chunkSize + db.chunkSize) Z.length) =
      Z.take ((i + 1) * db.chunkSize) := by
    intro Z
    rw [Nat.succ_mul, ← List.take_eq_take_min]
  rw [hkey, db.digestAt_eq_iff hX hY hfree hi hj]
  constructor
  · rintro ⟨rfl, hXY⟩
    have hlen : min (i * db.chunkSize + db.chunkSize) X.length =
        min (i * db.chunkSize + db.chunkSize) Y.length := by
      simpa [Nat.succ_mul] using congrArg List.length hXY
    refine ⟨by rw [hlen], ?_⟩
    rw [hend X, hlen, hend Y, hXY]
  · rintro ⟨hrange, hXY⟩
    simp only [Prod.mk.injEq] at hrange
    have hij : i = j := Nat.eq_of_mul_eq_mul_right db.chunkSize_pos hrange.1
    subst hij
    refine ⟨rfl, ?_⟩
    rw [← hend X, hXY, hrange.2, hend Y]

/-- The theorem at two sequences that share their first chunk: the first keys agree, the second keys
do not. -/
theorem processTokens_key_sound_shared_prefix :
    let db : ChunkedTokenDatabase := ⟨2, true, ⟨['m'], 1, 0, ['v'], (1, 2, 2, 1, 1), false⟩, by decide⟩
    db.keyAt [1, 2, 3] 0 = db.keyAt [1, 2, 4] 0 ∧ db.keyAt [1, 2, 3] 1 ≠ db.keyAt [1, 2, 4] 1 := by
  intro db
  have hyields : ∀ X : List ℤ, ∀ j < db.numChunks X,
      db.chunkAt X j ∈ (db.processTokens ⟨.tensor, X⟩ none).yields := by
    intro X j hj
    rw [db.processTokens_tensor X (k := 0) (by simp [numFalses])]
    exact List.mem_map_of_mem (List.mem_range'_1.2 ⟨Nat.zero_le _, by omega⟩)
  have hfree : HashChain.CollisionFree sha256 (db.messagesOf [1, 2, 3]) (db.messagesOf [1, 2, 4]) := by
    unfold HashChain.CollisionFree
    decide +kernel
  obtain ⟨hkey, -⟩ := db.processTokens_key_sound [1, 2, 3] [1, 2, 4] (by decide) (by decide) hfree
  constructor
  · exact (hkey .tensor .tensor none none _ _ _ _ _ _ (hyields _ 0 (by decide))
      (hyields _ 0 (by decide))).2 (by decide)
  · intro h
    have h₂ := (hkey .tensor .tensor none none _ _ _ _ _ _ (hyields _ 1 (by decide))
      (hyields _ 1 (by decide))).1 h
    exact absurd h₂.2 (by decide)

end ChunkedTokenDatabase

end InfiniKV
