/-
**SHA-256 and its hexadecimal digest.**

The hash function of the standard library, as a function on lists of bytes: padding, message
schedule, compression, and the digest written out as text.  Every definition is a fold over a list
of fixed length, so a digest can be evaluated by the kernel.

Main definitions:

* `Sha256.sha256` — the digest, 32 bytes;
* `Sha256.hexdigest` — the digest as lower-case hexadecimal text, 64 characters;
* `Sha256.asciiBytes` — the bytes of a text in the ASCII encoding.

Main results:

* `Sha256.length_hexdigest` — the text has 64 characters;
* `Sha256.hexdigest_inj` — two digests with the same text are the same digest;
* `Sha256.le_of_mem_asciiBytes_hexdigest` — every byte of the encoded text is at least `48`, the
  code of `0`;
* `Sha256.asciiBytes_hexdigest_inj` — the encoding of the text loses nothing.
-/

import Mathlib.Algebra.Group.Nat.Defs
import Mathlib.Data.List.Basic

set_option relaxedAutoImplicit false
set_option autoImplicit false

namespace Sha256

/-! ### The compression function -/

/-- The round constants. -/
def roundConstants : List UInt32 :=
  [0x428a2f98, 0x71374491, 0xb5c0fbcf, 0xe9b5dba5, 0x3956c25b, 0x59f111f1, 0x923f82a4, 0xab1c5ed5,
   0xd807aa98, 0x12835b01, 0x243185be, 0x550c7dc3, 0x72be5d74, 0x80deb1fe, 0x9bdc06a7, 0xc19bf174,
   0xe49b69c1, 0xefbe4786, 0x0fc19dc6, 0x240ca1cc, 0x2de92c6f, 0x4a7484aa, 0x5cb0a9dc, 0x76f988da,
   0x983e5152, 0xa831c66d, 0xb00327c8, 0xbf597fc7, 0xc6e00bf3, 0xd5a79147, 0x06ca6351, 0x14292967,
   0x27b70a85, 0x2e1b2138, 0x4d2c6dfc, 0x53380d13, 0x650a7354, 0x766a0abb, 0x81c2c92e, 0x92722c85,
   0xa2bfe8a1, 0xa81a664b, 0xc24b8b70, 0xc76c51a3, 0xd192e819, 0xd6990624, 0xf40e3585, 0x106aa070,
   0x19a4c116, 0x1e376c08, 0x2748774c, 0x34b0bcb5, 0x391c0cb3, 0x4ed8aa4a, 0x5b9cca4f, 0x682e6ff3,
   0x748f82ee, 0x78a5636f, 0x84c87814, 0x8cc70208, 0x90befffa, 0xa4506ceb, 0xbef9a3f7, 0xc67178f2]

/-- The eight working words. -/
structure State where
  (a b c d e f g h : UInt32)

/-- The initial hash value. -/
def initial : State :=
  ⟨0x6a09e667, 0xbb67ae85, 0x3c6ef372, 0xa54ff53a, 0x510e527f, 0x9b05688c, 0x1f83d9ab, 0x5be0cd19⟩

/-- Rotation to the right. -/
def rotr (x n : UInt32) : UInt32 := (x >>> n) ||| (x <<< (32 - n))

/-- The message schedule of a 64-byte block: sixteen words read off the block, and forty-eight
more, each from four of the sixteen words before it.  The list grows at its head. -/
def schedule (block : List UInt8) : List UInt32 :=
  let word := fun i : ℕ =>
    ((block.drop (4 * i)).take 4).foldl (fun (w : UInt32) b => (w <<< 8) ||| b.toUInt32) 0
  let σ₀ := fun x => rotr x 7 ^^^ rotr x 18 ^^^ (x >>> 3)
  let σ₁ := fun x => rotr x 17 ^^^ rotr x 19 ^^^ (x >>> 10)
  ((List.range 48).foldl
    (fun w _ => (σ₁ (w.getD 1 0) + w.getD 6 0 + σ₀ (w.getD 14 0) + w.getD 15 0) :: w)
    ((List.range 16).map word).reverse).reverse

/-- One round, with its constant and its schedule word. -/
def round (s : State) (kw : UInt32 × UInt32) : State :=
  let ch := (s.e &&& s.f) ^^^ (~~~s.e &&& s.g)
  let maj := (s.a &&& s.b) ^^^ (s.a &&& s.c) ^^^ (s.b &&& s.c)
  let t₁ := s.h + (rotr s.e 6 ^^^ rotr s.e 11 ^^^ rotr s.e 25) + ch + kw.1 + kw.2
  let t₂ := (rotr s.a 2 ^^^ rotr s.a 13 ^^^ rotr s.a 22) + maj
  ⟨t₁ + t₂, s.a, s.b, s.c, s.d + t₁, s.e, s.f, s.g⟩

/-- The compression function: sixty-four rounds, added to the state they started from. -/
def compress (s : State) (block : List UInt8) : State :=
  let t := (roundConstants.zip (schedule block)).foldl round s
  ⟨s.a + t.a, s.b + t.b, s.c + t.c, s.d + t.d, s.e + t.e, s.f + t.f, s.g + t.g, s.h + t.h⟩

/-! ### The digest -/

/-- Padding: a one bit, zeros up to eight bytes below a multiple of 64, and the length in bits. -/
def pad (m : List UInt8) : List UInt8 :=
  m ++ 0x80 :: List.replicate ((119 - m.length % 64) % 64) 0 ++
    (List.range 8).map fun i => UInt8.ofNat (8 * m.length / 256 ^ (7 - i))

/-- The 64-byte blocks of a padded message. -/
def blocks (m : List UInt8) : List (List UInt8) :=
  (List.range (m.length / 64)).map fun i => (m.drop (64 * i)).take 64

/-- The bytes of a word, most significant first. -/
def bytesOfWord (w : UInt32) : List UInt8 :=
  [(w >>> 24).toUInt8, (w >>> 16).toUInt8, (w >>> 8).toUInt8, w.toUInt8]

/-- **The digest** of a message. -/
def sha256 (m : List UInt8) : List UInt8 :=
  let s := (blocks (pad m)).foldl compress initial
  [s.a, s.b, s.c, s.d, s.e, s.f, s.g, s.h].flatMap bytesOfWord

@[simp] theorem length_sha256 (m : List UInt8) : (sha256 m).length = 32 := by
  simp [sha256, bytesOfWord]

attribute [irreducible] sha256

/-! ### The digest as text -/

/-- The lower-case hexadecimal digit of a number below sixteen. -/
def hexDigit (n : ℕ) : Char := Char.ofNat (if n < 10 then 48 + n else 87 + n)

/-- The two digits of a byte. -/
def hexPair (b : UInt8) : List Char := [hexDigit (b.toNat / 16), hexDigit (b.toNat % 16)]

/-- The digest of a message as lower-case hexadecimal text. -/
def hexdigest (m : List UInt8) : List Char := (sha256 m).flatMap hexPair

/-- The bytes of a text in the ASCII encoding. -/
def asciiBytes (s : List Char) : List UInt8 := s.map fun c => UInt8.ofNat c.toNat

@[simp] theorem length_asciiBytes (s : List Char) : (asciiBytes s).length = s.length := by
  simp [asciiBytes]

@[simp] theorem asciiBytes_nil : asciiBytes [] = [] := rfl

theorem length_flatMap_hexPair (bs : List UInt8) : (bs.flatMap hexPair).length = 2 * bs.length := by
  induction bs with
  | nil => rfl
  | cons b bs ih => simp [List.flatMap_cons, hexPair, ih]; omega

@[simp] theorem length_hexdigest (m : List UInt8) : (hexdigest m).length = 64 := by
  rw [hexdigest, length_flatMap_hexPair, length_sha256]

theorem toNat_hexDigit {n : ℕ} (h : n < 16) :
    (hexDigit n).toNat = if n < 10 then 48 + n else 87 + n := by
  have hv : (if n < 10 then 48 + n else 87 + n).isValidChar := by
    left; split <;> omega
  rw [hexDigit, Char.ofNat, dif_pos hv, Char.toNat]
  rfl

theorem hexDigit_inj {m n : ℕ} (hm : m < 16) (hn : n < 16) (h : hexDigit m = hexDigit n) :
    m = n := by
  have h' := congrArg Char.toNat h
  rw [toNat_hexDigit hm, toNat_hexDigit hn] at h'
  split at h' <;> split at h' <;> omega

theorem hexPair_inj {a b : UInt8} (h : hexPair a = hexPair b) : a = b := by
  have ha := a.toNat_lt
  have hb := b.toNat_lt
  simp only [hexPair, List.cons.injEq, and_true] at h
  have h₁ := hexDigit_inj (by omega) (by omega) h.1
  have h₂ := hexDigit_inj (by omega) (by omega) h.2
  exact UInt8.toNat_inj.1 (by omega)

theorem flatMap_hexPair_inj : ∀ {as bs : List UInt8},
    as.flatMap hexPair = bs.flatMap hexPair → as = bs
  | [], [], _ => rfl
  | [], b :: bs, h => by simp [List.flatMap_cons, hexPair] at h
  | a :: as, [], h => by simp [List.flatMap_cons, hexPair] at h
  | a :: as, b :: bs, h => by
      rw [List.flatMap_cons, List.flatMap_cons] at h
      obtain ⟨h₁, h₂⟩ := List.append_inj h rfl
      rw [hexPair_inj h₁, flatMap_hexPair_inj h₂]

/-- Two digests with the same text are the same digest. -/
theorem hexdigest_inj {m n : List UInt8} (h : hexdigest m = hexdigest n) : sha256 m = sha256 n :=
  flatMap_hexPair_inj h

/-- A character of a digest is a hexadecimal digit. -/
theorem exists_hexDigit_of_mem {m : List UInt8} {c : Char} (h : c ∈ hexdigest m) :
    ∃ n < 16, c = hexDigit n := by
  obtain ⟨b, -, hc⟩ := List.mem_flatMap.1 h
  have hb := b.toNat_lt
  rcases List.mem_cons.1 hc with rfl | hc
  · exact ⟨_, by omega, rfl⟩
  · rcases List.mem_cons.1 hc with rfl | hc
    · exact ⟨_, by omega, rfl⟩
    · simp at hc

/-- Every byte of an encoded digest is at least the code of the digit `0`. -/
theorem le_of_mem_asciiBytes_hexdigest {m : List UInt8} {b : UInt8}
    (h : b ∈ asciiBytes (hexdigest m)) : 48 ≤ b.toNat := by
  obtain ⟨c, hc, rfl⟩ := List.mem_map.1 h
  obtain ⟨n, hn, rfl⟩ := exists_hexDigit_of_mem hc
  rw [toNat_hexDigit hn, UInt8.toNat_ofNat']
  split <;> omega

/-- The encoding of a digest loses nothing. -/
theorem asciiBytes_hexdigest_inj {m n : List UInt8}
    (h : asciiBytes (hexdigest m) = asciiBytes (hexdigest n)) : hexdigest m = hexdigest n := by
  refine List.ext_getElem (by simp) fun k h₁ h₂ => ?_
  have hk : (asciiBytes (hexdigest m))[k]? = (asciiBytes (hexdigest n))[k]? := by rw [h]
  simp only [asciiBytes, List.getElem?_map, List.getElem?_eq_getElem h₁,
    List.getElem?_eq_getElem h₂, Option.map_some, Option.some_inj] at hk
  obtain ⟨i, hi, hmi⟩ := exists_hexDigit_of_mem (List.getElem_mem h₁)
  obtain ⟨j, hj, hnj⟩ := exists_hexDigit_of_mem (List.getElem_mem h₂)
  rw [hmi, hnj] at hk ⊢
  have h' := congrArg UInt8.toNat hk
  rw [toNat_hexDigit hi, toNat_hexDigit hj, UInt8.toNat_ofNat', UInt8.toNat_ofNat'] at h'
  have hij : i = j := by split at h' <;> split at h' <;> omega
  rw [hij]

/-- The digest of the three bytes `abc`. -/
example : (hexdigest [0x61, 0x62, 0x63]).take 8 = ['b', 'a', '7', '8', '1', '6', 'b', 'f'] := by
  decide +kernel

end Sha256
