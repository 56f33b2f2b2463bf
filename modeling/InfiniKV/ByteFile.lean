/-
**Files of bytes, and records in them.**

A file is a size and the bytes below it.  Records of a fixed size are written at an offset and read
back from there; two accesses whose ranges do not meet do not see each other.

Main definitions:

* `ByteFile` — a file, `ByteFile.read` and `ByteFile.write`;
* `Codec` — a type of records, each a fixed number of bytes, with the codecs of unsigned integers,
  of byte arrays, of pairs and of structures;
* `ByteFile.get`, `ByteFile.put` — reading and writing a record at an offset;
* `packBits`, `unpackBit` — a bitmap, eight slots to a byte, the least significant bit first.

Main results:

* `ByteFile.get_put_self`, `ByteFile.get_put_of_disjoint` — **what is read after a record was
  written**, at its place and elsewhere;
* `unpackBit_packBits` — a bitmap is read back as it was written.
-/

import Mathlib.Data.Fin.Tuple.Basic
import Mathlib.Data.List.Basic
import Mathlib.Tactic.Ring

set_option relaxedAutoImplicit false
set_option autoImplicit false

/-- A file: its size, and the bytes below it. -/
structure ByteFile where
  size : ℕ
  byte : ℕ → UInt8

namespace ByteFile

/-- The file without bytes. -/
def empty : ByteFile := ⟨0, fun _ => 0⟩

/-- The `n` bytes at `offset`, unless the file ends before. -/
def read (f : ByteFile) (offset n : ℕ) : Option (List UInt8) :=
  if offset + n ≤ f.size then some ((List.range n).map fun i => f.byte (offset + i)) else none

/-- Put bytes at `offset`.  A gap behind the old end is filled with zeros. -/
def write (f : ByteFile) (offset : ℕ) (bytes : List UInt8) : ByteFile where
  size := if bytes = [] then f.size else max f.size (offset + bytes.length)
  byte i :=
    if offset ≤ i ∧ i < offset + bytes.length then bytes.getD (i - offset) 0
    else if i < f.size then f.byte i else 0

variable (f : ByteFile)

theorem read_eq_some_iff {offset n : ℕ} {bytes : List UInt8} :
    f.read offset n = some bytes ↔
      offset + n ≤ f.size ∧ bytes = (List.range n).map fun i => f.byte (offset + i) := by
  rw [read]
  split_ifs with h
  · simp [h, eq_comm]
  · simp [h]

/-- Reading looks at the size and at the bytes of the range only. -/
theorem read_congr {f g : ByteFile} {offset n : ℕ} (hsize : g.size = f.size)
    (hbyte : ∀ i < n, g.byte (offset + i) = f.byte (offset + i)) : g.read offset n = f.read offset n := by
  rw [read, read, hsize]
  congr 2
  apply List.map_congr_left
  intro i hi
  exact hbyte i (List.mem_range.mp hi)

theorem size_le_size_write (offset : ℕ) (bytes : List UInt8) :
    f.size ≤ (f.write offset bytes).size := by
  simp only [write]
  split_ifs
  · exact le_rfl
  · exact le_max_left _ _

theorem size_write {offset : ℕ} {bytes : List UInt8} (hne : bytes ≠ []) :
    (f.write offset bytes).size = max f.size (offset + bytes.length) := if_neg hne

theorem le_size_write {offset : ℕ} {bytes : List UInt8} (hne : bytes ≠ []) :
    offset + bytes.length ≤ (f.write offset bytes).size := by
  rw [f.size_write hne]
  exact le_max_right _ _

/-- A write that ends within the file does not change its size. -/
theorem size_write_of_le {offset : ℕ} {bytes : List UInt8} (h : offset + bytes.length ≤ f.size) :
    (f.write offset bytes).size = f.size := by
  simp only [write]
  split_ifs
  · rfl
  · exact max_eq_left h

/-- What was written is read back. -/
theorem read_write_self (offset : ℕ) {bytes : List UInt8} (hne : bytes ≠ []) :
    (f.write offset bytes).read offset bytes.length = some bytes := by
  rw [read_eq_some_iff]
  refine ⟨f.le_size_write hne, ?_⟩
  apply List.ext_getElem
  · simp
  · intro i hi hi'
    simp [write, hi]

/-- Bytes that were there and lie outside of the written range are read as before. -/
theorem read_write_of_disjoint {offset offset' n : ℕ} {bytes : List UInt8}
    (hd : offset + bytes.length ≤ offset' ∨ offset' + n ≤ offset) (hin : offset' + n ≤ f.size) :
    (f.write offset bytes).read offset' n = f.read offset' n := by
  rw [read, read, if_pos hin, if_pos (hin.trans (f.size_le_size_write _ _))]
  congr 1
  apply List.map_congr_left
  intro i hi
  have hi' := List.mem_range.mp hi
  have hout : ¬(offset ≤ offset' + i ∧ offset' + i < offset + bytes.length) := by omega
  simp only [write, if_neg hout]
  rw [if_pos (by omega)]

end ByteFile

/-! ### Codecs -/

/-- Records that take a fixed number of bytes. -/
structure Codec (α : Type) where
  size : ℕ
  encode : α → List UInt8
  decode : List UInt8 → α
  length_encode : ∀ a, (encode a).length = size
  decode_encode : ∀ a, decode (encode a) = a

/-- The `w` bytes of a number, the least significant first. -/
def leBytes : ℕ → ℕ → List UInt8
  | 0, _ => []
  | w + 1, n => UInt8.ofNat n :: leBytes w (n / 256)

/-- The number with the given bytes. -/
def leNat : List UInt8 → ℕ
  | [] => 0
  | b :: bs => b.toNat + 256 * leNat bs

theorem length_leBytes (w n : ℕ) : (leBytes w n).length = w := by
  induction w generalizing n with
  | zero => rfl
  | succ w ih => rw [leBytes, List.length_cons, ih]

theorem leNat_leBytes (w n : ℕ) : leNat (leBytes w n) = n % 256 ^ w := by
  induction w generalizing n with
  | zero => simp [leBytes, leNat, Nat.mod_one]
  | succ w ih =>
      have hbyte : (2 : ℕ) ^ 8 = 256 := rfl
      rw [leBytes, leNat, ih, UInt8.toNat_ofNat', hbyte, pow_succ', Nat.mod_mul]

namespace Codec

variable {α β : Type}

/-- `uint8_t`. -/
def u8 : Codec UInt8 where
  size := 1
  encode x := leBytes 1 x.toNat
  decode bs := UInt8.ofNat (leNat bs)
  length_encode x := length_leBytes 1 _
  decode_encode x := by
    rw [leNat_leBytes, Nat.mod_eq_of_lt (by simpa using x.toNat_lt), UInt8.ofNat_toNat]

/-- `uint32_t`. -/
def u32 : Codec UInt32 where
  size := 4
  encode x := leBytes 4 x.toNat
  decode bs := UInt32.ofNat (leNat bs)
  length_encode x := length_leBytes 4 _
  decode_encode x := by
    rw [leNat_leBytes, Nat.mod_eq_of_lt (by simpa using x.toNat_lt), UInt32.ofNat_toNat]

/-- `uint64_t`. -/
def u64 : Codec UInt64 where
  size := 8
  encode x := leBytes 8 x.toNat
  decode bs := UInt64.ofNat (leNat bs)
  length_encode x := length_leBytes 8 _
  decode_encode x := by
    rw [leNat_leBytes, Nat.mod_eq_of_lt (by simpa using x.toNat_lt), UInt64.ofNat_toNat]

/-- An array of `n` bytes. -/
def bytes (n : ℕ) : Codec (Vector UInt8 n) where
  size := n
  encode v := v.toList
  decode bs := Vector.ofFn fun i => bs.getD i 0
  length_encode v := by simp
  decode_encode v := by
    ext i hi
    simp

/-- Padding: `n` zero bytes that carry nothing. -/
def pad (n : ℕ) : Codec Unit where
  size := n
  encode _ := List.replicate n 0
  decode _ := ()
  length_encode _ := List.length_replicate
  decode_encode _ := rfl

/-- One record behind another. -/
def pair (c : Codec α) (d : Codec β) : Codec (α × β) where
  size := c.size + d.size
  encode p := c.encode p.1 ++ d.encode p.2
  decode bs := (c.decode (bs.take c.size), d.decode (bs.drop c.size))
  length_encode p := by rw [List.length_append, c.length_encode, d.length_encode]
  decode_encode p := by
    rw [List.take_left' (c.length_encode p.1), List.drop_left' (c.length_encode p.1),
      c.decode_encode, d.decode_encode]

/-- An array of `n` records. -/
def array (c : Codec α) : (n : ℕ) → Codec (Fin n → α)
  | 0 => {
      size := 0
      encode _ := []
      decode _ := Fin.elim0
      length_encode _ := rfl
      decode_encode a := by
        funext i
        exact i.elim0 }
  | n + 1 =>
      let rest := array c n
      { size := c.size + rest.size
        encode a := c.encode (a 0) ++ rest.encode fun i => a i.succ
        decode bs := Fin.cons (c.decode (bs.take c.size)) (rest.decode (bs.drop c.size))
        length_encode a := by rw [List.length_append, c.length_encode, rest.length_encode]
        decode_encode a := by
          rw [List.take_left' (c.length_encode _), List.drop_left' (c.length_encode _),
            c.decode_encode, rest.decode_encode]
          exact Fin.cons_self_tail a }

/-- A structure is encoded as the tuple of its fields. -/
def ofFields (c : Codec β) (fields : α → β) (make : β → α) (h : ∀ a, make (fields a) = a) :
    Codec α where
  size := c.size
  encode a := c.encode (fields a)
  decode bs := make (c.decode bs)
  length_encode a := c.length_encode _
  decode_encode a := by rw [c.decode_encode, h]

theorem encode_ne_nil (c : Codec α) (hc : 0 < c.size) (a : α) : c.encode a ≠ [] := by
  intro h
  have hlen := c.length_encode a
  rw [h, List.length_nil] at hlen
  omega

end Codec

/-! ### Records in files -/

namespace ByteFile

variable {α β : Type} (f : ByteFile)

/-- The record at `offset`, unless the file ends before. -/
def get (c : Codec α) (offset : ℕ) : Option α := (f.read offset c.size).map c.decode

/-- Write a record at `offset`. -/
def put (c : Codec α) (offset : ℕ) (a : α) : ByteFile := f.write offset (c.encode a)

theorem size_le_size_put (c : Codec α) (offset : ℕ) (a : α) : f.size ≤ (f.put c offset a).size :=
  f.size_le_size_write _ _

theorem size_put {c : Codec α} (hc : 0 < c.size) (offset : ℕ) (a : α) :
    (f.put c offset a).size = max f.size (offset + c.size) := by
  rw [put, f.size_write (c.encode_ne_nil hc a), c.length_encode]

theorem size_put_of_le {c : Codec α} {offset : ℕ} (a : α) (h : offset + c.size ≤ f.size) :
    (f.put c offset a).size = f.size :=
  f.size_write_of_le (by rwa [c.length_encode])

/-- **A record is read back** at the place where it was written. -/
theorem get_put_self {c : Codec α} (hc : 0 < c.size) (offset : ℕ) (a : α) :
    (f.put c offset a).get c offset = some a := by
  have hread := f.read_write_self offset (c.encode_ne_nil hc a)
  rw [c.length_encode] at hread
  rw [get, put, hread, Option.map_some, c.decode_encode]

/-- A record outside of the written range is read as before, if it was there. -/
theorem get_write_of_disjoint {d : Codec β} {offset offset' : ℕ} {bytes : List UInt8}
    (hd : offset + bytes.length ≤ offset' ∨ offset' + d.size ≤ offset)
    (hin : offset' + d.size ≤ f.size) :
    (f.write offset bytes).get d offset' = f.get d offset' := by
  rw [get, get, f.read_write_of_disjoint hd hin]

/-- **A record elsewhere is read as before**, if it was there. -/
theorem get_put_of_disjoint {c : Codec α} {d : Codec β} {offset offset' : ℕ} (a : α)
    (hd : offset + c.size ≤ offset' ∨ offset' + d.size ≤ offset)
    (hin : offset' + d.size ≤ f.size) :
    (f.put c offset a).get d offset' = f.get d offset' :=
  f.get_write_of_disjoint (by rwa [c.length_encode]) hin

/-- A record that is read lies within the file. -/
theorem le_size_of_get {c : Codec α} {offset : ℕ} {a : α} (h : f.get c offset = some a) :
    offset + c.size ≤ f.size := by
  obtain ⟨bs, hbs, -⟩ := Option.map_eq_some_iff.mp h
  exact ((f.read_eq_some_iff).mp hbs).1

end ByteFile

/-! ### Bitmaps -/

/-- The bitmap of the slots below `8 * n`. -/
def packBits (n : ℕ) (bits : ℕ → Bool) : List UInt8 :=
  (List.range n).map fun k => UInt8.ofNat (Nat.ofBits fun j : Fin 8 => bits (8 * k + j))

/-- Slot `i` of a bitmap. -/
def unpackBit (bitmap : List UInt8) (i : ℕ) : Bool :=
  (bitmap.getD (i / 8) 0).toNat.testBit (i % 8)

@[simp] theorem length_packBits (n : ℕ) (bits : ℕ → Bool) : (packBits n bits).length = n := by
  rw [packBits, List.length_map, List.length_range]

/-- **A bitmap is read back** slot by slot. -/
theorem unpackBit_packBits {n i : ℕ} (bits : ℕ → Bool) (hi : i < 8 * n) :
    unpackBit (packBits n bits) i = bits i := by
  have hk : i / 8 < n := by omega
  have hmod : i % 8 < 8 := Nat.mod_lt i (by decide)
  have hbyte : (packBits n bits).getD (i / 8) 0 =
      UInt8.ofNat (Nat.ofBits fun j : Fin 8 => bits (8 * (i / 8) + j)) := by
    simp [packBits, hk]
  rw [unpackBit, hbyte, UInt8.toNat_ofNat', Nat.mod_eq_of_lt (Nat.ofBits_lt_two_pow _),
    Nat.testBit_ofBits_lt _ _ hmod]
  congr 1
  exact Nat.div_add_mod i 8

-- a large bitmap must not be unfolded byte by byte
attribute [irreducible] packBits

/-! ### The first free slot -/

/-- The first slot from `i` on, of `fuel` many, that is not taken. -/
def firstFreeFrom (taken : ℕ → Bool) : ℕ → ℕ → Option ℕ
  | 0, _ => none
  | fuel + 1, i => if taken i then firstFreeFrom taken fuel (i + 1) else some i

/-- The smallest of `n` slots that is not taken. -/
def firstFree (n : ℕ) (taken : ℕ → Bool) : Option ℕ := firstFreeFrom taken n 0

theorem firstFreeFrom_eq_some {taken : ℕ → Bool} {fuel i k : ℕ} :
    firstFreeFrom taken fuel i = some k ↔
      i ≤ k ∧ k < i + fuel ∧ taken k = false ∧ ∀ j, i ≤ j → j < k → taken j = true := by
  induction fuel generalizing i with
  | zero =>
      simp only [firstFreeFrom]
      constructor
      · intro h
        cases h
      · rintro ⟨hle, hlt, -⟩
        omega
  | succ fuel ih =>
      simp only [firstFreeFrom]
      split_ifs with htaken
      · rw [ih]
        constructor
        · rintro ⟨hle, hlt, hfree, hbelow⟩
          refine ⟨by omega, by omega, hfree, ?_⟩
          intro j hj hjk
          rcases Nat.eq_or_lt_of_le hj with rfl | hj'
          · exact htaken
          · exact hbelow j hj' hjk
        · rintro ⟨hle, hlt, hfree, hbelow⟩
          have hne : i ≠ k := by
            rintro rfl
            rw [htaken] at hfree
            cases hfree
          exact ⟨by omega, by omega, hfree, fun j hj hjk => hbelow j (by omega) hjk⟩
      · simp only [Option.some.injEq]
        constructor
        · rintro rfl
          exact ⟨le_rfl, by omega, by simpa using htaken, fun j hj hji => absurd hji (by omega)⟩
        · rintro ⟨hle, -, -, hbelow⟩
          by_contra hne
          exact htaken (hbelow i le_rfl (by omega))

/-- **The smallest free slot.** -/
theorem firstFree_eq_some {n k : ℕ} {taken : ℕ → Bool} :
    firstFree n taken = some k ↔ k < n ∧ taken k = false ∧ ∀ j < k, taken j = true := by
  rw [firstFree, firstFreeFrom_eq_some]
  simp

theorem firstFree_eq_none {n : ℕ} {taken : ℕ → Bool} :
    firstFree n taken = none ↔ ∀ j < n, taken j = true := by
  constructor
  · intro hnone j
    -- the smallest free slot below `n`, if there were one, would have been found
    induction j using Nat.strong_induction_on with
    | _ j ih =>
        intro hj
        by_contra hfree
        have hfound : firstFree n taken = some j :=
          firstFree_eq_some.mpr ⟨hj, by simpa using hfree, fun i hi => ih i hi (by omega)⟩
        rw [hnone] at hfound
        cases hfound
  · intro hall
    cases hk : firstFree n taken with
    | none => rfl
    | some k =>
        obtain ⟨hlt, hfree, -⟩ := firstFree_eq_some.mp hk
        rw [hall k hlt] at hfree
        cases hfree

/-- The first `count` slots from `i` on, of `fuel` many, that are not taken. -/
def firstFreesFrom (taken : ℕ → Bool) : ℕ → ℕ → ℕ → List ℕ
  | 0, _, _ => []
  | _ + 1, 0, _ => []
  | fuel + 1, count + 1, i =>
      if taken i then firstFreesFrom taken fuel (count + 1) (i + 1)
      else i :: firstFreesFrom taken fuel count (i + 1)

/-- The smallest `count` of `n` slots that are not taken, or all if there are fewer. -/
def firstFrees (n count : ℕ) (taken : ℕ → Bool) : List ℕ := firstFreesFrom taken n count 0

theorem firstFreesFrom_eq (taken : ℕ → Bool) (fuel count i : ℕ) :
    firstFreesFrom taken fuel count i =
      ((List.range' i fuel).filter fun j => !taken j).take count := by
  induction fuel generalizing count i with
  | zero => simp [firstFreesFrom]
  | succ fuel ih =>
      cases count with
      | zero => simp [firstFreesFrom]
      | succ count =>
          rw [firstFreesFrom, List.range'_succ, List.filter_cons]
          cases htaken : taken i with
          | false => simp [ih]
          | true => simp [ih]

/-- **The smallest free slots** are the first of the free ones. -/
theorem firstFrees_eq (n count : ℕ) (taken : ℕ → Bool) :
    firstFrees n count taken = ((List.range n).filter fun j => !taken j).take count := by
  rw [firstFrees, firstFreesFrom_eq, ← List.range_eq_range']

theorem nodup_firstFrees (n count : ℕ) (taken : ℕ → Bool) : (firstFrees n count taken).Nodup := by
  rw [firstFrees_eq]
  exact ((List.nodup_range).filter _).sublist (List.take_sublist _ _)

theorem mem_firstFrees {n count i : ℕ} {taken : ℕ → Bool} (hi : i ∈ firstFrees n count taken) :
    i < n ∧ taken i = false := by
  rw [firstFrees_eq] at hi
  simpa using List.mem_of_mem_take hi

/-- There are as many free slots as are not taken. -/
theorem length_firstFrees {n count : ℕ} {taken : ℕ → Bool} {slots : List ℕ} (hnodup : slots.Nodup)
    (hslots : ∀ i, i ∈ slots ↔ i < n ∧ taken i = true) (hcount : slots.length + count ≤ n) :
    (firstFrees n count taken).length = count := by
  have hperm : slots.Perm ((List.range n).filter taken) := by
    rw [List.perm_ext_iff_of_nodup hnodup ((List.nodup_range).filter _)]
    intro i
    rw [hslots, List.mem_filter, List.mem_range]
  have hsum := List.length_eq_length_filter_add (l := List.range n) taken
  rw [List.length_range, ← hperm.length_eq] at hsum
  rw [firstFrees_eq, List.length_take]
  omega
