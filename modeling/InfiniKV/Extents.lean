/-
**Extents.**

The bytes of a file lie on a disk in extents, one after the other in the file but anywhere on the disk.
The map from the bytes of the file to the bytes of the disk is injective if the extents do not meet, and
it keeps a range in one piece exactly if the extents the range spans follow each other on the disk too.

A translation may walk the extents by blocks.  It then drops the tails of the extents that are not
whole blocks.

Main definitions:

* `Extents.image` — the byte of the disk at which a byte of the file lies;
* `Extents.Joined` — the extents that a range spans follow each other on the disk;
* `Extents.blockImage` — the translation of a block by walking block counts.

Main results:

* `Extents.image_inj` — **disjoint extents hold different bytes**;
* `Extents.image_contiguous_iff` — **when a range lies in one piece**;
* `Extents.image_block` — a block of extents that are whole blocks does;
* `Extents.blockImage_eq` — the byte of the file that walking by blocks really finds.
-/

import Mathlib.Algebra.BigOperators.Ring.List
import Mathlib.Algebra.GroupWithZero.Nat
import Mathlib.Algebra.Ring.Nat
import Mathlib.Data.List.Basic

set_option relaxedAutoImplicit false
set_option autoImplicit false

namespace Extents

/-- An extent: where it lies on the disk, and how long it is. -/
structure Extent where
  physical : ℕ
  length : ℕ
  deriving DecidableEq, Repr

/-- The byte of the disk at which byte `x` of the file lies. -/
def image : List Extent → ℕ → Option ℕ
  | [], _ => none
  | e :: es, x => if x < e.length then some (e.physical + x) else image es (x - e.length)

/-- The bytes of all extents together. -/
def total (es : List Extent) : ℕ := (es.map Extent.length).sum

/-- No two extents share a byte of the disk. -/
def Disjoint (es : List Extent) : Prop :=
  es.Pairwise fun a b => a.physical + a.length ≤ b.physical ∨ b.physical + b.length ≤ a.physical

/-- The extents that the range of `n` bytes at `x` spans follow each other on the disk. -/
def Joined (es : List Extent) (x n : ℕ) : Prop :=
  ∀ before a b after, es = before ++ a :: b :: after →
    x < total before + a.length → total before + a.length < x + n →
      a.physical + a.length = b.physical

@[simp] theorem total_nil : total [] = 0 := rfl

@[simp] theorem total_cons (e : Extent) (es : List Extent) : total (e :: es) = e.length + total es :=
  List.sum_cons

@[simp] theorem total_append (es fs : List Extent) : total (es ++ fs) = total es + total fs := by
  rw [total, total, total, List.map_append, List.sum_append]

theorem image_append (es fs : List Extent) (x : ℕ) :
    image (es ++ fs) x = if x < total es then image es x else image fs (x - total es) := by
  induction es generalizing x with
  | nil => simp
  | cons e es ih =>
      simp only [List.cons_append, image, total_cons, ih]
      by_cases hx : x < e.length
      · rw [if_pos hx, if_pos (by omega), if_pos hx]
      · rw [if_neg hx, if_neg hx]
        by_cases hx' : x - e.length < total es
        · rw [if_pos hx', if_pos (by omega)]
        · rw [if_neg hx', if_neg (by omega), Nat.sub_sub]

theorem image_isSome_iff (es : List Extent) (x : ℕ) : (image es x).isSome = true ↔ x < total es := by
  induction es generalizing x with
  | nil => simp [image]
  | cons e es ih =>
      rw [image, total_cons]
      split_ifs with hx
      · simp only [Option.isSome_some, true_iff]
        omega
      · rw [ih]
        omega

theorem image_eq_none {es : List Extent} {x : ℕ} (hx : total es ≤ x) : image es x = none := by
  rw [← Option.not_isSome_iff_eq_none, image_isSome_iff]
  omega

/-- A byte of the disk that is found lies in one of the extents. -/
theorem mem_of_image {es : List Extent} {x y : ℕ} (h : image es x = some y) :
    ∃ e ∈ es, e.physical ≤ y ∧ y < e.physical + e.length := by
  induction es generalizing x with
  | nil => cases h
  | cons e es ih =>
      rw [image] at h
      split_ifs at h with hx
      · cases h
        exact ⟨e, List.mem_cons_self, by omega, by omega⟩
      · obtain ⟨e', he', hy⟩ := ih h
        exact ⟨e', List.mem_cons_of_mem _ he', hy⟩

/-- **Disjoint extents hold different bytes.** -/
theorem image_inj {es : List Extent} (hd : Disjoint es) {x y z : ℕ} (hx : image es x = some z)
    (hy : image es y = some z) : x = y := by
  induction es generalizing x y with
  | nil => cases hx
  | cons e es ih =>
      obtain ⟨hhead, htail⟩ := List.pairwise_cons.mp hd
      -- a byte of the first extent is in no other one
      have hout : ∀ w, image es w = some z → z < e.physical ∨ e.physical + e.length ≤ z := by
        intro w hw
        obtain ⟨e', he', hlow, hhigh⟩ := mem_of_image hw
        rcases hhead e' he' with h | h
        · right
          omega
        · left
          omega
      rw [image] at hx hy
      split_ifs at hx hy with hxl hyl hyl
      · simp only [Option.some.injEq] at hx hy
        omega
      · have hz := hout _ hy
        simp only [Option.some.injEq] at hx
        omega
      · have hz := hout _ hx
        simp only [Option.some.injEq] at hy
        omega
      · have heq := ih htail hx hy
        omega

/-- What divides the starts and the lengths of the extents divides the places of its multiples. -/
theorem dvd_image {d : ℕ} {es : List Extent} (hes : ∀ e ∈ es, d ∣ e.physical ∧ d ∣ e.length) {x y : ℕ}
    (hx : d ∣ x) (h : image es x = some y) : d ∣ y := by
  induction es generalizing x with
  | nil => cases h
  | cons e es ih =>
      obtain ⟨⟨hphysical, hlength⟩, hrest⟩ := List.forall_mem_cons.1 hes
      rw [image] at h
      split_ifs at h
      · cases h
        exact Nat.dvd_add hphysical hx
      · exact ih hrest (Nat.dvd_sub hx hlength) h

/-! ### Ranges in one piece -/

/-- From one byte to the next, the disk goes on as well, or the next extent begins. -/
theorem image_succ {es : List Extent} (hpos : ∀ e ∈ es, 0 < e.length) {x y : ℕ}
    (hx : image es x = some y) (hlt : x + 1 < total es) :
    image es (x + 1) = some (y + 1) ∨
      ∃ before a b after, es = before ++ a :: b :: after ∧ total before + a.length = x + 1 ∧
        y + 1 = a.physical + a.length ∧ image es (x + 1) = some b.physical := by
  induction es generalizing x with
  | nil => cases hx
  | cons e es ih =>
      rw [total_cons] at hlt
      simp only [image] at hx ⊢
      by_cases hin : x < e.length
      · rw [if_pos hin] at hx
        cases hx
        by_cases hin' : x + 1 < e.length
        · left
          rw [if_pos hin']
          rfl
        · -- the last byte of the first extent: the second one begins
          right
          cases es with
          | nil =>
              rw [total_nil] at hlt
              omega
          | cons b after =>
              have hb := hpos b (List.mem_cons_of_mem _ List.mem_cons_self)
              refine ⟨[], e, b, after, rfl, ?_, by omega, ?_⟩
              · rw [total_nil]
                omega
              · have hzero : x + 1 - e.length = 0 := by omega
                rw [if_neg hin', hzero, image, if_pos hb, Nat.add_zero]
      · rw [if_neg hin] at hx
        have hin' : ¬x + 1 < e.length := by omega
        have hsub : x + 1 - e.length = x - e.length + 1 := by omega
        rw [if_neg hin', hsub]
        rcases ih (fun e' he' => hpos e' (List.mem_cons_of_mem _ he')) hx (by omega) with
          hnext | ⟨before, a, b, after, rfl, hend, hy, hb⟩
        · exact Or.inl hnext
        · right
          refine ⟨e :: before, a, b, after, rfl, ?_, hy, hb⟩
          rw [total_cons]
          omega

/-- The two bytes at a joint. -/
theorem image_joint (before after : List Extent) {a b : Extent} (ha : 0 < a.length)
    (hb : 0 < b.length) :
    image (before ++ a :: b :: after) (total before + a.length - 1) =
        some (a.physical + (a.length - 1)) ∧
      image (before ++ a :: b :: after) (total before + a.length) = some b.physical := by
  rw [image_append, image_append, if_neg (by omega), if_neg (by omega)]
  have hlast : total before + a.length - 1 - total before = a.length - 1 := by omega
  have hnext : total before + a.length - total before = a.length := by omega
  rw [hlast, hnext]
  constructor
  · rw [image, if_pos (by omega)]
  · rw [image, if_neg (by omega), Nat.sub_self, image, if_pos hb, Nat.add_zero]

/-- **A range lies on the disk in one piece** exactly if the extents it spans follow each other
there. -/
theorem image_contiguous_iff {es : List Extent} (hpos : ∀ e ∈ es, 0 < e.length) {x y n : ℕ}
    (hx : image es x = some y) (hin : x + n ≤ total es) :
    (∀ k < n, image es (x + k) = some (y + k)) ↔ Joined es x n := by
  constructor
  · rintro hall before a b after rfl hlow hhigh
    have ha := hpos a (by simp)
    have hb := hpos b (by simp)
    obtain ⟨hlast, hnext⟩ := image_joint before after ha hb
    have hlast' := hall (total before + a.length - 1 - x) (by omega)
    have hnext' := hall (total before + a.length - x) (by omega)
    rw [show x + (total before + a.length - 1 - x) = total before + a.length - 1 by omega, hlast,
      Option.some.injEq] at hlast'
    rw [show x + (total before + a.length - x) = total before + a.length by omega, hnext,
      Option.some.injEq] at hnext'
    omega
  · intro hjoined k hk
    induction k with
    | zero => exact hx
    | succ k ih =>
        rcases image_succ hpos (ih (by omega)) (by omega) with
          hnext | ⟨before, a, b, after, heq, hend, hy, hb⟩
        · exact hnext
        · have hadj := hjoined before a b after heq (by omega) (by omega)
          rw [← Nat.add_assoc, hb, ← hadj, ← hy, Nat.add_assoc]

theorem dvd_total {d : ℕ} {es : List Extent} (hes : ∀ e ∈ es, d ∣ e.length) : d ∣ total es := by
  refine List.dvd_sum fun n hn => ?_
  obtain ⟨e, he, rfl⟩ := List.mem_map.1 hn
  exact hes e he

/-- **No joint lies within a block** if the extents are whole blocks. -/
theorem joined_block {d : ℕ} {es : List Extent} (hes : ∀ e ∈ es, d ∣ e.length) {x r : ℕ} (hx : d ∣ x) (hr : r < d) :
    Joined es x (r + 1) := by
  rintro before a b after rfl hlow hhigh
  have hjoint : d ∣ total before + a.length :=
    Nat.dvd_add (dvd_total fun e he => hes e (by simp [he])) (hes a (by simp))
  have hgap : d ∣ total before + a.length - x := Nat.dvd_sub hjoint hx
  have hle := Nat.le_of_dvd (by omega) hgap
  omega

/-- The bytes of a block follow each other on the disk. -/
theorem image_block {d : ℕ} {es : List Extent} (hpos : ∀ e ∈ es, 0 < e.length) (hes : ∀ e ∈ es, d ∣ e.length)
    {x y r : ℕ} (hx : d ∣ x) (himage : image es x = some y) (hr : r < d) (hlt : x + r < total es) :
    image es (x + r) = some (y + r) :=
  (image_contiguous_iff hpos himage hlt).mpr (joined_block hes hx hr) r (Nat.lt_succ_self r)

/-! ### Walking by blocks -/

/-- Translate a block of `2 ^ bit` bytes by counting off the whole blocks of the extents. -/
def blockImage (bit : ℕ) : List Extent → ℕ → Option ℕ
  | [], _ => none
  | e :: es, blk =>
      if blk < e.length >>> bit then some (e.physical + (blk <<< bit))
      else blockImage bit es (blk - e.length >>> bit)

/-- The whole blocks of all extents. -/
def blocks (bit : ℕ) (es : List Extent) : ℕ := (es.map fun e => e.length >>> bit).sum

/-- The tails, too short for a block, of the extents that lie before a block. -/
def tails (bit : ℕ) : List Extent → ℕ → ℕ
  | [], _ => 0
  | e :: es, blk =>
      if blk < e.length >>> bit then 0
      else e.length % 2 ^ bit + tails bit es (blk - e.length >>> bit)

/-- **The byte that walking by blocks finds** lies the tails behind the one that was meant. -/
theorem blockImage_eq (bit : ℕ) (es : List Extent) (blk : ℕ) :
    blockImage bit es blk =
      if blk < blocks bit es then image es (blk * 2 ^ bit + tails bit es blk) else none := by
  induction es generalizing blk with
  | nil => simp [blockImage, blocks]
  | cons e es ih =>
      have hblocks : blocks bit (e :: es) = e.length >>> bit + blocks bit es := List.sum_cons
      have hdiv : e.length = (e.length >>> bit) * 2 ^ bit + e.length % 2 ^ bit := by
        rw [Nat.shiftRight_eq_div_pow, Nat.mul_comm, Nat.div_add_mod]
      simp only [blockImage, tails, hblocks]
      by_cases hblk : blk < e.length >>> bit
      · -- the block ends within the extent
        have hmul := Nat.mul_le_mul_right (2 ^ bit) (Nat.succ_le_of_lt hblk)
        have hpow : 0 < 2 ^ bit := Nat.two_pow_pos bit
        rw [Nat.succ_mul] at hmul
        rw [if_pos hblk, if_pos hblk, if_pos (by omega), image, if_pos (by omega),
          Nat.shiftLeft_eq, Nat.add_zero]
      · have hle : e.length >>> bit ≤ blk := by omega
        have hmul : blk * 2 ^ bit =
            (e.length >>> bit) * 2 ^ bit + (blk - e.length >>> bit) * 2 ^ bit := by
          rw [← Nat.add_mul, Nat.add_sub_cancel' hle]
        rw [if_neg hblk, if_neg hblk, ih]
        by_cases hin : blk - e.length >>> bit < blocks bit es
        · rw [if_pos hin, if_pos (by omega), image, if_neg (by omega)]
          congr 1
          omega
        · rw [if_neg hin, if_neg (by omega)]

theorem blockImage_isSome {bit : ℕ} {es : List Extent} {blk : ℕ} (h : blk < blocks bit es) :
    (blockImage bit es blk).isSome = true := by
  induction es generalizing blk with
  | nil =>
      rw [blocks, List.map_nil, List.sum_nil] at h
      omega
  | cons e es ih =>
      have hblocks : blocks bit (e :: es) = e.length >>> bit + blocks bit es := List.sum_cons
      rw [blockImage]
      split_ifs with hblk
      · rfl
      · exact ih (by omega)

/-- The byte that is found for one of the blocks is a byte of the extents. -/
theorem lt_total_of_lt_blocks {bit : ℕ} {es : List Extent} {blk : ℕ} (h : blk < blocks bit es) :
    blk * 2 ^ bit + tails bit es blk < total es := by
  have hsome := blockImage_isSome h
  rw [blockImage_eq, if_pos h] at hsome
  exact (image_isSome_iff _ _).mp hsome

/-- Whole blocks leave no tails. -/
theorem tails_of_dvd {bit : ℕ} {es : List Extent} (h : ∀ e ∈ es, 2 ^ bit ∣ e.length) (blk : ℕ) :
    tails bit es blk = 0 := by
  induction es generalizing blk with
  | nil => rfl
  | cons e es ih =>
      have he : e.length % 2 ^ bit = 0 := Nat.mod_eq_zero_of_dvd (h e List.mem_cons_self)
      rw [tails]
      split_ifs
      · rfl
      · rw [he, ih (fun e' he' => h e' (List.mem_cons_of_mem _ he')), Nat.zero_add]

theorem blocks_of_dvd {bit : ℕ} {es : List Extent} (h : ∀ e ∈ es, 2 ^ bit ∣ e.length) :
    blocks bit es * 2 ^ bit = total es := by
  induction es with
  | nil => simp [blocks]
  | cons e es ih =>
      have hblocks : blocks bit (e :: es) = e.length >>> bit + blocks bit es := List.sum_cons
      rw [hblocks, Nat.add_mul, ih (fun e' he' => h e' (List.mem_cons_of_mem _ he')), total_cons,
        Nat.shiftRight_eq_div_pow, Nat.div_mul_cancel (h e List.mem_cons_self)]

end Extents
