/-
**Cutting an object into pieces and spreading the pieces over devices.**

An object of some size is cut into pieces of at most a given length, and block `i` of a sequence of
equally long blocks is put on device `i % n`, at the next free place there.  Two blocks of one
sequence never meet; blocks of sequences with different units may.

Main definitions:

* `Tiling.cut` — the pieces of an object, each at most `limit` long, as the loop that cuts them off
  one after the other finds them;
* `Tiling.Tiles` — pieces that follow one another without a gap;
* `Tiling.Placement` — a byte range on one of several devices;
* `Tiling.roundRobin` — where block `i` of a sequence of equal blocks goes.

Main results:

* `Tiling.cut_eq` — **the pieces, in closed form**;
* `Tiling.tiles_cut` — the pieces tile the object;
* `Tiling.flatten_chunks` — a list cut into equally long parts is the parts together;
* `Tiling.roundRobin_disjoint` — **distinct blocks of one unit do not meet**;
* `Tiling.roundRobin_fits_iff` — how large the devices must be;
* `Tiling.roundRobin_meets` — blocks of two units meet if they have the same number and that number
  is below the number of devices, or if one of them lies below the other's end.
-/

import Mathlib.Algebra.Order.Floor.Div
import Mathlib.Data.List.Range

set_option relaxedAutoImplicit false
set_option autoImplicit false

namespace Tiling

/-! ### Cutting -/

/-- Cut pieces of at most `limit` off an object with `remaining` bytes left, the first of them at
`offset`. -/
def cutLoop (limit : ℕ) : ℕ → ℕ → ℕ → List (ℕ × ℕ)
  | 0, _, _ => []
  | fuel + 1, remaining, offset =>
      if remaining = 0 then []
      else
        let size := min remaining limit
        (offset, size) :: cutLoop limit fuel (remaining - size) (offset + size)

/-- The offsets and sizes of the pieces of `total` bytes.  Each piece takes a byte at least, so that
many passes are enough. -/
def cut (limit total : ℕ) : List (ℕ × ℕ) := cutLoop limit total total 0

variable {limit total : ℕ}

theorem lt_ceilDiv_iff (hlimit : 0 < limit) {j : ℕ} :
    j < total ⌈/⌉ limit ↔ j * limit < total := by
  rw [← not_le, ceilDiv_le_iff_le_mul hlimit, not_le, Nat.mul_comm]

/-- With a piece cut off, there is one piece less. -/
theorem ceilDiv_eq_succ (hlimit : 0 < limit) (htotal : 0 < total) :
    total ⌈/⌉ limit = (total - min total limit) ⌈/⌉ limit + 1 := by
  rcases Nat.le_total total limit with hle | hle
  · rw [Nat.min_eq_left hle, Nat.sub_self, zero_ceilDiv, Nat.ceilDiv_eq_add_pred_div,
      Nat.div_eq_iff hlimit]
    omega
  · have hsplit : total + limit - 1 = (total - limit + limit - 1) + limit := by omega
    rw [Nat.min_eq_right hle, Nat.ceilDiv_eq_add_pred_div, Nat.ceilDiv_eq_add_pred_div, hsplit,
      Nat.add_div_right _ hlimit]

/-- **What the loop cuts off**, with enough passes allowed. -/
theorem cutLoop_eq (hlimit : 0 < limit) (fuel remaining offset : ℕ) (hfuel : remaining ≤ fuel) :
    cutLoop limit fuel remaining offset =
      (List.range (remaining ⌈/⌉ limit)).map fun j =>
        (offset + j * limit, min (remaining - j * limit) limit) := by
  induction fuel generalizing remaining offset with
  | zero =>
      obtain rfl : remaining = 0 := by omega
      rw [cutLoop, zero_ceilDiv, List.range_zero, List.map_nil]
  | succ fuel ih =>
      simp only [cutLoop]
      split_ifs with hzero
      · rw [hzero, zero_ceilDiv, List.range_zero, List.map_nil]
      · have hpos : 0 < remaining := by omega
        rw [ceilDiv_eq_succ hlimit hpos, List.range_succ_eq_map, List.map_cons, List.map_map,
          ih _ _ (by omega)]
        congr 1
        · simp
        · apply List.map_congr_left
          intro j hj
          -- a further piece exists only if the first one was a full one
          have hj' := (lt_ceilDiv_iff hlimit).mp (List.mem_range.mp hj)
          have hfull : min remaining limit = limit := by omega
          simp only [Function.comp_apply, hfull, Prod.mk.injEq, Nat.succ_mul]
          omega

/-- **The pieces of an object.** -/
theorem cut_eq (hlimit : 0 < limit) :
    cut limit total = (List.range (total ⌈/⌉ limit)).map fun j =>
      (j * limit, min (total - j * limit) limit) := by
  rw [cut, cutLoop_eq hlimit _ _ _ le_rfl]
  simp

theorem length_cut (hlimit : 0 < limit) : (cut limit total).length = total ⌈/⌉ limit := by
  rw [cut_eq hlimit, List.length_map, List.length_range]

theorem cut_of_le (htotal : 0 < total) (hle : total ≤ limit) : cut limit total = [(0, total)] := by
  have hone : total ⌈/⌉ limit = 1 := by
    rw [ceilDiv_eq_succ (by omega) htotal, Nat.min_eq_left hle, Nat.sub_self, zero_ceilDiv]
  rw [cut_eq (by omega), hone]
  simp [hle]

/-- If the limit divides the size, then all pieces are full ones. -/
theorem cut_of_dvd (hlimit : 0 < limit) (hdvd : limit ∣ total) :
    cut limit total = (List.range (total / limit)).map fun j => (j * limit, limit) := by
  obtain ⟨q, rfl⟩ := hdvd
  have hnum : (limit * q) ⌈/⌉ limit = q := by
    simpa using smul_ceilDiv hlimit q
  rw [cut_eq hlimit, hnum, Nat.mul_div_cancel_left q hlimit]
  apply List.map_congr_left
  intro j hj
  have hle : (j + 1) * limit ≤ limit * q := by
    rw [Nat.mul_comm]
    exact Nat.mul_le_mul_left limit (List.mem_range.mp hj)
  rw [Nat.add_mul] at hle
  congr 1
  omega

theorem ceilDiv_of_not_dvd (hlimit : 0 < limit) (hdvd : ¬ limit ∣ total) : total ⌈/⌉ limit = total / limit + 1 := by
  have hrest : 0 < total % limit := Nat.pos_of_ne_zero fun hzero => hdvd (Nat.dvd_of_mod_eq_zero hzero)
  have hsum : total + limit - 1 = total % limit - 1 + (total / limit + 1) * limit := by
    have hsplit := Nat.div_add_mod' total limit
    rw [Nat.add_mul]
    omega
  have hshort := Nat.mod_lt total hlimit
  rw [Nat.ceilDiv_eq_add_pred_div, hsum, Nat.add_mul_div_right _ _ hlimit, Nat.div_eq_of_lt (by omega), Nat.zero_add]

/-- If it does not, then a shorter piece follows the full ones. -/
theorem cut_of_not_dvd (hlimit : 0 < limit) (hdvd : ¬ limit ∣ total) :
    cut limit total = (List.range (total / limit)).map (fun j => (j * limit, limit)) ++
      [(total / limit * limit, total % limit)] := by
  have hsplit := Nat.div_add_mod' total limit
  have hshort := Nat.mod_lt total hlimit
  rw [cut_eq hlimit, ceilDiv_of_not_dvd hlimit hdvd, List.range_succ, List.map_append]
  congr 1
  · apply List.map_congr_left
    intro j hj
    have hle : (j + 1) * limit ≤ total / limit * limit := Nat.mul_le_mul_right limit (List.mem_range.mp hj)
    rw [Nat.add_mul] at hle
    congr 1
    omega
  · rw [List.map_singleton, Nat.min_eq_left (by omega)]
    congr 2
    omega

/-- Pieces of two lengths, then. -/
theorem forall_cut_of_not_dvd (hlimit : 0 < limit) (hlt : limit < total) (hdvd : ¬ limit ∣ total) {P : ℕ → Prop} :
    (∀ piece ∈ cut limit total, P piece.2) ↔ P limit ∧ P (total % limit) := by
  rw [cut_of_not_dvd hlimit hdvd, List.forall_mem_append, List.forall_mem_singleton, List.forall_mem_map]
  have hfirst : 0 ∈ List.range (total / limit) := List.mem_range.mpr (Nat.div_pos hlt.le hlimit)
  constructor
  · rintro ⟨hfull, hlast⟩
    exact ⟨hfull 0 hfirst, hlast⟩
  · rintro ⟨hfull, hlast⟩
    exact ⟨fun j _ => hfull, hlast⟩

/-! ### Tilings -/

/-- The pieces follow one another from `start` to `stop`, and none of them is empty. -/
def Tiles : ℕ → List (ℕ × ℕ) → ℕ → Prop
  | start, [], stop => start = stop
  | start, piece :: pieces, stop => piece.1 = start ∧ 0 < piece.2 ∧ Tiles (start + piece.2) pieces stop

theorem Tiles.append {start middle stop : ℕ} {pieces pieces' : List (ℕ × ℕ)} (h : Tiles start pieces middle)
    (h' : Tiles middle pieces' stop) : Tiles start (pieces ++ pieces') stop := by
  induction pieces generalizing start with
  | nil =>
      obtain rfl : start = middle := h
      exact h'
  | cons piece pieces ih => exact ⟨h.1, h.2.1, ih h.2.2⟩

/-- Pieces that are moved tile what is moved. -/
theorem Tiles.add {start stop : ℕ} {pieces : List (ℕ × ℕ)} (h : Tiles start pieces stop) (k : ℕ) :
    Tiles (k + start) (pieces.map fun piece => (k + piece.1, piece.2)) (k + stop) := by
  induction pieces generalizing start with
  | nil => exact congrArg (k + ·) h
  | cons piece pieces ih =>
      obtain ⟨rfl, hpos, hrest⟩ := h
      refine ⟨rfl, hpos, ?_⟩
      rw [Nat.add_assoc]
      exact ih hrest

theorem Tiles.le {start stop : ℕ} {pieces : List (ℕ × ℕ)} (h : Tiles start pieces stop) : start ≤ stop := by
  induction pieces generalizing start with
  | nil => exact Nat.le_of_eq h
  | cons piece pieces ih => exact (Nat.le_add_right _ _).trans (ih h.2.2)

/-- Each piece ends where the object does, or before. -/
theorem Tiles.mem_le {start stop : ℕ} {pieces : List (ℕ × ℕ)} (h : Tiles start pieces stop) :
    ∀ piece ∈ pieces, piece.1 + piece.2 ≤ stop := by
  induction pieces generalizing start with
  | nil => simp
  | cons piece pieces ih =>
      obtain ⟨rfl, -, hrest⟩ := h
      intro piece' hmem
      rcases List.mem_cons.mp hmem with rfl | hmem
      · exact hrest.le
      · exact ih hrest piece' hmem

theorem tiles_cutLoop (hlimit : 0 < limit) (fuel remaining offset : ℕ) (hfuel : remaining ≤ fuel) :
    Tiles offset (cutLoop limit fuel remaining offset) (offset + remaining) := by
  induction fuel generalizing remaining offset with
  | zero =>
      obtain rfl : remaining = 0 := by omega
      rfl
  | succ fuel ih =>
      simp only [cutLoop]
      split_ifs with hzero
      · rw [hzero]
        rfl
      · refine ⟨rfl, by omega, ?_⟩
        have hrest := ih (remaining - min remaining limit) (offset + min remaining limit) (by omega)
        have hstop : offset + min remaining limit + (remaining - min remaining limit) =
            offset + remaining := by omega
        rwa [hstop] at hrest

/-- **The pieces tile the object.** -/
theorem tiles_cut (hlimit : 0 < limit) (total : ℕ) : Tiles 0 (cut limit total) total := by
  have h := tiles_cutLoop hlimit total total 0 le_rfl
  rwa [Nat.zero_add] at h

/-- No piece is longer than the limit, and what divides the limit and the size divides each piece. -/
theorem mem_cut (hlimit : 0 < limit) {piece : ℕ × ℕ} (h : piece ∈ cut limit total) :
    0 < piece.2 ∧ piece.2 ≤ limit ∧ ∀ d, d ∣ limit → d ∣ total → d ∣ piece.1 ∧ d ∣ piece.2 := by
  rw [cut_eq hlimit] at h
  obtain ⟨j, hj, rfl⟩ := List.mem_map.mp h
  have hlt := (lt_ceilDiv_iff hlimit).mp (List.mem_range.mp hj)
  refine ⟨?_, Nat.min_le_right _ _, fun d hd htotal => ⟨hd.mul_left j, ?_⟩⟩
  · rw [Nat.lt_min]
    exact ⟨Nat.sub_pos_of_lt hlt, hlimit⟩
  · rcases Nat.le_total (total - j * limit) limit with hle | hle
    · rw [Nat.min_eq_left hle]
      exact Nat.dvd_sub htotal (hd.mul_left j)
    · rw [Nat.min_eq_right hle]
      exact hd

/-- A list cut into parts of `n` is the parts together. -/
theorem flatten_chunks {α : Type} {n : ℕ} (k : ℕ) (l : List α) (hk : l.length ≤ k * n) :
    ((List.range k).map fun i => (l.drop (i * n)).take n).flatten = l := by
  induction k generalizing l with
  | zero =>
      rw [Nat.zero_mul] at hk
      rw [List.length_eq_zero_iff.mp (Nat.le_zero.mp hk)]
      rfl
  | succ k ih =>
      have hrest := ih (l.drop n) (by
        rw [List.length_drop]
        rw [Nat.succ_mul] at hk
        omega)
      rw [List.range_succ_eq_map, List.map_cons, List.flatten_cons, List.map_map, Nat.zero_mul,
        List.drop_zero]
      have hshift : ((fun i => (l.drop (i * n)).take n) ∘ Nat.succ) =
          fun i => ((l.drop n).drop (i * n)).take n := by
        funext i
        rw [Function.comp_apply, List.drop_drop, Nat.succ_mul, Nat.add_comm]
      rw [hshift, hrest, List.take_append_drop]

/-! ### Spreading blocks over devices -/

/-- A byte range on one of several devices. -/
structure Placement where
  device : ℕ
  start : ℕ
  length : ℕ
  deriving DecidableEq

/-- Two placements share no byte. -/
def Placement.Disjoint (p q : Placement) : Prop :=
  p.device ≠ q.device ∨ p.start + p.length ≤ q.start ∨ q.start + q.length ≤ p.start

instance (p q : Placement) : Decidable (p.Disjoint q) :=
  inferInstanceAs (Decidable (_ ∨ _ ∨ _))

/-- Where block `i` of a sequence of blocks of `unit` bytes goes. -/
def roundRobin (devices unit i : ℕ) : Placement :=
  ⟨i % devices, i / devices * unit, unit⟩

variable {devices unit : ℕ}

/-- A number has one quotient and one remainder. -/
theorem mul_add_inj {q b c j k : ℕ} (hj : j < q) (hk : k < q) (h : b * q + j = c * q + k) :
    b = c ∧ j = k := by
  have hdiv : ∀ a i, i < q → (a * q + i) / q = a ∧ (a * q + i) % q = i := by
    intro a i hi
    rw [Nat.mul_comm, Nat.mul_add_div (Nat.zero_lt_of_lt hi), Nat.div_eq_of_lt hi, Nat.mul_add_mod,
      Nat.mod_eq_of_lt hi]
    exact ⟨rfl, rfl⟩
  obtain ⟨hb, hbj⟩ := hdiv b j hj
  obtain ⟨hc, hck⟩ := hdiv c k hk
  rw [h] at hb hbj
  exact ⟨hb.symm.trans hc, hbj.symm.trans hck⟩

/-- **Distinct blocks of one unit do not meet.** -/
theorem roundRobin_disjoint {i j : ℕ} (hij : i ≠ j) :
    (roundRobin devices unit i).Disjoint (roundRobin devices unit j) := by
  by_cases hdev : i % devices = j % devices
  · -- on one device the blocks have different rows
    have hrow : i / devices ≠ j / devices := by
      intro hrow
      apply hij
      rw [← Nat.div_add_mod i devices, ← Nat.div_add_mod j devices, hrow, hdev]
    rcases Nat.lt_or_gt_of_ne hrow with hlt | hlt
    · right
      left
      have hmul := Nat.mul_le_mul_right unit (Nat.succ_le_of_lt hlt)
      simpa [roundRobin, Nat.succ_mul] using hmul
    · right
      right
      have hmul := Nat.mul_le_mul_right unit (Nat.succ_le_of_lt hlt)
      simpa [roundRobin, Nat.succ_mul] using hmul
  · left
    exact hdev

/-- A block of a smaller unit that starts below the end of a block of a larger unit on the same
device, and not before it, meets it. -/
theorem roundRobin_meets {small large i j : ℕ} (hdev : i % devices = j % devices)
    (hsmall : 0 < small) (hlow : j / devices * large ≤ i / devices * small)
    (hhigh : i / devices * small < j / devices * large + large) :
    ¬(roundRobin devices small i).Disjoint (roundRobin devices large j) := by
  rintro (hne | hle | hle)
  · exact hne hdev
  · simp only [roundRobin] at hle
    omega
  · simp only [roundRobin] at hle
    omega

/-- **How large the devices must be**: a sequence of blocks fits if as many rows fit as there are
blocks for each device, rounded up. -/
theorem roundRobin_fits_iff {blocks size : ℕ} (hdevices : 0 < devices) :
    (∀ i < blocks, (i / devices + 1) * unit ≤ size) ↔ blocks ⌈/⌉ devices * unit ≤ size := by
  constructor
  · intro hall
    rcases Nat.eq_zero_or_pos blocks with rfl | hpos
    · rw [zero_ceilDiv, Nat.zero_mul]
      exact Nat.zero_le _
    · -- the last block is in the last row
      have hlast := hall (blocks - 1) (by omega)
      have hrows : blocks ⌈/⌉ devices = (blocks - 1) / devices + 1 := by
        rw [Nat.ceilDiv_eq_add_pred_div, ← Nat.add_div_right _ hdevices]
        congr 1
        omega
      rwa [hrows]
  · intro hfits i hi
    have hrow : i / devices < blocks ⌈/⌉ devices := by
      rw [lt_ceilDiv_iff hdevices]
      exact (Nat.div_mul_le_self i devices).trans_lt hi
    exact (Nat.mul_le_mul_right unit (Nat.succ_le_of_lt hrow)).trans hfits

end Tiling
