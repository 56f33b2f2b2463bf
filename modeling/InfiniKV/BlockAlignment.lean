/-
**Aligning the number of blocks.**

GeminiFS registers tensors whose size is a multiple of the page size of the GPU.  Before the tensors are
allocated, the connector rounds the number of blocks down, so that every one of them is.  It takes the least of
the numbers that it finds for the tensors one by one.

The least of numbers that are each rounded to a multiple of something else need not be a multiple of all.  Here
the numbers by which it is rounded are powers of two, so that one of them is a multiple of all the others.

Main definitions:

* `InfiniKV.InfiniKVConnectorV1.alignNumBlocksForGeminifs` — the rounding.

Main results:

* `InfiniKV.Chain.min_roundDown` — rounding down by two numbers, one of which divides the other;
* `InfiniKV.InfiniKVConnectorV1.alignNumBlocksForGeminifs_optimal` — **no larger number of blocks would do**.
-/

import Mathlib.Algebra.Group.Int.Defs
import Mathlib.Algebra.GroupWithZero.Nat
import Mathlib.Data.Nat.Prime.Basic
import Mathlib.Order.Bounds.Basic

set_option relaxedAutoImplicit false
set_option autoImplicit false

namespace InfiniKV

/-! ### Rounding down -/

namespace Chain

variable {N a b : ℤ}

/-- Of two divisors of a power of a prime, one divides the other. -/
theorem dvd_or_dvd {p k m n : ℕ} (hp : p.Prime) (hm : m ∣ p ^ k) (hn : n ∣ p ^ k) : m ∣ n ∨ n ∣ m := by
  obtain ⟨i, -, rfl⟩ := (Nat.dvd_prime_pow hp).mp hm
  obtain ⟨j, -, rfl⟩ := (Nat.dvd_prime_pow hp).mp hn
  rcases Nat.le_total i j with hle | hle
  · exact .inl (pow_dvd_pow p hle)
  · exact .inr (pow_dvd_pow p hle)

/-- A multiple of a number that is not larger is not larger than what rounding down gives. -/
theorem le_roundDown (ha : 0 < a) {n : ℤ} (hdvd : a ∣ n) (hle : n ≤ N) : n ≤ N / a * a := by
  obtain ⟨q, rfl⟩ := hdvd
  rw [Int.mul_comm a q] at hle ⊢
  exact Int.mul_le_mul_of_nonneg_right ((Int.le_ediv_iff_mul_le ha).mpr hle) (Int.le_of_lt ha)

theorem roundDown_le (ha : 0 < a) : N / a * a ≤ N := Int.ediv_mul_le N (Int.ne_of_gt ha)

/-- **Rounding down gives the greatest multiple** that is not larger. -/
theorem isGreatest_roundDown (ha : 0 < a) (hN : 0 ≤ N) :
    IsGreatest {n | 0 ≤ n ∧ n ≤ N ∧ a ∣ n} (N / a * a) := by
  refine ⟨⟨?_, roundDown_le ha, Dvd.intro_left _ rfl⟩, ?_⟩
  · exact Int.mul_nonneg (Int.ediv_nonneg hN (Int.le_of_lt ha)) (Int.le_of_lt ha)
  · rintro n ⟨-, hle, hdvd⟩
    exact le_roundDown ha hdvd hle

/-- Rounding down by a multiple gives no more, and so the least of both is what the multiple gives. -/
theorem min_roundDown (ha : 0 < a) (hb : 0 < b) (hdvd : a ∣ b) :
    min (N / a * a) (N / b * b) = N / b * b :=
  min_eq_right (le_roundDown ha (hdvd.trans (Dvd.intro_left _ rfl)) (roundDown_le hb))

end Chain

/-! ### The connector -/

/-- `KVCacheConfig`, as far as memory is allocated for it: the number of blocks, and the size of each tensor. -/
structure KVCacheConfig where
  numBlocks : ℤ
  kvCacheTensors : List ℤ
  deriving DecidableEq, Repr

namespace InfiniKVConnectorV1

/-- `_GEMINIFS_GPU_PAGE_SIZE`. -/
def GEMINIFS_GPU_PAGE_SIZE : ℤ := 65536

/-- How many blocks of a tensor end on a page. -/
def blocksPerAlign (perBlockBytes : ℤ) : ℤ :=
  GEMINIFS_GPU_PAGE_SIZE / (Int.gcd perBlockBytes GEMINIFS_GPU_PAGE_SIZE : ℤ)

/-- One pass of the loop over the tensors. -/
def alignTensor (numBlocks aligned size : ℤ) : ℤ :=
  let perBlockBytes := size / numBlocks
  if perBlockBytes = 0 then aligned
  else if perBlockBytes * numBlocks % GEMINIFS_GPU_PAGE_SIZE = 0 then aligned
  else min aligned (numBlocks / blocksPerAlign perBlockBytes * blocksPerAlign perBlockBytes)

/-- `_align_num_blocks_for_geminifs`. -/
def alignNumBlocksForGeminifs (config : KVCacheConfig) : KVCacheConfig :=
  if config.numBlocks ≤ 0 then config
  else
    let aligned := config.kvCacheTensors.foldl (alignTensor config.numBlocks) config.numBlocks
    if aligned < config.numBlocks then
      ⟨aligned, config.kvCacheTensors.map fun size => size / config.numBlocks * aligned⟩
    else config

/-- The number of blocks after which a tensor ends on a page is a power of two. -/
theorem blocksPerAlign_spec (perBlock : ℤ) :
    ∃ a : ℕ, a ∣ 2 ^ 16 ∧ 0 < a ∧ blocksPerAlign perBlock = a ∧
      ∀ n : ℤ, GEMINIFS_GPU_PAGE_SIZE ∣ perBlock * n ↔ (a : ℤ) ∣ n := by
  have hdvd : Int.gcd perBlock 65536 ∣ 65536 := Int.gcd_dvd_natAbs_right perBlock 65536
  have hpos : 0 < Int.gcd perBlock 65536 := Nat.pos_of_dvd_of_pos hdvd (Nat.two_pow_pos 16)
  obtain ⟨a, ha⟩ := hdvd
  have hapos : 0 < a := by
    rcases Nat.eq_zero_or_pos a with rfl | h
    · rw [Nat.mul_zero] at ha
      cases ha
    · exact h
  have hcast : GEMINIFS_GPU_PAGE_SIZE = (Int.gcd perBlock 65536 : ℤ) * a := by
    rw [GEMINIFS_GPU_PAGE_SIZE]
    exact_mod_cast ha
  have hne : (Int.gcd perBlock 65536 : ℤ) ≠ 0 := by exact_mod_cast hpos.ne'
  refine ⟨a, ⟨_, ha.trans (Nat.mul_comm _ _)⟩, hapos, ?_, fun n => ?_⟩
  · have hgcd : (Int.gcd perBlock GEMINIFS_GPU_PAGE_SIZE : ℤ) = Int.gcd perBlock 65536 := rfl
    rw [blocksPerAlign, hgcd, hcast, Int.mul_ediv_cancel_left _ hne]
  · rw [← Int.dvd_gcd_mul_iff_dvd_mul, Int.gcd_comm]
    have hgcd : (Int.gcd perBlock GEMINIFS_GPU_PAGE_SIZE : ℤ) = Int.gcd perBlock 65536 := rfl
    rw [hgcd, hcast]
    exact Int.mul_dvd_mul_iff_left hne

/-- **One tensor more.**  What has been rounded down by a power of two is rounded down by another, so that it
fits the tensor too. -/
theorem alignTensor_spec {numBlocks : ℤ} (hpos : 0 < numBlocks) (perBlock : ℤ) {a : ℕ} (ha : a ∣ 2 ^ 16)
    (hapos : 0 < a) :
    ∃ a' : ℕ, a' ∣ 2 ^ 16 ∧ 0 < a' ∧
      alignTensor numBlocks (numBlocks / a * a) (numBlocks * perBlock) = numBlocks / a' * a' ∧
      ∀ n : ℤ, (a' : ℤ) ∣ n ↔ (a : ℤ) ∣ n ∧ GEMINIFS_GPU_PAGE_SIZE ∣ perBlock * n := by
  obtain ⟨b, hb, hbpos, hblocks, hfits⟩ := blocksPerAlign_spec perBlock
  have ha0 : (0 : ℤ) < a := by exact_mod_cast hapos
  have hb0 : (0 : ℤ) < b := by exact_mod_cast hbpos
  have hper : numBlocks * perBlock / numBlocks = perBlock := Int.mul_ediv_cancel_left _ hpos.ne'
  -- a tensor that is passed over ends on a page already
  have hstep : alignTensor numBlocks (numBlocks / a * a) (numBlocks * perBlock) =
      if (b : ℤ) ∣ numBlocks then numBlocks / a * a
      else min (numBlocks / a * a) (numBlocks / b * b) := by
    simp only [alignTensor, hper, hblocks]
    by_cases hzero : perBlock = 0
    · have hdvd : (b : ℤ) ∣ numBlocks := by
        rw [← hfits, hzero, Int.zero_mul]
        exact Int.dvd_zero _
      rw [if_pos hzero, if_pos hdvd]
    · rw [if_neg hzero]
      simp only [← Int.dvd_iff_emod_eq_zero, hfits]
  rw [hstep]
  rcases Chain.dvd_or_dvd Nat.prime_two ha hb with hdvd | hdvd
  · have hdvd' : (a : ℤ) ∣ b := by exact_mod_cast hdvd
    refine ⟨b, hb, hbpos, ?_, fun n => ?_⟩
    · split_ifs with hwhole
      · rw [Int.ediv_mul_cancel hwhole, Int.ediv_mul_cancel (hdvd'.trans hwhole)]
      · exact Chain.min_roundDown ha0 hb0 hdvd'
    · rw [hfits]
      exact ⟨fun h => ⟨hdvd'.trans h, h⟩, And.right⟩
  · have hdvd' : (b : ℤ) ∣ a := by exact_mod_cast hdvd
    refine ⟨a, ha, hapos, ?_, fun n => ?_⟩
    · split_ifs
      · rfl
      · rw [min_comm]
        exact Chain.min_roundDown hb0 ha0 hdvd'
    · rw [hfits]
      exact ⟨fun h => ⟨h, hdvd'.trans h⟩, And.left⟩

/-- **All tensors.** -/
theorem foldl_alignTensor {numBlocks : ℤ} (hpos : 0 < numBlocks) (perBlock : List ℤ) {a : ℕ}
    (ha : a ∣ 2 ^ 16) (hapos : 0 < a) :
    ∃ a' : ℕ, 0 < a' ∧
      (perBlock.map fun b => numBlocks * b).foldl (alignTensor numBlocks) (numBlocks / a * a) =
        numBlocks / a' * a' ∧
      ∀ n : ℤ, (a' : ℤ) ∣ n ↔ (a : ℤ) ∣ n ∧ ∀ b ∈ perBlock, GEMINIFS_GPU_PAGE_SIZE ∣ b * n := by
  induction perBlock generalizing a with
  | nil => exact ⟨a, hapos, rfl, fun n => by simp⟩
  | cons b perBlock ih =>
      obtain ⟨a₁, ha₁, hpos₁, hstep, hfits⟩ := alignTensor_spec hpos b ha hapos
      obtain ⟨a₂, hpos₂, hrest, hfits₂⟩ := ih ha₁ hpos₁
      refine ⟨a₂, hpos₂, ?_, fun n => ?_⟩
      · rw [List.map_cons, List.foldl_cons, hstep, hrest]
      · rw [hfits₂, hfits, List.forall_mem_cons, and_assoc]

/-- **The result**: the number of blocks is rounded down by one number, the multiples of which are the numbers
of blocks that fit every tensor. -/
theorem alignNumBlocksForGeminifs_eq {config : KVCacheConfig} {perBlock : List ℤ}
    (hpos : 0 < config.numBlocks)
    (hsizes : config.kvCacheTensors = perBlock.map fun b => config.numBlocks * b) :
    ∃ a : ℤ, 0 < a ∧ (∀ n : ℤ, a ∣ n ↔ ∀ b ∈ perBlock, GEMINIFS_GPU_PAGE_SIZE ∣ b * n) ∧
      alignNumBlocksForGeminifs config =
        ⟨config.numBlocks / a * a, perBlock.map fun b => b * (config.numBlocks / a * a)⟩ := by
  obtain ⟨a, hapos, hfold, hfits⟩ := foldl_alignTensor hpos perBlock (Nat.one_dvd _) Nat.one_pos
  rw [Int.natCast_one, Int.ediv_one, Int.mul_one, ← hsizes] at hfold
  have ha0 : (0 : ℤ) < a := by exact_mod_cast hapos
  refine ⟨a, ha0, fun n => by simpa using hfits n, ?_⟩
  simp only [alignNumBlocksForGeminifs, hfold]
  rw [if_neg (Int.not_le.mpr hpos)]
  split_ifs with hless
  · rw [hsizes, List.map_map]
    congr 1
    apply List.map_congr_left
    intro b _
    rw [Function.comp_apply, Int.mul_ediv_cancel_left _ hpos.ne']
  · -- nothing is rounded off
    have hwhole : config.numBlocks / a * a = config.numBlocks :=
      Int.le_antisymm (Chain.roundDown_le ha0) (Int.not_lt.mp hless)
    rw [hwhole]
    rcases config with ⟨numBlocks, tensors⟩
    simp only at hsizes ⊢
    rw [hsizes]
    simp only [Int.mul_comm]

/-- **The number of blocks is the greatest that is aligned** for every tensor, and the sizes are made to fit;
nothing changes when it is done again. -/
theorem alignNumBlocksForGeminifs_optimal (config : KVCacheConfig) (perBlock : List ℤ)
    (hpos : 0 < config.numBlocks)
    (hsizes : config.kvCacheTensors = perBlock.map fun b => config.numBlocks * b) :
    IsGreatest {n : ℤ | 0 ≤ n ∧ n ≤ config.numBlocks ∧ ∀ b ∈ perBlock, GEMINIFS_GPU_PAGE_SIZE ∣ b * n}
        (alignNumBlocksForGeminifs config).numBlocks ∧
      (alignNumBlocksForGeminifs config).kvCacheTensors =
        perBlock.map (fun b => b * (alignNumBlocksForGeminifs config).numBlocks) ∧
      (0 < (alignNumBlocksForGeminifs config).numBlocks →
        alignNumBlocksForGeminifs (alignNumBlocksForGeminifs config) = alignNumBlocksForGeminifs config) := by
  obtain ⟨a, ha0, hfits, heq⟩ := alignNumBlocksForGeminifs_eq hpos hsizes
  rw [heq]
  refine ⟨?_, rfl, fun hpos' => ?_⟩
  · simp only [← hfits]
    exact Chain.isGreatest_roundDown ha0 (Int.le_of_lt hpos)
  · obtain ⟨a', -, hfits', heq'⟩ := @alignNumBlocksForGeminifs_eq _ perBlock hpos'
      (by simp only [Int.mul_comm])
    -- the rounded number fits every tensor
    have hdvd : a' ∣ config.numBlocks / a * a := by
      rw [hfits', ← hfits]
      exact Dvd.intro_left _ rfl
    rw [heq', Int.ediv_mul_cancel hdvd]

/-- Blocks of 147456 bytes, as for DeepSeek, and of 65536 bytes. -/
theorem alignNumBlocksForGeminifs_optimal_mla :
    alignNumBlocksForGeminifs ⟨10, [1474560, 655360]⟩ = ⟨8, [1179648, 524288]⟩ ∧
      IsGreatest {n : ℤ | 0 ≤ n ∧ n ≤ 10 ∧ ∀ b ∈ [147456, 65536], GEMINIFS_GPU_PAGE_SIZE ∣ b * n} 8 :=
  ⟨by decide, (alignNumBlocksForGeminifs_optimal ⟨10, [1474560, 655360]⟩ [147456, 65536] (by decide) rfl).1⟩

end InfiniKVConnectorV1

end InfiniKV
