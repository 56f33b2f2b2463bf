/-
**The completion queue of an NVMe queue pair.**

The device posts completions into a ring, one after the other, and turns the phase bit of its entries over
each time it comes round.  A thread that waits for its command searches the ring from the head on, and takes an
entry for new as long as its phase is the one of that round.  The device goes on posting while the thread
searches.

Main definitions:

* `InfiniKV.GeminiFS.CompletionQueue.memory` — the ring after the device has posted some completions;
* `InfiniKV.GeminiFS.CompletionQueue.search` — the inner loop of `cq_poll`.

Main results:

* `InfiniKV.GeminiFS.CompletionQueue.memory_of_lt` — an entry holds its completion until the device comes round;
* `InfiniKV.GeminiFS.CompletionQueue.phase_ne` — the entry behind the last completion does not look new;
* `InfiniKV.GeminiFS.CompletionQueue.cq_poll_searches` — **a search finds the completions that are there**, and
  no others.
-/

import Mathlib.Data.Nat.ModEq
import Mathlib.Data.Nat.Notation
import Mathlib.Logic.Function.Basic
import Mathlib.Order.Monotone.Basic

set_option relaxedAutoImplicit false
set_option autoImplicit false

namespace InfiniKV
namespace GeminiFS
namespace CompletionQueue

/-! ### The ring -/

/-- A completion: the id of its command, and its status. -/
structure Completion where
  cid : ℕ
  status : ℕ
  deriving DecidableEq, Repr

/-- Double word 3 of an entry: the id in the low half, then the phase, then the status. -/
structure Entry where
  cid : ℕ
  phase : Bool
  status : ℕ
  deriving DecidableEq, Repr

/-- The phase of the entries of a round: `true` in the first one, and then in turn. -/
def phaseOf (log index : ℕ) : Bool := decide (index / 2 ^ log % 2 = 0)

/-- The entry of the completion with a number. -/
def Completion.entry (log : ℕ) (posted : ℕ → Completion) (index : ℕ) : Entry :=
  ⟨(posted index).cid, phaseOf log index, (posted index).status⟩

/-- The ring of `2 ^ log` entries when the device has posted the first `n` completions.  It has been zeroed. -/
def memory (log : ℕ) (posted : ℕ → Completion) : ℕ → ℕ → Entry
  | 0 => fun _ => ⟨0, false, 0⟩
  | n + 1 => Function.update (memory log posted n) (n % 2 ^ log) (Completion.entry log posted n)

/-! ### The search -/

/-- How the inner loop of `cq_poll` ends: with a position, with a failed assertion, or to be started again. -/
inductive Search where
  | found (loc : ℕ)
  | failed
  | again
  deriving DecidableEq, Repr

/-- The inner loop of `cq_poll`, with `rest` turns left; `memories i` is what the ring holds in turn `i`. -/
def search (log : ℕ) (memories : ℕ → ℕ → Entry) (head searchCid : ℕ) : ℕ → ℕ → Search
  | 0, _ => .again
  | rest + 1, i =>
      let curHead := (head + i) % 2 ^ 32
      let searchPhase := phaseOf log curHead
      let loc := curHead % 2 ^ log
      let cplEntry := memories i loc
      if cplEntry.cid = searchCid ∧ cplEntry.phase = searchPhase then
        if cplEntry.status ≠ 0 then .failed else .found loc
      else if cplEntry.phase ≠ searchPhase then .again
      else search log memories head searchCid rest (i + 1)

variable {log : ℕ} {posted : ℕ → Completion}

/-- An entry holds its completion until the device comes round. -/
theorem memory_of_lt {n k : ℕ} (hlt : k < n) (hround : n ≤ k + 2 ^ log) :
    memory log posted n (k % 2 ^ log) = Completion.entry log posted k := by
  induction n with
  | zero => omega
  | succ n ih =>
      rw [memory]
      rcases Nat.lt_or_ge k n with hk | hk
      · have hne : k % 2 ^ log ≠ n % 2 ^ log := by
          intro heq
          have hdvd : 2 ^ log ∣ n - k := (Nat.modEq_iff_dvd' hk.le).1 heq
          have hle := Nat.le_of_dvd (by omega) hdvd
          omega
        rw [Function.update_of_ne hne]
        exact ih hk (by omega)
      · obtain rfl : k = n := by omega
        rw [Function.update_self]

/-- An entry that the device has not come to holds zeros. -/
theorem memory_of_le {n j : ℕ} (hle : n ≤ j) (hj : j < 2 ^ log) : memory log posted n j = ⟨0, false, 0⟩ := by
  induction n with
  | zero => rfl
  | succ n ih =>
      rw [memory, Nat.mod_eq_of_lt (by omega), Function.update_of_ne (by omega)]
      exact ih (by omega)

/-- The phase of the next round is another one. -/
theorem phaseOf_add_ne (index : ℕ) : phaseOf log (index + 2 ^ log) ≠ phaseOf log index := by
  rw [phaseOf, phaseOf, Nat.add_div_right index (Nat.two_pow_pos log)]
  intro heq
  rw [decide_eq_decide] at heq
  omega

/-- **The entry behind the last completion** does not have the phase of its round. -/
theorem phase_ne (n : ℕ) : (memory log posted n (n % 2 ^ log)).phase ≠ phaseOf log n := by
  rcases Nat.lt_or_ge n (2 ^ log) with hlt | hge
  · rw [Nat.mod_eq_of_lt hlt, memory_of_le le_rfl hlt, phaseOf, Nat.div_eq_of_lt hlt]
    decide
  · -- it holds the completion of the round before
    obtain ⟨k, rfl⟩ := Nat.exists_eq_add_of_le' hge
    have hpos : 0 < 2 ^ log := Nat.two_pow_pos log
    rw [Nat.add_mod_right, memory_of_lt (show k < k + 2 ^ log by omega) le_rfl]
    exact (phaseOf_add_ne k).symm

/-- An entry to which the device has come again does not have the phase of its round either. -/
theorem phase_ne_of_lt {n k : ℕ} (hagain : k + 2 ^ log < n) (hround : n ≤ k + 2 * 2 ^ log) :
    (memory log posted n (k % 2 ^ log)).phase ≠ phaseOf log k := by
  rw [← Nat.add_mod_right k, memory_of_lt hagain (by omega)]
  exact phaseOf_add_ne k

/-- The head has 32 bits, and these are whole rounds. -/
theorem mod_of_head (hlog : log < 32) (index : ℕ) :
    phaseOf log (index % 2 ^ 32) = phaseOf log index ∧ index % 2 ^ 32 % 2 ^ log = index % 2 ^ log := by
  have hsplit : 2 ^ 32 = 2 ^ log * (2 * 2 ^ (31 - log)) := by
    rw [← Nat.pow_succ', ← Nat.pow_add]
    congr 1
    omega
  constructor
  · rw [phaseOf, phaseOf, hsplit, Nat.mod_mul_right_div_self, Nat.mod_mul_right_mod]
  · rw [hsplit, Nat.mod_mul_right_mod]

/-- A search that is in turn `i`, with `h` completions worked off: it ends at the first of the other completions
that is for the command, or there is none, or the device has come round. -/
theorem search_spec (hlog : log < 32) {times : ℕ → ℕ} (htimes : Monotone times) {h searchCid : ℕ}
    (hfits : ∀ i, times i < h + 2 * 2 ^ log) (rest : ℕ) {i : ℕ} (hrest : i + rest + 1 = 2 ^ log)
    (hi : h + i ≤ times i) :
    (∃ k, h + i ≤ k ∧ k < times (k - h) ∧ (posted k).cid = searchCid ∧
        (∀ j, h + i ≤ j → j < k → (posted j).cid ≠ searchCid) ∧
        search log (fun i => memory log posted (times i)) (h % 2 ^ 32) searchCid rest i =
          if (posted k).status ≠ 0 then .failed else .found (k % 2 ^ log)) ∨
      search log (fun i => memory log posted (times i)) (h % 2 ^ 32) searchCid rest i = .again ∧
        ((∀ j, h + i ≤ j → j < times i → (posted j).cid ≠ searchCid) ∨ ∃ i, h + 2 ^ log ≤ times i) := by
  induction rest generalizing i with
  | zero =>
      -- the whole ring has been searched
      refine Or.inr ⟨rfl, ?_⟩
      rcases Nat.lt_or_ge (times i) (h + 2 ^ log) with hlt | hge
      · exact Or.inl fun j hj hlt => by omega
      · exact Or.inr ⟨i, hge⟩
  | succ rest ih =>
      have hcur : (h % 2 ^ 32 + i) % 2 ^ 32 = (h + i) % 2 ^ 32 := Nat.mod_add_mod h (2 ^ 32) i
      obtain ⟨hphase, hloc⟩ := mod_of_head hlog (h + i)
      rw [search, hcur, hphase, hloc]
      rcases Nat.lt_or_ge (h + i) (times i) with hlt | hge
      · rcases Nat.lt_or_ge (h + i + 2 ^ log) (times i) with hagain | hround
        · -- the device has come round
          have hold := @phase_ne_of_lt log posted (times i) (h + i) hagain (by have hall := hfits i; omega)
          rw [if_neg fun hand => hold hand.2, if_pos hold]
          exact Or.inr ⟨rfl, Or.inr ⟨i, by omega⟩⟩
        rw [memory_of_lt hlt hround, Completion.entry]
        dsimp only
        by_cases hcid : (posted (h + i)).cid = searchCid
        · left
          refine ⟨h + i, le_rfl, by rwa [Nat.add_sub_cancel_left], hcid, fun j hj hj' => by omega, ?_⟩
          rw [if_pos ⟨hcid, rfl⟩]
        · rw [if_neg fun hand => hcid hand.1, if_neg fun hne => hne rfl]
          have hnext : h + (i + 1) ≤ times (i + 1) := hlt.trans_le (htimes (Nat.le_succ i))
          rcases ih (by omega) hnext with ⟨k, hk, hposted, hkcid, hfirst, hends⟩ | ⟨hends, hnone | hcome⟩
          · refine Or.inl ⟨k, by omega, hposted, hkcid, fun j hj hj' => ?_, hends⟩
            rcases Nat.eq_or_lt_of_le hj with rfl | hj
            · exact hcid
            · exact hfirst j (by omega) hj'
          · refine Or.inr ⟨hends, Or.inl fun j hj hj' => ?_⟩
            rcases Nat.eq_or_lt_of_le hj with rfl | hj
            · exact hcid
            · exact hnone j (by omega) (hj'.trans_le (htimes (Nat.le_succ i)))
          · exact Or.inr ⟨hends, Or.inr hcome⟩
      · -- the entry is of the round before
        obtain hsame : times i = h + i := by omega
        have hold := @phase_ne log posted (h + i)
        rw [← hsame] at hold ⊢
        rw [if_neg fun hand => hold hand.2, if_pos hold]
        exact Or.inr ⟨rfl, Or.inl fun j hj hj' => by omega⟩

/-- **A search of `cq_poll` finds the completions that are there.**  `h` completions have been worked off, and the
device goes on posting during the search, as far as one round beyond what the head allows, for the doorbell is rung
before the head is stored.  Either the search ends at the first of the other completions that is for the command, or
it is started again, and then none was there when it began, or the device has come round. -/
theorem cq_poll_searches (hlog : log < 32) {times : ℕ → ℕ} (htimes : Monotone times) {h : ℕ} (searchCid : ℕ)
    (hhead : h ≤ times 0) (hfits : ∀ i, times i < h + 2 * 2 ^ log) :
    (∃ k, h ≤ k ∧ k < times (k - h) ∧ (posted k).cid = searchCid ∧
        (∀ j, h ≤ j → j < k → (posted j).cid ≠ searchCid) ∧
        search log (fun i => memory log posted (times i)) (h % 2 ^ 32) searchCid (2 ^ log - 1) 0 =
          if (posted k).status ≠ 0 then .failed else .found (k % 2 ^ log)) ∨
      search log (fun i => memory log posted (times i)) (h % 2 ^ 32) searchCid (2 ^ log - 1) 0 = .again ∧
        ((∀ j, h ≤ j → j < times 0 → (posted j).cid ≠ searchCid) ∨ ∃ i, h + 2 ^ log ≤ times i) := by
  have hpos : 0 < 2 ^ log := Nat.two_pow_pos log
  exact @search_spec log posted hlog times htimes h searchCid hfits (2 ^ log - 1) 0 (by omega) hhead

/-- Completions that are numbered through. -/
def numbered (k : ℕ) : Completion := ⟨k, 0⟩

/-- Completion 6 is posted while the ring is searched for it. -/
theorem cq_poll_searches_numbered :
    (∃ k, 5 ≤ k ∧ k < min (6 + (k - 5)) 8 ∧ (numbered k).cid = 6 ∧
        (∀ j, 5 ≤ j → j < k → (numbered j).cid ≠ 6) ∧
        search 2 (fun i => memory 2 numbered (min (6 + i) 8)) (5 % 2 ^ 32) 6 (2 ^ 2 - 1) 0 =
          if (numbered k).status ≠ 0 then .failed else .found (k % 2 ^ 2)) ∨
      search 2 (fun i => memory 2 numbered (min (6 + i) 8)) (5 % 2 ^ 32) 6 (2 ^ 2 - 1) 0 = .again ∧
        ((∀ j, 5 ≤ j → j < min (6 + 0) 8 → (numbered j).cid ≠ 6) ∨ ∃ i, 5 + 2 ^ 2 ≤ min (6 + i) 8) :=
  @cq_poll_searches 2 numbered (by decide) (fun i => min (6 + i) 8)
    (fun i j hle => min_le_min_right 8 (Nat.add_le_add_left hle 6)) 5 6 (by decide)
    (fun i => (min_le_right (6 + i) 8).trans_lt (by decide))

end CompletionQueue
end GeminiFS
end InfiniKV
