/-
**Rounds of a submission queue.**

While nobody else uses the queue, a thread passes `sq_enqueue` with its command, the device reads it and posts a
completion, and `move_head_cq` gives the slot free.  Then the queue is as it was before, one command on.  So a ring
of four entries or more takes `2 ^ 32` commands one after the other.

Main definitions:

* `InfiniKV.GeminiFS.SubmissionQueue.idle` — the queue after some commands have come and gone;
* `InfiniKV.GeminiFS.SubmissionQueue.round` — the steps in which one more does.

Main results:

* `InfiniKV.GeminiFS.SubmissionQueue.run_alone` — a thread that is alone passes `sq_enqueue`;
* `InfiniKV.GeminiFS.SubmissionQueue.run_round` — **a round**;
* `InfiniKV.GeminiFS.SubmissionQueue.run_rounds` — **`2 ^ 32` commands come and go**.
-/

import InfiniKV.SubmissionQueue
import Mathlib.Data.Nat.ModEq

set_option relaxedAutoImplicit false
set_option autoImplicit false

namespace InfiniKV
namespace GeminiFS
namespace SubmissionQueue

variable {τ η : Type}

/-! ### Turns -/

/-- The turn counters after `n` commands have come and gone. -/
def turns (log : ℕ) : ℕ → ℕ → ℕ
  | 0 => fun _ => 0
  | n + 1 => Function.update (turns log n) (n % 2 ^ log) ((turns log n (n % 2 ^ log) + 2) % 2 ^ 32)

/-- The turn counter of a slot, which counts its commands twice. -/
theorem turns_eq {log : ℕ} (n p : ℕ) (hp : p < 2 ^ log) :
    turns log n p = 2 * ((n + (2 ^ log - 1 - p)) / 2 ^ log) % 2 ^ 32 := by
  induction n with
  | zero =>
      rw [turns, Nat.div_eq_of_lt (by omega)]
      rfl
  | succ n ih =>
      have hadd : n + 1 + (2 ^ log - 1 - p) = n + (2 ^ log - 1 - p) + 1 := by omega
      rw [turns, hadd, Nat.succ_div]
      by_cases h : p = n % 2 ^ log
      · -- the command is that of the slot
        subst h
        have hdvd : 2 ^ log ∣ n + (2 ^ log - 1 - n % 2 ^ log) + 1 := by
          have hsplit := Nat.div_add_mod n (2 ^ log)
          refine ⟨n / 2 ^ log + 1, ?_⟩
          rw [Nat.mul_add]
          omega
        rw [Function.update_self, ih, if_pos hdvd]
        omega
      · have hdvd : ¬ 2 ^ log ∣ n + (2 ^ log - 1 - p) + 1 := by
          rintro ⟨q, hq⟩
          have hsum : n + 2 ^ log = p + 2 ^ log * q := by omega
          apply h
          have hmod := congrArg (· % 2 ^ log) hsum
          simp only [Nat.add_mod_right, Nat.add_mul_mod_self_left] at hmod
          rw [hmod, Nat.mod_eq_of_lt hp]
        rw [Function.update_of_ne h, ih, if_neg hdvd, Nat.add_zero]

/-- The turn of the next command. -/
theorem turns_next {log n : ℕ} (hlog : 1 ≤ log) (hn : n < 2 ^ 32) :
    turns log n (n % 2 ^ log) = getId (n % 2 ^ 32) log := by
  have hpos := Nat.two_pow_pos log
  have hlt := Nat.mod_lt n hpos
  have hsplit := Nat.div_add_mod n (2 ^ log)
  have hsum : n + (2 ^ log - 1 - n % 2 ^ log) = 2 ^ log - 1 + 2 ^ log * (n / 2 ^ log) := by omega
  have hle : n / 2 ^ log ≤ n / 2 ^ 1 := Nat.div_le_div_left (Nat.pow_le_pow_right (by omega) hlog) (by omega)
  rw [turns_eq n _ hlt, hsum, Nat.add_mul_div_left _ _ hpos, Nat.div_eq_of_lt (by omega), getId,
    Nat.mod_eq_of_lt hn, Nat.zero_add, Nat.mod_eq_of_lt (by omega), Nat.mul_comm]

/-! ### One command after the other -/

/-- A queue that nobody uses, after `n` equal commands have come and gone. -/
def idle (τ : Type) (log : ℕ) (cmd : η × η) (n : ℕ) : State τ η where
  sq := ⟨n % 2 ^ 32, turns log n, fun _ => false, false, n % 2 ^ 32, n % 2 ^ 32, fun _ => cmd, n % 2 ^ log⟩
  threads := fun _ => none
  mover := none
  posted := List.range' 1 n
  consumed := n
  fetching := none
  issued := List.replicate n cmd
  fetched := List.replicate n cmd

/-- A command comes and goes: its thread is alone, and the device and the thread that works off completions follow. -/
def round (t : τ) (cmd : η × η) : List (Action τ η) :=
  .enqueue t cmd :: List.replicate 18 (.access t) ++ [.fetch, .fetch, .post, .dequeue 1, .move, .move]

variable [DecidableEq τ]

/-- The state with another queue, and another thread `t`. -/
def State.put (s : State τ η) (t : τ) (sq : Queue η) (th : Option (Thread η)) : State τ η :=
  { s with sq := sq, threads := Function.update s.threads t th }

/-- A run begins with a step. -/
theorem run_cons {log : ℕ} {s s' : State τ η} {a : Action τ η} (h : step log s a = some s') (rest : List (Action τ η)) :
    run log s (a :: rest) = run log s' rest := by
  rw [run, List.foldlM_cons, h]
  rfl

/-- A run begins with an access of the thread. -/
theorem run_access {log : ℕ} {s : State τ η} {t : τ} {sq : Queue η} {th : Thread η}
    {next : Queue η × Option (Thread η)} (h : th.step log sq = next) (rest : List (Action τ η)) :
    run log (s.put t sq (some th)) (.access t :: rest) = run log (s.put t next.1 next.2) rest := by
  subst h
  rw [run, List.foldlM_cons]
  simp only [State.put, step, Function.update_self, Function.update_idem, Option.map_some]
  rfl

/-- A number of the ring is not the one `k` places on. -/
theorem add_mod_ne {n k N : ℕ} (hk : 0 < k) (hkN : k < N) : (n + k) % N ≠ n % N := by
  intro h
  have hdvd : N ∣ n + k - n := (Nat.modEq_iff_dvd' (Nat.le_add_right n k)).1 h.symm
  rw [Nat.add_sub_cancel_left] at hdvd
  exact absurd (Nat.le_of_dvd hk hdvd) (by omega)

/-- **A thread that is alone** passes `sq_enqueue`, and moves the tail over its own command. -/
theorem run_alone {log n : ℕ} (hlog : 2 ≤ log) {s : State τ η} {t : τ} {inTicket db : ℕ} {tickets : ℕ → ℕ}
    {vaddr : ℕ → η × η} {cmd : η × η} (htickets : tickets (n % 2 ^ log) = getId n log) (rest : List (Action τ η)) :
    run log (s.put t ⟨inTicket, tickets, fun _ => false, false, n, n, vaddr, db⟩ (some ⟨.waiting, n, cmd, 0, 0, n⟩))
        (List.replicate 18 (.access t) ++ rest) =
      run log (s.put t ⟨inTicket, Function.update tickets (n % 2 ^ log) ((tickets (n % 2 ^ log) + 1) % 2 ^ 32),
        fun _ => false, false, (n + 1) % 2 ^ 32, n, Function.update vaddr (n % 2 ^ log) cmd,
        (n + 1) % 2 ^ 32 % 2 ^ log⟩ none) rest := by
  have hring : 2 ^ 2 ≤ 2 ^ log := Nat.pow_le_pow_right (by omega) hlog
  have hone := @add_mod_ne n 1 (2 ^ log) (by omega) (by omega)
  have htwo := @add_mod_ne n 2 (2 ^ log) (by omega) (by omega)
  -- the marks of the slots, while the thread has marked its own
  obtain ⟨marks, hmarks⟩ : ∃ marks, marks = Function.update (fun _ : ℕ => false) (n % 2 ^ log) true := ⟨_, rfl⟩
  have hmarked : marks (n % 2 ^ log) = true := by rw [hmarks, Function.update_self]
  have hunmarked : Function.update marks (n % 2 ^ log) false = fun _ => false := by
    rw [hmarks, Function.update_idem, Function.update_eq_self_iff]
  have hclear : Function.update (fun _ : ℕ => false) ((n + 1) % 2 ^ log) false = fun _ => false :=
    Function.update_eq_self_iff.2 rfl
  have hentry : Function.update (Function.update vaddr (n % 2 ^ log) (cmd.1, (vaddr (n % 2 ^ log)).2)) (n % 2 ^ log)
      ((Function.update vaddr (n % 2 ^ log) (cmd.1, (vaddr (n % 2 ^ log)).2) (n % 2 ^ log)).1, cmd.2) =
        Function.update vaddr (n % 2 ^ log) cmd := by
    rw [Function.update_idem, Function.update_self]
  simp only [List.replicate, List.cons_append, List.nil_append]
  -- its turn has come, and it copies the command and marks its slot
  rw [run_access rfl]
  simp only [Thread.step, Thread.pos, htickets, if_true]
  rw [run_access rfl]
  simp only [Thread.step, Thread.pos, htickets, if_true]
  rw [run_access rfl]
  simp only [Thread.step, Thread.pos]
  rw [run_access rfl]
  simp only [Thread.step, Thread.pos, hentry]
  rw [run_access rfl]
  simp only [Thread.step, Thread.pos, ← hmarks]
  -- it finds its mark, and takes the lock
  rw [run_access rfl]
  simp only [Thread.step, Thread.pos, hmarked, if_true]
  rw [run_access rfl]
  simp only [Thread.step, Bool.false_eq_true, if_false]
  rw [run_access rfl]
  simp only [Thread.step, Bool.false_eq_true, if_false]
  rw [run_access rfl]
  simp only [Thread.step]
  -- it takes its own mark, and finds none in the next slot
  rw [run_access rfl]
  simp only [Thread.step, Nat.add_zero, if_pos hone]
  rw [run_access rfl]
  simp only [Thread.step, Nat.add_zero, hmarked, hunmarked, if_true]
  rw [run_access rfl]
  simp only [Thread.step, Nat.zero_add, Nat.add_assoc, Nat.reduceAdd, if_pos htwo]
  rw [run_access rfl]
  simp only [Thread.step, hclear, Bool.false_eq_true, if_false, Thread.moved, Nat.one_ne_zero]
  -- it rings the doorbell, gives the lock back and leaves
  rw [run_access rfl]
  simp only [Thread.step, Thread.newTail]
  rw [run_access rfl]
  simp only [Thread.step, Thread.newTail]
  rw [run_access rfl]
  simp only [Thread.step]
  rw [run_access rfl]
  simp only [Thread.step, Bool.false_eq_true, if_false]
  rw [run_access rfl]
  simp only [Thread.step, Thread.pos, htickets]

/-- **A round**: one more command has come and gone. -/
theorem run_round {log n : ℕ} (hlog : 2 ≤ log) (hle : log ≤ 32) (hn : n < 2 ^ 32) (t : τ) (cmd : η × η) :
    run log (idle τ log cmd n) (round t cmd) = some (idle τ log cmd (n + 1)) := by
  have hring : 2 ^ 2 ≤ 2 ^ log := Nat.pow_le_pow_right (by omega) hlog
  have hmod := Nat.mod_eq_of_lt hn
  have hticket : turns log n (n % 2 ^ log) = getId n log := by rw [turns_next (by omega) hn, hmod]
  have hone := @add_mod_ne n 1 (2 ^ log) (by omega) (by omega)
  have hent : Function.update (fun _ : ℕ => cmd) (n % 2 ^ log) cmd = fun _ => cmd :=
    Function.update_eq_self_iff.2 rfl
  have hthreads : Function.update (fun _ : τ => (none : Option (Thread η))) t none = fun _ => none :=
    Function.update_eq_self_iff.2 rfl
  have hdb : (n + 1) % 2 ^ 32 % 2 ^ log = (n + 1) % 2 ^ log := Nat.mod_mod_of_dvd _ (Nat.pow_dvd_pow 2 hle)
  have hput : step log (idle τ log cmd n) (.enqueue t cmd) = some (State.put { idle τ log cmd n with
      issued := List.replicate (n + 1) cmd } t ⟨(n + 1) % 2 ^ 32, turns log n, fun _ => false, false, n, n,
        fun _ => cmd, n % 2 ^ log⟩ (some ⟨.waiting, n, cmd, 0, 0, n⟩)) := by
    simp only [step, idle, draw, hmod, State.put, List.length_replicate, List.replicate_succ']
  rw [round, List.cons_append, run_cons hput, run_alone hlog hticket, hent, hdb, hticket]
  simp only [State.put, idle, hthreads]
  -- the device reads the entry and posts a completion
  rw [run_cons (by rw [step, fetch, List.length_replicate, if_neg hone.symm])]
  rw [run_cons (by rw [step, fetch])]
  rw [run_cons (by rw [step, List.length_range', List.length_append, List.length_replicate, List.length_singleton,
    if_pos (Nat.lt_succ_self n)])]
  -- the completion tells that the slot is free
  have hposted : (List.range' 1 n ++ [n + 1])[n + 1 - 1]? = some (n + 1) := by
    rw [Nat.add_sub_cancel, List.getElem?_append_right (by rw [List.length_range']), List.length_range', Nat.sub_self]
    rfl
  rw [run_cons (by rw [step]; dsimp only; rw [Mover.start, if_neg Nat.one_ne_zero, hposted, Option.map_some,
    Option.map_some])]
  rw [run_cons (by rw [step]; dsimp only; rw [Option.map_some, Mover.step, if_pos hone.symm])]
  have hnext : (n % 2 ^ log + 1) % 2 ^ log = (n + 1) % 2 ^ log := Nat.mod_add_mod n (2 ^ log) 1
  rw [run_cons (by rw [step]; dsimp only; rw [Option.map_some, Mover.step, if_neg (not_not.2 hnext)])]
  have hturns : Function.update (Function.update (turns log n) (n % 2 ^ log) ((getId n log + 1) % 2 ^ 32))
      (n % 2 ^ log) ((Function.update (turns log n) (n % 2 ^ log) ((getId n log + 1) % 2 ^ 32) (n % 2 ^ log) + 1) %
        2 ^ 32) = turns log (n + 1) := by
    rw [Function.update_idem, Function.update_self, turns, hticket, Nat.mod_add_mod, Nat.add_assoc]
  have hread : List.replicate n cmd ++ [(cmd.1, cmd.2)] = List.replicate (n + 1) cmd := List.replicate_succ'.symm
  have hdone : List.range' 1 n ++ [n + 1] = List.range' 1 (n + 1) := by
    rw [List.range'_1_concat, Nat.add_comm 1 n]
  rw [hturns, hread, hdone]
  rfl

/-- **`2 ^ 32` commands come and go**, one after the other. -/
theorem run_rounds {log : ℕ} (hlog : 2 ≤ log) (hle : log ≤ 32) (t : τ) (cmd : η × η) {n : ℕ} (hn : n ≤ 2 ^ 32) :
    run log (initial fun _ => cmd) (List.replicate n (round t cmd)).flatten = some (idle τ log cmd n) := by
  induction n with
  | zero =>
      have hturns : turns log 0 = fun _ => 0 := rfl
      rfl
  | succ n ih =>
      rw [List.replicate_succ', List.flatten_append, run, List.foldlM_append, ← run, ih (by omega)]
      rw [List.flatten_singleton, Option.bind_eq_bind, Option.bind_some]
      exact run_round hlog hle (by omega) t cmd

end SubmissionQueue
end GeminiFS
end InfiniKV
