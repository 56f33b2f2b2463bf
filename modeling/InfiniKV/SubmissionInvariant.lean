/-
**The invariant of a submission queue.**

The counters of the queue are taken modulo the size of the ring or `2 ^ 32`.  Beside each state stands what they
count: how many commands were taken over by the thread that moves the tail, how many the doorbell has, how many
slots were given free.  The commands that were taken over and not given free are fewer than the ring has
slots, so no two of them share one; and a slot that has a command whose turn it is holds an entry which the
device has read already.

Main definitions:

* `InfiniKV.GeminiFS.SubmissionQueue.Ghost` — what the counters count;
* `InfiniKV.GeminiFS.SubmissionQueue.Inv` — **the invariant**, of which `SlotInv` is what holds of a slot,
  `ThreadInv` of a thread, `RosterInv` and `LockInv` of the threads together.

Main results:

* `InfiniKV.GeminiFS.SubmissionQueue.turn_unique` — a turn is told from the others by 32 bits;
* `InfiniKV.GeminiFS.SubmissionQueue.Inv.passes` — a thread goes on at its turn only;
* `InfiniKV.GeminiFS.SubmissionQueue.Inv.write`, `InfiniKV.GeminiFS.SubmissionQueue.Inv.expose`,
  `InfiniKV.GeminiFS.SubmissionQueue.Inv.leave`, `InfiniKV.GeminiFS.SubmissionQueue.Inv.moveHead`, … — one
  lemma for each kind of access.
-/

import InfiniKV.SubmissionQueue
import Mathlib.Data.Nat.ModEq
import Mathlib.Data.Fintype.Card
import Mathlib.Order.Interval.Finset.Nat

set_option relaxedAutoImplicit false
set_option autoImplicit false

namespace InfiniKV
namespace GeminiFS
namespace SubmissionQueue

variable {τ η : Type}

/-! ### What the stages say -/

/-- Before the slot is marked. -/
def Stage.unmarked : Stage → Bool
  | .waiting | .acquiring | .copying | .copyingSecond | .marking => true
  | _ => false

/-- Its turn has come. -/
def Stage.passed : Stage → Bool
  | .waiting | .acquiring => false
  | _ => true

/-- A thread that has marked its slot has had its turn. -/
theorem Stage.passed_of_marked {stage : Stage} (h : stage.unmarked = false) : stage.passed = true := by
  cases stage <;> first | rfl | cases h

/-- Between taking `tail_lock` and giving it back. -/
def Stage.critical : Stage → Bool
  | .loading | .scanning | .exchanging | .ringing | .storing | .unlocking => true
  | _ => false

/-- What the counters of the code stand for, which are taken modulo the size of the ring or `2 ^ 32`: how many
commands were taken over by whoever moves the tail, how many of them `tail` and the doorbell have, how many
slots were given free and how many of these `head` has.  For each slot, the command whose turn it is and
whether its thread has left. -/
structure Ghost where
  exposed : ℕ
  stored : ℕ
  rung : ℕ
  freed : ℕ
  headed : ℕ
  cur : ℕ → ℕ
  left : ℕ → Bool

/-- What a thread in the critical section knows. -/
def SectionInv (g : Ghost) (curTail count : ℕ) (room : Prop) : Stage → Prop
  | .loading | .unlocking => g.stored = g.exposed ∧ g.rung = g.exposed
  | .scanning | .ringing =>
      curTail = g.stored % 2 ^ 32 ∧ g.exposed = g.stored + count ∧ g.rung = g.stored
  | .exchanging => curTail = g.stored % 2 ^ 32 ∧ g.exposed = g.stored + count ∧ g.rung = g.stored ∧ room
  | .storing => curTail = g.stored % 2 ^ 32 ∧ g.exposed = g.stored + count ∧ g.rung = g.exposed
  | _ => True

variable (log : ℕ)

/-- What holds of the thread whose command is the `index`-th. -/
structure ThreadInv (sq : Queue η) (issued : List (η × η)) (g : Ghost) (th : Thread η) : Prop where
  ticket : th.ticket = th.index % 2 ^ 32
  cmd : issued[th.index]? = some th.cmd
  unmarked : th.stage.unmarked = true → g.exposed ≤ th.index ∧ g.cur (th.index % 2 ^ log) ≤ th.index ∧
    (g.cur (th.index % 2 ^ log) = th.index → sq.tailMark (th.index % 2 ^ log) = false)
  passed : th.stage.passed = true →
    g.cur (th.index % 2 ^ log) = th.index ∧ g.left (th.index % 2 ^ log) = false
  early : th.stage.passed = true → 2 ≤ log → th.index < 2 ^ 32
  halfway : th.stage = .copyingSecond → (sq.vaddr (th.index % 2 ^ log)).1 = th.cmd.1
  copied : th.stage = .marking → sq.vaddr (th.index % 2 ^ log) = th.cmd
  marked : th.stage.unmarked = false →
    (sq.tailMark (th.index % 2 ^ log) = true ↔ g.exposed ≤ th.index)
  leaving : th.stage = .leaving → th.index < g.exposed
  inside : SectionInv g th.curTail th.count (g.exposed + 1 < g.headed + 2 ^ log) th.stage

/-- What holds of a slot. -/
structure SlotInv (sq : Queue η) (issued : List (η × η)) (g : Ghost) (p : ℕ) : Prop where
  mod : g.cur p % 2 ^ log = p
  cur_lt : g.cur p < g.freed + 2 ^ log
  exposed_le : g.exposed ≤ g.cur p + 2 ^ log
  left : g.left p = true → g.freed ≤ g.cur p ∧ g.cur p < g.exposed
  turn : sq.tickets p = (2 * (g.cur p / 2 ^ log) + (g.left p).toNat + (decide (g.cur p < g.freed)).toNat) % 2 ^ 32
  mark : sq.tailMark p = true → g.exposed ≤ g.cur p ∧ issued[g.cur p]? = some (sq.vaddr p)

/-- What holds of the thread that works off completions. -/
def MoverInv (posted : List ℕ) (consumed : ℕ) (g : Ghost) : Option Mover → Prop
  | none => g.freed = g.headed
  | some m => g.freed = g.headed + m.sqMoveCount ∧ m.loc = g.freed % 2 ^ log ∧ 0 < m.count ∧
      ∃ r, posted[consumed + m.count - 1]? = some r ∧ g.freed ≤ r ∧ m.newSqHead = r % 2 ^ log

/-- What holds of the queue, of the device, and of the thread that works off completions. -/
structure QueueInv (s : State τ η) (g : Ghost) : Prop where
  headed_le : g.headed ≤ g.freed
  freed_le : g.freed ≤ s.fetched.length
  fetched_le : s.fetched.length ≤ g.rung
  rung_le : g.rung ≤ g.exposed
  exposed_le : g.exposed ≤ s.issued.length
  room : g.exposed < g.headed + 2 ^ log
  inTicket : s.sq.inTicket = s.issued.length % 2 ^ 32
  tail : s.sq.tail = g.stored % 2 ^ 32
  head : s.sq.head = g.headed % 2 ^ 32
  db : s.sq.db = g.rung % 2 ^ log
  slot : ∀ p < 2 ^ log, SlotInv log s.sq s.issued g p
  entries : ∀ i, s.fetched.length ≤ i → i < g.exposed → s.issued[i]? = some (s.sq.vaddr (i % 2 ^ log))
  fetched : s.fetched <+: s.issued
  fetching : ∀ x, s.fetching = some x →
    s.fetched.length < g.rung ∧ x = (s.sq.vaddr (s.fetched.length % 2 ^ log)).1
  posted : s.posted.Pairwise (· ≤ ·)
  posted_le : ∀ r ∈ s.posted, r ≤ s.fetched.length
  le_posted : ∀ r ∈ s.posted.drop s.consumed, g.headed ≤ r
  mover : MoverInv log s.posted s.consumed g s.mover
  early : 2 ≤ log → g.exposed ≤ 2 ^ 32

/-- Which command is that of each thread. -/
def indexOf (threads : τ → Option (Thread η)) (t : τ) : Option ℕ := (threads t).map Thread.index

/-- Which threads are in the critical section. -/
def criticalOf (threads : τ → Option (Thread η)) (t : τ) : Bool := (threads t).any fun th => th.stage.critical

/-- No command is that of two threads, and each that was not taken over has its thread. -/
structure RosterInv (indexOf : τ → Option ℕ) (issued exposed : ℕ) : Prop where
  distinct : ∀ t u i, indexOf t = some i → indexOf u = some i → t = u
  covered : ∀ i, exposed ≤ i → i < issued → ∃ t, indexOf t = some i

/-- One thread at a time is in the critical section, it has the lock, and while none is there, the tail and the
doorbell have all that was taken over. -/
structure LockInv (critical : τ → Bool) (tailLock : Bool) (g : Ghost) : Prop where
  exclusive : ∀ t u, critical t = true → critical u = true → t = u
  locked : ∀ t, critical t = true → tailLock = true
  quiet : (∀ t, critical t = false) → g.stored = g.exposed ∧ g.rung = g.exposed

/-- **The invariant of the queue.** -/
structure Inv (s : State τ η) (g : Ghost) : Prop where
  queue : QueueInv log s g
  thread : ∀ t th, s.threads t = some th → ThreadInv log s.sq s.issued g th
  roster : RosterInv (indexOf s.threads) s.issued.length g.exposed
  lock : LockInv (criticalOf s.threads) s.sq.tailLock g

variable {log}

/-! ### Slots and counters -/

section
variable {sq : Queue η} {issued : List (η × η)} {g : Ghost} {p i : ℕ} {s : State τ η} {th : Thread η}

/-- A slot is the same for all commands that are a whole number of turns apart. -/
theorem SlotInv.next_le (h : SlotInv log sq issued g p) (hi : i % 2 ^ log = p) (hlt : g.cur p < i) :
    g.cur p + 2 ^ log ≤ i :=
  Nat.ModEq.add_le_of_lt (h.mod.trans hi.symm) hlt

theorem SlotInv.le_prev (h : SlotInv log sq issued g p) (hi : i % 2 ^ log = p) (hlt : i < g.cur p) :
    i + 2 ^ log ≤ g.cur p :=
  Nat.ModEq.add_le_of_lt (hi.trans h.mod.symm) hlt

theorem slot_lt (i : ℕ) : i % 2 ^ log < 2 ^ log := Nat.mod_lt _ (Nat.two_pow_pos log)

theorem QueueInv.slotOf (h : QueueInv log s g) (i : ℕ) : SlotInv log s.sq s.issued g (i % 2 ^ log) :=
  h.slot _ (slot_lt i)

/-- The position which a thread computes is the slot of its command. -/
theorem ThreadInv.pos_eq (h : ThreadInv log sq issued g th) (hlog : log ≤ 32) :
    th.pos log = th.index % 2 ^ log := by
  rw [Thread.pos, h.ticket, Nat.mod_mod_of_dvd _ (Nat.pow_dvd_pow 2 hlog)]

theorem ThreadInv.index_lt (h : ThreadInv log sq issued g th) : th.index < issued.length :=
  (List.getElem?_eq_some_iff.1 h.cmd).1

/-- A thread that has marked its slot goes to another stage, where the doorbell or the tail may be changed. -/
theorem ThreadInv.goto (h : ThreadInv log sq issued g th) (hunmarked : th.stage.unmarked = false) (stage : Stage)
    {curTail count stored rung : ℕ} (hunmarked' : stage.unmarked = false)
    (hleaving : stage = .leaving → th.index < g.exposed)
    (hinside : SectionInv { g with stored := stored, rung := rung } curTail count
      (g.exposed + 1 < g.headed + 2 ^ log) stage) :
    ThreadInv log sq issued { g with stored := stored, rung := rung }
      { th with stage := stage, curTail := curTail, count := count } where
  ticket := h.ticket
  cmd := h.cmd
  unmarked hst := absurd (hunmarked'.symm.trans hst) Bool.false_ne_true
  passed _ := h.passed (Stage.passed_of_marked hunmarked)
  early _ := h.early (Stage.passed_of_marked hunmarked)
  halfway := by rintro rfl; cases hunmarked'
  copied := by rintro rfl; cases hunmarked'
  marked _ := h.marked hunmarked
  leaving := hleaving
  inside := hinside

/-- A command that was taken over has had its turn. -/
theorem QueueInv.le_cur (h : QueueInv log s g) (hi : i < g.exposed) : i ≤ g.cur (i % 2 ^ log) := by
  by_contra hlt
  have hnext := (h.slotOf i).next_le rfl (Nat.lt_of_not_le hlt)
  have hle := (h.slotOf i).exposed_le
  omega

/-- At the slot of the next command to be given free, it is that command's turn. -/
theorem QueueInv.cur_freed (h : QueueInv log s g) (hlt : g.freed < g.exposed) :
    g.cur (g.freed % 2 ^ log) = g.freed := by
  refine le_antisymm ?_ (h.le_cur hlt)
  by_contra hcur
  have hprev := (h.slotOf g.freed).le_prev rfl (Nat.lt_of_not_le hcur)
  have hcur_lt := (h.slotOf g.freed).cur_lt
  omega

/-- A slot that is marked, where the tail would be moved to next, is that of the next command. -/
theorem QueueInv.cur_exposed (h : QueueInv log s g) (hmark : s.sq.tailMark (g.exposed % 2 ^ log) = true) :
    g.cur (g.exposed % 2 ^ log) = g.exposed := by
  have hslot := h.slotOf g.exposed
  refine le_antisymm ?_ (hslot.mark hmark).1
  by_contra hcur
  have hprev := hslot.le_prev rfl (Nat.lt_of_not_le hcur)
  have hcur_lt := hslot.cur_lt
  have hfreed := h.freed_le
  have hfetched := h.fetched_le
  have hrung := h.rung_le
  omega

/-- No entry that the device may yet read is in the slot of a command which was not taken over. -/
theorem QueueInv.slot_ne (h : QueueInv log s g) {n : ℕ} (hcur : g.cur (n % 2 ^ log) = n)
    (hn : g.exposed ≤ n) (hfetched : s.fetched.length ≤ i) (hi : i < g.exposed) :
    i % 2 ^ log ≠ n % 2 ^ log := by
  intro hmod
  have hprev := (h.slotOf n).le_prev hmod (by omega)
  have hcur_lt := (h.slotOf n).cur_lt
  have hfreed := h.freed_le
  omega

end

/-! ### The threads together -/

section
variable {threads : τ → Option (Thread η)} {t : τ} {th : Thread η}

theorem indexOf_eq (ht : threads t = some th) : indexOf threads t = some th.index := by
  rw [indexOf, ht, Option.map_some]

theorem criticalOf_eq (ht : threads t = some th) : criticalOf threads t = th.stage.critical := by
  rw [criticalOf, ht, Option.any_some]

end

section
variable {index : τ → Option ℕ} {critical : τ → Bool} {issued exposed : ℕ} {tailLock : Bool}
  {g g' : Ghost} {t : τ}

/-- What was taken over needs no thread. -/
theorem RosterInv.mono (h : RosterInv index issued exposed) {exposed' : ℕ} (hle : exposed ≤ exposed') :
    RosterInv index issued exposed' :=
  ⟨h.distinct, fun i hi => h.covered i (hle.trans hi)⟩

/-- While the lock is free, the tail and the doorbell have all that was taken over. -/
theorem LockInv.quiet_of_free (h : LockInv critical false g) : g.stored = g.exposed ∧ g.rung = g.exposed :=
  h.quiet fun t => by
    by_contra hcritical
    exact Bool.false_ne_true (h.locked t (by simpa using hcritical))

/-- The thread in the critical section changes what the counters stand for. -/
theorem LockInv.work (h : LockInv critical tailLock g) (ht : critical t = true) :
    LockInv critical tailLock g' :=
  ⟨h.exclusive, h.locked, fun hnone => by
    rw [hnone t] at ht
    cases ht⟩

end

section
variable [DecidableEq τ] {threads : τ → Option (Thread η)} {next : Option (Thread η)} {t u : τ}
  {th th' uh : Thread η}

theorem update_eq_some (h : Function.update threads t next u = some uh) :
    (u = t ∧ next = some uh) ∨ (u ≠ t ∧ threads u = some uh) := by
  by_cases hut : u = t
  · subst hut
    exact Or.inl ⟨rfl, by rwa [Function.update_self] at h⟩
  · exact Or.inr ⟨hut, by rwa [Function.update_of_ne hut] at h⟩

theorem indexOf_update : indexOf (Function.update threads t next) =
    Function.update (indexOf threads) t (next.map Thread.index) := by
  funext u
  by_cases hut : u = t
  · subst hut
    rw [indexOf, Function.update_self, Function.update_self]
  · rw [indexOf, Function.update_of_ne hut, Function.update_of_ne hut, indexOf]

theorem criticalOf_update : criticalOf (Function.update threads t next) =
    Function.update (criticalOf threads) t (next.any fun th => th.stage.critical) := by
  funext u
  by_cases hut : u = t
  · subst hut
    rw [criticalOf, Function.update_self, Function.update_self]
  · rw [criticalOf, Function.update_of_ne hut, Function.update_of_ne hut, criticalOf]

/-- A thread goes on with its command. -/
theorem RosterInv.set {issued exposed : ℕ} (h : RosterInv (indexOf threads) issued exposed)
    (ht : threads t = some th) (hindex : th'.index = th.index) :
    RosterInv (indexOf (Function.update threads t (some th'))) issued exposed := by
  rw [indexOf_update, Option.map_some, hindex, ← indexOf_eq ht, Function.update_eq_self]
  exact h

/-- A thread stays in the critical section or outside of it. -/
theorem LockInv.set {tailLock : Bool} {g : Ghost} (h : LockInv (criticalOf threads) tailLock g)
    (ht : threads t = some th) (hcritical : th'.stage.critical = th.stage.critical) :
    LockInv (criticalOf (Function.update threads t (some th'))) tailLock g := by
  rw [criticalOf_update, Option.any_some, hcritical, ← criticalOf_eq ht, Function.update_eq_self]
  exact h

end

section
variable [DecidableEq τ] {index : τ → Option ℕ} {critical : τ → Bool} {issued exposed : ℕ} {tailLock : Bool}
  {g : Ghost} {t : τ}

/-- A thread comes in with the next command. -/
theorem RosterInv.add (h : RosterInv index issued exposed) (hlt : ∀ u i, index u = some i → i < issued)
    (ht : index t = none) : RosterInv (Function.update index t (some issued)) (issued + 1) exposed := by
  have hne : ∀ u i, index u = some i → u ≠ t := by
    rintro u i hu rfl
    rw [ht] at hu
    cases hu
  refine ⟨fun u v i hu hv => ?_, fun i hi hissued => ?_⟩
  · by_cases hut : u = t <;> by_cases hvt : v = t
    · rw [hut, hvt]
    · subst hut
      rw [Function.update_self] at hu
      rw [Function.update_of_ne hvt, ← Option.some.inj hu] at hv
      exact absurd (hlt v issued hv) (Nat.lt_irrefl _)
    · subst hvt
      rw [Function.update_self] at hv
      rw [Function.update_of_ne hut, ← Option.some.inj hv] at hu
      exact absurd (hlt u issued hu) (Nat.lt_irrefl _)
    · rw [Function.update_of_ne hut] at hu
      rw [Function.update_of_ne hvt] at hv
      exact h.distinct u v i hu hv
  · by_cases hlast : i = issued
    · exact ⟨t, by rw [Function.update_self, hlast]⟩
    · obtain ⟨u, hu⟩ := h.covered i hi (by omega)
      exact ⟨u, by rw [Function.update_of_ne (hne u i hu), hu]⟩

/-- A thread whose command was taken over leaves. -/
theorem RosterInv.remove (h : RosterInv index issued exposed) {n : ℕ} (ht : index t = some n)
    (hn : n < exposed) : RosterInv (Function.update index t none) issued exposed := by
  have hold : ∀ u i, Function.update index t none u = some i → index u = some i := by
    intro u i hu
    by_cases hut : u = t
    · subst hut
      rw [Function.update_self] at hu
      cases hu
    · rwa [Function.update_of_ne hut] at hu
  refine ⟨fun u v i hu hv => h.distinct u v i (hold u i hu) (hold v i hv), fun i hi hissued => ?_⟩
  obtain ⟨u, hu⟩ := h.covered i hi hissued
  have hut : u ≠ t := by
    rintro rfl
    have := Option.some.inj (ht.symm.trans hu)
    omega
  exact ⟨u, by rw [Function.update_of_ne hut, hu]⟩

/-- A thread takes the lock. -/
theorem LockInv.take (h : LockInv critical false g) : LockInv (Function.update critical t true) true g := by
  have honly : ∀ u, Function.update critical t true u = true → u = t := by
    intro u hu
    by_contra hut
    rw [Function.update_of_ne hut] at hu
    exact Bool.false_ne_true (h.locked u hu)
  refine ⟨fun u v hu hv => (honly u hu).trans (honly v hv).symm, fun _ _ => rfl, fun hnone => ?_⟩
  have := hnone t
  rw [Function.update_self] at this
  cases this

/-- A thread gives the lock back. -/
theorem LockInv.give (h : LockInv critical tailLock g) (ht : critical t = true)
    (hquiet : g.stored = g.exposed ∧ g.rung = g.exposed) :
    LockInv (Function.update critical t false) false g := by
  have hnone : ∀ u, Function.update critical t false u = false := by
    intro u
    by_cases hut : u = t
    · rw [hut, Function.update_self]
    · rw [Function.update_of_ne hut]
      by_contra hcritical
      exact hut (h.exclusive u t (by simpa using hcritical) ht)
  refine ⟨fun u v hu => ?_, fun u hu => ?_, fun _ => hquiet⟩
  · rw [hnone u] at hu
    cases hu
  · rw [hnone u] at hu
    cases hu

end

/-! ### The turn of a slot -/

/-- **A turn is told from the others** by the 32 bits of its counter, among as many tickets as there are. -/
theorem turn_unique {cur n e : ℕ} (hlog : 1 ≤ log) (hlog' : log ≤ 32) (he : e ≤ 1)
    (hmod : cur % 2 ^ log = n % 2 ^ log) (hle : cur ≤ n) (hlt : n < cur + 2 ^ 32)
    (hturn : (2 * (cur / 2 ^ log) + e) % 2 ^ 32 = getId (n % 2 ^ 32) log) : e = 0 ∧ cur = n := by
  have hpow : 2 ^ log * 2 ^ (32 - log) = 2 ^ 32 := by rw [← Nat.pow_add, Nat.add_sub_cancel' hlog']
  have hdvd : 2 * 2 ^ (32 - log) ∣ 2 ^ 32 := by
    rw [← Nat.pow_succ']
    exact Nat.pow_dvd_pow 2 (by omega)
  have hpos := Nat.two_pow_pos log
  have hR := Nat.two_pow_pos (32 - log)
  -- both sides modulo twice the number of turns
  have hid : getId (n % 2 ^ 32) log = 2 * (n / 2 ^ log % 2 ^ (32 - log)) := by
    rw [getId, ← hpow, Nat.mod_mul_right_div_self, Nat.mul_comm]
  have hright : 2 * (n / 2 ^ log % 2 ^ (32 - log)) < 2 * 2 ^ (32 - log) :=
    Nat.mul_lt_mul_of_pos_left (Nat.mod_lt _ hR) (by omega)
  have hleft : (2 * (cur / 2 ^ log) + e) % (2 * 2 ^ (32 - log)) = e + 2 * (cur / 2 ^ log % 2 ^ (32 - log)) := by
    rw [Nat.mod_mul, show (2 * (cur / 2 ^ log) + e) / 2 = cur / 2 ^ log by omega,
      show (2 * (cur / 2 ^ log) + e) % 2 = e by omega]
  have hboth : e + 2 * (cur / 2 ^ log % 2 ^ (32 - log)) = 2 * (n / 2 ^ log % 2 ^ (32 - log)) := by
    rw [← hleft, ← Nat.mod_mod_of_dvd _ hdvd, hturn, hid, Nat.mod_eq_of_lt hright]
  -- the turns differ by less than their number
  have hdiv : n / 2 ^ log < cur / 2 ^ log + 2 ^ (32 - log) := by
    rw [← Nat.add_mul_div_left _ _ hpos, hpow]
    refine Nat.lt_of_not_le fun hge => ?_
    have h₁ := Nat.div_add_mod n (2 ^ log)
    have h₂ := Nat.div_add_mod (cur + 2 ^ 32) (2 ^ log)
    have h₃ : (cur + 2 ^ 32) % 2 ^ log = n % 2 ^ log := by rw [← hpow, Nat.add_mul_mod_self_left, hmod]
    have h₄ := Nat.mul_le_mul_left (2 ^ log) hge
    omega
  refine ⟨by omega, ?_⟩
  have hsame : cur / 2 ^ log = n / 2 ^ log := by
    refine le_antisymm (Nat.div_le_div_right hle) (Nat.le_of_not_lt fun hne => ?_)
    have hmodEq : cur / 2 ^ log ≡ n / 2 ^ log [MOD 2 ^ (32 - log)] := show _ % _ = _ % _ by omega
    have := hmodEq.add_le_of_lt hne
    omega
  rw [← Nat.div_add_mod cur (2 ^ log), hsame, hmod, Nat.div_add_mod]

/-- The counter of a slot does not come round where the ring has four entries or more: the last ticket with a
turn is the one before `2 ^ 32`. -/
theorem turn_early {cur : ℕ} (hlog : 2 ≤ log) (hlog' : log ≤ 32) (hcur : cur < 2 ^ 32 + 2 ^ log)
    (hturn : 2 * (cur / 2 ^ log) % 2 ^ 32 = getId (cur % 2 ^ 32) log) : cur < 2 ^ 32 := by
  have hpow : 2 ^ log * 2 ^ (32 - log) = 2 ^ 32 := by rw [← Nat.pow_add, Nat.add_sub_cancel' hlog']
  have hR := Nat.two_pow_pos (32 - log)
  have hR' : 2 ^ (32 - log) ≤ 2 ^ 30 := Nat.pow_le_pow_right (by omega) (by omega)
  have hid : getId (cur % 2 ^ 32) log = 2 * (cur / 2 ^ log % 2 ^ (32 - log)) := by
    rw [getId, ← hpow, Nat.mod_mul_right_div_self, Nat.mul_comm]
  have hc : cur / 2 ^ log < 2 ^ (32 - log) + 1 := by
    rw [Nat.div_lt_iff_lt_mul (Nat.two_pow_pos log), Nat.add_mul, Nat.one_mul, Nat.mul_comm, hpow]
    exact hcur
  rw [Nat.mod_eq_of_lt (by omega), hid] at hturn
  have hlt : cur / 2 ^ log < 2 ^ (32 - log) := by
    have := Nat.mod_lt (cur / 2 ^ log) hR
    omega
  rw [Nat.div_lt_iff_lt_mul (Nat.two_pow_pos log), Nat.mul_comm, hpow] at hlt
  exact hlt

/-- There are no more commands that wait to be taken over than there are threads. -/
theorem RosterInv.issued_le [Fintype τ] {index : τ → Option ℕ} {issued exposed : ℕ}
    (h : RosterInv index issued exposed) : issued ≤ exposed + Fintype.card τ := by
  classical
  have hsub : Finset.Ico exposed issued ⊆ Finset.univ.image fun t => (index t).getD 0 := by
    intro i hi
    rw [Finset.mem_Ico] at hi
    obtain ⟨t, ht⟩ := h.covered i hi.1 hi.2
    exact Finset.mem_image.2 ⟨t, Finset.mem_univ t, by rw [ht, Option.getD_some]⟩
  have hcard := (Finset.card_le_card hsub).trans Finset.card_image_le
  rw [Nat.card_Ico, Finset.card_univ] at hcard
  omega

/-- A queue of a size that `nvm_queue_clear` takes, and no more threads than tickets tell apart. -/
structure Fits (log : ℕ) (τ : Type) [Fintype τ] : Prop where
  one_le : 1 ≤ log
  le_sixteen : log ≤ 16
  card_le : Fintype.card τ + 2 ^ log ≤ 2 ^ 32

/-- **A thread goes on at its turn only.** -/
theorem Inv.passes [Fintype τ] {s : State τ η} {g : Ghost} {t : τ} {th : Thread η} (h : Inv log s g)
    (hfits : Fits log τ) (ht : s.threads t = some th) (hstage : th.stage.unmarked = true)
    (hturn : s.sq.tickets (th.pos log) = getId th.ticket log) :
    (g.cur (th.index % 2 ^ log) = th.index ∧ g.left (th.index % 2 ^ log) = false) ∧
      (2 ≤ log → th.index < 2 ^ 32) := by
  have hlog := hfits.one_le
  have hlog' : log ≤ 32 := hfits.le_sixteen.trans (by omega)
  have hth := h.thread t th ht
  have hslot := h.queue.slotOf th.index
  obtain ⟨hexposed, hcur_le, -⟩ := hth.unmarked hstage
  have hlt : th.index < g.cur (th.index % 2 ^ log) + 2 ^ 32 := by
    have h₁ := hth.index_lt
    have h₂ := h.roster.issued_le
    have h₃ := hslot.exposed_le
    have h₄ := hfits.card_le
    omega
  -- the thread of a command and its completion do not both wait for the other
  have hone : (g.left (th.index % 2 ^ log)).toNat +
      (decide (g.cur (th.index % 2 ^ log) < g.freed)).toNat ≤ 1 := by
    by_cases hleft : g.left (th.index % 2 ^ log) = true
    · rw [hleft, decide_eq_false (Nat.not_lt_of_le (hslot.left hleft).1)]
      decide
    · rw [Bool.not_eq_true] at hleft
      rw [hleft, Bool.toNat_false, Nat.zero_add]
      exact Bool.toNat_le _
  rw [hth.pos_eq hlog', hslot.turn, hth.ticket, Nat.add_assoc] at hturn
  obtain ⟨he, hcur⟩ := turn_unique hlog hlog' hone hslot.mod hcur_le hlt hturn
  have hleft : g.left (th.index % 2 ^ log) = false := by
    rw [Nat.add_eq_zero_iff, Bool.toNat_eq_zero] at he
    exact he.1
  refine ⟨⟨hcur, hleft⟩, fun htwo => ?_⟩
  rw [he, Nat.add_zero, hcur] at hturn
  have hcur_lt := hslot.cur_lt
  have hearly := h.queue.early htwo
  have hfreed := h.queue.freed_le
  have hfetched := h.queue.fetched_le
  have hrung := h.queue.rung_le
  exact turn_early htwo hlog' (by omega) hturn

/-! ### One lemma for each kind of access -/

section
variable {s : State τ η} {g g' : Ghost} {t : τ} {th : Thread η}

/-- Two threads whose turn it is at one slot are the same. -/
theorem Inv.eq_of_passed (h : Inv log s g) {u : τ} {uh : Thread η} (ht : s.threads t = some th)
    (hu : s.threads u = some uh) (hcur : g.cur (th.index % 2 ^ log) = th.index)
    (hpassed : uh.stage.passed = true) (hslot : uh.index % 2 ^ log = th.index % 2 ^ log) : u = t := by
  have hcur' := ((h.thread u uh hu).passed hpassed).1
  rw [hslot, hcur] at hcur'
  exact h.roster.distinct u t th.index (by rw [indexOf_eq hu, hcur']) (indexOf_eq ht)

/-- A thread that is not in the critical section, while another one is, does not look at the counters of that
one. -/
theorem Inv.inside_other (h : Inv log s g) {u : τ} {uh : Thread η} (ht : s.threads t = some th)
    (hcritical : th.stage.critical = true) (hu : s.threads u = some uh) (hut : u ≠ t) {room : Prop} :
    SectionInv g' uh.curTail uh.count room uh.stage := by
  have huc : uh.stage.critical = false := by
    by_contra huc
    exact hut (h.lock.exclusive u t (by rw [criticalOf_eq hu]; simpa using huc)
      (by rw [criticalOf_eq ht, hcritical]))
  cases hs : uh.stage <;> rw [hs] at huc <;> first | exact trivial | cases huc

end

section
variable [DecidableEq τ] {s : State τ η} {g g' : Ghost} {t : τ} {th th' : Thread η}

/-- A thread goes on without a change of the queue. -/
theorem Inv.advance (h : Inv log s g) (ht : s.threads t = some th) (hindex : th'.index = th.index)
    (hcritical : th'.stage.critical = th.stage.critical) (hth' : ThreadInv log s.sq s.issued g th') :
    Inv log { s with threads := Function.update s.threads t (some th') } g where
  queue := { h.queue with }
  thread u uh hu := by
    rcases update_eq_some hu with ⟨-, huh⟩ | ⟨-, hu⟩
    · exact Option.some.inj huh ▸ hth'
    · exact h.thread u uh hu
  roster := h.roster.set ht hindex
  lock := h.lock.set ht hcritical

/-- A thread writes to the entry of its slot, at its turn. -/
theorem Inv.write (h : Inv log s g) {entry : η × η} (ht : s.threads t = some th)
    (hindex : th'.index = th.index) (hunmarked : th.stage.unmarked = true) (hpassed : th.stage.passed = true)
    (hcritical : th'.stage.critical = th.stage.critical)
    (hth' : ThreadInv log { s.sq with vaddr := Function.update s.sq.vaddr (th.index % 2 ^ log) entry }
      s.issued g th') :
    Inv log { s with
      sq := { s.sq with vaddr := Function.update s.sq.vaddr (th.index % 2 ^ log) entry }
      threads := Function.update s.threads t (some th') } g := by
  have hth := h.thread t th ht
  obtain ⟨hexposed, -, hmark⟩ := hth.unmarked hunmarked
  have hcur := (hth.passed hpassed).1
  have hentry : ∀ i, s.fetched.length ≤ i → i < g.exposed →
      Function.update s.sq.vaddr (th.index % 2 ^ log) entry (i % 2 ^ log) = s.sq.vaddr (i % 2 ^ log) :=
    fun i hi hlt => Function.update_of_ne (h.queue.slot_ne hcur hexposed hi hlt) _ _
  refine ⟨{ h.queue with slot := ?_, entries := ?_, fetching := ?_ }, ?_, ?_, ?_⟩
  · intro p hp
    have hslot := h.queue.slot p hp
    refine { hslot with mark := fun hmarked => ?_ }
    have hne : p ≠ th.index % 2 ^ log := by
      rintro rfl
      rw [hmark hcur] at hmarked
      cases hmarked
    obtain ⟨h₁, h₂⟩ := hslot.mark hmarked
    exact ⟨h₁, h₂.trans (congrArg some (Function.update_of_ne hne _ _).symm)⟩
  · intro i hi hlt
    exact (h.queue.entries i hi hlt).trans (congrArg some (hentry i hi hlt).symm)
  · intro x hx
    obtain ⟨hrung, hx'⟩ := h.queue.fetching x hx
    have hle := h.queue.rung_le
    refine ⟨hrung, ?_⟩
    change x = (Function.update s.sq.vaddr (th.index % 2 ^ log) entry (s.fetched.length % 2 ^ log)).1
    rw [hentry _ le_rfl (by omega)]
    exact hx'
  · intro u uh hu
    rcases update_eq_some hu with ⟨-, huh⟩ | ⟨hut, hu⟩
    · exact Option.some.inj huh ▸ hth'
    · have huInv := h.thread u uh hu
      have hne : uh.stage.passed = true → uh.index % 2 ^ log ≠ th.index % 2 ^ log :=
        fun hp hslot => hut (h.eq_of_passed ht hu hcur hp hslot)
      refine { huInv with halfway := fun hst => ?_, copied := fun hst => ?_ }
      · change (Function.update s.sq.vaddr _ entry _).1 = _
        rw [Function.update_of_ne (hne (by rw [hst]; rfl))]
        exact huInv.halfway hst
      · change Function.update s.sq.vaddr _ entry _ = _
        rw [Function.update_of_ne (hne (by rw [hst]; rfl))]
        exact huInv.copied hst
  · exact h.roster.set ht hindex
  · exact h.lock.set ht hcritical

/-- A thread marks its slot. -/
theorem Inv.mark (h : Inv log s g) (ht : s.threads t = some th) (hstage : th.stage = .marking) :
    Inv log { s with
      sq := { s.sq with tailMark := Function.update s.sq.tailMark (th.index % 2 ^ log) true }
      threads := Function.update s.threads t (some { th with stage := .checking }) } g := by
  have hth := h.thread t th ht
  have hpassed : th.stage.passed = true := by rw [hstage]; rfl
  obtain ⟨hexposed, -, -⟩ := hth.unmarked (by rw [hstage]; rfl)
  obtain ⟨hcur, hleft⟩ := hth.passed hpassed
  refine ⟨{ h.queue with slot := ?_ }, ?_, ?_, ?_⟩
  · intro p hp
    have hslot := h.queue.slot p hp
    refine { hslot with mark := fun hmarked => ?_ }
    by_cases hpt : p = th.index % 2 ^ log
    · subst hpt
      rw [hcur, hth.copied hstage]
      exact ⟨hexposed, hth.cmd⟩
    · exact hslot.mark ((Function.update_of_ne hpt _ _).symm.trans hmarked)
  · intro u uh hu
    rcases update_eq_some hu with ⟨-, huh⟩ | ⟨hut, hu⟩
    · cases huh
      exact {
        ticket := hth.ticket
        cmd := hth.cmd
        unmarked := nofun
        passed := fun _ => ⟨hcur, hleft⟩
        early := fun _ => hth.early hpassed
        halfway := nofun
        copied := nofun
        marked := fun _ => iff_of_true (Function.update_self _ _ _) hexposed
        leaving := nofun
        inside := trivial }
    · have huInv := h.thread u uh hu
      have hmark : ∀ hcur' : g.cur (uh.index % 2 ^ log) = uh.index,
          Function.update s.sq.tailMark (th.index % 2 ^ log) true (uh.index % 2 ^ log) =
            s.sq.tailMark (uh.index % 2 ^ log) := by
        intro hcur'
        refine Function.update_of_ne (fun hslot => hut ?_) _ _
        rw [hslot, hcur] at hcur'
        exact h.roster.distinct u t th.index (by rw [indexOf_eq hu, hcur']) (indexOf_eq ht)
      refine { huInv with unmarked := fun hst => ?_, marked := fun hst => ?_ }
      · obtain ⟨h₁, h₂, h₃⟩ := huInv.unmarked hst
        exact ⟨h₁, h₂, fun hcur' => (hmark hcur').trans (h₃ hcur')⟩
      · change Function.update s.sq.tailMark _ true _ = true ↔ _
        rw [hmark (huInv.passed (Stage.passed_of_marked hst)).1]
        exact huInv.marked hst
  · exact h.roster.set ht rfl
  · exact h.lock.set ht (by rw [hstage]; rfl)

end

section
variable {s : State τ η} {g : Ghost} {t : τ} {th : Thread η}

/-- The command after those that were taken over was issued, where its slot is marked. -/
theorem QueueInv.issued_exposed (h : QueueInv log s g) (hmark : s.sq.tailMark (g.exposed % 2 ^ log) = true) :
    s.issued[g.exposed]? = some (s.sq.vaddr (g.exposed % 2 ^ log)) := by
  have hissued := ((h.slotOf g.exposed).mark hmark).2
  rwa [h.cur_exposed hmark] at hissued

/-- Its thread is the one that has marked the slot: the commands of those that have not are later. -/
theorem Inv.exposed_lt (h : Inv log s g) (hmark : s.sq.tailMark (g.exposed % 2 ^ log) = true)
    (ht : s.threads t = some th) (hunmarked : th.stage.unmarked = true) : g.exposed + 1 ≤ th.index := by
  obtain ⟨hle, -, hfree⟩ := (h.thread t th ht).unmarked hunmarked
  refine Nat.lt_of_le_of_ne hle fun heq => ?_
  rw [← heq, hmark] at hfree
  cases hfree (h.queue.cur_exposed hmark)

/-- Its ticket is early if the ring has four entries or more. -/
theorem Inv.exposed_early (h : Inv log s g) (hmark : s.sq.tailMark (g.exposed % 2 ^ log) = true) (htwo : 2 ≤ log) :
    g.exposed + 1 ≤ 2 ^ 32 := by
  have hissued := (List.getElem?_eq_some_iff.1 (h.queue.issued_exposed hmark)).1
  obtain ⟨t, hindex⟩ := h.roster.covered g.exposed le_rfl hissued
  obtain ⟨th, ht, heq⟩ := Option.map_eq_some_iff.1 hindex
  have hmarked : th.stage.unmarked = false := by
    by_contra hcon
    have hlt := h.exposed_lt hmark ht (by simpa using hcon)
    omega
  have hlt := (h.thread t th ht).early (Stage.passed_of_marked hmarked) htwo
  omega

/-- The marks after one more command was taken over. -/
def Queue.unmark (sq : Queue η) (p : ℕ) : Queue η := { sq with tailMark := Function.update sq.tailMark p false }

section
variable {sq : Queue η} {issued : List (η × η)} {p : ℕ}

theorem Queue.tailMark_unmark_of_ne (sq : Queue η) {p' : ℕ} (hne : p' ≠ p) :
    (sq.unmark p).tailMark p' = sq.tailMark p' := Function.update_of_ne hne _ _

theorem Queue.tailMark_unmark (sq : Queue η) (p : ℕ) : (sq.unmark p).tailMark p = false := Function.update_self _ _ _

/-- A slot, when one more command is taken over. -/
theorem SlotInv.expose (h : SlotInv log sq issued g p) (hcur : g.cur (g.exposed % 2 ^ log) = g.exposed) :
    SlotInv log (sq.unmark (g.exposed % 2 ^ log)) issued { g with exposed := g.exposed + 1 } p := by
  by_cases hsame : p = g.exposed % 2 ^ log
  · subst hsame
    refine { h with exposed_le := ?_, left := fun hleft => ?_, mark := fun hmarked => ?_ }
    · change g.exposed + 1 ≤ g.cur (g.exposed % 2 ^ log) + 2 ^ log
      rw [hcur]
      exact Nat.add_le_add_left (Nat.two_pow_pos log) _
    · exact ⟨(h.left hleft).1, Nat.lt_succ_of_lt (h.left hleft).2⟩
    · rw [Queue.tailMark_unmark] at hmarked
      cases hmarked
  · have hne : g.exposed ≠ g.cur p := fun heq => hsame (by rw [heq, h.mod])
    refine { h with exposed_le := ?_, left := fun hleft => ?_, mark := fun hmarked => ?_ }
    · change g.exposed + 1 ≤ g.cur p + 2 ^ log
      refine Nat.lt_of_le_of_ne h.exposed_le fun heq => hsame ?_
      rw [heq, Nat.add_mod_right, h.mod]
    · exact ⟨(h.left hleft).1, Nat.lt_succ_of_lt (h.left hleft).2⟩
    · rw [Queue.tailMark_unmark_of_ne sq hsame] at hmarked
      exact ⟨Nat.lt_of_le_of_ne (h.mark hmarked).1 hne, (h.mark hmarked).2⟩

/-- A thread, when one more command is taken over: it has marked its slot, or its command is a later one. -/
theorem ThreadInv.expose (h : ThreadInv log sq issued g th) (hcur : g.cur (g.exposed % 2 ^ log) = g.exposed)
    (hlt : th.stage.unmarked = true → g.exposed + 1 ≤ th.index) {count : ℕ}
    (hinside : SectionInv { g with exposed := g.exposed + 1 } th.curTail count
      (g.exposed + 1 + 1 < g.headed + 2 ^ log) th.stage) :
    ThreadInv log (sq.unmark (g.exposed % 2 ^ log)) issued { g with exposed := g.exposed + 1 }
      { th with count := count } := by
  refine { h with
    unmarked := fun hst => ⟨hlt hst, (h.unmarked hst).2.1, fun hturn => ?_⟩
    marked := fun hst => ?_
    leaving := fun hst => Nat.lt_succ_of_lt (h.leaving hst)
    inside := hinside }
  · by_cases hsame : th.index % 2 ^ log = g.exposed % 2 ^ log
    · rw [hsame, Queue.tailMark_unmark]
    · rw [Queue.tailMark_unmark_of_ne sq hsame]
      exact (h.unmarked hst).2.2 hturn
  · change _ ↔ g.exposed + 1 ≤ th.index
    by_cases hsame : th.index % 2 ^ log = g.exposed % 2 ^ log
    · have hindex := (h.passed (Stage.passed_of_marked hst)).1
      rw [hsame, hcur] at hindex
      rw [hsame, Queue.tailMark_unmark]
      exact iff_of_false Bool.false_ne_true (by omega)
    · have hne : th.index ≠ g.exposed := fun heq => hsame (congrArg (· % 2 ^ log) heq)
      rw [Queue.tailMark_unmark_of_ne sq hsame, h.marked hst]
      omega

end

end

section
variable [DecidableEq τ] {s : State τ η} {g g' : Ghost} {t : τ} {th th' : Thread η}

/-- A thread takes `tail_lock`, which was free. -/
theorem Inv.lockTail (h : Inv log s g) (ht : s.threads t = some th) (hstage : th.stage = .grabbing)
    (hfree : s.sq.tailLock = false) :
    Inv log { s with
      sq := { s.sq with tailLock := true }
      threads := Function.update s.threads t (some { th with stage := .loading }) } g := by
  have hunmarked : th.stage.unmarked = false := by rw [hstage]; rfl
  have hlock := h.lock
  rw [hfree] at hlock
  refine ⟨{ h.queue with slot := fun p hp => { h.queue.slot p hp with } }, ?_, ?_, ?_⟩
  · intro u uh hu
    rcases update_eq_some hu with ⟨-, huh⟩ | ⟨-, hu⟩
    · cases huh
      exact { (h.thread t th ht).goto hunmarked .loading rfl (by rintro ⟨⟩) hlock.quiet_of_free with }
    · exact { h.thread u uh hu with }
  · exact h.roster.set ht rfl
  · rw [criticalOf_update]
    exact hlock.take

/-- A thread gives `tail_lock` back. -/
theorem Inv.unlockTail (h : Inv log s g) (ht : s.threads t = some th) (hstage : th.stage = .unlocking) :
    Inv log { s with
      sq := { s.sq with tailLock := false }
      threads := Function.update s.threads t (some { th with stage := .checking }) } g := by
  have hunmarked : th.stage.unmarked = false := by rw [hstage]; rfl
  have hinside := (h.thread t th ht).inside
  rw [hstage] at hinside
  refine ⟨{ h.queue with slot := fun p hp => { h.queue.slot p hp with } }, ?_, ?_, ?_⟩
  · intro u uh hu
    rcases update_eq_some hu with ⟨-, huh⟩ | ⟨-, hu⟩
    · cases huh
      exact { (h.thread t th ht).goto hunmarked .checking rfl (by rintro ⟨⟩) trivial with }
    · exact { h.thread u uh hu with }
  · exact h.roster.set ht rfl
  · rw [criticalOf_update]
    exact h.lock.give (by rw [criticalOf_eq ht, hstage]; rfl) hinside

/-- The slot after those that were taken over is marked, and there is room behind it: it is taken over as
well. -/
theorem Inv.expose (h : Inv log s g) (ht : s.threads t = some th) (hstage : th.stage = .exchanging)
    (hmark : s.sq.tailMark (g.exposed % 2 ^ log) = true) :
    Inv log { s with
      sq := s.sq.unmark (g.exposed % 2 ^ log)
      threads := Function.update s.threads t (some { th with stage := .scanning, count := th.count + 1 }) }
      { g with exposed := g.exposed + 1 } := by
  have hth := h.thread t th ht
  have hcritical : th.stage.critical = true := by rw [hstage]; rfl
  have hunmarked : th.stage.unmarked = false := by rw [hstage]; rfl
  have hcur := h.queue.cur_exposed hmark
  have hissued := h.queue.issued_exposed hmark
  obtain ⟨htail, hexposed, hrung, hroom⟩ : _ ∧ _ ∧ _ ∧ _ := by
    have hinside := hth.inside
    rwa [hstage] at hinside
  refine ⟨{ h.queue with
    rung_le := h.queue.rung_le.trans (Nat.le_succ _)
    exposed_le := (List.getElem?_eq_some_iff.1 hissued).1
    room := hroom
    slot := fun p hp => (h.queue.slot p hp).expose hcur
    entries := fun i hi hlt => ?_
    early := h.exposed_early hmark }, ?_, ?_, ?_⟩
  · rcases Nat.lt_succ_iff_lt_or_eq.1 hlt with hlt | rfl
    · exact h.queue.entries i hi hlt
    · exact hissued
  · intro u uh hu
    rcases update_eq_some hu with ⟨-, huh⟩ | ⟨hut, hu⟩
    · cases huh
      -- it counts the command in, and looks for the next one
      have hscanning : ThreadInv log s.sq s.issued g { th with stage := .scanning } :=
        hth.goto hunmarked .scanning rfl (by rintro ⟨⟩) ⟨htail, hexposed, hrung⟩
      exact hscanning.expose hcur (by rintro ⟨⟩)
        ⟨htail, (congrArg (· + 1) hexposed).trans (Nat.add_assoc _ _ _), hrung⟩
    · exact (h.thread u uh hu).expose hcur (h.exposed_lt hmark hu) (h.inside_other ht hcritical hu hut)
  · exact (h.roster.mono (Nat.le_succ _)).set ht rfl
  · exact (h.lock.work (by rw [criticalOf_eq ht, hcritical])).set ht (by rw [hstage]; rfl)

end

section
variable [DecidableEq τ] {s : State τ η} {g : Ghost} {t : τ} {th : Thread η}

theorem Thread.newTail_eq {stored : ℕ} (htail : th.curTail = stored % 2 ^ 32) :
    th.newTail = (stored + th.count) % 2 ^ 32 := by
  rw [Thread.newTail, htail, Nat.mod_add_mod]

/-- The doorbell is rung. -/
theorem Inv.ring (h : Inv log s g) (hlog : log ≤ 32) (ht : s.threads t = some th)
    (hstage : th.stage = .ringing) :
    Inv log { s with
      sq := { s.sq with db := th.newTail % 2 ^ log }
      threads := Function.update s.threads t (some { th with stage := .storing }) }
      { g with rung := g.exposed } := by
  have hth := h.thread t th ht
  have hunmarked : th.stage.unmarked = false := by rw [hstage]; rfl
  have hcritical : th.stage.critical = true := by rw [hstage]; rfl
  obtain ⟨htail, hexposed, hrung⟩ : _ ∧ _ ∧ _ := by
    have := hth.inside
    rwa [hstage] at this
  have hrung_le := h.queue.rung_le
  refine ⟨{ h.queue with
    fetched_le := h.queue.fetched_le.trans hrung_le
    rung_le := le_rfl
    db := ?_
    slot := fun p hp => { h.queue.slot p hp with }
    fetching := fun x hx => ?_ }, ?_, ?_, ?_⟩
  · change th.newTail % 2 ^ log = g.exposed % 2 ^ log
    rw [Thread.newTail_eq htail, ← hexposed, Nat.mod_mod_of_dvd _ (Nat.pow_dvd_pow 2 hlog)]
  · obtain ⟨h₁, h₂⟩ := h.queue.fetching x hx
    exact ⟨h₁.trans_le hrung_le, h₂⟩
  · intro u uh hu
    rcases update_eq_some hu with ⟨-, huh⟩ | ⟨hut, hu⟩
    · cases huh
      have hstoring : ThreadInv log s.sq s.issued { g with rung := g.exposed } { th with stage := .storing } :=
        hth.goto hunmarked .storing rfl (by rintro ⟨⟩) ⟨htail, hexposed, rfl⟩
      exact { hstoring with }
    · exact { h.thread u uh hu with inside := h.inside_other ht hcritical hu hut }
  · exact h.roster.set ht rfl
  · exact (h.lock.work (by rw [criticalOf_eq ht, hcritical])).set ht (by rw [hstage]; rfl)

/-- The tail is stored. -/
theorem Inv.storeTail (h : Inv log s g) (ht : s.threads t = some th) (hstage : th.stage = .storing) :
    Inv log { s with
      sq := { s.sq with tail := th.newTail }
      threads := Function.update s.threads t (some { th with stage := .unlocking }) }
      { g with stored := g.exposed } := by
  have hth := h.thread t th ht
  have hunmarked : th.stage.unmarked = false := by rw [hstage]; rfl
  have hcritical : th.stage.critical = true := by rw [hstage]; rfl
  obtain ⟨htail, hexposed, hrung⟩ : _ ∧ _ ∧ _ := by
    have := hth.inside
    rwa [hstage] at this
  refine ⟨{ h.queue with tail := ?_, slot := fun p hp => { h.queue.slot p hp with } }, ?_, ?_, ?_⟩
  · change th.newTail = g.exposed % 2 ^ 32
    rw [Thread.newTail_eq htail, ← hexposed]
  · intro u uh hu
    rcases update_eq_some hu with ⟨-, huh⟩ | ⟨hut, hu⟩
    · cases huh
      have hunlocking : ThreadInv log s.sq s.issued { g with stored := g.exposed } { th with stage := .unlocking } :=
        hth.goto hunmarked .unlocking rfl (by rintro ⟨⟩) ⟨rfl, hrung⟩
      exact { hunlocking with }
    · exact { h.thread u uh hu with inside := h.inside_other ht hcritical hu hut }
  · exact h.roster.set ht rfl
  · exact (h.lock.work (by rw [criticalOf_eq ht, hcritical])).set ht (by rw [hstage]; rfl)

end

/-! ### The turn of a slot is counted -/

/-- One of the two that a slot waits for has come to it: the first is noted, and with the second the turn goes
to the next command. -/
def Ghost.count (log : ℕ) (g : Ghost) (p freed : ℕ) (left : Bool) : Ghost :=
  { g with
    freed := freed
    cur := Function.update g.cur p (if left && decide (g.cur p < freed) then g.cur p + 2 ^ log else g.cur p)
    left := Function.update g.left p (left && !decide (g.cur p < freed)) }

section
variable {sq : Queue η} {issued : List (η × η)} {g : Ghost} {p freed : ℕ} {left : Bool} {th : Thread η}

theorem Ghost.count_cur : (g.count log p freed left).cur p =
    if left && decide (g.cur p < freed) then g.cur p + 2 ^ log else g.cur p := Function.update_self _ _ _

theorem Ghost.count_left : (g.count log p freed left).left p = (left && !decide (g.cur p < freed)) :=
  Function.update_self _ _ _

theorem Ghost.count_cur_of_ne (log : ℕ) (g : Ghost) (freed : ℕ) (left : Bool) {p' : ℕ} (h : p' ≠ p) : (g.count log p freed left).cur p' = g.cur p' :=
  Function.update_of_ne h _ _

theorem Ghost.count_left_of_ne (log : ℕ) (g : Ghost) (freed : ℕ) (left : Bool) {p' : ℕ} (h : p' ≠ p) : (g.count log p freed left).left p' = g.left p' :=
  Function.update_of_ne h _ _

/-- The queue with the turn of a slot counted. -/
def Queue.count (sq : Queue η) (p : ℕ) : Queue η :=
  { sq with tickets := Function.update sq.tickets p ((sq.tickets p + 1) % 2 ^ 32) }

/-- The slot whose turn is counted. -/
theorem SlotInv.count (h : SlotInv log sq issued g p) (hmark : sq.tailMark p = false)
    (hle : g.freed ≤ freed) (hfreed : freed ≤ g.exposed) (hcur : g.cur p < g.exposed)
    (hcount : left.toNat + (decide (g.cur p < freed)).toNat =
      (g.left p).toNat + (decide (g.cur p < g.freed)).toNat + 1) :
    SlotInv log (sq.count p) issued (g.count log p freed left) p := by
  have hexposed := h.exposed_le
  have hcur_lt := h.cur_lt
  have hturn : (sq.count p).tickets p = (2 * (g.cur p / 2 ^ log) + left.toNat +
      (decide (g.cur p < freed)).toNat) % 2 ^ 32 := by
    refine (Function.update_self _ _ _).trans ?_
    rw [h.turn, Nat.mod_add_mod, Nat.add_assoc _ left.toNat, hcount, Nat.add_assoc, Nat.add_assoc,
      Nat.add_assoc]
  by_cases hboth : (left && decide (g.cur p < freed)) = true
  · -- the turn goes to the next command
    have hnext : (g.count log p freed left).cur p = g.cur p + 2 ^ log := by rw [Ghost.count_cur, if_pos hboth]
    obtain ⟨hl, hf⟩ := Bool.and_eq_true_iff.1 hboth
    have hlt := of_decide_eq_true hf
    have hleft : (g.count log p freed left).left p = false := by rw [Ghost.count_left, hl, hf]; rfl
    have hnot : ¬ g.cur p + 2 ^ log < freed := by omega
    refine ⟨?_, ?_, ?_, ?_, ?_, fun hm => absurd (hmark.symm.trans hm) Bool.false_ne_true⟩
    · rw [hnext, Nat.add_mod_right, h.mod]
    · rw [hnext]
      exact Nat.add_lt_add_right hlt _
    · rw [hnext]
      exact hexposed.trans (Nat.le_add_right _ _)
    · rw [hleft]
      nofun
    · rw [hturn, hnext, hleft, hl, decide_eq_true hlt, Nat.add_div_right _ (Nat.two_pow_pos log)]
      change _ = (_ + (decide (g.cur p + 2 ^ log < freed)).toNat) % 2 ^ 32
      rw [decide_eq_false hnot]
      rfl
  · -- the other one is still to come
    have hsame : (g.count log p freed left).cur p = g.cur p := by rw [Ghost.count_cur, if_neg hboth]
    rw [Bool.not_eq_true] at hboth
    refine ⟨?_, ?_, ?_, ?_, ?_, fun hm => absurd (hmark.symm.trans hm) Bool.false_ne_true⟩
    · rw [hsame, h.mod]
    · rw [hsame]
      exact hcur_lt.trans_le (Nat.add_le_add_right hle _)
    · rw [hsame]
      exact hexposed
    · intro hl
      rw [Ghost.count_left, Bool.and_eq_true_iff] at hl
      rw [hsame]
      exact ⟨Nat.le_of_not_lt (show ¬ g.cur p < freed by simpa using hl.2), hcur⟩
    · rw [hturn, hsame, Ghost.count_left]
      change _ = (_ + (decide (g.cur p < freed)).toNat) % 2 ^ 32
      cases left <;> cases hd : decide (g.cur p < freed) <;> rw [hd] at hboth <;> first | rfl | cases hboth

/-- The other slots. -/
theorem SlotInv.count_of_ne {p' : ℕ} (h : SlotInv log sq issued g p') (hne : p' ≠ p)
    (hle : g.freed ≤ freed) (hfreed : freed ≤ g.freed + 1) (hother : freed ≠ g.freed → g.freed % 2 ^ log = p) :
    SlotInv log (sq.count p) issued (g.count log p freed left) p' := by
  have hlt : g.cur p' < freed ↔ g.cur p' < g.freed := by
    by_cases hsame : freed = g.freed
    · rw [hsame]
    · have : g.cur p' ≠ g.freed := by
        intro heq
        rw [← h.mod, heq, hother hsame] at hne
        exact hne rfl
      omega
  have hcur := Ghost.count_cur_of_ne log g freed left hne
  have hleft := Ghost.count_left_of_ne log g freed left hne
  refine ⟨?_, ?_, ?_, ?_, ?_, ?_⟩
  · rw [hcur, h.mod]
  · rw [hcur]
    exact h.cur_lt.trans_le (Nat.add_le_add_right hle _)
  · rw [hcur]
    exact h.exposed_le
  · rw [hcur, hleft]
    intro hl
    obtain ⟨h₁, h₂⟩ := h.left hl
    exact ⟨Nat.le_of_not_lt fun hcon => absurd (hlt.1 hcon) (Nat.not_lt_of_le h₁), h₂⟩
  · rw [hcur, hleft]
    change Function.update sq.tickets p _ p' = (_ + (decide (g.cur p' < freed)).toNat) % 2 ^ 32
    rw [Function.update_of_ne hne, h.turn, decide_eq_decide.2 hlt]
  · rw [hcur]
    exact h.mark

/-- A thread at this slot has its turn while its leaving is still to come. -/
theorem ThreadInv.count (h : ThreadInv log sq issued g th) (hslot : SlotInv log sq issued g p)
    (hmark : sq.tailMark p = false) (hcur : g.cur p < g.exposed)
    (hpassed : th.stage.passed = true → th.index % 2 ^ log = p → left = false) :
    ThreadInv log (sq.count p) issued (g.count log p freed left) th := by
  refine { h with unmarked := fun hst => ?_, passed := fun hst => ?_ }
  · obtain ⟨h₁, h₂, h₃⟩ := h.unmarked hst
    by_cases hsame : th.index % 2 ^ log = p
    · refine ⟨h₁, ?_, fun _ => hsame ▸ hmark⟩
      have hnext := hslot.next_le hsame (hcur.trans_le h₁)
      rw [hsame, Ghost.count_cur]
      split
      · exact hnext
      · exact (Nat.le_add_right _ _).trans hnext
    · rw [Ghost.count_cur_of_ne _ _ _ _ hsame]
      exact ⟨h₁, h₂, h₃⟩
  · obtain ⟨h₁, h₂⟩ := h.passed hst
    by_cases hsame : th.index % 2 ^ log = p
    · rw [hsame, Ghost.count_cur, Ghost.count_left, hpassed hst hsame]
      exact ⟨by rw [← hsame]; exact h₁, rfl⟩
    · rw [Ghost.count_cur_of_ne _ _ _ _ hsame, Ghost.count_left_of_ne _ _ _ _ hsame]
      exact ⟨h₁, h₂⟩

end

section
variable [DecidableEq τ] {s : State τ η} {g : Ghost} {t : τ} {th : Thread η}

/-- A thread counts the turn of its slot and returns. -/
theorem Inv.leave (h : Inv log s g) (ht : s.threads t = some th) (hstage : th.stage = .leaving) :
    Inv log { s with sq := s.sq.count (th.index % 2 ^ log), threads := Function.update s.threads t none }
      (g.count log (th.index % 2 ^ log) g.freed true) := by
  have hth := h.thread t th ht
  obtain ⟨hcur, hleft⟩ := hth.passed (by rw [hstage]; rfl)
  have hlt := hth.leaving hstage
  have hslot := h.queue.slotOf th.index
  have hmark : s.sq.tailMark (th.index % 2 ^ log) = false := by
    have hiff := hth.marked (by rw [hstage]; rfl)
    by_contra hcon
    have := hiff.1 (by simpa using hcon)
    omega
  have hfreed : g.freed ≤ g.exposed := by
    have h₁ := h.queue.freed_le
    have h₂ := h.queue.fetched_le
    have h₃ := h.queue.rung_le
    omega
  refine ⟨{ h.queue with slot := fun p hp => ?_ }, fun u uh hu => ?_, ?_, ?_⟩
  · by_cases hp' : p = th.index % 2 ^ log
    · subst hp'
      exact hslot.count hmark le_rfl hfreed (hcur.symm ▸ hlt) (by rw [hleft]; simp; omega)
    · exact (h.queue.slot p hp).count_of_ne hp' le_rfl (Nat.le_succ _) fun hne => absurd rfl hne
  · rcases update_eq_some hu with ⟨-, huh⟩ | ⟨hut, hu⟩
    · cases huh
    · exact (h.thread u uh hu).count hslot hmark (hcur.symm ▸ hlt) fun hpassed hsame =>
        absurd (h.eq_of_passed ht hu hcur hpassed hsame) hut
  · change RosterInv (indexOf (Function.update s.threads t none)) s.issued.length g.exposed
    rw [indexOf_update]
    exact h.roster.remove (indexOf_eq ht) hlt
  · change LockInv (criticalOf (Function.update s.threads t none)) s.sq.tailLock _
    have hcritical : criticalOf s.threads t = false := by rw [criticalOf_eq ht, hstage]; rfl
    rw [criticalOf_update, show Option.any _ none = criticalOf s.threads t from hcritical.symm,
      Function.update_eq_self]
    exact ⟨h.lock.exclusive, h.lock.locked, h.lock.quiet⟩

end

/-! ### Completions, the device, and a new command -/

section
variable {s : State τ η} {g : Ghost}

/-- A completion counts the turn of a slot. -/
theorem Inv.free (h : Inv log s g) {m : Mover} (hm : s.mover = some m) (hloc : m.loc ≠ m.newSqHead) :
    Inv log { s with
      sq := s.sq.count m.loc
      mover := some { m with loc := (m.loc + 1) % 2 ^ log, sqMoveCount := m.sqMoveCount + 1 } }
      (g.count log m.loc (g.freed + 1) (g.left m.loc)) := by
  have hmover := h.queue.mover
  rw [hm] at hmover
  obtain ⟨hcount, hloc', hpos, r, hr, hle, hnew⟩ := hmover
  have hr_le := h.queue.posted_le r (List.mem_of_getElem? hr)
  have hne : g.freed ≠ r := by
    rintro rfl
    exact hloc (hloc'.trans hnew.symm)
  have hlt : g.freed < s.fetched.length := by omega
  have hexposed : g.freed < g.exposed := by
    have h₂ := h.queue.fetched_le
    have h₃ := h.queue.rung_le
    omega
  have hcur := h.queue.cur_freed hexposed
  rw [← hloc'] at hcur
  have hslot := h.queue.slotOf g.freed
  rw [← hloc'] at hslot
  have hmark : s.sq.tailMark m.loc = false := by
    by_contra hcon
    have := (hslot.mark (by simpa using hcon)).1
    omega
  refine ⟨{ h.queue with headed_le := ?_, freed_le := hlt, slot := fun p hp => ?_, mover := ?_ },
    fun u uh hu => ?_, h.roster, ⟨h.lock.exclusive, h.lock.locked, h.lock.quiet⟩⟩
  · exact h.queue.headed_le.trans (Nat.le_succ _)
  · by_cases hp' : p = m.loc
    · subst hp'
      exact hslot.count hmark (Nat.le_succ _) hexposed (hcur.symm ▸ hexposed) (by rw [hcur]; simp)
    · exact (h.queue.slot p hp).count_of_ne hp' (Nat.le_succ _) le_rfl fun _ => hloc'.symm
  · refine ⟨?_, ?_, hpos, r, hr, by change g.freed + 1 ≤ r; omega, hnew⟩
    · change g.freed + 1 = g.headed + (m.sqMoveCount + 1)
      omega
    · change (m.loc + 1) % 2 ^ log = (g.freed + 1) % 2 ^ log
      rw [hloc', Nat.mod_add_mod]
  · have huInv := h.thread u uh hu
    exact huInv.count hslot hmark (hcur.symm ▸ hexposed) fun hpassed hsame => hsame ▸ (huInv.passed hpassed).2

/-- The head is moved over the slots that were given free. -/
theorem Inv.moveHead (h : Inv log s g) {m : Mover} (hm : s.mover = some m) (hloc : m.loc = m.newSqHead) :
    Inv log { s with
      sq := { s.sq with head := (s.sq.head + m.sqMoveCount) % 2 ^ 32 }
      mover := none
      consumed := s.consumed + m.count } { g with headed := g.freed } := by
  have hmover := h.queue.mover
  rw [hm] at hmover
  obtain ⟨hcount, hloc', hpos, r, hr, hle, hnew⟩ := hmover
  have hr_le := h.queue.posted_le r (List.mem_of_getElem? hr)
  have hroom := h.queue.room
  have hheaded := h.queue.headed_le
  have hrung := h.queue.rung_le
  have hfetched := h.queue.fetched_le
  -- the loop has come to the head that the last completion tells
  have hfreed : g.freed = r := by
    refine le_antisymm hle (Nat.le_of_not_lt fun hlt => ?_)
    have hmod : g.freed ≡ r [MOD 2 ^ log] := show _ % _ = _ % _ by rw [← hloc', hloc, hnew]
    have := hmod.add_le_of_lt hlt
    omega
  refine ⟨{ h.queue with
    headed_le := le_rfl
    room := hroom.trans_le (Nat.add_le_add_right hheaded _)
    head := ?_
    slot := fun p hp => { h.queue.slot p hp with }
    le_posted := fun r' hr' => ?_
    mover := rfl }, fun u uh hu => ?_, h.roster, ⟨h.lock.exclusive, h.lock.locked, h.lock.quiet⟩⟩
  · change (s.sq.head + m.sqMoveCount) % 2 ^ 32 = g.freed % 2 ^ 32
    rw [h.queue.head, Nat.mod_add_mod, hcount]
  · -- what comes after the last completion tells a later head
    have hr' : r' ∈ s.posted.drop (s.consumed + m.count) := hr'
    obtain ⟨i, hi⟩ := List.mem_iff_getElem?.1 hr'
    rw [List.getElem?_drop] at hi
    obtain ⟨h₁, h₁'⟩ := List.getElem?_eq_some_iff.1 hr
    obtain ⟨h₂, h₂'⟩ := List.getElem?_eq_some_iff.1 hi
    change g.freed ≤ r'
    rw [hfreed, ← h₁', ← h₂']
    exact List.pairwise_iff_getElem.1 h.queue.posted _ _ h₁ h₂ (by omega)
  · have huInv := h.thread u uh hu
    refine { huInv with inside := ?_ }
    have hinside := huInv.inside
    cases hs : uh.stage <;> rw [hs] at hinside <;> first | exact hinside | skip
    exact ⟨hinside.1, hinside.2.1, hinside.2.2.1, hinside.2.2.2.trans_le (Nat.add_le_add_right hheaded _)⟩

/-- A thread starts to work off completions. -/
theorem Inv.dequeue (h : Inv log s g) (hlog : log ≤ 32) {count : ℕ} {m : Mover} (hnone : s.mover = none)
    (hm : Mover.start log s.sq s.posted s.consumed count = some m) :
    Inv log { s with mover := some m } g := by
  have hmover := h.queue.mover
  rw [hnone] at hmover
  refine ⟨{ h.queue with mover := ?_ }, h.thread, h.roster, h.lock⟩
  rw [Mover.start] at hm
  split at hm
  · cases hm
  · rename_i hcount
    obtain ⟨r, hr, rfl⟩ := Option.map_eq_some_iff.1 hm
    have hmem : r ∈ s.posted.drop s.consumed := by
      refine List.mem_iff_getElem?.2 ⟨count - 1, ?_⟩
      rw [List.getElem?_drop, ← Nat.add_sub_assoc (by omega), hr]
    refine ⟨hmover, ?_, Nat.pos_of_ne_zero hcount, r, hr, hmover ▸ h.queue.le_posted r hmem, rfl⟩
    change s.sq.head % 2 ^ log = g.freed % 2 ^ log
    rw [h.queue.head, hmover, Nat.mod_mod_of_dvd _ (Nat.pow_dvd_pow 2 hlog)]

/-- The device reads the first half of an entry. -/
theorem Inv.fetchFirst (h : Inv log s g) (hdb : s.fetched.length % 2 ^ log ≠ s.sq.db) :
    Inv log { s with fetching := some (s.sq.vaddr (s.fetched.length % 2 ^ log)).1 } g := by
  refine ⟨{ h.queue with fetching := fun x hx => ⟨?_, (Option.some.inj hx).symm⟩ }, h.thread, h.roster, h.lock⟩
  refine Nat.lt_of_le_of_ne h.queue.fetched_le fun heq => hdb ?_
  rw [h.queue.db, ← heq]

/-- The device reads the second half of an entry. -/
theorem Inv.fetchSecond (h : Inv log s g) {first : η} (hfirst : s.fetching = some first) :
    Inv log { s with
      fetching := none
      fetched := s.fetched ++ [(first, (s.sq.vaddr (s.fetched.length % 2 ^ log)).2)] } g := by
  obtain ⟨hlt, rfl⟩ := h.queue.fetching first hfirst
  have hentry := h.queue.entries s.fetched.length le_rfl (hlt.trans_le h.queue.rung_le)
  have hlen : (s.fetched ++ [s.sq.vaddr (s.fetched.length % 2 ^ log)]).length = s.fetched.length + 1 := by
    rw [List.length_append, List.length_singleton]
  refine ⟨{ h.queue with
    freed_le := ?_
    fetched_le := hlen.trans_le hlt
    entries := fun i hi => h.queue.entries i ((Nat.le_succ _).trans (hlen.symm.trans_le hi))
    fetched := ?_
    fetching := nofun
    posted_le := fun r hr => ?_ }, h.thread, h.roster, h.lock⟩
  · exact (h.queue.freed_le.trans (Nat.le_succ _)).trans_eq hlen.symm
  · obtain ⟨rest, hrest⟩ := h.queue.fetched
    refine ⟨rest.tail, ?_⟩
    rw [← hrest, List.getElem?_append_right le_rfl, Nat.sub_self] at hentry
    obtain ⟨entry, rest, rfl⟩ := List.exists_cons_of_ne_nil (l := rest) (by rintro rfl; cases hentry)
    rw [List.getElem?_cons_zero] at hentry
    rw [← hrest, Option.some.inj hentry, List.append_assoc]
    rfl
  · exact ((h.queue.posted_le r hr).trans (Nat.le_succ _)).trans_eq hlen.symm

/-- Completions that come in are behind those that are worked off. -/
theorem MoverInv.append {posted : List ℕ} {consumed : ℕ} {mover : Option Mover}
    (h : MoverInv log posted consumed g mover) (rest : List ℕ) :
    MoverInv log (posted ++ rest) consumed g mover := by
  cases mover with
  | none => exact h
  | some m =>
      obtain ⟨h₁, h₂, h₃, r, hr, h₄⟩ := h
      exact ⟨h₁, h₂, h₃, r, (List.getElem?_append_left (List.getElem?_eq_some_iff.1 hr).1).trans hr, h₄⟩

/-- The device posts a completion. -/
theorem Inv.post (h : Inv log s g) :
    Inv log { s with posted := s.posted ++ [s.fetched.length] } g := by
  refine ⟨{ h.queue with posted := ?_, posted_le := ?_, le_posted := ?_, mover := ?_ },
    h.thread, h.roster, h.lock⟩
  · exact List.pairwise_append.2 ⟨h.queue.posted, List.pairwise_singleton _ _, fun r hr r' hr' =>
      List.mem_singleton.1 hr' ▸ h.queue.posted_le r hr⟩
  · intro r hr
    rcases List.mem_append.1 hr with hr | hr
    · exact h.queue.posted_le r hr
    · exact (List.mem_singleton.1 hr).le
  · intro r hr
    change r ∈ (s.posted ++ [s.fetched.length]).drop s.consumed at hr
    rw [List.drop_append] at hr
    rcases List.mem_append.1 hr with hr | hr
    · exact h.queue.le_posted r hr
    · rw [List.mem_singleton.1 (List.mem_of_mem_drop hr)]
      exact h.queue.headed_le.trans h.queue.freed_le
  · exact h.queue.mover.append _

end

section
variable [DecidableEq τ] {s : State τ η} {g : Ghost} {t : τ}

/-- A thread comes with a command. -/
theorem Inv.enqueue (h : Inv log s g) (ht : s.threads t = none) (cmd : η × η) :
    Inv log { s with
      sq := (draw s.sq s.issued.length cmd).1
      threads := Function.update s.threads t (some (draw s.sq s.issued.length cmd).2)
      issued := s.issued ++ [cmd] } g := by
  have hgrow : ∀ {i : ℕ} {e : η × η}, s.issued[i]? = some e → (s.issued ++ [cmd])[i]? = some e :=
    fun hi => (List.getElem?_append_left (List.getElem?_eq_some_iff.1 hi).1).trans hi
  have hlen : (s.issued ++ [cmd]).length = s.issued.length + 1 := by
    rw [List.length_append, List.length_singleton]
  have hexposed := h.queue.exposed_le
  have hslot := h.queue.slotOf s.issued.length
  have hcur : g.cur (s.issued.length % 2 ^ log) ≤ s.issued.length := by
    by_contra hlt
    have h₁ := hslot.le_prev rfl (Nat.lt_of_not_le hlt)
    have h₂ := hslot.cur_lt
    have h₃ := h.queue.freed_le
    have h₄ := h.queue.fetched_le
    have h₅ := h.queue.rung_le
    omega
  have hunmarked : g.cur (s.issued.length % 2 ^ log) = s.issued.length →
      s.sq.tailMark (s.issued.length % 2 ^ log) = false := by
    intro heq
    by_contra hcon
    have hissued := (hslot.mark (by simpa using hcon)).2
    rw [heq, List.getElem?_eq_none le_rfl] at hissued
    cases hissued
  refine ⟨{ h.queue with
    exposed_le := (hexposed.trans (Nat.le_succ _)).trans_eq hlen.symm
    inTicket := ?_
    slot := fun p hp => ?_
    entries := fun i hi hlt => hgrow (h.queue.entries i hi hlt)
    fetched := h.queue.fetched.trans (List.prefix_append _ _) }, fun u uh hu => ?_, ?_, ?_⟩
  · change (s.sq.inTicket + 1) % 2 ^ 32 = (s.issued ++ [cmd]).length % 2 ^ 32
    rw [h.queue.inTicket, hlen, Nat.mod_add_mod]
  · have hp' := h.queue.slot p hp
    exact { hp' with mark := fun hm => ⟨(hp'.mark hm).1, hgrow (hp'.mark hm).2⟩ }
  · rcases update_eq_some hu with ⟨-, huh⟩ | ⟨-, hu⟩
    · cases huh
      exact {
        ticket := h.queue.inTicket
        cmd := by
          change (s.issued ++ [cmd])[s.issued.length]? = some cmd
          rw [List.getElem?_append_right le_rfl, Nat.sub_self, List.getElem?_cons_zero]
        unmarked := fun _ => ⟨hexposed, hcur, hunmarked⟩
        passed := nofun
        early := nofun
        halfway := nofun
        copied := nofun
        marked := nofun
        leaving := nofun
        inside := trivial }
    · have huInv := h.thread u uh hu
      exact { huInv with cmd := hgrow huInv.cmd }
  · change RosterInv (indexOf (Function.update s.threads t _)) (s.issued ++ [cmd]).length g.exposed
    rw [indexOf_update, hlen]
    refine h.roster.add (fun u i hu => ?_) (by rw [indexOf, ht, Option.map_none])
    obtain ⟨uh, hu', rfl⟩ := Option.map_eq_some_iff.1 hu
    exact (h.thread u uh hu').index_lt
  · change LockInv (criticalOf (Function.update s.threads t _)) s.sq.tailLock g
    have hcritical : criticalOf s.threads t = false := by rw [criticalOf, ht, Option.any_none]
    rw [criticalOf_update, Option.any_some, show (draw s.sq s.issued.length cmd).2.stage.critical =
      criticalOf s.threads t from hcritical.symm, Function.update_eq_self]
    exact h.lock

end

end SubmissionQueue
end GeminiFS
end InfiniKV
