/-
**The order of the commands of a submission queue.**

Whatever the order in which the threads, the device and the completions take their steps, the device reads the
commands in the order of their tickets, each of them once and whole.  A ring of four entries or more takes
`2 ^ 32` commands: then the tickets come round and the turns of the slots do not.

Main results:

* `InfiniKV.GeminiFS.SubmissionQueue.Inv.step` — **each step of the system keeps the invariant**;
* `InfiniKV.GeminiFS.SubmissionQueue.submission_order` — **no command is lost, doubled, torn or overtaken**;
* `InfiniKV.GeminiFS.SubmissionQueue.queue_wears_out` — **no command gets its turn after `2 ^ 32` others**.
-/

import InfiniKV.SubmissionInvariant
import InfiniKV.SubmissionRounds
import InfiniKV.Runs

set_option relaxedAutoImplicit false
set_option autoImplicit false

namespace InfiniKV
namespace GeminiFS
namespace SubmissionQueue

variable {τ η : Type} {log : ℕ}

/-! ### A step -/

section
variable {s : State τ η} {g : Ghost} {t : τ} {th : Thread η}

/-- In the critical section, the slot whose mark is exchanged is the one after those that were taken over. -/
theorem ThreadInv.slot_eq {sq : Queue η} {issued : List (η × η)} (h : ThreadInv log sq issued g th)
    (hlog : log ≤ 32) (hstage : th.stage = .exchanging) :
    (th.curTail + th.count) % 2 ^ log = g.exposed % 2 ^ log := by
  have hinside := h.inside
  rw [hstage] at hinside
  obtain ⟨htail, hexposed, -⟩ := hinside
  rw [htail, hexposed, ← Nat.mod_add_mod, Nat.mod_mod_of_dvd _ (Nat.pow_dvd_pow 2 hlog), Nat.mod_add_mod]

/-- There is room for one more where `move_tail` sees that the next tail is not the head. -/
theorem Inv.room_of_ne (h : Inv log s g) (hlog : log ≤ 32) (ht : s.threads t = some th)
    (hstage : th.stage = .scanning)
    (hne : (th.curTail + th.count + 1) % 2 ^ log ≠ s.sq.head % 2 ^ log) :
    g.exposed + 1 < g.headed + 2 ^ log := by
  have hinside := (h.thread t th ht).inside
  rw [hstage] at hinside
  obtain ⟨htail, hexposed, -⟩ := hinside
  have hdvd : 2 ^ log ∣ 2 ^ 32 := Nat.pow_dvd_pow 2 hlog
  refine Nat.lt_of_le_of_ne h.queue.room fun heq => hne ?_
  rw [h.queue.head, Nat.mod_mod_of_dvd _ hdvd, Nat.add_assoc, htail, ← Nat.mod_add_mod,
    Nat.mod_mod_of_dvd _ hdvd, Nat.mod_add_mod, ← Nat.add_assoc, ← hexposed, heq, Nat.add_mod_right]

end

section
variable [DecidableEq τ] {s : State τ η} {g : Ghost} {t : τ} {th : Thread η}

/-- The state after an access of a thread. -/
def State.accessed (log : ℕ) (s : State τ η) (t : τ) (th : Thread η) : State τ η :=
  { s with
    sq := (th.step log s.sq).1
    threads := Function.update s.threads t (th.step log s.sq).2 }

/-- A thread waits for its turn. -/
theorem Inv.wait (h : Inv log s g) (ht : s.threads t = some th) (hstage : th.stage = .waiting) :
    Inv log (s.accessed log t th) g := by
  have hth := h.thread t th ht
  simp only [State.accessed, Thread.step, hstage]
  split
  · exact h.advance ht rfl (by rw [hstage]; rfl) {
      ticket := hth.ticket
      cmd := hth.cmd
      unmarked := fun _ => hth.unmarked (by rw [hstage]; rfl)
      passed := by rintro ⟨⟩
      early := by rintro ⟨⟩
      halfway := by rintro ⟨⟩
      copied := by rintro ⟨⟩
      marked := by rintro ⟨⟩
      leaving := by rintro ⟨⟩
      inside := trivial }
  · rw [← ht, Function.update_eq_self]
    exact h

/-- A thread whose turn has come begins to copy its command. -/
theorem Inv.acquire [Fintype τ] (h : Inv log s g) (hfits : Fits log τ) (ht : s.threads t = some th)
    (hstage : th.stage = .acquiring) : Inv log (s.accessed log t th) g := by
  have hth := h.thread t th ht
  have hunmarked : th.stage.unmarked = true := by rw [hstage]; rfl
  simp only [State.accessed, Thread.step, hstage]
  split
  · rename_i hturn
    obtain ⟨hpassed, hearly⟩ := h.passes hfits ht hunmarked hturn
    exact h.advance ht rfl (by rw [hstage]; rfl) {
      ticket := hth.ticket
      cmd := hth.cmd
      unmarked := fun _ => hth.unmarked hunmarked
      passed := fun _ => hpassed
      early := fun _ => hearly
      halfway := by rintro ⟨⟩
      copied := by rintro ⟨⟩
      marked := by rintro ⟨⟩
      leaving := by rintro ⟨⟩
      inside := trivial }
  · rw [← ht, Function.update_eq_self]
    exact h

/-- A thread copies its command. -/
theorem Inv.copy (h : Inv log s g) (hlog : log ≤ 32) (ht : s.threads t = some th)
    (hstage : th.stage = .copying ∨ th.stage = .copyingSecond) : Inv log (s.accessed log t th) g := by
  have hth := h.thread t th ht
  have hunmarked : th.stage.unmarked = true := by
    rcases hstage with hs | hs <;> rw [hs] <;> rfl
  have hpassed : th.stage.passed = true := by
    rcases hstage with hs | hs <;> rw [hs] <;> rfl
  have hpos := hth.pos_eq hlog
  rcases hstage with hs | hs
  · simp only [State.accessed, Thread.step, hs, hpos]
    refine h.write ht rfl hunmarked hpassed (by rw [hs]; rfl) { hth with
      unmarked := fun _ => hth.unmarked hunmarked
      passed := fun _ => hth.passed hpassed
      early := fun _ => hth.early hpassed
      halfway := fun _ => ?_
      copied := by rintro ⟨⟩
      marked := by rintro ⟨⟩
      leaving := by rintro ⟨⟩
      inside := trivial }
    change (Function.update s.sq.vaddr (th.index % 2 ^ log) _ (th.index % 2 ^ log)).1 = th.cmd.1
    rw [Function.update_self]
  · simp only [State.accessed, Thread.step, hs, hpos]
    refine h.write ht rfl hunmarked hpassed (by rw [hs]; rfl) { hth with
      unmarked := fun _ => hth.unmarked hunmarked
      passed := fun _ => hth.passed hpassed
      early := fun _ => hth.early hpassed
      halfway := by rintro ⟨⟩
      copied := fun _ => ?_
      marked := by rintro ⟨⟩
      leaving := by rintro ⟨⟩
      inside := trivial }
    refine (Function.update_self _ _ _).trans ?_
    rw [hth.halfway hs]

/-- A thread that has marked its slot looks whether the mark was taken away. -/
theorem Inv.check (h : Inv log s g) (hlog : log ≤ 32) (ht : s.threads t = some th)
    (hstage : th.stage = .checking) : Inv log (s.accessed log t th) g := by
  have hth := h.thread t th ht
  have hmarked : th.stage.unmarked = false := by rw [hstage]; rfl
  simp only [State.accessed, Thread.step, hstage, hth.pos_eq hlog]
  split
  · exact h.advance ht rfl (by rw [hstage]; rfl) (hth.goto hmarked .peeking rfl (by rintro ⟨⟩) trivial)
  · rename_i hmark
    have hlt : th.index < g.exposed := Nat.lt_of_not_le fun hle => hmark ((hth.marked hmarked).2 hle)
    exact h.advance ht rfl (by rw [hstage]; rfl) (hth.goto hmarked .leaving rfl (fun _ => hlt) trivial)

/-- A thread looks whether `tail_lock` is free. -/
theorem Inv.peek (h : Inv log s g) (ht : s.threads t = some th) (hstage : th.stage = .peeking) :
    Inv log (s.accessed log t th) g := by
  have hth := h.thread t th ht
  have hmarked : th.stage.unmarked = false := by rw [hstage]; rfl
  simp only [State.accessed, Thread.step, hstage]
  split
  · exact h.advance ht rfl (by rw [hstage]; rfl) (hth.goto hmarked .checking rfl (by rintro ⟨⟩) trivial)
  · exact h.advance ht rfl (by rw [hstage]; rfl) (hth.goto hmarked .grabbing rfl (by rintro ⟨⟩) trivial)

/-- A thread tries to take `tail_lock`. -/
theorem Inv.grab (h : Inv log s g) (ht : s.threads t = some th) (hstage : th.stage = .grabbing) :
    Inv log (s.accessed log t th) g := by
  have hth := h.thread t th ht
  have hmarked : th.stage.unmarked = false := by rw [hstage]; rfl
  simp only [State.accessed, Thread.step, hstage]
  cases hlock : s.sq.tailLock with
  | false => exact h.lockTail ht hstage hlock
  | true =>
      have hsq : { s.sq with tailLock := true } = s.sq := by rw [← hlock]
      rw [hsq]
      exact h.advance ht rfl (by rw [hstage]; rfl) (hth.goto hmarked .checking rfl (by rintro ⟨⟩) trivial)

/-- A thread reads the tail. -/
theorem Inv.load (h : Inv log s g) (ht : s.threads t = some th) (hstage : th.stage = .loading) :
    Inv log (s.accessed log t th) g := by
  have hth := h.thread t th ht
  have hmarked : th.stage.unmarked = false := by rw [hstage]; rfl
  have hinside := hth.inside
  rw [hstage] at hinside
  simp only [State.accessed, Thread.step, hstage]
  exact h.advance ht rfl (by rw [hstage]; rfl) (hth.goto hmarked .scanning rfl (by rintro ⟨⟩)
    ⟨h.queue.tail, hinside.1.symm, hinside.2.trans hinside.1.symm⟩)

/-- `move_tail` returns. -/
theorem Inv.moved (h : Inv log s g) (ht : s.threads t = some th)
    (hstage : th.stage = .scanning ∨ th.stage = .exchanging) :
    Inv log { s with threads := Function.update s.threads t (some th.moved) } g := by
  have hth := h.thread t th ht
  have hunmarked : th.stage.unmarked = false := by
    rcases hstage with hs | hs <;> rw [hs] <;> rfl
  have hcritical : th.stage.critical = true := by
    rcases hstage with hs | hs <;> rw [hs] <;> rfl
  obtain ⟨htail, hexposed, hrung⟩ :
      th.curTail = g.stored % 2 ^ 32 ∧ g.exposed = g.stored + th.count ∧ g.rung = g.stored := by
    have hinside := hth.inside
    rcases hstage with hs | hs <;> rw [hs] at hinside
    · exact hinside
    · exact ⟨hinside.1, hinside.2.1, hinside.2.2.1⟩
  by_cases hzero : th.count = 0
  · have hmoved : th.moved = { th with stage := .unlocking } := by rw [Thread.moved, if_pos hzero]
    have hstored : g.stored = g.exposed := by omega
    rw [hmoved]
    exact h.advance ht rfl hcritical.symm
      (hth.goto hunmarked .unlocking rfl (by rintro ⟨⟩) ⟨hstored, hrung.trans hstored⟩)
  · have hmoved : th.moved = { th with stage := .ringing } := by rw [Thread.moved, if_neg hzero]
    rw [hmoved]
    exact h.advance ht rfl hcritical.symm
      (hth.goto hunmarked .ringing rfl (by rintro ⟨⟩) ⟨htail, hexposed, hrung⟩)

/-- `move_tail` looks whether there is room for one more. -/
theorem Inv.scan (h : Inv log s g) (hlog : log ≤ 32) (ht : s.threads t = some th)
    (hstage : th.stage = .scanning) : Inv log (s.accessed log t th) g := by
  have hth := h.thread t th ht
  have hmarked : th.stage.unmarked = false := by rw [hstage]; rfl
  have hinside := hth.inside
  rw [hstage] at hinside
  simp only [State.accessed, Thread.step, hstage]
  split
  · rename_i hne
    exact h.advance ht rfl (by rw [hstage]; rfl) (hth.goto hmarked .exchanging rfl (by rintro ⟨⟩)
      ⟨hinside.1, hinside.2.1, hinside.2.2, h.room_of_ne hlog ht hstage hne⟩)
  · exact h.moved ht (Or.inl hstage)

/-- `move_tail` takes the mark of the next slot away. -/
theorem Inv.exchange (h : Inv log s g) (hlog : log ≤ 32) (ht : s.threads t = some th)
    (hstage : th.stage = .exchanging) : ∃ g', Inv log (s.accessed log t th) g' := by
  simp only [State.accessed, Thread.step, hstage, (h.thread t th ht).slot_eq hlog hstage]
  by_cases hmark : s.sq.tailMark (g.exposed % 2 ^ log) = true
  · rw [if_pos hmark]
    exact ⟨_, h.expose ht hstage hmark⟩
  · have hfalse : s.sq.tailMark (g.exposed % 2 ^ log) = false := by simpa using hmark
    have hsq : Function.update s.sq.tailMark (g.exposed % 2 ^ log) false = s.sq.tailMark := by
      rw [← hfalse, Function.update_eq_self]
    rw [if_neg hmark, hsq]
    exact ⟨g, h.moved ht (Or.inr hstage)⟩

/-- **Each access of a thread keeps the invariant.** -/
theorem Inv.access [Fintype τ] (h : Inv log s g) (hfits : Fits log τ) (ht : s.threads t = some th) :
    ∃ g', Inv log (s.accessed log t th) g' := by
  have hlog : log ≤ 32 := hfits.le_sixteen.trans (by omega)
  have hpos := (h.thread t th ht).pos_eq hlog
  cases hs : th.stage with
  | waiting => exact ⟨g, h.wait ht hs⟩
  | acquiring => exact ⟨g, h.acquire hfits ht hs⟩
  | copying => exact ⟨g, h.copy hlog ht (Or.inl hs)⟩
  | copyingSecond => exact ⟨g, h.copy hlog ht (Or.inr hs)⟩
  | marking =>
      simp only [State.accessed, Thread.step, hs, hpos]
      exact ⟨g, h.mark ht hs⟩
  | checking => exact ⟨g, h.check hlog ht hs⟩
  | peeking => exact ⟨g, h.peek ht hs⟩
  | grabbing => exact ⟨g, h.grab ht hs⟩
  | loading => exact ⟨g, h.load ht hs⟩
  | scanning => exact ⟨g, h.scan hlog ht hs⟩
  | exchanging => exact h.exchange hlog ht hs
  | ringing =>
      simp only [State.accessed, Thread.step, hs]
      exact ⟨_, h.ring hlog ht hs⟩
  | storing =>
      simp only [State.accessed, Thread.step, hs]
      exact ⟨_, h.storeTail ht hs⟩
  | unlocking =>
      simp only [State.accessed, Thread.step, hs]
      exact ⟨g, h.unlockTail ht hs⟩
  | leaving =>
      simp only [State.accessed, Thread.step, hs, hpos]
      exact ⟨_, h.leave ht hs⟩

/-- **Each step of the system keeps the invariant.** -/
theorem Inv.step [Fintype τ] (h : Inv log s g) (hfits : Fits log τ) {a : Action τ η} {s' : State τ η}
    (hstep : step log s a = some s') : ∃ g', Inv log s' g' := by
  have hlog : log ≤ 32 := hfits.le_sixteen.trans (by omega)
  cases a with
  | enqueue t cmd =>
      rw [SubmissionQueue.step] at hstep
      cases ht : s.threads t with
      | some th =>
          rw [ht] at hstep
          cases hstep
      | none =>
          rw [ht] at hstep
          cases hstep
          exact ⟨g, h.enqueue ht cmd⟩
  | access t =>
      obtain ⟨th, ht, rfl⟩ := Option.map_eq_some_iff.1 hstep
      exact h.access hfits ht
  | fetch =>
      rw [SubmissionQueue.step, fetch] at hstep
      cases hf : s.fetching with
      | none =>
          rw [hf] at hstep
          dsimp only at hstep
          split at hstep
          · cases hstep
          · rename_i hdb
            cases hstep
            exact ⟨g, h.fetchFirst hdb⟩
      | some first =>
          rw [hf] at hstep
          cases hstep
          exact ⟨g, h.fetchSecond hf⟩
  | post =>
      rw [SubmissionQueue.step] at hstep
      split at hstep
      · cases hstep
        exact ⟨g, h.post⟩
      · cases hstep
  | dequeue count =>
      rw [SubmissionQueue.step] at hstep
      cases hm : s.mover with
      | some m =>
          rw [hm] at hstep
          cases hstep
      | none =>
          rw [hm] at hstep
          obtain ⟨m, hstart, rfl⟩ := Option.map_eq_some_iff.1 hstep
          exact ⟨g, h.dequeue hlog hm hstart⟩
  | move =>
      obtain ⟨m, hm, rfl⟩ := Option.map_eq_some_iff.1 hstep
      by_cases hloc : m.loc = m.newSqHead
      · rw [Mover.step, if_neg (not_not.2 hloc)]
        exact ⟨_, h.moveHead hm hloc⟩
      · rw [Mover.step, if_pos hloc]
        exact ⟨_, h.free hm hloc⟩

end

/-! ### Runs -/

section
variable {s : State τ η}

/-- The invariant holds of a queue that has been cleared. -/
theorem inv_initial (memory : ℕ → η × η) :
    Inv log (initial memory : State τ η) ⟨0, 0, 0, 0, 0, fun p => p, fun _ => false⟩ where
  queue := {
    headed_le := le_rfl
    freed_le := le_rfl
    fetched_le := le_rfl
    rung_le := le_rfl
    exposed_le := le_rfl
    room := by
      rw [Nat.zero_add]
      exact Nat.two_pow_pos log
    inTicket := rfl
    tail := rfl
    head := rfl
    db := (Nat.zero_mod _).symm
    slot := fun p hp => {
      mod := Nat.mod_eq_of_lt hp
      cur_lt := by rwa [Nat.zero_add]
      exposed_le := Nat.zero_le _
      left := nofun
      turn := by
        change 0 = (2 * (p / 2 ^ log) + 0 + (decide (p < 0)).toNat) % 2 ^ 32
        rw [Nat.div_eq_of_lt hp, decide_eq_false (Nat.not_lt_zero p)]
        rfl
      mark := nofun }
    entries := fun i _ hi => absurd hi (Nat.not_lt_zero i)
    fetched := List.prefix_rfl
    fetching := nofun
    posted := List.Pairwise.nil
    posted_le := nofun
    le_posted := nofun
    mover := rfl
    early := fun _ => Nat.zero_le _ }
  thread := nofun
  roster := ⟨nofun, fun i _ hi => absurd hi (Nat.not_lt_zero i)⟩
  lock := ⟨nofun, nofun, fun _ => ⟨rfl, rfl⟩⟩

/-- When all threads have returned, all commands were taken over, and the tail and the doorbell have them. -/
theorem Inv.of_idle {g : Ghost} (h : Inv log s g) (hidle : ∀ t, s.threads t = none) :
    g.exposed = s.issued.length ∧ g.stored = s.issued.length ∧ g.rung = s.issued.length := by
  obtain ⟨hstored, hrung⟩ := h.lock.quiet fun t => by rw [criticalOf, hidle t, Option.any_none]
  have hexposed : g.exposed = s.issued.length := by
    refine le_antisymm h.queue.exposed_le (Nat.le_of_not_lt fun hlt => ?_)
    obtain ⟨t, ht⟩ := h.roster.covered g.exposed le_rfl hlt
    rw [indexOf, hidle t] at ht
    cases ht
  exact ⟨hexposed, hstored.trans hexposed, hrung.trans hexposed⟩

end

section
variable [DecidableEq τ] {s : State τ η}

/-- A thread keeps its command until it has had its turn. -/
theorem threads_step {s' : State τ η} {a : Action τ η} {t : τ} {th : Thread η}
    (hstep : step log s a = some s') (ht : s.threads t = some th) (hpassed : th.stage.passed = false) :
    ∃ th', s'.threads t = some th' ∧ th'.index = th.index := by
  cases a with
  | enqueue u cmd =>
      rw [step] at hstep
      cases hu : s.threads u with
      | some uh =>
          rw [hu] at hstep
          cases hstep
      | none =>
          rw [hu] at hstep
          cases hstep
          have hne : t ≠ u := by
            rintro rfl
            rw [ht] at hu
            cases hu
          exact ⟨th, (Function.update_of_ne hne _ _).trans ht, rfl⟩
  | access u =>
      obtain ⟨uh, hu, rfl⟩ := Option.map_eq_some_iff.1 hstep
      by_cases hut : t = u
      · subst hut
        obtain rfl : th = uh := Option.some.inj (ht.symm.trans hu)
        refine ⟨if s.sq.tickets (th.pos log) = getId th.ticket log then
          { th with stage := if th.stage = .waiting then .acquiring else .copying } else th, ?_, ?_⟩
        · refine (Function.update_self _ _ _).trans ?_
          cases hs : th.stage <;> rw [hs] at hpassed <;> try cases hpassed
          · simp only [Thread.step, hs, if_pos]
          · simp only [Thread.step, hs, reduceCtorEq, if_false]
        · split <;> rfl
      · exact ⟨th, (Function.update_of_ne hut _ _).trans ht, rfl⟩
  | fetch =>
      rw [step, fetch] at hstep
      split at hstep
      · split at hstep
        · cases hstep
        · cases hstep
          exact ⟨th, ht, rfl⟩
      · cases hstep
        exact ⟨th, ht, rfl⟩
  | post =>
      rw [step] at hstep
      split at hstep
      · cases hstep
        exact ⟨th, ht, rfl⟩
      · cases hstep
  | dequeue count =>
      rw [step] at hstep
      split at hstep
      · cases hstep
      · obtain ⟨m, -, rfl⟩ := Option.map_eq_some_iff.1 hstep
        exact ⟨th, ht, rfl⟩
  | move =>
      obtain ⟨m, -, rfl⟩ := Option.map_eq_some_iff.1 hstep
      exact ⟨th, ht, rfl⟩

end

section
variable [DecidableEq τ] [Fintype τ] {memory : ℕ → η × η} {s : State τ η} {actions : List (Action τ η)}

/-- The invariant holds along each run. -/
theorem Inv.run {s₀ : State τ η} (hfits : Fits log τ) (h : ∃ g, Inv log s₀ g)
    (hrun : run log s₀ actions = some s) : ∃ g, Inv log s g :=
  foldlM_inv (fun s => ∃ g, Inv log s g) (fun _ _ _ ⟨_, hg⟩ hstep => hg.step hfits hstep) actions h hrun

/-- **No command is lost, doubled, torn or overtaken**: whatever the order of the steps, the device has read the
first of the commands that were issued, in the order of their tickets.  When all threads have returned, the
tail and the doorbell count all commands, and once the device has read up to the doorbell, it has read each of
them. -/
theorem submission_order (hfits : Fits log τ) (hrun : run log (initial memory) actions = some s) :
    s.fetched <+: s.issued ∧
      ((∀ t, s.threads t = none) →
        s.sq.tail = s.issued.length % 2 ^ 32 ∧ s.sq.db = s.issued.length % 2 ^ log ∧
          (s.fetched.length % 2 ^ log = s.sq.db → s.fetched = s.issued)) := by
  obtain ⟨g, h⟩ := Inv.run hfits ⟨_, inv_initial memory⟩ hrun
  refine ⟨h.queue.fetched, fun hidle => ?_⟩
  obtain ⟨hexposed, hstored, hrung⟩ := h.of_idle hidle
  have hdb : s.sq.db = s.issued.length % 2 ^ log := by rw [h.queue.db, hrung]
  refine ⟨by rw [h.queue.tail, hstored], hdb, fun hread => ?_⟩
  -- fewer commands than the ring has slots are behind the head, so the device is at the last of them
  have hlen : s.fetched.length = s.issued.length := by
    have hfetched := h.queue.fetched_le
    have hroom := h.queue.room
    have hheaded := h.queue.headed_le
    have hfreed := h.queue.freed_le
    refine le_antisymm (by omega) (Nat.le_of_not_lt fun hlt => ?_)
    have hmod : s.fetched.length ≡ s.issued.length [MOD 2 ^ log] := show _ % _ = _ % _ by rw [hread, hdb]
    have := hmod.add_le_of_lt hlt
    omega
  exact h.queue.fetched.eq_of_length hlen

/-- Two threads come with a command each, on a ring of two entries: the second one waits until a completion has
given room. -/
def twoCommands : List (Action (Fin 2) ℕ) :=
  [[.enqueue 0 (1, 2), .enqueue 1 (3, 4)], List.replicate 17 (.access 0), [.access 1, .fetch, .fetch],
    List.replicate 12 (.access 1), [.post, .dequeue 1, .move, .move], List.replicate 10 (.access 1),
    [.fetch, .fetch]].flatten

theorem submission_order_twoCommands : ∃ s, run 1 (initial fun _ => (0, 0)) twoCommands = some s ∧
    s.fetched <+: s.issued ∧
      ((∀ t, s.threads t = none) →
        s.sq.tail = s.issued.length % 2 ^ 32 ∧ s.sq.db = s.issued.length % 2 ^ 1 ∧
          (s.fetched.length % 2 ^ 1 = s.sq.db → s.fetched = s.issued)) := by
  obtain ⟨s, hs⟩ : ∃ s, run 1 (initial fun _ => (0, 0)) twoCommands = some s :=
    Option.isSome_iff_exists.1 (by decide +kernel)
  exact ⟨s, hs, submission_order ⟨by decide, by decide, by decide⟩ hs⟩

/-- **A queue of four entries or more takes `2 ^ 32` commands and no more**: the tickets are 32 bits wide and
come round, but the turns of a slot, which are counted twice as fast as they are named, do not.  The device
never reads another command, and a thread with a later one waits for ever. -/
theorem queue_wears_out (hfits : Fits log τ) (hlog : 2 ≤ log)
    (hrun : run log (initial memory) actions = some s) :
    s.fetched.length ≤ 2 ^ 32 ∧ ∀ t th, s.threads t = some th → 2 ^ 32 ≤ th.index →
      ∀ (more : List (Action τ η)) s', run log s more = some s' →
        ∃ th', s'.threads t = some th' ∧ th'.index = th.index ∧ th'.stage.passed = false := by
  have hinv := Inv.run hfits ⟨_, inv_initial memory⟩ hrun
  obtain ⟨g, h⟩ := hinv
  refine ⟨?_, fun t th ht hlate more s' hmore => ?_⟩
  · have hearly := h.queue.early hlog
    have hfetched := h.queue.fetched_le
    have hrung := h.queue.rung_le
    omega
  · have hwaits : ∀ {s : State τ η} {g : Ghost} {uh : Thread η}, Inv log s g → s.threads t = some uh →
        uh.index = th.index → uh.stage.passed = false := by
      intro s g uh h hu heq
      by_contra hpassed
      have := (h.thread t uh hu).early (by simpa using hpassed) hlog
      omega
    obtain ⟨⟨g', h'⟩, th', ht', heq⟩ := foldlM_inv
      (fun s => (∃ g, Inv log s g) ∧ ∃ uh, s.threads t = some uh ∧ uh.index = th.index)
      (by
        rintro s a s' ⟨⟨g, hg⟩, uh, hu, heq⟩ hstep
        obtain ⟨vh, hv, heq'⟩ := threads_step hstep hu (hwaits hg hu heq)
        exact ⟨hg.step hfits hstep, vh, hv, heq'.trans heq⟩)
      more ⟨⟨g, h⟩, th, ht, rfl⟩ hmore
    exact ⟨th', ht', heq, hwaits h' ht' heq⟩

/-- `2 ^ 32` commands come and go on a ring of four entries, and the next one waits. -/
theorem queue_wears_out_lateCommand : ∃ (actions : List (Action (Fin 2) ℕ)) (s : State (Fin 2) ℕ) (th : Thread ℕ),
    run 2 (initial fun _ => (1, 2)) actions = some s ∧ s.fetched.length = 2 ^ 32 ∧ s.threads 0 = some th ∧
      2 ^ 32 ≤ th.index ∧ ∀ (more : List (Action (Fin 2) ℕ)) s', run 2 s more = some s' →
        ∃ th', s'.threads 0 = some th' ∧ th'.index = th.index ∧ th'.stage.passed = false := by
  have hrounds := @run_rounds (Fin 2) ℕ _ 2 (by decide) (by decide) 0 (1, 2) (2 ^ 32) le_rfl
  obtain ⟨s, hs, hfetched, th, hth, hindex⟩ : ∃ s, step 2 (idle (Fin 2) 2 (1, 2) (2 ^ 32)) (.enqueue 0 (1, 2)) = some s ∧
      s.fetched.length = 2 ^ 32 ∧ ∃ th, s.threads 0 = some th ∧ th.index = 2 ^ 32 :=
    ⟨_, rfl, List.length_replicate, _, rfl, List.length_replicate⟩
  have hrun : run 2 (initial fun _ => (1, 2)) ((List.replicate (2 ^ 32) (round 0 (1, 2))).flatten ++
      [.enqueue (0 : Fin 2) (1, 2)]) = some s := by
    rw [run, List.foldlM_append, ← run, hrounds, Option.bind_eq_bind, Option.bind_some, ← run, run_cons hs]
    rfl
  exact ⟨_, s, th, hrun, hfetched, hth, hindex.ge,
    (queue_wears_out ⟨by decide, by decide, by decide⟩ (by decide) hrun).2 0 th hth hindex.ge⟩

end

end SubmissionQueue
end GeminiFS
end InfiniKV
