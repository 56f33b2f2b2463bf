/-
**Event loops.**

An event loop has a queue of callbacks that are ready.  Each of its iterations runs the callbacks that were
ready when it began; what they schedule, and what other threads add in the meantime, is left for the next
one.  A callback can stop the loop, which then ends after the iteration.

The steps of the loop and what other threads add come in any order.

Main definitions:

* `EventLoop` — a loop, with the state that its callbacks work on;
* `LoopEvent`, `EventLoop.step`, `EventLoop.run` — what can happen, and runs;
* `EventLoop.Rest` — the callbacks that are left of an iteration, and those that are not for it.

Main results:

* `EventLoop.Rest.run` — **a run within one iteration**;
* `EventLoop.iterate_mem`, `EventLoop.todo_of_ended` — a loop that has ended.
-/

import Mathlib.Data.List.Basic
import Mathlib.Algebra.Group.Int.Defs
import Mathlib.Algebra.GroupWithZero.Nat

set_option relaxedAutoImplicit false
set_option autoImplicit false

/-- What a callback does: the state after it, what it schedules, and whether it stops the loop. -/
structure Effect (σ η : Type) where
  state : σ
  scheduled : List η
  stops : Bool

/-- A loop is created, then running, and at last has ended. -/
inductive LoopPhase where
  | created
  | running
  | ended
  deriving DecidableEq

/-- A loop: its state, the callbacks that are ready, and how many of them are left of the iteration. -/
structure EventLoop (σ η : Type) where
  state : σ
  ready : List η
  todo : ℕ
  stopping : Bool
  phase : LoopPhase

/-- What can happen: the loop starts, begins an iteration, runs a callback, or ends; or some thread adds a
callback. -/
inductive LoopEvent (η : Type) where
  | starts
  | iterate
  | runCallback
  | ends
  | callSoon (h : η)

variable {σ η β : Type}

/-- The callback that an event adds. -/
def LoopEvent.added : LoopEvent η → Option η
  | .callSoon h => some h
  | _ => none

namespace EventLoop

/-- A loop that has been created with these callbacks. -/
def new (s : σ) (ready : List η) : EventLoop σ η := ⟨s, ready, 0, false, .created⟩

variable (exec : σ → η → Effect σ η)

/-- An event, if it can happen. -/
def step (l : EventLoop σ η) : LoopEvent η → Option (EventLoop σ η)
  | .starts => if l.phase = .created then some { l with phase := .running } else none
  | .iterate =>
      if l.phase = .running ∧ l.todo = 0 ∧ l.stopping = false then some { l with todo := l.ready.length }
      else none
  | .runCallback =>
      match l.todo, l.ready with
      | todo + 1, h :: ready =>
          let e := exec l.state h
          some { l with
            state := e.state
            ready := ready ++ e.scheduled
            todo := todo
            stopping := l.stopping || e.stops }
      | _, _ => none
  | .ends =>
      if l.phase = .running ∧ l.todo = 0 ∧ l.stopping = true then some { l with phase := .ended } else none
  | .callSoon h => some { l with ready := l.ready ++ [h] }

/-- Events, one after the other. -/
def run : List (LoopEvent η) → EventLoop σ η → Option (EventLoop σ η)
  | [], l => some l
  | e :: es, l => l.step exec e >>= run es

variable {exec} {l l' : EventLoop σ η} {e : LoopEvent η} {es es₁ es₂ : List (LoopEvent η)}

/-- Events one after the other, cut into two. -/
theorem run_append : run exec (es₁ ++ es₂) l = run exec es₁ l >>= run exec es₂ := by
  induction es₁ generalizing l with
  | nil => rfl
  | cons e es₁ ih =>
      change (l.step exec e >>= run exec (es₁ ++ es₂)) = (l.step exec e >>= run exec es₁) >>= run exec es₂
      cases l.step exec e with
      | none => rfl
      | some l₁ => exact ih

/-- **What a callback that runs does.** -/
theorem step_runCallback (h : l.step exec .runCallback = some l') :
    ∃ todo c ready, l.todo = todo + 1 ∧ l.ready = c :: ready ∧
      l' = { l with
        state := (exec l.state c).state
        ready := ready ++ (exec l.state c).scheduled
        todo := todo
        stopping := l.stopping || (exec l.state c).stops } := by
  rw [step] at h
  split at h
  · rename_i todo c ready htodo hready
    exact ⟨todo, c, ready, htodo, hready, (Option.some.inj h).symm⟩
  · cases h

/-! ### Within one iteration -/

/-- The callbacks that are left of an iteration, and those that are ready but not for it. -/
structure Rest (l : EventLoop σ η) (left later : List η) : Prop where
  ready : l.ready = left ++ later
  todo : l.todo = left.length

/-- The state after callbacks, which schedule others for later. -/
def execAll (exec : σ → η → Effect σ η) (callbacks : List η) (s : σ) : σ :=
  callbacks.foldl (fun s c => (exec s c).state) s

variable {left later : List η}

/-- **One event within an iteration.**  The callbacks that are left will do what they were going to do, and
what matters of those for later, in the sense of `f`, is added by other threads. -/
theorem Rest.step (h : Rest l left later) (he : e ≠ .iterate) (hstep : l.step exec e = some l')
    (f : η → Option β) (hf : ∀ s c, (exec s c).scheduled.filterMap f = []) :
    ∃ left' later', Rest l' left' later' ∧ execAll exec left' l'.state = execAll exec left l.state ∧
      later'.filterMap f = later.filterMap f ++ (e.added.bind f).toList := by
  cases e with
  | starts =>
      obtain ⟨-, hsome⟩ := Option.ite_none_right_eq_some.1 hstep
      cases hsome
      exact ⟨left, later, ⟨h.ready, h.todo⟩, rfl, (List.append_nil _).symm⟩
  | iterate => exact absurd rfl he
  | runCallback =>
      obtain ⟨todo, c, ready, htodo, hready, rfl⟩ := step_runCallback hstep
      cases left with
      | nil =>
          rw [h.todo] at htodo
          cases htodo
      | cons c' left =>
          obtain ⟨rfl, rfl⟩ := List.cons.inj (hready.symm.trans h.ready)
          refine ⟨left, later ++ (exec l.state c).scheduled, ⟨?_, ?_⟩, rfl, ?_⟩
          · exact List.append_assoc _ _ _
          · have hlen := htodo.symm.trans h.todo
            rw [List.length_cons] at hlen
            exact Nat.succ.inj hlen
          · rw [List.filterMap_append, hf]
            rfl
  | ends =>
      obtain ⟨-, hsome⟩ := Option.ite_none_right_eq_some.1 hstep
      cases hsome
      exact ⟨left, later, ⟨h.ready, h.todo⟩, rfl, (List.append_nil _).symm⟩
  | callSoon c =>
      cases hstep
      refine ⟨left, later ++ [c], ⟨?_, h.todo⟩, rfl, ?_⟩
      · change l.ready ++ [c] = left ++ (later ++ [c])
        rw [h.ready, List.append_assoc]
      · rw [List.filterMap_append, List.filterMap_cons, List.filterMap_nil]
        cases hc : f c <;> simp [LoopEvent.added, hc]

/-- **A run within an iteration.** -/
theorem Rest.run (h : Rest l left later) (hes : .iterate ∉ es) (hrun : run exec es l = some l')
    (f : η → Option β) (hf : ∀ s c, (exec s c).scheduled.filterMap f = []) :
    ∃ left' later', Rest l' left' later' ∧ execAll exec left' l'.state = execAll exec left l.state ∧
      later'.filterMap f = later.filterMap f ++ es.filterMap fun e => e.added.bind f := by
  induction es generalizing l left later with
  | nil =>
      cases hrun
      exact ⟨left, later, h, rfl, (List.append_nil _).symm⟩
  | cons e es ih =>
      rw [List.mem_cons, not_or] at hes
      obtain ⟨l₁, hstep, hrun⟩ := Option.bind_eq_some_iff.1 hrun
      obtain ⟨left₁, later₁, h₁, hexec₁, hlater₁⟩ := h.step (fun heq => hes.1 heq.symm) hstep f hf
      obtain ⟨left', later', h', hexec, hlater⟩ := ih h₁ hes.2 hrun
      refine ⟨left', later', h', hexec.trans hexec₁, ?_⟩
      rw [hlater, hlater₁, List.append_assoc, List.filterMap_cons]
      cases e.added.bind f <;> rfl

/-! ### The last iteration -/

/-- Before the first iteration, and after one that did not stop the loop, no callback is left to run. -/
structure Idle (l : EventLoop σ η) : Prop where
  todo : l.todo = 0
  stopping : l.stopping = false
  phase : l.phase ≠ .ended

/-- A new loop. -/
theorem Idle.new (s : σ) (ready : List η) : Idle (new s ready) := ⟨rfl, rfl, by simp [EventLoop.new]⟩

/-- Without a new iteration nothing runs. -/
theorem Idle.run (h : Idle l) (hes : .iterate ∉ es) (hrun : run exec es l = some l') : Idle l' := by
  induction es generalizing l with
  | nil =>
      cases hrun
      exact h
  | cons e es ih =>
      rw [List.mem_cons, not_or] at hes
      obtain ⟨l₁, hstep, hrun⟩ := Option.bind_eq_some_iff.1 hrun
      refine ih ?_ hes.2 hrun
      cases e with
      | starts =>
          obtain ⟨-, hsome⟩ := Option.ite_none_right_eq_some.1 hstep
          cases hsome
          exact ⟨h.todo, h.stopping, by simp⟩
      | iterate => exact absurd rfl hes.1
      | runCallback =>
          obtain ⟨todo, c, ready, htodo, -, -⟩ := step_runCallback hstep
          rw [h.todo] at htodo
          cases htodo
      | ends =>
          obtain ⟨⟨-, -, hstop⟩, -⟩ := Option.ite_none_right_eq_some.1 hstep
          rw [h.stopping] at hstop
          cases hstop
      | callSoon c =>
          cases hstep
          exact ⟨h.todo, h.stopping, h.phase⟩

/-- **A loop that ends has had an iteration.** -/
theorem iterate_mem (h : Idle l) (hrun : run exec es l = some l') (hended : l'.phase = .ended) :
    .iterate ∈ es := by
  by_contra hes
  exact (h.run hes hrun).phase hended

/-- A loop that has ended stays so. -/
theorem ended_run (h : l.phase = .ended) (hrun : run exec es l = some l') : l'.phase = .ended := by
  induction es generalizing l with
  | nil =>
      cases hrun
      exact h
  | cons e es ih =>
      obtain ⟨l₁, hstep, hrun⟩ := Option.bind_eq_some_iff.1 hrun
      refine ih ?_ hrun
      cases e with
      | starts =>
          obtain ⟨hphase, -⟩ := Option.ite_none_right_eq_some.1 hstep
          simp [h] at hphase
      | iterate =>
          obtain ⟨⟨hphase, -, -⟩, -⟩ := Option.ite_none_right_eq_some.1 hstep
          simp [h] at hphase
      | runCallback =>
          obtain ⟨todo, c, ready, -, -, rfl⟩ := step_runCallback hstep
          exact h
      | ends =>
          obtain ⟨⟨hphase, -, -⟩, -⟩ := Option.ite_none_right_eq_some.1 hstep
          simp [h] at hphase
      | callSoon c =>
          cases hstep
          exact h

/-- When the loop has ended, no callback is left of its last iteration. -/
theorem todo_of_ended (h : l.phase = .ended → l.todo = 0) (hrun : run exec es l = some l')
    (hended : l'.phase = .ended) : l'.todo = 0 := by
  induction es generalizing l with
  | nil =>
      cases hrun
      exact h hended
  | cons e es ih =>
      obtain ⟨l₁, hstep, hrun⟩ := Option.bind_eq_some_iff.1 hrun
      refine ih ?_ hrun
      cases e with
      | starts =>
          obtain ⟨-, hsome⟩ := Option.ite_none_right_eq_some.1 hstep
          cases hsome
          simp
      | iterate =>
          obtain ⟨⟨hphase, -, -⟩, hsome⟩ := Option.ite_none_right_eq_some.1 hstep
          cases hsome
          simp [hphase]
      | runCallback =>
          obtain ⟨todo, c, ready, htodo, -, rfl⟩ := step_runCallback hstep
          intro hphase
          rw [h hphase] at htodo
          cases htodo
      | ends =>
          obtain ⟨⟨-, htodo, -⟩, hsome⟩ := Option.ite_none_right_eq_some.1 hstep
          cases hsome
          exact fun _ => htodo
      | callSoon c =>
          cases hstep
          exact h

end EventLoop
