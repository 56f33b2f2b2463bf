/-
**The submission queue of an NVMe queue pair.**

GPU threads put their commands into a ring that the device reads.  A thread draws a ticket, which names its
slot, and waits for its turn there.  It copies the command, marks the slot, and then tries to become the one
that moves the tail: whoever takes the lock moves it over all the slots that are marked, and rings the
doorbell.  A slot is free for the next turn when its thread has left it and when a completion has told that
the device read it; both add one to the slot's turn counter, in either order.

Each atomic access is one step, and the steps of the threads, of the thread that works off completions and of
the device come in any order.  The counters are those of the code, 32 bits wide.

Main definitions:

* `InfiniKV.GeminiFS.SubmissionQueue.Queue` — the fields of `nvm_queue_t` that a submission queue uses;
* `InfiniKV.GeminiFS.SubmissionQueue.Thread` — a thread in `sq_enqueue`, with its local variables;
* `InfiniKV.GeminiFS.SubmissionQueue.Thread.step` — `sq_enqueue` and `move_tail`, access by access;
* `InfiniKV.GeminiFS.SubmissionQueue.Mover.step` — what `move_head_cq` does to the submission queue;
* `InfiniKV.GeminiFS.SubmissionQueue.step`, `InfiniKV.GeminiFS.SubmissionQueue.run` — the system.
-/

import Mathlib.Logic.Function.Basic
import Mathlib.Data.Nat.Notation
import Mathlib.Algebra.Group.Int.Defs
import Mathlib.Algebra.GroupWithZero.Nat

set_option relaxedAutoImplicit false
set_option autoImplicit false

namespace InfiniKV
namespace GeminiFS
namespace SubmissionQueue

/-! ### The state -/

/-- `nvm_queue_t`, as a submission queue: an entry is copied as two values of `copy_type`. -/
structure Queue (η : Type) where
  inTicket : ℕ
  tickets : ℕ → ℕ
  tailMark : ℕ → Bool
  tailLock : Bool
  tail : ℕ
  head : ℕ
  vaddr : ℕ → η × η
  db : ℕ

/-- Where in `sq_enqueue` a thread is: before which access. -/
inductive Stage where
  /-- The first loop on `tickets[pos]`, which loads with relaxed order. -/
  | waiting
  /-- The second loop on `tickets[pos]`, which loads with acquire order. -/
  | acquiring
  /-- `queue_loc[0] = cmd_[0]`. -/
  | copying
  /-- `queue_loc[1] = cmd_[1]`. -/
  | copyingSecond
  /-- `tail_mark[pos]` is about to be set. -/
  | marking
  /-- `cont = tail_mark[pos] == LOCKED`. -/
  | checking
  /-- The load of `tail_lock`. -/
  | peeking
  /-- The `fetch_or` on `tail_lock`. -/
  | grabbing
  /-- The load of `tail`. -/
  | loading
  /-- In `move_tail`, the comparison with `head`. -/
  | scanning
  /-- In `move_tail`, the exchange of `tail_mark`. -/
  | exchanging
  /-- The write to the doorbell. -/
  | ringing
  /-- The store of `tail`. -/
  | storing
  /-- The store of `tail_lock`. -/
  | unlocking
  /-- The `fetch_add` on `tickets[pos]`. -/
  | leaving
  deriving DecidableEq, Repr

/-- A thread in `sq_enqueue`.  `index` says how many commands came before its own; the code does not have
it. -/
structure Thread (η : Type) where
  stage : Stage
  ticket : ℕ
  cmd : η × η
  curTail : ℕ
  count : ℕ
  index : ℕ

/-- A thread in the loop of `move_head_cq` that gives slots free: how many completions it works off, the head
that the last of them tells, the slot it is at, and `sq_move_count`. -/
structure Mover where
  count : ℕ
  newSqHead : ℕ
  loc : ℕ
  sqMoveCount : ℕ

/-- The queue, the threads, and the device.  `posted` has, for each completion, how many commands the device
had fetched, `consumed` says how many of them were worked off, and `fetching` is the half of an entry which
the device has read.  The commands in `issued` are in the order of their tickets. -/
structure State (τ η : Type) where
  sq : Queue η
  threads : τ → Option (Thread η)
  mover : Option Mover
  posted : List ℕ
  consumed : ℕ
  fetching : Option η
  issued : List (η × η)
  fetched : List (η × η)

variable {τ η : Type}

/-- `nvm_queue_clear` and `init_gpu_specific_struct`: all counters and marks are zero, and the memory holds
anything. -/
def initial (memory : ℕ → η × η) : State τ η where
  sq := ⟨0, fun _ => 0, fun _ => false, false, 0, 0, memory, 0⟩
  threads := fun _ => none
  mover := none
  posted := []
  consumed := 0
  fetching := none
  issued := []
  fetched := []

/-! ### The steps of a thread -/

/-- `get_id`: `(x >> y) * 2`. -/
def getId (x y : ℕ) : ℕ := (x / 2 ^ y) * 2

/-- `ticket = in_ticket.fetch_add(1)`. -/
def draw (sq : Queue η) (index : ℕ) (cmd : η × η) : Queue η × Thread η :=
  ({ sq with inTicket := (sq.inTicket + 1) % 2 ^ 32 },
    { stage := .waiting, ticket := sq.inTicket, cmd := cmd, curTail := 0, count := 0, index := index })

/-- What follows in `sq_enqueue` when `move_tail` returns. -/
def Thread.moved (th : Thread η) : Thread η :=
  { th with stage := if th.count = 0 then .unlocking else .ringing }

/-- `new_tail = cur_tail + tail_move_count`. -/
def Thread.newTail (th : Thread η) : ℕ := (th.curTail + th.count) % 2 ^ 32

/-- `pos = ticket & qs_minus_1`. -/
def Thread.pos (log : ℕ) (th : Thread η) : ℕ := th.ticket % 2 ^ log

/-- The next access of a thread, on a queue of `2 ^ log` entries.  The thread is gone when it has returned. -/
def Thread.step (log : ℕ) (sq : Queue η) (th : Thread η) : Queue η × Option (Thread η) :=
  let pos := th.pos log
  match th.stage with
  | .waiting =>
      (sq, some (if sq.tickets pos = getId th.ticket log then { th with stage := .acquiring } else th))
  | .acquiring =>
      (sq, some (if sq.tickets pos = getId th.ticket log then { th with stage := .copying } else th))
  | .copying =>
      ({ sq with vaddr := Function.update sq.vaddr pos (th.cmd.1, (sq.vaddr pos).2) },
        some { th with stage := .copyingSecond })
  | .copyingSecond =>
      ({ sq with vaddr := Function.update sq.vaddr pos ((sq.vaddr pos).1, th.cmd.2) },
        some { th with stage := .marking })
  | .marking =>
      ({ sq with tailMark := Function.update sq.tailMark pos true }, some { th with stage := .checking })
  | .checking => (sq, some { th with stage := if sq.tailMark pos then .peeking else .leaving })
  | .peeking => (sq, some { th with stage := if sq.tailLock then .checking else .grabbing })
  | .grabbing =>
      ({ sq with tailLock := true }, some { th with stage := if sq.tailLock then .checking else .loading })
  | .loading => (sq, some { th with stage := .scanning, curTail := sq.tail, count := 0 })
  | .scanning =>
      (sq, some (if (th.curTail + th.count + 1) % 2 ^ log ≠ sq.head % 2 ^ log then
          { th with stage := .exchanging }
        else th.moved))
  | .exchanging =>
      let slot := (th.curTail + th.count) % 2 ^ log
      ({ sq with tailMark := Function.update sq.tailMark slot false },
        some (if sq.tailMark slot then { th with stage := .scanning, count := th.count + 1 } else th.moved))
  | .ringing => ({ sq with db := th.newTail % 2 ^ log }, some { th with stage := .storing })
  | .storing => ({ sq with tail := th.newTail }, some { th with stage := .unlocking })
  | .unlocking => ({ sq with tailLock := false }, some { th with stage := .checking })
  | .leaving =>
      ({ sq with tickets := Function.update sq.tickets pos ((sq.tickets pos + 1) % 2 ^ 32) }, none)

/-! ### The thread that works off completions -/

/-- `move_head_cq`, with `count` completions in a row whose marks were set: the head of the submission queue
that the last of them tells. -/
def Mover.start (log : ℕ) (sq : Queue η) (posted : List ℕ) (consumed count : ℕ) : Option Mover :=
  if count = 0 then none
  else (posted[consumed + count - 1]?).map fun head =>
    { count := count, newSqHead := head % 2 ^ log, loc := sq.head % 2 ^ log, sqMoveCount := 0 }

/-- The next access of `move_head_cq` to the submission queue: the turn of a slot is counted, or the head is
moved over all of them.  Nothing is added to the head where the loop has not run. -/
def Mover.step (log : ℕ) (sq : Queue η) (m : Mover) : Queue η × Option Mover :=
  if m.loc ≠ m.newSqHead then
    ({ sq with tickets := Function.update sq.tickets m.loc ((sq.tickets m.loc + 1) % 2 ^ 32) },
      some { m with loc := (m.loc + 1) % 2 ^ log, sqMoveCount := m.sqMoveCount + 1 })
  else ({ sq with head := (sq.head + m.sqMoveCount) % 2 ^ 32 }, none)

/-! ### The system -/

/-- A step of the system: a thread calls `sq_enqueue`, or makes its next access; the device reads half an
entry, or posts a completion; a thread has `count` completions before it in `move_head_cq`, or makes its next
access there. -/
inductive Action (τ η : Type) where
  | enqueue (t : τ) (cmd : η × η)
  | access (t : τ)
  | fetch
  | post
  | dequeue (count : ℕ)
  | move

/-- The device reads an entry while its own head is not at the doorbell, one half after the other. -/
def fetch (log : ℕ) (s : State τ η) : Option (State τ η) :=
  match s.fetching with
  | none =>
      if s.fetched.length % 2 ^ log = s.sq.db then none
      else some { s with fetching := some (s.sq.vaddr (s.fetched.length % 2 ^ log)).1 }
  | some first =>
      some { s with
        fetching := none
        fetched := s.fetched ++ [(first, (s.sq.vaddr (s.fetched.length % 2 ^ log)).2)] }

variable [DecidableEq τ]

/-- A step, where `none` stands for one that cannot be made: a thread is in `sq_enqueue` at most once, the
device posts a completion for a command it has fetched, and one thread at a time is in `move_head_cq`, which
the lock of the completion queue sees to. -/
def step (log : ℕ) (s : State τ η) : Action τ η → Option (State τ η)
  | .enqueue t cmd =>
      match s.threads t with
      | some _ => none
      | none =>
          let drawn := draw s.sq s.issued.length cmd
          some { s with
            sq := drawn.1
            threads := Function.update s.threads t (some drawn.2)
            issued := s.issued ++ [cmd] }
  | .access t => (s.threads t).map fun th =>
      let next := th.step log s.sq
      { s with sq := next.1, threads := Function.update s.threads t next.2 }
  | .fetch => fetch log s
  | .post =>
      if s.posted.length < s.fetched.length then
        some { s with posted := s.posted ++ [s.fetched.length] }
      else none
  | .dequeue count =>
      match s.mover with
      | some _ => none
      | none => (Mover.start log s.sq s.posted s.consumed count).map fun m => { s with mover := some m }
  | .move => s.mover.map fun m =>
      let next := m.step log s.sq
      { s with
        sq := next.1
        mover := next.2
        consumed := if next.2.isNone then s.consumed + m.count else s.consumed }

/-- A run of the system. -/
def run (log : ℕ) (s : State τ η) (actions : List (Action τ η)) : Option (State τ η) :=
  actions.foldlM (step log) s

end SubmissionQueue
end GeminiFS
end InfiniKV
