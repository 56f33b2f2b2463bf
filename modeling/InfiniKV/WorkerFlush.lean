/-
**The messages of a worker, when it is closed.**

A worker of the cluster has an event loop in a thread of its own.  A message is put into a queue by a callback
of the loop, and a task of the loop takes the messages from the queue, in batches, and hands them to a socket.
When the worker is closed, it puts the message that it deregisters, stops the loop, and waits for the thread.

The callback that puts a message only wakes the task: the task takes its next step in a later iteration.  So
if the loop is stopped in the iteration in which the last messages are put, they stay in the queue.

Main definitions:

* `InfiniKV.WorkerQueue`, `InfiniKV.WorkerCallback` — the queue with its task, and the callbacks;
* `InfiniKV.WorkerRun`, `InfiniKV.WorkerRun.step` — the loop and the threads that call the worker;
* `InfiniKV.WorkerRun.Flushed` — every message has been handed to the socket;
* `InfiniKV.WorkerRun.Drains` — a state whose callbacks empty the queue.

Main results:

* `InfiniKV.Conserved.run` — nothing is lost before the loop ends, and the order is kept;
* `InfiniKV.WorkerRun.lastIteration` — what is left after the last iteration;
* `InfiniKV.WorkerRun.flushed_iff` — **when every message has been handed over**.
-/

import InfiniKV.BatchedRequest
import InfiniKV.EventLoop

set_option relaxedAutoImplicit false
set_option autoImplicit false

namespace InfiniKV

/-! ### The queue and its task -/

/-- What an `InfiniKVWorker` tells the controller about itself. -/
structure InfiniKVWorker where
  infinikvInstanceId : String
  workerId : ℤ
  infinikvWorkerIp : String
  infinikvWorkerPort : ℤ

/-- The message of `register`. -/
def InfiniKVWorker.registerMsg (w : InfiniKVWorker) : WorkerMsg :=
  .register ⟨w.infinikvInstanceId, w.workerId, w.infinikvWorkerIp, w.infinikvWorkerPort⟩

/-- The message of `deregister`. -/
def InfiniKVWorker.deregisterMsg (w : InfiniKVWorker) : WorkerMsg :=
  .deregister ⟨w.infinikvInstanceId, w.workerId, w.infinikvWorkerIp, w.infinikvWorkerPort⟩

/-- The queue of messages, whether the task waits for one, and what has been handed to
`push_socket.send_multipart`. -/
structure WorkerQueue where
  msgQueue : List WorkerMsg
  waiting : Bool
  handed : List (List MsgPart)

/-- The callbacks of the loop: those that start the tasks, a step of the task that pushes, a message that is
put, `loop.stop`, and anything else, such as what concerns the other task. -/
inductive WorkerCallback where
  | startAll
  | startAllStep
  | pushStep
  | putNowait (msg : WorkerMsg)
  | stop
  | other
  deriving DecidableEq

/-- The message that a callback puts. -/
def WorkerCallback.msg : WorkerCallback → Option WorkerMsg
  | .putNowait msg => some msg
  | _ => none

/-- `batched_get_msg`, when there is a message: a batch, and what is left of the queue. -/
def batchedGetMsg (msgQueue : List WorkerMsg) : List WorkerMsg × List WorkerMsg :=
  let maxBsz := 50
  (msgQueue.take maxBsz, msgQueue.drop maxBsz)

/-- The loop of `push`, as long as there are messages.  A batch with a message that cannot be encoded is
dropped. -/
def pushBatches (encode : WorkerMsg → Except PyError MsgPart) : ℕ → List WorkerMsg → List (List MsgPart)
  | 0, _ => []
  | _ + 1, [] => []
  | fuel + 1, msg :: msgs =>
      let batch := batchedGetMsg (msg :: msgs)
      match batch.1.mapM encode with
      | .ok parts => parts :: pushBatches encode fuel batch.2
      | .error _ => pushBatches encode fuel batch.2

/-- What a callback does.  A message that is put wakes the task if it waits, which schedules its next step;
and a step of the task does not end before the queue is empty. -/
def workerExec (encode : WorkerMsg → Except PyError MsgPart) (q : WorkerQueue) :
    WorkerCallback → Effect WorkerQueue WorkerCallback
  | .startAll => ⟨q, [.startAllStep], false⟩
  | .startAllStep => ⟨q, [.pushStep, .other], false⟩
  | .pushStep =>
      ⟨⟨[], true, q.handed ++ pushBatches encode q.msgQueue.length q.msgQueue⟩, [], false⟩
  | .putNowait msg =>
      ⟨{ q with msgQueue := q.msgQueue ++ [msg], waiting := false },
        if q.waiting then [.pushStep] else [], false⟩
  | .stop => ⟨q, [], true⟩
  | .other => ⟨q, [], false⟩

/-! ### Runs -/

/-- Where the thread is that makes the worker and closes it. -/
inductive CallerPhase where
  | starting
  | serving
  | deregistered
  | stopCalled
  | returned
  deriving DecidableEq

/-- The loop, the thread that makes the worker and closes it, and the messages that were passed to `put_msg`
before `close` returned. -/
structure WorkerRun where
  loop : EventLoop WorkerQueue WorkerCallback
  caller : CallerPhase
  put : List WorkerMsg

/-- What can happen: something in the thread of the loop, or a call from another thread.  Closing has three
parts. -/
inductive WorkerEvent where
  | loopStarts
  | iterate
  | runCallback
  | loopEnds
  | external
  | register
  | putMsg (msg : WorkerMsg)
  | closeDeregister
  | closeStop
  | closeReturns
  deriving DecidableEq

/-- The message that is put by an event. -/
def WorkerEvent.msg (worker : InfiniKVWorker) : WorkerEvent → Option WorkerMsg
  | .register => some worker.registerMsg
  | .putMsg msg => some msg
  | .closeDeregister => some worker.deregisterMsg
  | _ => none

namespace WorkerRun

variable (worker : InfiniKVWorker) (encode : WorkerMsg → Except PyError MsgPart)

/-- The worker has just been made: the callback that starts the tasks has been scheduled. -/
def init : WorkerRun := ⟨.new ⟨[], false, []⟩ [.startAll], .starting, []⟩

/-- `put_msg`. -/
def putMsg (s : WorkerRun) (msg : WorkerMsg) : WorkerRun :=
  { s with
    loop := { s.loop with ready := s.loop.ready ++ [.putNowait msg] }
    put := s.put ++ [msg] }

/-- Something happens in the loop. -/
def onLoop (s : WorkerRun) (e : LoopEvent WorkerCallback) : Option WorkerRun :=
  (s.loop.step (workerExec encode) e).map fun loop => { s with loop := loop }

/-- **An event**, if it can happen.  The loop is only stopped if it runs; and `close` returns after the thread
has ended. -/
def step (s : WorkerRun) : WorkerEvent → Option WorkerRun
  | .loopStarts => s.onLoop encode .starts
  | .iterate => s.onLoop encode .iterate
  | .runCallback => s.onLoop encode .runCallback
  | .loopEnds => s.onLoop encode .ends
  | .external => s.onLoop encode (.callSoon .other)
  | .register =>
      if s.caller = .starting then some { s.putMsg worker.registerMsg with caller := .serving } else none
  | .putMsg msg => if s.caller = .starting ∨ s.caller = .returned then none else some (s.putMsg msg)
  | .closeDeregister =>
      if s.caller = .serving then some { s.putMsg worker.deregisterMsg with caller := .deregistered }
      else none
  | .closeStop =>
      if s.caller = .deregistered then
        some { s with
          loop := if s.loop.phase = .running then { s.loop with ready := s.loop.ready ++ [.stop] } else s.loop
          caller := .stopCalled }
      else none
  | .closeReturns =>
      if s.caller = .stopCalled ∧ s.loop.phase = .ended then some { s with caller := .returned } else none

/-- Events, one after the other. -/
def run : List WorkerEvent → WorkerRun → Option WorkerRun
  | [], s => some s
  | e :: es, s => s.step worker encode e >>= run es

/-- **Every message has been handed over**, once and in the order in which they were put. -/
def Flushed (s : WorkerRun) : Prop :=
  s.loop.state.handed.flatten.map Except.ok = s.put.map encode

/-- **A state whose callbacks empty the queue**: a step of the task comes after all messages that are put, or
there is nothing to hand over. -/
def Drains (s : WorkerRun) : Prop :=
  (∃ before after, s.loop.ready = before ++ .pushStep :: after ∧ ∀ msg, .putNowait msg ∉ after) ∨
    s.loop.state.msgQueue = [] ∧ ∀ msg, .putNowait msg ∉ s.loop.ready

end WorkerRun

/-! ### Batches -/

variable {worker : InfiniKVWorker} {encode : WorkerMsg → Except PyError MsgPart}

/-- A batch whose messages can be encoded. -/
theorem mapM_encode {msgs : List WorkerMsg} (h : ∀ msg ∈ msgs, ∃ part, encode msg = .ok part) :
    ∃ parts, msgs.mapM encode = .ok parts ∧ parts.map Except.ok = msgs.map encode := by
  induction msgs with
  | nil => exact ⟨[], rfl, rfl⟩
  | cons msg msgs ih =>
      obtain ⟨⟨part, hpart⟩, hmsgs⟩ := List.forall_mem_cons.1 h
      obtain ⟨parts, hparts, hmap⟩ := ih hmsgs
      refine ⟨part :: parts, ?_, ?_⟩
      · rw [List.mapM_cons, hpart, hparts]
        rfl
      · rw [List.map_cons, List.map_cons, hmap, hpart]

/-- **A step of the task hands over the queue**, batch by batch. -/
theorem flatten_pushBatches {msgs : List WorkerMsg} (h : ∀ msg ∈ msgs, ∃ part, encode msg = .ok part)
    {fuel : ℕ} (hfuel : msgs.length ≤ fuel) :
    (pushBatches encode fuel msgs).flatten.map Except.ok = msgs.map encode := by
  induction fuel generalizing msgs with
  | zero =>
      rw [List.length_eq_zero_iff.1 (Nat.le_zero.1 hfuel)]
      rfl
  | succ fuel ih =>
      cases msgs with
      | nil => rfl
      | cons msg msgs =>
          have hbatch : ∀ m ∈ (batchedGetMsg (msg :: msgs)).1, ∃ part, encode m = .ok part :=
            fun m hm => h m (List.mem_of_mem_take hm)
          have hleft : ∀ m ∈ (batchedGetMsg (msg :: msgs)).2, ∃ part, encode m = .ok part :=
            fun m hm => h m (List.mem_of_mem_drop hm)
          obtain ⟨parts, hparts, hmap⟩ := mapM_encode hbatch
          have hrest := ih hleft (by
            simp only [batchedGetMsg, List.length_drop, List.length_cons] at hfuel ⊢
            omega)
          rw [pushBatches]
          simp only [hparts, List.flatten_cons, List.map_append, hmap, hrest]
          rw [← List.map_append]
          exact congrArg (List.map encode) (List.take_append_drop 50 (msg :: msgs))

/-! ### Nothing is lost before the loop ends -/

/-- What has been handed over, what is in the queue, and what is to be put, are the messages that were
passed to `put_msg`. -/
def Conserved (encode : WorkerMsg → Except PyError MsgPart) (l : EventLoop WorkerQueue WorkerCallback)
    (put : List WorkerMsg) : Prop :=
  l.state.handed.flatten.map Except.ok ++
      (l.state.msgQueue ++ l.ready.filterMap WorkerCallback.msg).map encode = put.map encode

/-- No callback schedules a message to be put. -/
theorem scheduled_workerExec (q : WorkerQueue) (c : WorkerCallback) :
    (workerExec encode q c).scheduled.filterMap WorkerCallback.msg = [] := by
  cases c with
  | putNowait msg => cases hwaiting : q.waiting <;> simp [workerExec, hwaiting, WorkerCallback.msg]
  | _ => rfl

/-- What a callback takes from the queue it hands over. -/
theorem state_workerExec {q : WorkerQueue}
    (hq : ∀ msg ∈ q.msgQueue, ∃ part, encode msg = .ok part) (c : WorkerCallback) :
    (workerExec encode q c).state.handed.flatten.map Except.ok ++
        (workerExec encode q c).state.msgQueue.map encode =
      q.handed.flatten.map Except.ok ++ (q.msgQueue ++ c.msg.toList).map encode := by
  cases c with
  | pushStep =>
      have hpush := flatten_pushBatches hq le_rfl
      have hnone : WorkerCallback.pushStep.msg = none := rfl
      rw [workerExec, List.flatten_append, List.map_append, hpush, hnone]
      simp
  | putNowait msg => rfl
  | startAll => simp [workerExec, WorkerCallback.msg]
  | startAllStep => simp [workerExec, WorkerCallback.msg]
  | stop => simp [workerExec, WorkerCallback.msg]
  | other => simp [workerExec, WorkerCallback.msg]

/-! ### The queue at the end of an iteration -/

/-- What is in the queue after callbacks. -/
def leftOver : List WorkerMsg → List WorkerCallback → List WorkerMsg
  | msgQueue, [] => msgQueue
  | _, .pushStep :: cs => leftOver [] cs
  | msgQueue, c :: cs => leftOver (msgQueue ++ c.msg.toList) cs

theorem leftOver_cons {c : WorkerCallback} (hc : c ≠ .pushStep) (msgQueue : List WorkerMsg)
    (cs : List WorkerCallback) : leftOver msgQueue (c :: cs) = leftOver (msgQueue ++ c.msg.toList) cs := by
  cases c with
  | pushStep => exact absurd rfl hc
  | _ => rfl

/-- The queue does not depend on what is handed over. -/
theorem msgQueue_execAll (cs : List WorkerCallback) (q : WorkerQueue) :
    (EventLoop.execAll (workerExec encode) cs q).msgQueue = leftOver q.msgQueue cs := by
  induction cs generalizing q with
  | nil => rfl
  | cons c cs ih =>
      refine (ih (workerExec encode q c).state).trans ?_
      cases c with
      | pushStep => rfl
      | putNowait msg => rfl
      | _ => exact congrArg (leftOver · cs) (List.append_nil _).symm

/-- **When the callbacks empty the queue.** -/
theorem leftOver_eq_nil_iff (cs : List WorkerCallback) (msgQueue : List WorkerMsg) :
    leftOver msgQueue cs = [] ↔
      (∃ before after, cs = before ++ .pushStep :: after ∧ ∀ msg, .putNowait msg ∉ after) ∨
        msgQueue = [] ∧ ∀ msg, .putNowait msg ∉ cs := by
  induction cs generalizing msgQueue with
  | nil => simp [leftOver]
  | cons c cs ih =>
      by_cases hc : c = .pushStep
      · subst hc
        rw [leftOver, ih]
        constructor
        · rintro (⟨before, after, rfl, hafter⟩ | ⟨-, hcs⟩)
          · exact .inl ⟨.pushStep :: before, after, rfl, hafter⟩
          · exact .inl ⟨[], cs, rfl, hcs⟩
        · rintro (⟨before, after, heq, hafter⟩ | ⟨-, hcs⟩)
          · cases before with
            | nil => exact .inr ⟨rfl, (List.cons.inj heq).2 ▸ hafter⟩
            | cons c before => exact .inl ⟨before, after, (List.cons.inj heq).2, hafter⟩
          · exact .inr ⟨rfl, fun msg hmsg => hcs msg (List.mem_cons_of_mem _ hmsg)⟩
      · -- the step that empties the queue, if there is one, comes later
        have hmsg : c.msg.toList = [] ↔ ∀ msg, .putNowait msg ≠ c := by
          cases c <;> simp [WorkerCallback.msg]
        have hqueue : msgQueue ++ c.msg.toList = [] ∧ (∀ msg, .putNowait msg ∉ cs) ↔
            msgQueue = [] ∧ ∀ msg, .putNowait msg ∉ c :: cs := by
          simp only [List.append_eq_nil_iff, hmsg, List.mem_cons, not_or, forall_and, and_assoc, ne_eq]
        rw [leftOver_cons hc, ih, hqueue]
        refine or_congr_left ⟨?_, ?_⟩
        · rintro ⟨before, after, rfl, hafter⟩
          exact ⟨c :: before, after, rfl, hafter⟩
        · rintro ⟨before, after, heq, hafter⟩
          cases before with
          | nil => exact absurd (List.cons.inj heq).1 hc
          | cons c before => exact ⟨before, after, (List.cons.inj heq).2, hafter⟩

namespace Conserved

variable {l l' : EventLoop WorkerQueue WorkerCallback} {put : List WorkerMsg}
  {le : LoopEvent WorkerCallback} {les : List (LoopEvent WorkerCallback)}

/-- The messages in the queue were put. -/
theorem encodable (h : Conserved encode l put) (hput : ∀ msg ∈ put, ∃ part, encode msg = .ok part) :
    ∀ msg ∈ l.state.msgQueue, ∃ part, encode msg = .ok part := by
  intro msg hmsg
  have hmem : encode msg ∈ put.map encode := by
    rw [← h]
    exact List.mem_append_right _ (List.mem_map_of_mem (List.mem_append_left _ hmsg))
  obtain ⟨msg', hmsg', heq⟩ := List.mem_map.1 hmem
  rw [← heq]
  exact hput msg' hmsg'

/-- **One event of the loop** loses no message, if the messages can be encoded. -/
theorem step (h : Conserved encode l put) (hput : ∀ msg ∈ put, ∃ part, encode msg = .ok part)
    (hstep : l.step (workerExec encode) le = some l') :
    Conserved encode l' (put ++ (le.added.bind WorkerCallback.msg).toList) := by
  cases le with
  | starts =>
      obtain ⟨-, hsome⟩ := Option.ite_none_right_eq_some.1 hstep
      cases hsome
      exact (List.append_nil put).symm ▸ h
  | iterate =>
      obtain ⟨-, hsome⟩ := Option.ite_none_right_eq_some.1 hstep
      cases hsome
      exact (List.append_nil put).symm ▸ h
  | ends =>
      obtain ⟨-, hsome⟩ := Option.ite_none_right_eq_some.1 hstep
      cases hsome
      exact (List.append_nil put).symm ▸ h
  | runCallback =>
      obtain ⟨todo, c, ready, -, hready, rfl⟩ := EventLoop.step_runCallback hstep
      have hstate := state_workerExec (h.encodable hput) c
      have hcons : (c :: ready).filterMap WorkerCallback.msg =
          c.msg.toList ++ ready.filterMap WorkerCallback.msg := by
        rw [List.filterMap_cons]
        cases c.msg <;> rfl
      rw [Conserved, hready, hcons] at h
      have hput' : put ++ ((LoopEvent.runCallback : LoopEvent WorkerCallback).added.bind
          WorkerCallback.msg).toList = put := List.append_nil put
      rw [Conserved, hput', ← h, List.filterMap_append, scheduled_workerExec, List.append_nil,
        List.map_append, ← List.append_assoc, hstate]
      simp only [List.map_append, List.append_assoc]
  | callSoon c =>
      cases hstep
      have hsingle : [c].filterMap WorkerCallback.msg = c.msg.toList := by
        rw [List.filterMap_cons]
        cases c.msg <;> rfl
      rw [Conserved] at h ⊢
      dsimp only [LoopEvent.added, Option.bind_some]
      rw [List.filterMap_append, hsingle, ← List.append_assoc, List.map_append, ← List.append_assoc, h,
        List.map_append]

/-- **Any events of the loop** lose no message. -/
theorem run (h : Conserved encode l put) (hrun : EventLoop.run (workerExec encode) les l = some l')
    (hput : ∀ msg ∈ put ++ les.filterMap (fun le => le.added.bind WorkerCallback.msg),
      ∃ part, encode msg = .ok part) :
    Conserved encode l' (put ++ les.filterMap fun le => le.added.bind WorkerCallback.msg) := by
  induction les generalizing l put with
  | nil =>
      cases hrun
      exact (List.append_nil put).symm ▸ h
  | cons le les ih =>
      obtain ⟨l₁, hstep, hrun⟩ := Option.bind_eq_some_iff.1 hrun
      have hcons : put ++ (le :: les).filterMap (fun le => le.added.bind WorkerCallback.msg) =
          (put ++ (le.added.bind WorkerCallback.msg).toList) ++
            les.filterMap fun le => le.added.bind WorkerCallback.msg := by
        rw [List.filterMap_cons, List.append_assoc]
        cases le.added.bind WorkerCallback.msg <;> rfl
      rw [hcons] at hput ⊢
      exact ih (h.step (fun msg hmsg => hput msg (by simp [hmsg])) hstep) hrun hput

end Conserved

namespace WorkerRun

variable {s s' : WorkerRun} {e : WorkerEvent} {events events₁ events₂ : List WorkerEvent}

/-! ### The loop and its callers -/

/-- What an event does in the loop. -/
def loopEvents (worker : InfiniKVWorker) (s : WorkerRun) : WorkerEvent → List (LoopEvent WorkerCallback)
  | .loopStarts => [.starts]
  | .iterate => [.iterate]
  | .runCallback => [.runCallback]
  | .loopEnds => [.ends]
  | .external => [.callSoon .other]
  | .register => [.callSoon (.putNowait worker.registerMsg)]
  | .putMsg msg => [.callSoon (.putNowait msg)]
  | .closeDeregister => [.callSoon (.putNowait worker.deregisterMsg)]
  | .closeStop => if s.loop.phase = .running then [.callSoon .stop] else []
  | .closeReturns => []

/-- **What an event does**: the loop takes part in it, and its message is put. -/
theorem step_cases (hstep : s.step worker encode e = some s') :
    EventLoop.run (workerExec encode) (loopEvents worker s e) s.loop = some s'.loop ∧
      s'.put = s.put ++ (e.msg worker).toList := by
  cases e with
  | register =>
      obtain ⟨-, hsome⟩ := Option.ite_none_right_eq_some.1 hstep
      cases hsome
      exact ⟨rfl, rfl⟩
  | putMsg msg =>
      obtain ⟨-, hsome⟩ := Option.ite_none_left_eq_some.1 hstep
      cases hsome
      exact ⟨rfl, rfl⟩
  | closeDeregister =>
      obtain ⟨-, hsome⟩ := Option.ite_none_right_eq_some.1 hstep
      cases hsome
      exact ⟨rfl, rfl⟩
  | closeStop =>
      obtain ⟨-, hsome⟩ := Option.ite_none_right_eq_some.1 hstep
      cases hsome
      refine ⟨?_, (List.append_nil _).symm⟩
      rw [loopEvents]
      by_cases hphase : s.loop.phase = .running
      · simp only [if_pos hphase]
        rfl
      · simp only [if_neg hphase]
        rfl
  | closeReturns =>
      obtain ⟨-, hsome⟩ := Option.ite_none_right_eq_some.1 hstep
      cases hsome
      exact ⟨rfl, (List.append_nil _).symm⟩
  | external =>
      cases hstep
      exact ⟨rfl, (List.append_nil _).symm⟩
  | _ =>
      obtain ⟨loop, hloop, rfl⟩ := Option.map_eq_some_iff.1 hstep
      exact ⟨Option.bind_eq_some_iff.2 ⟨loop, hloop, rfl⟩, (List.append_nil _).symm⟩

/-- The messages that are put by an event, in the loop. -/
theorem msg_loopEvents (s : WorkerRun) (e : WorkerEvent) :
    (loopEvents worker s e).filterMap (fun le => le.added.bind WorkerCallback.msg) =
      (e.msg worker).toList := by
  cases e with
  | closeStop =>
      rw [loopEvents]
      split_ifs <;> rfl
  | _ => rfl

theorem iterate_loopEvents (h : .iterate ∈ loopEvents worker s e) : e = .iterate := by
  cases e with
  | iterate => rfl
  | closeStop =>
      rw [loopEvents] at h
      split_ifs at h
      · simp at h
      · simp at h
  | _ => simp [loopEvents] at h

/-- **What a run does.** -/
theorem run_cases (hrun : run worker encode events s = some s') :
    ∃ les, EventLoop.run (workerExec encode) les s.loop = some s'.loop ∧
      (.iterate ∈ les → .iterate ∈ events) ∧
      les.filterMap (fun le => le.added.bind WorkerCallback.msg) =
        events.filterMap (WorkerEvent.msg worker) ∧
      s'.put = s.put ++ events.filterMap (WorkerEvent.msg worker) := by
  induction events generalizing s with
  | nil =>
      cases hrun
      exact ⟨[], rfl, by simp, rfl, (List.append_nil _).symm⟩
  | cons e events ih =>
      obtain ⟨s₁, hstep, hrun⟩ := Option.bind_eq_some_iff.1 hrun
      obtain ⟨hloop, hput₁⟩ := step_cases hstep
      obtain ⟨les, hles, hiter, hmsgs, hput⟩ := ih hrun
      have hcons : (e :: events).filterMap (WorkerEvent.msg worker) =
          (e.msg worker).toList ++ events.filterMap (WorkerEvent.msg worker) := by
        rw [List.filterMap_cons]
        cases e.msg worker <;> rfl
      refine ⟨loopEvents worker s e ++ les, ?_, ?_, ?_, ?_⟩
      · rw [EventLoop.run_append, hloop]
        exact hles
      · intro hmem
        rcases List.mem_append.1 hmem with hmem | hmem
        · rw [iterate_loopEvents hmem]
          exact List.mem_cons_self
        · exact List.mem_cons_of_mem _ (hiter hmem)
      · rw [List.filterMap_append, msg_loopEvents, hmsgs, hcons]
      · rw [hput, hput₁, hcons, List.append_assoc]

/-- Events one after the other, cut into two. -/
theorem run_append : run worker encode (events₁ ++ events₂) s =
    run worker encode events₁ s >>= run worker encode events₂ := by
  induction events₁ generalizing s with
  | nil => rfl
  | cons e events₁ ih =>
      change (s.step worker encode e >>= run worker encode (events₁ ++ events₂)) =
        (s.step worker encode e >>= run worker encode events₁) >>= run worker encode events₂
      cases s.step worker encode e with
      | none => rfl
      | some s₁ => exact ih

/-- `close` waits for the thread of the loop. -/
theorem ended_of_returned (h : s.caller = .returned → s.loop.phase = .ended)
    (hrun : run worker encode events s = some s') : s'.caller = .returned → s'.loop.phase = .ended := by
  induction events generalizing s with
  | nil =>
      cases hrun
      exact h
  | cons e events ih =>
      obtain ⟨s₁, hstep, hrun⟩ := Option.bind_eq_some_iff.1 hrun
      refine ih ?_ hrun
      have hloop := (step_cases hstep).1
      cases e with
      | register =>
          obtain ⟨-, hsome⟩ := Option.ite_none_right_eq_some.1 hstep
          cases hsome
          simp
      | putMsg msg =>
          obtain ⟨hcaller, hsome⟩ := Option.ite_none_left_eq_some.1 hstep
          cases hsome
          exact fun hret => absurd (.inr hret) hcaller
      | closeDeregister =>
          obtain ⟨-, hsome⟩ := Option.ite_none_right_eq_some.1 hstep
          cases hsome
          simp
      | closeStop =>
          obtain ⟨-, hsome⟩ := Option.ite_none_right_eq_some.1 hstep
          cases hsome
          simp
      | closeReturns =>
          obtain ⟨⟨-, hended⟩, hsome⟩ := Option.ite_none_right_eq_some.1 hstep
          cases hsome
          exact fun _ => hended
      | external =>
          cases hstep
          exact h
      | _ =>
          obtain ⟨loop, -, rfl⟩ := Option.map_eq_some_iff.1 hstep
          exact fun hret => EventLoop.ended_run (h hret) hloop

/-! ### The last iteration -/

/-- **What is left after the last iteration**: what its callbacks left in the queue, and the messages that
were put after it began. -/
theorem lastIteration {s₁ : WorkerRun} (hrun₁ : run worker encode events₁ init = some s₁)
    (hrun : run worker encode (events₁ ++ .iterate :: events₂) init = some s) (hlast : .iterate ∉ events₂)
    (hended : s.loop.phase = .ended) :
    s.loop.state.msgQueue = leftOver s₁.loop.state.msgQueue s₁.loop.ready ∧
      s.loop.ready.filterMap WorkerCallback.msg = events₂.filterMap (WorkerEvent.msg worker) := by
  -- all callbacks of the iteration have run
  obtain ⟨les, hles, -, -, -⟩ := run_cases hrun
  have htodo := EventLoop.todo_of_ended (fun _ => rfl) hles hended
  -- the iteration begins with the callbacks that are ready in `s₁`
  have hrun₁₂ : run worker encode (.iterate :: events₂) s₁ = some s := by
    rw [run_append, hrun₁] at hrun
    exact hrun
  obtain ⟨s₂, hstep, hrun₂⟩ := Option.bind_eq_some_iff.1 hrun₁₂
  obtain ⟨loop₂, hloop₂, rfl⟩ := Option.map_eq_some_iff.1 hstep
  obtain ⟨-, hsome⟩ := Option.ite_none_right_eq_some.1 hloop₂
  cases hsome
  have hrest : EventLoop.Rest { s₁.loop with todo := s₁.loop.ready.length } s₁.loop.ready [] :=
    ⟨(List.append_nil _).symm, rfl⟩
  obtain ⟨les₂, hles₂, hiter, hmsgs, -⟩ := run_cases hrun₂
  obtain ⟨left, later, hend, hexec, hlater⟩ :=
    hrest.run (fun hmem => hlast (hiter hmem)) hles₂ WorkerCallback.msg scheduled_workerExec
  have hleft : left = [] := List.length_eq_zero_iff.1 (hend.todo.symm.trans htodo)
  subst hleft
  constructor
  · rw [← msgQueue_execAll, ← hexec]
    rfl
  · rw [hend.ready, List.nil_append, hlater, hmsgs]
    rfl

/-- A loop that has ended had a last iteration. -/
theorem exists_lastIteration (hrun : run worker encode events init = some s)
    (hended : s.loop.phase = .ended) :
    ∃ events₁ events₂ s₁, events = events₁ ++ .iterate :: events₂ ∧ .iterate ∉ events₂ ∧
      run worker encode events₁ init = some s₁ := by
  obtain ⟨les, hles, hiter, -, -⟩ := run_cases hrun
  have hmem := hiter (EventLoop.iterate_mem (EventLoop.Idle.new _ _) hles hended)
  obtain ⟨after, before, heq, hafter⟩ := List.eq_append_cons_of_mem (List.mem_reverse.2 hmem)
  have hevents : events = before.reverse ++ .iterate :: after.reverse := by
    have hrev := congrArg List.reverse heq
    simpa using hrev
  rw [hevents, run_append] at hrun
  obtain ⟨s₁, hrun₁, -⟩ := Option.bind_eq_some_iff.1 hrun
  exact ⟨before.reverse, after.reverse, s₁, hevents, fun h => hafter (List.mem_reverse.1 h), hrun₁⟩

/-- Nothing is lost in a run, if the messages can be encoded. -/
theorem conserved_of_run (hrun : run worker encode events init = some s)
    (hput : ∀ msg ∈ s.put, ∃ part, encode msg = .ok part) : Conserved encode s.loop s.put := by
  obtain ⟨les, hles, -, hmsgs, hs⟩ := run_cases hrun
  have hinit : Conserved encode (init : WorkerRun).loop [] := rfl
  rw [hs, ← hmsgs] at hput ⊢
  exact hinit.run hles hput

/-- The callbacks of a state empty its queue. -/
theorem drains_iff {s : WorkerRun} : s.Drains ↔ leftOver s.loop.state.msgQueue s.loop.ready = [] :=
  (leftOver_eq_nil_iff _ _).symm

/-- **When every message has been handed over**, once and in the order in which they were put, by the time
`close` returns: the messages can be encoded, the callbacks that are ready when the last iteration begins
empty the queue, and no message is put after that. -/
theorem flushed_iff (hrun : run worker encode events init = some s) (hreturned : s.caller = .returned) :
    Flushed encode s ↔
      (∀ msg ∈ s.put, ∃ part, encode msg = .ok part) ∧
        ∃ (events₁ events₂ : List WorkerEvent) (s₁ : WorkerRun), events = events₁ ++ .iterate :: events₂ ∧
          .iterate ∉ events₂ ∧ run worker encode events₁ init = some s₁ ∧ s₁.Drains ∧
          ∀ e ∈ events₂, e.msg worker = none := by
  have hended : s.loop.phase = .ended := ended_of_returned (by simp [init]) hrun hreturned
  constructor
  · intro hflushed
    have hput : ∀ msg ∈ s.put, ∃ part, encode msg = .ok part := by
      intro msg hmsg
      have hmem : encode msg ∈ s.loop.state.handed.flatten.map Except.ok := by
        rw [hflushed]
        exact List.mem_map_of_mem hmsg
      obtain ⟨part, -, hpart⟩ := List.mem_map.1 hmem
      exact ⟨part, hpart.symm⟩
    have hconserved := conserved_of_run hrun hput
    rw [Conserved, hflushed, List.append_right_eq_self, List.map_eq_nil_iff,
      List.append_eq_nil_iff] at hconserved
    obtain ⟨hqueue, hready⟩ := hconserved
    obtain ⟨events₁, events₂, s₁, rfl, hlast, hrun₁⟩ := exists_lastIteration hrun hended
    obtain ⟨hleft, hlater⟩ := lastIteration hrun₁ hrun hlast hended
    refine ⟨hput, events₁, events₂, s₁, rfl, hlast, hrun₁, ?_, ?_⟩
    · exact drains_iff.2 (hleft.symm.trans hqueue)
    · exact List.filterMap_eq_nil_iff.1 (hlater.symm.trans hready)
  · rintro ⟨hput, events₁, events₂, s₁, rfl, hlast, hrun₁, hdrains, hnone⟩
    have hconserved := conserved_of_run hrun hput
    obtain ⟨hleft, hlater⟩ := lastIteration hrun₁ hrun hlast hended
    rw [Conserved, hleft, drains_iff.1 hdrains, hlater, List.filterMap_eq_nil_iff.2 hnone] at hconserved
    simpa [Flushed] using hconserved

end WorkerRun

/-! ### Two ways to close a worker -/

/-- A short string in MessagePack. -/
def packStr (s : String) : MsgPart := UInt8.ofNat (0xa0 + s.length) :: Sha256.asciiBytes s.toList

/-- A small natural number in MessagePack. -/
def packInt (n : ℤ) : MsgPart := [UInt8.ofNat n.toNat]

/-- A message in MessagePack: a map, with its type first. -/
def packMsg (type : String) (fields : List (String × MsgPart)) : MsgPart :=
  UInt8.ofNat (0x81 + fields.length) ::
    (packStr "type" ++ packStr type ++ (fields.map fun field => packStr field.1 ++ field.2).flatten)

/-- Messages with short texts and small numbers. -/
def packWorkerMsg : WorkerMsg → Except PyError MsgPart
  | .register ⟨instanceId, workerId, ip, port⟩ =>
      .ok (packMsg "RegisterMsg" [("instance_id", packStr instanceId), ("worker_id", packInt workerId),
        ("ip", packStr ip), ("port", packInt port)])
  | .deregister ⟨instanceId, workerId, ip, port⟩ =>
      .ok (packMsg "DeRegisterMsg" [("instance_id", packStr instanceId), ("worker_id", packInt workerId),
        ("ip", packStr ip), ("port", packInt port)])
  | .kvAdmit ⟨instanceId, workerId, key, location⟩ =>
      .ok (packMsg "KVAdmitMsg" [("instance_id", packStr instanceId), ("worker_id", packInt workerId),
        ("key", packStr key), ("location", packStr location)])
  | .kvEvict ⟨instanceId, workerId, key, location⟩ =>
      .ok (packMsg "KVEvictMsg" [("instance_id", packStr instanceId), ("worker_id", packInt workerId),
        ("key", packStr key), ("location", packStr location)])

/-- A worker. -/
def closingWorker : InfiniKVWorker := ⟨"a", 0, "127.0.0.1", 80⟩

/-- The worker registers, and its loop comes to rest. -/
def registering : List WorkerEvent :=
  [.loopStarts, .register, .iterate, .runCallback, .runCallback, .iterate, .runCallback, .iterate,
    .runCallback, .runCallback]

/-- The message that it deregisters is put, and the task has been woken, before the loop is told to stop. -/
def closingLate : List WorkerEvent :=
  registering ++ [.closeDeregister, .iterate, .runCallback, .closeStop, .iterate, .runCallback, .runCallback,
    .loopEnds, .closeReturns]

/-- The loop is told to stop before the iteration in which the message is put. -/
def closingAtOnce : List WorkerEvent :=
  registering ++ [.closeDeregister, .closeStop, .iterate, .runCallback, .runCallback, .loopEnds, .closeReturns]

theorem WorkerRun.flushed_iff_closingLate :
    ∃ s, run closingWorker packWorkerMsg closingLate init = some s ∧ s.caller = .returned ∧
      s.put = [closingWorker.registerMsg, closingWorker.deregisterMsg] ∧
      (Flushed packWorkerMsg s ↔
        (∀ msg ∈ s.put, ∃ part, packWorkerMsg msg = .ok part) ∧
          ∃ (events₁ events₂ : List WorkerEvent) (s₁ : WorkerRun),
            closingLate = events₁ ++ .iterate :: events₂ ∧ .iterate ∉ events₂ ∧
              run closingWorker packWorkerMsg events₁ init = some s₁ ∧ s₁.Drains ∧
              ∀ e ∈ events₂, e.msg closingWorker = none) ∧
      Flushed packWorkerMsg s :=
  ⟨_, rfl, rfl, rfl, flushed_iff rfl rfl, rfl⟩

/-- **A worker that is closed at once does not deregister**: `close` returns, and the message is still in the
queue. -/
theorem WorkerRun.not_flushed_closingAtOnce :
    ∃ s, run closingWorker packWorkerMsg closingAtOnce init = some s ∧ s.caller = .returned ∧
      s.put = [closingWorker.registerMsg, closingWorker.deregisterMsg] ∧
      s.loop.state.msgQueue = [closingWorker.deregisterMsg] ∧ ¬ Flushed packWorkerMsg s := by
  refine ⟨_, rfl, rfl, rfl, rfl, fun h => ?_⟩
  have hlen := congrArg List.length h
  revert hlen
  decide +kernel

end InfiniKV
