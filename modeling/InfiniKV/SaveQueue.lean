/-
**The invariant of the queue of save tasks.**

The queue keeps its tasks in a deque and the ids of their blocks in a set, and updates the two separately.  A
block id that stayed in the set would make every later save of the block disappear, and one that left it too
early would let two writes of the block into the queue.  Over any sequence of calls the set is that of the
queued blocks, so no call raises.

Main definitions:

* `InfiniKV.TaskQueueforSave.PendingInv` — the set is that of the blocks of the queued tasks, and no two of them
  share a block;
* `InfiniKV.SaveHistory` — a queue, with the tasks that were accepted, popped and withdrawn so far;
* `InfiniKV.SaveHistory.run` — a sequence of calls.

Main results:

* `InfiniKV.TaskQueueforSave.getNextNtasks_of_pendingInv` — what is popped are the first tasks;
* `InfiniKV.TaskQueueforSave.PendingInv.withdrawTasks` — withdrawing tasks keeps the invariant;
* `InfiniKV.SaveHistory.run_sound` — **every sequence of calls returns, keeps the invariant, and lets the tasks
  out in the order in which they were accepted**.
-/

import InfiniKV.TaskQueue
import Mathlib.Data.List.Dedup

set_option relaxedAutoImplicit false
set_option autoImplicit false

namespace InfiniKV

namespace TaskQueueforSave

/-! ### The invariant -/

/-- The set is that of the blocks of the queued tasks, and no two of them share a block. -/
structure PendingInv (q : TaskQueueforSave) : Prop where
  mem_iff : ∀ id, id ∈ q.pendingBlockIds ↔ id ∈ q.tasks.map (·.blockId)
  nodup : (q.tasks.map (·.blockId)).Nodup

theorem pendingInv_init (numLayers : ℕ) : (init numLayers).PendingInv :=
  ⟨fun id => by simp [init], List.nodup_nil⟩

/-- The tasks of a submission that are accepted. -/
def accepts : TaskQueueforSave → List IOSpec → List IOSpec
  | _, [] => []
  | q, task :: tasks =>
      if task.blockId ∉ q.pendingBlockIds then task :: accepts (q.submitTask task) tasks
      else accepts q tasks

variable {q : TaskQueueforSave}

/-! ### Submitting -/

/-- What is queued after a submission: the tasks that were, and those that are accepted. -/
theorem tasks_submitTasks (q : TaskQueueforSave) (tasks : List IOSpec) :
    (q.submitTasks tasks).tasks = q.tasks ++ q.accepts tasks := by
  induction tasks generalizing q with
  | nil => simp [submitTasks, accepts]
  | cons task tasks ih =>
      have hrest := ih (q.submitTask task)
      rw [submitTasks, List.foldl_cons, ← submitTasks, hrest, accepts]
      by_cases h : task.blockId ∈ q.pendingBlockIds
      · rw [submitTask_of_mem h, if_neg (not_not.2 h)]
      · rw [if_pos h, submitTask_of_notMem h, List.append_assoc]
        rfl

theorem PendingInv.submitTask (h : q.PendingInv) (task : IOSpec) : (q.submitTask task).PendingInv := by
  by_cases hmem : task.blockId ∈ q.pendingBlockIds
  · rw [submitTask_of_mem hmem]
    exact h
  · rw [submitTask_of_notMem hmem]
    constructor
    · intro id
      rw [Finset.mem_insert, h.mem_iff, List.map_append, List.mem_append, List.map_singleton, List.mem_singleton]
      exact or_comm
    · rw [List.map_append, List.map_singleton, List.nodup_append]
      refine ⟨h.nodup, List.nodup_singleton _, ?_⟩
      intro id hid id' hid' heq
      rw [List.mem_singleton] at hid'
      exact hmem ((h.mem_iff _).2 (hid' ▸ heq ▸ hid))

theorem PendingInv.submitTasks (h : q.PendingInv) (tasks : List IOSpec) : (q.submitTasks tasks).PendingInv := by
  induction tasks generalizing q with
  | nil => exact h
  | cons task tasks ih => exact ih (h.submitTask task)

/-! ### Popping -/

/-- Each task that is popped has its block in the set, and takes it along. -/
theorem popTasks_of_pendingInv (h : q.PendingInv) {n : ℕ} (hn : n ≤ q.tasks.length) :
    ∃ q', popTasks n q = .ok (q.tasks.take n, q') ∧ q'.tasks = q.tasks.drop n ∧ q'.PendingInv := by
  induction n generalizing q with
  | zero => exact ⟨q, rfl, rfl, h⟩
  | succ n ih =>
      obtain ⟨hmem, hnodup⟩ := h
      obtain ⟨tasks, pendingBlockIds, numLayers⟩ := q
      cases tasks with
      | nil => exact absurd hn (Nat.not_succ_le_zero n)
      | cons task rest =>
          dsimp only at hmem hnodup hn ⊢
          rw [List.map_cons, List.nodup_cons] at hnodup
          have htask : task.blockId ∈ pendingBlockIds := (hmem _).2 List.mem_cons_self
          have hinv : (⟨rest, pendingBlockIds.erase task.blockId, numLayers⟩ : TaskQueueforSave).PendingInv := by
            refine ⟨fun id => ?_, hnodup.2⟩
            rw [Finset.mem_erase, hmem, List.map_cons, List.mem_cons]
            constructor
            · rintro ⟨hne, heq | hid⟩
              · exact absurd heq hne
              · exact hid
            · intro hid
              exact ⟨fun heq => hnodup.1 (heq ▸ hid), Or.inr hid⟩
          obtain ⟨q', hpop, htasks, hq'⟩ := ih hinv (Nat.le_of_succ_le_succ hn)
          refine ⟨q', ?_, htasks, hq'⟩
          rw [popTasks]
          dsimp only at hpop ⊢
          rw [if_pos htask, hpop]
          rfl

/-- **What is popped are the first tasks**, as many as there are if more are asked for. -/
theorem getNextNtasks_of_pendingInv (h : q.PendingInv) (n : ℕ) :
    ∃ q', q.getNextNtasks n = .ok (q.tasks.take n, q') ∧ q'.tasks = q.tasks.drop n ∧ q'.PendingInv := by
  obtain ⟨q', hpop, htasks, hq'⟩ := popTasks_of_pendingInv h (Nat.min_le_right n q.tasks.length)
  rw [← List.take_eq_take_min] at hpop
  refine ⟨q', hpop, htasks.trans ?_, hq'⟩
  rcases Nat.le_total n q.tasks.length with hle | hle
  · rw [Nat.min_eq_left hle]
  · rw [Nat.min_eq_right hle, List.drop_length, List.drop_of_length_le hle]

/-! ### Withdrawing -/

/-- The tasks of other requests stay, in their order. -/
theorem tasks_withdrawTasks (q : TaskQueueforSave) (requestId : String) :
    (q.withdrawTasks requestId).2.tasks = q.tasks.filter (·.requestId ≠ requestId) := by
  rw [withdrawTasks]
  dsimp only
  split_ifs with hcount
  · rfl
  · refine ((List.filter_sublist (l := q.tasks)).eq_of_length ?_).symm
    have hle := List.length_filter_le (fun task : IOSpec => decide (task.requestId ≠ requestId)) q.tasks
    omega

/-- What is returned is the number of tasks of the request. -/
theorem count_withdrawTasks (q : TaskQueueforSave) (requestId : String) :
    (q.withdrawTasks requestId).1 = (q.tasks.filter (·.requestId = requestId)).length := by
  rw [withdrawTasks]
  dsimp only
  have hsplit : q.tasks.length = (q.tasks.filter (·.requestId = requestId)).length +
      (q.tasks.filter (·.requestId ≠ requestId)).length := by
    rw [List.length_eq_length_filter_add fun task => decide (task.requestId = requestId)]
    simp only [← decide_not]
  omega

/-- **Withdrawing tasks keeps the invariant**: no other task has a block of theirs. -/
theorem PendingInv.withdrawTasks (h : q.PendingInv) (requestId : String) :
    (q.withdrawTasks requestId).2.PendingInv := by
  refine ⟨fun id => ?_, ?_⟩
  · rw [tasks_withdrawTasks, TaskQueueforSave.withdrawTasks]
    dsimp only
    split_ifs with hcount
    · rw [Finset.mem_sdiff, h.mem_iff, List.mem_toFinset]
      constructor
      · rintro ⟨hid, hkept⟩
        obtain ⟨task, htask, rfl⟩ := List.mem_map.1 hid
        refine List.mem_map_of_mem (List.mem_filter.2 ⟨htask, decide_eq_true fun hreq => hkept ?_⟩)
        exact List.mem_map_of_mem (List.mem_filter.2 ⟨htask, decide_eq_true hreq⟩)
      · intro hid
        obtain ⟨task, htask, rfl⟩ := List.mem_map.1 hid
        obtain ⟨htask, hother⟩ := List.mem_filter.1 htask
        refine ⟨List.mem_map_of_mem htask, fun hid' => ?_⟩
        -- a withdrawn task with this block is this task
        obtain ⟨task', htask', heq⟩ := List.mem_map.1 hid'
        obtain ⟨htask', hreq⟩ := List.mem_filter.1 htask'
        obtain rfl := List.inj_on_of_nodup_map h.nodup htask' htask heq
        exact of_decide_eq_true hother (of_decide_eq_true hreq)
    · have hall := tasks_withdrawTasks q requestId
      rw [TaskQueueforSave.withdrawTasks] at hall
      dsimp only at hall
      rw [if_neg hcount] at hall
      rw [← hall]
      exact h.mem_iff id
  · rw [tasks_withdrawTasks]
    exact h.nodup.sublist (List.Sublist.map _ List.filter_sublist)

end TaskQueueforSave

/-! ### Sequences of calls -/

/-- A call.  The number of tasks that is asked for may be negative; then none is popped. -/
inductive SaveQueueCall where
  | submitTasks (tasks : List IOSpec)
  | getNextNtasks (n : ℤ)
  | withdrawTasks (requestId : String)

/-- A queue, with the tasks that were accepted so far, and those among them that were popped and withdrawn. -/
structure SaveHistory where
  queue : TaskQueueforSave
  accepted : List IOSpec
  popped : List IOSpec
  withdrawn : List IOSpec

namespace SaveHistory

/-- An empty queue. -/
def init (numLayers : ℕ) : SaveHistory := ⟨.init numLayers, [], [], []⟩

/-- One call. -/
def step (h : SaveHistory) : SaveQueueCall → Except PyError SaveHistory
  | .submitTasks tasks => .ok { h with
      queue := h.queue.submitTasks tasks
      accepted := h.accepted ++ h.queue.accepts tasks }
  | .getNextNtasks n => (h.queue.getNextNtasks n.toNat).map fun (tasks, queue) => { h with
      queue
      popped := h.popped ++ tasks }
  | .withdrawTasks requestId => .ok { h with
      queue := (h.queue.withdrawTasks requestId).2
      withdrawn := h.withdrawn ++ h.queue.tasks.filter (·.requestId = requestId) }

/-- A sequence of calls, up to the first that raises. -/
def run (h : SaveHistory) (calls : List SaveQueueCall) : Except PyError SaveHistory := calls.foldlM step h

/-- **What holds between two calls**: the invariant of the queue; the tasks that were popped and those that are
queued come in the order in which they were accepted; and no accepted task is lost or there twice. -/
structure Sound (h : SaveHistory) : Prop where
  pending : h.queue.PendingInv
  ordered : (h.popped ++ h.queue.tasks).Sublist h.accepted
  perm : (h.popped ++ h.queue.tasks ++ h.withdrawn).Perm h.accepted

theorem sound_init (numLayers : ℕ) : (init numLayers).Sound :=
  ⟨TaskQueueforSave.pendingInv_init numLayers, List.Sublist.refl _, .refl _⟩

variable {h : SaveHistory}

/-- **One call** returns and leaves the queue sound. -/
theorem Sound.step (hs : h.Sound) (call : SaveQueueCall) : ∃ h', h.step call = .ok h' ∧ h'.Sound := by
  cases call with
  | submitTasks tasks =>
      refine ⟨_, rfl, hs.pending.submitTasks tasks, ?_, ?_⟩
      · dsimp only
        rw [TaskQueueforSave.tasks_submitTasks, ← List.append_assoc]
        exact hs.ordered.append (List.Sublist.refl _)
      · dsimp only
        rw [TaskQueueforSave.tasks_submitTasks, ← List.append_assoc, List.append_assoc]
        refine (List.Perm.append_left _ List.perm_append_comm).trans ?_
        rw [← List.append_assoc]
        exact hs.perm.append_right _
  | getNextNtasks n =>
      obtain ⟨queue, hpop, htasks, hpending⟩ := TaskQueueforSave.getNextNtasks_of_pendingInv hs.pending n.toNat
      refine ⟨{ h with queue, popped := h.popped ++ h.queue.tasks.take n.toNat }, ?_, hpending, ?_, ?_⟩
      · rw [SaveHistory.step, hpop]
        rfl
      · dsimp only
        rw [htasks, List.append_assoc, List.take_append_drop]
        exact hs.ordered
      · dsimp only
        rw [htasks, List.append_assoc h.popped, List.take_append_drop]
        exact hs.perm
  | withdrawTasks requestId =>
      refine ⟨_, rfl, hs.pending.withdrawTasks requestId, ?_, ?_⟩
      · dsimp only
        rw [TaskQueueforSave.tasks_withdrawTasks]
        exact (List.filter_sublist.append_left h.popped).trans hs.ordered
      · dsimp only
        rw [TaskQueueforSave.tasks_withdrawTasks]
        refine List.Perm.trans ?_ hs.perm
        have hsplit : (h.queue.tasks.filter (·.requestId ≠ requestId) ++
            h.queue.tasks.filter (·.requestId = requestId)).Perm h.queue.tasks := by
          refine List.perm_append_comm.trans ?_
          have hfilter := List.filter_append_perm (fun task => decide (task.requestId = requestId)) h.queue.tasks
          simpa only [← decide_not] using hfilter
        rw [List.append_assoc, List.append_assoc]
        refine List.Perm.append_left _ ?_
        refine (List.perm_append_comm.append_left _).trans ?_
        rw [← List.append_assoc]
        exact hsplit.append_right _

/-- **Every sequence of calls returns**, and leaves the queue sound. -/
theorem Sound.run (hs : h.Sound) (calls : List SaveQueueCall) : ∃ h', h.run calls = .ok h' ∧ h'.Sound := by
  induction calls generalizing h with
  | nil => exact ⟨h, rfl, hs⟩
  | cons call calls ih =>
      obtain ⟨h', hstep, hs'⟩ := hs.step call
      obtain ⟨h'', hrun, hs''⟩ := ih hs'
      refine ⟨h'', ?_, hs''⟩
      rw [SaveHistory.run, List.foldlM_cons, hstep]
      exact hrun

/-- **The save queue.**  After every sequence of calls the set of pending block ids is that of the queued tasks,
no two of which share a block; the tasks that were popped and then those that are queued are in the order in
which they were accepted, and each accepted task was popped, is queued or was withdrawn, once; the next tasks
are the first ones, as many as are asked for and there; and withdrawing those of a request removes them,
leaves the others as they are, and returns their number. -/
theorem run_sound (numLayers : ℕ) (calls : List SaveQueueCall) :
    ∃ h, (init numLayers).run calls = .ok h ∧
      (∀ id, id ∈ h.queue.pendingBlockIds ↔ ∃ task ∈ h.queue.tasks, task.blockId = id) ∧
      (h.queue.tasks.map (·.blockId)).Nodup ∧
      (h.popped ++ h.queue.tasks).Sublist h.accepted ∧
      (h.popped ++ h.queue.tasks ++ h.withdrawn).Perm h.accepted ∧
      (∀ n : ℕ, ∃ queue, h.queue.getNextNtasks n = .ok (h.queue.tasks.take (min n h.queue.tasks.length), queue) ∧
        queue.tasks = h.queue.tasks.drop n) ∧
      ∀ requestId, (h.queue.withdrawTasks requestId).2.tasks = h.queue.tasks.filter (·.requestId ≠ requestId) ∧
        (h.queue.withdrawTasks requestId).1 = (h.queue.tasks.filter (·.requestId = requestId)).length := by
  obtain ⟨h, hrun, hs⟩ := (sound_init numLayers).run calls
  refine ⟨h, hrun, fun id => ?_, hs.pending.nodup, hs.ordered, hs.perm, fun n => ?_, fun requestId => ?_⟩
  · rw [hs.pending.mem_iff, List.mem_map]
  · obtain ⟨queue, hpop, htasks, -⟩ := TaskQueueforSave.getNextNtasks_of_pendingInv hs.pending n
    refine ⟨queue, ?_, htasks⟩
    rw [← List.take_eq_take_min]
    exact hpop
  · exact ⟨TaskQueueforSave.tasks_withdrawTasks _ _, TaskQueueforSave.count_withdrawTasks _ _⟩

end SaveHistory

end InfiniKV
