/-
**The queue of save tasks.**

A worker does not write a file in the step that opens it: the task waits in `TaskQueueforSave` until
the simulator grants a stream.  The queue refuses a task whose block already has one.

Main definitions:

* `InfiniKV.IOSpec` — a task: a file, the block it is to be filled from, the next layer to write, and
  the request it belongs to;
* `InfiniKV.TaskQueueforSave` — the queue and the set of block ids that have a task;
* `InfiniKV.TaskQueueforSave.submitTasks`, `getNextNtasks`, `withdrawTasks` — its operations.

Main results:

* `InfiniKV.TaskQueueforSave.mem_submitTasks` — nothing else than the tasks submitted enters;
* `InfiniKV.TaskQueueforSave.tasks_submitTasks_of_fresh` — **no task is refused** when the blocks are
  pairwise distinct and none has a task;
* `InfiniKV.TaskQueueforSave.getNextNtasks_spec` — what is popped, followed by what is left, is what
  was queued.
-/

import InfiniKV.Backend
import Mathlib.Data.Finset.Basic

set_option relaxedAutoImplicit false
set_option autoImplicit false

namespace InfiniKV

/-- A task of the queue. -/
structure IOSpec where
  gpuFile : GPUFileMetadata
  blockId : ℕ
  layer : ℕ
  requestId : String
  deriving DecidableEq

/-- The queue of save tasks. -/
structure TaskQueueforSave where
  tasks : List IOSpec
  pendingBlockIds : Finset ℕ
  numLayers : ℕ

namespace TaskQueueforSave

/-- `TaskQueueforSave.__init__`. -/
def init (numLayers : ℕ) : TaskQueueforSave := ⟨[], ∅, numLayers⟩

variable (q : TaskQueueforSave)

/-- `get_exist_io_num`. -/
def getExistIoNum : ℕ := q.tasks.length

/-- The body of the loop of `submit_tasks`. -/
def submitTask (task : IOSpec) : TaskQueueforSave :=
  if task.blockId ∉ q.pendingBlockIds then
    { q with
      pendingBlockIds := insert task.blockId q.pendingBlockIds
      tasks := q.tasks ++ [task] }
  else q

/-- `submit_tasks`. -/
def submitTasks (tasks : List IOSpec) : TaskQueueforSave := tasks.foldl submitTask q

/-- The loop of `get_next_ntasks`. -/
def popTasks : ℕ → TaskQueueforSave → Except PyError (List IOSpec × TaskQueueforSave)
  | 0, q => .ok ([], q)
  | n + 1, q =>
      match q.tasks with
      | [] => .error .indexError
      | task :: rest =>
          if task.blockId ∈ q.pendingBlockIds then
            (popTasks n { q with
              tasks := rest
              pendingBlockIds := q.pendingBlockIds.erase task.blockId }).map
                fun (tasks, q') => (task :: tasks, q')
          else .error .keyError

/-- `get_next_ntasks`. -/
def getNextNtasks (n : ℕ) : Except PyError (List IOSpec × TaskQueueforSave) :=
  popTasks (min n q.tasks.length) q

/-- `withdraw_tasks`: the number of tasks withdrawn, and the queue without them. -/
def withdrawTasks (requestId : String) : ℕ × TaskQueueforSave :=
  let tasksToKeep := q.tasks.filter (·.requestId ≠ requestId)
  let withdrawBlockIds := ((q.tasks.filter (·.requestId = requestId)).map (·.blockId)).toFinset
  let withdrawCount := q.tasks.length - tasksToKeep.length
  (withdrawCount, if withdrawCount > 0 then
      { q with tasks := tasksToKeep, pendingBlockIds := q.pendingBlockIds \ withdrawBlockIds }
    else q)

/-! ### Submitting -/

variable {q}

theorem submitTask_of_mem {task : IOSpec} (h : task.blockId ∈ q.pendingBlockIds) :
    q.submitTask task = q := by
  rw [submitTask, if_neg (not_not.2 h)]

theorem submitTask_of_notMem {task : IOSpec} (h : task.blockId ∉ q.pendingBlockIds) :
    q.submitTask task = { q with
      pendingBlockIds := insert task.blockId q.pendingBlockIds
      tasks := q.tasks ++ [task] } := by
  rw [submitTask, if_pos h]

/-- Nothing else than the tasks submitted enters the queue. -/
theorem mem_submitTasks {ts : List IOSpec} {t : IOSpec} (h : t ∈ (q.submitTasks ts).tasks) :
    t ∈ q.tasks ∨ t ∈ ts := by
  induction ts generalizing q with
  | nil => exact Or.inl h
  | cons s ts ih =>
      rcases ih (q := q.submitTask s) h with h' | h'
      · by_cases hs : s.blockId ∈ q.pendingBlockIds
        · rw [submitTask_of_mem hs] at h'
          exact Or.inl h'
        · rw [submitTask_of_notMem hs] at h'
          rcases List.mem_append.1 h' with h' | h'
          · exact Or.inl h'
          · rw [List.mem_singleton] at h'
            exact Or.inr (h' ▸ List.mem_cons_self ..)
      · exact Or.inr (List.mem_cons_of_mem _ h')

/-- Tasks whose blocks are pairwise distinct and have no task are all accepted. -/
theorem tasks_submitTasks_of_fresh {ts : List IOSpec} (hnodup : (ts.map (·.blockId)).Nodup)
    (hfresh : ∀ t ∈ ts, t.blockId ∉ q.pendingBlockIds) :
    (q.submitTasks ts).tasks = q.tasks ++ ts := by
  induction ts generalizing q with
  | nil => simp [submitTasks]
  | cons t ts ih =>
      obtain ⟨hnotMem, hnodup'⟩ := List.nodup_cons.1 hnodup
      have ht := hfresh t (List.mem_cons_self ..)
      have hstep : (q.submitTask t).tasks = q.tasks ++ [t] := by rw [submitTask_of_notMem ht]
      have hrest : ∀ s ∈ ts, s.blockId ∉ (q.submitTask t).pendingBlockIds := by
        intro s hs
        rw [submitTask_of_notMem ht, Finset.mem_insert, not_or]
        refine ⟨?_, hfresh s (List.mem_cons_of_mem _ hs)⟩
        intro heq
        exact hnotMem (List.mem_map.2 ⟨s, hs, heq⟩)
      show ((q.submitTask t).submitTasks ts).tasks = _
      rw [ih hnodup' hrest, hstep, List.append_assoc]
      rfl

/-! ### Popping -/

theorem popTasks_spec {n : ℕ} {ts : List IOSpec} {q' : TaskQueueforSave}
    (h : popTasks n q = .ok (ts, q')) :
    q.tasks = ts ++ q'.tasks ∧ ts.length = n ∧ q'.numLayers = q.numLayers := by
  induction n generalizing q ts with
  | zero =>
      simp only [popTasks, Except.ok.injEq, Prod.mk.injEq] at h
      obtain ⟨rfl, rfl⟩ := h
      exact ⟨rfl, rfl, rfl⟩
  | succ n ih =>
      rw [popTasks] at h
      split at h
      · cases h
      · rename_i task rest htasks
        split at h
        · cases hrec : popTasks n { q with
              tasks := rest
              pendingBlockIds := q.pendingBlockIds.erase task.blockId } with
          | error e =>
              rw [hrec] at h
              cases h
          | ok r =>
              obtain ⟨ts', q''⟩ := r
              rw [hrec] at h
              simp only [Except.map, Except.ok.injEq, Prod.mk.injEq] at h
              obtain ⟨rfl, rfl⟩ := h
              obtain ⟨h₁, h₂, h₃⟩ := ih hrec
              refine ⟨?_, by rw [List.length_cons, h₂], h₃⟩
              rw [htasks, List.cons_append, ← h₁]
        · cases h

/-- **What is popped, followed by what is left, is what was queued.** -/
theorem getNextNtasks_spec {n : ℕ} {ts : List IOSpec} {q' : TaskQueueforSave}
    (h : q.getNextNtasks n = .ok (ts, q')) :
    q.tasks = ts ++ q'.tasks ∧ ts.length = min n q.tasks.length ∧ q'.numLayers = q.numLayers :=
  popTasks_spec h

end TaskQueueforSave

end InfiniKV
