/-
**Copying by single moves.**

Data is copied from one memory to another by moves, each of which takes one cell to another.  If no cell is
moved to from two, it does not matter in which order the moves are made.

Main definitions:

* `Moves.copy` — the memory after the moves;
* `Moves.SingleSource` — no cell is moved to from two.

Main results:

* `Moves.copy_of_mem`, `Moves.copy_of_forall_not_mem` — **what a cell holds after the moves**;
* `Moves.copy_perm` — the order does not matter.
-/

import Mathlib.Logic.Function.Basic
import Mathlib.Data.List.Basic

set_option relaxedAutoImplicit false
set_option autoImplicit false

namespace Moves

variable {α β V : Type} [DecidableEq β]

/-- The memory after moves from `src`, one after the other. -/
def copy (moves : List (α × β)) (src : α → V) (dst : β → V) : β → V :=
  moves.foldl (fun dst move => Function.update dst move.2 (src move.1)) dst

/-- No cell is moved to from two. -/
def SingleSource (moves : List (α × β)) : Prop :=
  ∀ a a' b, (a, b) ∈ moves → (a', b) ∈ moves → a = a'

variable {moves moves' : List (α × β)} {src : α → V} {dst : β → V} {a : α} {b : β}

@[simp] theorem copy_nil : copy [] src dst = dst := rfl

theorem copy_cons (move : α × β) :
    copy (move :: moves) src dst = copy moves src (Function.update dst move.2 (src move.1)) := rfl

/-- **A cell that nothing is moved to** holds what it held. -/
theorem copy_of_forall_not_mem (h : ∀ a, (a, b) ∉ moves) : copy moves src dst b = dst b := by
  induction moves generalizing dst with
  | nil => rfl
  | cons move moves ih =>
      rw [copy_cons, ih fun a hmem => h a (List.mem_cons_of_mem _ hmem)]
      refine Function.update_of_ne ?_ _ _
      rintro rfl
      exact h move.1 List.mem_cons_self

/-- **A cell that something is moved to** holds that. -/
theorem copy_of_mem (hsource : SingleSource moves) (h : (a, b) ∈ moves) : copy moves src dst b = src a := by
  induction moves generalizing dst with
  | nil => cases h
  | cons move moves ih =>
      rw [copy_cons]
      by_cases hrest : (a, b) ∈ moves
      · exact ih (fun a a' b ha ha' => hsource a a' b (List.mem_cons_of_mem _ ha) (List.mem_cons_of_mem _ ha')) hrest
      · -- it is moved to by the first move only
        rcases List.mem_cons.1 h with rfl | hmem
        · rw [copy_of_forall_not_mem, Function.update_self]
          intro a' hmem
          obtain rfl := hsource a a' b List.mem_cons_self (List.mem_cons_of_mem _ hmem)
          exact hrest hmem
        · exact absurd hmem hrest

omit [DecidableEq β] in
theorem SingleSource.subset (h : SingleSource moves') (hsub : moves ⊆ moves') : SingleSource moves :=
  fun a a' b ha ha' => h a a' b (hsub ha) (hsub ha')

/-- **The order of the moves does not matter.** -/
theorem copy_perm (hsource : SingleSource moves) (hperm : moves.Perm moves') :
    copy moves src dst = copy moves' src dst := by
  funext b
  by_cases h : ∃ a, (a, b) ∈ moves
  · obtain ⟨a, ha⟩ := h
    rw [copy_of_mem hsource ha, copy_of_mem (hsource.subset hperm.symm.subset) (hperm.subset ha)]
  · have hnone : ∀ a, (a, b) ∉ moves := fun a ha => h ⟨a, ha⟩
    rw [copy_of_forall_not_mem hnone, copy_of_forall_not_mem fun a ha => hnone a (hperm.symm.subset ha)]

end Moves
