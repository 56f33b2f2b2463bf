/-
**The ids of commands.**

A completion names the command that it is for by an id of 16 bits.  Before a GPU thread issues a command, it takes
an id: it draws a ticket, which names an entry of a table, and tries to lock the entry; if it was locked, it draws
again.  It unlocks the entry when it has seen the completion.

Each atomic access is one step, and the steps of the threads come in any order.

Main definitions:

* `InfiniKV.GeminiFS.CommandIds.Stage.step` — `get_cid`, access by access;
* `InfiniKV.GeminiFS.CommandIds.step` — the threads.

Main results:

* `InfiniKV.GeminiFS.CommandIds.cids_exclusive` — **no two threads have one id**;
* `InfiniKV.GeminiFS.CommandIds.alone_returns` — a thread that runs alone comes to the entry that is free;
* `InfiniKV.GeminiFS.CommandIds.get_cid_returns` — **a thread gets an id**, if there are not more threads than
  ids.
-/

import InfiniKV.Runs
import Mathlib.Data.Fintype.Card
import Mathlib.Logic.Function.Basic

set_option relaxedAutoImplicit false
set_option autoImplicit false

namespace InfiniKV
namespace GeminiFS
namespace CommandIds

/-! ### The state -/

/-- `cid_ticket`, and which entries of `cid` are `LOCKED`. -/
structure Ids where
  cidTicket : ℕ
  cid : ℕ → Bool

/-- Where a thread is, from its call of `get_cid` to its call of `put_cid`. -/
inductive Stage where
  /-- The `fetch_add` on `cid_ticket`. -/
  | drawing
  /-- The `fetch_or` on `cid[id]`. -/
  | locking (id : ℕ)
  /-- `get_cid` has returned. -/
  | holding (id : ℕ)
  deriving DecidableEq, Repr

/-- The ids of a queue, and the threads that have called `get_cid`. -/
structure State (τ : Type) where
  sq : Ids
  threads : τ → Option Stage

variable {τ : Type}

/-- The buffers of a queue are set to zero, and so is `cid_ticket`. -/
def initial : State τ := ⟨⟨0, fun _ => false⟩, fun _ => none⟩

/-! ### The steps -/

/-- The next access of a thread in `get_cid`. -/
def Stage.step (sq : Ids) : Stage → Ids × Stage
  | .drawing => ({ sq with cidTicket := (sq.cidTicket + 1) % 2 ^ 32 }, .locking (sq.cidTicket % 2 ^ 16))
  | .locking id =>
      ({ sq with cid := Function.update sq.cid id true }, if sq.cid id then .drawing else .holding id)
  | .holding id => (sq, .holding id)

/-- A thread calls `get_cid`, makes its next access there, or calls `put_cid` with its id. -/
inductive Action (τ : Type) where
  | getCid (t : τ)
  | access (t : τ)
  | putCid (t : τ)

variable [DecidableEq τ]

/-- A step, where `none` stands for one that cannot be made. -/
def step (s : State τ) : Action τ → Option (State τ)
  | .getCid t =>
      match s.threads t with
      | none => some { s with threads := Function.update s.threads t (some .drawing) }
      | some _ => none
  | .access t => (s.threads t).map fun stage =>
      ⟨(stage.step s.sq).1, Function.update s.threads t (some (stage.step s.sq).2)⟩
  | .putCid t =>
      match s.threads t with
      | some (.holding id) =>
          some ⟨{ s.sq with cid := Function.update s.sq.cid id false }, Function.update s.threads t none⟩
      | _ => none

/-! ### Who has an id -/

/-- A thread has an id. -/
def State.Holds (s : State τ) (t : τ) (id : ℕ) : Prop := s.threads t = some (.holding id)

/-- The entries that are locked are those of the ids that threads have, and no two threads have one. -/
structure Inv (s : State τ) : Prop where
  locked_iff : ∀ id, s.sq.cid id = true ↔ ∃ t, s.Holds t id
  exclusive : ∀ t t' id, s.Holds t id → s.Holds t' id → t = t'

variable {s s' : State τ}

omit [DecidableEq τ] in
theorem inv_initial : Inv (initial : State τ) where
  locked_iff := by
    intro id
    refine iff_of_false Bool.false_ne_true ?_
    rintro ⟨t, ht⟩
    cases ht
  exclusive := by
    intro t t' id ht
    cases ht

omit [DecidableEq τ] in
/-- Nothing changes if the same threads have the same ids. -/
theorem Inv.of_same (h : Inv s) (hcid : s'.sq.cid = s.sq.cid) (hholds : ∀ t id, s'.Holds t id ↔ s.Holds t id) :
    Inv s' where
  locked_iff := by
    intro id
    rw [hcid, h.locked_iff]
    exact exists_congr fun t => (hholds t id).symm
  exclusive := fun t t' id ht ht' => h.exclusive t t' id ((hholds t id).1 ht) ((hholds t' id).1 ht')

omit [DecidableEq τ] in
/-- A thread that is elsewhere has no id. -/
theorem not_holds {t : τ} {stage : Option Stage} (ht : s.threads t = stage)
    (hstage : ∀ id, stage ≠ some (.holding id)) (id : ℕ) : ¬ s.Holds t id := by
  intro hhas
  rw [State.Holds, ht] at hhas
  exact hstage id hhas

/-- A thread that has no id before and after a step has none. -/
theorem holds_update {stage : Option Stage} {t : τ} (hold : ∀ id, ¬ s.Holds t id)
    (hnew : ∀ id, stage ≠ some (.holding id)) (sq : Ids) (t' : τ) (id : ℕ) :
    State.Holds ⟨sq, Function.update s.threads t stage⟩ t' id ↔ s.Holds t' id := by
  rw [State.Holds, State.Holds]
  dsimp only
  rcases eq_or_ne t' t with rfl | hne
  · rw [Function.update_self]
    exact iff_of_false (hnew id) (hold id)
  · rw [Function.update_of_ne hne]

/-- **A thread takes an id** that is not locked. -/
theorem Inv.lock (h : Inv s) {t : τ} {id : ℕ} (hold : ∀ id, ¬ s.Holds t id) (hfree : s.sq.cid id = false) :
    Inv ⟨{ s.sq with cid := Function.update s.sq.cid id true },
      Function.update s.threads t (some (.holding id))⟩ := by
  have hnobody : ∀ t', ¬ s.Holds t' id := by
    intro t' ht'
    rw [(h.locked_iff id).2 ⟨t', ht'⟩] at hfree
    cases hfree
  have hholds : ∀ t' id', State.Holds ⟨{ s.sq with cid := Function.update s.sq.cid id true },
      Function.update s.threads t (some (.holding id))⟩ t' id' ↔ (t' = t ∧ id' = id) ∨ s.Holds t' id' := by
    intro t' id'
    rw [State.Holds]
    dsimp only
    rcases eq_or_ne t' t with rfl | hne
    · rw [Function.update_self, Option.some_inj, Stage.holding.injEq]
      constructor
      · rintro rfl
        exact Or.inl ⟨rfl, rfl⟩
      · rintro (⟨-, rfl⟩ | hhas)
        · rfl
        · exact absurd hhas (hold id')
    · rw [Function.update_of_ne hne]
      constructor
      · exact Or.inr
      · rintro (⟨heq, -⟩ | hhas)
        · exact absurd heq hne
        · exact hhas
  constructor
  · intro id'
    dsimp only
    rcases eq_or_ne id' id with rfl | hne
    · rw [Function.update_self]
      exact iff_of_true rfl ⟨t, (hholds t id').2 (Or.inl ⟨rfl, rfl⟩)⟩
    · rw [Function.update_of_ne hne, h.locked_iff]
      constructor
      · rintro ⟨t', ht'⟩
        exact ⟨t', (hholds t' id').2 (Or.inr ht')⟩
      · rintro ⟨t', ht'⟩
        rcases (hholds t' id').1 ht' with ⟨-, heq⟩ | hhas
        · exact absurd heq hne
        · exact ⟨t', hhas⟩
  · intro t₁ t₂ id' ht₁ ht₂
    rcases (hholds t₁ id').1 ht₁ with ⟨rfl, rfl⟩ | hhas₁
    · rcases (hholds t₂ id').1 ht₂ with ⟨rfl, -⟩ | hhas₂
      · rfl
      · exact absurd hhas₂ (hnobody t₂)
    · rcases (hholds t₂ id').1 ht₂ with ⟨rfl, rfl⟩ | hhas₂
      · exact absurd hhas₁ (hnobody t₁)
      · exact h.exclusive t₁ t₂ id' hhas₁ hhas₂

/-- **A thread gives its id back.** -/
theorem Inv.unlock (h : Inv s) {t : τ} {id : ℕ} (hhas : s.Holds t id) :
    Inv ⟨{ s.sq with cid := Function.update s.sq.cid id false }, Function.update s.threads t none⟩ := by
  have hholds : ∀ t' id', State.Holds ⟨{ s.sq with cid := Function.update s.sq.cid id false },
      Function.update s.threads t none⟩ t' id' ↔ t' ≠ t ∧ s.Holds t' id' := by
    intro t' id'
    rw [State.Holds]
    dsimp only
    rcases eq_or_ne t' t with rfl | hne
    · rw [Function.update_self]
      refine iff_of_false (fun heq => by cases heq) fun hand => hand.1 rfl
    · rw [Function.update_of_ne hne]
      exact (and_iff_right hne).symm
  constructor
  · intro id'
    dsimp only
    rcases eq_or_ne id' id with rfl | hne
    · rw [Function.update_self]
      refine iff_of_false Bool.false_ne_true ?_
      rintro ⟨t', ht'⟩
      obtain ⟨hother, ht'⟩ := (hholds t' id').1 ht'
      exact hother (h.exclusive t' t id' ht' hhas)
    · rw [Function.update_of_ne hne, h.locked_iff]
      constructor
      · rintro ⟨t', ht'⟩
        refine ⟨t', (hholds t' id').2 ⟨?_, ht'⟩⟩
        rintro rfl
        rw [State.Holds] at hhas ht'
        rw [hhas] at ht'
        cases ht'
        exact hne rfl
      · rintro ⟨t', ht'⟩
        exact ⟨t', ((hholds t' id').1 ht').2⟩
  · intro t₁ t₂ id' ht₁ ht₂
    exact h.exclusive t₁ t₂ id' ((hholds t₁ id').1 ht₁).2 ((hholds t₂ id').1 ht₂).2

/-- **One step** keeps the ids apart. -/
theorem Inv.step (h : Inv s) {action : Action τ} (hstep : step s action = some s') : Inv s' := by
  cases action with
  | getCid t =>
      cases ht : s.threads t with
      | some stage =>
          rw [CommandIds.step, ht] at hstep
          cases hstep
      | none =>
          rw [CommandIds.step, ht] at hstep
          cases hstep
          have hold := not_holds ht fun id heq => by cases heq
          exact h.of_same rfl (holds_update hold (fun id heq => by cases heq) _)
  | access t =>
      rw [CommandIds.step, Option.map_eq_some_iff] at hstep
      obtain ⟨stage, ht, rfl⟩ := hstep
      cases stage with
      | drawing =>
          have hold := not_holds ht fun id heq => by cases heq
          exact h.of_same rfl (holds_update hold (fun id heq => by cases heq) _)
      | locking id =>
          have hold := not_holds ht fun id heq => by cases heq
          rw [Stage.step]
          cases hlocked : s.sq.cid id with
          | true =>
              refine h.of_same ?_ (holds_update hold (fun id heq => by cases heq) _)
              exact (congrArg (Function.update s.sq.cid id) hlocked.symm).trans (Function.update_eq_self id _)
          | false => exact h.lock hold hlocked
      | holding id =>
          have hsame : Function.update s.threads t (some (Stage.holding id)) = s.threads := by
            rw [← ht, Function.update_eq_self]
          rw [Stage.step, hsame]
          exact h
  | putCid t =>
      cases ht : s.threads t with
      | none =>
          rw [CommandIds.step, ht] at hstep
          cases hstep
      | some stage =>
          cases stage with
          | drawing =>
              rw [CommandIds.step, ht] at hstep
              cases hstep
          | locking id =>
              rw [CommandIds.step, ht] at hstep
              cases hstep
          | holding id =>
              rw [CommandIds.step, ht] at hstep
              cases hstep
              exact h.unlock ht

theorem inv_of_run {actions : List (Action τ)} (hrun : actions.foldlM step initial = some s) : Inv s :=
  foldlM_inv Inv (fun _ _ _ h hstep => h.step hstep) actions inv_initial hrun

/-- **No two threads ever have one id**, and the entries that are locked are those of the ids that threads have. -/
theorem cids_exclusive {actions : List (Action τ)} (hrun : actions.foldlM step initial = some s) :
    (∀ t t' id, s.Holds t id → s.Holds t' id → t = t') ∧ ∀ id, s.sq.cid id = true ↔ ∃ t, s.Holds t id :=
  ⟨(inv_of_run hrun).exclusive, (inv_of_run hrun).locked_iff⟩

/-- Two threads get ids, and the first one gives its own back. -/
theorem cids_exclusive_twoThreads :
    ∃ s, [Action.getCid 0, .getCid 1, .access 0, .access 1, .access 1, .access 0, .putCid 0].foldlM step
        (initial : State (Fin 2)) = some s ∧
      (∀ t t' id, s.Holds t id → s.Holds t' id → t = t') ∧ ∀ id, s.sq.cid id = true ↔ ∃ t, s.Holds t id :=
  ⟨_, rfl, @cids_exclusive (Fin 2) _ _
    [.getCid 0, .getCid 1, .access 0, .access 1, .access 1, .access 0, .putCid 0] rfl⟩

/-! ### A thread that runs alone -/

/-- The next accesses of a thread, one after the other. -/
def alone (s : State τ) (t : τ) (n : ℕ) : Option (State τ) := (List.replicate n (Action.access t)).foldlM step s

variable {t : τ}

theorem step_access {stage : Stage} (ht : s.threads t = some stage) :
    step s (.access t) = some ⟨(stage.step s.sq).1, Function.update s.threads t (some (stage.step s.sq).2)⟩ := by
  rw [step, ht]
  rfl

theorem alone_succ (hstep : step s (.access t) = some s') (n : ℕ) : alone s t (n + 1) = alone s' t n := by
  rw [alone, List.replicate_succ, List.foldlM_cons, hstep]
  rfl

/-- A thread draws a ticket, and tries to lock the entry. -/
theorem alone_draw (ht : s.threads t = some .drawing) (n : ℕ) :
    alone s t (n + 2) = alone ⟨⟨(s.sq.cidTicket + 1) % 2 ^ 32,
        Function.update s.sq.cid (s.sq.cidTicket % 2 ^ 16) true⟩, Function.update s.threads t
          (some (if s.sq.cid (s.sq.cidTicket % 2 ^ 16) then .drawing else .holding (s.sq.cidTicket % 2 ^ 16)))⟩
      t n := by
  rw [alone_succ (step_access ht), alone_succ (step_access (Function.update_self t _ _))]
  dsimp only [Stage.step]
  rw [Function.update_idem]

/-- It gets the id if the entry is free. -/
theorem alone_free (ht : s.threads t = some .drawing) (hfree : s.sq.cid (s.sq.cidTicket % 2 ^ 16) = false) :
    ∃ s', alone s t 2 = some s' ∧ s'.Holds t (s.sq.cidTicket % 2 ^ 16) := by
  refine ⟨_, alone_draw ht 0, ?_⟩
  rw [State.Holds, hfree]
  exact Function.update_self t _ _

/-- **A thread that runs alone** gets an id when its tickets come to an entry that is free. -/
theorem alone_returns (ht : s.threads t = some .drawing) {d : ℕ}
    (hfree : s.sq.cid ((s.sq.cidTicket + d) % 2 ^ 16) = false) :
    ∃ n ≤ 2 * (d + 1), ∃ s' id, alone s t n = some s' ∧ s'.Holds t id := by
  induction d generalizing s with
  | zero =>
      obtain ⟨s', hs', hholds⟩ := alone_free ht hfree
      exact ⟨2, le_refl 2, s', _, hs', hholds⟩
  | succ d ih =>
      cases hlocked : s.sq.cid (s.sq.cidTicket % 2 ^ 16) with
      | false =>
          obtain ⟨s', hs', hholds⟩ := alone_free ht hlocked
          exact ⟨2, by omega, s', _, hs', hholds⟩
      | true =>
          -- the entry stays locked, and the tickets come one entry nearer
          have hsame : Function.update s.sq.cid (s.sq.cidTicket % 2 ^ 16) true = s.sq.cid := by
            rw [← hlocked, Function.update_eq_self]
          have hnext : ((s.sq.cidTicket + 1) % 2 ^ 32 + d) % 2 ^ 16 = (s.sq.cidTicket + (d + 1)) % 2 ^ 16 := by
            omega
          have hdraw := alone_draw ht
          rw [hsame, hlocked, if_pos rfl] at hdraw
          obtain ⟨n, hn, s', id, hs', hholds⟩ := @ih ⟨⟨(s.sq.cidTicket + 1) % 2 ^ 32, s.sq.cid⟩,
            Function.update s.threads t (some .drawing)⟩ (Function.update_self t _ _) (by rw [hnext]; exact hfree)
          exact ⟨n + 2, by omega, s', id, (hdraw n).trans hs', hholds⟩

omit [DecidableEq τ] in
/-- If there are not more threads than ids, and one has none, then an id is free. -/
theorem exists_free [Fintype τ] (h : Inv s) (hcard : Fintype.card τ ≤ 2 ^ 16) (hnone : ∀ id, ¬ s.Holds t id) :
    ∃ id < 2 ^ 16, s.sq.cid id = false := by
  by_contra hall
  have hlocked : ∀ id : Fin (2 ^ 16), ∃ t, s.Holds t id := by
    intro id
    refine (h.locked_iff id).1 (Bool.eq_true_of_not_eq_false fun hfree => ?_)
    exact hall ⟨id, id.isLt, hfree⟩
  choose holder hholder using hlocked
  have hinj : Function.Injective holder := by
    intro a b heq
    have ha := hholder a
    have hb := hholder b
    rw [State.Holds] at ha hb
    rw [heq, hb, Option.some_inj, Stage.holding.injEq] at ha
    exact Fin.ext ha.symm
  have hlt := Fintype.card_lt_of_injective_of_notMem holder hinj (b := t) (by
    rintro ⟨id, rfl⟩
    exact hnone id (hholder id))
  rw [Fintype.card_fin] at hlt
  omega

/-- A thread that is about to draw a ticket gets an id, if it runs alone. -/
theorem returns_of_drawing [Fintype τ] (h : Inv s) (hcard : Fintype.card τ ≤ 2 ^ 16)
    (ht : s.threads t = some .drawing) : ∃ n ≤ 2 ^ 17, ∃ s' id, alone s t n = some s' ∧ s'.Holds t id := by
  have hnone := not_holds ht fun id heq => by cases heq
  obtain ⟨id, hid, hfree⟩ := exists_free h hcard hnone
  have hcomes : (s.sq.cidTicket + (id + 2 ^ 16 - s.sq.cidTicket % 2 ^ 16) % 2 ^ 16) % 2 ^ 16 = id := by
    omega
  obtain ⟨n, hn, hreturns⟩ := alone_returns ht (hcomes.symm ▸ hfree)
  exact ⟨n, by omega, hreturns⟩

/-- **A thread in `get_cid` gets an id** that no other thread has, if it runs alone and there are not more threads
than ids. -/
theorem get_cid_returns [Fintype τ] (hcard : Fintype.card τ ≤ 2 ^ 16) {actions : List (Action τ)}
    (hrun : actions.foldlM step initial = some s) {stage : Stage} (ht : s.threads t = some stage) :
    ∃ n ≤ 2 ^ 17 + 1, ∃ s' id, alone s t n = some s' ∧ s'.Holds t id ∧ ∀ t', s'.Holds t' id → t' = t := by
  have hinv := inv_of_run hrun
  have halone : ∃ n ≤ 2 ^ 17 + 1, ∃ s' id, alone s t n = some s' ∧ s'.Holds t id := by
    cases stage with
    | drawing =>
        obtain ⟨n, hn, hreturns⟩ := returns_of_drawing hinv hcard ht
        exact ⟨n, by omega, hreturns⟩
    | locking id =>
        have hstep := step_access ht
        dsimp only [Stage.step] at hstep
        cases hlocked : s.sq.cid id with
        | false =>
            rw [hlocked, if_neg Bool.false_ne_true] at hstep
            exact ⟨1, by omega, _, id, alone_succ hstep 0, Function.update_self t _ _⟩
        | true =>
            rw [hlocked, if_pos rfl] at hstep
            obtain ⟨n, hn, s', id', hs', hholds⟩ :=
              returns_of_drawing (hinv.step hstep) hcard (Function.update_self t _ _)
            exact ⟨n + 1, by omega, s', id', (alone_succ hstep n).trans hs', hholds⟩
    | holding id => exact ⟨0, by omega, s, id, rfl, ht⟩
  obtain ⟨n, hn, s', id, hs', hholds⟩ := halone
  have hrun' : (actions ++ List.replicate n (Action.access t)).foldlM step initial = some s' := by
    rw [List.foldlM_append, hrun]
    exact hs'
  exact ⟨n, hn, s', id, hs', hholds, fun t' ht' => (inv_of_run hrun').exclusive t' t id ht' hholds⟩

/-- Both threads are in `get_cid`; the first one has an id. -/
theorem get_cid_returns_twoThreads :
    ∃ s, [Action.getCid 0, .getCid 1, .access 0, .access 0].foldlM step (initial : State (Fin 2)) = some s ∧
      ∃ n ≤ 2 ^ 17 + 1, ∃ s' id, alone s 1 n = some s' ∧ s'.Holds 1 id ∧ ∀ t', s'.Holds t' id → t' = 1 :=
  ⟨_, rfl, @get_cid_returns (Fin 2) _ _ 1 _ (by decide) [.getCid 0, .getCid 1, .access 0, .access 0] rfl
    .drawing rfl⟩

end CommandIds
end GeminiFS
end InfiniKV
