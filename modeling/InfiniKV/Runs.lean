/-
**Runs of a system.**

A system takes one input after the other, and each of them leads to a new state.  A property of a state and
the input that comes in it is considered along a run: it is to hold of each input, in the state in which it
comes.  Two properties that agree in the states where an invariant holds, which what satisfies one of them
keeps, hold along the same runs.

Main definitions:

* `Along`, `AlongSteps` — a property of each input of a run, in its state;
* `answers` — the answers to calls that come one after the other.

Main results:

* `along_iff_of_inv` — **properties that agree under an invariant hold along the same runs**;
* `along_and` — two properties hold along a run if both together do;
* `foldl_inv` — **what each input keeps that is as it should be, a run keeps**;
* `foldlM_inv`, `foldlM_inv_along` — **what each step keeps, a run keeps**, of a system whose steps may be
  refused;
* `answers_ok` — **no call of a run fails**, if none does under an invariant;
* `answers_eq_of_simulation` — **a system that another one simulates gives the same answers**.
-/

import Mathlib.Algebra.Group.Int.Defs
import Mathlib.Algebra.GroupWithZero.Nat

set_option relaxedAutoImplicit false
set_option autoImplicit false

variable {σ α : Type} (step : σ → α → σ)

/-- Something holds of each input of a run, in the state in which it comes. -/
def Along (P : σ → α → Prop) : σ → List α → Prop
  | _, [] => True
  | s, a :: as => P s a ∧ Along P (step s a) as

variable {step} {P Q : σ → α → Prop} {s : σ}

instance Along.decidable [∀ s a, Decidable (P s a)] : ∀ (s : σ) (as : List α), Decidable (Along step P s as)
  | _, [] => inferInstanceAs (Decidable True)
  | s, a :: as =>
      have : Decidable (Along step P (step s a) as) := Along.decidable (step s a) as
      inferInstanceAs (Decidable (P s a ∧ Along step P (step s a) as))

/-- **Two properties hold along the same runs**, if they agree where an invariant holds, and what satisfies
the first keeps the invariant. -/
theorem along_iff_of_inv (inv : σ → Prop) (hstep : ∀ s a, inv s → P s a → inv (step s a))
    (hiff : ∀ s a, inv s → (P s a ↔ Q s a)) (hs : inv s) (as : List α) :
    Along step P s as ↔ Along step Q s as := by
  induction as generalizing s with
  | nil => rfl
  | cons a as ih =>
      rw [Along, Along, ← hiff s a hs]
      exact and_congr_right fun hP => ih (hstep s a hs hP)

/-- Two properties hold along a run if both together do. -/
theorem along_and (as : List α) :
    Along step (fun s a => P s a ∧ Q s a) s as ↔ Along step P s as ∧ Along step Q s as := by
  induction as generalizing s with
  | nil => simp only [Along, and_self]
  | cons a as ih =>
      rw [Along, Along, Along, ih]
      exact and_and_and_comm

/-- Something holds along a run if it holds along its first part, and along the rest from there. -/
theorem along_append (as bs : List α) :
    Along step P s (as ++ bs) ↔ Along step P s as ∧ Along step P (as.foldl step s) bs := by
  induction as generalizing s with
  | nil => exact (and_iff_right trivial).symm
  | cons a as ih => rw [List.cons_append, Along, Along, ih, List.foldl_cons, and_assoc]

/-- **What each input keeps that is as it should be, a run of such inputs keeps.** -/
theorem foldl_inv (inv : σ → Prop) (hstep : ∀ s a, inv s → P s a → inv (step s a)) (as : List α) (hs : inv s)
    (hP : Along step P s as) : inv (as.foldl step s) := by
  induction as generalizing s with
  | nil => exact hs
  | cons a as ih => exact ih (hstep s a hs hP.1) hP.2

/-- What holds along a run holds along its first part. -/
theorem along_take {as : List α} (h : Along step P s as) (n : ℕ) : Along step P s (as.take n) := by
  induction as generalizing s n with
  | nil =>
      rw [List.take_nil]
      exact h
  | cons a as ih =>
      cases n with
      | zero => exact trivial
      | succ n => exact ⟨h.1, ih h.2 n⟩

/-! ### Systems some steps of which cannot be made -/

/-- **What each step keeps, a run keeps**: of a system whose steps may be refused. -/
theorem foldlM_inv {step? : σ → α → Option σ} (inv : σ → Prop)
    (hstep : ∀ s a s', inv s → step? s a = some s' → inv s') {s s' : σ} (as : List α) (hs : inv s)
    (hrun : as.foldlM step? s = some s') : inv s' := by
  induction as generalizing s with
  | nil =>
      rw [List.foldlM_nil] at hrun
      exact Option.some.inj hrun ▸ hs
  | cons a as ih =>
      rw [List.foldlM_cons] at hrun
      obtain ⟨s₁, h₁, h₂⟩ := Option.bind_eq_some_iff.1 hrun
      exact ih (hstep s a s₁ hs h₁) h₂

/-- Something holds of each step of a run that is made: of the state, the input and the state after it. -/
def AlongSteps (step? : σ → α → Option σ) (P : σ → α → σ → Prop) : σ → List α → Prop
  | _, [] => True
  | s, a :: as => ∀ s', step? s a = some s' → P s a s' ∧ AlongSteps step? P s' as

/-- **What each step keeps that is as it should be, a run of such steps keeps.** -/
theorem foldlM_inv_along {step? : σ → α → Option σ} {P : σ → α → σ → Prop} (inv : σ → Prop)
    (hstep : ∀ s a s', inv s → step? s a = some s' → P s a s' → inv s') {s s' : σ} (as : List α) (hs : inv s)
    (hP : AlongSteps step? P s as) (hrun : as.foldlM step? s = some s') : inv s' := by
  induction as generalizing s with
  | nil =>
      rw [List.foldlM_nil] at hrun
      exact Option.some.inj hrun ▸ hs
  | cons a as ih =>
      rw [List.foldlM_cons] at hrun
      obtain ⟨s₁, h₁, h₂⟩ := Option.bind_eq_some_iff.1 hrun
      obtain ⟨hhead, htail⟩ := hP s₁ h₁
      exact ih (hstep s a s₁ hs h₁ hhead) htail h₂

/-! ### Systems that answer -/

section
variable {τ β ε : Type}

/-- The state after a call, which one that fails leaves as it is. -/
def afterCall (call : σ → α → Except ε (β × σ)) (s : σ) (a : α) : σ :=
  match call s a with
  | .ok (_, s') => s'
  | .error _ => s

/-- The answers to calls that come one after the other. -/
def answers (call : σ → α → Except ε (β × σ)) : σ → List α → List (Except ε β)
  | _, [] => []
  | s, a :: as => (call s a).map Prod.fst :: answers call (afterCall call s a) as

/-- **No call of a run fails**, if none does where an invariant holds, and each keeps the invariant. -/
theorem answers_ok {call : σ → α → Except ε (β × σ)} (inv : σ → Prop) {allowed : σ → α → Prop}
    (hstep : ∀ s a, inv s → allowed s a → ∃ b s', call s a = .ok (b, s') ∧ inv s')
    (hs : inv s) (as : List α) (hallowed : Along (afterCall call) allowed s as) :
    ∀ answer ∈ answers call s as, ∃ b, answer = .ok b := by
  induction as generalizing s with
  | nil => exact nofun
  | cons a as ih =>
      obtain ⟨b, s', hcall, hinv⟩ := hstep s a hs hallowed.1
      have hafter : afterCall call s a = s' := by rw [afterCall, hcall]
      intro answer hanswer
      rw [answers, hafter] at hanswer
      rcases List.mem_cons.1 hanswer with rfl | hmem
      · exact ⟨b, by rw [hcall]; rfl⟩
      · exact ih hinv (hafter ▸ hallowed.2) answer hmem

/-- **A system that another one simulates gives the same answers**, along the runs of calls that are
allowed. -/
theorem answers_eq_of_simulation {call : σ → α → Except ε (β × σ)} {spec : τ → α → Except ε (β × τ)}
    (R : σ → τ → Prop) {allowed : τ → α → Prop}
    (hstep : ∀ s t a, R s t → allowed t a →
      (call s a).map Prod.fst = (spec t a).map Prod.fst ∧ R (afterCall call s a) (afterCall spec t a))
    {s : σ} {t : τ} (h : R s t) (as : List α) (hallowed : Along (afterCall spec) allowed t as) :
    answers call s as = answers spec t as := by
  induction as generalizing s t with
  | nil => rfl
  | cons a as ih =>
      obtain ⟨hanswer, hR⟩ := hstep s t a h hallowed.1
      rw [answers, answers, hanswer, ih hR hallowed.2]

end
