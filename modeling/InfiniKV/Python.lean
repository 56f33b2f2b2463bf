/-
**The fragment of Python the model is written in.**

Exceptions, generators, slices and the two ways of turning integers into bytes that the token
database uses.  Text that is computed on is a list of characters; text that is only compared is a
`String`.

Main definitions:

* `InfiniKV.PyError` — the exceptions the modelled code can raise;
* `InfiniKV.Generator` — what a generator yields, and the exception it ends with, if any;
* `InfiniKV.uint32Bytes` — the four bytes of an unsigned 32-bit integer, least significant first;
* `InfiniKV.cdiv` — division rounded up.
-/

import Mathlib.Algebra.Group.Int.Defs
import Mathlib.Algebra.GroupWithZero.Nat
import Mathlib.Data.List.Basic
import Mathlib.Data.Nat.Basic

set_option relaxedAutoImplicit false
set_option autoImplicit false

namespace InfiniKV

/-- Text that the program computes on. -/
abbrev Str := List Char

/-- The exceptions the modelled code can raise. -/
inductive PyError where
  | valueError (msg : String)
  | overflowError
  | indexError
  | keyError
  | typeError
  | attributeError
  | assertionError (msg : String)
  | runtimeError (msg : String)
  | stopIteration
  deriving DecidableEq, Repr

/-- A sequence of two computations returns when both do. -/
theorem bind_eq_ok {α β : Type} {x : Except PyError α} {f : α → Except PyError β} {r : β} :
    (x >>= f) = .ok r ↔ ∃ a, x = .ok a ∧ f a = .ok r := by
  cases x with
  | error e =>
      constructor
      · intro h
        cases h
      · rintro ⟨a, h, -⟩
        cases h
  | ok a =>
      constructor
      · intro h
        exact ⟨a, rfl, h⟩
      · rintro ⟨b, h, h'⟩
        cases h
        exact h'

theorem map_eq_ok {α β : Type} {x : Except PyError α} {f : α → β} {r : β} :
    x.map f = .ok r ↔ ∃ a, x = .ok a ∧ f a = r := by
  cases x with
  | error e => simp [Except.map]
  | ok a => simp [Except.map]

theorem map_eq_error {α β : Type} {x : Except PyError α} {f : α → β} {e : PyError} :
    x.map f = .error e ↔ x = .error e := by
  cases x with
  | error e' => simp [Except.map]
  | ok a => simp [Except.map]

/-- A sequence of two computations raises no exception that neither of them does. -/
theorem bind_ne_error {α β : Type} {x : Except PyError α} {f : α → Except PyError β} {e : PyError}
    (hx : x ≠ .error e) (hf : ∀ a, x = .ok a → f a ≠ .error e) : (x >>= f) ≠ .error e := by
  cases x with
  | error e' =>
      intro h
      cases h
      exact hx rfl
  | ok a => exact hf a rfl

theorem map_ne_error {α β : Type} {x : Except PyError α} {f : α → β} {e : PyError}
    (hx : x ≠ .error e) : x.map f ≠ .error e := by
  cases x with
  | error e' =>
      intro h
      cases h
      exact hx rfl
  | ok a => exact fun h => by cases h

/-- A generator: the values it yields in order, and the exception its body ends with, if any. -/
structure Generator (α : Type) where
  yields : List α
  raises : Option PyError
  deriving DecidableEq

namespace Generator

variable {α β : Type}

/-- A generator that raises before it yields anything. -/
def raise (e : PyError) : Generator α := ⟨[], some e⟩

/-- A generator that yields `a` and goes on as `g`. -/
def yield (a : α) (g : Generator α) : Generator α := ⟨a :: g.yields, g.raises⟩

/-- The values `f` makes of the yields of `g`, where it makes any. -/
def filterMap (f : α → Option β) (g : Generator α) : Generator β :=
  ⟨g.yields.filterMap f, g.raises⟩

end Generator

/-- The four bytes of an unsigned 32-bit integer, least significant first. -/
def uint32Bytes (n : ℕ) : List UInt8 :=
  [UInt8.ofNat n, UInt8.ofNat (n / 2 ^ 8), UInt8.ofNat (n / 2 ^ 16), UInt8.ofNat (n / 2 ^ 24)]

@[simp] theorem length_uint32Bytes (n : ℕ) : (uint32Bytes n).length = 4 := rfl

/-- Below `2 ^ 32`, the bytes determine the integer. -/
theorem uint32Bytes_inj {m n : ℕ} (hm : m < 2 ^ 32) (hn : n < 2 ^ 32)
    (h : uint32Bytes m = uint32Bytes n) : m = n := by
  simp only [uint32Bytes, List.cons.injEq, and_true] at h
  obtain ⟨h₀, h₁, h₂, h₃⟩ := h
  have e₀ := congrArg UInt8.toNat h₀
  have e₁ := congrArg UInt8.toNat h₁
  have e₂ := congrArg UInt8.toNat h₂
  have e₃ := congrArg UInt8.toNat h₃
  simp only [UInt8.toNat_ofNat'] at e₀ e₁ e₂ e₃
  omega

/-- Division rounded up. -/
def cdiv (a b : ℕ) : ℕ := (a + b - 1) / b

theorem cdiv_mul {b : ℕ} (hb : 0 < b) (k : ℕ) : cdiv (k * b) b = k := by
  rw [cdiv, Nat.div_eq_iff hb]
  omega

theorem lt_cdiv_iff {a b k : ℕ} (hb : 0 < b) : k < cdiv a b ↔ k * b < a := by
  rw [cdiv, ← Nat.succ_le_iff, Nat.le_div_iff_mul_le hb, Nat.succ_mul]
  omega

theorem cdiv_le_iff {a b k : ℕ} (hb : 0 < b) : cdiv a b ≤ k ↔ a ≤ k * b := by
  rw [← not_lt, lt_cdiv_iff hb, not_lt]

end InfiniKV
