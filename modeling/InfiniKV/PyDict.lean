/-
**Dictionaries.**

A dictionary maps keys to values and remembers the order in which its keys were inserted: an assignment to a
key that is present keeps the place of the key, and an assignment to a new key puts it at the end.  The keys
of the entries are distinct, which the structure carries.

Main definitions:

* `PyDict` — dictionaries;
* `PyDict.get?`, `PyDict.set`, `PyDict.erase`, `PyDict.filter` — the operations.

Main results:

* `PyDict.get?_set`, `PyDict.get?_erase`, `PyDict.get?_filter` — what is found after an operation;
* `PyDict.mem_entries` — **the entries are what is found**;
* `PyDict.entries_set_perm` — the entries after an assignment, up to their order;
* `PyDict.total_eq`, `PyDict.total_set` — a sum over the values, with one of them apart;
* `PyDict.total_eq_countP` — a sum of zeros and ones counts.
-/

import Mathlib.Data.List.Perm.Basic
import Mathlib.Data.List.Nodup
import Mathlib.Algebra.Group.Int.Defs
import Mathlib.Algebra.GroupWithZero.Nat

set_option relaxedAutoImplicit false
set_option autoImplicit false

/-- A dictionary. -/
structure PyDict (κ α : Type) where
  entries : List (κ × α)
  nodup_keys : (entries.map Prod.fst).Nodup

namespace PyDict

variable {κ α : Type}

/-- Dictionaries with the same entries are equal. -/
@[ext] theorem ext {d d' : PyDict κ α} (h : d.entries = d'.entries) : d = d' := by
  cases d
  cases d'
  cases h
  rfl

/-- The empty dictionary. -/
def empty : PyDict κ α := ⟨[], List.nodup_nil⟩

/-- The values, in the order of their keys. -/
def values (d : PyDict κ α) : List α := d.entries.map Prod.snd

/-- The entries whose value satisfies `p`. -/
def filter (p : α → Bool) (d : PyDict κ α) : PyDict κ α where
  entries := d.entries.filter fun e => p e.2
  nodup_keys := d.nodup_keys.sublist (List.Sublist.map _ List.filter_sublist)

variable [DecidableEq κ]

/-- The value of a key. -/
def get? (d : PyDict κ α) (k : κ) : Option α := d.entries.lookup k

/-- An assignment, in a list of entries. -/
def setEntry (k : κ) (v : α) : List (κ × α) → List (κ × α)
  | [] => [(k, v)]
  | e :: es => if e.1 = k then (k, v) :: es else e :: setEntry k v es

/-- The keys after an assignment. -/
theorem keys_setEntry (k : κ) (v : α) (es : List (κ × α)) :
    (setEntry k v es).map Prod.fst =
      if k ∈ es.map Prod.fst then es.map Prod.fst else es.map Prod.fst ++ [k] := by
  induction es with
  | nil => rfl
  | cons e es ih =>
      rw [setEntry]
      by_cases h : e.1 = k
      · simp [h]
      · have h' : k ≠ e.1 := fun hk => h hk.symm
        rw [if_neg h, List.map_cons, ih]
        by_cases hmem : k ∈ es.map Prod.fst
        · have hcons : k ∈ (e :: es).map Prod.fst := List.mem_cons_of_mem _ hmem
          rw [if_pos hmem, if_pos hcons, List.map_cons]
        · have hcons : k ∉ (e :: es).map Prod.fst := by
            rw [List.map_cons, List.mem_cons, not_or]
            exact ⟨h', hmem⟩
          rw [if_neg hmem, if_neg hcons, List.map_cons, List.cons_append]

/-- An assignment keeps the keys distinct. -/
theorem nodup_keys_setEntry (k : κ) (v : α) {es : List (κ × α)} (hnodup : (es.map Prod.fst).Nodup) :
    ((setEntry k v es).map Prod.fst).Nodup := by
  rw [keys_setEntry]
  split
  · exact hnodup
  · rename_i h
    refine List.nodup_append.2 ⟨hnodup, List.nodup_singleton k, ?_⟩
    intro k' hk' k'' hk'' heq
    rw [List.mem_singleton] at hk''
    exact h (hk'' ▸ heq ▸ hk')

/-- The entries after an assignment, up to their order. -/
theorem setEntry_perm (k : κ) (v : α) {es : List (κ × α)} (hnodup : (es.map Prod.fst).Nodup) :
    (setEntry k v es).Perm ((k, v) :: es.filter fun e => decide (e.1 ≠ k)) := by
  induction es with
  | nil => exact .refl _
  | cons e es ih =>
      rw [List.map_cons, List.nodup_cons] at hnodup
      rw [setEntry]
      by_cases h : e.1 = k
      · -- no other entry has this key
        have hes : es.filter (fun e => decide (e.1 ≠ k)) = es := by
          rw [List.filter_eq_self]
          intro e' he'
          refine decide_eq_true fun hk => hnodup.1 ?_
          rw [h, ← hk]
          exact List.mem_map_of_mem he'
        rw [if_pos h, List.filter_cons_of_neg (by simp [h]), hes]
      · rw [if_neg h, List.filter_cons_of_pos (by simp [h])]
        exact ((ih hnodup.2).cons e).trans (.swap _ _ _)

/-- An assignment. -/
def set (d : PyDict κ α) (k : κ) (v : α) : PyDict κ α where
  entries := setEntry k v d.entries
  nodup_keys := nodup_keys_setEntry k v d.nodup_keys

/-- A key is removed. -/
def erase (d : PyDict κ α) (k : κ) : PyDict κ α where
  entries := d.entries.filter fun e => decide (e.1 ≠ k)
  nodup_keys := d.nodup_keys.sublist (List.Sublist.map _ List.filter_sublist)

/-! ### What is found -/

@[simp] theorem get?_empty (k : κ) : (empty : PyDict κ α).get? k = none := rfl

/-- **The entries are what is found.** -/
theorem mem_entries {d : PyDict κ α} {k : κ} {v : α} : (k, v) ∈ d.entries ↔ d.get? k = some v := by
  obtain ⟨es, hnodup⟩ := d
  rw [get?]
  induction es with
  | nil => simp
  | cons e es ih =>
      rw [List.map_cons, List.nodup_cons] at hnodup
      obtain ⟨k', v'⟩ := e
      rw [List.lookup_cons, List.mem_cons]
      by_cases h : k = k'
      · subst h
        have hnot : (k, v) ∉ es := fun hmem => hnodup.1 (List.mem_map.2 ⟨_, hmem, rfl⟩)
        simp [hnot, eq_comm]
      · rw [beq_eq_false_iff_ne.2 h]
        simpa [h] using ih hnodup.2

/-- What is found after an assignment. -/
theorem get?_set (d : PyDict κ α) (k : κ) (v : α) (k' : κ) :
    (d.set k v).get? k' = if k' = k then some v else d.get? k' := by
  refine Option.ext fun v' => ?_
  have hperm := setEntry_perm k v d.nodup_keys
  have hmem : (k', v') ∈ (d.set k v).entries ↔ (k', v') = (k, v) ∨ (k', v') ∈ d.entries ∧ k' ≠ k := by
    rw [set, hperm.mem_iff, List.mem_cons, List.mem_filter, decide_eq_true_eq]
  rw [← mem_entries, hmem]
  by_cases h : k' = k
  · simp [h, eq_comm]
  · simp [h, mem_entries]

@[simp] theorem get?_set_self (d : PyDict κ α) (k : κ) (v : α) : (d.set k v).get? k = some v := by
  rw [get?_set, if_pos rfl]

theorem get?_set_ne (d : PyDict κ α) {k k' : κ} (v : α) (h : k' ≠ k) :
    (d.set k v).get? k' = d.get? k' := by
  rw [get?_set, if_neg h]

/-- What is found after a key has been removed. -/
theorem get?_erase (d : PyDict κ α) (k k' : κ) :
    (d.erase k).get? k' = if k' = k then none else d.get? k' := by
  refine Option.ext fun v' => ?_
  rw [← mem_entries, erase, List.mem_filter, mem_entries, decide_eq_true_eq]
  by_cases h : k' = k
  · simp [h]
  · simp [h]

/-- A key that is not there cannot be removed. -/
theorem erase_eq_self {d : PyDict κ α} {k : κ} (h : d.get? k = none) : d.erase k = d := by
  refine PyDict.ext (List.filter_eq_self.2 fun e he => decide_eq_true fun heq => ?_)
  have hmem : d.get? e.1 = some e.2 := mem_entries.1 he
  rw [heq, h] at hmem
  cases hmem

/-- What is found after the values have been filtered. -/
theorem get?_filter (p : α → Bool) (d : PyDict κ α) (k : κ) :
    (d.filter p).get? k = (d.get? k).filter p := by
  refine Option.ext fun v => ?_
  rw [← mem_entries, filter, List.mem_filter, mem_entries, Option.filter_eq_some_iff]

/-- The entries after an assignment, up to their order. -/
theorem entries_set_perm (d : PyDict κ α) (k : κ) (v : α) :
    (d.set k v).entries.Perm ((k, v) :: d.entries.filter fun e => decide (e.1 ≠ k)) :=
  setEntry_perm k v d.nodup_keys

/-- **What is found after a list of assignments**: the value of the last one for the key, or what was there. -/
theorem get?_foldl_set {ι : Type} (key : ι → κ) (value : ι → α) (l : List ι) (d : PyDict κ α) (k : κ) (v : α) :
    (l.foldl (fun d i => d.set (key i) (value i)) d).get? k = some v ↔
      (∃ before i after, l = before ++ i :: after ∧ key i = k ∧ value i = v ∧ ∀ i' ∈ after, key i' ≠ k) ∨
        (∀ i ∈ l, key i ≠ k) ∧ d.get? k = some v := by
  induction l generalizing d with
  | nil => simp
  | cons i l ih =>
      rw [List.foldl_cons, ih, get?_set]
      constructor
      · rintro (⟨before, i', after, rfl, hrest⟩ | ⟨hnone, hget⟩)
        · exact Or.inl ⟨i :: before, i', after, rfl, hrest⟩
        · by_cases hk : k = key i
          · rw [if_pos hk, Option.some.injEq] at hget
            exact Or.inl ⟨[], i, l, rfl, hk.symm, hget, hnone⟩
          · rw [if_neg hk] at hget
            exact Or.inr ⟨List.forall_mem_cons.2 ⟨fun h => hk h.symm, hnone⟩, hget⟩
      · rintro (⟨before, i', after, hl, hk, hv, hafter⟩ | ⟨hnone, hget⟩)
        · cases before with
          | nil =>
              obtain ⟨rfl, rfl⟩ := List.cons.inj hl
              exact Or.inr ⟨hafter, by rw [if_pos hk.symm, hv]⟩
          | cons i'' before =>
              obtain ⟨rfl, rfl⟩ := List.cons.inj hl
              exact Or.inl ⟨before, i', after, rfl, hk, hv, hafter⟩
        · rw [List.forall_mem_cons] at hnone
          exact Or.inr ⟨hnone.2, by rw [if_neg fun h => hnone.1 h.symm, hget]⟩

/-! ### Sums over the values -/

/-- The sum of `f` over the values. -/
def total (f : α → ℕ) (d : PyDict κ α) : ℕ := (d.entries.map fun e => f e.2).sum

/-- What is assigned again changes nothing. -/
theorem set_eq_self {d : PyDict κ α} {k : κ} {v : α} (h : d.get? k = some v) : d.set k v = d := by
  obtain ⟨es, hnodup⟩ := d
  refine PyDict.ext ?_
  change setEntry k v es = es
  rw [get?] at h
  change es.lookup k = some v at h
  clear hnodup
  induction es with
  | nil => cases h
  | cons e es ih =>
      obtain ⟨k', v'⟩ := e
      rw [List.lookup_cons] at h
      rw [setEntry]
      by_cases hk : k' = k
      · subst hk
        rw [beq_self_eq_true] at h
        obtain rfl : v' = v := Option.some.inj h
        rw [if_pos rfl]
      · rw [beq_eq_false_iff_ne.2 (Ne.symm hk)] at h
        rw [if_neg hk, ih h]

/-- Of two assignments to a key, the second counts. -/
theorem set_set (d : PyDict κ α) (k : κ) (v w : α) : (d.set k v).set k w = d.set k w := by
  refine PyDict.ext ?_
  change setEntry k w (setEntry k v d.entries) = setEntry k w d.entries
  induction d.entries with
  | nil => simp [setEntry]
  | cons e es ih =>
      by_cases h : e.1 = k
      · simp [setEntry, h]
      · simp [setEntry, h, ih]

/-- A sum after an assignment. -/
theorem total_set (f : α → ℕ) (d : PyDict κ α) (k : κ) (v : α) :
    (d.set k v).total f = f v + (d.erase k).total f := by
  rw [total, ((entries_set_perm d k v).map fun e => f e.2).sum_nat, List.map_cons, List.sum_cons, total, erase]

/-- A sum, with one of the values apart. -/
theorem total_eq (f : α → ℕ) (d : PyDict κ α) (k : κ) :
    d.total f = ((d.get? k).map f).getD 0 + (d.erase k).total f := by
  cases h : d.get? k with
  | none => rw [erase_eq_self h, Option.map_none, Option.getD_none, Nat.zero_add]
  | some v =>
      rw [Option.map_some, Option.getD_some, ← total_set, set_eq_self h]

theorem erase_get?_ne (d : PyDict κ α) {k k' : κ} (h : k' ≠ k) : (d.erase k).get? k' = d.get? k' := by
  rw [get?_erase, if_neg h]

/-- A sum of zeros and ones counts. -/
theorem total_eq_countP {f : α → ℕ} {p : α → Bool} {d : PyDict κ α}
    (h : ∀ k v, d.get? k = some v → f v = if p v then 1 else 0) :
    d.total f = d.entries.countP fun e => p e.2 := by
  have hall : ∀ e ∈ d.entries, f e.2 = if p e.2 then 1 else 0 := fun e he => h e.1 e.2 (mem_entries.1 he)
  rw [total]
  clear h
  revert hall
  induction d.entries with
  | nil => exact fun _ => rfl
  | cons e es ih =>
      intro hall
      rw [List.map_cons, List.sum_cons, List.countP_cons, ih fun e' he' => hall e' (List.mem_cons_of_mem e he'),
        hall e List.mem_cons_self, Nat.add_comm]

end PyDict
