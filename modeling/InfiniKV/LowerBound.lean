/-
**Binary search in a sorted list.**

`lowerBound` searches by halving a range, as the standard library of C++ does.  On a sorted list it
finds the place where an element belongs, and inserting it there keeps the list sorted; on any other
list it finds some place.

Main definitions:

* `lowerBound` — the search.

Main results:

* `lowerBound_spec` — **the place that is found**;
* `pairwise_insertIdx_lowerBound` — an insertion at that place keeps the list sorted.
-/

import Mathlib.Data.List.InsertIdx
import Mathlib.Order.Lattice

set_option relaxedAutoImplicit false
set_option autoImplicit false

variable {α : Type} [LinearOrder α]

/-- The halving of `std::lower_bound`: the first place in the `len` many from `first` on whose element
is not below `x`. -/
def lowerBoundFrom (l : List α) (x : α) (first len : ℕ) : ℕ :=
  if len = 0 then first
  else
    let half := len / 2
    match l[first + half]? with
    | none => first
    | some y =>
        if y < x then lowerBoundFrom l x (first + half + 1) (len - half - 1)
        else lowerBoundFrom l x first half
termination_by len

/-- `std::lower_bound` over a whole list. -/
def lowerBound (l : List α) (x : α) : ℕ := lowerBoundFrom l x 0 l.length

/-- **The place that is found** lies in the range; below it all elements are below `x`, from it on
none. -/
theorem lowerBoundFrom_spec {l : List α} {x : α} (hl : l.Pairwise (· < ·)) (first len : ℕ)
    (hlen : first + len ≤ l.length) (hbelow : ∀ i y, i < first → l[i]? = some y → y < x)
    (habove : ∀ i y, first + len ≤ i → l[i]? = some y → x ≤ y) :
    lowerBoundFrom l x first len ≤ l.length ∧
      (∀ i y, i < lowerBoundFrom l x first len → l[i]? = some y → y < x) ∧
      ∀ i y, lowerBoundFrom l x first len ≤ i → l[i]? = some y → x ≤ y := by
  have hsorted := List.pairwise_iff_getElem.mp hl
  induction first, len using lowerBoundFrom.induct l x with
  | case1 first =>
      rw [lowerBoundFrom, if_pos rfl]
      exact ⟨hlen, hbelow, habove⟩
  | case2 first len hne half hnone =>
      -- the middle of the range lies in the list
      have hout := List.getElem?_eq_none_iff.mp hnone
      omega
  | case3 first len hne half y hy hlt ih =>
      have hstep : lowerBoundFrom l x first len =
          lowerBoundFrom l x (first + half + 1) (len - half - 1) := by
        rw [lowerBoundFrom, if_neg hne]
        simp only [half] at hy ⊢
        simp only [hy, if_pos hlt]
      rw [hstep]
      apply ih (by omega)
      · intro i z hi hz
        obtain ⟨hi', rfl⟩ := List.getElem?_eq_some_iff.mp hz
        obtain ⟨hmid, rfl⟩ := List.getElem?_eq_some_iff.mp hy
        rcases Nat.lt_or_ge i (first + half) with hi'' | hi''
        · exact (hsorted i _ hi' hmid hi'').trans hlt
        · have heq : i = first + half := by omega
          subst heq
          exact hlt
      · intro i z hi hz
        exact habove i z (by omega) hz
  | case4 first len hne half y hy hge ih =>
      have hstep : lowerBoundFrom l x first len = lowerBoundFrom l x first half := by
        rw [lowerBoundFrom, if_neg hne]
        simp only [half] at hy ⊢
        simp only [hy, if_neg hge]
      rw [hstep]
      apply ih (by omega) hbelow
      intro i z hi hz
      obtain ⟨hi', rfl⟩ := List.getElem?_eq_some_iff.mp hz
      obtain ⟨hmid, rfl⟩ := List.getElem?_eq_some_iff.mp hy
      rcases Nat.eq_or_lt_of_le hi with rfl | hi''
      · exact not_lt.mp hge
      · exact (not_lt.mp hge).trans (hsorted _ i hmid hi' hi'').le

theorem lowerBound_spec {l : List α} (hl : l.Pairwise (· < ·)) (x : α) :
    lowerBound l x ≤ l.length ∧
      (∀ i y, i < lowerBound l x → l[i]? = some y → y < x) ∧
      ∀ i y, lowerBound l x ≤ i → l[i]? = some y → x ≤ y := by
  apply lowerBoundFrom_spec hl 0 l.length (by omega)
  · intro i y hi
    omega
  · intro i y hi hy
    obtain ⟨hi', -⟩ := List.getElem?_eq_some_iff.mp hy
    omega

/-- An element that is not in the list is not at the place where it belongs. -/
theorem getElem?_lowerBound_ne {l : List α} {x : α} (hx : x ∉ l) :
    l[lowerBound l x]? ≠ some x := by
  intro h
  exact hx (List.mem_of_getElem? h)

theorem insertIdx_eq_take_append_drop {β : Type} (l : List β) (x : β) {k : ℕ} (hk : k ≤ l.length) :
    l.insertIdx k x = l.take k ++ x :: l.drop k := by
  induction k generalizing l with
  | zero => simp
  | succ k ih =>
      cases l with
      | nil => simp at hk
      | cons y l => simp [ih l (by simpa using hk)]

/-- **An insertion at that place keeps the list sorted.** -/
theorem pairwise_insertIdx_lowerBound {l : List α} {x : α} (hl : l.Pairwise (· < ·)) (hx : x ∉ l) :
    (l.insertIdx (lowerBound l x) x).Pairwise (· < ·) := by
  obtain ⟨hle, hbelow, habove⟩ := lowerBound_spec hl x
  rw [insertIdx_eq_take_append_drop l x hle]
  have hlow : ∀ y ∈ l.take (lowerBound l x), y < x := by
    intro y hy
    obtain ⟨i, hi, rfl⟩ := List.mem_iff_getElem.mp hy
    rw [List.length_take] at hi
    rw [List.getElem_take]
    exact hbelow i _ (by omega) (List.getElem?_eq_getElem _)
  have hhigh : ∀ y ∈ l.drop (lowerBound l x), x < y := by
    intro y hy
    have hne : x ≠ y := by
      rintro rfl
      exact hx (List.mem_of_mem_drop hy)
    obtain ⟨i, hi, rfl⟩ := List.mem_iff_getElem.mp hy
    rw [List.getElem_drop] at hne ⊢
    exact lt_of_le_of_ne (habove _ _ (by omega) (List.getElem?_eq_getElem _)) hne
  rw [List.pairwise_append, List.pairwise_cons]
  refine ⟨hl.sublist (List.take_sublist _ _), ⟨hhigh, hl.sublist (List.drop_sublist _ _)⟩, ?_⟩
  intro a ha b hb
  rcases List.mem_cons.mp hb with rfl | hb
  · exact hlow a ha
  · exact (hlow a ha).trans (hhigh b hb)
