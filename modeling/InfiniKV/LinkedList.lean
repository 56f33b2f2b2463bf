/-
**Doubly linked lists.**

The nodes of a list carry their links themselves: each names the one before it and the one after it.  Whether
the links of some nodes make up a given list is a property of each two that follow one another; a link is
set for two nodes at a time, and it joins the list that ends with the one to the list that begins with the
other.

Main definitions:

* `Links` — the links of the nodes;
* `Links.Linked` — the links make up a list;
* `Links.link`, `Links.detach`, `Links.linkOn` — the operations.

Main results:

* `Links.Linked.link` — **a link joins two lists**;
* `Links.Linked.detach` — a node outside of a list may be detached;
* `Links.Linked.linkOn`, `Links.Linked.linkOn_link` — nodes are appended one after the other.
-/

import Mathlib.Data.List.Chain
import Mathlib.Data.List.Nodup
import Mathlib.Data.Nat.Notation
import Mathlib.Logic.Function.Basic

set_option relaxedAutoImplicit false
set_option autoImplicit false

/-- The links of the nodes, where `none` stands for no node. -/
structure Links (ν : Type) where
  prev : ν → Option ν
  next : ν → Option ν

namespace Links

variable {ν : Type}

/-- No node is linked. -/
def empty : Links ν := ⟨fun _ => none, fun _ => none⟩

/-- The nodes of `l` are linked, each with the next. -/
def Linked (L : Links ν) (l : List ν) : Prop := l.IsChain fun a b => L.next a = some b ∧ L.prev b = some a

section
variable {L L' : Links ν} {l xs ys : List ν} {a b : ν}

/-- What the first and the last node of a list are linked with on the other side does not matter. -/
theorem Linked.congr (h : L.Linked l) (hnext : ∀ a ∈ l.dropLast, L'.next a = L.next a)
    (hprev : ∀ b ∈ l.tail, L'.prev b = L.prev b) : L'.Linked l := by
  induction l with
  | nil => exact List.isChain_nil
  | cons a l ih =>
      cases l with
      | nil => exact List.isChain_singleton a
      | cons b l =>
          obtain ⟨⟨hab, hba⟩, hl⟩ := List.isChain_cons_cons.1 h
          refine List.isChain_cons_cons.2 ⟨⟨?_, ?_⟩, ih hl (fun c hc => ?_) fun c hc => ?_⟩
          · rw [hnext a (by simp), hab]
          · rw [hprev b (by simp), hba]
          · exact hnext c (by simp [hc])
          · exact hprev c (by simp at hc ⊢; exact Or.inr hc)

/-- The first two nodes. -/
theorem Linked.first (h : L.Linked (a :: b :: ys)) : L.next a = some b ∧ L.prev b = some a :=
  (List.isChain_cons_cons.1 h).1

theorem Linked.tail (h : L.Linked (a :: ys)) : L.Linked ys := List.IsChain.tail h

theorem Linked.left (h : L.Linked (xs ++ ys)) : L.Linked xs := List.IsChain.left_of_append h

theorem Linked.right (h : L.Linked (xs ++ ys)) : L.Linked ys := List.IsChain.right_of_append h

/-- Two nodes that follow one another. -/
theorem Linked.pair (h : L.Linked (xs ++ a :: b :: ys)) : L.next a = some b ∧ L.prev b = some a :=
  h.right.first

end

variable [DecidableEq ν]

/-- `a` and `b` are linked, `a` first. -/
def link (L : Links ν) (a b : ν) : Links ν :=
  ⟨Function.update L.prev b (some a), Function.update L.next a (some b)⟩

/-- `b` is linked with no node, while others may still name it. -/
def detach (L : Links ν) (b : ν) : Links ν := ⟨Function.update L.prev b none, Function.update L.next b none⟩

/-- Nodes are linked one after the other, behind `last`; the last of them is returned. -/
def linkOn (L : Links ν) (last : ν) : List ν → Links ν × ν
  | [] => (L, last)
  | b :: bs => (L.link last b).linkOn b bs

section
variable {L : Links ν} {l xs ys bs : List ν} {a b c : ν}

@[simp] theorem link_next : (L.link a b).next = Function.update L.next a (some b) := rfl

@[simp] theorem link_prev : (L.link a b).prev = Function.update L.prev b (some a) := rfl

@[simp] theorem detach_next : (L.detach b).next = Function.update L.next b none := rfl

@[simp] theorem detach_prev : (L.detach b).prev = Function.update L.prev b none := rfl

/-- **A link joins two lists.** -/
theorem Linked.link (hl : L.Linked (xs ++ [a])) (hr : L.Linked (b :: ys))
    (hnodup : (xs ++ a :: b :: ys).Nodup) : (L.link a b).Linked (xs ++ a :: b :: ys) := by
  obtain ⟨hxs, hrest, hdisj⟩ := List.nodup_append.1 hnodup
  obtain ⟨ha, hb, -⟩ : a ∉ b :: ys ∧ b ∉ ys ∧ ys.Nodup := by
    rw [List.nodup_cons, List.nodup_cons] at hrest
    exact hrest
  have hax : ∀ x ∈ xs, x ≠ a := fun x hx => hdisj x hx a (by simp)
  have hbx : ∀ x ∈ xs, x ≠ b := fun x hx => hdisj x hx b (by simp)
  have hleft : (L.link a b).Linked (xs ++ [a]) := by
    refine hl.congr (fun x hx => ?_) fun x hx => ?_
    · rw [List.dropLast_concat] at hx
      exact Function.update_of_ne (hax x hx) _ _
    · refine Function.update_of_ne ?_ _ _
      rcases List.mem_append.1 (List.mem_of_mem_tail hx) with hx | hx
      · exact hbx x hx
      · rw [List.mem_singleton.1 hx]
        exact fun heq => ha (heq ▸ List.mem_cons_self)
  have hright : (L.link a b).Linked (b :: ys) := by
    refine hr.congr (fun x hx => ?_) fun x hx => ?_
    · refine Function.update_of_ne ?_ _ _
      rintro rfl
      exact ha (List.dropLast_subset _ hx)
    · refine Function.update_of_ne ?_ _ _
      rintro rfl
      exact hb hx
  rw [Linked, List.isChain_split]
  refine ⟨hleft, List.isChain_cons_cons.2 ⟨⟨?_, ?_⟩, hright⟩⟩
  · rw [link_next, Function.update_self]
  · rw [link_prev, Function.update_self]

/-- A node is linked with the first one of a list. -/
theorem Linked.link_first (h : L.Linked (b :: ys)) (hnodup : (a :: b :: ys).Nodup) :
    (L.link a b).Linked (a :: b :: ys) :=
  (show L.Linked ([] ++ [a]) from List.isChain_singleton a).link h hnodup

/-- A node outside of a list may be detached. -/
theorem Linked.detach (h : L.Linked l) (hb : b ∉ l) : (L.detach b).Linked l := by
  refine h.congr (fun x hx => ?_) fun x hx => ?_
  · refine Function.update_of_ne ?_ _ _
    rintro rfl
    exact hb (List.dropLast_subset _ hx)
  · refine Function.update_of_ne ?_ _ _
    rintro rfl
    exact hb (List.mem_of_mem_tail hx)

/-- **Nodes are appended one after the other.** -/
theorem Linked.linkOn (h : L.Linked (xs ++ [a])) (hnodup : (xs ++ a :: bs).Nodup) :
    ∃ ys, (L.linkOn a bs).1.Linked (ys ++ [(L.linkOn a bs).2]) ∧
      ys ++ [(L.linkOn a bs).2] = xs ++ a :: bs := by
  induction bs generalizing L xs a with
  | nil => exact ⟨xs, h, rfl⟩
  | cons b bs ih =>
      have hlink : (L.link a b).Linked ((xs ++ [a]) ++ [b]) := by
        rw [List.append_assoc]
        refine h.link (List.isChain_singleton b) (hnodup.sublist ?_)
        exact (List.Sublist.refl xs).append ((List.Sublist.cons_cons a
          (List.Sublist.cons_cons b (List.nil_sublist bs))))
      obtain ⟨ys, hys, heq⟩ := ih hlink (by rwa [List.append_assoc])
      exact ⟨ys, hys, by rw [Links.linkOn, heq, List.append_assoc]; rfl⟩

/-- Nodes are put between the end of a list and another node. -/
theorem Linked.linkOn_link (h : L.Linked (xs ++ [a])) (hnodup : (xs ++ a :: (bs ++ [c])).Nodup) :
    ((L.linkOn a bs).1.link (L.linkOn a bs).2 c).Linked (xs ++ a :: (bs ++ [c])) := by
  have hsplit : xs ++ a :: (bs ++ [c]) = (xs ++ a :: bs) ++ [c] := by simp
  rw [hsplit] at hnodup ⊢
  obtain ⟨ys, hys, heq⟩ := h.linkOn (List.nodup_append.1 hnodup).1
  rw [← heq] at hnodup ⊢
  rw [List.append_assoc] at hnodup ⊢
  exact hys.link (List.isChain_singleton c) hnodup

/-- The links of other nodes stay as they are. -/
theorem linkOn_of_notMem (hc : c ∉ bs) :
    (L.linkOn a bs).1.prev c = L.prev c ∧ (c ≠ a → (L.linkOn a bs).1.next c = L.next c) := by
  induction bs generalizing L a with
  | nil => exact ⟨rfl, fun _ => rfl⟩
  | cons b bs ih =>
      obtain ⟨hcb, hcbs⟩ : c ≠ b ∧ c ∉ bs := by simpa using hc
      obtain ⟨h₁, h₂⟩ := ih (L := L.link a b) (a := b) hcbs
      refine ⟨?_, fun hca => ?_⟩
      · rw [Links.linkOn, h₁, link_prev, Function.update_of_ne hcb]
      · rw [Links.linkOn, h₂ hcb, link_next, Function.update_of_ne hca]

end

end Links
