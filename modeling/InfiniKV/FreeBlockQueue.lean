/-
**The queue of free blocks.**

The blocks of the KV cache that no request holds are kept in a doubly linked list, whose links are attributes
of the blocks, between a fake head and a fake tail.  The queue counts its blocks beside that.

Main definitions:

* `InfiniKV.KVCache.FreeKVCacheBlockQueue` — the queue, with `popleft`, `popleftN`, `remove`, `append` and
  `appendN`;
* `InfiniKV.KVCache.Represents` — the links make up a list of blocks;
* `InfiniKV.KVCache.QueueCall` — a call, with what it does to the queue and what it does to a list.

Main results:

* `InfiniKV.KVCache.Represents.popleftN`, `InfiniKV.KVCache.Represents.remove`,
  `InfiniKV.KVCache.Represents.appendN`, … — one lemma for each method;
* `InfiniKV.KVCache.queue_refines` — **the queue behaves as a list**, the exceptions included.
-/

import InfiniKV.LinkedList
import InfiniKV.Python
import InfiniKV.Runs

set_option relaxedAutoImplicit false
set_option autoImplicit false

namespace InfiniKV
namespace KVCache

/-- A `KVCacheBlock`: one of the pool, or one of the two fakes at the ends of the queue. -/
inductive KVCacheBlock where
  | block (blockId : ℕ)
  | fakeFreeListHead
  | fakeFreeListTail
  deriving DecidableEq, Repr

/-- `FreeKVCacheBlockQueue`, with `prev_free_block` and `next_free_block` of all blocks. -/
structure FreeKVCacheBlockQueue where
  links : Links KVCacheBlock
  numFreeBlocks : ℤ

namespace FreeKVCacheBlockQueue

/-- `FreeKVCacheBlockQueue(blocks)`: consecutive blocks are linked, and the fakes with the first and the last
of them, or with one another. -/
def new (blocks : List KVCacheBlock) : FreeKVCacheBlockQueue :=
  let (links, last) := Links.empty.linkOn .fakeFreeListHead blocks
  ⟨links.link last .fakeFreeListTail, blocks.length⟩

/-- `popleft`. -/
def popleft (q : FreeKVCacheBlockQueue) : Except PyError (KVCacheBlock × FreeKVCacheBlockQueue) :=
  let noFreeBlocks : PyError :=
    if q.numFreeBlocks = 0 then .valueError "No free blocks available"
    else .assertionError s!"num_free_blocks ({q.numFreeBlocks}) is out of sync with the free list."
  match q.links.next .fakeFreeListHead with
  | none => .error noFreeBlocks
  | some firstBlock =>
      if firstBlock = .fakeFreeListTail then .error noFreeBlocks
      else match q.links.next firstBlock with
        | none => .error (.runtimeError
            "Invalid block found in popleft() which doesn't have a valid next_free_block")
        | some second =>
            .ok (firstBlock, ⟨(q.links.link .fakeFreeListHead second).detach firstBlock, q.numFreeBlocks - 1⟩)

/-- The loop of `popleft_n`: the popped blocks, the links, and `curr_block`. -/
def popLoop : ℕ → Links KVCacheBlock → Option KVCacheBlock →
    Except PyError (List KVCacheBlock × Links KVCacheBlock × Option KVCacheBlock)
  | 0, links, curr => .ok ([], links, curr)
  | _ + 1, _, none => .error (.assertionError "")
  | n + 1, links, some curr => do
      let (ret, links, next) ← popLoop n (links.detach curr) (links.next curr)
      .ok (curr :: ret, links, next)

/-- `popleft_n`. -/
def popleftN (q : FreeKVCacheBlockQueue) (n : ℤ) : Except PyError (List KVCacheBlock × FreeKVCacheBlockQueue) :=
  if n = 0 then .ok ([], q)
  else if q.numFreeBlocks < n then .error (.assertionError "")
  else do
    let (ret, links, curr) ← popLoop n.toNat q.links (q.links.next .fakeFreeListHead)
    .ok (ret, ⟨match curr with
      | none => links
      | some curr => links.link .fakeFreeListHead curr, q.numFreeBlocks - n⟩)

/-- `remove`.  The text of the exception shows the block. -/
def remove (q : FreeKVCacheBlockQueue) (block : KVCacheBlock) : Except PyError FreeKVCacheBlockQueue :=
  match q.links.prev block, q.links.next block with
  | some prev, some next => .ok ⟨(q.links.link prev next).detach block, q.numFreeBlocks - 1⟩
  | _, _ => .error (.runtimeError "remove() called on an invalid block")

/-- `append`. -/
def append (q : FreeKVCacheBlockQueue) (block : KVCacheBlock) : Except PyError FreeKVCacheBlockQueue :=
  match q.links.prev .fakeFreeListTail with
  | none => .error (.runtimeError "prev_free_block of fake_free_list_tail should always exist")
  | some lastBlock => .ok ⟨(q.links.link lastBlock block).link block .fakeFreeListTail, q.numFreeBlocks + 1⟩

/-- `append_n`. -/
def appendN (q : FreeKVCacheBlockQueue) (blocks : List KVCacheBlock) : Except PyError FreeKVCacheBlockQueue :=
  if blocks.length = 0 then .ok q
  else match q.links.prev .fakeFreeListTail with
    | none => .error (.assertionError "prev_free_block of fake_free_list_tail should always exist")
    | some lastBlock =>
        let (links, last) := q.links.linkOn lastBlock blocks
        .ok ⟨links.link last .fakeFreeListTail, q.numFreeBlocks + blocks.length⟩

end FreeKVCacheBlockQueue

/-! ### What the links make up -/

/-- The links make up the list `l`, between the fakes, and no other block has any. -/
structure Represents (q : FreeKVCacheBlockQueue) (l : List KVCacheBlock) : Prop where
  linked : q.links.Linked (.fakeFreeListHead :: (l ++ [.fakeFreeListTail]))
  nodup : (KVCacheBlock.fakeFreeListHead :: (l ++ [.fakeFreeListTail])).Nodup
  count : q.numFreeBlocks = l.length
  unlinked : ∀ b, b ∉ l → b ≠ .fakeFreeListHead → b ≠ .fakeFreeListTail →
    q.links.prev b = none ∧ q.links.next b = none

open FreeKVCacheBlockQueue

section
variable {q : FreeKVCacheBlockQueue} {l xs ys blocks : List KVCacheBlock} {b : KVCacheBlock} {n : ℕ}

theorem Represents.nodup_list (h : Represents q l) : l.Nodup :=
  (List.nodup_append.1 (List.nodup_cons.1 h.nodup).2).1

theorem Represents.head_notMem (h : Represents q l) : KVCacheBlock.fakeFreeListHead ∉ l := fun hmem =>
  (List.nodup_cons.1 h.nodup).1 (List.mem_append_left _ hmem)

theorem Represents.tail_notMem (h : Represents q l) : KVCacheBlock.fakeFreeListTail ∉ l := fun hmem =>
  (List.nodup_append.1 (List.nodup_cons.1 h.nodup).2).2.2 _ hmem _ List.mem_cons_self rfl

/-- A list without duplicates stands between the two fakes, if it has neither of them. -/
theorem nodup_between (hnodup : l.Nodup) (hhead : KVCacheBlock.fakeFreeListHead ∉ l)
    (htail : KVCacheBlock.fakeFreeListTail ∉ l) :
    (KVCacheBlock.fakeFreeListHead :: (l ++ [.fakeFreeListTail])).Nodup := by
  rw [List.nodup_cons, List.nodup_append]
  refine ⟨by simp [hhead], hnodup, List.nodup_singleton _, fun a ha b hb => ?_⟩
  rw [List.mem_singleton.1 hb]
  rintro rfl
  exact htail ha

/-- The blocks are put in before the fake tail. -/
theorem represents_linkOn (blocks : List KVCacheBlock) {links : Links KVCacheBlock} {last : KVCacheBlock} {count : ℤ}
    (hlinked : links.Linked (xs ++ [last])) (hxs : xs ++ [last] = .fakeFreeListHead :: ys)
    (hunlinked : ∀ b, b ∉ ys → b ≠ .fakeFreeListHead → b ≠ .fakeFreeListTail →
      links.prev b = none ∧ links.next b = none)
    (hcount : count = (ys ++ blocks).length)
    (hnodup : (ys ++ blocks).Nodup) (hhead : KVCacheBlock.fakeFreeListHead ∉ ys ++ blocks)
    (htail : KVCacheBlock.fakeFreeListTail ∉ ys ++ blocks) :
    Represents ⟨(links.linkOn last blocks).1.link (links.linkOn last blocks).2 .fakeFreeListTail, count⟩
      (ys ++ blocks) := by
  have hlist : KVCacheBlock.fakeFreeListHead :: (ys ++ blocks ++ [.fakeFreeListTail]) =
      xs ++ last :: (blocks ++ [.fakeFreeListTail]) := by
    rw [List.append_assoc, ← List.cons_append, ← hxs, List.append_assoc]
    rfl
  have hbetween := nodup_between hnodup hhead htail
  refine ⟨?_, hbetween, hcount, fun b hb hbhead hbtail => ?_⟩
  · rw [hlist] at hbetween ⊢
    exact hlinked.linkOn_link hbetween
  · rw [List.mem_append, not_or] at hb
    -- the last of the blocks is one of them, or the last of those that were there
    have hlast : ∀ (links : Links KVCacheBlock) (a : KVCacheBlock) (bs : List KVCacheBlock),
        b ≠ a → b ∉ bs → b ≠ (links.linkOn a bs).2 := by
      intro links a bs
      induction bs generalizing links a with
      | nil => exact fun h _ => h
      | cons c bs ih =>
          intro _ hbs
          rw [List.mem_cons, not_or] at hbs
          exact ih (links.link a c) c hbs.1 hbs.2
    have hbl : b ≠ last := by
      rintro rfl
      have hmem : b ∈ KVCacheBlock.fakeFreeListHead :: ys := hxs ▸ List.mem_append_right xs (List.mem_singleton_self b)
      rcases List.mem_cons.1 hmem with heq | hmem
      · exact hbhead heq
      · exact hb.1 hmem
    obtain ⟨h₁, h₂⟩ := hunlinked b hb.1 hbhead hbtail
    obtain ⟨h₃, h₄⟩ := Links.linkOn_of_notMem (L := links) (a := last) hb.2
    constructor
    · rw [Links.link_prev, Function.update_of_ne hbtail, h₃, h₁]
    · rw [Links.link_next, Function.update_of_ne (hlast links last blocks hbl hb.2), h₄ hbl, h₂]

/-- A new queue has the blocks it was made of. -/
theorem represents_new (hnodup : blocks.Nodup) (hhead : KVCacheBlock.fakeFreeListHead ∉ blocks)
    (htail : KVCacheBlock.fakeFreeListTail ∉ blocks) :
    Represents (FreeKVCacheBlockQueue.new blocks) blocks :=
  represents_linkOn blocks (show Links.empty.Linked ([] ++ [_]) from List.isChain_singleton _) rfl (fun _ _ _ _ => ⟨rfl, rfl⟩) rfl hnodup
    hhead htail

/-- What is before a block of the queue, and what is behind it. -/
theorem Represents.split (h : Represents q (xs ++ b :: ys)) :
    ∃ zs a c ws, KVCacheBlock.fakeFreeListHead :: xs = zs ++ [a] ∧
      ys ++ [KVCacheBlock.fakeFreeListTail] = c :: ws ∧ q.links.prev b = some a ∧ q.links.next b = some c ∧
      q.links.Linked (zs ++ [a]) ∧ q.links.Linked (c :: ws) := by
  obtain ⟨zs, a, hzs⟩ : ∃ zs a, KVCacheBlock.fakeFreeListHead :: xs = zs ++ [a] :=
    ⟨_, _, (List.dropLast_append_getLast (List.cons_ne_nil _ xs)).symm⟩
  obtain ⟨c, ws, hws⟩ : ∃ c ws, ys ++ [KVCacheBlock.fakeFreeListTail] = c :: ws :=
    List.exists_cons_of_ne_nil (List.append_ne_nil_of_right_ne_nil _ (List.cons_ne_nil _ _))
  have hlinked : q.links.Linked (zs ++ a :: b :: c :: ws) := by
    have hlist : KVCacheBlock.fakeFreeListHead :: (xs ++ b :: ys ++ [.fakeFreeListTail]) =
        zs ++ a :: b :: c :: ws := by
      rw [List.append_assoc, List.cons_append, hws, ← List.cons_append, hzs, List.append_assoc]
      rfl
    rw [← hlist]
    exact h.linked
  refine ⟨zs, a, c, ws, hzs, hws, hlinked.pair.2, ?_, ?_, ?_⟩
  · rw [List.append_cons] at hlinked
    exact hlinked.pair.1
  · rw [List.append_cons] at hlinked
    exact hlinked.left
  · rw [List.append_cons, List.append_cons] at hlinked
    exact hlinked.right

/-- A block is taken out, and what was before it is linked with what was behind it. -/
theorem Represents.unlink (h : Represents q (xs ++ b :: ys)) {a c : KVCacheBlock}
    (ha : q.links.prev b = some a) (hc : q.links.next b = some c) :
    Represents ⟨(q.links.link a c).detach b, q.numFreeBlocks - 1⟩ (xs ++ ys) := by
  obtain ⟨zs, a', c', ws, hzs, hws, ha', hc', hleft, hright⟩ := h.split
  obtain rfl : a = a' := Option.some.inj (ha.symm.trans ha')
  obtain rfl : c = c' := Option.some.inj (hc.symm.trans hc')
  have hlist : KVCacheBlock.fakeFreeListHead :: (xs ++ ys ++ [.fakeFreeListTail]) = zs ++ a :: c :: ws := by
    rw [List.append_assoc, hws, ← List.cons_append, hzs, List.append_assoc]
    rfl
  have hsub : (xs ++ ys).Sublist (xs ++ b :: ys) := (List.Sublist.refl xs).append (List.sublist_cons_self b ys)
  have hbetween := nodup_between (h.nodup_list.sublist hsub) (fun hmem => h.head_notMem (hsub.subset hmem))
    fun hmem => h.tail_notMem (hsub.subset hmem)
  have hbout : b ∉ xs ++ ys := by
    have hnodup := h.nodup_list
    rw [List.nodup_middle, List.nodup_cons] at hnodup
    exact hnodup.1
  have hbhead : b ≠ .fakeFreeListHead := by
    rintro rfl
    exact h.head_notMem (by simp)
  have hbtail : b ≠ .fakeFreeListTail := by
    rintro rfl
    exact h.tail_notMem (by simp)
  refine ⟨?_, hbetween, ?_, fun d hd hdhead hdtail => ?_⟩
  · refine Links.Linked.detach ?_ (by simp at hbout ⊢; exact ⟨hbhead, hbout.1, hbout.2, hbtail⟩)
    rw [hlist] at hbetween ⊢
    exact hleft.link hright hbetween
  · change q.numFreeBlocks - 1 = _
    rw [h.count]
    simp
    omega
  · by_cases hdb : d = b
    · subst hdb
      exact ⟨Function.update_self _ _ _, Function.update_self _ _ _⟩
    · have hdnot : d ∉ xs ++ b :: ys := by
        simp at hd ⊢
        exact ⟨hd.1, hdb, hd.2⟩
      obtain ⟨h₁, h₂⟩ := h.unlinked d hdnot hdhead hdtail
      have hda : d ≠ a := by
        rintro rfl
        have hmem : d ∈ KVCacheBlock.fakeFreeListHead :: xs := hzs ▸ by simp
        rcases List.mem_cons.1 hmem with heq | hmem
        · exact hdhead heq
        · exact hd (List.mem_append_left _ hmem)
      have hdc : d ≠ c := by
        rintro rfl
        have hmem : d ∈ ys ++ [KVCacheBlock.fakeFreeListTail] := hws ▸ List.mem_cons_self
        rcases List.mem_append.1 hmem with hmem | hmem
        · exact hd (List.mem_append_right _ hmem)
        · exact hdtail (List.mem_singleton.1 hmem)
      constructor
      · rw [Links.detach_prev, Links.link_prev, Function.update_of_ne hdb, Function.update_of_ne hdc, h₁]
      · rw [Links.detach_next, Links.link_next, Function.update_of_ne hdb, Function.update_of_ne hda, h₂]

/-! ### One lemma for each method -/

/-- The first block of the queue, or the fake tail, is linked with the fake head. -/
theorem Represents.next_head (h : Represents q l) :
    q.links.next .fakeFreeListHead = (l ++ [KVCacheBlock.fakeFreeListTail]).head? := by
  have hlinked := h.linked
  cases l with
  | nil => exact hlinked.first.1
  | cons b l => exact hlinked.first.1

/-- The last block of the queue, or the fake head, is linked with the fake tail. -/
theorem Represents.prev_tail (h : Represents q l) :
    ∃ zs last, KVCacheBlock.fakeFreeListHead :: l = zs ++ [last] ∧
      q.links.prev .fakeFreeListTail = some last ∧ q.links.Linked (zs ++ [last]) := by
  obtain ⟨zs, last, hzs⟩ : ∃ zs a, KVCacheBlock.fakeFreeListHead :: l = zs ++ [a] :=
    ⟨_, _, (List.dropLast_append_getLast (List.cons_ne_nil _ l)).symm⟩
  have hlinked := h.linked
  rw [← List.cons_append, hzs] at hlinked
  refine ⟨zs, last, hzs, ?_, hlinked.left⟩
  rw [List.append_assoc] at hlinked
  exact hlinked.pair.2

/-- `popleft` takes out the first block. -/
theorem Represents.popleft (h : Represents q (b :: l)) :
    ∃ q', q.popleft = .ok (b, q') ∧ Represents q' l := by
  obtain ⟨zs, a, c, ws, hzs, -, ha, hc, -, -⟩ := (show Represents q ([] ++ b :: l) from h).split
  obtain rfl : KVCacheBlock.fakeFreeListHead = a := by
    have := congrArg List.getLast? hzs
    simpa using this
  have hbtail : b ≠ .fakeFreeListTail := by
    rintro rfl
    exact h.tail_notMem List.mem_cons_self
  have hnext : q.links.next .fakeFreeListHead = some b := h.next_head
  refine ⟨_, ?_, (show Represents q ([] ++ b :: l) from h).unlink ha hc⟩
  rw [FreeKVCacheBlockQueue.popleft, hnext]
  simp only [if_neg hbtail, hc]

/-- `popleft` raises an exception where there is no block. -/
theorem Represents.popleft_nil (h : Represents q []) :
    q.popleft = .error (.valueError "No free blocks available") := by
  have hnext : q.links.next .fakeFreeListHead = some .fakeFreeListTail := h.next_head
  have hcount : q.numFreeBlocks = 0 := h.count
  rw [FreeKVCacheBlockQueue.popleft, hnext]
  simp only [if_true, hcount]

/-- The loop of `popleft_n` takes out one block after the other. -/
theorem popLoop_eq {links : Links KVCacheBlock} (hlinked : links.Linked (l ++ [.fakeFreeListTail]))
    (hnodup : (l ++ [KVCacheBlock.fakeFreeListTail]).Nodup) (hn : n ≤ l.length) :
    ∃ links', popLoop n links (l ++ [KVCacheBlock.fakeFreeListTail]).head? =
        .ok (l.take n, links', (l.drop n ++ [KVCacheBlock.fakeFreeListTail]).head?) ∧
      links'.Linked (l.drop n ++ [.fakeFreeListTail]) ∧
      (∀ d ∈ l.take n, links'.prev d = none ∧ links'.next d = none) ∧
      ∀ d, d ∉ l.take n → links'.prev d = links.prev d ∧ links'.next d = links.next d := by
  induction n generalizing l links with
  | zero => exact ⟨links, rfl, hlinked, nofun, fun _ _ => ⟨rfl, rfl⟩⟩
  | succ n ih =>
      cases l with
      | nil => simp at hn
      | cons b l =>
          obtain ⟨hb, hnodup'⟩ := List.nodup_cons.1 hnodup
          have hnext : links.next b = (l ++ [KVCacheBlock.fakeFreeListTail]).head? := by
            cases l with
            | nil => exact hlinked.first.1
            | cons c l => exact hlinked.first.1
          have htail : links.Linked (l ++ [.fakeFreeListTail]) := hlinked.tail
          obtain ⟨links', hpop, h₁, h₂, h₃⟩ := ih (htail.detach hb) hnodup' (by simpa using hn)
          have hbl : b ∉ l.take n := fun hmem => hb (List.mem_append_left _ (List.take_subset n l hmem))
          refine ⟨links', ?_, h₁, fun d hd => ?_, fun d hd => ?_⟩
          · rw [List.cons_append, List.head?_cons, popLoop, hnext, hpop]
            rfl
          · rcases List.mem_cons.1 hd with rfl | hd
            · obtain ⟨h₄, h₅⟩ := h₃ d hbl
              rw [h₄, h₅, Links.detach_prev, Links.detach_next, Function.update_self, Function.update_self]
              exact ⟨rfl, rfl⟩
            · exact h₂ d hd
          · rw [List.take_succ_cons, List.mem_cons, not_or] at hd
            obtain ⟨h₄, h₅⟩ := h₃ d hd.2
            rw [h₄, h₅, Links.detach_prev, Links.detach_next, Function.update_of_ne hd.1,
              Function.update_of_ne hd.1]
            exact ⟨rfl, rfl⟩

/-- `popleft_n` takes out the first `n` blocks. -/
theorem Represents.popleftN (h : Represents q l) (hn : n ≤ l.length) :
    ∃ q', q.popleftN (n : ℤ) = .ok (l.take n, q') ∧ Represents q' (l.drop n) := by
  by_cases hzero : n = 0
  · subst hzero
    exact ⟨q, by rw [FreeKVCacheBlockQueue.popleftN, if_pos Int.natCast_zero, List.take_zero], h⟩
  have hlinked := h.linked.tail
  obtain ⟨links', hpop, h₁, h₂, h₃⟩ := popLoop_eq hlinked (List.nodup_cons.1 h.nodup).2 hn
  obtain ⟨c, ws, hws⟩ : ∃ c ws, l.drop n ++ [KVCacheBlock.fakeFreeListTail] = c :: ws :=
    List.exists_cons_of_ne_nil (List.append_ne_nil_of_right_ne_nil _ (List.cons_ne_nil _ _))
  have hsub : (l.drop n).Sublist l := List.drop_sublist n l
  have hbetween := nodup_between (h.nodup_list.sublist hsub) (fun hmem => h.head_notMem (hsub.subset hmem))
    fun hmem => h.tail_notMem (hsub.subset hmem)
  have hcount : ¬ q.numFreeBlocks < (n : ℤ) := by
    rw [h.count]
    omega
  refine ⟨⟨links'.link .fakeFreeListHead c, q.numFreeBlocks - n⟩, ?_, ?_, hbetween, ?_, fun d hd hdhead hdtail => ?_⟩
  · rw [FreeKVCacheBlockQueue.popleftN, if_neg (by omega), if_neg hcount, h.next_head, Int.toNat_natCast, hpop, hws]
    rfl
  · rw [hws] at h₁ hbetween ⊢
    exact h₁.link_first hbetween
  · change q.numFreeBlocks - n = _
    rw [h.count, List.length_drop]
    omega
  · have hdc : d ≠ c := by
      rintro rfl
      have hmem : d ∈ l.drop n ++ [KVCacheBlock.fakeFreeListTail] := hws ▸ List.mem_cons_self
      rcases List.mem_append.1 hmem with hmem | hmem
      · exact hd hmem
      · exact hdtail (List.mem_singleton.1 hmem)
    rw [Links.link_prev, Links.link_next, Function.update_of_ne hdc, Function.update_of_ne hdhead]
    by_cases hmem : d ∈ l.take n
    · exact h₂ d hmem
    · obtain ⟨h₄, h₅⟩ := h₃ d hmem
      rw [h₄, h₅]
      refine h.unlinked d (fun hl => ?_) hdhead hdtail
      rw [← List.take_append_drop n l, List.mem_append] at hl
      exact hl.elim hmem hd

/-- `popleft_n` raises an exception where there are not enough blocks. -/
theorem Represents.popleftN_error (h : Represents q l) (hn : l.length < n) :
    q.popleftN (n : ℤ) = .error (.assertionError "") := by
  have hcount : q.numFreeBlocks < (n : ℤ) := by
    rw [h.count]
    omega
  rw [FreeKVCacheBlockQueue.popleftN, if_neg (by omega), if_pos hcount]

/-- `remove` takes a block out of the middle. -/
theorem Represents.remove (h : Represents q (xs ++ b :: ys)) :
    ∃ q', q.remove b = .ok q' ∧ Represents q' (xs ++ ys) := by
  obtain ⟨zs, a, c, ws, -, -, ha, hc, -, -⟩ := h.split
  refine ⟨_, ?_, h.unlink ha hc⟩
  rw [FreeKVCacheBlockQueue.remove, ha, hc]

/-- `remove` raises an exception for a block that is not in the queue. -/
theorem Represents.remove_error (h : Represents q l) (hb : b ∉ l) (hhead : b ≠ .fakeFreeListHead)
    (htail : b ≠ .fakeFreeListTail) :
    q.remove b = .error (.runtimeError "remove() called on an invalid block") := by
  obtain ⟨hprev, hnext⟩ := h.unlinked b hb hhead htail
  rw [FreeKVCacheBlockQueue.remove, hprev, hnext]

/-- `append_n` puts blocks at the end. -/
theorem Represents.appendN (h : Represents q l) (hnodup : (l ++ blocks).Nodup)
    (hhead : KVCacheBlock.fakeFreeListHead ∉ blocks) (htail : KVCacheBlock.fakeFreeListTail ∉ blocks) :
    ∃ q', q.appendN blocks = .ok q' ∧ Represents q' (l ++ blocks) := by
  by_cases hzero : blocks.length = 0
  · refine ⟨q, by rw [FreeKVCacheBlockQueue.appendN, if_pos hzero], ?_⟩
    rw [List.length_eq_zero_iff.1 hzero, List.append_nil]
    exact h
  obtain ⟨zs, last, hzs, hlast, hlinked⟩ := h.prev_tail
  refine ⟨_, by rw [FreeKVCacheBlockQueue.appendN, if_neg hzero, hlast], ?_⟩
  refine represents_linkOn blocks hlinked hzs.symm h.unlinked ?_ hnodup ?_ ?_
  · rw [h.count, List.length_append]
    omega
  · exact fun hmem => (List.mem_append.1 hmem).elim h.head_notMem hhead
  · exact fun hmem => (List.mem_append.1 hmem).elim h.tail_notMem htail

/-- `append` puts a block at the end. -/
theorem Represents.append (h : Represents q l) (hb : b ∉ l) (hhead : b ≠ .fakeFreeListHead)
    (htail : b ≠ .fakeFreeListTail) :
    ∃ q', q.append b = .ok q' ∧ Represents q' (l ++ [b]) := by
  obtain ⟨zs, last, hzs, hlast, hlinked⟩ := h.prev_tail
  have hnodup : (l ++ [b]).Nodup := by
    refine List.nodup_append.2 ⟨h.nodup_list, List.nodup_singleton b, fun x hx y hy => ?_⟩
    rw [List.mem_singleton.1 hy]
    rintro rfl
    exact hb hx
  refine ⟨_, by rw [FreeKVCacheBlockQueue.append, hlast], ?_⟩
  refine represents_linkOn [b] hlinked hzs.symm h.unlinked ?_ hnodup ?_ ?_
  · rw [h.count, List.length_append, List.length_singleton]
    omega
  · exact fun hmem => (List.mem_append.1 hmem).elim h.head_notMem fun hmem => hhead (List.mem_singleton.1 hmem).symm
  · exact fun hmem => (List.mem_append.1 hmem).elim h.tail_notMem fun hmem => htail (List.mem_singleton.1 hmem).symm

end

/-! ### The queue and a list -/

/-- A call to the queue. -/
inductive QueueCall where
  | popleft
  | popleftN (n : ℕ)
  | remove (block : KVCacheBlock)
  | append (block : KVCacheBlock)
  | appendN (blocks : List KVCacheBlock)

/-- A call, with the blocks it returns. -/
def FreeKVCacheBlockQueue.call (q : FreeKVCacheBlockQueue) :
    QueueCall → Except PyError (List KVCacheBlock × FreeKVCacheBlockQueue)
  | .popleft => q.popleft.map fun r => ([r.1], r.2)
  | .popleftN n => q.popleftN n
  | .remove b => (q.remove b).map fun q' => ([], q')
  | .append b => (q.append b).map fun q' => ([], q')
  | .appendN blocks => (q.appendN blocks).map fun q' => ([], q')

/-- The same call, to a list. -/
def QueueCall.onList (l : List KVCacheBlock) :
    QueueCall → Except PyError (List KVCacheBlock × List KVCacheBlock)
  | .popleft =>
      match l with
      | [] => .error (.valueError "No free blocks available")
      | b :: l => .ok ([b], l)
  | .popleftN n => if l.length < n then .error (.assertionError "") else .ok (l.take n, l.drop n)
  | .remove b =>
      if b ∈ l then .ok ([], l.erase b)
      else .error (.runtimeError "remove() called on an invalid block")
  | .append b => .ok ([], l ++ [b])
  | .appendN blocks => .ok ([], l ++ blocks)

/-- Is it a block of the pool? -/
def KVCacheBlock.Real (b : KVCacheBlock) : Prop := b ≠ .fakeFreeListHead ∧ b ≠ .fakeFreeListTail

instance (b : KVCacheBlock) : Decidable b.Real :=
  inferInstanceAs (Decidable (b ≠ .fakeFreeListHead ∧ b ≠ .fakeFreeListTail))

/-- The blocks of a call are of the pool, and those that are put into the queue are not there yet. -/
def QueueCall.Allowed (l : List KVCacheBlock) : QueueCall → Prop
  | .popleft | .popleftN _ => True
  | .remove b => b.Real
  | .append b => b.Real ∧ b ∉ l
  | .appendN blocks => (∀ b ∈ blocks, b.Real) ∧ (l ++ blocks).Nodup

/-- A call gives what it gives to the list, and leaves what it leaves of the list. -/
theorem Represents.call {q : FreeKVCacheBlockQueue} {l : List KVCacheBlock} (h : Represents q l)
    {c : QueueCall} (hc : c.Allowed l) :
    (q.call c).map Prod.fst = (c.onList l).map Prod.fst ∧
      Represents (afterCall FreeKVCacheBlockQueue.call q c) (afterCall QueueCall.onList l c) := by
  cases c with
  | popleft =>
      cases l with
      | nil =>
          have hcall : q.call .popleft = .error (.valueError "No free blocks available") := by
            rw [FreeKVCacheBlockQueue.call, h.popleft_nil]
            rfl
          simp only [afterCall, hcall]
          exact ⟨rfl, h⟩
      | cons b l =>
          obtain ⟨q', hq', h'⟩ := h.popleft
          have hcall : q.call .popleft = .ok ([b], q') := by
            rw [FreeKVCacheBlockQueue.call, hq']
            rfl
          simp only [afterCall, hcall]
          exact ⟨rfl, h'⟩
  | popleftN n =>
      rcases Nat.lt_or_ge l.length n with hn | hn
      · have hcall : q.call (.popleftN n) = .error (.assertionError "") := h.popleftN_error hn
        simp only [afterCall, hcall, QueueCall.onList, if_pos hn]
        exact ⟨rfl, h⟩
      · obtain ⟨q', hq', h'⟩ := h.popleftN hn
        have hcall : q.call (.popleftN n) = .ok (l.take n, q') := hq'
        simp only [afterCall, hcall, QueueCall.onList, if_neg (Nat.not_lt.2 hn)]
        exact ⟨rfl, h'⟩
  | remove b =>
      by_cases hb : b ∈ l
      · obtain ⟨xs, ys, rfl⟩ := List.append_of_mem hb
        obtain ⟨q', hq', h'⟩ := h.remove
        have hcall : q.call (.remove b) = .ok ([], q') := by
          rw [FreeKVCacheBlockQueue.call, hq']
          rfl
        have hbxs : b ∉ xs := by
          have hnodup := h.nodup_list
          rw [List.nodup_middle, List.nodup_cons] at hnodup
          exact fun hmem => hnodup.1 (List.mem_append_left _ hmem)
        simp only [afterCall, hcall, QueueCall.onList, if_pos hb, List.erase_append_right _ hbxs,
          List.erase_cons_head]
        exact ⟨rfl, h'⟩
      · have hcall : q.call (.remove b) = .error (.runtimeError "remove() called on an invalid block") := by
          rw [FreeKVCacheBlockQueue.call, h.remove_error hb hc.1 hc.2]
          rfl
        simp only [afterCall, hcall, QueueCall.onList, if_neg hb]
        exact ⟨rfl, h⟩
  | append b =>
      obtain ⟨q', hq', h'⟩ := h.append hc.2 hc.1.1 hc.1.2
      have hcall : q.call (.append b) = .ok ([], q') := by
        rw [FreeKVCacheBlockQueue.call, hq']
        rfl
      simp only [afterCall, hcall, QueueCall.onList]
      exact ⟨rfl, h'⟩
  | appendN blocks =>
      obtain ⟨q', hq', h'⟩ := h.appendN hc.2 (fun hmem => (hc.1 _ hmem).1 rfl) fun hmem => (hc.1 _ hmem).2 rfl
      have hcall : q.call (.appendN blocks) = .ok ([], q') := by
        rw [FreeKVCacheBlockQueue.call, hq']
        rfl
      simp only [afterCall, hcall, QueueCall.onList]
      exact ⟨rfl, h'⟩

instance (l : List KVCacheBlock) (c : QueueCall) : Decidable (c.Allowed l) :=
  match c with
  | .popleft | .popleftN _ => inferInstanceAs (Decidable True)
  | .remove b => inferInstanceAs (Decidable (b.Real))
  | .append b => inferInstanceAs (Decidable (b.Real ∧ b ∉ l))
  | .appendN blocks => inferInstanceAs (Decidable ((∀ b ∈ blocks, b.Real) ∧ (l ++ blocks).Nodup))

/-- **The queue behaves as a list**: whatever the calls, as long as only blocks are put in that are not there,
each gives the blocks, or raises the exception, that it gives or raises on the list of the free blocks. -/
theorem queue_refines {blocks : List KVCacheBlock} (hreal : ∀ b ∈ blocks, b.Real) (hnodup : blocks.Nodup)
    (calls : List QueueCall) (hallowed : Along (afterCall QueueCall.onList) QueueCall.Allowed blocks calls) :
    answers FreeKVCacheBlockQueue.call (FreeKVCacheBlockQueue.new blocks) calls =
      answers QueueCall.onList blocks calls := by
  have hnew := represents_new hnodup (fun hmem => (hreal _ hmem).1 rfl) fun hmem => (hreal _ hmem).2 rfl
  refine answers_eq_of_simulation Represents ?_ hnew calls hallowed
  intro q l c h hc
  exact h.call hc

/-- Two of three blocks are taken, the first comes back, the last is taken out of the middle of the queue, and then
the queue runs empty. -/
theorem queue_refines_threeBlocks :
    answers FreeKVCacheBlockQueue.call (FreeKVCacheBlockQueue.new [.block 0, .block 1, .block 2])
      [.popleftN 2, .append (.block 0), .remove (.block 2), .popleft, .popleft] =
    answers QueueCall.onList [.block 0, .block 1, .block 2]
      [.popleftN 2, .append (.block 0), .remove (.block 2), .popleft, .popleft] :=
  queue_refines (by decide) (by decide) _ (by decide)

end KVCache
end InfiniKV
