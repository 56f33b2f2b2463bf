/-
**The LRU evictor.**

`update_on_put` goes through a cache in the order of its use and collects the keys of entries that are not
pinned until there is room for what is to be put.  It takes the sizes of these entries off the size of the cache
as it goes.  If it runs out of entries, the iterator raises, and the sizes stay off.

The size of the cache is a float in the source.  It is a whole number here, since only whole numbers are added to it
and taken off, and what is added or taken off is rounded as a float is.

Main definitions:

* `InfiniKV.floatOfInt` — the float next to an integer;
* `InfiniKV.LRUEvictor`, `InfiniKV.LRUEvictor.updateOnPut` — the evictor and its operation;
* `IsShortestPrefix` — the shortest prefix of a list with a property;
* `InfiniKV.LRUEvictor.EvictsMinimally` — what putting an entry is to do.

Main results:

* `InfiniKV.floatOfInt_of_lt` — integers below `2 ^ 53` are floats;
* `InfiniKV.LRUEvictor.evictLoop_spec` — **the loop ends with the shortest prefix that makes room**, or raises if
  there is none;
* `InfiniKV.LRUEvictor.evictsMinimally_iff` — **when the evictor is right**.
-/

import InfiniKV.Python
import InfiniKV.PyDict
import Mathlib.Algebra.BigOperators.Group.List.Basic
import Mathlib.Algebra.Order.BigOperators.Group.List
import Mathlib.Algebra.Order.Ring.Int

set_option relaxedAutoImplicit false
set_option autoImplicit false

/-! ### Shortest prefixes -/

/-- The shortest prefix of a list that has a property. -/
structure IsShortestPrefix {α : Type} (P : List α → Prop) (l s : List α) : Prop where
  isPrefix : s <+: l
  holds : P s
  le : ∀ s', s' <+: l → P s' → s.length ≤ s'.length

namespace IsShortestPrefix

variable {α : Type} {P : List α → Prop} {l s : List α}

/-- If the empty list has the property, it is the shortest prefix. -/
theorem nil (h : P []) (l : List α) : IsShortestPrefix P l [] :=
  ⟨List.nil_prefix, h, fun _ _ _ => Nat.zero_le _⟩

/-- If not, then the shortest prefix starts with the first element. -/
theorem cons {a : α} (h : ¬ P []) (hs : IsShortestPrefix (fun s => P (a :: s)) l s) :
    IsShortestPrefix P (a :: l) (a :: s) := by
  refine ⟨List.prefix_cons_inj a |>.2 hs.isPrefix, hs.holds, fun s' hs' hP => ?_⟩
  cases s' with
  | nil => exact absurd hP h
  | cons a' s' =>
      obtain ⟨rfl, hpre⟩ := List.cons_prefix_cons.1 hs'
      exact Nat.succ_le_succ (hs.le s' hpre hP)

end IsShortestPrefix

namespace InfiniKV

/-! ### Whole floats -/

/-- The float next to a natural number, of two the even one: 53 binary digits are kept. -/
def floatOfNat (n : ℕ) : ℕ :=
  let shift := n.log2 - 52
  let kept := n / 2 ^ shift
  let cut := n % 2 ^ shift
  if 2 ^ shift < 2 * cut ∨ 2 * cut = 2 ^ shift ∧ kept % 2 = 1 then (kept + 1) * 2 ^ shift else kept * 2 ^ shift

/-- The float next to an integer.  From `2 ^ 1024` on Python raises an `OverflowError` instead. -/
def floatOfInt (n : ℤ) : ℤ := n.sign * floatOfNat n.natAbs

/-- Nothing is cut off a number of at most 53 digits. -/
theorem floatOfNat_of_lt {n : ℕ} (h : n < 2 ^ 53) : floatOfNat n = n := by
  have hshift : n.log2 - 52 = 0 := by
    rcases Nat.eq_zero_or_pos n with rfl | hpos
    · rfl
    · have hlog := (Nat.log2_lt hpos.ne').2 h
      omega
  have hcut : n % 2 ^ 0 = 0 := Nat.mod_one n
  rw [floatOfNat, hshift, hcut, if_neg (by omega), Nat.pow_zero, Nat.div_one, Nat.mul_one]

/-- **Integers below `2 ^ 53` are floats.** -/
theorem floatOfInt_of_lt {n : ℤ} (h : n.natAbs < 2 ^ 53) : floatOfInt n = n := by
  rw [floatOfInt, floatOfNat_of_lt h, Int.sign_mul_natAbs]

/-- Adding a float to an integer. -/
def addFloat (n x : ℤ) : ℤ := floatOfInt (floatOfInt n + x)

/-- Taking an integer off a float. -/
def subFloat (x n : ℤ) : ℤ := floatOfInt (x - floatOfInt n)

theorem addFloat_of_lt {n x : ℤ} (hn : n.natAbs < 2 ^ 53) (h : (n + x).natAbs < 2 ^ 53) : addFloat n x = n + x := by
  rw [addFloat, floatOfInt_of_lt hn, floatOfInt_of_lt h]

theorem subFloat_of_lt {n x : ℤ} (hn : n.natAbs < 2 ^ 53) (h : (x - n).natAbs < 2 ^ 53) : subFloat x n = x - n := by
  rw [subFloat, floatOfInt_of_lt hn, floatOfInt_of_lt h]

/-! ### The evictor -/

/-- What the evictor reads of an entry of the cache. -/
structure CachedMetadata where
  size : ℕ
  isPinned : Bool
  deriving DecidableEq

/-- `PutStatus`. -/
inductive PutStatus where
  | legal
  | illegal
  deriving DecidableEq

/-- `LRUEvictor`.  The size of the cache is a float, whole as `floatOfInt` gives them. -/
structure LRUEvictor where
  maxCacheSize : ℤ
  currentCacheSize : ℤ
  deriving DecidableEq

namespace LRUEvictor

/-- `LRUEvictor.__init__`, with the limit in bytes. -/
def init (maxCacheSize : ℤ) : LRUEvictor := ⟨maxCacheSize, 0⟩

variable {κ : Type} [DecidableEq κ]

/-- The loop of `update_on_put`, over the keys that the iterator has left.  The sizes that were taken off stay off
when the iterator raises. -/
def evictLoop (cacheDict : PyDict κ CachedMetadata) (cacheSize : ℤ) :
    List κ → LRUEvictor → Except PyError (List κ) × LRUEvictor
  | [], e =>
      if addFloat cacheSize e.currentCacheSize > e.maxCacheSize then (.error .stopIteration, e) else (.ok [], e)
  | evictKey :: keys, e =>
      if addFloat cacheSize e.currentCacheSize > e.maxCacheSize then
        match cacheDict.get? evictKey with
        | none => (.error .keyError, e)
        | some evictMetadata =>
            if evictMetadata.isPinned then evictLoop cacheDict cacheSize keys e
            else
              let rest := evictLoop cacheDict cacheSize keys
                { e with currentCacheSize := subFloat e.currentCacheSize evictMetadata.size }
              (rest.1.map (evictKey :: ·), rest.2)
      else (.ok [], e)

/-- **`update_on_put`**: the keys to evict and the status, or an exception, and the evictor afterwards. -/
def updateOnPut (e : LRUEvictor) (cacheDict : PyDict κ CachedMetadata) (cacheSize : ℤ) :
    Except PyError (List κ × PutStatus) × LRUEvictor :=
  if cacheSize > e.maxCacheSize then (.ok ([], .illegal), e)
  else match evictLoop cacheDict cacheSize (cacheDict.entries.map Prod.fst) e with
    | (.error err, e') => (.error err, e')
    | (.ok evictKeys, e') =>
        (.ok (evictKeys, .legal), { e' with currentCacheSize := addFloat cacheSize e'.currentCacheSize })

/-! ### What putting an entry is to do -/

/-- The size of some entries together. -/
def totalSize (es : List (κ × CachedMetadata)) : ℤ := (es.map fun entry => (entry.2.size : ℤ)).sum

/-- The entries that are not pinned, in their order. -/
def unpinned (es : List (κ × CachedMetadata)) : List (κ × CachedMetadata) := es.filter fun entry => !entry.2.isPinned

/-- The entries that are pinned. -/
def pinned (es : List (κ × CachedMetadata)) : List (κ × CachedMetadata) := es.filter fun entry => entry.2.isPinned

/-- The size of the cache and of what is put are together below what a float holds exactly. -/
def FitsFloat (e : LRUEvictor) (cacheSize : ℤ) : Prop := cacheSize.natAbs + e.currentCacheSize.natAbs < 2 ^ 53

instance (e : LRUEvictor) (cacheSize : ℤ) : Decidable (e.FitsFloat cacheSize) :=
  inferInstanceAs (Decidable (_ < _))

/-- Without some entries there is room. -/
def MakesRoom (e : LRUEvictor) (cacheSize : ℤ) (evicted : List (κ × CachedMetadata)) : Prop :=
  cacheSize + e.currentCacheSize - totalSize evicted ≤ e.maxCacheSize

/-- **The put is allowed** and the shortest prefix of the entries that are not pinned is evicted that makes room, the
size being that of the kept entries and the new one; **or it is refused**, if there is no such prefix, and nothing
changes. -/
def EvictsMinimally (e : LRUEvictor) (cacheDict : PyDict κ CachedMetadata) (cacheSize : ℤ) : Prop :=
  (∃ evicted e', e.updateOnPut cacheDict cacheSize = (.ok (evicted.map Prod.fst, .legal), e') ∧
    IsShortestPrefix (e.MakesRoom cacheSize) (unpinned cacheDict.entries) evicted ∧
    e'.currentCacheSize =
      totalSize (cacheDict.entries.filter fun entry => entry.1 ∉ evicted.map Prod.fst) + cacheSize ∧
    e'.currentCacheSize ≤ e'.maxCacheSize ∧ e'.maxCacheSize = e.maxCacheSize) ∨
  (¬ ∃ evicted, evicted <+: unpinned cacheDict.entries ∧ e.MakesRoom cacheSize evicted) ∧
    e.updateOnPut cacheDict cacheSize = (.ok ([], .illegal), e)

/-! ### Sizes -/

omit [DecidableEq κ] in
@[simp] theorem totalSize_nil : totalSize ([] : List (κ × CachedMetadata)) = 0 := rfl

omit [DecidableEq κ] in
@[simp] theorem totalSize_cons (entry : κ × CachedMetadata) (es : List (κ × CachedMetadata)) :
    totalSize (entry :: es) = entry.2.size + totalSize es := by
  rw [totalSize, List.map_cons, List.sum_cons, totalSize]

omit [DecidableEq κ] in
theorem totalSize_nonneg (es : List (κ × CachedMetadata)) : 0 ≤ totalSize es := by
  induction es with
  | nil => exact le_refl _
  | cons entry es ih =>
      rw [totalSize_cons]
      omega

omit [DecidableEq κ] in
/-- A prefix is at most as large as the whole. -/
theorem totalSize_le_of_prefix {s es : List (κ × CachedMetadata)} (h : s <+: es) : totalSize s ≤ totalSize es := by
  obtain ⟨rest, rfl⟩ := h
  have hrest := totalSize_nonneg rest
  rw [totalSize, totalSize, List.map_append, List.sum_append]
  rw [totalSize] at hrest
  omega

omit [DecidableEq κ] in
/-- Entries with a property and those without it are all of them together. -/
theorem totalSize_filter_add (p : κ × CachedMetadata → Bool) (es : List (κ × CachedMetadata)) :
    totalSize (es.filter p) + totalSize (es.filter fun entry => !p entry) = totalSize es := by
  induction es with
  | nil => rfl
  | cons entry es ih =>
      cases h : p entry with
      | true =>
          rw [List.filter_cons_of_pos h, List.filter_cons_of_neg (by simp [h]), totalSize_cons, totalSize_cons]
          omega
      | false =>
          rw [List.filter_cons_of_neg (by simp [h]), List.filter_cons_of_pos (by simp [h]), totalSize_cons,
            totalSize_cons]
          omega

/-! ### The loop -/

/-- The size with what is put is computed exactly. -/
theorem FitsFloat.addFloat_eq {e : LRUEvictor} {cacheSize : ℤ} (h : e.FitsFloat cacheSize) :
    addFloat cacheSize e.currentCacheSize = cacheSize + e.currentCacheSize := by
  rw [FitsFloat] at h
  exact addFloat_of_lt (by omega) (by omega)

/-- A size that is counted is taken off exactly. -/
theorem FitsFloat.subFloat_eq {e : LRUEvictor} {cacheSize size : ℤ} (h : e.FitsFloat cacheSize) (hnonneg : 0 ≤ size)
    (hle : size ≤ e.currentCacheSize) : subFloat e.currentCacheSize size = e.currentCacheSize - size := by
  rw [FitsFloat] at h
  exact subFloat_of_lt (by omega) (by omega)

/-- The smaller size fits as well. -/
theorem FitsFloat.sub {e : LRUEvictor} {cacheSize size : ℤ} (h : e.FitsFloat cacheSize) (hnonneg : 0 ≤ size)
    (hle : size ≤ e.currentCacheSize) :
    ({ e with currentCacheSize := e.currentCacheSize - size } : LRUEvictor).FitsFloat cacheSize := by
  rw [FitsFloat] at h ⊢
  dsimp only
  omega

/-- The loop raises where all entries that are not pinned leave no room; otherwise **it ends with the shortest prefix
of them that makes room**. -/
theorem evictLoop_spec (cacheDict : PyDict κ CachedMetadata) (cacheSize : ℤ) (es : List (κ × CachedMetadata))
    (hes : es ⊆ cacheDict.entries) (e : LRUEvictor) (hfits : e.FitsFloat cacheSize)
    (hcounted : totalSize es ≤ e.currentCacheSize) :
    (¬ e.MakesRoom cacheSize (unpinned es) ∧
      (evictLoop cacheDict cacheSize (es.map Prod.fst) e).1 = .error .stopIteration) ∨
    (e.MakesRoom cacheSize (unpinned es) ∧
      ∃ evicted, IsShortestPrefix (e.MakesRoom cacheSize) (unpinned es) evicted ∧
        evictLoop cacheDict cacheSize (es.map Prod.fst) e = (.ok (evicted.map Prod.fst),
          { e with currentCacheSize := e.currentCacheSize - totalSize evicted })) := by
  induction es generalizing e with
  | nil =>
      by_cases hroom : cacheSize + e.currentCacheSize > e.maxCacheSize
      · refine Or.inl ⟨?_, ?_⟩
        · rw [unpinned, List.filter_nil, MakesRoom, totalSize_nil]
          omega
        · rw [List.map_nil, evictLoop, hfits.addFloat_eq, if_pos hroom]
      · have hnil : e.MakesRoom cacheSize ([] : List (κ × CachedMetadata)) := by
          rw [MakesRoom, totalSize_nil]
          omega
        refine Or.inr ⟨hnil, [], .nil hnil _, ?_⟩
        rw [List.map_nil, evictLoop, hfits.addFloat_eq, if_neg hroom, totalSize_nil, Int.sub_zero]
  | cons entry es ih =>
      obtain ⟨hentry, hrest⟩ := List.cons_subset.1 hes
      obtain ⟨key, metadata⟩ := entry
      have hget : cacheDict.get? key = some metadata := PyDict.mem_entries.1 hentry
      have hnonneg : (0 : ℤ) ≤ metadata.size := Int.natCast_nonneg _
      have hleft := totalSize_nonneg es
      have hboth : (metadata.size : ℤ) + totalSize es ≤ e.currentCacheSize :=
        (totalSize_cons (key, metadata) es).symm.trans_le hcounted
      by_cases hroom : cacheSize + e.currentCacheSize > e.maxCacheSize
      · have hnil : ¬ e.MakesRoom cacheSize ([] : List (κ × CachedMetadata)) := by
          rw [MakesRoom, totalSize_nil]
          omega
        rw [List.map_cons, evictLoop, hfits.addFloat_eq, if_pos hroom, hget]
        cases hpinned : metadata.isPinned with
        | true =>
            have hskip : unpinned ((key, metadata) :: es) = unpinned es := List.filter_cons_of_neg (by simp [hpinned])
            simp only [hpinned, if_true, hskip]
            exact ih hrest e hfits (by omega)
        | false =>
            have htake : unpinned ((key, metadata) :: es) = (key, metadata) :: unpinned es :=
              List.filter_cons_of_pos (by simp [hpinned])
            have hmakes : ∀ s, ({ e with currentCacheSize := e.currentCacheSize - metadata.size } :
                LRUEvictor).MakesRoom cacheSize s ↔ e.MakesRoom cacheSize ((key, metadata) :: s) := by
              intro s
              rw [MakesRoom, MakesRoom, totalSize_cons]
              dsimp only
              omega
            have hle : (metadata.size : ℤ) ≤ e.currentCacheSize := by omega
            simp only [hpinned, Bool.false_eq_true, if_false, htake, hfits.subFloat_eq hnonneg hle]
            rcases ih hrest { e with currentCacheSize := e.currentCacheSize - metadata.size }
                (hfits.sub hnonneg hle) (by dsimp only; omega) with
              ⟨hno, hraise⟩ | ⟨hmakesAll, evicted, hshortest, hloop⟩
            · exact Or.inl ⟨fun h => hno ((hmakes _).2 h), by rw [hraise]; rfl⟩
            · refine Or.inr ⟨(hmakes _).1 hmakesAll, (key, metadata) :: evicted, .cons hnil ?_, ?_⟩
              · exact ⟨hshortest.isPrefix, (hmakes _).1 hshortest.holds,
                  fun s' hs' h => hshortest.le s' hs' ((hmakes _).2 h)⟩
              · rw [hloop, totalSize_cons, ← Int.sub_sub]
                rfl
      · have hnil : e.MakesRoom cacheSize ([] : List (κ × CachedMetadata)) := by
          rw [MakesRoom, totalSize_nil]
          omega
        refine Or.inr ⟨?_, [], .nil hnil _, ?_⟩
        · have hunpinned := totalSize_nonneg (unpinned ((key, metadata) :: es))
          rw [MakesRoom]
          omega
        · rw [List.map_cons, evictLoop, hfits.addFloat_eq, if_neg hroom, totalSize_nil, Int.sub_zero]
          rfl

/-- The entries with the keys of some of them are these, as no two entries have one key. -/
theorem filter_mem_keys {es evicted : List (κ × CachedMetadata)} (hnodup : (es.map Prod.fst).Nodup)
    (hsub : evicted.Sublist es) : (es.filter fun entry => decide (entry.1 ∈ evicted.map Prod.fst)) = evicted := by
  induction hsub with
  | slnil => rfl
  | @cons evicted es entry hsub ih =>
      rw [List.map_cons, List.nodup_cons] at hnodup
      have hnot : entry.1 ∉ evicted.map Prod.fst := fun hmem => hnodup.1 ((hsub.map Prod.fst).subset hmem)
      rw [List.filter_cons_of_neg (by simpa using hnot), ih hnodup.2]
  | @cons_cons evicted es entry hsub ih =>
      rw [List.map_cons, List.nodup_cons] at hnodup
      have hrest : ∀ entry' ∈ es, decide (entry'.1 ∈ (entry :: evicted).map Prod.fst) =
          decide (entry'.1 ∈ evicted.map Prod.fst) := by
        intro entry' hentry'
        have hne : entry'.1 ≠ entry.1 := fun heq => hnodup.1 (heq ▸ List.mem_map_of_mem hentry')
        refine decide_eq_decide.2 ?_
        rw [List.map_cons, List.mem_cons, or_iff_right hne]
      rw [List.filter_cons_of_pos (by simp), List.filter_congr hrest, ih hnodup.2]

/-- What is kept has the size of all but what is evicted. -/
theorem totalSize_kept {es evicted : List (κ × CachedMetadata)} (hnodup : (es.map Prod.fst).Nodup)
    (hsub : evicted.Sublist es) :
    totalSize (es.filter fun entry => entry.1 ∉ evicted.map Prod.fst) = totalSize es - totalSize evicted := by
  have hsum := totalSize_filter_add (fun entry => decide (entry.1 ∈ evicted.map Prod.fst)) es
  rw [filter_mem_keys hnodup hsub] at hsum
  simp only [← decide_not] at hsum
  omega

/-- **When the evictor is right**, for sizes that a float holds: where what is put is larger than the limit by itself,
or fits next to the pinned entries. -/
theorem evictsMinimally_iff (e : LRUEvictor) (cacheDict : PyDict κ CachedMetadata) (cacheSize : ℤ)
    (hsize : totalSize cacheDict.entries = e.currentCacheSize) (hfits : e.FitsFloat cacheSize) :
    e.EvictsMinimally cacheDict cacheSize ↔
      e.maxCacheSize < cacheSize ∨ cacheSize + totalSize (pinned cacheDict.entries) ≤ e.maxCacheSize := by
  have hsplit := totalSize_filter_add (fun entry => entry.2.isPinned) cacheDict.entries
  rw [← pinned, ← unpinned] at hsplit
  by_cases hlarge : cacheSize > e.maxCacheSize
  · refine iff_of_true (Or.inr ⟨?_, ?_⟩) (Or.inl hlarge)
    · rintro ⟨evicted, hprefix, hroom⟩
      have hle := totalSize_le_of_prefix hprefix
      have hpinned := totalSize_nonneg (pinned cacheDict.entries)
      rw [MakesRoom] at hroom
      omega
    · rw [updateOnPut, if_pos hlarge]
  · rw [or_iff_right (by omega)]
    rcases evictLoop_spec cacheDict cacheSize cacheDict.entries (List.Subset.refl _) e hfits hsize.le with
      ⟨hno, hraise⟩ | ⟨hroom, evicted, hshortest, hloop⟩
    · refine iff_of_false ?_ ?_
      · cases hloop : evictLoop cacheDict cacheSize (cacheDict.entries.map Prod.fst) e with
        | mk result e' =>
            rw [hloop] at hraise
            dsimp only at hraise
            subst hraise
            rintro (⟨evicted, e'', hput, -⟩ | ⟨-, hput⟩)
            · rw [updateOnPut, if_neg hlarge, hloop] at hput
              cases hput
            · rw [updateOnPut, if_neg hlarge, hloop] at hput
              cases hput
      · rw [MakesRoom] at hno
        omega
    · have hevicted := totalSize_nonneg evicted
      have hle := totalSize_le_of_prefix hshortest.isPrefix
      have hpinned := totalSize_nonneg (pinned cacheDict.entries)
      rw [FitsFloat] at hfits
      have hput : cacheSize.natAbs < 2 ^ 53 := by omega
      have hkept : (cacheSize + (e.currentCacheSize - totalSize evicted)).natAbs < 2 ^ 53 := by omega
      refine iff_of_true (Or.inl ⟨evicted, { e with
        currentCacheSize := e.currentCacheSize - totalSize evicted + cacheSize }, ?_, hshortest, ?_, ?_, rfl⟩) ?_
      · rw [updateOnPut, if_neg hlarge, hloop]
        dsimp only
        rw [addFloat_of_lt hput hkept, Int.add_comm]
      · rw [totalSize_kept cacheDict.nodup_keys (hshortest.isPrefix.sublist.trans List.filter_sublist), hsize]
      · have hholds := hshortest.holds
        rw [MakesRoom] at hholds
        dsimp only
        omega
      · rw [MakesRoom] at hroom
        omega

/-- Two entries of six bytes, the second of which is pinned. -/
def halfPinned : PyDict ℕ CachedMetadata := ⟨[(0, ⟨6, false⟩), (1, ⟨6, true⟩)], by decide⟩

/-- The theorem where four bytes are put and the first entry makes room for them. -/
theorem evictsMinimally_iff_halfPinned :
    (⟨12, 12⟩ : LRUEvictor).EvictsMinimally halfPinned 4 ∧
      (LRUEvictor.updateOnPut ⟨12, 12⟩ halfPinned 4).1 = .ok ([0], .legal) :=
  ⟨((⟨12, 12⟩ : LRUEvictor).evictsMinimally_iff halfPinned 4 (by decide) (by decide)).2 (Or.inr (by decide)), by decide⟩

/-- **There is no room next to the pinned entry**: the evictor raises, and the size of the other entry is taken off
although nothing is evicted. -/
theorem not_evictsMinimally_halfPinned :
    totalSize halfPinned.entries = (⟨12, 12⟩ : LRUEvictor).currentCacheSize ∧
      (⟨12, 12⟩ : LRUEvictor).FitsFloat 8 ∧
      ¬ (⟨12, 12⟩ : LRUEvictor).EvictsMinimally halfPinned 8 ∧
      LRUEvictor.updateOnPut ⟨12, 12⟩ halfPinned 8 = (.error .stopIteration, ⟨12, 6⟩) := by
  have hput : LRUEvictor.updateOnPut ⟨12, 12⟩ halfPinned 8 = (.error .stopIteration, ⟨12, 6⟩) := by decide
  refine ⟨by decide, by decide, ?_, hput⟩
  rintro (⟨evicted, e', hput', -⟩ | ⟨-, hput'⟩)
  · rw [hput] at hput'
    cases hput'
  · rw [hput] at hput'
    cases hput'

end LRUEvictor

end InfiniKV
