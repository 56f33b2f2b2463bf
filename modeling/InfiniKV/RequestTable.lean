/-
**Tables of requests.**

A request is put into a table under the next number, and is changed in the table when it finishes.  From
time to time the finished requests of the table are reported and removed, and the others stay.

A ledger says what this is for: it has all requests, those that have finished, and those that have been
reported.  A table that is used as the ledger allows finds each request that is to finish, and each finished
request is either in one report or still in the table.

Main definitions:

* `RequestTable` — tables, with `request`, `finish?`, `source` and `clear`;
* `Ledger` — ledgers, with the same operations;
* `Tracks` — **what a table and its ledger have to do with each other**.

Main results:

* `Tracks.request`, `Tracks.clear` — a new request, and a report, keep this;
* `Tracks.finish` — **a request that may finish is in the table**, and this is kept.
-/

import InfiniKV.PyDict
import Mathlib.Order.Basic
import Mathlib.Data.Nat.Basic

set_option relaxedAutoImplicit false
set_option autoImplicit false

/-- A table of requests, and the next number. -/
structure RequestTable (σ : Type) where
  entries : PyDict ℕ σ
  nextId : ℕ

/-- All requests with their numbers; how they finished; and what has been reported. -/
structure Ledger (σ : Type) where
  requested : List (ℕ × σ)
  finished : List (ℕ × σ)
  reported : List (ℕ × σ)

variable {σ : Type}

/-! ### The operations -/

namespace RequestTable

/-- A new table. -/
def new : RequestTable σ := ⟨.empty, 0⟩

/-- A request is put into the table. -/
def request (t : RequestTable σ) (s : σ) : RequestTable σ := ⟨t.entries.set t.nextId s, t.nextId + 1⟩

/-- A request is changed, if it is in the table. -/
def finish? (t : RequestTable σ) (id : ℕ) (f : σ → σ) : Option (RequestTable σ) :=
  (t.entries.get? id).map fun s => { t with entries := t.entries.set id (f s) }

/-- The finished requests of the table. -/
def source (done : σ → Bool) (t : RequestTable σ) : List (ℕ × σ) := t.entries.entries.filter fun e => done e.2

/-- The finished requests are removed. -/
def clear (done : σ → Bool) (t : RequestTable σ) : RequestTable σ :=
  { t with entries := t.entries.filter fun s => !done s }

end RequestTable

namespace Ledger

/-- A new ledger. -/
def new : Ledger σ := ⟨[], [], []⟩

/-- A request with a number. -/
def request (l : Ledger σ) (id : ℕ) (s : σ) : Ledger σ := { l with requested := l.requested ++ [(id, s)] }

/-- A request finishes. -/
def finish (l : Ledger σ) (id : ℕ) (f : σ → σ) : Ledger σ :=
  { l with finished := l.finished ++ ((l.requested.lookup id).map fun s => (id, f s)).toList }

/-- Requests are reported. -/
def report (l : Ledger σ) (source : List (ℕ × σ)) : Ledger σ := { l with reported := l.reported ++ source }

/-- The requests that may finish: those that were made and have not finished. -/
def Unfinished (l : Ledger σ) (id : ℕ) : Prop :=
  id ∈ l.requested.map Prod.fst ∧ id ∉ l.finished.map Prod.fst

end Ledger

/-! ### Tables and ledgers -/

/-- **What a table and its ledger have to do with each other.** -/
structure Tracks (done : σ → Bool) (t : RequestTable σ) (l : Ledger σ) : Prop where
  ids : l.requested.map Prod.fst = List.range t.nextId
  undone : ∀ e ∈ l.requested, done e.2 = false
  current : ∀ e ∈ l.requested, e.1 ∉ l.finished.map Prod.fst → t.entries.get? e.1 = some e.2
  known : ∀ id s, t.entries.get? id = some s → id < t.nextId
  unfinished : ∀ id s, t.entries.get? id = some s → done s = false → id ∉ l.finished.map Prod.fst
  made : ∀ id ∈ l.finished.map Prod.fst, id < t.nextId
  finished : (l.reported ++ t.source done).Perm l.finished
  nodup : (l.finished.map Prod.fst).Nodup
  reported : ∀ e ∈ l.reported, t.entries.get? e.1 = none

/-- The finished requests after an assignment that does not replace one of them, up to their order. -/
theorem RequestTable.source_set_perm (done : σ → Bool) (d : PyDict ℕ σ) (id : ℕ) (s : σ)
    (h : ∀ s', d.get? id = some s' → done s' = false) :
    ((d.set id s).entries.filter fun e => done e.2).Perm
      (((id, s) :: d.entries).filter fun e => done e.2) := by
  have hrest : (d.entries.filter fun e => decide (e.1 ≠ id)).filter (fun e => done e.2) =
      d.entries.filter fun e => done e.2 := by
    rw [List.filter_filter]
    refine List.filter_congr fun e he => ?_
    -- a finished request has another number
    cases hdone : done e.2 with
    | false => rfl
    | true =>
        refine decide_eq_true fun heq => ?_
        rw [h e.2 (heq ▸ PyDict.mem_entries.1 he)] at hdone
        cases hdone
  refine ((d.entries_set_perm id s).filter _).trans ?_
  rw [List.filter_cons, List.filter_cons, hrest]

namespace Tracks

variable {done : σ → Bool} {t : RequestTable σ} {l : Ledger σ} {id : ℕ} {s : σ} {f : σ → σ}

/-- A new table and a new ledger. -/
theorem new : Tracks done (.new : RequestTable σ) .new where
  ids := rfl
  undone := by simp [Ledger.new]
  current := by simp [Ledger.new]
  known := by simp [RequestTable.new]
  unfinished := by simp [RequestTable.new]
  made := by simp [Ledger.new]
  finished := .refl _
  nodup := List.nodup_nil
  reported := by simp [Ledger.new]

/-- What has been reported has finished. -/
theorem finished_of_reported (h : Tracks done t l) {e : ℕ × σ} (he : e ∈ l.reported) :
    e.1 ∈ l.finished.map Prod.fst :=
  List.mem_map_of_mem (h.finished.subset (List.mem_append_left _ he))

/-- The requests have different numbers. -/
theorem requested_nodup (h : Tracks done t l) : (l.requested.map Prod.fst).Nodup :=
  h.ids ▸ List.nodup_range

/-- **A request is made.** -/
theorem request (h : Tracks done t l) (hs : done s = false) :
    Tracks done (t.request s) (l.request t.nextId s) where
  ids := by
    change (l.requested ++ [(t.nextId, s)]).map Prod.fst = _
    rw [List.map_append, h.ids]
    exact List.range_succ.symm
  undone := List.forall_mem_append.2 ⟨h.undone, by simpa using hs⟩
  current := by
    refine List.forall_mem_append.2 ⟨?_, ?_⟩
    · intro e he hnot
      have hlt : e.1 < t.nextId := by
        rw [← List.mem_range, ← h.ids]
        exact List.mem_map_of_mem he
      rw [RequestTable.request, PyDict.get?_set_ne _ _ hlt.ne]
      exact h.current e he hnot
    · rw [List.forall_mem_singleton]
      exact fun _ => PyDict.get?_set_self _ _ _
  known := by
    intro id s' hs'
    rw [RequestTable.request, PyDict.get?_set] at hs'
    by_cases hid : id = t.nextId
    · exact hid ▸ Nat.lt_succ_self id
    · rw [if_neg hid] at hs'
      exact (h.known id s' hs').trans (Nat.lt_succ_self _)
  unfinished := by
    intro id s' hs' hdone
    rw [RequestTable.request, PyDict.get?_set] at hs'
    by_cases hid : id = t.nextId
    · exact fun hmem => absurd (h.made id hmem) (hid ▸ lt_irrefl _)
    · rw [if_neg hid] at hs'
      exact h.unfinished id s' hs' hdone
  made := fun id hid => (h.made id hid).trans (Nat.lt_succ_self _)
  finished := by
    have hnew : ∀ s', t.entries.get? t.nextId = some s' → done s' = false :=
      fun s' hs' => absurd (h.known _ s' hs') (lt_irrefl _)
    have hsource := RequestTable.source_set_perm done t.entries t.nextId s hnew
    rw [List.filter_cons_of_neg (by simp [hs])] at hsource
    exact (hsource.append_left l.reported).trans h.finished
  nodup := h.nodup
  reported := by
    intro e he
    have hlt := h.made e.1 (h.finished_of_reported he)
    rw [RequestTable.request, PyDict.get?_set_ne _ _ hlt.ne]
    exact h.reported e he

/-- **A request finishes**, for the first time: it is in the table. -/
theorem finish (h : Tracks done t l) (hid : l.Unfinished id)
    (hdone : ∀ s, done (f s) = true) :
    ∃ t', t.finish? id f = some t' ∧ Tracks done t' (l.finish id f) := by
  obtain ⟨⟨id, s⟩, hmem, rfl⟩ := List.mem_map.1 hid.1
  have hs := h.current _ hmem hid.2
  have hundone := h.undone _ hmem
  have hlookup : l.requested.lookup id = some s :=
    PyDict.mem_entries (d := ⟨l.requested, h.requested_nodup⟩).1 hmem
  have hfinish : (l.finish id f).finished = l.finished ++ [(id, f s)] := by
    rw [Ledger.finish, hlookup]
    rfl
  have hids : (l.finish id f).finished.map Prod.fst = l.finished.map Prod.fst ++ [id] := by
    rw [hfinish, List.map_append]
    rfl
  refine ⟨_, by rw [RequestTable.finish?, hs]; rfl, ?_⟩
  constructor
  · exact h.ids
  · exact h.undone
  · intro e he hnot
    rw [hids, List.mem_append, List.mem_singleton, not_or] at hnot
    rw [PyDict.get?_set_ne _ _ hnot.2]
    exact h.current e he hnot.1
  · intro id' s' hs'
    rw [PyDict.get?_set] at hs'
    by_cases heq : id' = id
    · exact heq ▸ h.known id s hs
    · rw [if_neg heq] at hs'
      exact h.known id' s' hs'
  · intro id' s' hs' hdone'
    rw [PyDict.get?_set] at hs'
    by_cases heq : id' = id
    · rw [if_pos heq] at hs'
      cases hs'
      rw [hdone] at hdone'
      cases hdone'
    · rw [if_neg heq] at hs'
      rw [hids, List.mem_append, List.mem_singleton, not_or]
      exact ⟨h.unfinished id' s' hs' hdone', heq⟩
  · intro id' hid'
    rw [hids, List.mem_append, List.mem_singleton] at hid'
    rcases hid' with hid' | rfl
    · exact h.made id' hid'
    · exact h.known _ s hs
  · have hsource := RequestTable.source_set_perm done t.entries id (f s) (by
      intro s' hs'
      cases hs.symm.trans hs'
      exact hundone)
    rw [List.filter_cons_of_pos (by simp [hdone])] at hsource
    rw [hfinish]
    refine (hsource.append_left l.reported).trans (List.perm_middle.trans ?_)
    exact (h.finished.cons (id, f s)).trans (List.perm_append_singleton _ _).symm
  · rw [hids]
    refine List.nodup_append.2 ⟨h.nodup, List.nodup_singleton _, ?_⟩
    intro id₁ hid₁ id₂ hid₂ heq
    rw [List.mem_singleton] at hid₂
    exact hid.2 (hid₂ ▸ heq ▸ hid₁)
  · intro e he
    have hmem := h.finished_of_reported he
    have hne : e.1 ≠ id := by
      intro heq
      rw [heq] at hmem
      exact hid.2 hmem
    rw [PyDict.get?_set_ne _ _ hne]
    exact h.reported e he

/-- **The finished requests are reported and removed.** -/
theorem clear (h : Tracks done t l) : Tracks done (t.clear done) (l.report (t.source done)) where
  ids := h.ids
  undone := h.undone
  current := by
    intro e he hnot
    rw [RequestTable.clear, PyDict.get?_filter, h.current e he hnot]
    simp [h.undone e he]
  known := by
    intro id s hs
    rw [RequestTable.clear, PyDict.get?_filter, Option.filter_eq_some_iff] at hs
    exact h.known id s hs.1
  unfinished := by
    intro id s hs hdone
    rw [RequestTable.clear, PyDict.get?_filter, Option.filter_eq_some_iff] at hs
    exact h.unfinished id s hs.1 hdone
  made := h.made
  finished := by
    have hnil : (t.clear done).source done = [] := by
      rw [RequestTable.source, RequestTable.clear, PyDict.filter, List.filter_filter, List.filter_eq_nil_iff]
      simp
    rw [hnil, List.append_nil]
    exact h.finished
  nodup := h.nodup
  reported := by
    intro e he
    rw [RequestTable.clear, PyDict.get?_filter]
    rcases List.mem_append.1 he with he | he
    · rw [h.reported e he]
      rfl
    · obtain ⟨hmem, hdone⟩ := List.mem_filter.1 he
      rw [PyDict.mem_entries.1 hmem]
      simp [hdone]

end Tracks
