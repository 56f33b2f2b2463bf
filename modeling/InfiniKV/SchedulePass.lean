/-
**What a pass of the scheduler does to each request.**

The two loops of `schedule` are broken up into moves.  A move of the first loop schedules a running
request or preempts one; a move of the second loop matches a waiting request against the caches, or
schedules it.  From the moves we read off the fate of each request in a pass: it is left alone,
scheduled again, preempted, or admitted from the waiting queue.

Main definitions:

* `InfiniKV.Pass.RunMove`, `InfiniKV.Pass.WaitMove` — the moves of the two loops;
* `InfiniKV.Scheduler.WellFormed` — what holds of the queues between steps;
* `InfiniKV.Pass.Fate` — **the fate of a request in a pass**.

Main results:

* `InfiniKV.Pass.runningLoop_moves`, `InfiniKV.Pass.waitingLoop_moves` — the loops make these moves
  and no others;
* `InfiniKV.Scheduler.schedulePass_rule` — the invariant rule of a pass;
* `InfiniKV.Scheduler.schedulePass_fate` — every request has one of the four fates;
* `InfiniKV.Scheduler.schedulePass_loadSpecs`, `schedulePass_loadable` — where load specs come from, and
  which of them may be loaded.
-/

import InfiniKV.Scheduler
import Mathlib.Logic.Relation

set_option relaxedAutoImplicit false
set_option autoImplicit false

namespace InfiniKV

open Relation

/-! ### Lists -/

/-- Another element that is among the first `i` stays there when an element is erased. -/
theorem mem_take_erase {α : Type} [DecidableEq α] {x v : α} {l : List α} {i : ℕ} (hne : x ≠ v)
    (h : x ∈ l.take i) : x ∈ (l.erase v).take i := by
  induction l generalizing i with
  | nil => exact h
  | cons a l ih =>
      cases i with
      | zero => cases h
      | succ i =>
          rw [List.take_succ_cons] at h
          by_cases hav : a = v
          · subst hav
            rw [List.erase_cons_head]
            rcases List.mem_cons.1 h with rfl | h
            · exact absurd rfl hne
            · exact List.take_subset_take_left l (Nat.le_succ i) h
          · rw [List.erase_cons_tail (by simpa using hav), List.take_succ_cons]
            rcases List.mem_cons.1 h with rfl | h
            · exact List.mem_cons_self ..
            · exact List.mem_cons_of_mem _ (ih h)

/-- If the element erased is itself among the first `i`, the others move up. -/
theorem mem_take_erase_of_mem {α : Type} [DecidableEq α] {x v : α} {l : List α} {i : ℕ}
    (hne : x ≠ v) (hv : v ∈ l.take i) (h : x ∈ l.take i) : x ∈ (l.erase v).take (i - 1) := by
  induction l generalizing i with
  | nil => cases i <;> cases h
  | cons a l ih =>
      cases i with
      | zero => cases h
      | succ i =>
          rw [List.take_succ_cons] at h hv
          rw [Nat.add_sub_cancel]
          by_cases hav : a = v
          · subst hav
            rw [List.erase_cons_head]
            rcases List.mem_cons.1 h with rfl | h
            · exact absurd rfl hne
            · exact h
          · have hv' : v ∈ l.take i := (List.mem_cons.1 hv).resolve_left (Ne.symm hav)
            cases i with
            | zero => cases hv'
            | succ i =>
                rw [List.erase_cons_tail (by simpa using hav), List.take_succ_cons]
                rcases List.mem_cons.1 h with rfl | h
                · exact List.mem_cons_self ..
                · exact List.mem_cons_of_mem _ (ih hv' h)

theorem erase_getLast {α : Type} [DecidableEq α] {l : List α} {v : α} (hl : l.Nodup)
    (hv : l.getLast? = some v) : l.erase v = l.dropLast := by
  obtain ⟨ys, rfl⟩ := List.getLast?_eq_some_iff.1 hv
  rw [List.dropLast_concat, List.erase_append_right]
  · simp
  · intro hmem
    exact (List.nodup_append.1 hl).2.2 v hmem v (List.mem_singleton.2 rfl) rfl

/-- Two states of the connector with the same configuration and the same trackers. -/
structure SchedulerConnector.SameTrackers (c c' : SchedulerConnector) : Prop where
  blockSize : c'.blockSize = c.blockSize
  kvRole : c'.kvRole = c.kvRole
  discardPartialChunks : c'.discardPartialChunks = c.discardPartialChunks
  skipLastNTokens : c'.skipLastNTokens = c.skipLastNTokens
  requestTrackers : c'.requestTrackers = c.requestTrackers

/-- **What holds of the queues between steps.** -/
structure Scheduler.WellFormed (s : Scheduler) : Prop where
  running_nodup : s.running.Nodup
  waiting_nodup : s.waiting.Nodup
  disjoint : ∀ id ∈ s.running, id ∉ s.waiting
  running_request : ∀ id ∈ s.running, ∃ r, s.requests id = some r ∧ r.status = .running
  waiting_request : ∀ id ∈ s.waiting, ∃ r, s.requests id = some r ∧ r.status ≠ .running ∧
    r.numComputedTokens = 0 ∧ s.reqToBlocks id = []
  unknown_blocks : ∀ id, s.requests id = none → s.reqToBlocks id = []
  running_unfinished : ∀ id ∈ s.running, id ∉ s.finishedReqIds

namespace Pass

/-! ### Moves -/

/-- The pass with other counters. -/
def withCounters (p : Pass) (tokenBudget calls : ℕ) : Pass :=
  { p with scheduler := { p.scheduler with calls := calls }, tokenBudget := tokenBudget }

/-- The pass after a running request was preempted. -/
def afterPreempt (p : Pass) (id : String) (r : Request) : Pass :=
  { p with
    scheduler := { p.scheduler with running := p.scheduler.running.erase id }.preemptRequest id r
    scheduled := p.scheduled.filter (·.reqId ≠ id)
    preempted := p.preempted ++ [id] }

/-- The pass with another state of the connector. -/
def withConnector (p : Pass) (c : SchedulerConnector) : Pass :=
  { p with scheduler := { p.scheduler with connector := c } }

/-- The connector after blocks were allocated for a request. -/
def connectorAfterAdmit (p : Pass) (id : String) (found : Matched) : SchedulerConnector :=
  SchedulerConnector.setLoadSpec { p.scheduler.connector with
    requestsInStep := insert id p.scheduler.connector.requestsInStep } id
      ((p.scheduler.connector.loadSpecs id).map fun l =>
        { l with canLoad := decide (found.numExternalComputedTokens ≠ 0) })

/-- The pass after a waiting request was admitted. -/
def afterAdmit (p : Pass) (id : String) (r : Request) (found : Matched) (x : ScheduledRequest) : Pass :=
  { p with
    scheduler := { p.scheduler with
      connector := p.connectorAfterAdmit id found
      reqToBlocks := Function.update p.scheduler.reqToBlocks id x.newBlocks
      waiting := p.scheduler.waiting.erase id
      running := p.scheduler.running ++ [id] }.setRequest id
        { r with
          status := .running
          numComputedTokens := found.numComputedTokens }
    tokenBudget := p.tokenBudget - x.numNewTokens
    scheduled := p.scheduled ++ [x] }

/-- A move of the loop over the running requests. -/
inductive RunMove : Pass → Pass → Prop
  | counters (p : Pass) (tokenBudget calls : ℕ) : RunMove p (p.withCounters tokenBudget calls)
  | schedule (p : Pass) (id : String) (r : Request) (n : ℕ) (newBlocks : List ℕ)
      (hrun : id ∈ p.scheduler.running) (hr : p.scheduler.requests id = some r)
      (hfresh : ∀ x ∈ p.scheduled, x.reqId ≠ id) (hn : 0 < n) :
      RunMove p (p.scheduleRunning id r n newBlocks)
  | preempt (p : Pass) (id : String) (r : Request) (hrun : id ∈ p.scheduler.running)
      (hr : p.scheduler.requests id = some r) : RunMove p (p.afterPreempt id r)

/-- A move of the loop over the waiting requests. -/
inductive WaitMove (lookup : List ℤ → Except PyError ℕ) : Pass → Pass → Prop
  | counters (p : Pass) (tokenBudget calls : ℕ) :
      WaitMove lookup p (p.withCounters tokenBudget calls)
  | tokens (p : Pass) (id : String) (r : Request) (k n : ℕ) (c : SchedulerConnector)
      (hwait : id ∈ p.scheduler.waiting) (hr : p.scheduler.requests id = some r)
      (h : p.scheduler.connector.getNumNewMatchedTokens lookup id r k = .ok (n, c)) :
      WaitMove lookup p (p.withConnector c)
  | admitWaiting (p p' : Pass) (id : String) (r : Request) (found : Matched) (n : ℕ) (newBlocks : List ℕ)
      (hwait : id ∈ p.scheduler.waiting) (hr : p.scheduler.requests id = some r) (hn : 0 < n)
      (hfound : r.numComputedTokens = 0 → found.numComputedTokens =
        found.numLocalComputedTokens + found.numExternalComputedTokens)
      (hload : 0 < found.numExternalComputedTokens → ∃ hit, p.scheduler.connector.loadSpecs id =
        some ⟨found.numLocalComputedTokens, hit, false, none, none⟩ ∧
          found.numLocalComputedTokens + found.numExternalComputedTokens ≤ hit ∧
          ∃ tokenIds, p.scheduler.connector.tokensToLookup r = .ok tokenIds ∧ lookup tokenIds = .ok hit)
      (h : p.admitWaiting id r found n newBlocks = .ok p') : WaitMove lookup p p'

/-! ### The loop over the running requests -/

/-- What holds while blocks are allocated for the running request `id` at index `i`: requests that are
scheduled stand before the index, and the request itself does not stand behind it. -/
structure AllocInv (id : String) (r : Request) (i : ℕ) (p : Pass) : Prop where
  nodup : p.scheduler.running.Nodup
  request : p.scheduler.requests id = some r
  scheduled : ∀ x ∈ p.scheduled, x.reqId ∈ p.scheduler.running.take i
  fresh : ∀ x ∈ p.scheduled, x.reqId ≠ id
  here : id ∈ p.scheduler.running.take (i + 1)
  fcfs : p.scheduler.config.policy = .fcfs → p.scheduler.running[i]? = some id

variable {ops : KVCacheOps} {lookup : List ℤ → Except PyError ℕ} {p p' : Pass} {id v : String}
  {r : Request} {i i' : ℕ}

theorem mem_running_of_preemptedReq {s : Scheduler} (h : s.preemptedReq = some v) : v ∈ s.running := by
  rw [Scheduler.preemptedReq] at h
  split at h
  · exact List.mem_of_getLast? h
  · exact List.maxOn?_mem h

theorem AllocInv.withCounters (h : AllocInv id r i p) (tokenBudget calls : ℕ) :
    AllocInv id r i (p.withCounters tokenBudget calls) :=
  ⟨h.nodup, h.request, h.scheduled, h.fresh, h.here, h.fcfs⟩

/-- Under the policy `FCFS` the request that is preempted stands last, and was not scheduled. -/
theorem removeRunning_of_fcfs (hinv : AllocInv id r i p) (hpolicy : p.scheduler.config.policy = .fcfs)
    (hv : p.scheduler.running.getLast? = some v) :
    p.scheduler.running.dropLast = p.scheduler.running.erase v ∧
      (p.scheduled.filter (·.reqId ≠ v) = p.scheduled) ∧
      (v ≠ id → p.scheduler.running.dropLast[i]? = some id) := by
  have herase := erase_getLast hinv.nodup hv
  have hi := hinv.fcfs hpolicy
  obtain ⟨ys, hys⟩ := List.getLast?_eq_some_iff.1 hv
  have hnodup := hinv.nodup
  rw [hys] at hi hnodup
  have hlt : i < ys.length + 1 := by
    have := (List.getElem?_eq_some_iff.1 hi).1
    simpa using this
  refine ⟨herase.symm, ?_, ?_⟩
  · refine List.filter_eq_self.2 fun x hx => ?_
    have hmem := hinv.scheduled x hx
    rw [hys, List.take_append_of_le_length (by omega)] at hmem
    have hne : x.reqId ≠ v := fun heq =>
      (List.nodup_append.1 hnodup).2.2 v (heq ▸ List.mem_of_mem_take hmem) v
        (List.mem_singleton.2 rfl) rfl
    simpa using hne
  · intro hne
    rw [hys, List.dropLast_concat]
    rcases Nat.lt_or_ge i ys.length with hlt' | hge
    · rwa [List.getElem?_append_left hlt'] at hi
    · have heq : i = ys.length := by omega
      rw [heq, List.getElem?_concat_length, Option.some.injEq] at hi
      exact absurd hi hne

/-- A preemption is a move, and unless the request itself is preempted, what holds for it goes on. -/
theorem preempt_move (hinv : AllocInv id r i p) (hv : p.scheduler.preemptedReq = some v)
    (h : p.preempt v i = .ok (i', p')) :
    ReflTransGen RunMove p p' ∧ (v ≠ id → AllocInv id r i' p') := by
  have hmem := mem_running_of_preemptedReq hv
  rw [preempt] at h
  split at h
  · cases h
  · rename_i r' hr'
    split at h
    · rename_i hstatus
      rw [Scheduler.preemptedReq] at hv
      have hkeep : v ≠ id → Function.update p.scheduler.requests v (some r'.preempt) id = some r := by
        intro hne
        rw [Function.update_of_ne hne.symm, hinv.request]
      cases hpolicy : p.scheduler.config.policy with
      | fcfs =>
          rw [hpolicy] at hv
          obtain ⟨hdrop, hsched, hhere⟩ := removeRunning_of_fcfs hinv hpolicy hv
          simp only [removeRunning, hpolicy] at h
          cases h
          refine ⟨ReflTransGen.single ?_, ?_⟩
          · have hmove := RunMove.preempt p v r' hmem hr'
            rw [afterPreempt, hsched, ← hdrop] at hmove
            exact hmove
          · intro hne
            have hi := hhere hne
            have hlt : i < p.scheduler.running.dropLast.length := (List.getElem?_eq_some_iff.1 hi).1
            refine ⟨?_, hkeep hne, ?_, hinv.fresh, ?_, fun _ => hi⟩
            · exact hinv.nodup.sublist (List.dropLast_sublist _)
            · intro x hx
              have hx' := mem_take_erase (v := v) ?_ (hinv.scheduled x hx)
              · rwa [← hdrop] at hx'
              · intro heq
                have := List.filter_eq_self.1 hsched x hx
                simp [heq] at this
            · exact List.mem_of_getElem? ((List.getElem?_take_of_lt (Nat.lt_succ_self i)).trans hi)
      | priority =>
          simp only [removeRunning, hpolicy] at h
          split at h
          · -- the request was scheduled in this pass: the index moves with it
            rename_i htaken
            cases h
            obtain ⟨y, hy⟩ := List.exists_mem_of_ne_nil _ htaken
            have hyv : y.reqId = v := by simpa using (List.mem_filter.1 hy).2
            have hvi : v ∈ p.scheduler.running.take i := hyv ▸ hinv.scheduled y (List.mem_filter.1 hy).1
            have hpos : 0 < i := by
              rcases Nat.eq_zero_or_pos i with rfl | hpos
              · cases hvi
              · exact hpos
            refine ⟨?_, ?_⟩
            · exact ReflTransGen.tail (ReflTransGen.single (RunMove.preempt p v r' hmem hr'))
                (RunMove.counters _ _ p.scheduler.calls)
            · intro hne
              refine ⟨hinv.nodup.erase v, hkeep hne, ?_, ?_, ?_, ?_⟩
              · intro x hx
                obtain ⟨hx, hxv⟩ := List.mem_filter.1 hx
                exact mem_take_erase_of_mem (by simpa using hxv) hvi (hinv.scheduled x hx)
              · exact fun x hx => hinv.fresh x (List.mem_filter.1 hx).1
              · have hvi' := List.take_subset_take_left p.scheduler.running (Nat.le_succ i) hvi
                have hhere := mem_take_erase_of_mem hne.symm hvi' hinv.here
                have heq : i.succ - 1 = i - 1 + 1 := by omega
                rw [heq] at hhere
                exact hhere
              · intro hf
                exact absurd (hpolicy.symm.trans hf) (by decide)
          · -- it was not
            rename_i htaken
            cases h
            rw [not_not] at htaken
            have hsched : p.scheduled.filter (·.reqId ≠ v) = p.scheduled :=
              List.filter_eq_self.2 fun x hx => by
                simpa using List.filter_eq_nil_iff.1 htaken x hx
            refine ⟨ReflTransGen.single ?_, ?_⟩
            · have hmove := RunMove.preempt p v r' hmem hr'
              rw [afterPreempt, hsched] at hmove
              exact hmove
            · intro hne
              refine ⟨hinv.nodup.erase v, hkeep hne, ?_, hinv.fresh, ?_, ?_⟩
              · intro x hx
                exact mem_take_erase (by simpa using List.filter_eq_nil_iff.1 htaken x hx)
                  (hinv.scheduled x hx)
              · exact mem_take_erase hne.symm hinv.here
              · intro hf
                exact absurd (hpolicy.symm.trans hf) (by decide)
    · cases h

/-- Allocating blocks for a running request makes moves, and if it succeeds, the request has not been
preempted. -/
theorem allocateOrPreempt_moves {fuel : ℕ} {newBlocks : Option (List ℕ)} (hinv : AllocInv id r i p)
    (h : allocateOrPreempt ops id fuel i p = .ok (newBlocks, i', p')) :
    ReflTransGen RunMove p p' ∧ (newBlocks ≠ none → AllocInv id r i' p') := by
  induction fuel generalizing i p with
  | zero =>
      unfold allocateOrPreempt at h
      split at h
      · cases h
        exact ⟨.single (.counters p _ _), fun _ => hinv.withCounters _ _⟩
      · simp only at h
        cases h
  | succ fuel ih =>
      unfold allocateOrPreempt at h
      split at h
      · cases h
        exact ⟨.single (.counters p _ _), fun _ => hinv.withCounters _ _⟩
      · cases hv : p.scheduler.preemptedReq with
        | none =>
            rw [hv] at h
            cases h
        | some v =>
            rw [hv] at h
            obtain ⟨⟨i₁, p₁⟩, h₁, h⟩ := bind_eq_ok.1 h
            obtain ⟨hmoves, hnext⟩ :=
              preempt_move (hinv.withCounters p.tokenBudget (p.scheduler.calls + 1)) hv h₁
            have hmoves' : ReflTransGen RunMove p p₁ :=
              ReflTransGen.head (.counters p p.tokenBudget _) hmoves
            simp only at h
            split at h
            · cases h
              exact ⟨hmoves', fun hne => absurd rfl hne⟩
            · rename_i hne
              obtain ⟨hrest, hinv'⟩ := ih (hnext hne) h
              exact ⟨hmoves'.trans hrest, hinv'⟩

theorem scheduleEncoderInputs_eq (ops : KVCacheOps) (p : Pass) (request : Request) (n : ℕ) :
    ∃ n' calls, p.scheduleEncoderInputs ops request n = (n', p.withCounters p.tokenBudget calls) := by
  rw [scheduleEncoderInputs]
  split
  · exact ⟨_, _, rfl⟩
  · exact ⟨n, p.scheduler.calls, rfl⟩

/-- **The loop over the running requests makes these moves and no others.** -/
theorem runningLoop_moves {fuel : ℕ} (hnodup : p.scheduler.running.Nodup)
    (hsched : ∀ x ∈ p.scheduled, x.reqId ∈ p.scheduler.running.take i)
    (h : runningLoop ops fuel i p = .ok p') : ReflTransGen RunMove p p' := by
  induction fuel generalizing i p with
  | zero =>
      cases h
      exact .refl
  | succ fuel ih =>
      unfold runningLoop at h
      split at h
      · cases h
        exact .refl
      · split at h
        · cases h
          exact .refl
        · rename_i id hid
          split at h
          · cases h
          · rename_i r hr
            obtain ⟨n, calls, heq⟩ := scheduleEncoderInputs_eq ops p r
              (p.numNewTokensOfRunning r)
            rw [heq] at h
            simp only at h
            have hcount : RunMove p (p.withCounters p.tokenBudget calls) := .counters p _ _
            split at h
            · -- nothing to compute for this request
              refine .head hcount (ih hnodup ?_ h)
              intro x hx
              exact List.take_subset_take_left _ (Nat.le_succ i) (hsched x hx)
            · rename_i hn
              obtain ⟨⟨newBlocks, i₁, p₁⟩, halloc, h⟩ := bind_eq_ok.1 h
              have hlt : i < p.scheduler.running.length := (List.getElem?_eq_some_iff.1 hid).1
              have hinv : AllocInv id r i (p.withCounters p.tokenBudget calls) := by
                refine ⟨hnodup, hr, hsched, ?_, ?_, fun _ => hid⟩
                · intro x hx heq
                  have hmem := hsched x hx
                  rw [heq] at hmem
                  obtain ⟨j, hj, hj'⟩ := List.mem_take_iff_getElem.1 hmem
                  have hij := (List.getElem?_eq_some_iff.1 hid).2
                  have := (List.Nodup.getElem_inj_iff hnodup).1 (hj'.trans hij.symm)
                  omega
                · exact List.mem_of_getElem? ((List.getElem?_take_of_lt (Nat.lt_succ_self i)).trans hid)
              obtain ⟨hmoves, hnext⟩ := allocateOrPreempt_moves hinv halloc
              cases newBlocks with
              | none =>
                  cases h
                  exact .head hcount hmoves
              | some newBlocks =>
                  have hinv₁ := hnext (Option.some_ne_none _)
                  have hmove := RunMove.schedule p₁ id r n newBlocks
                    (List.mem_of_mem_take hinv₁.here) hinv₁.request hinv₁.fresh (Nat.pos_of_ne_zero hn)
                  refine (ReflTransGen.head hcount hmoves).trans (.head hmove (ih hinv₁.nodup ?_ h))
                  intro x hx
                  rcases List.mem_append.1 hx with hx | hx
                  · exact List.take_subset_take_left _ (Nat.le_succ i₁) (hinv₁.scheduled x hx)
                  · rw [List.mem_singleton.1 hx]
                    exact hinv₁.here

/-! ### The loop over the waiting requests -/

theorem mem_waiting_of_peekRequest {s : Scheduler} (h : s.peekRequest = some id) : id ∈ s.waiting := by
  rw [Scheduler.peekRequest] at h
  split at h
  · exact List.mem_of_head? h
  · exact List.minOn?_mem h

/-- Matching a waiting request makes moves that leave the request where it is, and what is reported for
it is in its load spec, with the answer of the lookup. -/
theorem matchTokens_moves {found : Matched} (hwait : id ∈ p.scheduler.waiting)
    (hr : p.scheduler.requests id = some r)
    (h : p.matchTokens ops lookup id r = .ok (found, p')) :
    ReflTransGen (WaitMove lookup) p p' ∧ p'.scheduler.waiting = p.scheduler.waiting ∧
      p'.scheduler.requests id = some r ∧
      (r.numComputedTokens = 0 → found.numComputedTokens =
        found.numLocalComputedTokens + found.numExternalComputedTokens) ∧
      (0 < found.numExternalComputedTokens → ∃ hit, p'.scheduler.connector.loadSpecs id =
        some ⟨found.numLocalComputedTokens, hit, false, none, none⟩ ∧
          found.numLocalComputedTokens + found.numExternalComputedTokens ≤ hit ∧
          ∃ tokenIds, p'.scheduler.connector.tokensToLookup r = .ok tokenIds ∧
            lookup tokenIds = .ok hit) := by
  unfold matchTokens at h
  split at h
  · obtain ⟨⟨n, c⟩, hc, h⟩ := bind_eq_ok.1 h
    cases h
    refine ⟨?_, rfl, hr, fun _ => rfl, ?_⟩
    · exact ReflTransGen.tail (.single (.counters p p.tokenBudget _)) (.tokens _ id r _ n c hwait hr hc)
    · intro hpos
      rcases SchedulerConnector.getNumNewMatchedTokens_cases hc with
        ⟨rfl, -⟩ | ⟨tokenIds, hit, htokens, hhit, -, hend, rfl⟩
      · exact absurd hpos (Nat.lt_irrefl 0)
      · have hle : (ops.getComputedBlocks p.scheduler.calls).2 + n ≤ hit := by
          rw [hend]
          split_ifs
          · exact Nat.sub_le hit 1
          · exact le_rfl
        exact ⟨hit, Function.update_self .., hle, tokenIds, htokens, hhit⟩
  · rename_i hne
    cases h
    exact ⟨.refl, rfl, hr, fun hz => absurd hz hne, fun hpos => absurd hpos (Nat.lt_irrefl 0)⟩

/-- **The loop over the waiting requests makes these moves and no others.** -/
theorem waitingLoop_moves {fuel : ℕ} (h : waitingLoop ops lookup fuel p = .ok p') :
    ReflTransGen (WaitMove lookup) p p' := by
  induction fuel generalizing p with
  | zero =>
      cases h
      exact .refl
  | succ fuel ih =>
      unfold waitingLoop at h
      split at h
      · cases h
        exact .refl
      · split at h
        · cases h
          exact .refl
        · rename_i id hid
          split at h
          · cases h
          · rename_i r hr
            obtain ⟨⟨found, p₁⟩, hmatch, h⟩ := bind_eq_ok.1 h
            have hmem := mem_waiting_of_peekRequest hid
            obtain ⟨hmoves, hwait, hreq, hfound, hload⟩ := matchTokens_moves hmem hr hmatch
            simp only at h
            split at h
            · cases h
              exact hmoves
            · split at h
              · cases h
              · obtain ⟨n, calls, heq⟩ := scheduleEncoderInputs_eq ops p₁ r
                  (min (p₁.numNewTokensOfWaiting r found.numComputedTokens) p₁.tokenBudget)
                rw [heq] at h
                simp only at h
                have hcount : WaitMove lookup p₁ (p₁.withCounters p₁.tokenBudget calls) :=
                  .counters p₁ _ _
                split at h
                · cases h
                  exact hmoves.tail hcount
                · rename_i hn
                  split at h
                  · cases h
                    exact (hmoves.tail hcount).tail (.counters _ p₁.tokenBudget _)
                  · rename_i newBlocks _
                    obtain ⟨p₂, hadmit, h⟩ := bind_eq_ok.1 h
                    refine ((hmoves.tail hcount).tail (.counters _ p₁.tokenBudget (calls + 1))).trans
                      (.head ?_ (ih h))
                    exact .admitWaiting _ p₂ id r found n newBlocks
                      (hwait ▸ hmem) hreq (Nat.pos_of_ne_zero hn) hfound hload hadmit

/-! ### The fate of a request -/

/-- The entries of the pass for request `id`. -/
def entriesOf (p : Pass) (id : String) : List ScheduledRequest := p.scheduled.filter (·.reqId = id)

/-- **The fate of a request in a pass** that started from `s`. -/
inductive Fate (s : Scheduler) (p : Pass) (id : String) : Prop
  | untouched (hreq : p.scheduler.requests id = s.requests id)
      (hblocks : p.scheduler.reqToBlocks id = s.reqToBlocks id)
      (hrun : id ∈ p.scheduler.running ↔ id ∈ s.running)
      (hwait : id ∈ p.scheduler.waiting ↔ id ∈ s.waiting) (hentries : p.entriesOf id = [])
  | scheduled (r : Request) (x : ScheduledRequest) (hr : s.requests id = some r)
      (hrun : id ∈ s.running) (hrun' : id ∈ p.scheduler.running) (hwait' : id ∉ p.scheduler.waiting)
      (hreq : p.scheduler.requests id = some { r with specTokenIds := [] })
      (hblocks : p.scheduler.reqToBlocks id = s.reqToBlocks id ++ x.newBlocks)
      (hentries : p.entriesOf id = [x]) (hkind : x.kind = .running) (hpos : 0 < x.numNewTokens)
      (hspec : x.specTokenIds.length ≤ x.numNewTokens + r.numComputedTokens - r.numTokens)
      (hext : x.numExternalComputedTokens = 0)
  | preempted (r : Request) (hr : s.requests id = some r) (hrun : id ∈ s.running)
      (hrun' : id ∉ p.scheduler.running) (hwait' : id ∈ p.scheduler.waiting)
      (hreq : p.scheduler.requests id = some r.preempt) (hblocks : p.scheduler.reqToBlocks id = [])
      (hentries : p.entriesOf id = []) (hpreempted : id ∈ p.preempted)
  | admitted (r : Request) (x : ScheduledRequest) (hr : s.requests id = some r)
      (hwait : id ∈ s.waiting) (hrun' : id ∈ p.scheduler.running) (hwait' : id ∉ p.scheduler.waiting)
      (hreq : p.scheduler.requests id = some { r with
        status := .running
        numComputedTokens := x.numLocalComputedTokens + x.numExternalComputedTokens })
      (hblocks : p.scheduler.reqToBlocks id = x.newBlocks) (hentries : p.entriesOf id = [x])
      (hkind : kindOfStatus r.status = .ok x.kind) (hpos : 0 < x.numNewTokens)
      (hspec : x.specTokenIds = []) (hin : id ∈ p.scheduler.connector.requestsInStep)
      (hload : 0 < x.numExternalComputedTokens → ∃ hit, p.scheduler.connector.loadSpecs id =
        some ⟨x.numLocalComputedTokens, hit, true, none, none⟩ ∧
          x.numLocalComputedTokens + x.numExternalComputedTokens ≤ hit)

/-- What a move for another request leaves as it is. -/
structure SameFor (id : String) (p p' : Pass) : Prop where
  requests : p'.scheduler.requests id = p.scheduler.requests id
  reqToBlocks : p'.scheduler.reqToBlocks id = p.scheduler.reqToBlocks id
  running : id ∈ p'.scheduler.running ↔ id ∈ p.scheduler.running
  waiting : id ∈ p'.scheduler.waiting ↔ id ∈ p.scheduler.waiting
  entries : p'.entriesOf id = p.entriesOf id
  preempted : id ∈ p.preempted → id ∈ p'.preempted
  loadSpecs : p'.scheduler.connector.loadSpecs id = p.scheduler.connector.loadSpecs id
  requestsInStep : id ∈ p.scheduler.connector.requestsInStep → id ∈ p'.scheduler.connector.requestsInStep

variable {s : Scheduler}

theorem Fate.of_sameFor (hsame : SameFor id p p') (h : Fate s p id) : Fate s p' id := by
  cases h with
  | untouched hreq hblocks hrun hwait hentries =>
      exact .untouched (hsame.requests.trans hreq) (hsame.reqToBlocks.trans hblocks)
        (hsame.running.trans hrun) (hsame.waiting.trans hwait) (hsame.entries.trans hentries)
  | scheduled r x hr hrun hrun' hwait' hreq hblocks hentries hkind hpos hspec hext =>
      exact .scheduled r x hr hrun (hsame.running.2 hrun') (fun h => hwait' (hsame.waiting.1 h))
        (hsame.requests.trans hreq) (hsame.reqToBlocks.trans hblocks) (hsame.entries.trans hentries)
        hkind hpos hspec hext
  | preempted r hr hrun hrun' hwait' hreq hblocks hentries hpreempted =>
      exact .preempted r hr hrun (fun h => hrun' (hsame.running.1 h)) (hsame.waiting.2 hwait')
        (hsame.requests.trans hreq) (hsame.reqToBlocks.trans hblocks) (hsame.entries.trans hentries)
        (hsame.preempted hpreempted)
  | admitted r x hr hwait hrun' hwait' hreq hblocks hentries hkind hpos hspec hin hload =>
      refine .admitted r x hr hwait (hsame.running.2 hrun') (fun h => hwait' (hsame.waiting.1 h))
        (hsame.requests.trans hreq) (hsame.reqToBlocks.trans hblocks) (hsame.entries.trans hentries)
        hkind hpos hspec (hsame.requestsInStep hin) ?_
      rw [hsame.loadSpecs]
      exact hload

/-- What holds along a pass that started from `s`. -/
structure PassInv (s : Scheduler) (p : Pass) : Prop where
  running_nodup : p.scheduler.running.Nodup
  waiting_nodup : p.scheduler.waiting.Nodup
  config : p.scheduler.config = s.config
  finishedReqIds : p.scheduler.finishedReqIds = s.finishedReqIds
  connector : s.connector.SameTrackers p.scheduler.connector
  requestsInStep : s.connector.requestsInStep ⊆ p.scheduler.connector.requestsInStep
  fate : ∀ id, Fate s p id

theorem entriesOf_of_append (p p' : Pass) (x : ScheduledRequest)
    (h : p'.scheduled = p.scheduled ++ [x]) (id : String) :
    p'.entriesOf id = if x.reqId = id then p.entriesOf id ++ [x] else p.entriesOf id := by
  rw [entriesOf, h, List.filter_append]
  by_cases hx : x.reqId = id
  · simp [entriesOf, hx]
  · simp [entriesOf, hx]

theorem entriesOf_eq_nil (h : ∀ x ∈ p.scheduled, x.reqId ≠ id) : p.entriesOf id = [] :=
  List.filter_eq_nil_iff.2 fun x hx => by simpa using h x hx

theorem sameFor_withCounters (id : String) (p : Pass) (b k : ℕ) : SameFor id p (p.withCounters b k) :=
  ⟨rfl, rfl, Iff.rfl, Iff.rfl, rfl, fun h => h, rfl, fun h => h⟩

/-- Scheduling a running request again. -/
theorem scheduleRunning_inv (hs : s.WellFormed) (hp : PassInv s p) {n : ℕ} {newBlocks : List ℕ}
    (hrun : id ∈ p.scheduler.running) (hr : p.scheduler.requests id = some r)
    (hfresh : ∀ x ∈ p.scheduled, x.reqId ≠ id) (hn : 0 < n) :
    PassInv s (p.scheduleRunning id r n newBlocks) := by
  refine ⟨hp.running_nodup, hp.waiting_nodup, hp.config, hp.finishedReqIds, hp.connector,
    hp.requestsInStep, fun id' => ?_⟩
  have hentries := entriesOf_of_append p (p.scheduleRunning id r n newBlocks) _ rfl id'
  by_cases hid : id' = id
  · subst hid
    rw [if_pos rfl, entriesOf_eq_nil hfresh, List.nil_append] at hentries
    have hreq : (p.scheduleRunning id' r n newBlocks).scheduler.requests id' =
      some { r with specTokenIds := [] } := Function.update_self ..
    have hblocks : (p.scheduleRunning id' r n newBlocks).scheduler.reqToBlocks id' =
      p.scheduler.reqToBlocks id' ++ newBlocks := Function.update_self ..
    cases hp.fate id' with
    | untouched hreq₀ hblocks₀ hrun₀ hwait₀ _ =>
        have hrun_s := hrun₀.1 hrun
        refine .scheduled r _ (hreq₀.symm.trans hr) hrun_s hrun ?_ hreq (hblocks₀ ▸ hblocks) hentries
          rfl hn ?_ rfl
        · exact fun h => hs.disjoint _ hrun_s (hwait₀.1 h)
        · exact List.length_take_le _ _
    | scheduled _ x _ _ _ _ _ _ hx =>
        rw [entriesOf_eq_nil hfresh] at hx
        cases hx
    | preempted _ _ _ hrun' => exact absurd hrun hrun'
    | admitted _ x _ _ _ _ _ _ hx =>
        rw [entriesOf_eq_nil hfresh] at hx
        cases hx
  · refine (hp.fate id').of_sameFor ⟨Function.update_of_ne hid _ _, Function.update_of_ne hid _ _,
      Iff.rfl, Iff.rfl, ?_, fun h => h, rfl, fun h => h⟩
    rw [hentries]
    exact if_neg (Ne.symm hid)

/-- Preempting a running request, before any waiting one is admitted. -/
theorem afterPreempt_inv (hs : s.WellFormed) (hp : PassInv s p)
    (hkind : ∀ x ∈ p.scheduled, x.kind = .running) (hrun : id ∈ p.scheduler.running)
    (hr : p.scheduler.requests id = some r) : PassInv s (p.afterPreempt id r) := by
  have hwait : id ∉ p.scheduler.waiting := by
    cases hp.fate id with
    | untouched _ _ hrun₀ hwait₀ _ => exact fun h => hs.disjoint _ (hrun₀.1 hrun) (hwait₀.1 h)
    | scheduled _ _ _ _ _ hwait' => exact hwait'
    | preempted _ _ _ hrun' => exact absurd hrun hrun'
    | admitted _ _ _ _ _ hwait' => exact hwait'
  refine ⟨hp.running_nodup.erase id, List.nodup_cons.2 ⟨hwait, hp.waiting_nodup⟩, hp.config,
    hp.finishedReqIds, hp.connector, hp.requestsInStep, fun id' => ?_⟩
  by_cases hid : id' = id
  · subst hid
    have hreq : (p.afterPreempt id' r).scheduler.requests id' = some r.preempt :=
      Function.update_self ..
    have hblocks : (p.afterPreempt id' r).scheduler.reqToBlocks id' = [] := Function.update_self ..
    have hrun' : id' ∉ (p.afterPreempt id' r).scheduler.running := hp.running_nodup.not_mem_erase
    have hwait' : id' ∈ (p.afterPreempt id' r).scheduler.waiting := List.mem_cons_self ..
    have hentries : (p.afterPreempt id' r).entriesOf id' = [] :=
      entriesOf_eq_nil fun x hx => by simpa using (List.mem_filter.1 hx).2
    have hpreempted : id' ∈ (p.afterPreempt id' r).preempted :=
      List.mem_append_right _ (List.mem_singleton.2 rfl)
    cases hp.fate id' with
    | untouched hreq₀ _ hrun₀ _ _ =>
        exact .preempted r (hreq₀.symm.trans hr) (hrun₀.1 hrun) hrun' hwait' hreq hblocks hentries
          hpreempted
    | scheduled r₀ _ hr₀ hrun₀ _ _ hreq₀ =>
        -- the draft tokens are dropped either way
        cases hreq₀.symm.trans hr
        exact .preempted r₀ hr₀ hrun₀ hrun' hwait' hreq hblocks hentries hpreempted
    | preempted _ _ _ hrun₀ => exact absurd hrun hrun₀
    | admitted r₀ x _ _ _ _ _ _ hx hkind₀ =>
        have hmem : x ∈ p.entriesOf id' := hx ▸ List.mem_singleton.2 rfl
        have := hkind x (List.mem_filter.1 hmem).1
        rw [this] at hkind₀
        cases hstatus : r₀.status <;> rw [hstatus] at hkind₀ <;> cases hkind₀
  · refine (hp.fate id').of_sameFor ⟨Function.update_of_ne hid _ _, Function.update_of_ne hid _ _,
      List.mem_erase_of_ne hid, ?_, ?_, fun h => List.mem_append_left _ h, rfl, fun h => h⟩
    · exact ⟨fun h => (List.mem_cons.1 h).resolve_left hid, fun h => List.mem_cons_of_mem _ h⟩
    · show (p.scheduled.filter (·.reqId ≠ id)).filter (·.reqId = id') = p.scheduled.filter (·.reqId = id')
      rw [List.filter_filter]
      refine List.filter_congr fun x _ => ?_
      by_cases hx : x.reqId = id'
      · simp [hx, hid]
      · simp [hx]

theorem runMove_inv (hs : s.WellFormed) (hp : PassInv s p)
    (hkind : ∀ x ∈ p.scheduled, x.kind = .running) (h : RunMove p p') :
    PassInv s p' ∧ ∀ x ∈ p'.scheduled, x.kind = .running := by
  cases h with
  | counters b k =>
      exact ⟨⟨hp.running_nodup, hp.waiting_nodup, hp.config, hp.finishedReqIds, hp.connector,
        hp.requestsInStep, fun id => (hp.fate id).of_sameFor (sameFor_withCounters id p b k)⟩, hkind⟩
  | schedule id r n newBlocks hrun hr hfresh hn =>
      refine ⟨scheduleRunning_inv hs hp hrun hr hfresh hn, fun x hx => ?_⟩
      rcases List.mem_append.1 hx with hx | hx
      · exact hkind x hx
      · rw [List.mem_singleton.1 hx]
  | preempt id r hrun hr =>
      exact ⟨afterPreempt_inv hs hp hkind hrun hr, fun x hx => hkind x (List.mem_filter.1 hx).1⟩

/-- Matching a waiting request changes its load spec at most. -/
theorem tokens_inv (hp : PassInv s p) {k n : ℕ} {c : SchedulerConnector}
    (hwait : id ∈ p.scheduler.waiting)
    (h : p.scheduler.connector.getNumNewMatchedTokens lookup id r k = .ok (n, c)) :
    PassInv s (p.withConnector c) := by
  rcases SchedulerConnector.getNumNewMatchedTokens_cases h with ⟨-, rfl⟩ | ⟨_, hit, -, -, -, -, rfl⟩
  · exact hp
  · refine ⟨hp.running_nodup, hp.waiting_nodup, hp.config, hp.finishedReqIds, ?_, hp.requestsInStep,
      fun id' => ?_⟩
    · exact ⟨hp.connector.blockSize, hp.connector.kvRole, hp.connector.discardPartialChunks,
        hp.connector.skipLastNTokens, hp.connector.requestTrackers⟩
    · by_cases hid : id' = id
      · -- the load spec only matters once the request has left the queue
        subst hid
        cases hp.fate id' with
        | untouched hreq hblocks hrun hwait₀ hentries =>
            exact .untouched hreq hblocks hrun hwait₀ hentries
        | scheduled _ _ _ _ _ hwait' => exact absurd hwait hwait'
        | preempted r₀ hr hrun hrun' hwait' hreq hblocks hentries hpreempted =>
            exact .preempted r₀ hr hrun hrun' hwait' hreq hblocks hentries hpreempted
        | admitted _ _ _ _ _ hwait' => exact absurd hwait hwait'
      · have hsame : SameFor id' p (p.withConnector (p.scheduler.connector.setLoadSpec id
            (some ⟨k, hit, false, none, none⟩))) :=
          ⟨rfl, rfl, Iff.rfl, Iff.rfl, rfl, fun h => h, Function.update_of_ne hid _ _, fun h => h⟩
        exact (hp.fate id').of_sameFor hsame

/-- What admitting a waiting request does. -/
theorem admitWaiting_eq {found : Matched} {n : ℕ} {newBlocks : List ℕ}
    (h : p.admitWaiting id r found n newBlocks = .ok p') :
    ∃ kind, kindOfStatus r.status = .ok kind ∧
      p' = p.afterAdmit id r found ⟨id, kind, found.numLocalComputedTokens,
        found.numExternalComputedTokens, n,
        p.scheduler.reqToBlocks id ++ found.computedBlocks ++ newBlocks, []⟩ := by
  obtain ⟨c, hc, h⟩ := bind_eq_ok.1 h
  obtain ⟨kind, hkind, h⟩ := bind_eq_ok.1 h
  cases h
  rw [SchedulerConnector.updateStateAfterAlloc_eq hc]
  exact ⟨kind, hkind, rfl⟩

/-- A waiting request has not been touched in the pass, when none was preempted. -/
theorem PassInv.untouched_of_waiting (hp : PassInv s p) (hnone : p.preempted = [])
    (hwait : id ∈ p.scheduler.waiting) : p.scheduler.requests id = s.requests id ∧
      p.scheduler.reqToBlocks id = s.reqToBlocks id ∧
      (id ∈ p.scheduler.running ↔ id ∈ s.running) ∧ id ∈ s.waiting ∧ p.entriesOf id = [] := by
  cases hp.fate id with
  | untouched hreq hblocks hrun hwait₀ hentries => exact ⟨hreq, hblocks, hrun, hwait₀.1 hwait, hentries⟩
  | scheduled _ _ _ _ _ hwait' => exact absurd hwait hwait'
  | preempted _ _ _ _ _ _ _ _ hpreempted =>
      rw [hnone] at hpreempted
      cases hpreempted
  | admitted _ _ _ _ _ hwait' => exact absurd hwait hwait'

/-- A request with an entry has left the queue. -/
theorem PassInv.notMem_waiting (hp : PassInv s p) {x : ScheduledRequest} (hx : x ∈ p.scheduled) :
    x.reqId ∉ p.scheduler.waiting := by
  have hmem : x ∈ p.entriesOf x.reqId := List.mem_filter.2 ⟨hx, by simp⟩
  cases hp.fate x.reqId with
  | untouched _ _ _ _ hentries =>
      rw [hentries] at hmem
      cases hmem
  | scheduled _ _ _ _ _ hwait' => exact hwait'
  | preempted _ _ _ _ _ _ _ hentries =>
      rw [hentries] at hmem
      cases hmem
  | admitted _ _ _ _ _ hwait' => exact hwait'

/-- Admitting a waiting request, when none was preempted in the pass. -/
theorem admitWaiting_inv (hs : s.WellFormed) (hp : PassInv s p) (hnone : p.preempted = []) {found : Matched}
    {n : ℕ} {newBlocks : List ℕ} (hwait : id ∈ p.scheduler.waiting)
    (hr : p.scheduler.requests id = some r) (hn : 0 < n)
    (hfound : r.numComputedTokens = 0 → found.numComputedTokens =
      found.numLocalComputedTokens + found.numExternalComputedTokens)
    (hload : 0 < found.numExternalComputedTokens → ∃ hit, p.scheduler.connector.loadSpecs id =
      some ⟨found.numLocalComputedTokens, hit, false, none, none⟩ ∧
        found.numLocalComputedTokens + found.numExternalComputedTokens ≤ hit)
    (h : p.admitWaiting id r found n newBlocks = .ok p') : PassInv s p' := by
  obtain ⟨kind, hkind, rfl⟩ := admitWaiting_eq h
  obtain ⟨hreq₀, hblocks₀, hrun₀, hwait₀, hentries₀⟩ := hp.untouched_of_waiting hnone hwait
  have hnotrun : id ∉ p.scheduler.running := fun h => hs.disjoint id (hrun₀.1 h) hwait₀
  obtain ⟨r', hr', -, hzero, hblocks⟩ := hs.waiting_request id hwait₀
  have hrr : r = r' := Option.some.inj (hr.symm.trans (hreq₀.trans hr'))
  subst hrr
  refine ⟨?_, hp.waiting_nodup.erase id, hp.config, hp.finishedReqIds, ?_, ?_, fun id' => ?_⟩
  · refine List.nodup_append.2 ⟨hp.running_nodup, List.nodup_singleton id, ?_⟩
    rintro a ha b hb rfl
    exact hnotrun (List.mem_singleton.1 hb ▸ ha)
  · exact ⟨hp.connector.blockSize, hp.connector.kvRole, hp.connector.discardPartialChunks,
      hp.connector.skipLastNTokens, hp.connector.requestTrackers⟩
  · exact fun x hx => Finset.mem_insert_of_mem (hp.requestsInStep hx)
  · have hentries := entriesOf_of_append p (p.afterAdmit id r found _) ⟨id, kind,
      found.numLocalComputedTokens, found.numExternalComputedTokens, n,
      p.scheduler.reqToBlocks id ++ found.computedBlocks ++ newBlocks, []⟩ rfl id'
    by_cases hid : id' = id
    · subst hid
      rw [if_pos rfl, hentries₀, List.nil_append] at hentries
      refine .admitted r _ hr' hwait₀ (List.mem_append_right _ (List.mem_singleton.2 rfl))
        hp.waiting_nodup.not_mem_erase ?_ ?_ hentries hkind hn rfl (Finset.mem_insert_self ..) ?_
      · refine (Function.update_self ..).trans ?_
        rw [hfound hzero]
      · exact Function.update_self ..
      · intro hpos
        obtain ⟨hit, hspec, hle⟩ := hload hpos
        refine ⟨hit, (Function.update_self ..).trans ?_, hle⟩
        rw [hspec, Option.map_some]
        simp [Nat.ne_of_gt hpos]
    · refine (hp.fate id').of_sameFor ⟨Function.update_of_ne hid _ _, Function.update_of_ne hid _ _,
        ?_, List.mem_erase_of_ne hid, ?_, fun h => h, Function.update_of_ne hid _ _,
        fun h => Finset.mem_insert_of_mem h⟩
      · show id' ∈ p.scheduler.running ++ [id] ↔ id' ∈ p.scheduler.running
        simp [hid]
      · exact hentries.trans (if_neg (Ne.symm hid))

theorem waitMove_inv (hs : s.WellFormed) (hp : PassInv s p) (hnone : p.preempted = [])
    (h : WaitMove lookup p p') : PassInv s p' ∧ p'.preempted = [] := by
  cases h with
  | counters b k =>
      exact ⟨⟨hp.running_nodup, hp.waiting_nodup, hp.config, hp.finishedReqIds, hp.connector,
        hp.requestsInStep, fun id => (hp.fate id).of_sameFor (sameFor_withCounters id p b k)⟩, hnone⟩
  | tokens id r k n c hwait hr h => exact ⟨tokens_inv hp hwait h, hnone⟩
  | admitWaiting p' id r found n newBlocks hwait hr hn hfound hload h =>
      have hspec : 0 < found.numExternalComputedTokens → ∃ hit, p.scheduler.connector.loadSpecs id =
          some ⟨found.numLocalComputedTokens, hit, false, none, none⟩ ∧
            found.numLocalComputedTokens + found.numExternalComputedTokens ≤ hit := by
        intro hpos
        obtain ⟨hit, hspec, hle, -⟩ := hload hpos
        exact ⟨hit, hspec, hle⟩
      refine ⟨admitWaiting_inv hs hp hnone hwait hr hn hfound hspec h, ?_⟩
      obtain ⟨kind, -, rfl⟩ := admitWaiting_eq h
      exact hnone

end Pass

namespace Scheduler

variable {ops : KVCacheOps} {lookup : List ℤ → Except PyError ℕ} {s : Scheduler} {p : Pass}

theorem passInv_startPass (hs : s.WellFormed) : Pass.PassInv s s.startPass :=
  ⟨hs.running_nodup, hs.waiting_nodup, rfl, rfl, ⟨rfl, rfl, rfl, rfl, rfl⟩, fun _ h => h,
    fun _ => .untouched rfl rfl Iff.rfl Iff.rfl rfl⟩

/-- **The invariant rule of a pass**: what holds after the first loop, which schedules running requests
only and leaves the connector alone, and is kept by the moves of the second loop, which begins if no
request was preempted, holds at the end. -/
theorem schedulePass_rule {Q : Pass → Prop} (hs : s.WellFormed)
    (hpass : s.schedulePass ops lookup = .ok p)
    (hrun : ∀ p, Pass.PassInv s p → p.scheduler.connector = s.connector →
      (∀ x ∈ p.scheduled, x.kind = .running) → Q p)
    (hwait : ∀ p p', Pass.PassInv s p → p.preempted = [] → Q p → Pass.WaitMove lookup p p' → Q p') :
    Pass.PassInv s p ∧ Q p := by
  obtain ⟨p₁, hloop, h⟩ := bind_eq_ok.1 hpass
  have hmoves := Pass.runningLoop_moves hs.running_nodup (by simp [startPass]) hloop
  obtain ⟨hp₁, hconn, hkind⟩ : Pass.PassInv s p₁ ∧ p₁.scheduler.connector = s.connector ∧
      ∀ x ∈ p₁.scheduled, x.kind = .running := by
    clear hloop h hpass
    induction hmoves with
    | refl => exact ⟨passInv_startPass hs, rfl, by simp [startPass]⟩
    | tail _ hmove ih =>
        obtain ⟨hp, hconn, hkind⟩ := ih
        obtain ⟨hp', hkind'⟩ := Pass.runMove_inv hs hp hkind hmove
        refine ⟨hp', ?_, hkind'⟩
        rw [← hconn]
        cases hmove with
        | counters => rfl
        | schedule => rfl
        | preempt => rfl
  have hQ₁ := hrun p₁ hp₁ hconn hkind
  split at h
  · rename_i hcond
    suffices hall : Pass.PassInv s p ∧ p.preempted = [] ∧ Q p from ⟨hall.1, hall.2.2⟩
    have hmoves' := Pass.waitingLoop_moves h
    clear hpass h
    induction hmoves' with
    | refl => exact ⟨hp₁, hcond.1, hQ₁⟩
    | tail _ hmove ih =>
        obtain ⟨hp, hnone, hQ⟩ := ih
        obtain ⟨hp', hnone'⟩ := Pass.waitMove_inv hs hp hnone hmove
        exact ⟨hp', hnone', hwait _ _ hp hnone hQ hmove⟩
  · cases h
    exact ⟨hp₁, hQ₁⟩

/-- **Every request has one of the four fates** in a pass. -/
theorem schedulePass_fate (hs : s.WellFormed) (hpass : s.schedulePass ops lookup = .ok p) :
    Pass.PassInv s p := by
  refine (schedulePass_rule (Q := fun _ => True) hs hpass ?_ ?_).1
  · exact fun _ _ _ _ => trivial
  · exact fun _ _ _ _ _ _ => trivial

/-- Where a load spec comes from: it was there before the pass, up to the permission to load, or it holds
what a lookup of the prompt has returned. -/
def LoadSpecFrom (s : Scheduler) (lookup : List ℤ → Except PyError ℕ) (id : String) (l : LoadSpec) :
    Prop :=
  (∃ l₀, s.connector.loadSpecs id = some l₀ ∧ l.externalCachedTokens = l₀.externalCachedTokens) ∨
    ∃ r tokenIds, s.requests id = some r ∧ s.connector.tokensToLookup r = .ok tokenIds ∧
      lookup tokenIds = .ok l.externalCachedTokens

theorem waitMove_loadSpecs {p p' : Pass} (hp : Pass.PassInv s p) (hnone : p.preempted = [])
    (hspecs : ∀ id l, p.scheduler.connector.loadSpecs id = some l → LoadSpecFrom s lookup id l)
    (hmove : Pass.WaitMove lookup p p') :
    ∀ id l, p'.scheduler.connector.loadSpecs id = some l → LoadSpecFrom s lookup id l := by
  cases hmove with
  | counters b k => exact hspecs
  | tokens id r k n c hwait hr h =>
      rcases SchedulerConnector.getNumNewMatchedTokens_cases h with
        ⟨-, rfl⟩ | ⟨tokenIds, hit, htokens, hhit, -, -, rfl⟩
      · exact hspecs
      · intro id' l hl
        change Function.update p.scheduler.connector.loadSpecs id _ id' = some l at hl
        by_cases hid : id' = id
        · subst hid
          rw [Function.update_self] at hl
          cases hl
          have hreq := (hp.untouched_of_waiting hnone hwait).1
          refine Or.inr ⟨r, tokenIds, hreq.symm.trans hr, ?_, hhit⟩
          rw [← htokens, SchedulerConnector.tokensToLookup, SchedulerConnector.tokensToLookup,
            hp.connector.skipLastNTokens]
        · rw [Function.update_of_ne hid] at hl
          exact hspecs id' l hl
  | admitWaiting p' id r found n newBlocks hwait hr hn hfound hload h =>
      obtain ⟨kind, -, rfl⟩ := Pass.admitWaiting_eq h
      intro id' l hl
      change Function.update p.scheduler.connector.loadSpecs id _ id' = some l at hl
      by_cases hid : id' = id
      · subst hid
        rw [Function.update_self] at hl
        obtain ⟨l₀, hl₀, rfl⟩ := Option.map_eq_some_iff.1 hl
        exact hspecs id' l₀ hl₀
      · rw [Function.update_of_ne hid] at hl
        exact hspecs id' l hl

/-- **Where the load specs of a pass come from.** -/
theorem schedulePass_loadSpecs (hs : s.WellFormed) (hpass : s.schedulePass ops lookup = .ok p) :
    ∀ id l, p.scheduler.connector.loadSpecs id = some l → LoadSpecFrom s lookup id l := by
  refine (schedulePass_rule (Q := fun p => ∀ id l, p.scheduler.connector.loadSpecs id = some l →
    LoadSpecFrom s lookup id l) hs hpass ?_ ?_).2
  · intro p _ hconn _ id l hl
    rw [hconn] at hl
    exact Or.inl ⟨l, hl, rfl⟩
  · exact fun p p' hp hnone hspecs hmove => waitMove_loadSpecs hp hnone hspecs hmove

/-- A load spec that fits an entry of the pass: the local hit is that of the entry, and the external hit
is what a lookup of the prompt has returned. -/
structure LoadableFor (s : Scheduler) (lookup : List ℤ → Except PyError ℕ) (x : ScheduledRequest)
    (l : LoadSpec) : Prop where
  vllmCachedTokens : l.vllmCachedTokens = x.numLocalComputedTokens
  le_external : x.numLocalComputedTokens + x.numExternalComputedTokens ≤ l.externalCachedTokens
  lookedUp : ∃ r tokenIds, s.requests x.reqId = some r ∧ s.connector.tokensToLookup r = .ok tokenIds ∧
    lookup tokenIds = .ok l.externalCachedTokens

theorem waitMove_loadable {p p' : Pass} (hp : Pass.PassInv s p) (hnone : p.preempted = [])
    (hspecs : ∀ x ∈ p.scheduled, x.kind ≠ .running → ∀ l,
      p.scheduler.connector.loadSpecs x.reqId = some l → l.canLoad = true → LoadableFor s lookup x l)
    (hmove : Pass.WaitMove lookup p p') :
    ∀ x ∈ p'.scheduled, x.kind ≠ .running → ∀ l,
      p'.scheduler.connector.loadSpecs x.reqId = some l → l.canLoad = true →
        LoadableFor s lookup x l := by
  cases hmove with
  | counters b k => exact hspecs
  | tokens id r k n c hwait hr h =>
      rcases SchedulerConnector.getNumNewMatchedTokens_cases h with ⟨-, rfl⟩ | ⟨_, hit, -, -, -, -, rfl⟩
      · exact hspecs
      · intro x hx hkind l hl
        -- the load spec of an entry does not change any more
        have hne : x.reqId ≠ id := by
          rintro rfl
          exact hp.notMem_waiting hx hwait
        change Function.update p.scheduler.connector.loadSpecs id _ x.reqId = some l at hl
        rw [Function.update_of_ne hne] at hl
        exact hspecs x hx hkind l hl
  | admitWaiting p' id r found n newBlocks hwait hr hn hfound hload h =>
      obtain ⟨kind, -, rfl⟩ := Pass.admitWaiting_eq h
      intro x hx hkind l hl hcan
      change Function.update p.scheduler.connector.loadSpecs id _ x.reqId = some l at hl
      rcases List.mem_append.1 hx with hx' | hx'
      · have hne : x.reqId ≠ id := by
          rintro rfl
          exact hp.notMem_waiting hx' hwait
        rw [Function.update_of_ne hne] at hl
        exact hspecs x hx' hkind l hl hcan
      · cases List.mem_singleton.1 hx'
        rw [Function.update_self] at hl
        obtain ⟨l₀, hl₀, rfl⟩ := Option.map_eq_some_iff.1 hl
        -- it may be loaded because something was found
        have hpos : 0 < found.numExternalComputedTokens := Nat.pos_of_ne_zero (by simpa using hcan)
        obtain ⟨hit, hspec, hle, tokenIds, htokens, hhit⟩ := hload hpos
        cases hl₀.symm.trans hspec
        have hreq := (hp.untouched_of_waiting hnone hwait).1
        refine ⟨rfl, hle, r, tokenIds, hreq.symm.trans hr, ?_, hhit⟩
        rw [← htokens, SchedulerConnector.tokensToLookup, SchedulerConnector.tokensToLookup,
          hp.connector.skipLastNTokens]

/-- **What may be loaded for a request that was admitted in a pass.** -/
theorem schedulePass_loadable (hs : s.WellFormed) (hpass : s.schedulePass ops lookup = .ok p) :
    ∀ x ∈ p.scheduled, x.kind ≠ .running → ∀ l,
      p.scheduler.connector.loadSpecs x.reqId = some l → l.canLoad = true → LoadableFor s lookup x l := by
  refine (schedulePass_rule (Q := fun p => ∀ x ∈ p.scheduled, x.kind ≠ .running → ∀ l,
    p.scheduler.connector.loadSpecs x.reqId = some l → l.canLoad = true → LoadableFor s lookup x l)
    hs hpass ?_ ?_).2
  · exact fun p _ _ hkind x hx hne => absurd (hkind x hx) hne
  · exact fun p p' hp hnone hspecs hmove => waitMove_loadable hp hnone hspecs hmove

end Scheduler

end InfiniKV
