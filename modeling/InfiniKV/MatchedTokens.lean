/-
**Matched tokens.**

Before a waiting request is scheduled, the connector reports how many tokens beyond the local hit are
stored outside.  The scheduler counts them as computed and asserts that tokens to compute are left; after
the allocation the connector asserts that it is told the number it reported.  What is looked up is at
most the prompt, and the prompt is at most the request, so one token is left in any case: when
everything is stored, the connector takes the last token back.

Main results:

* `InfiniKV.Worker.lookup_le` — a lookup finds no more than it was asked for;
* `InfiniKV.SchedulerConnector.matched_lt` — a token is left to compute;
* `InfiniKV.SchedulerConnector.updateStateAfterAlloc_matched` — the connector accepts what it reported;
* `InfiniKV.matched_tokens_safe` — **neither assertion fails**.
-/

import InfiniKV.Pairing
import InfiniKV.SameKeys
import InfiniKV.System

set_option relaxedAutoImplicit false
set_option autoImplicit false

namespace InfiniKV

variable {w : Worker} {c c' : SchedulerConnector} {requestId : String} {request : Request} {k n : ℕ}

/-! ### What is looked up -/

/-- A lookup finds no more tokens than it was asked for. -/
theorem Worker.lookup_le {X : List ℤ} (h : w.lookup X = .ok n) : n ≤ X.length := by
  rw [Worker.lookup, InfiniKVEngine.lookup_tensor] at h
  cases h
  exact min_le_right _ _

namespace SchedulerConnector

/-- No more tokens are looked up than the request has, however many it has generated since. -/
theorem length_tokensToLookup_le {X : List ℤ} (h : c.tokensToLookup request = .ok X) :
    X.length ≤ request.numTokens := by
  obtain ⟨Z, m, hZ, -, rfl⟩ := tokensToLookup_eq_ok h
  have hprompt : Z.length = request.promptTokenIds.length := length_applyMmHashesToTokenIds hZ
  simp only [List.length_take, Request.numTokens, Request.allTokenIds, List.length_append, hprompt]
  omega

/-- What is counted as computed ends where the stored tokens end, and one token earlier when the whole
request is stored. -/
theorem matched_end (hn : 0 < n)
    (h : c.getNumNewMatchedTokens w.lookup requestId request k = .ok (n, c')) :
    ∃ hit ≤ request.numTokens, k + n = (if hit = request.numTokens then hit - 1 else hit) ∧
      c' = c.setLoadSpec requestId (some ⟨k, hit, false, none, none⟩) := by
  rcases getNumNewMatchedTokens_cases h with ⟨rfl, -⟩ | ⟨X, hit, hX, hhit, -, hend, hc⟩
  · exact absurd hn (lt_irrefl 0)
  · exact ⟨hit, (Worker.lookup_le hhit).trans (length_tokensToLookup_le hX), hend, hc⟩

/-- **A token is left to compute** behind the local hit and the tokens that are reported. -/
theorem matched_lt (hk : k < request.numTokens)
    (h : c.getNumNewMatchedTokens w.lookup requestId request k = .ok (n, c')) :
    k + n < request.numTokens := by
  rcases Nat.eq_zero_or_pos n with rfl | hn
  · exact hk
  · obtain ⟨hit, hfound, hend, -⟩ := matched_end hn h
    rw [hend]
    split_ifs
    · omega
    · omega

/-- **The connector accepts what it reported**, whatever load spec an earlier attempt has left: a load spec
may be used afterwards exactly if there is something to load. -/
theorem updateStateAfterAlloc_matched
    (h : c.getNumNewMatchedTokens w.lookup requestId request k = .ok (n, c')) :
    ∃ c'', c'.updateStateAfterAlloc requestId request n = .ok c'' ∧
      ((∃ s, c''.loadSpecs requestId = some s ∧ s.canLoad = true) ↔ 0 < n) := by
  rcases Nat.eq_zero_or_pos n with rfl | hn
  · cases hspec : c'.loadSpecs requestId with
    | none =>
        refine ⟨{ c' with requestsInStep := insert requestId c'.requestsInStep }, ?_, ?_⟩
        · simp [updateStateAfterAlloc, hspec]
        · simp [hspec]
    | some s =>
        refine ⟨({ c' with requestsInStep := insert requestId c'.requestsInStep } :
          SchedulerConnector).setLoadSpec requestId (some { s with canLoad := false }), ?_, ?_⟩
        · simp [updateStateAfterAlloc, hspec]
        · simp
  · obtain ⟨hit, hfound, hend, rfl⟩ := matched_end hn h
    have hspec : (c.setLoadSpec requestId (some ⟨k, hit, false, none, none⟩)).loadSpecs requestId =
        some ⟨k, hit, false, none, none⟩ := by
      simp
    -- unless everything is stored, the number is the difference of the two hits
    have hmatch : ¬ (hit ≠ request.numTokens ∧ ¬ (n : ℤ) = hit - k) := by
      rintro ⟨hne, hdiff⟩
      rw [if_neg hne] at hend
      omega
    refine ⟨({ c.setLoadSpec requestId (some ⟨k, hit, false, none, none⟩) with
      requestsInStep := insert requestId c.requestsInStep } : SchedulerConnector).setLoadSpec requestId
        (some ⟨k, hit, true, none, none⟩), ?_, ?_⟩
    · simp only [updateStateAfterAlloc, hspec]
      rw [if_neg hn.ne', if_neg hmatch]
      rfl
    · simp [hn]

end SchedulerConnector

/-! ### The two assertions -/

/-- **Neither assertion fails.**  For any content of the store, any state of the connector and any number
of tokens to skip, a token is left to compute behind the tokens that are reported for a request with less
than all of its tokens cached locally; so whenever there is a budget the scheduler finds tokens to compute,
before it looks at encoder inputs; and the connector accepts the number it has reported, and lets the load
spec be used exactly if that number is positive. -/
theorem matched_tokens_safe (hk : k < request.numTokens)
    (h : c.getNumNewMatchedTokens w.lookup requestId request k = .ok (n, c')) :
    k + n < request.numTokens ∧
      (∀ p : Pass, 0 < p.tokenBudget →
        0 < min (p.numNewTokensOfWaiting request (k + n)) p.tokenBudget) ∧
      ∃ c'', c'.updateStateAfterAlloc requestId request n = .ok c'' ∧
        ((∃ s, c''.loadSpecs requestId = some s ∧ s.canLoad = true) ↔ 0 < n) := by
  have hlt := SchedulerConnector.matched_lt hk h
  refine ⟨hlt, ?_, SchedulerConnector.updateStateAfterAlloc_matched h⟩
  intro p hbudget
  refine lt_min ?_ hbudget
  simp only [Pass.numNewTokensOfWaiting]
  split_ifs with hthreshold
  · exact hthreshold.1
  · omega

/-- The theorem at a request that is stored as a whole: three of its four tokens are reported, although a
load spec of an earlier attempt is left. -/
theorem matched_tokens_safe_full_hit :
    let c : SchedulerConnector :=
      { SchedulerConnector.init 2 .both true 0 with loadSpecs := fun _ => some ⟨0, 2, true, none, none⟩ }
    let request : Request := ⟨[1, 2, 3, 4], [], [], [], .waiting, 0, 0, false, 0, 0⟩
    ∃ c' c'', c.getNumNewMatchedTokens Worker.storedWorker.lookup "r" request 0 = .ok (3, c') ∧
      c'.updateStateAfterAlloc "r" request 3 = .ok c'' ∧
        ∃ s, c''.loadSpecs "r" = some s ∧ s.canLoad = true := by
  intro c request
  have heval : (c.getNumNewMatchedTokens Worker.storedWorker.lookup "r" request 0).map Prod.fst =
      .ok 3 := by decide +kernel
  obtain ⟨⟨n, c'⟩, h, rfl : n = 3⟩ := map_eq_ok.1 heval
  obtain ⟨-, -, c'', hupdate, hload⟩ := matched_tokens_safe (by decide) h
  exact ⟨c', c'', h, hupdate, hload.2 (by decide)⟩

end InfiniKV
