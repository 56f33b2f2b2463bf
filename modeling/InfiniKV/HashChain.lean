/-
**Hash chains.**

A list of blocks is hashed from left to right: the message of a block is framed by the digest of
the block before it, and the first block is framed by a fixed initial value.  This module proves
what a digest of the chain determines.  If the hash function does not collide on the messages of two
chains, then two chains that end in the same digest are made of the same messages — provided the
framing lets the preceding digest be read off a message, and no first message of one chain is a
later message of the other.

Main definitions:

* `HashChain.messages` — the messages hashed along a list of blocks;
* `HashChain.digest` — the digest a list of blocks ends in;
* `HashChain.CollisionFree` — the hash function is injective between two lists of messages.

Main results:

* `HashChain.messages_append`, `HashChain.digest_append` — how a chain is extended;
* `HashChain.messages_eq_of_digest_eq` — **a digest determines the messages of its chain**, and
  `HashChain.messages_eq_of_digest_eq_of_length_eq`, among the chains of one length;
* `HashChain.eq_of_messages_eq` — the messages determine the blocks, when the framing of a block
  under a given digest does.
-/

import Mathlib.Data.List.Induction

set_option relaxedAutoImplicit false
set_option autoImplicit false

namespace HashChain

variable {χ δ μ : Type*} (hash : μ → δ) (frame : δ → χ → μ)

/-- The messages hashed along a list of blocks, when the digest before the first block is `d`. -/
def messages : δ → List χ → List μ
  | _, [] => []
  | d, c :: cs => frame d c :: messages (hash (frame d c)) cs

/-- The digest a list of blocks ends in, when the digest before the first block is `d`. -/
def digest (d : δ) (cs : List χ) : δ := cs.foldl (fun d c => hash (frame d c)) d

@[simp] theorem messages_nil (d : δ) : messages hash frame d [] = [] := rfl

@[simp] theorem digest_nil (d : δ) : digest hash frame d [] = d := rfl

theorem digest_cons (d : δ) (c : χ) (cs : List χ) :
    digest hash frame d (c :: cs) = digest hash frame (hash (frame d c)) cs := rfl

@[simp] theorem length_messages (d : δ) (cs : List χ) :
    (messages hash frame d cs).length = cs.length := by
  induction cs generalizing d with
  | nil => rfl
  | cons c cs ih => simp [messages, ih]

theorem digest_append (d : δ) (cs cs' : List χ) :
    digest hash frame d (cs ++ cs') = digest hash frame (digest hash frame d cs) cs' := by
  simp [digest, List.foldl_append]

theorem messages_append (d : δ) (cs cs' : List χ) :
    messages hash frame d (cs ++ cs') =
      messages hash frame d cs ++ messages hash frame (digest hash frame d cs) cs' := by
  induction cs generalizing d with
  | nil => rfl
  | cons c cs ih => simp [messages, ih, digest_cons]

theorem messages_take (d : δ) (cs : List χ) (n : ℕ) :
    messages hash frame d (cs.take n) = (messages hash frame d cs).take n := by
  induction cs generalizing d n with
  | nil => simp
  | cons c cs ih =>
      cases n with
      | zero => rfl
      | succ n => simp [messages, ih]

/-- The messages of a chain that is extended by one block. -/
theorem messages_concat (d : δ) (cs : List χ) (c : χ) :
    messages hash frame d (cs ++ [c]) =
      messages hash frame d cs ++ [frame (digest hash frame d cs) c] := by
  rw [messages_append]
  rfl

/-- The digest of a chain that is extended by one block. -/
theorem digest_concat (d : δ) (cs : List χ) (c : χ) :
    digest hash frame d (cs ++ [c]) = hash (frame (digest hash frame d cs) c) := by
  rw [digest_append]
  rfl

/-- The digest of a chain is that of its messages. -/
theorem digest_eq_of_messages_eq {d : δ} {cs cs' : List χ}
    (h : messages hash frame d cs = messages hash frame d cs') :
    digest hash frame d cs = digest hash frame d cs' := by
  rcases List.eq_nil_or_concat cs with rfl | ⟨xs, a, rfl⟩
  · have hnil : cs' = [] := by simpa using (congrArg List.length h).symm
    rw [hnil]
  · rcases List.eq_nil_or_concat cs' with rfl | ⟨ys, b, rfl⟩
    · simpa using congrArg List.length h
    · simp only [List.concat_eq_append, messages_concat, digest_concat] at h ⊢
      obtain ⟨-, h⟩ := List.append_inj' h rfl
      rw [List.cons.inj h |>.1]

/-- The hash function does not collide between the messages of one list and those of another. -/
def CollisionFree (ms ns : List μ) : Prop :=
  ∀ m ∈ ms, ∀ n ∈ ns, hash m = hash n → m = n

variable {hash}

theorem CollisionFree.mono {ms ns ms' ns' : List μ} (h : CollisionFree hash ms ns)
    (hm : ms' ⊆ ms) (hn : ns' ⊆ ns) : CollisionFree hash ms' ns' :=
  fun m hm' n hn' => h m (hm hm') n (hn hn')

variable {frame}

/-- The messages of a chain determine its blocks. -/
theorem eq_of_messages_eq : ∀ {d : δ} {cs cs' : List χ},
    (∀ a ∈ cs, ∀ b ∈ cs', ∀ e, frame e a = frame e b → a = b) →
    messages hash frame d cs = messages hash frame d cs' → cs = cs'
  | _, [], [], _, _ => rfl
  | _, [], _ :: _, _, h => by simp [messages] at h
  | _, _ :: _, [], _, h => by simp [messages] at h
  | d, a :: cs, b :: cs', hinj, h => by
      simp only [messages, List.cons.injEq] at h
      obtain ⟨hab, htail⟩ := h
      rw [← hab] at htail
      rw [hinj a (by simp) b (by simp) d hab, eq_of_messages_eq
        (fun x hx y hy => hinj x (List.mem_cons_of_mem _ hx) y (List.mem_cons_of_mem _ hy)) htail]

/-- **A digest determines the messages of its chain.**  The framing must let the digest of the
preceding block be read off a message, and the first message of either chain must not be a later
message of the other one. -/
theorem messages_eq_of_digest_eq {d : δ}
    (hread : ∀ (m n : μ) (a b : χ), frame (hash m) a = frame (hash n) b → hash m = hash n) :
    ∀ (cs cs' : List χ), cs ≠ [] → cs' ≠ [] →
      (∀ a ∈ cs, ∀ b ∈ cs', ∀ m, frame d a ≠ frame (hash m) b ∧ frame (hash m) a ≠ frame d b) →
      CollisionFree hash (messages hash frame d cs) (messages hash frame d cs') →
      digest hash frame d cs = digest hash frame d cs' →
      messages hash frame d cs = messages hash frame d cs' := by
  intro cs
  -- both chains are peeled from their last block
  induction cs using List.reverseRecOn with
  | nil => intro cs' h; exact absurd rfl h
  | append_singleton xs a ih =>
      intro cs' _ hne' hsep hfree hd
      obtain ⟨ys, b, rfl⟩ : ∃ ys b, cs' = ys ++ [b] := by
        rcases List.eq_nil_or_concat cs' with h | ⟨ys, b, h⟩
        · exact absurd h hne'
        · exact ⟨ys, b, by simpa using h⟩
      rw [messages_concat, messages_concat] at hfree ⊢
      rw [digest_concat, digest_concat] at hd
      have hlast := hfree _ (by simp) _ (by simp) hd
      rcases List.eq_nil_or_concat xs with rfl | ⟨xs', a', rfl⟩
      · rcases List.eq_nil_or_concat ys with rfl | ⟨ys', b', rfl⟩
        · rw [hlast]
        · simp only [List.concat_eq_append, digest_concat, digest_nil] at hlast
          exact absurd hlast (hsep a (by simp) b (by simp) _).1
      · rcases List.eq_nil_or_concat ys with rfl | ⟨ys', b', rfl⟩
        · simp only [List.concat_eq_append, digest_concat, digest_nil] at hlast
          exact absurd hlast (hsep a (by simp) b (by simp) _).2
        · simp only [List.concat_eq_append] at *
          have hprev : digest hash frame d (xs' ++ [a']) = digest hash frame d (ys' ++ [b']) := by
            rw [digest_concat, digest_concat] at hlast ⊢
            exact hread _ _ _ _ hlast
          rw [ih (ys' ++ [b']) (by simp) (by simp)
            (fun x hx y hy => hsep x (List.mem_append_left _ hx) y (List.mem_append_left _ hy))
            (hfree.mono (List.subset_append_left _ _) (List.subset_append_left _ _)) hprev, hlast]

/-- A digest determines the messages of its chain among the chains of one length, where no first message has to be
told from a later one. -/
theorem messages_eq_of_digest_eq_of_length_eq {d : δ}
    (hread : ∀ (m n : μ) (a b : χ), frame (hash m) a = frame (hash n) b → hash m = hash n) :
    ∀ (cs cs' : List χ), cs.length = cs'.length →
      CollisionFree hash (messages hash frame d cs) (messages hash frame d cs') →
      digest hash frame d cs = digest hash frame d cs' →
      messages hash frame d cs = messages hash frame d cs' := by
  intro cs
  induction cs using List.reverseRecOn with
  | nil =>
      intro cs' hlength _ _
      rw [List.eq_nil_of_length_eq_zero hlength.symm]
  | append_singleton xs a ih =>
      intro cs' hlength hfree hd
      obtain ⟨ys, b, rfl⟩ : ∃ ys b, cs' = ys ++ [b] := by
        rcases List.eq_nil_or_concat cs' with rfl | ⟨ys, b, h⟩
        · simp at hlength
        · exact ⟨ys, b, by simpa using h⟩
      have hlength' : xs.length = ys.length := by simpa using hlength
      rw [messages_concat, messages_concat] at hfree ⊢
      rw [digest_concat, digest_concat] at hd
      have hlast := hfree _ (by simp) _ (by simp) hd
      -- the digests before the last blocks are read off the last messages
      have hprev : digest hash frame d xs = digest hash frame d ys := by
        rcases List.eq_nil_or_concat xs with rfl | ⟨xs', a', rfl⟩
        · rw [List.eq_nil_of_length_eq_zero hlength'.symm]
        · rcases List.eq_nil_or_concat ys with rfl | ⟨ys', b', rfl⟩
          · simp at hlength'
          · simp only [List.concat_eq_append, digest_concat] at hlast ⊢
            exact hread _ _ _ _ hlast
      rw [ih ys hlength' (hfree.mono (List.subset_append_left _ _) (List.subset_append_left _ _)) hprev, hlast]

end HashChain
