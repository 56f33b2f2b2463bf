/-
**The map of registered tensors.**

Tensors are registered with a controller, alone or in lists, and unregistered again; those that are registered
at one time do not overlap.  The entries that are found for an address should be those that were built for the
granule which starts there, by the registration that its tensor has now; and nothing should be found for any
other address.

An unregistered tensor leaves its entries in the memory mapper, and so does a registration that fails.  When
their address is registered again, the new entries are chained behind those, and not found.

Main definitions:

* `InfiniKV.GeminiFS.RegOp`, `RegRun.step` — the operations, and which registration each tensor has after them;
* `InfiniKV.GeminiFS.RegRun.MapRight` — what should be found;
* `InfiniKV.GeminiFS.RegRun.NonOverlapping` — no two tensors overlap;
* `InfiniKV.GeminiFS.RegOp.planned` — the registrations that an operation is to add;
* `InfiniKV.GeminiFS.RegRun.Unspoilt` — what an operation finds in the memory mapper does not spoil its own
  entries.

Main results:

* `InfiniKV.GeminiFS.RegOp.created_eq_planned` — what is planned is added;
* `InfiniKV.GeminiFS.RegRun.mapRight_iff` — **when a registration leaves the map right**;
* `InfiniKV.GeminiFS.RegRun.rightAfter_along_iff` — **when the map is right along a run**.
-/

import InfiniKV.Runs
import InfiniKV.TensorPlan

set_option relaxedAutoImplicit false
set_option autoImplicit false

namespace InfiniKV
namespace GeminiFS

/-! ### Places of tensors -/

/-- Two tensors do not overlap, and do not start at one address, as an empty tensor could. -/
def Tensor.Apart (t t' : Tensor) : Prop :=
  (t.dataPtr + t.nbytes ≤ t'.dataPtr ∨ t'.dataPtr + t'.nbytes ≤ t.dataPtr) ∧ t.dataPtr ≠ t'.dataPtr

/-- A granule starts where its tensor does, or within it. -/
theorem Tensor.granuleStarts_bounds {t : Tensor} {granularity ptr : ℕ}
    (h : ptr ∈ t.granuleStarts granularity) :
    t.dataPtr ≤ ptr ∧ (ptr = t.dataPtr ∨ ptr < t.dataPtr + t.nbytes) := by
  rw [Tensor.granuleStarts] at h
  split_ifs at h with hpos
  · obtain ⟨i, hi, rfl⟩ := List.mem_map.mp h
    have hlt := (Tiling.lt_ceilDiv_iff hpos).mp (List.mem_range.mp hi)
    omega
  · rw [List.mem_singleton.mp h]
    exact ⟨le_rfl, .inl rfl⟩

theorem Tensor.Apart.not_mem {t t' : Tensor} (h : t.Apart t') {granularity granularity' ptr : ℕ}
    (hptr : ptr ∈ t.granuleStarts granularity) : ptr ∉ t'.granuleStarts granularity' := by
  intro hptr'
  have hbounds := Tensor.granuleStarts_bounds hptr
  have hbounds' := Tensor.granuleStarts_bounds hptr'
  obtain ⟨hdisjoint, hne⟩ := h
  omega

namespace Registration

/-- Where the granules of the tensor start. -/
def starts (r : Registration) : List ℕ := r.tensor.granuleStarts r.granularity

/-- The number of granules is rounded up without an overflow. -/
def NoOverflow (r : Registration) : Prop :=
  r.granularity = 0 ∨ r.tensor.nbytes + r.granularity ≤ 2 ^ 64

variable {r : Registration}

theorem granulePtrs_eq (h : r.NoOverflow) : r.granulePtrs = r.starts := by
  rw [granulePtrs, starts, Tensor.granuleStarts]
  split_ifs with hpos
  · have hfits : r.tensor.nbytes + r.granularity - 1 < 2 ^ 64 := by
      rcases h with hzero | hle
      · omega
      · omega
    rw [Nat.mod_eq_of_lt hfits, Nat.ceilDiv_eq_add_pred_div]
  · rfl

/-- The context is entered for no other address. -/
theorem granulePtrs_subset (r : Registration) : ∀ ptr ∈ r.granulePtrs, ptr ∈ r.starts := by
  intro ptr hptr
  rw [granulePtrs] at hptr
  rw [starts, Tensor.granuleStarts]
  split_ifs at hptr ⊢ with hpos
  · obtain ⟨i, hi, rfl⟩ := List.mem_map.mp hptr
    refine List.mem_map.mpr ⟨i, ?_, rfl⟩
    rw [List.mem_range] at hi ⊢
    rw [Nat.ceilDiv_eq_add_pred_div]
    exact hi.trans_le (Nat.div_le_div_right (Nat.mod_le _ _))
  · exact hptr

/-- With an overflow, the last granule gets no context. -/
theorem exists_not_mem_granulePtrs (h : ¬r.NoOverflow) (hgranularity : r.granularity < 2 ^ 64) :
    ∃ ptr ∈ r.starts, ptr ∉ r.granulePtrs := by
  rw [NoOverflow, not_or, not_le] at h
  obtain ⟨hne, hlarge⟩ := h
  have hpos : 0 < r.granularity := Nat.pos_of_ne_zero hne
  -- the sum loses more than a granule
  have hmod : (r.tensor.nbytes + r.granularity - 1) % 2 ^ 64 + r.granularity ≤
      r.tensor.nbytes + r.granularity - 1 := by
    have hsplit := Nat.div_add_mod (r.tensor.nbytes + r.granularity - 1) (2 ^ 64)
    have hquot : 0 < (r.tensor.nbytes + r.granularity - 1) / 2 ^ 64 :=
      Nat.div_pos (by omega) (Nat.two_pow_pos 64)
    have hmul := Nat.le_mul_of_pos_right (2 ^ 64) hquot
    omega
  have hless : (r.tensor.nbytes + r.granularity - 1) % 2 ^ 64 / r.granularity <
      r.tensor.nbytes ⌈/⌉ r.granularity := by
    have hdiv := @Nat.div_le_div_right _ _ r.granularity hmod
    rw [Nat.add_div_right _ hpos] at hdiv
    rw [Nat.ceilDiv_eq_add_pred_div]
    exact hdiv
  refine ⟨r.tensor.dataPtr +
    (r.tensor.nbytes + r.granularity - 1) % 2 ^ 64 / r.granularity * r.granularity, ?_, ?_⟩
  · rw [starts, Tensor.granuleStarts, if_pos hpos]
    exact List.mem_map.mpr ⟨_, List.mem_range.mpr hless, rfl⟩
  · rw [granulePtrs, if_pos hpos]
    intro hmem
    obtain ⟨i, hi, heq⟩ := List.mem_map.mp hmem
    rw [List.mem_range] at hi
    have hsame := Nat.eq_of_mul_eq_mul_right hpos (Nat.add_left_cancel heq)
    omega

end Registration

/-! ### Runs -/

/-- An operation on the memory of a controller. -/
inductive RegOp where
  | registerTensorMemory (tensor : Tensor) (granularity : UInt64) (supply : DmaSupply)
  | registerTesnsorList (tensorList : List Tensor) (granularity : UInt64) (supply : DmaSupply)
  | unregisterTensorMemory (tensorPtr : ℕ)

namespace RegOp

/-- The tensors that are to be registered. -/
def tensors : RegOp → List Tensor
  | .registerTensorMemory tensor _ _ => [tensor]
  | .registerTesnsorList tensorList _ _ => tensorList
  | .unregisterTensorMemory _ => []

/-- Apply an operation to a controller.  `none` stands for the read from an empty vector. -/
def apply (gpu : GPUMemory) : RegOp → Option RegisterResult
  | .registerTensorMemory tensor granularity supply =>
      some (gpu.registerTensorMemory tensor granularity supply)
  | .registerTesnsorList tensorList granularity supply =>
      gpu.registerTesnsorList tensorList granularity supply
  | .unregisterTensorMemory tensorPtr =>
      some ⟨(gpu.unregisterTensorMemory tensorPtr).1, [], (gpu.unregisterTensorMemory tensorPtr).2⟩

/-- The registrations that an operation adds. -/
def created (gpu : GPUMemory) (op : RegOp) : List Registration :=
  match op.apply gpu with
  | none => []
  | some result => result.created

/-- The registrations that an operation is to add, from its arguments, what the device gives, and which addresses
have a context before it. -/
def planned (gpu : GPUMemory) : RegOp → List Registration
  | .registerTensorMemory tensor granularity supply => gpu.plannedTensor tensor granularity supply
  | .registerTesnsorList tensorList granularity supply => gpu.plannedList tensorList granularity supply
  | .unregisterTensorMemory _ => []

/-- **What is planned is added.** -/
theorem created_eq_planned (gpu : GPUMemory) (op : RegOp) : op.created gpu = op.planned gpu := by
  cases op with
  | registerTensorMemory tensor granularity supply => exact gpu.created_registerTensorMemory tensor granularity supply
  | registerTesnsorList tensorList granularity supply =>
      rw [created, apply]
      cases hregister : gpu.registerTesnsorList tensorList granularity supply with
      | none => exact (GPUMemory.plannedList_of_none hregister).symm
      | some result => exact GPUMemory.created_registerTesnsorList hregister
  | unregisterTensorMemory tensorPtr => rfl

/-- The tensors of a list that passes the checks are not all registered already. -/
def HasUnregistered (gpu : GPUMemory) : RegOp → Prop
  | .registerTesnsorList tensorList granularity _ =>
      tensorList.all Tensor.validate = true →
        ¬(0 < granularity.toNat ∧ granularity.toNat % 4096 ≠ 0) →
          ∃ tensor ∈ tensorList, gpu.dmaContexts tensor.dataPtr = none
  | _ => True

end RegOp

/-- The registration that each tensor has, if it is registered. -/
def Registered : Type := Tensor → Option Registration

namespace Registered

/-- Enter the registration of a tensor. -/
def put (registered : Registered) (r : Registration) : Registered :=
  fun tensor => if tensor = r.tensor then some r else registered tensor

/-- Enter registrations.  A later one for the same tensor replaces an earlier one. -/
def enter (registered : Registered) (rs : List Registration) : Registered := rs.foldl put registered

/-- Nothing is registered. -/
def none : Registered := fun _ => Option.none

/-- Forget the tensor that has a granule at the address which is unregistered. -/
def forget (registered : Registered) : RegOp → Registered
  | .unregisterTensorMemory tensorPtr => fun tensor =>
      (registered tensor).filter fun r => decide (tensorPtr ∉ r.starts)
  | _ => registered

end Registered

/-- A controller, and what is registered with it. -/
structure RegRun where
  gpu : GPUMemory
  registered : Registered

namespace RegRun

/-- A controller at the start. -/
def init (maxIOsizes : List (Option ℕ)) : RegRun :=
  ⟨⟨maxIOsizes, fun _ => none, 0, fun _ => []⟩, .none⟩

/-- One operation. -/
def step (s : RegRun) (op : RegOp) : RegRun :=
  match op.apply s.gpu with
  | none => s
  | some result => ⟨result.gpu, (s.registered.forget op).enter result.created⟩

/-- **The map is right**: entries are found for the addresses at which a granule of a registered tensor starts,
and they are those that its registration has built for the granule. -/
structure MapRight (s : RegRun) : Prop where
  succeeds : ∀ ptr, (s.gpu.getPrpMappings ptr).isSome = true ↔
    ∃ tensor r, s.registered tensor = some r ∧ ptr ∈ r.starts
  entries : ∀ tensor r, s.registered tensor = some r → ∀ granule ∈ r.dma.granules,
    s.gpu.getPrpMappings granule.1 = some granule.2

/-- The operation returns, and the map is right after it. -/
def RightAfter (s : RegRun) (op : RegOp) : Prop :=
  (op.apply s.gpu).isSome = true ∧ (s.step op).MapRight

/-- The tensors that are to be registered overlap neither each other nor one that is registered. -/
def NonOverlapping (s : RegRun) (op : RegOp) : Prop :=
  ∀ tensor ∈ op.tensors,
    (∀ tensor' ∈ op.tensors, tensor' = tensor ∨ tensor'.Apart tensor) ∧
      ∀ tensor' r, s.registered tensor' = some r → tensor' = tensor ∨ tensor'.Apart tensor

/-- What the memory mapper has does not spoil the entries of the registrations that are added: for each of
their granules, it has nothing for the address, or has the same entries.  The number of granules is computed
without an overflow, and of several registrations of one tensor in a list, the last builds what the first
built. -/
structure Unspoilt (gpu : GPUMemory) (rs : List Registration) : Prop where
  noOverflow : ∀ r ∈ rs, r.NoOverflow
  entries : ∀ tensor r, Registered.none.enter rs tensor = some r → ∀ granule ∈ r.dma.granules,
    (gpu.hostMappings.lookupMappings granule.1).or
      ((rs.flatMap fun r => r.dma.granules).lookup granule.1) = some granule.2

end RegRun

/-! ### The registration of a tensor -/

namespace Registered

variable {registered : Registered} {r : Registration} {tensor : Tensor}

@[simp] theorem put_self : registered.put r r.tensor = some r := if_pos rfl

theorem put_of_ne (h : tensor ≠ r.tensor) : registered.put r tensor = registered tensor := if_neg h

/-- What is entered comes before what there was. -/
theorem enter_eq_or (registered : Registered) (rs : List Registration) (tensor : Tensor) :
    registered.enter rs tensor = (none.enter rs tensor).or (registered tensor) := by
  induction rs generalizing registered with
  | nil => rfl
  | cons r rs ih =>
      have hone : registered.put r tensor = (none.put r tensor).or (registered tensor) := by
        rcases eq_or_ne tensor r.tensor with rfl | hne
        · rw [put_self, put_self, Option.some_or]
        · rw [put_of_ne hne, put_of_ne hne, none, Option.none_or]
      rw [enter, enter, List.foldl_cons, List.foldl_cons, ← enter, ← enter, ih (registered.put r),
        ih (none.put r), hone, Option.or_assoc]

theorem enter_new {rs : List Registration} (h : none.enter rs tensor = some r) :
    registered.enter rs tensor = some r := by
  rw [enter_eq_or, h, Option.some_or]

theorem enter_cases {rs : List Registration} (h : registered.enter rs tensor = some r) :
    none.enter rs tensor = some r ∨ registered tensor = some r := by
  rw [enter_eq_or, Option.or_eq_some_iff] at h
  exact h.imp id And.right

/-- What is entered is one of the registrations. -/
theorem mem_of_enter {rs : List Registration} (h : none.enter rs tensor = some r) :
    r ∈ rs ∧ r.tensor = tensor := by
  induction rs with
  | nil => cases h
  | cons r' rs ih =>
      rw [enter, List.foldl_cons, ← enter, enter_eq_or, Option.or_eq_some_iff] at h
      rcases h with h | ⟨-, h⟩
      · exact ⟨List.mem_cons_of_mem _ (ih h).1, (ih h).2⟩
      · rcases eq_or_ne tensor r'.tensor with rfl | hne
        · rw [put_self] at h
          cases h
          exact ⟨List.mem_cons_self, rfl⟩
        · rw [put_of_ne hne] at h
          cases h

/-- Each registration, or a later one for its tensor, is entered. -/
theorem enter_of_mem {rs : List Registration} (h : r ∈ rs) : ∃ r', none.enter rs r.tensor = some r' := by
  induction rs with
  | nil => cases h
  | cons r' rs ih =>
      rw [enter, List.foldl_cons, ← enter, enter_eq_or]
      rcases List.mem_cons.mp h with rfl | h
      · rw [put_self]
        cases none.enter rs r.tensor with
        | none => exact ⟨r, rfl⟩
        | some r' => exact ⟨r', rfl⟩
      · obtain ⟨r'', hr''⟩ := ih h
        exact ⟨r'', by rw [hr'', Option.some_or]⟩

end Registered

/-- **The map of the DMA contexts is right**: an address has the context of the registration of the tensor with
a granule there, and no two tensors have one context. -/
structure Entered (dmaContexts : ℕ → Option ℕ) (nextContext : ℕ) (registered : Registered) : Prop where
  built : ∀ tensor r, registered tensor = some r →
    r.tensor = tensor ∧ BuiltFor r.tensor r.granularity r.dma
  lt : ∀ tensor r, registered tensor = some r → r.context < nextContext
  unique : ∀ tensor r tensor' r', registered tensor = some r → registered tensor' = some r' →
    r.context = r'.context → tensor = tensor'
  contexts : ∀ ptr context, dmaContexts ptr = some context ↔
    ∃ tensor r, registered tensor = some r ∧ r.context = context ∧ ptr ∈ r.starts

namespace Entered

variable {dmaContexts : ℕ → Option ℕ} {nextContext : ℕ} {registered : Registered}

/-- A tensor that is registered has a context at its own address. -/
theorem isSome_dataPtr (h : Entered dmaContexts nextContext registered) {tensor : Tensor} {r : Registration}
    (hr : registered tensor = some r) : dmaContexts tensor.dataPtr ≠ none := by
  obtain ⟨rfl, hbuilt⟩ := h.built tensor r hr
  have hcontext := (h.contexts r.tensor.dataPtr r.context).mpr ⟨_, r, hr, rfl, hbuilt.ptr_mem⟩
  rw [hcontext]
  exact Option.some_ne_none _

/-- **One registration is entered.**  What is registered belongs to the same tensor and has the same granules,
or does not overlap it. -/
theorem put (h : Entered dmaContexts nextContext registered) {r : Registration}
    (hbuilt : BuiltFor r.tensor r.granularity r.dma) (hcontext : r.context = nextContext)
    (hfits : r.NoOverflow)
    (hothers : ∀ tensor r', registered tensor = some r' →
      (tensor = r.tensor ∧ r'.granularity = r.granularity) ∨ tensor.Apart r.tensor) :
    Entered (GPUMemory.putContext dmaContexts r) (nextContext + 1) (registered.put r) where
  built := by
    intro tensor r' hr'
    rcases eq_or_ne tensor r.tensor with rfl | hne
    · rw [Registered.put_self] at hr'
      cases hr'
      exact ⟨rfl, hbuilt⟩
    · rw [Registered.put_of_ne hne] at hr'
      exact h.built tensor r' hr'
  lt := by
    intro tensor r' hr'
    rcases eq_or_ne tensor r.tensor with rfl | hne
    · rw [Registered.put_self] at hr'
      cases hr'
      omega
    · rw [Registered.put_of_ne hne] at hr'
      have hlt := h.lt tensor r' hr'
      omega
  unique := by
    intro tensor₁ r₁ tensor₂ r₂ hr₁ hr₂ heq
    rcases eq_or_ne tensor₁ r.tensor with rfl | hne₁ <;> rcases eq_or_ne tensor₂ r.tensor with rfl | hne₂
    · rfl
    · rw [Registered.put_self] at hr₁
      rw [Registered.put_of_ne hne₂] at hr₂
      cases hr₁
      have hlt := h.lt tensor₂ r₂ hr₂
      omega
    · rw [Registered.put_of_ne hne₁] at hr₁
      rw [Registered.put_self] at hr₂
      cases hr₂
      have hlt := h.lt tensor₁ r₁ hr₁
      omega
    · rw [Registered.put_of_ne hne₁] at hr₁
      rw [Registered.put_of_ne hne₂] at hr₂
      exact h.unique tensor₁ r₁ tensor₂ r₂ hr₁ hr₂ heq
  contexts := by
    intro ptr context
    rw [GPUMemory.putContext, Registration.granulePtrs_eq hfits]
    by_cases hptr : ptr ∈ r.starts
    · rw [if_pos hptr, Option.some_inj]
      constructor
      · rintro rfl
        exact ⟨r.tensor, r, Registered.put_self, rfl, hptr⟩
      · rintro ⟨tensor, r', hr', rfl, hptr'⟩
        rcases eq_or_ne tensor r.tensor with rfl | hne
        · rw [Registered.put_self] at hr'
          cases hr'
          rfl
        · -- another tensor has no granule there
          rw [Registered.put_of_ne hne] at hr'
          rcases hothers tensor r' hr' with ⟨rfl, -⟩ | hapart
          · exact absurd rfl hne
          · rw [← (h.built tensor r' hr').1] at hapart
            exact absurd hptr (hapart.not_mem hptr')
    · rw [if_neg hptr, h.contexts ptr context]
      constructor
      · rintro ⟨tensor, r', hr', rfl, hptr'⟩
        refine ⟨tensor, r', ?_, rfl, hptr'⟩
        rcases hothers tensor r' hr' with ⟨rfl, hgranularity⟩ | hapart
        · -- an earlier registration of the tensor has the same granules
          rw [Registration.starts, (h.built _ r' hr').1, hgranularity] at hptr'
          exact absurd hptr' hptr
        · exact (Registered.put_of_ne fun heq => hapart.2 (congrArg Tensor.dataPtr heq)).trans hr'
      · rintro ⟨tensor, r', hr', rfl, hptr'⟩
        rcases eq_or_ne tensor r.tensor with rfl | hne
        · rw [Registered.put_self] at hr'
          cases hr'
          exact absurd hptr' hptr
        · rw [Registered.put_of_ne hne] at hr'
          exact ⟨tensor, r', hr', rfl, hptr'⟩

/-- **The registrations of a list are entered**, one after the other. -/
theorem enter {rs : List Registration} {granularity : ℕ} (h : Entered dmaContexts nextContext registered)
    (hbuilt : ∀ r ∈ rs, r.granularity = granularity ∧ BuiltFor r.tensor granularity r.dma)
    (hnumbers : rs.map Registration.context = List.range' nextContext rs.length)
    (hfits : ∀ r ∈ rs, r.NoOverflow)
    (hapart : ∀ r ∈ rs, ∀ r' ∈ rs, r'.tensor = r.tensor ∨ r'.tensor.Apart r.tensor)
    (hothers : ∀ r ∈ rs, ∀ tensor r', registered tensor = some r' →
      (tensor = r.tensor ∧ r'.granularity = r.granularity) ∨ tensor.Apart r.tensor) :
    Entered (rs.foldl GPUMemory.putContext dmaContexts) (nextContext + rs.length) (registered.enter rs) := by
  induction rs generalizing dmaContexts nextContext registered with
  | nil => exact h
  | cons r rs ih =>
      obtain ⟨⟨hgranularity, hone⟩, hbuilt⟩ := List.forall_mem_cons.mp hbuilt
      obtain ⟨hfit, hfits⟩ := List.forall_mem_cons.mp hfits
      rw [List.map_cons, List.length_cons, List.range'_succ, List.cons.injEq] at hnumbers
      have hput := h.put (hgranularity ▸ hone) hnumbers.1 hfit (hothers r List.mem_cons_self)
      have hrest := ih hput hbuilt hnumbers.2 hfits
        (fun r₁ h₁ r₂ h₂ => hapart r₁ (List.mem_cons_of_mem _ h₁) r₂ (List.mem_cons_of_mem _ h₂)) ?_
      · rw [Nat.add_assoc, Nat.add_comm 1] at hrest
        exact hrest
      · intro r₁ h₁ tensor r' hr'
        rcases eq_or_ne tensor r.tensor with rfl | hne
        · rw [Registered.put_self] at hr'
          cases hr'
          rcases hapart r₁ (List.mem_cons_of_mem _ h₁) r List.mem_cons_self with heq | hap
          · exact .inl ⟨heq, hgranularity.trans (hbuilt r₁ h₁).1.symm⟩
          · exact .inr hap
        · rw [Registered.put_of_ne hne] at hr'
          exact hothers r₁ (List.mem_cons_of_mem _ h₁) tensor r' hr'

end Entered

/-! ### The invariant -/

namespace RegRun

variable {s : RegRun}

/-- **The invariant**: the map of the DMA contexts is right, and the entries of every granule of a registered
tensor are found in the memory mapper. -/
structure Inv (s : RegRun) : Prop where
  entered : Entered s.gpu.dmaContexts s.gpu.nextContext s.registered
  found : ∀ tensor r, s.registered tensor = some r → ∀ granule ∈ r.dma.granules,
    s.gpu.hostMappings.lookupMappings granule.1 = some granule.2

theorem inv_init (maxIOsizes : List (Option ℕ)) : (init maxIOsizes).Inv where
  entered := {
    built := fun _ _ h => by cases h
    lt := fun _ _ h => by cases h
    unique := fun _ _ _ _ h => by cases h
    contexts := by
      intro ptr context
      refine iff_of_false (fun h => by cases h) ?_
      rintro ⟨_, _, h, -⟩
      cases h }
  found := fun _ _ h => by cases h

/-- Where an address has a context, its entries are looked up. -/
theorem getPrpMappings_eq (h : Entered s.gpu.dmaContexts s.gpu.nextContext s.registered) {tensor : Tensor}
    {r : Registration} (hr : s.registered tensor = some r) {ptr : ℕ} (hptr : ptr ∈ r.starts) :
    s.gpu.getPrpMappings ptr = s.gpu.hostMappings.lookupMappings ptr := by
  have hcontext := (h.contexts ptr r.context).mpr ⟨tensor, r, hr, rfl, hptr⟩
  rw [GPUMemory.getPrpMappings, hcontext, Option.isSome_some, if_pos rfl]

/-- The granules of a registration are at its granule starts. -/
theorem mem_starts (h : Entered s.gpu.dmaContexts s.gpu.nextContext s.registered) {tensor : Tensor}
    {r : Registration} (hr : s.registered tensor = some r) {ptr : ℕ} :
    ptr ∈ r.starts ↔ ∃ granule ∈ r.dma.granules, granule.1 = ptr := by
  rw [Registration.starts, ← (h.built tensor r hr).2.starts, List.mem_map]

/-- **Under the invariant the map is right.** -/
theorem Inv.mapRight (h : s.Inv) : s.MapRight where
  succeeds := by
    intro ptr
    constructor
    · intro hsome
      rw [GPUMemory.getPrpMappings] at hsome
      split_ifs at hsome with hcontext
      · obtain ⟨context, hcontext⟩ := Option.isSome_iff_exists.mp hcontext
        obtain ⟨tensor, r, hr, -, hptr⟩ := (h.entered.contexts ptr context).mp hcontext
        exact ⟨tensor, r, hr, hptr⟩
      · cases hsome
    · rintro ⟨tensor, r, hr, hptr⟩
      rw [getPrpMappings_eq h.entered hr hptr]
      obtain ⟨granule, hgranule, rfl⟩ := (mem_starts h.entered hr).mp hptr
      rw [h.found tensor r hr granule hgranule]
      rfl
  entries := by
    intro tensor r hr granule hgranule
    rw [getPrpMappings_eq h.entered hr ((mem_starts h.entered hr).mpr ⟨granule, hgranule, rfl⟩)]
    exact h.found tensor r hr granule hgranule

/-! ### Registering -/

/-- The context is entered for no address that is not a granule start of the registrations. -/
theorem foldl_putContext_of_not_mem {rs : List Registration} {ptr : ℕ} (dmaContexts : ℕ → Option ℕ)
    (h : ∀ r ∈ rs, ptr ∉ r.granulePtrs) :
    rs.foldl GPUMemory.putContext dmaContexts ptr = dmaContexts ptr := by
  induction rs generalizing dmaContexts with
  | nil => rfl
  | cons r rs ih =>
      obtain ⟨hr, hrs⟩ := List.forall_mem_cons.mp h
      rw [List.foldl_cons, ih _ hrs, GPUMemory.putContext, if_neg hr]

variable {tensors : List Tensor} {result : RegisterResult}

/-- A tensor that is newly registered overlaps none that was registered before. -/
theorem Inv.others (hs : s.Inv) (henters : Enters s.gpu tensors result)
    (hnon : ∀ tensor ∈ tensors, ∀ tensor' r, s.registered tensor' = some r →
      tensor' = tensor ∨ tensor'.Apart tensor) {r : Registration} (hr : r ∈ result.created) {tensor : Tensor}
    {r' : Registration} (hr' : s.registered tensor = some r') : tensor.Apart r.tensor := by
  obtain ⟨hmem, hnone⟩ := henters.fresh r hr
  rcases hnon r.tensor hmem tensor r' hr' with rfl | hapart
  · exact absurd hnone (hs.entered.isSome_dataPtr hr')
  · exact hapart

/-- **If nothing spoils the entries, then a registration keeps the invariant.** -/
theorem Inv.enter (hs : s.Inv) (henters : Enters s.gpu tensors result)
    (hapart : ∀ tensor ∈ tensors, ∀ tensor' ∈ tensors, tensor' = tensor ∨ tensor'.Apart tensor)
    (hnon : ∀ tensor ∈ tensors, ∀ tensor' r, s.registered tensor' = some r →
      tensor' = tensor ∨ tensor'.Apart tensor)
    (hunspoilt : Unspoilt s.gpu result.created) :
    Inv ⟨result.gpu, s.registered.enter result.created⟩ where
  entered := by
    obtain ⟨granularity, -, hbuilt⟩ := henters.built
    rw [henters.contexts, henters.nextContext]
    refine hs.entered.enter hbuilt henters.numbers hunspoilt.noOverflow ?_ ?_
    · intro r hr r' hr'
      exact hapart _ (henters.fresh r hr).1 _ (henters.fresh r' hr').1
    · intro r hr tensor r' hr'
      exact .inr (hs.others henters hnon hr hr')
  found := by
    intro tensor r hr granule hgranule
    rcases Registered.enter_cases hr with hr | hr
    · -- a granule that is new: the first entries at its address are its own
      have hne : result.created ≠ [] := List.ne_nil_of_mem (Registered.mem_of_enter hr).1
      rw [henters.found hne granule.1]
      exact hunspoilt.entries tensor r hr granule hgranule
    · exact henters.kept _ _ (hs.found tensor r hr granule hgranule)

/-- **When a registration leaves the map right**: exactly if nothing in the memory mapper spoils the entries
that it adds. -/
theorem mapRight_iff (hs : s.Inv) (henters : Enters s.gpu tensors result)
    (hapart : ∀ tensor ∈ tensors, ∀ tensor' ∈ tensors, tensor' = tensor ∨ tensor'.Apart tensor)
    (hnon : ∀ tensor ∈ tensors, ∀ tensor' r, s.registered tensor' = some r →
      tensor' = tensor ∨ tensor'.Apart tensor) :
    MapRight ⟨result.gpu, s.registered.enter result.created⟩ ↔ Unspoilt s.gpu result.created := by
  refine ⟨fun hright => ?_, fun hunspoilt => (hs.enter henters hapart hnon hunspoilt).mapRight⟩
  obtain ⟨granularity, hlt, hbuilt⟩ := henters.built
  refine ⟨?_, ?_⟩
  · intro r hr
    by_contra hover
    obtain ⟨ptr, hptr, hmissing⟩ :=
      Registration.exists_not_mem_granulePtrs hover ((hbuilt r hr).1 ▸ hlt)
    -- no registration of the call enters a context for the last granule
    have hnone : ∀ r' ∈ result.created, ptr ∉ r'.granulePtrs := by
      intro r' hr' hptr'
      rcases hapart _ (henters.fresh r hr).1 _ (henters.fresh r' hr').1 with heq | hap
      · rw [Registration.granulePtrs, heq, (hbuilt r' hr').1, ← (hbuilt r hr).1,
          ← Registration.granulePtrs] at hptr'
        exact hmissing hptr'
      · exact hap.not_mem (r'.granulePtrs_subset ptr hptr') hptr
    have hold : s.gpu.dmaContexts ptr = none := by
      by_contra hsome
      obtain ⟨context, hcontext⟩ := Option.ne_none_iff_exists'.mp hsome
      obtain ⟨tensor, r', hr', -, hptr'⟩ := (hs.entered.contexts ptr context).mp hcontext
      have hap := hs.others henters hnon hr hr'
      rw [← (hs.entered.built tensor r' hr').1] at hap
      exact hap.not_mem hptr' hptr
    obtain ⟨r', hr'⟩ := Registered.enter_of_mem hr
    have hmem := Registered.mem_of_enter hr'
    have hsome := (hright.succeeds ptr).mpr ⟨r.tensor, r', Registered.enter_new hr', by
      rw [Registration.starts, hmem.2, (hbuilt r' hmem.1).1, ← (hbuilt r hr).1]
      exact hptr⟩
    rw [GPUMemory.getPrpMappings] at hsome
    simp only at hsome
    rw [henters.contexts, foldl_putContext_of_not_mem _ hnone, hold] at hsome
    cases hsome
  · intro tensor r hr granule hgranule
    have hne : result.created ≠ [] := List.ne_nil_of_mem (Registered.mem_of_enter hr).1
    have hentries := hright.entries tensor r (Registered.enter_new hr) granule hgranule
    rw [GPUMemory.getPrpMappings] at hentries
    simp only at hentries
    split_ifs at hentries
    rw [← henters.found hne granule.1]
    exact hentries

/-! ### Unregistering -/

theorem forget_eq_some {registered : Registered} {tensorPtr : ℕ} {tensor : Tensor} {r : Registration} :
    registered.forget (.unregisterTensorMemory tensorPtr) tensor = some r ↔
      registered tensor = some r ∧ tensorPtr ∉ r.starts := by
  have hforget : registered.forget (.unregisterTensorMemory tensorPtr) tensor =
      (registered tensor).filter fun r => decide (tensorPtr ∉ r.starts) := rfl
  rw [hforget, Option.filter_eq_some_iff, decide_eq_true_iff]

/-- The context of an address is taken from all addresses that have it, and from no others. -/
theorem unregisterTensorMemory_contexts (gpu : GPUMemory) (tensorPtr ptr context : ℕ) :
    (gpu.unregisterTensorMemory tensorPtr).2.dmaContexts ptr = some context ↔
      gpu.dmaContexts ptr = some context ∧ gpu.dmaContexts tensorPtr ≠ some context := by
  rw [GPUMemory.unregisterTensorMemory]
  cases hptr : gpu.dmaContexts tensorPtr with
  | none => simp
  | some context' =>
      simp only
      split_ifs with hsame
      · refine iff_of_false (fun h => by cases h) ?_
        rintro ⟨heq, hne⟩
        exact hne (hsame.symm.trans heq)
      · refine ⟨fun heq => ⟨heq, fun h => hsame (heq.trans h.symm)⟩, And.left⟩

theorem unregisterTensorMemory_frame (gpu : GPUMemory) (tensorPtr : ℕ) :
    (gpu.unregisterTensorMemory tensorPtr).2.nextContext = gpu.nextContext ∧
      (gpu.unregisterTensorMemory tensorPtr).2.hostMappings = gpu.hostMappings := by
  rw [GPUMemory.unregisterTensorMemory]
  cases gpu.dmaContexts tensorPtr <;> exact ⟨rfl, rfl⟩

/-- **Unregistering keeps the invariant**: the addresses of the tensor lose their context, and no other
does. -/
theorem Inv.forget (hs : s.Inv) (tensorPtr : ℕ) :
    Inv ⟨(s.gpu.unregisterTensorMemory tensorPtr).2,
      s.registered.forget (.unregisterTensorMemory tensorPtr)⟩ where
  entered := {
    built := fun tensor r hr => hs.entered.built tensor r (forget_eq_some.mp hr).1
    lt := by
      intro tensor r hr
      rw [(unregisterTensorMemory_frame s.gpu tensorPtr).1]
      exact hs.entered.lt tensor r (forget_eq_some.mp hr).1
    unique := fun tensor r tensor' r' hr hr' =>
      hs.entered.unique tensor r tensor' r' (forget_eq_some.mp hr).1 (forget_eq_some.mp hr').1
    contexts := by
      intro ptr context
      rw [unregisterTensorMemory_contexts, hs.entered.contexts ptr context]
      constructor
      · rintro ⟨⟨tensor, r, hr, rfl, hptr⟩, hne⟩
        refine ⟨tensor, r, forget_eq_some.mpr ⟨hr, fun hmem => hne ?_⟩, rfl, hptr⟩
        exact (hs.entered.contexts tensorPtr r.context).mpr ⟨tensor, r, hr, rfl, hmem⟩
      · rintro ⟨tensor, r, hr, rfl, hptr⟩
        obtain ⟨hr, hnot⟩ := forget_eq_some.mp hr
        refine ⟨⟨tensor, r, hr, rfl, hptr⟩, fun hsame => ?_⟩
        -- the context is that of one tensor only, which has no granule at the address
        obtain ⟨tensor', r', hr', hcontext, hmem⟩ :=
          (hs.entered.contexts tensorPtr r.context).mp hsame
        obtain rfl := hs.entered.unique tensor' r' tensor r hr' hr hcontext
        cases hr'.symm.trans hr
        exact hnot hmem }
  found := by
    intro tensor r hr granule hgranule
    rw [(unregisterTensorMemory_frame s.gpu tensorPtr).2]
    exact hs.found tensor r (forget_eq_some.mp hr).1 granule hgranule

/-! ### Along a run -/

/-- A call reads an empty list exactly if all tensors of a list that passes the checks are registered. -/
theorem isSome_apply_iff (gpu : GPUMemory) (op : RegOp) :
    (op.apply gpu).isSome = true ↔ op.HasUnregistered gpu := by
  cases op with
  | registerTensorMemory tensor granularity supply => exact iff_of_true rfl trivial
  | unregisterTensorMemory tensorPtr => exact iff_of_true rfl trivial
  | registerTesnsorList tensorList granularity supply =>
      rw [RegOp.apply, Option.isSome_iff_ne_none, Ne, GPUMemory.registerTesnsorList_eq_none,
        RegOp.HasUnregistered]
      push Not
      rfl

/-- **One operation**: under the invariant it leaves the map right exactly if it does not read an empty list
and nothing spoils its entries, and then it keeps the invariant. -/
theorem Inv.step (hs : s.Inv) {op : RegOp} (hnon : s.NonOverlapping op) :
    (s.RightAfter op ↔ op.HasUnregistered s.gpu ∧ Unspoilt s.gpu (op.planned s.gpu)) ∧
      (s.RightAfter op → (s.step op).Inv) := by
  rw [← RegOp.created_eq_planned]
  have hapart : ∀ tensor ∈ op.tensors, ∀ tensor' ∈ op.tensors, tensor' = tensor ∨ tensor'.Apart tensor :=
    fun tensor htensor => (hnon tensor htensor).1
  have hothers : ∀ tensor ∈ op.tensors, ∀ tensor' r, s.registered tensor' = some r →
      tensor' = tensor ∨ tensor'.Apart tensor :=
    fun tensor htensor => (hnon tensor htensor).2
  cases op with
  | registerTensorMemory tensor granularity supply =>
      have henters := s.gpu.registerTensorMemory_enters tensor granularity supply
      have hiff := mapRight_iff hs henters hapart hothers
      refine ⟨?_, fun h => hs.enter henters hapart hothers (hiff.mp h.2)⟩
      rw [← isSome_apply_iff]
      exact and_congr_right fun _ => hiff
  | registerTesnsorList tensorList granularity supply =>
      rw [RightAfter, ← isSome_apply_iff]
      cases happly : (RegOp.registerTesnsorList tensorList granularity supply).apply s.gpu with
      | none =>
          refine ⟨iff_of_false ?_ ?_, ?_⟩
          · exact fun h => Bool.false_ne_true h.1
          · exact fun h => Bool.false_ne_true h.1
          · exact fun h => absurd h.1 Bool.false_ne_true
      | some result =>
          have henters := GPUMemory.registerTesnsorList_enters happly
          have hiff := mapRight_iff hs henters hapart hothers
          have hstep : s.step (.registerTesnsorList tensorList granularity supply) =
              ⟨result.gpu, s.registered.enter result.created⟩ := by
            rw [RegRun.step, happly]
            rfl
          rw [hstep, RegOp.created, happly]
          exact ⟨and_congr_right fun _ => hiff, fun h => hs.enter henters hapart hothers (hiff.mp h.2)⟩
  | unregisterTensorMemory tensorPtr =>
      have hinv := hs.forget tensorPtr
      refine ⟨iff_of_true ⟨rfl, hinv.mapRight⟩ ⟨trivial, ⟨?_, ?_⟩⟩, fun _ => hinv⟩
      · intro r hr
        cases hr
      · intro tensor r hr
        cases hr

/-- **When the map is right along a run**: exactly if no call reads an empty list, and at no registration the
memory mapper has other entries for a granule that is registered. -/
theorem rightAfter_along_iff (maxIOsizes : List (Option ℕ)) (ops : List RegOp)
    (hnon : Along step NonOverlapping (init maxIOsizes) ops) :
    Along step RightAfter (init maxIOsizes) ops ↔
      Along step (fun s op => op.HasUnregistered s.gpu ∧ Unspoilt s.gpu (op.planned s.gpu))
        (init maxIOsizes) ops := by
  have hiff : Along step (fun s op => NonOverlapping s op ∧ RightAfter s op) (init maxIOsizes) ops ↔
      Along step (fun s op => NonOverlapping s op ∧
        op.HasUnregistered s.gpu ∧ Unspoilt s.gpu (op.planned s.gpu)) (init maxIOsizes) ops :=
    along_iff_of_inv Inv (fun s op hs h => (hs.step h.1).2 h.2)
      (fun s op hs => and_congr_right fun hn => (hs.step hn).1) (inv_init maxIOsizes) ops
  rw [along_and, along_and] at hiff
  exact ⟨fun h => (hiff.mp ⟨hnon, h⟩).2, fun h => (hiff.mpr ⟨hnon, h⟩).2⟩

/-! ### One tensor, registered again -/

/-- Operations on one tensor do not overlap. -/
theorem nonOverlapping_of_one (tensor : Tensor) (ops : List RegOp)
    (hops : ∀ op ∈ ops, ∀ tensor' ∈ op.tensors, tensor' = tensor)
    (hs : ∀ tensor' r, s.registered tensor' = some r → tensor' = tensor) : Along step NonOverlapping s ops := by
  induction ops generalizing s with
  | nil => trivial
  | cons op ops ih =>
      obtain ⟨hop, hops⟩ := List.forall_mem_cons.mp hops
      refine ⟨?_, ih hops ?_⟩
      · intro tensor₁ h₁
        obtain rfl := hop tensor₁ h₁
        exact ⟨fun tensor₂ h₂ => .inl (hop tensor₂ h₂), fun tensor₂ r hr => .inl (hs tensor₂ r hr)⟩
      · intro tensor' r hr
        have hforget : ∀ r, s.registered.forget op tensor' = some r → tensor' = tensor := by
          intro r hr
          cases op with
          | unregisterTensorMemory tensorPtr => exact hs tensor' r (forget_eq_some.mp hr).1
          | registerTensorMemory _ _ _ => exact hs tensor' r hr
          | registerTesnsorList _ _ _ => exact hs tensor' r hr
        rw [step] at hr
        cases happly : op.apply s.gpu with
        | none =>
            rw [happly] at hr
            exact hs tensor' r hr
        | some result =>
            rw [happly] at hr
            rcases Registered.enter_cases hr with hr | hr
            · obtain ⟨hmem, rfl⟩ := Registered.mem_of_enter hr
              cases op with
              | unregisterTensorMemory tensorPtr =>
                  cases happly
                  cases hmem
              | registerTensorMemory _ _ _ =>
                  cases happly
                  exact hop _ ((GPUMemory.registerTensorMemory_enters _ _ _ _).fresh r hmem).1
              | registerTesnsorList _ _ _ =>
                  exact hop _ ((GPUMemory.registerTesnsorList_enters happly).fresh r hmem).1
            · exact hforget r hr

/-- A tensor of one GPU page. -/
def onePage : Tensor := ⟨65536, 65536⟩

/-- Its pages have I/O addresses from `first` on, and there is a page for a PRP list. -/
def pagesFrom (first : ℕ) : DmaSupply where
  ioaddrs := fun _ => some ((List.range 16).map fun i => first + 4096 * i)
  type2Ioaddrs := fun _ => [4096]
  prpListMemory := true
  prpBuffers := true
  mapped := fun _ _ => true

/-- The tensor is registered, unregistered, and registered again. -/
def twice (first second : ℕ) : List RegOp :=
  [.registerTensorMemory onePage 0 (pagesFrom first), .unregisterTensorMemory 65536,
    .registerTensorMemory onePage 0 (pagesFrom second)]

theorem nonOverlapping_twice (maxIOsizes : List (Option ℕ)) (first second : ℕ) :
    Along step NonOverlapping (init maxIOsizes) (twice first second) := by
  refine nonOverlapping_of_one onePage _ ?_ fun _ _ h => by cases h
  intro op hop tensor htensor
  rw [twice] at hop
  simp only [List.mem_cons, List.not_mem_nil, or_false] at hop
  rcases hop with rfl | rfl | rfl
  · exact List.mem_singleton.mp htensor
  · cases htensor
  · exact List.mem_singleton.mp htensor

theorem rightAfter_along_iff_sameAddresses :
    Along step NonOverlapping (init [some 131072]) (twice 1048576 1048576) ∧
      (Along step RightAfter (init [some 131072]) (twice 1048576 1048576) ↔
        Along step (fun s op => op.HasUnregistered s.gpu ∧ Unspoilt s.gpu (op.planned s.gpu))
          (init [some 131072]) (twice 1048576 1048576)) ∧
      (((twice 1048576 1048576).foldl step (init [some 131072])).gpu.getPrpMappings 65536).isSome = true :=
  ⟨nonOverlapping_twice _ _ _, rightAfter_along_iff _ _ (nonOverlapping_twice _ _ _), by decide +kernel⟩

/-- **The old entries are found** when the tensor has other I/O addresses at its second registration. -/
theorem not_rightAfter_otherAddresses :
    Along step NonOverlapping (init [some 131072]) (twice 1048576 2097152) ∧
      ((twice 1048576 2097152).foldl step (init [some 131072])).gpu.getPrpMappings 65536 =
        some [⟨.list, 65536, 1048576, 4096, 0⟩] ∧
      ¬Along step RightAfter (init [some 131072]) (twice 1048576 2097152) := by
  refine ⟨nonOverlapping_twice _ _ _, by decide +kernel, fun h => ?_⟩
  have hright := h.2.2.1.2.entries onePage
  have hnew : (((twice 1048576 2097152).foldl step (init [some 131072])).registered onePage).map
      (fun r => r.dma.granules) = some [(65536, [⟨.list, 65536, 2097152, 4096, 0⟩])] := by
    decide +kernel
  obtain ⟨r, hr, hgranules⟩ := Option.map_eq_some_iff.mp hnew
  have hfound := hright r hr (65536, [⟨.list, 65536, 2097152, 4096, 0⟩])
    (by rw [hgranules]; exact List.mem_singleton_self _)
  revert hfound
  decide +kernel

end RegRun

end GeminiFS
end InfiniKV
