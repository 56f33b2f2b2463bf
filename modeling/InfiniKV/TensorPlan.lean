/-
**What a registration will add.**

Which DMA contexts a registration creates follows from its arguments, from what the device gives to the call, and
from which addresses have a context before it: the tensors are cut, the entries are built from the I/O addresses, and
there is memory for them or not.  What the memory mapper has for an address plays no part in it.

Main definitions:

* `InfiniKV.GeminiFS.DmaContext.hasMemory` — the device has memory for the entries of a context;
* `InfiniKV.GeminiFS.GPUMemory.plannedContext`, `plannedContexts` — the contexts that are cut and built for one
  tensor, and for a list;
* `InfiniKV.GeminiFS.GPUMemory.plannedTensor`, `plannedList` — the registrations that a call adds.

Main results:

* `InfiniKV.GeminiFS.GPUMemory.created_registerTensorMemory`,
  `InfiniKV.GeminiFS.GPUMemory.created_registerTesnsorList` — **the registrations that are added are the planned
  ones**.
-/

import InfiniKV.TensorMemory

set_option relaxedAutoImplicit false
set_option autoImplicit false

namespace InfiniKV
namespace GeminiFS

/-! ### Memory for the entries -/

/-- The device has memory for the entries of each granule, counted from the `i`-th on. -/
def hasMemory (mapped : ℕ → Bool) (groups : List GranularitySliceGroup) (i : ℕ) : Bool :=
  (groups.zipIdx i).all fun group => decide (group.1.prpMappings = []) || mapped group.2

/-- The device has memory for the entries of a context that has granules. -/
def DmaContext.hasMemory (mapped : ℕ → Bool) (dma : DmaContext) : Bool :=
  decide (dma.granularityGroups ≠ []) && GeminiFS.hasMemory mapped dma.granularityGroups 0

/-- Adding the entries succeeds if there is memory for them, whatever the mapper has. -/
theorem addPRPMappings_fst (mapped : ℕ → Bool) (groups : List GranularitySliceGroup) (i : ℕ)
    (host : HostMappings) : (addPRPMappings mapped groups i host).1 = hasMemory mapped groups i := by
  induction groups generalizing i host with
  | nil => rfl
  | cons group groups ih =>
      rw [addPRPMappings, hasMemory, List.zipIdx_cons, List.all_cons, ← hasMemory]
      split_ifs with hempty hmapped
      · rw [ih, decide_eq_true hempty, Bool.true_or, Bool.true_and]
      · rw [ih, hmapped, Bool.or_true, Bool.true_and]
      · rw [decide_eq_false hempty, eq_false_of_ne_true hmapped, Bool.or_false, Bool.false_and]

theorem addPRPMappingsToGPU_fst (mapped : ℕ → Bool) (dma : DmaContext) (host : HostMappings) :
    (addPRPMappingsToGPU mapped dma host).1 = dma.hasMemory mapped := by
  rw [addPRPMappingsToGPU, DmaContext.hasMemory]
  split_ifs with hnil
  · rw [decide_eq_false (not_not_intro hnil), Bool.false_and]
  · rw [decide_eq_true hnil, Bool.true_and, addPRPMappings_fst]

/-- The device has memory for the entries of all contexts, counted from the `i`-th on. -/
def DmaSupply.hasMemory (supply : DmaSupply) (dmas : List DmaContext) (i : ℕ) : Bool :=
  (dmas.zipIdx i).all fun dma => dma.1.hasMemory (supply.mapped dma.2)

theorem addAllPRPMappings_fst (supply : DmaSupply) (dmas : List DmaContext) (i : ℕ) (host : HostMappings) :
    (addAllPRPMappings supply dmas i host).1 = supply.hasMemory dmas i := by
  induction dmas generalizing i host with
  | nil => rfl
  | cons dma dmas ih =>
      have hone := addPRPMappingsToGPU_fst (supply.mapped i) dma host
      rw [addAllPRPMappings, DmaSupply.hasMemory, List.zipIdx_cons, List.all_cons, ← DmaSupply.hasMemory, ← hone]
      rcases addPRPMappingsToGPU (supply.mapped i) dma host with ⟨ok, host'⟩
      cases ok with
      | false => rfl
      | true => exact ih (i + 1) host'

namespace GPUMemory

variable (gpu : GPUMemory)

/-! ### The contexts -/

/-- The context that is cut and built for one tensor, if there is a controller, the tensor can be mapped, and there
is memory for the entries. -/
def plannedContext (tensor : Tensor) (granularity : ℕ) (supply : DmaSupply) : Option DmaContext :=
  if gpu.hasFirstController = true then
    (supply.ioaddrs 0).bind fun ioaddrs =>
      (performDMASlicing gpu.maxIOsizes tensor.dataPtr tensor.nbytes granularity >>=
        initializePRPEntries ioaddrs (supply.type2Ioaddrs 0)).filter (DmaContext.hasMemory (supply.mapped 0))
  else none

/-- The contexts that are cut and built for tensors of one size, which is a multiple of a granularity below it. -/
def plannedContexts (tensorList : List Tensor) (granularity : ℕ) (supply : DmaSupply) : Option (List DmaContext) :=
  let tensorSize := (tensorList.headD ⟨0, 0⟩).nbytes
  if (∀ tensor ∈ tensorList, tensor.nbytes = tensorSize) ∧
      ¬ (0 < granularity ∧ granularity < tensorSize ∧ tensorSize % granularity ≠ 0) ∧
      gpu.hasFirstController = true ∧ supply.prpBuffers = true then
    (gpu.sliceTensors tensorSize granularity supply tensorList 0 >>= initializePRPList supply).filter fun dmas =>
      decide (getPrpMappingSize (dmas.headD ⟨0, []⟩) ≠ 0) && supply.hasMemory dmas 0
  else none

variable {gpu} {granularity : ℕ} {supply : DmaSupply}

theorem createDMAContext_fst (gpu : GPUMemory) (tensor : Tensor) (granularity : ℕ) (supply : DmaSupply) :
    (gpu.createDMAContext tensor granularity supply).1 = gpu.plannedContext tensor granularity supply := by
  rw [createDMAContext, plannedContext]
  by_cases hcontroller : gpu.hasFirstController = true
  · rw [hcontroller, Bool.not_true, if_neg Bool.false_ne_true, if_pos rfl]
    cases supply.ioaddrs 0 with
    | none => rfl
    | some ioaddrs =>
        rw [Option.bind_some]
        dsimp only
        cases performDMASlicing gpu.maxIOsizes tensor.dataPtr tensor.nbytes granularity >>=
            initializePRPEntries ioaddrs (supply.type2Ioaddrs 0) with
        | none => rfl
        | some dma =>
            have hadd := addPRPMappingsToGPU_fst (supply.mapped 0) dma gpu.hostMappings
            rw [Option.filter_some, ← hadd]
            dsimp only
            rcases addPRPMappingsToGPU (supply.mapped 0) dma gpu.hostMappings with ⟨ok, host⟩
            cases ok <;> rfl
  · rw [if_pos (by simpa using hcontroller), if_neg hcontroller]

theorem createDMAContexts_fst {tensorList : List Tensor} {result : Option (List DmaContext)} {host : HostMappings}
    (h : gpu.createDMAContexts tensorList granularity supply = some (result, host)) :
    result = gpu.plannedContexts tensorList granularity supply := by
  cases tensorList with
  | nil => cases h
  | cons first rest =>
      simp only [createDMAContexts] at h
      rw [plannedContexts, List.headD_cons]
      by_cases hsizes : ∀ tensor ∈ first :: rest, tensor.nbytes = first.nbytes
      swap
      · rw [if_pos (by simpa using hsizes)] at h
        cases h
        rw [if_neg fun hcheck => hsizes hcheck.1]
      rw [if_neg (by simpa using hsizes)] at h
      by_cases halign : 0 < granularity ∧ granularity < first.nbytes ∧ first.nbytes % granularity ≠ 0
      · rw [if_pos halign] at h
        cases h
        rw [if_neg fun hcheck => hcheck.2.1 halign]
      rw [if_neg halign] at h
      by_cases hcontroller : gpu.hasFirstController = true
      swap
      · rw [if_pos (by simpa using hcontroller)] at h
        cases h
        rw [if_neg fun hcheck => hcontroller hcheck.2.2.1]
      rw [if_neg (by simpa using hcontroller)] at h
      cases hdmas : gpu.sliceTensors first.nbytes granularity supply (first :: rest) 0 >>=
          initializePRPList supply with
      | none =>
          rw [hdmas] at h
          cases h
          rw [Option.filter_none, ite_self]
      | some dmas =>
          simp only [hdmas] at h
          rw [Option.filter_some, ← addAllPRPMappings_fst supply dmas 0 gpu.hostMappings]
          by_cases hsize : getPrpMappingSize (dmas.headD ⟨0, []⟩) = 0
          · rw [if_pos hsize] at h
            cases h
            rw [decide_eq_false (not_not_intro hsize), Bool.false_and, if_neg Bool.false_ne_true, ite_self]
          rw [if_neg hsize] at h
          by_cases hbuffers : supply.prpBuffers = true
          swap
          · rw [if_pos (by simpa using hbuffers)] at h
            cases h
            rw [if_neg fun hcheck => hbuffers hcheck.2.2.2]
          rw [if_neg (by simpa using hbuffers)] at h
          rw [if_pos ⟨hsizes, halign, hcontroller, hbuffers⟩, decide_eq_true hsize, Bool.true_and]
          rcases hadd : addAllPRPMappings supply dmas 0 gpu.hostMappings with ⟨ok, host'⟩
          rw [hadd] at h
          cases ok <;> cases h <;> rfl

/-! ### The registrations -/

/-- The registration that a call for one tensor adds: none if a check fails or the tensor is registered. -/
def plannedTensor (gpu : GPUMemory) (tensor : Tensor) (granularity : UInt64) (supply : DmaSupply) :
    List Registration :=
  if tensor.validate = true ∧ ¬ (0 < granularity.toNat ∧ granularity.toNat % 4096 ≠ 0) ∧
      gpu.dmaContexts tensor.dataPtr = none then
    match gpu.plannedContext tensor granularity.toNat supply with
    | none => []
    | some dma => [⟨gpu.nextContext, tensor, granularity.toNat, dma⟩]
  else []

/-- The registrations that a call for a list adds, for those of its tensors that are not registered. -/
def plannedList (gpu : GPUMemory) (tensorList : List Tensor) (granularity : UInt64) (supply : DmaSupply) :
    List Registration :=
  let toRegister := tensorList.filter fun tensor => (gpu.dmaContexts tensor.dataPtr).isNone
  if tensorList.all Tensor.validate = true ∧ ¬ (0 < granularity.toNat ∧ granularity.toNat % 4096 ≠ 0) then
    match gpu.plannedContexts toRegister granularity.toNat supply with
    | none => []
    | some dmas => registrations granularity.toNat toRegister dmas gpu.nextContext
  else []

/-- **A call for one tensor adds what is planned.** -/
theorem created_registerTensorMemory (gpu : GPUMemory) (tensor : Tensor) (granularity : UInt64)
    (supply : DmaSupply) :
    (gpu.registerTensorMemory tensor granularity supply).created = gpu.plannedTensor tensor granularity supply := by
  rw [registerTensorMemory, plannedTensor]
  by_cases hvalid : tensor.validate = true
  swap
  · rw [if_pos (by simpa using hvalid), if_neg fun hcheck => hvalid hcheck.1]
  rw [if_neg (by simpa using hvalid)]
  by_cases halign : 0 < granularity.toNat ∧ granularity.toNat % 4096 ≠ 0
  · rw [if_pos halign, if_neg fun hcheck => hcheck.2.1 halign]
  rw [if_neg halign]
  by_cases hregistered : (gpu.dmaContexts tensor.dataPtr).isSome = true
  · rw [if_pos hregistered, if_neg fun hcheck => Option.isSome_iff_ne_none.1 hregistered hcheck.2.2]
  rw [if_neg hregistered, if_pos ⟨hvalid, halign, Option.not_isSome_iff_eq_none.1 hregistered⟩,
    ← createDMAContext_fst]
  rcases gpu.createDMAContext tensor granularity.toNat supply with ⟨dma, host⟩
  cases dma <;> rfl

/-- **A call for a list adds what is planned**, if it does not read an empty list. -/
theorem created_registerTesnsorList {tensorList : List Tensor} {granularity : UInt64} {result : RegisterResult}
    (h : gpu.registerTesnsorList tensorList granularity supply = some result) :
    result.created = gpu.plannedList tensorList granularity supply := by
  rw [registerTesnsorList] at h
  rw [plannedList]
  dsimp only at h ⊢
  split_ifs at h with hvalid halign
  · cases h
    rw [if_neg fun hcheck => by simp [hcheck.1] at hvalid]
  · cases h
    rw [if_neg fun hcheck => hcheck.2 halign]
  · rw [if_pos ⟨by simpa using hvalid, halign⟩]
    cases hcreate : gpu.createDMAContexts
        (tensorList.filter fun tensor => (gpu.dmaContexts tensor.dataPtr).isNone) granularity.toNat supply with
    | none =>
        rw [hcreate] at h
        cases h
    | some out =>
        rcases out with ⟨dmas, host⟩
        rw [hcreate] at h
        rw [← createDMAContexts_fst hcreate]
        cases dmas with
        | none =>
            cases h
            rfl
        | some dmas =>
            simp only at h
            -- there are as many contexts as tensors, and at least one
            have hlength := (createDMAContexts_spec hcreate).1.length_eq
            have hne : (tensorList.filter fun tensor => (gpu.dmaContexts tensor.dataPtr).isNone) ≠ [] := by
              intro hnil
              rw [createDMAContexts_eq_none.2 hnil] at hcreate
              cases hcreate
            split_ifs at h with hcheck
            · rcases hcheck with rfl | hcheck
              · exact absurd (List.length_eq_zero_iff.1 hlength) hne
              · exact absurd hlength.symm hcheck
            · cases h
              rfl

/-- A call that reads an empty list would add nothing. -/
theorem plannedList_of_none {tensorList : List Tensor} {granularity : UInt64}
    (h : gpu.registerTesnsorList tensorList granularity supply = none) :
    gpu.plannedList tensorList granularity supply = [] := by
  obtain ⟨-, -, hall⟩ := registerTesnsorList_eq_none.1 h
  have hnil : (tensorList.filter fun tensor => (gpu.dmaContexts tensor.dataPtr).isNone) = [] := by
    rw [List.filter_eq_nil_iff]
    intro tensor htensor hnone
    exact hall tensor htensor (by simpa using hnone)
  rw [plannedList, hnil]
  split_ifs
  · cases gpu.plannedContexts [] granularity.toNat supply <;> rfl
  · rfl

end GPUMemory

end GeminiFS
end InfiniKV
