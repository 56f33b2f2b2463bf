/-
**The controller that transfers read, and the one that tensors are registered with.**

A transfer asks a controller for the PRP entries of an address, and for nothing else of its memory.  So the
controller of transfers has a list of the addresses with a DMA context, and the first entries of each address; what
a call that fails leaves behind, and which context an address has, only the larger model of a controller says.  As
long as the device gives what the calls need, the two go along with each other.

Main definitions:

* `InfiniKV.GeminiFS.Represents` — a controller of transfers has what is found in the larger model;
* `InfiniKV.GeminiFS.RegisterCall` — a call that the device has memory for.

Main results:

* `InfiniKV.GeminiFS.Represents.registerTensorMemory` — **a call succeeds in both models or in none**, and they go
  on with each other;
* `InfiniKV.GeminiFS.getPrpMappings_registerAll` — **the entries that a transfer finds** after any number of calls.
-/

import InfiniKV.TensorMap

set_option relaxedAutoImplicit false
set_option autoImplicit false

namespace InfiniKV
namespace GeminiFS

/-- A controller of transfers has the addresses with a context, and the entries that are found. -/
structure Represents (mem : GPUMemory) (gpu : GPUController) : Prop where
  maxIOsizes : gpu.maxIOsizes = mem.maxIOsizes
  contexts : ∀ ptr, ptr ∈ gpu.dmaContexts ↔ (mem.dmaContexts ptr).isSome = true
  mappings : ∀ ptr, gpu.hostMappings.lookup ptr = mem.hostMappings.lookupMappings ptr

/-- The same entries are found for a tensor. -/
theorem Represents.getPrpMappings_eq {mem : GPUMemory} {gpu : GPUController} (h : Represents mem gpu)
    (tensor : Tensor) : gpu.getPrpMappings tensor = mem.getPrpMappings tensor.dataPtr := by
  rw [GPUController.getPrpMappings, GPUMemory.getPrpMappings, h.mappings]
  simp only [h.contexts]

/-! ### The entries that are added -/

/-- Entries are added behind those that an address has. -/
theorem GPUController.lookup_addBatchMappings (host : AList fun _ : ℕ => List PRPMappingEntry)
    {group : GranularitySliceGroup} (hne : group.prpMappings ≠ []) (ptr : ℕ) :
    (addBatchMappings host group).lookup ptr = (host.lookup ptr).or ([group.granule].lookup ptr) := by
  rw [addBatchMappings, if_neg hne, List.lookup_cons, List.lookup_nil, GranularitySliceGroup.granule]
  rcases eq_or_ne ptr group.gpuTensorPtr with rfl | hptr
  · rw [beq_self_eq_true]
    by_cases hmem : group.gpuTensorPtr ∈ host
    · obtain ⟨entries, hentries⟩ := Option.isSome_iff_exists.1 (AList.lookup_isSome.2 hmem)
      rw [if_pos hmem, hentries, Option.some_or]
    · rw [if_neg hmem, AList.lookup_insert, AList.lookup_eq_none.2 hmem, Option.none_or]
  · rw [beq_false_of_ne hptr, Option.or_none]
    split_ifs
    · rfl
    · rw [AList.lookup_insert_ne hptr]

/-- The granules of a context are added, one after the other. -/
theorem GPUController.lookup_foldl_addBatchMappings (groups : List GranularitySliceGroup)
    (host : AList fun _ : ℕ => List PRPMappingEntry) (hne : ∀ group ∈ groups, group.prpMappings ≠ []) (ptr : ℕ) :
    (groups.foldl addBatchMappings host).lookup ptr =
      (host.lookup ptr).or ((groups.map GranularitySliceGroup.granule).lookup ptr) := by
  induction groups generalizing host with
  | nil => rw [List.foldl_nil, List.map_nil, List.lookup_nil, Option.or_none]
  | cons group groups ih =>
      rw [List.forall_mem_cons] at hne
      rw [List.foldl_cons, ih _ hne.2, lookup_addBatchMappings host hne.1, Option.or_assoc, List.map_cons,
        ← List.singleton_append (l := groups.map _), List.lookup_append]

/-! ### One call -/

/-- A call to register a tensor on whole pages, for which the device has I/O addresses and memory, and whose number
of granules is computed without an overflow. -/
structure RegisterCall where
  tensor : Tensor
  granularity : UInt64
  supply : DmaSupply
  ioaddrs : List ℕ
  valid : tensor.validate = true
  ioaddrs_eq : supply.ioaddrs 0 = some ioaddrs
  mapped : ∀ i, supply.mapped 0 i = true
  noOverflow : granularity.toNat = 0 ∨ tensor.nbytes + granularity.toNat ≤ 2 ^ 64

/-- The call, to the larger model. -/
def RegisterCall.onMemory (call : RegisterCall) (mem : GPUMemory) : RegisterResult :=
  mem.registerTensorMemory call.tensor call.granularity call.supply

/-- The call, to a controller of transfers. -/
def RegisterCall.onController (call : RegisterCall) (gpu : GPUController) : Option GPUController :=
  gpu.registerTensorMemory call.tensor call.granularity.toNat call.ioaddrs (call.supply.type2Ioaddrs 0)

/-- A context that has been built has granules. -/
theorem BuiltFor.granularityGroups_ne_nil {tensor : Tensor} {granularity : ℕ} {dma : DmaContext}
    (h : BuiltFor tensor granularity dma) : dma.granularityGroups ≠ [] := by
  intro hnil
  have hmem := h.ptr_mem
  rw [← h.starts, DmaContext.granules, hnil] at hmem
  cases hmem

namespace RegisterCall

variable (call : RegisterCall) {mem : GPUMemory} {gpu : GPUController}

/-- The context that is cut and built for the tensor. -/
def build (maxIOsizes : List (Option ℕ)) : Option DmaContext :=
  performDMASlicing maxIOsizes call.tensor.dataPtr call.tensor.nbytes call.granularity.toNat >>=
    initializePRPEntries call.ioaddrs (call.supply.type2Ioaddrs 0)

/-- A context that is built is the tensor's. -/
theorem builtFor {maxIOsizes : List (Option ℕ)} {dma : DmaContext} (h : call.build maxIOsizes = some dma) :
    BuiltFor call.tensor call.granularity.toNat dma := by
  obtain ⟨sliced, hsliced, hdma⟩ := Option.bind_eq_some_iff.1 h
  exact BuiltFor.of_initializePRPEntries hsliced hdma

/-- What is built is created, as the device has memory for it; if nothing is, the map of the memory mapper stays. -/
theorem createDMAContext_eq (hfirst : mem.hasFirstController = true) :
    (mem.createDMAContext call.tensor call.granularity.toNat call.supply).1 = call.build mem.maxIOsizes ∧
      (call.build mem.maxIOsizes = none →
        (mem.createDMAContext call.tensor call.granularity.toNat call.supply).2 = mem.hostMappings) := by
  rw [GPUMemory.createDMAContext, hfirst, Bool.not_true, if_neg Bool.false_ne_true, call.ioaddrs_eq]
  dsimp only
  rw [← build]
  cases hbuild : call.build mem.maxIOsizes with
  | none => exact ⟨rfl, fun _ => rfl⟩
  | some dma =>
      have hne := (call.builtFor hbuild).granularityGroups_ne_nil
      have hmemory : dma.hasMemory (call.supply.mapped 0) = true := by
        simp [DmaContext.hasMemory, GeminiFS.hasMemory, hne, call.mapped]
      have hadd := addPRPMappingsToGPU_fst (call.supply.mapped 0) dma mem.hostMappings
      rw [hmemory] at hadd
      rcases hhost : addPRPMappingsToGPU (call.supply.mapped 0) dma mem.hostMappings with ⟨ok, host⟩
      rw [hhost] at hadd
      obtain rfl : ok = true := hadd
      refine ⟨?_, fun hnone => by cases hnone⟩
      simp only [hhost]

/-- A call for a tensor without a context fails where nothing is built. -/
theorem onMemory_of_none (hfirst : mem.hasFirstController = true)
    (halign : ¬ (0 < call.granularity.toNat ∧ call.granularity.toNat % 4096 ≠ 0))
    (hnew : mem.dmaContexts call.tensor.dataPtr = none) (hbuild : call.build mem.maxIOsizes = none) :
    call.onMemory mem = ⟨false, [], mem⟩ := by
  obtain ⟨hresult, hhost⟩ := call.createDMAContext_eq hfirst
  rw [hbuild] at hresult
  rw [onMemory, GPUMemory.registerTensorMemory, call.valid, Bool.not_true, if_neg Bool.false_ne_true,
    if_neg halign, hnew, Option.isSome_none, if_neg Bool.false_ne_true]
  have hhost := hhost hbuild
  rcases hcreate : mem.createDMAContext call.tensor call.granularity.toNat call.supply with ⟨dma, host⟩
  rw [hcreate] at hresult hhost
  dsimp only at hresult hhost ⊢
  rw [hresult, hhost]

/-- Where a context is built, the call succeeds, enters the context and adds its granules. -/
theorem onMemory_of_some (hfirst : mem.hasFirstController = true)
    (halign : ¬ (0 < call.granularity.toNat ∧ call.granularity.toNat % 4096 ≠ 0))
    (hnew : mem.dmaContexts call.tensor.dataPtr = none) {dma : DmaContext}
    (hbuild : call.build mem.maxIOsizes = some dma) :
    ∃ host, HostMappings.Extends mem.hostMappings dma.granules host ∧
      call.onMemory mem = ⟨true, [⟨mem.nextContext, call.tensor, call.granularity.toNat, dma⟩], { mem with
        dmaContexts := GPUMemory.putContext mem.dmaContexts
          ⟨mem.nextContext, call.tensor, call.granularity.toNat, dma⟩
        nextContext := mem.nextContext + 1
        hostMappings := host }⟩ := by
  obtain ⟨hresult, -⟩ := call.createDMAContext_eq hfirst
  rw [hbuild] at hresult
  rw [onMemory, GPUMemory.registerTensorMemory, call.valid, Bool.not_true, if_neg Bool.false_ne_true,
    if_neg halign, hnew, Option.isSome_none, if_neg Bool.false_ne_true]
  rcases hcreate : mem.createDMAContext call.tensor call.granularity.toNat call.supply with ⟨dma', host⟩
  rw [hcreate] at hresult
  dsimp only at hresult
  subst hresult
  exact ⟨host, (GPUMemory.createDMAContext_spec hcreate).2, rfl⟩

/-- The controller of transfers enters what is built. -/
theorem onController_of_new (halign : ¬ (0 < call.granularity.toNat ∧ call.granularity.toNat % 4096 ≠ 0))
    (hnew : call.tensor.dataPtr ∉ gpu.dmaContexts) :
    call.onController gpu = (call.build gpu.maxIOsizes).map fun dma => { gpu with
      dmaContexts := gpu.dmaContexts ++ dma.granularityGroups.map GranularitySliceGroup.gpuTensorPtr
      hostMappings := dma.granularityGroups.foldl GPUController.addBatchMappings gpu.hostMappings } := by
  rw [onController, GPUController.registerTensorMemory, if_neg halign, if_neg hnew, build]
  cases performDMASlicing gpu.maxIOsizes call.tensor.dataPtr call.tensor.nbytes call.granularity.toNat with
  | none => rfl
  | some sliced =>
      dsimp only [Option.bind_eq_bind, Option.bind_some]
      cases initializePRPEntries call.ioaddrs (call.supply.type2Ioaddrs 0) sliced <;> rfl

end RegisterCall

/-- A context is entered for the granules that are added. -/
theorem Represents.enter {mem : GPUMemory} {gpu : GPUController} (h : Represents mem gpu) (call : RegisterCall)
    {dma : DmaContext} (hbuilt : BuiltFor call.tensor call.granularity.toNat dma) {host : HostMappings}
    (hhost : HostMappings.Extends mem.hostMappings dma.granules host) (context nextContext : ℕ) :
    Represents
      { mem with
        dmaContexts := GPUMemory.putContext mem.dmaContexts ⟨context, call.tensor, call.granularity.toNat, dma⟩
        nextContext := nextContext
        hostMappings := host }
      { gpu with
        dmaContexts := gpu.dmaContexts ++ dma.granularityGroups.map GranularitySliceGroup.gpuTensorPtr
        hostMappings := dma.granularityGroups.foldl GPUController.addBatchMappings gpu.hostMappings } where
  maxIOsizes := h.maxIOsizes
  contexts ptr := by
    have hstarts : dma.granularityGroups.map GranularitySliceGroup.gpuTensorPtr =
        call.tensor.granuleStarts call.granularity.toNat := by
      rw [← hbuilt.starts, DmaContext.granules, List.map_map]
      rfl
    have hptrs : (⟨context, call.tensor, call.granularity.toNat, dma⟩ : Registration).granulePtrs =
        call.tensor.granuleStarts call.granularity.toNat := Registration.granulePtrs_eq call.noOverflow
    change ptr ∈ gpu.dmaContexts ++ _ ↔ (GPUMemory.putContext mem.dmaContexts _ ptr).isSome = true
    rw [List.mem_append, hstarts, GPUMemory.putContext, hptrs, h.contexts]
    split_ifs with hptr
    · exact iff_of_true (Or.inr hptr) rfl
    · exact or_iff_left hptr
  mappings ptr := by
    change (dma.granularityGroups.foldl GPUController.addBatchMappings gpu.hostMappings).lookup ptr = _
    rw [GPUController.lookup_foldl_addBatchMappings _ _ hbuilt.entries, h.mappings]
    exact (hhost ptr).symm

/-- **A call succeeds in both models or in none**, and the controller of transfers has what is found afterwards. -/
theorem Represents.registerTensorMemory {mem : GPUMemory} {gpu : GPUController} (h : Represents mem gpu)
    (hfirst : mem.hasFirstController = true) (call : RegisterCall) :
    (call.onController gpu).isSome = (call.onMemory mem).ok ∧
      Represents (call.onMemory mem).gpu ((call.onController gpu).getD gpu) := by
  by_cases halign : 0 < call.granularity.toNat ∧ call.granularity.toNat % 4096 ≠ 0
  · have hcontroller : call.onController gpu = none := by
      rw [RegisterCall.onController, GPUController.registerTensorMemory, if_pos halign]
    have hmemory : call.onMemory mem = ⟨false, [], mem⟩ := by
      rw [RegisterCall.onMemory, GPUMemory.registerTensorMemory, call.valid, Bool.not_true,
        if_neg Bool.false_ne_true, if_pos halign]
    rw [hcontroller, hmemory]
    exact ⟨rfl, h⟩
  by_cases hregistered : (mem.dmaContexts call.tensor.dataPtr).isSome = true
  · have hcontroller : call.onController gpu = some gpu := by
      rw [RegisterCall.onController, GPUController.registerTensorMemory, if_neg halign,
        if_pos ((h.contexts _).2 hregistered)]
    have hmemory : call.onMemory mem = ⟨true, [], mem⟩ := by
      rw [RegisterCall.onMemory, GPUMemory.registerTensorMemory, call.valid, Bool.not_true,
        if_neg Bool.false_ne_true, if_neg halign, if_pos hregistered]
    rw [hcontroller, hmemory]
    exact ⟨rfl, h⟩
  -- the tensor is new: both cut it and build the same entries
  have hnew := Option.not_isSome_iff_eq_none.1 hregistered
  have hcontroller := call.onController_of_new halign fun hmem => hregistered ((h.contexts _).1 hmem)
  cases hbuild : call.build mem.maxIOsizes with
  | none =>
      rw [hcontroller, h.maxIOsizes, hbuild, call.onMemory_of_none hfirst halign hnew hbuild]
      exact ⟨rfl, h⟩
  | some dma =>
      obtain ⟨host, hhost, hmemory⟩ := call.onMemory_of_some hfirst halign hnew hbuild
      have hbuild' : call.build gpu.maxIOsizes = some dma := by rw [h.maxIOsizes, hbuild]
      rw [hcontroller, hbuild', hmemory]
      exact ⟨rfl, h.enter call (call.builtFor hbuild) hhost _ _⟩

/-! ### Any number of calls -/

/-- The larger model after some calls. -/
def registerAllOnMemory (mem : GPUMemory) (calls : List RegisterCall) : GPUMemory :=
  calls.foldl (fun mem call => (call.onMemory mem).gpu) mem

/-- The controller of transfers after them.  A call that fails leaves it as it is. -/
def registerAllOnController (gpu : GPUController) (calls : List RegisterCall) : GPUController :=
  calls.foldl (fun gpu call => (call.onController gpu).getD gpu) gpu

theorem RegisterCall.maxIOsizes_onMemory (call : RegisterCall) (mem : GPUMemory) :
    (call.onMemory mem).gpu.maxIOsizes = mem.maxIOsizes := by
  rw [onMemory, GPUMemory.registerTensorMemory]
  split_ifs
  · rfl
  · rfl
  · rfl
  · rcases mem.createDMAContext call.tensor call.granularity.toNat call.supply with ⟨dma, host⟩
    cases dma <;> rfl

/-- The models go along with each other through any number of calls. -/
theorem Represents.registerAll {mem : GPUMemory} {gpu : GPUController} (h : Represents mem gpu)
    (hfirst : mem.hasFirstController = true) (calls : List RegisterCall) :
    Represents (registerAllOnMemory mem calls) (registerAllOnController gpu calls) := by
  induction calls generalizing mem gpu with
  | nil => exact h
  | cons call calls ih =>
      have hfirst' : (call.onMemory mem).gpu.hasFirstController = true := by
        rw [GPUMemory.hasFirstController, call.maxIOsizes_onMemory]
        exact hfirst
      exact ih (h.registerTensorMemory hfirst call).2 hfirst'

/-- **The entries that a transfer finds** after any number of calls are those that the larger model has. -/
theorem getPrpMappings_registerAll (first : ℕ) (rest : List (Option ℕ)) (calls : List RegisterCall)
    (tensor : Tensor) :
    (registerAllOnController ⟨some first :: rest, [], ∅⟩ calls).getPrpMappings tensor =
      (registerAllOnMemory (RegRun.init (some first :: rest)).gpu calls).getPrpMappings tensor.dataPtr := by
  have hinit : Represents (RegRun.init (some first :: rest)).gpu ⟨some first :: rest, [], ∅⟩ := by
    refine ⟨rfl, fun ptr => iff_of_false List.not_mem_nil Bool.false_ne_true, fun ptr => ?_⟩
    rw [AList.lookup_empty]
    rfl
  exact (hinit.registerAll rfl calls).getPrpMappings_eq tensor

end GeminiFS
end InfiniKV
