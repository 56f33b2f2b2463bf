/-
**Registering tensors one after the other.**

Where no allocation and no mapping fails, the registration of a tensor succeeds or fails by its arguments and by
the I/O sizes of the controllers alone.  Tensors that are registered in turn get the next contexts, but for those
that are registered already when their turn comes; they may have been so before, or a tensor before them in the
list has a granule where they start.

Main definitions:

* `InfiniKV.GeminiFS.BuiltBy` — a context that is built with what a device gives;
* `InfiniKV.GeminiFS.uncovered` — the tensors that do not start at a granule of an earlier one;
* `InfiniKV.GeminiFS.GPUMemory.supply` — what a device gives to a call;
* `InfiniKV.GeminiFS.GPUMemory.registerInTurn` — the calls in turn;
* `InfiniKV.GeminiFS.RegistersAll` — a call that registers just some tensors.

Main results:

* `InfiniKV.GeminiFS.getPrpListSize_eq_zero_iff` — when no slice of a tensor needs a list;
* `InfiniKV.GeminiFS.BuiltBy.resolve_granules` — what the entries of a context denote;
* `InfiniKV.GeminiFS.GPUMemory.registerInTurn_registers` — **what is registered in turn**.
-/

import InfiniKV.PrpMemory
import InfiniKV.TensorMap

set_option relaxedAutoImplicit false
set_option autoImplicit false

namespace InfiniKV
namespace GeminiFS

/-! ### Slices -/

/-- The size of the granules, where all have one size. -/
def granuleSize (tensorSize granularity : ℕ) : ℕ :=
  if 0 < granularity then min granularity tensorSize else tensorSize

/-- The granules have one size: there is only one of them, or the granularity divides the size of the tensor. -/
def Divides (granularity tensorSize : ℕ) : Prop :=
  ¬(0 < granularity ∧ granularity < tensorSize ∧ tensorSize % granularity ≠ 0)

section Slices

variable {nvmeControllers : List (Option ℕ)} {vaddr tensorSize granularity : ℕ} {sliced : DmaContext}

/-- The least I/O size, if there is one, is not zero. -/
theorem minMaxIoSize_pos (nvmeControllers : List (Option ℕ)) : 0 < minMaxIoSize nvmeControllers := by
  rw [minMaxIoSize_eq]
  rcases (foldl_smallerIOsize nvmeControllers UINT64_MAX).1 with hmax | hsize
  · rw [hmax, UINT64_MAX]
    omega
  · exact hsize.2

/-- A size that is found is one of those of the controllers. -/
theorem isLeast_minMaxIoSize (h : minMaxIoSize nvmeControllers ≠ UINT64_MAX) :
    IsLeast {m | some m ∈ nvmeControllers ∧ 0 < m} (minMaxIoSize nvmeControllers) := by
  obtain ⟨hmem, hleast⟩ := foldl_smallerIOsize nvmeControllers UINT64_MAX
  rw [minMaxIoSize_eq] at h ⊢
  exact ⟨hmem.resolve_left h, fun m hm => hleast (.inr hm)⟩

/-- A tensor is cut only if some controller has an I/O size. -/
theorem minMaxIoSize_ne_of_performDMASlicing
    (h : performDMASlicing nvmeControllers vaddr tensorSize granularity = some sliced) :
    minMaxIoSize nvmeControllers ≠ UINT64_MAX := by
  intro hnone
  simp only [performDMASlicing] at h
  rw [if_pos hnone] at h
  cases h

/-- The slices of a granule are no longer than both bounds, and the first is as long. -/
theorem cutGranule_sizes {minMaxIo : ℕ} (hpos : 0 < minMaxIo) (size offset : ℕ) :
    (∀ slice ∈ cutGranule minMaxIo size offset, slice.size ≤ min minMaxIo size) ∧
      ∃ slice ∈ cutGranule minMaxIo size offset, slice.size = min minMaxIo size := by
  rw [cutGranule]
  split_ifs with hle
  · refine ⟨fun slice hslice => ?_, _, List.mem_singleton_self _, ?_⟩
    · rw [List.mem_singleton.mp hslice]
      exact Nat.le_min.mpr ⟨hle, le_rfl⟩
    · exact (Nat.min_eq_right hle).symm
  · rw [Tiling.cut_eq hpos]
    have hfirst : 0 < size ⌈/⌉ minMaxIo := (Tiling.lt_ceilDiv_iff hpos).mpr (by omega)
    refine ⟨fun slice hslice => ?_, ⟨0, min minMaxIo size, offset + 0⟩, ?_, rfl⟩
    · obtain ⟨piece, hpiece, rfl⟩ := List.mem_map.mp hslice
      obtain ⟨j, -, rfl⟩ := List.mem_map.mp hpiece
      simp only
      omega
    · refine List.mem_map.mpr ⟨(0, min size minMaxIo), List.mem_map.mpr ⟨0, ?_, ?_⟩, ?_⟩
      · exact List.mem_range.mpr hfirst
      · rw [Nat.zero_mul, Nat.sub_zero]
      · rw [Nat.min_comm]

/-- Where the granularity divides the size, all granules have one size. -/
theorem granularitySize_eq (h : performDMASlicing nvmeControllers vaddr tensorSize granularity = some sliced)
    (hdvd : Divides granularity tensorSize) :
    ∀ group ∈ sliced.granularityGroups, group.granularitySize = granuleSize tensorSize granularity := by
  simp only [performDMASlicing] at h
  split_ifs at h with hnone hpos
  · cases h
    rw [granuleSize, if_pos hpos]
    intro group hgroup
    obtain ⟨piece, hpiece, rfl⟩ := List.mem_map.mp hgroup
    rw [Tiling.cut_eq hpos] at hpiece
    obtain ⟨j, hj, rfl⟩ := List.mem_map.mp hpiece
    have hlt := (Tiling.lt_ceilDiv_iff hpos).mp (List.mem_range.mp hj)
    change min (tensorSize - j * granularity) granularity = min granularity tensorSize
    by_cases hle : tensorSize ≤ granularity
    · -- the tensor is one granule
      have hzero : j = 0 := by
        by_contra hne
        have hmul := Nat.le_mul_of_pos_left granularity (Nat.pos_of_ne_zero hne)
        omega
      rw [hzero, Nat.zero_mul, Nat.sub_zero, Nat.min_comm]
    · obtain ⟨q, hq⟩ : granularity ∣ tensorSize := by
        by_contra hnot
        exact hdvd ⟨hpos, by omega, fun hmod => hnot (Nat.dvd_of_mod_eq_zero hmod)⟩
      have hroom : j * granularity + granularity ≤ tensorSize := by
        have hjq : j < q := by
          rw [hq, Nat.mul_comm] at hlt
          exact Nat.lt_of_mul_lt_mul_left hlt
        rw [hq, Nat.mul_comm granularity q, ← Nat.succ_mul]
        exact Nat.mul_le_mul_right _ hjq
      omega
  · cases h
    rw [granuleSize, if_neg hpos]
    intro group hgroup
    rw [List.mem_singleton.mp hgroup]
    rfl

/-- A tensor has a granule, unless it is empty and has a granularity. -/
theorem granularityGroups_eq_nil_iff
    (h : performDMASlicing nvmeControllers vaddr tensorSize granularity = some sliced) :
    sliced.granularityGroups = [] ↔ 0 < granularity ∧ tensorSize = 0 := by
  simp only [performDMASlicing] at h
  split_ifs at h with hnone hpos
  · cases h
    have hfirst : 0 < tensorSize ⌈/⌉ granularity ↔ 0 * granularity < tensorSize := Tiling.lt_ceilDiv_iff hpos
    rw [Nat.zero_mul] at hfirst
    rw [List.map_eq_nil_iff, Tiling.cut_eq hpos, List.map_eq_nil_iff, List.range_eq_nil, and_iff_right hpos]
    omega
  · cases h
    exact iff_of_false (List.cons_ne_nil _ _) fun hzero => hpos hzero.1

/-- **When no slice needs a list.** -/
theorem getPrpListSize_eq_zero_iff
    (h : performDMASlicing nvmeControllers vaddr tensorSize granularity = some sliced)
    (hdvd : Divides granularity tensorSize) (hne : sliced.granularityGroups ≠ []) :
    getPrpListSize sliced = 0 ↔
      min (minMaxIoSize nvmeControllers) (granuleSize tensorSize granularity) ≤ PRP_SIZE_DUAL_PAGE := by
  have hsizes := granularitySize_eq h hdvd
  have hslices : ∀ group ∈ sliced.granularityGroups, ∃ offset,
      group.subSlices = cutGranule (minMaxIoSize nvmeControllers) (granuleSize tensorSize granularity) offset := by
    intro group hgroup
    obtain ⟨size, offset, hcut⟩ := performDMASlicing_mem h group hgroup
    have hsize := hsizes group hgroup
    rw [hcut] at hsize ⊢
    exact ⟨offset, by rw [← hsize]; rfl⟩
  have hpos := minMaxIoSize_pos nvmeControllers
  rw [getPrpListSize, List.countP_eq_zero]
  simp only [decide_eq_true_eq, Nat.not_lt]
  constructor
  · intro hall
    obtain ⟨group, hgroup⟩ := List.exists_mem_of_ne_nil _ hne
    obtain ⟨offset, hcut⟩ := hslices group hgroup
    obtain ⟨slice, hslice, hsize⟩ := (cutGranule_sizes hpos (granuleSize tensorSize granularity) offset).2
    rw [← hsize]
    exact hall slice (List.mem_flatMap.mpr ⟨group, hgroup, by rw [hcut]; exact hslice⟩)
  · intro hle slice hslice
    obtain ⟨group, hgroup, hmem⟩ := List.mem_flatMap.mp hslice
    obtain ⟨offset, hcut⟩ := hslices group hgroup
    rw [hcut] at hmem
    exact ((cutGranule_sizes hpos _ offset).1 slice hmem).trans hle

/-- How many lists a tensor needs does not depend on where it is. -/
theorem getPrpListSize_vaddr {vaddr' : ℕ} {sliced' : DmaContext}
    (h : performDMASlicing nvmeControllers vaddr tensorSize granularity = some sliced)
    (h' : performDMASlicing nvmeControllers vaddr' tensorSize granularity = some sliced') :
    getPrpListSize sliced = getPrpListSize sliced' := by
  simp only [performDMASlicing] at h h'
  split_ifs at h h' with hnone hpos
  · cases h
    cases h'
    rw [getPrpListSize, getPrpListSize, List.flatMap_map, List.flatMap_map]
    rfl
  · cases h
    cases h'
    rfl

end Slices

/-! ### Contexts that are built with what a device gives -/

/-- The I/O sizes are such as the constructor of a controller accepts. -/
def AcceptedControllers (nvmeControllers : List (Option ℕ)) : Prop :=
  ∀ maxIOsize, some maxIOsize ∈ nvmeControllers →
    ∃ paramsMaxIOsize, acceptMaxIOsize paramsMaxIOsize = some maxIOsize

/-- The tensor of the context is cut, and its entries are built from its I/O addresses and as many pages as it
needs for its lists. -/
structure BuiltBy (nvmeControllers : List (Option ℕ)) (device : DmaDevice) (granularity : ℕ)
    (r : Registration) : Prop where
  granularity_eq : r.granularity = granularity
  built : ∃ sliced,
    performDMASlicing nvmeControllers r.tensor.dataPtr r.tensor.nbytes granularity = some sliced ∧
      initializePRPEntries (device.ioaddrs r.tensor) (device.prpPages r.context (getPrpListSize sliced)) sliced =
        some r.dma

section Built

variable {nvmeControllers : List (Option ℕ)} {device : DmaDevice} {granularity : ℕ} {tensor : Tensor}

theorem length_ioaddrs (device : DmaDevice) (tensor : Tensor) :
    (device.ioaddrs tensor).length = tensor.nbytes / PRP_SIZE_SINGLE_PAGE := by
  rw [DmaDevice.ioaddrs, List.length_map, List.length_range]

theorem length_prpPages (device : DmaDevice) (context prpListSize : ℕ) :
    (device.prpPages context prpListSize).length = prpListSize := by
  rw [DmaDevice.prpPages, List.length_map, List.length_range]

/-- An empty tensor without a granularity has one slice, which needs no page. -/
theorem initializePRPEntries_empty (ioaddrs type2Ioaddrs : List ℕ) (minMaxIo vaddr : ℕ) :
    ∃ dma, initializePRPEntries ioaddrs type2Ioaddrs ⟨minMaxIo, [sliceGroup minMaxIo vaddr 0 0]⟩ = some dma := by
  have hcut : cutGranule minMaxIo 0 0 = [⟨0, 0, 0⟩] := if_pos (Nat.zero_le _)
  have hpages : 0 ⌈/⌉ PRP_SIZE_SINGLE_PAGE = 0 := zero_ceilDiv _
  have htype : getPrpTransferType 0 = .singlePage := if_pos (Nat.zero_le _)
  simp [initializePRPEntries, initializePRPGroups, initializePRPGroup, initializePRPEntry, sliceGroup, hcut,
    hpages, htype]

/-- **A context can be built** for each valid tensor, unless there is no I/O size, or the tensor is empty and has
a granularity. -/
theorem exists_built (hcontrollers : AcceptedControllers nvmeControllers)
    (hsome : minMaxIoSize nvmeControllers ≠ UINT64_MAX) (hvalid : tensor.validate = true)
    (hgranularity : ¬(0 < granularity ∧ granularity % 4096 ≠ 0))
    (hne : ¬(0 < granularity ∧ tensor.nbytes = 0)) (context : ℕ) :
    ∃ sliced dma, performDMASlicing nvmeControllers tensor.dataPtr tensor.nbytes granularity = some sliced ∧
      initializePRPEntries (device.ioaddrs tensor) (device.prpPages context (getPrpListSize sliced)) sliced =
        some dma := by
  rcases Nat.eq_zero_or_pos tensor.nbytes with hzero | hpos
  · have hwhole : ¬0 < granularity := fun hpos => hne ⟨hpos, hzero⟩
    obtain ⟨dma, hdma⟩ := initializePRPEntries_empty (device.ioaddrs tensor) (device.prpPages context
      (getPrpListSize ⟨minMaxIoSize nvmeControllers, [sliceGroup (minMaxIoSize nvmeControllers) tensor.dataPtr 0 0]⟩))
      (minMaxIoSize nvmeControllers) tensor.dataPtr
    refine ⟨_, dma, ?_, hdma⟩
    simp only [performDMASlicing]
    rw [if_neg hsome, if_neg hwhole, hzero]
  · obtain ⟨sliced, hsliced, -, hall⟩ := registered_covers hcontrollers (isLeast_minMaxIoSize hsome) hvalid hpos
      hgranularity
    obtain ⟨dma, c, -, hdma, -⟩ := hall (device.ioaddrs tensor) (device.prpPages context (getPrpListSize sliced))
      (length_ioaddrs device tensor).ge (length_prpPages device context _).ge
    exact ⟨sliced, dma, hsliced, hdma⟩

/-- An empty tensor with a granularity has no granules, and no entries are built. -/
theorem initializePRPEntries_eq_none {sliced : DmaContext} {ioaddrs type2Ioaddrs : List ℕ}
    (h : performDMASlicing nvmeControllers tensor.dataPtr tensor.nbytes granularity = some sliced)
    (hempty : 0 < granularity ∧ tensor.nbytes = 0) :
    initializePRPEntries ioaddrs type2Ioaddrs sliced = none := by
  rw [initializePRPEntries, if_pos ((granularityGroups_eq_nil_iff h).mpr hempty)]

/-- The slices of the granules are those that were cut. -/
theorem flatMap_subSlices_eq {groups groups' : List GranularitySliceGroup}
    (h : List.Forall₂ (fun group group' => group' = { group with prpMappings := group'.prpMappings } ∧
      group'.prpMappings.length = group.subSlices.length) groups groups') :
    groups'.flatMap GranularitySliceGroup.subSlices = groups.flatMap GranularitySliceGroup.subSlices := by
  induction h with
  | nil => rfl
  | cons hgroup _ ih => rw [List.flatMap_cons, List.flatMap_cons, ih, hgroup.1]

/-- **What the entries of a context denote**, in a memory that has its lists in its pages. -/
theorem BuiltBy.resolve_granules {r : Registration} (h : BuiltBy nvmeControllers device granularity r)
    (hcontrollers : AcceptedControllers nvmeControllers) (hvalid : r.tensor.validate = true)
    (hpos : 0 < r.tensor.nbytes) (hgranularity : ¬(0 < granularity ∧ granularity % 4096 ≠ 0))
    (hdvd : Divides granularity r.tensor.nbytes) {memory : ℕ → List ℕ}
    (hmemory : ∀ k prpList, k < getPrpListSize r.dma →
      (prpListPages (device.ioaddrs r.tensor) (device.prpPages r.context (getPrpListSize r.dma)) r.dma)[k]? =
        some prpList → memory (device.prpPage r.context k) = prpList) :
    ∀ granule ∈ r.dma.granules, granule.2.map (PRPMappingEntry.resolve memory) =
      device.granuleEntries (minMaxIoSize nvmeControllers) (granuleSize r.tensor.nbytes granularity)
        granule.1 := by
  obtain ⟨sliced, hsliced, hbuilt⟩ := h.built
  have hsome := minMaxIoSize_ne_of_performDMASlicing hsliced
  obtain ⟨sliced', hsliced', htiles, hall⟩ := registered_covers hcontrollers (isLeast_minMaxIoSize hsome) hvalid
    hpos hgranularity
  cases hsliced.symm.trans hsliced'
  obtain ⟨dma, c, hgroups, hdma, hcover⟩ := hall (device.ioaddrs r.tensor)
    (device.prpPages r.context (getPrpListSize sliced)) (length_ioaddrs device r.tensor).ge
    (length_prpPages device r.context _).ge
  obtain rfl : dma = r.dma := Option.some.inj (hdma.symm.trans hbuilt)
  have hcount : getPrpListSize r.dma = getPrpListSize sliced := by
    rw [getPrpListSize, getPrpListSize, flatMap_subSlices_eq hcover.groups]
  have haligned : PRP_SIZE_SINGLE_PAGE ∣ r.tensor.dataPtr := by
    rw [Tensor.validate, Bool.and_eq_true, decide_eq_true_iff, decide_eq_true_iff, GPU_PAGE_SIZE] at hvalid
    rw [PRP_SIZE_SINGLE_PAGE]
    omega
  have hlists : ∀ k page, (device.prpPages r.context (getPrpListSize sliced))[k]? = some page →
      k < c.prpLists.length → memory page = c.prpListPage k := by
    intro k page hpage hk
    have hlt := (List.getElem?_eq_some_iff.mp hpage).1
    rw [length_prpPages] at hlt
    rw [DmaDevice.prpPages, List.getElem?_map, List.getElem?_range hlt, Option.map_some,
      Option.some.injEq] at hpage
    rw [← hpage]
    refine hmemory k _ (hlt.trans_eq hcount.symm) ?_
    rw [hcount, prpListPages_eq hgroups, List.getElem?_map, List.getElem?_range hk, Option.map_some]
  have hresolve := resolve_group hsliced htiles haligned hcover hgroups hlists
  intro granule hgranule
  obtain ⟨group, hgroup, rfl⟩ := List.mem_map.mp hgranule
  obtain ⟨group₀, hgroup₀, ⟨hsame, -⟩⟩ := forall₂_right hcover.groups group hgroup
  have hsize : group.granularitySize = granuleSize r.tensor.nbytes granularity := by
    rw [hsame]
    exact granularitySize_eq hsliced hdvd group₀ hgroup₀
  rw [GranularitySliceGroup.granule, hresolve group hgroup, hsize]

end Built

/-! ### The two ways -/

/-- The addresses that get the context of a tensor. -/
def Tensor.granulePtrs (tensor : Tensor) (granularity : ℕ) : List ℕ :=
  Registration.granulePtrs ⟨0, tensor, granularity, ⟨0, []⟩⟩

/-- The tensors that are left when each one is left out that starts at a granule of an earlier one which stays, or
at one of `ptrs`. -/
def uncovered (granularity : ℕ) : List Tensor → List ℕ → List Tensor
  | [], _ => []
  | tensor :: tensors, ptrs =>
      if tensor.dataPtr ∈ ptrs then uncovered granularity tensors ptrs
      else tensor :: uncovered granularity tensors (ptrs ++ tensor.granulePtrs granularity)

namespace GPUMemory

variable (gpu : GPUMemory)

/-- The tensors of a list that are not registered. -/
def toRegister (tensorList : List Tensor) : List Tensor :=
  tensorList.filter fun tensor => (gpu.dmaContexts tensor.dataPtr).isNone

/-- How many lists a tensor needs. -/
def prpListSize (tensor : Tensor) (granularity : ℕ) : ℕ :=
  ((performDMASlicing gpu.maxIOsizes tensor.dataPtr tensor.nbytes granularity).map getPrpListSize).getD 0

/-- What a device gives to a call that creates contexts for the tensors, where no allocation and no mapping
fails.  The lists of a context are in pages that are allocated for it. -/
def supply (device : DmaDevice) (granularity : ℕ) (tensors : List Tensor) : DmaSupply where
  ioaddrs i := tensors[i]?.map device.ioaddrs
  type2Ioaddrs i := (tensors[i]?.map fun tensor =>
    device.prpPages (gpu.nextContext + i) (gpu.prpListSize tensor granularity)).getD []
  prpListMemory := true
  prpBuffers := true
  mapped := fun _ _ => true

/-- `registerTensorMemory` for each tensor in turn, until it fails. -/
def registerInTurn (device : DmaDevice) (granularity : UInt64) : List Tensor → GPUMemory → RegisterResult
  | [], gpu => ⟨true, [], gpu⟩
  | tensor :: tensors, gpu =>
      let result := gpu.registerTensorMemory tensor granularity (gpu.supply device granularity.toNat [tensor])
      if result.ok then
        let rest := registerInTurn device granularity tensors result.gpu
        ⟨rest.ok, result.created ++ rest.created, rest.gpu⟩
      else result

/-- A context can be created for a tensor of `tensorSize` bytes: there is a controller, one has an I/O size, and
there is a granule. -/
def CanCreate (tensorSize granularity : ℕ) : Prop :=
  gpu.hasFirstController = true ∧ minMaxIoSize gpu.maxIOsizes ≠ UINT64_MAX ∧ ¬(0 < granularity ∧ tensorSize = 0)

end GPUMemory

/-- The call succeeds and registers just these tensors: it creates their contexts one after the other, and adds
their granules to the memory mapper. -/
structure RegistersAll (gpu : GPUMemory) (device : DmaDevice) (granularity : ℕ) (tensors : List Tensor)
    (result : RegisterResult) : Prop where
  ok : result.ok = true
  maxIOsizes : result.gpu.maxIOsizes = gpu.maxIOsizes
  tensors_eq : result.created.map Registration.tensor = tensors
  built : ∀ r ∈ result.created, BuiltBy gpu.maxIOsizes device granularity r
  nextContext : result.gpu.nextContext = gpu.nextContext + result.created.length
  numbers : result.created.map Registration.context = List.range' gpu.nextContext result.created.length
  contexts : result.gpu.dmaContexts = result.created.foldl GPUMemory.putContext gpu.dmaContexts
  found : HostMappings.Extends gpu.hostMappings (result.created.flatMap fun r => r.dma.granules)
    result.gpu.hostMappings

/-- A call that has nothing to register. -/
theorem RegistersAll.nil (gpu : GPUMemory) (device : DmaDevice) (granularity : ℕ) :
    RegistersAll gpu device granularity [] ⟨true, [], gpu⟩ where
  ok := rfl
  maxIOsizes := rfl
  tensors_eq := rfl
  built := fun _ hr => absurd hr List.not_mem_nil
  nextContext := rfl
  numbers := rfl
  contexts := rfl
  found := HostMappings.Extends.refl _

/-- Two calls, one after the other. -/
theorem RegistersAll.append {gpu : GPUMemory} {device : DmaDevice} {granularity : ℕ} {tensors tensors' : List Tensor}
    {result result' : RegisterResult} (h : RegistersAll gpu device granularity tensors result)
    (h' : RegistersAll result.gpu device granularity tensors' result') :
    RegistersAll gpu device granularity (tensors ++ tensors')
      ⟨result'.ok, result.created ++ result'.created, result'.gpu⟩ where
  ok := h'.ok
  maxIOsizes := h'.maxIOsizes.trans h.maxIOsizes
  tensors_eq := by rw [List.map_append, h.tensors_eq, h'.tensors_eq]
  built := by
    intro r hr
    rcases List.mem_append.mp hr with hr | hr
    · exact h.built r hr
    · rw [← h.maxIOsizes]
      exact h'.built r hr
  nextContext := by rw [h'.nextContext, h.nextContext, List.length_append, Nat.add_assoc]
  numbers := by
    rw [List.map_append, h.numbers, h'.numbers, h.nextContext, List.length_append, List.range'_append_1]
  contexts := by rw [h'.contexts, h.contexts, List.foldl_append]
  found := by
    rw [List.flatMap_append]
    exact h.found.trans h'.found

/-! ### One tensor after the other -/

/-- A device with enough memory has it for all granules. -/
theorem addPRPMappings_succeeds (groups : List GranularitySliceGroup) (i : ℕ) (host : HostMappings) :
    ∃ host', addPRPMappings (fun _ => true) groups i host = (true, host') := by
  induction groups generalizing i host with
  | nil => exact ⟨host, rfl⟩
  | cons group groups ih =>
      rw [addPRPMappings]
      by_cases hempty : group.prpMappings = []
      · rw [if_pos hempty]
        exact ih (i + 1) host
      · rw [if_neg hempty, if_pos rfl]
        exact ih (i + 1) _

theorem addPRPMappingsToGPU_succeeds {dma : DmaContext} (host : HostMappings) (h : dma.granularityGroups ≠ []) :
    ∃ host', addPRPMappingsToGPU (fun _ => true) dma host = (true, host') := by
  rw [addPRPMappingsToGPU, if_neg h]
  exact addPRPMappings_succeeds _ 0 host

/-- A context that is built has a granule. -/
theorem BuiltBy.granularityGroups_ne_nil {nvmeControllers : List (Option ℕ)} {device : DmaDevice} {granularity : ℕ}
    {r : Registration} (h : BuiltBy nvmeControllers device granularity r) : r.dma.granularityGroups ≠ [] := by
  obtain ⟨sliced, -, hbuilt⟩ := h.built
  obtain ⟨hne, hptrs, -⟩ := initializePRPEntries_granules hbuilt
  intro hnil
  rw [DmaContext.granules, hnil, List.map_nil, List.map_nil, eq_comm, List.map_eq_nil_iff] at hptrs
  exact hne hptrs

namespace GPUMemory

variable {gpu : GPUMemory} {device : DmaDevice} {granularity : ℕ} {tensor : Tensor}

theorem prpListSize_eq {sliced : DmaContext}
    (h : performDMASlicing gpu.maxIOsizes tensor.dataPtr tensor.nbytes granularity = some sliced) :
    gpu.prpListSize tensor granularity = getPrpListSize sliced := by
  rw [prpListSize, h, Option.map_some, Option.getD_some]

/-- **A context is created** where one can be. -/
theorem createDMAContext_of_canCreate (hcontrollers : AcceptedControllers gpu.maxIOsizes)
    (hvalid : tensor.validate = true) (hgranularity : ¬(0 < granularity ∧ granularity % 4096 ≠ 0))
    (h : gpu.CanCreate tensor.nbytes granularity) :
    ∃ dma host, gpu.createDMAContext tensor granularity (gpu.supply device granularity [tensor]) =
        (some dma, host) ∧
      BuiltBy gpu.maxIOsizes device granularity ⟨gpu.nextContext, tensor, granularity, dma⟩ := by
  obtain ⟨hfirst, hsome, hne⟩ := h
  obtain ⟨sliced, dma, hsliced, hdma⟩ := @exists_built _ device _ _ hcontrollers hsome hvalid hgranularity hne
    gpu.nextContext
  have hbuilt : BuiltBy gpu.maxIOsizes device granularity ⟨gpu.nextContext, tensor, granularity, dma⟩ :=
    ⟨rfl, sliced, hsliced, hdma⟩
  have hpages : (gpu.supply device granularity [tensor]).type2Ioaddrs 0 =
      device.prpPages gpu.nextContext (getPrpListSize sliced) := by
    rw [← prpListSize_eq hsliced]
    rfl
  have hio : (gpu.supply device granularity [tensor]).ioaddrs 0 = some (device.ioaddrs tensor) := rfl
  obtain ⟨host, hadd⟩ := addPRPMappingsToGPU_succeeds gpu.hostMappings hbuilt.granularityGroups_ne_nil
  have hmapped : (gpu.supply device granularity [tensor]).mapped 0 = fun _ => true := rfl
  refine ⟨dma, host, ?_, hbuilt⟩
  rw [createDMAContext, hfirst, hio, hpages, hmapped]
  simp only [hsliced, hdma, hadd, Option.bind_eq_bind, Option.bind_some, Bool.not_true, Bool.false_eq_true, if_false]

/-- No context is created where none can be. -/
theorem createDMAContext_of_not_canCreate (h : ¬gpu.CanCreate tensor.nbytes granularity) (supply : DmaSupply) :
    gpu.createDMAContext tensor granularity supply = (none, gpu.hostMappings) := by
  rw [createDMAContext]
  cases hfirst : gpu.hasFirstController with
  | false => rfl
  | true =>
      rw [if_neg (by simp)]
      cases supply.ioaddrs 0 with
      | none => rfl
      | some ioaddrs =>
          have hnone : (performDMASlicing gpu.maxIOsizes tensor.dataPtr tensor.nbytes granularity >>=
              initializePRPEntries ioaddrs (supply.type2Ioaddrs 0)) = none := by
            cases hsliced : performDMASlicing gpu.maxIOsizes tensor.dataPtr tensor.nbytes granularity with
            | none => rfl
            | some sliced =>
                have hsome := minMaxIoSize_ne_of_performDMASlicing hsliced
                have hempty : 0 < granularity ∧ tensor.nbytes = 0 := by
                  by_contra hne
                  exact h ⟨hfirst, hsome, hne⟩
                exact initializePRPEntries_eq_none hsliced hempty
          simp only [hnone]

/-- A tensor that is registered already is left as it is. -/
theorem registerTensorMemory_registered {granularity : UInt64} (hvalid : tensor.validate = true)
    (hgranularity : ¬(0 < granularity.toNat ∧ granularity.toNat % 4096 ≠ 0))
    (h : gpu.dmaContexts tensor.dataPtr ≠ none) (supply : DmaSupply) :
    gpu.registerTensorMemory tensor granularity supply = ⟨true, [], gpu⟩ := by
  have hinvalid : ¬(!tensor.validate) = true := by
    rw [hvalid]
    exact Bool.false_ne_true
  rw [registerTensorMemory, if_neg hinvalid, if_neg hgranularity, if_pos (Option.isSome_iff_ne_none.mpr h)]

/-- **One tensor is registered** where a context can be created. -/
theorem registerTensorMemory_registers {granularity : UInt64} (hcontrollers : AcceptedControllers gpu.maxIOsizes)
    (hvalid : tensor.validate = true) (hgranularity : ¬(0 < granularity.toNat ∧ granularity.toNat % 4096 ≠ 0))
    (hnew : gpu.dmaContexts tensor.dataPtr = none) (h : gpu.CanCreate tensor.nbytes granularity.toNat) :
    RegistersAll gpu device granularity.toNat [tensor]
      (gpu.registerTensorMemory tensor granularity (gpu.supply device granularity.toNat [tensor])) := by
  obtain ⟨dma, host, hcreate, hbuilt⟩ := @createDMAContext_of_canCreate _ device _ _ hcontrollers hvalid
    hgranularity h
  obtain ⟨-, hfound⟩ := createDMAContext_spec hcreate
  have hinvalid : ¬(!tensor.validate) = true := by
    rw [hvalid]
    exact Bool.false_ne_true
  have hregistered : ¬(gpu.dmaContexts tensor.dataPtr).isSome = true := by
    rw [hnew]
    exact Bool.false_ne_true
  rw [registerTensorMemory, if_neg hinvalid, if_neg hgranularity, if_neg hregistered, hcreate]
  refine ⟨rfl, rfl, rfl, ?_, rfl, rfl, rfl, ?_⟩
  · intro r hr
    rw [List.mem_singleton.mp hr]
    exact hbuilt
  · rw [List.flatMap_singleton]
    exact hfound

end GPUMemory

/-- Tensors that start at some addresses may be left out before. -/
theorem uncovered_filter (granularity : ℕ) (tensors : List Tensor) (ptrs ptrs' : List ℕ) :
    uncovered granularity (tensors.filter fun tensor => decide (tensor.dataPtr ∉ ptrs)) ptrs' =
      uncovered granularity tensors (ptrs ++ ptrs') := by
  induction tensors generalizing ptrs' with
  | nil => rfl
  | cons tensor tensors ih =>
      by_cases hfirst : tensor.dataPtr ∈ ptrs
      · rw [List.filter_cons_of_neg (by simpa using hfirst), ih, uncovered,
          if_pos (List.mem_append_left _ hfirst)]
      · rw [List.filter_cons_of_pos (by simpa using hfirst), uncovered, uncovered]
        by_cases hstart : tensor.dataPtr ∈ ptrs'
        · rw [if_pos hstart, if_pos (List.mem_append_right _ hstart), ih]
        · have hnot : tensor.dataPtr ∉ ptrs ++ ptrs' :=
            fun hmem => (List.mem_append.mp hmem).elim hfirst hstart
          rw [if_neg hstart, if_neg hnot, ih, List.append_assoc]

namespace GPUMemory

variable {gpu : GPUMemory} {device : DmaDevice}

/-- After a registration, the tensors that start at its granules are registered. -/
theorem toRegister_putContext {gpu' : GPUMemory} {r : Registration}
    (h : gpu'.dmaContexts = putContext gpu.dmaContexts r) (tensors : List Tensor) :
    gpu'.toRegister tensors =
      (gpu.toRegister tensors).filter fun tensor => decide (tensor.dataPtr ∉ r.granulePtrs) := by
  rw [toRegister, toRegister, List.filter_filter, h]
  refine List.filter_congr fun tensor _ => ?_
  rw [putContext]
  by_cases hmem : tensor.dataPtr ∈ r.granulePtrs
  · simp [hmem]
  · simp [hmem]

theorem CanCreate.of_maxIOsizes_eq {gpu' : GPUMemory} {tensorSize granularity : ℕ}
    (h : gpu.CanCreate tensorSize granularity) (heq : gpu'.maxIOsizes = gpu.maxIOsizes) :
    gpu'.CanCreate tensorSize granularity := by
  rw [CanCreate, hasFirstController, heq]
  exact h

/-- **What is registered in turn**: each tensor that is not registered when its turn comes. -/
theorem registerInTurn_registers {granularity : UInt64}
    (hgranularity : ¬(0 < granularity.toNat ∧ granularity.toNat % 4096 ≠ 0)) (tensors : List Tensor)
    (hcontrollers : AcceptedControllers gpu.maxIOsizes) (hvalid : ∀ tensor ∈ tensors, tensor.validate = true)
    (hcan : ∀ tensor ∈ tensors, gpu.CanCreate tensor.nbytes granularity.toNat) :
    RegistersAll gpu device granularity.toNat (uncovered granularity.toNat (gpu.toRegister tensors) [])
      (registerInTurn device granularity tensors gpu) := by
  induction tensors generalizing gpu with
  | nil => exact RegistersAll.nil gpu device _
  | cons tensor tensors ih =>
      obtain ⟨hvalid₁, hvalids⟩ := List.forall_mem_cons.mp hvalid
      obtain ⟨hcan₁, hcans⟩ := List.forall_mem_cons.mp hcan
      rw [registerInTurn]
      by_cases hnew : gpu.dmaContexts tensor.dataPtr = none
      · have hone := @registerTensorMemory_registers gpu device tensor granularity hcontrollers hvalid₁ hgranularity
          hnew hcan₁
        rcases hcall : gpu.registerTensorMemory tensor granularity (gpu.supply device granularity.toNat [tensor])
          with ⟨ok, created, gpu'⟩
        rw [hcall] at hone
        obtain rfl : ok = true := hone.ok
        obtain ⟨r, rfl⟩ : ∃ r, created = [r] := by
          have hlength := congrArg List.length hone.tensors_eq
          rw [List.length_map] at hlength
          exact List.length_eq_one_iff.mp hlength
        obtain rfl : r.tensor = tensor := List.singleton_inj.mp hone.tensors_eq
        have hsizes : gpu'.maxIOsizes = gpu.maxIOsizes := hone.maxIOsizes
        have hrest := ih (by rw [hsizes]; exact hcontrollers) hvalids
          (fun t ht => (hcans t ht).of_maxIOsizes_eq hsizes)
        have hptrs : r.granulePtrs = r.tensor.granulePtrs granularity.toNat := by
          rw [← (hone.built r (List.mem_singleton_self r)).granularity_eq]
          rfl
        have hleft : gpu.toRegister (r.tensor :: tensors) = r.tensor :: gpu.toRegister tensors :=
          List.filter_cons_of_pos (by simp [hnew])
        rw [toRegister_putContext hone.contexts, uncovered_filter, List.append_nil, hptrs] at hrest
        rw [hleft, uncovered, if_neg List.not_mem_nil, List.nil_append]
        exact hone.append hrest
      · have hleft : gpu.toRegister (tensor :: tensors) = gpu.toRegister tensors :=
          List.filter_cons_of_neg (by simpa [Option.isSome_iff_ne_none] using hnew)
        rw [registerTensorMemory_registered hvalid₁ hgranularity hnew, hleft]
        exact ih hcontrollers hvalids hcans

/-- A call in turn fails if an argument does not pass the checks. -/
theorem registerInTurn_invalid {granularity : UInt64} {tensors : List Tensor} {tensor : Tensor}
    (hmem : tensor ∈ tensors)
    (h : tensor.validate = false ∨ (0 < granularity.toNat ∧ granularity.toNat % 4096 ≠ 0)) :
    (registerInTurn device granularity tensors gpu).ok = false := by
  induction tensors generalizing gpu with
  | nil => cases hmem
  | cons first tensors ih =>
      rw [registerInTurn]
      by_cases hok :
          (gpu.registerTensorMemory first granularity (gpu.supply device granularity.toNat [first])).ok = true
      · simp only [if_pos hok]
        rcases List.mem_cons.mp hmem with rfl | hmem
        · -- the call would have failed
          rw [registerTensorMemory] at hok
          rcases h with hinvalid | hgranularity
          · rw [if_pos (by rw [hinvalid]; rfl)] at hok
            cases hok
          · rw [if_pos hgranularity] at hok
            split_ifs at hok
        · exact ih hmem
      · simp only [if_neg hok]
        exact Bool.eq_false_iff.mpr hok

/-- A call in turn fails if a tensor is not registered and no context can be created. -/
theorem registerInTurn_not_canCreate {granularity : UInt64} {tensors : List Tensor}
    (hcan : ∀ tensor ∈ tensors, ¬gpu.CanCreate tensor.nbytes granularity.toNat)
    (hne : gpu.toRegister tensors ≠ []) : (registerInTurn device granularity tensors gpu).ok = false := by
  induction tensors with
  | nil => exact absurd rfl hne
  | cons tensor tensors ih =>
      obtain ⟨hcan₁, hcan⟩ := List.forall_mem_cons.mp hcan
      rw [registerInTurn]
      by_cases hok :
          (gpu.registerTensorMemory tensor granularity (gpu.supply device granularity.toNat [tensor])).ok = true
      · simp only [if_pos hok]
        rw [registerTensorMemory, createDMAContext_of_not_canCreate hcan₁] at hok ⊢
        by_cases hnew : gpu.dmaContexts tensor.dataPtr = none
        · rw [hnew] at hok
          split_ifs at hok with _ _ hsome
          cases hsome
        · -- the tensor is registered, and the next one is tried
          have hleft : gpu.toRegister (tensor :: tensors) = gpu.toRegister tensors :=
            List.filter_cons_of_neg (by simpa [Option.isSome_iff_ne_none] using hnew)
          rw [hleft] at hne
          split_ifs at hok ⊢
          exact ih hcan hne
      · simp only [if_neg hok]
        exact Bool.eq_false_iff.mpr hok

end GPUMemory

end GeminiFS
end InfiniKV
