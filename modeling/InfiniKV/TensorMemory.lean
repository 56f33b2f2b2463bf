/-
**Registering the memory of tensors.**

A GPU controller keeps two maps by address.  One has the DMA context of each granule of a tensor that is
registered; the other, in the memory mapper, has the PRP entries of the granule, in a chain of which only the
first part is ever looked at.  Both are filled when a tensor is registered, alone or in a list, and only the
first is cleared when it is unregistered.

A call can fail in its midst, and then leaves in the second map what it has put there.

Main definitions:

* `InfiniKV.GeminiFS.HostMappings`, `HostMappings.add` — the map of the memory mapper;
* `InfiniKV.GeminiFS.GPUMemory` — a controller, as far as memory is registered with it;
* `InfiniKV.GeminiFS.Registration` — a DMA context with the tensor it is for;
* `InfiniKV.GeminiFS.GPUMemory.registerTensorMemory`, `registerTesnsorList`, `unregisterTensorMemory`,
  `getPrpMappings` — the operations.

Main results:

* `InfiniKV.GeminiFS.addPRPMappings_found` — **what was found before is still found**, when entries are added;
* `InfiniKV.GeminiFS.GPUMemory.registerTensorMemory_enters`, `registerTesnsorList_enters` — what a
  registration does, whatever it returns;
* `InfiniKV.GeminiFS.GPUMemory.registerTesnsorList_eq_none` — when a list is read that is empty.
-/

import InfiniKV.BatchedXfer

set_option relaxedAutoImplicit false
set_option autoImplicit false

namespace InfiniKV
namespace GeminiFS

/-! ### The memory mapper -/

/-- `host_mappings_`: the chain of an address, which is empty if it has none. -/
def HostMappings : Type := ℕ → List (List PRPMappingEntry)

namespace HostMappings

/-- `addBatchMappings`, when the device has memory for the entries.  What follows the first part of a chain is
replaced. -/
def add (host : HostMappings) (tensorPtr : ℕ) (mappings : List PRPMappingEntry) : HostMappings :=
  fun ptr =>
    if ptr = tensorPtr then
      match host tensorPtr with
      | [] => [mappings]
      | head :: _ => [head, mappings]
    else host ptr

/-- `lookupMappings`, and the entries of what it finds. -/
def lookupMappings (host : HostMappings) (tensorPtr : ℕ) : Option (List PRPMappingEntry) :=
  (host tensorPtr).head?

end HostMappings

/-- The loop of `addPRPMappingsToGPU`, from the `i`-th granule on.  `mapped` says for which of them the device
has memory. -/
def addPRPMappings (mapped : ℕ → Bool) :
    List GranularitySliceGroup → ℕ → HostMappings → Bool × HostMappings
  | [], _, host => (true, host)
  | group :: groups, i, host =>
      if group.prpMappings = [] then addPRPMappings mapped groups (i + 1) host
      else if mapped i then
        addPRPMappings mapped groups (i + 1) (host.add group.gpuTensorPtr group.prpMappings)
      else (false, host)

/-- `addPRPMappingsToGPU`. -/
def addPRPMappingsToGPU (mapped : ℕ → Bool) (dma : DmaContext) (host : HostMappings) :
    Bool × HostMappings :=
  if dma.granularityGroups = [] then (false, host)
  else addPRPMappings mapped dma.granularityGroups 0 host

/-! ### The controller -/

/-- `GPU_PAGE_SIZE`. -/
def GPU_PAGE_SIZE : ℕ := 65536

/-- `validateTensor`, for a tensor on the device. -/
def Tensor.validate (tensor : Tensor) : Bool :=
  decide (tensor.dataPtr % GPU_PAGE_SIZE = 0) && decide (tensor.nbytes % GPU_PAGE_SIZE = 0)

/-- A DMA context, with the tensor and the granularity it was created for. -/
structure Registration where
  context : ℕ
  tensor : Tensor
  granularity : ℕ
  dma : DmaContext
  deriving DecidableEq

namespace Registration

/-- The addresses that get the DMA context.  The number of granules is rounded up in 64 bits. -/
def granulePtrs (r : Registration) : List ℕ :=
  if 0 < r.granularity then
    (List.range ((r.tensor.nbytes + r.granularity - 1) % 2 ^ 64 / r.granularity)).map fun i =>
      r.tensor.dataPtr + i * r.granularity
  else [r.tensor.dataPtr]

end Registration

/-- `GPUController`, as far as memory is registered with it: the I/O sizes of its NVMe controllers, where
`none` stands for one that is missing; the DMA contexts, which are numbered as they are created; and the map of
the memory mapper. -/
structure GPUMemory where
  maxIOsizes : List (Option ℕ)
  dmaContexts : ℕ → Option ℕ
  nextContext : ℕ
  hostMappings : HostMappings

/-- What the device gives to a call: the I/O addresses of each tensor, if it can be mapped, and of the pages
for its PRP lists; whether it has memory for the lists and the buffers of a list of tensors; and for which
granules of each tensor it has memory. -/
structure DmaSupply where
  ioaddrs : ℕ → Option (List ℕ)
  type2Ioaddrs : ℕ → List ℕ
  prpListMemory : Bool
  prpBuffers : Bool
  mapped : ℕ → ℕ → Bool

/-- The result of a registration: whether it succeeds, the DMA contexts that are new in the map, and the
controller. -/
structure RegisterResult where
  ok : Bool
  created : List Registration
  gpu : GPUMemory

/-- `getPrpListSize`: how many slices need a page for a list. -/
def getPrpListSize (dma : DmaContext) : ℕ :=
  (dma.granularityGroups.flatMap GranularitySliceGroup.subSlices).countP fun slice =>
    decide (PRP_SIZE_DUAL_PAGE < slice.size)

/-- `getPrpMappingSize`, in entries. -/
def getPrpMappingSize (dma : DmaContext) : ℕ :=
  (dma.granularityGroups.flatMap GranularitySliceGroup.prpMappings).length

/-- `doInitializePRPList`, which builds the entries of a context as `initializePRPEntries` does. -/
def doInitializePRPList (ioaddrs type2Ioaddrs : List ℕ) (prpListSize : ℕ) (dma : DmaContext) :
    Option DmaContext :=
  if getPrpListSize dma ≠ 0 ∧ getPrpListSize dma ≠ prpListSize then none
  else initializePRPEntries ioaddrs type2Ioaddrs dma

/-- The loop of `initializePRPList`, from the `i`-th context on.  A context comes with the I/O addresses of its
tensor. -/
def initializePRPListLoop (supply : DmaSupply) (prpListSize : ℕ) :
    List (List ℕ × DmaContext) → ℕ → Option (List DmaContext)
  | [], _ => some []
  | (ioaddrs, dma) :: rest, i => do
      let dma ← doInitializePRPList ioaddrs (supply.type2Ioaddrs i) prpListSize dma
      let dmas ← initializePRPListLoop supply prpListSize rest (i + 1)
      return dma :: dmas

/-- `initializePRPList`.  If no slice of the first context needs a list, no entries are built. -/
def initializePRPList (supply : DmaSupply) (sliced : List (List ℕ × DmaContext)) :
    Option (List DmaContext) :=
  match sliced with
  | [] => none
  | (_, first) :: _ =>
      if sliced.any fun ctx => decide (ctx.2.granularityGroups = []) then none
      else if getPrpListSize first = 0 then some (sliced.map Prod.snd)
      else if supply.prpListMemory then initializePRPListLoop supply (getPrpListSize first) sliced 0
      else none

/-- The last loop of `createDMAContexts`, from the `i`-th context on. -/
def addAllPRPMappings (supply : DmaSupply) : List DmaContext → ℕ → HostMappings → Bool × HostMappings
  | [], _, host => (true, host)
  | dma :: dmas, i, host =>
      match addPRPMappingsToGPU (supply.mapped i) dma host with
      | (true, host') => addAllPRPMappings supply dmas (i + 1) host'
      | (false, host') => (false, host')

namespace GPUMemory

variable (gpu : GPUMemory)

/-- There is a controller, and the first is not missing. -/
def hasFirstController : Bool :=
  match gpu.maxIOsizes with
  | some _ :: _ => true
  | _ => false

/-- `createDMAContext`: the context, unless it fails, and the map of the memory mapper. -/
def createDMAContext (tensor : Tensor) (granularity : ℕ) (supply : DmaSupply) :
    Option DmaContext × HostMappings :=
  if !gpu.hasFirstController then (none, gpu.hostMappings)
  else match supply.ioaddrs 0 with
    | none => (none, gpu.hostMappings)
    | some ioaddrs =>
        match performDMASlicing gpu.maxIOsizes tensor.dataPtr tensor.nbytes granularity >>=
            initializePRPEntries ioaddrs (supply.type2Ioaddrs 0) with
        | none => (none, gpu.hostMappings)
        | some dma =>
            match addPRPMappingsToGPU (supply.mapped 0) dma gpu.hostMappings with
            | (true, host) => (some dma, host)
            | (false, host) => (none, host)

/-- The first loop of `createDMAContexts`, from the `i`-th tensor on. -/
def sliceTensors (tensorSize granularity : ℕ) (supply : DmaSupply) :
    List Tensor → ℕ → Option (List (List ℕ × DmaContext))
  | [], _ => some []
  | tensor :: tensors, i => do
      let ioaddrs ← supply.ioaddrs i
      let dma ← performDMASlicing gpu.maxIOsizes tensor.dataPtr tensorSize granularity
      let rest ← sliceTensors tensorSize granularity supply tensors (i + 1)
      return (ioaddrs, dma) :: rest

/-- `createDMAContexts`, where `none` at the outside stands for the read from an empty vector.  The last two
checks are those that there are entries, and that there is memory for them. -/
def createDMAContexts (tensorList : List Tensor) (granularity : ℕ) (supply : DmaSupply) :
    Option (Option (List DmaContext) × HostMappings) :=
  match tensorList with
  | [] => none
  | first :: _ =>
      let tensorSize := first.nbytes
      if !tensorList.all fun tensor => decide (tensor.nbytes = tensorSize) then
        some (none, gpu.hostMappings)
      else if 0 < granularity ∧ granularity < tensorSize ∧ tensorSize % granularity ≠ 0 then
        some (none, gpu.hostMappings)
      else if !gpu.hasFirstController then some (none, gpu.hostMappings)
      else match gpu.sliceTensors tensorSize granularity supply tensorList 0 >>=
          initializePRPList supply with
        | none => some (none, gpu.hostMappings)
        | some dmas =>
            if getPrpMappingSize (dmas.headD ⟨0, []⟩) = 0 then some (none, gpu.hostMappings)
            else if !supply.prpBuffers then some (none, gpu.hostMappings)
            else match addAllPRPMappings supply dmas 0 gpu.hostMappings with
              | (true, host) => some (some dmas, host)
              | (false, host) => some (none, host)

/-- Enter the context of a registration for its granules. -/
def putContext (dmaContexts : ℕ → Option ℕ) (r : Registration) : ℕ → Option ℕ :=
  fun ptr => if ptr ∈ r.granulePtrs then some r.context else dmaContexts ptr

/-- `registerTensorMemory`. -/
def registerTensorMemory (tensor : Tensor) (granularity : UInt64) (supply : DmaSupply) : RegisterResult :=
  if !tensor.validate then ⟨false, [], gpu⟩
  else if 0 < granularity.toNat ∧ granularity.toNat % 4096 ≠ 0 then ⟨false, [], gpu⟩
  else if (gpu.dmaContexts tensor.dataPtr).isSome then ⟨true, [], gpu⟩
  else match gpu.createDMAContext tensor granularity.toNat supply with
    | (none, host) => ⟨false, [], { gpu with hostMappings := host }⟩
    | (some dma, host) =>
        let r : Registration := ⟨gpu.nextContext, tensor, granularity.toNat, dma⟩
        ⟨true, [r], { gpu with
          dmaContexts := putContext gpu.dmaContexts r
          nextContext := gpu.nextContext + 1
          hostMappings := host }⟩

/-- The contexts of several tensors. -/
def registrations (granularity : ℕ) : List Tensor → List DmaContext → ℕ → List Registration
  | tensor :: tensors, dma :: dmas, context =>
      ⟨context, tensor, granularity, dma⟩ :: registrations granularity tensors dmas (context + 1)
  | _, _, _ => []

/-- `registerTesnsorList`, where `none` stands for the undefined behaviour of `createDMAContexts`. -/
def registerTesnsorList (tensorList : List Tensor) (granularity : UInt64) (supply : DmaSupply) :
    Option RegisterResult :=
  if !tensorList.all Tensor.validate then some ⟨false, [], gpu⟩
  else if 0 < granularity.toNat ∧ granularity.toNat % 4096 ≠ 0 then some ⟨false, [], gpu⟩
  else
    let toRegister := tensorList.filter fun tensor => (gpu.dmaContexts tensor.dataPtr).isNone
    match gpu.createDMAContexts toRegister granularity.toNat supply with
    | none => none
    | some (none, host) => some ⟨false, [], { gpu with hostMappings := host }⟩
    | some (some dmas, host) =>
        if dmas = [] ∨ dmas.length ≠ toRegister.length then
          some ⟨false, [], { gpu with hostMappings := host }⟩
        else
          let rs := registrations granularity.toNat toRegister dmas gpu.nextContext
          some ⟨true, rs, { gpu with
            dmaContexts := rs.foldl putContext gpu.dmaContexts
            nextContext := gpu.nextContext + rs.length
            hostMappings := host }⟩

/-- `unregisterTensorMemory`.  The memory mapper is not told. -/
def unregisterTensorMemory (tensorPtr : ℕ) : Bool × GPUMemory :=
  match gpu.dmaContexts tensorPtr with
  | none => (false, gpu)
  | some context =>
      (true, { gpu with
        dmaContexts := fun ptr =>
          if gpu.dmaContexts ptr = some context then none else gpu.dmaContexts ptr })

/-- `get_prp_mappings`, where `none` stands for `false`. -/
def getPrpMappings (tensorPtr : ℕ) : Option (List PRPMappingEntry) :=
  if (gpu.dmaContexts tensorPtr).isSome then gpu.hostMappings.lookupMappings tensorPtr else none

end GPUMemory

/-! ### What is found in the memory mapper -/

/-- A granule: where it starts, and the entries that were built for it. -/
def GranularitySliceGroup.granule (group : GranularitySliceGroup) : ℕ × List PRPMappingEntry :=
  (group.gpuTensorPtr, group.prpMappings)

/-- The granules of a context. -/
def DmaContext.granules (dma : DmaContext) : List (ℕ × List PRPMappingEntry) :=
  dma.granularityGroups.map GranularitySliceGroup.granule

namespace HostMappings

/-- What is found for an address is found in another map too. -/
def Kept (host host' : HostMappings) : Prop :=
  ∀ ptr entries, host.lookupMappings ptr = some entries → host'.lookupMappings ptr = some entries

theorem Kept.refl (host : HostMappings) : Kept host host := fun _ _ h => h

theorem Kept.trans {host₁ host₂ host₃ : HostMappings} (h : Kept host₁ host₂) (h' : Kept host₂ host₃) :
    Kept host₁ host₃ :=
  fun ptr entries hfound => h' ptr entries (h ptr entries hfound)

/-- Another map finds what this one finds, and the granules of a list where this one finds nothing.  Of several
granules at one address the first one counts. -/
def Extends (host : HostMappings) (granules : List (ℕ × List PRPMappingEntry)) (host' : HostMappings) : Prop :=
  ∀ ptr, host'.lookupMappings ptr = (host.lookupMappings ptr).or (granules.lookup ptr)

variable {host host₁ host₂ host₃ : HostMappings} {granules granules' : List (ℕ × List PRPMappingEntry)}

theorem Extends.refl (host : HostMappings) : Extends host [] host := by
  intro ptr
  rw [List.lookup_nil, Option.or_none]

theorem Extends.trans (h : Extends host₁ granules host₂) (h' : Extends host₂ granules' host₃) :
    Extends host₁ (granules ++ granules') host₃ := by
  intro ptr
  rw [h' ptr, h ptr, List.lookup_append, Option.or_assoc]

theorem Extends.kept (h : Extends host₁ granules host₂) : Kept host₁ host₂ := by
  intro ptr entries hfound
  rw [h ptr, hfound, Option.some_or]

/-- An entry that is chained behind another is not found. -/
theorem extends_add (host : HostMappings) (granule : ℕ × List PRPMappingEntry) :
    Extends host [granule] (host.add granule.1 granule.2) := by
  intro ptr
  rw [lookupMappings, lookupMappings, add, List.lookup_cons, List.lookup_nil]
  rcases eq_or_ne ptr granule.1 with rfl | hne
  · cases hchain : host granule.1 with
    | nil => simp
    | cons head rest => simp
  · have hfalse : (ptr == granule.1) = false := beq_false_of_ne hne
    simp [hne, hfalse]

end HostMappings

open HostMappings

/-- **What was found before is still found**, when entries are added, also if the device runs out of memory. -/
theorem addPRPMappings_kept (mapped : ℕ → Bool) (groups : List GranularitySliceGroup) (i : ℕ)
    (host : HostMappings) : Kept host (addPRPMappings mapped groups i host).2 := by
  induction groups generalizing i host with
  | nil => exact Kept.refl host
  | cons group groups ih =>
      rw [addPRPMappings]
      split_ifs with hempty hmapped
      · exact ih (i + 1) host
      · exact (extends_add host group.granule).kept.trans (ih (i + 1) _)
      · exact Kept.refl host

/-- If the device has memory for all granules, then all of them are added. -/
theorem addPRPMappings_extends {mapped : ℕ → Bool} (groups : List GranularitySliceGroup) (i : ℕ)
    {host : HostMappings} (hne : ∀ group ∈ groups, group.prpMappings ≠ [])
    (htrue : (addPRPMappings mapped groups i host).1 = true) :
    Extends host (groups.map GranularitySliceGroup.granule) (addPRPMappings mapped groups i host).2 := by
  induction groups generalizing i host with
  | nil => exact Extends.refl host
  | cons group groups ih =>
      have hrest : ∀ g ∈ groups, g.prpMappings ≠ [] := fun g hg => hne g (List.mem_cons_of_mem _ hg)
      rw [addPRPMappings, if_neg (hne group List.mem_cons_self)] at htrue ⊢
      by_cases hmapped : mapped i = true
      · rw [if_pos hmapped] at htrue ⊢
        exact (extends_add host group.granule).trans (ih (i + 1) hrest htrue)
      · rw [if_neg hmapped] at htrue
        cases htrue

theorem addPRPMappingsToGPU_kept (mapped : ℕ → Bool) (dma : DmaContext) (host : HostMappings) :
    Kept host (addPRPMappingsToGPU mapped dma host).2 := by
  rw [addPRPMappingsToGPU]
  split_ifs
  · exact Kept.refl host
  · exact addPRPMappings_kept mapped _ 0 host

theorem addPRPMappingsToGPU_extends {mapped : ℕ → Bool} {dma : DmaContext} {host : HostMappings}
    (hne : ∀ group ∈ dma.granularityGroups, group.prpMappings ≠ [])
    (htrue : (addPRPMappingsToGPU mapped dma host).1 = true) :
    Extends host dma.granules (addPRPMappingsToGPU mapped dma host).2 := by
  rw [addPRPMappingsToGPU] at htrue ⊢
  split_ifs at htrue ⊢
  exact addPRPMappings_extends _ 0 hne htrue

theorem addAllPRPMappings_kept (supply : DmaSupply) (dmas : List DmaContext) (i : ℕ) (host : HostMappings) :
    Kept host (addAllPRPMappings supply dmas i host).2 := by
  induction dmas generalizing i host with
  | nil => exact Kept.refl host
  | cons dma dmas ih =>
      have hone := addPRPMappingsToGPU_kept (supply.mapped i) dma host
      rw [addAllPRPMappings]
      rcases hadd : addPRPMappingsToGPU (supply.mapped i) dma host with ⟨ok, host'⟩
      rw [hadd] at hone
      cases ok with
      | false => exact hone
      | true => exact hone.trans (ih (i + 1) host')

theorem addAllPRPMappings_extends {supply : DmaSupply} (dmas : List DmaContext) (i : ℕ) {host : HostMappings}
    (hne : ∀ dma ∈ dmas, ∀ group ∈ dma.granularityGroups, group.prpMappings ≠ [])
    (htrue : (addAllPRPMappings supply dmas i host).1 = true) :
    Extends host (dmas.flatMap DmaContext.granules) (addAllPRPMappings supply dmas i host).2 := by
  induction dmas generalizing i host with
  | nil => exact Extends.refl host
  | cons dma dmas ih =>
      have hone : (addPRPMappingsToGPU (supply.mapped i) dma host).1 = true →
          Extends host dma.granules (addPRPMappingsToGPU (supply.mapped i) dma host).2 :=
        addPRPMappingsToGPU_extends (hne dma List.mem_cons_self)
      rw [addAllPRPMappings] at htrue ⊢
      rcases hadd : addPRPMappingsToGPU (supply.mapped i) dma host with ⟨ok, host'⟩
      rw [hadd] at hone htrue
      cases ok with
      | false => cases htrue
      | true =>
          rw [List.flatMap_cons]
          exact (hone rfl).trans (ih (i + 1) (fun d hd => hne d (List.mem_cons_of_mem _ hd)) htrue)

/-! ### What is built for a tensor -/

/-- Where the granules of a tensor start.  Without a granularity the tensor is one granule. -/
def Tensor.granuleStarts (tensor : Tensor) (granularity : ℕ) : List ℕ :=
  if 0 < granularity then
    (List.range (tensor.nbytes ⌈/⌉ granularity)).map fun i => tensor.dataPtr + i * granularity
  else [tensor.dataPtr]

/-- A context for a tensor: there is a granule for each place where one starts, and it has entries. -/
structure BuiltFor (tensor : Tensor) (granularity : ℕ) (dma : DmaContext) : Prop where
  starts : dma.granules.map Prod.fst = tensor.granuleStarts granularity
  ptr_mem : tensor.dataPtr ∈ tensor.granuleStarts granularity
  entries : ∀ group ∈ dma.granularityGroups, group.prpMappings ≠ []

theorem cutGranule_ne_nil (minMaxIo size offset : ℕ) : cutGranule minMaxIo size offset ≠ [] := by
  rw [cutGranule]
  split_ifs with hle
  · exact List.cons_ne_nil _ _
  · obtain ⟨n, rfl⟩ : ∃ n, size = n + 1 := ⟨size - 1, by omega⟩
    rw [Tiling.cut, Tiling.cutLoop, if_neg (Nat.succ_ne_zero n)]
    exact List.cons_ne_nil _ _

/-- The granules of a tensor that is cut, and their slices. -/
theorem performDMASlicing_starts {nvmeControllers : List (Option ℕ)} {tensor : Tensor} {granularity : ℕ}
    {dma : DmaContext}
    (hdma : performDMASlicing nvmeControllers tensor.dataPtr tensor.nbytes granularity = some dma) :
    dma.granularityGroups.map GranularitySliceGroup.gpuTensorPtr = tensor.granuleStarts granularity ∧
      ∀ group ∈ dma.granularityGroups, group.subSlices ≠ [] := by
  simp only [performDMASlicing] at hdma
  split_ifs at hdma with hnone hpos
  · cases hdma
    refine ⟨?_, ?_⟩
    · rw [Tensor.granuleStarts, if_pos hpos, Tiling.cut_eq hpos, List.map_map, List.map_map]
      rfl
    · intro group hgroup
      obtain ⟨piece, -, rfl⟩ := List.mem_map.mp hgroup
      exact cutGranule_ne_nil _ _ _
  · cases hdma
    refine ⟨?_, ?_⟩
    · rw [Tensor.granuleStarts, if_neg hpos]
      rfl
    · intro group hgroup
      rw [List.mem_singleton.mp hgroup]
      exact cutGranule_ne_nil _ _ _

theorem initializePRPGroups_ptrs {ioaddrs type2Ioaddrs : List ℕ} (groups : List GranularitySliceGroup)
    {c c' : PrpCursor} {out : List GranularitySliceGroup}
    (h : initializePRPGroups ioaddrs type2Ioaddrs groups c = some (out, c')) :
    out.map GranularitySliceGroup.gpuTensorPtr = groups.map GranularitySliceGroup.gpuTensorPtr := by
  induction groups generalizing c out with
  | nil =>
      simp only [initializePRPGroups, Option.some.injEq, Prod.mk.injEq] at h
      rw [← h.1]
  | cons group rest ih =>
      simp only [initializePRPGroups, Option.bind_eq_bind, Option.bind_eq_some_iff] at h
      obtain ⟨⟨entries, c₁⟩, -, ⟨out', c₂⟩, hrest, heq⟩ := h
      cases heq
      rw [List.map_cons, List.map_cons, ih hrest]

/-- The granules keep their places when their entries are built, and each slice gets an entry. -/
theorem initializePRPEntries_granules {ioaddrs type2Ioaddrs : List ℕ} {dma out : DmaContext}
    (h : initializePRPEntries ioaddrs type2Ioaddrs dma = some out) :
    dma.granularityGroups ≠ [] ∧
      out.granules.map Prod.fst = dma.granularityGroups.map GranularitySliceGroup.gpuTensorPtr ∧
      ((∀ group ∈ dma.granularityGroups, group.subSlices ≠ []) →
        ∀ group ∈ out.granularityGroups, group.prpMappings ≠ []) := by
  have hlengths := initializePRPEntries_lengths h
  simp only [initializePRPEntries] at h
  split_ifs at h with hempty
  obtain ⟨⟨groups, c⟩, hgroups, rfl⟩ := Option.map_eq_some_iff.mp h
  refine ⟨hempty, ?_, ?_⟩
  · rw [← initializePRPGroups_ptrs _ hgroups, DmaContext.granules, List.map_map]
    rfl
  · intro hslices group hgroup hnil
    obtain ⟨group₀, hgroup₀, -, hlength⟩ := hlengths group hgroup
    rw [hnil, List.map_nil, eq_comm, List.map_eq_nil_iff] at hlength
    exact hslices group₀ hgroup₀ hlength

/-- **What is built for a tensor** that is cut and whose entries are made. -/
theorem BuiltFor.of_initializePRPEntries {nvmeControllers : List (Option ℕ)} {tensor : Tensor}
    {granularity : ℕ} {ioaddrs type2Ioaddrs : List ℕ} {dma out : DmaContext}
    (hdma : performDMASlicing nvmeControllers tensor.dataPtr tensor.nbytes granularity = some dma)
    (hout : initializePRPEntries ioaddrs type2Ioaddrs dma = some out) : BuiltFor tensor granularity out := by
  obtain ⟨hstarts, hslices⟩ := performDMASlicing_starts hdma
  obtain ⟨hempty, hptrs, hentries⟩ := initializePRPEntries_granules hout
  refine ⟨hptrs.trans hstarts, ?_, hentries hslices⟩
  have hne : tensor.granuleStarts granularity ≠ [] := by
    rw [← hstarts, Ne, List.map_eq_nil_iff]
    exact hempty
  rw [Tensor.granuleStarts] at hne ⊢
  split_ifs at hne ⊢ with hpos
  · -- the first granule starts where the tensor does
    refine List.mem_map.mpr ⟨0, ?_, by rw [Nat.zero_mul, Nat.add_zero]⟩
    rw [List.mem_range]
    exact Nat.pos_of_ne_zero fun hzero => hne (by rw [hzero, List.range_zero, List.map_nil])
  · exact List.mem_singleton_self _

namespace GPUMemory

variable {gpu : GPUMemory} {tensor : Tensor} {granularity : ℕ} {supply : DmaSupply}

theorem createDMAContext_kept (gpu : GPUMemory) (tensor : Tensor) (granularity : ℕ) (supply : DmaSupply) :
    Kept gpu.hostMappings (gpu.createDMAContext tensor granularity supply).2 := by
  rw [createDMAContext]
  split_ifs
  · exact Kept.refl _
  · cases supply.ioaddrs 0 with
    | none => exact Kept.refl _
    | some ioaddrs =>
        simp only
        cases hdma : performDMASlicing gpu.maxIOsizes tensor.dataPtr tensor.nbytes granularity >>=
            initializePRPEntries ioaddrs (supply.type2Ioaddrs 0) with
        | none => exact Kept.refl _
        | some dma =>
            have hkept := addPRPMappingsToGPU_kept (supply.mapped 0) dma gpu.hostMappings
            simp only
            rcases hadd : addPRPMappingsToGPU (supply.mapped 0) dma gpu.hostMappings with ⟨ok, host⟩
            rw [hadd] at hkept
            cases ok with
            | true => exact hkept
            | false => exact hkept

/-- **A context that is created** is built for its tensor, and its granules are added. -/
theorem createDMAContext_spec {dma : DmaContext} {host : HostMappings}
    (h : gpu.createDMAContext tensor granularity supply = (some dma, host)) :
    BuiltFor tensor granularity dma ∧ Extends gpu.hostMappings dma.granules host := by
  rw [createDMAContext] at h
  split_ifs at h
  · cases h
  · cases hio : supply.ioaddrs 0 with
    | none =>
        rw [hio] at h
        cases h
    | some ioaddrs =>
        simp only [hio] at h
        cases hdma : performDMASlicing gpu.maxIOsizes tensor.dataPtr tensor.nbytes granularity >>=
            initializePRPEntries ioaddrs (supply.type2Ioaddrs 0) with
        | none =>
            rw [hdma] at h
            cases h
        | some out =>
            simp only [hdma] at h
            rcases hadd : addPRPMappingsToGPU (supply.mapped 0) out gpu.hostMappings with ⟨ok, host'⟩
            rw [hadd] at h
            cases ok with
            | false => cases h
            | true =>
                cases h
                obtain ⟨sliced, hsliced, hout⟩ := Option.bind_eq_some_iff.mp hdma
                have hbuilt := BuiltFor.of_initializePRPEntries hsliced hout
                refine ⟨hbuilt, ?_⟩
                have hext := addPRPMappingsToGPU_extends hbuilt.entries (congrArg Prod.fst hadd)
                rw [hadd] at hext
                exact hext

/-! ### The contexts of a list of tensors -/

/-- The tensors of a list are cut one by one. -/
theorem sliceTensors_spec {tensorSize : ℕ} (tensors : List Tensor) (i : ℕ)
    {sliced : List (List ℕ × DmaContext)}
    (h : gpu.sliceTensors tensorSize granularity supply tensors i = some sliced) :
    List.Forall₂ (fun tensor ctx =>
      performDMASlicing gpu.maxIOsizes tensor.dataPtr tensorSize granularity = some ctx.2) tensors sliced := by
  induction tensors generalizing i sliced with
  | nil =>
      cases h
      exact List.Forall₂.nil
  | cons tensor tensors ih =>
      simp only [sliceTensors, Option.bind_eq_bind, Option.bind_eq_some_iff] at h
      obtain ⟨ioaddrs, -, dma, hdma, rest, hrest, heq⟩ := h
      cases heq
      exact List.Forall₂.cons hdma (ih (i + 1) hrest)

end GPUMemory

/-- The entries of the contexts of a list are built one by one. -/
theorem initializePRPListLoop_spec {supply : DmaSupply} {prpListSize : ℕ}
    (sliced : List (List ℕ × DmaContext)) (i : ℕ) {dmas : List DmaContext}
    (h : initializePRPListLoop supply prpListSize sliced i = some dmas) :
    List.Forall₂ (fun ctx dma =>
      ∃ ioaddrs type2Ioaddrs, initializePRPEntries ioaddrs type2Ioaddrs ctx.2 = some dma) sliced dmas := by
  induction sliced generalizing i dmas with
  | nil =>
      cases h
      exact List.Forall₂.nil
  | cons ctx rest ih =>
      rcases ctx with ⟨ioaddrs, sliced⟩
      simp only [initializePRPListLoop, Option.bind_eq_bind, Option.bind_eq_some_iff] at h
      obtain ⟨dma, hdma, dmas', hrest, heq⟩ := h
      cases heq
      rw [doInitializePRPList] at hdma
      split_ifs at hdma
      exact List.Forall₂.cons ⟨ioaddrs, _, hdma⟩ (ih (i + 1) hrest)

/-- A context has no entries when it is cut. -/
theorem getPrpMappingSize_performDMASlicing {nvmeControllers : List (Option ℕ)}
    {vaddr tensorSize granularity : ℕ} {dma : DmaContext}
    (hdma : performDMASlicing nvmeControllers vaddr tensorSize granularity = some dma) :
    getPrpMappingSize dma = 0 := by
  simp only [performDMASlicing] at hdma
  split_ifs at hdma <;> cases hdma <;>
    simp [getPrpMappingSize, sliceGroup, List.flatMap_map]

/-- Where the first context has entries in the end, those of all contexts have been built. -/
theorem initializePRPList_spec {supply : DmaSupply} {sliced : List (List ℕ × DmaContext)}
    {dmas : List DmaContext} (h : initializePRPList supply sliced = some dmas)
    (hcut : ∀ ctx ∈ sliced, getPrpMappingSize ctx.2 = 0) (hsize : getPrpMappingSize (dmas.headD ⟨0, []⟩) ≠ 0) :
    List.Forall₂ (fun ctx dma =>
      ∃ ioaddrs type2Ioaddrs, initializePRPEntries ioaddrs type2Ioaddrs ctx.2 = some dma) sliced dmas := by
  cases sliced with
  | nil => cases h
  | cons ctx rest =>
      simp only [initializePRPList] at h
      split_ifs at h with hempty hlist hmemory
      · cases h
        exact absurd (hcut ctx List.mem_cons_self) hsize
      · exact initializePRPListLoop_spec _ 0 h

/-- Contexts that are cut, each for its tensor, and then built. -/
theorem BuiltFor.forall₂ {nvmeControllers : List (Option ℕ)} {tensorSize granularity : ℕ}
    {tensors : List Tensor} {sliced : List (List ℕ × DmaContext)} {dmas : List DmaContext}
    (hcut : List.Forall₂ (fun tensor ctx =>
      performDMASlicing nvmeControllers tensor.dataPtr tensorSize granularity = some ctx.2) tensors sliced)
    (hbuilt : List.Forall₂ (fun ctx dma =>
      ∃ ioaddrs type2Ioaddrs, initializePRPEntries ioaddrs type2Ioaddrs ctx.2 = some dma) sliced dmas)
    (hsizes : ∀ tensor ∈ tensors, tensor.nbytes = tensorSize) :
    List.Forall₂ (fun tensor dma => BuiltFor tensor granularity dma) tensors dmas := by
  induction hcut generalizing dmas with
  | nil =>
      cases hbuilt
      exact List.Forall₂.nil
  | cons hdma hcut ih =>
      cases hbuilt with
      | cons hout hbuilt =>
          obtain ⟨ioaddrs, type2Ioaddrs, hout⟩ := hout
          obtain ⟨hsize, hsizes⟩ := List.forall_mem_cons.mp hsizes
          rw [← hsize] at hdma
          exact List.Forall₂.cons (BuiltFor.of_initializePRPEntries hdma hout) (ih hbuilt hsizes)

/-- What holds of the pairs of two lists holds of each entry of the second one, with one of the first. -/
theorem forall₂_right {α β : Type} {R : α → β → Prop} {as : List α} {bs : List β} (h : List.Forall₂ R as bs) :
    ∀ b ∈ bs, ∃ a ∈ as, R a b := by
  induction h with
  | nil => simp
  | @cons a b as bs hab h ih =>
      intro b' hb'
      rcases List.mem_cons.mp hb' with rfl | hb'
      · exact ⟨a, List.mem_cons_self, hab⟩
      · obtain ⟨a', ha', hR⟩ := ih b' hb'
        exact ⟨a', List.mem_cons_of_mem _ ha', hR⟩

namespace GPUMemory

variable {gpu : GPUMemory} {granularity : ℕ} {supply : DmaSupply}

/-- **How contexts are created for a list**: either one of the checks fails, and nothing is added; or the
tensors are cut, the entries of all contexts are built, and their granules are added. -/
theorem createDMAContexts_cases {tensorList : List Tensor} {result : Option (List DmaContext)}
    {host : HostMappings}
    (h : gpu.createDMAContexts tensorList granularity supply = some (result, host)) :
    (result = none ∧ host = gpu.hostMappings) ∨
      ∃ tensorSize sliced dmas, (∀ tensor ∈ tensorList, tensor.nbytes = tensorSize) ∧
        gpu.sliceTensors tensorSize granularity supply tensorList 0 = some sliced ∧
        initializePRPList supply sliced = some dmas ∧ getPrpMappingSize (dmas.headD ⟨0, []⟩) ≠ 0 ∧
        (∀ dmas', result = some dmas' →
          dmas' = dmas ∧ (addAllPRPMappings supply dmas 0 gpu.hostMappings).1 = true) ∧
        host = (addAllPRPMappings supply dmas 0 gpu.hostMappings).2 := by
  cases tensorList with
  | nil => cases h
  | cons first rest =>
      simp only [createDMAContexts] at h
      by_cases hsizes : (!(first :: rest).all fun tensor => decide (tensor.nbytes = first.nbytes)) = true
      · rw [if_pos hsizes] at h
        cases h
        exact .inl ⟨rfl, rfl⟩
      rw [if_neg hsizes] at h
      by_cases halign : 0 < granularity ∧ granularity < first.nbytes ∧ first.nbytes % granularity ≠ 0
      · rw [if_pos halign] at h
        cases h
        exact .inl ⟨rfl, rfl⟩
      rw [if_neg halign] at h
      by_cases hcontroller : (!gpu.hasFirstController) = true
      · rw [if_pos hcontroller] at h
        cases h
        exact .inl ⟨rfl, rfl⟩
      rw [if_neg hcontroller] at h
      cases hdmas : gpu.sliceTensors first.nbytes granularity supply (first :: rest) 0 >>=
          initializePRPList supply with
      | none =>
          rw [hdmas] at h
          cases h
          exact .inl ⟨rfl, rfl⟩
      | some dmas =>
          simp only [hdmas] at h
          by_cases hsize : getPrpMappingSize (dmas.headD ⟨0, []⟩) = 0
          · rw [if_pos hsize] at h
            cases h
            exact .inl ⟨rfl, rfl⟩
          rw [if_neg hsize] at h
          by_cases hbuffers : (!supply.prpBuffers) = true
          · rw [if_pos hbuffers] at h
            cases h
            exact .inl ⟨rfl, rfl⟩
          rw [if_neg hbuffers] at h
          obtain ⟨sliced, hsliced, hlist⟩ := Option.bind_eq_some_iff.mp hdmas
          refine .inr ⟨first.nbytes, sliced, dmas, by simpa using hsizes, hsliced, hlist, hsize, ?_⟩
          rcases hadd : addAllPRPMappings supply dmas 0 gpu.hostMappings with ⟨ok, host'⟩
          rw [hadd] at h
          cases ok with
          | true =>
              cases h
              refine ⟨?_, rfl⟩
              rintro dmas' ⟨⟩
              exact ⟨rfl, rfl⟩
          | false =>
              cases h
              refine ⟨?_, rfl⟩
              rintro dmas' ⟨⟩

theorem createDMAContexts_kept {tensorList : List Tensor} {result : Option (List DmaContext)}
    {host : HostMappings}
    (h : gpu.createDMAContexts tensorList granularity supply = some (result, host)) :
    Kept gpu.hostMappings host := by
  obtain ⟨-, rfl⟩ | ⟨tensorSize, sliced, dmas, -, -, -, -, -, rfl⟩ := createDMAContexts_cases h
  · exact Kept.refl _
  · exact addAllPRPMappings_kept supply dmas 0 _

/-- **The contexts that are created for a list** are built each for its tensor, and all their granules are
added. -/
theorem createDMAContexts_spec {tensorList : List Tensor} {dmas : List DmaContext} {host : HostMappings}
    (h : gpu.createDMAContexts tensorList granularity supply = some (some dmas, host)) :
    List.Forall₂ (fun tensor dma => BuiltFor tensor granularity dma) tensorList dmas ∧
      Extends gpu.hostMappings (dmas.flatMap DmaContext.granules) host := by
  obtain ⟨hnone, -⟩ | ⟨tensorSize, sliced, dmas', hsizes, hsliced, hlist, hsize, hresult, rfl⟩ :=
    createDMAContexts_cases h
  · cases hnone
  · obtain ⟨rfl, htrue⟩ := hresult dmas rfl
    have hcut := sliceTensors_spec _ 0 hsliced
    have hnone : ∀ ctx ∈ sliced, getPrpMappingSize ctx.2 = 0 := by
      intro ctx hctx
      obtain ⟨tensor, -, hdma⟩ := forall₂_right hcut ctx hctx
      exact getPrpMappingSize_performDMASlicing hdma
    have hbuilt := BuiltFor.forall₂ hcut (initializePRPList_spec hlist hnone hsize) hsizes
    have hentries : ∀ dma ∈ dmas, ∀ group ∈ dma.granularityGroups, group.prpMappings ≠ [] := by
      intro dma hdma
      obtain ⟨tensor, -, hfor⟩ := forall₂_right hbuilt dma hdma
      exact hfor.entries
    exact ⟨hbuilt, addAllPRPMappings_extends dmas 0 hentries htrue⟩

/-! ### What a registration does -/

theorem registrations_dma {tensors : List Tensor} {dmas : List DmaContext} (context : ℕ)
    (h : List.Forall₂ (fun tensor dma => BuiltFor tensor granularity dma) tensors dmas) :
    (registrations granularity tensors dmas context).map Registration.dma = dmas := by
  induction h generalizing context with
  | nil => rfl
  | cons hbuilt h ih => rw [registrations, List.map_cons, ih (context + 1)]

theorem registrations_context {tensors : List Tensor} {dmas : List DmaContext} (context : ℕ)
    (h : List.Forall₂ (fun tensor dma => BuiltFor tensor granularity dma) tensors dmas) :
    (registrations granularity tensors dmas context).map Registration.context =
      List.range' context (registrations granularity tensors dmas context).length := by
  induction h generalizing context with
  | nil => rfl
  | cons hbuilt h ih =>
      rw [registrations, List.map_cons, ih (context + 1), List.length_cons, List.range'_succ]

theorem registrations_built {tensors : List Tensor} {dmas : List DmaContext} (context : ℕ)
    (h : List.Forall₂ (fun tensor dma => BuiltFor tensor granularity dma) tensors dmas) :
    ∀ r ∈ registrations granularity tensors dmas context,
      r.tensor ∈ tensors ∧ r.granularity = granularity ∧ BuiltFor r.tensor granularity r.dma := by
  induction h generalizing context with
  | nil =>
      intro r hr
      cases hr
  | cons hbuilt h ih =>
      intro r hr
      rw [registrations] at hr
      rcases List.mem_cons.mp hr with rfl | hr
      · exact ⟨List.mem_cons_self, rfl, hbuilt⟩
      · obtain ⟨htensor, hrest⟩ := ih (context + 1) r hr
        exact ⟨List.mem_cons_of_mem _ htensor, hrest⟩

end GPUMemory

/-- What a registration does, whether it succeeds or not.  The contexts that it creates have the next numbers
and are for tensors of the call that are not registered; they are entered in the map, and their granules are
added.  Nothing that was found before is lost. -/
structure Enters (gpu : GPUMemory) (tensors : List Tensor) (result : RegisterResult) : Prop where
  contexts : result.gpu.dmaContexts = result.created.foldl GPUMemory.putContext gpu.dmaContexts
  nextContext : result.gpu.nextContext = gpu.nextContext + result.created.length
  numbers : result.created.map Registration.context =
    List.range' gpu.nextContext result.created.length
  fresh : ∀ r ∈ result.created, r.tensor ∈ tensors ∧ gpu.dmaContexts r.tensor.dataPtr = none
  built : ∃ granularity < 2 ^ 64, ∀ r ∈ result.created,
    r.granularity = granularity ∧ BuiltFor r.tensor granularity r.dma
  kept : Kept gpu.hostMappings result.gpu.hostMappings
  found : result.created ≠ [] → Extends gpu.hostMappings
    (result.created.flatMap fun r => r.dma.granules) result.gpu.hostMappings

/-- A registration that creates no context only adds to the memory mapper. -/
theorem Enters.nothing {gpu : GPUMemory} (tensors : List Tensor) (ok : Bool) {host : HostMappings}
    (hkept : Kept gpu.hostMappings host) :
    Enters gpu tensors ⟨ok, [], { gpu with hostMappings := host }⟩ where
  contexts := rfl
  nextContext := rfl
  numbers := rfl
  fresh := fun _ hr => absurd hr List.not_mem_nil
  built := ⟨0, Nat.two_pow_pos 64, fun _ hr => absurd hr List.not_mem_nil⟩
  kept := hkept
  found := fun hne => absurd rfl hne

namespace GPUMemory

variable {gpu : GPUMemory} {granularity : ℕ} {supply : DmaSupply}

/-- **What `registerTensorMemory` does.** -/
theorem registerTensorMemory_enters (gpu : GPUMemory) (tensor : Tensor) (granularity : UInt64)
    (supply : DmaSupply) :
    Enters gpu [tensor] (gpu.registerTensorMemory tensor granularity supply) := by
  have hkept := createDMAContext_kept gpu tensor granularity.toNat supply
  rw [registerTensorMemory]
  split_ifs with hvalid halign hregistered
  · exact Enters.nothing _ _ (Kept.refl _)
  · exact Enters.nothing _ _ (Kept.refl _)
  · exact Enters.nothing _ _ (Kept.refl _)
  · rcases hcreate : gpu.createDMAContext tensor granularity.toNat supply with ⟨dma, host⟩
    rw [hcreate] at hkept
    cases dma with
    | none => exact Enters.nothing _ _ hkept
    | some dma =>
        obtain ⟨hbuilt, hfound⟩ := createDMAContext_spec hcreate
        refine ⟨rfl, rfl, rfl, ?_, ⟨granularity.toNat, granularity.toNat_lt, ?_⟩, hkept, ?_⟩
        · intro r hr
          rw [List.mem_singleton.mp hr]
          exact ⟨List.mem_singleton_self _, Option.not_isSome_iff_eq_none.mp hregistered⟩
        · intro r hr
          rw [List.mem_singleton.mp hr]
          exact ⟨rfl, hbuilt⟩
        · intro _
          rw [List.flatMap_singleton]
          exact hfound

/-- **What `registerTesnsorList` does**, when it does not read an empty list. -/
theorem registerTesnsorList_enters {gpu : GPUMemory} {tensorList : List Tensor} {granularity : UInt64}
    {supply : DmaSupply} {result : RegisterResult}
    (h : gpu.registerTesnsorList tensorList granularity supply = some result) :
    Enters gpu tensorList result := by
  rw [registerTesnsorList] at h
  split_ifs at h with hvalid halign
  · cases h
    exact Enters.nothing _ _ (Kept.refl _)
  · cases h
    exact Enters.nothing _ _ (Kept.refl _)
  · simp only at h
    cases hcreate : gpu.createDMAContexts
        (tensorList.filter fun tensor => (gpu.dmaContexts tensor.dataPtr).isNone) granularity.toNat supply with
    | none =>
        rw [hcreate] at h
        cases h
    | some out =>
        rcases out with ⟨dmas, host⟩
        rw [hcreate] at h
        have hkept := createDMAContexts_kept hcreate
        cases dmas with
        | none =>
            cases h
            exact Enters.nothing _ _ hkept
        | some dmas =>
            simp only at h
            split_ifs at h
            · cases h
              exact Enters.nothing _ _ hkept
            · cases h
              obtain ⟨hbuilt, hfound⟩ := createDMAContexts_spec hcreate
              have hrs := registrations_built gpu.nextContext hbuilt
              refine ⟨rfl, rfl, registrations_context _ hbuilt, ?_,
                ⟨granularity.toNat, granularity.toNat_lt, ?_⟩, hkept, ?_⟩
              · intro r hr
                have hmem := (hrs r hr).1
                rw [List.mem_filter, Option.isNone_iff_eq_none] at hmem
                exact hmem
              · intro r hr
                exact (hrs r hr).2
              · intro _
                have hdmas := registrations_dma gpu.nextContext hbuilt
                rw [← List.flatMap_map, hdmas]
                exact hfound

theorem createDMAContexts_eq_none {tensorList : List Tensor} :
    gpu.createDMAContexts tensorList granularity supply = none ↔ tensorList = [] := by
  cases tensorList with
  | nil => exact iff_of_true rfl rfl
  | cons first rest =>
      refine iff_of_false (fun h => ?_) (List.cons_ne_nil _ _)
      -- each branch returns something
      simp only [createDMAContexts] at h
      repeat' split at h
      all_goals cases h

/-- **An empty list is read** exactly if the arguments pass the checks and every tensor is registered. -/
theorem registerTesnsorList_eq_none {tensorList : List Tensor} {granularity : UInt64} :
    gpu.registerTesnsorList tensorList granularity supply = none ↔
      tensorList.all Tensor.validate = true ∧
        ¬(0 < granularity.toNat ∧ granularity.toNat % 4096 ≠ 0) ∧
        ∀ tensor ∈ tensorList, gpu.dmaContexts tensor.dataPtr ≠ none := by
  have hempty : (tensorList.filter fun tensor => (gpu.dmaContexts tensor.dataPtr).isNone) = [] ↔
      ∀ tensor ∈ tensorList, gpu.dmaContexts tensor.dataPtr ≠ none := by
    simp [List.filter_eq_nil_iff]
  rw [registerTesnsorList, ← hempty,
    ← @createDMAContexts_eq_none gpu granularity.toNat supply]
  by_cases hvalid : tensorList.all Tensor.validate = true
  · rw [if_neg (by simp [hvalid])]
    by_cases halign : 0 < granularity.toNat ∧ granularity.toNat % 4096 ≠ 0
    · rw [if_pos halign]
      exact iff_of_false (Option.some_ne_none _) fun h => h.2.1 halign
    · rw [if_neg halign]
      simp only [hvalid, halign, not_false_eq_true, true_and]
      cases hcreate : gpu.createDMAContexts
          (tensorList.filter fun tensor => (gpu.dmaContexts tensor.dataPtr).isNone) granularity.toNat
          supply with
      | none => exact iff_of_true rfl rfl
      | some out =>
          refine iff_of_false (fun h => ?_) (Option.some_ne_none _)
          rcases out with ⟨dmas, host⟩
          cases dmas with
          | none => cases h
          | some dmas =>
              simp only at h
              split_ifs at h
  · rw [if_pos (by simpa using hvalid)]
    exact iff_of_false (Option.some_ne_none _) fun h => hvalid h.1

end GPUMemory

end GeminiFS
end InfiniKV
