/-
**A list of tensors, registered at once or one by one.**

`registerTesnsorList` registers tensors of one size together: it allocates the pages for all PRP lists at once, and
builds the entries in a function of its own.  It should do what `registerTensorMemory` does for each tensor in
turn.  Where both succeed, the entries denote the same pages; but the list has checks that a single tensor has
not.

A list fails whose slices are so small that none needs a PRP list, since then no entries are built at all; it
fails if the granularity does not divide the size; if all tensors are registered already, the first of no tensors
is read; and a tensor that starts at a granule of an earlier one gets a context, which it would not get in turn.

Main definitions:

* `InfiniKV.GeminiFS.RegisterResult.contextAt`, `entriesAt` — what a granule has after a call;
* `InfiniKV.GeminiFS.SameRegistrations` — two calls leave the same behind;
* `InfiniKV.GeminiFS.GPUMemory.BatchAsInTurn` — what a list should do;
* `InfiniKV.GeminiFS.GPUMemory.BatchFaithful` — when it does.

Main results:

* `InfiniKV.GeminiFS.GPUMemory.registerTesnsorList_registers` — **what is registered at once**;
* `InfiniKV.GeminiFS.RegRun.numbered_run` — in every run the contexts that granules have were created;
* `InfiniKV.GeminiFS.RegistersAll.contextAt_eq`, `entriesAt_new` — what a granule has after a call that succeeds;
* `InfiniKV.GeminiFS.GPUMemory.batchAsInTurn_iff` — **when a list is registered as its tensors are in turn**.
-/

import InfiniKV.RegisterInTurn
import Mathlib.Data.Nat.Pairing

set_option relaxedAutoImplicit false
set_option autoImplicit false

namespace InfiniKV
namespace GeminiFS

/-! ### All tensors at once -/

namespace GPUMemory

variable {gpu : GPUMemory} {device : DmaDevice} {granularity tensorSize : ℕ} {supply : DmaSupply}

/-- The tensors of a list are cut one by one, if they can be mapped. -/
theorem sliceTensors_of (tensors : List Tensor) (i : ℕ)
    (hio : ∀ j tensor, tensors[j]? = some tensor → supply.ioaddrs (i + j) = some (device.ioaddrs tensor))
    (hcut : ∀ tensor ∈ tensors, ∃ sliced,
      performDMASlicing gpu.maxIOsizes tensor.dataPtr tensorSize granularity = some sliced) :
    ∃ sliced, gpu.sliceTensors tensorSize granularity supply tensors i = some sliced ∧
      List.Forall₂ (fun tensor ctx => ctx.1 = device.ioaddrs tensor ∧
        performDMASlicing gpu.maxIOsizes tensor.dataPtr tensorSize granularity = some ctx.2) tensors sliced := by
  induction tensors generalizing i with
  | nil => exact ⟨[], rfl, List.Forall₂.nil⟩
  | cons tensor tensors ih =>
      obtain ⟨⟨dma, hdma⟩, hcuts⟩ := List.forall_mem_cons.mp hcut
      obtain ⟨rest, hrest, hforall⟩ := ih (i + 1) (fun j t ht => by
        rw [Nat.add_assoc, Nat.add_comm 1]
        exact hio (j + 1) t ht) hcuts
      have hfirst : supply.ioaddrs i = some (device.ioaddrs tensor) := hio 0 tensor rfl
      refine ⟨(device.ioaddrs tensor, dma) :: rest, ?_, List.Forall₂.cons ⟨rfl, hdma⟩ hforall⟩
      simp only [sliceTensors, hfirst, hdma, hrest, Option.bind_eq_bind, Option.bind_some]
      rfl

/-- **The entries of all contexts are built**, if each context gets the pages that its lists need. -/
theorem initializePRPListLoop_of {prpListSize context : ℕ} {tensors : List Tensor}
    {sliced : List (List ℕ × DmaContext)}
    (hcut : List.Forall₂ (fun tensor ctx => ctx.1 = device.ioaddrs tensor ∧
      performDMASlicing gpu.maxIOsizes tensor.dataPtr tensorSize granularity = some ctx.2) tensors sliced)
    (hsizes : ∀ tensor ∈ tensors, tensor.nbytes = tensorSize)
    (hcount : ∀ ctx ∈ sliced, getPrpListSize ctx.2 = prpListSize) (i : ℕ)
    (hpages : ∀ j < tensors.length, supply.type2Ioaddrs (i + j) = device.prpPages (context + j) prpListSize)
    (hbuild : ∀ tensor ∈ tensors, ∀ context, ∃ sliced dma,
      performDMASlicing gpu.maxIOsizes tensor.dataPtr tensor.nbytes granularity = some sliced ∧
        initializePRPEntries (device.ioaddrs tensor) (device.prpPages context (getPrpListSize sliced)) sliced =
          some dma) :
    ∃ dmas, initializePRPListLoop supply prpListSize sliced i = some dmas ∧ dmas.length = tensors.length ∧
      (registrations granularity tensors dmas context).map Registration.tensor = tensors ∧
      ∀ r ∈ registrations granularity tensors dmas context, BuiltBy gpu.maxIOsizes device granularity r := by
  induction hcut generalizing i context with
  | nil => exact ⟨[], rfl, rfl, rfl, fun _ hr => absurd hr List.not_mem_nil⟩
  | @cons tensor ctx tensors sliced hfirst hcut ih =>
      obtain ⟨hsize, hsizes⟩ := List.forall_mem_cons.mp hsizes
      obtain ⟨hcount₁, hcounts⟩ := List.forall_mem_cons.mp hcount
      obtain ⟨hbuild₁, hbuilds⟩ := List.forall_mem_cons.mp hbuild
      obtain ⟨hio, hdma⟩ := hfirst
      rcases ctx with ⟨ioaddrs, cut⟩
      simp only at hio hdma hcount₁
      obtain ⟨cut', dma, hcut', hbuilt⟩ := hbuild₁ context
      rw [hsize] at hcut'
      cases hdma.symm.trans hcut'
      obtain ⟨dmas, hloop, hlength, htensors, hrest⟩ := @ih context.succ hsizes hcounts (i + 1) (fun j hj => by
        have hpage := hpages (j + 1) (Nat.succ_lt_succ hj)
        rw [Nat.add_assoc, Nat.add_comm 1, hpage, Nat.succ_add]
        rfl) hbuilds
      have hpage : supply.type2Ioaddrs i = device.prpPages context prpListSize := hpages 0 (Nat.succ_pos _)
      have hdo : doInitializePRPList ioaddrs (supply.type2Ioaddrs i) prpListSize cut = some dma := by
        rw [doInitializePRPList, if_neg (fun h => h.2 hcount₁), hpage, ← hcount₁, hio]
        exact hbuilt
      refine ⟨dma :: dmas, ?_, congrArg (· + 1) hlength, ?_, ?_⟩
      · simp only [initializePRPListLoop, hdo, hloop, Option.bind_eq_bind, Option.bind_some]
        rfl
      · rw [registrations, List.map_cons, htensors]
      · intro r hr
        rw [registrations] at hr
        rcases List.mem_cons.mp hr with rfl | hr
        · refine ⟨rfl, cut, ?_, hbuilt⟩
          rw [hsize]
          exact hdma
        · exact hrest r hr

/-- The granules of all contexts are added, if there is memory for them. -/
theorem addAllPRPMappings_succeeds (hmapped : supply.mapped = fun _ _ => true) (dmas : List DmaContext) (i : ℕ)
    (host : HostMappings) (hne : ∀ dma ∈ dmas, dma.granularityGroups ≠ []) :
    ∃ host', addAllPRPMappings supply dmas i host = (true, host') := by
  induction dmas generalizing i host with
  | nil => exact ⟨host, rfl⟩
  | cons dma dmas ih =>
      obtain ⟨hne₁, hne⟩ := List.forall_mem_cons.mp hne
      obtain ⟨host₁, hadd⟩ := addPRPMappingsToGPU_succeeds host hne₁
      rw [addAllPRPMappings, hmapped]
      simp only [hadd]
      exact ih (i + 1) host₁ hne

/-- What is checked before contexts are created for a list: the granules have one size, a context can be created
for the first tensor, and one of its slices needs a list. -/
theorem createDMAContexts_checks {tensorList dmas host}
    (h : gpu.createDMAContexts tensorList granularity supply = some (some dmas, host)) :
    ∃ first ∈ tensorList, Divides granularity first.nbytes ∧ gpu.hasFirstController = true ∧
      ∃ sliced, performDMASlicing gpu.maxIOsizes first.dataPtr first.nbytes granularity = some sliced ∧
        sliced.granularityGroups ≠ [] ∧ getPrpListSize sliced ≠ 0 := by
  have hcases := createDMAContexts_cases h
  cases tensorList with
  | nil => cases h
  | cons first rest =>
      refine ⟨first, List.mem_cons_self, ?_⟩
      simp only [createDMAContexts] at h
      by_cases hsizes : (!(first :: rest).all fun tensor => decide (tensor.nbytes = first.nbytes)) = true
      · rw [if_pos hsizes] at h
        cases h
      rw [if_neg hsizes] at h
      by_cases halign : 0 < granularity ∧ granularity < first.nbytes ∧ first.nbytes % granularity ≠ 0
      · rw [if_pos halign] at h
        cases h
      rw [if_neg halign] at h
      by_cases hcontroller : (!gpu.hasFirstController) = true
      · rw [if_pos hcontroller] at h
        cases h
      refine ⟨halign, by simpa using hcontroller, ?_⟩
      obtain ⟨hnone, -⟩ | ⟨tensorSize, sliced, dmas', hsame, hsliced, hlist, hsize, -⟩ := hcases
      · cases hnone
      rw [← hsame first List.mem_cons_self] at hsliced
      cases sliceTensors_spec _ 0 hsliced with
      | @cons _ ctx _ ctxs hdma hcut =>
          refine ⟨ctx.2, hdma, ?_⟩
          simp only [initializePRPList] at hlist
          split_ifs at hlist with hempty hzero hmemory
          · -- no entries would have been built
            cases hlist
            exact absurd (getPrpMappingSize_performDMASlicing hdma) hsize
          · refine ⟨fun hnil => hempty ?_, hzero⟩
            rw [List.any_cons, hnil]
            rfl

/-- What is checked before a list is registered, for tensors of one size. -/
def BatchChecks (gpu : GPUMemory) (tensorSize granularity : ℕ) : Prop :=
  Divides granularity tensorSize ∧
    PRP_SIZE_DUAL_PAGE < min (minMaxIoSize gpu.maxIOsizes) (granuleSize tensorSize granularity)

/-- **The tensors of a list are cut, and the entries of all contexts are built**, if the list passes the
checks. -/
theorem initializePRPList_of_checks (hcontrollers : AcceptedControllers gpu.maxIOsizes) {tensors : List Tensor}
    (hne : tensors ≠ []) (hvalid : ∀ tensor ∈ tensors, tensor.validate = true)
    (hgranularity : ¬(0 < granularity ∧ granularity % 4096 ≠ 0))
    (hsizes : ∀ tensor ∈ tensors, tensor.nbytes = tensorSize) (hcan : gpu.CanCreate tensorSize granularity)
    (hchecks : gpu.BatchChecks tensorSize granularity) :
    ∃ dmas, (gpu.sliceTensors tensorSize granularity (gpu.supply device granularity tensors) tensors 0 >>=
        initializePRPList (gpu.supply device granularity tensors)) = some dmas ∧ dmas.length = tensors.length ∧
      (registrations granularity tensors dmas gpu.nextContext).map Registration.tensor = tensors ∧
      ∀ r ∈ registrations granularity tensors dmas gpu.nextContext,
        BuiltBy gpu.maxIOsizes device granularity r := by
  obtain ⟨-, hsome, hgranule⟩ := hcan
  obtain ⟨hdvd, hlarge⟩ := hchecks
  have hbuild : ∀ tensor ∈ tensors, ∀ context, ∃ sliced dma,
      performDMASlicing gpu.maxIOsizes tensor.dataPtr tensor.nbytes granularity = some sliced ∧
        initializePRPEntries (device.ioaddrs tensor) (device.prpPages context (getPrpListSize sliced)) sliced =
          some dma := by
    intro tensor hmem context
    refine exists_built hcontrollers hsome (hvalid tensor hmem) hgranularity ?_ context
    rw [hsizes tensor hmem]
    exact hgranule
  have hio : ∀ j tensor, tensors[j]? = some tensor →
      (gpu.supply device granularity tensors).ioaddrs (0 + j) = some (device.ioaddrs tensor) := by
    intro j tensor hj
    rw [Nat.zero_add]
    exact congrArg (Option.map device.ioaddrs) hj
  obtain ⟨sliced, hsliced, hcut⟩ := sliceTensors_of tensors 0 hio (fun tensor hmem => by
    obtain ⟨cut, -, hcut, -⟩ := hbuild tensor hmem 0
    rw [hsizes tensor hmem] at hcut
    exact ⟨cut, hcut⟩)
  obtain ⟨first, rest, rfl⟩ := List.exists_cons_of_ne_nil hne
  obtain ⟨ctx, ctxs, ⟨-, hdma⟩, -, rfl⟩ := List.forall₂_cons_left_iff.mp hcut
  -- all tensors are cut like the first one
  have hall : ∀ c ∈ ctx :: ctxs,
      c.2.granularityGroups ≠ [] ∧ getPrpListSize c.2 = getPrpListSize ctx.2 := by
    intro c hc
    obtain ⟨tensor, -, -, hc⟩ := forall₂_right hcut c hc
    rw [Ne, granularityGroups_eq_nil_iff hc]
    exact ⟨hgranule, getPrpListSize_vaddr hc hdma⟩
  have hpages : ∀ j < (first :: rest).length,
      (gpu.supply device granularity (first :: rest)).type2Ioaddrs (0 + j) =
        device.prpPages (gpu.nextContext + j) (getPrpListSize ctx.2) := by
    intro j hj
    obtain ⟨cut, -, hcutj, -⟩ := hbuild _ (List.getElem_mem hj) 0
    have hsize := prpListSize_eq hcutj
    rw [hsizes _ (List.getElem_mem hj)] at hcutj
    simp only [supply, Nat.zero_add, List.getElem?_eq_getElem hj, Option.map_some, Option.getD_some, hsize,
      getPrpListSize_vaddr hcutj hdma]
  obtain ⟨dmas, hloop, hrest⟩ := initializePRPListLoop_of hcut hsizes (fun c hc => (hall c hc).2) 0 hpages hbuild
  refine ⟨dmas, ?_, hrest⟩
  have hany : ¬((ctx :: ctxs).any fun c => decide (c.2.granularityGroups = [])) = true := by
    rw [List.any_eq_true]
    rintro ⟨c, hc, hnil⟩
    exact (hall c hc).1 (of_decide_eq_true hnil)
  have hlists : getPrpListSize ctx.2 ≠ 0 := by
    rw [Ne, getPrpListSize_eq_zero_iff hdma hdvd (hall ctx List.mem_cons_self).1, Nat.not_le]
    exact hlarge
  have hmemory : (gpu.supply device granularity (first :: rest)).prpListMemory = true := rfl
  rw [hsliced, Option.bind_eq_bind, Option.bind_some]
  simp only [initializePRPList]
  rw [if_neg hany, if_neg hlists, if_pos hmemory]
  exact hloop

theorem registrations_map_dma {tensors : List Tensor} {dmas : List DmaContext} (context : ℕ)
    (h : dmas.length = tensors.length) :
    (registrations granularity tensors dmas context).map Registration.dma = dmas := by
  induction tensors generalizing dmas context with
  | nil =>
      rw [List.length_eq_zero_iff.mp h]
      rfl
  | cons tensor tensors ih =>
      cases dmas with
      | nil => cases h
      | cons dma dmas => rw [registrations, List.map_cons, ih _ (Nat.succ.inj h)]

/-- **Contexts are created for a list** that passes the checks. -/
theorem createDMAContexts_of_checks (hcontrollers : AcceptedControllers gpu.maxIOsizes) {tensors : List Tensor}
    (hne : tensors ≠ []) (hvalid : ∀ tensor ∈ tensors, tensor.validate = true)
    (hgranularity : ¬(0 < granularity ∧ granularity % 4096 ≠ 0))
    (hsizes : ∀ tensor ∈ tensors, tensor.nbytes = tensorSize) (hcan : gpu.CanCreate tensorSize granularity)
    (hchecks : gpu.BatchChecks tensorSize granularity) :
    ∃ dmas host, gpu.createDMAContexts tensors granularity (gpu.supply device granularity tensors) =
        some (some dmas, host) ∧ dmas.length = tensors.length ∧
      (registrations granularity tensors dmas gpu.nextContext).map Registration.tensor = tensors ∧
      ∀ r ∈ registrations granularity tensors dmas gpu.nextContext,
        BuiltBy gpu.maxIOsizes device granularity r := by
  obtain ⟨dmas, hdmas, hlength, htensors, hbuilt⟩ := @initializePRPList_of_checks _ device _ _ hcontrollers _ hne
    hvalid hgranularity hsizes hcan hchecks
  have hmap := @registrations_map_dma granularity _ _ gpu.nextContext hlength
  have hgroups : ∀ dma ∈ dmas, dma.granularityGroups ≠ [] := by
    intro dma hdma
    rw [← hmap] at hdma
    obtain ⟨r, hr, rfl⟩ := List.mem_map.mp hdma
    exact (hbuilt r hr).granularityGroups_ne_nil
  obtain ⟨host, hadd⟩ := @addAllPRPMappings_succeeds (gpu.supply device granularity tensors) rfl dmas 0
    gpu.hostMappings hgroups
  refine ⟨dmas, host, ?_, hlength, htensors, hbuilt⟩
  obtain ⟨first, rest, rfl⟩ := List.exists_cons_of_ne_nil hne
  have hfirst : first.nbytes = tensorSize := hsizes first List.mem_cons_self
  have hall : ¬(!(first :: rest).all fun tensor => decide (tensor.nbytes = tensorSize)) = true := by
    rw [Bool.not_eq_true', Bool.not_eq_false, List.all_eq_true]
    exact fun tensor hmem => decide_eq_true (hsizes tensor hmem)
  have hcontroller : ¬(!gpu.hasFirstController) = true := by
    rw [hcan.1]
    exact Bool.false_ne_true
  -- the first context has a granule, and that has entries
  have hentries : getPrpMappingSize (dmas.headD ⟨0, []⟩) ≠ 0 := by
    cases dmas with
    | nil => cases hlength
    | cons dma dmas =>
        rw [registrations] at hbuilt
        obtain ⟨sliced, hsliced, hdma⟩ := (hbuilt _ List.mem_cons_self).built
        have hfor := BuiltFor.of_initializePRPEntries hsliced hdma
        obtain ⟨group, hgroup⟩ := List.exists_mem_of_ne_nil _ (hgroups dma List.mem_cons_self)
        obtain ⟨entry, hentry⟩ := List.exists_mem_of_ne_nil _ (hfor.entries group hgroup)
        rw [List.headD_cons, getPrpMappingSize]
        intro hzero
        rw [List.length_eq_zero_iff] at hzero
        exact List.ne_nil_of_mem (List.mem_flatMap.mpr ⟨group, hgroup, hentry⟩) hzero
  have hbuffers : ¬(!(gpu.supply device granularity (first :: rest)).prpBuffers) = true := Bool.false_ne_true
  simp only [createDMAContexts, hfirst, hdmas]
  rw [if_neg hall, if_neg hchecks.1, if_neg hcontroller, if_neg hentries, if_neg hbuffers]
  simp only [hadd]

/-- **What is registered at once**: each tensor that is not registered before. -/
theorem registerTesnsorList_registers {granularity : UInt64} (hcontrollers : AcceptedControllers gpu.maxIOsizes)
    {tensorList : List Tensor} (hne : gpu.toRegister tensorList ≠ [])
    (hvalid : ∀ tensor ∈ tensorList, tensor.validate = true)
    (hgranularity : ¬(0 < granularity.toNat ∧ granularity.toNat % 4096 ≠ 0))
    (hsizes : ∀ tensor ∈ tensorList, tensor.nbytes = tensorSize)
    (hcan : gpu.CanCreate tensorSize granularity.toNat) (hchecks : gpu.BatchChecks tensorSize granularity.toNat) :
    ∃ result, gpu.registerTesnsorList tensorList granularity
        (gpu.supply device granularity.toNat (gpu.toRegister tensorList)) = some result ∧
      RegistersAll gpu device granularity.toNat (gpu.toRegister tensorList) result := by
  have hmem : ∀ tensor ∈ gpu.toRegister tensorList, tensor ∈ tensorList := fun tensor h => List.mem_of_mem_filter h
  obtain ⟨dmas, host, hcreate, hlength, htensors, hbuilt⟩ := @createDMAContexts_of_checks gpu device _ _ hcontrollers
    _ hne (fun tensor h => hvalid tensor (hmem tensor h)) hgranularity
    (fun tensor h => hsizes tensor (hmem tensor h)) hcan hchecks
  have hinvalid : ¬(!tensorList.all Tensor.validate) = true := by
    rw [Bool.not_eq_true', Bool.not_eq_false, List.all_eq_true]
    exact hvalid
  have hdmas : ¬(dmas = [] ∨ dmas.length ≠ (gpu.toRegister tensorList).length) := by
    rintro (hnil | hne')
    · rw [hnil] at hlength
      exact hne (List.length_eq_zero_iff.mp hlength.symm)
    · exact hne' hlength
  have hcall : gpu.registerTesnsorList tensorList granularity
      (gpu.supply device granularity.toNat (gpu.toRegister tensorList)) =
        some ⟨true, registrations granularity.toNat (gpu.toRegister tensorList) dmas gpu.nextContext, { gpu with
          dmaContexts := (registrations granularity.toNat (gpu.toRegister tensorList) dmas
            gpu.nextContext).foldl putContext gpu.dmaContexts
          nextContext := gpu.nextContext +
            (registrations granularity.toNat (gpu.toRegister tensorList) dmas gpu.nextContext).length
          hostMappings := host }⟩ := by
    have hleft : (tensorList.filter fun tensor => (gpu.dmaContexts tensor.dataPtr).isNone) =
        gpu.toRegister tensorList := rfl
    rw [registerTesnsorList, if_neg hinvalid, if_neg hgranularity]
    simp only [hleft, hcreate]
    rw [if_neg hdmas]
  have henters := registerTesnsorList_enters hcall
  have hcreated : registrations granularity.toNat (gpu.toRegister tensorList) dmas gpu.nextContext ≠ [] := by
    intro hnil
    rw [hnil] at htensors
    exact hne htensors.symm
  exact ⟨_, hcall, rfl, rfl, htensors, hbuilt, rfl, henters.numbers, rfl, henters.found hcreated⟩

/-- A list is registered only if it passes the checks and contexts can be created. -/
theorem registerTesnsorList_checks {granularity : UInt64} {tensorList : List Tensor} {result : RegisterResult}
    (hsizes : ∀ tensor ∈ tensorList, tensor.nbytes = tensorSize)
    (h : gpu.registerTesnsorList tensorList granularity supply = some result) (hok : result.ok = true) :
    gpu.CanCreate tensorSize granularity.toNat ∧ gpu.BatchChecks tensorSize granularity.toNat := by
  rw [registerTesnsorList] at h
  split_ifs at h with hvalid halign
  · cases h
    cases hok
  · cases h
    cases hok
  simp only at h
  cases hcreate : gpu.createDMAContexts
      (tensorList.filter fun tensor => (gpu.dmaContexts tensor.dataPtr).isNone) granularity.toNat supply with
  | none =>
      rw [hcreate] at h
      cases h
  | some out =>
      rcases out with ⟨dmas, host⟩
      rw [hcreate] at h
      cases dmas with
      | none =>
          cases h
          cases hok
      | some dmas =>
          obtain ⟨first, hfirst, hdvd, hcontroller, sliced, hsliced, hne, hlists⟩ := createDMAContexts_checks hcreate
          rw [hsizes first (List.mem_of_mem_filter hfirst)] at hdvd hsliced
          have hsome := minMaxIoSize_ne_of_performDMASlicing hsliced
          refine ⟨⟨hcontroller, hsome, fun hempty => hne ((granularityGroups_eq_nil_iff hsliced).mpr hempty)⟩, hdvd,
            ?_⟩
          rw [Ne, getPrpListSize_eq_zero_iff hsliced hdvd hne, Nat.not_le] at hlists
          exact hlists

end GPUMemory

/-! ### What is left behind -/

/-- A context, by what it is: one of before the call, or a new one, for a tensor. -/
inductive ContextId where
  | old (context : ℕ)
  | new (tensor : Tensor)
  deriving DecidableEq

namespace RegisterResult

variable (result : RegisterResult)

/-- Which context a granule has. -/
def contextAt (ptr : ℕ) : Option ContextId :=
  (result.gpu.dmaContexts ptr).map fun context =>
    match result.created.find? fun r => decide (r.context = context) with
    | some r => .new r.tensor
    | none => .old context

/-- The memory with the lists that have been written. -/
def prpMemory (device : DmaDevice) (memory : ℕ → List ℕ) : ℕ → List ℕ :=
  result.created.foldl (Registration.writeLists device) memory

/-- What the entries denote that are found for a granule. -/
def entriesAt (device : DmaDevice) (memory : ℕ → List ℕ) (ptr : ℕ) : Option (List ResolvedEntry) :=
  (result.gpu.hostMappings.lookupMappings ptr).map
    (List.map (PRPMappingEntry.resolve (result.prpMemory device memory)))

end RegisterResult

/-- The contexts that granules have were created. -/
def GPUMemory.Numbered (gpu : GPUMemory) : Prop :=
  ∀ ptr context, gpu.dmaContexts ptr = some context → context < gpu.nextContext

/-- The last of some tensors that has a granule at an address. -/
def ownerAt (granularity : ℕ) (tensors : List Tensor) (ptr : ℕ) : Option Tensor :=
  tensors.reverse.find? fun tensor => decide (ptr ∈ tensor.granulePtrs granularity)

/-- The pages for lists are distinct, and none of them has a list of an entry that is found. -/
structure FreshPages (gpu : GPUMemory) (device : DmaDevice) : Prop where
  distinct : Function.Injective2 device.prpPage
  unused : ∀ ptr entries, gpu.hostMappings.lookupMappings ptr = some entries → ∀ entry ∈ entries,
    entry.hasList = true → ∀ context, gpu.nextContext ≤ context → ∀ k, entry.prp2 ≠ device.prpPage context k

/-- The context of the last registration with a granule at an address is entered there. -/
theorem foldl_putContext (rs : List Registration) (dmaContexts : ℕ → Option ℕ) (ptr : ℕ) :
    rs.foldl GPUMemory.putContext dmaContexts ptr =
      ((rs.reverse.find? fun r => decide (ptr ∈ r.granulePtrs)).map Registration.context).or
        (dmaContexts ptr) := by
  induction rs generalizing dmaContexts with
  | nil => rfl
  | cons r rs ih =>
      rw [List.foldl_cons, ih, List.reverse_cons, List.find?_append, Option.map_or, Option.or_assoc]
      congr 1
      rw [GPUMemory.putContext]
      by_cases hmem : ptr ∈ r.granulePtrs
      · have hone : (List.find? (fun r => decide (ptr ∈ r.granulePtrs)) [r]) = some r := by simp [hmem]
        rw [if_pos hmem, hone]
        rfl
      · have hnone : (List.find? (fun r => decide (ptr ∈ r.granulePtrs)) [r]) = none := by simp [hmem]
        rw [if_neg hmem, hnone]
        rfl

/-- A registration creates the contexts that it enters. -/
theorem Enters.numbered {gpu : GPUMemory} {tensors : List Tensor} {result : RegisterResult}
    (h : Enters gpu tensors result) (hnumbers : gpu.Numbered) : result.gpu.Numbered := by
  intro ptr context hcontext
  rw [h.contexts, foldl_putContext, Option.or_eq_some_iff] at hcontext
  rw [h.nextContext]
  rcases hcontext with hnew | ⟨-, hold⟩
  · obtain ⟨r, hfind, rfl⟩ := Option.map_eq_some_iff.mp hnew
    have hr := List.mem_reverse.mp (List.mem_of_find?_eq_some hfind)
    have hmem := List.mem_map_of_mem (f := Registration.context) hr
    rw [h.numbers, List.mem_range'_1] at hmem
    exact hmem.2
  · exact Nat.lt_add_right _ (hnumbers ptr context hold)

/-- **In every run, the contexts that granules have were created**, so that what is asked of the memory for a list
holds wherever one is registered. -/
theorem RegRun.numbered_run (ops : List RegOp) {s : RegRun} (hnumbers : s.gpu.Numbered) :
    (ops.foldl RegRun.step s).gpu.Numbered := by
  induction ops generalizing s with
  | nil => exact hnumbers
  | cons op ops ih =>
      refine ih ?_
      rw [RegRun.step]
      cases happly : op.apply s.gpu with
      | none => exact hnumbers
      | some result =>
          cases op with
          | registerTensorMemory tensor granularity supply =>
              cases happly
              exact (GPUMemory.registerTensorMemory_enters _ _ _ _).numbered hnumbers
          | registerTesnsorList tensorList granularity supply =>
              exact (GPUMemory.registerTesnsorList_enters happly).numbered hnumbers
          | unregisterTensorMemory tensorPtr =>
              cases happly
              intro ptr context hcontext
              rw [(RegRun.unregisterTensorMemory_frame s.gpu tensorPtr).1]
              exact hnumbers ptr context ((RegRun.unregisterTensorMemory_contexts _ _ _ _).mp hcontext).1

/-- A registration is found by its context. -/
theorem find?_context {rs : List Registration} (h : (rs.map Registration.context).Nodup) {r : Registration}
    (hr : r ∈ rs) : (rs.find? fun r' => decide (r'.context = r.context)) = some r := by
  induction rs with
  | nil => cases hr
  | cons first rs ih =>
      rw [List.map_cons, List.nodup_cons] at h
      rcases List.mem_cons.mp hr with rfl | hr
      · exact List.find?_cons_of_pos (decide_eq_true rfl)
      · have hne : first.context ≠ r.context := by
          intro heq
          exact h.1 (by rw [heq]; exact List.mem_map_of_mem hr)
        rw [List.find?_cons_of_neg (by simpa using hne), ih h.2 hr]

/-- Two entries of a list are the same if each is the first with its property and has that of the other. -/
theorem eq_of_find? {α : Type} {p q : α → Bool} {l : List α} {a b : α} (ha : l.find? p = some a)
    (hb : l.find? q = some b) (hpb : p b = true) (hqa : q a = true) : a = b := by
  induction l with
  | nil => cases ha
  | cons first l ih =>
      by_cases hp : p first = true
      · rw [List.find?_cons_of_pos hp] at ha
        cases ha
        rw [List.find?_cons_of_pos hqa] at hb
        cases hb
        rfl
      · rw [List.find?_cons_of_neg hp] at ha
        by_cases hq : q first = true
        · rw [List.find?_cons_of_pos hq] at hb
          cases hb
          exact absurd hpb hp
        · rw [List.find?_cons_of_neg hq] at hb
          exact ih ha hb

namespace RegistersAll

variable {gpu : GPUMemory} {device : DmaDevice} {granularity : ℕ} {tensors : List Tensor} {result : RegisterResult}

theorem nodup (h : RegistersAll gpu device granularity tensors result) :
    (result.created.map Registration.context).Nodup := by
  rw [h.numbers]
  exact List.nodup_range'

theorem le_context (h : RegistersAll gpu device granularity tensors result) :
    ∀ r ∈ result.created, gpu.nextContext ≤ r.context := by
  intro r hr
  have hmem := List.mem_map_of_mem (f := Registration.context) hr
  rw [h.numbers, List.mem_range'_1] at hmem
  exact hmem.1

theorem granulePtrs_eq (h : RegistersAll gpu device granularity tensors result) :
    ∀ r ∈ result.created, r.granulePtrs = r.tensor.granulePtrs granularity := by
  intro r hr
  rw [← (h.built r hr).granularity_eq]
  rfl

/-- The owner of a granule is the tensor of the last registration with that granule. -/
theorem ownerAt_eq (h : RegistersAll gpu device granularity tensors result) (ptr : ℕ) :
    ownerAt granularity tensors ptr =
      (result.created.reverse.find? fun r => decide (ptr ∈ r.granulePtrs)).map Registration.tensor := by
  rw [ownerAt, ← h.tensors_eq, ← List.map_reverse, List.find?_map]
  congr 1
  have hmem : ∀ r ∈ result.created.reverse, decide (ptr ∈ r.tensor.granulePtrs granularity) =
      decide (ptr ∈ r.granulePtrs) := by
    intro r hr
    rw [h.granulePtrs_eq r (List.mem_reverse.mp hr)]
  exact List.find?_congr hmem

/-- **Which context a granule has** in the end: a new one for the last of the tensors with the granule, or the
one that it had. -/
theorem contextAt_eq (h : RegistersAll gpu device granularity tensors result)
    (hnumbers : gpu.Numbered) (ptr : ℕ) :
    result.contextAt ptr =
      ((ownerAt granularity tensors ptr).map ContextId.new).or ((gpu.dmaContexts ptr).map ContextId.old) := by
  rw [RegisterResult.contextAt, h.contexts, foldl_putContext, h.ownerAt_eq]
  cases hfind : result.created.reverse.find? fun r => decide (ptr ∈ r.granulePtrs) with
  | some r =>
      have hr : r ∈ result.created := List.mem_reverse.mp (List.mem_of_find?_eq_some hfind)
      simp only [Option.map_some, Option.some_or, find?_context h.nodup hr]
  | none =>
      simp only [Option.map_none, Option.none_or]
      cases hold : gpu.dmaContexts ptr with
      | none => rfl
      | some context =>
          have hnone : (result.created.find? fun r => decide (r.context = context)) = none := by
            rw [List.find?_eq_none]
            intro r hr heq
            have hle := h.le_context r hr
            rw [of_decide_eq_true heq] at hle
            exact absurd (hnumbers ptr context hold) (Nat.not_lt.mpr hle)
          simp only [Option.map_some, hnone]

/-- **Granules share a context** exactly if theirs are the same by what they are. -/
theorem dmaContexts_eq_iff (h : RegistersAll gpu device granularity tensors result)
    (hnumbers : gpu.Numbered) (ptr ptr' : ℕ) :
    result.gpu.dmaContexts ptr = result.gpu.dmaContexts ptr' ↔ result.contextAt ptr = result.contextAt ptr' := by
  constructor
  · intro heq
    rw [RegisterResult.contextAt, RegisterResult.contextAt, heq]
  · intro heq
    rw [h.contextAt_eq hnumbers, h.contextAt_eq hnumbers, h.ownerAt_eq, h.ownerAt_eq] at heq
    rw [h.contexts, foldl_putContext, foldl_putContext]
    cases hfind : result.created.reverse.find? fun r => decide (ptr ∈ r.granulePtrs) with
    | some r =>
        cases hfind' : result.created.reverse.find? fun r => decide (ptr' ∈ r.granulePtrs) with
        | some r' =>
            simp only [hfind, hfind', Option.map_some, Option.some_or, Option.some.injEq, ContextId.new.injEq] at heq
            have hr := List.mem_reverse.mp (List.mem_of_find?_eq_some hfind)
            have hr' := List.mem_reverse.mp (List.mem_of_find?_eq_some hfind')
            have hptrs : r.granulePtrs = r'.granulePtrs := by
              rw [h.granulePtrs_eq r hr, h.granulePtrs_eq r' hr', heq]
            have hmem := List.find?_some hfind
            have hmem' := List.find?_some hfind'
            rw [hptrs] at hmem
            rw [← hptrs] at hmem'
            rw [eq_of_find? hfind hfind' hmem hmem']
            rfl
        | none =>
            simp only [hfind, hfind', Option.map_some, Option.some_or, Option.map_none, Option.none_or] at heq
            cases hold : gpu.dmaContexts ptr' <;> simp [hold] at heq
    | none =>
        cases hfind' : result.created.reverse.find? fun r => decide (ptr' ∈ r.granulePtrs) with
        | some r' =>
            simp only [hfind, hfind', Option.map_some, Option.some_or, Option.map_none, Option.none_or] at heq
            cases hold : gpu.dmaContexts ptr <;> simp [hold] at heq
        | none =>
            simp only [hfind, hfind', Option.map_none, Option.none_or] at heq ⊢
            exact Option.map_injective (fun _ _ hcontext => ContextId.old.inj hcontext) heq

/-- Entries that were found before are still found, and denote what they denoted. -/
theorem entriesAt_old (h : RegistersAll gpu device granularity tensors result) (hfresh : FreshPages gpu device)
    (memory : ℕ → List ℕ) {ptr : ℕ} {entries : List PRPMappingEntry}
    (hold : gpu.hostMappings.lookupMappings ptr = some entries) :
    result.entriesAt device memory ptr = some (entries.map (PRPMappingEntry.resolve memory)) := by
  rw [RegisterResult.entriesAt, h.found ptr, hold, Option.some_or, Option.map_some]
  congr 1
  refine List.map_congr_left fun entry hentry => PRPMappingEntry.resolve_congr fun hlist => ?_
  refine Registration.foldl_writeLists_of_ne fun r hr k => ?_
  exact hfresh.unused ptr entries hold entry hentry hlist r.context (h.le_context r hr) k

/-- **What is found for a granule that had no entries**: those of the granule, if one of the tensors has it. -/
theorem entriesAt_new (h : RegistersAll gpu device granularity tensors result) (hfresh : FreshPages gpu device)
    (hcontrollers : AcceptedControllers gpu.maxIOsizes) (hvalid : ∀ tensor ∈ tensors, tensor.validate = true)
    {tensorSize : ℕ} (hsizes : ∀ tensor ∈ tensors, tensor.nbytes = tensorSize) (hpos : 0 < tensorSize)
    (hgranularity : ¬(0 < granularity ∧ granularity % 4096 ≠ 0)) (hdvd : Divides granularity tensorSize)
    (memory : ℕ → List ℕ) {ptr : ℕ} (hold : gpu.hostMappings.lookupMappings ptr = none) (entries : List ResolvedEntry) :
    result.entriesAt device memory ptr = some entries ↔
      (∃ tensor ∈ tensors, ptr ∈ tensor.granuleStarts granularity) ∧
        entries = device.granuleEntries (minMaxIoSize gpu.maxIOsizes) (granuleSize tensorSize granularity) ptr := by
  have htensor : ∀ r ∈ result.created, r.tensor ∈ tensors := by
    intro r hr
    rw [← h.tensors_eq]
    exact List.mem_map_of_mem hr
  have hstarts : ∀ r ∈ result.created, r.dma.granules.map Prod.fst = r.tensor.granuleStarts granularity := by
    intro r hr
    obtain ⟨sliced, hsliced, hdma⟩ := (h.built r hr).built
    exact (BuiltFor.of_initializePRPEntries hsliced hdma).starts
  rw [RegisterResult.entriesAt, h.found ptr, hold, Option.none_or]
  cases hlookup : (result.created.flatMap fun r => r.dma.granules).lookup ptr with
  | some found =>
      obtain ⟨before, after, hsplit, -⟩ := List.lookup_eq_some_iff.mp hlookup
      have hmem : (ptr, found) ∈ result.created.flatMap fun r => r.dma.granules := by
        rw [hsplit]
        exact List.mem_append_right _ List.mem_cons_self
      obtain ⟨r, hr, hgranule⟩ := List.mem_flatMap.mp hmem
      have hsize := hsizes r.tensor (htensor r hr)
      have hlists : ∀ k prpList, k < getPrpListSize r.dma →
          (prpListPages (device.ioaddrs r.tensor) (device.prpPages r.context (getPrpListSize r.dma)) r.dma)[k]? =
            some prpList → result.prpMemory device memory (device.prpPage r.context k) = prpList :=
        fun k prpList hk hlist => Registration.foldl_writeLists_prpPage hfresh.distinct h.nodup hr hk hlist
      have hresolve := (h.built r hr).resolve_granules hcontrollers (hvalid _ (htensor r hr))
        (by rw [hsize]; exact hpos) hgranularity (by rw [hsize]; exact hdvd) hlists (ptr, found) hgranule
      rw [hsize] at hresolve
      rw [Option.map_some, hresolve, Option.some.injEq, eq_comm (b := entries)]
      refine (and_iff_right ⟨r.tensor, htensor r hr, ?_⟩).symm
      rw [← hstarts r hr]
      exact List.mem_map_of_mem (f := Prod.fst) hgranule
  | none =>
      refine iff_of_false (fun hnone => by cases hnone) ?_
      rintro ⟨⟨tensor, hmem, hptr⟩, -⟩
      rw [← h.tensors_eq] at hmem
      obtain ⟨r, hr, rfl⟩ := List.mem_map.mp hmem
      rw [← hstarts r hr] at hptr
      obtain ⟨granule, hgranule, rfl⟩ := List.mem_map.mp hptr
      have hne := List.lookup_eq_none_iff.mp hlookup granule (List.mem_flatMap.mpr ⟨r, hr, hgranule⟩)
      exact absurd hne (by simp)

end RegistersAll

/-! ### The two ways compared -/

/-- **The two ways leave the same behind**: each granule has the same context, or a new one for the same tensor,
two granules share a context in both or in neither, and for each granule entries are found that denote the
same. -/
structure SameRegistrations (device device' : DmaDevice) (memory : ℕ → List ℕ) (result result' : RegisterResult) :
    Prop where
  contexts : ∀ ptr, result.contextAt ptr = result'.contextAt ptr
  shared : ∀ ptr ptr', result.gpu.dmaContexts ptr = result.gpu.dmaContexts ptr' ↔
    result'.gpu.dmaContexts ptr = result'.gpu.dmaContexts ptr'
  entries : ∀ ptr, result.entriesAt device memory ptr = result'.entriesAt device' memory ptr

namespace GPUMemory

/-- **A list is registered as its tensors are in turn**: the call returns, it succeeds if and only if the calls in
turn do, and then leaves the same behind.  The list and the calls in turn may get other pages for their PRP
lists. -/
def BatchAsInTurn (gpu : GPUMemory) (device device' : DmaDevice) (memory : ℕ → List ℕ) (tensorList : List Tensor)
    (granularity : UInt64) : Prop :=
  ∃ result, gpu.registerTesnsorList tensorList granularity
      (gpu.supply device granularity.toNat (gpu.toRegister tensorList)) = some result ∧
    (result.ok = true ↔ (registerInTurn device' granularity tensorList gpu).ok = true) ∧
      (result.ok = true →
        SameRegistrations device device' memory result (registerInTurn device' granularity tensorList gpu))

/-- When a list is registered as its tensors are in turn.  If the arguments pass the checks that both ways make,
then a tensor is not registered; and if a context can be created for it, then the list passes its own checks, and
each granule has the same last tensor, whether or not the tensors are left out that start at a granule of an
earlier one. -/
def BatchFaithful (gpu : GPUMemory) (tensorList : List Tensor) (tensorSize granularity : ℕ) : Prop :=
  (∀ tensor ∈ tensorList, tensor.validate = true) → ¬(0 < granularity ∧ granularity % 4096 ≠ 0) →
    gpu.toRegister tensorList ≠ [] ∧
      (gpu.CanCreate tensorSize granularity → gpu.BatchChecks tensorSize granularity ∧
        ∀ ptr, ownerAt granularity (gpu.toRegister tensorList) ptr =
          ownerAt granularity (uncovered granularity (gpu.toRegister tensorList) []) ptr)

end GPUMemory

theorem uncovered_subset (granularity : ℕ) (tensors : List Tensor) (ptrs : List ℕ) :
    ∀ tensor ∈ uncovered granularity tensors ptrs, tensor ∈ tensors := by
  induction tensors generalizing ptrs with
  | nil => exact fun _ h => h
  | cons first tensors ih =>
      intro tensor h
      rw [uncovered] at h
      split_ifs at h
      · exact List.mem_cons_of_mem _ (ih ptrs tensor h)
      · rcases List.mem_cons.mp h with rfl | h
        · exact List.mem_cons_self
        · exact List.mem_cons_of_mem _ (ih _ tensor h)

/-- No tensor is left out if none starts at a granule of an earlier one. -/
theorem uncovered_eq_self {granularity : ℕ} {tensors : List Tensor} {ptrs : List ℕ}
    (hptrs : ∀ tensor ∈ tensors, tensor.dataPtr ∉ ptrs)
    (h : tensors.Pairwise fun tensor tensor' => tensor'.dataPtr ∉ tensor.granulePtrs granularity) :
    uncovered granularity tensors ptrs = tensors := by
  induction tensors generalizing ptrs with
  | nil => rfl
  | cons tensor tensors ih =>
      obtain ⟨hfirst, hrest⟩ := List.forall_mem_cons.mp hptrs
      obtain ⟨hlater, h⟩ := List.pairwise_cons.mp h
      rw [uncovered, if_neg hfirst, ih ?_ h]
      intro tensor' hmem hptr
      exact (List.mem_append.mp hptr).elim (hrest tensor' hmem) (hlater tensor' hmem)

/-- Where the number of granules is rounded up with an overflow, no granule gets a context. -/
theorem Tensor.granulePtrs_eq_nil {tensor : Tensor} {granularity : ℕ} (hsize : tensor.nbytes < 2 ^ 64)
    (hpos : 0 < granularity) (hgranularity : granularity < 2 ^ 64) (h : 2 ^ 64 < tensor.nbytes + granularity) :
    tensor.granulePtrs granularity = [] := by
  have hsum : (tensor.nbytes + granularity - 1) % 2 ^ 64 < granularity := by omega
  rw [granulePtrs, Registration.granulePtrs, if_pos hpos]
  simp only [Nat.div_eq_of_lt hsum, List.range_zero, List.map_nil]

/-- Tensors have the granules of those that are left, if the last tensors of all granules are the same. -/
theorem granuleStarts_uncovered {tensors : List Tensor} {tensorSize granularity ptr : ℕ}
    (hsizes : ∀ tensor ∈ tensors, tensor.nbytes = tensorSize) (hsize : tensorSize < 2 ^ 64)
    (hgranularity : granularity < 2 ^ 64)
    (howner : ∀ ptr, ownerAt granularity tensors ptr =
      ownerAt granularity (uncovered granularity tensors []) ptr) :
    (∃ tensor ∈ tensors, ptr ∈ tensor.granuleStarts granularity) ↔
      ∃ tensor ∈ uncovered granularity tensors [], ptr ∈ tensor.granuleStarts granularity := by
  refine ⟨?_, fun h => h.imp fun tensor htensor => ⟨uncovered_subset _ _ _ tensor htensor.1, htensor.2⟩⟩
  rintro ⟨tensor, hmem, hptr⟩
  by_cases hfits : (⟨0, tensor, granularity, ⟨0, []⟩⟩ : Registration).NoOverflow
  · -- the granule has an owner, which is left
    have hgranule : ptr ∈ tensor.granulePtrs granularity := by
      rw [Tensor.granulePtrs, Registration.granulePtrs_eq hfits]
      exact hptr
    cases hfind : ownerAt granularity tensors ptr with
    | none =>
        have hnone := List.find?_eq_none.mp hfind tensor (List.mem_reverse.mpr hmem)
        exact absurd (decide_eq_true hgranule) hnone
    | some owner =>
        rw [howner, ownerAt] at hfind
        have hleft := List.mem_reverse.mp (List.mem_of_find?_eq_some hfind)
        have hgranule' := List.find?_some hfind
        refine ⟨owner, hleft, ?_⟩
        exact Registration.granulePtrs_subset ⟨0, owner, granularity, ⟨0, []⟩⟩ ptr (of_decide_eq_true hgranule')
  · -- no tensor has a granule with a context, and none is left out
    rw [Registration.NoOverflow, not_or, not_le] at hfits
    obtain ⟨hne, hlarge⟩ := hfits
    simp only at hne hlarge
    have hall : uncovered granularity tensors [] = tensors := by
      refine uncovered_eq_self (fun _ _ => List.not_mem_nil) (List.pairwise_of_forall_mem_list ?_)
      intro tensor₁ hmem₁ tensor₂ _
      have hsize₁ := hsizes tensor₁ hmem₁
      have hsize₂ := hsizes tensor hmem
      rw [Tensor.granulePtrs_eq_nil (by omega) (Nat.pos_of_ne_zero hne) hgranularity (by omega)]
      exact List.not_mem_nil
    rw [hall]
    exact ⟨tensor, hmem, hptr⟩

namespace RegistersAll

variable {gpu : GPUMemory} {device device' : DmaDevice} {granularity tensorSize : ℕ} {tensors tensors' : List Tensor}
  {result result' : RegisterResult}

/-- Two calls give the granules the same contexts only if these have the same last tensors. -/
theorem ownerAt_eq_of_contextAt_eq (h : RegistersAll gpu device granularity tensors result)
    (h' : RegistersAll gpu device' granularity tensors' result')
    (hnumbers : gpu.Numbered) {ptr : ℕ}
    (hsame : result.contextAt ptr = result'.contextAt ptr) :
    ownerAt granularity tensors ptr = ownerAt granularity tensors' ptr := by
  rw [h.contextAt_eq hnumbers, h'.contextAt_eq hnumbers] at hsame
  -- an old context is not a new one
  cases howner : ownerAt granularity tensors ptr <;> cases howner' : ownerAt granularity tensors' ptr <;>
    cases hold : gpu.dmaContexts ptr <;> simp_all

/-- **Two calls leave the same behind**, if all granules have the same last tensors, and the same granules have
tensors. -/
theorem sameRegistrations (h : RegistersAll gpu device granularity tensors result)
    (h' : RegistersAll gpu device' granularity tensors' result') (hio : device'.ioaddr = device.ioaddr)
    (hfresh : FreshPages gpu device) (hfresh' : FreshPages gpu device')
    (hcontrollers : AcceptedControllers gpu.maxIOsizes)
    (hnumbers : gpu.Numbered)
    (hvalid : ∀ tensor ∈ tensors, tensor.validate = true) (hsizes : ∀ tensor ∈ tensors, tensor.nbytes = tensorSize)
    (hsub : ∀ tensor ∈ tensors', tensor ∈ tensors) (hpos : 0 < tensorSize)
    (hgranularity : ¬(0 < granularity ∧ granularity % 4096 ≠ 0)) (hdvd : Divides granularity tensorSize)
    (howner : ∀ ptr, ownerAt granularity tensors ptr = ownerAt granularity tensors' ptr)
    (hstarts : ∀ ptr, (∃ tensor ∈ tensors, ptr ∈ tensor.granuleStarts granularity) ↔
      ∃ tensor ∈ tensors', ptr ∈ tensor.granuleStarts granularity) (memory : ℕ → List ℕ) :
    SameRegistrations device device' memory result result' := by
  have hcontexts : ∀ ptr, result.contextAt ptr = result'.contextAt ptr := by
    intro ptr
    rw [h.contextAt_eq hnumbers, h'.contextAt_eq hnumbers, howner]
  refine ⟨hcontexts, fun ptr ptr' => ?_, fun ptr => ?_⟩
  · rw [h.dmaContexts_eq_iff hnumbers, h'.dmaContexts_eq_iff hnumbers, hcontexts, hcontexts]
  · cases hold : gpu.hostMappings.lookupMappings ptr with
    | some entries => rw [h.entriesAt_old hfresh memory hold, h'.entriesAt_old hfresh' memory hold]
    | none =>
        have hentries : device'.granuleEntries (minMaxIoSize gpu.maxIOsizes) (granuleSize tensorSize granularity) ptr =
            device.granuleEntries (minMaxIoSize gpu.maxIOsizes) (granuleSize tensorSize granularity) ptr := by
          rw [DmaDevice.granuleEntries, DmaDevice.granuleEntries, hio]
        refine Option.ext fun entries => ?_
        rw [h.entriesAt_new hfresh hcontrollers hvalid hsizes hpos hgranularity hdvd memory hold,
          h'.entriesAt_new hfresh' hcontrollers (fun tensor hmem => hvalid tensor (hsub tensor hmem))
            (fun tensor hmem => hsizes tensor (hsub tensor hmem)) hpos hgranularity hdvd memory hold,
          hstarts ptr, hentries]

end RegistersAll

namespace GPUMemory

variable {gpu : GPUMemory} {device device' : DmaDevice} {memory : ℕ → List ℕ} {tensorList : List Tensor}
  {tensorSize : ℕ} {granularity : UInt64}

/-- A list fails whose arguments do not pass the checks that both ways make. -/
theorem registerTesnsorList_invalid {tensor : Tensor} (hmem : tensor ∈ tensorList)
    (h : tensor.validate = false ∨ (0 < granularity.toNat ∧ granularity.toNat % 4096 ≠ 0)) (supply : DmaSupply) :
    gpu.registerTesnsorList tensorList granularity supply = some ⟨false, [], gpu⟩ := by
  rw [registerTesnsorList]
  by_cases hvalid : (!tensorList.all Tensor.validate) = true
  · rw [if_pos hvalid]
  · rw [if_neg hvalid]
    rw [Bool.not_eq_true', Bool.not_eq_false, List.all_eq_true] at hvalid
    rcases h with hinvalid | hgranularity
    · rw [hvalid tensor hmem] at hinvalid
      cases hinvalid
    · rw [if_pos hgranularity]

/-- Both ways may fail. -/
theorem BatchAsInTurn.of_fails {result : RegisterResult}
    (h : gpu.registerTesnsorList tensorList granularity
      (gpu.supply device granularity.toNat (gpu.toRegister tensorList)) = some result) (hok : result.ok = false)
    (hturn : (registerInTurn device' granularity tensorList gpu).ok = false) :
    gpu.BatchAsInTurn device device' memory tensorList granularity := by
  refine ⟨result, h, ?_, fun htrue => ?_⟩
  · rw [hok, hturn]
  · rw [hok] at htrue
    cases htrue

/-- **A list is registered as its tensors are in turn** exactly if the condition holds. -/
theorem batchAsInTurn_iff (hio : device'.ioaddr = device.ioaddr) (hfresh : FreshPages gpu device)
    (hfresh' : FreshPages gpu device') (hcontrollers : AcceptedControllers gpu.maxIOsizes)
    (hnumbers : gpu.Numbered)
    (hne : tensorList ≠ []) (hsizes : ∀ tensor ∈ tensorList, tensor.nbytes = tensorSize)
    (hsize : tensorSize < 2 ^ 64) :
    gpu.BatchAsInTurn device device' memory tensorList granularity ↔
      gpu.BatchFaithful tensorList tensorSize granularity.toNat := by
  by_cases hpass : (∀ tensor ∈ tensorList, tensor.validate = true) ∧
      ¬(0 < granularity.toNat ∧ granularity.toNat % 4096 ≠ 0)
  · obtain ⟨hvalid, hgranularity⟩ := hpass
    by_cases hempty : gpu.toRegister tensorList = []
    · -- an empty vector is read
      refine iff_of_false ?_ fun h => (h hvalid hgranularity).1 hempty
      rintro ⟨result, hlist, -⟩
      have hall : ∀ tensor ∈ tensorList, gpu.dmaContexts tensor.dataPtr ≠ none := by
        intro tensor hmem hnone
        have hnew := List.filter_eq_nil_iff.mp hempty tensor hmem
        exact hnew (by rw [hnone]; rfl)
      rw [registerTesnsorList_eq_none.mpr ⟨List.all_eq_true.mpr hvalid, hgranularity, hall⟩] at hlist
      cases hlist
    · obtain ⟨result, hlist⟩ : ∃ result, gpu.registerTesnsorList tensorList granularity
          (gpu.supply device granularity.toNat (gpu.toRegister tensorList)) = some result := by
        refine Option.ne_none_iff_exists'.mp fun hnone => hempty ?_
        obtain ⟨-, -, hall⟩ := registerTesnsorList_eq_none.mp hnone
        refine List.filter_eq_nil_iff.mpr fun tensor hmem => ?_
        rw [Option.isNone_iff_eq_none]
        exact hall tensor hmem
      by_cases hcan : gpu.CanCreate tensorSize granularity.toNat
      · have hturn := @registerInTurn_registers gpu device' granularity hgranularity tensorList hcontrollers hvalid
          (fun tensor hmem => by rw [hsizes tensor hmem]; exact hcan)
        by_cases hchecks : gpu.BatchChecks tensorSize granularity.toNat
        · -- both succeed
          obtain ⟨result', hlist', hall⟩ := @registerTesnsorList_registers gpu device tensorSize granularity
            hcontrollers tensorList hempty hvalid hgranularity hsizes hcan hchecks
          cases hlist.symm.trans hlist'
          have hmem : ∀ tensor ∈ gpu.toRegister tensorList, tensor ∈ tensorList :=
            fun tensor h => List.mem_of_mem_filter h
          constructor
          · rintro ⟨result', hlist', -, hsame⟩
            cases hlist.symm.trans hlist'
            refine fun _ _ => ⟨hempty, fun _ => ⟨hchecks, fun ptr => ?_⟩⟩
            exact hall.ownerAt_eq_of_contextAt_eq hturn hnumbers ((hsame hall.ok).contexts ptr)
          · intro hfaithful
            have howner := ((hfaithful hvalid hgranularity).2 hcan).2
            refine ⟨result, hlist, iff_of_true hall.ok hturn.ok, fun _ => ?_⟩
            have hpos : 0 < tensorSize := by
              have hlarge := hchecks.2
              rw [granuleSize] at hlarge
              split_ifs at hlarge <;> omega
            exact hall.sameRegistrations hturn hio hfresh hfresh' hcontrollers hnumbers
              (fun tensor h => hvalid tensor (hmem tensor h)) (fun tensor h => hsizes tensor (hmem tensor h))
              (uncovered_subset _ _ _) hpos hgranularity hchecks.1 howner
              (fun ptr => granuleStarts_uncovered (fun tensor h => hsizes tensor (hmem tensor h)) hsize
                granularity.toNat_lt howner) memory
        · -- only the calls in turn succeed
          refine iff_of_false ?_ fun h => hchecks ((h hvalid hgranularity).2 hcan).1
          rintro ⟨result', hlist', hok, -⟩
          exact hchecks (registerTesnsorList_checks hsizes hlist' (hok.mpr hturn.ok)).2
      · -- both fail
        refine iff_of_true ?_ fun _ _ => ⟨hempty, fun h => absurd h hcan⟩
        refine BatchAsInTurn.of_fails hlist (Bool.eq_false_iff.mpr fun hok => ?_) ?_
        · exact hcan (registerTesnsorList_checks hsizes hlist hok).1
        · exact registerInTurn_not_canCreate (fun tensor hmem => by rw [hsizes tensor hmem]; exact hcan) hempty
  · -- both fail, since an argument does not pass the checks
    refine iff_of_true ?_ fun hvalid hgranularity => absurd ⟨hvalid, hgranularity⟩ hpass
    obtain ⟨tensor, hmem, hinvalid⟩ : ∃ tensor ∈ tensorList, tensor.validate = false ∨
        (0 < granularity.toNat ∧ granularity.toNat % 4096 ≠ 0) := by
      by_cases hgranularity : 0 < granularity.toNat ∧ granularity.toNat % 4096 ≠ 0
      · obtain ⟨tensor, hmem⟩ := List.exists_mem_of_ne_nil _ hne
        exact ⟨tensor, hmem, .inr hgranularity⟩
      · have hvalid : ¬∀ tensor ∈ tensorList, tensor.validate = true := fun hvalid => hpass ⟨hvalid, hgranularity⟩
        push Not at hvalid
        obtain ⟨tensor, hmem, hinvalid⟩ := hvalid
        exact ⟨tensor, hmem, .inl (Bool.eq_false_iff.mpr hinvalid)⟩
    exact BatchAsInTurn.of_fails (registerTesnsorList_invalid hmem hinvalid _) rfl
      (registerInTurn_invalid hmem hinvalid)

/-- A controller with one NVMe controller, with which nothing is registered. -/
def emptyGpu : GPUMemory := ⟨[some 131072], fun _ => none, 0, fun _ => []⟩

/-- The I/O address of a page of data is its address, and each list has a page of its own behind `first`. -/
def plainDevice (first : ℕ) : DmaDevice := ⟨fun page => 4096 * page, fun context k => first + 4096 * Nat.pair context k⟩

theorem freshPages_emptyGpu (first : ℕ) : FreshPages emptyGpu (plainDevice first) where
  distinct := by
    intro context context' k k' heq
    have hpair := Nat.eq_of_mul_eq_mul_left (by decide) (Nat.add_left_cancel heq)
    exact Nat.pair_eq_pair.mp hpair
  unused := by
    intro ptr entries hfound
    cases hfound

theorem acceptedControllers_emptyGpu : AcceptedControllers emptyGpu.maxIOsizes := by
  intro maxIOsize hmem
  cases List.mem_singleton.mp hmem
  exact ⟨128, by decide⟩

theorem numbered_emptyGpu : emptyGpu.Numbered := by
  intro ptr context hcontext
  cases hcontext

/-- Two tensors of a GPU page. -/
def twoTensors : List Tensor := [⟨65536, 65536⟩, ⟨131072, 65536⟩]

theorem batchAsInTurn_iff_twoTensors :
    (emptyGpu.BatchAsInTurn (plainDevice 1048576) (plainDevice 2097152) (fun _ => []) twoTensors 16384 ↔
        emptyGpu.BatchFaithful twoTensors 65536 (UInt64.toNat 16384)) ∧
      emptyGpu.BatchFaithful twoTensors 65536 (UInt64.toNat 16384) := by
  refine ⟨batchAsInTurn_iff rfl (freshPages_emptyGpu _) (freshPages_emptyGpu _) acceptedControllers_emptyGpu
    numbered_emptyGpu (List.cons_ne_nil _ _) (by decide) (by decide), fun _ _ => ⟨by decide, fun _ => ⟨⟨?_, ?_⟩, ?_⟩⟩⟩
  · rw [Divides]
    decide +kernel
  · decide +kernel
  · intro ptr
    have hall : uncovered (UInt64.toNat 16384) (emptyGpu.toRegister twoTensors) [] =
        emptyGpu.toRegister twoTensors := by
      decide +kernel
    rw [hall]

/-- **A list whose slices are of two pages fails**, and each of its tensors can be registered alone. -/
theorem not_batchAsInTurn_twoPages :
    FreshPages emptyGpu (plainDevice 1048576) ∧ FreshPages emptyGpu (plainDevice 2097152) ∧
      AcceptedControllers emptyGpu.maxIOsizes ∧ emptyGpu.Numbered ∧
      ¬emptyGpu.BatchAsInTurn (plainDevice 1048576) (plainDevice 2097152) (fun _ => []) [⟨65536, 65536⟩] 8192 := by
  refine ⟨freshPages_emptyGpu _, freshPages_emptyGpu _, acceptedControllers_emptyGpu, numbered_emptyGpu, ?_⟩
  rintro ⟨result, hlist, hok, -⟩
  have hfails : (emptyGpu.registerTesnsorList [⟨65536, 65536⟩] 8192
      (emptyGpu.supply (plainDevice 1048576) (UInt64.toNat 8192) (emptyGpu.toRegister [⟨65536, 65536⟩]))).map
        RegisterResult.ok = some false := by
    decide +kernel
  have hturn : (registerInTurn (plainDevice 2097152) 8192 [⟨65536, 65536⟩] emptyGpu).ok = true := by
    decide +kernel
  rw [hlist, Option.map_some, Option.some.injEq, hok.mpr hturn] at hfails
  cases hfails

end GPUMemory

end GeminiFS
end InfiniKV
