/-
**The pages of a registered tensor.**

Tensors are registered one after the other.  The entries of their granules stay in the map, and the lists that
they need stay in the pages that were allocated for them, whatever is registered later.  So what a transfer finds
for a granule denotes, slice by slice, the I/O pages of its bytes.

Main definitions:

* `InfiniKV.GeminiFS.GPUController.RegisteredWith` — tensors are registered with what a device gives;
* `InfiniKV.GeminiFS.GPUController.PagesRight` — the entries that are found denote the pages of their granules;
* `InfiniKV.GeminiFS.DmaDevice.byteAddr` — the I/O address of a byte.

Main results:

* `InfiniKV.GeminiFS.GPUController.RegisteredWith.pagesRight` — **registering tensors keeps this**;
* `InfiniKV.GeminiFS.GPUController.PagesRight.slice` — **what the entry of a slice denotes**, where all slices have
  one length.
-/

import InfiniKV.NvmeCommand
import InfiniKV.RegisterInTurn

set_option relaxedAutoImplicit false
set_option autoImplicit false

namespace InfiniKV
namespace GeminiFS

/-! ### The lists of entries -/

/-- The list of an entry is in a page for lists. -/
theorem prp2_of_initializePRPEntry {ioaddrs type2Ioaddrs : List ℕ} {slice : SubSliceInfo} {c c' : PrpCursor}
    {entry : PRPMappingEntry} (h : initializePRPEntry ioaddrs type2Ioaddrs slice c = some (entry, c'))
    (hlist : entry.hasList = true) : entry.prp2 ∈ type2Ioaddrs := by
  simp only [initializePRPEntry] at h
  split at h
  · cases h
  · cases htype : getPrpTransferType slice.size with
    | singlePage =>
        simp only [htype, Option.some.injEq, Prod.mk.injEq] at h
        rw [← h.1] at hlist
        exact absurd hlist Bool.false_ne_true
    | dualPage =>
        simp only [htype, Option.some.injEq, Prod.mk.injEq] at h
        rw [← h.1] at hlist
        exact absurd hlist Bool.false_ne_true
    | list =>
        simp only [htype] at h
        split at h
        · cases h
        · rename_i prp2 hprp2
          simp only [Option.some.injEq, Prod.mk.injEq] at h
          rw [← h.1]
          exact List.mem_of_getElem? hprp2

theorem prp2_of_initializePRPGroup {ioaddrs type2Ioaddrs : List ℕ} (slices : List SubSliceInfo) {c c' : PrpCursor}
    {entries : List PRPMappingEntry}
    (h : initializePRPGroup ioaddrs type2Ioaddrs slices c = some (entries, c')) :
    ∀ entry ∈ entries, entry.hasList = true → entry.prp2 ∈ type2Ioaddrs := by
  induction slices generalizing c entries with
  | nil =>
      cases h
      exact fun entry hentry => absurd hentry List.not_mem_nil
  | cons slice slices ih =>
      simp only [initializePRPGroup, Option.bind_eq_bind, Option.bind_eq_some_iff] at h
      obtain ⟨⟨first, c₁⟩, hfirst, ⟨rest, c₂⟩, hrest, heq⟩ := h
      cases heq
      exact List.forall_mem_cons.2 ⟨prp2_of_initializePRPEntry hfirst, ih hrest⟩

theorem prp2_of_initializePRPGroups {ioaddrs type2Ioaddrs : List ℕ} (groups : List GranularitySliceGroup)
    {c c' : PrpCursor} {out : List GranularitySliceGroup}
    (h : initializePRPGroups ioaddrs type2Ioaddrs groups c = some (out, c')) :
    ∀ group ∈ out, ∀ entry ∈ group.prpMappings, entry.hasList = true → entry.prp2 ∈ type2Ioaddrs := by
  induction groups generalizing c out with
  | nil =>
      cases h
      exact fun group hgroup => absurd hgroup List.not_mem_nil
  | cons group groups ih =>
      simp only [initializePRPGroups, Option.bind_eq_bind, Option.bind_eq_some_iff] at h
      obtain ⟨⟨entries, c₁⟩, hentries, ⟨out', c₂⟩, hrest, heq⟩ := h
      cases heq
      exact List.forall_mem_cons.2 ⟨prp2_of_initializePRPGroup _ hentries, ih hrest⟩

/-- The lists of the entries of a context are in pages for lists. -/
theorem prp2_of_initializePRPEntries {ioaddrs type2Ioaddrs : List ℕ} {sliced dma : DmaContext}
    (h : initializePRPEntries ioaddrs type2Ioaddrs sliced = some dma) :
    ∀ granule ∈ dma.granules, ∀ entry ∈ granule.2, entry.hasList = true → entry.prp2 ∈ type2Ioaddrs := by
  simp only [initializePRPEntries] at h
  split_ifs at h
  obtain ⟨⟨groups, c⟩, hgroups, rfl⟩ := Option.map_eq_some_iff.1 h
  intro granule hgranule
  obtain ⟨group, hgroup, rfl⟩ := List.mem_map.1 hgranule
  exact prp2_of_initializePRPGroups _ hgroups group hgroup

/-! ### Registering tensors -/

/-- The I/O address of a byte of the device. -/
def DmaDevice.byteAddr (device : DmaDevice) (byte : ℕ) : ℕ :=
  device.ioaddr (byte / PRP_SIZE_SINGLE_PAGE) + byte % PRP_SIZE_SINGLE_PAGE

namespace GPUController

/-- A controller on which tensors of whole granules have been registered, one after the other, with what a device
gives; how many there are, and what is in the pages for lists. -/
inductive RegisteredWith (device : DmaDevice) (maxIOsizes : List (Option ℕ)) (granularity : ℕ) :
    ℕ → GPUController → (ℕ → List ℕ) → Prop where
  | none (memory : ℕ → List ℕ) : RegisteredWith device maxIOsizes granularity 0 ⟨maxIOsizes, [], ∅⟩ memory
  | tensor {n : ℕ} {gpu gpu' : GPUController} {memory : ℕ → List ℕ} {t : Tensor} {sliced dma : DmaContext}
      (hgpu : RegisteredWith device maxIOsizes granularity n gpu memory) (hvalid : t.validate = true)
      (hpos : 0 < t.nbytes) (hwhole : granularity ∣ t.nbytes) (hnew : t.dataPtr ∉ gpu.dmaContexts)
      (hsliced : performDMASlicing gpu.maxIOsizes t.dataPtr t.nbytes granularity = some sliced)
      (hdma : initializePRPEntries (device.ioaddrs t) (device.prpPages n (getPrpListSize sliced)) sliced =
        some dma)
      (hstep : gpu.registerTensorMemory t granularity (device.ioaddrs t)
        (device.prpPages n (getPrpListSize sliced)) = some gpu') :
      RegisteredWith device maxIOsizes granularity (n + 1) gpu'
        (Registration.writeLists device memory ⟨n, t, granularity, dma⟩)

variable {device : DmaDevice} {maxIOsizes : List (Option ℕ)} {granularity n : ℕ} {gpu gpu' : GPUController}
  {memory : ℕ → List ℕ}

/-- Such a controller has registered tensors of whole granules. -/
theorem RegisteredWith.registered (h : RegisteredWith device maxIOsizes granularity n gpu memory) :
    gpu.Registered maxIOsizes granularity := by
  induction h with
  | none memory => exact .none
  | tensor _ _ _ hwhole _ _ _ hstep ih => exact .tensor ih hwhole hstep

/-- What the entries that are found have, and those that are added, is had by what is found afterwards. -/
theorem foldl_addBatchMappings {P : ℕ → List PRPMappingEntry → Prop} (groups : List GranularitySliceGroup)
    {hostMappings : AList fun _ : ℕ => List PRPMappingEntry}
    (hhost : ∀ ptr entries, hostMappings.lookup ptr = some entries → P ptr entries)
    (hgroups : ∀ group ∈ groups, P group.gpuTensorPtr group.prpMappings) :
    ∀ ptr entries, (groups.foldl addBatchMappings hostMappings).lookup ptr = some entries → P ptr entries := by
  induction groups generalizing hostMappings with
  | nil => exact hhost
  | cons group groups ih =>
      obtain ⟨hgroup, hgroups⟩ := List.forall_mem_cons.1 hgroups
      rw [List.foldl_cons]
      refine ih ?_ hgroups
      rw [addBatchMappings]
      split_ifs
      · exact hhost
      · exact hhost
      · intro ptr entries hentries
        rcases eq_or_ne ptr group.gpuTensorPtr with rfl | hne
        · rw [AList.lookup_insert] at hentries
          cases hentries
          exact hgroup
        · rw [AList.lookup_insert_ne hne] at hentries
          exact hhost ptr entries hentries

/-- The entries that are found denote the pages of their granules, which begin with a page; their lists are
in pages of the first `n` contexts. -/
structure PagesRight (device : DmaDevice) (maxIOsizes : List (Option ℕ)) (granularity n : ℕ)
    (memory : ℕ → List ℕ) (ptr : ℕ) (entries : List PRPMappingEntry) : Prop where
  resolved : entries.map (PRPMappingEntry.resolve memory) =
    device.granuleEntries (minMaxIoSize maxIOsizes) granularity ptr
  aligned : PRP_SIZE_SINGLE_PAGE ∣ ptr
  lists : ∀ entry ∈ entries, entry.hasList = true → ∃ context < n, ∃ k, entry.prp2 = device.prpPage context k

/-- The granules of a tensor of whole granules begin one granule after the other. -/
theorem gpuTensorPtr_of_dvd {vaddr tensorSize : ℕ} {sliced : DmaContext} (hpos : 0 < granularity)
    (hdvd : granularity ∣ tensorSize)
    (hsliced : performDMASlicing maxIOsizes vaddr tensorSize granularity = some sliced) :
    ∀ group ∈ sliced.granularityGroups, ∃ j, group.gpuTensorPtr = vaddr + j * granularity := by
  intro group hgroup
  simp only [performDMASlicing] at hsliced
  split_ifs at hsliced
  cases hsliced
  obtain ⟨piece, hpiece, rfl⟩ := List.mem_map.1 hgroup
  rw [Tiling.cut_of_dvd hpos hdvd] at hpiece
  obtain ⟨j, -, rfl⟩ := List.mem_map.1 hpiece
  exact ⟨j, rfl⟩

/-- What is found stays right when a context gets its lists. -/
theorem PagesRight.writeLists (hpages : Function.Injective2 device.prpPage) {ptr : ℕ}
    {entries : List PRPMappingEntry} (h : PagesRight device maxIOsizes granularity n memory ptr entries)
    {r : Registration} (hr : r.context = n) :
    PagesRight device maxIOsizes granularity (n + 1) (r.writeLists device memory) ptr entries := by
  refine ⟨?_, h.aligned, ?_⟩
  · rw [← h.resolved]
    apply List.map_congr_left
    intro entry hentry
    apply PRPMappingEntry.resolve_congr
    intro hlist
    obtain ⟨context, hcontext, k, hk⟩ := h.lists entry hentry hlist
    apply Registration.writeLists_of_ne
    intro k' heq
    obtain ⟨hsame, -⟩ := hpages (hk.symm.trans heq)
    omega
  · intro entry hentry hlist
    obtain ⟨context, hcontext, hk⟩ := h.lists entry hentry hlist
    exact ⟨context, Nat.lt_succ_of_lt hcontext, hk⟩

/-- **The granules of a tensor that is registered** are right. -/
theorem pagesRight_of_built (hpages : Function.Injective2 device.prpPage)
    (hcontrollers : AcceptedControllers maxIOsizes) (hpos : 0 < granularity) (hwhole : granularity % 4096 = 0)
    {t : Tensor} {sliced dma : DmaContext} (hvalid : t.validate = true) (hsize : 0 < t.nbytes)
    (hdvd : granularity ∣ t.nbytes)
    (hsliced : performDMASlicing maxIOsizes t.dataPtr t.nbytes granularity = some sliced)
    (hdma : initializePRPEntries (device.ioaddrs t) (device.prpPages n (getPrpListSize sliced)) sliced = some dma) :
    ∀ group ∈ dma.granularityGroups, PagesRight device maxIOsizes granularity (n + 1)
      (Registration.writeLists device memory ⟨n, t, granularity, dma⟩) group.gpuTensorPtr group.prpMappings := by
  intro group hgroup
  have hgranule : group.granule ∈ dma.granules := List.mem_map_of_mem hgroup
  have hbuilt : BuiltBy maxIOsizes device granularity ⟨n, t, granularity, dma⟩ := ⟨rfl, sliced, hsliced, hdma⟩
  have hsame : granuleSize t.nbytes granularity = granularity := by
    rw [granuleSize, if_pos hpos, Nat.min_eq_left (Nat.le_of_dvd hsize hdvd)]
  have hlists : ∀ (k : ℕ) (prpList : List ℕ), k < getPrpListSize dma →
      (prpListPages (device.ioaddrs t) (device.prpPages n (getPrpListSize dma)) dma)[k]? = some prpList →
      Registration.writeLists device memory ⟨n, t, granularity, dma⟩ (device.prpPage n k) = prpList :=
    fun k prpList hk hlist => Registration.writeLists_prpPage hpages hk hlist
  have hresolve := hbuilt.resolve_granules hcontrollers hvalid hsize (fun h => h.2 hwhole)
    (fun h => h.2.2 (Nat.mod_eq_zero_of_dvd hdvd))
    hlists _ hgranule
  rw [hsame] at hresolve
  refine ⟨hresolve, ?_, ?_⟩
  · obtain ⟨group₀, hgroup₀, heq, -⟩ := initializePRPEntries_lengths hdma group hgroup
    obtain ⟨j, hj⟩ := gpuTensorPtr_of_dvd hpos hdvd hsliced group₀ hgroup₀
    rw [heq]
    change PRP_SIZE_SINGLE_PAGE ∣ group₀.gpuTensorPtr
    rw [hj]
    rw [Tensor.validate, Bool.and_eq_true, decide_eq_true_iff, decide_eq_true_iff, GPU_PAGE_SIZE] at hvalid
    exact Nat.dvd_add (by rw [PRP_SIZE_SINGLE_PAGE]; omega) ((Nat.dvd_of_mod_eq_zero hwhole).mul_left j)
  · intro entry hentry hlist
    obtain ⟨k, -, hk⟩ := List.mem_map.1 (prp2_of_initializePRPEntries hdma _ hgranule entry hentry hlist)
    exact ⟨n, Nat.lt_succ_self n, k, hk.symm⟩

/-- **Registering a tensor** keeps what is found, and what it adds is right. -/
theorem RegisteredWith.pagesRight (hpages : Function.Injective2 device.prpPage)
    (hcontrollers : AcceptedControllers maxIOsizes) (hgranularity : 0 < granularity)
    (h : RegisteredWith device maxIOsizes granularity n gpu memory) :
    gpu.maxIOsizes = maxIOsizes ∧ ∀ ptr entries, gpu.hostMappings.lookup ptr = some entries →
      PagesRight device maxIOsizes granularity n memory ptr entries := by
  induction h with
  | none memory =>
      refine ⟨rfl, fun ptr entries hentries => ?_⟩
      rw [AList.lookup_empty] at hentries
      cases hentries
  | @tensor n gpu gpu' memory t sliced dma hgpu hvalid hpos hwhole hnew hsliced hdma hstep ih =>
      obtain ⟨hmax, hright⟩ := ih
      rw [registerTensorMemory] at hstep
      split_ifs at hstep with hwhole'
      simp only [hsliced, hdma, Option.bind_eq_bind, Option.bind_some] at hstep
      cases hstep
      refine ⟨hmax, foldl_addBatchMappings dma.granularityGroups ?_ ?_⟩
      · intro ptr entries hentries
        exact (hright ptr entries hentries).writeLists hpages rfl
      · exact pagesRight_of_built hpages hcontrollers hgranularity (by omega) hvalid hpos hwhole (hmax ▸ hsliced) hdma

/-! ### Slices of one length -/

/-- A granule that is cut into slices of one length. -/
theorem cutGranule_of_unit {minMaxIo size : ℕ} (hio : 0 < minMaxIo) (hsize : 0 < size)
    (hunit : size ≤ minMaxIo ∨ minMaxIo ∣ size) :
    cutGranule minMaxIo size 0 = (List.range (size / min minMaxIo size)).map fun j =>
      ⟨j * min minMaxIo size, min minMaxIo size, j * min minMaxIo size⟩ := by
  rw [cutGranule]
  split_ifs with hle
  · rw [Nat.min_eq_right hle, Nat.div_self hsize]
    simp
  · have hdvd := hunit.resolve_left hle
    rw [Nat.min_eq_left (Nat.le_of_not_le hle), Tiling.cut_of_dvd hio hdvd, List.map_map]
    apply List.map_congr_left
    intro j _
    simp

/-- The device finds the pages of a command by its length, as the entry has them by its type. -/
theorem pages_eq_dataPages {entry : PRPMappingEntry} {unit : ℕ} (hlength : entry.dataLength = unit)
    (htype : entry.transferType = getPrpTransferType unit) (opcode : UInt8) (cid : UInt16) (nsid : UInt32)
    (slba nBlocks : ℕ) :
    DeviceCommand.pages ⟨opcode, cid, nsid, entry.prp1, entry.prp2, slba, nBlocks⟩ memory unit =
      entry.dataPages (memory entry.prp2) := by
  rw [DeviceCommand.pages, PRPMappingEntry.dataPages, htype, getPrpTransferType, hlength]
  by_cases hone : unit ≤ PRP_SIZE_SINGLE_PAGE
  · rw [if_pos hone, if_pos hone]
  · rw [if_neg hone, if_neg hone]
    by_cases htwo : unit ≤ PRP_SIZE_DUAL_PAGE
    · rw [if_pos htwo, if_pos htwo]
    · rw [if_neg htwo, if_neg htwo]

/-- A byte of a page that begins with a page. -/
theorem byteAddr_add {start : ℕ} (hstart : PRP_SIZE_SINGLE_PAGE ∣ start) (k : ℕ) :
    device.byteAddr (start + k) =
      device.ioaddr (start / PRP_SIZE_SINGLE_PAGE + k / PRP_SIZE_SINGLE_PAGE) + k % PRP_SIZE_SINGLE_PAGE := by
  have hpage : 0 < PRP_SIZE_SINGLE_PAGE := Nat.two_pow_pos 12
  obtain ⟨page, rfl⟩ := hstart
  rw [DmaDevice.byteAddr, Nat.mul_add_div hpage, Nat.mul_div_cancel_left _ hpage, Nat.mul_add_mod]

/-- **What the entry of a slice denotes**, where all slices have one length: it is found under the number of the
slice, its length is that of the slice, and the device reads its pages in it. -/
theorem PagesRight.slice {ptr : ℕ} {entries : List PRPMappingEntry}
    (h : PagesRight device maxIOsizes granularity n memory ptr entries) (hio : 0 < minMaxIoSize maxIOsizes)
    (hgranularity : 0 < granularity) {unit : ℕ} (hmin : unit = min (minMaxIoSize maxIOsizes) granularity)
    (hunit : granularity ≤ minMaxIoSize maxIOsizes ∨ minMaxIoSize maxIOsizes ∣ granularity)
    (hpage : PRP_SIZE_SINGLE_PAGE ∣ unit) :
    entries.length = granularity / unit ∧ ∀ j entry, entries[j]? = some entry →
      entry.dataLength = unit ∧ ∀ (opcode : UInt8) (cid : UInt16) (nsid : UInt32) (slba nBlocks k : ℕ), k < unit →
        (DeviceCommand.pages ⟨opcode, cid, nsid, entry.prp1, entry.prp2, slba, nBlocks⟩ memory unit).getD
            (k / PRP_SIZE_SINGLE_PAGE) 0 + k % PRP_SIZE_SINGLE_PAGE = device.byteAddr (ptr + j * unit + k) := by
  have hresolved := h.resolved
  rw [DmaDevice.granuleEntries, cutGranule_of_unit hio hgranularity hunit, ← hmin, List.map_map] at hresolved
  constructor
  · have hlength := congrArg List.length hresolved
    rwa [List.length_map, List.length_map, List.length_range] at hlength
  · intro j entry hentry
    have hget := congrArg (fun l => l[j]?) hresolved
    simp only [List.getElem?_map, hentry, Option.map_some] at hget
    obtain ⟨j', hj', heq⟩ := Option.map_eq_some_iff.1 hget.symm
    obtain ⟨hlt, rfl⟩ := List.getElem?_eq_some_iff.1 hj'
    rw [List.getElem_range, Function.comp_apply, PRPMappingEntry.resolve, ResolvedEntry.mk.injEq] at heq
    obtain ⟨htype, hlength, hpages, -⟩ := heq
    refine ⟨hlength.symm, fun opcode cid nsid slba nBlocks k hk => ?_⟩
    have hstart : PRP_SIZE_SINGLE_PAGE ∣ ptr + j * unit := Nat.dvd_add h.aligned (hpage.mul_left j)
    have hkpage : k / PRP_SIZE_SINGLE_PAGE < unit / PRP_SIZE_SINGLE_PAGE :=
      Nat.div_lt_div_of_lt_of_dvd hpage hk
    rw [pages_eq_dataPages hlength.symm htype.symm, ← hpages, byteAddr_add hstart, List.getD_eq_getElem?_getD,
      List.getElem?_map, List.getElem?_range hkpage]
    rfl

end GPUController

end GeminiFS
end InfiniKV
