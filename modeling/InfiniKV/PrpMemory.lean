/-
**The PRP entries of a granule, as the NVMe device reads them.**

An entry has addresses: those of one or two pages of data, or that of a page with a list of further ones.  What
it denotes therefore depends on the memory in which the lists are.  Two controllers that have got other pages for
their lists have other entries, which may still denote the same data.

Whichever tensor a granule belongs to, and whichever pages its lists are in, its entries denote the same pages in
the same slices.

Main definitions:

* `InfiniKV.GeminiFS.DmaDevice` — the I/O addresses of data, and of the pages for lists;
* `InfiniKV.GeminiFS.ResolvedEntry`, `PRPMappingEntry.resolve` — an entry, with the pages that it denotes;
* `InfiniKV.GeminiFS.DmaDevice.granuleEntries` — the entries of a granule;
* `InfiniKV.GeminiFS.Registration.writeLists` — the lists that are written for a context.

Main results:

* `InfiniKV.GeminiFS.Registration.foldl_writeLists_prpPage` — contexts keep their lists;
* `InfiniKV.GeminiFS.resolve_group` — **what the entries of a granule denote**.
-/

import InfiniKV.PrpCoverage
import Mathlib.Logic.Function.Basic

set_option relaxedAutoImplicit false
set_option autoImplicit false

namespace InfiniKV
namespace GeminiFS

/-! ### The device -/

/-- What the device gives: the I/O address of each page of its memory, and those of the pages that it allocates
for the PRP lists of a context. -/
structure DmaDevice where
  ioaddr : ℕ → ℕ
  prpPage : ℕ → ℕ → ℕ

namespace DmaDevice

/-- The I/O addresses of the pages of a tensor. -/
def ioaddrs (device : DmaDevice) (tensor : Tensor) : List ℕ :=
  (List.range (tensor.nbytes / PRP_SIZE_SINGLE_PAGE)).map fun i =>
    device.ioaddr (tensor.dataPtr / PRP_SIZE_SINGLE_PAGE + i)

/-- The pages for the lists of a context. -/
def prpPages (device : DmaDevice) (context prpListSize : ℕ) : List ℕ :=
  (List.range prpListSize).map (device.prpPage context)

end DmaDevice

/-- An entry, with the pages of data that it denotes. -/
structure ResolvedEntry where
  transferType : PRPTransferType
  dataLength : ℕ
  dataPages : List ℕ
  tensorOffset : ℕ
  deriving DecidableEq, Repr

/-- Resolve an entry in a memory, which has a list of I/O addresses in each of its pages. -/
def PRPMappingEntry.resolve (memory : ℕ → List ℕ) (entry : PRPMappingEntry) : ResolvedEntry :=
  ⟨entry.transferType, entry.dataLength, entry.dataPages (memory entry.prp2), entry.tensorOffset⟩

/-- What the entries of the granule of `size` bytes at `ptr` should denote. -/
def DmaDevice.granuleEntries (device : DmaDevice) (minMaxIo size ptr : ℕ) : List ResolvedEntry :=
  (cutGranule minMaxIo size 0).map fun slice =>
    ⟨getPrpTransferType slice.size, slice.size,
      (List.range (slice.size / PRP_SIZE_SINGLE_PAGE)).map fun i =>
        device.ioaddr ((ptr + slice.offset) / PRP_SIZE_SINGLE_PAGE + i),
      slice.offset⟩

/-! ### The memory for the lists -/

/-- Write lists into pages, as many as there are of both. -/
def writePages : List ℕ → List (List ℕ) → (ℕ → List ℕ) → ℕ → List ℕ
  | page :: pages, prpList :: prpLists, memory =>
      writePages pages prpLists (Function.update memory page prpList)
  | [], _, memory => memory
  | _ :: _, [], memory => memory

/-- Other pages keep what they have. -/
theorem writePages_of_not_mem {pages : List ℕ} {prpLists : List (List ℕ)} {memory : ℕ → List ℕ} {page : ℕ}
    (h : page ∉ pages) : writePages pages prpLists memory page = memory page := by
  induction pages generalizing prpLists memory with
  | nil => rfl
  | cons first pages ih =>
      obtain ⟨hne, hrest⟩ := not_or.mp (fun hor => h (List.mem_cons.mpr hor))
      cases prpLists with
      | nil => rfl
      | cons prpList prpLists => rw [writePages, ih hrest, Function.update_of_ne hne]

/-- **What is written is read back**, if no page is written twice. -/
theorem writePages_of_mem {pages : List ℕ} {prpLists : List (List ℕ)} {memory : ℕ → List ℕ} {page k : ℕ}
    {prpList : List ℕ} (hnodup : pages.Nodup) (hpage : pages[k]? = some page)
    (hlist : prpLists[k]? = some prpList) : writePages pages prpLists memory page = prpList := by
  induction pages generalizing prpLists memory k with
  | nil => cases hpage
  | cons first pages ih =>
      obtain ⟨hfirst, hnodup⟩ := List.nodup_cons.mp hnodup
      cases prpLists with
      | nil => cases hlist
      | cons head prpLists =>
          rw [writePages]
          cases k with
          | zero =>
              cases hpage
              cases hlist
              rw [writePages_of_not_mem hfirst, Function.update_self]
          | succ k => exact ih hnodup hpage hlist

/-- The pages with the lists that are written when the entries of a context are built. -/
def prpListPages (ioaddrs type2Ioaddrs : List ℕ) (dma : DmaContext) : List (List ℕ) :=
  match initializePRPGroups ioaddrs type2Ioaddrs dma.granularityGroups ⟨0, 0, []⟩ with
  | none => []
  | some out => (List.range out.2.prpLists.length).map out.2.prpListPage

/-- The lists of a context, in the pages that are allocated for it. -/
def Registration.writeLists (device : DmaDevice) (memory : ℕ → List ℕ) (r : Registration) : ℕ → List ℕ :=
  let type2Ioaddrs := device.prpPages r.context (getPrpListSize r.dma)
  writePages type2Ioaddrs (prpListPages (device.ioaddrs r.tensor) type2Ioaddrs r.dma) memory

namespace Registration

variable {device : DmaDevice} {memory : ℕ → List ℕ} {r : Registration}

/-- Pages of other contexts keep what they have. -/
theorem writeLists_of_ne {page : ℕ} (h : ∀ k, page ≠ device.prpPage r.context k) :
    r.writeLists device memory page = memory page := by
  refine writePages_of_not_mem fun hmem => ?_
  obtain ⟨k, -, hk⟩ := List.mem_map.mp hmem
  exact h k hk.symm

/-- Each list of a context is in its page. -/
theorem writeLists_prpPage (hpages : Function.Injective2 device.prpPage) {k : ℕ} {prpList : List ℕ}
    (hk : k < getPrpListSize r.dma)
    (hlist : (prpListPages (device.ioaddrs r.tensor) (device.prpPages r.context (getPrpListSize r.dma))
      r.dma)[k]? = some prpList) :
    r.writeLists device memory (device.prpPage r.context k) = prpList := by
  refine writePages_of_mem ?_ ?_ hlist
  · exact List.nodup_range.map (hpages.right _)
  · rw [DmaDevice.prpPages, List.getElem?_map, List.getElem?_range hk, Option.map_some]

theorem foldl_writeLists_of_ne {rs : List Registration} {page : ℕ}
    (h : ∀ r ∈ rs, ∀ k, page ≠ device.prpPage r.context k) :
    rs.foldl (writeLists device) memory page = memory page := by
  induction rs generalizing memory with
  | nil => rfl
  | cons r rs ih =>
      obtain ⟨hr, hrest⟩ := List.forall_mem_cons.mp h
      rw [List.foldl_cons, ih hrest, writeLists_of_ne hr]

/-- **Contexts keep their lists**, whatever is written for the others. -/
theorem foldl_writeLists_prpPage (hpages : Function.Injective2 device.prpPage) {rs : List Registration}
    (hcontexts : (rs.map context).Nodup) (hr : r ∈ rs) {k : ℕ} {prpList : List ℕ}
    (hk : k < getPrpListSize r.dma)
    (hlist : (prpListPages (device.ioaddrs r.tensor) (device.prpPages r.context (getPrpListSize r.dma))
      r.dma)[k]? = some prpList) :
    rs.foldl (writeLists device) memory (device.prpPage r.context k) = prpList := by
  induction rs generalizing memory with
  | nil => cases hr
  | cons first rs ih =>
      rw [List.map_cons, List.nodup_cons] at hcontexts
      obtain ⟨hfirst, hcontexts⟩ := hcontexts
      rw [List.foldl_cons]
      rcases List.mem_cons.mp hr with rfl | hr
      · rw [foldl_writeLists_of_ne, writeLists_prpPage hpages hk hlist]
        -- the later contexts have pages of their own
        intro r' hr' k' heq
        obtain ⟨hcontext, -⟩ := hpages heq
        exact hfirst (by rw [hcontext]; exact List.mem_map_of_mem hr')
      · exact ih hcontexts hr

end Registration

/-- Which lists are written does not depend on what entries the granules had. -/
theorem initializePRPGroups_again {ioaddrs type2Ioaddrs : List ℕ} (groups : List GranularitySliceGroup)
    {c c' : PrpCursor} {out : List GranularitySliceGroup}
    (h : initializePRPGroups ioaddrs type2Ioaddrs groups c = some (out, c')) :
    initializePRPGroups ioaddrs type2Ioaddrs out c = some (out, c') := by
  induction groups generalizing c out with
  | nil =>
      cases h
      rfl
  | cons group groups ih =>
      simp only [initializePRPGroups, Option.bind_eq_bind, Option.bind_eq_some_iff] at h
      obtain ⟨⟨entries, c₁⟩, hentries, ⟨out', c₂⟩, hrest, heq⟩ := h
      cases heq
      simp only [initializePRPGroups, hentries, ih hrest, Option.bind_eq_bind, Option.bind_some]
      rfl

/-- The pages of the lists of a context that is built. -/
theorem prpListPages_eq {ioaddrs type2Ioaddrs : List ℕ} {sliced dma : DmaContext} {c : PrpCursor}
    (h : initializePRPGroups ioaddrs type2Ioaddrs sliced.granularityGroups ⟨0, 0, []⟩ =
      some (dma.granularityGroups, c)) :
    prpListPages ioaddrs type2Ioaddrs dma = (List.range c.prpLists.length).map c.prpListPage := by
  rw [prpListPages, initializePRPGroups_again _ h]

/-! ### What entries denote -/

/-- An entry without a list denotes the same pages in every memory. -/
theorem PRPMappingEntry.resolve_congr {memory memory' : ℕ → List ℕ} {entry : PRPMappingEntry}
    (h : entry.hasList = true → memory entry.prp2 = memory' entry.prp2) :
    entry.resolve memory = entry.resolve memory' := by
  rw [resolve, resolve]
  cases htype : entry.transferType with
  | singlePage => simp only [dataPages, htype]
  | dualPage => simp only [dataPages, htype]
  | list =>
      have hlist : entry.hasList = true := by rw [hasList, htype, decide_eq_true rfl]
      rw [h hlist]

theorem initializePRPEntry_transferType {ioaddrs type2Ioaddrs : List ℕ} {slice : SubSliceInfo}
    {c c' : PrpCursor} {entry : PRPMappingEntry}
    (h : initializePRPEntry ioaddrs type2Ioaddrs slice c = some (entry, c')) :
    entry.transferType = getPrpTransferType slice.size := by
  simp only [initializePRPEntry] at h
  split at h
  · cases h
  · cases htype : getPrpTransferType slice.size with
    | singlePage =>
        simp only [htype, Option.some.injEq, Prod.mk.injEq] at h
        rw [← h.1]
    | dualPage =>
        simp only [htype, Option.some.injEq, Prod.mk.injEq] at h
        rw [← h.1]
    | list =>
        simp only [htype] at h
        split at h
        · cases h
        · simp only [Option.some.injEq, Prod.mk.injEq] at h
          rw [← h.1]

/-- The transfer type of an entry is that of its slice. -/
theorem initializePRPGroup_transferTypes {ioaddrs type2Ioaddrs : List ℕ} (slices : List SubSliceInfo)
    {c c' : PrpCursor} {entries : List PRPMappingEntry}
    (h : initializePRPGroup ioaddrs type2Ioaddrs slices c = some (entries, c')) :
    entries.map PRPMappingEntry.transferType = slices.map fun slice => getPrpTransferType slice.size := by
  induction slices generalizing c entries with
  | nil =>
      cases h
      rfl
  | cons slice slices ih =>
      simp only [initializePRPGroup, Option.bind_eq_bind, Option.bind_eq_some_iff] at h
      obtain ⟨⟨entry, c₁⟩, hentry, ⟨entries', c₂⟩, hrest, heq⟩ := h
      cases heq
      rw [List.map_cons, List.map_cons, initializePRPEntry_transferType hentry, ih hrest]

theorem initializePRPGroups_transferTypes {ioaddrs type2Ioaddrs : List ℕ}
    (groups : List GranularitySliceGroup) {c c' : PrpCursor} {out : List GranularitySliceGroup}
    (h : initializePRPGroups ioaddrs type2Ioaddrs groups c = some (out, c')) :
    (out.flatMap GranularitySliceGroup.prpMappings).map PRPMappingEntry.transferType =
      (groups.flatMap GranularitySliceGroup.subSlices).map fun slice => getPrpTransferType slice.size := by
  induction groups generalizing c out with
  | nil =>
      cases h
      rfl
  | cons group groups ih =>
      simp only [initializePRPGroups, Option.bind_eq_bind, Option.bind_eq_some_iff] at h
      obtain ⟨⟨entries, c₁⟩, hentries, ⟨out', c₂⟩, hrest, heq⟩ := h
      cases heq
      rw [List.flatMap_cons, List.flatMap_cons, List.map_append, List.map_append, ih hrest,
        initializePRPGroup_transferTypes _ hentries]

/-- What the entry of a slice should denote, given the I/O addresses of the tensor. -/
def SubSliceInfo.resolve (ioaddrs : List ℕ) (slice : SubSliceInfo) : ResolvedEntry :=
  ⟨getPrpTransferType slice.size, slice.size, slice.pages ioaddrs, slice.offset⟩

/-- **The entries of all slices of a tensor**, in a memory that has the lists in the pages allocated for
them. -/
theorem resolve_prpMappings {ioaddrs type2Ioaddrs : List ℕ} {memory : ℕ → List ℕ} {sliced dma : DmaContext}
    {c : PrpCursor} (hcover : EntriesCover ioaddrs type2Ioaddrs sliced dma c)
    (hbuilt : initializePRPGroups ioaddrs type2Ioaddrs sliced.granularityGroups ⟨0, 0, []⟩ =
      some (dma.granularityGroups, c))
    (hmemory : ∀ k page, type2Ioaddrs[k]? = some page → k < c.prpLists.length → memory page = c.prpListPage k) :
    dma.prpMappings.map (PRPMappingEntry.resolve memory) =
      sliced.subSlices.map (SubSliceInfo.resolve ioaddrs) := by
  have htypes : dma.prpMappings.map PRPMappingEntry.transferType =
      sliced.subSlices.map fun slice => getPrpTransferType slice.size :=
    initializePRPGroups_transferTypes _ hbuilt
  have hlength : dma.prpMappings.length = sliced.subSlices.length := by
    have hmap := congrArg List.length htypes
    rwa [List.length_map, List.length_map] at hmap
  refine List.ext_getElem? fun i => ?_
  rw [List.getElem?_map, List.getElem?_map]
  cases hslice : sliced.subSlices[i]? with
  | none =>
      rw [List.getElem?_eq_none_iff, ← hlength, ← List.getElem?_eq_none_iff] at hslice
      rw [hslice]
      rfl
  | some slice =>
      obtain ⟨entry, hentry, hright⟩ := hcover.entries i slice hslice
      have htype : entry.transferType = getPrpTransferType slice.size := by
        have hget := congrArg (fun types => types[i]?) htypes
        simp only [List.getElem?_map, hentry, hslice, Option.map_some, Option.some.injEq] at hget
        exact hget
      have hpages : entry.dataPages (memory entry.prp2) = slice.pages ioaddrs := by
        rw [← hright.pages]
        have hsame : entry.hasList = true →
            memory entry.prp2 = c.prpListPage (listNumber dma.prpMappings i) := by
          intro hlist
          obtain ⟨hpage, hwritten⟩ := hright.prpList hlist
          exact hmemory _ _ hpage (List.getElem?_eq_some_iff.mp hwritten).1
        have hresolve := @PRPMappingEntry.resolve_congr memory
          (fun _ => c.prpListPage (listNumber dma.prpMappings i)) entry hsame
        exact congrArg ResolvedEntry.dataPages hresolve
      rw [hentry, Option.map_some, Option.map_some, PRPMappingEntry.resolve, SubSliceInfo.resolve, htype,
        hright.dataLength, hright.tensorOffset, hpages]

/-- Where parts of the same lengths make up two equal lists, the parts are equal. -/
theorem forall₂_of_flatMap_eq {α β γ : Type} {R : α → β → Prop} {f : α → List γ} {g : β → List γ}
    {as : List α} {bs : List β} (hR : List.Forall₂ R as bs)
    (hlength : ∀ a b, R a b → (f a).length = (g b).length) (h : as.flatMap f = bs.flatMap g) :
    List.Forall₂ (fun a b => R a b ∧ f a = g b) as bs := by
  induction hR with
  | nil => exact List.Forall₂.nil
  | @cons a b as bs hab hR ih =>
      rw [List.flatMap_cons, List.flatMap_cons] at h
      obtain ⟨hhead, hrest⟩ := List.append_inj h (hlength a b hab)
      exact List.Forall₂.cons ⟨hab, hhead⟩ (ih hrest)

/-- Where a granule starts does not matter for its slices. -/
theorem cutGranule_eq_map (minMaxIo size offset : ℕ) :
    cutGranule minMaxIo size offset =
      (cutGranule minMaxIo size 0).map fun slice => ⟨slice.offset, slice.size, offset + slice.offset⟩ := by
  rw [cutGranule, cutGranule]
  split_ifs
  · rfl
  · rw [List.map_map]
    rfl

/-- The granules of a tensor that is cut. -/
theorem performDMASlicing_mem {nvmeControllers : List (Option ℕ)} {vaddr tensorSize granularity : ℕ}
    {dma : DmaContext} (h : performDMASlicing nvmeControllers vaddr tensorSize granularity = some dma) :
    ∀ group ∈ dma.granularityGroups, ∃ size offset,
      group = sliceGroup (minMaxIoSize nvmeControllers) vaddr size offset := by
  simp only [performDMASlicing] at h
  intro group hgroup
  split_ifs at h
  · cases h
    obtain ⟨piece, -, rfl⟩ := List.mem_map.mp hgroup
    exact ⟨_, _, rfl⟩
  · cases h
    exact ⟨_, _, List.mem_singleton.mp hgroup⟩

/-- The pages of a slice of a tensor are those of its bytes. -/
theorem SubSliceInfo.pages_ioaddrs {device : DmaDevice} {tensor : Tensor} {slice : SubSliceInfo}
    (haligned : PRP_SIZE_SINGLE_PAGE ∣ tensor.dataPtr) (hfits : slice.globalOffset + slice.size ≤ tensor.nbytes) :
    slice.pages (device.ioaddrs tensor) =
      (List.range (slice.size / PRP_SIZE_SINGLE_PAGE)).map fun i =>
        device.ioaddr ((tensor.dataPtr + slice.globalOffset) / PRP_SIZE_SINGLE_PAGE + i) := by
  have hroom : slice.globalOffset / PRP_SIZE_SINGLE_PAGE + slice.size / PRP_SIZE_SINGLE_PAGE ≤
      tensor.nbytes / PRP_SIZE_SINGLE_PAGE :=
    Nat.div_add_div_le_add_div.trans (Nat.div_le_div_right hfits)
  rw [pages, DmaDevice.ioaddrs, ← List.map_drop, ← List.map_take, List.range_eq_range', List.drop_range',
    List.take_range'_of_length_ge (by omega), List.range'_eq_map_range, List.map_map]
  have hsum : (tensor.dataPtr + slice.globalOffset) / PRP_SIZE_SINGLE_PAGE =
      tensor.dataPtr / PRP_SIZE_SINGLE_PAGE + slice.globalOffset / PRP_SIZE_SINGLE_PAGE := by
    have hpage : 0 < PRP_SIZE_SINGLE_PAGE := Nat.two_pow_pos 12
    obtain ⟨k, hk⟩ := haligned
    rw [hk, Nat.mul_add_div hpage, Nat.mul_div_cancel_left k hpage]
  refine List.map_congr_left fun i _ => ?_
  rw [Function.comp_apply, hsum]
  congr 1
  omega

/-- **What the entries of a granule denote.**  The tensor is cut, its entries are built, and their lists are in
the pages that are allocated for them. -/
theorem resolve_group {device : DmaDevice} {nvmeControllers : List (Option ℕ)} {m granularity : ℕ}
    {tensor : Tensor} {type2Ioaddrs : List ℕ} {memory : ℕ → List ℕ} {sliced dma : DmaContext} {c : PrpCursor}
    (hsliced : performDMASlicing nvmeControllers tensor.dataPtr tensor.nbytes granularity = some sliced)
    (htiles : TilesTensor m tensor sliced) (haligned : PRP_SIZE_SINGLE_PAGE ∣ tensor.dataPtr)
    (hcover : EntriesCover (device.ioaddrs tensor) type2Ioaddrs sliced dma c)
    (hbuilt : initializePRPGroups (device.ioaddrs tensor) type2Ioaddrs sliced.granularityGroups ⟨0, 0, []⟩ =
      some (dma.granularityGroups, c))
    (hmemory : ∀ k page, type2Ioaddrs[k]? = some page → k < c.prpLists.length →
      memory page = c.prpListPage k) :
    ∀ group ∈ dma.granularityGroups, group.prpMappings.map (PRPMappingEntry.resolve memory) =
      device.granuleEntries (minMaxIoSize nvmeControllers) group.granularitySize group.gpuTensorPtr := by
  have hall := resolve_prpMappings hcover hbuilt hmemory
  rw [DmaContext.prpMappings, DmaContext.subSlices, List.map_flatMap, List.map_flatMap] at hall
  have hgroups := forall₂_of_flatMap_eq hcover.groups (fun group group' h => by
    rw [List.length_map, List.length_map, h.2]) hall.symm
  intro group' hgroup'
  obtain ⟨group, hgroup, ⟨hsame, -⟩, hentries⟩ := forall₂_right hgroups group' hgroup'
  obtain ⟨size, offset, hcut⟩ := performDMASlicing_mem hsliced group hgroup
  have hsize : group.granularitySize = size := congrArg GranularitySliceGroup.granularitySize hcut
  have hoffset : group.granularityOffset = offset := congrArg GranularitySliceGroup.granularityOffset hcut
  have hslices : group.subSlices = cutGranule (minMaxIoSize nvmeControllers) size offset :=
    congrArg GranularitySliceGroup.subSlices hcut
  have hend : offset + size ≤ tensor.nbytes := by
    rw [← hsize, ← hoffset]
    exact htiles.groups.mem_le _ (List.mem_map_of_mem hgroup)
  have hends : ∀ slice ∈ group.subSlices, slice.offset + slice.size ≤ size := by
    intro slice hslice
    rw [← hsize]
    exact (htiles.subSlices group hgroup).mem_le _ (List.mem_map_of_mem hslice)
  have hglobal := htiles.globalOffset group hgroup
  have hptr : group'.gpuTensorPtr = tensor.dataPtr + offset := by
    rw [hsame]
    exact (htiles.ptr group hgroup).trans (by rw [hoffset])
  have hsize' : group'.granularitySize = size := by
    rw [hsame]
    exact hsize
  rw [← hentries, hptr, hsize', DmaDevice.granuleEntries, hslices, cutGranule_eq_map, List.map_map]
  refine List.map_congr_left fun slice hslice => ?_
  have hmem : (⟨slice.offset, slice.size, offset + slice.offset⟩ : SubSliceInfo) ∈ group.subSlices := by
    rw [hslices, cutGranule_eq_map]
    exact List.mem_map_of_mem hslice
  have hfits : offset + slice.offset + slice.size ≤ tensor.nbytes := by
    have hslice := hends _ hmem
    simp only at hslice
    omega
  rw [Function.comp_apply, SubSliceInfo.resolve, SubSliceInfo.pages_ioaddrs haligned hfits, Nat.add_assoc]

end GeminiFS
end InfiniKV
