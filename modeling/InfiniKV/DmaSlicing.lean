/-
**How a registered tensor is cut for the NVMe devices.**

A tensor is registered with the GPU controller at a granularity.  `performDMASlicing` cuts it into
granules, and each granule into slices of at most the smallest I/O size of the controllers;
`initializePRPEntries` builds, for each slice, the entry from which a kernel issues its NVMe command.

Main definitions:

* `InfiniKV.GeminiFS.performDMASlicing` — the two levels of cutting;
* `InfiniKV.GeminiFS.initializePRPEntries` — the PRP entries of the slices.

Main results:

* `InfiniKV.GeminiFS.performDMASlicing_groups` — **every whole granule is cut in the same way**;
* `InfiniKV.GeminiFS.initializePRPEntries_lengths` — an entry is as long as its slice.
-/

import InfiniKV.Tiling

set_option relaxedAutoImplicit false
set_option autoImplicit false

namespace InfiniKV
namespace GeminiFS

/-- `UINT64_MAX`. -/
def UINT64_MAX : ℕ := 2 ^ 64 - 1

/-- `PRP_SIZE_SINGLE_PAGE`. -/
def PRP_SIZE_SINGLE_PAGE : ℕ := 4096

/-- `PRP_SIZE_DUAL_PAGE`. -/
def PRP_SIZE_DUAL_PAGE : ℕ := 2 * PRP_SIZE_SINGLE_PAGE

/-- `PRPTransferType`. -/
inductive PRPTransferType where
  | singlePage
  | dualPage
  | list
  deriving DecidableEq, Repr

/-- `PRPMappingEntry`: the addresses and the length of one NVMe command, and where its data lies in
the granule. -/
structure PRPMappingEntry where
  transferType : PRPTransferType
  dataLength : ℕ
  prp1 : ℕ
  prp2 : ℕ
  tensorOffset : ℕ
  deriving DecidableEq, Repr

/-- `SubSliceInfo`: a slice, by its offsets in the granule and in the tensor. -/
structure SubSliceInfo where
  offset : ℕ
  size : ℕ
  globalOffset : ℕ
  deriving DecidableEq, Repr

/-- `GranularitySliceGroup`: a granule of a tensor, its slices and their PRP entries. -/
structure GranularitySliceGroup where
  gpuTensorPtr : ℕ
  granularityOffset : ℕ
  granularitySize : ℕ
  subSlices : List SubSliceInfo
  prpMappings : List PRPMappingEntry
  deriving DecidableEq, Repr

/-- The part of `geminifs_dma` that slicing fills in. -/
structure DmaContext where
  sliceGranularity : ℕ
  granularityGroups : List GranularitySliceGroup
  deriving DecidableEq, Repr

/-! ### Slicing -/

/-- The smallest of the I/O sizes of the controllers.  A controller that is missing or has no I/O size
is passed over, and `UINT64_MAX` stands for none found. -/
def minMaxIoSize (nvmeControllers : List (Option ℕ)) : ℕ :=
  nvmeControllers.foldl (fun m ctrl =>
    match ctrl with
    | some maxIOsize => if 0 < maxIOsize then min m maxIOsize else m
    | none => m) UINT64_MAX

/-- The slices of the granule of `granularitySize` bytes at `currentOffset`. -/
def cutGranule (minMaxIo granularitySize currentOffset : ℕ) : List SubSliceInfo :=
  if granularitySize ≤ minMaxIo then [⟨0, granularitySize, currentOffset⟩]
  else (Tiling.cut minMaxIo granularitySize).map fun piece =>
    ⟨piece.1, piece.2, currentOffset + piece.1⟩

/-- The granule of `granularitySize` bytes at `currentOffset` of the tensor at `vaddr`. -/
def sliceGroup (minMaxIo vaddr granularitySize currentOffset : ℕ) : GranularitySliceGroup :=
  ⟨vaddr + currentOffset, currentOffset, granularitySize,
    cutGranule minMaxIo granularitySize currentOffset, []⟩

/-- `performDMASlicing`.  Without a granularity the tensor is one granule. -/
def performDMASlicing (nvmeControllers : List (Option ℕ)) (vaddr tensorSize granularity : ℕ) :
    Option DmaContext :=
  let minMaxIo := minMaxIoSize nvmeControllers
  if minMaxIo = UINT64_MAX then none
  else if 0 < granularity then
    some ⟨granularity, (Tiling.cut granularity tensorSize).map fun piece =>
      sliceGroup minMaxIo vaddr piece.2 piece.1⟩
  else some ⟨minMaxIo, [sliceGroup minMaxIo vaddr tensorSize 0]⟩

/-- **Every whole granule is cut in the same way**, wherever it lies and whichever tensor it is of. -/
theorem performDMASlicing_groups {nvmeControllers : List (Option ℕ)}
    {vaddr tensorSize granularity : ℕ} {dma : DmaContext} {group : GranularitySliceGroup}
    (hdma : performDMASlicing nvmeControllers vaddr tensorSize granularity = some dma)
    (hgroup : group ∈ dma.granularityGroups) (hsize : group.granularitySize = granularity)
    (hpos : 0 < granularity) :
    ∃ currentOffset, group =
      sliceGroup (minMaxIoSize nvmeControllers) vaddr granularity currentOffset := by
  simp only [performDMASlicing] at hdma
  split_ifs at hdma with hnone
  cases hdma
  obtain ⟨piece, -, rfl⟩ := List.mem_map.mp hgroup
  exact ⟨piece.1, by rw [← hsize]; rfl⟩

/-- The sizes of the slices do not depend on the place of the granule. -/
theorem sizes_cutGranule {minMaxIo size : ℕ} (offset : ℕ) (hsize : 0 < size) :
    (cutGranule minMaxIo size offset).map SubSliceInfo.size =
      (Tiling.cut minMaxIo size).map Prod.snd := by
  rw [cutGranule]
  split_ifs with hle
  · rw [Tiling.cut_of_le hsize hle]
    rfl
  · rw [List.map_map]
    rfl

/-! ### PRP entries -/

/-- `getPrpTransferType`. -/
def getPrpTransferType (sliceSize : ℕ) : PRPTransferType :=
  if sliceSize ≤ PRP_SIZE_SINGLE_PAGE then .singlePage
  else if sliceSize ≤ PRP_SIZE_DUAL_PAGE then .dualPage
  else .list

/-- The pages of I/O addresses and of PRP lists used up so far, and the PRP lists written. -/
structure PrpCursor where
  ioaddrIndex : ℕ
  type2Index : ℕ
  prpLists : List (List ℕ)
  deriving DecidableEq, Repr

/-- The entry of one slice.  A slice of more than two pages needs a page of its own for the list of
the addresses of its further pages. -/
def initializePRPEntry (ioaddrs type2Ioaddrs : List ℕ) (slice : SubSliceInfo) (c : PrpCursor) :
    Option (PRPMappingEntry × PrpCursor) :=
  let slicePages := slice.size ⌈/⌉ PRP_SIZE_SINGLE_PAGE
  let entry (transferType : PRPTransferType) (prp2 : ℕ) : PRPMappingEntry :=
    ⟨transferType, slice.size % 2 ^ 32, ioaddrs.getD c.ioaddrIndex 0, prp2, slice.offset⟩
  let c' : PrpCursor := { c with ioaddrIndex := c.ioaddrIndex + slicePages }
  if ioaddrs.length < c.ioaddrIndex + slicePages then none
  else match getPrpTransferType slice.size with
    | .singlePage => some (entry .singlePage 0, c')
    | .dualPage =>
        some (entry .dualPage (if 1 < slicePages then ioaddrs.getD (c.ioaddrIndex + 1) 0 else 0), c')
    | .list =>
        match type2Ioaddrs[c.type2Index]? with
        | none => none
        | some prp2 => some (entry .list prp2, { c' with
            type2Index := c.type2Index + 1
            prpLists := c.prpLists ++
              [(ioaddrs.drop (c.ioaddrIndex + 1)).take (min (slicePages - 1) 511)] })

/-- The entries of the slices of one granule. -/
def initializePRPGroup (ioaddrs type2Ioaddrs : List ℕ) :
    List SubSliceInfo → PrpCursor → Option (List PRPMappingEntry × PrpCursor)
  | [], c => some ([], c)
  | slice :: rest, c => do
      let (entry, c) ← initializePRPEntry ioaddrs type2Ioaddrs slice c
      let (entries, c) ← initializePRPGroup ioaddrs type2Ioaddrs rest c
      return (entry :: entries, c)

/-- The loop of `initializePRPEntries` over the granules. -/
def initializePRPGroups (ioaddrs type2Ioaddrs : List ℕ) :
    List GranularitySliceGroup → PrpCursor → Option (List GranularitySliceGroup × PrpCursor)
  | [], c => some ([], c)
  | group :: rest, c => do
      let (entries, c) ← initializePRPGroup ioaddrs type2Ioaddrs group.subSlices c
      let (groups, c) ← initializePRPGroups ioaddrs type2Ioaddrs rest c
      return ({ group with prpMappings := entries } :: groups, c)

/-- `initializePRPEntries`: the context with its PRP entries, given the I/O addresses of the pages of
the tensor and of the pages allocated for PRP lists. -/
def initializePRPEntries (ioaddrs type2Ioaddrs : List ℕ) (dma : DmaContext) : Option DmaContext :=
  if dma.granularityGroups = [] then none
  else (initializePRPGroups ioaddrs type2Ioaddrs dma.granularityGroups ⟨0, 0, []⟩).map fun out =>
    { dma with granularityGroups := out.1 }

theorem initializePRPEntry_length {ioaddrs type2Ioaddrs : List ℕ} {slice : SubSliceInfo}
    {c c' : PrpCursor} {entry : PRPMappingEntry}
    (h : initializePRPEntry ioaddrs type2Ioaddrs slice c = some (entry, c')) :
    entry.dataLength = slice.size % 2 ^ 32 := by
  simp only [initializePRPEntry] at h
  split at h
  · cases h
  · cases ht : getPrpTransferType slice.size with
    | singlePage =>
        simp only [ht, Option.some.injEq, Prod.mk.injEq] at h
        rw [← h.1]
    | dualPage =>
        simp only [ht, Option.some.injEq, Prod.mk.injEq] at h
        rw [← h.1]
    | list =>
        simp only [ht] at h
        split at h
        · cases h
        · simp only [Option.some.injEq, Prod.mk.injEq] at h
          rw [← h.1]

theorem initializePRPGroup_lengths {ioaddrs type2Ioaddrs : List ℕ} (slices : List SubSliceInfo)
    {c c' : PrpCursor} {entries : List PRPMappingEntry}
    (h : initializePRPGroup ioaddrs type2Ioaddrs slices c = some (entries, c')) :
    entries.map PRPMappingEntry.dataLength = slices.map fun slice => slice.size % 2 ^ 32 := by
  induction slices generalizing c entries with
  | nil =>
      simp only [initializePRPGroup, Option.some.injEq, Prod.mk.injEq] at h
      rw [← h.1]
      rfl
  | cons slice rest ih =>
      simp only [initializePRPGroup, Option.bind_eq_bind, Option.bind_eq_some_iff] at h
      obtain ⟨⟨entry, c₁⟩, hentry, ⟨entries', c₂⟩, hrest, heq⟩ := h
      cases heq
      rw [List.map_cons, List.map_cons, initializePRPEntry_length hentry, ih hrest]

theorem initializePRPGroups_lengths {ioaddrs type2Ioaddrs : List ℕ}
    (groups : List GranularitySliceGroup) {c c' : PrpCursor} {out : List GranularitySliceGroup}
    (h : initializePRPGroups ioaddrs type2Ioaddrs groups c = some (out, c')) :
    ∀ group ∈ out, ∃ group₀ ∈ groups, group = { group₀ with prpMappings := group.prpMappings } ∧
      group.prpMappings.map PRPMappingEntry.dataLength =
        group₀.subSlices.map fun slice => slice.size % 2 ^ 32 := by
  induction groups generalizing c out with
  | nil =>
      simp only [initializePRPGroups, Option.some.injEq, Prod.mk.injEq] at h
      rw [← h.1]
      simp
  | cons group₀ rest ih =>
      simp only [initializePRPGroups, Option.bind_eq_bind, Option.bind_eq_some_iff] at h
      obtain ⟨⟨entries, c₁⟩, hentries, ⟨out', c₂⟩, hrest, heq⟩ := h
      cases heq
      intro group hgroup
      rcases List.mem_cons.mp hgroup with rfl | hgroup
      · exact ⟨group₀, List.mem_cons_self, rfl, initializePRPGroup_lengths _ hentries⟩
      · obtain ⟨g, hg, hrest'⟩ := ih hrest group hgroup
        exact ⟨g, List.mem_cons_of_mem _ hg, hrest'⟩

/-- **An entry is as long as its slice**, in every granule. -/
theorem initializePRPEntries_lengths {ioaddrs type2Ioaddrs : List ℕ} {dma out : DmaContext}
    (h : initializePRPEntries ioaddrs type2Ioaddrs dma = some out) :
    ∀ group ∈ out.granularityGroups, ∃ group₀ ∈ dma.granularityGroups,
      group = { group₀ with prpMappings := group.prpMappings } ∧
      group.prpMappings.map PRPMappingEntry.dataLength =
        group₀.subSlices.map fun slice => slice.size % 2 ^ 32 := by
  simp only [initializePRPEntries] at h
  split_ifs at h
  obtain ⟨⟨groups, c⟩, hgroups, rfl⟩ := Option.map_eq_some_iff.mp h
  exact initializePRPGroups_lengths _ hgroups

end GeminiFS
end InfiniKV
