/-
**What the PRP entries of a tensor denote.**

The NVMe device finds the pages of a command by its PRP entry: one page, two, or one and a list of further pages,
which is in a page of its own.  For a tensor that may be registered, the granules tile the tensor, the slices
tile their granule, and each slice has the entry that denotes its pages.

The entries are built in one pass over all granules, with one index into the I/O addresses of the tensor and one
into the pages for the lists.

Main definitions:

* `InfiniKV.GeminiFS.acceptMaxIOsize` — the I/O sizes that a controller may have;
* `InfiniKV.GeminiFS.PRPMappingEntry.dataPages` — the pages that an entry denotes;
* `InfiniKV.GeminiFS.TilesTensor`, `EntryRight` — the slices and the entries of a tensor are right.

Main results:

* `InfiniKV.GeminiFS.performDMASlicing_tiles` — **the granules and the slices tile the tensor**;
* `InfiniKV.GeminiFS.initializePRPGroup_right` — each entry denotes the pages of its slice;
* `InfiniKV.GeminiFS.registered_covers` — **the entries of a tensor cover it exactly**.
-/

import InfiniKV.TensorMemory
import Mathlib.Order.Bounds.Basic

set_option relaxedAutoImplicit false
set_option autoImplicit false

namespace InfiniKV
namespace GeminiFS

/-! ### I/O sizes -/

/-- The checks of the constructor `NVMeController`, given the I/O size in KB: the size in bytes, unless it
throws. -/
def acceptMaxIOsize (paramsMaxIOsize : UInt64) : Option ℕ :=
  let maxIOsize := paramsMaxIOsize * 1024
  if 1024 < paramsMaxIOsize then none
  else if maxIOsize % 4096 ≠ 0 then none
  else some maxIOsize.toNat

/-- An I/O size is made of pages, and is 1 MiB at most. -/
theorem acceptMaxIOsize_eq_some {paramsMaxIOsize : UInt64} {maxIOsize : ℕ}
    (h : acceptMaxIOsize paramsMaxIOsize = some maxIOsize) :
    PRP_SIZE_SINGLE_PAGE ∣ maxIOsize ∧ maxIOsize ≤ 2 ^ 20 := by
  simp only [acceptMaxIOsize] at h
  split_ifs at h with hlarge haligned
  cases h
  rw [not_not, ← UInt64.toNat_inj, UInt64.toNat_mod] at haligned
  have hle : paramsMaxIOsize.toNat ≤ 1024 := by
    rw [UInt64.lt_iff_toNat_lt, not_lt] at hlarge
    exact hlarge
  have hmul : (paramsMaxIOsize * 1024).toNat = paramsMaxIOsize.toNat * 1024 := by
    have h1024 : (1024 : UInt64).toNat = 1024 := rfl
    rw [UInt64.toNat_mul, h1024]
    exact Nat.mod_eq_of_lt (by omega)
  refine ⟨Nat.dvd_of_mod_eq_zero haligned, ?_⟩
  rw [hmul]
  omega

/-- One pass of the loop over the controllers. -/
def smallerIOsize (m : ℕ) : Option ℕ → ℕ
  | some maxIOsize => if 0 < maxIOsize then min m maxIOsize else m
  | none => m

theorem minMaxIoSize_eq (nvmeControllers : List (Option ℕ)) :
    minMaxIoSize nvmeControllers = nvmeControllers.foldl smallerIOsize UINT64_MAX := rfl

/-- The loop finds the least of the sizes that are not zero, and of what it starts with. -/
theorem foldl_smallerIOsize (nvmeControllers : List (Option ℕ)) (start : ℕ) :
    IsLeast {m | m = start ∨ (some m ∈ nvmeControllers ∧ 0 < m)}
      (nvmeControllers.foldl smallerIOsize start) := by
  induction nvmeControllers generalizing start with
  | nil =>
      refine ⟨.inl rfl, ?_⟩
      rintro m (rfl | ⟨hm, -⟩)
      · exact le_rfl
      · cases hm
  | cons ctrl nvmeControllers ih =>
      obtain ⟨hmem, hleast⟩ := ih (smallerIOsize start ctrl)
      have hstart : smallerIOsize start ctrl ≤ start := by
        cases ctrl with
        | none => exact le_rfl
        | some maxIOsize =>
            rw [smallerIOsize]
            split_ifs
            · exact Nat.min_le_left _ _
            · exact le_rfl
      refine ⟨?_, ?_⟩
      · rcases hmem with heq | ⟨hm, hpos⟩
        · rw [List.foldl_cons, heq]
          cases ctrl with
          | none => exact .inl rfl
          | some maxIOsize =>
              rw [smallerIOsize]
              split_ifs with hpos
              · rcases Nat.le_total start maxIOsize with hle | hle
                · exact .inl (Nat.min_eq_left hle)
                · rw [Nat.min_eq_right hle]
                  exact .inr ⟨List.mem_cons_self, hpos⟩
              · exact .inl rfl
        · exact .inr ⟨List.mem_cons_of_mem _ hm, hpos⟩
      · rintro m (rfl | ⟨hm, hpos⟩)
        · exact (hleast (.inl rfl)).trans hstart
        · rcases List.mem_cons.mp hm with rfl | hm
          · refine (hleast (.inl rfl)).trans ?_
            rw [smallerIOsize, if_pos hpos]
            exact Nat.min_le_right _ _
          · exact hleast (.inr ⟨hm, hpos⟩)

/-- **The size of slices is the least I/O size** that is not zero. -/
theorem minMaxIoSize_of_isLeast {nvmeControllers : List (Option ℕ)} {m : ℕ}
    (hm : IsLeast {m | some m ∈ nvmeControllers ∧ 0 < m} m) (hlarge : m ≤ 2 ^ 20) :
    minMaxIoSize nvmeControllers = m := by
  obtain ⟨hmem, hleast⟩ := foldl_smallerIOsize nvmeControllers UINT64_MAX
  rw [minMaxIoSize_eq]
  refine Nat.le_antisymm (hleast (.inr hm.1)) ?_
  rcases hmem with heq | hmem
  · rw [heq, UINT64_MAX]
    omega
  · exact hm.2 hmem

/-! ### Tiles -/

/-- The granules tile the tensor, and the slices tile their granule; no slice is longer than `m`. -/
structure TilesTensor (m : ℕ) (tensor : Tensor) (dma : DmaContext) : Prop where
  groups : Tiling.Tiles 0
    (dma.granularityGroups.map fun group => (group.granularityOffset, group.granularitySize)) tensor.nbytes
  ptr : ∀ group ∈ dma.granularityGroups, group.gpuTensorPtr = tensor.dataPtr + group.granularityOffset
  subSlices : ∀ group ∈ dma.granularityGroups,
    Tiling.Tiles 0 (group.subSlices.map fun slice => (slice.offset, slice.size)) group.granularitySize
  globalOffset : ∀ group ∈ dma.granularityGroups, ∀ slice ∈ group.subSlices,
    slice.globalOffset = group.granularityOffset + slice.offset
  size : ∀ group ∈ dma.granularityGroups, ∀ slice ∈ group.subSlices, 0 < slice.size ∧ slice.size ≤ m

/-- The slices of a granule tile it. -/
theorem cutGranule_spec {m size offset : ℕ} (hm : 0 < m) (hsize : 0 < size) :
    Tiling.Tiles 0 ((cutGranule m size offset).map fun slice => (slice.offset, slice.size)) size ∧
      ∀ slice ∈ cutGranule m size offset, slice.globalOffset = offset + slice.offset ∧
        0 < slice.size ∧ slice.size ≤ m ∧
          ∀ d, d ∣ m → d ∣ size → d ∣ slice.offset ∧ d ∣ slice.size := by
  rw [cutGranule]
  split_ifs with hle
  · refine ⟨⟨rfl, hsize, Nat.zero_add size⟩, fun slice hslice => ?_⟩
    rw [List.mem_singleton.mp hslice]
    exact ⟨rfl, hsize, hle, fun d _ hd => ⟨Nat.dvd_zero d, hd⟩⟩
  · refine ⟨?_, fun slice hslice => ?_⟩
    · rw [List.map_map]
      have htiles := Tiling.tiles_cut hm size
      rwa [← List.map_id (Tiling.cut m size)] at htiles
    · obtain ⟨piece, hpiece, rfl⟩ := List.mem_map.mp hslice
      obtain ⟨hpos, hmax, hdvd⟩ := Tiling.mem_cut hm hpiece
      exact ⟨rfl, hpos, hmax, hdvd⟩

/-- **The granules and the slices tile the tensor**, and all of them are made of pages. -/
theorem performDMASlicing_tiles {nvmeControllers : List (Option ℕ)} {m : ℕ}
    (hm : minMaxIoSize nvmeControllers = m) (hpos : 0 < m) (hlarge : m ≤ 2 ^ 20)
    (hpages : PRP_SIZE_SINGLE_PAGE ∣ m) {tensor : Tensor} (hsize : 0 < tensor.nbytes)
    (haligned : PRP_SIZE_SINGLE_PAGE ∣ tensor.nbytes) {granularity : ℕ}
    (hgranularity : PRP_SIZE_SINGLE_PAGE ∣ granularity) :
    ∃ dma, performDMASlicing nvmeControllers tensor.dataPtr tensor.nbytes granularity = some dma ∧
      TilesTensor m tensor dma ∧
      ∀ group ∈ dma.granularityGroups, ∀ slice ∈ group.subSlices, PRP_SIZE_SINGLE_PAGE ∣ slice.size := by
  have hne : m ≠ UINT64_MAX := by
    rw [UINT64_MAX]
    omega
  by_cases hwhole : 0 < granularity
  · refine ⟨⟨granularity, (Tiling.cut granularity tensor.nbytes).map fun piece =>
      sliceGroup m tensor.dataPtr piece.2 piece.1⟩, ?_, ⟨?_, ?_, ?_, ?_, ?_⟩, ?_⟩
    · simp only [performDMASlicing, hm]
      rw [if_neg hne, if_pos hwhole]
    · rw [List.map_map]
      have htiles := Tiling.tiles_cut hwhole tensor.nbytes
      rwa [← List.map_id (Tiling.cut granularity tensor.nbytes)] at htiles
    · intro group hgroup
      obtain ⟨piece, -, rfl⟩ := List.mem_map.mp hgroup
      rfl
    · intro group hgroup
      obtain ⟨piece, hpiece, rfl⟩ := List.mem_map.mp hgroup
      exact (cutGranule_spec hpos (Tiling.mem_cut hwhole hpiece).1).1
    · intro group hgroup slice hslice
      obtain ⟨piece, hpiece, rfl⟩ := List.mem_map.mp hgroup
      exact ((cutGranule_spec hpos (Tiling.mem_cut hwhole hpiece).1).2 slice hslice).1
    · intro group hgroup slice hslice
      obtain ⟨piece, hpiece, rfl⟩ := List.mem_map.mp hgroup
      have hspec := (cutGranule_spec hpos (Tiling.mem_cut hwhole hpiece).1).2 slice hslice
      exact ⟨hspec.2.1, hspec.2.2.1⟩
    · intro group hgroup slice hslice
      obtain ⟨piece, hpiece, rfl⟩ := List.mem_map.mp hgroup
      obtain ⟨hpiecePos, -, hdvd⟩ := Tiling.mem_cut hwhole hpiece
      have hspec := (cutGranule_spec hpos hpiecePos).2 slice hslice
      exact (hspec.2.2.2 _ hpages (hdvd _ hgranularity haligned).2).2
  · refine ⟨⟨m, [sliceGroup m tensor.dataPtr tensor.nbytes 0]⟩, ?_, ⟨?_, ?_, ?_, ?_, ?_⟩, ?_⟩
    · simp only [performDMASlicing, hm]
      rw [if_neg hne, if_neg hwhole]
    · exact ⟨rfl, hsize, Nat.zero_add _⟩
    · intro group hgroup
      rw [List.mem_singleton.mp hgroup]
      rfl
    · intro group hgroup
      rw [List.mem_singleton.mp hgroup]
      exact (cutGranule_spec hpos hsize).1
    · intro group hgroup slice hslice
      rw [List.mem_singleton.mp hgroup] at hslice ⊢
      exact ((cutGranule_spec hpos hsize).2 slice hslice).1
    · intro group hgroup slice hslice
      rw [List.mem_singleton.mp hgroup] at hslice
      have hspec := (cutGranule_spec hpos hsize).2 slice hslice
      exact ⟨hspec.2.1, hspec.2.2.1⟩
    · intro group hgroup slice hslice
      rw [List.mem_singleton.mp hgroup] at hslice
      exact (((cutGranule_spec hpos hsize).2 slice hslice).2.2.2 _ hpages haligned).2

/-! ### Entries -/

/-- The pages that an entry denotes, where `prpListPage` is what the page at `prp2` has. -/
def PRPMappingEntry.dataPages (prpListPage : List ℕ) (entry : PRPMappingEntry) : List ℕ :=
  match entry.transferType with
  | .singlePage => [entry.prp1]
  | .dualPage => [entry.prp1, entry.prp2]
  | .list => entry.prp1 :: prpListPage.take (entry.dataLength ⌈/⌉ PRP_SIZE_SINGLE_PAGE - 1)

/-- The page with the list of number `k`: 512 addresses, and zeros behind the list. -/
def PrpCursor.prpListPage (c : PrpCursor) (k : ℕ) : List ℕ :=
  let prpList := c.prpLists.getD k []
  prpList ++ List.replicate (512 - prpList.length) 0

/-- The I/O addresses of the pages of a slice. -/
def SubSliceInfo.pages (ioaddrs : List ℕ) (slice : SubSliceInfo) : List ℕ :=
  (ioaddrs.drop (slice.globalOffset / PRP_SIZE_SINGLE_PAGE)).take (slice.size / PRP_SIZE_SINGLE_PAGE)

/-- Whether an entry has a list. -/
def PRPMappingEntry.hasList (entry : PRPMappingEntry) : Bool := decide (entry.transferType = .list)

/-- How many of the entries before the `i`-th have a list. -/
def listNumber (entries : List PRPMappingEntry) (i : ℕ) : ℕ :=
  (entries.take i).countP PRPMappingEntry.hasList

/-- The entry denotes the pages of its slice; its list, if it has one, has number `k`, is in the page of that
number, and has all further pages. -/
structure EntryRight (ioaddrs type2Ioaddrs : List ℕ) (slice : SubSliceInfo) (entry : PRPMappingEntry)
    (c : PrpCursor) (k : ℕ) : Prop where
  dataLength : entry.dataLength = slice.size
  tensorOffset : entry.tensorOffset = slice.offset
  pages : entry.dataPages (c.prpListPage k) = slice.pages ioaddrs
  prpList : entry.hasList = true → type2Ioaddrs[k]? = some entry.prp2 ∧
    c.prpLists[k]? = some (slice.pages ioaddrs).tail

/-- Lists that are written later do not change it. -/
theorem EntryRight.mono {ioaddrs type2Ioaddrs : List ℕ} {slice : SubSliceInfo} {entry : PRPMappingEntry}
    {c c' : PrpCursor} {k : ℕ} (h : EntryRight ioaddrs type2Ioaddrs slice entry c k)
    (hlists : c.prpLists <+: c'.prpLists) : EntryRight ioaddrs type2Ioaddrs slice entry c' k := by
  have hkeep : entry.hasList = true → c'.prpLists[k]? = c.prpLists[k]? := by
    intro hlist
    obtain ⟨rest, hrest⟩ := hlists
    rw [← hrest, (h.prpList hlist).2]
    have hlt := (List.getElem?_eq_some_iff.mp (h.prpList hlist).2).1
    rw [List.getElem?_append_left hlt]
    exact (h.prpList hlist).2
  refine ⟨h.dataLength, h.tensorOffset, ?_, fun hlist => ?_⟩
  · rw [← h.pages]
    cases htype : entry.transferType with
    | singlePage => simp only [PRPMappingEntry.dataPages, htype]
    | dualPage => simp only [PRPMappingEntry.dataPages, htype]
    | list =>
        have hlist : entry.hasList = true := by rw [PRPMappingEntry.hasList, htype, decide_eq_true rfl]
        simp only [PRPMappingEntry.dataPages, htype, PrpCursor.prpListPage, List.getD_eq_getElem?_getD,
          hkeep hlist]
  · rw [hkeep hlist]
    exact h.prpList hlist

/-- **The entry of one slice.** -/
theorem initializePRPEntry_right {ioaddrs type2Ioaddrs : List ℕ} {slice : SubSliceInfo} {c : PrpCursor}
    (hpos : 0 < slice.size) (hpages : PRP_SIZE_SINGLE_PAGE ∣ slice.size) (hlarge : slice.size ≤ 2 ^ 20)
    (hindex : c.ioaddrIndex = slice.globalOffset / PRP_SIZE_SINGLE_PAGE)
    (hroom : c.ioaddrIndex + slice.size / PRP_SIZE_SINGLE_PAGE ≤ ioaddrs.length)
    (hlists : c.prpLists.length = c.type2Index)
    (henough : PRP_SIZE_DUAL_PAGE < slice.size → c.type2Index < type2Ioaddrs.length) :
    ∃ entry c', initializePRPEntry ioaddrs type2Ioaddrs slice c = some (entry, c') ∧
      c'.ioaddrIndex = c.ioaddrIndex + slice.size / PRP_SIZE_SINGLE_PAGE ∧
      c'.type2Index = c.type2Index + [entry].countP PRPMappingEntry.hasList ∧
      c'.prpLists.length = c'.type2Index ∧ c.prpLists <+: c'.prpLists ∧
      (entry.hasList = true ↔ PRP_SIZE_DUAL_PAGE < slice.size) ∧
      EntryRight ioaddrs type2Ioaddrs slice entry c' c.type2Index := by
  obtain ⟨n, hn⟩ := hpages
  have hsingle : PRP_SIZE_SINGLE_PAGE = 4096 := rfl
  have hdual : PRP_SIZE_DUAL_PAGE = 8192 := rfl
  rw [hsingle] at hn
  have hceil : slice.size ⌈/⌉ PRP_SIZE_SINGLE_PAGE = n := by
    rw [hn, hsingle, Nat.ceilDiv_eq_add_pred_div, Nat.div_eq_iff (by omega)]
    omega
  have hquot : slice.size / PRP_SIZE_SINGLE_PAGE = n := by
    rw [hn, hsingle, Nat.mul_div_cancel_left n (by omega)]
  have hmod : slice.size % 2 ^ 32 = slice.size := Nat.mod_eq_of_lt (by omega)
  rw [hquot] at hroom ⊢
  have hdrop : ∀ i, i < n → ioaddrs.drop (c.ioaddrIndex + i) =
      ioaddrs.getD (c.ioaddrIndex + i) 0 :: ioaddrs.drop (c.ioaddrIndex + i + 1) := by
    intro i hi
    have hlt : c.ioaddrIndex + i < ioaddrs.length := by omega
    rw [List.getD_eq_getElem?_getD, List.getElem?_eq_getElem hlt, Option.getD_some,
      List.drop_eq_getElem_cons hlt]
  have hslice : slice.pages ioaddrs = (ioaddrs.drop c.ioaddrIndex).take n := by
    rw [SubSliceInfo.pages, hquot, hindex]
  simp only [initializePRPEntry, hceil, hmod]
  rw [if_neg (Nat.not_lt.mpr hroom)]
  by_cases hone : slice.size ≤ PRP_SIZE_SINGLE_PAGE
  · -- one page
    obtain rfl : n = 1 := by omega
    simp only [getPrpTransferType, if_pos hone]
    refine ⟨_, _, rfl, rfl, rfl, hlists, List.prefix_rfl, ?_, rfl, rfl, ?_, ?_⟩
    · exact iff_of_false Bool.false_ne_true (by omega)
    · rw [hslice, ← Nat.add_zero c.ioaddrIndex, hdrop 0 (by omega)]
      rfl
    · exact fun h => absurd h Bool.false_ne_true
  · by_cases htwo : slice.size ≤ PRP_SIZE_DUAL_PAGE
    · -- two pages
      obtain rfl : n = 2 := by omega
      simp only [getPrpTransferType, if_neg hone, if_pos htwo]
      refine ⟨_, _, rfl, rfl, rfl, hlists, List.prefix_rfl, ?_, rfl, rfl, ?_, ?_⟩
      · exact iff_of_false Bool.false_ne_true (by omega)
      · rw [hslice]
        have h0 := hdrop 0 (by omega)
        rw [Nat.add_zero] at h0
        rw [h0, hdrop 1 (by omega)]
        rfl
      · exact fun h => absurd h Bool.false_ne_true
    · -- a list of all pages but the first
      simp only [getPrpTransferType, if_neg hone, if_neg htwo]
      have hlt := henough (Nat.not_le.mp htwo)
      rw [List.getElem?_eq_getElem hlt]
      simp only
      have hmin : min (n - 1) 511 = n - 1 := by omega
      have h0 := hdrop 0 (by omega)
      rw [Nat.add_zero] at h0
      have htail : (slice.pages ioaddrs).tail = (ioaddrs.drop (c.ioaddrIndex + 1)).take (n - 1) := by
        obtain ⟨k, rfl⟩ : ∃ k, n = k + 1 := ⟨n - 1, by omega⟩
        rw [hslice, h0, List.take_succ_cons, List.tail_cons, Nat.add_sub_cancel]
      have hlength : ((ioaddrs.drop (c.ioaddrIndex + 1)).take (n - 1)).length = n - 1 := by
        rw [List.length_take, List.length_drop]
        omega
      have hget : ∀ l : List ℕ, (c.prpLists ++ [l])[c.type2Index]? = some l := by
        intro l
        rw [← hlists, List.getElem?_concat_length]
      refine ⟨_, _, rfl, rfl, rfl, ?_, List.prefix_append _ _, ?_, rfl, rfl, ?_, ?_⟩
      · rw [List.length_append, hlists, List.length_singleton]
      · exact iff_of_true rfl (Nat.not_le.mp htwo)
      · simp only [PRPMappingEntry.dataPages, PrpCursor.prpListPage, hceil, hmin]
        have hlist : ∀ l : List ℕ, (c.prpLists ++ [l]).getD c.type2Index [] = l := by
          intro l
          rw [List.getD_eq_getElem?_getD, hget, Option.getD_some]
        rw [hlist, List.take_append_of_le_length (Nat.le_of_eq hlength.symm),
          List.take_of_length_le (Nat.le_of_eq hlength), ← htail, hslice, h0]
        obtain ⟨k, rfl⟩ : ∃ k, n = k + 1 := ⟨n - 1, by omega⟩
        rw [List.take_succ_cons, List.tail_cons]
      · intro _
        refine ⟨List.getElem?_eq_getElem hlt, ?_⟩
        rw [hmin, htail, hget]

/-- **The entries of slices that follow one another.** -/
theorem initializePRPGroup_right {ioaddrs type2Ioaddrs : List ℕ} (slices : List SubSliceInfo)
    {start stop : ℕ} {c : PrpCursor}
    (htiles : Tiling.Tiles start (slices.map fun slice => (slice.globalOffset, slice.size)) stop)
    (hslices : ∀ slice ∈ slices, PRP_SIZE_SINGLE_PAGE ∣ slice.size ∧ slice.size ≤ 2 ^ 20)
    (hstart : PRP_SIZE_SINGLE_PAGE ∣ start) (hindex : c.ioaddrIndex = start / PRP_SIZE_SINGLE_PAGE)
    (hroom : stop / PRP_SIZE_SINGLE_PAGE ≤ ioaddrs.length) (hlists : c.prpLists.length = c.type2Index)
    (henough : c.type2Index + slices.countP (fun slice => decide (PRP_SIZE_DUAL_PAGE < slice.size)) ≤
      type2Ioaddrs.length) :
    ∃ entries c', initializePRPGroup ioaddrs type2Ioaddrs slices c = some (entries, c') ∧
      entries.length = slices.length ∧ c.prpLists <+: c'.prpLists ∧
      ∀ i slice, slices[i]? = some slice → ∃ entry, entries[i]? = some entry ∧
        EntryRight ioaddrs type2Ioaddrs slice entry c' (c.type2Index + listNumber entries i) := by
  induction slices generalizing start c with
  | nil =>
      refine ⟨[], c, rfl, rfl, List.prefix_rfl, fun i slice hi => ?_⟩
      rw [List.getElem?_nil] at hi
      cases hi
  | cons slice slices ih =>
      obtain ⟨hoffset, hpos, hrest⟩ := htiles
      obtain ⟨⟨hpages, hlarge⟩, hslices⟩ := List.forall_mem_cons.mp hslices
      simp only at hoffset hpos hrest
      have hnext : (start + slice.size) / PRP_SIZE_SINGLE_PAGE =
          start / PRP_SIZE_SINGLE_PAGE + slice.size / PRP_SIZE_SINGLE_PAGE := by
        have hpage : 0 < PRP_SIZE_SINGLE_PAGE := Nat.two_pow_pos 12
        obtain ⟨k, hk⟩ := hstart
        rw [hk, Nat.mul_add_div hpage, Nat.mul_div_cancel_left k hpage]
      have hfits : c.ioaddrIndex + slice.size / PRP_SIZE_SINGLE_PAGE ≤ ioaddrs.length := by
        rw [hindex, ← hnext]
        exact (Nat.div_le_div_right hrest.le).trans hroom
      rw [List.countP_cons] at henough
      have hlist : PRP_SIZE_DUAL_PAGE < slice.size → c.type2Index < type2Ioaddrs.length := by
        intro hlt
        rw [if_pos (decide_eq_true hlt)] at henough
        omega
      obtain ⟨entry, c₁, hentry, hindex₁, htype, hlists₁, hprefix, hhas, hright⟩ :=
        initializePRPEntry_right hpos hpages hlarge (hindex.trans (by rw [hoffset])) hfits hlists hlist
      have hcount : [entry].countP PRPMappingEntry.hasList =
          if decide (PRP_SIZE_DUAL_PAGE < slice.size) = true then 1 else 0 := by
        rw [List.countP_cons, List.countP_nil, Nat.zero_add]
        simp only [hhas, decide_eq_true_eq]
      obtain ⟨entries, c₂, hentries, hlength, hprefix₂, hrights⟩ := ih hrest hslices
        (Nat.dvd_add hstart hpages) (by rw [hindex₁, hindex, hnext]) hlists₁
        (by rw [htype, hcount]; omega)
      refine ⟨entry :: entries, c₂, ?_, congrArg (· + 1) hlength, hprefix.trans hprefix₂, ?_⟩
      · simp only [initializePRPGroup, hentry, hentries, Option.bind_eq_bind, Option.bind_some]
        rfl
      · intro i slice' hi
        cases i with
        | zero =>
            cases hi
            exact ⟨entry, rfl, hright.mono hprefix₂⟩
        | succ i =>
            obtain ⟨entry', hentry', hright'⟩ := hrights i slice' hi
            refine ⟨entry', hentry', ?_⟩
            have hnumber : c.type2Index + listNumber (entry :: entries) (i + 1) =
                c₁.type2Index + listNumber entries i := by
              rw [htype, listNumber, listNumber, List.take_succ_cons, Nat.add_assoc,
                ← List.countP_append, List.singleton_append]
            rw [hnumber]
            exact hright'

/-- The entries of two lists of slices are built one after the other. -/
theorem initializePRPGroup_append {ioaddrs type2Ioaddrs : List ℕ} (slices slices' : List SubSliceInfo)
    {c c' : PrpCursor} {entries : List PRPMappingEntry}
    (h : initializePRPGroup ioaddrs type2Ioaddrs (slices ++ slices') c = some (entries, c')) :
    ∃ entries₁ c₁ entries₂, initializePRPGroup ioaddrs type2Ioaddrs slices c = some (entries₁, c₁) ∧
      initializePRPGroup ioaddrs type2Ioaddrs slices' c₁ = some (entries₂, c') ∧
      entries = entries₁ ++ entries₂ := by
  induction slices generalizing c entries with
  | nil => exact ⟨[], c, entries, rfl, h, rfl⟩
  | cons slice slices ih =>
      simp only [List.cons_append, initializePRPGroup, Option.bind_eq_bind, Option.bind_eq_some_iff] at h
      obtain ⟨⟨entry, c₁⟩, hentry, ⟨entries', c₂⟩, hrest, heq⟩ := h
      cases heq
      obtain ⟨entries₁, c₃, entries₂, h₁, h₂, rfl⟩ := ih hrest
      refine ⟨entry :: entries₁, c₃, entries₂, ?_, h₂, rfl⟩
      simp only [initializePRPGroup, hentry, h₁, Option.bind_eq_bind, Option.bind_some]
      rfl

/-- **All granules are served in one pass** over their slices. -/
theorem initializePRPGroups_of_group {ioaddrs type2Ioaddrs : List ℕ} (groups : List GranularitySliceGroup)
    {c c' : PrpCursor} {entries : List PRPMappingEntry}
    (h : initializePRPGroup ioaddrs type2Ioaddrs (groups.flatMap GranularitySliceGroup.subSlices) c =
      some (entries, c')) :
    ∃ out, initializePRPGroups ioaddrs type2Ioaddrs groups c = some (out, c') ∧
      out.flatMap GranularitySliceGroup.prpMappings = entries ∧
      List.Forall₂ (fun group group' => group' = { group with prpMappings := group'.prpMappings } ∧
        group'.prpMappings.length = group.subSlices.length) groups out := by
  induction groups generalizing c entries with
  | nil =>
      cases h
      exact ⟨[], rfl, rfl, List.Forall₂.nil⟩
  | cons group groups ih =>
      rw [List.flatMap_cons] at h
      obtain ⟨entries₁, c₁, entries₂, h₁, h₂, rfl⟩ := initializePRPGroup_append _ _ h
      obtain ⟨out, hout, hflat, hforall⟩ := ih h₂
      have hlength : entries₁.length = group.subSlices.length := by
        have hmap := congrArg List.length (initializePRPGroup_lengths _ h₁)
        rwa [List.length_map, List.length_map] at hmap
      refine ⟨{ group with prpMappings := entries₁ } :: out, ?_, ?_, List.Forall₂.cons ⟨rfl, hlength⟩ hforall⟩
      · simp only [initializePRPGroups, h₁, hout, Option.bind_eq_bind, Option.bind_some]
        rfl
      · rw [List.flatMap_cons, hflat]

/-- The slices of the granules follow one another in the tensor. -/
theorem tiles_slices (groups : List GranularitySliceGroup) {start stop : ℕ}
    (hgroups : Tiling.Tiles start
      (groups.map fun group => (group.granularityOffset, group.granularitySize)) stop)
    (hslices : ∀ group ∈ groups,
      Tiling.Tiles 0 (group.subSlices.map fun slice => (slice.offset, slice.size)) group.granularitySize)
    (hoffsets : ∀ group ∈ groups, ∀ slice ∈ group.subSlices,
      slice.globalOffset = group.granularityOffset + slice.offset) :
    Tiling.Tiles start ((groups.flatMap GranularitySliceGroup.subSlices).map
      fun slice => (slice.globalOffset, slice.size)) stop := by
  induction groups generalizing start with
  | nil => exact hgroups
  | cons group groups ih =>
      obtain ⟨rfl, -, hrest⟩ := hgroups
      obtain ⟨hslice, hslices⟩ := List.forall_mem_cons.mp hslices
      obtain ⟨hoffset, hoffsets⟩ := List.forall_mem_cons.mp hoffsets
      rw [List.flatMap_cons, List.map_append]
      refine Tiling.Tiles.append ?_ (ih hrest hslices hoffsets)
      have hmoved := hslice.add group.granularityOffset
      rw [List.map_map, Nat.add_zero] at hmoved
      have hmap : group.subSlices.map (fun slice => (slice.globalOffset, slice.size)) =
          group.subSlices.map ((fun piece : ℕ × ℕ => (group.granularityOffset + piece.1, piece.2)) ∘
            fun slice => (slice.offset, slice.size)) :=
        List.map_congr_left fun slice hslice => by
          rw [hoffset slice hslice]
          rfl
      rw [hmap]
      exact hmoved

/-! ### Tensors -/

/-- The slices of all granules. -/
def DmaContext.subSlices (dma : DmaContext) : List SubSliceInfo :=
  dma.granularityGroups.flatMap GranularitySliceGroup.subSlices

/-- The entries of all granules. -/
def DmaContext.prpMappings (dma : DmaContext) : List PRPMappingEntry :=
  dma.granularityGroups.flatMap GranularitySliceGroup.prpMappings

/-- **The entries cover the tensor**: each granule has an entry for each of its slices, which denotes the pages
of the slice, and no two lists are in one page. -/
structure EntriesCover (ioaddrs type2Ioaddrs : List ℕ) (sliced dma : DmaContext) (c : PrpCursor) : Prop where
  groups : List.Forall₂ (fun group group' => group' = { group with prpMappings := group'.prpMappings } ∧
    group'.prpMappings.length = group.subSlices.length) sliced.granularityGroups dma.granularityGroups
  entries : ∀ i slice, sliced.subSlices[i]? = some slice → ∃ entry, dma.prpMappings[i]? = some entry ∧
    EntryRight ioaddrs type2Ioaddrs slice entry c (listNumber dma.prpMappings i)
  distinct : ∀ i j entry entry', i < j → dma.prpMappings[i]? = some entry →
    dma.prpMappings[j]? = some entry' → entry.hasList = true → entry'.hasList = true →
      listNumber dma.prpMappings i ≠ listNumber dma.prpMappings j

/-- An entry with a list has a number of its own. -/
theorem listNumber_lt {entries : List PRPMappingEntry} {i j : ℕ} {entry : PRPMappingEntry} (hij : i < j)
    (hi : entries[i]? = some entry) (hlist : entry.hasList = true) :
    listNumber entries i < listNumber entries j := by
  have hsucc : listNumber entries (i + 1) = listNumber entries i + 1 := by
    rw [listNumber, listNumber, List.take_add_one, hi, List.countP_append, Option.toList_some,
      List.countP_singleton, if_pos hlist]
  have hmono : listNumber entries (i + 1) ≤ listNumber entries j :=
    (List.take_sublist_take_left hij).countP_le
  omega

/-- **The entries of a tensor cover it exactly.**  The controllers have I/O sizes that their constructor accepts,
of which `m` is the least that is not zero; the tensor is valid and not empty, and the granularity is accepted.
Then the tensor is cut, and with an I/O address for each of its pages and enough pages for the lists, the
entries are built and cover it. -/
theorem registered_covers {nvmeControllers : List (Option ℕ)} {m : ℕ}
    (hcontrollers : ∀ maxIOsize, some maxIOsize ∈ nvmeControllers →
      ∃ paramsMaxIOsize, acceptMaxIOsize paramsMaxIOsize = some maxIOsize)
    (hm : IsLeast {m | some m ∈ nvmeControllers ∧ 0 < m} m) {tensor : Tensor}
    (hvalid : tensor.validate = true) (hsize : 0 < tensor.nbytes) {granularity : ℕ}
    (hgranularity : ¬(0 < granularity ∧ granularity % 4096 ≠ 0)) :
    ∃ sliced, performDMASlicing nvmeControllers tensor.dataPtr tensor.nbytes granularity = some sliced ∧
      TilesTensor m tensor sliced ∧
      ∀ ioaddrs type2Ioaddrs : List ℕ, tensor.nbytes / PRP_SIZE_SINGLE_PAGE ≤ ioaddrs.length →
        getPrpListSize sliced ≤ type2Ioaddrs.length →
        ∃ dma c, initializePRPGroups ioaddrs type2Ioaddrs sliced.granularityGroups ⟨0, 0, []⟩ =
            some (dma.granularityGroups, c) ∧
          initializePRPEntries ioaddrs type2Ioaddrs sliced = some dma ∧
          EntriesCover ioaddrs type2Ioaddrs sliced dma c := by
  obtain ⟨paramsMaxIOsize, haccept⟩ := hcontrollers m hm.1.1
  obtain ⟨hpages, hlarge⟩ := acceptMaxIOsize_eq_some haccept
  rw [Tensor.validate, Bool.and_eq_true, decide_eq_true_iff, decide_eq_true_iff] at hvalid
  have haligned : PRP_SIZE_SINGLE_PAGE ∣ tensor.nbytes := by
    obtain ⟨n, hn⟩ := Nat.dvd_of_mod_eq_zero hvalid.2
    rw [GPU_PAGE_SIZE] at hn
    exact ⟨16 * n, by rw [hn, PRP_SIZE_SINGLE_PAGE, ← Nat.mul_assoc]⟩
  have hwhole : PRP_SIZE_SINGLE_PAGE ∣ granularity := by
    rw [PRP_SIZE_SINGLE_PAGE]
    omega
  obtain ⟨sliced, hsliced, htiles, hslices⟩ := performDMASlicing_tiles (minMaxIoSize_of_isLeast hm hlarge)
    hm.1.2 hlarge hpages hsize haligned hwhole
  refine ⟨sliced, hsliced, htiles, fun ioaddrs type2Ioaddrs hroom henough => ?_⟩
  have hall : ∀ slice ∈ sliced.subSlices, PRP_SIZE_SINGLE_PAGE ∣ slice.size ∧ slice.size ≤ 2 ^ 20 := by
    intro slice hslice
    obtain ⟨group, hgroup, hmem⟩ := List.mem_flatMap.mp hslice
    exact ⟨hslices group hgroup slice hmem, (htiles.size group hgroup slice hmem).2.trans hlarge⟩
  obtain ⟨entries, c, hentries, -, -, hright⟩ := @initializePRPGroup_right ioaddrs type2Ioaddrs
    sliced.subSlices 0 tensor.nbytes ⟨0, 0, []⟩
    (tiles_slices _ htiles.groups htiles.subSlices htiles.globalOffset) hall (Nat.dvd_zero _)
    (Nat.zero_div _).symm hroom rfl (by rw [Nat.zero_add]; exact henough)
  obtain ⟨out, hout, hflat, hforall⟩ := initializePRPGroups_of_group sliced.granularityGroups hentries
  have hne : sliced.granularityGroups ≠ [] := by
    intro hnil
    have hgroups := htiles.groups
    rw [hnil] at hgroups
    exact hsize.ne hgroups
  refine ⟨{ sliced with granularityGroups := out }, c, hout, ?_, ⟨hforall, ?_, ?_⟩⟩
  · rw [initializePRPEntries, if_neg hne, hout, Option.map_some]
  · intro i slice hi
    rw [DmaContext.prpMappings, hflat]
    obtain ⟨entry, hentry, hright⟩ := hright i slice hi
    rw [Nat.zero_add] at hright
    exact ⟨entry, hentry, hright⟩
  · intro i j entry entry' hij hi hj hlist _
    exact (listNumber_lt hij hi hlist).ne

theorem registered_covers_threeGranules :
    ∃ sliced, performDMASlicing [some 131072, none, some 0] 65536 196608 69632 = some sliced ∧
      TilesTensor 131072 ⟨65536, 196608⟩ sliced ∧
      ∀ ioaddrs type2Ioaddrs : List ℕ, 196608 / PRP_SIZE_SINGLE_PAGE ≤ ioaddrs.length →
        getPrpListSize sliced ≤ type2Ioaddrs.length →
        ∃ dma c, initializePRPGroups ioaddrs type2Ioaddrs sliced.granularityGroups ⟨0, 0, []⟩ =
            some (dma.granularityGroups, c) ∧
          initializePRPEntries ioaddrs type2Ioaddrs sliced = some dma ∧
          EntriesCover ioaddrs type2Ioaddrs sliced dma c := by
  refine @registered_covers [some 131072, none, some 0] 131072 ?_ ⟨⟨List.mem_cons_self, by decide⟩, ?_⟩
    ⟨65536, 196608⟩ (by decide) (by decide) 69632 (by decide)
  · intro maxIOsize hmem
    simp only [List.mem_cons, Option.some.injEq, reduceCtorEq, List.not_mem_nil, or_false, false_or] at hmem
    rcases hmem with rfl | rfl
    · exact ⟨128, by decide⟩
    · exact ⟨0, by decide⟩
  · rintro m ⟨hmem, hpos⟩
    simp only [List.mem_cons, Option.some.injEq, reduceCtorEq, List.not_mem_nil, or_false, false_or] at hmem
    omega

end GeminiFS
end InfiniKV
