/-
**Striping over NVMe files.**

A GPU file is a sequence of granules, two for each layer.  A kernel puts a slice of a granule into the
block of the file that its offset and its number give, counted in units of the length of the slice
itself.  As long as all slices have one length, distinct slices get distinct blocks.  If the I/O limit
does not divide the granule, then its last slice is shorter than the others, is placed by a unit of its
own, and falls on one of them.

Main definitions:

* `InfiniKV.GeminiFS.Slice` — a slice of a GPU file, by layer, cache and number;
* `InfiniKV.GeminiFS.sliceContext` — the context that a transfer makes for it;
* `InfiniKV.GeminiFS.StripesDisjoint` — no two slices share a byte.

Main results:

* `InfiniKV.GeminiFS.sliceContext_placement` — **where a slice goes**;
* `InfiniKV.GeminiFS.stripesDisjoint_iff` — **when no two slices meet**.
-/

import InfiniKV.BatchedXfer

set_option relaxedAutoImplicit false
set_option autoImplicit false

namespace InfiniKV
namespace GeminiFS

/-- A slice of a GPU file. -/
structure Slice where
  layer : ℕ
  kv : KV
  index : ℕ
  deriving DecidableEq, Repr

/-- K caches come before V caches. -/
def KV.number : KV → ℕ
  | .k => 0
  | .v => 1

/-- The number of the granule of a slice in its file. -/
def Slice.granule (s : Slice) : ℕ := 2 * s.layer + s.kv.number

/-- The context that a transfer of the cache makes for a slice, on a file with the given NVMe files. -/
def sliceContext (gpu : GPUController) (nvmeFiles : List NVMeFile) (caches : ℕ → KV → Tensor)
    (len : ℕ) (s : Slice) : Option GPUIoContext := do
  let mappings ← gpu.getPrpMappings (caches s.layer s.kv)
  (ioContexts nvmeFiles mappings (s.kv.fileOffset s.layer len))[s.index]?

/-- No two slices of the first `layers` layers share a byte. -/
def StripesDisjoint (gpu : GPUController) (nvmeFiles : List NVMeFile) (caches : ℕ → KV → Tensor)
    (len layers : ℕ) : Prop :=
  ∀ s t : Slice, s ≠ t → s.layer < layers → t.layer < layers →
    ∀ c d, sliceContext gpu nvmeFiles caches len s = some c →
      sliceContext gpu nvmeFiles caches len t = some d → c.placement.Disjoint d.placement

theorem KV.fileOffset_eq (layerIdx len : ℕ) (kv : KV) :
    kv.fileOffset layerIdx len = (2 * layerIdx + kv.number) * len := by
  cases kv with
  | k =>
      rw [KV.fileOffset, KV.number]
      ring
  | v =>
      rw [KV.fileOffset, KV.number]
      ring

theorem Slice.eq_of_granule {s t : Slice} (hgranule : s.granule = t.granule)
    (hindex : s.index = t.index) : s = t := by
  obtain ⟨layer, kv, index⟩ := s
  obtain ⟨layer', kv', index'⟩ := t
  simp only [Slice.granule] at hgranule hindex
  cases kv with
  | k =>
      cases kv' with
      | k =>
          simp only [KV.number] at hgranule
          obtain rfl : layer = layer' := by omega
          rw [hindex]
      | v =>
          simp only [KV.number] at hgranule
          omega
  | v =>
      cases kv' with
      | k =>
          simp only [KV.number] at hgranule
          omega
      | v =>
          simp only [KV.number] at hgranule
          obtain rfl : layer = layer' := by omega
          rw [hindex]

section Placements

variable {maxIOsizes : List (Option ℕ)} {granularity : ℕ} {gpu : GPUController}
  {nvmeFiles : List NVMeFile} {caches : ℕ → KV → Tensor}

/-- The length of slice `j` of a granule. -/
def sliceLength (maxIo granularity j : ℕ) : ℕ := min (granularity - j * maxIo) maxIo

/-- **Where a slice goes**: its length is the unit that it is placed by. -/
theorem sliceContext_placement (hgpu : gpu.Registered maxIOsizes granularity) (hpos : 0 < granularity)
    (hio : 0 < minMaxIoSize maxIOsizes) (hio' : minMaxIoSize maxIOsizes < 2 ^ 32) {s : Slice}
    {c : GPUIoContext} (h : sliceContext gpu nvmeFiles caches granularity s = some c) :
    s.index < granularity ⌈/⌉ minMaxIoSize maxIOsizes ∧
      c.placement = Tiling.roundRobin nvmeFiles.length
        (sliceLength (minMaxIoSize maxIOsizes) granularity s.index)
        (s.granule * granularity / sliceLength (minMaxIoSize maxIOsizes) granularity s.index +
          s.index) := by
  rw [sliceContext, Option.bind_eq_bind, Option.bind_eq_some_iff] at h
  obtain ⟨mappings, hmappings, hget⟩ := h
  rw [GPUController.getPrpMappings] at hmappings
  split_ifs at hmappings
  have hlengths := (hgpu.lengths hpos).2 _ _ hmappings
  rw [ioContexts, List.getElem?_mapIdx, Option.map_eq_some_iff] at hget
  obtain ⟨entry, hentry, rfl⟩ := hget
  -- the entry is as long as the piece with its number
  have hcount : mappings.length = granularity ⌈/⌉ minMaxIoSize maxIOsizes := by
    have hlength := congrArg List.length hlengths
    rwa [List.length_map, List.length_map, Tiling.length_cut hio] at hlength
  have hindex : s.index < granularity ⌈/⌉ minMaxIoSize maxIOsizes := by
    rw [← hcount]
    exact (List.getElem?_eq_some_iff.mp hentry).1
  have hlength : entry.dataLength = sliceLength (minMaxIoSize maxIOsizes) granularity s.index := by
    have hat := congrArg (fun l => l[s.index]?) hlengths
    simp only [List.getElem?_map, hentry, Option.map_some, Tiling.cut_eq hio, List.map_map,
      List.getElem?_range hindex, Function.comp_apply, Option.some.injEq] at hat
    rw [hat, sliceLength, Nat.mod_eq_of_lt]
    omega
  refine ⟨hindex, ?_⟩
  simp only [GPUIoContext.placement, hlength, KV.fileOffset_eq]
  rfl

/-- Every slice of a registered cache has a context. -/
theorem exists_sliceContext (nvmeFiles : List NVMeFile)
    (hgpu : gpu.Registered maxIOsizes granularity) (hpos : 0 < granularity)
    (hio : 0 < minMaxIoSize maxIOsizes) {s : Slice}
    (hcache : (gpu.getPrpMappings (caches s.layer s.kv)).isSome = true)
    (hindex : s.index < granularity ⌈/⌉ minMaxIoSize maxIOsizes) :
    ∃ c, sliceContext gpu nvmeFiles caches granularity s = some c := by
  obtain ⟨mappings, hmappings⟩ := Option.isSome_iff_exists.mp hcache
  have hlookup := hmappings
  rw [GPUController.getPrpMappings] at hlookup
  split_ifs at hlookup
  have hlength := congrArg List.length ((hgpu.lengths hpos).2 _ _ hlookup)
  rw [List.length_map, List.length_map, Tiling.length_cut hio] at hlength
  rw [sliceContext, hmappings, Option.bind_eq_bind, Option.bind_some, ioContexts,
    List.getElem?_mapIdx, List.getElem?_eq_getElem (by omega), Option.map_some]
  exact ⟨_, rfl⟩

/-! ### Slices of one length -/

/-- **Slices of one length do not meet**: with `q` of them in a granule, slice `j` of granule `b` is
block `b * q + j` of the file. -/
theorem stripesDisjoint_of_unit {unit q layers : ℕ} (hgpu : gpu.Registered maxIOsizes granularity)
    (hpos : 0 < granularity) (hio : 0 < minMaxIoSize maxIOsizes)
    (hio' : minMaxIoSize maxIOsizes < 2 ^ 32) (hunit : 0 < unit) (hgranule : granularity = q * unit)
    (hcount : granularity ⌈/⌉ minMaxIoSize maxIOsizes = q)
    (hlengths : ∀ j < q, sliceLength (minMaxIoSize maxIOsizes) granularity j = unit) :
    StripesDisjoint gpu nvmeFiles caches granularity layers := by
  intro s t hne _ _ c d hc hd
  obtain ⟨hs, hcp⟩ := sliceContext_placement hgpu hpos hio hio' hc
  obtain ⟨ht, hdp⟩ := sliceContext_placement hgpu hpos hio hio' hd
  rw [hcount] at hs ht
  have hblock : ∀ b, b * granularity / unit = b * q := by
    intro b
    rw [hgranule, ← Nat.mul_assoc, Nat.mul_div_cancel _ hunit]
  rw [hcp, hdp, hlengths _ hs, hlengths _ ht, hblock, hblock]
  apply Tiling.roundRobin_disjoint
  intro hsame
  obtain ⟨hgranule', hindex⟩ := Tiling.mul_add_inj hs ht hsame
  exact hne (Slice.eq_of_granule hgranule' hindex)

/-! ### Slices of two lengths -/

/-- If the limit is below the granule and does not divide it, then two slices of the first layer
meet: the last slice of the K cache, and one with the whole limit that lies on the same NVMe file. -/
theorem slices_meet {maxIo n : ℕ} (hn : 0 < n) (hio : 0 < maxIo) (hlt : maxIo < granularity)
    (hdvd : ¬maxIo ∣ granularity) :
    ∃ s t : Slice, s ≠ t ∧ s.layer = 0 ∧ t.layer = 0 ∧ s.index < granularity ⌈/⌉ maxIo ∧
      t.index < granularity ⌈/⌉ maxIo ∧
      ¬(Tiling.roundRobin n (sliceLength maxIo granularity s.index)
          (s.granule * granularity / sliceLength maxIo granularity s.index + s.index)).Disjoint
        (Tiling.roundRobin n (sliceLength maxIo granularity t.index)
          (t.granule * granularity / sliceLength maxIo granularity t.index + t.index)) := by
  have hsplit := Nat.div_add_mod granularity maxIo
  have hrest : 0 < granularity % maxIo := by
    rw [Nat.pos_iff_ne_zero]
    exact fun hzero => hdvd (Nat.dvd_of_mod_eq_zero hzero)
  have hsmall : granularity % maxIo < maxIo := Nat.mod_lt _ hio
  have hq : 0 < granularity / maxIo := Nat.div_pos hlt.le hio
  generalize hqdef : granularity / maxIo = q at hsplit hq
  generalize hrdef : granularity % maxIo = r at hsplit hrest hsmall
  rw [Nat.mul_comm] at hsplit
  -- the last slice has the rest, all slices before it have the limit
  have hlast : sliceLength maxIo granularity q = r := by
    rw [sliceLength, ← hsplit, Nat.add_sub_cancel_left, Nat.min_eq_left hsmall.le]
  have hfull : ∀ j < q, sliceLength maxIo granularity j = maxIo := by
    intro j hj
    have hmul := Nat.mul_le_mul_right maxIo (Nat.succ_le_of_lt hj)
    rw [Nat.succ_mul] at hmul
    rw [sliceLength, Nat.min_eq_right]
    omega
  have hindex : ∀ j ≤ q, j < granularity ⌈/⌉ maxIo := by
    intro j hj
    rw [Tiling.lt_ceilDiv_iff hio]
    have hmul := Nat.mul_le_mul_right maxIo hj
    omega
  rcases Nat.lt_or_ge q n with hqn | hqn
  · -- both begin the NVMe file with number `q`
    refine ⟨⟨0, .k, q⟩, ⟨0, .v, 0⟩, by simp, rfl, rfl, hindex q le_rfl, hindex 0 (by omega), ?_⟩
    simp only [Slice.granule, KV.number, hlast, hfull 0 hq]
    have hblock : (2 * 0 + 1) * granularity / maxIo + 0 = q := by
      rw [Nat.mul_zero, Nat.zero_add, Nat.one_mul, Nat.add_zero, hqdef]
    rw [hblock, Nat.mul_zero, Nat.zero_add, Nat.zero_mul, Nat.zero_div, Nat.zero_add]
    apply Tiling.roundRobin_meets rfl hrest
    · rw [Nat.div_eq_of_lt hqn, Nat.zero_mul, Nat.zero_mul]
    · rw [Nat.div_eq_of_lt hqn, Nat.zero_mul, Nat.zero_mul, Nat.zero_add]
      exact hio
  · -- the last slice lies in an earlier row of its NVMe file
    have hrow : 0 < q / n := Nat.div_pos hqn hn
    have hearlier : q / n * r / maxIo < q / n := by
      rw [Nat.div_lt_iff_lt_mul hio]
      exact Nat.mul_lt_mul_of_pos_left hsmall hrow
    have hmod : q % n < n := Nat.mod_lt _ hn
    have hqsplit := Nat.div_add_mod q n
    rw [Nat.mul_comm] at hqsplit
    generalize hjdef : q / n * r / maxIo * n + q % n = j
    have hj : j < q := by
      have hmul := Nat.mul_le_mul_right n (Nat.succ_le_of_lt hearlier)
      rw [Nat.succ_mul] at hmul
      omega
    have hjdiv : j / n = q / n * r / maxIo := by
      rw [← hjdef, Nat.mul_comm, Nat.mul_add_div hn, Nat.div_eq_of_lt hmod, Nat.add_zero]
    have hjmod : j % n = q % n := by
      rw [← hjdef, Nat.mul_comm, Nat.mul_add_mod, Nat.mod_mod]
    refine ⟨⟨0, .k, q⟩, ⟨0, .k, j⟩, ?_, rfl, rfl, hindex q le_rfl, hindex j hj.le, ?_⟩
    · simp only [ne_eq, Slice.mk.injEq, true_and]
      omega
    · simp only [Slice.granule, KV.number, hlast, hfull j hj, Nat.mul_zero, Nat.zero_mul, Nat.zero_div,
        Nat.zero_add]
      apply Tiling.roundRobin_meets hjmod.symm hrest
      · rw [hjdiv]
        exact Nat.div_mul_le_self _ _
      · rw [hjdiv]
        have hnext := Nat.lt_div_mul_add hio (a := q / n * r)
        exact hnext

/-! ### The condition -/

/-- **When no two slices meet**: exactly if there is no layer, or the granule is one slice, or the I/O
limit divides the granule. -/
theorem stripesDisjoint_iff (hgpu : gpu.Registered maxIOsizes granularity) (hpos : 0 < granularity)
    (hio : 4096 ≤ minMaxIoSize maxIOsizes) (hio' : minMaxIoSize maxIOsizes ≤ 1048576)
    (hfiles : nvmeFiles ≠ []) {layers : ℕ}
    (hcaches : ∀ layer < layers, ∀ kv, (gpu.getPrpMappings (caches layer kv)).isSome = true) :
    StripesDisjoint gpu nvmeFiles caches granularity layers ↔
      layers = 0 ∨ granularity ≤ minMaxIoSize maxIOsizes ∨
        minMaxIoSize maxIOsizes ∣ granularity := by
  have hlimit : 0 < minMaxIoSize maxIOsizes := by omega
  constructor
  · intro hdisjoint
    by_contra hnot
    push Not at hnot
    obtain ⟨hlayers, hlt, hdvd⟩ := hnot
    obtain ⟨s, t, hne, hs, ht, hsi, hti, hmeet⟩ := slices_meet
      (n := nvmeFiles.length) (List.length_pos_iff.mpr hfiles) hlimit hlt hdvd
    have hcache : ∀ u : Slice, u.layer = 0 →
        (gpu.getPrpMappings (caches u.layer u.kv)).isSome = true := by
      intro u hu
      exact hcaches u.layer (by omega) u.kv
    obtain ⟨c, hc⟩ := exists_sliceContext nvmeFiles hgpu hpos hlimit (hcache s hs) hsi
    obtain ⟨d, hd⟩ := exists_sliceContext nvmeFiles hgpu hpos hlimit (hcache t ht) hti
    have hcp := (sliceContext_placement hgpu hpos hlimit (by omega) hc).2
    have hdp := (sliceContext_placement hgpu hpos hlimit (by omega) hd).2
    have hcd := hdisjoint s t hne (by omega) (by omega) c d hc hd
    rw [hcp, hdp] at hcd
    exact hmeet hcd
  · rintro (rfl | hle | hdvd)
    · intro s t _ hs
      omega
    · -- one slice
      have hcount : granularity ⌈/⌉ minMaxIoSize maxIOsizes = 1 := by
        rw [← Tiling.length_cut hlimit, Tiling.cut_of_le hpos hle]
        rfl
      apply stripesDisjoint_of_unit hgpu hpos hlimit (by omega) hpos (Nat.one_mul _).symm hcount
      intro j hj
      obtain rfl : j = 0 := by omega
      rw [sliceLength, Nat.zero_mul, Nat.sub_zero, Nat.min_eq_left hle]
    · -- all slices have the limit
      obtain ⟨q, rfl⟩ := hdvd
      have hcount : (minMaxIoSize maxIOsizes * q) ⌈/⌉ minMaxIoSize maxIOsizes = q := by
        simpa using smul_ceilDiv hlimit q
      apply stripesDisjoint_of_unit hgpu hpos hlimit (by omega) hlimit (Nat.mul_comm _ _) hcount
      intro j hj
      have hmul := Nat.mul_le_mul_left (minMaxIoSize maxIOsizes) (Nat.succ_le_of_lt hj)
      rw [Nat.mul_succ, Nat.mul_comm _ j] at hmul
      rw [sliceLength, Nat.min_eq_right]
      omega

end Placements

/-! ### Granules of two slices -/

/-- A controller with one registered tensor: the K and the V granule of one layer, of `granularity` bytes
each, cut at `maxIo` bytes. -/
def oneLayerGpu (maxIo granularity : ℕ) : GPUController :=
  (GPUController.registerTensorMemory ⟨[some maxIo], [], ∅⟩ ⟨0, 2 * granularity⟩ granularity
    [4096, 8192, 12288, 16384, 20480, 24576] []).getD ⟨[some maxIo], [], ∅⟩

/-- Its caches. -/
def oneLayerCaches (granularity : ℕ) (_ : ℕ) : KV → Tensor
  | .k => ⟨0, granularity⟩
  | .v => ⟨granularity, granularity⟩

/-- An NVMe file of one extent. -/
def oneExtentFile : NVMeFile := ⟨⟨0, 512, 65536, 12, [⟨0, 1048576, 69632, 0⟩]⟩, 4096, 9⟩

/-- Granules of two slices of 4096 bytes do not meet. -/
theorem stripesDisjoint_two_pages :
    StripesDisjoint (oneLayerGpu 4096 8192) [oneExtentFile] (oneLayerCaches 8192) 8192 1 := by
  have hgpu : (oneLayerGpu 4096 8192).Registered [some 4096] 8192 :=
    .tensor .none (by decide) (show GPUController.registerTensorMemory ⟨[some 4096], [], ∅⟩
      ⟨0, 2 * 8192⟩ 8192 [4096, 8192, 12288, 16384, 20480, 24576] [] = some (oneLayerGpu 4096 8192)
      from rfl)
  refine (stripesDisjoint_iff hgpu (by decide) (by decide) (by decide) (by decide) ?_).mpr
    (Or.inr (Or.inr (by decide)))
  intro layer _ kv
  cases kv with
  | k => rfl
  | v => rfl

/-- In a granule of three pages that is cut at two, the second slice falls into the first. -/
theorem not_stripesDisjoint_three_pages :
    (oneLayerGpu 8192 12288).Registered [some 8192] 12288 ∧
      (∀ kv, ((oneLayerGpu 8192 12288).getPrpMappings (oneLayerCaches 12288 0 kv)).isSome = true) ∧
      ¬StripesDisjoint (oneLayerGpu 8192 12288) [oneExtentFile] (oneLayerCaches 12288) 12288 1 := by
  refine ⟨?_, ?_, ?_⟩
  · exact .tensor .none (by decide) (show GPUController.registerTensorMemory ⟨[some 8192], [], ∅⟩
      ⟨0, 2 * 12288⟩ 12288 [4096, 8192, 12288, 16384, 20480, 24576] [] = some (oneLayerGpu 8192 12288)
      from rfl)
  · intro kv
    cases kv with
    | k => rfl
    | v => rfl
  · intro hdisjoint
    have hmeet := hdisjoint ⟨0, .k, 0⟩ ⟨0, .k, 1⟩ (by decide) (by decide) (by decide) _ _ rfl rfl
    revert hmeet
    decide

end GeminiFS
end InfiniKV
