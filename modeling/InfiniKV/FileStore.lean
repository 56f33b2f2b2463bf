/-
**Where the bytes of a GPU file lie, and what a transfer moves.**

A tensor of a GPU file is cut into slices of one length.  Slice by slice the tensors go to the NVMe files in turn,
and in each NVMe file the header says where on the disk its bytes lie.  A transfer issues a command for each slice
of its tensors; the controllers work the commands off in any order.

Main definitions:

* `InfiniKV.GeminiFS.GPUFileManager.location` — where a byte of a GPU file lies;
* `InfiniKV.GeminiFS.NVMeController.Sound` — the file system has laid the files of a controller as it should;
* `InfiniKV.GeminiFS.DmaReady`, `InfiniKV.GeminiFS.GPUController.Denotes` — tensors have been registered, and their
  entries denote their slices;
* `InfiniKV.GeminiFS.GPUIoContext.byteMoves` — what the controllers move for a context.

Main results:

* `InfiniKV.GeminiFS.GPUFileManager.location_inj` — **no two bytes of GPU files lie in one place**;
* `InfiniKV.GeminiFS.byteMoves_slice` — **what is moved for a slice**.
-/

import InfiniKV.FileOwners
import InfiniKV.RegisteredPages
import InfiniKV.XferSlices

set_option relaxedAutoImplicit false
set_option autoImplicit false

namespace InfiniKV
namespace GeminiFS

/-! ### Where the bytes lie -/

/-- Bytes have addresses of their own. -/
theorem DmaDevice.byteAddr_injective {device : DmaDevice} (hinj : Function.Injective device.ioaddr)
    (haligned : ∀ page, PRP_SIZE_SINGLE_PAGE ∣ device.ioaddr page) : Function.Injective device.byteAddr := by
  have hpage : 0 < PRP_SIZE_SINGLE_PAGE := Nat.two_pow_pos 12
  intro a b heq
  rw [DmaDevice.byteAddr, DmaDevice.byteAddr] at heq
  obtain ⟨p, hp⟩ := haligned (a / PRP_SIZE_SINGLE_PAGE)
  obtain ⟨q, hq⟩ := haligned (b / PRP_SIZE_SINGLE_PAGE)
  have hsplit : p * PRP_SIZE_SINGLE_PAGE + a % PRP_SIZE_SINGLE_PAGE =
      q * PRP_SIZE_SINGLE_PAGE + b % PRP_SIZE_SINGLE_PAGE := by
    rw [Nat.mul_comm p, Nat.mul_comm q, ← hp, ← hq, heq]
  obtain ⟨rfl, hbyte⟩ := Tiling.mul_add_inj (Nat.mod_lt a hpage) (Nat.mod_lt b hpage) hsplit
  have hsame := hinj (hp.trans hq.symm)
  rw [← Nat.div_add_mod a PRP_SIZE_SINGLE_PAGE, ← Nat.div_add_mod b PRP_SIZE_SINGLE_PAGE, hsame, hbyte]

namespace GPUFileManager

/-- The number of NVMe files of a GPU file. -/
def devices (m : GPUFileManager) : ℕ := min m.nvmeControllers.length 4

/-- The header of the NVMe file that a GPU file has on controller `j`. -/
def nvmeHdr (m : GPUFileManager) (fileId j : ℕ) : Option GeminiHdr := do
  let desc ← m.descs.lookup fileId
  let c ← m.nvmeControllers[j]?
  c.files (desc.nvmeMapping.fileId j)

/-- Where byte `x` of tensor `granule` of a GPU file lies: on which controller, and at which byte of its disk.
The tensors are cut into `perTensor` slices of `unit` bytes. -/
def location (m : GPUFileManager) (unit perTensor fileId granule x : ℕ) : Option (ℕ × ℕ) := do
  let place := Tiling.roundRobin m.devices unit (granule * perTensor + x / unit)
  let hdr ← m.nvmeHdr fileId place.device
  let y ← Extents.image hdr.onDisk (place.start + x % unit)
  return (place.device, y)

/-- The slices of a tensor have room in the NVMe files of a GPU file. -/
def Room (m : GPUFileManager) (unit perTensor fileId granule : ℕ) : Prop :=
  ∀ j < perTensor, ∃ hdr, m.nvmeHdr fileId ((granule * perTensor + j) % m.devices) = some hdr ∧
    ((granule * perTensor + j) / m.devices + 1) * unit ≤ hdr.virtualSpaceSize

end GPUFileManager

/-- What the header of a file says is right, for transfers of `unit` bytes: slices are whole blocks, and lie in
one piece; blocks are whole blocks of the controller. -/
structure GeminiHdr.Sound (hdr : GeminiHdr) (unit blkSizeLog : ℕ) : Prop where
  mapped : hdr.Mapped
  block : 2 ^ hdr.blockBit ∣ unit
  lba : ∀ e ∈ hdr.onDisk, 2 ^ blkSizeLog ∣ e.physical ∧ 2 ^ blkSizeLog ∣ e.length
  lt : ∀ e ∈ hdr.onDisk, e.physical + e.length ≤ 2 ^ 64
  joined : ∀ row, (row + 1) * unit ≤ hdr.virtualSpaceSize → Extents.Joined hdr.onDisk (row * unit) unit

/-- The file system has laid the files of a controller as it should, and no two share a byte of the disk. -/
structure NVMeController.Sound (c : NVMeController) (unit : ℕ) : Prop where
  page : c.pageSize ∣ unit
  blocks : 2 ^ c.blkSizeLog ∣ unit
  count : unit ≤ 2 ^ 16 * 2 ^ c.blkSizeLog
  files : ∀ id hdr, c.files id = some hdr → hdr.Sound unit c.blkSizeLog
  apart : ∀ id id' hdr hdr', c.files id = some hdr → c.files id' = some hdr' → id ≠ id' →
    ∀ e ∈ hdr.onDisk, ∀ e' ∈ hdr'.onDisk,
      e.physical + e.length ≤ e'.physical ∨ e'.physical + e'.length ≤ e.physical

namespace GPUFileManager

/-- All controllers are as they should be. -/
def Sound (m : GPUFileManager) (unit : ℕ) : Prop := ∀ c ∈ m.nvmeControllers, c.Sound unit

variable {m : GPUFileManager} {unit perTensor : ℕ}

/-- The NVMe file in which a byte lies. -/
theorem nvmeHdr_eq_some {fileId j : ℕ} {hdr : GeminiHdr} :
    m.nvmeHdr fileId j = some hdr ↔ ∃ desc c, m.descs.lookup fileId = some desc ∧
      m.nvmeControllers[j]? = some c ∧ c.files (desc.nvmeMapping.fileId j) = some hdr := by
  simp only [nvmeHdr, Option.bind_eq_bind, Option.bind_eq_some_iff]
  constructor
  · rintro ⟨desc, hdesc, c, hc, hhdr⟩
    exact ⟨desc, c, hdesc, hc, hhdr⟩
  · rintro ⟨desc, c, hdesc, hc, hhdr⟩
    exact ⟨desc, hdesc, c, hc, hhdr⟩

theorem location_eq_some {fileId granule x : ℕ} {disk : ℕ × ℕ} :
    m.location unit perTensor fileId granule x = some disk ↔
      disk.1 = (granule * perTensor + x / unit) % m.devices ∧ ∃ hdr, m.nvmeHdr fileId disk.1 = some hdr ∧
        Extents.image hdr.onDisk ((granule * perTensor + x / unit) / m.devices * unit + x % unit) =
          some disk.2 := by
  obtain ⟨device, y⟩ := disk
  simp only [location, Tiling.roundRobin, Option.bind_eq_bind, Option.bind_eq_some_iff]
  constructor
  · rintro ⟨hdr, hhdr, y', hy', heq⟩
    cases heq
    exact ⟨rfl, hdr, hhdr, hy'⟩
  · rintro ⟨rfl, hdr, hhdr, hy⟩
    exact ⟨hdr, hhdr, y, hy, rfl⟩

theorem Stays.devices {m' : GPUFileManager} {fileId : ℕ} (h : Stays m m' fileId) : m'.devices = m.devices := by
  rw [GPUFileManager.devices, GPUFileManager.devices, h.length]

/-- The NVMe files of a file that stays. -/
theorem Stays.nvmeHdr {m' : GPUFileManager} {fileId : ℕ} (h : Stays m m' fileId) {j : ℕ} (hj : j < 4)
    {hdr : GeminiHdr}
    (hhdr : m.nvmeHdr fileId j = some hdr) : m'.nvmeHdr fileId j = some hdr := by
  obtain ⟨desc, c, hdesc, hc, hfile⟩ := nvmeHdr_eq_some.1 hhdr
  obtain ⟨c', hc', hfile'⟩ := h.files desc j c hdr hdesc hj hc hfile
  exact nvmeHdr_eq_some.2 ⟨desc, c', h.lookup desc hdesc, hc', hfile'⟩

/-- **No two bytes of GPU files lie in one place.** -/
theorem location_inj (howners : Owners m) (hsound : m.Sound unit) {fileId fileId' granule granule' x x' : ℕ}
    {disk : ℕ × ℕ} (hx : x < perTensor * unit) (hx' : x' < perTensor * unit)
    (h : m.location unit perTensor fileId granule x = some disk)
    (h' : m.location unit perTensor fileId' granule' x' = some disk) :
    fileId = fileId' ∧ granule = granule' ∧ x = x' := by
  have hunit : 0 < unit := Nat.pos_of_mul_pos_left (Nat.zero_lt_of_lt hx)
  obtain ⟨hdevice, hdr, hhdr, himage⟩ := location_eq_some.1 h
  obtain ⟨hdevice', hdr', hhdr', himage'⟩ := location_eq_some.1 h'
  obtain ⟨desc, c, hdesc, hc, hfile⟩ := nvmeHdr_eq_some.1 hhdr
  obtain ⟨desc', c', hdesc', hc', hfile'⟩ := nvmeHdr_eq_some.1 hhdr'
  obtain rfl : c = c' := Option.some.inj (hc.symm.trans hc')
  have hlt := (List.getElem?_eq_some_iff.1 hc).1
  have hdevices : disk.1 < m.devices := by
    rw [hdevice]
    refine Nat.mod_lt _ (Nat.pos_of_ne_zero fun hzero => ?_)
    rw [devices] at hzero
    omega
  have hcSound := hsound c (List.mem_of_getElem? hc)
  -- the byte is in an extent of each of the files, so they are the same
  have hsame : fileId = fileId' := by
    by_contra hne
    obtain ⟨e, he, hlow, hhigh⟩ := Extents.mem_of_image himage
    obtain ⟨e', he', hlow', hhigh'⟩ := Extents.mem_of_image himage'
    rw [devices] at hdevices
    have hids := howners.apart fileId fileId' desc desc' hdesc hdesc' hne disk.1 hdevices
    rcases hcSound.apart _ _ hdr hdr' hfile hfile' hids e he e' he' with hle | hle
    · omega
    · omega
  subst hsame
  obtain rfl : desc = desc' := Option.some.inj (hdesc.symm.trans hdesc')
  obtain rfl : hdr = hdr' := Option.some.inj (hfile.symm.trans hfile')
  have hplace := Extents.image_inj (hcSound.files _ hdr hfile).mapped.disjoint himage himage'
  obtain ⟨hrow, hbyte⟩ := Tiling.mul_add_inj (Nat.mod_lt _ hunit) (Nat.mod_lt _ hunit) hplace
  have hslice : granule * perTensor + x / unit = granule' * perTensor + x' / unit := by
    rw [← Nat.div_add_mod (granule * perTensor + x / unit) m.devices,
      ← Nat.div_add_mod (granule' * perTensor + x' / unit) m.devices, hrow, ← hdevice, ← hdevice']
  obtain ⟨hgranule, hindex⟩ := Tiling.mul_add_inj
    ((Nat.div_lt_iff_lt_mul hunit).2 hx) ((Nat.div_lt_iff_lt_mul hunit).2 hx') hslice
  refine ⟨rfl, hgranule, ?_⟩
  rw [← Nat.div_add_mod x unit, ← Nat.div_add_mod x' unit, hindex, hbyte]

/-- What is found for a file that has an NVMe file on each of the first four controllers, one by one. -/
theorem collectDevFds_getElem {mapping : CompactNVMeMapping} {devFds : AList fun _ : ℕ × ℕ => NVMeFile}
    (cs : List NVMeController) {i : ℕ} {files : List NVMeFile} (h : collectDevFds mapping devFds cs i = some files)
    (hmapping : ∀ j < 4, j < i + cs.length → mapping.hasNvmeController j = true) (j : ℕ) {file : NVMeFile}
    (hfile : files[j]? = some file) : devFds.lookup (i + j, mapping.fileId (i + j)) = some file := by
  induction cs generalizing i files j with
  | nil =>
      cases h
      rw [List.getElem?_nil] at hfile
      cases hfile
  | cons c rest ih =>
      rw [List.length_cons] at hmapping
      rw [collectDevFds] at h
      by_cases hfour : 4 ≤ i
      · rw [if_pos hfour] at h
        cases h
        rw [List.getElem?_nil] at hfile
        cases hfile
      · rw [if_neg hfour, if_neg (by rw [hmapping i (by omega) (by omega)]; decide), Option.bind_eq_bind,
          Option.bind_eq_some_iff] at h
        obtain ⟨file₀, hfile₀, h⟩ := h
        rw [Option.bind_eq_bind, Option.bind_eq_some_iff] at h
        obtain ⟨files', hfiles', heq⟩ := h
        cases heq
        cases j with
        | zero =>
            cases hfile
            exact hfile₀
        | succ j =>
            have hrest := ih hfiles' (fun j hj hlt => hmapping j hj (by omega)) j hfile
            rw [Nat.succ_add, ← Nat.add_succ] at hrest
            exact hrest

/-- **The NVMe files that a GPU file was opened with** are its own, one on each of the first four controllers. -/
theorem OpenRight.span (h : OpenRight m) (howners : Owners m) {fileId : ℕ} {span : List NVMeFile}
    (hspan : m.ctxs.lookup fileId = some span) : span.length = m.devices ∧
      ∀ (j : ℕ) (file : NVMeFile), span[j]? = some file → ∃ c, m.nvmeControllers[j]? = some c ∧
        m.nvmeHdr fileId j = some file.hdr ∧ file.nvmePageSize = c.pageSize ∧
          file.hqpsBlockSizeLog = c.blkSizeLog := by
  have hfound := h.ctxs fileId span hspan
  obtain ⟨desc, hdesc, -⟩ := howners.found hfound
  rw [getDevFdById, hdesc] at hfound
  dsimp only at hfound
  split_ifs at hfound
  have hhas : ∀ j < 4, j < 0 + m.nvmeControllers.length → desc.nvmeMapping.hasNvmeController j = true := by
    intro j hj hlt
    rw [Nat.zero_add] at hlt
    exact (howners.has fileId desc hdesc j _ hj (List.getElem?_eq_getElem hlt)).1
  constructor
  · have hlength := (collectDevFds_eq_some _ hfound (by omega) hhas).1
    rwa [Nat.zero_add, Nat.sub_zero] at hlength
  · intro j file hfile
    have hlookup := collectDevFds_getElem _ hfound hhas j hfile
    rw [Nat.zero_add] at hlookup
    obtain ⟨c, hc, hopen⟩ := h.devFds _ _ file hlookup
    obtain ⟨hhdr, hpage, hblk⟩ := deviceFileOpenManaged_eq_some.1 hopen
    exact ⟨c, hc, nvmeHdr_eq_some.2 ⟨desc, c, hdesc, hc, hhdr⟩, hpage, hblk⟩

end GPUFileManager

/-! ### What is moved for a context -/

/-- The bytes that the controllers move for a context, where `none` stands for a failed assertion.  `file_idx`
finds the NVMe file, which is on the controller of that number. -/
def GPUIoContext.byteMoves (nvmeControllers : List NVMeController) (lists : ℕ → List ℕ) (env : ThreadEnv)
    (tensorSize : ℕ) (isRead : Bool) (ctx : GPUIoContext) : Option (List ByteMove) :=
  match ctx.serve tensorSize with
  | .issued access => do
      let file ← ctx.nvmeFiles[access.device]?
      let c ← nvmeControllers[access.device]?
      let words ← file.nvmeXferCmd env.stack env.nvmNamespace env.cid access.start access.length ctx.prpEntry.prp1
        ctx.prpEntry.prp2 isRead
      return words.decode.byteMoves lists access.device c.blkSizeLog
  | _ => some []

/-- An entry of `unit` bytes denotes the bytes from `start` on. -/
structure PRPMappingEntry.Denotes (device : DmaDevice) (lists : ℕ → List ℕ) (unit start : ℕ)
    (entry : PRPMappingEntry) : Prop where
  length : entry.dataLength = unit
  prp1 : entry.prp1 < 2 ^ 64
  prp2 : entry.prp2 < 2 ^ 64
  pages : ∀ (opcode : UInt8) (cid : UInt16) (nsid : UInt32) (slba nBlocks k : ℕ), k < unit →
    (DeviceCommand.pages ⟨opcode, cid, nsid, entry.prp1, entry.prp2, slba, nBlocks⟩ lists unit).getD
        (k / PRP_SIZE_SINGLE_PAGE) 0 + k % PRP_SIZE_SINGLE_PAGE = device.byteAddr (start + k)

/-- The entries of registered tensors denote their slices, `perTensor` of `unit` bytes. -/
def GPUController.Denotes (gpu : GPUController) (device : DmaDevice) (lists : ℕ → List ℕ) (unit perTensor : ℕ) :
    Prop :=
  ∀ tensor entries, gpu.getPrpMappings tensor = some entries → entries.length = perTensor ∧
    ∀ (j : ℕ) (entry : PRPMappingEntry), entries[j]? = some entry →
      entry.Denotes device lists unit (tensor.dataPtr + j * unit)

/-- The I/O size of accepted controllers is made of pages. -/
theorem dvd_minMaxIoSize {maxIOsizes : List (Option ℕ)} (haccepted : AcceptedControllers maxIOsizes)
    (hsome : minMaxIoSize maxIOsizes ≠ UINT64_MAX) : PRP_SIZE_SINGLE_PAGE ∣ minMaxIoSize maxIOsizes := by
  obtain ⟨⟨hmem, -⟩, -⟩ := isLeast_minMaxIoSize hsome
  obtain ⟨paramsMaxIOsize, haccept⟩ := haccepted _ hmem
  exact (acceptMaxIOsize_eq_some haccept).1

/-- What transfers rely on: tensors of whole granules of `len` bytes have been registered, on a controller whose I/O
sizes have been accepted, which divides `len` into slices of one length; the device gives each page of the memory,
and each page for lists, an address of its own, and addresses have 64 bits. -/
structure DmaReady (device : DmaDevice) (maxIOsizes : List (Option ℕ)) (len : ℕ) (gpu : GPUController)
    (lists : ℕ → List ℕ) : Prop where
  registered : ∃ n, GPUController.RegisteredWith device maxIOsizes len n gpu lists
  accepted : AcceptedControllers maxIOsizes
  pos : 0 < len
  lt : len < 2 ^ 32
  page : PRP_SIZE_SINGLE_PAGE ∣ len
  unit : len ≤ minMaxIoSize maxIOsizes ∨ minMaxIoSize maxIOsizes ∣ len
  ioaddr : Function.Injective device.ioaddr
  aligned : ∀ page, PRP_SIZE_SINGLE_PAGE ∣ device.ioaddr page
  prpPage : Function.Injective2 device.prpPage
  addresses : ∀ tensor entries, gpu.getPrpMappings tensor = some entries → ∀ entry ∈ entries,
    entry.prp1 < 2 ^ 64 ∧ entry.prp2 < 2 ^ 64

/-- The length of the slices of tensors of `len` bytes. -/
def sliceSize (maxIOsizes : List (Option ℕ)) (len : ℕ) : ℕ := min (minMaxIoSize maxIOsizes) len

/-- The number of the slices of a tensor of `len` bytes. -/
def sliceCount (maxIOsizes : List (Option ℕ)) (len : ℕ) : ℕ := len / sliceSize maxIOsizes len

/-- **The entries of tensors that have been registered** denote their slices, which are whole pages. -/
theorem DmaReady.denotes {device : DmaDevice} {maxIOsizes : List (Option ℕ)} {len : ℕ} {gpu : GPUController}
    {lists : ℕ → List ℕ} (h : DmaReady device maxIOsizes len gpu lists) :
    0 < sliceSize maxIOsizes len ∧ PRP_SIZE_SINGLE_PAGE ∣ sliceSize maxIOsizes len ∧
      sliceCount maxIOsizes len * sliceSize maxIOsizes len = len ∧
      gpu.Denotes device lists (sliceSize maxIOsizes len) (sliceCount maxIOsizes len) := by
  have hio := minMaxIoSize_pos maxIOsizes
  obtain ⟨n, hregistered⟩ := h.registered
  have hsplit : PRP_SIZE_SINGLE_PAGE ∣ sliceSize maxIOsizes len ∧ sliceSize maxIOsizes len ∣ len := by
    rw [sliceSize]
    rcases Nat.le_total len (minMaxIoSize maxIOsizes) with hle | hle
    · rw [Nat.min_eq_right hle]
      exact ⟨h.page, dvd_refl len⟩
    · rw [Nat.min_eq_left hle]
      refine ⟨dvd_minMaxIoSize h.accepted fun hmax => ?_, ?_⟩
      · have hlt := h.lt
        rw [hmax, UINT64_MAX] at hle
        omega
      · rcases h.unit with hle' | hdvd
        · rw [Nat.le_antisymm hle hle']
        · exact hdvd
  refine ⟨Nat.lt_min.2 ⟨hio, h.pos⟩, hsplit.1, Nat.div_mul_cancel hsplit.2, fun tensor entries hentries => ?_⟩
  have haddresses := h.addresses tensor entries hentries
  rw [GPUController.getPrpMappings] at hentries
  split_ifs at hentries
  have hright := (hregistered.pagesRight h.prpPage h.accepted h.pos).2 _ _ hentries
  obtain ⟨hlength, hslice⟩ := hright.slice hio h.pos rfl h.unit hsplit.1
  refine ⟨hlength, fun j entry hentry => ?_⟩
  obtain ⟨hdata, hpages⟩ := hslice j entry hentry
  obtain ⟨hprp1, hprp2⟩ := haddresses entry (List.mem_of_getElem? hentry)
  exact ⟨hdata, hprp1, hprp2, hpages⟩

namespace GPUFileManager

variable {m : GPUFileManager} {unit perTensor : ℕ}

/-- **A slice that has room lies in one piece** of the disk of its controller. -/
theorem location_slice (hsound : m.Sound unit) (hpos : 0 < unit) {fileId granule j : ℕ} {c : NVMeController}
    {hdr : GeminiHdr}
    (hc : m.nvmeControllers[(granule * perTensor + j) % m.devices]? = some c)
    (hhdr : m.nvmeHdr fileId ((granule * perTensor + j) % m.devices) = some hdr)
    (hroom : ((granule * perTensor + j) / m.devices + 1) * unit ≤ hdr.virtualSpaceSize) :
    ∃ nvmeOfst, Extents.image hdr.onDisk ((granule * perTensor + j) / m.devices * unit) = some nvmeOfst ∧
      2 ^ c.blkSizeLog ∣ nvmeOfst ∧ nvmeOfst < 2 ^ 64 ∧ 2 ^ hdr.blockBit ∣ unit ∧ hdr.Mapped ∧
      ∀ k < unit, m.location unit perTensor fileId granule (j * unit + k) =
        some ((granule * perTensor + j) % m.devices, nvmeOfst + k) := by
  generalize hblock : granule * perTensor + j = block at *
  obtain ⟨desc, c', -, hc', hfile⟩ := nvmeHdr_eq_some.1 hhdr
  obtain rfl : c = c' := Option.some.inj (hc.symm.trans hc')
  have hhdrSound := (hsound c (List.mem_of_getElem? hc)).files _ hdr hfile
  have hmap := hhdrSound.mapped
  have htotal := hroom.trans hmap.covers
  rw [Nat.succ_mul] at htotal
  obtain ⟨nvmeOfst, himage⟩ := Option.isSome_iff_exists.1
    ((Extents.image_isSome_iff hdr.onDisk (block / m.devices * unit)).2 (by omega))
  have hall := (Extents.image_contiguous_iff hmap.pos himage htotal).2 (hhdrSound.joined _ hroom)
  have hdvd : 2 ^ c.blkSizeLog ∣ block / m.devices * unit :=
    ((hsound c (List.mem_of_getElem? hc)).blocks).mul_left _
  refine ⟨nvmeOfst, himage, Extents.dvd_image hhdrSound.lba hdvd himage, ?_, hhdrSound.block, hmap, ?_⟩
  · obtain ⟨e, he, -, hlt⟩ := Extents.mem_of_image himage
    exact hlt.trans_le (hhdrSound.lt e he)
  · intro k hk
    have hindex : (j * unit + k) / unit = j := by
      rw [Nat.mul_comm, Nat.mul_add_div hpos, Nat.div_eq_of_lt hk, Nat.add_zero]
    have hbyte : (j * unit + k) % unit = k := by
      rw [Nat.mul_comm, Nat.mul_add_mod, Nat.mod_eq_of_lt hk]
    rw [location_eq_some, hindex, hbyte, hblock]
    exact ⟨rfl, hdr, hhdr, hall k hk⟩

/-- The access of a slice is safe exactly if it has room. -/
theorem checkFileAccessSafety_iff {file : NVMeFile} {row tensorSize : ℕ} (hpos : 0 < unit)
    (hle : unit ≤ tensorSize) (hpage : 4096 ∣ unit) :
    checkFileAccessSafety (some file) tensorSize (row * unit) unit = true ↔
      (row + 1) * unit ≤ file.hdr.virtualSpaceSize := by
  have hmod : row * unit % 4096 = 0 := Nat.mod_eq_zero_of_dvd (hpage.mul_left row)
  rw [Nat.succ_mul]
  simp only [checkFileAccessSafety, NVMeFile.getFileSize]
  split_ifs <;> simp <;> omega

/-- What the thread of a context serves, where `span` has an NVMe file for each controller. -/
theorem serve_slice {span : List NVMeFile} {entry : PRPMappingEntry} (hlength : span.length = m.devices)
    (hentry : entry.dataLength = unit) (hpos : 0 < unit) (granule j : ℕ) :
    GPUIoContext.serve ⟨span, entry, j, granule * (perTensor * unit)⟩ (perTensor * unit) =
      if m.devices = 0 then .skipped
      else if checkFileAccessSafety span[(granule * perTensor + j) % m.devices]? (perTensor * unit)
          ((granule * perTensor + j) / m.devices * unit) unit then
        .issued ⟨(granule * perTensor + j) % m.devices, (granule * perTensor + j) / m.devices * unit, unit⟩
      else .skipped := by
  rw [GPUIoContext.serve, GPUIoContext.placement]
  dsimp only
  rw [hentry, hlength, ← Nat.mul_assoc, Nat.mul_div_cancel _ hpos]

/-- **The bytes of a slice that has room** are moved, to or from where they lie in the file. -/
theorem byteMoves_of_room {device : DmaDevice} {lists : ℕ → List ℕ} (hsound : m.Sound unit) (hpos : 0 < unit)
    {fileId granule j : ℕ} {c : NVMeController} {file : NVMeFile}
    (hc : m.nvmeControllers[(granule * perTensor + j) % m.devices]? = some c)
    (hhdr : m.nvmeHdr fileId ((granule * perTensor + j) % m.devices) = some file.hdr)
    (hpageSize : file.nvmePageSize = c.pageSize) (hblkSizeLog : file.hqpsBlockSizeLog = c.blkSizeLog)
    (hroom : ((granule * perTensor + j) / m.devices + 1) * unit ≤ file.hdr.virtualSpaceSize)
    {entry : PRPMappingEntry} {start : ℕ} (hentry : entry.Denotes device lists unit start) (env : ThreadEnv)
    (isRead : Bool) :
    ∃ words nvmeOfst, file.nvmeXferCmd env.stack env.nvmNamespace env.cid
        ((granule * perTensor + j) / m.devices * unit) unit entry.prp1 entry.prp2 isRead = some words ∧
      words.decode.byteMoves lists ((granule * perTensor + j) % m.devices) c.blkSizeLog =
        (List.range unit).map (fun k => (⟨isRead, device.byteAddr (start + k),
          ((granule * perTensor + j) % m.devices, nvmeOfst + k)⟩ : ByteMove)) ∧
      ∀ k < unit, m.location unit perTensor fileId granule (j * unit + k) =
        some ((granule * perTensor + j) % m.devices, nvmeOfst + k) := by
  obtain ⟨nvmeOfst, himage, hlba, hlt, hblock, hmap, hlocation⟩ :=
    @location_slice m unit perTensor hsound hpos fileId granule j c file.hdr hc hhdr hroom
  have hcSound := hsound c (List.mem_of_getElem? hc)
  have hcmd : nvmeXfer file ((granule * perTensor + j) / m.devices * unit) unit =
      some ⟨nvmeOfst, nvmeOfst >>> file.hqpsBlockSizeLog, unit >>> file.hqpsBlockSizeLog⟩ := by
    rw [nvmeXfer_of_dvd hmap (hpageSize ▸ hcSound.page.mul_left _) (hpageSize ▸ hcSound.page),
      Nat.div_mul_cancel (hblock.mul_left _), himage]
    rfl
  obtain ⟨words, hwords, hmoves⟩ := byteMoves_nvmeXferCmd hcmd (hblkSizeLog ▸ hlba) hlt hpos
    (hblkSizeLog ▸ hcSound.blocks) (hblkSizeLog ▸ hcSound.count) hentry.prp1 hentry.prp2 env.stack
    env.nvmNamespace env.cid isRead
  have hmoves' := hmoves lists ((granule * perTensor + j) % m.devices)
  rw [hblkSizeLog] at hmoves'
  refine ⟨words, nvmeOfst, hwords, ?_, hlocation⟩
  rw [hmoves']
  refine List.map_congr_left fun k hk => ?_
  rw [hentry.pages _ _ _ _ _ k (List.mem_range.1 hk)]

/-- **What is moved for a slice** of a tensor: nothing but its bytes, to or from where they lie in the file, and
all of them if the tensor has room. -/
theorem byteMoves_slice {device : DmaDevice} {lists : ℕ → List ℕ} (howners : Owners m) (hopen : OpenRight m)
    (hsound : m.Sound unit) (hpos : 0 < unit) (hpage : 4096 ∣ unit) {fileId : ℕ} {span : List NVMeFile}
    (hspan : m.ctxs.lookup fileId = some span) {entry : PRPMappingEntry} {start : ℕ}
    (hentry : entry.Denotes device lists unit start) {j : ℕ} (hj : j < perTensor) (granule : ℕ) (env : ThreadEnv)
    (isRead : Bool) :
    ∃ moves, GPUIoContext.byteMoves m.nvmeControllers lists env (perTensor * unit) isRead
        ⟨span, entry, j, granule * (perTensor * unit)⟩ = some moves ∧
      (∀ move ∈ moves, ∃ k < unit, move.isRead = isRead ∧ move.address = device.byteAddr (start + k) ∧
        m.location unit perTensor fileId granule (j * unit + k) = some move.disk) ∧
      (m.Room unit perTensor fileId granule → ∀ k < unit, ∃ disk,
        m.location unit perTensor fileId granule (j * unit + k) = some disk ∧
          (⟨isRead, device.byteAddr (start + k), disk⟩ : ByteMove) ∈ moves) := by
  obtain ⟨hlength, hfiles⟩ := hopen.span howners hspan
  have hserve := @serve_slice m unit perTensor span entry hlength hentry.length hpos granule j
  rcases Nat.eq_zero_or_pos m.devices with hzero | hdevices
  · -- there is no controller, so there are no files
    rw [if_pos hzero] at hserve
    refine ⟨[], by rw [GPUIoContext.byteMoves, hserve], fun move hmove => absurd hmove List.not_mem_nil, ?_⟩
    intro hroom
    obtain ⟨hdr, hhdr, -⟩ := hroom j hj
    obtain ⟨-, c, -, hc, -⟩ := nvmeHdr_eq_some.1 hhdr
    have hlt := (List.getElem?_eq_some_iff.1 hc).1
    rw [devices] at hzero
    omega
  rw [if_neg hdevices.ne'] at hserve
  have hdevice := Nat.mod_lt (granule * perTensor + j) hdevices
  obtain ⟨file, hfile⟩ : ∃ file, span[(granule * perTensor + j) % m.devices]? = some file :=
    ⟨_, List.getElem?_eq_getElem (hlength.symm ▸ hdevice)⟩
  obtain ⟨c, hc, hhdr, hpageSize, hblkSizeLog⟩ := hfiles _ file hfile
  have hle : unit ≤ perTensor * unit := Nat.le_mul_of_pos_left unit (Nat.zero_lt_of_lt hj)
  rw [hfile] at hserve
  by_cases hroom : ((granule * perTensor + j) / m.devices + 1) * unit ≤ file.hdr.virtualSpaceSize
  · rw [if_pos ((checkFileAccessSafety_iff hpos hle hpage).2 hroom)] at hserve
    obtain ⟨words, nvmeOfst, hwords, hmoves, hlocation⟩ :=
      byteMoves_of_room hsound hpos hc hhdr hpageSize hblkSizeLog hroom hentry env isRead
    refine ⟨words.decode.byteMoves lists ((granule * perTensor + j) % m.devices) c.blkSizeLog, ?_, ?_, ?_⟩
    · rw [GPUIoContext.byteMoves, hserve]
      dsimp only
      rw [hfile, hc, Option.bind_eq_bind, Option.bind_some, Option.bind_eq_bind, Option.bind_some, hwords]
      rfl
    · intro move hmove
      rw [hmoves] at hmove
      obtain ⟨k, hk, rfl⟩ := List.mem_map.1 hmove
      rw [List.mem_range] at hk
      exact ⟨k, hk, rfl, rfl, hlocation k hk⟩
    · intro _ k hk
      refine ⟨_, hlocation k hk, ?_⟩
      rw [hmoves]
      exact List.mem_map.2 ⟨k, List.mem_range.2 hk, rfl⟩
  · rw [if_neg fun hcheck => hroom ((checkFileAccessSafety_iff hpos hle hpage).1 hcheck)] at hserve
    refine ⟨[], by rw [GPUIoContext.byteMoves, hserve], fun move hmove => absurd hmove List.not_mem_nil, ?_⟩
    intro hall
    obtain ⟨hdr, hhdr', hfits⟩ := hall j hj
    obtain rfl : hdr = file.hdr := Option.some.inj (hhdr'.symm.trans hhdr)
    exact absurd hfits hroom

end GPUFileManager

end GeminiFS
end InfiniKV
