/-
**The pool of GPU files.**

When `GeminiFS::init` has set up the files `0, …, n - 1`, each of them is either open or in the free list.
The list is used from its end by `openGPUFile` and searched by `closeGPUFile`, which relies on its
being sorted; both keep it so, and no file is handed out twice.

Main definitions:

* `InfiniKV.GeminiFS.GPUFileManager.initGPUFiles` — the loop of `GeminiFS::init`;
* `InfiniKV.GeminiFS.GPUFileManager.PoolOp`, `poolRun` — opening and closing, in any order;
* `InfiniKV.GeminiFS.GPUFileManager.Pool` — the invariant.

Main results:

* `InfiniKV.GeminiFS.GPUFileManager.pool_poolRun` — **the invariant holds along every run**;
* `InfiniKV.GeminiFS.GPUFileManager.pool_keeps_files` — what it means for opening and closing.
-/

import InfiniKV.GpuFiles

set_option relaxedAutoImplicit false
set_option autoImplicit false

namespace InfiniKV
namespace GeminiFS
namespace GPUFileManager

/-! ### Runs -/

/-- The loop of `GeminiFS::init` over the first `n` files, where `none` stands for its early return. -/
def initGPUFiles (m : GPUFileManager) (allocated : ℕ → ℕ → Bool) : ℕ → Option GPUFileManager
  | 0 => some m
  | n + 1 => do
      let m' ← m.initGPUFiles allocated n
      match m'.initGPUFile n (allocated n) with
      | (true, m'') => some m''
      | (false, _) => none

/-- Opening or closing a file. -/
inductive PoolOp where
  | openGPUFile (allocated : Bool)
  | closeGPUFile (fileId : ℕ)
  deriving DecidableEq, Repr

/-- The manager after opening or closing a file, where `none` stands for the assertion of
`openGPUFile`. -/
def poolStep (m : GPUFileManager) : PoolOp → Option GPUFileManager
  | .openGPUFile allocated => (m.openGPUFile allocated).map Prod.snd
  | .closeGPUFile fileId => some (m.closeGPUFile fileId).2

/-- The manager after a sequence of these. -/
def poolRun : GPUFileManager → List PoolOp → Option GPUFileManager
  | m, [] => some m
  | m, op :: ops => do
      let m' ← m.poolStep op
      m'.poolRun ops

/-- The free list is sorted, has the files that are not open, and all files can be opened. -/
structure Pool (n : ℕ) (m : GPUFileManager) : Prop where
  sorted : m.freeList.Pairwise (· < ·)
  mem_freeList : ∀ fileId, fileId ∈ m.freeList ↔ fileId < n ∧ fileId ∉ m.ctxs
  lt : ∀ fileId ∈ m.ctxs, fileId < n
  ready : ∀ fileId < n, (m.getDevFdById fileId).isSome = true

/-! ### Files that are ready -/

/-- The NVMe files of a mapping can be collected if they are all open on the device. -/
theorem collectDevFds_isSome_iff (mapping : CompactNVMeMapping)
    (devFds : AList fun _ : ℕ × ℕ => NVMeFile) (cs : List NVMeController) (i : ℕ) :
    (collectDevFds mapping devFds cs i).isSome = true ↔
      ∀ j, i ≤ j → j < i + cs.length → j < 4 → mapping.hasNvmeController j = true →
        (j, mapping.fileId j) ∈ devFds := by
  induction cs generalizing i with
  | nil =>
      simp only [collectDevFds, Option.isSome_some, true_iff, List.length_nil]
      intro j hij hj
      omega
  | cons c rest ih =>
      have hlen : i + (c :: rest).length = i + 1 + rest.length := by
        rw [List.length_cons]
        omega
      rw [collectDevFds, hlen]
      by_cases hfour : 4 ≤ i
      · rw [if_pos hfour]
        simp only [Option.isSome_some, true_iff]
        intro j hij _ hj
        omega
      · rw [if_neg hfour]
        cases hhas : mapping.hasNvmeController i with
        | false =>
            simp only [Bool.not_false, if_true]
            rw [ih]
            constructor
            · intro hall j hij hj hj4 hjhas
              rcases Nat.eq_or_lt_of_le hij with rfl | hij'
              · rw [hhas] at hjhas
                cases hjhas
              · exact hall j hij' hj hj4 hjhas
            · intro hall j hij hj hj4 hjhas
              exact hall j (by omega) hj hj4 hjhas
        | true =>
            simp only [Bool.not_true, Bool.false_eq_true, if_false, Option.bind_eq_bind]
            constructor
            · intro hsome j hij hj hj4 hjhas
              cases hlook : devFds.lookup (i, mapping.fileId i) with
              | none => simp [hlook] at hsome
              | some file =>
                  have hrest : (collectDevFds mapping devFds rest (i + 1)).isSome = true := by
                    cases hfiles : collectDevFds mapping devFds rest (i + 1) with
                    | none => simp [hlook, hfiles] at hsome
                    | some files => rfl
                  rcases Nat.eq_or_lt_of_le hij with rfl | hij'
                  · rw [← AList.lookup_isSome, hlook]
                    rfl
                  · exact (ih (i + 1)).mp hrest j hij' hj hj4 hjhas
            · intro hall
              have hhere := hall i le_rfl (by omega) (by omega) hhas
              rw [← AList.lookup_isSome] at hhere
              obtain ⟨file, hfile⟩ := Option.isSome_iff_exists.mp hhere
              have hrest : (collectDevFds mapping devFds rest (i + 1)).isSome = true := by
                rw [ih]
                intro j hij hj hj4 hjhas
                exact hall j (by omega) hj hj4 hjhas
              obtain ⟨files, hfiles⟩ := Option.isSome_iff_exists.mp hrest
              simp [hfile, hfiles]

/-- Opening NVMe files closes none, and opens all of the mapping if it succeeds. -/
theorem openNvmeFiles_mem (mapping : CompactNVMeMapping) (allocated : ℕ → Bool)
    (cs : List NVMeController) (i : ℕ) (devFds : AList fun _ : ℕ × ℕ => NVMeFile) :
    (∀ key ∈ devFds, key ∈ (openNvmeFiles mapping allocated cs i devFds).2) ∧
      ((openNvmeFiles mapping allocated cs i devFds).1 = true →
        ∀ j, i ≤ j → j < i + cs.length → j < 4 → mapping.hasNvmeController j = true →
          (j, mapping.fileId j) ∈ (openNvmeFiles mapping allocated cs i devFds).2) := by
  induction cs generalizing i devFds with
  | nil =>
      refine ⟨fun key hkey => hkey, ?_⟩
      intro _ j hij hj
      simp only [List.length_nil] at hj
      omega
  | cons c rest ih =>
      have hlen : i + (c :: rest).length = i + 1 + rest.length := by
        rw [List.length_cons]
        omega
      rw [openNvmeFiles, hlen]
      by_cases hfour : 4 ≤ i
      · rw [if_pos hfour]
        refine ⟨fun key hkey => hkey, ?_⟩
        intro _ j hij _ hj
        omega
      · rw [if_neg hfour]
        split_ifs with hskip
        · -- nothing to open here
          obtain ⟨hmono, hall⟩ := ih (i + 1) devFds
          refine ⟨hmono, ?_⟩
          intro htrue j hij hj hj4 hjhas
          rcases Nat.eq_or_lt_of_le hij with rfl | hij'
          · simp only [hjhas, Bool.not_true, Bool.false_or, decide_eq_true_eq] at hskip
            exact hmono _ hskip
          · exact hall htrue j hij' hj hj4 hjhas
        · cases c.deviceFileOpenManaged (mapping.fileId i) (allocated i) with
          | none =>
              refine ⟨fun key hkey => hkey, ?_⟩
              intro hfalse
              cases hfalse
          | some file =>
              obtain ⟨hmono, hall⟩ := ih (i + 1) (devFds.insert (i, mapping.fileId i) file)
              refine ⟨?_, ?_⟩
              · intro key hkey
                exact hmono key ((AList.mem_insert _).mpr (Or.inr hkey))
              · intro htrue j hij hj hj4 hjhas
                rcases Nat.eq_or_lt_of_le hij with rfl | hij'
                · exact hmono _ ((AList.mem_insert _).mpr (Or.inl rfl))
                · exact hall htrue j hij' hj hj4 hjhas

/-- What `getDevFdById` needs. -/
theorem getDevFdById_isSome_iff (m : GPUFileManager) (fileId : ℕ) :
    (m.getDevFdById fileId).isSome = true ↔
      ∃ desc, m.descs.lookup fileId = some desc ∧ desc.nvmeMapping.isValid = true ∧
        m.nvmeControllers.length ≠ 0 ∧
        ∀ j < m.nvmeControllers.length, j < 4 → desc.nvmeMapping.hasNvmeController j = true →
          (j, desc.nvmeMapping.fileId j) ∈ m.devFds := by
  rw [getDevFdById]
  cases m.descs.lookup fileId with
  | none => simp
  | some desc =>
      cases hvalid : desc.nvmeMapping.isValid with
      | false => simp [hvalid]
      | true =>
          by_cases hzero : m.nvmeControllers.length = 0
          · simp [hzero]
          · have hcollect := collectDevFds_isSome_iff desc.nvmeMapping m.devFds m.nvmeControllers 0
            simp only [Nat.zero_add, Nat.zero_le, true_implies] at hcollect
            simp [hvalid, hzero, hcollect]

/-- **What setting up a file does**: it opens NVMe files and closes none, and puts the file behind the
others, ready to be opened. -/
theorem initGPUFile_true {m m' : GPUFileManager} {fileId : ℕ} {allocated : ℕ → Bool}
    (h : m.initGPUFile fileId allocated = (true, m')) :
    m'.freeList = m.freeList ++ [fileId] ∧ m'.ctxs = m.ctxs ∧
      (m'.getDevFdById fileId).isSome = true ∧
      ∀ id, (m.getDevFdById id).isSome = true → (m'.getDevFdById id).isSome = true := by
  rw [initGPUFile] at h
  split_ifs at h with hzero
  · cases h
  · cases hdesc : m.descs.lookup fileId with
    | none => simp [hdesc] at h
    | some desc =>
        cases hvalid : desc.nvmeMapping.isValid with
        | false => simp [hdesc, hvalid] at h
        | true =>
            obtain ⟨hmono, hall⟩ :=
              openNvmeFiles_mem desc.nvmeMapping allocated m.nvmeControllers 0 m.devFds
            cases hopen : openNvmeFiles desc.nvmeMapping allocated m.nvmeControllers 0 m.devFds with
            | mk ok devFds =>
                rw [hopen] at hmono hall
                cases ok with
                | false => simp [hdesc, hvalid, hopen] at h
                | true =>
                    simp only [hdesc, hvalid, hopen, Bool.not_true, Bool.false_eq_true, if_false,
                      Prod.mk.injEq, true_and] at h
                    subst h
                    refine ⟨rfl, rfl, ?_, ?_⟩
                    · rw [getDevFdById_isSome_iff]
                      refine ⟨desc, hdesc, hvalid, hzero, ?_⟩
                      intro j hj hj4 hjhas
                      exact hall rfl j (Nat.zero_le j) (by simpa using hj) hj4 hjhas
                    · intro id hid
                      rw [getDevFdById_isSome_iff] at hid ⊢
                      obtain ⟨desc', hdesc', hvalid', -, hfds⟩ := hid
                      refine ⟨desc', hdesc', hvalid', hzero, ?_⟩
                      intro j hj hj4 hjhas
                      exact hmono _ (hfds j hj hj4 hjhas)

/-- The pool that `GeminiFS::init` sets up has all files in order. -/
theorem pool_initGPUFiles {m m' : GPUFileManager} {allocated : ℕ → ℕ → Bool} {n : ℕ}
    (hlist : m.freeList = []) (hctxs : m.ctxs = ∅)
    (h : m.initGPUFiles allocated n = some m') :
    m'.freeList = List.range n ∧ m'.ctxs = ∅ ∧
      ∀ fileId < n, (m'.getDevFdById fileId).isSome = true := by
  induction n generalizing m' with
  | zero =>
      cases h
      exact ⟨hlist, hctxs, fun fileId hlt => absurd hlt (Nat.not_lt_zero _)⟩
  | succ n ih =>
      rw [initGPUFiles, Option.bind_eq_bind, Option.bind_eq_some_iff] at h
      obtain ⟨m₁, hm₁, hstep⟩ := h
      obtain ⟨hlist₁, hctxs₁, hready₁⟩ := ih hm₁
      cases hinit : m₁.initGPUFile n (allocated n) with
      | mk ok m₂ =>
          rw [hinit] at hstep
          cases ok with
          | false => cases hstep
          | true =>
              cases hstep
              obtain ⟨hlist₂, hctxs₂, hself, hothers⟩ := initGPUFile_true hinit
              refine ⟨?_, by rw [hctxs₂, hctxs₁], ?_⟩
              · rw [hlist₂, hlist₁, List.range_succ]
              · intro fileId hlt
                rcases Nat.lt_succ_iff_lt_or_eq.mp hlt with hlt' | rfl
                · exact hothers fileId (hready₁ fileId hlt')
                · exact hself

/-! ### Opening and closing -/

namespace Pool

variable {n : ℕ} {m : GPUFileManager}

/-- **What opening a file does**: it fails if every file is open, or if the device has no memory and
nothing has changed then; otherwise it hands out a file that was free. -/
theorem openGPUFile (hm : Pool n m) (allocated : Bool) :
    (m.freeList = [] ∧ m.openGPUFile allocated = some (none, m)) ∨
    (allocated = false ∧ m.openGPUFile allocated = some (none, m)) ∨
    ∃ fileId devFds, m.freeList = m.freeList.dropLast ++ [fileId] ∧
      m.openGPUFile allocated = some (some fileId, { m with
        freeList := m.freeList.dropLast
        ctxs := m.ctxs.insert fileId devFds }) := by
  rw [GPUFileManager.openGPUFile]
  cases hlast : m.freeList.getLast? with
  | none =>
      left
      exact ⟨List.getLast?_eq_none_iff.mp hlast, rfl⟩
  | some fileId =>
      obtain ⟨front, hfront⟩ := List.getLast?_eq_some_iff.mp hlast
      have hsplit : m.freeList = m.freeList.dropLast ++ [fileId] := by
        rw [hfront, List.dropLast_concat]
      have hmem : fileId ∈ m.freeList := by
        rw [hfront]
        simp
      obtain ⟨devFds, hdevFds⟩ := Option.isSome_iff_exists.mp
        (hm.ready fileId ((hm.mem_freeList fileId).mp hmem).1)
      right
      cases allocated with
      | false =>
          left
          refine ⟨rfl, ?_⟩
          simp only [hdevFds, Option.bind_eq_bind, Option.bind_some, Bool.false_eq_true, if_false,
            ← hsplit]
          rfl
      | true =>
          right
          exact ⟨fileId, devFds, hsplit, by simp [hdevFds]⟩

/-- **Opening keeps the invariant**, and its assertion holds. -/
theorem poolStep_open (hm : Pool n m) (allocated : Bool) :
    ∃ m', m.poolStep (.openGPUFile allocated) = some m' ∧ Pool n m' := by
  rcases hm.openGPUFile allocated with ⟨-, heq⟩ | ⟨-, heq⟩ | ⟨fileId, devFds, hsplit, heq⟩
  · exact ⟨m, by rw [poolStep, heq]; rfl, hm⟩
  · exact ⟨m, by rw [poolStep, heq]; rfl, hm⟩
  · refine ⟨_, by rw [poolStep, heq]; rfl, ?_⟩
    have hsorted := hm.sorted
    have hmem := hm.mem_freeList
    rw [hsplit, List.pairwise_append] at hsorted
    have hfree : fileId < n ∧ fileId ∉ m.ctxs := by
      rw [← hmem, hsplit]
      simp
    constructor
    · exact hsorted.1
    · intro id
      -- the file handed out is larger than all that stay
      have hstay : id ∈ m.freeList.dropLast ↔ id ∈ m.freeList ∧ id ≠ fileId := by
        constructor
        · intro hid
          have hlt := hsorted.2.2 id hid fileId (by simp)
          refine ⟨?_, by omega⟩
          rw [hsplit]
          exact List.mem_append_left _ hid
        · rintro ⟨hid, hne⟩
          rw [hsplit, List.mem_append, List.mem_singleton] at hid
          exact hid.resolve_right hne
      simp only [hstay, hmem, AList.mem_insert]
      tauto
    · intro id hid
      rcases (AList.mem_insert _).mp hid with rfl | hid
      · exact hfree.1
      · exact hm.lt id hid
    · exact hm.ready

/-- **Closing keeps the invariant.** -/
theorem closeGPUFile (hm : Pool n m) (fileId : ℕ) : Pool n (m.closeGPUFile fileId).2 := by
  rw [GPUFileManager.closeGPUFile]
  split_ifs with hopen
  · have hnot : fileId ∉ m.freeList := by
      rw [hm.mem_freeList]
      exact fun hand => hand.2 hopen
    have hle := (lowerBound_spec hm.sorted fileId).1
    simp only [if_neg (getElem?_lowerBound_ne hnot)]
    constructor
    · exact pairwise_insertIdx_lowerBound hm.sorted hnot
    · intro id
      rw [List.mem_insertIdx hle, hm.mem_freeList, AList.mem_erase]
      have hlt := hm.lt fileId hopen
      constructor
      · rintro (rfl | ⟨hid, hctx⟩)
        · exact ⟨hlt, fun hand => hand.1 rfl⟩
        · exact ⟨hid, fun hand => hctx hand.2⟩
      · rintro ⟨hid, hctx⟩
        by_cases heq : id = fileId
        · exact Or.inl heq
        · exact Or.inr ⟨hid, fun hmem => hctx ⟨heq, hmem⟩⟩
    · intro id hid
      exact hm.lt id (AList.mem_erase.mp hid).2
    · exact hm.ready
  · exact hm

/-- **One step** keeps the invariant. -/
theorem poolStep (hm : Pool n m) (op : PoolOp) : ∃ m', m.poolStep op = some m' ∧ Pool n m' := by
  cases op with
  | openGPUFile allocated => exact hm.poolStep_open allocated
  | closeGPUFile fileId => exact ⟨_, rfl, hm.closeGPUFile fileId⟩

end Pool

/-- **The invariant holds along every run**, and no run ends in the assertion. -/
theorem pool_poolRun {n : ℕ} {m : GPUFileManager} (hm : Pool n m) (ops : List PoolOp) :
    ∃ m', m.poolRun ops = some m' ∧ Pool n m' := by
  induction ops generalizing m with
  | nil => exact ⟨m, rfl, hm⟩
  | cons op ops ih =>
      obtain ⟨m₁, hstep, hm₁⟩ := hm.poolStep op
      obtain ⟨m₂, hrun, hm₂⟩ := ih hm₁
      exact ⟨m₂, by rw [poolRun, hstep]; exact hrun, hm₂⟩

/-! ### What it means -/

/-- Every file is either free or open, the free ones in order; opening fails for lack of files only when
all are open, and hands out a file that is not open; and what fails changes nothing. -/
structure KeepsPool (n : ℕ) (m : GPUFileManager) : Prop where
  sorted : m.freeList.Pairwise (· < ·)
  disjoint : ∀ fileId ∈ m.freeList, fileId ∉ m.ctxs
  union : ∀ fileId, fileId ∈ m.freeList ∨ fileId ∈ m.ctxs ↔ fileId < n
  open_isSome : ∀ allocated, (m.openGPUFile allocated).isSome = true
  open_failed : ∀ allocated m', m.openGPUFile allocated = some (none, m') →
    m' = m ∧ (allocated = false ∨ ∀ fileId < n, fileId ∈ m.ctxs)
  open_opened : ∀ allocated fileId m', m.openGPUFile allocated = some (some fileId, m') →
    fileId < n ∧ fileId ∉ m.ctxs ∧ fileId ∈ m'.ctxs
  close_failed : ∀ fileId m', m.closeGPUFile fileId = (false, m') → m' = m

theorem Pool.keepsPool {n : ℕ} {m : GPUFileManager} (hm : Pool n m) : KeepsPool n m where
  sorted := hm.sorted
  disjoint fileId hfree := ((hm.mem_freeList fileId).mp hfree).2
  union fileId := by
    rw [hm.mem_freeList]
    constructor
    · rintro (⟨hlt, -⟩ | hopen)
      · exact hlt
      · exact hm.lt fileId hopen
    · intro hlt
      by_cases hopen : fileId ∈ m.ctxs
      · exact Or.inr hopen
      · exact Or.inl ⟨hlt, hopen⟩
  open_isSome allocated := by
    rcases hm.openGPUFile allocated with ⟨-, heq⟩ | ⟨-, heq⟩ | ⟨fileId, devFds, -, heq⟩ <;> simp [heq]
  open_failed allocated m' h := by
    rcases hm.openGPUFile allocated with ⟨hnil, heq⟩ | ⟨hno, heq⟩ | ⟨fileId, devFds, -, heq⟩
    · rw [heq] at h
      cases h
      refine ⟨rfl, Or.inr ?_⟩
      intro fileId hlt
      by_contra hclosed
      have hfree := (hm.mem_freeList fileId).mpr ⟨hlt, hclosed⟩
      rw [hnil] at hfree
      cases hfree
    · rw [heq] at h
      cases h
      exact ⟨rfl, Or.inl hno⟩
    · rw [heq] at h
      cases h
  open_opened allocated fileId m' h := by
    rcases hm.openGPUFile allocated with ⟨-, heq⟩ | ⟨-, heq⟩ | ⟨id, devFds, hsplit, heq⟩
    · rw [heq] at h
      cases h
    · rw [heq] at h
      cases h
    · rw [heq] at h
      cases h
      have hfree : fileId ∈ m.freeList := by
        rw [hsplit]
        simp
      obtain ⟨hlt, hclosed⟩ := (hm.mem_freeList fileId).mp hfree
      exact ⟨hlt, hclosed, (AList.mem_insert _).mpr (Or.inl rfl)⟩
  close_failed fileId m' h := by
    rw [GPUFileManager.closeGPUFile] at h
    split_ifs at h
    · cases h
    · cases h
      rfl

/-- **The pool keeps its files**: after `GeminiFS::init` has set up the files of a new manager, along
every sequence of opening and closing. -/
theorem pool_keeps_files {m m' : GPUFileManager} {allocated : ℕ → ℕ → Bool} {n : ℕ}
    (hlist : m.freeList = []) (hctxs : m.ctxs = ∅) (hinit : m.initGPUFiles allocated n = some m')
    (ops : List PoolOp) : ∃ m'', m'.poolRun ops = some m'' ∧ KeepsPool n m'' := by
  obtain ⟨hlist', hctxs', hready⟩ := pool_initGPUFiles hlist hctxs hinit
  have hpool : Pool n m' := by
    constructor
    · rw [hlist']
      exact List.pairwise_lt_range
    · intro fileId
      simp [hlist', hctxs']
    · intro fileId hopen
      rw [hctxs'] at hopen
      exact absurd hopen (AList.notMem_empty _)
    · exact hready
  obtain ⟨m'', hrun, hpool'⟩ := pool_poolRun hpool ops
  exact ⟨m'', hrun, hpool'.keepsPool⟩

/-- A manager with one file of one NVMe file, that has opened nothing. -/
def oneFileManager : GPUFileManager where
  persistenceThreshold := 0
  pendingWritesCount := 0
  header := LogHeader.initial MAGIC_NUMBER 56
  dirtyBitmap i := decide (i = 0)
  descs := AList.singleton 0 (GPUFileDesc.new 0 65536 [2, 1, 32768] [0])
  freeList := []
  ctxs := ∅
  devFds := ∅
  nvmeControllers := [⟨4096, 9, 1048576, fun slot =>
    if slot = 0 then some ⟨0x7366696e696d6567, 512, 65536, 12, [⟨0, 1048576, 69632, 0⟩]⟩ else none⟩]
  log := ByteFile.empty

/-- Its file is opened, twice closed, and opened again. -/
theorem pool_keeps_files_one_file :
    ∃ m', oneFileManager.initGPUFiles (fun _ _ => true) 1 = some m' ∧
      ∃ m'', m'.poolRun [.openGPUFile true, .closeGPUFile 0, .closeGPUFile 0, .openGPUFile true] =
        some m'' ∧ KeepsPool 1 m'' := by
  have hsome : (oneFileManager.initGPUFiles (fun _ _ => true) 1).isSome = true := by decide
  obtain ⟨m', hm'⟩ := Option.isSome_iff_exists.mp hsome
  exact ⟨m', hm', pool_keeps_files rfl rfl hm' _⟩

end GPUFileManager
end GeminiFS
end InfiniKV
