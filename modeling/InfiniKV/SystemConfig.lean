/-
**The system configuration.**

The configuration is read line by line.  A header begins a section, which is put away at the next header or at the end;
key-value lines set the fields of the section they are in, and numbers are read by functions that throw.  Then the NVMe
sections are put into the groups of the GPU sections, by the number of the CUDA device, and each group is checked for
duplicates.  Two GPU sections with one device get the same group twice, and an address may be in the groups of two
devices.

The fields of the first section of a kind that it does not set are never initialised; what they hold is a parameter.

Main definitions:

* `InfiniKV.GeminiFS.GPUConfig`, `NVMeConfig`, `SystemConfigGroup`, `ParsedSystemConfig` — the data;
* `InfiniKV.GeminiFS.ParserState`, `InfiniKV.GeminiFS.ParserState.step` — the state of the parser, and a line;
* `InfiniKV.GeminiFS.parseSystemConfig`, `convertToNvmeCtrlParamsGroup` — the source's functions;
* `InfiniKV.GeminiFS.sections`, `configsOf` — the sections of a text, and what each of them says by itself;
* `InfiniKV.GeminiFS.ParsesRight` — what parsing is to do.

Main results:

* `InfiniKV.GeminiFS.readConfigs_eq` — **the parser reads each section by itself**;
* `InfiniKV.GeminiFS.groupLoop_eq` — what the groups are, and when the result is valid;
* `InfiniKV.GeminiFS.parsesRight_iff` — **when parsing does what it is to do**.
-/

import InfiniKV.KeyStrings
import InfiniKV.NvmeNames
import InfiniKV.PyDict

set_option relaxedAutoImplicit false
set_option autoImplicit false

namespace InfiniKV
namespace GeminiFS

open Sha256

/-! ### Text -/

/-- The bytes of a text. -/
def bytes (s : String) : List UInt8 := asciiBytes s.toList

/-- A space, a tab, a carriage return or a newline. -/
def isTrimmed (b : UInt8) : Bool := b = 32 || b = 9 || b = 13 || b = 10

/-- `trim`. -/
def trim (str : List UInt8) : List UInt8 := ((str.dropWhile isTrimmed).reverse.dropWhile isTrimmed).reverse

/-- `std::stoi`.  `none` stands for the exceptions. -/
def stoi (s : List UInt8) : Option ℤ :=
  let sign := FileManager.readSign (s.dropWhile FileManager.isSpace)
  let digits := sign.2.takeWhile FileManager.isDigit
  let value : ℤ := if sign.1 then -(FileManager.digitsValue digits : ℤ) else FileManager.digitsValue digits
  if digits = [] then none
  else if -2 ^ 31 ≤ value ∧ value < 2 ^ 31 then some value
  else none

/-- `std::stoull`, which is `std::stoul` where `long` has 64 bits. -/
def stoull (s : List UInt8) : Option ℕ := FileManager.stoul s

/-! ### Data -/

/-- `GPUConfig`. -/
structure GPUConfig where
  mountPath : List UInt8
  cudaDevice : ℤ
  deriving DecidableEq

/-- `NVMeConfig`. -/
structure NVMeConfig where
  mountPath : List UInt8
  pciAddr : List UInt8
  nsId : ℕ
  queueDepth : ℕ
  numQueues : ℕ
  cudaDevice : ℤ
  maxIOsize : ℕ
  deriving DecidableEq

/-- `GPUConfig()`. -/
def GPUConfig.zero : GPUConfig := ⟨[], 0⟩

/-- `NVMeConfig()`. -/
def NVMeConfig.zero : NVMeConfig := ⟨[], [], 0, 0, 0, 0, 0⟩

/-- What the numbers of a configuration hold that is declared and not initialised. -/
structure Uninitialised where
  gpuCudaDevice : ℤ
  nsId : ℕ
  queueDepth : ℕ
  numQueues : ℕ
  cudaDevice : ℤ
  maxIOsize : ℕ

/-- `GPUConfig current_gpu;`. -/
def Uninitialised.gpu (u : Uninitialised) : GPUConfig := ⟨[], u.gpuCudaDevice⟩

/-- `NVMeConfig current_nvme;`. -/
def Uninitialised.nvme (u : Uninitialised) : NVMeConfig :=
  ⟨[], [], u.nsId, u.queueDepth, u.numQueues, u.cudaDevice, u.maxIOsize⟩

/-- `SystemConfigGroup`. -/
structure SystemConfigGroup where
  gpu : GPUConfig
  nvmes : List NVMeConfig
  deriving DecidableEq

/-- `ParsedSystemConfig`. -/
structure ParsedSystemConfig where
  groups : List SystemConfigGroup
  valid : Bool
  errorMessage : List UInt8
  deriving DecidableEq

/-- `nvme_ctrl_param`, as far as it is taken from a configuration. -/
structure NvmeCtrlParam where
  mountPath : List UInt8
  pciAddr : List UInt8
  cudaDevice : ℤ
  nsId : ℕ
  queueDepth : ℕ
  numQueues : ℕ
  maxIOsize : ℕ
  deriving DecidableEq

/-- `convert_to_nvme_ctrl_params_group`. -/
def convertToNvmeCtrlParamsGroup (groupConfig : SystemConfigGroup) : List NvmeCtrlParam :=
  groupConfig.nvmes.map fun nvme => ⟨nvme.mountPath, nvme.pciAddr, nvme.cudaDevice, nvme.nsId, nvme.queueDepth,
    nvme.numQueues, nvme.maxIOsize⟩

/-! ### Lines -/

/-- A line: the header of a section, a key and its value, or one that is skipped. -/
inductive Line where
  | header (currentSection : List UInt8)
  | keyValue (key value : List UInt8)
  | skip
  deriving DecidableEq

/-- Quotes around a value are removed. -/
def unquote (value : List UInt8) : List UInt8 :=
  if 2 ≤ value.length ∧ value.head? = some 34 ∧ value.getLast? = some 34 then (value.drop 1).take (value.length - 2)
  else value

/-- What a line is. -/
def readLine (rawLine : List UInt8) : Line :=
  let line := trim rawLine
  if line = [] ∨ line.head? = some 35 ∨ line.take 2 = [47, 47] then .skip
  else if line.head? = some 60 ∧ line.getLast? = some 62 then .header ((line.drop 1).take (line.length - 2))
  else if 61 ∈ line then
    .keyValue (trim (line.takeWhile (· ≠ 61))) (unquote (trim ((line.dropWhile (· ≠ 61)).drop 1)))
  else .skip

/-- A section is about a GPU. -/
def isGpuSection (currentSection : List UInt8) : Bool := (bytes "GPU").isPrefixOf currentSection

/-- A section is about an NVMe device. -/
def isNvmeSection (currentSection : List UInt8) : Bool := (bytes "NVMe").isPrefixOf currentSection

/-- A field of a GPU section is set. -/
def assignGpu (gpu : GPUConfig) (keyValue : List UInt8 × List UInt8) : Option GPUConfig :=
  let (key, value) := keyValue
  if key = bytes "mount_path" then some { gpu with mountPath := value }
  else if key = bytes "cudaDevice" then (stoi value).map fun n => { gpu with cudaDevice := n }
  else some gpu

/-- A field of an NVMe section is set. -/
def assignNvme (nvme : NVMeConfig) (keyValue : List UInt8 × List UInt8) : Option NVMeConfig :=
  let (key, value) := keyValue
  if key = bytes "mount_path" then some { nvme with mountPath := value }
  else if key = bytes "pci_addr" then some { nvme with pciAddr := value }
  else if key = bytes "ns_id" then (FileManager.stoul value).map fun n => { nvme with nsId := n % 2 ^ 32 }
  else if key = bytes "queueDepth" then (stoull value).map fun n => { nvme with queueDepth := n }
  else if key = bytes "numQueues" then (stoull value).map fun n => { nvme with numQueues := n }
  else if key = bytes "cudaDevice" then (stoi value).map fun n => { nvme with cudaDevice := n }
  else if key = bytes "maxIOsize" then (stoull value).map fun n => { nvme with maxIOsize := n }
  else some nvme

/-! ### The parser -/

/-- The state of the parser. -/
structure ParserState where
  gpus : List GPUConfig
  nvmes : List NVMeConfig
  currentGpu : GPUConfig
  currentNvme : NVMeConfig
  inGpuSection : Bool
  inNvmeSection : Bool

namespace ParserState

/-- The state before the first line. -/
def init (u : Uninitialised) : ParserState := ⟨[], [], u.gpu, u.nvme, false, false⟩

variable (s : ParserState)

/-- The section before a header is put away. -/
def flush : ParserState :=
  let s := if s.inGpuSection then { s with gpus := s.gpus ++ [s.currentGpu], currentGpu := .zero } else s
  if s.inNvmeSection then { s with nvmes := s.nvmes ++ [s.currentNvme], currentNvme := .zero } else s

/-- **A line is read.** -/
def step : Line → Option ParserState
  | .skip => some s
  | .header currentSection => some { s.flush with
      inGpuSection := isGpuSection currentSection
      inNvmeSection := isNvmeSection currentSection }
  | .keyValue key value =>
      if s.inGpuSection then (assignGpu s.currentGpu (key, value)).map fun gpu => { s with currentGpu := gpu }
      else if s.inNvmeSection then
        (assignNvme s.currentNvme (key, value)).map fun nvme => { s with currentNvme := nvme }
      else some s

/-- All lines are read. -/
def run (s : ParserState) (lines : List Line) : Option ParserState := lines.foldlM step s

/-- The last section is put away. -/
def finish : List GPUConfig × List NVMeConfig :=
  (if s.inGpuSection then s.gpus ++ [s.currentGpu] else s.gpus,
    if s.inNvmeSection then s.nvmes ++ [s.currentNvme] else s.nvmes)

end ParserState

/-- The lines of a text. -/
def linesOf (text : List UInt8) : List Line := (text.splitOn 10).map readLine

/-- The GPU and NVMe sections of a text, as the parser reads them. -/
def readConfigs (u : Uninitialised) (text : List UInt8) : Option (List GPUConfig × List NVMeConfig) :=
  ((ParserState.init u).run (linesOf text)).map ParserState.finish

/-! ### Groups -/

/-- The NVMe sections of each CUDA device. -/
def nvmeGroups (nvmes : List NVMeConfig) : PyDict ℤ (List NVMeConfig) :=
  nvmes.foldl (fun groups nvme =>
    groups.set nvme.cudaDevice ((groups.get? nvme.cudaDevice).getD [] ++ [nvme])) .empty

/-- The message about a duplicate in a group. -/
def duplicateMessage (field : String) (cudaDevice : ℤ) (value : List UInt8) : List UInt8 :=
  bytes ("Duplicate " ++ field ++ " found in GPU group ") ++ asciiBytes (strOfInt cudaDevice) ++ bytes ": " ++ value

/-- The check of a group: the message about its first duplicate, if there is one. -/
def duplicateIn (cudaDevice : ℤ) : List NVMeConfig → List (List UInt8) → List (List UInt8) → Option (List UInt8)
  | [], _, _ => none
  | nvme :: rest, pciAddrs, mountPaths =>
      if nvme.pciAddr ∈ pciAddrs then some (duplicateMessage "pci_addr" cudaDevice nvme.pciAddr)
      else if nvme.mountPath ∈ mountPaths then some (duplicateMessage "mount_path" cudaDevice nvme.mountPath)
      else duplicateIn cudaDevice rest (nvme.pciAddr :: pciAddrs) (nvme.mountPath :: mountPaths)

/-- The loop over the GPU sections, and the check behind it. -/
def groupLoop (groups : PyDict ℤ (List NVMeConfig)) : List GPUConfig → ParsedSystemConfig → ParsedSystemConfig
  | [], result =>
      if result.groups = [] then { result with errorMessage := bytes ("No valid GPU-NVMe groups found. " ++
        "Each GPU must have at least one associated NVMe device with matching cudaDevice") }
      else { result with valid := true }
  | gpu :: gpus, result =>
      let group : SystemConfigGroup := ⟨gpu, (groups.get? gpu.cudaDevice).getD []⟩
      match duplicateIn gpu.cudaDevice group.nvmes [] [] with
      | some message => { result with errorMessage := message }
      | none =>
          groupLoop groups gpus (if group.nvmes ≠ [] then { result with groups := result.groups ++ [group] } else result)

/-- **`parse_system_config`**, of the text of a file.  `none` stands for the exceptions. -/
def parseSystemConfig (u : Uninitialised) (text : List UInt8) : Option ParsedSystemConfig :=
  (readConfigs u text).map fun (gpus, nvmes) =>
    let result : ParsedSystemConfig := ⟨[], false, []⟩
    if gpus = [] then { result with errorMessage := bytes "No GPU configuration found in config file" }
    else if nvmes = [] then { result with errorMessage := bytes "No NVMe configuration found in config file" }
    else groupLoop (nvmeGroups nvmes) gpus result

/-! ### Sections -/

/-- A section: what its header says, and the key-value lines in it. -/
structure ConfigSection where
  currentSection : List UInt8
  keyValues : List (List UInt8 × List UInt8)

/-- The key-value lines before the first header, and the sections behind them. -/
def splitSections : List Line → List (List UInt8 × List UInt8) × List ConfigSection
  | [] => ([], [])
  | .skip :: rest => splitSections rest
  | .header currentSection :: rest =>
      ([], ⟨currentSection, (splitSections rest).1⟩ :: (splitSections rest).2)
  | .keyValue key value :: rest => ((key, value) :: (splitSections rest).1, (splitSections rest).2)

/-- The key-value lines of the sections of a kind. -/
def sectionsWith (kind : List UInt8 → Bool) (parts : List ConfigSection) : List (List (List UInt8 × List UInt8)) :=
  (parts.filter fun part => kind part.currentSection).map ConfigSection.keyValues

/-- The key-value lines of the sections of a kind in a text. -/
def sections (kind : List UInt8 → Bool) (text : List UInt8) : List (List (List UInt8 × List UInt8)) :=
  sectionsWith kind (splitSections (linesOf text)).2

/-- **What sections say by themselves**: each one sets the fields of a fresh configuration.  The first one has a
configuration of its own to begin with. -/
def configsOf {α : Type} (assign : α → List UInt8 × List UInt8 → Option α) (zero : α) :
    α → List (List (List UInt8 × List UInt8)) → Option (List α)
  | _, [] => some []
  | fresh, keyValues :: rest =>
      (keyValues.foldlM assign fresh).bind fun config => (configsOf assign zero zero rest).map (config :: ·)

/-- What the GPU sections of a text say. -/
def gpuConfigs (u : Uninitialised) (text : List UInt8) : Option (List GPUConfig) :=
  configsOf assignGpu .zero u.gpu (sections isGpuSection text)

/-- What the NVMe sections of a text say. -/
def nvmeConfigs (u : Uninitialised) (text : List UInt8) : Option (List NVMeConfig) :=
  configsOf assignNvme .zero u.nvme (sections isNvmeSection text)

theorem sectionsWith_cons (kind : List UInt8 → Bool) (part : ConfigSection) (parts : List ConfigSection) :
    sectionsWith kind (part :: parts) =
      (if kind part.currentSection then [part.keyValues] else []) ++ sectionsWith kind parts := by
  rw [sectionsWith, List.filter_cons]
  by_cases h : kind part.currentSection = true
  · rw [if_pos h, if_pos h]
    rfl
  · rw [if_neg h, if_neg h]
    rfl

/-- No section is about a GPU and an NVMe device. -/
theorem not_isGpuSection_and_isNvmeSection (currentSection : List UInt8) :
    ¬(isGpuSection currentSection = true ∧ isNvmeSection currentSection = true) := by
  rintro ⟨hgpu, hnvme⟩
  obtain ⟨rest, hrest⟩ := List.isPrefixOf_iff_prefix.1 hgpu
  obtain ⟨rest', hrest'⟩ := List.isPrefixOf_iff_prefix.1 hnvme
  have hhead : (some 71 : Option UInt8) = some 78 := congrArg List.head? (hrest.trans hrest'.symm)
  exact absurd hhead (by decide)

/-- **The configurations of the sections of a kind**: those that are done, and those that come of the rest of the text,
with what is left of the current section. -/
def pending {α : Type} (assign : α → List UInt8 × List UInt8 → Option α) (zero : α) (kind : List UInt8 → Bool)
    (done : List α) (current : α) (inSection : Bool) (lines : List Line) : Option (List α) :=
  (configsOf assign zero current ((if inSection then [(splitSections lines).1] else []) ++
    sectionsWith kind (splitSections lines).2)).map (done ++ ·)

section Pending

variable {α : Type} (assign : α → List UInt8 × List UInt8 → Option α) (zero : α) (kind : List UInt8 → Bool)
  (done : List α) (current : α) (inSection : Bool)

/-- At the end, the current section is done. -/
theorem pending_nil :
    pending assign zero kind done current inSection [] = some (if inSection then done ++ [current] else done) := by
  cases inSection with
  | true => rfl
  | false => exact congrArg some (List.append_nil done)

/-- A header ends the current section, and may begin one of the kind. -/
theorem pending_header (currentSection : List UInt8) (lines : List Line) :
    pending assign zero kind done current inSection (.header currentSection :: lines) =
      pending assign zero kind (if inSection then done ++ [current] else done) (if inSection then zero else current)
        (kind currentSection) lines := by
  rw [pending, pending, splitSections, sectionsWith_cons]
  cases inSection with
  | false => rfl
  | true =>
      rw [if_pos rfl, if_pos rfl, if_pos rfl, List.singleton_append, configsOf, List.foldlM_nil]
      change Option.map _ (Option.map _ _) = _
      rw [Option.map_map]
      refine congrArg (fun f => Option.map f _) (funext fun configs => ?_)
      rw [Function.comp_apply, List.append_assoc, List.singleton_append]

/-- A key-value line sets a field of the current section. -/
theorem pending_keyValue_true (key value : List UInt8) (lines : List Line) :
    pending assign zero kind done current true (.keyValue key value :: lines) =
      (assign current (key, value)).bind fun config => pending assign zero kind done config true lines := by
  rw [pending, splitSections, if_pos rfl, List.singleton_append, configsOf, List.foldlM_cons]
  cases assign current (key, value) with
  | none => rfl
  | some config => rfl

/-- A key-value line says nothing about sections of other kinds. -/
theorem pending_keyValue_false (key value : List UInt8) (lines : List Line) :
    pending assign zero kind done current false (.keyValue key value :: lines) =
      pending assign zero kind done current false lines := rfl

end Pending

namespace ParserState

/-- The configurations of both kinds. -/
def outcome (s : ParserState) (lines : List Line) : Option (List GPUConfig × List NVMeConfig) :=
  (pending assignGpu .zero isGpuSection s.gpus s.currentGpu s.inGpuSection lines).bind fun gpus =>
    (pending assignNvme .zero isNvmeSection s.nvmes s.currentNvme s.inNvmeSection lines).map fun nvmes => (gpus, nvmes)

/-- What a header does to the sections before it. -/
theorem flush_eq (s : ParserState) : s.flush = { s with
    gpus := if s.inGpuSection then s.gpus ++ [s.currentGpu] else s.gpus
    currentGpu := if s.inGpuSection then .zero else s.currentGpu
    nvmes := if s.inNvmeSection then s.nvmes ++ [s.currentNvme] else s.nvmes
    currentNvme := if s.inNvmeSection then .zero else s.currentNvme } := by
  obtain ⟨gpus, nvmes, currentGpu, currentNvme, inGpu, inNvme⟩ := s
  cases inGpu with
  | true => cases inNvme <;> rfl
  | false => cases inNvme <;> rfl

/-- **A line does not change the outcome.** -/
theorem outcome_step (s : ParserState) (h : ¬(s.inGpuSection = true ∧ s.inNvmeSection = true)) (line : Line)
    (lines : List Line) : (s.step line).bind (outcome · lines) = s.outcome (line :: lines) := by
  obtain ⟨gpus, nvmes, currentGpu, currentNvme, inGpu, inNvme⟩ := s
  cases line with
  | skip => rfl
  | header currentSection =>
      rw [step, Option.bind_some, flush_eq, outcome, outcome, pending_header, pending_header]
  | keyValue key value =>
      cases inGpu with
      | true =>
          cases inNvme with
          | true => exact absurd ⟨rfl, rfl⟩ h
          | false =>
              rw [step, if_pos rfl, outcome, pending_keyValue_true, pending_keyValue_false]
              cases assignGpu currentGpu (key, value) with
              | none => rfl
              | some gpu => rfl
      | false =>
          cases inNvme with
          | true =>
              rw [step, if_neg Bool.false_ne_true, if_pos rfl, outcome, pending_keyValue_true, pending_keyValue_false]
              cases assignNvme currentNvme (key, value) with
              | none => exact (Option.bind_fun_none _).symm
              | some nvme => rfl
          | false => rfl

/-- A line leaves the parser in one section at most. -/
theorem exclusive_step {s s' : ParserState} (h : ¬(s.inGpuSection = true ∧ s.inNvmeSection = true)) {line : Line}
    (hstep : s.step line = some s') : ¬(s'.inGpuSection = true ∧ s'.inNvmeSection = true) := by
  cases line with
  | skip =>
      cases hstep
      exact h
  | header currentSection =>
      cases hstep
      exact not_isGpuSection_and_isNvmeSection currentSection
  | keyValue key value =>
      rw [step] at hstep
      by_cases hgpu : s.inGpuSection = true
      · rw [if_pos hgpu] at hstep
        obtain ⟨gpu, -, rfl⟩ := Option.map_eq_some_iff.1 hstep
        exact h
      · rw [if_neg hgpu] at hstep
        by_cases hnvme : s.inNvmeSection = true
        · rw [if_pos hnvme] at hstep
          obtain ⟨nvme, -, rfl⟩ := Option.map_eq_some_iff.1 hstep
          exact h
        · rw [if_neg hnvme] at hstep
          cases hstep
          exact h

/-- At the end, the current sections are done. -/
theorem outcome_nil (s : ParserState) : s.outcome [] = some s.finish := by
  rw [outcome, pending_nil, pending_nil]
  rfl

/-- **A run ends with the outcome.** -/
theorem run_eq (s : ParserState) (h : ¬(s.inGpuSection = true ∧ s.inNvmeSection = true)) (lines : List Line) :
    (s.run lines).map finish = s.outcome lines := by
  induction lines generalizing s with
  | nil => exact (outcome_nil s).symm
  | cons line lines ih =>
      rw [← outcome_step s h line lines, run, List.foldlM_cons]
      cases hstep : s.step line with
      | none => rfl
      | some s' => exact ih s' (exclusive_step h hstep)

end ParserState

/-- **The parser reads each section by itself.** -/
theorem readConfigs_eq (u : Uninitialised) (text : List UInt8) :
    readConfigs u text = (gpuConfigs u text).bind fun gpus => (nvmeConfigs u text).map fun nvmes => (gpus, nvmes) := by
  have hinit : ¬((ParserState.init u).inGpuSection = true ∧ (ParserState.init u).inNvmeSection = true) := by
    rintro ⟨hgpu, -⟩
    cases hgpu
  have hpending : ∀ {α : Type} (assign : α → List UInt8 × List UInt8 → Option α) (zero fresh : α)
      (kind : List UInt8 → Bool), pending assign zero kind [] fresh false (linesOf text)
        = configsOf assign zero fresh (sections kind text) := fun _ _ _ _ => Option.map_id'
  have hgpu := hpending assignGpu .zero u.gpu isGpuSection
  have hnvme := hpending assignNvme .zero u.nvme isNvmeSection
  rw [readConfigs, ParserState.run_eq _ hinit, gpuConfigs, nvmeConfigs, ← hgpu, ← hnvme]
  rfl

/-! ### What the groups are -/

/-- The NVMe sections with the CUDA device of a GPU section. -/
def nvmesOf (nvmes : List NVMeConfig) (gpu : GPUConfig) : List NVMeConfig :=
  nvmes.filter fun nvme => decide (nvme.cudaDevice = gpu.cudaDevice)

theorem mem_nvmesOf {nvmes : List NVMeConfig} {gpu : GPUConfig} {nvme : NVMeConfig} :
    nvme ∈ nvmesOf nvmes gpu ↔ nvme ∈ nvmes ∧ nvme.cudaDevice = gpu.cudaDevice := by
  rw [nvmesOf, List.mem_filter, decide_eq_true_eq]

/-- No address and no path occurs twice. -/
def NoDuplicates (nvmes : List NVMeConfig) : Prop :=
  (nvmes.map NVMeConfig.pciAddr).Nodup ∧ (nvmes.map NVMeConfig.mountPath).Nodup

instance (nvmes : List NVMeConfig) : Decidable (NoDuplicates nvmes) := inferInstanceAs (Decidable (_ ∧ _))

/-- The groups of the GPU sections that have NVMe sections. -/
def matchedGroups (gpus : List GPUConfig) (nvmes : List NVMeConfig) : List SystemConfigGroup :=
  (gpus.filter fun gpu => decide (nvmesOf nvmes gpu ≠ [])).map fun gpu => ⟨gpu, nvmesOf nvmes gpu⟩

/-- **A configuration is accepted**: no group has a duplicate, and there is a group. -/
def Acceptable (gpus : List GPUConfig) (nvmes : List NVMeConfig) : Prop :=
  (∀ gpu ∈ gpus, NoDuplicates (nvmesOf nvmes gpu)) ∧ matchedGroups gpus nvmes ≠ []

/-- The sections of a device are collected in their order. -/
theorem get?_nvmeGroups (nvmes : List NVMeConfig) (gpu : GPUConfig) :
    ((nvmeGroups nvmes).get? gpu.cudaDevice).getD [] = nvmesOf nvmes gpu := by
  have hfold : ∀ groups : PyDict ℤ (List NVMeConfig), ((nvmes.foldl (fun groups nvme => groups.set nvme.cudaDevice
      ((groups.get? nvme.cudaDevice).getD [] ++ [nvme])) groups).get? gpu.cudaDevice).getD []
        = (groups.get? gpu.cudaDevice).getD [] ++ nvmesOf nvmes gpu := by
    induction nvmes with
    | nil => exact fun groups => (List.append_nil _).symm
    | cons nvme nvmes ih =>
        intro groups
        rw [List.foldl_cons, ih, PyDict.get?_set, nvmesOf, nvmesOf, List.filter_cons]
        by_cases h : nvme.cudaDevice = gpu.cudaDevice
        · rw [if_pos h.symm, if_pos (decide_eq_true h), Option.getD_some, h, List.append_assoc, List.singleton_append]
        · rw [if_neg (fun h' => h h'.symm), if_neg (by rwa [decide_eq_true_eq])]
  exact hfold .empty

/-- A group passes the check exactly if it has no duplicates, and none of what has been seen. -/
theorem duplicateIn_eq_none_iff (cudaDevice : ℤ) (nvmes : List NVMeConfig) (pciAddrs mountPaths : List (List UInt8)) :
    duplicateIn cudaDevice nvmes pciAddrs mountPaths = none ↔
      (∀ nvme ∈ nvmes, nvme.pciAddr ∉ pciAddrs ∧ nvme.mountPath ∉ mountPaths) ∧ NoDuplicates nvmes := by
  induction nvmes generalizing pciAddrs mountPaths with
  | nil => simp [duplicateIn, NoDuplicates]
  | cons nvme nvmes ih =>
      rw [duplicateIn, List.forall_mem_cons, NoDuplicates, List.map_cons, List.map_cons, List.nodup_cons, List.nodup_cons]
      by_cases hpci : nvme.pciAddr ∈ pciAddrs
      · rw [if_pos hpci]
        refine iff_of_false (fun h => by cases h) fun h => h.1.1.1 hpci
      · rw [if_neg hpci]
        by_cases hmount : nvme.mountPath ∈ mountPaths
        · rw [if_pos hmount]
          refine iff_of_false (fun h => by cases h) fun h => h.1.1.2 hmount
        · rw [if_neg hmount, ih, NoDuplicates]
          simp only [List.mem_cons, not_or, List.mem_map, not_exists, not_and]
          constructor
          · rintro ⟨hseen, hpcis, hmounts⟩
            exact ⟨⟨⟨hpci, hmount⟩, fun nvme' h => ⟨(hseen nvme' h).1.2, (hseen nvme' h).2.2⟩⟩,
              ⟨fun nvme' h => (hseen nvme' h).1.1, hpcis⟩, ⟨fun nvme' h => (hseen nvme' h).2.1, hmounts⟩⟩
          · rintro ⟨⟨-, hseen⟩, ⟨hpci', hpcis⟩, ⟨hmount', hmounts⟩⟩
            exact ⟨fun nvme' h => ⟨⟨hpci' nvme' h, (hseen nvme' h).1⟩, ⟨hmount' nvme' h, (hseen nvme' h).2⟩⟩, hpcis, hmounts⟩

theorem duplicateIn_nil_eq_none_iff (cudaDevice : ℤ) (nvmes : List NVMeConfig) :
    duplicateIn cudaDevice nvmes [] [] = none ↔ NoDuplicates nvmes := by
  rw [duplicateIn_eq_none_iff]
  exact and_iff_right fun nvme _ => ⟨List.not_mem_nil, List.not_mem_nil⟩

theorem matchedGroups_cons (gpu : GPUConfig) (gpus : List GPUConfig) (nvmes : List NVMeConfig) :
    matchedGroups (gpu :: gpus) nvmes =
      (if nvmesOf nvmes gpu ≠ [] then [⟨gpu, nvmesOf nvmes gpu⟩] else []) ++ matchedGroups gpus nvmes := by
  rw [matchedGroups, List.filter_cons]
  by_cases h : nvmesOf nvmes gpu ≠ []
  · rw [if_pos (decide_eq_true h), if_pos h]
    rfl
  · rw [if_neg (by rwa [decide_eq_true_eq]), if_neg h]
    rfl

/-- **What the loop ends with**: the result is valid exactly if no group has a duplicate and there is a group, and then
the groups are those of the GPU sections that have NVMe sections. -/
theorem groupLoop_eq (nvmes : List NVMeConfig) (gpus : List GPUConfig) (result : ParsedSystemConfig)
    (hvalid : result.valid = false) :
    ((groupLoop (nvmeGroups nvmes) gpus result).valid = true ↔
      (∀ gpu ∈ gpus, NoDuplicates (nvmesOf nvmes gpu)) ∧ result.groups ++ matchedGroups gpus nvmes ≠ []) ∧
    ((groupLoop (nvmeGroups nvmes) gpus result).valid = true →
      (groupLoop (nvmeGroups nvmes) gpus result).groups = result.groups ++ matchedGroups gpus nvmes) := by
  induction gpus generalizing result with
  | nil =>
      rw [groupLoop, matchedGroups, List.filter_nil, List.map_nil, List.append_nil]
      by_cases hempty : result.groups = []
      · rw [if_pos hempty]
        refine ⟨iff_of_false ?_ fun h => h.2 hempty, fun _ => rfl⟩
        dsimp only
        rw [hvalid]
        exact Bool.false_ne_true
      · rw [if_neg hempty]
        exact ⟨iff_of_true rfl ⟨fun gpu hgpu => absurd hgpu List.not_mem_nil, hempty⟩, fun _ => rfl⟩
  | cons gpu gpus ih =>
      rw [groupLoop]
      dsimp only
      rw [get?_nvmeGroups, List.forall_mem_cons, matchedGroups_cons]
      cases hduplicate : duplicateIn gpu.cudaDevice (nvmesOf nvmes gpu) [] [] with
      | some message =>
          have hnot : ¬NoDuplicates (nvmesOf nvmes gpu) := by
            rw [← duplicateIn_nil_eq_none_iff gpu.cudaDevice, hduplicate]
            exact fun h => by cases h
          dsimp only
          rw [hvalid]
          exact ⟨iff_of_false Bool.false_ne_true fun h => hnot h.1.1, fun h => absurd h Bool.false_ne_true⟩
      | none =>
          rw [duplicateIn_nil_eq_none_iff] at hduplicate
          dsimp only
          rw [and_iff_right hduplicate]
          by_cases hempty : nvmesOf nvmes gpu ≠ []
          · rw [if_pos hempty, if_pos hempty, ← List.append_assoc]
            exact ih { result with groups := result.groups ++ [⟨gpu, nvmesOf nvmes gpu⟩] } hvalid
          · rw [if_neg hempty, if_neg hempty, List.nil_append]
            exact ih result hvalid

/-- **What parsing returns**, where all sections can be read. -/
theorem parseSystemConfig_spec {u : Uninitialised} {text : List UInt8} {gpus : List GPUConfig} {nvmes : List NVMeConfig}
    (hgpus : gpuConfigs u text = some gpus) (hnvmes : nvmeConfigs u text = some nvmes) :
    ∃ result, parseSystemConfig u text = some result ∧ (result.valid = true ↔ Acceptable gpus nvmes) ∧
      (result.valid = true → result.groups = matchedGroups gpus nvmes) := by
  have hread : readConfigs u text = some (gpus, nvmes) := by
    rw [readConfigs_eq, hgpus, hnvmes]
    rfl
  rw [parseSystemConfig, hread, Option.map_some]
  dsimp only
  by_cases hnogpus : gpus = []
  · rw [if_pos hnogpus]
    refine ⟨_, rfl, iff_of_false Bool.false_ne_true fun h => h.2 ?_, fun h => absurd h Bool.false_ne_true⟩
    rw [hnogpus]
    rfl
  · rw [if_neg hnogpus]
    by_cases hnonvmes : nvmes = []
    · rw [if_pos hnonvmes]
      refine ⟨_, rfl, iff_of_false Bool.false_ne_true fun h => h.2 ?_, fun h => absurd h Bool.false_ne_true⟩
      rw [matchedGroups, List.map_eq_nil_iff, List.filter_eq_nil_iff]
      intro gpu _
      rw [decide_eq_true_eq, hnonvmes]
      exact fun h => h rfl
    · rw [if_neg hnonvmes]
      exact ⟨_, rfl, groupLoop_eq nvmes gpus ⟨[], false, []⟩ rfl⟩

/-! ### What parsing is to do -/

/-- A GPU section has the CUDA device of an NVMe section. -/
def Matched (gpus : List GPUConfig) (nvme : NVMeConfig) : Prop := ∃ gpu ∈ gpus, gpu.cudaDevice = nvme.cudaDevice

/-- **The groups are right**: they have different devices; each NVMe section with a GPU section is in one group, that
of the GPU section, and with what it says by itself; and no address is handed to the controllers of two groups. -/
structure GroupsRight (gpus : List GPUConfig) (nvmes : List NVMeConfig) (groups : List SystemConfigGroup) : Prop where
  devices : (groups.map fun group => group.gpu.cudaDevice).Nodup
  occurs : ∀ nvme ∈ nvmes, Matched gpus nvme → ∃ before group after, groups = before ++ group :: after ∧
    group.gpu ∈ gpus ∧ group.gpu.cudaDevice = nvme.cudaDevice ∧ group.nvmes.count nvme = 1 ∧
    ∀ group' ∈ before ++ after, nvme ∉ group'.nvmes
  addresses : groups.Pairwise fun group group' => ∀ param ∈ convertToNvmeCtrlParamsGroup group,
    ∀ param' ∈ convertToNvmeCtrlParamsGroup group', param.pciAddr ≠ param'.pciAddr

/-- **Parsing does what it is to do**: it returns, and if the result is valid, the groups are right. -/
def ParsesRight (u : Uninitialised) (text : List UInt8) : Prop :=
  ∃ result, parseSystemConfig u text = some result ∧ (result.valid = true →
    ∃ gpus nvmes, gpuConfigs u text = some gpus ∧ nvmeConfigs u text = some nvmes ∧ GroupsRight gpus nvmes result.groups)

/-- The devices of the GPU sections that have NVMe sections differ, and so do the addresses of NVMe sections of
different devices. -/
structure Disjoint (gpus : List GPUConfig) (nvmes : List NVMeConfig) : Prop where
  devices : ((gpus.filter fun gpu => decide (nvmesOf nvmes gpu ≠ [])).map GPUConfig.cudaDevice).Nodup
  addresses : ∀ nvme ∈ nvmes, ∀ nvme' ∈ nvmes, Matched gpus nvme → Matched gpus nvme' →
    nvme.cudaDevice ≠ nvme'.cudaDevice → nvme.pciAddr ≠ nvme'.pciAddr

/-! ### When parsing does what it is to do -/

theorem mem_matchedGroups {gpus : List GPUConfig} {nvmes : List NVMeConfig} {group : SystemConfigGroup} :
    group ∈ matchedGroups gpus nvmes ↔
      group.gpu ∈ gpus ∧ group.nvmes ≠ [] ∧ group.nvmes = nvmesOf nvmes group.gpu := by
  rw [matchedGroups, List.mem_map]
  constructor
  · rintro ⟨gpu, hgpu, rfl⟩
    rw [List.mem_filter, decide_eq_true_eq] at hgpu
    exact ⟨hgpu.1, hgpu.2, rfl⟩
  · rintro ⟨hgpu, hne, heq⟩
    refine ⟨group.gpu, List.mem_filter.2 ⟨hgpu, decide_eq_true (heq ▸ hne)⟩, ?_⟩
    rw [← heq]

theorem devices_matchedGroups (gpus : List GPUConfig) (nvmes : List NVMeConfig) :
    (matchedGroups gpus nvmes).map (fun group => group.gpu.cudaDevice) =
      (gpus.filter fun gpu => decide (nvmesOf nvmes gpu ≠ [])).map GPUConfig.cudaDevice := by
  rw [matchedGroups, List.map_map]
  rfl

/-- The NVMe sections of a group are sections of the text, with the device of the group. -/
theorem of_mem_nvmes {gpus : List GPUConfig} {nvmes : List NVMeConfig} {group : SystemConfigGroup}
    (hgroup : group ∈ matchedGroups gpus nvmes) {nvme : NVMeConfig} (h : nvme ∈ group.nvmes) :
    nvme ∈ nvmes ∧ nvme.cudaDevice = group.gpu.cudaDevice := by
  rw [(mem_matchedGroups.1 hgroup).2.2] at h
  exact mem_nvmesOf.1 h

/-- A matched NVMe section is in the group of a GPU section with its device. -/
theorem exists_group_of_matched {gpus : List GPUConfig} {nvmes : List NVMeConfig} {nvme : NVMeConfig}
    (hnvme : nvme ∈ nvmes) (h : Matched gpus nvme) :
    ∃ group ∈ matchedGroups gpus nvmes, group.gpu.cudaDevice = nvme.cudaDevice ∧ nvme ∈ group.nvmes := by
  obtain ⟨gpu, hgpu, hdevice⟩ := h
  have hmem : nvme ∈ nvmesOf nvmes gpu := mem_nvmesOf.2 ⟨hnvme, hdevice.symm⟩
  exact ⟨⟨gpu, nvmesOf nvmes gpu⟩, mem_matchedGroups.2 ⟨hgpu, List.ne_nil_of_mem hmem, rfl⟩, hdevice, hmem⟩

/-- The parameters of a group have the addresses of its NVMe sections. -/
theorem addresses_convert_iff {group group' : SystemConfigGroup} :
    (∀ param ∈ convertToNvmeCtrlParamsGroup group, ∀ param' ∈ convertToNvmeCtrlParamsGroup group',
        param.pciAddr ≠ param'.pciAddr) ↔
      ∀ nvme ∈ group.nvmes, ∀ nvme' ∈ group'.nvmes, nvme.pciAddr ≠ nvme'.pciAddr := by
  simp only [convertToNvmeCtrlParamsGroup, List.forall_mem_map]

/-- In a group without duplicates, a section occurs once. -/
theorem count_eq_one {nvmes : List NVMeConfig} (h : NoDuplicates nvmes) {nvme : NVMeConfig} (hmem : nvme ∈ nvmes) :
    nvmes.count nvme = 1 :=
  List.count_eq_one_of_mem (List.Nodup.of_map _ h.1) hmem

/-- **The groups of an accepted configuration are right exactly if the groups are disjoint.** -/
theorem groupsRight_matchedGroups_iff {gpus : List GPUConfig} {nvmes : List NVMeConfig} (h : Acceptable gpus nvmes) :
    GroupsRight gpus nvmes (matchedGroups gpus nvmes) ↔ Disjoint gpus nvmes := by
  constructor
  · rintro ⟨hdevices, -, haddresses⟩
    refine ⟨devices_matchedGroups gpus nvmes ▸ hdevices, fun nvme hnvme nvme' hnvme' hmatched hmatched' hne => ?_⟩
    obtain ⟨group, hgroup, hdevice, hmem⟩ := exists_group_of_matched hnvme hmatched
    obtain ⟨group', hgroup', hdevice', hmem'⟩ := exists_group_of_matched hnvme' hmatched'
    -- the groups have different devices, so they are at different places, in one order or the other
    have hgroups : group ≠ group' := by
      rintro rfl
      exact hne (hdevice.symm.trans hdevice')
    have hpairwise := haddresses.imp addresses_convert_iff.1
    rcases List.mem_iff_getElem.1 hgroup with ⟨i, hi, rfl⟩
    rcases List.mem_iff_getElem.1 hgroup' with ⟨j, hj, rfl⟩
    rcases Nat.lt_trichotomy i j with hij | rfl | hji
    · exact List.pairwise_iff_getElem.1 hpairwise i j hi hj hij nvme hmem nvme' hmem'
    · exact absurd rfl hgroups
    · exact (List.pairwise_iff_getElem.1 hpairwise j i hj hi hji nvme' hmem' nvme hmem).symm
  · rintro ⟨hdevices, haddresses⟩
    rw [← devices_matchedGroups] at hdevices
    refine ⟨hdevices, fun nvme hnvme hmatched => ?_, ?_⟩
    · obtain ⟨group, hgroup, hdevice, hmem⟩ := exists_group_of_matched hnvme hmatched
      have hgpu := (mem_matchedGroups.1 hgroup).1
      have hcount : group.nvmes.count nvme = 1 := by
        refine count_eq_one ?_ hmem
        rw [(mem_matchedGroups.1 hgroup).2.2]
        exact h.1 group.gpu hgpu
      obtain ⟨before, after, hsplit⟩ := List.append_of_mem hgroup
      refine ⟨before, group, after, hsplit, hgpu, hdevice, hcount, fun group' hgroup' hmem' => ?_⟩
      -- another group has another device
      have hmatched' : group' ∈ matchedGroups gpus nvmes := by
        rw [hsplit, List.mem_append, List.mem_cons]
        rcases List.mem_append.1 hgroup' with hbefore | hafter
        · exact Or.inl hbefore
        · exact Or.inr (Or.inr hafter)
      have hdevice' := (of_mem_nvmes hmatched' hmem').2
      rw [hsplit, List.map_append, List.map_cons, List.nodup_middle, List.nodup_cons, ← List.map_append] at hdevices
      exact hdevices.1 (List.mem_map.2 ⟨group', hgroup', hdevice'.symm.trans hdevice.symm⟩)
    · rw [List.Nodup, List.pairwise_map] at hdevices
      refine hdevices.imp_of_mem fun {group group'} hgroup hgroup' hne => ?_
      refine addresses_convert_iff.2 fun nvme hmem nvme' hmem' => ?_
      obtain ⟨hnvme, hdevice⟩ := of_mem_nvmes hgroup hmem
      obtain ⟨hnvme', hdevice'⟩ := of_mem_nvmes hgroup' hmem'
      refine haddresses nvme hnvme nvme' hnvme' ⟨_, (mem_matchedGroups.1 hgroup).1, hdevice.symm⟩
        ⟨_, (mem_matchedGroups.1 hgroup').1, hdevice'.symm⟩ ?_
      rw [hdevice, hdevice']
      exact hne

/-- **When parsing does what it is to do**: all numbers in the sections can be read, and if the configuration is
accepted, its groups are disjoint. -/
theorem parsesRight_iff (u : Uninitialised) (text : List UInt8) :
    ParsesRight u text ↔ ∃ gpus nvmes, gpuConfigs u text = some gpus ∧ nvmeConfigs u text = some nvmes ∧
      (Acceptable gpus nvmes → Disjoint gpus nvmes) := by
  constructor
  · rintro ⟨result, hparse, hright⟩
    -- the parser returns only if all sections can be read
    have hread : ∃ configs, readConfigs u text = some configs := by
      obtain ⟨configs, hconfigs, -⟩ := Option.map_eq_some_iff.1 hparse
      exact ⟨configs, hconfigs⟩
    obtain ⟨configs, hread⟩ := hread
    rw [readConfigs_eq, Option.bind_eq_some_iff] at hread
    obtain ⟨gpus, hgpus, hread⟩ := hread
    obtain ⟨nvmes, hnvmes, -⟩ := Option.map_eq_some_iff.1 hread
    refine ⟨gpus, nvmes, hgpus, hnvmes, fun hacceptable => ?_⟩
    obtain ⟨result', hparse', hvalid, hgroups⟩ := parseSystemConfig_spec hgpus hnvmes
    rw [hparse, Option.some.injEq] at hparse'
    subst hparse'
    obtain ⟨gpus', nvmes', hgpus', hnvmes', hgroupsRight⟩ := hright (hvalid.2 hacceptable)
    rw [hgpus, Option.some.injEq] at hgpus'
    rw [hnvmes, Option.some.injEq] at hnvmes'
    subst hgpus'
    subst hnvmes'
    rw [hgroups (hvalid.2 hacceptable)] at hgroupsRight
    exact (groupsRight_matchedGroups_iff hacceptable).1 hgroupsRight
  · rintro ⟨gpus, nvmes, hgpus, hnvmes, hdisjoint⟩
    obtain ⟨result, hparse, hvalid, hgroups⟩ := parseSystemConfig_spec hgpus hnvmes
    refine ⟨result, hparse, fun hresult => ⟨gpus, nvmes, hgpus, hnvmes, ?_⟩⟩
    have hacceptable := hvalid.1 hresult
    rw [hgroups hresult]
    exact (groupsRight_matchedGroups_iff hacceptable).2 (hdisjoint hacceptable)

/-- Numbers that were never set are zero. -/
def zeroed : Uninitialised := ⟨0, 0, 0, 0, 0, 0⟩

/-- Two GPU sections, and an NVMe section with one address for each. -/
def sharedAddress : List UInt8 := bytes ("<GPU0>\ncudaDevice = 0\n<GPU1>\ncudaDevice = 1\n" ++
  "<NVMe1>\nmount_path = \"a\"\npci_addr = \"p\"\ncudaDevice = 0\n" ++
  "<NVMe2>\nmount_path = \"b\"\npci_addr = \"p\"\ncudaDevice = 1\n")

/-- The groups that are made of them. -/
def sharedAddressGroups : List SystemConfigGroup :=
  [⟨⟨[], 0⟩, [⟨bytes "a", bytes "p", 0, 0, 0, 0, 0⟩]⟩, ⟨⟨[], 1⟩, [⟨bytes "b", bytes "p", 0, 0, 0, 1, 0⟩]⟩]

/-- **The parser throws** where a device is not a number; and an address in the groups of two devices is accepted. -/
theorem not_parsesRight_badDevice :
    (parseSystemConfig zeroed (bytes "<GPU0>\ncudaDevice = x\n") = none ∧
        ¬ParsesRight zeroed (bytes "<GPU0>\ncudaDevice = x\n")) ∧
      parseSystemConfig zeroed sharedAddress = some ⟨sharedAddressGroups, true, []⟩ ∧
        ¬ParsesRight zeroed sharedAddress := by
  have hthrows : parseSystemConfig zeroed (bytes "<GPU0>\ncudaDevice = x\n") = none := by decide +kernel
  have haccepted : parseSystemConfig zeroed sharedAddress = some ⟨sharedAddressGroups, true, []⟩ := by decide +kernel
  refine ⟨⟨hthrows, ?_⟩, haccepted, ?_⟩
  · rintro ⟨result, hparse, -⟩
    rw [hthrows] at hparse
    cases hparse
  · rintro ⟨result, hparse, hright⟩
    rw [haccepted, Option.some.injEq] at hparse
    subst hparse
    obtain ⟨gpus, nvmes, -, -, hgroups⟩ := hright rfl
    have haddresses := (List.pairwise_cons.1 hgroups.addresses).1 _ (List.mem_singleton_self _)
    rw [addresses_convert_iff] at haddresses
    exact haddresses _ (List.mem_singleton_self _) _ (List.mem_singleton_self _) rfl

end GeminiFS
end InfiniKV
