/-
**The command of a transfer, as the device reads it.**

A thread fills in the words of a command on its stack; what it does not set is what the stack held.  The device
reads the words again: the direction, two addresses, the first block and the number of blocks, which is cut to 16
bits and counted from zero.  A transfer of more than two pages has the addresses of its further pages in a list.

There is one command for the whole of an access, although only its start is translated.  The command covers the
access if the extents that the access spans happen to follow each other on the disk, and reads or overwrites foreign
blocks otherwise.

Main definitions:

* `InfiniKV.GeminiFS.issueNvmeCmd` — the words of a command;
* `InfiniKV.GeminiFS.NvmCmd.decode` — what the device reads in them;
* `InfiniKV.GeminiFS.DeviceCommand.byteMoves` — the bytes that the device moves for a command;
* `InfiniKV.GeminiFS.Storage` — the memory and the disks;
* `InfiniKV.GeminiFS.Covers` — the command of a transfer moves the bytes of the access.

Main results:

* `InfiniKV.GeminiFS.decode_nvmeXferCmd` — **the device reads what was issued**, but for the number of blocks;
* `InfiniKV.GeminiFS.exec_disks`, `InfiniKV.GeminiFS.exec_ram` — what moves of one direction do;
* `InfiniKV.GeminiFS.byteMoves_nvmeXferCmd` — **the bytes that are moved for a transfer**;
* `InfiniKV.GeminiFS.nvmeXfer_covers_iff` — **when a command covers its access**.
-/

import InfiniKV.DmaSlicing
import InfiniKV.Moves
import InfiniKV.NvmeAddress
import Mathlib.Tactic.IntervalCases

set_option relaxedAutoImplicit false
set_option autoImplicit false

namespace InfiniKV
namespace GeminiFS

/-! ### Filling in a command -/

/-- `nvm_cmd_t`: sixteen double words. -/
abbrev NvmCmd : Type := Fin 16 → UInt32

/-- What a thread finds on its stack, the namespace of its controller, and the id of its command. -/
structure ThreadEnv where
  stack : NvmCmd
  nvmNamespace : UInt32
  cid : UInt16

/-- `NVM_IO_WRITE`. -/
def NVM_IO_WRITE : UInt8 := 0x01

/-- `NVM_IO_READ`. -/
def NVM_IO_READ : UInt8 := 0x02

/-- `nvm_cmd_header`: double words 0 and 1. -/
def nvmCmdHeader (cmd : NvmCmd) (cid : UInt16) (opcode : UInt8) (nsId : UInt32) : NvmCmd :=
  let dword0 := (cid.toUInt32 <<< 16) ||| ((0x00 : UInt32) <<< 14) ||| ((0x00 : UInt32) <<< 8) |||
    (opcode &&& 0x7f).toUInt32
  Function.update (Function.update cmd 0 dword0) 1 nsId

/-- `nvm_cmd_data_ptr`: double words 6 to 9. -/
def nvmCmdDataPtr (cmd : NvmCmd) (prp1 prp2 : UInt64) : NvmCmd :=
  let cmd := Function.update cmd 0 (cmd 0 &&& ~~~(((0x03 : UInt32) <<< 14) ||| ((0x03 : UInt32) <<< 8)))
  let cmd := Function.update cmd 6 prp1.toUInt32
  let cmd := Function.update cmd 7 (prp1 >>> 32).toUInt32
  let cmd := Function.update cmd 8 prp2.toUInt32
  Function.update cmd 9 (prp2 >>> 32).toUInt32

/-- `nvm_cmd_rw_blks`: double words 10 to 12. -/
def nvmCmdRwBlks (cmd : NvmCmd) (startLba : UInt64) (nBlks : UInt16) : NvmCmd :=
  let cmd := Function.update cmd 10 startLba.toUInt32
  let cmd := Function.update cmd 11 (startLba >>> 32).toUInt32
  Function.update cmd 12 ((cmd 12 &&& 0xffff0000) ||| ((nBlks - 1).toUInt32 &&& 0xffff))

/-- `issue_nvme_cmd`, up to the queue.  The number of blocks is cut to 16 bits. -/
def issueNvmeCmd (stack : NvmCmd) (nvmNamespace : UInt32) (prp1 prp2 nBlocks startingLba : UInt64)
    (opcode : UInt8) (cid : UInt16) : NvmCmd :=
  nvmCmdRwBlks (nvmCmdDataPtr (nvmCmdHeader stack cid opcode nvmNamespace) prp1 prp2) startingLba
    nBlocks.toUInt16

/-- The command that `nvme_xfer` issues, where `none` stands for a failed assertion. -/
def NVMeFile.nvmeXferCmd (file : NVMeFile) (stack : NvmCmd) (nvmNamespace : UInt32) (cid : UInt16)
    (fileOffset nbytes prp1 prp2 : ℕ) (isRead : Bool) : Option NvmCmd :=
  (nvmeXfer file fileOffset nbytes).map fun cmd =>
    issueNvmeCmd stack nvmNamespace (UInt64.ofNat prp1) (UInt64.ofNat prp2) (UInt64.ofNat cmd.nBlocks)
      (UInt64.ofNat cmd.startingLba) (if isRead then NVM_IO_READ else NVM_IO_WRITE) cid

/-! ### Reading a command -/

/-- A read or a write as the device reads it. -/
structure DeviceCommand where
  opcode : UInt8
  cid : UInt16
  nsid : UInt32
  prp1 : ℕ
  prp2 : ℕ
  slba : ℕ
  nBlocks : ℕ
  deriving DecidableEq

/-- The number in two double words, the low one first. -/
def quadWord (low high : UInt32) : ℕ := low.toNat + high.toNat * 2 ^ 32

/-- What the device reads in the words of a command. -/
def NvmCmd.decode (cmd : NvmCmd) : DeviceCommand where
  opcode := (cmd 0).toUInt8
  cid := (cmd 0 >>> 16).toUInt16
  nsid := cmd 1
  prp1 := quadWord (cmd 6) (cmd 7)
  prp2 := quadWord (cmd 8) (cmd 9)
  slba := quadWord (cmd 10) (cmd 11)
  nBlocks := (cmd 12).toUInt16.toNat + 1

theorem quadWord_split (n : UInt64) : quadWord n.toUInt32 (n >>> 32).toUInt32 = n.toNat := by
  have hlt := n.toNat_lt
  rw [quadWord]
  simp only [UInt64.toNat_toUInt32, UInt64.toNat_shiftRight, Nat.shiftRight_eq_div_pow]
  have hshift : (32 : UInt64).toNat % 64 = 32 := rfl
  rw [hshift]
  omega

/-- The first word: neither clearing bits in it nor cutting the opcode changes what is read. -/
theorem dword0_fields (cid : UInt16) {opcode : UInt8} (hopcode : opcode &&& 0x7f = opcode) :
    let dword0 := (((cid.toUInt32 <<< 16) ||| ((0x00 : UInt32) <<< 14) ||| ((0x00 : UInt32) <<< 8) |||
      (opcode &&& 0x7f).toUInt32) &&& ~~~(((0x03 : UInt32) <<< 14) ||| ((0x03 : UInt32) <<< 8)))
    dword0.toUInt8 = opcode ∧ (dword0 >>> 16).toUInt16 = cid := by
  dsimp only
  rw [hopcode]
  constructor
  · apply UInt8.eq_of_toBitVec_eq
    ext i hi
    interval_cases i <;> simp
  · apply UInt16.eq_of_toBitVec_eq
    ext i hi
    rw [← hopcode]
    interval_cases i <;> simp

/-- The half of a word that the number of blocks is in. -/
theorem dword12_blocks (old : UInt32) (n : UInt16) :
    ((old &&& 0xffff0000) ||| (n.toUInt32 &&& 0xffff)).toUInt16 = n := by
  apply UInt16.eq_of_toBitVec_eq
  ext i hi
  interval_cases i <;> simp

/-- The number of blocks that is read where `n` were to be issued: it is cut to 16 bits, and counted from zero. -/
def issuedBlocks (n : ℕ) : ℕ := (n + 65535) % 65536 + 1

theorem issuedBlocks_pos (n : ℕ) : 0 < issuedBlocks n := Nat.succ_pos _

theorem issuedBlocks_le (n : ℕ) : issuedBlocks n ≤ 2 ^ 16 := by
  rw [issuedBlocks]
  omega

/-- As many blocks as 16 bits can count are issued. -/
theorem issuedBlocks_of_le {n : ℕ} (hpos : 0 < n) (hle : n ≤ 2 ^ 16) : issuedBlocks n = n := by
  rw [issuedBlocks]
  omega

theorem blocks_succ (n : ℕ) : ((UInt64.ofNat n).toUInt16 - 1).toNat + 1 = issuedBlocks n := by
  have hn : (UInt64.ofNat n).toNat = n % 2 ^ 64 := UInt64.toNat_ofNat' ..
  rw [UInt16.toNat_sub, UInt64.toNat_toUInt16, hn, issuedBlocks]
  have hone : (1 : UInt16).toNat = 1 := rfl
  rw [hone]
  omega

/-- **The device reads what was issued**, but for the number of blocks. -/
theorem decode_issueNvmeCmd (stack : NvmCmd) (nvmNamespace : UInt32) (prp1 prp2 : UInt64) (nBlocks : ℕ)
    (startingLba : UInt64) {opcode : UInt8} (cid : UInt16) (hopcode : opcode &&& 0x7f = opcode) :
    (issueNvmeCmd stack nvmNamespace prp1 prp2 (UInt64.ofNat nBlocks) startingLba opcode cid).decode =
      ⟨opcode, cid, nvmNamespace, prp1.toNat, prp2.toNat, startingLba.toNat, issuedBlocks nBlocks⟩ := by
  obtain ⟨hop, hcid⟩ := dword0_fields cid hopcode
  rw [NvmCmd.decode, DeviceCommand.mk.injEq]
  refine ⟨hop, hcid, rfl, quadWord_split prp1, quadWord_split prp2, quadWord_split startingLba, ?_⟩
  rw [← blocks_succ nBlocks]
  exact congrArg (fun n : UInt16 => n.toNat + 1) (dword12_blocks _ _)

/-- **The command of a transfer**, as the device reads it. -/
theorem decode_nvmeXferCmd {file : NVMeFile} {fileOffset nbytes : ℕ} {cmd : NvmeCmd}
    (hcmd : nvmeXfer file fileOffset nbytes = some cmd) (stack : NvmCmd) (nvmNamespace : UInt32) (cid : UInt16)
    (prp1 prp2 : ℕ) (isRead : Bool) :
    ∃ words, file.nvmeXferCmd stack nvmNamespace cid fileOffset nbytes prp1 prp2 isRead = some words ∧
      words.decode = ⟨if isRead then NVM_IO_READ else NVM_IO_WRITE, cid, nvmNamespace, prp1 % 2 ^ 64,
        prp2 % 2 ^ 64, cmd.startingLba % 2 ^ 64, issuedBlocks cmd.nBlocks⟩ := by
  have hnat : ∀ n : ℕ, (UInt64.ofNat n).toNat = n % 2 ^ 64 := fun n => UInt64.toNat_ofNat' ..
  have hopcode : (if isRead then NVM_IO_READ else NVM_IO_WRITE) &&& 0x7f =
      if isRead then NVM_IO_READ else NVM_IO_WRITE := by
    cases isRead <;> rfl
  refine ⟨_, by rw [NVMeFile.nvmeXferCmd, hcmd, Option.map_some], ?_⟩
  rw [decode_issueNvmeCmd _ _ _ _ _ _ _ hopcode, hnat, hnat, hnat]

/-! ### The bytes that are moved -/

/-- The memory that the device reaches, by I/O address, and the disk of each controller. -/
structure Storage where
  ram : ℕ → UInt8
  disks : ℕ × ℕ → UInt8

/-- A byte that a controller moves: from its disk to the memory, or back. -/
structure ByteMove where
  isRead : Bool
  address : ℕ
  disk : ℕ × ℕ
  deriving DecidableEq

/-- One byte is moved. -/
def ByteMove.exec (s : Storage) (move : ByteMove) : Storage :=
  if move.isRead then { s with ram := Function.update s.ram move.address (s.disks move.disk) }
  else { s with disks := Function.update s.disks move.disk (s.ram move.address) }

/-- The pages of `nbytes` bytes: one, two, or one and those in a list. -/
def DeviceCommand.pages (cmd : DeviceCommand) (memory : ℕ → List ℕ) (nbytes : ℕ) : List ℕ :=
  if nbytes ≤ PRP_SIZE_SINGLE_PAGE then [cmd.prp1]
  else if nbytes ≤ PRP_SIZE_DUAL_PAGE then [cmd.prp1, cmd.prp2]
  else cmd.prp1 :: (memory cmd.prp2).take (nbytes ⌈/⌉ PRP_SIZE_SINGLE_PAGE - 1)

/-- The address of byte `k` of the pages of a command. -/
def DeviceCommand.byteAddress (cmd : DeviceCommand) (memory : ℕ → List ℕ) (blockSizeLog k : ℕ) : ℕ :=
  (cmd.pages memory (cmd.nBlocks <<< blockSizeLog)).getD (k / PRP_SIZE_SINGLE_PAGE) 0 + k % PRP_SIZE_SINGLE_PAGE

/-- The bytes that controller `controller` moves for a command, which counts in blocks of
`2 ^ blockSizeLog` bytes.  Other commands than reads and writes move none. -/
def DeviceCommand.byteMoves (cmd : DeviceCommand) (memory : ℕ → List ℕ) (controller blockSizeLog : ℕ) :
    List ByteMove :=
  if cmd.opcode = NVM_IO_READ ∨ cmd.opcode = NVM_IO_WRITE then
    (List.range (cmd.nBlocks <<< blockSizeLog)).map fun k =>
      ⟨decide (cmd.opcode = NVM_IO_READ), cmd.byteAddress memory blockSizeLog k,
        (controller, cmd.slba <<< blockSizeLog + k)⟩
  else []

/-- A read or a write moves the blocks it names. -/
theorem byteMoves_io {cmd : DeviceCommand} {isRead : Bool}
    (hopcode : cmd.opcode = if isRead then NVM_IO_READ else NVM_IO_WRITE) (memory : ℕ → List ℕ)
    (controller blockSizeLog : ℕ) :
    cmd.byteMoves memory controller blockSizeLog =
      (List.range (cmd.nBlocks <<< blockSizeLog)).map fun k =>
        ⟨isRead, cmd.byteAddress memory blockSizeLog k, (controller, cmd.slba <<< blockSizeLog + k)⟩ := by
  have hio : (cmd.opcode = NVM_IO_READ ∨ cmd.opcode = NVM_IO_WRITE) ∧
      decide (cmd.opcode = NVM_IO_READ) = isRead := by
    rw [hopcode]
    cases isRead <;> decide
  rw [DeviceCommand.byteMoves, if_pos hio.1, hio.2]

/-- Bytes are moved one after the other. -/
def Storage.exec (s : Storage) (moves : List ByteMove) : Storage := moves.foldl ByteMove.exec s

/-- **What moves to the disks do.** -/
theorem exec_disks {moves : List ByteMove} (hwrite : ∀ move ∈ moves, move.isRead = false) (s : Storage) :
    s.exec moves = ⟨s.ram, Moves.copy (moves.map fun move => (move.address, move.disk)) s.ram s.disks⟩ := by
  induction moves generalizing s with
  | nil => rfl
  | cons move moves ih =>
      obtain ⟨hmove, hmoves⟩ := List.forall_mem_cons.1 hwrite
      have hexec : ByteMove.exec s move =
          ⟨s.ram, Function.update s.disks move.disk (s.ram move.address)⟩ := by
        rw [ByteMove.exec, hmove, if_neg Bool.false_ne_true]
      rw [Storage.exec, List.foldl_cons, hexec]
      exact ih hmoves _

/-- **What a write does to a disk**: its blocks hold what the memory holds, and the rest of the disk is as before. -/
theorem exec_write {cmd : DeviceCommand} (hopcode : cmd.opcode = NVM_IO_WRITE) (s : Storage) (memory : ℕ → List ℕ)
    (controller blockSizeLog y : ℕ) :
    (s.exec (cmd.byteMoves memory controller blockSizeLog)).disks (controller, y) =
      if cmd.slba <<< blockSizeLog ≤ y ∧ y < cmd.slba <<< blockSizeLog + cmd.nBlocks <<< blockSizeLog then
        s.ram (cmd.byteAddress memory blockSizeLog (y - cmd.slba <<< blockSizeLog))
      else s.disks (controller, y) := by
  have hmoves := @byteMoves_io cmd false hopcode memory controller blockSizeLog
  rw [exec_disks (by rw [hmoves]; simp), hmoves, List.map_map]
  dsimp only
  split_ifs with hin
  · refine Moves.copy_of_mem ?_ (List.mem_map.2 ⟨y - cmd.slba <<< blockSizeLog, ?_, ?_⟩)
    · -- one byte of the memory for each byte of the disk
      intro a a' b ha ha'
      obtain ⟨k, -, hk⟩ := List.mem_map.1 ha
      obtain ⟨k', -, hk'⟩ := List.mem_map.1 ha'
      have hsame := congrArg Prod.snd ((congrArg Prod.snd hk).trans (congrArg Prod.snd hk').symm)
      obtain rfl : k = k' := Nat.add_left_cancel hsame
      exact (congrArg Prod.fst hk).symm.trans (congrArg Prod.fst hk')
    · rw [List.mem_range]
      omega
    · simp only [Function.comp, Nat.add_sub_cancel' hin.1]
  · refine Moves.copy_of_forall_not_mem fun a ha => hin ?_
    obtain ⟨k, hk, heq⟩ := List.mem_map.1 ha
    have hy := congrArg Prod.snd (congrArg Prod.snd heq)
    rw [List.mem_range] at hk
    simp only [Function.comp] at hy
    omega

/-- **What moves to the memory do.** -/
theorem exec_ram {moves : List ByteMove} (hread : ∀ move ∈ moves, move.isRead = true) (s : Storage) :
    s.exec moves = ⟨Moves.copy (moves.map fun move => (move.disk, move.address)) s.disks s.ram, s.disks⟩ := by
  induction moves generalizing s with
  | nil => rfl
  | cons move moves ih =>
      obtain ⟨hmove, hmoves⟩ := List.forall_mem_cons.1 hread
      have hexec : ByteMove.exec s move =
          ⟨Function.update s.ram move.address (s.disks move.disk), s.disks⟩ := by
        rw [ByteMove.exec, hmove, if_pos rfl]
      rw [Storage.exec, List.foldl_cons, hexec]
      exact ih hmoves _

/-- **The bytes that are moved for a transfer** whose blocks can be named and counted: those of the pages, one by
one, and those of the disk. -/
theorem byteMoves_nvmeXferCmd {file : NVMeFile} {fileOffset nbytes prp1 prp2 : ℕ} {cmd : NvmeCmd}
    (hcmd : nvmeXfer file fileOffset nbytes = some cmd) (hofst : 2 ^ file.hqpsBlockSizeLog ∣ cmd.nvmeOfst)
    (hlt : cmd.nvmeOfst < 2 ^ 64) (hpos : 0 < nbytes) (hblocks : 2 ^ file.hqpsBlockSizeLog ∣ nbytes)
    (hle : nbytes ≤ 2 ^ 16 * 2 ^ file.hqpsBlockSizeLog) (hprp1 : prp1 < 2 ^ 64) (hprp2 : prp2 < 2 ^ 64)
    (stack : NvmCmd) (nvmNamespace : UInt32) (cid : UInt16) (isRead : Bool) :
    ∃ words, file.nvmeXferCmd stack nvmNamespace cid fileOffset nbytes prp1 prp2 isRead = some words ∧
      ∀ (memory : ℕ → List ℕ) (controller : ℕ), words.decode.byteMoves memory controller file.hqpsBlockSizeLog =
        (List.range nbytes).map fun k =>
          ⟨isRead, (DeviceCommand.pages ⟨if isRead then NVM_IO_READ else NVM_IO_WRITE, cid, nvmNamespace, prp1, prp2,
            cmd.startingLba, cmd.nBlocks⟩ memory nbytes).getD (k / PRP_SIZE_SINGLE_PAGE) 0 +
              k % PRP_SIZE_SINGLE_PAGE, (controller, cmd.nvmeOfst + k)⟩ := by
  obtain ⟨words, hwords, hdecode⟩ := decode_nvmeXferCmd hcmd stack nvmNamespace cid prp1 prp2 isRead
  refine ⟨words, hwords, fun memory controller => ?_⟩
  have hpow : 0 < 2 ^ file.hqpsBlockSizeLog := Nat.two_pow_pos _
  obtain ⟨hlba, hn⟩ := nvmeXfer_fields hcmd
  obtain ⟨blocks, rfl⟩ := hblocks
  obtain ⟨lba, hofst⟩ := hofst
  rw [Nat.shiftRight_eq_div_pow, Nat.mul_div_cancel_left _ hpow] at hn
  rw [Nat.shiftRight_eq_div_pow, hofst, Nat.mul_div_cancel_left _ hpow] at hlba
  have hblocksPos : 0 < blocks := Nat.pos_of_mul_pos_left hpos
  have hblocksLe : blocks ≤ 2 ^ 16 := by
    rw [Nat.mul_comm] at hle
    exact Nat.le_of_mul_le_mul_right hle hpow
  have hlbaLt : lba < 2 ^ 64 := (Nat.le_mul_of_pos_left lba hpow).trans_lt (hofst ▸ hlt)
  rw [hdecode, hn, hlba, issuedBlocks_of_le hblocksPos hblocksLe, Nat.mod_eq_of_lt hprp1,
    Nat.mod_eq_of_lt hprp2, Nat.mod_eq_of_lt hlbaLt, byteMoves_io rfl]
  dsimp only [DeviceCommand.byteAddress]
  rw [Nat.shiftLeft_eq, Nat.shiftLeft_eq, Nat.mul_comm blocks, Nat.mul_comm lba, ← hofst]

/-! ### Accesses that are covered -/

/-- The command of a transfer covers the access: the assertions hold, and byte by byte the device moves, in the
direction of the transfer, what lies on the disk under the bytes of the access, and no more. -/
def Covers (file : NVMeFile) (fileOffset nbytes : ℕ) : Prop :=
  ∀ (stack : NvmCmd) (nvmNamespace : UInt32) (cid : UInt16) (prp1 prp2 : ℕ) (isRead : Bool)
    (memory : ℕ → List ℕ) (controller : ℕ),
    ∃ words, file.nvmeXferCmd stack nvmNamespace cid fileOffset nbytes prp1 prp2 isRead = some words ∧
      (words.decode.byteMoves memory controller file.hqpsBlockSizeLog).map
          (fun move => (move.isRead, some move.disk)) =
        (List.range nbytes).map fun k =>
          (isRead, (Extents.image file.hdr.onDisk (fileOffset + k)).map fun y => (controller, y))

/-- The bytes of the disk that are moved for a transfer. -/
theorem disks_nvmeXferCmd {file : NVMeFile} {fileOffset nbytes : ℕ} {cmd : NvmeCmd}
    (hcmd : nvmeXfer file fileOffset nbytes = some cmd) (stack : NvmCmd) (nvmNamespace : UInt32) (cid : UInt16)
    (prp1 prp2 : ℕ) (isRead : Bool) :
    ∃ words, file.nvmeXferCmd stack nvmNamespace cid fileOffset nbytes prp1 prp2 isRead = some words ∧
      ∀ (memory : ℕ → List ℕ) (controller : ℕ),
        (words.decode.byteMoves memory controller file.hqpsBlockSizeLog).map
            (fun move => (move.isRead, some move.disk)) =
          (List.range (issuedBlocks cmd.nBlocks * 2 ^ file.hqpsBlockSizeLog)).map fun k =>
            (isRead, some (controller, cmd.startingLba % 2 ^ 64 * 2 ^ file.hqpsBlockSizeLog + k)) := by
  obtain ⟨words, hwords, hdecode⟩ := decode_nvmeXferCmd hcmd stack nvmNamespace cid prp1 prp2 isRead
  refine ⟨words, hwords, fun memory controller => ?_⟩
  rw [hdecode, byteMoves_io rfl, List.map_map]
  dsimp only
  rw [Nat.shiftLeft_eq, Nat.shiftLeft_eq]
  rfl

/-- **What a command covers** is told by the first block and the number of blocks that the device reads in it. -/
theorem covers_iff (file : NVMeFile) (fileOffset nbytes : ℕ) :
    Covers file fileOffset nbytes ↔
      ∃ cmd, nvmeXfer file fileOffset nbytes = some cmd ∧
        issuedBlocks cmd.nBlocks * 2 ^ file.hqpsBlockSizeLog = nbytes ∧
        ∀ k < nbytes, Extents.image file.hdr.onDisk (fileOffset + k) =
          some (cmd.startingLba % 2 ^ 64 * 2 ^ file.hqpsBlockSizeLog + k) := by
  constructor
  · intro hcovers
    obtain ⟨words, hwords, hcovered⟩ := hcovers 0 0 0 0 0 true (fun _ => []) 0
    obtain ⟨cmd, hcmd, -⟩ := Option.map_eq_some_iff.1 hwords
    obtain ⟨words', hwords', hmoves⟩ := disks_nvmeXferCmd hcmd 0 0 0 0 0 true
    obtain rfl : words = words' := Option.some.inj (hwords.symm.trans hwords')
    rw [hmoves] at hcovered
    have hlength : issuedBlocks cmd.nBlocks * 2 ^ file.hqpsBlockSizeLog = nbytes := by
      simpa using congrArg List.length hcovered
    rw [hlength, List.map_inj_left] at hcovered
    refine ⟨cmd, hcmd, hlength, fun k hk => ?_⟩
    have hbyte := (Prod.mk.inj (hcovered k (List.mem_range.2 hk))).2
    obtain ⟨y, hy, heq⟩ := Option.map_eq_some_iff.1 hbyte.symm
    rw [hy, (Prod.mk.inj heq).2]
  · rintro ⟨cmd, hcmd, hn, hall⟩ stack nvmNamespace cid prp1 prp2 isRead memory controller
    obtain ⟨words, hwords, hmoves⟩ := disks_nvmeXferCmd hcmd stack nvmNamespace cid prp1 prp2 isRead
    refine ⟨words, hwords, ?_⟩
    rw [hmoves, hn]
    refine List.map_congr_left fun k hk => ?_
    rw [hall k (List.mem_range.1 hk), Option.map_some]

/-- **An access is covered** whose blocks can be named and counted, which begins with a block of the file, and
whose extents follow each other. -/
theorem covers_of_joined {file : NVMeFile} (hmap : file.hdr.Mapped) {fileOffset nbytes lba : ℕ}
    (hoffset : file.nvmePageSize ∣ fileOffset) (hbytes : file.nvmePageSize ∣ nbytes)
    (hin : fileOffset + nbytes ≤ file.hdr.virtualSpaceSize) (hpos : 0 < nbytes)
    (hblocks : 2 ^ file.hqpsBlockSizeLog ∣ nbytes) (hle : nbytes ≤ 2 ^ 16 * 2 ^ file.hqpsBlockSizeLog)
    (hblock : 2 ^ file.hdr.blockBit ∣ fileOffset) (hlba : lba < 2 ^ 64)
    (himage : Extents.image file.hdr.onDisk fileOffset = some (lba * 2 ^ file.hqpsBlockSizeLog))
    (hjoined : Extents.Joined file.hdr.onDisk fileOffset nbytes) : Covers file fileOffset nbytes := by
  have hpow : 0 < 2 ^ file.hqpsBlockSizeLog := Nat.two_pow_pos _
  obtain ⟨blocks, rfl⟩ := hblocks
  have hblocksPos : 0 < blocks := Nat.pos_of_mul_pos_left hpos
  have hblocksLe : blocks ≤ 2 ^ 16 := by
    rw [Nat.mul_comm] at hle
    exact Nat.le_of_mul_le_mul_right hle hpow
  rw [covers_iff]
  refine ⟨_, by rw [nvmeXfer_of_dvd hmap hoffset hbytes, Nat.div_mul_cancel hblock, himage]; rfl, ?_, ?_⟩
  · dsimp only
    rw [Nat.shiftRight_eq_div_pow, Nat.mul_div_cancel_left _ hpow, issuedBlocks_of_le hblocksPos hblocksLe,
      Nat.mul_comm]
  · dsimp only
    rw [Nat.shiftRight_eq_div_pow, Nat.mul_div_cancel _ hpow, Nat.mod_eq_of_lt hlba]
    exact (Extents.image_contiguous_iff hmap.pos himage (hin.trans hmap.covers)).mpr hjoined

/-- **When a command covers its access**: exactly if there are between one and 65536 blocks to move, the access
begins with a block of the file, which lies at a block of the disk, and the extents that it spans follow each other
on the disk. -/
theorem nvmeXfer_covers_iff {file : NVMeFile} (hmap : file.hdr.Mapped) {fileOffset nbytes : ℕ}
    (hoffset : file.nvmePageSize ∣ fileOffset) (hbytes : file.nvmePageSize ∣ nbytes)
    (hin : fileOffset + nbytes ≤ file.hdr.virtualSpaceSize) :
    Covers file fileOffset nbytes ↔
      0 < nbytes ∧ 2 ^ file.hqpsBlockSizeLog ∣ nbytes ∧ nbytes ≤ 2 ^ 16 * 2 ^ file.hqpsBlockSizeLog ∧
        2 ^ file.hdr.blockBit ∣ fileOffset ∧
        (∃ lba < 2 ^ 64, Extents.image file.hdr.onDisk fileOffset = some (lba * 2 ^ file.hqpsBlockSizeLog)) ∧
        Extents.Joined file.hdr.onDisk fileOffset nbytes := by
  have htotal : fileOffset + nbytes ≤ Extents.total file.hdr.onDisk := hin.trans hmap.covers
  have hpow : 0 < 2 ^ file.hqpsBlockSizeLog := Nat.two_pow_pos _
  constructor
  · intro hcovers
    obtain ⟨cmd, hcmd, rfl, hall⟩ := (covers_iff file fileOffset nbytes).1 hcovers
    have hpos := Nat.mul_pos (issuedBlocks_pos cmd.nBlocks) hpow
    have hfirst := hall 0 hpos
    rw [Nat.add_zero, Nat.add_zero] at hfirst
    refine ⟨hpos, Nat.dvd_mul_left _ _, Nat.mul_le_mul_right _ (issuedBlocks_le _), ?_,
      ⟨_, Nat.mod_lt _ (by decide), hfirst⟩, (Extents.image_contiguous_iff hmap.pos hfirst htotal).mp hall⟩
    -- the command does not begin behind the block of the access, so the access does not begin within it
    rw [nvmeXfer_of_dvd hmap hoffset hbytes] at hcmd
    obtain ⟨nvmeOfst, himage, hfields⟩ := Option.map_eq_some_iff.mp hcmd
    have hsplit := Nat.div_add_mod' fileOffset (2 ^ file.hdr.blockBit)
    have hblock := Extents.image_block hmap.pos hmap.whole (Nat.dvd_mul_left _ _) himage
      (Nat.mod_lt fileOffset (Nat.two_pow_pos _)) (by rw [hsplit]; omega)
    rw [hsplit, hfirst, Option.some.injEq, ← hfields] at hblock
    dsimp only at hblock
    have hle : nvmeOfst >>> file.hqpsBlockSizeLog % 2 ^ 64 * 2 ^ file.hqpsBlockSizeLog ≤ nvmeOfst := by
      rw [Nat.shiftRight_eq_div_pow]
      exact (Nat.mul_le_mul_right _ (Nat.mod_le _ _)).trans (Nat.div_mul_le_self _ _)
    exact Nat.dvd_of_mod_eq_zero (by omega)
  · rintro ⟨hpos, hblocks, hle, hblock, ⟨lba, hlba, himage⟩, hjoined⟩
    exact covers_of_joined hmap hoffset hbytes hin hpos hblocks hle hblock hlba himage hjoined

/-- A file of two blocks that lie apart on the disk. -/
def splitFile : NVMeFile where
  hdr := ⟨0, 512, 8192, 12, [⟨0, 0, 4096, 0⟩, ⟨4096, 8192, 4096, 0⟩]⟩
  nvmePageSize := 4096
  hqpsBlockSizeLog := 9

theorem splitFile_mapped : splitFile.hdr.Mapped where
  pos := by decide
  whole := by decide
  disjoint := by
    simp [splitFile, GeminiHdr.onDisk, FiemapExtent.onDisk, Extents.Disjoint]
  covers := by decide

/-- Within its first block no extent ends. -/
theorem splitFile_joined : Extents.Joined splitFile.hdr.onDisk 0 4096 :=
  @Extents.joined_block 4096 splitFile.hdr.onDisk (by decide) 0 4095 (by decide) (by decide)

/-- Its blocks can be accessed one by one. -/
theorem splitFile_covers_first : splitFile.hdr.Mapped ∧ Covers splitFile 0 4096 :=
  ⟨splitFile_mapped, (nvmeXfer_covers_iff splitFile_mapped (Nat.dvd_zero _) (by decide) (by decide)).mpr
    ⟨by decide, by decide, by decide, by decide, ⟨0, by decide, by decide⟩, splitFile_joined⟩⟩

/-- An access to both of its blocks at once goes to a foreign block of the disk. -/
theorem splitFile_not_covers :
    splitFile.hdr.Mapped ∧ splitFile.nvmePageSize ∣ 0 ∧ splitFile.nvmePageSize ∣ 8192 ∧
      0 + 8192 ≤ splitFile.hdr.virtualSpaceSize ∧ ¬Covers splitFile 0 8192 := by
  refine ⟨splitFile_mapped, Nat.dvd_zero _, by decide, by decide, ?_⟩
  rw [covers_iff]
  rintro ⟨cmd, hcmd, -, hall⟩
  have hcmd' : nvmeXfer splitFile 0 8192 = some ⟨0, 0, 16⟩ := by decide
  rw [hcmd'] at hcmd
  cases hcmd
  have hbyte := hall 4096 (by decide)
  revert hbyte
  decide

end GeminiFS
end InfiniKV
