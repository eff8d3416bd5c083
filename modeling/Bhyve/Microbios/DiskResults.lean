import Bhyve.Microbios.DiskNumbers

namespace Microbios
open ByteMemory BlockIf

def cmdSeq : Nat := biosCmdsAddr
def cmdCommand : Nat := biosCmdsAddr + 2
def bcmdDiskIo : BitVec 16 := 3
def cmdMagic : BitVec 32 := 0x01BADC0D

inductive CmdFault where
  | assertion
  | disk (fault : Fault)
  deriving DecidableEq

variable (host : Host)

def handleDiskIo (m : Machine) : Except CmdFault Machine :=
  if m.disks.num = 0 then .error .assertion
  else
    match microbiosDiskIoCmd host m with
    | .error fault => .error (.disk fault)
    | .ok m => .ok (m.setResults 0)

def issueDiskIo (m : Machine) : Machine :=
  let mem := write16 m.mem cmdSeq (read16 m.mem cmdSeq + 1)
  let mem := write16 mem cmdCommand bcmdDiskIo
  { m with mem := write32 mem cmdResults cmdMagic }

/-- bhyve_cmd_set(BCMD_DISK_IO, 0, 0), with the value that it returns. -/
def bhyveCmdSet (m : Machine) : Except CmdFault (Machine × BitVec 32) :=
  match handleDiskIo host (issueDiskIo m) with
  | .error fault => .error fault
  | .ok m => .ok (m, read32 m.mem cmdResults)

def NamesIoDisk (m : Machine) (bc : BlockCtxt) : Prop :=
  0x80 ≤ (diskIoCmd m).disk ∧ m.disks.disks[(diskIoCmd m).index]? = some bc

def ioCmdSectors (m : Machine) : Nat := (diskIoCmd m).sectors.toNat

def ioCmdLba (m : Machine) (bc : BlockCtxt) : Nat := (resolveLba m bc).2.toNat

def ioCmdMapped (m : Machine) (bc : BlockCtxt) : Bool :=
  host.mapped (diskIoCmd m).addr.toNat (ioBytes bc (ioCmdSectors m))

def ioCmdCount (m : Machine) (bc : BlockCtxt) : Except (BitVec 32) Nat :=
  let bytes := ioBytes bc (ioCmdSectors m)
  let offset := ioOffset bc (ioCmdLba m bc)
  if (diskIoCmd m).direction ≠ 0 then pwriteCount bc (ioCmdMapped host m bc) bytes offset
  else preadCount bc (ioCmdMapped host m bc) bytes offset

/-- The command moved every byte of the requested sectors, and moved it at their place. -/
def TransfersAll (m : Machine) : Prop :=
  ∃ bc, NamesIoDisk m bc ∧ ioCmdCount host m bc = .ok (ioCmdSectors m * bc.sectsz) ∧
    (0 < ioCmdSectors m → ioOffset bc (ioCmdLba m bc) = ioCmdLba m bc * bc.sectsz)

/-- What the ROM reads is zero for a complete transfer, and else the error of the command. -/
def DiskIoReported (m : Machine) : Prop :=
  ∀ m' results, bhyveCmdSet host m = .ok (m', results) →
    (results = 0 ↔ TransfersAll host (issueDiskIo m)) ∧
      (¬ TransfersAll host (issueDiskIo m) →
        ∀ stored, microbiosDiskIoCmd host (issueDiskIo m) = .ok stored →
          results = read32 stored.mem cmdResults)

/-- The request names a registered disk, lies inside it with an offset that is not negative, has
    its buffer mapped if there is a sector, and writes only to a disk that can be written. -/
def DiskIoWhole (m : Machine) : Prop :=
  ∃ bc, NamesIoDisk m bc ∧ InsideDisk bc (ioCmdLba m bc) (ioCmdSectors m) ∧
    ioOffset bc (ioCmdLba m bc) < 2 ^ 63 ∧
    (0 < ioCmdSectors m → ioCmdMapped host m bc = true) ∧
    ((diskIoCmd m).direction ≠ 0 → bc.rdonly = false)

section
variable {host : Host} {m : Machine} {bc : BlockCtxt}

theorem io_bytes_eq (m : Machine) (bc : BlockCtxt) :
    ioBytes bc (ioCmdSectors m) = ioCmdSectors m * bc.sectsz := by
  have sectors := (diskIoCmd m).sectors.isLt
  have small : ioCmdSectors m * bc.sectsz ≤ 2 ^ 32 * 2 ^ 31 :=
    Nat.mul_le_mul (Nat.le_of_lt sectors) (Nat.le_of_lt bc.sectsz_lt)
  exact Nat.mod_eq_of_lt (by omega)

theorem pread_all_iff {bufMapped : Bool} {nbytes offset : Nat} :
    preadCount bc bufMapped nbytes offset = .ok nbytes ↔
      offset < 2 ^ 63 ∧ nbytes ≤ bc.size - offset ∧ (0 < nbytes → bufMapped = true) := by
  unfold preadCount
  by_cases negative : 2 ^ 63 ≤ offset
  · rw [if_pos negative]
    simp only [reduceCtorEq, false_iff]
    intro whole
    omega
  · rw [if_neg negative]
    by_cases faults : 0 < min nbytes (bc.size - offset) ∧ bufMapped = false
    · rw [if_pos faults]
      simp only [reduceCtorEq, false_iff]
      rintro ⟨-, -, mapped⟩
      have mapped := mapped (by omega)
      rw [faults.2] at mapped
      cases mapped
    · rw [if_neg faults, Except.ok.injEq]
      rw [not_and, Bool.not_eq_false] at faults
      constructor
      · intro all
        exact ⟨by omega, by omega, fun positive => faults (by omega)⟩
      · intro whole
        omega

theorem io_count_all_iff : ioCmdCount host m bc = .ok (ioCmdSectors m * bc.sectsz) ↔
      ioOffset bc (ioCmdLba m bc) < 2 ^ 63 ∧
        ioCmdSectors m * bc.sectsz ≤ bc.size - ioOffset bc (ioCmdLba m bc) ∧
        (0 < ioCmdSectors m → ioCmdMapped host m bc = true) ∧
        ((diskIoCmd m).direction ≠ 0 → bc.rdonly = false) := by
  have positive : 0 < ioCmdSectors m * bc.sectsz ↔ 0 < ioCmdSectors m := by
    have := bc.sectsz_pos
    rw [Nat.mul_pos_iff_of_pos_right this]
  unfold ioCmdCount
  rw [io_bytes_eq]
  by_cases writes : (diskIoCmd m).direction ≠ 0
  · rw [if_pos writes, pwriteCount]
    cases readonly : bc.rdonly with
    | true =>
      rw [if_pos rfl]
      simp only [reduceCtorEq, false_iff]
      intro whole
      cases whole.2.2.2 writes
    | false =>
      rw [if_neg Bool.false_ne_true, pread_all_iff, positive]
      simp
  · rw [if_neg writes, pread_all_iff, positive]
    simp only [writes, false_implies, and_true]

theorem transfers_all_iff (host : Host) (m : Machine) : TransfersAll host m ↔ DiskIoWhole host m := by
  constructor
  · rintro ⟨bc, names, all, offset⟩
    obtain ⟨low, room, mapped, writable⟩ := io_count_all_iff.mp all
    refine ⟨bc, names, ?_, low, mapped, writable⟩
    intro k inside
    have here := offset (by omega)
    have upto : (ioCmdLba m bc + k + 1) * bc.sectsz ≤ (ioCmdLba m bc + ioCmdSectors m) * bc.sectsz :=
      Nat.mul_le_mul_right _ (by omega)
    have some_byte : 0 < ioCmdSectors m * bc.sectsz := Nat.mul_pos (by omega) bc.sectsz_pos
    rw [Nat.add_mul _ (ioCmdSectors m)] at upto
    omega
  · rintro ⟨bc, names, inside, low, mapped, writable⟩
    obtain ⟨-, offset⟩ := inside_available inside
    refine ⟨bc, names, io_count_all_iff.mpr ⟨low, ?_, mapped, writable⟩, offset⟩
    by_cases none : ioCmdSectors m = 0
    · simp [none]
    · have fits := inside_end inside (by omega)
      omega

end

section
variable {host : Host} {m : Machine}

theorem handler_results {m' : Machine} (done : handleDiskIo host m = .ok m') :
    read32 m'.mem cmdResults = 0 := by
  unfold handleDiskIo at done
  split at done
  · cases done
  · split at done
    · cases done
    · cases done
      exact read32_write32_same _ _ _

theorem handler_returns_iff : (∃ m', handleDiskIo host m = .ok m') ↔
      m.disks.num ≠ 0 ∧ ¬ NamesUnregistered m .diskIo := by
  rw [← disk_io_leaves_iff host m]
  unfold handleDiskIo LeavesTable
  by_cases empty : m.disks.num = 0
  · simp [empty]
  · rw [if_neg empty]
    cases done : microbiosDiskIoCmd host m with
    | ok m' => simp [empty]
    | error fault =>
      have outside : ∃ i, fault = .diskTable i := by
        simp only [microbiosDiskIoCmd] at done
        split at done
        · cases done
        · split at done
          · rename_i missing
            cases done
            unfold Machine.mddisk at missing
            split at missing
            · cases missing
            · cases missing
              exact ⟨_, rfl⟩
          · split at done <;> cases done
      obtain ⟨i, rfl⟩ := outside
      simp

theorem short_reads_zero (some_disk : m.disks.num ≠ 0)
    (registered : ¬ NamesUnregistered (issueDiskIo m) .diskIo)
    (short : ¬ TransfersAll host (issueDiskIo m)) : ¬ DiskIoReported host m := by
  intro reported
  obtain ⟨m', done⟩ := (@handler_returns_iff host (issueDiskIo m)).mpr ⟨some_disk, registered⟩
  have set : bhyveCmdSet host m = .ok (m', read32 m'.mem cmdResults) := by
    unfold bhyveCmdSet
    rw [done]
  exact short ((reported m' _ set).1.mp (handler_results done))

end
end Microbios
