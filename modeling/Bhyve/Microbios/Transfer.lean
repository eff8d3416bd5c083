import Bhyve.Microbios.Geometry

namespace Microbios
open ByteMemory BlockIf

def ioPacket (regs : InthRegs) : Nat := segOffset regs.ds regs.esi

variable (m : Machine)

def ioSectors (regs : InthRegs) : Nat :=
  if isChsIo regs then chsRequestSectors regs else packetBlocks m.mem (ioPacket regs)

def ioBuffer (regs : InthRegs) : Nat :=
  if isChsIo regs then segOffset regs.es regs.ebx else packetBuffer m.mem (ioPacket regs)

variable (regs : InthRegs)

def ioLba (bc : BlockCtxt) : Nat :=
  if isChsIo regs then chsRequestLba bc regs else packetLba m.mem (ioPacket regs)

def requestedLba (bc : BlockCtxt) : Nat :=
  if isChsIo regs then
    ((chsCylinder regs.ecx).toNat * (blockifChs bc).h.toNat + (chsHead regs.edx).toNat) *
      (blockifChs bc).s.toNat + (chsSector regs.ecx).toNat - 1
  else packetLba m.mem (ioPacket regs)

def SectorInTrack (bc : BlockCtxt) : Prop :=
  isChsIo regs → 1 ≤ (chsSector regs.ecx).toNat ∧
    (chsSector regs.ecx).toNat ≤ (blockifChs bc).s.toNat

def NamesDisk (bc : BlockCtxt) : Prop :=
  0x80 ≤ diskByte regs ∧ m.disks.disks[diskIndex regs]? = some bc

def WholeRequest (bc : BlockCtxt) : Prop :=
  SectorInTrack regs bc ∧ InsideDisk bc (requestedLba m regs bc) (ioSectors m regs)

/-- All requested bytes went between the buffer and the disk, and nothing else changed
    but the flags word in BIOS_VARS. -/
def Transferred (bc : BlockCtxt) (r : Returned) : Prop :=
  let bytes := ioSectors m regs * bc.sectsz
  let offset := requestedLba m regs bc * bc.sectsz
  let buffer := ioBuffer m regs
  if ioIsRead regs then
    r.machine.disks = m.disks ∧
      r.machine.mem =
        write16 (copyInto m.mem buffer bytes fun i => bc.data (offset + i)) varsFlags r.regs.eflags
  else
    r.machine.mem = write16 m.mem varsFlags r.regs.eflags ∧
      r.machine.disks = m.disks.set (diskIndex regs)
        { bc with data := copyInto bc.data offset bytes fun i => m.mem (buffer + i) }

/-- A clear carry means the whole request was inside the disk and was moved, and a
    request on a registered disk that is not inside it comes back with the carry set. -/
structure CompletionTruthful (host : Host) (m : Machine) (regs : InthRegs) : Prop where
  done : ∀ r, handleInt13 host m regs = .ok r → r.regs.cf = false →
    ∃ bc, NamesDisk m regs bc ∧ WholeRequest m regs bc ∧ Transferred m regs bc r
  rejected : ∀ bc, NamesDisk m regs bc → ¬ WholeRequest m regs bc →
    ∃ r, handleInt13 host m regs = .ok r ∧ r.regs.cf = true

def RequestRefused (host : Host) (m : Machine) (regs : InthRegs) (bc : BlockCtxt) : Prop :=
  (isEddIo regs ∧ host.mapped (ioPacket regs) eddDrivePacketSize = false) ∨
    TransferFails bc (ioIsRead regs) (host.mapped (ioBuffer m regs) (ioBytes bc (ioSectors m regs)))
      (ioSectors m regs) (ioLba m regs bc)

theorem transfer_fails {host : Host} {m : Machine} {regs : InthRegs} {isRead : Bool} {i : Nat}
    {bc : BlockCtxt} {lba sectors addr : Nat}
    (fails : TransferFails bc isRead (host.mapped addr (ioBytes bc sectors)) sectors lba) :
    ∃ m', int13Transfer host m regs isRead i bc lba sectors addr = failExit m' regs ∧
      m'.vcpu = m.vcpu := by
  unfold int13Transfer
  cases isRead with
  | true =>
    have negative := (read_neg_iff bc m.mem addr _ sectors lba).mpr fails
    simp only [↓reduceIte, negative]
    exact ⟨_, rfl, rfl⟩
  | false =>
    have negative := (write_neg_iff bc m.mem addr _ sectors lba).mpr fails
    simp only [Bool.false_eq_true, ↓reduceIte, negative]
    exact ⟨_, rfl, rfl⟩

def movedMachine (isRead : Bool) (i : Nat) (bc : BlockCtxt) (lba sectors addr : Nat) : Machine :=
  if isRead then
    { m with mem := copyInto m.mem addr (availableBytes bc sectors lba)
                      fun k => bc.data (ioOffset bc lba + k) }
  else
    let written := copyInto bc.data (ioOffset bc lba) (availableBytes bc sectors lba)
      fun k => m.mem (addr + k)
    { m with disks := m.disks.set i { bc with data := written } }

variable {host : Host} {m : Machine} {regs : InthRegs} {bc : BlockCtxt}

theorem transfer_works {isRead : Bool} {i : Nat} {lba sectors addr : Nat}
    (works : ¬ TransferFails bc isRead (host.mapped addr (ioBytes bc sectors)) sectors lba) :
    int13Transfer host m regs isRead i bc lba sectors addr =
      doneExit (movedMachine m isRead i bc lba sectors addr)
        { regs with eax := regs.eax &&& 0xffff00ff } := by
  unfold int13Transfer movedMachine
  cases isRead with
  | true =>
    have positive := mt (read_neg_iff bc m.mem addr _ sectors lba).mp works
    rw [read_sync_works works] at positive
    simp only [↓reduceIte, read_sync_works works, positive, Option.getD_none]
  | false =>
    have positive := mt (write_neg_iff bc m.mem addr _ sectors lba).mp works
    rw [write_sync_works works] at positive
    simp only [Bool.false_eq_true, ↓reduceIte, write_sync_works works, positive, Option.getD_none]

theorem edd_not_chs (edd : isEddIo regs) : ¬ isChsIo regs := by
  unfold isChsIo
  rcases edd with read | write
  · rw [read]; decide
  · rw [write]; decide

theorem io_reaches_host (io : isChsIo regs ∨ isEddIo regs) (names : NamesDisk m regs bc)
    (packet : ¬ (isEddIo regs ∧ host.mapped (ioPacket regs) eddDrivePacketSize = false)) :
    int13Switch host m regs = .ok (int13Transfer host m regs (ioIsRead regs) (diskIndex regs) bc
      (ioLba m regs bc) (ioSectors m regs) (ioBuffer m regs)) := by
  obtain ⟨hard, registered⟩ := names
  have found := (mddisk_ok_iff m (diskIndex regs) bc).mpr registered
  have notFloppy : ¬ diskByte regs < 0x80 := BitVec.not_lt.mpr hard
  rcases io with chs | edd
  · simp only [switch_chs chs, int13Chs, notFloppy, found, ↓reduceIte, ioLba, ioSectors, ioBuffer,
      chs]
  · have there : host.mapped (segOffset regs.ds regs.esi) eddDrivePacketSize = true := by
      rw [← Bool.not_eq_false]
      exact fun missing => packet ⟨edd, missing⟩
    have known : ¬ m.disks.num ≤ diskIndex regs := by
      intro past
      rw [List.getElem?_eq_none past] at registered
      cases registered
    simp only [switch_edd edd, int13Edd, there, Bool.true_eq_false, notFloppy, known, or_self, found,
      ↓reduceIte, ioLba, ioSectors, ioBuffer, ioPacket, edd_not_chs edd]

theorem io_carry_set {e : Exit} (io : isChsIo regs ∨ isEddIo regs)
    (switched : int13Switch host m regs = .ok e)
    (stopped : (∀ bc, ¬ NamesDisk m regs bc) ∨ (isEddIo regs ∧ host.mapped (ioPacket regs) eddDrivePacketSize = false)) :
    e.regs.cf = true := by
  have named {bc : BlockCtxt} (notFloppy : ¬ diskByte regs < 0x80)
      (found : m.mddisk (diskIndex regs) = .ok bc) : NamesDisk m regs bc :=
    ⟨BitVec.not_lt.mp notFloppy, (mddisk_ok_iff _ _ _).mp found⟩
  rcases io with chs | edd
  · rw [switch_chs chs, int13Chs] at switched
    rcases stopped with unnamed | ⟨edd, -⟩
    · split at switched
      · cases switched
        exact set_cf_cf regs
      · rename_i notFloppy
        split at switched
        · cases switched
        · rename_i bc found
          exact absurd (named notFloppy found) (unnamed bc)
    · exact absurd chs (edd_not_chs edd)
  · rw [switch_edd edd, int13Edd] at switched
    split at switched
    · cases switched
      exact set_cf_cf _
    · rename_i there
      rcases stopped with unnamed | ⟨-, missing⟩
      · split at switched
        · cases switched
          exact set_cf_cf regs
        · rename_i valid
          split at switched
          · cases switched
          · rename_i bc found
            exact absurd (named (fun floppy => valid (Or.inl floppy)) found) (unnamed bc)
      · exact absurd missing there

theorem and_mask_lt (x : BitVec 32) {mask : BitVec 32} {n : Nat} (narrow : mask.toNat < 2 ^ n) :
    (x &&& mask).toNat < 2 ^ n := by
  exact Nat.and_lt_two_pow _ narrow

theorem chs_fields_lt (ecx edx : BitVec 32) :
    (chsCylinder ecx).toNat < 2 ^ 10 ∧ (chsHead edx).toNat < 2 ^ 6 ∧
      (chsSector ecx).toNat < 2 ^ 6 := by
  have high : (regHibyte ecx).toNat < 2 ^ 8 := and_mask_lt _ (by decide)
  have masked : (regLobyte ecx &&& 0xc0).toNat < 2 ^ 8 := and_mask_lt _ (by decide)
  have shifted : ((regLobyte ecx &&& 0xc0) <<< 2).toNat < 2 ^ 10 := by
    rw [BitVec.toNat_shiftLeft, Nat.shiftLeft_eq]
    omega
  refine ⟨?_, and_mask_lt _ (by decide), and_mask_lt _ (by decide)⟩
  exact Nat.or_lt_two_pow (by omega) shifted

theorem io_lba_requested (track : SectorInTrack regs bc) :
    ioLba m regs bc = requestedLba m regs bc := by
  unfold ioLba requestedLba
  split
  · rename_i chs
    obtain ⟨cylinder_lt, head_lt, sector_lt⟩ := chs_fields_lt regs.ecx regs.edx
    have exact_lba := chs_lba_to_nat (chs_bounds bc) cylinder_lt head_lt (track chs).1 sector_lt
    unfold chsRequestLba
    omega
  · rfl

theorem refused_carry (io : isChsIo regs ∨ isEddIo regs) (names : NamesDisk m regs bc)
    (refused : RequestRefused host m regs bc) :
    ∃ r, handleInt13 host m regs = .ok r ∧ r.regs.cf = true := by
  by_cases missing : isEddIo regs ∧ host.mapped (ioPacket regs) eddDrivePacketSize = false
  · have absent : host.mapped (segOffset regs.ds regs.esi) eddDrivePacketSize = false := missing.2
    have switched : ∃ e, int13Switch host m regs = .ok e := by
      rw [switch_edd missing.1, int13Edd, if_pos absent]
      exact ⟨_, rfl⟩
    obtain ⟨e, switched⟩ := switched
    exact ⟨_, handle_int13_of_switch switched, io_carry_set io switched (Or.inr missing)⟩
  · have fails := refused.resolve_left missing
    obtain ⟨m', failed, -⟩ := @transfer_fails host m regs _ (diskIndex regs) _ _ _ _ fails
    have switched := io_reaches_host io names missing
    rw [failed] at switched
    exact ⟨_, handle_int13_of_switch switched, set_cf_cf regs⟩

theorem accepted_clear (io : isChsIo regs ∨ isEddIo regs) (names : NamesDisk m regs bc)
    (accepted : ¬ RequestRefused host m regs bc) :
    ∃ r, handleInt13 host m regs = .ok r ∧ r.regs.cf = false ∧
      (WholeRequest m regs bc → Transferred m regs bc r) := by
  obtain ⟨packet, works⟩ := not_or.mp accepted
  have switched := io_reaches_host io names packet
  rw [transfer_works works] at switched
  refine ⟨_, handle_int13_of_switch switched, clear_cf_cf _, ?_⟩
  intro whole
  have inside := whole.2
  rw [← io_lba_requested whole.1] at inside
  unfold Transferred
  rw [← io_lba_requested whole.1]
  dsimp only [Exit.leave, doneExit, movedMachine]
  split
  · refine ⟨rfl, ?_⟩
    rw [copy_inside inside m.mem (fun _ => ioBuffer m regs) fun offset i => bc.data (offset + i)]
  · refine ⟨rfl, ?_⟩
    rw [copy_inside inside bc.data (fun offset => offset) fun _ i => m.mem (ioBuffer m regs + i)]

/-- A read or write reports its outcome truthfully if and only if the request is refused,
    or lies inside the disk with its sector number inside the track. -/
theorem completion_truthful_iff (host : Host) (m : Machine) (regs : InthRegs)
    (io : isChsIo regs ∨ isEddIo regs) : CompletionTruthful host m regs ↔
      ∀ bc, NamesDisk m regs bc → RequestRefused host m regs bc ∨ WholeRequest m regs bc := by
  constructor
  · intro truthful bc names
    by_contra neither
    obtain ⟨accepted, broken⟩ := not_or.mp neither
    obtain ⟨r, returned, carry⟩ := truthful.rejected bc names broken
    obtain ⟨r', returned', clear, -⟩ := accepted_clear io names accepted
    rw [returned] at returned'
    cases returned'
    rw [carry] at clear
    cases clear
  · intro met
    constructor
    · intro r returned clear
      by_cases named : ∃ bc, NamesDisk m regs bc
      · obtain ⟨bc, names⟩ := named
        have accepted : ¬ RequestRefused host m regs bc := by
          intro refused
          obtain ⟨r', returned', carry⟩ := refused_carry io names refused
          rw [returned] at returned'
          cases returned'
          rw [carry] at clear
          cases clear
        have whole := (met bc names).resolve_left accepted
        obtain ⟨r', returned', -, moved⟩ := accepted_clear io names accepted
        rw [returned] at returned'
        cases returned'
        exact ⟨bc, names, whole, moved whole⟩
      · obtain ⟨e, switched, rfl⟩ := handle_int13_ok returned
        have carry := io_carry_set io switched (Or.inl (not_exists.mp named))
        rw [leave_regs, carry] at clear
        cases clear
    · intro bc names broken
      exact refused_carry io names ((met bc names).resolve_right broken)

theorem completion_truthful_iff_first_sector :
    CompletionTruthful allMapped floppyMachine (blankRegs 0x0201 0x0001 0x80) ↔
      ∀ bc, NamesDisk floppyMachine (blankRegs 0x0201 0x0001 0x80) bc →
        RequestRefused allMapped floppyMachine (blankRegs 0x0201 0x0001 0x80) bc ∨
          WholeRequest floppyMachine (blankRegs 0x0201 0x0001 0x80) bc :=
  completion_truthful_iff allMapped floppyMachine (blankRegs 0x0201 0x0001 0x80) (by decide)

theorem read_past_end_reported_done :
    ¬ CompletionTruthful allMapped floppyMachine (blankRegs 0x0208 0x5001 0x80) := by
  intro truthful
  have names : NamesDisk floppyMachine (blankRegs 0x0208 0x5001 0x80) floppyImage :=
    ⟨by decide, rfl⟩
  have outside : ¬ WholeRequest floppyMachine (blankRegs 0x0208 0x5001 0x80) floppyImage := by
    intro whole
    have first := whole.2 0 (by decide)
    revert first
    decide
  have accepted : ¬ RequestRefused allMapped floppyMachine (blankRegs 0x0208 0x5001 0x80)
      floppyImage := by
    unfold RequestRefused TransferFails
    decide
  obtain ⟨r, returned, carry⟩ := truthful.rejected floppyImage names outside
  obtain ⟨r', returned', clear, -⟩ := accepted_clear (by decide) names accepted
  rw [returned] at returned'
  cases returned'
  rw [carry] at clear
  cases clear

end Microbios
