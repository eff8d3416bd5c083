import Bhyve.Microbios.Machine

/-!
handle_int13. AH=02h/03h address sectors by cylinder, head and sector, AH=42h/43h by a
packet in guest memory; both end in the same host call. AH=08h and AH=48h report the
geometry, AH=15h the sector count.
-/
namespace Microbios
open ByteMemory BlockIf

def diskByte (regs : InthRegs) : BitVec 32 := regLobyte regs.edx
def diskIndex (regs : InthRegs) : Nat := (diskByte regs &&& 0x7f).toNat

def chsCylinder (ecx : BitVec 32) : BitVec 32 := regHibyte ecx ||| ((regLobyte ecx &&& 0xc0) <<< 2)
def chsHead (edx : BitVec 32) : BitVec 32 := regHibyte edx &&& 0x3f
def chsSector (ecx : BitVec 32) : BitVec 32 := regLobyte ecx &&& 0x3f

def chsLba (g : Chs) (cylinder head sector : BitVec 32) : BitVec 32 :=
  (cylinder * g.h.setWidth 32 + head) * g.s.setWidth 32 + sector - 1

def segOffset (seg : BitVec 16) (reg : BitVec 32) : Nat := seg.toNat * 16 + (regWord reg).toNat

def int13Transfer (host : Host) (m : Machine) (regs : InthRegs) (isRead : Bool) (i : Nat)
    (bc : BlockCtxt) (lba sectors addr : Nat) : Exit :=
  let bufMapped := host.mapped addr (ioBytes bc sectors)
  let success : InthRegs := { regs with eax := regs.eax &&& 0xffff00ff }
  if isRead then
    let io := blockifReadSync bc m.mem addr bufMapped sectors lba
    let m' := { m with mem := io.dest, errno := io.errno.getD m.errno }
    if io.result < 0 then failExit m' regs else doneExit m' success
  else
    let io := blockifWriteSync bc m.mem addr bufMapped sectors lba
    let m' := { m with disks := m.disks.set i io.dest, errno := io.errno.getD m.errno }
    if io.result < 0 then failExit m' regs else doneExit m' success

def chsRequestLba (bc : BlockCtxt) (regs : InthRegs) : Nat :=
  (chsLba (blockifChs bc) (chsCylinder regs.ecx) (chsHead regs.edx) (chsSector regs.ecx)).toNat

def chsRequestSectors (regs : InthRegs) : Nat := (regLobyte regs.eax).toNat

def int13Chs (host : Host) (m : Machine) (regs : InthRegs) (isRead : Bool) : Except Fault Exit :=
  if diskByte regs < 0x80 then .ok (failExit m regs)
  else
    match m.mddisk (diskIndex regs) with
    | .error fault => .error fault
    | .ok bc =>
        .ok (int13Transfer host m regs isRead (diskIndex regs) bc (chsRequestLba bc regs)
          (chsRequestSectors regs) (segOffset regs.es regs.ebx))

variable (mem : Mem)

def packetSize (dp : Nat) : BitVec 8 := mem dp
def packetBlocks (dp : Nat) : Nat := (read16 mem (dp + 2)).toNat
def packetBufAddr (dp : Nat) : BitVec 32 := read32 mem (dp + 4)
def packetLba (dp : Nat) : Nat := (read64 mem (dp + 8)).toNat
def packetBufLaddr (dp : Nat) : Nat := (read64 mem (dp + 16)).toNat

def packetBuffer (dp : Nat) : Nat :=
  let bufAddr := packetBufAddr mem dp
  if packetSize mem dp = 16 ∨ bufAddr ≠ 0xffffffff then
    (((bufAddr &&& 0xffff0000) >>> 12) + (bufAddr &&& 0xffff)).toNat
  else packetBufLaddr mem dp

def eddDrivePacketSize : Nat := 24
def eddDriveParamsSize : Nat := 30

def int13Edd (host : Host) (m : Machine) (regs : InthRegs) (isRead : Bool) : Except Fault Exit :=
  let dp := segOffset regs.ds regs.esi
  if host.mapped dp eddDrivePacketSize = false then
    .ok (failExit m { regs with eax := (regs.eax &&& 0xffff00ff) ||| 0x0700 })
  else if diskByte regs < 0x80 ∨ m.disks.num ≤ diskIndex regs then .ok (failExit m regs)
  else
    match m.mddisk (diskIndex regs) with
    | .error fault => .error fault
    | .ok bc =>
        .ok (int13Transfer host m regs isRead (diskIndex regs) bc (packetLba m.mem dp)
          (packetBlocks m.mem dp) (packetBuffer m.mem dp))

def encodeCx (g : Chs) : BitVec 32 :=
  (((g.c.setWidth 32 - 1) <<< 6) &&& 0xffc0) ||| (g.s.setWidth 32 &&& 0x3f)

def encodeDx (g : Chs) : BitVec 32 := ((g.h.setWidth 32 - 1) <<< 8) ||| 0x01

def eddGeometryValid : BitVec 16 := 0x02

def writeDriveParams (params : Nat) (bc : BlockCtxt) : Mem :=
  let g := blockifChs bc
  let sectors : BitVec 64 := BitVec.ofNat 64 (bc.size / bc.sectsz)
  let mem := write16 mem params 0x1a
  let mem := write16 mem (params + 2) eddGeometryValid
  let mem := write32 mem (params + 8) (g.h.setWidth 32)
  let mem := write32 mem (params + 4) (g.c.setWidth 32)
  let mem := write32 mem (params + 12) (g.s.setWidth 32)
  let mem := write16 mem (params + 24) (BitVec.ofNat 16 bc.sectsz)
  write64 mem (params + 16) sectors

def int13Params (host : Host) (m : Machine) (regs : InthRegs) : Except Fault Exit :=
  if diskByte regs < 0x80 then .ok (failExit m regs)
  else
    match m.mddisk (diskIndex regs) with
    | .error fault => .error fault
    | .ok bc =>
        if regHibyte regs.eax = 0x08 then
          let g := blockifChs bc
          let regs := { regs with eax := regs.eax &&& 0xffff0000, edx := encodeDx g,
                                  ecx := encodeCx g, ebx := regs.ebx &&& ~~~0xff }
          .ok (doneExit { m with vcpu := { m.vcpu with edx := regs.edx, ecx := regs.ecx,
                                                       ebx := regs.ebx } } regs)
        else
          let params := segOffset regs.ds regs.esi
          let cleared := { regs with eax := regs.eax &&& 0xffff00ff }
          if host.mapped params eddDriveParamsSize = false ∨ (read16 m.mem params).toNat < 26 then
            .ok (failExit m cleared)
          else .ok (doneExit { m with mem := writeDriveParams m.mem params bc } cleared)

/-- AH=15h answers a disk that is not registered with AL=03h. -/
def int13DiskType (m : Machine) (regs : InthRegs) : Except Fault Exit :=
  if 0x80 ≤ diskByte regs ∧ diskIndex regs < m.disks.num then
    match m.mddisk (diskIndex regs) with
    | .error fault => .error fault
    | .ok bc =>
        let sectors : BitVec 64 := BitVec.ofNat 64 (bc.size / bc.sectsz)
        let regs := { regs with ecx := ((sectors >>> 16) &&& 0xffff).setWidth 32,
                                edx := (sectors &&& 0xffff).setWidth 32,
                                eax := regs.eax &&& 0xffffff00 }
        .ok (doneExit { m with vcpu := { m.vcpu with ecx := regs.ecx, edx := regs.edx } } regs)
  else .ok (doneExit m { regs with eax := (regs.eax &&& 0xffffff00) ||| 0x03 })

def int13Extensions (m : Machine) (regs : InthRegs) : Exit :=
  let regs := { regs with eax := (regs.eax &&& 0xffff0000) ||| 0x2100, ebx := 0xaa55, ecx := 0x05 }
  doneExit { m with vcpu := { m.vcpu with ebx := regs.ebx, ecx := regs.ecx } } regs

def int13Plain : List (BitVec 32) := [0x00, 0x01, 0x04, 0x05, 0x10, 0x0c, 0x16, 0x4b]

def int13Switch (host : Host) (m : Machine) (regs : InthRegs) : Except Fault Exit :=
  let ah := regHibyte regs.eax
  if ah ∈ int13Plain then .ok (doneExit m { regs with eax := regs.eax &&& 0xffffff00 })
  else if ah = 0x02 ∨ ah = 0x03 then int13Chs host m regs (ah = 0x02)
  else if ah = 0x42 ∨ ah = 0x43 then int13Edd host m regs (ah = 0x42)
  else if ah = 0x48 ∨ ah = 0x08 then int13Params host m regs
  else if ah = 0x15 then int13DiskType m regs
  else if ah = 0x41 then .ok (int13Extensions m regs)
  else .ok (failExit m regs)

def handleInt13 (host : Host) (m : Machine) (regs : InthRegs) : Except Fault Returned :=
  (int13Switch host m regs).map Exit.leave

def isChsIo (regs : InthRegs) : Prop := regHibyte regs.eax = 0x02 ∨ regHibyte regs.eax = 0x03
def isEddIo (regs : InthRegs) : Prop := regHibyte regs.eax = 0x42 ∨ regHibyte regs.eax = 0x43
def isParams (regs : InthRegs) : Prop := regHibyte regs.eax = 0x48 ∨ regHibyte regs.eax = 0x08

instance (regs : InthRegs) : Decidable (isChsIo regs) := inferInstanceAs (Decidable (_ ∨ _))
instance (regs : InthRegs) : Decidable (isEddIo regs) := inferInstanceAs (Decidable (_ ∨ _))
instance (regs : InthRegs) : Decidable (isParams regs) := inferInstanceAs (Decidable (_ ∨ _))

def ioIsRead (regs : InthRegs) : Bool := regHibyte regs.eax = 0x02 ∨ regHibyte regs.eax = 0x42

variable {host : Host} {m : Machine} {regs : InthRegs}

theorem switch_chs (chs : isChsIo regs) :
    int13Switch host m regs = int13Chs host m regs (ioIsRead regs) := by
  unfold int13Switch ioIsRead
  rcases chs with read | write
  · simp [read, int13Plain]
  · simp [write, int13Plain]

theorem switch_edd (edd : isEddIo regs) :
    int13Switch host m regs = int13Edd host m regs (ioIsRead regs) := by
  unfold int13Switch ioIsRead
  rcases edd with read | write
  · simp [read, int13Plain]
  · simp [write, int13Plain]

theorem switch_params (params : isParams regs) :
    int13Switch host m regs = int13Params host m regs := by
  unfold int13Switch
  rcases params with extended | geometry
  · simp [extended, int13Plain]
  · simp [geometry, int13Plain]

theorem switch_type {host : Host} {m : Machine} {regs : InthRegs}
    (type : regHibyte regs.eax = 0x15) : int13Switch host m regs = int13DiskType m regs := by
  simp [int13Switch, type, int13Plain]

def int13DiskFunctions : List (BitVec 32) := [0x02, 0x03, 0x42, 0x43, 0x48, 0x08, 0x15]

theorem int13_switch_cases (host : Host) (m : Machine) (regs : InthRegs) :
    (regHibyte regs.eax ∈ int13Plain ∧
      int13Switch host m regs = .ok (doneExit m { regs with eax := regs.eax &&& 0xffffff00 })) ∨
    isChsIo regs ∨ isEddIo regs ∨ isParams regs ∨ regHibyte regs.eax = 0x15 ∨
    (regHibyte regs.eax = 0x41 ∧ int13Switch host m regs = .ok (int13Extensions m regs)) ∨
    (regHibyte regs.eax ∉ 0x41 :: (int13Plain ++ int13DiskFunctions) ∧
      int13Switch host m regs = .ok (failExit m regs)) := by
  by_cases plain : regHibyte regs.eax ∈ int13Plain
  · exact Or.inl ⟨plain, if_pos plain⟩
  by_cases chs : isChsIo regs
  · exact Or.inr (Or.inl chs)
  by_cases edd : isEddIo regs
  · exact Or.inr (Or.inr (Or.inl edd))
  by_cases params : isParams regs
  · exact Or.inr (Or.inr (Or.inr (Or.inl params)))
  by_cases type : regHibyte regs.eax = 0x15
  · exact Or.inr (Or.inr (Or.inr (Or.inr (Or.inl type))))
  unfold isChsIo at chs
  unfold isEddIo at edd
  unfold isParams at params
  have rest : int13Switch host m regs =
      if regHibyte regs.eax = 0x41 then .ok (int13Extensions m regs) else .ok (failExit m regs) := by
    unfold int13Switch
    rw [if_neg plain, if_neg chs, if_neg edd, if_neg params, if_neg type]
  by_cases extensions : regHibyte regs.eax = 0x41
  · rw [if_pos extensions] at rest
    exact Or.inr (Or.inr (Or.inr (Or.inr (Or.inr (Or.inl ⟨extensions, rest⟩)))))
  · rw [if_neg extensions] at rest
    refine Or.inr (Or.inr (Or.inr (Or.inr (Or.inr (Or.inr ⟨?_, rest⟩)))))
    simp only [List.mem_cons, List.mem_append, int13DiskFunctions, List.not_mem_nil, or_false]
    tauto

theorem handle_int13_ok {r : Returned} (returned : handleInt13 host m regs = .ok r) :
    ∃ e, int13Switch host m regs = .ok e ∧ r = e.leave := by
  unfold handleInt13 at returned
  cases switched : int13Switch host m regs with
  | error fault => rw [switched] at returned; cases returned
  | ok e =>
    rw [switched] at returned
    cases returned
    exact ⟨e, rfl, rfl⟩

theorem handle_int13_of_switch {e : Exit} (switched : int13Switch host m regs = .ok e) :
    handleInt13 host m regs = .ok e.leave := by
  rw [handleInt13, switched]
  rfl

theorem handle_int13_error {fault : Fault} :
    handleInt13 host m regs = .error fault ↔ int13Switch host m regs = .error fault := by
  unfold handleInt13
  cases int13Switch host m regs with
  | error f => simp [Except.map]
  | ok e => simp [Except.map]

end Microbios
