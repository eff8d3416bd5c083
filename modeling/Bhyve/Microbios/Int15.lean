import Bhyve.Microbios.Int13

/-!
handle_int15, the hypercall entry that dispatches to it and to handle_int13, and the
int_bhyvebios stub of the boot ROM around the hypercall. Delays and console output have
no effect on the state and are left out.
-/
namespace Microbios
open ByteMemory BlockIf

def smapSignature : BitVec 32 := 0x534d4150
def e820EntrySize : Nat := 20
def int15GdtSize : Nat := 8

def carryExit (m : Machine) (regs : InthRegs) : Exit := ⟨m, regs.setCf, false⟩

/-- AH=24h. An AL the switch does not list leaves AX alone. -/
def int15A20 (m : Machine) (regs : InthRegs) : Exit :=
  let al := regLobyte regs.eax
  if al = 0x00 then doneExit { m with a20Mode := false } { regs with eax := regs.eax &&& 0xffff00ff }
  else if al = 0x01 then
    doneExit { m with a20Mode := true } { regs with eax := regs.eax &&& 0xffff00ff }
  else if al = 0x02 then
    doneExit m { regs with eax := (regs.eax &&& 0xffff0000) ||| if m.a20Mode then 1 else 0 }
  else if al = 0x03 then
    let regs := { regs with eax := regs.eax &&& 0xffff0000,
                            ebx := (regs.ebx &&& 0xffff0000) ||| 0x03 }
    doneExit { m with vcpu := { m.vcpu with ebx := regs.ebx } } regs
  else doneExit m regs

def int15Apm (m : Machine) (regs : InthRegs) : Exit :=
  let al := regLobyte regs.eax
  if al = 0x00 then carryExit m { regs with eax := 0x8600 ||| (regs.eax &&& 0xffff00ff) }
  else if al = 0x04 then carryExit m { regs with eax := (regs.eax &&& 0xffff0000) ||| 0x03 }
  else ⟨m, regs, false⟩

variable (host : Host) (m : Machine)

/-- AH=87h copies CX bytes between the addresses of descriptors 2 and 3. -/
def int15MoveBlock (regs : InthRegs) : Except Fault Exit :=
  let gdtaddr := segOffset regs.es regs.esi
  let len := (regWord regs.ecx).toNat
  let src := (read32 m.mem (gdtaddr + 2 * int15GdtSize + 2) &&& 0xffffff).toNat
  let dst := (read32 m.mem (gdtaddr + 3 * int15GdtSize + 2) &&& 0xffffff).toNat
  if host.mapped gdtaddr (int15GdtSize * 6) = false then .error (.unmapped gdtaddr)
  else if 0 < len ∧ host.mapped src len = false then .error (.unmapped src)
  else if 0 < len ∧ host.mapped dst len = false then .error (.unmapped dst)
  else
    .ok (doneExit { m with mem := copyInto m.mem dst len fun i => m.mem (src + i) }
      { regs with eax := regs.eax &&& 0xffff00ff })

/-- AH=8Ah. The upper half goes to regs->edx, which is not written back. -/
def int15ExtendedSize (regs : InthRegs) : Exit :=
  let extmem : BitVec 32 := BitVec.ofNat 32 host.lowmem - 0x100000
  carryExit m { regs with eax := extmem &&& 0xffff, edx := (extmem >>> 16) &&& 0xffff }

def int15Config (regs : InthRegs) : Exit :=
  let regs := { regs with eax := regs.eax &&& 0xff, es := 0xf000,
                          ebx := (read16 m.mem varsConfigTbl).setWidth 32 }
  doneExit { m with vcpu := { m.vcpu with es := regs.es, ebx := regs.ebx } } regs

def int15MemSize (regs : InthRegs) : Exit :=
  let memsize : BitVec 32 := BitVec.ofNat 32 host.lowmem
  let ebx := (regs.ebx &&& 0xffff0000) ||| (((memsize - 16) * 1024 / 64) &&& 0xffff)
  let regs := { regs with eax := 0x3c00, ecx := (regs.ecx &&& 0xffff0000) ||| 0x3c00, ebx := ebx,
                          edx := (regs.edx &&& 0xffff0000) ||| (ebx &&& 0xffff) }
  doneExit { m with vcpu := { m.vcpu with ebx := regs.ebx, ecx := regs.ecx, edx := regs.edx } } regs

/-- The requests AH=E8h refuses: another AL, a missing signature, a short buffer, or a
    continuation past the table. -/
def e820Refused (regs : InthRegs) : Prop :=
  regLobyte regs.eax ≠ 0x20 ∨ regs.edx ≠ smapSignature ∨
    (regWord regs.ecx).toNat < e820EntrySize ∨ m.e820Entries ≤ (regWord regs.ebx).toNat

instance (m : Machine) (regs : InthRegs) : Decidable (e820Refused m regs) :=
  inferInstanceAs (Decidable (_ ∨ _ ∨ _ ∨ _))

def int15E820 (regs : InthRegs) : Except Fault Exit :=
  if e820Refused m regs then .ok (carryExit m { regs with eax := regs.eax &&& 0xffff0000 })
  else
    let gbufaddr := segOffset regs.es regs.edi
    let continuation := (regWord regs.ebx).toNat
    match m.e820Tbl with
    | none => .error (.unmapped (e820EntrySize * continuation))
    | some tbl =>
        if host.mapped gbufaddr e820EntrySize = false then .error (.unmapped gbufaddr)
        else
          let regs := { regs with ebx := BitVec.ofNat 32 ((continuation + 1) % m.e820Entries),
                                  eax := smapSignature, ecx := BitVec.ofNat 32 e820EntrySize,
                                  edx := 0 }
          let mem := copyInto m.mem gbufaddr e820EntrySize
            fun i => tbl (e820EntrySize * continuation + i)
          let vcpu := { m.vcpu with ebx := regs.ebx, ecx := regs.ecx, edx := regs.edx }
          .ok (doneExit { m with mem := mem, vcpu := vcpu } regs)

def int15TargetMode (regs : InthRegs) : Exit :=
  let cleared := { regs with eax := regs.eax &&& 0xffff00ff }
  if regLobyte regs.eax = 0 ∧ regLobyte regs.ebx ≤ 3 then doneExit m cleared
  else carryExit m cleared

def int15Switch (regs : InthRegs) : Except Fault Exit :=
  let ah := regHibyte regs.eax
  if ah = 0x00 then
    let regs := { regs with eax := 0x8600 ||| (regs.eax &&& 0xffff00ff) }
    .ok (failExit { m with vcpu := { m.vcpu with eax := regs.eax } } regs)
  else if ah = 0x24 then .ok (int15A20 m regs)
  else if ah = 0x41 then .ok (carryExit m regs)
  else if ah = 0x53 then .ok (int15Apm m regs)
  else if ah = 0x87 then int15MoveBlock host m regs
  else if ah = 0x88 then .ok (doneExit m { regs with eax := 8 * 1024 })
  else if ah = 0x8a then .ok (int15ExtendedSize host m regs)
  else if ah = 0xc0 then .ok (int15Config m regs)
  else if ah = 0xe8 then
    if regLobyte regs.eax = 0x01 then .ok (int15MemSize host m regs) else int15E820 host m regs
  else if ah = 0xec then .ok (int15TargetMode m regs)
  else if ah = 0x86 then .ok (doneExit m { regs with eax := regs.eax &&& 0xffffff00 })
  else .ok (carryExit m regs)

def handleInt15 (regs : InthRegs) : Except Fault Returned :=
  (int15Switch host m regs).map Exit.leave

/-- The register record microbios_bios_inth_handler builds. EAX, EDX and the flags come
    from BIOS_VARS, where the stub saved them. -/
def loadRegs (m : Machine) : InthRegs :=
  { eflags := read16 m.mem varsFlags, eax := read32 m.mem varsEax, ecx := m.vcpu.ecx,
    edx := read32 m.mem varsEdx, ebx := m.vcpu.ebx, esi := m.vcpu.esi, edi := m.vcpu.edi,
    ds := m.vcpu.ds, es := m.vcpu.es }

def enterHandler (m : Machine) : Machine :=
  { m with vcpu := { m.vcpu with edx := read32 m.mem varsEdx },
           mem := write32 m.mem bdaTimerCounter (read32 m.mem bdaTimerCounter + 1) }

def microbiosBiosInthHandler (eax : BitVec 32) : Except Fault Returned :=
  let regs := loadRegs m
  let m := enterHandler m
  let vec := (eax >>> 16) &&& 0xffff
  if vec = 0x13 then handleInt13 host m regs
  else if vec = 0x15 then handleInt15 host m regs
  else .ok (failExit m regs).leave

def bhyveIoPort : BitVec 16 := 0x100

/-- The stub's stack, top first, with the 16-bit displacements it uses from %bp. -/
def frameWord (stack : List (BitVec 16)) (disp : Nat) : BitVec 16 := stack.getD (disp / 2) 0

/-- The stub up to the outl: EAX, EDX and the caller's flags go to BIOS_VARS, EAX becomes
    the vector word over AX, and DX the port. The stack still holds the saved %bp. -/
def stubEnter (stack : List (BitVec 16)) : Machine :=
  let mem := write32 m.mem varsEax m.vcpu.eax
  let mem := write32 mem varsEdx m.vcpu.edx
  let mem := write16 mem varsFlags (frameWord stack 8)
  { m with mem := mem,
           vcpu := { m.vcpu with eax := frameWord stack 2 ++ m.vcpu.eax.extractLsb' 0 16,
                                 edx := m.vcpu.edx.extractLsb' 16 16 ++ bhyveIoPort } }

structure IretFrame where
  ip : BitVec 16
  cs : BitVec 16
  flags : BitVec 16

/-- int_bhyvebios. On entry the stack holds the vector pushed by the interrupt entry over
    the caller's frame; popl takes the vector off again, so the second part sees one word
    less between %bp and the frame. -/
def intBhyvebios (bp : BitVec 16) (m : Machine) (stack : List (BitVec 16)) :
    Except Fault (Returned × IretFrame) :=
  let called := stubEnter m (bp :: stack)
  match microbiosBiosInthHandler host called called.vcpu.eax with
  | .error fault => .error fault
  | .ok r =>
      let stack := bp :: stack.drop 1
      let stack := stack.set (6 / 2) (read16 r.machine.mem varsFlags)
      .ok (r, ⟨frameWord stack 2, frameWord stack 4, frameWord stack 6⟩)

theorem handle_int15_ok {host : Host} {m : Machine} {regs : InthRegs} {r : Returned}
    (returned : handleInt15 host m regs = .ok r) :
    ∃ e, int15Switch host m regs = .ok e ∧ r = e.leave := by
  unfold handleInt15 at returned
  cases switched : int15Switch host m regs with
  | error fault => rw [switched] at returned; cases returned
  | ok e =>
    rw [switched] at returned
    cases returned
    exact ⟨e, rfl, rfl⟩

theorem handle_int15_of_switch {host : Host} {m : Machine} {regs : InthRegs} {e : Exit}
    (switched : int15Switch host m regs = .ok e) : handleInt15 host m regs = .ok e.leave := by
  rw [handleInt15, switched]
  rfl

end Microbios
