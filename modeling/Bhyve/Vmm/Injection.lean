import Bhyve.Vmm.Vlapic

/-!
Event injection on VT-x, for one virtual processor. vmm.c keeps the exception, the NMI and the
external interrupt that wait, and an event whose delivery an exit cut short; vmx.c moves them into
the VM-entry interruption field and takes them back from the IDT-vectoring field. The processor is
modelled as far as these fields go, an interruption word by its fields without the length of a
software event's instruction. Between injection and entry only other threads act; the interrupt
that they send with a request ends the guest's run as soon as it starts.
-/
namespace VmmInjection
open VmmVlapic (Vlapic)

inductive IntrType where
  | hwintr
  | reserved
  | nmi
  | hwexception
  | swintr
  | privSwexception
  | swexception
  | other
deriving DecidableEq

/-- A 32-bit interruption word: vector, type, bits 11 and 12, bits 13 to 30, and bit 31. -/
structure IntrInfo where
  vector : BitVec 8
  type : IntrType
  delErrcode : Bool
  bit12 : Bool
  rsvd : BitVec 18
  valid : Bool
deriving DecidableEq

/-- A 64-bit word of vmm.c: an interruption word under an error code. -/
structure IntInfo where
  info : IntrInfo
  errcode : BitVec 32
deriving DecidableEq

def noInfo : IntrInfo := ⟨0, .hwintr, false, false, 0, false⟩

def idtDe : BitVec 8 := 0
def idtNmi : BitVec 8 := 2
def idtBp : BitVec 8 := 3
def idtOf : BitVec 8 := 4
def idtDf : BitVec 8 := 8
def idtTs : BitVec 8 := 10
def idtNp : BitVec 8 := 11
def idtSs : BitVec 8 := 12
def idtGp : BitVec 8 := 13
def idtPf : BitVec 8 := 14
def idtMc : BitVec 8 := 18
def idtVe : BitVec 8 := 20

def hwintrBlocking : BitVec 32 := 0x3
def nmiOnly : BitVec 32 := 0x8
def nmiBlocking : BitVec 32 := 0xa

inductive Event where
  | interrupt (vector : BitVec 8)
  | software (vector : BitVec 8)
  | nmi
  | exception (vector : BitVec 8) (errcode : Option (BitVec 32))
deriving DecidableEq

def eventOf (info : IntrInfo) (errcode : BitVec 32) : Event :=
  match info.type with
  | .hwintr => .interrupt info.vector
  | .swintr => .software info.vector
  | .nmi => .nmi
  | _ => .exception info.vector (if info.delErrcode then some errcode else none)

inductive Reason where
  | mceDuringEntry
  | taskSwitch (idtGate : Bool)
  | intrWindow
  | nmiWindow
  | extIntr (info : IntrInfo)
  | exception (info : IntrInfo) (errcode : BitVec 32) (cr0Pe : Bool)
  | eptFault (nmiUdti : Bool)
  | other
deriving DecidableEq

structure Exit where
  reason : Reason
  gi : BitVec 32
  interruptFlag : Bool
  rip : BitVec 64
deriving DecidableEq

/-- How an entry goes: it fails while the guest is loaded; the event in the entry field is
    delivered and the guest runs until it exits, perhaps while it delivers an event of its
    own; or the exit comes while the event in the entry field is being delivered. -/
inductive Entry where
  | failed
  | delivered (own : Option IntInfo)
  | interrupted (bit12 : Bool)
deriving DecidableEq

inductive Phase where
  | idle
  | injected
  | exited (exit : Exit)
deriving DecidableEq

structure Vcpu where
  exitintinfo : IntInfo
  exceptionPending : Bool
  excVector : BitVec 8
  excErrcodeValid : Bool
  excErrcode : BitVec 32
  nmiPending : Bool
  extintPending : Bool
  suspended : Bool
  entryInfo : IntrInfo
  entryError : BitVec 32
  vectoringInfo : IntrInfo
  vectoringError : BitVec 32
  gi : BitVec 32
  interruptFlag : Bool
  intWindow : Bool
  nmiWindow : Bool
  nextrip : BitVec 64
  vlapic : Vlapic
  notified : Bool
  phase : Phase

def initial : Vcpu where
  exitintinfo := ⟨noInfo, 0⟩
  exceptionPending := false
  excVector := 0
  excErrcodeValid := false
  excErrcode := 0
  nmiPending := false
  extintPending := false
  suspended := false
  entryInfo := noInfo
  entryError := 0
  vectoringInfo := noInfo
  vectoringError := 0
  gi := 0
  interruptFlag := false
  intWindow := false
  nmiWindow := false
  nextrip := ~~~0
  vlapic := VmmVlapic.reset
  notified := false
  phase := .idle

inductive Panic where
  | vlapic (p : VmmVlapic.Panic)
  | nmiInterruptibility (gi : BitVec 32)
  | nmiEntryInfo (info : IntrInfo)
  | nmiClear
  | extintClear
  | classOfInvalid
  | nestedInvalid
  | entryIntinfoInvalid
  | cannotInjectPending (info : IntrInfo)
  | invalidApicVector (vector : Nat)
  | intWindowNotSet
  | nmiWindowNotSet
  | setIntinfo
  | nmiBlockingNotInEffect (gi : BitVec 32)
  | exitInfoInvalid (info : IntrInfo)
  | injectException
  | idtTaskSwitch
deriving DecidableEq

/-- What an event goes through: an exception or an NMI that vmm.c takes on, an interrupt that
    one of the interrupt controllers gives up, an event of the guest that an exit cut short,
    a delivery, and an event that meets an exception while it is being delivered. -/
inductive Record where
  | requested (e : Event)
  | accepted (e : Event)
  | raised (e : Event)
  | delivered (e : Event)
  | met (first second : Event)
deriving DecidableEq

inductive ExcClass where
  | benign
  | contributory
  | pagefault
deriving DecidableEq

def exceptionClass (info : IntInfo) : Except Panic ExcClass :=
  if !info.info.valid then .error .classOfInvalid
  else
    match info.info.type with
    | .hwintr | .swintr | .nmi => .ok .benign
    | _ =>
        let vector := info.info.vector
        if vector = idtPf ∨ vector = idtVe then .ok .pagefault
        else if vector = idtDe ∨ vector = idtTs ∨ vector = idtNp ∨ vector = idtSs ∨
            vector = idtGp then .ok .contributory
        else .ok .benign

def doubleFault : IntInfo := ⟨⟨idtDf, .hwexception, true, false, 0, true⟩, 0⟩

def nestedFault (info1 info2 : IntInfo) : Except Panic (Option IntInfo) :=
  if !info1.info.valid || !info2.info.valid then .error .nestedInvalid
  else if info1.info.type = .hwexception ∧ info1.info.vector = idtDf then .ok none
  else
    match exceptionClass info1, exceptionClass info2 with
    | .error p, _ => .error p
    | _, .error p => .error p
    | .ok exc1, .ok exc2 =>
        if (exc1 = .contributory ∧ exc2 = .contributory) ∨
            (exc1 = .pagefault ∧ exc2 ≠ .benign) then .ok (some doubleFault)
        else .ok (some info2)

def vcpuExceptionIntinfo (s : Vcpu) : IntInfo :=
  if s.exceptionPending then
    ⟨⟨s.excVector, .hwexception, s.excErrcodeValid, false, 0, true⟩,
      if s.excErrcodeValid then s.excErrcode else 0⟩
  else ⟨noInfo, 0⟩

def vmEntryIntinfo (s : Vcpu) : Except Panic (Option IntInfo × List Record × Vcpu) :=
  let info1 := s.exitintinfo
  let info2 := vcpuExceptionIntinfo s
  let s := { s with exitintinfo := ⟨noInfo, 0⟩, exceptionPending := false }
  if info1.info.valid && info2.info.valid then
    let records := [.met (eventOf info1.info info1.errcode) (eventOf info2.info info2.errcode)]
    match nestedFault info1 info2 with
    | .error p => .error p
    | .ok none => .ok (none, records, { s with suspended := true })
    | .ok (some info) => .ok (some info, records, s)
  else if info1.info.valid then .ok (some info1, [], s)
  else if info2.info.valid then .ok (some info2, [], s)
  else .ok (none, [], s)

variable (s : Vcpu)

/-- An invalid word is stored as 0; the result is the error EINVAL or the new state. -/
def vmExitIntinfo (info : IntInfo) : Option Vcpu :=
  if info.info.valid then
    if info.info.type = .nmi ∧ info.info.vector ≠ idtNmi then none
    else if info.info.type = .hwexception ∧ 32 ≤ info.info.vector.toNat then none
    else if info.info.bit12 ∨ info.info.rsvd ≠ 0 then none
    else some { s with exitintinfo := info }
  else some { s with exitintinfo := ⟨noInfo, 0⟩ }

inductive Reply where
  | ok
  | einval
  | ebusy
deriving DecidableEq

def vmInjectException (vector : Int) (errcodeValid : Bool) (errcode : BitVec 32)
    (cr0Pe : Bool) : Reply × List Record × Vcpu :=
  if vector < 0 ∨ 32 ≤ vector then (.einval, [], s)
  else if vector = idtDf.toNat then (.einval, [], s)
  else if s.exceptionPending then (.ebusy, [], s)
  else
    let excVector := BitVec.ofNat 8 vector.toNat
    let errcodeValid := errcodeValid && cr0Pe
    (.ok, [.requested (.exception excVector (if errcodeValid then some errcode else none))],
      { s with gi := s.gi &&& ~~~hwintrBlocking, exceptionPending := true,
               excVector := excVector, excErrcode := errcode, excErrcodeValid := errcodeValid })

def vcpuNotifyEvent (s : Vcpu) : Vcpu :=
  if s.phase = .idle then s else { s with notified := true }

def vmInjectNmi (s : Vcpu) : List Record × Vcpu :=
  (if s.nmiPending then [] else [.requested .nmi], vcpuNotifyEvent { s with nmiPending := true })

def vmInjectExtint (s : Vcpu) : Vcpu := vcpuNotifyEvent { s with extintPending := true }

def lapicSetIntr (vector : Int) (level : Bool) : Except Panic Vcpu :=
  if vector < 16 ∨ 255 < vector then .ok s
  else
    match VmmVlapic.setIntrReady s.vlapic vector level with
    | .error p => .error (.vlapic p)
    | .ok (true, vlapic) => .ok (vcpuNotifyEvent { s with vlapic := vlapic })
    | .ok (false, vlapic) => .ok { s with vlapic := vlapic }

def vmNmiClear (s : Vcpu) : Except Panic Vcpu :=
  if s.nmiPending then .ok { s with nmiPending := false } else .error .nmiClear

def vmExtintClear (s : Vcpu) : Except Panic Vcpu :=
  if s.extintPending then .ok { s with extintPending := false } else .error .extintClear

def vmxInjectNmi (s : Vcpu) : Except Panic Vcpu :=
  if s.gi &&& nmiBlocking ≠ 0 then .error (.nmiInterruptibility s.gi)
  else if s.entryInfo.valid then .error (.nmiEntryInfo s.entryInfo)
  else vmNmiClear { s with entryInfo := ⟨idtNmi, .nmi, false, false, 0, true⟩ }

/-- The first part of vmx_inject_interrupts: an instruction pointer that has moved ends the
    blocking by STI and MOV SS. -/
def clearBlocking (guestrip : BitVec 64) : Vcpu :=
  if s.nextrip ≠ guestrip then { s with gi := s.gi &&& ~~~hwintrBlocking } else s

/-- VT-x wants #BP and #OF as software exceptions. -/
def entryWord (info : IntrInfo) : IntrInfo :=
  if info.vector = idtBp ∨ info.vector = idtOf then { info with type := .swexception } else info

def injectEvent (s : Vcpu) : Except Panic (List Record × Vcpu) :=
  match vmEntryIntinfo s with
  | .error p => .error p
  | .ok (none, records, s) => .ok (records, s)
  | .ok (some entryinfo, records, s) =>
      if !entryinfo.info.valid then .error .entryIntinfoInvalid
      else if s.entryInfo.valid then .error (.cannotInjectPending s.entryInfo)
      else
        let info := entryWord entryinfo.info
        let entryError := if info.delErrcode then entryinfo.errcode else s.entryError
        .ok (records, { s with entryInfo := info, entryError := entryError })

def injectNmi (s : Vcpu) : Except Panic Vcpu :=
  if s.nmiPending then
    if s.gi &&& (hwintrBlocking ||| nmiBlocking) = 0 ∧ s.entryInfo.valid = false then
      vmxInjectNmi s
    else .ok { s with nmiWindow := true }
  else .ok s

def cantInject (s : Vcpu) : Bool :=
  !s.interruptFlag || decide (s.gi &&& hwintrBlocking ≠ 0) || s.entryInfo.valid

def interruptWord (vector : BitVec 8) : IntrInfo := ⟨vector, .hwintr, false, false, 0, true⟩

def injectApic (s : Vcpu) : Except Panic (List Record × Vcpu) :=
  match VmmVlapic.pendingIntr s.vlapic with
  | .error p => .error (.vlapic p)
  | .ok (none, vlapic) => .ok ([], { s with vlapic := vlapic })
  | .ok (some vector, vlapic) =>
      let s := { s with vlapic := vlapic }
      if vector < 16 ∨ 255 < vector then .error (.invalidApicVector vector)
      else if cantInject s then .ok ([], { s with intWindow := true })
      else
        match VmmVlapic.intrAccepted vlapic vector with
        | .error p => .error (.vlapic p)
        | .ok vlapic =>
            .ok ([.accepted (.interrupt (BitVec.ofNat 8 vector))],
              { s with entryInfo := interruptWord (BitVec.ofNat 8 vector), vlapic := vlapic })

/-- An interrupt of the legacy PIC, which may post the next one once this one is accepted. -/
def injectExtint (vector : BitVec 8) (again : Bool) : Except Panic (List Record × Vcpu) :=
  if cantInject s then .ok ([], { s with intWindow := true })
  else
    match vmExtintClear { s with entryInfo := interruptWord vector } with
    | .error p => .error p
    | .ok s =>
        .ok ([.accepted (.interrupt vector)],
          { s with extintPending := s.extintPending || again, intWindow := true })

/-- The last part. With virtual interrupt delivery the processor takes the interrupts of the
    local APIC. -/
def injectInterrupt (vid : Bool) (s : Vcpu) (vector : BitVec 8) (again : Bool) :
    Except Panic (List Record × Vcpu) :=
  if !s.extintPending && vid then .ok ([], s)
  else if s.intWindow then .ok ([], s)
  else if !s.extintPending then injectApic s
  else injectExtint s vector again

def vmxInjectInterrupts (vid : Bool) (s : Vcpu) (guestrip : BitVec 64) (vector : BitVec 8)
    (again : Bool) : Except Panic (List Record × Vcpu) :=
  match injectEvent (clearBlocking s guestrip) with
  | .error p => .error p
  | .ok (records, s) =>
      match injectNmi s with
      | .error p => .error p
      | .ok s =>
          match injectInterrupt vid s vector again with
          | .error p => .error p
          | .ok (more, s) => .ok (records ++ more, { s with phase := .injected })

/-- The processor: the valid bit of the entry field is cleared at an exit. -/
def leave (exit : Exit) (vectoring : IntInfo) : Vcpu :=
  { s with
    entryInfo := { s.entryInfo with valid := false }
    vectoringInfo := vectoring.info
    vectoringError := vectoring.errcode
    gi := exit.gi
    interruptFlag := exit.interruptFlag
    nextrip := exit.rip
    notified := false
    phase := .exited exit }

def vmEntry (exit : Exit) : Entry → List Record × Vcpu
  | .failed => ([], { s with nextrip := exit.rip, phase := .exited exit })
  | .interrupted bit12 =>
      ([], leave s exit ⟨{ s.entryInfo with bit12 := bit12 }, s.entryError⟩)
  | .delivered own =>
      ((if s.entryInfo.valid then [.delivered (eventOf s.entryInfo s.entryError)] else []) ++
        (match own with
        | none => []
        | some i => [.raised (eventOf i.info i.errcode)]),
      leave s exit (own.getD ⟨noInfo, 0⟩))

def takeBack (reason : Reason) : Except Panic Vcpu :=
  if s.vectoringInfo.valid then
    let info := { s.vectoringInfo with bit12 := false }
    let errcode := if info.delErrcode then s.vectoringError else 0
    match vmExitIntinfo s ⟨info, errcode⟩ with
    | none => .error .setIntinfo
    | some s =>
        if info.type = .nmi then
          match reason with
          | .taskSwitch _ =>
              if s.gi &&& nmiOnly = 0 then .error (.nmiBlockingNotInEffect s.gi) else .ok s
          | _ => .ok { s with gi := s.gi &&& ~~~nmiOnly }
        else .ok s
  else .ok s

/-- An exception that the exit bitmap catches is reflected, but for NMI, machine check and
    the breakpoints that user space has asked for. -/
def reflect (bptExit : Bool) (s : Vcpu) (info : IntrInfo) (errcode : BitVec 32) (cr0Pe : Bool) :
    Except Panic (List Record × Vcpu) :=
  if !info.valid then .error (.exitInfoInvalid info)
  else if info.type = .nmi ∧ info.vector ≠ idtNmi then .error (.exitInfoInvalid info)
  else
    let s :=
      if !s.vectoringInfo.valid ∧ info.vector ≠ idtDf ∧ info.bit12 then
        { s with gi := s.gi ||| nmiOnly }
      else s
    if info.type = .nmi then .ok ([], s)
    else if info.vector = idtMc then .ok ([], s)
    else if info.type = .swexception ∧ info.vector = idtBp ∧ bptExit then .ok ([], s)
    else
      match vmInjectException s info.vector.toNat info.delErrcode
          (if info.delErrcode then errcode else 0) cr0Pe with
      | (.ok, records, s) => .ok (records, s)
      | _ => .error .injectException

def handle (bptExit : Bool) (s : Vcpu) : Reason → Except Panic (List Record × Vcpu)
  | .mceDuringEntry => .ok ([], s)
  | .other => .ok ([], s)
  | .taskSwitch idtGate =>
      if idtGate && !s.vectoringInfo.valid then .error .idtTaskSwitch else .ok ([], s)
  | .intrWindow =>
      if !s.intWindow then .error .intWindowNotSet else .ok ([], { s with intWindow := false })
  | .nmiWindow =>
      match (if s.nmiPending then vmxInjectNmi s else .ok s) with
      | .error p => .error p
      | .ok s =>
          if !s.nmiWindow then .error .nmiWindowNotSet
          else .ok ([], { s with nmiWindow := false })
  | .extIntr info =>
      if info.valid ∧ info.type ≠ .hwintr then .error (.exitInfoInvalid info) else .ok ([], s)
  | .exception info errcode cr0Pe => reflect bptExit s info errcode cr0Pe
  | .eptFault nmiUdti =>
      .ok ([], if !s.vectoringInfo.valid && nmiUdti then { s with gi := s.gi ||| nmiOnly } else s)

def resume (s : Vcpu) : Vcpu := { s with notified := false, phase := .idle }

def vmxExitProcess (bptExit : Bool) (s : Vcpu) (exit : Exit) : Except Panic (List Record × Vcpu) :=
  let s := resume s
  if exit.reason = .mceDuringEntry then .ok ([], s)
  else
    match takeBack s exit.reason with
    | .error p => .error p
    | .ok s => handle bptExit s exit.reason

/-- What happens to a virtual processor: requests, accesses to the registers of its local
    APIC, and the turns of the loop in vmx_run. -/
inductive Action where
  | exception (vector : Int) (errcodeValid : Bool) (errcode : BitVec 32) (cr0Pe : Bool)
  | nmi
  | extint
  | lapicIntr (vector : Int) (level : Bool)
  | apicAccess (e : VmmVlapic.Event)
  | inject (guestrip : BitVec 64) (vector : BitVec 8) (again : Bool)
  | abandon
  | enter (entry : Entry) (exit : Exit)
  | process

structure Config where
  vid : Bool
  bptExit : Bool

def act (cfg : Config) (s : Vcpu) : Action → Except Panic (List Record × Vcpu)
  | .exception vector errcodeValid errcode cr0Pe =>
      .ok (vmInjectException s vector errcodeValid errcode cr0Pe).2
  | .nmi => .ok (vmInjectNmi s)
  | .extint => .ok ([], vmInjectExtint s)
  | .lapicIntr vector level => (lapicSetIntr s vector level).map fun s => ([], s)
  | .apicAccess e =>
      match VmmVlapic.step ⟨s.vlapic, none⟩ e with
      | .error p => .error (.vlapic p)
      | .ok a => .ok ([], { s with vlapic := a.vlapic })
  | .inject guestrip vector again => vmxInjectInterrupts cfg.vid s guestrip vector again
  | .abandon => .ok ([], resume s)
  | .enter entry exit => .ok (vmEntry s exit entry)
  | .process =>
      match s.phase with
      | .exited exit => vmxExitProcess cfg.bptExit s exit
      | _ => .ok ([], s)

structure Traced where
  vcpu : Vcpu
  log : List Record

def step (cfg : Config) (t : Traced) (a : Action) : Except Panic Traced :=
  match act cfg t.vcpu a with
  | .error p => .error p
  | .ok (records, vcpu) => .ok ⟨vcpu, t.log ++ records⟩

end VmmInjection
