import Bhyve.Vmm.Decoder

/-!
Instructions as the manual spells them, for the opcodes of the decoder's tables: legacy prefixes, a
REX or a VEX prefix, the opcode, ModRM, SIB and displacement, immediate and memory offset. Their
meaning is read off these parts without the decoder: the addressing tables, the operand and address
size attributes, and the instruction of an opcode with its extension and mandatory prefix. The last
definitions say which instruction each emulate function of the source carries out.
-/
namespace VmmEncoding
open VmmDecoder

inductive Segment where
  | es | cs | ss | ds | fs | gs
deriving DecidableEq

def Segment.byte : Segment → BitVec 8
  | .es => 0x26
  | .cs => 0x2e
  | .ss => 0x36
  | .ds => 0x3e
  | .fs => 0x64
  | .gs => 0x65

def Segment.name : Segment → VmRegName
  | .es => .es
  | .cs => .cs
  | .ss => .ss
  | .ds => .ds
  | .fs => .fs
  | .gs => .gs

inductive Prefix where
  | opsize
  | addrsize
  | repz
  | repnz
  | lock
  | segment (s : Segment)
deriving DecidableEq

def Prefix.byte : Prefix → BitVec 8
  | .opsize => 0x66
  | .addrsize => 0x67
  | .repz => 0xf3
  | .repnz => 0xf2
  | .lock => 0xf0
  | .segment s => s.byte

structure Rex where
  w : Bool
  r : Bool
  x : Bool
  b : Bool
deriving DecidableEq

def bit (b : Bool) (n : Nat) : BitVec 8 := if b then 1 <<< n else 0

def Rex.byte (rex : Rex) : BitVec 8 :=
  0x40 ||| bit rex.w 3 ||| bit rex.r 2 ||| bit rex.x 1 ||| bit rex.b 0

/-- The fields of a three-byte VEX prefix of the 0F38 map, before inversion. -/
structure Vex where
  w : Bool
  r : Bool
  x : Bool
  b : Bool
  reg : BitVec 4
  l : Bool
  pp : BitVec 2
deriving DecidableEq

def Vex.second (v : Vex) : BitVec 8 := bit (!v.r) 7 ||| bit (!v.x) 6 ||| bit (!v.b) 5 ||| 0x02

def Vex.third (v : Vex) : BitVec 8 :=
  bit v.w 7 ||| (((~~~v.reg).setWidth 8) <<< 3) ||| bit v.l 2 ||| v.pp.setWidth 8

inductive Head where
  | oneByte (rex : Option Rex) (opcode : BitVec 8)
  | twoByte (rex : Option Rex) (opcode : BitVec 8)
  | vex0f38 (vex : Vex) (opcode : BitVec 8)
deriving DecidableEq

def rexBytes (rex : Option Rex) : List (BitVec 8) :=
  match rex with
  | some rex => [rex.byte]
  | none => []

def Head.bytes : Head → List (BitVec 8)
  | .oneByte rex opcode => rexBytes rex ++ [opcode]
  | .twoByte rex opcode => rexBytes rex ++ [0x0f, opcode]
  | .vex0f38 vex opcode => [0xc4, vex.second, vex.third, opcode]

def Head.op : Head → VieOp
  | .oneByte _ opcode => oneByteOpcodes opcode
  | .twoByte _ opcode => twoByteOpcodes opcode
  | .vex0f38 _ opcode => threeByteOpcodes0f38 opcode

def noRex : Rex := ⟨false, false, false, false⟩

def Head.rex : Head → Rex
  | .oneByte rex _ => rex.getD noRex
  | .twoByte rex _ => rex.getD noRex
  | .vex0f38 vex _ => ⟨vex.w, vex.r, vex.x, vex.b⟩

def Head.vex : Head → Option Vex
  | .oneByte _ _ => none
  | .twoByte _ _ => none
  | .vex0f38 vex _ => some vex

def Head.hasRex : Head → Bool
  | .oneByte rex _ => rex.isSome
  | .twoByte rex _ => rex.isSome
  | .vex0f38 _ _ => false

structure Sib where
  ss : BitVec 2
  index : BitVec 3
  base : BitVec 3
deriving DecidableEq

def Sib.byte (s : Sib) : BitVec 8 :=
  (s.ss.setWidth 8 <<< 6) ||| (s.index.setWidth 8 <<< 3) ||| s.base.setWidth 8

structure Modrm where
  mod : BitVec 2
  reg : BitVec 3
  rm : BitVec 3
  sib : Option Sib
  disp : List (BitVec 8)
deriving DecidableEq

def Modrm.byte (m : Modrm) : BitVec 8 :=
  (m.mod.setWidth 8 <<< 6) ||| (m.reg.setWidth 8 <<< 3) ||| m.rm.setWidth 8

def sibBytes (sib : Option Sib) : List (BitVec 8) :=
  match sib with
  | some s => [s.byte]
  | none => []

def Modrm.bytes (m : Modrm) : List (BitVec 8) := m.byte :: (sibBytes m.sib ++ m.disp)

/-- Displacement bytes of the 32- and 64-bit forms (Tables 2-2 and 2-3). -/
def Modrm.dispLength (m : Modrm) : Nat :=
  if m.mod = 1 then 1
  else if m.mod = 2 then 4
  else
    match m.sib with
    | some s => if s.base = 5 then 4 else 0
    | none => if m.rm = 5 then 4 else 0

def Modrm.Form32 (m : Modrm) : Prop :=
  m.mod ≠ 3 ∧ (m.sib.isSome = true ↔ m.rm = 4) ∧ m.disp.length = m.dispLength

/-- Displacement bytes of the 16-bit forms (Table 2-1). -/
def Modrm.dispLength16 (m : Modrm) : Nat :=
  if m.mod = 1 then 1
  else if m.mod = 2 then 2
  else if m.rm = 6 then 2 else 0

def Modrm.Form16 (m : Modrm) : Prop :=
  m.mod ≠ 3 ∧ m.sib = none ∧ m.disp.length = m.dispLength16

def regNumber (high : Bool) (low : BitVec 3) : BitVec 4 :=
  (if high then 8 else 0) ||| low.setWidth 4

structure Operand where
  base : VmRegName
  index : VmRegName
  scale : Nat
  displacement : BitVec 64
deriving DecidableEq

def indexRegister (rex : Rex) (s : Sib) : VmRegName :=
  if s.index = 4 ∧ rex.x = false then .last else gprMap (regNumber rex.x s.index)

variable (mode : CpuMode)

def baseRegister (rex : Rex) (m : Modrm) : VmRegName :=
  match m.sib with
  | some s => if m.mod = 0 ∧ s.base = 5 then .last else gprMap (regNumber rex.b s.base)
  | none =>
      if m.mod = 0 ∧ m.rm = 5 then (if mode = .bits64 then .rip else .last)
      else gprMap (regNumber rex.b m.rm)

/-- The operand of a 32- or 64-bit form: with SIB a base, an index other than the stack
    pointer and its scale; without, a base, or a displacement alone that is relative to the
    next instruction in 64-bit mode. -/
def Modrm.operand32 (rex : Rex) (m : Modrm) : Operand where
  base := baseRegister mode rex m
  index := (m.sib.map (indexRegister rex)).getD .last
  scale :=
    match m.sib with
    | some s => if indexRegister rex s = .last then 0 else 2 ^ s.ss.toNat
    | none => 0
  displacement := if m.disp = [] then 0 else signedValue m.disp.length m.disp

def base16 (mod : BitVec 2) (rm : BitVec 3) : VmRegName :=
  match rm with
  | 0#3 | 1#3 | 7#3 => .rbx
  | 2#3 | 3#3 => .rbp
  | 4#3 => .rsi
  | 5#3 => .rdi
  | _ => if mod = 0 then .last else .rbp

def index16 (rm : BitVec 3) : VmRegName :=
  match rm with
  | 0#3 | 2#3 => .rsi
  | 1#3 | 3#3 => .rdi
  | _ => .last

def Modrm.operand16 (m : Modrm) : Operand where
  base := base16 m.mod m.rm
  index := index16 m.rm
  scale := if index16 m.rm = .last then 0 else 1
  displacement := if m.disp = [] then 0 else signedValue m.disp.length m.disp

structure Instr where
  prefixes : List Prefix
  head : Head
  modrm : Option Modrm
  imm : List (BitVec 8)
  moffset : List (BitVec 8)
deriving DecidableEq

def modrmBytes (modrm : Option Modrm) : List (BitVec 8) :=
  match modrm with
  | some m => m.bytes
  | none => []

def Instr.bytes (i : Instr) : List (BitVec 8) :=
  i.prefixes.map Prefix.byte ++
    (i.head.bytes ++ (modrmBytes i.modrm ++ (i.imm ++ i.moffset)))

def Instr.addrSize (csD : Bool) (i : Instr) : Nat :=
  let override := decide (Prefix.addrsize ∈ i.prefixes)
  if mode = .bits64 then (if override then 4 else 8)
  else if csD = override then 2 else 4

/-- The mandatory prefix a VEX prefix carries counts as the prefix itself. -/
def Instr.has (i : Instr) (p : Prefix) (pp : BitVec 2) : Bool :=
  decide (p ∈ i.prefixes) || decide (i.head.vex.map Vex.pp = some pp)

/-- The operand-size attribute. PUSH, POP and BEXTR settle the size of their own operand when
    they are executed. -/
def Instr.opSize (csD : Bool) (i : Instr) : Nat :=
  let override := i.has .opsize 1
  if mode = .bits64 then (if i.head.rex.w then 8 else if override then 2 else 4)
  else if csD = override then 2 else 4

def lastSegment : List Prefix → Option Segment
  | [] => none
  | .segment s :: rest => (lastSegment rest).getD s
  | _ :: rest => lastSegment rest

inductive Mnemonic where
  | mov | movsx | movzx | movs | stos
  | add | or | adc | sbb | and | sub | xor | cmp
  | test | not | neg | mul | imul | div | idiv
  | inc | dec | call | callFar | jmp | jmpFar | push | pop
  | bt | bts | btr | btc
  | fxsave | fxrstor | ldmxcsr | stmxcsr | xsave | xrstor | xsaveopt
  | clflush | clflushopt | clwb | ptwrite | clrssbsy | sfence
  | bextr | shlx | sarx | shrx
deriving DecidableEq

/-- Group 1: the arithmetic of 80, 81 and 83. -/
def group1 (ext : BitVec 3) : Mnemonic :=
  match ext with
  | 0#3 => .add | 1#3 => .or | 2#3 => .adc | 3#3 => .sbb
  | 4#3 => .and | 5#3 => .sub | 6#3 => .xor | _ => .cmp

def group3 (ext : BitVec 3) : Mnemonic :=
  match ext with
  | 0#3 => .test | 1#3 => .test | 2#3 => .not | 3#3 => .neg
  | 4#3 => .mul | 5#3 => .imul | 6#3 => .div | _ => .idiv

def group5 (ext : BitVec 3) : Option Mnemonic :=
  match ext with
  | 0#3 => some .inc | 1#3 => some .dec | 2#3 => some .call | 3#3 => some .callFar
  | 4#3 => some .jmp | 5#3 => some .jmpFar | 6#3 => some .push | _ => none

def group8 (ext : BitVec 3) : Option Mnemonic :=
  match ext with
  | 4#3 => some .bt | 5#3 => some .bts | 6#3 => some .btr | 7#3 => some .btc
  | _ => none

/-- Group 15, of 0F AE with a memory operand: F2 and F3 come before 66. -/
def group15 (repnz repz opsize : Bool) (ext : BitVec 3) : Option Mnemonic :=
  if repnz then none
  else if repz then
    match ext with
    | 4#3 => some .ptwrite | 6#3 => some .clrssbsy
    | _ => none
  else if opsize then
    match ext with
    | 6#3 => some .clwb | 7#3 => some .clflushopt
    | _ => none
  else
    match ext with
    | 0#3 => some .fxsave | 1#3 => some .fxrstor | 2#3 => some .ldmxcsr | 3#3 => some .stmxcsr
    | 4#3 => some .xsave | 5#3 => some .xrstor | 6#3 => some .xsaveopt | _ => some .clflush

/-- VEX.LZ.0F38 F7, by the mandatory prefix in pp. -/
def vexF7 (pp : BitVec 2) : Mnemonic :=
  match pp with
  | 0#2 => .bextr | 1#2 => .shlx | 2#2 => .sarx | _ => .shrx

def oneByteMnemonic (opcode : BitVec 8) (ext : BitVec 3) : Option Mnemonic :=
  match opcode with
  | 0x03#8 => some .add
  | 0x0b#8 => some .or
  | 0x23#8 => some .and
  | 0x2b#8 => some .sub
  | 0x39#8 | 0x3b#8 => some .cmp
  | 0x80#8 | 0x81#8 | 0x83#8 => some (group1 ext)
  | 0x88#8 | 0x89#8 | 0x8a#8 | 0x8b#8 => some .mov
  | 0x8f#8 => if ext = 0 then some .pop else none
  | 0xa1#8 | 0xa3#8 => some .mov
  | 0xa4#8 | 0xa5#8 => some .movs
  | 0xaa#8 | 0xab#8 => some .stos
  | 0xc6#8 | 0xc7#8 => if ext = 0 then some .mov else none
  | 0xf7#8 => some (group3 ext)
  | 0xff#8 => group5 ext
  | _ => none

def twoByteMnemonic (repnz repz opsize : Bool) (opcode : BitVec 8) (ext : BitVec 3) :
    Option Mnemonic :=
  match opcode with
  | 0xae#8 => group15 repnz repz opsize ext
  | 0xb6#8 | 0xb7#8 => some .movzx
  | 0xba#8 => group8 ext
  | 0xbe#8 => some .movsx
  | _ => none

def Instr.extension (i : Instr) : BitVec 3 := (i.modrm.map Modrm.reg).getD 0

/-- The instruction a spelling stands for, among those that share an opcode with one of the
    decoder's tables. -/
def Instr.mnemonic (i : Instr) : Option Mnemonic :=
  match i.head with
  | .oneByte _ opcode => oneByteMnemonic opcode i.extension
  | .twoByte _ opcode =>
      twoByteMnemonic (decide (Prefix.repnz ∈ i.prefixes)) (decide (Prefix.repz ∈ i.prefixes))
        (decide (Prefix.opsize ∈ i.prefixes)) opcode i.extension
  | .vex0f38 vex opcode => if opcode = 0xf7 then some (vexF7 vex.pp) else none

def Head.opcode : Head → BitVec 8
  | .oneByte _ opcode => opcode
  | .twoByte _ opcode => opcode
  | .vex0f38 _ opcode => opcode

/-- String moves and stores and the moves with a memory offset have no ModRM. -/
def Head.plain : Head → Bool
  | .oneByte _ opcode => opcode ∈ [0xa1, 0xa3, 0xa4, 0xa5, 0xaa, 0xab]
  | .twoByte _ _ => false
  | .vex0f38 _ _ => false

def wordImmediate (opSize : Nat) : Nat := if opSize = 2 then 2 else 4

/-- Bytes of immediate. In group 3 only TEST has one. -/
def Instr.immLength (csD : Bool) (i : Instr) : Nat :=
  match i.head with
  | .oneByte _ opcode =>
      if opcode ∈ [0x80, 0x83, 0xc6] then 1
      else if opcode ∈ [0x81, 0xc7] ∨ (opcode = 0xf7 ∧ group3 i.extension = .test) then
        wordImmediate (i.opSize mode csD)
      else 0
  | .twoByte _ opcode => if opcode = 0xba then 1 else 0
  | .vex0f38 _ _ => 0

def Instr.moffsetLength (csD : Bool) (i : Instr) : Nat :=
  match i.head with
  | .oneByte _ opcode => if opcode ∈ [0xa1, 0xa3] then i.addrSize mode csD else 0
  | .twoByte _ _ => 0
  | .vex0f38 _ _ => 0

/-- Instructions that take LOCK with a memory destination, among those of the tables. -/
def lockable : Mnemonic → Bool
  | .add | .or | .adc | .sbb | .and | .sub | .xor | .not | .neg | .inc | .dec
  | .bts | .btr | .btc => true
  | _ => false

/-- What VEX demands: no legacy mandatory prefix, REX or LOCK, L clear. Outside 64-bit mode R
    and X are clear, for the bytes are LES otherwise, and so are B and the top bit of vvvv,
    which that mode ignores. -/
structure VexLegal (mode : CpuMode) (prefixes : List Prefix) (v : Vex) : Prop where
  virtual : mode ≠ .real
  bare : Prefix.opsize ∉ prefixes ∧ Prefix.repz ∉ prefixes ∧ Prefix.repnz ∉ prefixes
  length : v.l = false
  legacy : mode = .bits64 ∨ (v.r = false ∧ v.x = false ∧ v.b = false ∧ v.reg.toNat < 8)

/-- A legal encoding with a memory operand, of one of the instructions above, in the fifteen
    bytes an instruction may have. -/
structure Legal (mode : CpuMode) (csD : Bool) (i : Instr) : Prop where
  known : i.mnemonic ≠ none
  rex : i.head.hasRex = true → mode = .bits64
  vex : ∀ v ∈ i.head.vex, VexLegal mode i.prefixes v
  lock : Prefix.lock ∈ i.prefixes →
    i.mnemonic.any lockable = true ∧ i.head.opcode ∉ [0x03, 0x0b, 0x23, 0x2b]
  modrm : i.head.plain = true ↔ i.modrm = none
  form : ∀ m ∈ i.modrm, if i.addrSize mode csD = 2 then m.Form16 else m.Form32
  imm : i.imm.length = i.immLength mode csD
  moffset : i.moffset.length = i.moffsetLength mode csD
  size : i.bytes.length ≤ 15

structure Reading where
  op : VieOp
  addrSize : Nat
  opSize : Nat
  segment : Option VmRegName
  reg : BitVec 4
  vexReg : BitVec 4
  operand : Operand
  immediate : BitVec 64
  length : Nat
deriving DecidableEq

def noOperand : Operand := ⟨.last, .last, 0, 0⟩

def Instr.operand (csD : Bool) (i : Instr) : Operand :=
  match i.modrm with
  | some m => if i.addrSize mode csD = 2 then m.operand16 else m.operand32 mode i.head.rex
  | none => { noOperand with displacement := leValue i.moffset }

def Instr.reading (csD : Bool) (i : Instr) : Reading where
  op := i.head.op
  addrSize := i.addrSize mode csD
  opSize := i.opSize mode csD
  segment := (lastSegment i.prefixes).map Segment.name
  reg :=
    match i.modrm with
    | some m => regNumber i.head.rex.r m.reg
    | none => 0
  vexReg := (i.head.vex.map Vex.reg).getD 0
  operand := i.operand mode csD
  immediate := if i.imm = [] then 0 else signedValue i.imm.length i.imm
  length := i.bytes.length

def readingOf (vie : Vie) : Reading where
  op := vie.op
  addrSize := vie.addrsize
  opSize := vie.opsize
  segment := if vie.segmentOverride then some vie.segmentRegister else none
  reg := vie.reg
  vexReg := vie.vexReg
  operand := ⟨vie.baseRegister, vie.indexRegister, vie.scale, vie.displacement⟩
  immediate := vie.immediate
  length := vie.numProcessed

/-- The instructions the emulation of one opcode with these bits carries out, none where it
    returns EINVAL. -/
def emulateMov (op : BitVec 8) : List Mnemonic :=
  if op ∈ [0x88, 0x89, 0x8a, 0x8b, 0xa1, 0xa3, 0xc6, 0xc7] then [.mov] else []

def emulateMovx (op : BitVec 8) : List Mnemonic :=
  if op ∈ [0xb6, 0xb7] then [.movzx] else if op = 0xbe then [.movsx] else []

def emulateAnd (op : BitVec 8) : List Mnemonic := if op ∈ [0x23, 0x81, 0x83] then [.and] else []

def emulateOr (op : BitVec 8) : List Mnemonic := if op ∈ [0x0b, 0x81, 0x83] then [.or] else []

def emulateCmp (op : BitVec 8) : List Mnemonic :=
  if op ∈ [0x39, 0x3b, 0x80, 0x81, 0x83] then [.cmp] else []

def emulateTest (op : BitVec 8) (ext : BitVec 3) : List Mnemonic :=
  if op = 0xf7 ∧ ext = 0 then [.test] else []

def emulateAdd (op : BitVec 8) : List Mnemonic := if op = 0x03 then [.add] else []

def emulateSub (op : BitVec 8) : List Mnemonic := if op = 0x2b then [.sub] else []

def emulatePush (ext : BitVec 3) : List Mnemonic := if ext = 6 then [.push] else []

def emulatePop (ext : BitVec 3) : List Mnemonic := if ext = 0 then [.pop] else []

def emulateGroup1 (op : BitVec 8) (ext : BitVec 3) : List Mnemonic :=
  match ext with
  | 1#3 => emulateOr op
  | 4#3 => emulateAnd op
  | 7#3 => emulateCmp op
  | _ => []

def emulateBittest (ext : BitVec 3) : List Mnemonic := if ext = 4 then [.bt] else []

def emulateTwobGroup15 (direct : Bool) (ext : BitVec 3) : List Mnemonic :=
  if ext = 7 then (if direct then [.sfence] else [.clflush, .clflushopt]) else []

def emulateOp (op : VieOp) (direct : Bool) (ext : BitVec 3) : List Mnemonic :=
  match op.opType with
  | .group1 => emulateGroup1 op.opByte ext
  | .pop => emulatePop ext
  | .push => emulatePush ext
  | .cmp => emulateCmp op.opByte
  | .mov => emulateMov op.opByte
  | .movsx | .movzx => emulateMovx op.opByte
  | .movs => [.movs]
  | .stos => [.stos]
  | .and => emulateAnd op.opByte
  | .or => emulateOr op.opByte
  | .sub => emulateSub op.opByte
  | .bittest => emulateBittest ext
  | .twobGrp15 => emulateTwobGroup15 direct ext
  | .add => emulateAdd op.opByte
  | .test => emulateTest op.opByte ext
  | .bextr => [.bextr]
  | .none | .twoByte => []

/-- The choice vmm_emulate_instruction makes; ModRM.reg is looked at through its low bits. -/
def vmmEmulateInstruction (vie : Vie) : List Mnemonic :=
  if vie.decoded then emulateOp vie.op (decide (vie.mod = 3)) (vie.reg.extractLsb' 0 3) else []

end VmmEncoding
