import Mathlib.Algebra.Group.Nat.Defs
import Mathlib.Data.List.Basic

/-!
The instruction decoder of the hypervisor: up to fifteen bytes of an instruction that faulted on
device memory go through the stages of vmm_decode_instruction, each returning none where the source
returns -1, into a struct vie. The valid bytes of vie->inst are a list, so num_valid is its length.
-/
namespace VmmDecoder

inductive CpuMode where
  | real
  | protectedMode
  | compatibility
  | bits64
deriving DecidableEq

inductive VmRegName where
  | rax | rcx | rdx | rbx | rsp | rbp | rsi | rdi
  | r8 | r9 | r10 | r11 | r12 | r13 | r14 | r15
  | rip
  | es | cs | ss | ds | fs | gs
  | last
deriving DecidableEq

inductive OpType where
  | none | mov | movsx | movzx | and | or | sub | twoByte | push | cmp | pop | movs | group1
  | stos | bittest | twobGrp15 | add | test | bextr
deriving DecidableEq

structure VieOp where
  opByte : BitVec 8
  opType : OpType
  imm : Bool
  imm8 : Bool
  moffset : Bool
  noModrm : Bool
  noGlaVerification : Bool
deriving DecidableEq

def noOp : VieOp := ⟨0, .none, false, false, false, false, false⟩

def plainOp (x : BitVec 8) (type : OpType) : VieOp := { noOp with opByte := x, opType := type }

def threeByteOpcodes0f38 (x : BitVec 8) : VieOp :=
  match x with
  | 0xf7#8 => plainOp x .bextr
  | _ => noOp

def twoByteOpcodes (x : BitVec 8) : VieOp :=
  match x with
  | 0xae#8 => plainOp x .twobGrp15
  | 0xb6#8 => plainOp x .movzx
  | 0xb7#8 => plainOp x .movzx
  | 0xba#8 => { plainOp x .bittest with imm8 := true }
  | 0xbe#8 => plainOp x .movsx
  | _ => noOp

def oneByteOpcodes (x : BitVec 8) : VieOp :=
  match x with
  | 0x03#8 => plainOp x .add
  | 0x0f#8 => plainOp x .twoByte
  | 0x0b#8 => plainOp x .or
  | 0x2b#8 => plainOp x .sub
  | 0x39#8 => plainOp x .cmp
  | 0x3b#8 => plainOp x .cmp
  | 0x88#8 => plainOp x .mov
  | 0x89#8 => plainOp x .mov
  | 0x8a#8 => plainOp x .mov
  | 0x8b#8 => plainOp x .mov
  | 0xa1#8 => { plainOp x .mov with moffset := true, noModrm := true }
  | 0xa3#8 => { plainOp x .mov with moffset := true, noModrm := true }
  | 0xa4#8 => { plainOp x .movs with noModrm := true, noGlaVerification := true }
  | 0xa5#8 => { plainOp x .movs with noModrm := true, noGlaVerification := true }
  | 0xaa#8 => { plainOp x .stos with noModrm := true, noGlaVerification := true }
  | 0xab#8 => { plainOp x .stos with noModrm := true, noGlaVerification := true }
  | 0xc6#8 => { plainOp x .mov with imm8 := true }
  | 0xc7#8 => { plainOp x .mov with imm := true }
  | 0x23#8 => plainOp x .and
  | 0x80#8 => { plainOp x .group1 with imm8 := true }
  | 0x81#8 => { plainOp x .group1 with imm := true }
  | 0x83#8 => { plainOp x .group1 with imm8 := true }
  | 0x8f#8 => plainOp x .pop
  | 0xf7#8 => { plainOp x .test with imm := true }
  | 0xff#8 => plainOp x .push
  | _ => noOp

def gprMap (r : BitVec 4) : VmRegName :=
  match r with
  | 0#4 => .rax | 1#4 => .rcx | 2#4 => .rdx | 3#4 => .rbx
  | 4#4 => .rsp | 5#4 => .rbp | 6#4 => .rsi | 7#4 => .rdi
  | 8#4 => .r8 | 9#4 => .r9 | 10#4 => .r10 | 11#4 => .r11
  | 12#4 => .r12 | 13#4 => .r13 | 14#4 => .r14 | _ => .r15

structure Vie where
  inst : List (BitVec 8)
  numProcessed : Nat
  opsizeOverride : Bool
  addrsizeOverride : Bool
  repzPresent : Bool
  repnzPresent : Bool
  segmentOverride : Bool
  segmentRegister : VmRegName
  rexPresent : Bool
  rexW : Bool
  rexR : Bool
  rexX : Bool
  rexB : Bool
  vexPresent : Bool
  vexReg : BitVec 4
  vexL : Bool
  vexPp : BitVec 2
  op : VieOp
  addrsize : Nat
  opsize : Nat
  mod : BitVec 2
  reg : BitVec 4
  rm : BitVec 4
  ss : BitVec 2
  index : BitVec 4
  base : BitVec 4
  dispBytes : Nat
  immBytes : Nat
  scale : Nat
  baseRegister : VmRegName
  indexRegister : VmRegName
  displacement : BitVec 64
  immediate : BitVec 64
  decoded : Bool

def vieInit (instBytes : List (BitVec 8)) : Vie :=
  { inst := instBytes
    numProcessed := 0
    opsizeOverride := false
    addrsizeOverride := false
    repzPresent := false
    repnzPresent := false
    segmentOverride := false
    segmentRegister := .last
    rexPresent := false
    rexW := false
    rexR := false
    rexX := false
    rexB := false
    vexPresent := false
    vexReg := 0
    vexL := false
    vexPp := 0
    op := noOp
    addrsize := 0
    opsize := 0
    mod := 0
    reg := 0
    rm := 0
    ss := 0
    index := 0
    base := 0
    dispBytes := 0
    immBytes := 0
    scale := 0
    baseRegister := .last
    indexRegister := .last
    displacement := 0
    immediate := 0
    decoded := false }

def viePeek (vie : Vie) : Option (BitVec 8) := vie.inst[vie.numProcessed]?

def vieAdvance (vie : Vie) : Vie := { vie with numProcessed := vie.numProcessed + 1 }

def segmentOverride (x : BitVec 8) : Option VmRegName :=
  match x with
  | 0x2e#8 => some .cs
  | 0x36#8 => some .ss
  | 0x3e#8 => some .ds
  | 0x26#8 => some .es
  | 0x64#8 => some .fs
  | 0x65#8 => some .gs
  | _ => none

variable (vie : Vie)

def notePrefix (x : BitVec 8) : Option Vie :=
  if x = 0x66 then some { vie with opsizeOverride := true }
  else if x = 0x67 then some { vie with addrsizeOverride := true }
  else if x = 0xf3 then some { vie with repzPresent := true }
  else if x = 0xf2 then some { vie with repnzPresent := true }
  else
    match segmentOverride x with
    | some seg => some { vie with segmentOverride := true, segmentRegister := seg }
    | none => none

def legacyPrefixes : List (BitVec 8) → Vie → Option (Vie × BitVec 8)
  | [], _ => none
  | x :: rest, vie =>
      match notePrefix vie x with
      | some noted => legacyPrefixes rest (vieAdvance noted)
      | none => some (vie, x)

def decodeRex (x : BitVec 8) : Vie :=
  vieAdvance { vie with
    rexPresent := true
    rexW := decide (x &&& 0x8 ≠ 0)
    rexR := decide (x &&& 0x4 ≠ 0)
    rexX := decide (x &&& 0x2 ≠ 0)
    rexB := decide (x &&& 0x1 ≠ 0) }

def notePp (pp : BitVec 2) : Vie :=
  match pp with
  | 1#2 => { vie with opsizeOverride := true }
  | 2#2 => { vie with repzPresent := true }
  | 3#2 => { vie with repnzPresent := true }
  | _ => vie

/-- The three-byte VEX prefix and the opcode behind it. The fields R, X, B and vvvv are
    stored inverted. -/
def decodeVex (vie : Vie) : Option Vie := do
  let vie := vieAdvance { vie with vexPresent := true }
  let x ← viePeek vie
  let vie := { vie with
    rexR := decide (x &&& 0x80 = 0)
    rexX := decide (x &&& 0x40 = 0)
    rexB := decide (x &&& 0x20 = 0) }
  if x &&& 0x1f ≠ 0x2 then none
  else
    let vie := vieAdvance vie
    let x ← viePeek vie
    let vie := { vie with
      rexW := decide (x &&& 0x80 ≠ 0)
      vexReg := (~~~x).extractLsb' 3 4
      vexL := decide (x &&& 0x4 ≠ 0)
      vexPp := x.extractLsb' 0 2 }
    let vie := vieAdvance (notePp vie vie.vexPp)
    let x ← viePeek vie
    let vie := { vie with op := threeByteOpcodes0f38 x }
    if vie.op.opType = .none then none else some (vieAdvance vie)

def setSizes (cpuMode : CpuMode) (csD : Bool) : Vie :=
  if cpuMode = .bits64 then
    { vie with
      addrsize := if vie.addrsizeOverride then 4 else 8
      opsize := if vie.rexW then 8 else if vie.opsizeOverride then 2 else 4 }
  else if csD then
    { vie with
      addrsize := if vie.addrsizeOverride then 2 else 4
      opsize := if vie.opsizeOverride then 2 else 4 }
  else
    { vie with
      addrsize := if vie.addrsizeOverride then 4 else 2
      opsize := if vie.opsizeOverride then 4 else 2 }

/-- The byte that ended the prefix loop is also the one tested for VEX, so a VEX prefix
    behind a REX prefix is not taken for one. -/
def decodePrefixes (cpuMode : CpuMode) (csD : Bool) : Option Vie := do
  let (vie, x) ← legacyPrefixes (vie.inst.drop vie.numProcessed) vie
  let vie := if cpuMode = .bits64 ∧ 0x40 ≤ x.toNat ∧ x.toNat ≤ 0x4f then decodeRex vie x else vie
  let vie ←
    if (cpuMode = .bits64 ∨ cpuMode = .compatibility) ∧ x = 0xc4 then decodeVex vie else some vie
  some (setSizes vie cpuMode csD)

def decodeTwoByteOpcode (vie : Vie) : Option Vie := do
  let x ← viePeek vie
  let vie := { vie with op := twoByteOpcodes x }
  if vie.op.opType = .none then none else some (vieAdvance vie)

def decodeOpcode (vie : Vie) : Option Vie := do
  let x ← viePeek vie
  if vie.op.opType ≠ .none then some vie
  else
    let vie := { vie with op := oneByteOpcodes x }
    if vie.op.opType = .none then none
    else
      let vie := vieAdvance vie
      if vie.op.opType = .twoByte then decodeTwoByteOpcode vie else some vie

def rexBit (b : Bool) : BitVec 4 := if b then 8 else 0

def decodeModrm (cpuMode : CpuMode) : Option Vie := do
  if vie.op.noModrm then some vie
  else if cpuMode = .real then none
  else
    let x ← viePeek vie
    let mod := x.extractLsb' 6 2
    let rm := (x.extractLsb' 0 3).setWidth 4
    let reg := (x.extractLsb' 3 3).setWidth 4
    if mod = 3 then none
    else
      let rm := if (mod = 0 ∧ rm = 5) ∨ (mod ≠ 3 ∧ rm = 4) then rm else rm ||| rexBit vie.rexB
      let vie := { vie with mod := mod, rm := rm, reg := reg ||| rexBit vie.rexR }
      if mod ≠ 3 ∧ rm = 4 then some (vieAdvance vie)
      else
        let vie := { vie with baseRegister := gprMap rm }
        let vie :=
          match mod with
          | 1#2 => { vie with dispBytes := 1 }
          | 2#2 => { vie with dispBytes := 4 }
          | _ =>
              if rm = 5 then
                { vie with
                  dispBytes := 4
                  baseRegister := if cpuMode = .bits64 then .rip else .last }
              else vie
        some (vieAdvance vie)

/-- The displacement and base of a SIB byte: with mod 0, %rbp and %r13 stand for no base. -/
def noteSibBase (vie : Vie) : Vie :=
  let disp :=
    match vie.mod with
    | 1#2 => 1
    | 2#2 => 4
    | _ => vie.dispBytes
  if vie.mod = 0 ∧ (vie.base = 5 ∨ vie.base = 13) then { vie with dispBytes := 4 }
  else { vie with dispBytes := disp, baseRegister := gprMap vie.base }

def noteSibIndex (vie : Vie) : Vie :=
  let vie := if vie.index ≠ 4 then { vie with indexRegister := gprMap vie.index } else vie
  if vie.indexRegister ≠ .last then { vie with scale := 1 <<< vie.ss.toNat } else vie

def decodeSib (vie : Vie) : Option Vie := do
  if vie.mod = 3 ∨ vie.rm ≠ 4 then some vie
  else
    let x ← viePeek vie
    let vie := { vie with
      ss := x.extractLsb' 6 2
      index := (x.extractLsb' 3 3).setWidth 4 ||| rexBit vie.rexX
      base := (x.extractLsb' 0 3).setWidth 4 ||| rexBit vie.rexB }
    some (vieAdvance (noteSibIndex (noteSibBase vie)))

def takeBytes : Nat → Vie → Option (List (BitVec 8) × Vie)
  | 0, vie => some ([], vie)
  | n + 1, vie => do
      let x ← viePeek vie
      let (rest, vie) ← takeBytes n (vieAdvance vie)
      some (x :: rest, vie)

def leValue : List (BitVec 8) → BitVec 64
  | [] => 0
  | b :: rest => b.setWidth 64 ||| (leValue rest <<< 8)

def signedValue (n : Nat) (bytes : List (BitVec 8)) : BitVec 64 :=
  ((leValue bytes).setWidth (8 * n)).signExtend 64

def decodeDisplacement (vie : Vie) : Option Vie := do
  if vie.dispBytes = 0 then some vie
  else
    let (bytes, after) ← takeBytes vie.dispBytes vie
    some { after with displacement := signedValue vie.dispBytes bytes }

def immSize (vie : Vie) : Nat :=
  if vie.op.imm then (if vie.opsize = 4 ∨ vie.opsize = 8 then 4 else 2)
  else if vie.op.imm8 then 1
  else vie.immBytes

def decodeImmediate (vie : Vie) : Option Vie := do
  let vie := { vie with immBytes := immSize vie }
  if vie.immBytes = 0 then some vie
  else
    let (bytes, after) ← takeBytes vie.immBytes vie
    some { after with immediate := signedValue vie.immBytes bytes }

def decodeMoffset (vie : Vie) : Option Vie := do
  if vie.op.moffset then
    let (bytes, after) ← takeBytes vie.addrsize vie
    some { after with displacement := leValue bytes }
  else some vie

/-- The decoder without the check of the guest linear address, as it is built outside the
    kernel. -/
def vmmDecodeInstruction (cpuMode : CpuMode) (csD : Bool) (vie : Vie) : Option Vie := do
  let vie ← decodePrefixes vie cpuMode csD
  let vie ← decodeOpcode vie
  let vie ← decodeModrm vie cpuMode
  let vie ← decodeSib vie
  let vie ← decodeDisplacement vie
  let vie ← decodeImmediate vie
  let vie ← decodeMoffset vie
  some { vie with decoded := true }

end VmmDecoder
