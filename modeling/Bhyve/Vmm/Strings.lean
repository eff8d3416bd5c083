import Bhyve.Lib.Fallible
import Bhyve.Lib.StepRuns
import Bhyve.TaskSwitch.Vmexit

/-!
The string instructions that vmm_instruction_emul.c emulates, one element at a time. What a transfer
reaches of the guest beside its general registers (its memory and page tables, the device that was
hit, control registers and segments) is a parameter, and so is the address that the exit reports for
the operands. The general registers can always be read and set.
-/
namespace VmmStrings
open Fallible StepRuns VmmDecoder VmmLinearAddress BitVec

inductive Injected where
  | ss
  | gp
  | ac

/-- What a transfer that does not complete leaves: an exception for the guest, an error, or one that
    the assertion of emulate_movs does not expect. -/
inductive Stop where
  | fault
  | error (errno : Nat)
  | unexpected (errno : Nat)

/-- An operand may be in system memory, may fault, or may be in no memory that can be copied. -/
inductive CopySetup (G C : Type) where
  | mapped (copyinfo : C) (g : G)
  | fault (g : G)
  | failed (g : G)

/-- The guest and the functions that a transfer calls. Those to copy release what they copy from. -/
structure Platform (G C : Type) where
  cpuMode : G → CpuMode
  cpl : G → Nat
  cr0 : G → BitVec 64
  segDesc : G → VmRegName → SegDesc
  inject : G → Injected → G
  vmGla2gpa : G → BitVec 64 → Prot → Except (Stop × G) (BitVec 64 × G)
  vmCopySetup : G → BitVec 64 → Nat → Prot → CopySetup G C
  vmCopyin : G → C → Nat → BitVec 64 × G
  vmCopyout : G → C → BitVec 64 → Nat → G
  memread : G → BitVec 64 → Nat → Except (Nat × G) (BitVec 64 × G)
  memwrite : G → BitVec 64 → BitVec 64 → Nat → Except (Nat × G) G
  exitGpa : G → BitVec 64 → BitVec 64 → BitVec 64

structure Regs where
  rax : BitVec 64
  rcx : BitVec 64
  rsi : BitVec 64
  rdi : BitVec 64
  rflags : BitVec 64

structure Cpu (G : Type) where
  regs : Regs
  guest : G

section
variable {G C : Type}

def protRead : Prot := ⟨true, false⟩
def protWrite : Prot := ⟨false, true⟩
def pslD : BitVec 64 := 0x400
def einval : Nat := 22
def efault : Nat := 14

def vieUpdateRegister (origval val : BitVec 64) (size : Nat) : Except Nat (BitVec 64) :=
  match size with
  | 1 | 2 => .ok (val &&& vieSize2mask size ||| origval &&& ~~~vieSize2mask size)
  | 4 => .ok (val &&& 0xffffffff)
  | 8 => .ok val
  | _ => .error einval

variable (P : Platform G C) (vie : Vie)

def getGla (g : G) (rflags : BitVec 64) (opsize : Nat) (prot : Prot)
    (seg : VmRegName) (val : BitVec 64) : Except (Stop × G) (BitVec 64) :=
  let refused := if seg = .ss then Injected.ss else .gp
  match vieCalculateGla (P.cpuMode g) seg (P.segDesc g seg) val opsize vie.addrsize prot with
  | none => .error (.fault, P.inject g refused)
  | some gla =>
      if VmmPageWalk.vieCanonicalCheck (P.cpuMode g) gla then .error (.fault, P.inject g refused)
      else if TaskSwitch.vieAlignmentCheck (P.cpl g) opsize (P.cr0 g) rflags gla then
        .error (.fault, P.inject g .ac)
      else .ok gla

def readMmio (g : G) (gpa : BitVec 64) (opsize : Nat) : Except (Stop × G) (BitVec 64 × G) :=
  (P.memread g gpa opsize).mapError fun failed => (.error failed.1, failed.2)

def writeMmio (g : G) (gpa val : BitVec 64) (opsize : Nat) : Except (Stop × G) G :=
  (P.memwrite g gpa val opsize).mapError fun failed => (.error failed.1, failed.2)

/-- The transfer of emulate_movs, in the cases of its comment. -/
def movsTransfer (opsize : Nat) (gpa : BitVec 64) (g : G) (regs : Regs) : Except (Stop × G) G := do
  let seg := if vie.segmentOverride then vie.segmentRegister else .ds
  let srcaddr ← getGla P vie g regs.rflags opsize protRead seg regs.rsi
  match P.vmCopySetup g srcaddr opsize protRead with
  | .fault g => .error (.fault, g)
  | .mapped copyinfo g => do
      -- case (2)
      let (val, g) := P.vmCopyin g copyinfo opsize
      writeMmio P g gpa val opsize
  | .failed g => do
      let dstaddr ← getGla P vie g regs.rflags opsize protWrite .es regs.rdi
      match P.vmCopySetup g dstaddr opsize protWrite with
      | .fault g => .error (.fault, g)
      | .mapped copyinfo g => do
          -- case (3)
          let (val, g) ← readMmio P g gpa opsize
          .ok (P.vmCopyout g copyinfo val opsize)
      | .failed g => do
          -- case (4)
          let (srcgpa, g) ← P.vmGla2gpa g srcaddr protRead
          let (dstgpa, g) ← P.vmGla2gpa g dstaddr protWrite
          let (val, g) ← readMmio P g srcgpa opsize
          writeMmio P g dstgpa val opsize

def assertMovs : Stop → Stop
  | .error errno => if errno = 0 ∨ errno = efault then .error errno else .unexpected errno
  | stop => stop

def movsAsserted (opsize : Nat) (gpa : BitVec 64) (g : G) (regs : Regs) : Except (Stop × G) G :=
  (movsTransfer P vie opsize gpa g regs).mapError fun failed => (assertMovs failed.1, failed.2)

def stosTransfer (opsize : Nat) (gpa : BitVec 64) (g : G) (regs : Regs) : Except (Stop × G) G :=
  writeMmio P g gpa regs.rax opsize

/-- How an emulation ends: with the instruction done, with its restart, without the transfer, or in
    a failed assertion. -/
inductive Ending where
  | done
  | restart
  | stopped (stop : Stop)
  | assertion

def repeats (vie : Vie) : Bool := vie.repzPresent || vie.repnzPresent

def stride (rflags r : BitVec 64) (opsize : Nat) : BitVec 64 :=
  if rflags &&& pslD ≠ 0 then r - BitVec.ofNat 64 opsize else r + BitVec.ofNat 64 opsize

/-- The index registers after an element. MOVS has a source and STOS has none. -/
def stepIndexes (opsize : Nat) (source : Bool) (regs : Regs) : Except Nat Regs := do
  let rsi ←
    if source then vieUpdateRegister regs.rsi (stride regs.rflags regs.rsi opsize) vie.addrsize
    else .ok regs.rsi
  let rdi ← vieUpdateRegister regs.rdi (stride regs.rflags regs.rdi opsize) vie.addrsize
  .ok { regs with rsi, rdi }

def stepCount (regs : Regs) : Except Nat (Ending × Regs) :=
  if repeats vie then do
    let rcx ← vieUpdateRegister regs.rcx (regs.rcx - 1) vie.addrsize
    .ok (if (regs.rcx - 1) &&& vieSize2mask vie.addrsize ≠ 0 then .restart else .done,
      { regs with rcx })
  else .ok (.done, regs)

def emulateString (opsize : Nat) (source : Bool)
    (transfer : G → Regs → Except (Stop × G) G) (cpu : Cpu G) : Ending × Cpu G :=
  if repeats vie ∧ cpu.regs.rcx &&& vieSize2mask vie.addrsize = 0 then (.done, cpu)
  else
    match transfer cpu.guest cpu.regs with
    | .error (stop, guest) => (.stopped stop, { cpu with guest })
    | .ok guest =>
        match stepIndexes vie opsize source cpu.regs >>= stepCount vie with
        | .error _ => (.assertion, { cpu with guest })
        | .ok (ending, regs) => (ending, ⟨regs, guest⟩)

def movsOpsize (vie : Vie) : Nat := if vie.op.opByte = 0xa4 then 1 else vie.opsize
def stosOpsize (vie : Vie) : Nat := if vie.op.opByte = 0xaa then 1 else vie.opsize

def emulateMovs (gpa : BitVec 64) (cpu : Cpu G) : Ending × Cpu G :=
  emulateString vie (movsOpsize vie) true (movsAsserted P vie (movsOpsize vie) gpa) cpu

def emulateStos (gpa : BitVec 64) (cpu : Cpu G) : Ending × Cpu G :=
  emulateString vie (stosOpsize vie) false (stosTransfer P (stosOpsize vie) gpa) cpu

def cut (r : BitVec 64) : BitVec 64 := r &&& vieSize2mask vie.addrsize

def reportedGpa (g : G) (regs : Regs) : BitVec 64 :=
  P.exitGpa g (cut vie regs.rsi) (cut vie regs.rdi)

def emulateAgain (emulate : Cpu G → Ending × Cpu G) : Nat → Cpu G → Ending × Cpu G
  | 0, cpu => (.restart, cpu)
  | fuel + 1, cpu =>
      match emulate cpu with
      | (.restart, cpu) => emulateAgain emulate fuel cpu
      | (ending, cpu) => (ending, cpu)

def repMovs (vie : Vie) : Nat → Cpu G → Ending × Cpu G :=
  emulateAgain fun cpu => emulateMovs P vie (reportedGpa P vie cpu.guest cpu.regs) cpu

def repStos (vie : Vie) : Nat → Cpu G → Ending × Cpu G :=
  emulateAgain fun cpu => emulateStos P vie (reportedGpa P vie cpu.guest cpu.regs) cpu

end

section
variable {vie : Vie}

def AddressSized (vie : Vie) : Prop := vie.addrsize ∈ [2, 4, 8]

section
variable (sized : AddressSized vie)
include sized

theorem cut_to_nat (x : BitVec 64) : (cut vie x).toNat = x.toNat % 2 ^ (8 * vie.addrsize) :=
  size_mask_to_nat sized x

theorem sized_cases : vie.addrsize = 2 ∨ vie.addrsize = 4 ∨ vie.addrsize = 8 := by
  unfold AddressSized at sized
  simp only [List.mem_cons, List.not_mem_nil, or_false] at sized
  exact sized

theorem cut_cut (x : BitVec 64) : cut vie (cut vie x) = cut vie x := by
  apply eq_of_toNat_eq
  rw [cut_to_nat sized, cut_to_nat sized, Nat.mod_mod]

theorem cut_add (x d : BitVec 64) : cut vie (cut vie x + d) = cut vie (x + d) := by
  apply eq_of_toNat_eq
  rw [cut_to_nat sized, cut_to_nat sized, toNat_add, toNat_add, cut_to_nat sized]
  rcases sized_cases sized with two | four | eight
  · rw [two]
    omega
  · rw [four]
    omega
  · rw [eight]
    omega

theorem cut_add_congr {x y : BitVec 64} (same : cut vie x = cut vie y)
    (d : BitVec 64) : cut vie (x + d) = cut vie (y + d) := by
  rw [← cut_add sized x, same, cut_add sized]

end

def HighKept (vie : Vie) (before after : BitVec 64) : Prop :=
  vie.addrsize = 2 →
    after &&& ~~~vieSize2mask vie.addrsize = before &&& ~~~vieSize2mask vie.addrsize

/-- A register that has been taken to a value in the address size. -/
structure Moved (vie : Vie) (before after target : BitVec 64) : Prop where
  low : cut vie after = cut vie target
  high : HighKept vie before after

theorem merged_low (val origval mask : BitVec 64) :
    (val &&& mask ||| origval &&& ~~~mask) &&& mask = val &&& mask := by
  apply eq_of_getLsbD_eq
  intro i inside
  cases bit : mask[i] <;> simp [bit, inside]

theorem merged_high (val origval mask : BitVec 64) :
    (val &&& mask ||| origval &&& ~~~mask) &&& ~~~mask = origval &&& ~~~mask := by
  apply eq_of_getLsbD_eq
  intro i inside
  cases bit : mask[i] <;> simp [bit, inside]

theorem update_moves (sized : AddressSized vie) (origval val : BitVec 64) :
    ∃ v, vieUpdateRegister origval val vie.addrsize = .ok v ∧ Moved vie origval v val := by
  rcases sized_cases sized with two | four | eight
  · have merged : vieUpdateRegister origval val vie.addrsize =
        .ok (val &&& vieSize2mask vie.addrsize ||| origval &&& ~~~vieSize2mask vie.addrsize) := by
      rw [two]
      rfl
    exact ⟨_, merged, merged_low val origval _, fun _ => merged_high val origval _⟩
  · have extended : vieUpdateRegister origval val vie.addrsize = .ok (cut vie val) := by
      unfold cut
      rw [four]
      rfl
    refine ⟨_, extended, cut_cut sized val, ?_⟩
    intro two
    rw [four] at two
    cases two
  · have set : vieUpdateRegister origval val vie.addrsize = .ok val := by
      rw [eight]
      rfl
    refine ⟨_, set, rfl, ?_⟩
    intro two
    rw [eight] at two
    cases two

theorem moved_again {before first last target next : BitVec 64} (once : Moved vie before first target)
    (again : Moved vie first last next) : Moved vie before last next :=
  ⟨again.low, fun two => (again.high two).trans (once.high two)⟩

def strided (rflags r : BitVec 64) (opsize k : Nat) : BitVec 64 :=
  if rflags &&& pslD ≠ 0 then r - BitVec.ofNat 64 (k * opsize) else r + BitVec.ofNat 64 (k * opsize)

theorem strided_zero (rflags r : BitVec 64) (opsize : Nat) : strided rflags r opsize 0 = r := by
  unfold strided
  rw [Nat.zero_mul]
  split
  · exact BitVec.sub_zero r
  · exact BitVec.add_zero r

theorem stride_add (rflags r : BitVec 64) (opsize : Nat) : stride rflags r opsize =
      r + if rflags &&& pslD ≠ 0 then -BitVec.ofNat 64 opsize else BitVec.ofNat 64 opsize := by
  unfold stride
  split
  · exact BitVec.sub_eq_add_neg r _
  · rfl

theorem stride_strided (rflags r : BitVec 64) (opsize k : Nat) :
    stride rflags (strided rflags r opsize k) opsize = strided rflags r opsize (k + 1) := by
  unfold stride strided
  rw [Nat.succ_mul, ofNat_add]
  split
  · rw [BitVec.sub_sub]
  · rw [BitVec.add_assoc]

end

section
variable {G C : Type} {vie : Vie} {opsize : Nat} {source : Bool}

def count (vie : Vie) (regs : Regs) : Nat := (cut vie regs.rcx).toNat

def elementRegs (vie : Vie) (opsize : Nat) (source : Bool) (regs : Regs) (k : Nat) : Regs :=
  { regs with
    rsi := cut vie (if source then strided regs.rflags regs.rsi opsize k else regs.rsi)
    rdi := cut vie (strided regs.rflags regs.rdi opsize k) }

/-- The k-th transfer, which says how many came before it where it stops. -/
def element (vie : Vie) (opsize : Nat) (source : Bool) (transfer : G → Regs → Except (Stop × G) G)
    (regs : Regs) (g : G) (k : Nat) : Except (Nat × Stop × G) G :=
  (transfer g (elementRegs vie opsize source regs k)).mapError fun stopped => (k, stopped)

structure Shows (vie : Vie) (opsize : Nat) (source : Bool) (before : Regs) (k : Nat)
    (after : Regs) : Prop where
  count : (cut vie after.rcx).toNat + k = count vie before
  countHigh : HighKept vie before.rcx after.rcx
  rdi : Moved vie before.rdi after.rdi (strided before.rflags before.rdi opsize k)
  rsi : Moved vie before.rsi after.rsi
    (if source then strided before.rflags before.rsi opsize k else before.rsi)
  rax : after.rax = before.rax
  rflags : after.rflags = before.rflags
  untouched : k = 0 → after = before

def SeesCut (vie : Vie) (transfer : G → Regs → Except (Stop × G) G) : Prop :=
  ∀ g regs regs', regs'.rax = regs.rax → regs'.rflags = regs.rflags →
    cut vie regs'.rsi = cut vie regs.rsi → cut vie regs'.rdi = cut vie regs.rdi →
      transfer g regs' = transfer g regs

variable {transfer : G → Regs → Except (Stop × G) G} {before regs : Regs} {k : Nat}

theorem shows_start (vie : Vie) (opsize : Nat) (source : Bool) (regs : Regs) :
    Shows vie opsize source regs 0 regs := by
  have still : ∀ r : BitVec 64, Moved vie r r r := fun r => ⟨rfl, fun _ => rfl⟩
  refine ⟨rfl, fun _ => rfl, ?_, ?_, rfl, rfl, fun _ => rfl⟩
  · rw [strided_zero]
    exact still regs.rdi
  · rw [strided_zero, ite_self]
    exact still regs.rsi

section
variable (sized : AddressSized vie)
include sized

theorem shows_sees (sees : SeesCut vie transfer)
    (shows_ : Shows vie opsize source before k regs) (g : G) :
    transfer g regs = transfer g (elementRegs vie opsize source before k) := by
  refine sees g (elementRegs vie opsize source before k) regs shows_.rax shows_.rflags ?_ ?_
  · exact shows_.rsi.low.trans (cut_cut sized _).symm
  · exact shows_.rdi.low.trans (cut_cut sized _).symm

theorem index_moves {before r : BitVec 64} {rflags : BitVec 64}
    (moved : Moved vie before r (strided rflags before opsize k)) :
    ∃ r', vieUpdateRegister r (stride rflags r opsize) vie.addrsize = .ok r' ∧
      Moved vie before r' (strided rflags before opsize (k + 1)) := by
  obtain ⟨r', updated, again⟩ := update_moves sized r (stride rflags r opsize)
  have further : cut vie (stride rflags r opsize) =
      cut vie (strided rflags before opsize (k + 1)) := by
    rw [← stride_strided, stride_add, stride_add]
    exact cut_add_congr sized moved.low _
  have whole := moved_again moved again
  exact ⟨r', updated, whole.low.trans further, whole.high⟩

theorem count_moves {r : BitVec 64} (some_ : 0 < (cut vie r).toNat) :
    ∃ r', vieUpdateRegister r (r - 1) vie.addrsize = .ok r' ∧ HighKept vie r r' ∧
      (cut vie r').toNat + 1 = (cut vie r).toNat ∧ cut vie r' = cut vie (r - 1) := by
  obtain ⟨r', updated, moved⟩ := update_moves sized r (r - 1)
  refine ⟨r', updated, moved.high, ?_, moved.low⟩
  rw [moved.low, cut_to_nat sized, toNat_sub]
  rw [cut_to_nat sized] at some_ ⊢
  have one : (1 : BitVec 64).toNat = 1 := rfl
  rcases sized_cases sized with two | four | eight
  · rw [two] at some_ ⊢
    omega
  · rw [four] at some_ ⊢
    omega
  · rw [eight] at some_ ⊢
    omega

theorem indexes_move (shows_ : Shows vie opsize source before k regs) :
    ∃ rsi rdi, stepIndexes vie opsize source regs = .ok { regs with rsi, rdi } ∧
      Moved vie before.rsi rsi
        (if source then strided before.rflags before.rsi opsize (k + 1) else before.rsi) ∧
      Moved vie before.rdi rdi (strided before.rflags before.rdi opsize (k + 1)) := by
  have still := shows_.rsi
  obtain ⟨rdi, updated, moved⟩ := index_moves sized shows_.rdi
  unfold stepIndexes
  rw [shows_.rflags]
  cases source with
  | false => exact ⟨regs.rsi, rdi, bind_ok updated, still, moved⟩
  | true =>
    obtain ⟨rsi, updated', moved'⟩ := index_moves sized still
    exact ⟨rsi, rdi, (bind_ok updated').trans (bind_ok updated), moved', moved⟩

theorem shows_next (repeated : repeats vie = true)
    (shows_ : Shows vie opsize source before k regs) (more : k < count vie before) :
    ∃ regs', stepIndexes vie opsize source regs >>= stepCount vie =
        .ok (if k + 1 = count vie before then .done else .restart, regs') ∧
      Shows vie opsize source before (k + 1) regs' := by
  obtain ⟨rsi, rdi, indexes, movedSi, movedDi⟩ := indexes_move sized shows_
  have left_ := shows_.count
  have some_ : 0 < (cut vie regs.rcx).toNat := by omega
  obtain ⟨rcx, updated, high, less, low⟩ := count_moves sized some_
  have ending : (if (regs.rcx - 1) &&& vieSize2mask vie.addrsize ≠ 0 then Ending.restart else .done) =
      if k + 1 = count vie before then .done else .restart := by
    have same : (regs.rcx - 1) &&& vieSize2mask vie.addrsize = cut vie rcx := low.symm
    rw [same]
    by_cases last : k + 1 = count vie before
    · have zero : cut vie rcx = 0 := eq_of_toNat_eq (by
        have none_ : (cut vie rcx).toNat = 0 := by omega
        exact none_)
      rw [if_pos last, if_neg (not_not.mpr zero)]
    · have nonzero : cut vie rcx ≠ 0 := by
        intro zero
        have none_ : (cut vie rcx).toNat = 0 := congrArg BitVec.toNat zero
        omega
      rw [if_neg last, if_pos nonzero]
  refine ⟨{ regs with rsi, rdi, rcx }, ?_, ?_⟩
  · rw [bind_ok indexes]
    unfold stepCount
    rw [if_pos repeated]
    rw [bind_ok updated, ending]
  · refine ⟨?_, ?_, movedDi, movedSi, shows_.rax, shows_.rflags, ?_⟩
    · dsimp only
      omega
    · exact fun two => (high two).trans (shows_.countHigh two)
    · intro zero
      cases zero

end

/-- Transfers that all complete leave the instruction done, and one that stops leaves what came
    before it. -/
def Finishes (vie : Vie) (opsize : Nat) (source : Bool) (before : Regs)
    (transfers : Except (Nat × Stop × G) G) (ended : Ending × Cpu G) : Prop :=
  match transfers with
  | .ok g => ended.1 = .done ∧ ended.2.guest = g ∧
      Shows vie opsize source before (count vie before) ended.2.regs
  | .error (k, stop, g) => k < count vie before ∧ ended.1 = .stopped stop ∧ ended.2.guest = g ∧
      Shows vie opsize source before k ended.2.regs

theorem string_run (sized : AddressSized vie) (repeated : repeats vie = true)
    (sees : SeesCut vie transfer) (m : Nat) : ∀ (k fuel : Nat) (cpu : Cpu G),
      Shows vie opsize source before k cpu.regs → k + m = count vie before → m < fuel →
        Finishes vie opsize source before
          (attempts (element vie opsize source transfer before) cpu.guest (List.range' k m))
          (emulateAgain (emulateString vie opsize source transfer) fuel cpu) := by
  induction m with
  | zero =>
    intro k fuel cpu shows_ all enough
    obtain ⟨fuel, rfl⟩ : ∃ f, fuel = f + 1 := ⟨fuel - 1, by omega⟩
    have left_ := shows_.count
    have zero : cpu.regs.rcx &&& vieSize2mask vie.addrsize = 0 := eq_of_toNat_eq (by
      have none_ : (cut vie cpu.regs.rcx).toNat = 0 := by omega
      exact none_)
    rw [Nat.add_zero] at all
    rw [all] at shows_
    unfold emulateAgain emulateString
    rw [if_pos ⟨repeated, zero⟩]
    exact ⟨rfl, rfl, shows_⟩
  | succ m ih =>
    intro k fuel cpu shows_ all enough
    obtain ⟨fuel, rfl⟩ : ∃ f, fuel = f + 1 := ⟨fuel - 1, by omega⟩
    have left_ := shows_.count
    have more : k < count vie before := by omega
    have nonzero : ¬(repeats vie ∧ cpu.regs.rcx &&& vieSize2mask vie.addrsize = 0) := by
      rintro ⟨-, zero⟩
      have none_ : (cut vie cpu.regs.rcx).toNat = 0 := congrArg BitVec.toNat zero
      omega
    have seen := shows_sees sized sees shows_ cpu.guest
    rw [List.range'_succ]
    unfold emulateAgain emulateString attempts element
    rw [if_neg nonzero, seen]
    cases transfer cpu.guest (elementRegs vie opsize source before k) with
    | error stopped => exact ⟨more, rfl, rfl, shows_⟩
    | ok g =>
      obtain ⟨regs', stepped, shows'⟩ := shows_next sized repeated shows_ more
      rw [stepped]
      by_cases last : k + 1 = count vie before
      · have none_ : m = 0 := by omega
        rw [if_pos last, none_]
        rw [last] at shows'
        exact ⟨rfl, rfl, shows'⟩
      · rw [if_neg last]
        exact ih (k + 1) fuel ⟨regs', g⟩ shows' (by omega) (by omega)

end

section
variable {G C : Type} {vie : Vie} (P : Platform G C)

def stosReported (vie : Vie) (g : G) (regs : Regs) : Except (Stop × G) G :=
  stosTransfer P (stosOpsize vie) (reportedGpa P vie g regs) g regs

def movsReported (vie : Vie) (g : G) (regs : Regs) : Except (Stop × G) G :=
  movsAsserted P vie (movsOpsize vie) (reportedGpa P vie g regs) g regs

theorem reported_cut {regs regs' : Regs} (g : G)
    (rsi : cut vie regs'.rsi = cut vie regs.rsi) (rdi : cut vie regs'.rdi = cut vie regs.rdi) :
    reportedGpa P vie g regs' = reportedGpa P vie g regs := by
  unfold reportedGpa
  rw [rsi, rdi]

theorem stos_sees (vie : Vie) : SeesCut vie (stosReported P vie) := by
  intro g regs regs' rax _ rsi rdi
  unfold stosReported stosTransfer
  rw [reported_cut P g rsi rdi, rax]

theorem calculate_gla_cut {cpuMode : CpuMode} {seg : VmRegName} {desc : SegDesc}
    {val val' : BitVec 64} {length : Nat} {prot : Prot} (same : cut vie val' = cut vie val) :
    vieCalculateGla cpuMode seg desc val' length vie.addrsize prot =
      vieCalculateGla cpuMode seg desc val length vie.addrsize prot := by
  have masked : val' &&& vieSize2mask vie.addrsize = val &&& vieSize2mask vie.addrsize := same
  have limits : withinLimits desc vie.addrsize length val' =
      withinLimits desc vie.addrsize length val := by
    cases length with
    | zero => rfl
    | succ length =>
      unfold withinLimits
      rw [masked]
  unfold vieCalculateGla segmentAllows
  rw [limits, masked]

theorem get_gla_cut {g : G} {rflags val val' : BitVec 64} {opsize : Nat}
    {prot : Prot} {seg : VmRegName} (same : cut vie val' = cut vie val) :
    getGla P vie g rflags opsize prot seg val' = getGla P vie g rflags opsize prot seg val := by
  unfold getGla
  rw [calculate_gla_cut same]

theorem movs_sees (vie : Vie) : SeesCut vie (movsReported P vie) := by
  intro g regs regs' _ rflags rsi rdi
  have source : ∀ (g : G) (opsize : Nat) (prot : Prot) (seg : VmRegName),
      getGla P vie g regs'.rflags opsize prot seg regs'.rsi =
        getGla P vie g regs.rflags opsize prot seg regs.rsi := by
    intro g opsize prot seg
    rw [rflags]
    exact get_gla_cut P rsi
  have destination : ∀ (g : G) (opsize : Nat) (prot : Prot) (seg : VmRegName),
      getGla P vie g regs'.rflags opsize prot seg regs'.rdi =
        getGla P vie g regs.rflags opsize prot seg regs.rdi := by
    intro g opsize prot seg
    rw [rflags]
    exact get_gla_cut P rdi
  unfold movsReported movsAsserted movsTransfer
  simp only [reported_cut P g rsi rdi, source, destination]

def stosElements (vie : Vie) (cpu : Cpu G) : Except (Nat × Stop × G) G :=
  attempts (element vie (stosOpsize vie) false (stosReported P vie) cpu.regs) cpu.guest
    (List.range (count vie cpu.regs))

def movsElements (vie : Vie) (cpu : Cpu G) : Except (Nat × Stop × G) G :=
  attempts (element vie (movsOpsize vie) true (movsReported P vie) cpu.regs) cpu.guest
    (List.range (count vie cpu.regs))

/-- A repeated string instruction performs the transfers of its elements one after the other, until
    all are done or one of them stops, and the registers show those that completed. -/
theorem rep_strings (P : Platform G C) (vie : Vie) (sized : AddressSized vie)
    (repeated : repeats vie = true) (cpu : Cpu G) (fuel : Nat)
    (enough : count vie cpu.regs < fuel) :
    Finishes vie (stosOpsize vie) false cpu.regs (stosElements P vie cpu)
      (repStos P vie fuel cpu) ∧
    Finishes vie (movsOpsize vie) true cpu.regs (movsElements P vie cpu)
      (repMovs P vie fuel cpu) := by
  have all : 0 + count vie cpu.regs = count vie cpu.regs := Nat.zero_add _
  unfold stosElements movsElements
  rw [List.range_eq_range']
  constructor
  · exact string_run sized repeated (stos_sees P vie) (count vie cpu.regs) 0 fuel cpu
      (shows_start vie (stosOpsize vie) false cpu.regs) all enough
  · exact string_run sized repeated (movs_sees P vie) (count vie cpu.regs) 0 fuel cpu
      (shows_start vie (movsOpsize vie) true cpu.regs) all enough

def noting : Platform (List (BitVec 64 × BitVec 64)) Unit where
  cpuMode := fun _ => .real
  cpl := fun _ => 0
  cr0 := fun _ => 0
  segDesc := fun _ _ => ⟨0, 0xffff, 0x93⟩
  inject := fun g _ => g
  vmGla2gpa := fun g gla _ => .ok (gla, g)
  vmCopySetup := fun g _ _ _ => .failed g
  vmCopyin := fun g _ _ => (0, g)
  vmCopyout := fun g _ _ _ => g
  memread := fun g gpa _ => .ok (gpa, g)
  memwrite := fun g gpa val _ => .ok (g ++ [(gpa, val)])
  exitGpa := fun _ _ rdi => rdi

def repWords : Vie :=
  { vieInit [] with repzPresent := true, addrsize := 2, opsize := 2 }

def twoWords : Cpu (List (BitVec 64 × BitVec 64)) :=
  ⟨⟨0x5a, 0xabc0002, 0x10, 0x123fffe, 0⟩, []⟩

theorem rep_strings_two :
    AddressSized repWords ∧ repeats repWords = true ∧ count repWords twoWords.regs < 3 ∧
    Finishes repWords (stosOpsize repWords) false twoWords.regs
      (stosElements noting repWords twoWords) (repStos noting repWords 3 twoWords) ∧
    Finishes repWords (movsOpsize repWords) true twoWords.regs
      (movsElements noting repWords twoWords) (repMovs noting repWords 3 twoWords) := by
  have sized : AddressSized repWords := by
    unfold AddressSized
    decide
  have enough : count repWords twoWords.regs < 3 := by decide
  exact ⟨sized, rfl, enough, rep_strings noting repWords sized rfl twoWords 3 enough⟩

example : (repStos noting repWords 3 twoWords).2.guest = [(0xfffe, 0x5a), (0, 0x5a)] ∧
    (repStos noting repWords 3 twoWords).2.regs.rdi = 0x1230002 := by decide

end

end VmmStrings
