import Bhyve.Rtc.Vrtc
import Mathlib.Algebra.GroupWithZero.Nat

/-!
The save half of vm_snapshot_req, and the restore of the vcpus. Of what a routine only copies out,
the bytes are kept in that order; the time stamp counters and the clock, which are changed on the
way, are kept as such. The buffer is mapped: copyout and copyin do not fail. Uptime is the 32.32
number of the clock.
-/
namespace VmmSnapshot
open Rtc List

abbrev Fields := List (List (BitVec 8))

inductive Errno where
  | e2big | einval
deriving DecidableEq

structure Vcpu where
  fields : Fields
  tscOffset : BitVec 64

/-- The fields of a virtual machine. A vmcs or vmcb that is in use on another processor is not
    read. -/
structure Vm where
  vmx : Fields
  vmcx : List (Option Fields)
  vcpu : List Vcpu
  vioapic : Fields
  vlapic : Fields
  vhpet : Fields
  vatpic : Fields
  vatpit : Fields
  vpmtmr : Fields
  vrtc : Vrtc
  vrtcDeadline : Int
  vrtcLocked : Bool

inductive Struct where
  | vmx | vmcx | vm | vioapic | vlapic | vhpet | vatpic | vatpit | vpmtmr | vrtc
deriving DecidableEq

structure Buffer where
  buf : List (BitVec 8)
  rem : Nat

def vmSnapshotBuf (b : Buffer) (data : List (BitVec 8)) : Option Errno × Buffer :=
  if b.rem < data.length then (some .e2big, b)
  else (none, ⟨b.buf ++ data, b.rem - data.length⟩)

def snapshotOrLeave : Fields → Buffer → Option Errno × Buffer
  | [], b => (none, b)
  | data :: rest, b =>
      match vmSnapshotBuf b data with
      | (none, b) => snapshotOrLeave rest b
      | failed => failed

/-- The fields of a vmcs: all are tried, and the errors are added up. -/
def snapshotEach : Fields → Buffer → Option Errno × Buffer
  | [], b => (none, b)
  | data :: rest, b =>
      let (error, b) := vmSnapshotBuf b data
      let (later, b) := snapshotEach rest b
      (error.orElse fun _ => later, b)

def vmSnapshotVmcx : List (Option Fields) → Buffer → Option Errno × Buffer
  | [], b => (none, b)
  | none :: _, b => (some .einval, b)
  | some fields :: rest, b =>
      match snapshotEach fields b with
      | (none, b) => vmSnapshotVmcx rest b
      | failed => failed

def bytesOf (n x : Nat) : List (BitVec 8) := (List.range n).map fun i => BitVec.ofNat 8 (x >>> (8 * i))

def Vcpu.copied (c : Vcpu) : Fields := c.fields ++ [bytesOf 8 c.tscOffset.toNat]

def Vcpu.shift (c : Vcpu) (now : BitVec 64) : Vcpu := { c with tscOffset := c.tscOffset + now }
def Vcpu.unshift (c : Vcpu) (now : BitVec 64) : Vcpu := { c with tscOffset := c.tscOffset - now }

/-- What is stored for the counters is what the guest reads. The offsets are put back only after all
    fields have been copied. -/
def vmSnapshotVm (vm : Vm) (now : BitVec 64) (b : Buffer) : Option Errno × Vm × Buffer :=
  let shifted := { vm with vcpu := vm.vcpu.map (·.shift now) }
  match snapshotOrLeave (shifted.vcpu.flatMap Vcpu.copied) b with
  | (none, b) => (none, { vm with vcpu := shifted.vcpu.map (·.unshift now) }, b)
  | (error, b) => (error, shifted, b)

def rtcFields (v : Vrtc) : Fields :=
  let block (first n : Nat) := (List.range n).map fun i => v.rtcdev (first + i)
  [bytesOf 4 v.addr, bytesOf 8 (BitVec.ofInt 64 v.baseRtctime).toNat] ++
    ((List.range 14).map fun i => [v.rtcdev i]) ++ [block 14 36, [v.rtcdev rtcCentury], block 51 77]

/-- The callout is reset and the lock given back only after all fields have been copied; a lock that is
    held is waited for. -/
def vrtcSnapshot (vm : Vm) (uptime : Int) (b : Buffer) : Option (Option Errno × Vm × Buffer) :=
  if vm.vrtcLocked then none
  else
    match snapshotOrLeave (rtcFields vm.vrtc) b with
    | (none, b) =>
        let freq := vrtcFreq vm.vrtc
        some (none, { vm with
          vrtc := vrtcCalloutReset vm.vrtc freq
          vrtcDeadline := if freq = 0 then vm.vrtcDeadline else uptime + freq }, b)
    | (error, b) => some (error, { vm with vrtcLocked := true }, b)

def vmSnapshotReq (vm : Vm) (now : BitVec 64) (uptime : Int) (req : Struct) (b : Buffer) :
    Option (Option Errno × Vm × Buffer) :=
  let plain (done : Option Errno × Buffer) := some (done.1, vm, done.2)
  match req with
  | .vmx => plain (snapshotOrLeave vm.vmx b)
  | .vmcx => plain (vmSnapshotVmcx vm.vmcx b)
  | .vm => some (vmSnapshotVm vm now b)
  | .vioapic => plain (snapshotOrLeave vm.vioapic b)
  | .vlapic => plain (snapshotOrLeave vm.vlapic b)
  | .vhpet => plain (snapshotOrLeave vm.vhpet b)
  | .vatpic => plain (snapshotOrLeave vm.vatpic b)
  | .vatpit => plain (snapshotOrLeave vm.vatpit b)
  | .vpmtmr => plain (snapshotOrLeave vm.vpmtmr b)
  | .vrtc => vrtcSnapshot vm uptime b

/-- Saved or refused for want of room, the virtual machine is what it was. -/
def NoEffect (vm : Vm) (now : BitVec 64) (uptime : Int) (req : Struct) (b : Buffer) : Prop :=
  ∀ error vm' b', vmSnapshotReq vm now uptime req b = some (error, vm', b') →
    error = none ∨ error = some .e2big → vm' = vm

def size (fields : Fields) : Nat := (fields.map List.length).sum

def CalloutSet (vm : Vm) (uptime : Int) : Prop :=
  if vrtcFreq vm.vrtc = 0 then vm.vrtc.callout.active = false ∨ vm.vrtc.callout = ⟨false, false⟩
  else vm.vrtc.callout = ⟨true, true⟩ ∧ vm.vrtcDeadline = uptime + vrtcFreq vm.vrtc

def RoomFor (vm : Vm) (now : BitVec 64) (uptime : Int) (req : Struct) (b : Buffer) : Prop :=
  match req with
  | .vm => size (vm.vcpu.flatMap Vcpu.copied) ≤ b.rem ∨ now = 0 ∨ vm.vcpu = []
  | .vrtc => vm.vrtcLocked = true ∨ size (rtcFields vm.vrtc) ≤ b.rem ∧ CalloutSet vm uptime
  | _ => True

section

theorem size_cons (data : List (BitVec 8)) (rest : Fields) :
    size (data :: rest) = data.length + size rest := sum_cons

theorem size_append (first second : Fields) : size (first ++ second) = size first + size second := by
  simp [size]

theorem snapshot_or_leave (fields : Fields) : ∀ b,
    (size fields ≤ b.rem → (snapshotOrLeave fields b).1 = none) ∧
      (b.rem < size fields → (snapshotOrLeave fields b).1 = some .e2big) := by
  induction fields with
  | nil => exact fun b => ⟨fun _ => rfl, fun never => absurd never (Nat.not_lt_zero _)⟩
  | cons data rest ih =>
    intro b
    rw [size_cons]
    unfold snapshotOrLeave vmSnapshotBuf
    by_cases small : b.rem < data.length
    · rw [if_pos small]
      exact ⟨fun room => absurd small (by omega), fun _ => rfl⟩
    · rw [if_neg small]
      obtain ⟨fits, short⟩ := ih ⟨b.buf ++ data, b.rem - data.length⟩
      refine ⟨fun room => fits ?_, fun more => short ?_⟩
      · show size rest ≤ b.rem - data.length
        omega
      · show b.rem - data.length < size rest
        omega

theorem size_shift (vcpus : List Vcpu) (now : BitVec 64) :
    size ((vcpus.map (·.shift now)).flatMap Vcpu.copied) = size (vcpus.flatMap Vcpu.copied) := by
  induction vcpus with
  | nil => rfl
  | cons c rest ih =>
    rw [map_cons, flatMap_cons, flatMap_cons, size_append, size_append, ih]
    simp [size, Vcpu.copied, Vcpu.shift, bytesOf]

theorem shift_unshift (vcpus : List Vcpu) (now : BitVec 64) :
    (vcpus.map (·.shift now)).map (·.unshift now) = vcpus := by
  rw [List.map_map]
  refine map_id'' (fun c => ?_) vcpus
  show Vcpu.mk c.fields (c.tscOffset + now - now) = c
  rw [BitVec.add_sub_cancel]

theorem shift_eq_iff {vcpus : List Vcpu} {now : BitVec 64} :
    vcpus.map (·.shift now) = vcpus ↔ now = 0 ∨ vcpus = [] := by
  constructor
  · cases vcpus with
    | nil => exact fun _ => .inr rfl
    | cons c rest =>
      intro same
      have first : c.tscOffset + now = c.tscOffset :=
        congrArg Vcpu.tscOffset (List.cons.inj same).1
      exact .inl (by simpa using first)
  · rintro (rfl | rfl)
    · exact map_id'' (fun c => by simp [Vcpu.shift]) vcpus
    · rfl

variable {vm : Vm} {now : BitVec 64} {uptime : Int} {req : Struct} {b : Buffer}

theorem vm_no_effect : NoEffect vm now uptime .vm b ↔ RoomFor vm now uptime .vm b := by
  obtain ⟨fits, short⟩ := snapshot_or_leave ((vm.vcpu.map (·.shift now)).flatMap Vcpu.copied) b
  rw [size_shift] at fits short
  unfold NoEffect RoomFor
  simp only [vmSnapshotReq, vmSnapshotVm]
  generalize snapshotOrLeave _ b = copied at fits short ⊢
  obtain ⟨error, rest⟩ := copied
  by_cases room : size (vm.vcpu.flatMap Vcpu.copied) ≤ b.rem
  · cases fits room
    refine iff_of_true (fun error vm' b' ran _ => ?_) (.inl room)
    cases ran
    rw [shift_unshift]
  · cases short (Nat.lt_of_not_le room)
    rw [or_iff_right room, ← shift_eq_iff]
    refine ⟨fun same => ?_, fun same error vm' b' ran _ => ?_⟩
    · exact congrArg Vm.vcpu (same _ _ _ rfl (.inr rfl))
    · cases ran
      rw [same]

theorem callout_set_iff :
    ({ vm with
        vrtc := vrtcCalloutReset vm.vrtc (vrtcFreq vm.vrtc)
        vrtcDeadline := if vrtcFreq vm.vrtc = 0 then vm.vrtcDeadline
          else uptime + vrtcFreq vm.vrtc } : Vm) = vm ↔ CalloutSet vm uptime := by
  obtain ⟨vmx, vmcx, vcpu, vioapic, vlapic, vhpet, vatpic, vatpit, vpmtmr, vrtc, deadline, locked⟩ := vm
  obtain ⟨addr, baseUptime, baseRtctime, rtcdev, callout, irqPulses⟩ := vrtc
  unfold CalloutSet vrtcCalloutReset
  dsimp only
  generalize vrtcFreq _ = freq
  split
  · next none_left =>
    cases active : callout.active with
    | false => simp
    | true => simp [eq_comm]
  · next some_left => simp [eq_comm]

theorem vrtc_no_effect : NoEffect vm now uptime .vrtc b ↔ RoomFor vm now uptime .vrtc b := by
  obtain ⟨fits, short⟩ := snapshot_or_leave (rtcFields vm.vrtc) b
  unfold NoEffect RoomFor
  simp only [vmSnapshotReq, vrtcSnapshot]
  by_cases locked : vm.vrtcLocked = true
  · rw [if_pos locked]
    exact iff_of_true nofun (.inl locked)
  rw [if_neg locked, or_iff_right locked]
  generalize snapshotOrLeave _ b = copied at fits short ⊢
  obtain ⟨error, rest⟩ := copied
  by_cases room : size (rtcFields vm.vrtc) ≤ b.rem
  · cases fits room
    rw [and_iff_right room, ← callout_set_iff]
    refine ⟨fun same => same _ _ _ rfl (.inl rfl), fun same error vm' b' ran _ => ?_⟩
    cases ran
    exact same
  · cases short (Nat.lt_of_not_le room)
    refine iff_of_false (fun same => locked ?_) fun both => room both.1
    exact (congrArg Vm.vrtcLocked (same _ _ _ rfl (.inr rfl))).symm

/-- A save has no effect on the virtual machine just when the two routines that change it on the way
    come to their ends, and the callout of the clock was about to be set as it is. -/
theorem save_no_effect_iff : NoEffect vm now uptime req b ↔ RoomFor vm now uptime req b := by
  cases req with
  | vm => exact vm_no_effect
  | vrtc => exact vrtc_no_effect
  | _ =>
    refine iff_of_true (fun error vm' b' ran _ => ?_) trivial
    cases ran
    rfl

def idleClock : Vrtc := ⟨0, 0, 0, fun _ => 0, ⟨false, false⟩, 0⟩

def oneVcpu : Vm := ⟨[], [], [⟨[], 0⟩], [], [], [], [], [], [], idleClock, 0, false⟩

theorem failed_save_shifts : ¬ ∀ vm now uptime req b, NoEffect vm now uptime req b := by
  intro always
  have same := always oneVcpu 1 0 .vm ⟨[], 0⟩ _ _ _ rfl (.inr rfl)
  exact absurd (congrArg (fun vm => vm.vcpu.map Vcpu.tscOffset) same) (by decide)

end

def restoreOrLeave : Fields → List (BitVec 8) → Option Errno × Fields × List (BitVec 8)
  | [], b => (none, [], b)
  | data :: rest, b =>
      if b.length < data.length then (some .e2big, data :: rest, b)
      else
        let (error, rest, left) := restoreOrLeave rest (b.drop data.length)
        (error, b.take data.length :: rest, left)

def wordOf (bytes : List (BitVec 8)) : Nat := bytes.foldr (fun byte n => byte.toNat + 256 * n) 0

def restoreVcpus : List Vcpu → List (BitVec 8) → Option Errno × List Vcpu × List (BitVec 8)
  | [], b => (none, [], b)
  | c :: rest, b =>
      let (error, copied, b) := restoreOrLeave c.copied b
      let c := ⟨copied.dropLast, BitVec.ofNat 64 (wordOf (copied.getLastD []))⟩
      match error with
      | none =>
          let (error, rest, b) := restoreVcpus rest b
          (error, c :: rest, b)
      | error => (error, c :: rest, b)

/-- vm_restore_time hands VM_RESTORE_TSC the offset from now, which is stored: no vcpu runs. -/
def vmRestoreTime (vcpus : List Vcpu) (now : BitVec 64) : List Vcpu := vcpus.map (·.unshift now)

theorem word_bytes (x : BitVec 64) : BitVec.ofNat 64 (wordOf (bytesOf 8 x.toNat)) = x := by
  have small := x.isLt
  apply BitVec.eq_of_toNat_eq
  simp [wordOf, bytesOf, range_succ, Nat.shiftRight_eq_div_pow]
  omega

theorem restored_fields (fields : Fields) : ∀ (old : Fields) (later : List (BitVec 8)),
    old.map List.length = fields.map List.length →
    restoreOrLeave old (fields.flatten ++ later) = (none, fields, later) := by
  induction fields with
  | nil =>
    intro old later sizes
    cases List.map_eq_nil_iff.mp sizes
    rfl
  | cons data rest ih =>
    intro old later sizes
    cases old with
    | nil => cases sizes
    | cons first old =>
      obtain ⟨size, sizes⟩ := List.cons.inj sizes
      rw [flatten_cons, List.append_assoc, restoreOrLeave, size, drop_left, take_left,
        ih old later sizes, if_neg]
      rw [length_append]
      omega

theorem saved_fields (fields : Fields) : ∀ b b', snapshotOrLeave fields b = (none, b') →
    b'.buf = b.buf ++ fields.flatten := by
  induction fields with
  | nil =>
    intro b b' saved
    cases saved
    exact (append_nil _).symm
  | cons data rest ih =>
    intro b b' saved
    unfold snapshotOrLeave vmSnapshotBuf at saved
    by_cases small : b.rem < data.length
    · rw [if_pos small] at saved
      cases saved
    · rw [if_neg small] at saved
      rw [ih _ _ saved, flatten_cons, List.append_assoc]

def Vcpu.sizes (c : Vcpu) : List Nat := c.fields.map List.length

theorem restored_vcpus (saved : List Vcpu) : ∀ (fresh : List Vcpu) (later : List (BitVec 8)),
    fresh.map Vcpu.sizes = saved.map Vcpu.sizes →
    restoreVcpus fresh ((saved.flatMap Vcpu.copied).flatten ++ later) = (none, saved, later) := by
  induction saved with
  | nil =>
    intro fresh later sizes
    cases List.map_eq_nil_iff.mp sizes
    rfl
  | cons c rest ih =>
    intro fresh later sizes
    cases fresh with
    | nil => cases sizes
    | cons first fresh =>
      obtain ⟨size, sizes⟩ := List.cons.inj sizes
      have copied : first.copied.map List.length = c.copied.map List.length := by
        unfold Vcpu.sizes at size
        simp [Vcpu.copied, bytesOf, size]
      rw [flatMap_cons, flatten_append, List.append_assoc, restoreVcpus,
        restored_fields c.copied first.copied _ copied]
      dsimp only
      rw [ih fresh later sizes]
      simp [Vcpu.copied, word_bytes]

/-- What a save has written gives a virtual machine of the same shape the fields of each vcpu, and at
    the time of its restore the counters that the guest read at the time of the save. -/
theorem vm_round_trip {vm vm' : Vm} {now : BitVec 64} {b b' : Buffer}
    (saved : vmSnapshotVm vm now b = (none, vm', b')) :
    ∃ bytes, b'.buf = b.buf ++ bytes ∧ ∀ fresh later now',
      fresh.map Vcpu.sizes = vm.vcpu.map Vcpu.sizes → ∃ vcpus,
        restoreVcpus fresh (bytes ++ later) = (none, vcpus, later) ∧
          (vmRestoreTime vcpus now').map (·.shift now') = vm.vcpu.map (·.shift now) := by
  unfold vmSnapshotVm at saved
  dsimp only at saved
  split at saved
  · next _ copied =>
    cases saved
    refine ⟨_, saved_fields _ b _ copied, fun fresh later now' sizes =>
      ⟨_, restored_vcpus _ fresh later ?_, ?_⟩⟩
    · rw [sizes, List.map_map]
      rfl
    · rw [vmRestoreTime, List.map_map, List.map_map]
      refine map_congr_left fun c _ => ?_
      show Vcpu.mk c.fields (c.tscOffset + now - now' + now') = c.shift now
      rw [BitVec.sub_add_cancel]
      rfl
  · next _ _ failed _ =>
    cases saved
    exact absurd rfl failed

def twoVcpus : Vm :=
  ⟨[], [], [⟨[[1, 2], [3]], 7⟩, ⟨[[4], [5, 6, 7]], 0x100⟩], [], [], [], [], [], [], idleClock, 0, false⟩

def otherVcpus : List Vcpu := [⟨[[0x10, 0], [0x20]], 1⟩, ⟨[[0x30], [0, 0x40, 0]], 2⟩]

theorem vm_round_trip_two_vcpus : ∃ vcpus,
    restoreVcpus otherVcpus ((vmSnapshotVm twoVcpus 1 ⟨[], 64⟩).2.2.buf ++ [0xee]) =
        (none, vcpus, [0xee]) ∧
      (vmRestoreTime vcpus 5).map (·.shift 5) =
        [⟨[[1, 2], [3]], 8⟩, ⟨[[4], [5, 6, 7]], 0x101⟩] := by
  obtain ⟨bytes, wrote, back⟩ :=
    vm_round_trip (show vmSnapshotVm twoVcpus 1 ⟨[], 64⟩ = (none, _) from rfl)
  have written : (vmSnapshotVm twoVcpus 1 ⟨[], 64⟩).2.2.buf = bytes := wrote
  rw [written]
  exact back otherVcpus [0xee] 5 rfl

end VmmSnapshot
