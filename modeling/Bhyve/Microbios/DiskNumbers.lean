import Bhyve.Microbios.Transfer
import Bhyve.Microbios.Commands

/-!
Which entry points check a guest's disk number against num_mddisks before they use it as an
index into mddisks.
-/
namespace Microbios
open ByteMemory BlockIf

inductive DiskRequest where
  | int13 (regs : InthRegs)
  | diskParams
  | diskIo

def NamesUnregistered (m : Machine) : DiskRequest → Prop
  | .int13 regs => 0x80 ≤ diskByte regs ∧ m.disks.num ≤ diskIndex regs
  | .diskParams => 0x80 ≤ paramsDisk m ∧ m.disks.num ≤ paramsUnit m
  | .diskIo => 0x80 ≤ (diskIoCmd m).disk ∧ m.disks.num ≤ (diskIoCmd m).index

/-- The functions of INT 13h that index the table with no check of the count. -/
def int13Unchecked : List (BitVec 32) := [0x02, 0x03, 0x48, 0x08]

/-- A request ends in the error path: CF for INT 13h, a result other than 0 for a command. -/
def ReportsMissing (host : Host) (m : Machine) : DiskRequest → Prop
  | .int13 regs => ∃ r, handleInt13 host m regs = .ok r ∧ r.regs.cf = true
  | .diskParams => ∃ m', microbiosDiskParams m = .ok m' ∧ read32 m'.mem cmdResults ≠ 0
  | .diskIo => ∃ m', microbiosDiskIoCmd host m = .ok m' ∧ read32 m'.mem cmdResults ≠ 0

def LeavesTable (host : Host) (m : Machine) : DiskRequest → Prop
  | .int13 regs => ∃ i, handleInt13 host m regs = .error (.diskTable i)
  | .diskParams => ∃ i, microbiosDiskParams m = .error (.diskTable i)
  | .diskIo => ∃ i, microbiosDiskIoCmd host m = .error (.diskTable i)

def usesDisk : DiskRequest → Prop
  | .int13 regs => regHibyte regs.eax ∈ int13DiskFunctions
  | _ => True

structure DiskNumberChecked (host : Host) (m : Machine) (req : DiskRequest) : Prop where
  stays : ¬ LeavesTable host m req
  refused : usesDisk req → NamesUnregistered m req → ReportsMissing host m req

def ChecksCount : DiskRequest → Prop
  | .int13 regs => regHibyte regs.eax ∉ int13Unchecked ∧ regHibyte regs.eax ≠ 0x15
  | .diskParams => True
  | .diskIo => False

variable {m : Machine} {host : Host} {regs : InthRegs}

theorem mddisk_fault {i : Nat} {fault : Fault} (failed : m.mddisk i = .error fault) :
    m.disks.num ≤ i := by
  by_contra inside
  obtain ⟨bc, found⟩ := mddisk_registered m i (Nat.not_le.mp inside)
  rw [found] at failed
  cases failed

theorem int13_unchecked_fault (function : regHibyte regs.eax ∈ int13Unchecked)
    (unregistered : NamesUnregistered m (.int13 regs)) :
    handleInt13 host m regs = .error (.diskTable (diskIndex regs)) := by
  obtain ⟨hard, past⟩ := unregistered
  have notFloppy : ¬ diskByte regs < 0x80 := BitVec.not_lt.mpr hard
  have missing := mddisk_error m (diskIndex regs) past
  rw [handle_int13_error]
  simp only [int13Unchecked, List.mem_cons, List.not_mem_nil, or_false] at function
  rcases function with read | write | extended | geometry
  · rw [switch_chs (Or.inl read), int13Chs, if_neg notFloppy, missing]
  · rw [switch_chs (Or.inr write), int13Chs, if_neg notFloppy, missing]
  · rw [switch_params (Or.inl extended), int13Params, if_neg notFloppy, missing]
  · rw [switch_params (Or.inr geometry), int13Params, if_neg notFloppy, missing]

theorem int13_fault_cases {fault : Fault} (failed : handleInt13 host m regs = .error fault) :
    regHibyte regs.eax ∈ int13Unchecked ∧ NamesUnregistered m (.int13 regs) := by
  rw [handle_int13_error] at failed
  rcases int13_switch_cases host m regs with ⟨-, switched⟩ | chs | edd | params | type |
    ⟨-, switched⟩ | ⟨-, switched⟩
  · rw [switched] at failed
    cases failed
  · rw [switch_chs chs, int13Chs] at failed
    split at failed
    · cases failed
    · rename_i notFloppy
      split at failed
      · rename_i missing
        refine ⟨?_, BitVec.not_lt.mp notFloppy, mddisk_fault missing⟩
        rcases chs with ah | ah <;> rw [ah] <;> decide
      · cases failed
  · rw [switch_edd edd, int13Edd] at failed
    split at failed
    · cases failed
    · split at failed
      · cases failed
      · rename_i valid
        split at failed
        · rename_i missing
          exact absurd (Or.inr (mddisk_fault missing)) valid
        · cases failed
  · rw [switch_params params, int13Params] at failed
    split at failed
    · cases failed
    · rename_i notFloppy
      split at failed
      · rename_i missing
        refine ⟨?_, BitVec.not_lt.mp notFloppy, mddisk_fault missing⟩
        rcases params with ah | ah <;> rw [ah] <;> decide
      · split at failed
        · cases failed
        · dsimp only at failed
          split at failed <;> cases failed
  · rw [switch_type type, int13DiskType] at failed
    split at failed
    · rename_i valid
      split at failed
      · rename_i missing
        exact absurd (mddisk_fault missing) (Nat.not_le.mpr valid.2)
      · cases failed
    · cases failed
  · rw [switched] at failed
    cases failed
  · rw [switched] at failed
    cases failed

theorem int13_checked_refuses (uses : regHibyte regs.eax ∈ int13DiskFunctions)
    (checked : ChecksCount (.int13 regs)) (unregistered : NamesUnregistered m (.int13 regs)) :
    ReportsMissing host m (.int13 regs) := by
  obtain ⟨checked, notType⟩ := checked
  have edd : isEddIo regs := by
    simp only [int13DiskFunctions, int13Unchecked, List.mem_cons, List.not_mem_nil, or_false]
      at uses checked
    unfold isEddIo
    tauto
  have refused : ∃ regs', int13Switch host m regs = .ok (failExit m regs') := by
    rw [switch_edd edd, int13Edd]
    split
    · exact ⟨_, rfl⟩
    · exact ⟨_, if_pos (Or.inr unregistered.2)⟩
  obtain ⟨regs', switched⟩ := refused
  exact ⟨_, handle_int13_of_switch switched, set_cf_cf regs'⟩

theorem int13_type_succeeds (type : regHibyte regs.eax = 0x15)
    (unregistered : NamesUnregistered m (.int13 regs)) : ¬ ReportsMissing host m (.int13 regs) := by
  rintro ⟨r, handled, carry⟩
  have switched := @switch_type host m regs type
  rw [int13DiskType, if_neg fun registered => Nat.not_le.mpr registered.2 unregistered.2] at switched
  rw [handle_int13_of_switch switched] at handled
  cases handled
  rw [show (doneExit m _).leave.regs.cf = false from clear_cf_cf _] at carry
  cases carry

theorem disk_params_refuses (unregistered : NamesUnregistered m .diskParams) :
    ReportsMissing host m .diskParams := by
  refine ⟨_, if_pos (Or.inr unregistered.2), ?_⟩
  simp only [Machine.setResults, read32_write32_same]
  decide

theorem disk_params_stays (host : Host) (m : Machine) : ¬ LeavesTable host m .diskParams := by
  rintro ⟨i, failed⟩
  unfold microbiosDiskParams at failed
  split at failed
  · cases failed
  · rename_i valid
    split at failed
    · rename_i missing
      exact valid (Or.inr (mddisk_fault missing))
    · cases failed

theorem disk_io_leaves_iff (host : Host) (m : Machine) :
    LeavesTable host m .diskIo ↔ NamesUnregistered m .diskIo := by
  simp only [LeavesTable, NamesUnregistered, microbiosDiskIoCmd]
  constructor
  · rintro ⟨i, failed⟩
    split at failed
    · cases failed
    · rename_i notFloppy
      split at failed
      · rename_i missing
        exact ⟨BitVec.not_lt.mp notFloppy, mddisk_fault missing⟩
      · split at failed <;> cases failed
  · rintro ⟨hard, past⟩
    rw [if_neg (BitVec.not_lt.mpr hard), mddisk_error m _ past]
    exact ⟨_, rfl⟩

/-- A request's disk number is validated if and only if the entry point checks the count and fails
    where it is not met, or the number is not past the registered disks. -/
theorem disk_number_checked_iff (host : Host) (m : Machine) (req : DiskRequest) :
    DiskNumberChecked host m req ↔ ChecksCount req ∨ ¬ NamesUnregistered m req := by
  cases req with
  | int13 regs =>
    constructor
    · intro checked
      by_cases unregistered : NamesUnregistered m (.int13 regs)
      · refine Or.inl ⟨fun function => ?_, fun type => ?_⟩
        · exact checked.stays ⟨_, int13_unchecked_fault function unregistered⟩
        · refine int13_type_succeeds type unregistered (checked.refused ?_ unregistered)
          show regHibyte regs.eax ∈ int13DiskFunctions
          rw [type]
          decide
      · exact Or.inr unregistered
    · intro met
      constructor
      · rintro ⟨i, failed⟩
        obtain ⟨unchecked, unregistered⟩ := int13_fault_cases failed
        rcases met with checks | registered
        · exact checks.1 unchecked
        · exact registered unregistered
      · intro uses unregistered
        rcases met with checks | registered
        · exact int13_checked_refuses uses checks unregistered
        · exact absurd unregistered registered
  | diskParams =>
    constructor
    · intro _
      exact Or.inl trivial
    · intro _
      exact ⟨disk_params_stays host m, fun _ unregistered => disk_params_refuses unregistered⟩
  | diskIo =>
    constructor
    · intro checked
      exact Or.inr (mt (disk_io_leaves_iff host m).mpr checked.stays)
    · intro met
      have registered := met.resolve_left id
      exact ⟨mt (disk_io_leaves_iff host m).mp registered,
        fun _ unregistered => absurd unregistered registered⟩

theorem read_uses_missing_disk :
    ¬ DiskNumberChecked allMapped floppyMachine (.int13 (blankRegs 0x0201 0x0001 0x85)) := by
  intro checked
  exact checked.stays ⟨5, int13_unchecked_fault (by decide) ⟨by decide, by decide⟩⟩

end Microbios
