import Bhyve.TaskSwitch.Outcome

/-!
The condition under which a task switch ends as it is to. It follows the order of the checks, up
to the first that ends the switch with a fault.
-/
namespace TaskSwitch
open ByteMemory VmmDecoder VmmLinearAddress StatefulRuns Function BitVec

section

/-- The area can be copied to or from; a page fault ends the switch. -/
def OnCopy (copied : Copied) (faulted : Prop) (mapped : (Nat → Nat) → Prop) : Prop :=
  match copied with
  | .efault => False
  | .fault _ => faulted
  | .mapped iov => mapped iov

variable (host : Host) (exit : VmExit) (m : Machine) (tasks : Tasks)

/-- The descriptor of the new task is within the limit of the GDT. -/
def TargetKept (next : UserDesc → (Nat → Nat) → Prop) : Prop :=
  let ts := exit.taskSwitch
  ts.paging.cpuMode = .protectedMode ∧ isldt ts.tsssel = false ∧ idxsel ts.tsssel ≠ 0 ∧
    descTableLimitCheck m ts.tsssel = true ∧
    OnCopy (descRead host m ts.paging ts.tsssel) True fun iov =>
      let nt := read64 (gather m.mem iov) 0
      tssRefused ts.reason (usdToSegDesc nt) = none →
        OnCopy (tssArea host m ts.paging (usdToSegDesc nt).base) True (next nt)

/-- The task register is one that the processor can have loaded, and its descriptor is within the
    limit of the GDT. -/
def OldKept (next : UserDesc → (Nat → Nat) → Prop) : Prop :=
  let ts := exit.taskSwitch
  ¬ (isldt (m.sel .tr) = true ∨ idxsel (m.sel .tr) = 0) →
    busyTss (m.descs .tr).access = true ∧ descTableLimitCheck m (m.sel .tr) = true ∧
    OnCopy (descRead host m ts.paging (m.sel .tr)) True fun iov =>
      OnCopy (tssArea host m ts.paging (m.descs .tr).base) True
        (next (read64 (gather m.mem iov) 0))

/-- The descriptor of the new task can be written, unless what has been written before it is what was
    there. -/
def MarkKept (next : Prop) : Prop :=
  if exit.taskSwitch.reason = .iret then next
  else OnCopy (markedCopy host exit m tasks) (savedMem host exit m tasks = m.mem) fun _ => next

def LeaveKept (next : Prop) : Prop :=
  if exit.taskSwitch.reason = .iret ∨ exit.taskSwitch.reason = .jmp then
    OnCopy (freedCopy host exit m) True fun _ => MarkKept host exit m tasks next
  else MarkKept host exit m tasks next

/-- No area that is written later takes the busy bit from a descriptor that it covers, or gives it
    one: the last byte that is written over the access byte has the bit as it is to be. -/
def BusyLeft (copied : Copied) (busy : Bool) (later : List Area) : Prop :=
  ∀ iov, copied = .mapped iov → Leaves (fun byte => byte.getLsbD 1 = busy) (iov 5) later

structure MarksKept : Prop where
  newBusy : BusyLeft (newCopy host exit m tasks) true
    (if exit.taskSwitch.reason = .iret then savedArea exit m tasks :: freedAreas host exit m tasks
      else linkedAreas exit m tasks)
  oldBusy : TwoDescs exit m → BusyLeft (oldCopy host exit m) (staysBusy exit tasks)
    (linkedAreas exit m tasks ++ markedAreas host exit m tasks ++ [savedArea exit m tasks])

/-- The error code is not pushed over the busy bits or the back link, but to leave them the same. -/
structure PushLeaves (pushed : Area) : Prop where
  newBusy : BusyLeft (newCopy host exit m tasks) true [pushed]
  oldBusy : TwoDescs exit m → BusyLeft (oldCopy host exit m) (staysBusy exit tasks) [pushed]
  link : nests exit.taskSwitch.reason → ∀ i < 2,
    Leaves (· = (m.sel .tr).extractLsb' (8 * i) 8) (tasks.ntIov i) [pushed]

def pdpteArea (tss : Tss) : Option Nat :=
  host.guest2host ((read32 tss tssCr3 &&& ~~~0x1f).setWidth 64) 32

/-- The page directory pointers of the new task have no reserved bit set. -/
def PdptesKept (mem : Mem) (mode : PagingMode) (tss : Tss) : Prop :=
  mode = .pae → ∃ a, pdpteArea host tss = some a ∧
    ∀ reg ∈ pdpteRegs, pdpteFits (read64 mem (a + reg.2)) = true

end

def Machine.loadPaging (host : Host) (mode : PagingMode) (tss : Tss) (m : Machine) : Machine :=
  if mode = .flat then m
  else
    let m := match if mode = .pae then pdpteArea host tss else none with
      | some a => m.loadPdptes a
      | none => m
    m.setReg .cr3 ((read32 tss tssCr3).setWidth 64)

def enteredPaging (ts : VmTaskSwitch) (tss : Tss) : GuestPaging where
  cr3 := if ts.paging.pagingMode = .flat then ts.paging.cr3 else (read32 tss tssCr3).setWidth 64
  cpl := (selRpl (read16 tss 76)).toNat
  cpuMode := ts.paging.cpuMode
  pagingMode := ts.paging.pagingMode

def enteredSwitch (ts : VmTaskSwitch) (tss : Tss) : VmTaskSwitch :=
  { ts with paging := enteredPaging ts tss }

def enteredState (host : Host) (ts : VmTaskSwitch) (new : NewTask) (otSel : BitVec 16)
    (m : Machine) : Machine :=
  let tss := linkedTss ts.reason otSel new.tss
  let m := (m.loadTask ts.tsssel new).setReg .ldtr ((read16 tss tssLdt).setWidth 64)
  let m := (m.loadPaging host ts.paging.pagingMode tss).loadRegs
    (restoredEflags ts.reason new.tss) tss
  if nests ts.reason then { m with mem := scatter m.mem new.iov tss tss32Size } else m

section
variable {m : Machine} {r : Stop → Machine → Prop}

variable {q : Unit → Machine → Prop} {host : Host} {sel : BitVec 16}

theorem ensures_check (b : Bool) :
    Ensures (check b) m q r ↔ if b then q () m else r .assertion m := by
  cases b <;> rfl

theorem ensures_only_if (c : Prop) [Decidable c] (act : Act Unit) :
    Ensures (onlyIf c act) m q r ↔ if c then Ensures act m q r else q () m := by
  unfold onlyIf
  rw [ensures_ite]
  rfl

theorem ensures_inject (quiet : m.injected = []) (exception : Fault) :
    Ensures (vmInjectFault exception) m q r ↔ q () { m with injected := [exception] } := by
  unfold vmInjectFault
  rw [ensures_bind, ensures_get, ensures_bind, ensures_check, quiet]
  rfl

theorem ensures_copy_setup {q : (Nat → Nat) → Machine → Prop} (quiet : m.injected = [])
    (paging : GuestPaging) (gla : BitVec 64) (len : Nat) (prot : Prot) :
    Ensures (vmCopySetup host paging gla len prot) m q r ↔
      match host.copySetup m.mem paging gla len prot with
      | .efault => r .efault m
      | .fault exception => r .fault { m with injected := [exception] }
      | .mapped iov => q iov m := by
  unfold vmCopySetup
  rw [ensures_bind, ensures_get]
  cases host.copySetup m.mem paging gla len prot with
  | efault => rfl
  | fault exception =>
    rw [ensures_bind, ensures_inject quiet]
    rfl
  | mapped iov => rfl

theorem ensures_refuse {A : Type} {q : A → Machine → Prop} (quiet : m.injected = [])
    (ts : VmTaskSwitch) (vector : Nat) (sel : BitVec 16) : Ensures (refuse ts vector sel) m q r ↔
      r .one { m with injected := [selFault vector sel ts.ext] } := by
  unfold refuse selException
  rw [ensures_bind, ensures_inject quiet]
  rfl

theorem ensures_finish {A : Type} {q : A → Machine → Prop} (quiet : m.injected = [])
    (vector : Nat) (sel : BitVec 16) (ext : Bool) : Ensures (finish vector sel ext) m q r ↔
      r .done { m with injected := [selFault vector sel ext] } := by
  unfold finish selException
  rw [ensures_bind, ensures_inject quiet]
  rfl

/-- No stop that the caller does not expect is one of those that are claimed. -/
structure Strict (r : Stop → Machine → Prop) : Prop where
  assertion : ∀ m, ¬ r .assertion m
  crash : ∀ m, ¬ r .crash m
  one : ∀ m, ¬ r .one m
  efault : ∀ m, ¬ r .efault m

def Pages (host : Host) (m : Machine) (r : Stop → Machine → Prop) : Prop :=
  ∀ exception paging gla len prot, host.copySetup m.mem paging gla len prot = .fault exception →
    r .fault { m with injected := [exception] }

theorem ensures_copy {q : (Nat → Nat) → Machine → Prop} (strict : Strict r)
    (quiet : m.injected = []) (pages : Pages host m r) (paging : GuestPaging) (gla : BitVec 64)
    (len : Nat) (prot : Prot) : Ensures (vmCopySetup host paging gla len prot) m q r ↔
      OnCopy (host.copySetup m.mem paging gla len prot) True fun iov => q iov m := by
  rw [ensures_copy_setup quiet]
  cases copied : host.copySetup m.mem paging gla len prot with
  | efault => exact iff_of_false (strict.efault m) (fun never => never)
  | fault exception => exact iff_of_true (pages _ _ _ _ _ copied) trivial
  | mapped iov => rfl

theorem limit_checked (within : descTableLimitCheck m sel = true) :
    decide ((selLimit sel).setWidth 32 ≤ (m.descs (tableReg sel)).limit) = true := by
  unfold descTableLimitCheck at within
  dsimp only at within
  split at within
  · cases within
  · exact within

theorem ensures_table_setup {q : (Nat → Nat) → Machine → Prop}
    (within : descTableLimitCheck m sel = true) (paging : GuestPaging) (prot : Prot) :
    Ensures (descTableSetup host paging sel prot) m q r ↔
      Ensures (vmCopySetup host paging (descAddress m sel) 8 prot) m q r := by
  unfold descTableSetup
  rw [ensures_bind, ensures_get, ensures_bind, ensures_check, limit_checked within, if_pos rfl]

theorem ensures_table_read {q : UserDesc → Machine → Prop} (strict : Strict r)
    (quiet : m.injected = []) (pages : Pages host m r) (within : descTableLimitCheck m sel = true)
    (paging : GuestPaging) : Ensures (descTableRead host (supPaging paging) sel) m q r ↔
      OnCopy (descRead host m paging sel) True fun iov => q (read64 (gather m.mem iov) 0) m := by
  unfold descTableRead
  rw [ensures_bind, ensures_table_setup within, ensures_copy strict quiet pages]
  rfl

theorem on_copy_congr {copied : Copied} {faulted : Prop} {p q : (Nat → Nat) → Prop}
    (same : ∀ iov, copied = .mapped iov → (p iov ↔ q iov)) :
    OnCopy copied faulted p ↔ OnCopy copied faulted q := by
  cases copied with
  | efault => rfl
  | fault exception => rfl
  | mapped iov => exact same iov rfl

theorem ensures_read_tss {q : UserDesc → Machine → Prop} (strict : Strict r)
    (quiet : m.injected = []) (pages : Pages host m r) (ts : VmTaskSwitch) :
    Ensures (readTssDescriptor host ts sel) m q r ↔
      isldt sel = false ∧ idxsel sel ≠ 0 ∧ descTableLimitCheck m sel = true ∧
        OnCopy (descRead host m ts.paging sel) True fun iov =>
          q (read64 (gather m.mem iov) 0) m := by
  unfold readTssDescriptor
  rw [ensures_bind, ensures_check, ensures_bind, ensures_check, ensures_bind, ensures_get,
    ensures_ite]
  cases local_ : isldt sel with
  | true => exact iff_of_false (strict.assertion m) fun kept => by cases kept.1
  | false =>
    by_cases null : idxsel sel = 0
    · rw [decide_eq_false (not_not_intro null)]
      exact iff_of_false (strict.assertion m) fun kept => kept.2.1 null
    · rw [decide_eq_true null]
      cases within : descTableLimitCheck m sel with
      | true =>
        rw [ensures_table_read strict quiet pages within]
        exact ⟨fun kept => ⟨rfl, null, rfl, kept⟩, fun kept => kept.2.2.2⟩
      | false =>
        unfold selException
        rw [ensures_bind, ensures_inject quiet, ensures_throw]
        exact iff_of_false (strict.one _) fun kept => by cases kept.2.2.1

end

section
variable {host : Host} {exit : VmExit} {m : Machine}

theorem strict_of_ends {r : Stop → Machine → Prop}
    (ends : ∀ stop m, r stop m → chkerr stop = .continue_) : Strict r where
  assertion := fun m fault => by cases ends _ m fault
  crash := fun m fault => by cases ends _ m fault
  one := fun m fault => by cases ends _ m fault
  efault := fun m fault => by cases ends _ m fault

theorem one_fault_strict (host : Host) (ts : VmTaskSwitch) : Strict (OneFault host ts) :=
  strict_of_ends fun _ _ fault => fault.ends

theorem in_old_strict (host : Host) (exit : VmExit) (m : Machine) :
    Strict (FaultsInOld host exit m) :=
  strict_of_ends fun _ _ faults => faults.fault.ends

theorem in_old_faults {stop : Stop} {exception : Fault} (ends : chkerr stop = .continue_)
    (prescribed : Prescribed host exit.taskSwitch { m with injected := [exception] } exception) :
    FaultsInOld host exit m stop { m.exited with injected := [exception] } :=
  ⟨⟨ends, exception, rfl, prescribed⟩, rfl, rfl, rfl⟩

theorem in_old_pages : Pages host m.exited (FaultsInOld host exit m) :=
  fun _ paging gla len prot fails => in_old_faults rfl (.page paging gla len prot fails)

theorem not_tss {type : BitVec 32} (neither : (!isTss32 type && !isTss16 type) = true) :
    type ∉ ([1, 3, 9, 11] : List (BitVec 32)) := by
  intro member
  simp only [List.mem_cons, List.not_mem_nil, or_false] at member
  rcases member with rfl | rfl | rfl | rfl <;> cases neither

theorem refused_check {reason : TaskSwitchReason} {nt : SegDesc} {vector : Nat}
    (refused : tssRefused reason nt = some vector) : TssCheck reason nt vector := by
  unfold tssRefused at refused
  dsimp only at refused
  split at refused
  · next neither =>
    cases refused
    exact .type (not_tss neither)
  split at refused
  · next absent =>
    cases refused
    exact .absent (by simpa using absent)
  split at refused
  · next short =>
    cases refused
    refine .short ?_
    have bound : minlimit (segDescType nt.access) ≤ 103 := by
      unfold minlimit
      split
      · decide
      · decide
    exact BitVec.lt_def.mpr (Nat.lt_of_lt_of_le short bound)
  split at refused
  · next back =>
    cases refused
    rw [Bool.and_eq_true, Bool.not_eq_true'] at back
    exact .available (of_decide_eq_true back.1) back.2
  split at refused
  · next away =>
    cases refused
    rw [Bool.and_eq_true] at away
    exact .busy (of_decide_eq_true away.1) away.2
  · cases refused

theorem null_of_zero {sel : BitVec 16} (global : isldt sel = false) (zero : idxsel sel = 0) :
    nullSel sel = true := by
  apply decide_eq_true
  apply eq_of_getLsbD_eq
  intro i bound
  have high : ∀ j, 3 ≤ j → sel.getLsbD j = false := by
    intro j above
    have shifted : (sel >>> 3).getLsbD (j - 3) = false := by
      rw [show sel >>> 3 = 0 from zero]
      exact getLsbD_zero
    rwa [getLsbD_ushiftRight, Nat.add_sub_cancel' above] at shifted
  have clear : (0 : BitVec 16).getLsbD i = false := getLsbD_zero
  rw [getLsbD_and, clear]
  match i with
  | 0 => exact Bool.and_false _
  | 1 => exact Bool.and_false _
  | 2 => rw [show sel.getLsbD 2 = false from global, Bool.false_and]
  | j + 3 => rw [high (j + 3) (Nat.le_add_left 3 j), Bool.false_and]

theorem accepted_wide {reason : TaskSwitchReason} {nt : SegDesc}
    (accepted : tssRefused reason nt = none) (narrow : isTss16 (segDescType nt.access) = false) :
    isTss32 (segDescType nt.access) = true := by
  cases wide : isTss32 (segDescType nt.access) with
  | true => rfl
  | false =>
    unfold tssRefused at accepted
    dsimp only at accepted
    rw [wide, narrow] at accepted
    cases accepted

theorem accepted_busy {reason : TaskSwitchReason} {nt : SegDesc} (back : reason = .iret)
    (accepted : tssRefused reason nt = none) : tssBusy (segDescType nt.access) = true := by
  cases busy : tssBusy (segDescType nt.access) with
  | true => rfl
  | false =>
    simp only [tssRefused, back, busy, Bool.not_false, decide_true, Bool.true_and, ↓reduceIte] at accepted
    repeat' split at accepted
    all_goals cases accepted

theorem new_area_iff {q : NewTask → Machine → Prop} {nt : UserDesc}
    (reads : ReadsDesc host m exit.taskSwitch.paging exit.taskSwitch.tsssel nt)
    (narrow : isTss16 (ntType nt) = false) :
    Ensures (match tssRefused exit.taskSwitch.reason (usdToSegDesc nt) with
      | some vector => finish vector exit.taskSwitch.tsssel exit.taskSwitch.ext
      | none => do
          let iov ← vmCopySetup host (supPaging exit.taskSwitch.paging) (usdToSegDesc nt).base
            (minlimit (ntType nt) + 1) ⟨true, true⟩
          pure ⟨ntType nt, nt, iov, gather (← get).mem iov⟩) m.exited q (FaultsInOld host exit m) ↔
    (tssRefused exit.taskSwitch.reason (usdToSegDesc nt) = none →
      OnCopy (tssArea host m exit.taskSwitch.paging (usdToSegDesc nt).base) True fun iov =>
        q ⟨ntType nt, nt, iov, gather m.mem iov⟩ m.exited) := by
  have strict := in_old_strict host exit m
  cases refused : tssRefused exit.taskSwitch.reason (usdToSegDesc nt) with
  | some vector =>
    refine iff_of_true ?_ nofun
    exact in_old_faults rfl (.tss reads (refused_check refused))
  | none =>
    have size : minlimit (ntType nt) + 1 = tss32Size := by
      rw [minlimit, ntType, if_pos (accepted_wide refused narrow)]
      rfl
    rw [ensures_bind, size, ensures_copy strict rfl in_old_pages]
    exact ⟨fun kept _ => kept, fun kept => kept rfl⟩

theorem fetch_new_iff {q : NewTask → Machine → Prop}
    (tss32 : ∀ usd, ReadsDesc host m exit.taskSwitch.paging exit.taskSwitch.tsssel usd →
      isTss16 (ntType usd) = false) :
    (exit.taskSwitch.paging.cpuMode = .protectedMode ∧
      Ensures (fetchNew host exit.taskSwitch) m.exited q (FaultsInOld host exit m)) ↔
    TargetKept host exit m fun nt iov => q ⟨ntType nt, nt, iov, gather m.mem iov⟩ m.exited := by
  unfold fetchNew TargetKept
  rw [ensures_bind, ensures_read_tss (in_old_strict host exit m) rfl in_old_pages]
  refine and_congr_right fun _ => and_congr_right fun _ => and_congr_right fun _ =>
    and_congr_right fun _ => on_copy_congr fun iov copied => ?_
  have reads : ReadsDesc host m exit.taskSwitch.paging exit.taskSwitch.tsssel
      (read64 (gather m.mem iov) 0) := ⟨iov, copied, rfl⟩
  exact new_area_iff reads (tss32 _ reads)

theorem fetch_old_iff {q : OldTask → Machine → Prop} :
    Ensures (fetchOld host exit.taskSwitch tss32Size) m.exited q (FaultsInOld host exit m) ↔
    OldKept host exit m fun ot iov => q ⟨m.sel .tr, ot, iov, gather m.mem iov⟩ m.exited := by
  have strict := in_old_strict host exit m
  unfold fetchOld OldKept
  rw [ensures_bind, ensures_get, ensures_ite]
  by_cases never : isldt (m.sel .tr) = true ∨ idxsel (m.sel .tr) = 0
  · rw [if_pos (show isldt (m.exited.sel .tr) = true ∨ idxsel (m.exited.sel .tr) = 0 from never),
      ensures_finish rfl]
    refine iff_of_true ?_ fun used => absurd never used
    refine in_old_faults rfl (.taskRegister ?_)
    cases local_ : isldt (m.sel .tr) with
    | true => exact .inl local_
    | false =>
      have zero := never.resolve_left (by rw [local_]; exact Bool.false_ne_true)
      exact .inr (null_of_zero local_ zero)
  · rw [if_neg (show ¬ (isldt (m.exited.sel .tr) = true ∨ idxsel (m.exited.sel .tr) = 0) from never)]
    obtain ⟨global, used⟩ := not_or.mp never
    rw [ensures_bind, ensures_check, ensures_bind, ensures_read_tss strict rfl in_old_pages]
    cases busy : busyTss (m.descs .tr).access with
    | false =>
      refine iff_of_false ?_ fun kept => by cases (kept never).1
      show ¬ (if busyTss (m.descs .tr).access = true then _ else _)
      rw [busy]
      exact strict.assertion _
    | true =>
      show (if busyTss (m.descs .tr).access = true then _ else _) ↔ _
      rw [busy, if_pos rfl]
      refine Iff.trans ?_ ⟨fun kept _ => kept, fun kept => kept never⟩
      constructor
      · rintro ⟨-, -, within, kept⟩
        refine ⟨rfl, within, (on_copy_congr fun iov copied => ?_).mp kept⟩
        rw [ensures_bind, ensures_copy strict rfl in_old_pages]
        rfl
      · rintro ⟨-, within, kept⟩
        refine ⟨(Bool.not_eq_true _).mp global, used, within,
          (on_copy_congr fun iov copied => ?_).mp kept⟩
        rw [ensures_bind, ensures_copy strict rfl in_old_pages]
        rfl

theorem ensures_table_write {q : Unit → Machine → Prop} {r : Stop → Machine → Prop} {at_ : Machine}
    {sel : BitVec 16} {faulted : Prop} (strict : Strict r) (quiet : at_.injected = [])
    (within : descTableLimitCheck at_ sel = true) (paging : GuestPaging) (desc : UserDesc)
    (pages : ∀ exception, host.copySetup at_.mem paging (descAddress at_ sel) 8 ⟨false, true⟩ =
      .fault exception → (r .fault { at_ with injected := [exception] } ↔ faulted)) :
    Ensures (descTableWrite host paging sel desc) at_ q r ↔
      OnCopy (host.copySetup at_.mem paging (descAddress at_ sel) 8 ⟨false, true⟩) faulted
        fun _ => q () { at_ with
          mem := stored host at_.mem paging (descAddress at_ sel) (descImage desc) 8 } := by
  unfold descTableWrite stored
  rw [ensures_bind, ensures_table_setup within, ensures_copy_setup quiet]
  cases copied : host.copySetup at_.mem paging (descAddress at_ sel) 8 ⟨false, true⟩ with
  | efault => exact iff_of_false (strict.efault _) fun never => never
  | fault exception => exact pages exception copied
  | mapped iov => rfl

theorem mark_iff {tasks : Tasks} {q : UserDesc → Machine → Prop}
    (within : descTableLimitCheck m exit.taskSwitch.tsssel = true) :
    Ensures (if exit.taskSwitch.reason = .iret then pure tasks.nt
      else do
        descTableWrite host (supPaging exit.taskSwitch.paging) exit.taskSwitch.tsssel
          (tasks.nt ||| busyBit)
        pure (tasks.nt ||| busyBit))
      { m.exited with mem := savedMem host exit m tasks } q (FaultsInOld host exit m) ↔
    MarkKept host exit m tasks (q (busyDesc exit tasks)
      { m.exited with mem := markedMem host exit m tasks }) := by
  unfold MarkKept busyDesc markedMem
  split
  · rfl
  · next away =>
    have pages : ∀ exception, markedCopy host exit m tasks = .fault exception →
        (FaultsInOld host exit m .fault
          { m.exited with mem := savedMem host exit m tasks, injected := [exception] } ↔
            savedMem host exit m tasks = m.mem) := by
      intro exception fails
      constructor
      · exact fun faults => faults.mem
      · intro same
        refine ⟨⟨rfl, exception, rfl, ?_⟩, rfl, rfl, same⟩
        exact .page _ _ _ _ fails
    rw [ensures_bind, @ensures_table_write host _ _
      { m.exited with mem := savedMem host exit m tasks } _ _ (in_old_strict host exit m) rfl within
      _ _ pages]
    unfold busyDesc
    rw [if_neg away]
    rfl

theorem leave_old_iff {tasks : Tasks} {new : NewTask} {old : OldTask}
    {q : UserDesc → Machine → Prop} (within : descTableLimitCheck m exit.taskSwitch.tsssel = true)
    (oldWithin : descTableLimitCheck m (m.sel .tr) = true) (wide : isTss16 new.type = false)
    (desc : new.desc = tasks.nt)
    (old_ : old = ⟨m.sel .tr, tasks.ot, tasks.otIov, gather m.mem tasks.otIov⟩) :
    Ensures (leaveOld host exit new old) m.exited q (FaultsInOld host exit m) ↔
      LeaveKept host exit m tasks (q (busyDesc exit tasks)
        { m.exited with mem := markedMem host exit m tasks }) := by
  subst old_
  have saved : ∀ freed, freed = freedMem host exit m tasks →
      (Ensures (do
        onlyIf (isTss16 new.type) (throw .abort)
        vmCopyout (tss32Save (← get) exit.taskSwitch.reason
          ((exit.rip + exit.instLength.setWidth 64).setWidth 32) (gather m.mem tasks.otIov))
          tasks.otIov tss32Size
        if exit.taskSwitch.reason = .iret then pure new.desc
        else
          descTableWrite host (supPaging exit.taskSwitch.paging) exit.taskSwitch.tsssel
            (new.desc ||| busyBit)
          pure (new.desc ||| busyBit)) { m.exited with mem := freed } q (FaultsInOld host exit m) ↔
      MarkKept host exit m tasks (q (busyDesc exit tasks)
        { m.exited with mem := markedMem host exit m tasks })) := by
    rintro freed rfl
    rw [ensures_bind, ensures_only_if, wide, if_neg Bool.false_ne_true, ensures_bind, ensures_get,
      ensures_bind]
    unfold vmCopyout
    rw [ensures_modify, desc]
    exact mark_iff within
  unfold leaveOld LeaveKept
  rw [ensures_bind, ensures_only_if]
  unfold freedMem at saved
  split
  · next freeing =>
    rw [if_pos freeing] at saved
    have pages : ∀ exception, freedCopy host exit m = .fault exception →
        (FaultsInOld host exit m .fault { m.exited with injected := [exception] } ↔ True) :=
      fun exception fails => iff_true_intro (in_old_pages _ _ _ _ _ fails)
    rw [@ensures_table_write host _ _ m.exited _ _ (in_old_strict host exit m) rfl oldWithin _ _ pages]
    exact on_copy_congr fun iov _ => saved _ rfl
  · next keeping =>
    rw [if_neg keeping] at saved
    exact saved _ rfl

theorem target_congr {p q : UserDesc → (Nat → Nat) → Prop}
    (same : ∀ nt iov, ReadsDesc host m exit.taskSwitch.paging exit.taskSwitch.tsssel nt →
      tssArea host m exit.taskSwitch.paging (usdToSegDesc nt).base = .mapped iov →
      tssRefused exit.taskSwitch.reason (usdToSegDesc nt) = none →
      descTableLimitCheck m exit.taskSwitch.tsssel = true → (p nt iov ↔ q nt iov)) :
    TargetKept host exit m p ↔ TargetKept host exit m q := by
  refine and_congr_right fun _ => and_congr_right fun _ => and_congr_right fun _ =>
    and_congr_right fun within => on_copy_congr fun iov copied => forall_congr' fun accepted => ?_
  exact on_copy_congr fun area mapped => same _ _ ⟨iov, copied, rfl⟩ mapped accepted within

theorem old_congr {p q : UserDesc → (Nat → Nat) → Prop}
    (same : ∀ ot iov, ReadsDesc host m exit.taskSwitch.paging (m.sel .tr) ot →
      tssArea host m exit.taskSwitch.paging (m.descs .tr).base = .mapped iov →
      descTableLimitCheck m (m.sel .tr) = true → (p ot iov ↔ q ot iov)) :
    OldKept host exit m p ↔ OldKept host exit m q := by
  refine forall_congr' fun _ => and_congr_right fun _ => and_congr_right fun within =>
    on_copy_congr fun iov copied => on_copy_congr fun area mapped => ?_
  exact same _ _ ⟨iov, copied, rfl⟩ mapped within

theorem prepare_iff {q : NewTask × OldTask → Machine → Prop}
    (tss32 : ∀ usd, ReadsDesc host m exit.taskSwitch.paging exit.taskSwitch.tsssel usd →
      isTss16 (ntType usd) = false) :
    Ensures (prepareSwitch host exit) m.exited q (FaultsInOld host exit m) ↔
      TargetKept host exit m fun nt ntIov => OldKept host exit m fun ot otIov =>
        LeaveKept host exit m ⟨nt, ot, ntIov, otIov⟩
          (q (⟨ntType nt, busyDesc exit ⟨nt, ot, ntIov, otIov⟩, ntIov, gather m.mem ntIov⟩,
              ⟨m.sel .tr, ot, otIov, gather m.mem otIov⟩)
            { m.exited with mem := markedMem host exit m ⟨nt, ot, ntIov, otIov⟩ }) := by
  have begun : Ensures (prepareSwitch host exit) m.exited q (FaultsInOld host exit m) ↔
      exit.taskSwitch.paging.cpuMode = .protectedMode ∧
        Ensures (fetchNew host exit.taskSwitch) m.exited (fun new t => Ensures (do
          let old ← fetchOld host exit.taskSwitch (minlimit new.type + 1)
          let desc ← leaveOld host exit new old
          pure ({ new with desc := desc }, old)) t q (FaultsInOld host exit m))
          (FaultsInOld host exit m) := by
    unfold prepareSwitch
    rw [ensures_bind, ensures_check, ensures_bind]
    by_cases mode : exit.taskSwitch.paging.cpuMode = .protectedMode
    · rw [decide_eq_true mode, if_pos rfl]
      exact ⟨fun ran => ⟨mode, ran⟩, fun kept => kept.2⟩
    · rw [decide_eq_false mode]
      exact iff_of_false ((in_old_strict host exit m).assertion _) fun kept => mode kept.1
  rw [begun, fetch_new_iff tss32]
  refine target_congr fun nt ntIov reads _ accepted within => ?_
  have narrow := tss32 nt reads
  have size : minlimit (ntType nt) + 1 = tss32Size := by
    rw [minlimit, ntType, if_pos (accepted_wide accepted narrow)]
    rfl
  rw [ensures_bind, size, fetch_old_iff]
  refine old_congr fun ot otIov _ _ oldWithin => ?_
  rw [ensures_bind, @leave_old_iff host exit m ⟨nt, ot, ntIov, otIov⟩ _ _ _ within oldWithin narrow
    rfl rfl]
  rfl

end

section
variable {host : Host} {ts : VmTaskSwitch} {m : Machine} {r : Stop → Machine → Prop}

theorem restore_pdptes_iff {q : Unit → Machine → Prop} (strict : Strict r) (quiet : m.injected = [])
    (tss : Tss) : Ensures (restorePdptes host (read32 tss tssCr3)) m q r ↔
      ∃ a, pdpteArea host tss = some a ∧
        (∀ reg ∈ pdpteRegs, pdpteFits (read64 m.mem (a + reg.2)) = true) ∧
        q () (m.loadPdptes a) := by
  unfold restorePdptes pdpteArea
  cases host.guest2host ((read32 tss tssCr3 &&& ~~~0x1f).setWidth 64) 32 with
  | none => exact iff_of_false (strict.crash _) fun found => by cases found.choose_spec.1
  | some a =>
    rw [ensures_bind, ensures_get, ensures_ite]
    split
    · next fits =>
      have all := List.all_eq_true.mp fits
      constructor
      · exact fun kept => ⟨a, rfl, all, kept⟩
      · rintro ⟨b, same, -, kept⟩
        cases same
        exact kept
    · next reserved =>
      rw [ensures_bind, ensures_inject quiet]
      refine iff_of_false (strict.one _) ?_
      rintro ⟨b, same, all, -⟩
      cases same
      exact reserved (List.all_eq_true.mpr all)

theorem restore_paging_iff {q : VmTaskSwitch → Machine → Prop} (strict : Strict r)
    (quiet : m.injected = []) (tss : Tss) :
    Ensures (restorePaging host ts tss) m q r ↔
      PdptesKept host m.mem ts.paging.pagingMode tss ∧
        q { ts with paging := { ts.paging with
            cr3 := if ts.paging.pagingMode = .flat then ts.paging.cr3
              else (read32 tss tssCr3).setWidth 64 } }
          (m.loadPaging host ts.paging.pagingMode tss) := by
  unfold restorePaging PdptesKept Machine.loadPaging
  cases mode : ts.paging.pagingMode with
  | flat =>
    obtain ⟨tsssel, ext, errcode, errcodeValid, reason, paging⟩ := ts
    exact ⟨fun kept => ⟨nofun, kept⟩, fun kept => kept.2⟩
  | pae =>
    rw [if_neg (by decide), ensures_bind, ensures_only_if, if_pos rfl, restore_pdptes_iff strict quiet]
    constructor
    · rintro ⟨a, area, fits, kept⟩
      refine ⟨fun _ => ⟨a, area, fits⟩, ?_⟩
      rw [if_neg (by decide), if_neg (by decide), if_pos rfl, area]
      exact kept
    · rintro ⟨fits, kept⟩
      obtain ⟨a, area, fit⟩ := fits rfl
      rw [if_neg (by decide), if_neg (by decide), if_pos rfl, area] at kept
      exact ⟨a, area, fit, kept⟩
  | bits32 =>
    exact ⟨fun kept => ⟨nofun, kept⟩, fun kept => kept.2⟩
  | bits64 =>
    exact ⟨fun kept => ⟨nofun, kept⟩, fun kept => kept.2⟩

theorem enter_state_iff {q : VmTaskSwitch → Machine → Prop} (strict : Strict r)
    (quiet : m.injected = []) (new : NewTask) (old : OldTask) :
    Ensures (enterState host ts new old) m q r ↔
      PdptesKept host m.mem ts.paging.pagingMode (linkedTss ts.reason old.sel new.tss) ∧
        q (enteredSwitch ts (linkedTss ts.reason old.sel new.tss))
          (enteredState host ts new old.sel m) := by
  have loaded : ((m.loadTask ts.tsssel new).setReg .ldtr
      ((read16 (linkedTss ts.reason old.sel new.tss) tssLdt).setWidth 64)).injected = [] := quiet
  unfold enterState restoreState
  rw [ensures_bind, ensures_modify, ensures_bind, ensures_modify, ensures_bind,
    restore_paging_iff strict loaded]
  refine and_congr_right fun _ => ?_
  rw [ensures_bind, ensures_modify, ensures_bind, ensures_only_if]
  unfold enteredState
  dsimp only
  split
  · rfl
  · rfl

theorem set_reg_self (m : Machine) (reg : Reg) (val : BitVec 64) :
    (m.setReg reg val).regs reg = val := by
  show update m.regs reg val reg = val
  rw [update_self]

theorem load_regs_values (eflags : BitVec 32) (tss : Tss) :
    (m.loadRegs eflags tss).regs .rflags = eflags.setWidth 64 ∧
    (m.loadRegs eflags tss).regs .rip = (read32 tss tssEip).setWidth 64 ∧ (∀ field ∈ generalFields,
      (m.loadRegs eflags tss).regs field.1 = (read32 tss field.2).setWidth 64) ∧
    ∀ field ∈ selectorFields,
      (m.loadRegs eflags tss).regs field.1 = (read16 tss field.2).setWidth 64 := by
  simp [Machine.loadRegs, Machine.setReg, generalFields, selectorFields, update_apply]

theorem load_regs_others (eflags : BitVec 32) (tss : Tss) :
    ∀ reg ∈ [Reg.tr, .cr0, .ldtr, .cr3], (m.loadRegs eflags tss).regs reg = m.regs reg := by
  simp [Machine.loadRegs, Machine.setReg, generalFields, selectorFields, update_apply]

theorem load_paging_same (mode : PagingMode) (tss : Tss) :
    (m.loadPaging host mode tss).descs = m.descs ∧ (m.loadPaging host mode tss).mem = m.mem ∧
      (m.loadPaging host mode tss).injected = m.injected ∧
      ∀ reg ∈ [Reg.tr, .cr0, .ldtr], (m.loadPaging host mode tss).regs reg = m.regs reg := by
  unfold Machine.loadPaging
  split
  · exact ⟨rfl, rfl, rfl, fun _ _ => rfl⟩
  · split
    · refine ⟨rfl, rfl, rfl, ?_⟩
      simp [Machine.loadPdptes, Machine.setReg, pdpteRegs, update_apply]
    · refine ⟨rfl, rfl, rfl, ?_⟩
      simp [Machine.setReg, update_apply]

theorem load_paging_cr3 (mode : PagingMode) (tss : Tss) : (m.loadPaging host mode tss).regs .cr3 =
      if mode = .flat then m.regs .cr3 else (read32 tss tssCr3).setWidth 64 := by
  unfold Machine.loadPaging
  split
  · rfl
  · exact set_reg_self ..

theorem linked_read32 (reason : TaskSwitchReason) (sel : BitVec 16) (tss : Tss) {a : Nat}
    (above : 2 ≤ a) : read32 (linkedTss reason sel tss) a = read32 tss a := by
  unfold linkedTss
  split
  · exact read32_write16_other tss sel (.inr above)
  · rfl

theorem linked_read16 (reason : TaskSwitchReason) (sel : BitVec 16) (tss : Tss) {a : Nat}
    (above : 2 ≤ a) : read16 (linkedTss reason sel tss) a = read16 tss a := by
  unfold linkedTss
  split
  · exact read16_write16_other tss sel (.inr above)
  · rfl

theorem field_above : (∀ field ∈ generalFields, 2 ≤ field.2) ∧ ∀ field ∈ selectorFields, 2 ≤ field.2 := by
  decide

def loadedTask (ts : VmTaskSwitch) (new : NewTask) (otSel : BitVec 16) (m : Machine) : Machine :=
  (m.loadTask ts.tsssel new).setReg .ldtr
    ((read16 (linkedTss ts.reason otSel new.tss) tssLdt).setWidth 64)

theorem entered_parts (new : NewTask) (otSel : BitVec 16) :
    (enteredState host ts new otSel m).regs =
      (((loadedTask ts new otSel m).loadPaging host ts.paging.pagingMode
        (linkedTss ts.reason otSel new.tss)).loadRegs (restoredEflags ts.reason new.tss)
          (linkedTss ts.reason otSel new.tss)).regs ∧
    (enteredState host ts new otSel m).descs = update m.descs .tr (usdToSegDesc new.desc) ∧
    (enteredState host ts new otSel m).mem = (if nests ts.reason then
      scatter m.mem new.iov (linkedTss ts.reason otSel new.tss) tss32Size else m.mem) ∧
    (enteredState host ts new otSel m).injected = m.injected := by
  obtain ⟨descs, mem, injected, -⟩ := @load_paging_same host (loadedTask ts new otSel m)
    ts.paging.pagingMode (linkedTss ts.reason otSel new.tss)
  unfold enteredState
  split
  · refine ⟨rfl, descs, ?_, injected⟩
    exact congrArg (fun mem => scatter mem new.iov _ tss32Size) mem
  · exact ⟨rfl, descs, mem, injected⟩

section
variable {exit : VmExit} {tasks : Tasks}

variable {mem : Mem} {x : Nat}

theorem stored_mapped {paging : GuestPaging} {gla : BitVec 64} {image : Mem} {len : Nat}
    {iov : Nat → Nat} (mapped : host.copySetup mem paging gla len ⟨false, true⟩ = .mapped iov) :
    stored host mem paging gla image len = scatter mem iov image len := by
  unfold stored
  rw [mapped]

theorem stored_other {paging : GuestPaging} {gla : BitVec 64} {image : Mem} {len : Nat}
    (outside : ∀ iov, host.copySetup mem paging gla len ⟨false, true⟩ = .mapped iov → ∀ i < len, x ≠ iov i) :
    stored host mem paging gla image len x = mem x := by
  unfold stored
  cases copied : host.copySetup mem paging gla len ⟨false, true⟩ with
  | efault => rfl
  | fault exception => rfl
  | mapped iov => exact scatter_other mem image (outside iov copied)

theorem tss_busy_bit (type : BitVec 32) : tssBusy type = type.getLsbD 1 := by
  have bits : ∀ i < 32, (2 : BitVec 32).getLsbD i = decide (i = 1) := by decide
  unfold tssBusy
  cases bit : type.getLsbD 1 with
  | true =>
    refine decide_eq_true fun zero => ?_
    have set_ : (type &&& 2).getLsbD 1 = true := by
      rw [getLsbD_and, bit]
      rfl
    rw [zero] at set_
    cases set_
  | false =>
    refine decide_eq_false (not_not_intro (eq_of_getLsbD_eq fun i bound => ?_))
    rw [getLsbD_and, bits i bound]
    by_cases one : i = 1
    · rw [one, bit]
      rfl
    · rw [decide_eq_false one, Bool.and_false]
      exact BitVec.getLsbD_zero.symm

theorem nt_type_busy (usd : UserDesc) : tssBusy (ntType usd) = usd.getLsbD 41 := by
  rw [tss_busy_bit]
  simp [ntType, usdToSegDesc, segDescType, sdType, sdDpl, sdP, sdXx, sdDef32, sdGran]

theorem busy_byte (mem : Mem) : tssBusy (ntType (read64 mem 0)) = (mem 5).getLsbD 1 := by
  rw [nt_type_busy]
  simp only [read64, read32, read16, getLsbD_append]
  rfl

theorem image_busy (usd : UserDesc) : (descImage usd 5).getLsbD 1 = tssBusy (ntType usd) := by
  rw [← busy_byte (descImage usd)]
  exact congrArg (fun desc => tssBusy (ntType desc)) (read64_write64_same ..)

theorem busy_left_iff {copied : Copied} {busy : Bool} {later : List Area}
    (before : ∀ iov, copied = .mapped iov → (mem (iov 5)).getLsbD 1 = busy)
    (apart : ∀ area ∈ later, Distinct area.iov area.size) : (∀ iov, copied = .mapped iov →
        tssBusy (ntType (read64 (gather (overwritten mem later) iov) 0)) = busy) ↔
      BusyLeft copied busy later := by
  refine forall_congr' fun iov => forall_congr' fun mapped => ?_
  rw [busy_byte]
  exact @overwritten_right _ mem (fun byte => byte.getLsbD 1 = busy) (before iov mapped) later apart

theorem copied_area_distinct {mem : Mem} {paging : GuestPaging} {gla : BitVec 64} {len : Nat}
    {prot : Prot} {image : Mem} (short : len ≤ 4096) :
    ∀ area ∈ copiedArea (host.copySetup mem paging gla len prot) len image,
      Distinct area.iov area.size := by
  intro area member
  cases copied : host.copySetup mem paging gla len prot with
  | efault =>
    rw [copied] at member
    cases member
  | fault exception =>
    rw [copied] at member
    cases member
  | mapped iov =>
    rw [copied] at member
    obtain rfl := List.mem_singleton.mp member
    exact host.distinct copied short

theorem stored_area {paging : GuestPaging} {gla : BitVec 64} {image : Mem} {len : Nat} :
    stored host mem paging gla image len =
      overwritten mem (copiedArea (host.copySetup mem paging gla len ⟨false, true⟩) len image) := by
  unfold stored copiedArea
  cases host.copySetup mem paging gla len ⟨false, true⟩ with
  | efault => rfl
  | fault exception => rfl
  | mapped iov => rfl

theorem freed_areas : freedMem host exit m tasks = overwritten m.mem (freedAreas host exit m tasks) := by
  unfold freedMem freedAreas
  split
  · exact stored_area
  · rfl

theorem marked_areas : markedMem host exit m tasks =
    overwritten (savedMem host exit m tasks) (markedAreas host exit m tasks) := by
  unfold markedMem markedAreas
  split
  · rfl
  · exact stored_area

theorem switched_areas : switchedMem host exit m tasks =
    overwritten (markedMem host exit m tasks) (linkedAreas exit m tasks) := by
  unfold switchedMem linkedAreas
  split
  · rfl
  · rfl

theorem overwritten_append (later earlier : List Area) :
    overwritten mem (later ++ earlier) = overwritten (overwritten mem earlier) later := by
  induction later with
  | nil => rfl
  | cons area later ih => rw [List.cons_append, overwritten, ih, overwritten]

theorem areas_distinct (fetched : Fetched host exit m tasks) :
    (∀ area ∈ freedAreas host exit m tasks, Distinct area.iov area.size) ∧
    Distinct tasks.otIov tss32Size ∧
    (∀ area ∈ markedAreas host exit m tasks, Distinct area.iov area.size) ∧
    Distinct tasks.ntIov tss32Size ∧
    ∀ area ∈ linkedAreas exit m tasks, Distinct area.iov area.size := by
  have ntDistinct := host.distinct fetched.newArea (by decide)
  refine ⟨?_, host.distinct fetched.oldArea (by decide), ?_, ntDistinct, ?_⟩
  · unfold freedAreas
    split
    · exact copied_area_distinct (by decide)
    · exact nofun
  · unfold markedAreas
    split
    · exact nofun
    · exact copied_area_distinct (by decide)
  · unfold linkedAreas
    split
    · intro area member
      obtain rfl := List.mem_singleton.mp member
      exact ntDistinct
    · exact nofun

theorem marked_other
    (outside : ∀ iov, markedCopy host exit m tasks = .mapped iov → ∀ i < 8, x ≠ iov i) :
    markedMem host exit m tasks x = savedMem host exit m tasks x := by
  unfold markedMem
  split
  · rfl
  · exact stored_other outside

theorem freed_other (outside : ∀ iov, freedCopy host exit m = .mapped iov → ∀ i < 8, x ≠ iov i) :
    freedMem host exit m tasks x = m.mem x := by
  unfold freedMem
  split
  · exact stored_other outside
  · rfl

theorem switched_other
    (outside : nests exit.taskSwitch.reason → ∀ i < tss32Size, x ≠ tasks.ntIov i) :
    switchedMem host exit m tasks x = markedMem host exit m tasks x := by
  unfold switchedMem
  split
  · next nested => exact scatter_other _ _ (outside nested)
  · rfl

theorem new_busy_iff (fetched : Fetched host exit m tasks) :
    (∀ iov, newCopy host exit m tasks = .mapped iov →
        tssBusy (ntType (read64 (gather (switchedMem host exit m tasks) iov) 0)) = true) ↔
      BusyLeft (newCopy host exit m tasks) true
        (if exit.taskSwitch.reason = .iret then
          savedArea exit m tasks :: freedAreas host exit m tasks else linkedAreas exit m tasks) := by
  obtain ⟨freed, saved, -, -, linked⟩ := areas_distinct fetched
  by_cases back : exit.taskSwitch.reason = .iret
  · -- the descriptor was read busy, and is not written
    have flat : switchedMem host exit m tasks =
        overwritten m.mem (savedArea exit m tasks :: freedAreas host exit m tasks) := by
      have nested : nests exit.taskSwitch.reason = false := by
        rw [back]
        rfl
      rw [switchedMem, nested, if_neg Bool.false_ne_true, markedMem, if_pos back, savedMem,
        freed_areas]
      rfl
    rw [flat, if_pos back]
    refine busy_left_iff (fun iov mapped => ?_) (List.forall_mem_cons.mpr ⟨saved, freed⟩)
    rw [newCopy, if_pos back] at mapped
    obtain ⟨iov', mapped', value⟩ := fetched.newDesc
    cases mapped.symm.trans mapped'
    have busy : tssBusy (ntType tasks.nt) = true := accepted_busy back fetched.accepted
    rw [← value, busy_byte] at busy
    exact busy
  · rw [if_neg back, switched_areas]
    refine busy_left_iff (fun iov mapped => ?_) linked
    rw [newCopy, if_neg back] at mapped
    have place := @gather_scatter 8 5 iov (savedMem host exit m tasks)
      (descImage (busyDesc exit tasks)) (host.distinct mapped (by decide)) (by decide)
    rw [markedMem, if_neg back, stored_mapped mapped]
    refine (congrArg (fun byte : BitVec 8 => byte.getLsbD 1) place).trans ?_
    rw [image_busy, busyDesc, if_neg back, nt_type_busy]
    simp [busyBit, -getLsbD_eq_getElem]

theorem old_busy_iff (fetched : Fetched host exit m tasks) :
    (∀ iov, oldCopy host exit m = .mapped iov →
        tssBusy (ntType (read64 (gather (switchedMem host exit m tasks) iov) 0)) =
          staysBusy exit tasks) ↔
      BusyLeft (oldCopy host exit m) (staysBusy exit tasks)
        (linkedAreas exit m tasks ++ markedAreas host exit m tasks ++ [savedArea exit m tasks]) := by
  obtain ⟨-, saved, marked, -, linked⟩ := areas_distinct fetched
  have later : switchedMem host exit m tasks = overwritten (freedMem host exit m tasks)
      (linkedAreas exit m tasks ++ markedAreas host exit m tasks ++ [savedArea exit m tasks]) := by
    rw [overwritten_append, overwritten_append, switched_areas, marked_areas]
    rfl
  rw [later]
  refine busy_left_iff (fun iov mapped => ?_) fun area member => ?_
  · unfold oldCopy at mapped
    unfold freedMem staysBusy
    by_cases back : exit.taskSwitch.reason = .iret ∨ exit.taskSwitch.reason = .jmp
    · rw [if_pos back] at mapped
      have place := @gather_scatter 8 5 iov m.mem (descImage (tasks.ot &&& ~~~busyBit))
        (host.distinct mapped (by decide)) (by decide)
      rw [if_pos back, stored_mapped mapped, decide_eq_true back]
      refine (congrArg (fun byte : BitVec 8 => byte.getLsbD 1) place).trans ?_
      rw [image_busy, nt_type_busy]
      simp [busyBit, -getLsbD_eq_getElem]
    · rw [if_neg back] at mapped
      obtain ⟨iov', mapped', value⟩ := fetched.oldDesc
      cases mapped.symm.trans mapped'
      rw [if_neg back, decide_eq_false back, ← value, busy_byte]
      rfl
  · obtain early | late := List.mem_append.mp member
    · obtain nests | marks := List.mem_append.mp early
      · exact linked area nests
      · exact marked area marks
    · obtain rfl := List.mem_singleton.mp late
      exact saved

theorem linked_after (fetched : Fetched host exit m tasks)
    (nested : nests exit.taskSwitch.reason = true) : ∀ i < 2,
      switchedMem host exit m tasks (tasks.ntIov i) = (m.sel .tr).extractLsb' (8 * i) 8 := by
  intro i low
  have place := @gather_scatter tss32Size i tasks.ntIov (markedMem host exit m tasks)
    (linkedTss exit.taskSwitch.reason (m.sel .tr) (newTss m tasks))
    (host.distinct fetched.newArea (by decide)) (Nat.lt_trans low (by decide))
  rw [switchedMem, if_pos nested]
  refine place.trans ?_
  rw [linkedTss, if_pos nested]
  obtain rfl | rfl : i = 0 ∨ i = 1 := by omega
  · simp [write16, write8, tssLink]
  · simp [write16, tssLink]

theorem link_iff {mem : Mem} {sel : BitVec 16} :
    read16 mem tssLink = sel ↔ ∀ i < 2, mem i = sel.extractLsb' (8 * i) 8 := by
  have bytes : ∀ a b : BitVec 8, a ++ b = sel ↔ b = sel.extractLsb' 0 8 ∧ a = sel.extractLsb' 8 8 := by
    intro a b
    constructor
    · rintro rfl
      exact ⟨(extractLsb'_append_eq_right ..).symm, (extractLsb'_append_eq_left ..).symm⟩
    · rintro ⟨rfl, rfl⟩
      exact @extractLsb'_append_extractLsb' 8 8 sel
  rw [read16, bytes]
  constructor
  · rintro ⟨low, high⟩ i bound
    obtain rfl | rfl : i = 0 ∨ i = 1 := by omega
    · exact low
    · exact high
  · exact fun each => ⟨each 0 (by decide), each 1 (by decide)⟩

theorem marks_iff (fetched : Fetched host exit m tasks) :
    Marks host exit m tasks (switchedMem host exit m tasks) ↔ MarksKept host exit m tasks := by
  constructor
  · intro marks
    exact ⟨(new_busy_iff fetched).mp marks.newBusy,
      fun two => (old_busy_iff fetched).mp (marks.oldBusy two)⟩
  · intro kept
    refine ⟨(new_busy_iff fetched).mpr kept.newBusy,
      fun two => (old_busy_iff fetched).mpr (kept.oldBusy two), ?_⟩
    exact fun nested => link_iff.mpr (linked_after fetched nested)

theorem push_leaves_iff {pushed : Area} (marks : Marks host exit m tasks mem)
    (distinct : Distinct pushed.iov pushed.size) :
    Marks host exit m tasks (scatter mem pushed.iov pushed.image pushed.size) ↔
      PushLeaves host exit m tasks pushed := by
  have apart : ∀ area ∈ [pushed], Distinct area.iov area.size := by
    intro area member
    obtain rfl := List.mem_singleton.mp member
    exact distinct
  have newBusy := @busy_left_iff mem (newCopy host exit m tasks) true [pushed]
    (fun iov mapped => (busy_byte (gather mem iov)).symm.trans (marks.newBusy iov mapped)) apart
  have oldBusy := fun two : TwoDescs exit m => @busy_left_iff mem (oldCopy host exit m)
    (staysBusy exit tasks) [pushed]
    (fun iov mapped => (busy_byte (gather mem iov)).symm.trans (marks.oldBusy two iov mapped)) apart
  have link : (nests exit.taskSwitch.reason →
        read16 (gather (overwritten mem [pushed]) tasks.ntIov) tssLink = m.sel .tr) ↔
      (nests exit.taskSwitch.reason → ∀ i < 2,
        Leaves (· = (m.sel .tr).extractLsb' (8 * i) 8) (tasks.ntIov i) [pushed]) := by
    refine forall_congr' fun nested => ?_
    rw [link_iff]
    refine forall_congr' fun i => forall_congr' fun low => ?_
    have before : mem (tasks.ntIov i) = (m.sel .tr).extractLsb' (8 * i) 8 :=
      link_iff.mp (marks.link nested) i low
    exact @overwritten_right _ mem (· = (m.sel .tr).extractLsb' (8 * i) 8) before [pushed] apart
  constructor
  · exact fun after => ⟨newBusy.mp after.newBusy,
      fun two => (oldBusy two).mp (after.oldBusy two), link.mp after.link⟩
  · exact fun leaves => ⟨newBusy.mpr leaves.newBusy,
      fun two => (oldBusy two).mpr (leaves.oldBusy two), link.mpr leaves.link⟩

end

theorem entered_new_task {exit : VmExit} {tasks : Tasks} (type : BitVec 32)
    (marks : Marks host exit m tasks (switchedMem host exit m tasks)) :
    NewTaskState host exit m tasks (enteredState host exit.taskSwitch
      ⟨type, busyDesc exit tasks, tasks.ntIov, newTss m tasks⟩ (m.sel .tr)
      { m.exited with mem := markedMem host exit m tasks }) := by
  obtain ⟨aboveGeneral, aboveSelectors⟩ := field_above
  obtain ⟨regs, descs, mem, -⟩ := @entered_parts host exit.taskSwitch
    { m.exited with mem := markedMem host exit m tasks }
    ⟨type, busyDesc exit tasks, tasks.ntIov, newTss m tasks⟩ (m.sel .tr)
  have linked32 := fun {a : Nat} (above : 2 ≤ a) =>
    linked_read32 exit.taskSwitch.reason (m.sel .tr) (newTss m tasks) above
  have linked16 := fun {a : Nat} (above : 2 ≤ a) =>
    linked_read16 exit.taskSwitch.reason (m.sel .tr) (newTss m tasks) above
  have kept := fun w => (@load_paging_same host w exit.taskSwitch.paging.pagingMode
    (linkedTss exit.taskSwitch.reason (m.sel .tr) (newTss m tasks))).2.2.2
  refine ⟨?_, ?_, ?_, ?_, ?_, ?_, ?_, ?_, ?_, ?_, ?_, ?_, ?_⟩
  · rw [Machine.sel, regs, load_regs_others _ _ .tr (by decide), kept _ .tr (by decide)]
    show (exit.taskSwitch.tsssel.setWidth 64).setWidth 16 = exit.taskSwitch.tsssel
    simp
  · rw [descs, update_self]
  · rw [regs, load_regs_others _ _ .cr0 (by decide), kept _ .cr0 (by decide)]
    rfl
  · rw [regs, (load_regs_values _ _).1]
    rfl
  · rw [regs, (load_regs_values _ _).2.1, @linked32 tssEip (by decide)]
  · intro field member
    rw [regs, (load_regs_values _ _).2.2.1 field member, linked32 (aboveGeneral field member)]
  · intro field member
    rw [regs, (load_regs_values _ _).2.2.2 field member, linked16 (aboveSelectors field member)]
  · rw [regs, load_regs_others _ _ .ldtr (by decide), kept _ .ldtr (by decide),
      ← linked_read16 exit.taskSwitch.reason (m.sel .tr) (newTss m tasks) (show 2 ≤ tssLdt by decide)]
    exact set_reg_self ..
  · rw [regs, load_regs_others _ _ .cr3 (by decide), load_paging_cr3, @linked32 tssCr3 (by decide)]
    rfl
  · rw [mem]
    rfl
  · rw [mem]
    exact marks
  · intro x freed marked saved linked
    rw [mem]
    show switchedMem host exit m tasks x = _
    rw [switched_other fun _ => linked, marked_other marked, savedMem, scatter_other _ _ saved]
    exact freed_other freed
  · intro reg other
    rw [descs, update_of_ne other]
    rfl

end

end TaskSwitch
