import Bhyve.TaskSwitch.Segments

namespace TaskSwitch
open ByteMemory VmmDecoder VmmLinearAddress StatefulRuns

section
variable (host : Host) (exit : VmExit) (m : Machine)

def Tasks.new (tasks : Tasks) : NewTask :=
  ⟨ntType tasks.nt, busyDesc exit tasks, tasks.ntIov, newTss m tasks⟩

def enteredTss (tasks : Tasks) : Tss :=
  linkedTss exit.taskSwitch.reason (m.sel .tr) (newTss m tasks)

def enteredMachine (tasks : Tasks) : Machine :=
  enteredState host exit.taskSwitch (tasks.new exit m) (m.sel .tr)
    { m.exited with mem := markedMem host exit m tasks }

def EnterKept (tasks : Tasks) : Prop :=
  PdptesKept host (markedMem host exit m tasks) exit.taskSwitch.paging.pagingMode
    (enteredTss exit m tasks) ∧ MarksKept host exit m tasks ∧
  SegmentsKept host (enteredSwitch exit.taskSwitch (enteredTss exit m tasks)) segmentGroups
    (fun n => PushKept host (enteredSwitch exit.taskSwitch (enteredTss exit m tasks)) n
      (PushLeaves host exit m tasks))
    (enteredMachine host exit m tasks)

def SwitchKept : Prop :=
  TargetKept host exit m fun nt ntIov => OldKept host exit m fun ot otIov =>
    LeaveKept host exit m ⟨nt, ot, ntIov, otIov⟩ (EnterKept host exit m ⟨nt, ot, ntIov, otIov⟩)

end

section
variable {host : Host} {exit : VmExit} {m : Machine}

theorem entered_quiet (tasks : Tasks) : (enteredMachine host exit m tasks).injected = [] := by
  obtain ⟨-, -, -, injected⟩ := @entered_parts host exit.taskSwitch
    { m.exited with mem := markedMem host exit m tasks } (tasks.new exit m) (m.sel .tr)
  exact injected

theorem fetched_unique {tasks other : Tasks} (fetched : Fetched host exit m tasks)
    (again : Fetched host exit m other) : other = tasks := by
  obtain ⟨-, ⟨newIov, newMapped, newValue⟩, newArea, ⟨oldIov, oldMapped, oldValue⟩, oldArea⟩ := fetched
  obtain ⟨-, ⟨iov, mapped, value⟩, area, ⟨iov', mapped', value'⟩, area'⟩ := again
  obtain ⟨nt, ot, ntIov, otIov⟩ := tasks
  obtain ⟨nt', ot', ntIov', otIov'⟩ := other
  cases newMapped.symm.trans mapped
  cases oldMapped.symm.trans mapped'
  cases newValue.symm.trans value
  cases oldValue.symm.trans value'
  cases newArea.symm.trans area
  cases oldArea.symm.trans area'
  rfl

theorem entered_mem (tasks : Tasks) :
    (enteredMachine host exit m tasks).mem = switchedMem host exit m tasks := by
  obtain ⟨-, -, mem, -⟩ := @entered_parts host exit.taskSwitch
    { m.exited with mem := markedMem host exit m tasks } (tasks.new exit m) (m.sel .tr)
  exact mem

theorem entered_segments_iff {tasks : Tasks} (wide : isTss32 (ntType tasks.nt) = true)
    (marks : Marks host exit m tasks (switchedMem host exit m tasks)) (ts : VmTaskSwitch) :
    (SegmentsSound host ts segmentGroups (enteredMachine host exit m tasks) ∧
        Ensures (enterSegments host ts (tasks.new exit m)) (enteredMachine host exit m tasks)
          (fun _ after => Completed host ts (enteredMachine host exit m tasks) after ∧
            Marks host exit m tasks after.mem)
          (fun stop after => FaultsInNew host ts (enteredMachine host exit m tasks) stop after)) ↔
      SegmentsKept host ts segmentGroups
        (fun n => PushKept host ts n (PushLeaves host exit m tasks))
        (enteredMachine host exit m tasks) := by
  rw [← entered_mem] at marks
  exact enter_segments_iff wide (entered_quiet tasks) marks fun _ => push_leaves_iff marks

theorem enter_iff {tasks : Tasks} (fetched : Fetched host exit m tasks)
    (wide : isTss32 (ntType tasks.nt) = true) (old : OldTask) (sel : old.sel = m.sel .tr) :
    Ensures (enterState host exit.taskSwitch (tasks.new exit m) old)
      { m.exited with mem := markedMem host exit m tasks }
      (fun ts mid => ∃ other, Fetched host exit m other ∧ NewTaskState host exit m other mid ∧
        SegmentsSound host ts segmentGroups mid ∧
        Ensures (enterSegments host ts (tasks.new exit m)) mid
          (fun _ after => Completed host ts mid after ∧ Marks host exit m other after.mem)
          (fun stop after => FaultsInNew host ts mid stop after))
      (OneFault host exit.taskSwitch) ↔ EnterKept host exit m tasks := by
  rw [@enter_state_iff host exit.taskSwitch { m.exited with mem := markedMem host exit m tasks } _ _
    (one_fault_strict host exit.taskSwitch) rfl, sel]
  refine and_congr_right fun _ => ?_
  constructor
  · rintro ⟨other, again, state, segments⟩
    obtain rfl := fetched_unique fetched again
    have marks := state.marks
    rw [state.mem] at marks
    exact ⟨(marks_iff fetched).mp marks, (entered_segments_iff wide marks _).mp segments⟩
  · rintro ⟨kept, segments⟩
    have marks := (marks_iff fetched).mpr kept
    refine ⟨tasks, fetched, entered_new_task (ntType tasks.nt) marks, ?_⟩
    exact (entered_segments_iff wide marks _).mpr segments

theorem switch_ensures_iff (tss32 : Tss32 host exit m) :
    SwitchEnsures host exit m ↔ SwitchKept host exit m := by
  unfold SwitchEnsures SwitchKept
  rw [prepare_iff tss32.1]
  refine target_congr fun nt ntIov reads area accepted _ => old_congr fun ot otIov oldReads oldArea _ => ?_
  have fetched : Fetched host exit m ⟨nt, ot, ntIov, otIov⟩ :=
    ⟨accepted, reads, area, oldReads, oldArea⟩
  have wide : isTss32 (ntType nt) = true := accepted_wide accepted (tss32.1 nt reads)
  have entering := enter_iff fetched wide ⟨m.sel .tr, ot, otIov, gather m.mem otIov⟩ rfl
  exact iff_of_eq (congrArg (LeaveKept host exit m _) (propext entering))

theorem ensures_continues (ensured : SwitchEnsures host exit m) :
    (vmexitTaskSwitch host exit m.exited).1 = .continue_ := by
  have ends : Ensures (taskSwitch host exit) m.exited (fun _ _ => True)
      (fun stop _ => chkerr stop = .continue_) := by
    unfold taskSwitch
    rw [ensures_bind]
    refine ensures_mono ensured (fun found at_ entered => ?_) fun _ _ faults => faults.fault.ends
    rw [ensures_bind]
    refine ensures_mono entered (fun ts mid loaded => ?_) fun _ _ fault => fault.ends
    obtain ⟨tasks, -, -, -, ran⟩ := loaded
    exact ensures_mono ran (fun _ _ _ => trivial) fun _ _ faults => faults.fault.ends
  unfold Ensures at ends
  unfold vmexitTaskSwitch
  split at ends
  · next returned => rw [returned]
  · next stopped =>
    rw [stopped]
    exact ends

end

def flatHost : Host where
  copySetup := fun _ _ gla _ _ => .mapped fun i => gla.toNat + i
  guest2host := fun a _ => some a.toNat
  distinct := by
    intro _ _ gla len _ iov mapped _ i j _ _ other same
    cases mapped
    exact other (Nat.add_left_cancel same).symm

def twoTasksMem : Mem := fun a =>
  ([0x67, 0, 0, 0x30, 0, 0x89, 0, 0, 0x67, 0, 0, 0x20, 0, 0x8b, 0, 0] : List (BitVec 8)).getD
    (a - 0x1008) 0

def inOldTask : Machine where
  regs := fun reg => if reg = .tr then 0x10 else 0
  descs := fun reg =>
    if reg = .tr then ⟨0x2000, 0x67, 0x8b⟩
    else if reg = .gdtr then ⟨0x1000, 0xffff, 0⟩
    else ⟨0, 0, 0x10000⟩
  mem := fun a => if a < 0x1008 then 0 else twoTasksMem a
  injected := []
  intinfo := 0

def callNewTask : VmExit where
  rip := 0x100
  instLength := 7
  taskSwitch := ⟨8, false, 0, false, .call, ⟨0, 0, .protectedMode, .flat⟩⟩

end TaskSwitch
