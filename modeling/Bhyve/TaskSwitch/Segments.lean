import Bhyve.TaskSwitch.Checks

namespace TaskSwitch
open ByteMemory VmmDecoder VmmLinearAddress StatefulRuns

section
variable (host : Host) (ts : VmTaskSwitch) (m : Machine)

def SegmentValid (seg : Reg) : Prop :=
  ∃ kind, segmentKind seg = some kind ∧ (kind = .ldt → isldt (m.sel seg) = false) ∧
    descTableLimitCheck m (m.sel seg) = true ∧
    if idxsel (m.sel seg) = 0 then kind = .ldt ∨ kind = .data
    else OnCopy (descRead host m ts.paging (m.sel seg)) True fun iov =>
      Passes m kind (m.sel seg) (read64 (gather m.mem iov) 0)

/-- The first entry of an LDT is not used, since it is taken for a NULL selector. -/
def SegmentKept (seg : Reg) : Prop :=
  SegmentValid host ts m seg ∧ (idxsel (m.sel seg) = 0 → isldt (m.sel seg) = false)

def Accepted (seg : Reg) (desc : SegDesc) : Prop :=
  if idxsel (m.sel seg) = 0 then desc = unusableDesc
  else ∃ iov, descRead host m ts.paging (m.sel seg) = .mapped iov ∧
    desc = usdToSegDesc (read64 (gather m.mem iov) 0)

def GroupKept : List Reg → (List (Reg × SegDesc) → Prop) → Prop
  | [], next => next []
  | seg :: rest, next => SegmentKept host ts m seg ∧ ∀ desc, Accepted host ts m seg desc →
      GroupKept rest fun descs => next ((seg, desc) :: descs)

def SegmentsKept : List (List Reg) → (Machine → Prop) → Machine → Prop
  | [], next, m => next m
  | group :: rest, next, m => GroupKept host ts m group fun descs =>
      SegmentsKept rest next (m.updateSegDescs descs)

def pushedArea (iov : Nat → Nat) : Area := ⟨iov, 4, write32 (fun _ => 0) 0 ts.errcode⟩

/-- `leaves` is what the area of the error code may write over. -/
def PushKept (leaves : Area → Prop) : Prop :=
  ts.errcodeValid = true → ts.ext = true ∧ ts.reason = .idtGate ∧
    ∀ gla, errcodeGla m ts.paging 4 = some gla →
      vieAlignmentCheck ts.paging.cpl 4 (m.regs .cr0) (m.regs .rflags) gla = false →
        OnCopy (host.copySetup m.mem ts.paging gla 4 ⟨false, true⟩) True fun iov =>
          leaves (pushedArea ts iov)

end

section
variable {host : Host} {ts : VmTaskSwitch} {m : Machine} {r : Stop → Machine → Prop} {seg : Reg}

theorem validate_desc_iff {q : SegDesc → Machine → Prop} (strict : Strict r) (quiet : m.injected = [])
    (kind : SegmentKind) (sel : BitVec 16) (usd : UserDesc) :
    Ensures (validateDesc ts kind sel usd) m q r ↔
      Passes m kind sel usd ∧ q (usdToSegDesc usd) m := by
  unfold validateDesc
  rw [ensures_bind, ensures_get, ensures_ite, ensures_ite, ensures_ite, ensures_refuse quiet,
    ensures_refuse quiet, ensures_pure]
  split
  · next other =>
    refine iff_of_false (strict.one _) fun kept => ?_
    cases other.symm.trans kept.1.type
  split
  · next absent => exact iff_of_false (strict.one _) fun kept => kept.1.present absent
  · next type present =>
    split
    · next low =>
      refine iff_of_false (strict.one _) fun kept => ?_
      cases low.symm.trans kept.1.privilege
    · next privilege =>
      have passes : Passes m kind sel usd :=
        ⟨(Bool.not_eq_false _).mp type, present, (Bool.not_eq_false _).mp privilege⟩
      exact ⟨fun kept => ⟨passes, kept⟩, fun kept => kept.2⟩

theorem validate_iff {q : SegDesc → Machine → Prop} (strict : Strict r) (quiet : m.injected = [])
    (pages : Pages host m r) : Ensures (validateSegDesc host ts seg) m q r ↔
      SegmentValid host ts m seg ∧ ∀ desc, Accepted host ts m seg desc → q desc m := by
  unfold validateSegDesc SegmentValid Accepted
  cases is_ : segmentKind seg with
  | none =>
    exact iff_of_false (strict.assertion _) fun kept => by cases kept.1.choose_spec.1
  | some kind =>
    dsimp only
    rw [ensures_bind, ensures_get, ensures_ite, ensures_ite, ensures_ite, ensures_ite,
      ensures_refuse quiet, ensures_pure]
    split
    · next local_ =>
      refine iff_of_false (strict.one _) ?_
      rintro ⟨⟨other, same, global, -⟩, -⟩
      cases same
      cases local_.2.symm.trans (global local_.1)
    split
    · next outside =>
      refine iff_of_false (strict.one _) ?_
      rintro ⟨⟨other, same, -, within, -⟩, -⟩
      cases outside.symm.trans within
    · next global inside =>
      have within := (Bool.not_eq_false _).mp inside
      have table : kind = .ldt → isldt (m.sel seg) = false :=
        fun ldt => (Bool.not_eq_true _).mp fun local_ => global ⟨ldt, local_⟩
      split
      · next null =>
        split
        · next used =>
          refine iff_of_false (strict.one _) ?_
          rintro ⟨⟨other, same, -, -, allowed⟩, -⟩
          cases same
          obtain rfl | rfl := used <;> obtain never | never := allowed <;> cases never
        · next unused =>
          have allowed : kind = .ldt ∨ kind = .data := by
            cases kind <;> simp at unused ⊢
          constructor
          · exact fun kept => ⟨⟨kind, rfl, table, within, allowed⟩, fun desc same => same ▸ kept⟩
          · exact fun kept => kept.2 _ rfl
      · next used =>
        rw [ensures_bind, ensures_table_read strict quiet pages within]
        constructor
        · intro kept
          refine ⟨⟨kind, rfl, table, within, ?_⟩, ?_⟩
          · unfold OnCopy at kept ⊢
            split
            · next efault => rw [efault] at kept; exact kept
            · trivial
            · next iov mapped =>
              rw [mapped] at kept
              exact ((validate_desc_iff strict quiet kind _ _).mp kept).1
          · rintro desc ⟨iov, mapped, rfl⟩
            rw [mapped] at kept
            exact ((validate_desc_iff strict quiet kind _ _).mp kept).2
        · rintro ⟨⟨other, same, -, -, passes⟩, accepted⟩
          cases same
          unfold OnCopy at passes ⊢
          split
          · next efault => rw [efault] at passes; exact passes
          · trivial
          · next iov mapped =>
            rw [mapped] at passes
            exact (validate_desc_iff strict quiet kind _ _).mpr ⟨passes, accepted _ ⟨iov, mapped, rfl⟩⟩

theorem unusable_not_loaded (usd : UserDesc) : unusableDesc ≠ usdToSegDesc usd := by
  intro same
  have bit : unusableDesc.access.getLsbD 16 = (usdToSegDesc usd).access.getLsbD 16 := by rw [same]
  have clear : (usdToSegDesc usd).access.getLsbD 16 = false := by
    unfold usdToSegDesc
    simp [sdType, sdDpl, sdP, sdXx, sdDef32, sdGran]
  rw [clear] at bit
  cases bit

theorem kept_from_checked {desc : SegDesc} (kept : SegmentKept host ts m seg)
    (accepted : Accepted host ts m seg desc) : FromChecked host ts m seg desc := by
  obtain ⟨⟨kind, is_, global, -, checks⟩, first⟩ := kept
  unfold Accepted at accepted
  split at accepted
  · next null =>
    rw [if_pos null] at checks
    exact .null is_ checks (null_of_zero (first null) null) accepted
  · next used =>
    rw [if_neg used] at checks
    obtain ⟨iov, mapped, same⟩ := accepted
    unfold OnCopy at checks
    rw [mapped] at checks
    exact .checked is_ global ⟨iov, mapped, rfl⟩ checks same

theorem null_from_checked (sound : FromChecked host ts m seg unusableDesc) :
    isldt (m.sel seg) = false := by
  cases sound with
  | null is_ allowed null same =>
    have zero : m.sel seg &&& ~~~3 = 0 := of_decide_eq_true null
    have bit : (m.sel seg &&& ~~~3).getLsbD 2 = (m.sel seg).getLsbD 2 := by
      rw [BitVec.getLsbD_and]
      exact Bool.and_true _
    rw [zero] at bit
    exact bit.symm
  | checked is_ global reads passes same => exact absurd same (unusable_not_loaded _)

theorem group_iff (strict : Strict r) (quiet : m.injected = []) (pages : Pages host m r)
    (group : List Reg) : ∀ q : List (Reg × SegDesc) → Machine → Prop,
      (GroupSound host ts m group ∧ Ensures (validateAll host ts group) m q r) ↔
        GroupKept host ts m group fun descs => q descs m := by
  induction group with
  | nil => exact fun q => ⟨fun both => both.2, fun kept => ⟨trivial, kept⟩⟩
  | cons seg rest ih =>
    intro q
    unfold GroupSound validateAll GroupKept
    rw [ensures_bind, ensures_and, validate_iff strict quiet pages]
    constructor
    · rintro ⟨valid, each⟩
      refine ⟨⟨valid, fun null => ?_⟩, fun desc accepted => ?_⟩
      · have accepted : Accepted host ts m seg unusableDesc := by
          unfold Accepted
          rw [if_pos null]
        exact null_from_checked (each _ accepted).1.1
      · obtain ⟨⟨-, sound⟩, ran⟩ := each desc accepted
        rw [ensures_bind] at ran
        exact (ih _).mp ⟨sound, ran⟩
    · rintro ⟨kept, each⟩
      refine ⟨kept.1, fun desc accepted => ?_⟩
      obtain ⟨sound, ran⟩ := (ih fun descs t => q ((seg, desc) :: descs) t).mpr (each desc accepted)
      refine ⟨⟨kept_from_checked kept accepted, sound⟩, ?_⟩
      rw [ensures_bind]
      exact ran

structure FromAll (host : Host) (ts : VmTaskSwitch) (m : Machine) (group : List Reg)
    (descs : List (Reg × SegDesc)) : Prop where
  keys : descs.map Prod.fst = group
  each : ∀ desc ∈ descs, FromChecked host ts m desc.1 desc.2

theorem group_kept_congr (group : List Reg) : ∀ {p q : List (Reg × SegDesc) → Prop},
    (∀ descs, FromAll host ts m group descs → (p descs ↔ q descs)) →
      (GroupKept host ts m group p ↔ GroupKept host ts m group q) := by
  induction group with
  | nil => exact fun same => same [] ⟨rfl, nofun⟩
  | cons seg rest ih =>
    intro p q same
    refine and_congr_right fun kept => forall_congr' fun desc => forall_congr' fun accepted => ?_
    refine ih fun descs all => same _ ⟨?_, ?_⟩
    · rw [List.map_cons, all.keys]
    · intro entry member
      obtain rfl | later := List.mem_cons.mp member
      · exact kept_from_checked kept accepted
      · exact all.each entry later

end

section
variable {host : Host} {ts : VmTaskSwitch} {mid m : Machine} {r : Stop → Machine → Prop}

theorem update_same (descs : List (Reg × SegDesc)) : ∀ m : Machine,
    (m.updateSegDescs descs).regs = m.regs ∧ (m.updateSegDescs descs).mem = m.mem ∧
      (m.updateSegDescs descs).injected = m.injected := by
  induction descs with
  | nil => exact fun m => ⟨rfl, rfl, rfl⟩
  | cons desc rest ih => exact fun m => ih (m.setDesc desc.1 desc.2)

theorem update_other (descs : List (Reg × SegDesc)) {reg : Reg} : ∀ m : Machine,
    reg ∉ descs.map Prod.fst → (m.updateSegDescs descs).descs reg = m.descs reg := by
  induction descs with
  | nil => exact fun m _ => rfl
  | cons desc rest ih =>
    intro m absent
    rw [List.map_cons, List.mem_cons, not_or] at absent
    refine (ih (m.setDesc desc.1 desc.2) absent.2).trans ?_
    exact Function.update_of_ne absent.1 ..

theorem update_entry (descs : List (Reg × SegDesc)) : ∀ m : Machine, (descs.map Prod.fst).Nodup →
    ∀ desc ∈ descs, (m.updateSegDescs descs).descs desc.1 = desc.2 := by
  induction descs with
  | nil => exact nofun
  | cons first rest ih =>
    intro m apart desc member
    rw [List.map_cons, List.nodup_cons] at apart
    obtain rfl | later := List.mem_cons.mp member
    · refine (update_other rest (m.setDesc desc.1 desc.2) apart.1).trans ?_
      exact Function.update_self ..
    · exact ih (m.setDesc first.1 first.2) apart.2 desc later

theorem from_checked_congr {n : Machine} {seg : Reg} {desc : SegDesc}
    (sound : FromChecked host ts m seg desc) (regs : n.regs = m.regs) (mem : n.mem = m.mem)
    (gdtr : n.descs .gdtr = m.descs .gdtr)
    (ldtr : isldt (m.sel seg) = true → n.descs .ldtr = m.descs .ldtr) :
    FromChecked host ts n seg desc := by
  have sels : ∀ reg, n.sel reg = m.sel reg := fun reg => by rw [Machine.sel, regs, ← Machine.sel]
  cases sound with
  | null is_ allowed null same => exact .null is_ allowed (by rw [sels]; exact null) same
  | @checked kind usd is_ global reads passes same =>
    have table : n.descs (tableReg (m.sel seg)) = m.descs (tableReg (m.sel seg)) := by
      unfold tableReg
      split
      · next local_ => exact ldtr local_
      · exact gdtr
    have address : descAddress n (m.sel seg) = descAddress m (m.sel seg) := by
      rw [descAddress, table, ← descAddress]
    refine .checked is_ (by rw [sels]; exact global) ?_ ⟨passes.type, passes.present, ?_⟩ same
    · obtain ⟨iov, copied, value⟩ := reads
      rw [sels]
      exact ⟨iov, by rw [address, mem]; exact copied, by rw [mem]; exact value⟩
    · rw [sels, sels]
      exact passes.privilege

structure Loaded (host : Host) (ts : VmTaskSwitch) (mid : Machine) (done : List Reg) (m : Machine) :
    Prop where
  regs : m.regs = mid.regs
  mem : m.mem = mid.mem
  quiet : m.injected = []
  others : ∀ reg, reg ∉ segments → m.descs reg = mid.descs reg
  sound : ∀ seg ∈ done, FromChecked host ts m seg (m.descs seg)

/-- The groups that are left: none of them again, and the LDT first and by itself. -/
def Orderly : List Reg → List (List Reg) → Prop
  | _, [] => True
  | done, group :: rest => group.Nodup ∧ (∀ seg ∈ group, seg ∈ segments ∧ seg ∉ done) ∧
      (.ldtr ∈ group → done = [] ∧ group = [.ldtr]) ∧ Orderly (done ++ group) rest

theorem segments_orderly : Orderly [] segmentGroups := by
  simp [Orderly, segmentGroups, segments]

theorem loaded_step {done group : List Reg} {descs : List (Reg × SegDesc)}
    (loaded : Loaded host ts mid done m) (all : FromAll host ts m group descs) (once : group.Nodup)
    (fresh : ∀ seg ∈ group, seg ∈ segments ∧ seg ∉ done)
    (first : .ldtr ∈ group → done = [] ∧ group = [.ldtr]) :
    Loaded host ts mid (done ++ group) (m.updateSegDescs descs) := by
  obtain ⟨regs, mem, injected⟩ := update_same descs m
  have outside : ∀ reg, reg ∉ group → (m.updateSegDescs descs).descs reg = m.descs reg :=
    fun reg absent => update_other descs m (by rw [all.keys]; exact absent)
  have gdtr : (m.updateSegDescs descs).descs .gdtr = m.descs .gdtr :=
    outside .gdtr fun member => absurd (fresh _ member).1 (by decide)
  refine ⟨regs.trans loaded.regs, mem.trans loaded.mem, injected.trans loaded.quiet, ?_, ?_⟩
  · intro reg absent
    exact (outside reg fun member => absent (fresh reg member).1).trans (loaded.others reg absent)
  · intro seg member
    obtain before | now := List.mem_append.mp member
    · have away : seg ∉ group := fun again => (fresh seg again).2 before
      have table : .ldtr ∉ group := by
        intro ldtr
        rw [(first ldtr).1] at before
        cases before
      rw [outside seg away]
      exact from_checked_congr (loaded.sound seg before) regs mem gdtr fun _ => outside _ table
    · rw [← all.keys] at now
      obtain ⟨desc, entry, rfl⟩ := List.mem_map.mp now
      rw [update_entry descs m (by rw [all.keys]; exact once) desc entry]
      have sound := all.each desc entry
      refine from_checked_congr sound regs mem gdtr fun local_ => ?_
      apply outside
      intro ldtr
      rw [all.keys, (first ldtr).2, List.mem_singleton] at now
      cases sound with
      | @null kind is_ allowed null same =>
        have global := null_from_checked (.null is_ allowed null rfl : FromChecked host ts m _ _)
        cases global.symm.trans local_
      | @checked kind usd is_ global reads passes same =>
        have ldt : kind = .ldt := by
          rw [now] at is_
          cases is_
          rfl
        cases (global ldt).symm.trans local_

theorem segments_iff (strict : Strict r) {q : Unit → Machine → Prop} {next : Machine → Prop}
    (pages : ∀ done m, Loaded host ts mid done m → Pages host m r) (groups : List (List Reg)) :
    ∀ done m, Loaded host ts mid done m → Orderly done groups →
      (∀ n, Loaded host ts mid (done ++ groups.flatten) n → (q () n ↔ next n)) →
      ((SegmentsSound host ts groups m ∧ Ensures (restoreSegments host ts groups) m q r) ↔
        SegmentsKept host ts groups next m) := by
  induction groups with
  | nil =>
    intro done m loaded _ same
    rw [List.flatten_nil, List.append_nil] at same
    exact ⟨fun both => (same m loaded).mp both.2, fun kept => ⟨trivial, (same m loaded).mpr kept⟩⟩
  | cons group rest ih =>
    intro done m loaded orderly same
    obtain ⟨once, fresh, first, later⟩ := orderly
    unfold SegmentsSound restoreSegments SegmentsKept
    rw [ensures_bind, and_assoc, ensures_and,
      group_iff strict loaded.quiet (pages done m loaded)]
    refine group_kept_congr group fun descs all => ?_
    rw [ensures_bind, ensures_modify]
    apply ih (done ++ group) _ (loaded_step loaded all once fresh first) later
    rw [List.append_assoc]
    exact same

end

section
variable {host : Host} {ts : VmTaskSwitch} {mid m : Machine}

theorem in_new_strict (host : Host) (ts : VmTaskSwitch) (mid : Machine) :
    Strict (FaultsInNew host ts mid) :=
  strict_of_ends fun _ _ faults => faults.fault.ends

theorem in_new_faults {done : List Reg} {exception : Fault} (loaded : Loaded host ts mid done m)
    (prescribed : Prescribed host ts { m with injected := [exception] } exception) :
    FaultsInNew host ts mid .fault { m with injected := [exception] } :=
  ⟨⟨rfl, exception, rfl, prescribed⟩, loaded.regs, loaded.mem, loaded.others⟩

theorem in_new_pages {done : List Reg} (loaded : Loaded host ts mid done m) :
    Pages host m (FaultsInNew host ts mid) :=
  fun _ paging gla len prot fails => in_new_faults loaded (.page paging gla len prot fails)

theorem loaded_completes {regs : Reg → BitVec 64} {mem : Mem} {intinfo : BitVec 64}
    (loaded : Loaded host ts mid segments m)
    (same : ts.errcodeValid = false → regs = mid.regs ∧ mem = mid.mem)
    (pushed : ts.errcodeValid = true → ∃ gla iov,
      errcodeGla m ts.paging 4 = some gla ∧
      host.copySetup mid.mem ts.paging gla 4 ⟨false, true⟩ = .mapped iov ∧
      mem = scatter mid.mem iov (write32 (fun _ => 0) 0 ts.errcode) 4 ∧
      regs = Function.update mid.regs .rsp ((pushedEsp mid 4).setWidth 64)) :
    Completed host ts mid ⟨regs, m.descs, mem, [], intinfo⟩ := by
  refine ⟨rfl, ?_, loaded.others, same, ?_⟩
  · intro seg member
    exact from_checked_congr (loaded.sound seg member) loaded.regs.symm loaded.mem.symm rfl
      fun _ => rfl
  · intro valid
    obtain ⟨gla, iov, address, rest⟩ := pushed valid
    refine ⟨gla, iov, Eq.trans ?_ address, rest⟩
    unfold errcodeGla pushedEsp
    rw [loaded.regs]

variable {keeps : Mem → Prop} {leaves : Area → Prop}

theorem push_iff {type : BitVec 32} (wide : isTss32 type = true)
    (loaded : Loaded host ts mid segments m) (valid : ts.errcodeValid = true)
    (writes : ∀ pushed, Distinct pushed.iov pushed.size →
      (keeps (scatter mid.mem pushed.iov pushed.image pushed.size) ↔ leaves pushed)) :
    Ensures (pushChecked host ts type >>= fun _ =>
        onlyIf (ts.reason = .idtGate) (modify fun m => { m with intinfo := 0 })) m
      (fun _ after => Completed host ts mid after ∧ keeps after.mem) (FaultsInNew host ts mid) ↔
    PushKept host ts m leaves := by
  have strict := in_new_strict host ts mid
  have bytes : errcodeBytes type = 4 := if_pos (of_decide_eq_true wide)
  have kept_iff : PushKept host ts m leaves ↔ ts.ext = true ∧ ts.reason = .idtGate ∧
      ∀ gla, errcodeGla m ts.paging 4 = some gla →
        vieAlignmentCheck ts.paging.cpl 4 (m.regs .cr0) (m.regs .rflags) gla = false →
          OnCopy (host.copySetup m.mem ts.paging gla 4 ⟨false, true⟩) True fun iov =>
            leaves (pushedArea ts iov) :=
    ⟨fun kept => kept valid, fun kept _ => kept⟩
  unfold pushChecked
  rw [kept_iff, ensures_bind, ensures_bind, ensures_check]
  cases external : ts.ext with
  | false => exact iff_of_false (strict.assertion _) fun kept => by cases kept.1
  | true =>
    rw [if_pos rfl, ensures_bind, ensures_check]
    by_cases gate : ts.reason = .idtGate
    · rw [decide_eq_true gate, if_pos rfl]
      unfold pushErrcode
      rw [ensures_bind, ensures_get]
      dsimp only
      rw [bytes]
      simp only [gate, true_and]
      cases address : errcodeGla m ts.paging 4 with
      | none =>
        dsimp only
        unfold selException
        rw [ensures_bind, ensures_inject loaded.quiet]
        exact iff_of_true (in_new_faults loaded (.stack address)) (by simp)
      | some gla =>
        dsimp only
        rw [ensures_ite]
        cases odd : vieAlignmentCheck ts.paging.cpl 4 (m.regs .cr0) (m.regs .rflags) gla with
        | true =>
          rw [if_pos rfl, ensures_bind, ensures_inject loaded.quiet]
          refine iff_of_true (in_new_faults loaded (.alignment address odd)) ?_
          intro other same aligned
          cases same
          cases odd.symm.trans aligned
        | false =>
          rw [if_neg Bool.false_ne_true, ensures_bind,
            ensures_copy strict loaded.quiet (in_new_pages loaded)]
          refine Iff.trans (on_copy_congr fun iov mapped => ?_)
            ⟨fun kept other same _ => by cases same; exact kept, fun kept => kept gla rfl odd⟩
          have distinct : Distinct iov 4 := host.distinct mapped (by decide)
          unfold vmCopyout
          rw [ensures_bind, ensures_modify, ensures_modify, ensures_only_if,
            if_pos gate, ensures_modify, ← writes (pushedArea ts iov) distinct, ← loaded.mem]
          refine and_iff_right ?_
          have quiet := loaded.quiet
          obtain ⟨regs, descs, mem, injected, intinfo⟩ := m
          cases quiet
          refine @loaded_completes host ts mid ⟨regs, descs, mem, [], intinfo⟩
            (Function.update regs .rsp ((pushedEsp ⟨regs, descs, mem, [], intinfo⟩ 4).setWidth 64))
            (scatter mem iov (write32 (fun _ => 0) 0 ts.errcode) 4) 0 loaded
            (fun never => by cases valid.symm.trans never) fun _ => ?_
          refine ⟨gla, iov, address, ?_, ?_, ?_⟩
          · rw [← loaded.mem]
            exact mapped
          · rw [← loaded.mem]
          · rw [pushedEsp, pushedEsp, ← loaded.regs]
    · rw [decide_eq_false gate]
      exact iff_of_false (strict.assertion _) fun kept => gate kept.2.1

theorem enter_segments_iff {new : NewTask} (wide : isTss32 new.type = true)
    (quiet : mid.injected = []) (entered : keeps mid.mem)
    (writes : ∀ pushed, Distinct pushed.iov pushed.size →
      (keeps (scatter mid.mem pushed.iov pushed.image pushed.size) ↔ leaves pushed)) :
    (SegmentsSound host ts segmentGroups mid ∧ Ensures (enterSegments host ts new) mid
        (fun _ after => Completed host ts mid after ∧ keeps after.mem) (FaultsInNew host ts mid)) ↔
      SegmentsKept host ts segmentGroups (fun n => PushKept host ts n leaves) mid := by
  unfold enterSegments
  rw [ensures_bind]
  have start : Loaded host ts mid [] mid :=
    ⟨rfl, rfl, quiet, fun _ _ => rfl, nofun⟩
  refine segments_iff (in_new_strict host ts mid) (fun done m loaded => in_new_pages loaded)
    segmentGroups [] mid start segments_orderly fun n loaded => ?_
  rw [ensures_bind, ensures_only_if]
  cases valid : ts.errcodeValid with
  | true =>
    rw [if_pos rfl, ← ensures_bind]
    exact push_iff wide loaded valid writes
  | false =>
    have nothing : PushKept host ts n leaves := fun never => by cases valid.symm.trans never
    rw [if_neg Bool.false_ne_true, ensures_only_if]
    refine iff_of_true ?_ nothing
    rw [← loaded.mem] at entered
    have quiet := loaded.quiet
    obtain ⟨regs, descs, mem, injected, intinfo⟩ := n
    cases quiet
    have completes : ∀ intinfo, Completed host ts mid ⟨regs, descs, mem, [], intinfo⟩ :=
      fun intinfo => loaded_completes loaded (fun _ => ⟨loaded.regs, loaded.mem⟩)
        fun never => by cases valid.symm.trans never
    split
    · exact ⟨completes 0, entered⟩
    · exact ⟨completes intinfo, entered⟩

end

end TaskSwitch
