import Bhyve.Ahci.Outcomes

namespace Ahci
open BitMasks ByteMemory Fallible BitVec

section
variable {g : Guest} {disk : Disk} {c : Command} {v : PortView}

def Faultless (refuse : Bool) (result : Except Fault PortView) : Prop :=
  ∀ f, result = .error f → refuse = false ∧ f ≠ .hangs

theorem ok_faultless (refuse : Bool) (v : PortView) : Faultless refuse (.ok v) :=
  nofun

theorem branch_faultless {test : Prop} [Decidable test] {x y : Except Fault PortView} {a b : Bool}
    (yes : test → Faultless a x) (no : ¬ test → Faultless b y) :
    Faultless (if test then a else b) (if test then x else y) := by
  split
  · rename_i holds
    exact yes holds
  · rename_i holds
    exact no holds

variable {f : Fault}

theorem write_prdt_loop_fault (entries : List PrdtEntry) : ∀ len,
    writePrdtLoop g entries len = .error f → f ≠ .hangs := by
  induction entries with
  | nil => intro len never; cases never
  | cons e rest ih =>
    intro len faulted
    unfold writePrdtLoop at faulted
    split at faulted
    · cases faulted
    · split at faulted
      · cases faulted
        decide
      · exact ih _ faulted

theorem respond_faultless (size : Nat) : Faultless false (c.respond g size v) := by
  intro f faulted
  obtain wrote | ⟨_, -, never⟩ := bind_error_split faulted
  · exact ⟨rfl, write_prdt_loop_fault _ _ wrote⟩
  · cases never

theorem pull_ioreq_fault {p : AhciPort} (faulted : pullIoreq p = .error f) : f ≠ .hangs := by
  unfold pullIoreq at faulted
  split at faulted
  · cases faulted
    decide
  · cases faulted

theorem build_iov_fault {aior : AhciIoreq} {entries : List PrdtEntry}
    (faulted : ahciBuildIov g disk aior entries = .error f) : f ≠ .hangs := by
  unfold ahciBuildIov at faulted
  dsimp only at faulted
  split_ifs at faulted
  cases faulted
  decide

theorem blockif_request_fault {k : Nat} (faulted : blockifRequest disk v k = .error f) :
    f ≠ .hangs := by
  unfold blockifRequest at faulted
  split at faulted
  · cases faulted
  · cases faulted
    decide

theorem handle_rw_faultless (done : BitVec 32) : Faultless false (ahciHandleRw g disk c done v) := by
  intro f faulted
  refine ⟨rfl, ?_⟩
  obtain pulled | ⟨_, -, faulted⟩ := bind_error_split faulted
  · exact pull_ioreq_fault pulled
  obtain built | ⟨_, -, faulted⟩ := bind_error_split faulted
  · exact build_iov_fault built
  · exact blockif_request_fault faulted

theorem handle_flush_faultless : Faultless false (ahciHandleFlush disk c v) := by
  intro f faulted
  refine ⟨rfl, ?_⟩
  obtain pulled | ⟨_, -, faulted⟩ := bind_error_split faulted
  · exact pull_ioreq_fault pulled
  · exact blockif_request_fault faulted

theorem atapi_read_faultless (done : BitVec 32) : Faultless false (atapiRead g disk c done v) := by
  intro f faulted
  refine ⟨rfl, ?_⟩
  obtain pulled | ⟨_, -, faulted⟩ := bind_error_split faulted
  · exact pull_ioreq_fault pulled
  obtain built | ⟨_, -, faulted⟩ := bind_error_split faulted
  · exact build_iov_fault built
  · exact blockif_request_fault faulted

theorem read_prdt_loop_fault (entries : List PrdtEntry) : ∀ len,
    readPrdtLoop g entries len = .error f → f ≠ .hangs := by
  induction entries with
  | nil => intro len never; cases never
  | cons e rest ih =>
    intro len faulted
    unfold readPrdtLoop at faulted
    split at faulted
    · cases faulted
    · split at faulted
      · cases faulted
        decide
      · dsimp only at faulted
        cases read : readPrdtLoop g rest (len - min len e.size.toNat) with
        | error f' =>
          rw [read] at faulted
          cases faulted
          exact ih _ read
        | ok bytes =>
          rw [read] at faulted
          cases faulted

theorem trim_scan_ends (buf : Nat → BitVec 8) {len : BitVec 32} (fuel : Nat) :
    ∀ done : BitVec 32, len.toNat ≤ done.toNat + 8 * fuel → done.toNat + 8 * fuel < 2 ^ 32 →
      done.toNat < len.toNat → trimScan buf len fuel done ≠ .error f := by
  induction fuel with
  | zero => intro done enough _ inside; omega
  | succ fuel ih =>
    intro done enough small inside
    have next : (done + 8).toNat = done.toNat + 8 := by
      rw [toNat_add, show (8 : BitVec 32).toNat = 8 from rfl]
      omega
    unfold trimScan
    split_ifs with entry beyond
    · exact nofun
    · exact nofun
    · have below : done.toNat + 8 < len.toNat := by
        rw [le_def, next] at beyond
        omega
      exact ih (done + 8) (by omega) (by omega) (by omega)

theorem trim_scan_more (buf : Nat → BitVec 8) {len : BitVec 32} (fuel more : Nat) :
    ∀ done, trimScan buf len fuel done ≠ .error .hangs →
      trimScan buf len (fuel + more) done = .error f →
      trimScan buf len fuel done = .error f := by
  induction fuel with
  | zero => intro done never; exact absurd rfl never
  | succ fuel ih =>
    intro done ends faulted
    rw [show fuel + 1 + more = fuel + more + 1 by omega] at faulted
    unfold trimScan at ends faulted ⊢
    split_ifs at ends faulted ⊢
    exact ih (done + 8) ends faulted

theorem trim_first_faultless (bytes : trimBytes c.cfis = 512) :
    Faultless false (trimFirst g disk c v) := by
  intro f faulted
  refine ⟨rfl, ?_⟩
  unfold trimFirst at faulted
  cases ran : ahciHandleDsmTrim g disk c 0 v with
  | ok result =>
    rw [ran] at faulted
    cases faulted
  | error f' =>
    rw [ran] at faulted
    cases faulted
    obtain read | ⟨buf, -, ran⟩ := bind_error_split ran
    · unfold readPrdt at read
      cases loop : readPrdtLoop g (prdtEntries g c.table c.prdtl) 512 with
      | ok bytes =>
        rw [loop] at read
        cases read
      | error f'' =>
        rw [loop] at read
        cases read
        exact read_prdt_loop_fault _ _ loop
    obtain scanned | ⟨entry, -, ran⟩ := bind_error_split ran
    · rw [bytes] at scanned
      have ends : ∀ f, trimScan buf 512 64 0 ≠ .error f := fun f =>
        trim_scan_ends buf 64 0 (by decide) (by decide) (by decide)
      exact absurd (trim_scan_more buf 64 (trimPlaces - 64) 0 (ends _) scanned) (ends _)
    · cases entry with
      | none => cases ran
      | some found =>
        obtain pulled | ⟨_, -, ran⟩ := bind_error_split ran
        · exact pull_ioreq_fault pulled
        obtain taken | ⟨_, -, never⟩ := bind_error_split ran
        · exact blockif_request_fault taken
        · cases never

theorem write_prdt_faultless {refuse : Bool} {size : Nat} {u : PortView} (serves : refuse = false) :
    Faultless refuse (do writePrdt g c size; .ok u) := by
  intro f faulted
  obtain wrote | ⟨_, -, never⟩ := bind_error_split faulted
  · exact ⟨serves, write_prdt_loop_fault _ _ wrote⟩
  · cases never

theorem inquiry_faultless :
    Faultless (decide (c.acmd 1 &&& 1 ≠ 0 ∧ c.acmd 2 ≠ 0)) (atapiInquiry g c v) := by
  unfold atapiInquiry
  split
  · split
    · rename_i page
      rw [decide_eq_false (fun both => both.2 page)]
      exact respond_faultless _
    · exact ok_faultless _ _
  · rename_i standard
    rw [decide_eq_false (fun both => standard both.1)]
    exact respond_faultless _

theorem toc_faultless : Faultless (tocRefused c) (atapiReadToc g c v) := by
  refine branch_faultless (fun _ => ?_) fun _ => ?_
  · split
    · exact ok_faultless _ _
    · rename_i track
      rw [decide_eq_false track]
      exact respond_faultless _
  · split
    · rename_i one
      rw [decide_eq_false (fun both => both.1 one)]
      exact respond_faultless _
    · split
      · rename_i two
        rw [decide_eq_false (fun both => both.2 two)]
        exact respond_faultless _
      · exact ok_faultless _ _

theorem mode_sense_faultless : Faultless (modeRefused c) (atapiModeSense g c v) := by
  unfold atapiModeSense modeRefused
  by_cases current : c.acmd 2 >>> 6 = 0
  · rw [if_pos current, decide_eq_false (not_not.mpr current), Bool.false_or]
    split
    · rename_i recovery
      rw [decide_eq_false (fun both => both.1 recovery)]
      exact respond_faultless _
    · split
      · rename_i capabilities
        rw [decide_eq_false (fun both => both.2 capabilities)]
        exact respond_faultless _
      · exact ok_faultless _ _
  · rw [if_neg current]
    split <;> exact ok_faultless _ _

theorem stop_unit_faultless : Faultless (decide (c.acmd 4 &&& 3 = 2)) (atapiStartStopUnit c v) := by
  unfold atapiStartStopUnit
  split <;> exact ok_faultless _ _

theorem event_faultless : Faultless (decide (c.acmd 1 &&& 1 = 0))
    (atapiGetEventStatusNotification g c v) := by
  unfold atapiGetEventStatusNotification
  split
  · exact ok_faultless _ _
  · rename_i polled
    rw [decide_eq_false polled]
    exact respond_faultless _

theorem packet_faultless : Faultless (packetRefused c) (handlePacketCmd g disk c v) := by
  refine branch_faultless (fun _ => ok_faultless _ _) fun _ => ?_
  refine branch_faultless (fun _ => inquiry_faultless) fun _ => ?_
  refine branch_faultless (fun _ => respond_faultless _) fun _ => ?_
  refine branch_faultless (fun _ => toc_faultless) fun _ => ?_
  refine branch_faultless (fun _ => respond_faultless _) fun _ => ?_
  refine branch_faultless (fun _ => atapi_read_faultless 0) fun _ => ?_
  refine branch_faultless (fun _ => respond_faultless _) fun _ => ?_
  refine branch_faultless (fun _ => stop_unit_faultless) fun _ => ?_
  refine branch_faultless (fun _ => mode_sense_faultless) fun _ => ?_
  refine branch_faultless (fun _ => event_faultless) fun _ => ok_faultless _ _

theorem read_log_faultless : Faultless
    (decide (v.port.atapi = true ∨ c.prdtl = 0 ∨ c.cfis 5 ≠ 0 ∨ c.cfis 9 ≠ 0 ∨ c.cfis 12 ≠ 1 ∨
      c.cfis 13 ≠ 0) || !decide (c.cfis 4 = 0x00 ∨ c.cfis 4 = 0x10 ∨ c.cfis 4 = 0x13))
    (ahciHandleReadLog g c v) := by
  unfold ahciHandleReadLog
  split
  · exact ok_faultless _ _
  · rename_i right
    rw [decide_eq_false right, Bool.false_or]
    split
    · rename_i known
      rw [decide_eq_true known]
      exact write_prdt_faultless rfl
    · exact ok_faultless _ _

theorem identify_faultless :
    Faultless (v.port.atapi || decide (c.prdtl = 0)) (handleIdentify g c v) := by
  unfold handleIdentify
  split
  · exact ok_faultless _ _
  · rename_i serves
    exact write_prdt_faultless (by simpa using serves)

theorem atapi_identify_faultless : Faultless (!v.port.atapi) (handleAtapiIdentify g c v) := by
  unfold handleAtapiIdentify
  split
  · exact ok_faultless _ _
  · rename_i serves
    exact write_prdt_faultless (by simpa using serves)

theorem trim_faultless {test : Prop} [Decidable test] (bytes : test → trimBytes c.cfis = 512) :
    Faultless (!decide test)
      (if test then trimFirst g disk c v else .ok (c.reply abortTfd v)) := by
  split
  · rename_i good
    rw [decide_eq_true good]
    exact trim_first_faultless (bytes good)
  · exact ok_faultless _ _

theorem dispatch_faultless : Faultless (refused v.port.atapi c) (dispatchCmd g disk c v) := by
  refine branch_faultless (fun _ => identify_faultless) fun _ => ?_
  refine branch_faultless (fun _ => ok_faultless _ _) fun _ => ?_
  refine branch_faultless (fun _ => ok_faultless _ _) fun _ => ?_
  refine branch_faultless (fun _ => handle_rw_faultless 0) fun _ => ?_
  refine branch_faultless (fun _ => handle_flush_faultless) fun _ => ?_
  refine branch_faultless (fun op => trim_faultless fun good => ?_) fun _ => ?_
  · rw [trimBytes, trimNcq, op, decide_eq_false (by decide), if_neg (by decide), good.2.2.1,
      good.2.2.2]
    decide
  refine branch_faultless (fun op => trim_faultless fun good => ?_) fun _ => ?_
  · rw [trimBytes, trimNcq, op, decide_eq_true (by decide), if_pos rfl, good.2.2.2.1,
      good.2.2.2.2]
    decide
  refine branch_faultless (fun _ => read_log_faultless) fun _ => ?_
  refine branch_faultless (fun _ => ok_faultless _ _) fun _ => ?_
  refine branch_faultless (fun _ => ok_faultless _ _) fun _ => ?_
  refine branch_faultless (fun _ => ok_faultless _ _) fun _ => ?_
  refine branch_faultless (fun _ => atapi_identify_faultless) fun _ => ?_
  refine branch_faultless (fun _ => ?_) fun _ => ok_faultless _ _
  cases packet : v.port.atapi with
  | false =>
    exact ok_faultless _ _
  | true =>
    exact packet_faultless

end

section

def Progress (slot : Nat) (p : AhciPort) : Prop :=
  p.ci.getLsbD slot = false ∨ p.pending.getLsbD slot = true ∨ p.tfd &&& ataSBusy ≠ 0 ∨
    p.waitforclear = true

/-- The table holds a register FIS, and a command that is refused can be told so. -/
def Serviceable (p : AhciPort) (c : Command) : Prop :=
  c.cfis 0 = fisRegh2d ∧
    (c.cfis 1 &&& 0x80 ≠ 0 → refused p.atapi c = true → p.delivers = true)

variable {g : Guest} {disk : Disk} {c : Command} {v v' : PortView}

structure Handling (p : AhciPort) : Prop where
  running : p.cmd &&& cmdSt ≠ 0
  awake : p.atRest = false
  issued : p.handles = true

variable {p : AhciPort} {slot : Nat}

theorem handling_bits (handling : Handling p) :
    p.ci.getLsbD p.ccs = true ∧ p.pending.getLsbD p.ccs = false ∧
      p.tfd &&& (ataSBusy ||| ataSDrq) = 0 ∧ p.waitforclear = false := by
  obtain ⟨-, awake, issued⟩ := handling
  have both : (p.ci &&& ~~~p.pending).getLsbD p.ccs = true := issued
  rw [getLsbD_and, getLsbD_not, Bool.and_eq_true, Bool.and_eq_true] at both
  rw [AhciPort.atRest, Bool.or_eq_false_iff, Bool.or_eq_false_iff] at awake
  exact ⟨both.1, by simpa using both.2.2, by simpa using awake.1.2, awake.2⟩

theorem idle_not_busy {tfd : BitVec 32} (idle : tfd &&& (ataSBusy ||| ataSDrq) = 0) :
    tfd &&& ataSBusy = 0 := by
  have narrower : ataSBusy = (ataSBusy ||| ataSDrq) &&& ataSBusy := by decide
  rw [narrower, ← BitVec.and_assoc, idle]
  exact zero_and

theorem stuck_not_progress (ci : p.ci.getLsbD slot = true)
    (pending : p.pending.getLsbD slot = false) (idle : p.tfd &&& (ataSBusy ||| ataSDrq) = 0)
    (clear : p.waitforclear = false) : ¬ Progress slot p := by
  rintro (never | never | never | never)
  · rw [ci] at never
    cases never
  · rw [pending] at never
    cases never
  · exact never (idle_not_busy idle)
  · rw [clear] at never
    cases never

theorem set_ccs_flag (p : AhciPort) {flag : BitVec 32} {n : Nat} (flag_eq : flag = BitVec.twoPow 32 n)
    (low : n < 8) : (setCcs p).cmd &&& flag = p.cmd &&& flag := by
  subst flag_eq
  apply eq_of_getLsbD_eq
  intro i _
  rw [getLsbD_and, getLsbD_and, getLsbD_twoPow]
  by_cases same : n = i
  · subst same
    have outside : cmdCcsMask.getLsbD n = false := by
      revert n
      decide
    have shifted : (BitVec.ofNat 32 p.ccs <<< cmdCcsShift).getLsbD n = false := by
      simp [cmdCcsShift, low]
    have wide : n < 32 := by omega
    rw [setCcs, getLsbD_or, getLsbD_and, getLsbD_not, outside, shifted]
    simp [wide]
  · simp [same]

theorem set_ccs_delivers (p : AhciPort) : (setCcs p).delivers = p.delivers := by
  have same := set_ccs_flag p (show cmdFre = BitVec.twoPow 32 4 by decide) (by decide)
  unfold AhciPort.delivers
  rw [same]
  rfl

theorem running_after_ccs (running : p.cmd &&& cmdSt ≠ 0) : (setCcs p).cmd &&& cmdSt ≠ 0 := by
  rw [set_ccs_flag p (show cmdSt = BitVec.twoPow 32 0 by decide) (by decide)]
  exact running

theorem outcome_progress {s : Slots} {d : Bool} {p' : AhciPort}
    (outcome : Outcome c false s d p') (small : c.slot < 32) : Progress c.slot p' := by
  cases outcome with
  | failed refuses => cases refuses
  | answered _ _ slots =>
    left
    rw [show p'.ci = p'.slots.ci from rfl, slots]
    exact get_remove_same s.ci c.slot
  | taken k rest aior _ _ _ slot slots =>
    right; left
    rw [show p'.pending = p'.slots.pending from rfl, slots, ← slot]
    exact get_add_same s.pending (slot ▸ small)
  | accepted k rest aior _ _ _ slot slots =>
    left
    rw [show p'.ci = p'.slots.ci from rfl, slots]
    exact get_remove_same s.ci c.slot
  | trimmed _ _ slots =>
    left
    rw [show p'.ci = p'.slots.ci from rfl, slots]
    exact get_remove_same s.ci c.slot
  | trimmedNcq _ _ slots =>
    left
    rw [show p'.ci = p'.slots.ci from rfl, slots]
    exact get_remove_same s.ci c.slot
  | answeredTaken k rest aior _ _ _ slot slots =>
    left
    rw [show p'.ci = p'.slots.ci from rfl, slots]
    exact get_remove_same s.ci c.slot

def issuedPort (c : Command) (p : AhciPort) : AhciPort :=
  (setCcs p).note (.issued p.ccs (isNcq (c.cfis 2)))

theorem issue_unfound {f : Fault} (found : loadCommand g v.port v.port.ccs = .error f) :
    issueSlot g disk v = .error f := by
  have same : loadCommand g (setCcs v.port) v.port.ccs = .error f := found
  unfold issueSlot ahciHandleSlot
  rw [same]

theorem issue_found (found : loadCommand g v.port v.port.ccs = .ok c) : issueSlot g disk v =
      if c.cfis 0 ≠ fisRegh2d then .ok ⟨v.hba, setCcs v.port⟩
      else if c.cfis 1 &&& 0x80 ≠ 0 then
        ahciHandleCmd g disk c ⟨v.hba, issuedPort c v.port⟩
      else .ok (controlFis c ⟨v.hba, setCcs v.port⟩) := by
  have same : loadCommand g (setCcs v.port) v.port.ccs = .ok c := found
  unfold issueSlot ahciHandleSlot
  rw [same]
  rfl

theorem load_command_slot (found : loadCommand g p slot = .ok c) : c.slot = slot := by
  unfold loadCommand at found
  split at found
  · dsimp only at found
    split at found
    · cases found
      rfl
    · cases found
  · cases found

theorem load_command_fault {f : Fault} (faulted : loadCommand g p slot = .error f) :
    f ≠ .hangs := by
  unfold loadCommand at faulted
  split at faulted
  · dsimp only at faulted
    split at faulted
    · cases faulted
    · cases faulted
      decide
  · cases faulted
    decide

theorem command_handled (running : v.port.cmd &&& cmdSt ≠ 0)
    (ran : ahciHandleCmd g disk c ⟨v.hba, issuedPort c v.port⟩ = .ok v') :
    Handled c (refused v.port.atapi c) (issuedPort c v.port).slots (setCcs v.port).setting
      v.port.delivers v'.port := by
  have handled := @dispatch_handled g disk c
    ⟨v.hba, { issuedPort c v.port with tfd := v.port.tfd ||| ataSBusy }⟩ v'
    (running_after_ccs running) ran
  rw [← set_ccs_delivers]
  exact handled

theorem command_faultless : Faultless (refused v.port.atapi c)
    (ahciHandleCmd g disk c ⟨v.hba, issuedPort c v.port⟩) :=
  @dispatch_faultless g disk c
    ⟨v.hba, { issuedPort c v.port with tfd := v.port.tfd ||| ataSBusy }⟩

theorem control_fis_slots (c : Command) (u : PortView) :
    (controlFis c u).port.ci = remove u.port.ci c.slot ∧
      (controlFis c u).port.pending = u.port.pending ∧
      (controlFis c u).port.setting = u.port.setting := by
  have reset : ∀ w : PortView, (ahciPortReset w).port.ci = w.port.ci ∧
      (ahciPortReset w).port.pending = w.port.pending ∧
      (ahciPortReset w).port.setting = w.port.setting := by
    intro w
    unfold ahciPortReset
    dsimp only
    split
    · exact ⟨rfl, rfl, rfl⟩
    · unfold ahciWriteResetFisD2h
      obtain ⟨is, received, port⟩ := write_fis_port .regd2h _ _ rfl
      rw [port]
      exact ⟨rfl, rfl, rfl⟩
  unfold controlFis
  split_ifs
  · exact ⟨rfl, rfl, rfl⟩
  · obtain ⟨ci, pending, setting⟩ := reset ⟨u.hba, { u.port with reset := false }⟩
    exact ⟨congrArg (fun x => remove x c.slot) ci, pending, setting⟩
  · exact ⟨rfl, rfl, rfl⟩

theorem refused_slots {s : Slots} {d : Bool} {p' : AhciPort} (outcome : Outcome c true s d p') :
    p'.tfd &&& (ataSBusy ||| ataSDrq) = 0 ∧ p'.slots = s.fail c.slot d := by
  cases outcome with
  | failed _ idle slots => exact ⟨idle, slots⟩
  | answered serves => cases serves
  | taken _ _ _ serves => cases serves
  | accepted _ _ _ serves => cases serves
  | trimmed serves => cases serves
  | trimmedNcq serves => cases serves
  | answeredTaken _ _ _ serves => cases serves

theorem slot_progress_iff (handling : Handling v.port) :
    (∀ v', issueSlot g disk v = .ok v' → Progress v.port.ccs v'.port) ↔
      ∀ c, loadCommand g v.port v.port.ccs = .ok c → Serviceable v.port c := by
  obtain ⟨ci, pending, idle, clear⟩ := handling_bits handling
  constructor
  · intro progress c found
    have issue := @issue_found g disk c v found
    by_cases register : c.cfis 0 = fisRegh2d
    · refine ⟨register, fun command refuses => ?_⟩
      rw [if_neg (not_not.mpr register), if_pos command] at issue
      by_contra silent
      cases ran : ahciHandleCmd g disk c ⟨v.hba, issuedPort c v.port⟩ with
      | error f =>
        obtain ⟨serves, -⟩ := command_faultless f ran
        rw [refuses] at serves
        cases serves
      | ok v' =>
        have handled := command_handled handling.running ran
        rw [refuses] at handled
        obtain ⟨quiet, slots⟩ := refused_slots handled.outcome
        refine stuck_not_progress ?_ ?_ quiet ?_ (progress v' (issue.trans ran))
        · rw [show v'.port.ci = v'.port.slots.ci from rfl, slots]
          exact ci
        · rw [show v'.port.pending = v'.port.slots.pending from rfl, slots]
          exact pending
        · rw [show v'.port.waitforclear = v'.port.slots.waitforclear from rfl, slots]
          change (v.port.waitforclear || v.port.delivers) = false
          rw [clear, Bool.false_or]
          simpa using silent
    · rw [if_pos register] at issue
      exact absurd (progress _ issue) (stuck_not_progress ci pending idle clear)
  · intro serviceable v' ran
    cases found : loadCommand g v.port v.port.ccs with
    | error f =>
      cases (issue_unfound found).symm.trans ran
    | ok c =>
      have slot : c.slot = v.port.ccs := load_command_slot found
      obtain ⟨register, told⟩ := serviceable c found
      rw [issue_found found, if_neg (not_not.mpr register)] at ran
      by_cases command : c.cfis 1 &&& 0x80 ≠ 0
      · rw [if_pos command] at ran
        have handled := command_handled handling.running ran
        cases refuses : refused v.port.atapi c with
        | false =>
          rw [refuses] at handled
          rw [← slot]
          exact outcome_progress handled.outcome (slot ▸ v.port.ccs.isLt)
        | true =>
          rw [refuses] at handled
          obtain ⟨-, slots⟩ := refused_slots handled.outcome
          right; right; right
          rw [show v'.port.waitforclear = v'.port.slots.waitforclear from rfl, slots]
          change (v.port.waitforclear || v.port.delivers) = true
          rw [told command refuses, Bool.or_true]
      · rw [if_neg command] at ran
        cases ran
        left
        rw [(control_fis_slots c _).1, slot]
        exact get_remove_same _ _

structure OthersKept (p p' : AhciPort) : Prop where
  ci : ∀ s, s ≠ p.ccs.val → p'.ci.getLsbD s = p.ci.getLsbD s
  pending : ∀ s, s ≠ p.ccs.val → p'.pending.getLsbD s = p.pending.getLsbD s
  setting : p'.setting = (setCcs p).setting

theorem outcome_others {r : Bool} {s : Slots} {d : Bool} {p' : AhciPort}
    (outcome : Outcome c r s d p') {j : Nat} (apart : j ≠ c.slot) :
    p'.ci.getLsbD j = s.ci.getLsbD j ∧ p'.pending.getLsbD j = s.pending.getLsbD j := by
  change p'.slots.ci.getLsbD j = _ ∧ p'.slots.pending.getLsbD j = _
  cases outcome with
  | failed _ _ slots => rw [slots]; exact ⟨rfl, rfl⟩
  | answered _ _ slots => rw [slots]; exact ⟨get_remove_other _ apart, rfl⟩
  | taken k rest aior _ _ _ slot slots =>
    rw [slots]
    exact ⟨rfl, get_add_other _ (slot ▸ apart)⟩
  | accepted k rest aior _ _ _ slot slots =>
    rw [slots]
    exact ⟨get_remove_other _ apart, get_add_other _ (slot ▸ apart)⟩
  | trimmed _ _ slots =>
    rw [slots]
    exact ⟨get_remove_other _ apart, get_remove_other _ apart⟩
  | trimmedNcq _ _ slots =>
    rw [slots]
    exact ⟨get_remove_other _ apart, get_remove_other _ apart⟩
  | answeredTaken k rest aior _ _ _ slot slots =>
    rw [slots]
    exact ⟨get_remove_other _ apart, get_add_other _ (slot ▸ apart)⟩

theorem issue_others (running : v.port.cmd &&& cmdSt ≠ 0) (ran : issueSlot g disk v = .ok v') :
    OthersKept v.port v'.port := by
  cases found : loadCommand g v.port v.port.ccs with
  | error f =>
    cases (issue_unfound found).symm.trans ran
  | ok c =>
    have slot : c.slot = v.port.ccs := load_command_slot found
    rw [issue_found found] at ran
    split_ifs at ran
    · cases ran
      exact ⟨fun _ _ => rfl, fun _ _ => rfl, rfl⟩
    · have handled := command_handled running ran
      exact ⟨fun s apart => (outcome_others handled.outcome (slot ▸ apart)).1,
        fun s apart => (outcome_others handled.outcome (slot ▸ apart)).2, handled.setting⟩
    · cases ran
      obtain ⟨ci, pending, setting⟩ := control_fis_slots c ⟨v.hba, setCcs v.port⟩
      refine ⟨fun s apart => ?_, fun s _ => by rw [pending]; rfl, setting⟩
      rw [ci]
      exact get_remove_other _ (slot ▸ apart)

theorem issue_never_hangs {f : Fault} (faulted : issueSlot g disk v = .error f) : f ≠ .hangs := by
  cases found : loadCommand g v.port v.port.ccs with
  | error f' =>
    cases (issue_unfound found).symm.trans faulted
    exact load_command_fault found
  | ok c =>
    rw [issue_found found] at faulted
    split_ifs at faulted
    exact (command_faultless f faulted).2

end

section
variable {disk : Disk} {mem : Nat → Guest} {v v' : PortView}

def AlongIssues (disk : Disk) (q : Guest → PortView → Prop) (mem : Nat → Guest) (v : PortView) :
    Prop :=
  ∀ n u, ahciHandlePort disk n mem v = .running u → Handling u.port → q (mem n) u

def LoopEnds (disk : Disk) (mem : Nat → Guest) (v : PortView) : Prop :=
  ∃ n r, portLoop disk n mem v = .ended r ∧ r ≠ .error .hangs

theorem ends_after (stepped : portIteration (mem 0) disk v = .running v')
    (rest : LoopEnds disk (fun i => mem (i + 1)) v') : LoopEnds disk mem v := by
  obtain ⟨n, r, ended, clean⟩ := rest
  refine ⟨n + 1, r, ?_, clean⟩
  rw [portLoop, stepped]
  exact ended

theorem ends_here {r : Except Fault PortView} (stopped : portIteration (mem 0) disk v = .ended r)
    (clean : r ≠ .error .hangs) : LoopEnds disk mem v := by
  refine ⟨1, r, ?_, clean⟩
  rw [portLoop, stopped]

theorem ends_at_rest (rest : v.port.atRest = true) : LoopEnds disk mem v :=
  ends_here (by rw [portIteration, if_pos rest]) (fun never => (by cases never))

def unissuedSet (p : AhciPort) : Finset (Fin 32) :=
  Finset.univ.filter fun s => (unissued p).getLsbD s = true

theorem unissued_get (p : AhciPort) (s : Nat) (small : s < 32) :
    (unissued p).getLsbD s = (p.ci.getLsbD s && !p.pending.getLsbD s) := by
  rw [unissued, getLsbD_and, getLsbD_not, decide_eq_true small, Bool.true_and]

theorem mem_unissued (p : AhciPort) (s : Fin 32) :
    s ∈ unissuedSet p ↔ p.ci.getLsbD s = true ∧ p.pending.getLsbD s = false := by
  rw [unissuedSet, Finset.mem_filter, unissued_get p s s.isLt, Bool.and_eq_true]
  simp

theorem some_unissued {p : AhciPort} (awake : p.atRest = false) : ∃ s, s ∈ unissuedSet p := by
  rw [AhciPort.atRest, Bool.or_eq_false_iff, Bool.or_eq_false_iff, decide_eq_false_iff_not] at awake
  obtain ⟨n, set_⟩ := (ne_zero_iff _).mp awake.1.1
  have small : n < 32 := lt_of_getLsbD set_
  exact ⟨⟨n, small⟩, Finset.mem_filter.mpr ⟨Finset.mem_univ _, set_⟩⟩

theorem fewer_unissued (others : OthersKept v.port v'.port) (issued : v.port.handles = true)
    (progress : Progress v.port.ccs v'.port) : (nextCcs v').port.atRest = true ∨
      (unissuedSet (nextCcs v').port).card < (unissuedSet v.port).card := by
  have before : v.port.ccs ∈ unissuedSet v.port :=
    Finset.mem_filter.mpr ⟨Finset.mem_univ _, issued⟩
  have smaller : v.port.ccs ∉ unissuedSet (nextCcs v').port →
      (unissuedSet (nextCcs v').port).card < (unissuedSet v.port).card := by
    intro gone
    apply Finset.card_lt_card
    refine ⟨fun s member => ?_, fun all => gone (all before)⟩
    have apart : s ≠ v.port.ccs := fun same => gone (same ▸ member)
    obtain ⟨ci, pending⟩ := (mem_unissued _ s).mp member
    have apart_val : s.val ≠ v.port.ccs.val := fun same => apart (Fin.ext same)
    exact (mem_unissued _ s).mpr ⟨(others.ci s apart_val).symm.trans ci,
      (others.pending s apart_val).symm.trans pending⟩
  obtain ci | pending | busy | waits := progress
  · refine .inr (smaller fun member => ?_)
    have set_ : v'.port.ci.getLsbD v.port.ccs = true := ((mem_unissued _ _).mp member).1
    rw [ci] at set_
    cases set_
  · refine .inr (smaller fun member => ?_)
    have clear : v'.port.pending.getLsbD v.port.ccs = false := ((mem_unissued _ _).mp member).2
    rw [pending] at clear
    cases clear
  · refine .inl ?_
    have stops : v'.port.tfd &&& (ataSBusy ||| ataSDrq) ≠ 0 := fun idle => busy (idle_not_busy idle)
    change (decide _ || decide (v'.port.tfd &&& (ataSBusy ||| ataSDrq) ≠ 0) || _) = true
    rw [decide_eq_true stops, Bool.or_true, Bool.true_or]
  · refine .inl ?_
    change (_ || _ || v'.port.waitforclear) = true
    rw [waits, Bool.or_true]

theorem loop_ends (m : Nat) : ∀ mem v, v.port.cmd &&& cmdSt ≠ 0 → (v.port.atRest = true ∨
      ∃ s ∈ unissuedSet v.port, 32 * (unissuedSet v.port).card + (s - v.port.ccs).val < m) →
    (∀ n u, portLoop disk n mem v = .running u → Handling u.port →
      ∀ u', issueSlot (mem n) disk u = .ok u' → Progress u.port.ccs u'.port) →
    LoopEnds disk mem v := by
  induction m with
  | zero =>
    intro mem v _ start _
    obtain rest | ⟨s, -, never⟩ := start
    · exact ends_at_rest rest
    · cases never
  | succ m ih =>
    intro mem v running start progresses
    obtain rest | ⟨s, member, bound⟩ := start
    · exact ends_at_rest rest
    cases awake : v.port.atRest with
    | true => exact ends_at_rest awake
    | false =>
      have later : ∀ u, portIteration (mem 0) disk v = .running u →
          ∀ n w, portLoop disk n (fun i => mem (i + 1)) u = .running w → Handling w.port →
            ∀ w', issueSlot (mem (n + 1)) disk w = .ok w' → Progress w.port.ccs w'.port := by
        intro u stepped n w ran handling w' issued
        refine progresses (n + 1) w ?_ handling w' issued
        rw [portLoop, stepped]
        exact ran
      cases handles : v.port.handles with
      | true =>
        cases issued : issueSlot (mem 0) disk v with
        | error f =>
          refine ends_here (r := .error f) ?_ fun hangs => ?_
          · rw [portIteration, if_neg (by simp [awake]), if_pos handles, issued]
          · cases hangs
            exact issue_never_hangs issued rfl
        | ok u =>
          have stepped : portIteration (mem 0) disk v = .running (nextCcs u) := by
            rw [portIteration, if_neg (by simp [awake]), if_pos handles, issued]
          have others := issue_others running issued
          have still : (nextCcs u).port.cmd &&& cmdSt ≠ 0 := by
            rw [show (nextCcs u).port.cmd = (setCcs v.port).cmd from
              congrArg Setting.cmd others.setting]
            exact running_after_ccs running
          refine ends_after stepped (ih _ _ still ?_ (later _ stepped))
          obtain rest | fewer := fewer_unissued others handles
            (progresses 0 v rfl ⟨running, awake, handles⟩ u issued)
          · exact .inl rest
          · cases awake' : (nextCcs u).port.atRest with
            | true => exact .inl rfl
            | false =>
              obtain ⟨s', member'⟩ := some_unissued awake'
              refine .inr ⟨s', member', ?_⟩
              omega
      | false =>
        have stepped : portIteration (mem 0) disk v = .running (nextCcs v) := by
          rw [portIteration, if_neg (by simp [awake]), if_neg (by simp [handles])]
        refine ends_after stepped (ih _ _ running (.inr ⟨s, member, ?_⟩) (later _ stepped))
        have apart : s ≠ v.port.ccs := by
          intro same
          rw [AhciPort.handles, ← same, (Finset.mem_filter.mp member).2] at handles
          cases handles
        have nearer : (s - (v.port.ccs + 1)).val + 1 = (s - v.port.ccs).val := by
          rw [Fin.sub_def, Fin.sub_def, Fin.add_def]
          simp only [Fin.val_one]
          omega
        change 32 * (unissuedSet v.port).card + (s - (v.port.ccs + 1)).val < m
        omega

end

section
variable {disk : Disk} {mem : Nat → Guest} {v : PortView}

/-- A call of ahci_handle_port comes to its end, be it the abort of the process, and each of its
    iterations that handles a slot makes progress. -/
structure IssueTerminates (disk : Disk) (mem : Nat → Guest) (v : PortView) : Prop where
  ends : ∃ n r, ahciHandlePort disk n mem v = .ended r ∧ r ≠ .error .hangs
  progress : AlongIssues disk
    (fun g u => ∀ u', issueSlot g disk u = .ok u' → Progress u.port.ccs u'.port) mem v

/-- Each slot that is handled holds a register FIS, and a command that is not refused while the
    port receives no FISes. -/
def IssuesServiceable (disk : Disk) (mem : Nat → Guest) (v : PortView) : Prop :=
  AlongIssues disk
    (fun g u => ∀ c, loadCommand g u.port u.port.ccs = .ok c → Serviceable u.port c) mem v

theorem progress_iff_serviceable (disk : Disk) (mem : Nat → Guest) (v : PortView) :
    AlongIssues disk (fun g u => ∀ u', issueSlot g disk u = .ok u' → Progress u.port.ccs u'.port)
      mem v ↔ IssuesServiceable disk mem v := by
  constructor
  · intro progress n u ran handling
    exact (slot_progress_iff handling).mp (progress n u ran handling)
  · intro serviceable n u ran handling
    exact (slot_progress_iff handling).mpr (serviceable n u ran handling)

theorem handle_port_ends (progress : AlongIssues disk
      (fun g u => ∀ u', issueSlot g disk u = .ok u' → Progress u.port.ccs u'.port) mem v) :
    ∃ n r, ahciHandlePort disk n mem v = .ended r ∧ r ≠ .error .hangs := by
  by_cases stopped : v.port.cmd &&& cmdSt = 0
  · exact ⟨0, .ok v, by rw [ahciHandlePort, if_pos stopped], nofun⟩
  · have loop : ∀ n, ahciHandlePort disk n mem v = portLoop disk n mem v := fun n => by
      rw [ahciHandlePort, if_neg stopped]
    simp only [AlongIssues, loop] at progress ⊢
    cases rest : v.port.atRest with
    | true => exact ends_at_rest rest
    | false =>
      obtain ⟨s, member⟩ := some_unissued rest
      exact loop_ends _ mem v stopped (.inr ⟨s, member, Nat.lt_succ_self _⟩) progress

theorem issue_terminates_iff (disk : Disk) (mem : Nat → Guest) (v : PortView) :
    IssueTerminates disk mem v ↔ IssuesServiceable disk mem v := by
  have agree := progress_iff_serviceable disk mem v
  constructor
  · exact fun holds => agree.mp holds.progress
  · intro serviceable
    have progress := agree.mpr serviceable
    exact ⟨handle_port_ends progress, progress⟩

def zeroGuest : Guest where
  host := fun address _ => some address.toNat
  byte := fun _ => 0
  stack := fun _ => 0

def zeroEnv : Env where
  disk := ⟨512, true⟩
  guest := zeroGuest
  mem := fun _ => zeroGuest
  fuel := 1
  cancels := fun _ => false

structure FirstIssued (p : AhciPort) : Prop where
  ci : p.ci = 1
  pending : p.pending = 0
  tfd : p.tfd &&& (ataSBusy ||| ataSDrq) = 0
  waits : p.waitforclear = false
  bctx : p.bctx = true
  list : p.cmdLst = some 0

theorem zero_header (slot : Nat) : cmdHdr zeroGuest 0 slot = (0, 0) := by
  have none16 : (read16 zeroGuest.byte (0 + slot * ahciClSize + 2)).toNat = 0 := by
    simp [read16, zeroGuest]
  have none64 : read64 zeroGuest.byte (0 + slot * ahciClSize + 8) = 0 := by
    simp [read64, read32, read16, zeroGuest]
  rw [cmdHdr, none16, none64]

theorem first_issued_again (disk : Disk) {v : PortView} (first : FirstIssued v.port) :
    ∃ u, portIteration zeroGuest disk v = .running u ∧ FirstIssued u.port := by
  have awake : v.port.atRest = false := by
    rw [AhciPort.atRest, unissued, first.ci, first.pending, first.tfd, first.waits]
    decide
  rw [portIteration, if_neg (by simp [awake])]
  split
  · have found : loadCommand zeroGuest v.port v.port.ccs =
        .ok ⟨v.port.ccs, 0, readCfis zeroGuest 0, 0⟩ := by
      unfold loadCommand
      rw [first.bctx, first.list]
      simp only [zero_header]
      rfl
    have other : readCfis zeroGuest 0 0 ≠ fisRegh2d := by decide
    rw [issue_found found, if_pos other]
    exact ⟨_, rfl, first.ci, first.pending, first.tfd, first.waits, first.bctx, first.list⟩
  · exact ⟨_, rfl, first.ci, first.pending, first.tfd, first.waits, first.bctx, first.list⟩

theorem first_issued_forever (disk : Disk) (n : Nat) : ∀ v, FirstIssued v.port →
    ∃ u, portLoop disk n (fun _ => zeroGuest) v = .running u := by
  induction n with
  | zero => exact fun v _ => ⟨v, rfl⟩
  | succ n ih =>
    intro v first
    obtain ⟨u, stepped, again⟩ := first_issued_again disk first
    rw [portLoop, stepped]
    exact ih u again

def firstWritten (s : PciAhciSoftc) : PortView := ⟨s.hba, { s.port 0 with ci := (s.port 0).ci ||| 1 }⟩

def AhciPort.issuing (p : AhciPort) : List (BitVec 32) × List Bool × Option Nat :=
  ([p.cmd &&& cmdSt, p.ci, p.pending, p.tfd &&& (ataSBusy ||| ataSDrq)],
    [p.waitforclear, p.bctx], p.cmdLst)

theorem zero_table_loops :
    ∃ s, pciAhciWrite zeroEnv (ahciOffset + pCmd) (cmdSt ||| cmdFre) (pciAhciInit [some false]) =
        .ok s ∧ ¬ IssueTerminates zeroEnv.disk zeroEnv.mem (firstWritten s) := by
  have started : (pciAhciWrite zeroEnv (ahciOffset + pCmd) (cmdSt ||| cmdFre)
      (pciAhciInit [some false])).toOption.map (fun s => (firstWritten s).port.issuing) =
        some ([1, 1, 0, 0], [false, true], some 0) := by decide
  obtain ⟨s, ran, state⟩ := Fallible.value_of_result started
  simp only [AhciPort.issuing, Prod.mk.injEq, List.cons.injEq, and_true] at state
  obtain ⟨⟨st, ci, pending, tfd⟩, ⟨waits, bctx⟩, list⟩ := state
  refine ⟨s, ran, fun terminates => ?_⟩
  obtain ⟨n, r, ended, -⟩ := terminates.ends
  obtain ⟨u, running⟩ := first_issued_forever zeroEnv.disk n _
    ⟨ci, pending, tfd, waits, bctx, list⟩
  rw [ahciHandlePort, if_neg (by rw [st]; decide)] at ended
  have both := ended.symm.trans running
  cases both

end
end Ahci
