import Bhyve.Vmm.Ledger

/-!
Whole runs of event injection: what the loop of vmx_run, other threads and the processor can do.
The processor exits for a window only when its control is set, for an NMI window only when nothing
blocks NMIs and no event is under way, and reports types and vectors of VT-x.
-/
namespace VmmInjection
open StepRuns List
open VmmVlapic (InService)

def InRange : VmmVlapic.Event → Prop
  | .intrReady vector _ => 0 ≤ vector ∧ vector < 256
  | _ => True

/-- A word of the processor, in which bit 12 has no fixed meaning. -/
def Reported (info : IntrInfo) : Prop := WellFormed { info with bit12 := false }

def Sensible (s : Vcpu) : Reason → Prop
  | .intrWindow => s.intWindow = true
  | .nmiWindow =>
      s.nmiWindow = true ∧ s.gi &&& nmiBlocking = 0 ∧ s.vectoringInfo.valid = false
  | .taskSwitch idtGate =>
      (idtGate = true → s.vectoringInfo.valid = true) ∧
        (s.vectoringInfo.valid = true ∧ s.vectoringInfo.type = .nmi → s.gi &&& nmiOnly ≠ 0)
  | .extIntr info => info.valid = true → info.type = .hwintr
  | .exception info _ _ =>
      info.valid = true ∧ Reported info ∧ info.type ≠ .hwintr ∧ info.type ≠ .swintr
  | _ => True

def Enters (s : Vcpu) (exit : Exit) : Entry → Prop
  | .failed => exit.reason = .mceDuringEntry
  | .delivered none =>
      exit.reason ≠ .mceDuringEntry ∧ Sensible (vmEntry s exit (.delivered none)).2 exit.reason
  | .delivered (some own) =>
      exit.reason ≠ .mceDuringEntry ∧ (own.info.valid = true ∧ Reported own.info) ∧
        Sensible (vmEntry s exit (.delivered (some own))).2 exit.reason
  | .interrupted bit12 =>
      exit.reason ≠ .mceDuringEntry ∧ s.entryInfo.valid = true ∧
        Sensible (vmEntry s exit (.interrupted bit12)).2 exit.reason

/-- What can happen in a state. Exceptions come up and registers are accessed outside of the
    loop's stretch from the injection to the exit, in which only other threads act. -/
def Possible (s : Vcpu) : Action → Prop
  | .exception _ _ _ _ => s.phase = .idle
  | .apicAccess e => s.phase = .idle ∧ InRange e
  | .inject _ _ _ => s.phase = .idle
  | .abandon => s.phase = .injected
  | .enter entry exit => s.phase = .injected ∧ s.suspended = false ∧ Enters s exit entry
  | .process => s.phase ≠ .idle ∧ s.phase ≠ .injected
  | _ => True

def catchesDoubleFault : Reason → Bool
  | .exception info _ _ => decide (info.vector = idtDf)
  | _ => false

/-- No exception waits behind an abandoned entry, no interrupt is taken for #BP or #OF, no
    double fault is caught. -/
def Clear (s : Vcpu) : Action → Prop
  | .inject _ _ _ =>
      ¬ (s.entryInfo.valid = true ∧ s.exceptionPending = true) ∧
        (s.exitintinfo.info.valid = true → Plain s.exitintinfo.info)
  | .enter _ exit => catchesDoubleFault exit.reason = false
  | _ => True

instance decidableInRange : (e : VmmVlapic.Event) → Decidable (InRange e)
  | .intrReady vector _ => inferInstanceAs (Decidable (0 ≤ vector ∧ vector < 256))
  | .writeTpr _ | .writeCr8 _ | .shadowTpr _ | .writeEoi | .writeSvr _ | .writeLvtError _
  | .setTmr _ _ | .pendingIntr | .accept => .isTrue trivial

instance decidableSensible (s : Vcpu) : (reason : Reason) → Decidable (Sensible s reason)
  | .intrWindow => inferInstanceAs (Decidable (s.intWindow = true))
  | .nmiWindow => inferInstanceAs (Decidable (_ ∧ _ ∧ _))
  | .taskSwitch _ => inferInstanceAs (Decidable ((_ → _) ∧ (_ ∧ _ → _ ≠ _)))
  | .extIntr _ => inferInstanceAs (Decidable (_ → _))
  | .exception info _ _ =>
      have : Decidable (Reported info) := decidableWellFormed _
      inferInstanceAs (Decidable (_ ∧ Reported info ∧ _ ≠ _ ∧ _ ≠ _))
  | .mceDuringEntry | .eptFault _ | .other => .isTrue trivial

instance decidableEnters (s : Vcpu) (exit : Exit) : (entry : Entry) → Decidable (Enters s exit entry)
  | .failed => inferInstanceAs (Decidable (exit.reason = .mceDuringEntry))
  | .delivered none => inferInstanceAs (Decidable (_ ≠ _ ∧ Sensible _ _))
  | .delivered (some own) =>
      have : Decidable (Reported own.info) := decidableWellFormed _
      inferInstanceAs (Decidable (_ ≠ _ ∧ (_ ∧ Reported own.info) ∧ Sensible _ _))
  | .interrupted _ => inferInstanceAs (Decidable (_ ≠ _ ∧ _ ∧ Sensible _ _))

instance decidablePossible (s : Vcpu) : (a : Action) → Decidable (Possible s a)
  | .exception _ _ _ _ => inferInstanceAs (Decidable (s.phase = .idle))
  | .apicAccess e => inferInstanceAs (Decidable (s.phase = .idle ∧ InRange e))
  | .inject _ _ _ => inferInstanceAs (Decidable (s.phase = .idle))
  | .abandon => inferInstanceAs (Decidable (s.phase = .injected))
  | .enter entry exit =>
      inferInstanceAs (Decidable (s.phase = .injected ∧ s.suspended = false ∧ Enters s exit entry))
  | .process => inferInstanceAs (Decidable (s.phase ≠ .idle ∧ s.phase ≠ .injected))
  | .nmi | .extint | .lapicIntr _ _ => .isTrue trivial

instance decidablePlain (info : IntrInfo) : Decidable (Plain info) :=
  inferInstanceAs (Decidable (_ ∨ _ → _ ≠ _ ∧ _ ≠ _))

instance decidableClear (s : Vcpu) : (a : Action) → Decidable (Clear s a)
  | .inject _ _ _ => inferInstanceAs (Decidable (¬ (_ ∧ _) ∧ (_ → Plain s.exitintinfo.info)))
  | .enter _ exit => inferInstanceAs (Decidable (catchesDoubleFault exit.reason = false))
  | .exception _ _ _ _ | .nmi | .extint | .lapicIntr _ _ | .apicAccess _ | .abandon | .process =>
      .isTrue trivial

/-- An NMI or an interrupt that still waits has its window-exiting control set, or was
    requested after the injection, with an interrupt on its way to the processor. -/
structure WindowsSet (vid : Bool) (s : Vcpu) : Prop where
  nmi : s.nmiPending = true → s.nmiWindow = true ∨ s.notified = true
  extint : s.extintPending = true → s.intWindow = true ∨ s.notified = true
  apic : vid = false → (s.intWindow = true ∨ s.notified = true) ∨ Quiet s

structure Basic (s : Vcpu) : Prop where
  service : InService s.vlapic
  small : s.exceptionPending = true → s.excVector.toNat < 32
  entry : s.entryInfo.valid = true → WellFormed s.entryInfo
  back : s.exitintinfo.info.valid = true → WellFormed s.exitintinfo.info
  single : s.entryInfo.valid = true → s.exitintinfo.info.valid = false

structure Left (s : Vcpu) (reason : Reason) : Prop where
  entry : s.entryInfo.valid = false
  vectoring : s.vectoringInfo.valid = true → Reported s.vectoringInfo
  sensible : Sensible s reason
  reflected : catchesDoubleFault reason = false

structure Inv (cfg : Config) (s : Vcpu) : Prop where
  basic : Basic s
  busy : s.phase ≠ .idle → s.exitintinfo.info.valid = false ∧ s.exceptionPending = false
  windows : s.phase = .injected → WindowsSet cfg.vid s
  left : ∀ exit, s.phase = .exited exit → exit.reason = .mceDuringEntry ∨ Left s exit.reason

section
variable {cfg : Config} {s : Vcpu}

theorem inv_idle (basic : Basic s) (idle : s.phase = .idle) : Inv cfg s := by
  refine ⟨basic, fun apart => absurd idle apart, fun never => ?_, fun exit never => ?_⟩
  · rw [idle] at never
    cases never
  · rw [idle] at never
    cases never

def Goes (cfg : Config) (s : Vcpu) (a : Action) : Prop :=
  ∃ records s', act cfg s a = .ok (records, s') ∧ Inv cfg s' ∧ Suspends s records s' ∧
    Keeps s records s'

theorem inject_exception_taken (none_ : s.exceptionPending = false) {vector : Int}
    (range : 0 ≤ vector ∧ vector < 32) (other : vector ≠ idtDf.toNat) (errcodeValid : Bool)
    (errcode : BitVec 32) (cr0Pe : Bool) :
    ∃ errcodeValid', vmInjectException s vector errcodeValid errcode cr0Pe =
      (.ok, [.requested (.exception (BitVec.ofNat 8 vector.toNat)
          (if errcodeValid' then some errcode else none))],
        { s with gi := s.gi &&& ~~~hwintrBlocking, exceptionPending := true,
                 excVector := BitVec.ofNat 8 vector.toNat, excErrcode := errcode,
                 excErrcodeValid := errcodeValid' }) := by
  unfold vmInjectException
  rw [if_neg (by omega), if_neg other, if_neg (by rw [none_]; exact Bool.false_ne_true)]
  exact ⟨_, rfl⟩

theorem inject_exception_refused (vector : Int) (errcodeValid : Bool) (errcode : BitVec 32)
    (cr0Pe : Bool) (refused : ¬ (s.exceptionPending = false ∧ (0 ≤ vector ∧ vector < 32) ∧
      vector ≠ idtDf.toNat)) :
    (vmInjectException s vector errcodeValid errcode cr0Pe).2 = ([], s) := by
  unfold vmInjectException
  split
  · rfl
  · next range =>
    split
    · rfl
    · next other =>
      split
      · rfl
      · next idle => exact absurd ⟨Bool.eq_false_iff.mpr idle, by omega, other⟩ refused

theorem vector_small {vector : Int} (range : 0 ≤ vector ∧ vector < 32) :
    (BitVec.ofNat 8 vector.toNat).toNat < 32 := by
  have below : vector.toNat < 32 := by omega
  exact Nat.lt_of_le_of_lt (Nat.mod_le ..) below

theorem exception_keeps (basic : Basic s) (none_ : s.exceptionPending = false)
    {vector : Int} (range : 0 ≤ vector ∧ vector < 32) (gi errcode : BitVec 32)
    (errcodeValid : Bool) {s' : Vcpu}
    (after : s' = { s with gi := gi, exceptionPending := true,
                           excVector := BitVec.ofNat 8 vector.toNat, excErrcode := errcode,
                           excErrcodeValid := errcodeValid }) :
    Basic s' ∧ Keeps s [.requested (.exception (BitVec.ofNat 8 vector.toNat)
      (if errcodeValid then some errcode else none))] s' := by
  subst after
  constructor
  · exact ⟨basic.service, fun _ => vector_small range, basic.entry, basic.back, basic.single⟩
  · intro e
    rw [in_flight_count, in_flight_count, none_, held_none]
    simp only [held_one, exceptionEvent, flatMap_cons, flatMap_nil, credit, debit,
      append_nil, count_nil, inVectoring]
    omega

theorem goes_exception (inv : Inv cfg s) (idle : s.phase = .idle) (vector : Int)
    (errcodeValid : Bool) (errcode : BitVec 32) (cr0Pe : Bool) :
    Goes cfg s (.exception vector errcodeValid errcode cr0Pe) := by
  by_cases taken : s.exceptionPending = false ∧ (0 ≤ vector ∧ vector < 32) ∧
      vector ≠ idtDf.toNat
  · obtain ⟨none_, range, other⟩ := taken
    obtain ⟨errcodeValid', done⟩ :=
      inject_exception_taken none_ range other errcodeValid errcode cr0Pe
    obtain ⟨basic, kept⟩ := exception_keeps inv.basic none_ range (s.gi &&& ~~~hwintrBlocking)
      errcode errcodeValid' rfl
    refine ⟨_, _, ?_, inv_idle basic idle, suspends_not rfl rfl, kept⟩
    simp only [act, done]
  · refine ⟨[], s, ?_, inv, suspends_not rfl rfl, Accounts.keeps_nothing fun e => rfl⟩
    simp only [act, inject_exception_refused vector errcodeValid errcode cr0Pe taken]

def requested (s : Vcpu) (nmi extint : Bool) (vlapic : VmmVlapic.Vlapic) (notified : Bool) : Vcpu :=
  { s with nmiPending := nmi, extintPending := extint, vlapic := vlapic, notified := notified }

theorem inv_requested (inv : Inv cfg s) {nmi extint : Bool} {vlapic : VmmVlapic.Vlapic}
    {notified : Bool} (service : InService vlapic)
    (windows : s.phase = .injected → WindowsSet cfg.vid (requested s nmi extint vlapic notified)) :
    Inv cfg (requested s nmi extint vlapic notified) := by
  obtain ⟨⟨-, small, entry, back, single⟩, busy, -, left⟩ := inv
  refine ⟨⟨service, small, entry, back, single⟩, busy, windows, fun exit phase => ?_⟩
  obtain early | ⟨free, vectoring, sensible, reflected⟩ := left exit phase
  · exact .inl early
  · refine .inr ⟨free, vectoring, ?_, reflected⟩
    cases reason : exit.reason <;> rw [reason] at sensible <;> exact sensible

theorem windows_notified (vid : Bool) (nmi extint : Bool) (vlapic : VmmVlapic.Vlapic) :
    WindowsSet vid (requested s nmi extint vlapic true) :=
  ⟨fun _ => .inr rfl, fun _ => .inr rfl, fun _ => .inl (.inr rfl)⟩

theorem inv_notified (inv : Inv cfg s) {nmi extint : Bool} {vlapic : VmmVlapic.Vlapic}
    (service : InService vlapic) : Inv cfg (vcpuNotifyEvent
      { s with nmiPending := nmi, extintPending := extint, vlapic := vlapic }) := by
  unfold vcpuNotifyEvent
  split
  · next idle =>
    refine @inv_requested cfg s inv nmi extint vlapic s.notified service fun never => ?_
    exact absurd (idle.symm.trans never) nofun
  · exact @inv_requested cfg s inv nmi extint vlapic true service fun _ => windows_notified ..

theorem notify_in_flight (s : Vcpu) : inFlight (vcpuNotifyEvent s) = inFlight s := by
  unfold vcpuNotifyEvent
  split
  · rfl
  · rfl

theorem notify_suspended (s : Vcpu) : (vcpuNotifyEvent s).suspended = s.suspended := by
  unfold vcpuNotifyEvent
  split
  · rfl
  · rfl

theorem goes_nmi (inv : Inv cfg s) : Goes cfg s .nmi := by
  refine ⟨_, _, rfl, @inv_notified cfg s inv true s.extintPending s.vlapic inv.basic.service,
    suspends_not (notify_suspended _) ?_, ?_⟩
  · cases s.nmiPending <;> rfl
  cases pending : s.nmiPending with
  | true =>
    refine Accounts.keeps_nothing fun e => ?_
    rw [notify_in_flight, in_flight_count, in_flight_count, pending]
    rfl
  | false =>
    intro e
    rw [notify_in_flight, in_flight_count, in_flight_count, pending, held_none]
    simp only [held_one, exceptionEvent, Bool.false_eq_true, ↓reduceIte, flatMap_cons,
      flatMap_nil, credit, debit, append_nil, count_nil, inVectoring]
    omega

theorem goes_extint (inv : Inv cfg s) : Goes cfg s .extint := by
  refine ⟨_, _, rfl, @inv_notified cfg s inv s.nmiPending true s.vlapic inv.basic.service,
    suspends_not (notify_suspended _) rfl, Accounts.keeps_nothing fun e => ?_⟩
  exact congrArg (List.count e) (notify_in_flight _)

theorem lapic_set_intr_cases (service : InService s.vlapic) (vector : Int) (level : Bool) :
    lapicSetIntr s vector level = .ok s ∨
      ∃ vlapic, InService vlapic ∧
        lapicSetIntr s vector level = .ok (vcpuNotifyEvent { s with vlapic := vlapic }) := by
  unfold lapicSetIntr
  split
  · exact .inl rfl
  · next range =>
    obtain ⟨ready, vlapic, done, same, idle⟩ | ⟨invalid, -⟩ :=
      @VmmVlapic.set_intr_ready_service s.vlapic vector level
    · rw [done]
      cases ready with
      | true => exact .inr ⟨vlapic, VmmVlapic.same_in_service same service, rfl⟩
      | false =>
        rw [idle rfl]
        exact .inl rfl
    · exact absurd ⟨by omega, by omega⟩ invalid

theorem goes_lapic_intr (inv : Inv cfg s) (vector : Int) (level : Bool) :
    Goes cfg s (.lapicIntr vector level) := by
  obtain refused | ⟨vlapic, service, done⟩ := lapic_set_intr_cases inv.basic.service vector level
  · exact ⟨[], s, by rw [act, refused]; rfl, inv, suspends_not rfl rfl,
      Accounts.keeps_nothing fun e => rfl⟩
  · refine ⟨[], _, by rw [act, done]; rfl,
      @inv_notified cfg s inv s.nmiPending s.extintPending vlapic service,
      suspends_not (notify_suspended _) rfl, Accounts.keeps_nothing fun e => ?_⟩
    exact congrArg (List.count e) (notify_in_flight _)

theorem goes_apic_access (inv : Inv cfg s) (idle : s.phase = .idle) {e : VmmVlapic.Event}
    (range : InRange e) : Goes cfg s (.apicAccess e) := by
  obtain ⟨a, done, sound⟩ | ⟨vector, level, rfl, invalid, -⟩ :=
    VmmVlapic.step_sound (VmmVlapic.sound_alone inv.basic.service) e
  · refine ⟨[], { s with vlapic := a.vlapic }, ?_, inv_idle ?_ idle, suspends_not rfl rfl,
      Accounts.keeps_nothing fun e => rfl⟩
    · simp only [act, done]
    · exact ⟨sound.kept, inv.basic.small, inv.basic.entry, inv.basic.back, inv.basic.single⟩
  · exact absurd range invalid

theorem goes_abandon (inv : Inv cfg s) (injected : s.phase = .injected) : Goes cfg s .abandon := by
  refine ⟨[], resume s, rfl, inv_idle ?_ rfl, suspends_not rfl rfl, Accounts.keeps_nothing fun e => ?_⟩
  · exact ⟨inv.basic.service, inv.basic.small, inv.basic.entry, inv.basic.back,
      inv.basic.single⟩
  · rw [in_flight_count, in_flight_count]
    simp only [resume, exceptionEvent, inVectoring, injected]
    rfl

theorem clear_blocking_frame (guestrip : BitVec 64) :
    ∃ gi, clearBlocking s guestrip = { s with gi := gi } := by
  unfold clearBlocking
  split
  · exact ⟨_, rfl⟩
  · exact ⟨s.gi, rfl⟩

theorem goes_inject (inv : Inv cfg s) (idle : s.phase = .idle) (guestrip : BitVec 64)
    (vector : BitVec 8) (again : Bool) (clear : Clear s (.inject guestrip vector again)) :
    Goes cfg s (.inject guestrip vector again) := by
  obtain ⟨⟨service, small, entry, back, single⟩, -, -, -⟩ := inv
  obtain ⟨unblocked, plain⟩ := clear
  obtain ⟨gi, started⟩ := @clear_blocking_frame s guestrip
  have room : s.exitintinfo.info.valid = true ∨ s.exceptionPending = true →
      s.entryInfo.valid = false := by
    rintro (valid | pending)
    · refine Bool.eq_false_iff.mpr fun taken => ?_
      rw [single taken] at valid
      exact Bool.false_ne_true valid
    · exact Bool.eq_false_iff.mpr fun taken => unblocked ⟨taken, pending⟩
  obtain ⟨records, suspended, info1, error, event, suspends, formed1, kept1⟩ :=
    @inject_event_keeps { s with gi := gi } small (fun valid => ⟨back valid, plain valid⟩) room
      entry
  obtain ⟨info2, pending, window2, nmi, formed2, nmiWindow, kept2⟩ :=
    @inject_nmi_keeps { emptied { s with gi := gi } with
      suspended := suspended, entryInfo := info1, entryError := error } formed1
  obtain ⟨more, info3, extint, window3, vlapic, interrupt, plain3, formed3, service3, intWindow, quiet,
    kept3⟩ := @inject_interrupt_keeps { emptied { s with gi := gi } with
      suspended := suspended, entryInfo := info2, entryError := error, nmiPending := pending,
      nmiWindow := window2 } cfg.vid service vector again formed2
  have before : Keeps s [] { s with gi := gi } := Accounts.keeps_nothing fun e => rfl
  have whole := Accounts.keeps_append before
    (Accounts.keeps_append kept1 (Accounts.keeps_append kept2 kept3))
  refine ⟨records ++ more, { emptied { s with gi := gi } with
      suspended := suspended, entryInfo := info3, entryError := error, nmiPending := pending,
      nmiWindow := window2, extintPending := extint, intWindow := window3, vlapic := vlapic,
      phase := .injected }, ?_, ?_, ?_, fun e => ?_⟩
  · simp only [act, vmxInjectInterrupts, started, event, nmi, interrupt]
  · refine ⟨⟨service3, nofun, formed3, nofun, fun _ => rfl⟩,
      fun _ => ⟨rfl, rfl⟩, fun _ => ?_, nofun⟩
    refine ⟨fun waits => .inl (nmiWindow waits), fun waits => .inl (intWindow waits),
      fun given => ?_⟩
    exact (quiet given).imp_left .inl
  · rw [Suspends, any_append, plain3, Bool.or_false]
    exact suspends
  · have account := whole e
    rw [nil_append, nil_append] at account
    rw [account, in_flight_count, in_flight_count]
    simp only [emptied, exceptionEvent, inVectoring, idle]

theorem in_flight_left (none_ : s.exceptionPending = false)
    (clear : s.exitintinfo.info.valid = false) {exit : Exit}
    (late : exit.reason ≠ .mceDuringEntry) (vectoring : IntInfo) (e : Event) :
    (inFlight (leave s exit vectoring)).count e = (held s.nmiPending .nmi).count e +
      (held vectoring.info.valid (eventOf vectoring.info vectoring.errcode)).count e := by
  rw [@in_flight_emptied (leave s exit vectoring) none_ clear, inVectoring]
  simp only [leave, if_neg late, held_none, count_nil, Nat.add_zero]

theorem entry_keeps (injected : s.phase = .injected) (clear : s.exitintinfo.info.valid = false)
    (none_ : s.exceptionPending = false) {entry : Entry} {exit : Exit}
    (enters : Enters s exit entry) : Keeps s (vmEntry s exit entry).1 (vmEntry s exit entry).2 := by
  intro e
  have before : (inFlight s).count e = (held s.nmiPending .nmi).count e +
      (held s.entryInfo.valid (eventOf s.entryInfo s.entryError)).count e := by
    rw [in_flight_emptied none_ clear, inVectoring, injected]
    rfl
  rw [before]
  cases entry with
  | failed =>
    have early : exit.reason = .mceDuringEntry := enters
    simp only [vmEntry, flatMap_nil, count_nil]
    rw [@in_flight_emptied { s with nextrip := exit.rip, phase := .exited exit } none_ clear,
      inVectoring]
    simp only [if_pos early, count_nil]
    omega
  | interrupted bit12 =>
    simp only [vmEntry, flatMap_nil, count_nil]
    rw [in_flight_left none_ clear enters.1, event_bit12]
    exact Nat.add_comm ..
  | delivered own =>
    cases own with
    | none =>
      simp only [vmEntry, Option.getD_none]
      rw [in_flight_left none_ clear enters.1]
      cases s.entryInfo.valid with
      | true =>
        simp only [held_one, ↓reduceIte, append_nil, flatMap_cons, flatMap_nil, credit,
          debit, noInfo, held_none, count_nil]
        omega
      | false =>
        simp only [held_none, Bool.false_eq_true, ↓reduceIte, append_nil, flatMap_nil,
          noInfo, count_nil]
        omega
    | some own =>
      obtain ⟨late, ⟨valid, -⟩, -⟩ := enters
      simp only [vmEntry, Option.getD_some]
      rw [in_flight_left none_ clear late, valid, flatMap_append, flatMap_append,
        count_append, count_append]
      cases s.entryInfo.valid with
      | true =>
        simp only [held_one, ↓reduceIte, append_nil, flatMap_cons, flatMap_nil, credit,
          debit, count_nil]
        omega
      | false =>
        simp only [held_one, held_none, Bool.false_eq_true, ↓reduceIte, append_nil,
          flatMap_cons, flatMap_nil, credit, debit, count_nil]
        omega

theorem entry_suspends (entry : Entry) (exit : Exit) :
    Suspends s (vmEntry s exit entry).1 (vmEntry s exit entry).2 := by
  cases entry with
  | failed => exact suspends_not rfl rfl
  | interrupted bit12 => exact suspends_not rfl rfl
  | delivered own =>
    refine suspends_not rfl ?_
    cases own <;> simp only [vmEntry] <;> cases s.entryInfo.valid <;> rfl

theorem goes_enter (inv : Inv cfg s) (injected : s.phase = .injected) {entry : Entry} {exit : Exit}
    (enters : Enters s exit entry) (reflected : catchesDoubleFault exit.reason = false) :
    Goes cfg s (.enter entry exit) := by
  obtain ⟨⟨service, small, formed, back, single⟩, busy, windows, -⟩ := inv
  obtain ⟨clear, none_⟩ := busy (by rw [injected]; exact nofun)
  refine ⟨_, _, rfl, ?_, entry_suspends entry exit, ?_⟩
  · cases entry with
    | failed =>
      refine ⟨⟨service, small, formed, back, single⟩, fun _ => ⟨clear, none_⟩,
        nofun, fun other same => .inl ?_⟩
      obtain rfl := Phase.exited.inj same
      exact enters
    | interrupted bit12 =>
      obtain ⟨-, valid, sensible⟩ := enters
      refine ⟨⟨service, small, nofun, back, nofun⟩,
        fun _ => ⟨clear, none_⟩, nofun, fun other same => .inr ?_⟩
      obtain rfl := Phase.exited.inj same
      have reported := formed valid
      exact ⟨rfl, fun _ => ⟨rfl, reported.2⟩, sensible, reflected⟩
    | delivered own =>
      refine ⟨⟨service, small, nofun, back, nofun⟩,
        fun _ => ⟨clear, none_⟩, nofun, fun other same => .inr ?_⟩
      obtain rfl := Phase.exited.inj same
      cases own with
      | none => exact ⟨rfl, nofun, enters.2, reflected⟩
      | some own => exact ⟨rfl, fun _ => enters.2.1.2, enters.2.2, reflected⟩
  · exact entry_keeps injected clear none_ enters

theorem exit_intinfo_taken {info : IntInfo} (valid : info.info.valid = true)
    (formed : WellFormed info.info) : vmExitIntinfo s info = some { s with exitintinfo := info } := by
  obtain ⟨⟨vector, type, delErrcode, bit12, rsvd, valid'⟩, errcode⟩ := info
  obtain ⟨undefined, reserved, typed⟩ := formed
  have nmi : ¬ (type = .nmi ∧ vector ≠ idtNmi) := by
    rintro ⟨rfl, other⟩
    exact other typed
  have exception : ¬ (type = .hwexception ∧ 32 ≤ vector.toNat) := by
    rintro ⟨rfl, large⟩
    exact Nat.not_lt.mpr large typed
  have clean : ¬ (bit12 = true ∨ rsvd ≠ 0) := by
    rintro (set_ | other)
    · rw [show bit12 = false from undefined] at set_
      exact Bool.false_ne_true set_
    · exact other reserved
  unfold vmExitIntinfo
  rw [if_pos valid, if_neg nmi, if_neg exception, if_neg clean]

/-- What the handling of an exit relies on, once its event is taken back. -/
def Ready (s : Vcpu) : Reason → Prop
  | .intrWindow => s.intWindow = true
  | .nmiWindow =>
      s.nmiWindow = true ∧ s.gi &&& nmiBlocking = 0 ∧ s.exitintinfo.info.valid = false
  | .taskSwitch idtGate => idtGate = true → s.vectoringInfo.valid = true
  | .extIntr info => info.valid = true → info.type = .hwintr
  | .exception info _ _ =>
      info.valid = true ∧ Reported info ∧ info.type ≠ .hwintr ∧ info.type ≠ .swintr
  | _ => True

theorem ready_of_sensible {reason : Reason} (sensible : Sensible s reason) {info : IntInfo}
    {gi : BitVec 32}
    (window : reason = .nmiWindow → gi &&& nmiBlocking = 0 ∧ info.info.valid = false) :
    Ready { s with exitintinfo := info, gi := gi } reason := by
  cases reason with
  | nmiWindow => exact ⟨sensible.1, window rfl⟩
  | taskSwitch idtGate => exact sensible.1
  | mceDuringEntry => trivial
  | intrWindow => exact sensible
  | extIntr info => exact sensible
  | exception info errcode cr0Pe => exact sensible
  | eptFault nmiUdti => trivial
  | other => trivial

theorem ready_of_vectoring {reason : Reason} (sensible : Sensible s reason)
    (valid : s.vectoringInfo.valid = true) (info : IntInfo) (gi : BitVec 32) :
    Ready { s with exitintinfo := info, gi := gi } reason := by
  apply ready_of_sensible sensible
  rintro rfl
  rw [sensible.2.2] at valid
  exact absurd valid Bool.false_ne_true

theorem ready_of_none {reason : Reason} (sensible : Sensible s reason)
    (clear : s.exitintinfo.info.valid = false) : Ready s reason := by
  apply @ready_of_sensible s reason sensible s.exitintinfo s.gi
  rintro rfl
  exact ⟨sensible.2.1, clear⟩

theorem take_back_done {reason : Reason} (clear : s.exitintinfo.info.valid = false)
    (left : Left s reason) :
    ∃ info gi, takeBack s reason = .ok { s with exitintinfo := info, gi := gi } ∧
      (info.info.valid = true → WellFormed info.info) ∧
      Ready { s with exitintinfo := info, gi := gi } reason ∧
      held info.info.valid (eventOf info.info info.errcode) =
        held s.vectoringInfo.valid (eventOf s.vectoringInfo s.vectoringError) := by
  obtain ⟨-, vectoring, sensible, -⟩ := left
  unfold takeBack
  cases valid : s.vectoringInfo.valid with
  | false =>
    refine ⟨s.exitintinfo, s.gi, rfl, fun never => ?_, ready_of_none sensible clear, ?_⟩
    · rw [clear] at never
      exact absurd never Bool.false_ne_true
    · rw [clear]
      rfl
  | true =>
    have formed := vectoring valid
    have taken := fun errcode => @exit_intinfo_taken s
      ⟨{ s.vectoringInfo with bit12 := false }, errcode⟩ valid formed
    simp only [↓reduceIte, taken]
    have event : ∀ errcode, held s.vectoringInfo.valid
        (eventOf { s.vectoringInfo with bit12 := false }
          (if s.vectoringInfo.delErrcode then s.vectoringError else errcode)) =
        held true (eventOf s.vectoringInfo s.vectoringError) := by
      intro errcode
      rw [valid]
      exact congrArg (held true) (event_errcode { s.vectoringInfo with bit12 := false } _ _)
    by_cases nmi : s.vectoringInfo.type = .nmi
    · rw [if_pos nmi]
      cases reason with
      | taskSwitch idtGate =>
        rw [if_neg (sensible.2 ⟨valid, nmi⟩)]
        exact ⟨_, s.gi, rfl, fun _ => formed, ready_of_vectoring sensible valid _ _, event 0⟩
      | _ => exact ⟨_, _, rfl, fun _ => formed, ready_of_vectoring sensible valid _ _, event 0⟩
    · rw [if_neg nmi]
      exact ⟨_, s.gi, rfl, fun _ => formed, ready_of_vectoring sensible valid _ _, event 0⟩

theorem reported_vector {info : IntrInfo} (reported : Reported info)
    (kind : info.type ≠ .hwintr ∧ info.type ≠ .swintr) : info.vector.toNat < 32 := by
  obtain ⟨vector, type, delErrcode, bit12, rsvd, valid⟩ := info
  obtain ⟨-, -, typed⟩ := reported
  cases type with
  | hwintr => exact absurd rfl kind.1
  | swintr => exact absurd rfl kind.2
  | nmi =>
    obtain rfl : vector = idtNmi := typed
    exact (by decide : idtNmi.toNat < 32)
  | hwexception => exact typed
  | swexception =>
    obtain rfl | rfl : vector = idtBp ∨ vector = idtOf := typed
    · exact (by decide : idtBp.toNat < 32)
    · exact (by decide : idtOf.toNat < 32)
  | privSwexception =>
    obtain rfl : vector = 1 := typed
    exact (by decide : (1 : BitVec 8).toNat < 32)
  | reserved => exact typed.elim
  | other => exact typed.elim

theorem basic_gi (basic : Basic s) (gi : BitVec 32) : Basic { s with gi := gi } :=
  ⟨basic.service, basic.small, basic.entry, basic.back, basic.single⟩

theorem reflect_done (bptExit : Bool) (basic : Basic s) (idle : s.phase = .idle)
    (none_ : s.exceptionPending = false) {info : IntrInfo} (errcode : BitVec 32) (cr0Pe : Bool)
    (ready : Ready s (.exception info errcode cr0Pe)) (other : info.vector ≠ idtDf) :
    ∃ records s', reflect bptExit s info errcode cr0Pe = .ok (records, s') ∧ Basic s' ∧
      s'.phase = .idle ∧ Suspends s records s' ∧ Keeps s records s' := by
  obtain ⟨valid, reported, kind⟩ := ready
  have nmi : ¬ (info.type = .nmi ∧ info.vector ≠ idtNmi) := by
    rintro ⟨type, apart⟩
    have typed := reported.2.2
    simp only [type] at typed
    exact apart typed
  obtain ⟨gi, restored⟩ : ∃ gi,
      (if !s.vectoringInfo.valid ∧ info.vector ≠ idtDf ∧ info.bit12 then
        { s with gi := s.gi ||| nmiOnly } else s) = { s with gi := gi } := by
    split
    · exact ⟨_, rfl⟩
    · exact ⟨s.gi, rfl⟩
  have stays : ∃ records s', Except.ok ([], { s with gi := gi }) =
      (.ok (records, s') : Except Panic (List Record × Vcpu)) ∧ Basic s' ∧ s'.phase = .idle ∧
        Suspends s records s' ∧ Keeps s records s' :=
    ⟨[], _, rfl, basic_gi basic gi, idle, suspends_not rfl rfl, Accounts.keeps_nothing fun e => rfl⟩
  unfold reflect
  rw [if_neg (by rw [valid]; exact Bool.false_ne_true), if_neg nmi]
  simp only [restored]
  split
  · exact stays
  · split
    · exact stays
    · split
      · exact stays
      · have range : 0 ≤ (info.vector.toNat : Int) ∧ (info.vector.toNat : Int) < 32 :=
          ⟨Int.natCast_nonneg _, by exact_mod_cast reported_vector reported kind⟩
        have apart : (info.vector.toNat : Int) ≠ idtDf.toNat :=
          fun same => other (BitVec.eq_of_toNat_eq (by exact_mod_cast same))
        obtain ⟨errcodeValid, done⟩ := @inject_exception_taken { s with gi := gi } none_ _ range
          apart info.delErrcode (if info.delErrcode then errcode else 0) cr0Pe
        obtain ⟨basic', kept⟩ := @exception_keeps { s with gi := gi } (basic_gi basic gi) none_ _
          range (gi &&& ~~~hwintrBlocking) (if info.delErrcode then errcode else 0) errcodeValid _
          rfl
        rw [done]
        exact ⟨_, _, rfl, basic', idle, suspends_not rfl rfl, kept⟩

theorem handle_done (bptExit : Bool) (basic : Basic s) (idle : s.phase = .idle)
    (empty : s.entryInfo.valid = false) (none_ : s.exceptionPending = false) {reason : Reason}
    (ready : Ready s reason) (reflected : catchesDoubleFault reason = false) :
    ∃ records s', handle bptExit s reason = .ok (records, s') ∧ Basic s' ∧ s'.phase = .idle ∧
      Suspends s records s' ∧ Keeps s records s' := by
  have unchanged : Suspends s [] s ∧ Keeps s [] s :=
    ⟨suspends_not rfl rfl, Accounts.keeps_nothing fun e => rfl⟩
  cases reason with
  | mceDuringEntry => exact ⟨[], s, rfl, basic, idle, unchanged⟩
  | other => exact ⟨[], s, rfl, basic, idle, unchanged⟩
  | taskSwitch idtGate =>
    refine ⟨[], s, if_neg fun both => ?_, basic, idle, unchanged⟩
    obtain ⟨gate, invalid⟩ := Bool.and_eq_true_iff.mp both
    rw [ready gate] at invalid
    cases invalid
  | intrWindow =>
    refine ⟨[], { s with intWindow := false }, if_neg fun never => ?_,
      ⟨basic.service, basic.small, basic.entry, basic.back, basic.single⟩, idle,
      suspends_not rfl rfl, Accounts.keeps_nothing fun e => rfl⟩
    rw [show s.intWindow = true from ready] at never
    cases never
  | nmiWindow =>
    obtain ⟨window, free, clear⟩ := ready
    cases pending : s.nmiPending with
    | true =>
      obtain ⟨done, kept⟩ := inject_nmi_done pending free empty
      refine ⟨[], { s with entryInfo := nmiWord, nmiPending := false, nmiWindow := false }, ?_,
        ⟨basic.service, basic.small, fun _ => ⟨rfl, rfl, rfl⟩, basic.back, fun _ => clear⟩, idle,
        suspends_not rfl rfl, kept⟩
      simp [handle, pending, done, window]
    | false =>
      refine ⟨[], { s with nmiWindow := false }, ?_,
        ⟨basic.service, basic.small, basic.entry, basic.back, basic.single⟩, idle,
        suspends_not rfl rfl, Accounts.keeps_nothing fun e => rfl⟩
      simp [handle, pending, window]
  | extIntr info =>
    exact ⟨[], s, if_neg fun both => both.2 (ready both.1), basic, idle, unchanged⟩
  | exception info errcode cr0Pe =>
    exact reflect_done bptExit basic idle none_ errcode cr0Pe ready
      (of_decide_eq_false reflected)
  | eptFault nmiUdti =>
    by_cases restores : (!s.vectoringInfo.valid && nmiUdti) = true
    · refine ⟨[], { s with gi := s.gi ||| nmiOnly }, ?_, basic_gi basic _, idle,
        suspends_not rfl rfl, Accounts.keeps_nothing fun e => rfl⟩
      rw [handle, if_pos restores]
    · refine ⟨[], s, ?_, basic, idle, unchanged⟩
      rw [handle, if_neg restores]

theorem goes_process (inv : Inv cfg s) (busy : s.phase ≠ .idle ∧ s.phase ≠ .injected) :
    Goes cfg s .process := by
  obtain ⟨exit, phase⟩ : ∃ exit, s.phase = .exited exit := by
    cases phase : s.phase with
    | idle => exact absurd phase busy.1
    | injected => exact absurd phase busy.2
    | exited exit => exact ⟨exit, rfl⟩
  obtain ⟨clear, none_⟩ := inv.busy busy.1
  obtain ⟨service, small, entry, back, single⟩ := inv.basic
  have unpack : act cfg s .process = vmxExitProcess cfg.bptExit s exit := by
    simp only [act, phase]
  unfold Goes
  rw [unpack, vmxExitProcess]
  by_cases early : exit.reason = .mceDuringEntry
  · rw [if_pos early]
    refine ⟨[], resume s, rfl, inv_idle ⟨service, small, entry, back, single⟩ rfl,
      suspends_not rfl rfl, Accounts.keeps_nothing fun e => ?_⟩
    rw [in_flight_emptied none_ clear, @in_flight_emptied (resume s) none_ clear]
    simp only [resume, inVectoring, phase, if_pos early]
  · rw [if_neg early]
    have left := (inv.left exit phase).resolve_left early
    have leftResumed : Left (resume s) exit.reason := by
      refine ⟨left.entry, left.vectoring, ?_, left.reflected⟩
      have sensible := left.sensible
      cases reason : exit.reason <;> rw [reason] at sensible <;> exact sensible
    obtain ⟨info, gi, taken, formed, ready, event⟩ :=
      @take_back_done (resume s) _ clear leftResumed
    rw [taken]
    obtain ⟨records, s', done, basic, idle, suspends, kept⟩ :=
      @handle_done { resume s with exitintinfo := info, gi := gi } cfg.bptExit
        ⟨service, small, entry, formed,
          fun never => absurd (left.entry.symm.trans never) Bool.false_ne_true⟩
        rfl left.entry none_ _ ready left.reflected
    refine ⟨records, s', done, inv_idle basic idle, suspends, fun e => ?_⟩
    have account := kept e
    rw [← account, in_flight_emptied none_ clear, in_flight_count]
    simp only [resume, none_, held_none, event, inVectoring, phase, if_neg early]
    simp only [count_nil]
    omega

theorem act_goes (inv : Inv cfg s) {a : Action} (possible : Possible s a) (clear : Clear s a) :
    Goes cfg s a := by
  cases a with
  | exception vector errcodeValid errcode cr0Pe => exact goes_exception inv possible ..
  | nmi => exact goes_nmi inv
  | extint => exact goes_extint inv
  | lapicIntr vector level => exact goes_lapic_intr inv vector level
  | apicAccess e => exact goes_apic_access inv possible.1 possible.2
  | inject guestrip vector again => exact goes_inject inv possible guestrip vector again clear
  | abandon => exact goes_abandon inv possible
  | enter entry exit => exact goes_enter inv possible.1 possible.2.2 clear
  | process => exact goes_process inv possible

theorem initial_inv : Inv cfg initial :=
  inv_idle ⟨VmmVlapic.reset_sound.kept, nofun, nofun,
    nofun, nofun⟩ rfl

end

structure Accounted (cfg : Config) (t : Traced) : Prop where
  inv : Inv cfg t.vcpu
  suspends : Suspends initial t.log t.vcpu
  kept : Keeps initial t.log t.vcpu

theorem step_accounted {cfg : Config} {t : Traced} (accounted : Accounted cfg t) {a : Action}
    (possible : Possible t.vcpu a) (clear : Clear t.vcpu a) :
    ∃ t', step cfg t a = .ok t' ∧ Accounted cfg t' := by
  obtain ⟨inv, suspends, kept⟩ := accounted
  obtain ⟨records, s', done, inv', suspends', kept'⟩ := act_goes inv possible clear
  refine ⟨⟨s', t.log ++ records⟩, ?_, inv', ?_, Accounts.keeps_append kept kept'⟩
  · simp only [step, done]
  · rw [Suspends, any_append, ← Bool.or_assoc, ← suspends]
    exact suspends'

/-- No assertion fails in a run. Each event that was taken on has been delivered, or has met an
    exception and left what the classes of the two prescribe, or is in flight, once; the
    machine is suspended by triple faults alone; and before each entry the hypervisor has
    nothing left but what is in the entry field and what waits for its window. -/
theorem events_accounted (cfg : Config) (actions : List Action)
    (allowed : AlongAttempts (step cfg) (fun t a => Possible t.vcpu a ∧ Clear t.vcpu a)
      ⟨initial, []⟩ actions) :
    ∃ t, attempts (step cfg) ⟨initial, []⟩ actions = .ok t ∧
      (t.log.flatMap credit).Perm (t.log.flatMap debit ++ inFlight t.vcpu) ∧
      t.vcpu.suspended = t.log.any triple ∧
      (t.vcpu.phase = .injected → t.vcpu.exceptionPending = false ∧
        t.vcpu.exitintinfo.info.valid = false ∧ WindowsSet cfg.vid t.vcpu) := by
  have start : Accounted cfg ⟨initial, []⟩ :=
    ⟨initial_inv, rfl, Accounts.keeps_nothing fun e => rfl⟩
  obtain ⟨t, done, inv, suspends, kept⟩ := attempts_succeed
    (fun t a accounted met => step_accounted accounted met.1 met.2) actions _ start allowed
  refine ⟨t, done, Accounts.balanced rfl kept, suspends, fun injected => ?_⟩
  obtain ⟨clear, none_⟩ := inv.busy (by rw [injected]; exact nofun)
  exact ⟨none_, clear, inv.windows injected⟩

def exitFor (reason : Reason) : Exit := ⟨reason, 0, true, 0⟩

def faultOnInterrupt : List Action :=
  [.inject 0 0 false, .enter (.delivered none) (exitFor .other), .process, .extint,
    .inject 0 0x20 false, .enter (.interrupted false) (exitFor (.eptFault false)), .process,
    .exception 13 true 0 true, .inject 0 0 false, .enter (.delivered none) (exitFor .other),
    .process]

theorem events_accounted_fault :
    AlongAttempts (step ⟨false, false⟩) (fun t a => Possible t.vcpu a ∧ Clear t.vcpu a)
        ⟨initial, []⟩ faultOnInterrupt ∧
      ∃ t, attempts (step ⟨false, false⟩) ⟨initial, []⟩ faultOnInterrupt = .ok t ∧
        (t.log.flatMap credit).Perm (t.log.flatMap debit ++ inFlight t.vcpu) ∧
        t.vcpu.suspended = t.log.any triple ∧
        (t.vcpu.phase = .injected → t.vcpu.exceptionPending = false ∧
          t.vcpu.exitintinfo.info.valid = false ∧ WindowsSet false t.vcpu) := by
  have allowed : AlongAttempts (step ⟨false, false⟩)
      (fun t a => Possible t.vcpu a ∧ Clear t.vcpu a) ⟨initial, []⟩ faultOnInterrupt := by
    decide +kernel
  exact ⟨allowed, events_accounted ⟨false, false⟩ faultOnInterrupt allowed⟩

def exceptionAfterAbandon : List Action :=
  [.exception 6 false 0 true, .inject 0 0 false, .abandon, .exception 6 false 0 true,
    .inject 0 0 false]

theorem interrupt_dropped_and_assertion_fails :
    AlongAttempts (step ⟨false, false⟩) (fun t a => Possible t.vcpu a) ⟨initial, []⟩
        faultOnInterrupt ∧
      (attempts (step ⟨false, false⟩) ⟨initial, []⟩ faultOnInterrupt).map
          (fun t => (t.log, inFlight t.vcpu, t.vcpu.suspended)) =
        .ok ([.accepted (.interrupt 0x20), .requested (.exception 13 (some 0)),
          .met (.interrupt 0x20) (.exception 13 (some 0)),
          .delivered (.exception 13 (some 0))], [], false) ∧
      AlongAttempts (step ⟨false, false⟩) (fun t a => Possible t.vcpu a) ⟨initial, []⟩
        exceptionAfterAbandon ∧
      (attempts (step ⟨false, false⟩) ⟨initial, []⟩ exceptionAfterAbandon).map (fun t => t.log) =
        .error (.cannotInjectPending ⟨6, .hwexception, false, false, 0, true⟩) := by
  decide +kernel

end VmmInjection
