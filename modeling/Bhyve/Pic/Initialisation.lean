import Bhyve.Pic.Acknowledge

namespace Pic
open StepRuns

structure Icws where
  icw1 : BitVec 32
  icw2 : BitVec 32
  icw3 : BitVec 32
  icw4 : BitVec 32

structure Icws.Complete (w : Icws) : Prop where
  first : (w.icw1.setWidth 8).getLsbD 4 = true
  cascaded : (w.icw1.setWidth 8).getLsbD icw1Sngl = false
  fourth : (w.icw1.setWidth 8).getLsbD icw1Ic4 = true
  mode8086 : (w.icw4.setWidth 8).getLsbD icw4Mode8086 = true

def Icws.aeoi (w : Icws) : Bool := (w.icw4.setWidth 8).getLsbD icw4Aeoi
def Icws.sfnm (w : Icws) (chip : Chip) : Bool :=
  (w.icw4.setWidth 8).getLsbD icw4Sfnm && decide (chip = .master)

def basePort : Chip → Nat
  | .master => masterPort
  | .slave => slavePort

def Icws.sequence (w : Icws) (chip : Chip) : List Event :=
  [.port chip (basePort chip) 1 (some w.icw1), .port chip (basePort chip + 1) 1 (some w.icw2),
   .port chip (basePort chip + 1) 1 (some w.icw3), .port chip (basePort chip + 1) 1 (some w.icw4)]

structure SameController (a b : Atpic) : Prop where
  request : a.request = b.request
  service : a.service = b.service
  mask : a.mask = b.mask
  lowprio : a.lowprio = b.lowprio
  aeoi : a.aeoi = b.aeoi
  sfn : a.sfn = b.sfn
  rotate : a.rotate = b.rotate
  smm : a.smm = b.smm
  irqBase : a.irqBase = b.irqBase

def Atpic.initialised (a : Atpic) (chip : Chip) (w : Icws) : Atpic :=
  { a with
    ready := true
    icwNum := 0
    rdCmdReg := 0
    aeoi := a.aeoi || w.aeoi
    poll := false
    sfn := a.sfn || w.sfnm chip
    irqBase := ((w.icw2.setWidth 8) &&& 0xf8).toNat
    request := 0
    mask := 0
    smm := false
    lowprio := spuriousPin }

section
variable {w : Icws} {chip : Chip}

theorem base_command (chip : Chip) : dataPort (basePort chip) = false := by
  cases chip with
  | master => rfl
  | slave => rfl

theorem base_data (chip : Chip) : dataPort (basePort chip + 1) = true := by
  cases chip with
  | master => rfl
  | slave => rfl

theorem port_write (v : Vatpic) (chip : Chip) (port : Nat) (eax : BitVec 32) :
    v.step (.port chip port 1 (some eax)) = (vatpicWrite v chip port eax).1 := rfl

theorem unready_write {v : Vatpic} {port : Nat} {eax : BitVec 32} {a : Atpic}
    (left : ((v.atpic chip).write chip port (eax.setWidth 8)).1 = a) (unready : a.ready = false) :
    v.step (.port chip port 1 (some eax)) = v.set chip a := by
  rw [port_write]
  unfold vatpicWrite
  dsimp only
  rw [left, unready]
  rfl

theorem set_set (v : Vatpic) (chip : Chip) (a b : Atpic) : (v.set chip a).set chip b = v.set chip b := by
  unfold Vatpic.set
  simp

theorem icw1_written {val : BitVec 8} (first : val.getLsbD 4 = true)
    (cascaded : val.getLsbD icw1Sngl = false) (fourth : val.getLsbD icw1Ic4 = true) (a : Atpic) :
    (a.write chip (basePort chip) val).1 =
      { a with ready := false, icwNum := 2, request := 0, mask := 0, lowprio := spuriousPin,
               rdCmdReg := 0, poll := false, smm := false } := by
  unfold Atpic.write vatpicIcw1
  simp only [base_command, Bool.false_eq_true, if_false, first, if_true, cascaded, fourth,
    Bool.not_true]

theorem icw4_written {val : BitVec 8} (mode8086 : val.getLsbD icw4Mode8086 = true) {a : Atpic}
    (fourth : a.icwNum = 4) :
    (a.write chip (basePort chip + 1) val).1 =
      { a with aeoi := a.aeoi || val.getLsbD icw4Aeoi,
               sfn := a.sfn || (val.getLsbD icw4Sfnm && decide (chip = .master)),
               icwNum := 0, ready := true } := by
  unfold Atpic.write vatpicIcw4
  rw [if_pos (base_data chip), fourth]
  simp only [mode8086, Bool.not_true, Bool.false_eq_true, if_false]
  cases val.getLsbD icw4Aeoi <;> cases val.getLsbD icw4Sfnm <;> cases chip <;> simp

theorem sequence_run (complete : w.Complete) (v : Vatpic) : run Vatpic.step v (w.sequence chip) =
      vatpicNotifyIntr (v.set chip ((v.atpic chip).initialised chip w)) := by
  let first : Atpic := { v.atpic chip with
    ready := false, icwNum := 2, request := 0, mask := 0, lowprio := spuriousPin, rdCmdReg := 0,
    poll := false, smm := false }
  let second : Atpic := { first with irqBase := ((w.icw2.setWidth 8) &&& 0xf8).toNat, icwNum := 3 }
  let third : Atpic := { second with icwNum := 4 }
  have one : v.step (.port chip (basePort chip) 1 (some w.icw1)) = v.set chip first :=
    unready_write (icw1_written complete.first complete.cascaded complete.fourth _) rfl
  have two : (v.set chip first).step (.port chip (basePort chip + 1) 1 (some w.icw2)) =
      v.set chip second := by
    rw [← set_set v chip first second]
    refine unready_write ?_ rfl
    rw [set_here, Atpic.write, if_pos (base_data chip)]
    rfl
  have three : (v.set chip second).step (.port chip (basePort chip + 1) 1 (some w.icw3)) =
      v.set chip third := by
    rw [← set_set v chip second third]
    refine unready_write ?_ rfl
    rw [set_here, Atpic.write, if_pos (base_data chip)]
    rfl
  have four : (v.set chip third).step (.port chip (basePort chip + 1) 1 (some w.icw4)) =
      vatpicNotifyIntr (v.set chip ((v.atpic chip).initialised chip w)) := by
    rw [port_write]
    unfold vatpicWrite
    dsimp only
    rw [set_here, icw4_written complete.mode8086 rfl, set_set]
    rfl
  unfold Icws.sequence
  simp only [run, List.foldl_cons, List.foldl_nil]
  rw [one, two, three, four]

end

section
variable {v u : Vatpic} {chip : Chip} {w : Icws}

/-- The chip before vatpic_notify_intr raises it: the slave may have passed its request on. -/
def Vatpic.restarted (v : Vatpic) (chip : Chip) (w : Icws) : Atpic :=
  { (v.atpic chip).initialised chip w with
    request := if chip = .master ∧ v.forwards = true then withBit 0 cascade else 0 }

structure SameHistory (v u : Vatpic) (chip : Chip) (w : Icws) : Prop where
  service : (v.atpic chip).service = (u.atpic chip).service
  rotate : (v.atpic chip).rotate = (u.atpic chip).rotate
  aeoi : w.aeoi = false → (v.atpic chip).aeoi = (u.atpic chip).aeoi
  sfn : w.sfnm chip = false → (v.atpic chip).sfn = (u.atpic chip).sfn
  forwards : chip = .master → v.forwards = u.forwards

theorem sequence_chip (complete : w.Complete) (wired : v.Wired) :
    (run Vatpic.step v (w.sequence chip)).atpic chip = (v.restarted chip w).raise := by
  rw [sequence_run complete]
  have edge : (v.set chip ((v.atpic chip).initialised chip w)).level .master cascade = false :=
    wired.edge
  obtain ⟨slave, master, -⟩ := notify_eq edge
  cases chip with
  | slave =>
    rw [slave, set_here]
    rfl
  | master =>
    rw [master]
    unfold Vatpic.forwardedRequest
    unfold Vatpic.restarted
    simp only [true_and]
    rfl

theorem same_raise (a b : Atpic) : SameController a.raise b.raise ↔ SameController a b :=
  ⟨fun ⟨request, service, mask, lowprio, aeoi, sfn, rotate, smm, irqBase⟩ =>
      ⟨request, service, mask, lowprio, aeoi, sfn, rotate, smm, irqBase⟩,
    fun ⟨request, service, mask, lowprio, aeoi, sfn, rotate, smm, irqBase⟩ =>
      ⟨request, service, mask, lowprio, aeoi, sfn, rotate, smm, irqBase⟩⟩

theorem or_same_iff (a b c : Bool) : (a || c) = (b || c) ↔ (c = false → a = b) := by
  cases c with
  | true => simp
  | false => simp

theorem restarted_request (v u : Vatpic) (chip : Chip) (w : Icws) :
    (v.restarted chip w).request = (u.restarted chip w).request ↔
      (chip = .master → v.forwards = u.forwards) := by
  unfold Vatpic.restarted
  cases chip with
  | slave => simp
  | master =>
    have each : ∀ a b : Bool, (if Chip.master = .master ∧ a = true then withBit 0 cascade else 0) =
        (if Chip.master = .master ∧ b = true then withBit 0 cascade else 0) ↔ a = b := by
      decide
    exact (each _ _).trans ⟨fun same _ => same, fun same => same rfl⟩

theorem same_restarted_iff (v u : Vatpic) (chip : Chip) (w : Icws) :
    SameController (v.restarted chip w) (u.restarted chip w) ↔ SameHistory v u chip w := by
  constructor
  · intro same
    exact ⟨same.service, same.rotate, (or_same_iff _ _ _).mp same.aeoi,
      (or_same_iff _ _ _).mp same.sfn, (restarted_request v u chip w).mp same.request⟩
  · intro same
    exact ⟨(restarted_request v u chip w).mpr same.forwards, same.service, rfl, rfl,
      (or_same_iff _ _ _).mpr same.aeoi, (or_same_iff _ _ _).mpr same.sfn, same.rotate, rfl, rfl⟩

theorem same_eligible {a b : Atpic} (same : SameController a b) : a.eligible = b.eligible := by
  obtain ⟨request, service, mask, lowprio, -, sfn, -, smm, -⟩ := same
  unfold Atpic.eligible vatpicGetHighestIrrpin
  have serviced : a.serviced = b.serviced := by
    unfold Atpic.serviced
    rw [service, sfn, smm]
  have found : ∀ pins, firstRequest a a.serviced pins = firstRequest b b.serviced pins := by
    intro pins
    induction pins with
    | nil => rfl
    | cons pin rest ih =>
      unfold firstRequest
      rw [ih, serviced, request, mask]
  rw [found, lowprio]

theorem restarted_eq_iff (counts : (v.atpic chip).acnt = (u.atpic chip).acnt) :
    (v.restarted chip w).raise = (u.restarted chip w).raise ↔
      SameHistory v u chip w ∧ ((v.restarted chip w).eligible = false →
        (v.atpic chip).intrRaised = (u.atpic chip).intrRaised) := by
  constructor
  · intro equal
    have same : SameController (v.restarted chip w) (u.restarted chip w) := by
      rw [← same_raise, equal]
      exact ⟨rfl, rfl, rfl, rfl, rfl, rfl, rfl, rfl, rfl⟩
    have raised : ((v.atpic chip).intrRaised || (v.restarted chip w).eligible) =
        ((u.atpic chip).intrRaised || (u.restarted chip w).eligible) :=
      congrArg Atpic.intrRaised equal
    rw [← same_eligible same] at raised
    exact ⟨(same_restarted_iff v u chip w).mp same, (or_same_iff _ _ _).mp raised⟩
  · rintro ⟨history, waiting⟩
    have same := (same_restarted_iff v u chip w).mpr history
    have raised := (or_same_iff _ _ _).mpr waiting
    have eligible := same_eligible same
    obtain ⟨request, service, -, -, aeoi, sfn, rotate, -, -⟩ := same
    unfold Atpic.raise
    rw [← eligible]
    unfold Vatpic.restarted Atpic.initialised at *
    simp only [Atpic.mk.injEq]
    exact ⟨trivial, trivial, trivial, aeoi, trivial, rotate, sfn, trivial, request, service, trivial,
      trivial, counts, trivial, raised⟩

/-- Two histories that lead to the same pins leave the same controller state after the same words
    exactly where they agree on what the words do not overwrite; and the same chip, down to the
    interrupt that waits for an acknowledgement, exactly where they agree on that too. -/
theorem initialisation_erases_iff (events events' : List Event) (chip : Chip) (w : Icws)
    (complete : w.Complete)
    (counts : ((run Vatpic.step vatpicInit events).atpic chip).acnt =
      ((run Vatpic.step vatpicInit events').atpic chip).acnt) :
    let v := run Vatpic.step vatpicInit events
    let u := run Vatpic.step vatpicInit events'
    (SameController ((run Vatpic.step v (w.sequence chip)).atpic chip)
        ((run Vatpic.step u (w.sequence chip)).atpic chip) ↔ SameHistory v u chip w) ∧
      ((run Vatpic.step v (w.sequence chip)).atpic chip =
          (run Vatpic.step u (w.sequence chip)).atpic chip ↔
        SameHistory v u chip w ∧ ((v.restarted chip w).eligible = false →
          (v.atpic chip).intrRaised = (u.atpic chip).intrRaised)) := by
  intro v u
  have start : vatpicInit.Wired := ⟨rfl, fun _ => rfl⟩
  have keeps (v : Vatpic) (e : Event) (wired : v.Wired) : (v.step e).Wired := step_wired wired e
  have left : v.Wired := invariant_every_run keeps events vatpicInit start
  have right : u.Wired := invariant_every_run keeps events' vatpicInit start
  rw [sequence_chip complete left, sequence_chip complete right]
  exact ⟨(same_raise _ _).trans (same_restarted_iff v u chip w), restarted_eq_iff counts⟩

def plainWords : Icws := ⟨0x11, 0x08, 0x04, 0x01⟩
def aeoiWords : Icws := ⟨0x11, 0x08, 0x04, 0x03⟩

theorem plain_complete : plainWords.Complete := ⟨by decide, by decide, by decide, by decide⟩

def maskedHistory : List Event :=
  plainWords.sequence .master ++
    [.port .master 0x21 1 (some 0xf8), .port .master masterPort 1 (some 0x6e)]

theorem initialisation_erases_masks : SameController
      ((run Vatpic.step (run Vatpic.step vatpicInit maskedHistory)
        (plainWords.sequence .master)).atpic .master)
      ((run Vatpic.step (run Vatpic.step vatpicInit []) (plainWords.sequence .master)).atpic
        .master) := by
  have counts : ((run Vatpic.step vatpicInit maskedHistory).atpic .master).acnt =
      ((run Vatpic.step vatpicInit []).atpic .master).acnt := by
    funext pin
    revert pin
    decide
  refine (initialisation_erases_iff maskedHistory [] .master plainWords plain_complete
    counts).1.mpr ?_
  exact ⟨by decide, by decide, fun _ => by decide, fun _ => by decide, fun _ => by decide⟩

theorem automatic_eoi_stays :
    ¬ ∀ (events events' : List Event) (chip : Chip) (w : Icws), w.Complete →
      ((run Vatpic.step vatpicInit events).atpic chip).acnt =
        ((run Vatpic.step vatpicInit events').atpic chip).acnt →
      (run Vatpic.step vatpicInit events).elc = (run Vatpic.step vatpicInit events').elc →
      SameController
        ((run Vatpic.step (run Vatpic.step vatpicInit events) (w.sequence chip)).atpic chip)
        ((run Vatpic.step (run Vatpic.step vatpicInit events') (w.sequence chip)).atpic chip) := by
  intro every
  have same := (every (aeoiWords.sequence .master) [] .master plainWords plain_complete rfl rfl).aeoi
  revert same
  decide

end

end Pic
