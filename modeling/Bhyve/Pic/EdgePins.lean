import Bhyve.Apic.EdgePins
import Bhyve.Pic.Acknowledge

namespace Pic
open Pairing StepRuns

def rises (chip : Chip) (pin : Pin) (h : Happening) : Bool := decide (h = .rise chip pin)

def edgeAccepted (chip : Chip) (pin : Pin) (h : Happening) : Bool :=
  decide (h = .accepted chip pin true)

def transitions (v : Vatpic) (chip : Chip) (pin : Pin) : Nat := v.history.countP (rises chip pin)

def edgeInterrupts (v : Vatpic) (chip : Chip) (pin : Pin) : Nat :=
  v.history.countP (edgeAccepted chip pin)

def Vatpic.taken (v : Vatpic) : List (Chip × Pin) :=
  let pin : Pin := ⟨vatpicPendingIntr v % 8, Nat.mod_lt _ (by decide)⟩
  if vatpicPendingIntr v / 8 * 8 = (v.atpic .slave).irqBase then
    [(.slave, pin), (.master, cascade)]
  else [(.master, pin)]

def Vatpic.Deasserted (v : Vatpic) (chip : Chip) (pin : Pin) : Prop :=
  v.level chip pin = false → (v.atpic chip).request.getLsbD pin = true →
    (v.atpic chip).acnt pin = 0

def Vatpic.AcceptsDeasserted (v : Vatpic) : Event → Prop
  | .acknowledge => ∀ x ∈ v.taken, v.Deasserted x.1 x.2
  | .port chip _ 1 none => (v.atpic chip).poll = true →
      ∀ pin, vatpicGetHighestIrrpin (v.atpic chip) = some pin → v.Deasserted chip pin
  | _ => True

structure Vatpic.Risen (v : Vatpic) : Prop where
  paired : ∀ chip pin, Paired (rises chip pin) (edgeAccepted chip pin) v.history
  armed : ∀ chip (pin : Pin),
    ((v.atpic chip).request.getLsbD pin = true ∨ 0 < (v.atpic chip).acnt pin) →
      Armed (rises chip pin) (edgeAccepted chip pin) v.history = true

variable {v : Vatpic} {pin : Pin} {chip : Chip}

theorem risen_of_lines {u : Vatpic} (risen : v.Risen) (history : u.history = v.history)
    (acnt : ∀ chip, (u.atpic chip).acnt = (v.atpic chip).acnt)
    (request : ∀ chip (pin : Pin), (u.atpic chip).request.getLsbD pin = true → (v.atpic chip).request.getLsbD pin = true) :
    u.Risen := by
  constructor
  · rw [history]
    exact risen.paired
  · intro chip pin lines
    rw [history]
    rw [acnt] at lines
    exact risen.armed chip pin (lines.imp_left (request chip pin))

theorem set_risen (risen : v.Risen) (chip : Chip) {a : Atpic} (acnt : a.acnt = (v.atpic chip).acnt)
    (request : ∀ pin : Pin, a.request.getLsbD pin = true → (v.atpic chip).request.getLsbD pin = true) :
    (v.set chip a).Risen := by
  refine risen_of_lines risen rfl (fun other => ?_) (fun other => ?_)
  · by_cases here : other = chip
    · subst here
      rw [set_here]
      exact acnt
    · rw [set_there _ _ _ here]
  · by_cases here : other = chip
    · subst here
      rw [set_here]
      exact request
    · rw [set_there _ _ _ here]
      exact fun _ => id

theorem pinstate_request {a : Atpic} {level : Bool} {newstate : Bool}
    (lines : (a.pinstate level pin newstate).request.getLsbD pin = true ∨ 0 < (a.pinstate level pin newstate).acnt pin) :
    (newstate = true ∧ a.acnt pin = 0) ∨ a.request.getLsbD pin = true ∨ 0 < a.acnt pin := by
  by_cases rise : newstate = true ∧ a.acnt pin = 0
  · exact .inl rise
  · by_cases asserted : 0 < a.acnt pin
    · exact .inr (.inr asserted)
    · right
      left
      have low : (if newstate then a.acnt pin + 1 else a.acnt pin - 1) ≤ 0 := by
        cases newstate with
        | false =>
          rw [if_neg Bool.false_ne_true]
          omega
        | true =>
          have nonzero : a.acnt pin ≠ 0 := fun zero => rise ⟨rfl, zero⟩
          omega
      unfold Atpic.pinstate at lines
      dsimp only at lines
      generalize (if newstate then a.acnt pin + 1 else a.acnt pin - 1) = newcnt at lines low
      rw [if_neg (by omega)] at lines
      split at lines
      · split at lines
        · dsimp only at lines
          rw [without_bit, decide_eq_true rfl, Bool.not_true, Bool.and_false,
            Function.update_self] at lines
          rcases lines with never | positive
          · cases never
          · omega
        · dsimp only at lines
          exact lines.resolve_right (by omega)
      · dsimp only at lines
        rw [Function.update_self] at lines
        exact lines.resolve_right (by omega)

theorem rise_armed (other : Chip) (place : Pin)
    (armed : Armed (rises chip pin) (edgeAccepted chip pin) v.history = true) :
    Armed (rises chip pin) (edgeAccepted chip pin) (v.note (.rise other place)).history = true :=
  have calm : edgeAccepted chip pin (.rise other place) = false :=
    decide_eq_false nofun
  armed_other calm armed

theorem pinstate_risen (risen : v.Risen) (chip : Chip) (pin : Pin) (newstate : Bool) :
    (v.pinstate chip pin newstate).Risen := by
  have history : (v.pinstate chip pin newstate).history =
      if newstate = true ∧ (v.atpic chip).acnt pin = 0 then .rise chip pin :: v.history
      else v.history := by
    unfold Vatpic.pinstate
    split <;> rfl
  have kept (other : Chip) (place : Pin)
      (armed : Armed (rises other place) (edgeAccepted other place) v.history = true) :
      Armed (rises other place) (edgeAccepted other place)
        (v.pinstate chip pin newstate).history = true := by
    rw [history]
    split
    · exact rise_armed chip pin armed
    · exact armed
  constructor
  · intro other place
    rw [history]
    split
    · exact paired_cons (risen.paired other place)
        fun fire => absurd (of_decide_eq_true fire) nofun
    · exact risen.paired other place
  · intro other place lines
    by_cases here : other = chip
    · subst here
      rw [pinstate_here] at lines
      by_cases same : place = pin
      · subst same
        obtain rise | before := pinstate_request lines
        · have mark : rises other place (.rise other place) = true := decide_eq_true rfl
          rw [history, if_pos rise]
          exact armed_raise mark v.history
        · exact kept other place (risen.armed other place before)
      · obtain ⟨count, request, form, bits⟩ :=
          pinstate_form (v.atpic other) (v.level other pin) pin newstate
        rw [form] at lines
        dsimp only at lines
        rw [bits place same, Function.update_of_ne same] at lines
        exact kept other place (risen.armed other place lines)
    · rw [pinstate_there _ _ _ here] at lines
      exact kept other place (risen.armed other place lines)

theorem notify_master_risen (risen : v.Risen) : (notifyMaster v).Risen := by
  have history : (notifyMaster v).history = v.history := by
    unfold notifyMaster
    dsimp only
    split <;> rfl
  refine risen_of_lines risen history (fun chip => ?_) (fun chip pin => ?_)
  · cases chip with
    | master =>
      rw [notify_master_master]
      rfl
    | slave => rw [notify_master_slave]
  · cases chip with
    | master =>
      rw [notify_master_master]
      exact id
    | slave =>
      rw [notify_master_slave]
      exact id

theorem notify_with_risen {again : Vatpic → Vatpic}
    (keeps : ∀ v : Vatpic, v.Risen → (again v).Risen) (risen : v.Risen) :
    (notifyWith again v).Risen := by
  unfold notifyWith
  dsimp only
  split
  · apply notify_master_risen
    apply keeps
    apply pinstate_risen
    apply keeps
    apply pinstate_risen
    exact set_risen risen .slave rfl fun _ => id
  · exact notify_master_risen risen

theorem notify_risen (risen : v.Risen) : (vatpicNotifyIntr v).Risen :=
  notify_with_risen (fun _ => notify_with_risen fun _ => id) risen

theorem set_pinstate_risen (risen : v.Risen) (chip : Chip) (pin : Pin) (newstate : Bool) :
    (vatpicSetPinstate v chip pin newstate).Risen :=
  notify_risen (pinstate_risen risen chip pin newstate)

theorem accepted_lines (a : Atpic) (pin : Pin) : (vatpicPinAccepted a pin).acnt = a.acnt ∧
      ∀ other : Pin, (vatpicPinAccepted a pin).request.getLsbD other = true →
        a.request.getLsbD other = true ∧ (other ≠ pin ∨ a.acnt pin ≠ 0) := by
  rw [pin_accepted_eq]
  refine ⟨rfl, fun other left => ?_⟩
  obtain ⟨set_, held⟩ := (left_request_bit a pin other).mp left
  by_cases here : other = pin
  · exact ⟨set_, .inr (held here)⟩
  · exact ⟨set_, .inl here⟩

theorem accept_risen (risen : v.Risen) (deasserted : v.Deasserted chip pin) :
    (v.accept chip pin).Risen := by
  obtain ⟨acnt, request⟩ := accepted_lines (v.atpic chip) pin
  have replaced := set_risen risen chip acnt fun other left => (request other left).1
  unfold Vatpic.accept
  split
  · next requested =>
    constructor
    · intro other place
      refine paired_cons (risen.paired other place) fun fire => ?_
      have mark := of_decide_eq_true fire
      injection mark with sameChip samePin edge
      subst sameChip samePin
      exact risen.armed chip pin (.inl requested)
    · intro other place lines
      by_cases fire : edgeAccepted other place (.accepted chip pin (!v.level chip pin)) = true
      · have mark := of_decide_eq_true fire
        injection mark with sameChip samePin edge
        subst sameChip samePin
        rw [Bool.not_eq_true'] at edge
        have idle := deasserted edge requested
        rw [note_atpic, set_here, acnt] at lines
        obtain left | positive := lines
        · exact absurd ((request pin left).2.resolve_left (not_not_intro rfl)) (not_not_intro idle)
        · omega
      · exact armed_other (eq_false_of_ne_true fire) (replaced.armed other place lines)
  · exact replaced

theorem accept_deasserted {other : Chip} {place : Pin} (deasserted : v.Deasserted other place)
    (apart : other ≠ chip) : (v.accept chip pin).Deasserted other place := by
  unfold Vatpic.Deasserted
  rw [accept_there v pin apart]
  have level : (v.accept chip pin).level other place = v.level other place := by
    unfold Vatpic.level
    rw [accept_elc]
  rw [level]
  exact deasserted

theorem acknowledge_risen (risen : v.Risen) (accepts : v.AcceptsDeasserted .acknowledge) :
    (v.step .acknowledge).Risen := by
  unfold Vatpic.AcceptsDeasserted Vatpic.taken at accepts
  dsimp only at accepts
  unfold Vatpic.step vatpicIntrAccepted
  split at accepts
  · next own =>
    rw [if_pos own]
    have slave := accepts _ List.mem_cons_self
    have master := accepts _ (List.mem_cons_of_mem _ List.mem_cons_self)
    have apart : Chip.master ≠ Chip.slave := by decide
    exact notify_risen (accept_risen (accept_risen risen slave) (accept_deasserted master apart))
  · next other =>
    rw [if_neg other]
    exact notify_risen (accept_risen risen (accepts _ List.mem_cons_self))

theorem read_risen (risen : v.Risen) (chip : Chip) (port : Nat)
    (accepts : (v.atpic chip).poll = true → ∀ pin, vatpicGetHighestIrrpin (v.atpic chip) = some pin → v.Deasserted chip pin) :
    (vatpicRead v chip port).1.Risen := by
  have done : (v.set chip { v.atpic chip with poll := false }).Risen :=
    set_risen risen chip rfl fun _ => id
  obtain same | ⟨poll, polled | ⟨pin, found, taken⟩⟩ := read_cases v chip port
  · rw [same]
    exact risen
  · rw [polled]
    exact done
  · rw [taken]
    apply accept_risen done
    unfold Vatpic.Deasserted
    rw [set_here]
    exact accepts poll pin found

theorem icw1_request (a : Atpic) (val : BitVec 8) : (vatpicIcw1 a val).1.request = 0 := by
  unfold vatpicIcw1
  split
  · rfl
  · split <;> rfl

theorem write_risen (risen : v.Risen) (chip : Chip) (port : Nat) (eax : BitVec 32) :
    (vatpicWrite v chip port eax).1.Risen := by
  have replaced : (v.set chip ((v.atpic chip).write chip port (eax.setWidth 8)).1).Risen := by
    obtain same | ⟨-, -, started⟩ := write_cases chip (v.atpic chip) port (eax.setWidth 8)
    · apply set_risen risen chip same.acnt
      rw [same.request]
      exact fun _ => id
    · rw [started]
      apply set_risen risen chip (icw1_keeps _ _).1
      intro pin requested
      rw [icw1_request, BitVec.ofNat_eq_ofNat, BitVec.getLsbD_zero] at requested
      cases requested
  unfold vatpicWrite
  dsimp only
  split
  · exact notify_risen replaced
  · exact replaced

theorem irq_risen (risen : v.Risen) (irq : Int) (state : Irqstate) :
    (v.step (.irq irq state)).Risen := by
  unfold Vatpic.step vatpicSetIrqstate
  dsimp only
  split
  · exact risen
  · split
    · exact risen
    · cases state with
      | assert => exact set_pinstate_risen risen _ _ true
      | deassert => exact set_pinstate_risen risen _ _ false
      | pulse => exact set_pinstate_risen (set_pinstate_risen risen _ _ true) _ _ false

theorem elc_risen (risen : v.Risen) (elc : Chip → BitVec 8) : { v with elc := elc }.Risen :=
  risen_of_lines risen rfl (fun _ => rfl) fun _ _ => id

theorem trigger_risen (risen : v.Risen) (irq : Int) (level : Bool) :
    (v.step (.trigger irq level)).Risen := by
  unfold Vatpic.step vatpicSetIrqTrigger
  dsimp only
  split
  · exact risen
  · split
    · exact risen
    · exact elc_risen risen _

theorem port_risen (risen : v.Risen) (chip : Chip) (port bytes : Nat) (data : Option (BitVec 32))
    (accepts : v.AcceptsDeasserted (.port chip port bytes data)) :
    (v.step (.port chip port bytes data)).Risen := by
  obtain same | ⟨rfl, ⟨rfl, read⟩ | ⟨eax, rfl, written⟩⟩ := port_cases v chip port bytes data
  · rw [same]
    exact risen
  · exact read_risen risen chip port accepts
  · exact write_risen risen chip port eax

theorem elcr_risen (risen : v.Risen) (chip : Chip) (bytes : Nat) (data : Option (BitVec 32)) :
    (v.step (.elcr chip bytes data)).Risen := by
  unfold Vatpic.step vatpicElcHandler
  dsimp only
  split
  · exact risen
  · cases data with
    | none => exact risen
    | some eax => exact elc_risen risen _

theorem step_risen (e : Event) (risen : v.Risen) (accepts : v.AcceptsDeasserted e) :
    (v.step e).Risen := by
  cases e with
  | irq irq state => exact irq_risen risen irq state
  | trigger irq level => exact trigger_risen risen irq level
  | port chip port bytes data => exact port_risen risen chip port bytes data accepts
  | elcr chip bytes data => exact elcr_risen risen chip bytes data
  | acknowledge => exact acknowledge_risen risen accepts

theorem init_risen : vatpicInit.Risen := by
  constructor
  · exact fun _ _ => trivial
  · intro chip pin lines
    rcases lines with requested | asserted
    · exact absurd (BitVec.getLsbD_zero.symm.trans requested) Bool.false_ne_true
    · exact absurd asserted (Int.lt_irrefl 0)

theorem edge_requests_bounded (events : List Event)
    (accepts : Along Vatpic.step Vatpic.AcceptsDeasserted vatpicInit events) (chip : Chip)
    (pin : Pin) : edgeInterrupts (run Vatpic.step vatpicInit events) chip pin ≤
      transitions (run Vatpic.step vatpicInit events) chip pin := by
  have keeps (v : Vatpic) (e : Event) (risen : v.Risen) (here : v.AcceptsDeasserted e) :
      (v.step e).Risen := step_risen e risen here
  have risen := invariant_run keeps events vatpicInit init_risen accepts
  have apart (mark : Happening) (rise : rises chip pin mark = true) :
      edgeAccepted chip pin mark = false := by
    have rose := of_decide_eq_true rise
    subst rose
    exact decide_eq_false nofun
  exact Nat.le_trans (Nat.le_add_right ..) (paired_count apart (risen.paired chip pin))

/-- Along a run that looks at no spent edge of the I/O APIC, and accepts no asserted edge of the
    8259 pair, an edge interrupts no more often than it rises. -/
theorem edges_fire_once (boardEvents : List Apic.LevelPins.Event) (events : List Event) :
    (Along Apic.LevelPins.Board.step Apic.EdgePins.OncePerRise
        Apic.LevelPins.Board.start boardEvents →
      ∀ pin, Apic.EdgePins.edgeInterrupts
          (run Apic.LevelPins.Board.step Apic.LevelPins.Board.start boardEvents) pin ≤
        Apic.EdgePins.transitions
          (run Apic.LevelPins.Board.step Apic.LevelPins.Board.start boardEvents) pin) ∧
    (Along Vatpic.step Vatpic.AcceptsDeasserted vatpicInit events →
      ∀ chip pin, edgeInterrupts (run Vatpic.step vatpicInit events) chip pin ≤
        transitions (run Vatpic.step vatpicInit events) chip pin) :=
  ⟨Apic.EdgePins.edge_interrupts_bounded boardEvents, edge_requests_bounded events⟩

def unmaskedEdge : List Apic.LevelPins.Event :=
  [.mmioWrite Apic.ioregsel 0x10 4, .mmioWrite Apic.iowin 0x30 4,
   .writeEnd Apic.LevelPins.firstPin, .irq 0 .assert]

def pulsedEdge : List Event :=
  initialise .master masterPort 0x08 0x03 ++ [.irq 5 .pulse, .acknowledge]

theorem unmasked_and_pulsed_once : Apic.EdgePins.edgeInterrupts
        (run Apic.LevelPins.Board.step Apic.LevelPins.Board.start unmaskedEdge)
        Apic.LevelPins.firstPin ≤
      Apic.EdgePins.transitions
        (run Apic.LevelPins.Board.step Apic.LevelPins.Board.start unmaskedEdge)
        Apic.LevelPins.firstPin ∧
    edgeInterrupts (run Vatpic.step vatpicInit pulsedEdge) .master fifthPin ≤
      transitions (run Vatpic.step vatpicInit pulsedEdge) .master fifthPin := by
  constructor
  · apply (edges_fire_once unmaskedEdge pulsedEdge).1
    refine ⟨fun pin never => ?_, fun pin never => ?_, fun _ _ spent => ?_, trivial, trivial⟩
    · cases never
    · cases never
    · exact absurd spent.asserted (by decide)
  · apply (edges_fire_once unmaskedEdge pulsedEdge).2
    refine ⟨trivial, trivial, trivial, trivial, trivial, fun x member _ _ => ?_, trivial⟩
    have taken : (run Vatpic.step vatpicInit
        (initialise .master masterPort 0x08 0x03 ++ [.irq 5 .pulse])).taken =
          [(.master, fifthPin)] := by
      decide
    rw [show x = (.master, fifthPin) from List.mem_singleton.mp (taken ▸ member)]
    decide

def rewrittenEdge : List Apic.LevelPins.Event :=
  unmaskedEdge ++ [.mmioWrite Apic.iowin 0x30 4]

def heldEdge : List Event :=
  initialise .master masterPort 0x08 0x03 ++ [.irq 5 .assert, .acknowledge, .acknowledge]

theorem edges_fire_again : (¬ ∀ events pin, Apic.EdgePins.edgeInterrupts
          (run Apic.LevelPins.Board.step Apic.LevelPins.Board.start events) pin ≤
        Apic.EdgePins.transitions
          (run Apic.LevelPins.Board.step Apic.LevelPins.Board.start events) pin) ∧
    ¬ ∀ events chip pin, edgeInterrupts (run Vatpic.step vatpicInit events) chip pin ≤
        transitions (run Vatpic.step vatpicInit events) chip pin := by
  constructor
  · intro every
    exact absurd (every rewrittenEdge Apic.LevelPins.firstPin) (by decide)
  · intro every
    exact absurd (every heldEdge .master fifthPin) (by decide)

end Pic
