import Bhyve.Pic.Vatpic
import Bhyve.Lib.StepRuns

/-!
When a request that could be delivered has been notified.
-/
namespace Pic
open StepRuns Function

def Atpic.raise (a : Atpic) : Atpic := { a with intrRaised := a.intrRaised || a.eligible }

structure Vatpic.Notified (v : Vatpic) : Prop where
  master : (v.atpic .master).ready = true → (v.atpic .master).eligible = true →
    (v.atpic .master).intrRaised = true
  slave : (v.atpic .slave).ready = true → (v.atpic .slave).eligible = true →
    (v.atpic .slave).intrRaised = true ∧ (v.atpic .master).request.getLsbD cascade = true

/-- The cascade pin is an edge, and the vectors of a chip begin at a multiple of eight. -/
structure Vatpic.Wired (v : Vatpic) : Prop where
  edge : v.level .master cascade = false
  based : ∀ chip, (v.atpic chip).irqBase % 8 = 0

/-- The cascade pin can rise, or has its request; and it has it while the slave is raised. -/
structure Vatpic.Relay (v : Vatpic) : Prop extends Vatpic.Wired v where
  counted : 0 ≤ (v.atpic .master).acnt cascade
  held : 0 < (v.atpic .master).acnt cascade → (v.atpic .master).request.getLsbD cascade = true
  forwarded : (v.atpic .slave).intrRaised = true →
    (v.atpic .master).request.getLsbD cascade = true

@[simp] theorem raise_eligible (a : Atpic) : a.raise.eligible = a.eligible := rfl

@[simp] theorem raise_acnt (a : Atpic) : a.raise.acnt = a.acnt := rfl

variable {a : Atpic} {v : Vatpic} {chip : Chip} {pin : Pin}

theorem raise_raised (eligible : a.raise.eligible = true) : a.raise.intrRaised = true := by
  rw [raise_eligible] at eligible
  rw [Atpic.raise, eligible, Bool.or_true]

theorem raise_twice (a : Atpic) : a.raise.raise = a.raise := by
  unfold Atpic.raise
  congr 1
  exact (Bool.or_assoc ..).trans (congrArg _ (Bool.or_self _))

theorem raise_still (still : ¬ (!a.intrRaised && a.eligible) = true) : a.raise = a := by
  have same : (a.intrRaised || a.eligible) = a.intrRaised := by
    cases raised : a.intrRaised with
    | true => rfl
    | false =>
      rw [raised, Bool.not_false, Bool.true_and] at still
      exact eq_false_of_ne_true still
  rw [Atpic.raise, same]

theorem raise_fires (fires : (!a.intrRaised && a.eligible) = true) :
    a.raise = { a with intrRaised := true } := by
  have eligible := (Bool.and_eq_true_iff.mp fires).2
  rw [Atpic.raise, eligible, Bool.or_true]

theorem notify_master_atpic (v : Vatpic) :
    (notifyMaster v).atpic = update v.atpic .master (v.atpic .master).raise ∧
      (notifyMaster v).elc = v.elc := by
  unfold notifyMaster
  by_cases fires : (!(v.atpic .master).intrRaised && (v.atpic .master).eligible) = true
  · rw [if_pos fires, raise_fires fires]
    exact ⟨rfl, rfl⟩
  · rw [if_neg fires, raise_still fires, update_eq_self]
    exact ⟨rfl, rfl⟩

@[simp] theorem notify_master_master (v : Vatpic) :
    (notifyMaster v).atpic .master = (v.atpic .master).raise := by
  rw [(notify_master_atpic v).1, update_self]

@[simp] theorem notify_master_slave (v : Vatpic) :
    (notifyMaster v).atpic .slave = v.atpic .slave := by
  rw [(notify_master_atpic v).1]
  exact update_of_ne (by decide) ..

@[simp] theorem notify_master_elc (v : Vatpic) : (notifyMaster v).elc = v.elc :=
  (notify_master_atpic v).2

theorem notify_raised (again : Vatpic → Vatpic) (raised : (v.atpic .slave).intrRaised = true) :
    notifyWith again v = notifyMaster v := by
  unfold notifyWith
  simp [raised]

@[simp] theorem pinstate_here (v : Vatpic) (chip : Chip) (pin : Pin) (newstate : Bool) :
    (v.pinstate chip pin newstate).atpic chip =
      (v.atpic chip).pinstate (v.level chip pin) pin newstate := by
  unfold Vatpic.pinstate
  split
  · rw [note_atpic, set_here]
  · rw [set_here]

theorem pinstate_there (v : Vatpic) {other : Chip} (pin : Pin) (newstate : Bool)
    (apart : other ≠ chip) : (v.pinstate chip pin newstate).atpic other = v.atpic other := by
  unfold Vatpic.pinstate
  split
  · rw [note_atpic, set_there v _ _ apart]
  · rw [set_there v _ _ apart]

@[simp] theorem pinstate_elc (v : Vatpic) (chip : Chip) (pin : Pin) (newstate : Bool) :
    (v.pinstate chip pin newstate).elc = v.elc := by
  unfold Vatpic.pinstate
  split <;> rfl

theorem edge_assert (a : Atpic) (pin : Pin) :
    a.pinstate false pin true =
      { a with
        acnt := update a.acnt pin (a.acnt pin + 1)
        request := if a.acnt pin = 0 then withBit a.request pin else a.request } := by
  unfold Atpic.pinstate
  by_cases idle : a.acnt pin = 0
  · simp [idle]
  · simp [idle]

theorem edge_deassert (a : Atpic) (pin : Pin) : a.pinstate false pin false =
      { a with acnt := update a.acnt pin (a.acnt pin - 1) } := by
  unfold Atpic.pinstate
  simp
  omega

theorem pair_raised {again : Vatpic → Vatpic} {newstate : Bool}
    (raised : (v.atpic .slave).intrRaised = true) :
    notifyWith again (v.pinstate .master cascade newstate) =
      notifyMaster (v.pinstate .master cascade newstate) := by
  apply notify_raised
  rw [pinstate_there v cascade newstate (by decide)]
  exact raised

theorem edge_pulse (a : Atpic) (pin : Pin) :
    (a.pinstate false pin true).raise.pinstate false pin false =
      { a with request := if a.acnt pin = 0 then withBit a.request pin else a.request }.raise := by
  have back : update (update a.acnt pin (a.acnt pin + 1)) pin
      (update a.acnt pin (a.acnt pin + 1) pin - 1) = a.acnt := by
    rw [update_self, update_idem, Int.add_sub_cancel, update_eq_self]
  rw [edge_assert, edge_deassert]
  exact congrArg (fun acnt : Pin → Int =>
    { a with
      request := if a.acnt pin = 0 then withBit a.request pin else a.request
      acnt := acnt }.raise) back

def Vatpic.raiseSlave (v : Vatpic) : Vatpic :=
  v.set .slave { v.atpic .slave with intrRaised := true }

theorem notify_fires (again : Vatpic → Vatpic)
    (fires : (!(v.atpic .slave).intrRaised && (v.atpic .slave).eligible) = true) :
    notifyWith again v =
      notifyMaster (again ((again (v.raiseSlave.pinstate .master cascade true)).pinstate
        .master cascade false)) := by
  unfold notifyWith
  rw [if_pos fires]
  rfl

theorem notify_forwards (edge : v.level .master cascade = false)
    (fires : (!(v.atpic .slave).intrRaised && (v.atpic .slave).eligible) = true) :
    (vatpicNotifyIntr v).atpic .slave = (v.atpic .slave).raise ∧
      (vatpicNotifyIntr v).atpic .master =
        { v.atpic .master with
          request :=
            if (v.atpic .master).acnt cascade = 0 then withBit (v.atpic .master).request cascade
            else (v.atpic .master).request }.raise ∧
      (vatpicNotifyIntr v).elc = v.elc := by
  have raised : (v.raiseSlave.atpic .slave).intrRaised = true := by
    rw [Vatpic.raiseSlave, set_here]
  have master : v.raiseSlave.atpic .master = v.atpic .master := set_there v .slave _ (by decide)
  have upRaised : ((notifyMaster (v.raiseSlave.pinstate .master cascade true)).atpic
      .slave).intrRaised = true := by
    rw [notify_master_slave, pinstate_there _ _ _ (by decide)]
    exact raised
  have firstEdge : v.raiseSlave.level .master cascade = false := edge
  have upEdge : (notifyMaster (v.raiseSlave.pinstate .master cascade true)).level
      .master cascade = false := by
    rw [Vatpic.level, notify_master_elc, pinstate_elc]
    exact firstEdge
  rw [vatpicNotifyIntr, notify_fires _ fires, pair_raised raised, pair_raised upRaised]
  refine ⟨?_, ?_, ?_⟩
  · rw [notify_master_slave, notify_master_slave, pinstate_there _ _ _ (by decide),
      notify_master_slave, pinstate_there _ _ _ (by decide), raise_fires fires]
    exact set_here ..
  · rw [notify_master_master, notify_master_master, pinstate_here, upEdge, notify_master_master,
      pinstate_here, firstEdge, master, edge_pulse, raise_twice, raise_twice]
  · rw [notify_master_elc, notify_master_elc, pinstate_elc, notify_master_elc, pinstate_elc]
    rfl

theorem notify_quiet (still : ¬ (!(v.atpic .slave).intrRaised && (v.atpic .slave).eligible) = true) :
    (vatpicNotifyIntr v).atpic .slave = (v.atpic .slave).raise ∧
      (vatpicNotifyIntr v).atpic .master = (v.atpic .master).raise ∧
      (vatpicNotifyIntr v).elc = v.elc := by
  have master : vatpicNotifyIntr v = notifyMaster v := if_neg still
  rw [master, notify_master_slave, notify_master_master, notify_master_elc, raise_still still]
  exact ⟨rfl, rfl, rfl⟩

def Vatpic.forwards (v : Vatpic) : Bool :=
  (!(v.atpic .slave).intrRaised && (v.atpic .slave).eligible) &&
    decide ((v.atpic .master).acnt cascade = 0)

def Vatpic.forwardedRequest (v : Vatpic) : BitVec 8 :=
  if v.forwards then withBit (v.atpic .master).request cascade else (v.atpic .master).request

theorem notify_eq (edge : v.level .master cascade = false) :
    (vatpicNotifyIntr v).atpic .slave = (v.atpic .slave).raise ∧
      (vatpicNotifyIntr v).atpic .master =
        { v.atpic .master with request := v.forwardedRequest }.raise ∧
      (vatpicNotifyIntr v).elc = v.elc := by
  unfold Vatpic.forwardedRequest Vatpic.forwards
  by_cases fires : (!(v.atpic .slave).intrRaised && (v.atpic .slave).eligible) = true
  · rw [fires, Bool.true_and]
    simp only [decide_eq_true_eq]
    exact notify_forwards edge fires
  · rw [eq_false_of_ne_true fires, Bool.false_and, if_neg Bool.false_ne_true]
    exact notify_quiet fires

theorem forwarded_request_bit (v : Vatpic) (pin : Pin) : v.forwardedRequest.getLsbD pin =
      ((v.atpic .master).request.getLsbD pin || (decide (pin = cascade) && v.forwards)) := by
  unfold Vatpic.forwardedRequest
  split
  · next fires => rw [with_bit, fires, Bool.and_true]
  · next still => rw [eq_false_of_ne_true still, Bool.and_false, Bool.or_false]

/-- Between two operations: the cascade works, and a chip that is ready and has an eligible pin is
    raised. -/
structure Vatpic.Settled (v : Vatpic) : Prop where
  relay : v.Relay
  raised : ∀ chip, (v.atpic chip).ready = true → (v.atpic chip).eligible = true →
    (v.atpic chip).intrRaised = true

theorem Vatpic.Settled.notified (settled : v.Settled) : v.Notified := by
  constructor
  · exact settled.raised .master
  · intro ready eligible
    have raised := settled.raised .slave ready eligible
    exact ⟨raised, settled.relay.forwarded raised⟩

theorem notify_wired (wired : v.Wired) : (vatpicNotifyIntr v).Wired := by
  obtain ⟨slave, master, elc⟩ := notify_eq wired.edge
  constructor
  · rw [Vatpic.level, elc]
    exact wired.edge
  · intro chip
    cases chip with
    | master =>
      rw [master]
      exact wired.based .master
    | slave =>
      rw [slave]
      exact wired.based .slave

theorem notify_settled (relay : v.Relay) : (vatpicNotifyIntr v).Settled := by
  obtain ⟨slave, master, elc⟩ := notify_eq relay.edge
  have request : ((vatpicNotifyIntr v).atpic .master).request = v.forwardedRequest := by
    rw [master]
    rfl
  have count : ((vatpicNotifyIntr v).atpic .master).acnt = (v.atpic .master).acnt := by
    rw [master]
    rfl
  have raised : ∀ chip, ((vatpicNotifyIntr v).atpic chip).eligible = true →
      ((vatpicNotifyIntr v).atpic chip).intrRaised = true := by
    intro chip eligible
    cases chip with
    | master =>
      rw [master] at eligible ⊢
      exact raise_raised eligible
    | slave =>
      rw [slave] at eligible ⊢
      exact raise_raised eligible
  refine ⟨⟨notify_wired relay.toWired, ?_, ?_, ?_⟩, fun chip _ => raised chip⟩
  · rw [count]
    exact relay.counted
  · rw [count, request, forwarded_request_bit]
    intro positive
    rw [relay.held positive, Bool.true_or]
  · rw [slave, request, forwarded_request_bit, decide_eq_true rfl, Bool.true_and]
    intro slaveRaised
    by_cases idle : (v.atpic .master).acnt cascade = 0
    · cases before : (v.atpic .slave).intrRaised with
      | true => rw [relay.forwarded before, Bool.true_or]
      | false =>
        have eligible : ((v.atpic .slave).intrRaised || (v.atpic .slave).eligible) = true :=
          slaveRaised
        rw [before, Bool.false_or] at eligible
        rw [Vatpic.forwards, before, eligible, decide_eq_true idle]
        exact Bool.or_true _
    · have counted := relay.counted
      rw [relay.held (by omega), Bool.true_or]

/-- A read in poll mode accepts a pin and does not notify: it must leave the chip no eligible pin,
    and not take the request of the slave from the master. -/
structure Vatpic.PollSettles (v : Vatpic) (chip : Chip) (pin : Pin) : Prop where
  last : (vatpicPinAccepted (v.atpic chip) pin).eligible = false
  own : chip = .master → pin = cascade → (v.atpic .slave).intrRaised = false

/-- What keeps a pair notified. The cascade pin is not deasserted below zero, and the master is
    not initialised while the slave is raised or the cascade pin asserted. -/
def Vatpic.Prompt (v : Vatpic) : Event → Prop
  | .irq irq .deassert => irq = 2 → (v.atpic .master).ready = true →
      0 < (v.atpic .master).acnt cascade
  | .port chip _ 1 none => (v.atpic chip).poll = true →
      ∀ pin, vatpicGetHighestIrrpin (v.atpic chip) = some pin → v.PollSettles chip pin
  | .port .master port 1 (some eax) => dataPort port = false → eax.getLsbD 4 = true →
      (v.atpic .slave).intrRaised = false ∧ (v.atpic .master).acnt cascade = 0
  | _ => True

theorem pinstate_form (a : Atpic) (level : Bool) (pin : Pin) (newstate : Bool) :
    ∃ count request, a.pinstate level pin newstate =
        { a with acnt := update a.acnt pin count, request := request } ∧
      ∀ other, other ≠ pin → request.getLsbD other = a.request.getLsbD other := by
  unfold Atpic.pinstate
  dsimp only
  generalize (if newstate then a.acnt pin + 1 else a.acnt pin - 1) = newcnt
  split
  · refine ⟨newcnt, withBit a.request pin, rfl, fun other apart => ?_⟩
    rw [with_bit, decide_eq_false apart, Bool.or_false]
  · split
    · split
      · refine ⟨newcnt, withoutBit a.request pin, rfl, fun other apart => ?_⟩
        rw [without_bit, decide_eq_false apart, Bool.not_false, Bool.and_true]
      · exact ⟨newcnt, a.request, rfl, fun _ _ => rfl⟩
    · exact ⟨newcnt, a.request, rfl, fun _ _ => rfl⟩

theorem pinstate_wired (wired : v.Wired) (chip : Chip) (pin : Pin) (newstate : Bool) :
    (v.pinstate chip pin newstate).Wired := by
  obtain ⟨count, request, form, -⟩ :=
    pinstate_form (v.atpic chip) (v.level chip pin) pin newstate
  constructor
  · rw [Vatpic.level, pinstate_elc]
    exact wired.edge
  · intro other
    by_cases here : other = chip
    · subst here
      rw [pinstate_here, form]
      exact wired.based other
    · rw [pinstate_there _ _ _ here]
      exact wired.based other

theorem pinstate_relay (relay : v.Relay) {newstate : Bool}
    (kept : chip = .master → pin = cascade → newstate = false → 0 < (v.atpic .master).acnt cascade) :
    (v.pinstate chip pin newstate).Relay := by
  have wired := pinstate_wired relay.toWired chip pin newstate
  obtain ⟨count, request, form, bits⟩ :=
    pinstate_form (v.atpic chip) (v.level chip pin) pin newstate
  cases chip with
  | slave =>
    have master := pinstate_there v pin newstate (by decide : Chip.master ≠ .slave)
    refine ⟨wired, ?_, ?_, ?_⟩
    · rw [master]
      exact relay.counted
    · rw [master]
      exact relay.held
    · rw [master, pinstate_here, form]
      exact relay.forwarded
  | master =>
    have slave := pinstate_there v pin newstate (by decide : Chip.slave ≠ .master)
    by_cases here : pin = cascade
    · subst here
      have level : v.level .master cascade = false := relay.edge
      cases newstate with
      | true =>
        have set_ : (if (v.atpic .master).acnt cascade = 0 then
            withBit (v.atpic .master).request cascade
            else (v.atpic .master).request).getLsbD cascade = true := by
          split
          · rw [with_bit, decide_eq_true rfl, Bool.or_true]
          · have counted := relay.counted
            exact relay.held (by omega)
        refine ⟨wired, ?_, ?_, ?_⟩
        · rw [pinstate_here, level, edge_assert]
          dsimp only
          exact Int.le_add_one relay.counted
        · rw [pinstate_here, level, edge_assert]
          exact fun _ => set_
        · rw [pinstate_here, level, edge_assert]
          exact fun _ => set_
      | false =>
        have positive := kept rfl rfl rfl
        have requested := relay.held positive
        refine ⟨wired, ?_, ?_, ?_⟩
        · rw [pinstate_here, level, edge_deassert]
          dsimp only
          rw [update_self]
          omega
        · rw [pinstate_here, level, edge_deassert]
          exact fun _ => requested
        · rw [pinstate_here, level, edge_deassert]
          exact fun _ => requested
    · have apart : cascade ≠ pin := Ne.symm here
      have same := bits cascade apart
      refine ⟨wired, ?_, ?_, ?_⟩
      · rw [pinstate_here, form]
        dsimp only
        rw [update_of_ne apart]
        exact relay.counted
      · rw [pinstate_here, form]
        dsimp only
        rw [update_of_ne apart, same]
        exact relay.held
      · rw [pinstate_here, form, slave]
        dsimp only
        rw [same]
        exact relay.forwarded

theorem set_pinstate_settled {v : Vatpic} (relay : v.Relay) {chip : Chip} {pin : Pin}
    {newstate : Bool} (kept : chip = .master → pin = cascade → newstate = false →
      0 < (v.atpic .master).acnt cascade) : (vatpicSetPinstate v chip pin newstate).Settled :=
  notify_settled (pinstate_relay relay kept)

theorem set_pinstate_counts (relay : v.Relay) (chip : Chip) (pin : Pin) (here : chip = .master)
    (own : pin = cascade) :
    0 < ((vatpicSetPinstate v chip pin true).atpic .master).acnt cascade := by
  subst here
  subst own
  have level : v.level .master cascade = false := relay.edge
  have raised : (v.pinstate .master cascade true).Relay :=
    pinstate_relay relay nofun
  rw [vatpicSetPinstate, (notify_eq raised.edge).2.1, pinstate_here, level, edge_assert, raise_acnt]
  dsimp only
  exact Int.lt_add_one_of_le relay.counted

theorem cascade_irq {irq : Int} (inside : ¬ (irq < 0 ∨ 15 < irq)) (chip : chipOf irq = .master)
    (pin : pinOf irq = cascade) : irq = 2 := by
  have low : irq < 8 := by
    by_cases low : irq < 8
    · exact low
    · rw [chipOf, if_neg low] at chip
      cases chip
  have number : (irq % 8).toNat = 2 := congrArg Fin.val pin
  omega

theorem irq_settled (settled : v.Settled) (irq : Int) (state : Irqstate)
    (prompt : v.Prompt (.irq irq state)) : (v.step (.irq irq state)).Settled := by
  unfold Vatpic.step vatpicSetIrqstate
  by_cases outside : irq < 0 ∨ 15 < irq
  · simp only [outside, if_true]
    exact settled
  · simp only [outside, if_false]
    cases ready : (v.atpic (chipOf irq)).ready with
    | false => exact settled
    | true =>
      cases state with
      | assert => exact set_pinstate_settled settled.relay nofun
      | deassert =>
        refine set_pinstate_settled settled.relay fun chip pin _ => ?_
        rw [chip] at ready
        exact prompt (cascade_irq outside chip pin) ready
      | pulse =>
        have risen := @set_pinstate_settled v settled.relay (chipOf irq) (pinOf irq) true
          nofun
        exact set_pinstate_settled risen.relay fun chip pin _ =>
          set_pinstate_counts settled.relay _ _ chip pin

theorem elc_settled (settled : v.Settled) {elc : Chip → BitVec 8}
    (edge : (elc .master).getLsbD cascade = false) : { v with elc := elc : Vatpic }.Settled := by
  obtain ⟨⟨⟨-, based⟩, counted, held, forwarded⟩, raised⟩ := settled
  exact ⟨⟨⟨edge, based⟩, counted, held, forwarded⟩, raised⟩

theorem trigger_elc (wired : v.Wired) (irq : Int) (level : Bool) :
    ∃ elc, v.step (.trigger irq level) = { v with elc := elc } ∧
      (elc .master).getLsbD cascade = false := by
  have edge : (v.elc .master).getLsbD cascade = false := wired.edge
  unfold Vatpic.step vatpicSetIrqTrigger
  by_cases outside : irq < 0 ∨ 15 < irq
  · simp only [outside, if_true]
    exact ⟨v.elc, rfl, edge⟩
  · by_cases fixed : level = true ∧ (irq = 0 ∨ irq = 1 ∨ irq = 2 ∨ irq = 8 ∨ irq = 13)
    · simp only [outside, fixed, if_true, if_false, and_self]
      exact ⟨v.elc, rfl, edge⟩
    · simp only [outside, fixed, if_false]
      refine ⟨_, rfl, ?_⟩
      by_cases chip : Chip.master = chipOf irq
      · rw [← chip, update_self]
        cases level with
        | false => rw [if_neg Bool.false_ne_true, without_bit, edge, Bool.false_and]
        | true =>
          rw [if_pos rfl, with_bit, edge, Bool.false_or]
          apply decide_eq_false
          intro pin
          exact fixed ⟨rfl, .inr (.inr (.inl (cascade_irq outside chip.symm pin.symm)))⟩
      · rw [update_of_ne chip]
        exact edge

theorem elcr_elc (wired : v.Wired) (chip : Chip) (bytes : Nat) (data : Option (BitVec 32)) :
    ∃ elc, v.step (.elcr chip bytes data) = { v with elc := elc } ∧
      (elc .master).getLsbD cascade = false := by
  have edge : (v.elc .master).getLsbD cascade = false := wired.edge
  unfold Vatpic.step vatpicElcHandler
  dsimp only
  by_cases wide : bytes ≠ 1
  · rw [if_pos wide]
    exact ⟨v.elc, rfl, edge⟩
  · rw [if_neg wide]
    cases data with
    | none => exact ⟨v.elc, rfl, edge⟩
    | some eax =>
      refine ⟨_, rfl, ?_⟩
      cases chip with
      | master =>
        rw [update_self, BitVec.getLsbD_and]
        exact Bool.and_false _
      | slave =>
        exact edge

@[simp] theorem accept_here (v : Vatpic) (chip : Chip) (pin : Pin) :
    (v.accept chip pin).atpic chip = vatpicPinAccepted (v.atpic chip) pin := by
  unfold Vatpic.accept
  split
  · rw [note_atpic, set_here]
  · rw [set_here]

theorem accept_there (v : Vatpic) {other : Chip} (pin : Pin) (apart : other ≠ chip) :
    (v.accept chip pin).atpic other = v.atpic other := by
  unfold Vatpic.accept
  split
  · rw [note_atpic, set_there v _ _ apart]
  · rw [set_there v _ _ apart]

@[simp] theorem accept_elc (v : Vatpic) (chip : Chip) (pin : Pin) :
    (v.accept chip pin).elc = v.elc := by
  unfold Vatpic.accept
  split <;> rfl

def leftRequest (a : Atpic) (pin : Pin) : BitVec 8 :=
  if a.acnt pin = 0 then withoutBit a.request pin else a.request

theorem left_request_bit (a : Atpic) (pin other : Pin) : (leftRequest a pin).getLsbD other = true ↔
      a.request.getLsbD other = true ∧ (other = pin → a.acnt pin ≠ 0) := by
  unfold leftRequest
  split
  · next idle =>
    rw [without_bit, Bool.and_eq_true, Bool.not_eq_true', decide_eq_false_iff_not]
    refine and_congr_right fun _ => ⟨fun apart here => absurd here apart, fun kept here => ?_⟩
    exact kept here idle
  · next asserted => exact ⟨fun set_ => ⟨set_, fun _ => asserted⟩, fun both => both.1⟩

theorem pin_accepted_eq (a : Atpic) (pin : Pin) :
    vatpicPinAccepted a pin =
      { a with
        intrRaised := false
        request := leftRequest a pin
        service := if a.aeoi then a.service else withBit a.service pin
        lowprio := if a.aeoi = true ∧ a.rotate = true then pin else a.lowprio } := by
  unfold vatpicPinAccepted leftRequest
  by_cases idle : a.acnt pin = 0
  · simp only [idle, if_true]
    cases aeoi : a.aeoi <;> cases rotate : a.rotate <;> rfl
  · simp only [idle, if_false]
    cases aeoi : a.aeoi <;> cases rotate : a.rotate <;> rfl

theorem accepted_request_bit (a : Atpic) {other : Pin} (kept : other ≠ pin ∨ a.acnt pin ≠ 0) :
    (vatpicPinAccepted a pin).request.getLsbD other = a.request.getLsbD other := by
  have bit := left_request_bit a pin other
  have held : other = pin → a.acnt pin ≠ 0 := fun here => kept.resolve_left (not_not_intro here)
  rw [pin_accepted_eq]
  exact Bool.eq_iff_iff.mpr (bit.trans (and_iff_left held))

theorem set_wired (wired : v.Wired) (chip : Chip) (based : a.irqBase % 8 = 0) :
    (v.set chip a).Wired := by
  refine ⟨wired.edge, fun other => ?_⟩
  by_cases here : other = chip
  · subst here
    rw [set_here]
    exact based
  · rw [set_there _ _ _ here]
    exact wired.based other

theorem set_relay (relay : v.Relay) (counts : a.acnt = (v.atpic chip).acnt)
    (raised : a.intrRaised = true → (v.atpic chip).intrRaised = true)
    (request : chip = .master → a.request.getLsbD cascade = (v.atpic .master).request.getLsbD cascade ∨ ((v.atpic .slave).intrRaised = false ∧ (v.atpic .master).acnt cascade = 0))
    (based : a.irqBase % 8 = 0) : (v.set chip a).Relay := by
  have wired := set_wired relay.toWired chip based
  cases chip with
  | slave =>
    have master := set_there v .slave a (by decide : Chip.master ≠ .slave)
    refine ⟨wired, ?_, ?_, ?_⟩
    · exact relay.counted
    · exact relay.held
    · exact fun now => relay.forwarded (raised now)
  | master =>
    have slave := set_there v .master a (by decide : Chip.slave ≠ .master)
    refine ⟨wired, ?_, ?_, ?_⟩
    · rw [set_here, counts]
      exact relay.counted
    · rw [set_here, counts]
      intro positive
      obtain same | ⟨-, idle⟩ := request rfl
      · rw [same]
        exact relay.held positive
      · exact absurd idle (Int.ne_of_gt positive)
    · rw [set_here, slave]
      intro slaveRaised
      obtain same | ⟨quiet, -⟩ := request rfl
      · rw [same]
        exact relay.forwarded slaveRaised
      · rw [quiet] at slaveRaised
        cases slaveRaised

theorem accept_relay (relay : v.Relay)
    (own : chip = .master → pin = cascade → (v.atpic .slave).intrRaised = false) :
    (v.accept chip pin).Relay := by
  have replaced : (v.set chip (vatpicPinAccepted (v.atpic chip) pin)).Relay := by
    apply set_relay relay
    · rw [pin_accepted_eq]
    · rw [pin_accepted_eq]
      exact nofun
    · rintro rfl
      by_cases here : pin = cascade
      · by_cases idle : (v.atpic .master).acnt cascade = 0
        · exact .inr ⟨own rfl here, idle⟩
        · exact .inl (accepted_request_bit _ (.inr (here ▸ idle)))
      · exact .inl (accepted_request_bit _ (.inl (Ne.symm here)))
    · rw [pin_accepted_eq]
      exact relay.based chip
  unfold Vatpic.accept
  split
  · exact ⟨⟨replaced.edge, replaced.based⟩, replaced.counted, replaced.held, replaced.forwarded⟩
  · exact replaced

theorem set_settled (settled : v.Settled) (relay : (v.set chip a).Relay)
    (raised : a.ready = true → a.eligible = true → a.intrRaised = true) :
    (v.set chip a).Settled := by
  refine ⟨relay, fun other => ?_⟩
  by_cases here : other = chip
  · subst here
    rw [set_here]
    exact raised
  · rw [set_there _ _ _ here]
    exact settled.raised other

theorem poll_done_settled (settled : v.Settled) (chip : Chip) :
    (v.set chip { v.atpic chip with poll := false }).Settled := by
  apply set_settled settled
  · apply set_relay settled.relay
    · rfl
    · exact id
    · rintro rfl
      exact .inl rfl
    · exact settled.relay.based chip
  · exact settled.raised chip

theorem accepted_poll (a : Atpic) (pin : Pin) (poll : Bool) :
    vatpicPinAccepted { a with poll := poll } pin = { vatpicPinAccepted a pin with poll := poll } := by
  unfold vatpicPinAccepted
  by_cases idle : a.acnt pin = 0
  · simp only [idle, if_true]
    split
    · split <;> rfl
    · rfl
  · simp only [idle, if_false]
    split
    · split <;> rfl
    · rfl

theorem read_cases (v : Vatpic) (chip : Chip) (port : Nat) : (vatpicRead v chip port).1 = v ∨
      (v.atpic chip).poll = true ∧
        ((vatpicRead v chip port).1 = v.set chip { v.atpic chip with poll := false } ∨
          ∃ pin, vatpicGetHighestIrrpin (v.atpic chip) = some pin ∧
            (vatpicRead v chip port).1 =
              (v.set chip { v.atpic chip with poll := false }).accept chip pin) := by
  unfold vatpicRead
  dsimp only
  cases poll : (v.atpic chip).poll with
  | false =>
    rw [if_neg Bool.false_ne_true]
    split
    · exact .inl rfl
    · split <;> exact .inl rfl
  | true =>
    rw [if_pos rfl, set_here]
    split
    · next pin found => exact .inr ⟨rfl, .inr ⟨pin, found, rfl⟩⟩
    · exact .inr ⟨rfl, .inl rfl⟩

theorem port_cases (v : Vatpic) (chip : Chip) (port bytes : Nat) (data : Option (BitVec 32)) :
    v.step (.port chip port bytes data) = v ∨
      bytes = 1 ∧
        ((data = none ∧ v.step (.port chip port bytes data) = (vatpicRead v chip port).1) ∨
          ∃ eax, data = some eax ∧
            v.step (.port chip port bytes data) = (vatpicWrite v chip port eax).1) := by
  unfold Vatpic.step vatpicHandler
  dsimp only
  by_cases wide : bytes ≠ 1
  · rw [if_pos wide]
    exact .inl rfl
  · rw [if_neg wide]
    cases data with
    | none => exact .inr ⟨not_not.mp wide, .inl ⟨rfl, rfl⟩⟩
    | some eax => exact .inr ⟨not_not.mp wide, .inr ⟨eax, rfl, rfl⟩⟩

theorem read_settled (settled : v.Settled) (chip : Chip) (port : Nat)
    (prompt : (v.atpic chip).poll = true → ∀ pin, vatpicGetHighestIrrpin (v.atpic chip) = some pin → v.PollSettles chip pin) :
    (vatpicRead v chip port).1.Settled := by
  have done := poll_done_settled settled chip
  obtain same | ⟨poll, polled | ⟨pin, found, taken⟩⟩ := read_cases v chip port
  · rw [same]
    exact settled
  · rw [polled]
    exact done
  · rw [taken]
    obtain ⟨last, own⟩ := prompt poll pin found
    have relay : ((v.set chip { v.atpic chip with poll := false }).accept chip pin).Relay := by
      apply accept_relay done.relay
      rintro rfl here
      exact own rfl here
    refine ⟨relay, fun other ready eligible => ?_⟩
    by_cases here : other = chip
    · subst here
      rw [accept_here, set_here, accepted_poll] at eligible
      exact absurd (last.symm.trans eligible) Bool.false_ne_true
    · rw [accept_there _ _ here] at ready eligible ⊢
      exact done.raised other ready eligible

structure Atpic.SameLines (a b : Atpic) : Prop where
  acnt : b.acnt = a.acnt
  intrRaised : b.intrRaised = a.intrRaised
  request : b.request = a.request
  based : a.irqBase % 8 = 0 → b.irqBase % 8 = 0

theorem same_lines_self (a : Atpic) : a.SameLines a := ⟨rfl, rfl, rfl, id⟩

theorem icw2_same (a : Atpic) (val : BitVec 8) : a.SameLines (vatpicIcw2 a val).1 := by
  refine ⟨rfl, rfl, rfl, fun _ => ?_⟩
  have low : ∀ val : BitVec 8, (val &&& 0xf8).toNat % 8 = 0 := by decide
  exact low val

theorem icw4_same (chip : Chip) (a : Atpic) (val : BitVec 8) :
    a.SameLines (vatpicIcw4 chip a val).1 := by
  unfold vatpicIcw4
  split
  · exact same_lines_self a
  · split <;> split <;> exact ⟨rfl, rfl, rfl, id⟩

theorem ocw2_same (a : Atpic) (val : BitVec 8) : a.SameLines (vatpicOcw2 a val).1 := by
  have rotated : a.SameLines { a with rotate := val.getLsbD ocw2R } := ⟨rfl, rfl, rfl, id⟩
  unfold vatpicOcw2
  generalize ({ a with rotate := val.getLsbD ocw2R } : Atpic) = b at rotated
  obtain ⟨acnt, raised, request, based⟩ := rotated
  cases val.getLsbD ocw2Eoi with
  | true =>
    rw [if_pos rfl]
    cases eoiPin b val with
    | none => exact ⟨acnt, raised, request, based⟩
    | some isrBit =>
      dsimp only
      split <;> exact ⟨acnt, raised, request, based⟩
  | false =>
    rw [if_neg Bool.false_ne_true]
    split <;> exact ⟨acnt, raised, request, based⟩

theorem ocw3_same (a : Atpic) (val : BitVec 8) : a.SameLines (vatpicOcw3 a val).1 := by
  unfold vatpicOcw3
  split <;> split <;> exact ⟨rfl, rfl, rfl, id⟩

theorem icw1_keeps (a : Atpic) (val : BitVec 8) :
    (vatpicIcw1 a val).1.acnt = a.acnt ∧ (vatpicIcw1 a val).1.intrRaised = a.intrRaised ∧
      (vatpicIcw1 a val).1.irqBase = a.irqBase ∧ (vatpicIcw1 a val).1.ready = false := by
  unfold vatpicIcw1
  split
  · exact ⟨rfl, rfl, rfl, rfl⟩
  · split <;> exact ⟨rfl, rfl, rfl, rfl⟩

theorem write_cases (chip : Chip) (a : Atpic) (port : Nat) (val : BitVec 8) :
    a.SameLines (a.write chip port val).1 ∨
      (dataPort port = false ∧ val.getLsbD 4 = true ∧
        (a.write chip port val).1 = (vatpicIcw1 a val).1) := by
  unfold Atpic.write
  cases data : dataPort port with
  | true =>
    rw [if_pos rfl]
    left
    split
    · exact icw2_same a val
    · exact ⟨rfl, rfl, rfl, id⟩
    · exact icw4_same chip a val
    · exact ⟨rfl, rfl, rfl, id⟩
  | false =>
    cases first : val.getLsbD 4 with
    | true =>
      have started := (icw1_keeps a val).2.2.2
      simp only [if_true, started, Bool.false_eq_true, if_false]
      exact .inr ⟨trivial, trivial, trivial⟩
    | false =>
      left
      simp only [Bool.false_eq_true, if_false]
      split
      · split
        · exact ocw3_same a val
        · exact ocw2_same a val
      · exact same_lines_self a

theorem write_settled (settled : v.Settled) (chip : Chip) (port : Nat) (eax : BitVec 32)
    (prompt : chip = .master → dataPort port = false → eax.getLsbD 4 = true → (v.atpic .slave).intrRaised = false ∧ (v.atpic .master).acnt cascade = 0) :
    (vatpicWrite v chip port eax).1.Settled := by
  have relay : (v.set chip ((v.atpic chip).write chip port (eax.setWidth 8)).1).Relay := by
    obtain same | ⟨command, first, started⟩ :=
      write_cases chip (v.atpic chip) port (eax.setWidth 8)
    · apply set_relay settled.relay same.acnt
      · rw [same.intrRaised]
        exact id
      · rintro rfl
        exact .inl (by rw [same.request])
      · exact same.based (settled.relay.based chip)
    · rw [started]
      obtain ⟨acnt, raised, base, -⟩ := icw1_keeps (v.atpic chip) (eax.setWidth 8)
      apply set_relay settled.relay acnt
      · rw [raised]
        exact id
      · intro here
        rw [BitVec.getLsbD_setWidth, Bool.and_eq_true] at first
        exact .inr (prompt here command first.2)
      · rw [base]
        exact settled.relay.based chip
  unfold vatpicWrite
  dsimp only
  cases ready : ((v.atpic chip).write chip port (eax.setWidth 8)).1.ready with
  | true =>
    exact notify_settled relay
  | false =>
    apply set_settled settled relay
    rw [ready]
    exact nofun

theorem port_settled (settled : v.Settled) (chip : Chip) (port bytes : Nat)
    (data : Option (BitVec 32)) (prompt : v.Prompt (.port chip port bytes data)) :
    (v.step (.port chip port bytes data)).Settled := by
  obtain same | ⟨rfl, ⟨rfl, read⟩ | ⟨eax, rfl, written⟩⟩ := port_cases v chip port bytes data
  · rw [same]
    exact settled
  · exact read_settled settled chip port prompt
  · apply write_settled settled chip port eax
    rintro rfl
    exact prompt

theorem master_vector (wired : v.Wired)
    (other : vatpicPendingIntr v / 8 * 8 ≠ (v.atpic .slave).irqBase) :
    (⟨vatpicPendingIntr v % 8, Nat.mod_lt _ (by decide)⟩ : Pin) ≠ cascade := by
  have quotient (chip : Chip) (pin : Pin) :
      ((v.atpic chip).irqBase + pin.val) / 8 * 8 = (v.atpic chip).irqBase := by
    have based := wired.based chip
    omega
  unfold vatpicPendingIntr pendingPin at other ⊢
  by_cases cascaded : vatpicGetHighestIrrpin (v.atpic .master) = some cascade
  · simp only [cascaded, if_true] at other
    exact absurd (quotient .slave _) other
  · simp only [cascaded, if_false]
    intro same
    have number := congrArg Fin.val same
    dsimp only at number
    have based := wired.based .master
    cases found : vatpicGetHighestIrrpin (v.atpic .master) with
    | none =>
      rw [found, Option.getD_none] at number
      have seven : spuriousPin.val = 7 := rfl
      have two : cascade.val = 2 := rfl
      omega
    | some pin =>
      rw [found, Option.getD_some] at number
      have here : pin = cascade := by
        apply Fin.ext
        omega
      exact cascaded (found.trans (congrArg some here))

theorem acknowledge_settled (settled : v.Settled) : (v.step .acknowledge).Settled := by
  unfold Vatpic.step vatpicIntrAccepted
  dsimp only
  split
  · apply notify_settled
    apply accept_relay
    · exact accept_relay settled.relay nofun
    · intro _ _
      rw [accept_here, pin_accepted_eq]
  · next other =>
    apply notify_settled
    exact accept_relay settled.relay fun _ here => absurd here (master_vector settled.relay.toWired other)

theorem step_settled (e : Event) (settled : v.Settled) (prompt : v.Prompt e) :
    (v.step e).Settled := by
  cases e with
  | irq irq state => exact irq_settled settled irq state prompt
  | trigger irq level =>
    obtain ⟨elc, same, edge⟩ := trigger_elc settled.relay.toWired irq level
    rw [same]
    exact elc_settled settled edge
  | port chip port bytes data => exact port_settled settled chip port bytes data prompt
  | elcr chip bytes data =>
    obtain ⟨elc, same, edge⟩ := elcr_elc settled.relay.toWired chip bytes data
    rw [same]
    exact elc_settled settled edge
  | acknowledge => exact acknowledge_settled settled

theorem init_settled : vatpicInit.Settled := by
  refine ⟨⟨⟨rfl, fun _ => rfl⟩, Int.le_refl 0, fun never => ?_, fun never => ?_⟩,
    fun _ never => ?_⟩
  · exact absurd never (Int.lt_irrefl 0)
  · cases never
  · cases never

/-- After a run whose steps are prompt, what could be delivered has been notified. -/
theorem notified_after (events : List Event)
    (prompt : Along Vatpic.step Vatpic.Prompt vatpicInit events) :
    (run Vatpic.step vatpicInit events).Notified := by
  have keeps (v : Vatpic) (e : Event) (settled : v.Settled) (here : v.Prompt e) :
      (v.step e).Settled := step_settled e settled here
  exact (invariant_run keeps events vatpicInit init_settled prompt).notified

def masterPort : Nat := 0x20
def slavePort : Nat := 0xa0

def initialise (chip : Chip) (port : Nat) (base icw4 : BitVec 32) : List Event :=
  [.port chip port 1 (some 0x11), .port chip (port + 1) 1 (some base),
   .port chip (port + 1) 1 (some 0), .port chip (port + 1) 1 (some icw4)]

def slaveRequest : List Event :=
  initialise .master masterPort 0x08 0x01 ++ initialise .slave slavePort 0x70 0x01 ++
    [.irq 12 .assert, .acknowledge]

theorem slave_request_notified : (run Vatpic.step vatpicInit slaveRequest).Notified := by
  apply notified_after
  refine ⟨fun _ _ => by decide, ?_, ?_, ?_, trivial, trivial, trivial, trivial, trivial, trivial,
    trivial⟩
  · exact fun never => absurd never (by decide)
  · exact fun never => absurd never (by decide)
  · exact fun never => absurd never (by decide)

def polledRequest : List Event :=
  initialise .master masterPort 0x08 0x03 ++
    [.irq 3 .pulse, .irq 4 .pulse, .port .master masterPort 1 (some 0x0e),
     .port .master masterPort 1 none]

theorem polled_and_silent :
    ¬ ∀ events : List Event, (run Vatpic.step vatpicInit events).Notified := by
  intro every
  have raised := (every polledRequest).master (by decide) (by decide)
  exact absurd raised (by decide)

end Pic
