import Bhyve.Pic.Notify

namespace Pic
open StepRuns

def rank (lowprio pin : Pin) : Nat := (pin.val + 7 - lowprio.val) % 8

/-- An interrupt in service keeps pins of its priority and below from interrupting; not in special
    mask mode, nor does the cascade in special fully nested mode. -/
def Atpic.Bars (a : Atpic) (pin : Pin) : Prop :=
  a.service.getLsbD pin = true ∧ a.smm = false ∧ ¬ (a.sfn = true ∧ pin = cascade)

def Atpic.Pending (a : Atpic) (pin : Pin) : Prop :=
  a.request.getLsbD pin = true ∧ a.mask.getLsbD pin = false

structure Atpic.Deliverable (a : Atpic) (pin : Pin) : Prop where
  pending : a.Pending pin
  unbarred : ∀ other, rank a.lowprio other ≤ rank a.lowprio pin → ¬ a.Bars other

structure Atpic.Highest (a : Atpic) (pin : Pin) : Prop where
  deliverable : a.Deliverable pin
  first : ∀ other, a.Deliverable other → rank a.lowprio pin ≤ rank a.lowprio other

/-- What becomes of a chip whose pin is accepted: its request goes unless the pin is asserted
    still, and it is in service unless the chip completes interrupts by itself. The request of the
    cascade may be there `again`, passed on from the slave. -/
structure Atpic.Takes (a b : Atpic) (pin : Pin) (again : Prop) : Prop where
  request : ∀ other : Pin, b.request.getLsbD other = true ↔
    (a.request.getLsbD other = true ∧ (other = pin → a.acnt pin ≠ 0)) ∨ (other = cascade ∧ again)
  service : ∀ other : Pin, b.service.getLsbD other = true ↔
    a.service.getLsbD other = true ∨ (other = pin ∧ a.aeoi = false)
  lowprio : b.lowprio = if a.aeoi = true ∧ a.rotate = true then pin else a.lowprio
  rest : { b with
    request := a.request, service := a.service, lowprio := a.lowprio,
    intrRaised := a.intrRaised } = a

def Atpic.Quiet (a b : Atpic) : Prop := { b with intrRaised := a.intrRaised } = a

theorem rank_lt (lowprio pin : Pin) : rank lowprio pin < 8 := Nat.mod_lt _ (by decide)

variable {pin : Pin} {a : Atpic} {again : Prop} {v : Vatpic}

theorem rank_injective {lowprio other : Pin} (same : rank lowprio pin = rank lowprio other) :
    pin = other := by
  unfold rank at same
  apply Fin.ext
  omega

theorem rank_pin_at (lowprio : Pin) {i : Nat} (inside : i < 8) : rank lowprio (pinAt lowprio i) = i := by
  unfold rank pinAt
  dsimp only
  omega

theorem pin_at_rank (lowprio pin : Pin) : pinAt lowprio (rank lowprio pin) = pin :=
  rank_injective (rank_pin_at lowprio (rank_lt lowprio pin))

theorem serviced_bit (a : Atpic) (pin : Pin) : a.serviced.getLsbD pin = true ↔ a.Bars pin := by
  unfold Atpic.serviced Atpic.Bars
  cases smm : a.smm with
  | true => simp
  | false =>
    cases sfn : a.sfn with
    | true =>
      simp only [Bool.false_eq_true, if_false, if_true, without_bit, Bool.and_eq_true,
        Bool.not_eq_true', decide_eq_false_iff_not, true_and]
    | false => simp

theorem first_request_from (a : Atpic) (n : Nat) : ∀ i,
    (∀ pin, firstRequest a a.serviced ((List.range' i n).map (pinAt a.lowprio)) = some pin →
      ∃ j, i ≤ j ∧ j < i + n ∧ pin = pinAt a.lowprio j ∧ a.Pending pin ∧
        (∀ k, i ≤ k → k ≤ j → ¬ a.Bars (pinAt a.lowprio k)) ∧
        ∀ k, i ≤ k → k < j → ¬ a.Pending (pinAt a.lowprio k)) ∧
      (firstRequest a a.serviced ((List.range' i n).map (pinAt a.lowprio)) = none →
        ∀ j, i ≤ j → j < i + n → a.Pending (pinAt a.lowprio j) →
          ∃ k, i ≤ k ∧ k ≤ j ∧ a.Bars (pinAt a.lowprio k)) := by
  induction n with
  | zero =>
    intro i
    constructor
    · intro pin never
      cases never
    · intro _ j low high
      exact absurd (Nat.lt_of_le_of_lt low high) (Nat.lt_irrefl _)
  | succ n ih =>
    intro i
    rw [List.range'_succ, List.map_cons, firstRequest]
    by_cases barred : a.serviced.getLsbD (pinAt a.lowprio i) = true
    · rw [if_pos barred]
      constructor
      · intro pin never
        cases never
      · intro _ j low _ _
        exact ⟨i, Nat.le_refl i, low, (serviced_bit a _).mp barred⟩
    · rw [if_neg barred]
      have free : ¬ a.Bars (pinAt a.lowprio i) := fun bars => barred ((serviced_bit a _).mpr bars)
      by_cases here : (a.request.getLsbD (pinAt a.lowprio i) &&
          !a.mask.getLsbD (pinAt a.lowprio i)) = true
      · rw [if_pos here]
        rw [Bool.and_eq_true, Bool.not_eq_true'] at here
        constructor
        · intro pin found
          obtain rfl := Option.some.inj found
          refine ⟨i, Nat.le_refl i, by omega, rfl, here, fun k low high => ?_, fun k low high => ?_⟩
          · rw [Nat.le_antisymm high low]
            exact free
          · exact absurd (Nat.lt_of_le_of_lt low high) (Nat.lt_irrefl _)
        · intro never
          cases never
      · rw [if_neg here]
        rw [Bool.and_eq_true, Bool.not_eq_true'] at here
        obtain ⟨finds, misses⟩ := ih (i + 1)
        have later (k : Nat) (low : i ≤ k) : k = i ∨ i + 1 ≤ k := by omega
        constructor
        · intro pin found
          obtain ⟨j, low, high, same, pending, clear, quiet⟩ := finds pin found
          refine ⟨j, by omega, by omega, same, pending, fun k least most => ?_, fun k least most => ?_⟩
          · obtain rfl | after := later k least
            · exact free
            · exact clear k after most
          · obtain rfl | after := later k least
            · exact here
            · exact quiet k after most
        · intro missed j low high pending
          obtain rfl | after := later j low
          · exact absurd pending here
          · obtain ⟨k, least, most, bars⟩ := misses missed j after (by omega) pending
            exact ⟨k, by omega, most, bars⟩

theorem found_highest (found : vatpicGetHighestIrrpin a = some pin) : a.Highest pin := by
  obtain ⟨j, -, high, same, pending, clear, quiet⟩ := (first_request_from a 8 0).1 pin found
  have place : rank a.lowprio pin = j := by
    rw [same, rank_pin_at a.lowprio (by omega)]
  refine ⟨⟨pending, fun other below => ?_⟩, fun other deliverable => ?_⟩
  · rw [← pin_at_rank a.lowprio other]
    exact clear _ (Nat.zero_le _) (place ▸ below)
  · by_cases before : rank a.lowprio other < j
    · have silent := quiet _ (Nat.zero_le _) before
      rw [pin_at_rank] at silent
      exact absurd deliverable.pending silent
    · rw [place]
      exact Nat.le_of_not_lt before

theorem found_none (missed : vatpicGetHighestIrrpin a = none) (pin : Pin) :
    ¬ a.Deliverable pin := by
  intro deliverable
  have pending : a.Pending (pinAt a.lowprio (rank a.lowprio pin)) := by
    rw [pin_at_rank]
    exact deliverable.pending
  have below := rank_lt a.lowprio pin
  obtain ⟨k, -, most, bars⟩ :=
    (first_request_from a 8 0).2 missed _ (Nat.zero_le _) (by omega) pending
  have place : rank a.lowprio (pinAt a.lowprio k) = k := rank_pin_at a.lowprio (by omega)
  exact deliverable.unbarred _ (by rw [place]; exact most) bars

theorem highest_iff (a : Atpic) (pin : Pin) :
    vatpicGetHighestIrrpin a = some pin ↔ a.Highest pin := by
  constructor
  · exact found_highest
  · intro highest
    cases found : vatpicGetHighestIrrpin a with
    | none => exact absurd highest.deliverable (found_none found pin)
    | some other =>
      have rival := found_highest found
      have same := Nat.le_antisymm (rival.first pin highest.deliverable)
        (highest.first other rival.deliverable)
      rw [rank_injective same]

theorem none_iff (a : Atpic) : vatpicGetHighestIrrpin a = none ↔ ∀ pin, ¬ a.Deliverable pin := by
  constructor
  · exact found_none
  · intro nothing
    cases found : vatpicGetHighestIrrpin a with
    | none => rfl
    | some pin => exact absurd (found_highest found).deliverable (nothing pin)

theorem eligible_iff (a : Atpic) : a.eligible = true ↔ ∃ pin, a.Deliverable pin := by
  unfold Atpic.eligible
  cases found : vatpicGetHighestIrrpin a with
  | none =>
    constructor
    · intro never
      cases never
    · rintro ⟨pin, deliverable⟩
      exact absurd deliverable (found_none found pin)
  | some pin => exact ⟨fun _ => ⟨pin, (found_highest found).deliverable⟩, fun _ => rfl⟩

theorem pin_accepted_takes (a : Atpic) (pin : Pin) :
    a.Takes (vatpicPinAccepted a pin) pin False := by
  rw [pin_accepted_eq]
  refine ⟨fun other => ?_, fun other => ?_, rfl, rfl⟩
  · rw [and_false, or_false]
    exact left_request_bit a pin other
  · cases aeoi : a.aeoi with
    | true => simp only [if_true, Bool.true_eq_false, and_false, or_false]
    | false =>
      simp only [Bool.false_eq_true, if_false, with_bit, Bool.or_eq_true, decide_eq_true_eq,
        and_true]

theorem Atpic.Takes.raised {b : Atpic} (takes : a.Takes b pin again) : a.Takes b.raise pin again :=
  ⟨takes.request, takes.service, takes.lowprio, takes.rest⟩

theorem Atpic.Takes.forwarded {b : Atpic} (takes : a.Takes b pin False) {request : BitVec 8}
    (passed : ∀ other : Pin, request.getLsbD other = true ↔ b.request.getLsbD other = true ∨ (other = cascade ∧ again)) :
    a.Takes { b with request := request } pin again := by
  refine ⟨fun other => ?_, takes.service, takes.lowprio, takes.rest⟩
  refine (passed other).trans (or_congr_left ?_)
  refine (takes.request other).trans ?_
  rw [and_false, or_false]

theorem notified_takes {u : Vatpic} (edge : u.level .master cascade = false)
    (takes : (v.atpic .master).Takes (u.atpic .master) pin False)
    (passed : u.forwards = true ↔ again) :
    (v.atpic .master).Takes ((vatpicNotifyIntr u).atpic .master) pin again := by
  rw [(notify_eq edge).2.1]
  apply Atpic.Takes.raised
  apply takes.forwarded
  intro other
  rw [forwarded_request_bit, Bool.or_eq_true, Bool.and_eq_true, decide_eq_true_eq, passed]

structure Vatpic.Acknowledges (v : Vatpic) : Prop where
  master : ∀ pin, (v.atpic .master).Highest pin → pin ≠ cascade →
    vatpicPendingIntr v = (v.atpic .master).irqBase + pin ∧
      ((v.atpic .master).irqBase ≠ (v.atpic .slave).irqBase →
        (v.atpic .master).Takes ((v.step .acknowledge).atpic .master) pin
          (((v.atpic .slave).intrRaised = false ∧ ∃ p, (v.atpic .slave).Deliverable p) ∧
            (v.atpic .master).acnt cascade = 0) ∧
        (v.atpic .slave).Quiet ((v.step .acknowledge).atpic .slave))
  slave : (v.atpic .master).Highest cascade → ∀ pin, (v.atpic .slave).Highest pin →
    vatpicPendingIntr v = (v.atpic .slave).irqBase + pin ∧
      (v.atpic .slave).Takes ((v.step .acknowledge).atpic .slave) pin False ∧
      (v.atpic .master).Takes ((v.step .acknowledge).atpic .master) cascade
        ((∃ p, ((v.step .acknowledge).atpic .slave).Deliverable p) ∧
          (v.atpic .master).acnt cascade = 0)
  spurious : (∀ pin, ¬ (v.atpic .master).Deliverable pin) →
    vatpicPendingIntr v = (v.atpic .master).irqBase + spuriousPin
  slaveSpurious : (v.atpic .master).Highest cascade → (∀ pin, ¬ (v.atpic .slave).Deliverable pin) →
    vatpicPendingIntr v = (v.atpic .slave).irqBase + spuriousPin

theorem pending_of_master {found : Option Pin}
    (search : vatpicGetHighestIrrpin (v.atpic .master) = found) (other : found ≠ some cascade) :
    vatpicPendingIntr v = (v.atpic .master).irqBase + (found.getD spuriousPin).val := by
  unfold vatpicPendingIntr pendingPin
  simp only [search, other, if_false]

theorem pending_of_slave {found : Option Pin}
    (cascaded : vatpicGetHighestIrrpin (v.atpic .master) = some cascade)
    (search : vatpicGetHighestIrrpin (v.atpic .slave) = found) :
    vatpicPendingIntr v = (v.atpic .slave).irqBase + (found.getD spuriousPin).val := by
  unfold vatpicPendingIntr pendingPin
  simp only [cascaded, search, if_true]

theorem vector_parts (wired : v.Wired) (chip : Chip) (pin : Pin) :
    ((v.atpic chip).irqBase + pin.val) / 8 * 8 = (v.atpic chip).irqBase ∧
      (⟨((v.atpic chip).irqBase + pin.val) % 8, Nat.mod_lt _ (by decide)⟩ : Pin) = pin := by
  have based := wired.based chip
  refine ⟨by omega, Fin.ext ?_⟩
  dsimp only
  omega

theorem accept_wired (wired : v.Wired) (chip : Chip) (pin : Pin) : (v.accept chip pin).Wired := by
  have replaced : (v.set chip (vatpicPinAccepted (v.atpic chip) pin)).Wired := by
    apply set_wired wired
    rw [pin_accepted_eq]
    exact wired.based chip
  unfold Vatpic.accept
  dsimp only
  split
  · exact ⟨replaced.edge, replaced.based⟩
  · exact replaced

theorem raise_quiet (a : Atpic) : a.Quiet a.raise := rfl

theorem acknowledges (wired : v.Wired) : v.Acknowledges := by
  constructor
  · intro pin highest own
    have found := (highest_iff _ pin).mpr highest
    have pending := pending_of_master found fun same => own (Option.some.inj same)
    rw [Option.getD_some] at pending
    refine ⟨pending, fun apart => ?_⟩
    obtain ⟨base, low⟩ := vector_parts wired .master pin
    have step : v.step .acknowledge = vatpicNotifyIntr (v.accept .master pin) := by
      unfold Vatpic.step vatpicIntrAccepted
      dsimp only
      rw [pending, base, if_neg apart, low]
    have edge := (accept_wired wired .master pin).edge
    have slave : (v.accept .master pin).atpic .slave = v.atpic .slave :=
      accept_there v pin (by decide)
    constructor
    · rw [step]
      apply notified_takes edge
      · rw [accept_here]
        exact pin_accepted_takes _ pin
      · rw [Vatpic.forwards, slave, accept_here, pin_accepted_eq, Bool.and_eq_true,
          Bool.and_eq_true, decide_eq_true_eq, Bool.not_eq_true', eligible_iff]
    · rw [step, (notify_eq edge).1, slave]
      exact raise_quiet _
  · intro cascaded pin highest
    have found := (highest_iff _ pin).mpr highest
    have pending := pending_of_slave ((highest_iff _ cascade).mpr cascaded) found
    rw [Option.getD_some] at pending
    obtain ⟨base, low⟩ := vector_parts wired .slave pin
    have step : v.step .acknowledge =
        vatpicNotifyIntr ((v.accept .slave pin).accept .master cascade) := by
      unfold Vatpic.step vatpicIntrAccepted
      dsimp only
      rw [pending, base, if_pos rfl, low]
    have edge := (accept_wired (accept_wired wired .slave pin) .master cascade).edge
    have slave : ((v.accept .slave pin).accept .master cascade).atpic .slave =
        vatpicPinAccepted (v.atpic .slave) pin := by
      rw [accept_there _ cascade (by decide), accept_here]
    have master : ((v.accept .slave pin).accept .master cascade).atpic .master =
        vatpicPinAccepted (v.atpic .master) cascade := by
      rw [accept_here, accept_there _ pin (by decide)]
    refine ⟨pending, ?_, ?_⟩
    · rw [step, (notify_eq edge).1, slave]
      exact (pin_accepted_takes _ pin).raised
    · rw [step]
      apply notified_takes edge
      · rw [master]
        exact pin_accepted_takes _ cascade
      · rw [(notify_eq edge).1, ← eligible_iff, raise_eligible, slave, Vatpic.forwards, slave,
          master, Bool.and_eq_true, Bool.and_eq_true, decide_eq_true_eq]
        have raised : (vatpicPinAccepted (v.atpic .slave) pin).intrRaised = false := by
          rw [pin_accepted_eq]
        have count : (vatpicPinAccepted (v.atpic .master) cascade).acnt = (v.atpic .master).acnt := by
          rw [pin_accepted_eq]
        rw [raised, count, Bool.not_false]
        exact and_congr_left fun _ => ⟨fun both => both.2, fun eligible => ⟨rfl, eligible⟩⟩
  · intro nothing
    exact pending_of_master ((none_iff _).mpr nothing) (by rintro ⟨⟩)
  · intro cascaded nothing
    exact pending_of_slave ((highest_iff _ cascade).mpr cascaded) ((none_iff _).mpr nothing)

theorem set_pinstate_wired (wired : v.Wired) (chip : Chip) (pin : Pin) (newstate : Bool) :
    (vatpicSetPinstate v chip pin newstate).Wired :=
  notify_wired (pinstate_wired wired chip pin newstate)

theorem irq_wired (wired : v.Wired) (irq : Int) (state : Irqstate) :
    (v.step (.irq irq state)).Wired := by
  unfold Vatpic.step vatpicSetIrqstate
  by_cases outside : irq < 0 ∨ 15 < irq
  · simp only [outside, if_true]
    exact wired
  · simp only [outside, if_false]
    cases (v.atpic (chipOf irq)).ready with
    | false => exact wired
    | true =>
      cases state with
      | assert => exact set_pinstate_wired wired _ _ true
      | deassert => exact set_pinstate_wired wired _ _ false
      | pulse => exact set_pinstate_wired (set_pinstate_wired wired _ _ true) _ _ false

theorem read_wired (wired : v.Wired) (chip : Chip) (port : Nat) :
    (vatpicRead v chip port).1.Wired := by
  have done : (v.set chip { v.atpic chip with poll := false }).Wired :=
    set_wired wired chip (wired.based chip)
  obtain same | ⟨-, polled | ⟨pin, -, taken⟩⟩ := read_cases v chip port
  · rw [same]
    exact wired
  · rw [polled]
    exact done
  · rw [taken]
    exact accept_wired done chip pin

theorem write_wired (wired : v.Wired) (chip : Chip) (port : Nat) (eax : BitVec 32) :
    (vatpicWrite v chip port eax).1.Wired := by
  have written : (v.set chip ((v.atpic chip).write chip port (eax.setWidth 8)).1).Wired := by
    apply set_wired wired
    obtain same | ⟨-, -, started⟩ := write_cases chip (v.atpic chip) port (eax.setWidth 8)
    · exact same.based (wired.based chip)
    · rw [started, (icw1_keeps (v.atpic chip) (eax.setWidth 8)).2.2.1]
      exact wired.based chip
  unfold vatpicWrite
  dsimp only
  split
  · exact notify_wired written
  · exact written

theorem step_wired (wired : v.Wired) (e : Event) : (v.step e).Wired := by
  cases e with
  | irq irq state => exact irq_wired wired irq state
  | trigger irq level =>
    obtain ⟨elc, same, edge⟩ := trigger_elc wired irq level
    rw [same]
    exact ⟨edge, wired.based⟩
  | elcr chip bytes data =>
    obtain ⟨elc, same, edge⟩ := elcr_elc wired chip bytes data
    rw [same]
    exact ⟨edge, wired.based⟩
  | port chip port bytes data =>
    obtain same | ⟨-, ⟨-, read⟩ | ⟨eax, -, written⟩⟩ := port_cases v chip port bytes data
    · rw [same]
      exact wired
    · rw [read]
      exact read_wired wired chip port
    · rw [written]
      exact write_wired wired chip port eax
  | acknowledge =>
    unfold Vatpic.step vatpicIntrAccepted
    dsimp only
    split
    · exact notify_wired (accept_wired (accept_wired wired _ _) _ _)
    · exact notify_wired (accept_wired wired _ _)

/-- In every state that is reached, an acknowledgement takes the deliverable pin of the highest
    priority from the chip it belongs to, and with a pin of the slave the cascade. -/
theorem acknowledge_takes_highest (events : List Event) :
    (run Vatpic.step vatpicInit events).Acknowledges := by
  have keeps (v : Vatpic) (e : Event) (wired : v.Wired) : (v.step e).Wired := step_wired wired e
  have start : vatpicInit.Wired := ⟨rfl, fun _ => rfl⟩
  exact acknowledges (invariant_every_run keeps events vatpicInit start)

def Vatpic.TakesRequest (v : Vatpic) : Prop :=
  ∀ pin, (v.atpic .master).Highest pin → pin ≠ cascade →
    ((v.step .acknowledge).atpic .master).request.getLsbD pin = false

def fifthPin : Pin := ⟨5, by decide⟩

def levelRequest : List Event :=
  initialise .master masterPort 0x08 0x01 ++ initialise .slave slavePort 0x70 0x01 ++
    [.trigger 5 true, .irq 5 .assert]

theorem level_request_stays :
    ¬ ∀ events : List Event, (run Vatpic.step vatpicInit events).TakesRequest := by
  intro every
  have found : vatpicGetHighestIrrpin ((run Vatpic.step vatpicInit levelRequest).atpic .master) =
      some fifthPin := by
    decide
  have gone := every levelRequest fifthPin ((highest_iff _ _).mp found) (by decide)
  exact absurd gone (by decide)

end Pic
