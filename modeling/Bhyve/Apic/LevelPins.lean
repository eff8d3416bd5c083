import Bhyve.Apic.TriggerMode

/-!
The pins of the I/O APIC under any interleaving of the threads that use it. A step is what one
thread does under the lock, which vioapic_write gives up for the rendezvous. What a pin has sent
last and the history of the pins are for the statements only.
-/
namespace Apic.LevelPins
open Apic StepRuns List

inductive Happening where
  | rise (pin : Pin)
  | sent (i : Intr)
deriving DecidableEq

structure Board where
  vioapic : Vioapic
  writing : List Pin
  awaiting : Pin → Option (BitVec 32)
  history : List Happening

def Board.start : Board := ⟨vioapicInit, [], fun _ => none, []⟩

def noteSent (awaiting : Pin → Option (BitVec 32)) (i : Intr) : Pin → Option (BitVec 32) :=
  if i.route.level then Function.update awaiting i.pin (some i.route.vector) else awaiting

variable (b : Board)

def Board.perform (done : Vioapic × List Intr) : Board :=
  { b with
    vioapic := done.1
    awaiting := done.2.foldl noteSent b.awaiting
    history := (done.2.map Happening.sent).reverse ++ b.history }

def Board.noteRise (pin : Pin) (state : Irqstate) : Board :=
  if state ≠ .deassert ∧ (b.vioapic.rtbl pin).acnt = 0 then
    { b with history := .rise pin :: b.history }
  else b

inductive Event where
  | irq (irq : Int) (state : Irqstate)
  | mmioWrite (offset data : BitVec 64) (size : Nat)
  | writeEnd (pin : Pin)
  | eoi (vector : BitVec 32)

def Board.mmioWrite (offset data : BitVec 64) (size : Nat) : Board :=
  let w := vioapicMmioWrite b.vioapic offset data size
  match w.2 with
  | none => { b with vioapic := w.1 }
  | some (pin, true) => { b with vioapic := w.1, writing := pin :: b.writing }
  | some (pin, false) => { b with vioapic := w.1 }.perform (w.1.act pin sendAtWrite)

def Board.eoi (vector : BitVec 32) : Board :=
  { b with awaiting := fun pin => if b.awaiting pin = some vector then none else b.awaiting pin
    }.perform (vioapicProcessEoi b.vioapic vector)

def Board.step : Event → Board
  | .irq irq state =>
      match irqPin irq with
      | none => b
      | some pin => (b.noteRise pin state).perform (b.vioapic.act pin (setPinIrqstate state))
  | .mmioWrite offset data size => b.mmioWrite offset data size
  | .writeEnd pin =>
      if pin ∈ b.writing then
        { b with writing := b.writing.erase pin }.perform (b.vioapic.act pin sendAtWrite)
      else b
  | .eoi vector => b.eoi vector

/-- An assertion that waits for nothing but the EOI before it. -/
structure Board.Asserted (b : Board) (pin : Pin) : Prop where
  unmasked : (b.vioapic.rtbl pin).masked = false
  level : (b.vioapic.rtbl pin).route.level = true
  asserted : 0 < (b.vioapic.rtbl pin).acnt
  settled : pin ∉ b.writing

/-- The pin has an interrupt out, and the EOI of its vector sends the next one. -/
structure Board.Repeats (b : Board) (pin : Pin) : Prop where
  remIrr : (b.vioapic.rtbl pin).remIrr = true
  again : ⟨pin, (b.vioapic.rtbl pin).route⟩ ∈
    (vioapicProcessEoi b.vioapic (b.vioapic.rtbl pin).route.vector).2

/-- A write gives no other vector to an entry whose Remote-IRR is set. -/
def Board.KeepsVectors : Event → Prop
  | .mmioWrite offset data size => ∀ pin, (b.vioapic.rtbl pin).remIrr = true →
      ((vioapicMmioWrite b.vioapic offset data size).1.rtbl pin).route.vector =
        (b.vioapic.rtbl pin).route.vector
  | _ => True

def Served (e : RedirEntry) : Prop :=
  e.masked = false → e.route.level = true → 0 < e.acnt → e.remIrr = true

theorem send_intr_served (pin : Pin) (e : RedirEntry) : Served (vioapicSendIntr pin e).1 := by
  obtain ⟨⟨masked, route⟩, -⟩ := send_intr_settings pin e
  intro unmasked level _
  rw [masked] at unmasked
  rw [route] at level
  rw [vioapicSendIntr, unmasked, if_neg Bool.false_ne_true, if_pos level]
  exact set_rem_irr e

variable {e : RedirEntry} {b : Board}

theorem set_pinstate_served (newstate : Bool) (pin : Pin) (served : Served e) :
    Served (vioapicSetPinstate newstate pin e).1 := by
  cases newstate with
  | false =>
    rw [deassert_eq]
    intro unmasked level asserted
    have before : 0 < e.acnt - 1 := asserted
    exact served unmasked level (by omega)
  | true =>
    rw [assert_eq]
    split
    · exact send_intr_served pin { e with acnt := e.acnt + 1 }
    · intro unmasked level asserted
      have before : 0 < e.acnt + 1 := asserted
      exact served unmasked level (by omega)

theorem set_irqstate_served (state : Irqstate) (pin : Pin) (served : Served e) :
    Served (setPinIrqstate state pin e).1 := by
  cases state with
  | assert => exact set_pinstate_served true pin served
  | deassert => exact set_pinstate_served false pin served
  | pulse => exact set_pinstate_served false pin (set_pinstate_served true pin served)

theorem send_at_write_served (pin : Pin) (e : RedirEntry) : Served (sendAtWrite pin e).1 := by
  unfold sendAtWrite
  split
  · exact send_intr_served pin e
  · next held =>
    intro unmasked _ asserted
    cases irr : e.remIrr with
    | true => rfl
    | false =>
      rw [unmasked, irr, decide_eq_true asserted] at held
      exact absurd rfl held

theorem pin_eoi_served (vector : BitVec 32) (pin : Pin) (served : Served e) :
    Served (pinEoi vector pin e).1 := by
  unfold pinEoi
  split
  · exact served
  · split
    · exact served
    · split
      · exact send_intr_served pin e.clearRemIrr
      · next quiet => exact fun _ _ asserted => absurd asserted quiet

def Board.AllServed (b : Board) : Prop :=
  ∀ pin, pin ∉ b.writing → Served (b.vioapic.rtbl pin)

theorem act_served {v : Vioapic} (pin : Pin) {f : PinAction}
    (here : Served (f pin (v.rtbl pin)).1) {other : Pin}
    (there : other ≠ pin → Served (v.rtbl other)) : Served ((v.act pin f).1.rtbl other) := by
  by_cases same : other = pin
  · subst same
    rw [act_here]
    exact here
  · rw [act_there v f same]
    exact there same

theorem mmio_write_elsewhere {v : Vioapic} {offset data : BitVec 64} {size : Nat}
    {written : Option (Pin × Bool)}
    (asked : (vioapicMmioWrite v offset data size).2 = written) {other : Pin}
    (apart : ∀ changed, written ≠ some (other, changed)) :
    (vioapicMmioWrite v offset data size).1.rtbl other = v.rtbl other := by
  obtain ⟨same, -⟩ | ⟨pin, upper, word, changed, made⟩ := table_write_cases v offset data size
  · rw [same]
  · rw [changed]
    apply Function.update_of_ne
    rintro rfl
    exact apart _ (asked.symm.trans made)

@[simp] theorem perform_vioapic (b : Board) (done : Vioapic × List Intr) :
    (b.perform done).vioapic = done.1 := rfl

@[simp] theorem perform_writing (b : Board) (done : Vioapic × List Intr) :
    (b.perform done).writing = b.writing := rfl

@[simp] theorem perform_awaiting (b : Board) (done : Vioapic × List Intr) :
    (b.perform done).awaiting = done.2.foldl noteSent b.awaiting := rfl

theorem note_rise_same (b : Board) (pin : Pin) (state : Irqstate) :
    (b.noteRise pin state).vioapic = b.vioapic ∧ (b.noteRise pin state).writing = b.writing ∧
      (b.noteRise pin state).awaiting = b.awaiting := by
  unfold Board.noteRise
  split <;> exact ⟨rfl, rfl, rfl⟩

theorem irq_cases (b : Board) (irq : Int) (state : Irqstate) :
    b.step (.irq irq state) = b ∨ ∃ pin, b.step (.irq irq state) =
      (b.noteRise pin state).perform (b.vioapic.act pin (setPinIrqstate state)) := by
  cases found : irqPin irq with
  | none => exact .inl (by rw [Board.step, found])
  | some pin => exact .inr ⟨pin, by rw [Board.step, found]⟩

theorem mmio_write_served (served : b.AllServed) (offset data : BitVec 64) (size : Nat) :
    (b.mmioWrite offset data size).AllServed := by
  have elsewhere {other : Pin} := @mmio_write_elsewhere b.vioapic offset data size _ rfl other
  unfold Board.mmioWrite Board.AllServed
  generalize vioapicMmioWrite b.vioapic offset data size = w at elsewhere
  obtain ⟨v, written⟩ := w
  match written with
  | none =>
    intro other settled
    rw [elsewhere nofun]
    exact served other settled
  | some (pin, true) =>
    intro other settled
    obtain ⟨apart, rest⟩ := ne_and_not_mem_of_not_mem_cons settled
    rw [elsewhere fun _ same => apart (by cases same; rfl)]
    exact served other rest
  | some (pin, false) =>
    intro other settled
    refine act_served pin (send_at_write_served pin _) fun apart => ?_
    rw [elsewhere fun _ same => apart (by cases same; rfl)]
    exact served other settled

theorem step_served (served : b.AllServed) (e : Event) : (b.step e).AllServed := by
  cases e with
  | irq irq state =>
    obtain same | ⟨pin, same⟩ := irq_cases b irq state
    · rw [same]
      exact served
    · rw [same]
      intro other settled
      rw [perform_writing, (note_rise_same b pin state).2.1] at settled
      rw [perform_vioapic]
      by_cases here : pin ∈ b.writing
      · have apart : other ≠ pin := by
          rintro rfl
          exact settled here
        rw [act_there _ _ apart]
        exact served other settled
      · exact act_served pin (set_irqstate_served state pin (served pin here)) fun _ =>
          served other settled
  | mmioWrite offset data size => exact mmio_write_served served offset data size
  | writeEnd pin =>
    unfold Board.step
    dsimp only
    split
    · intro other settled
      refine act_served pin (send_at_write_served pin _) fun apart => served other ?_
      exact fun member => settled ((mem_erase_of_ne apart).mpr member)
    · exact served
  | eoi vector =>
    unfold Board.step Board.eoi
    intro other settled
    rw [perform_writing] at settled
    rw [perform_vioapic, (process_eoi_pins b.vioapic vector).1 other]
    exact pin_eoi_served vector other (served other settled)

theorem start_served : Board.start.AllServed := by
  intro pin _ _ _ never
  exact absurd never (Int.lt_irrefl 0)

theorem run_served (events : List Event) : (run Board.step Board.start events).AllServed := by
  have keeps (b : Board) (e : Event) (served : b.AllServed) : (b.step e).AllServed :=
    step_served served e
  exact invariant_every_run keeps events _ start_served

theorem eoi_repeats (pin : Pin) (unmasked : e.masked = false) (asserted : 0 < e.acnt)
    (remIrr : e.remIrr = true) : (pinEoi e.route.vector pin e).2 = [⟨pin, e.route⟩] := by
  unfold pinEoi
  rw [remIrr, if_neg (by decide), if_neg (not_not_intro rfl), if_pos asserted, vioapicSendIntr,
    clear_rem_irr_masked, unmasked, if_neg Bool.false_ne_true, clear_rem_irr_route]

theorem asserted_repeats (served : b.AllServed) {pin : Pin} (asserted : b.Asserted pin) :
    b.Repeats pin := by
  have remIrr := served pin asserted.settled asserted.unmasked asserted.level asserted.asserted
  refine ⟨remIrr, ?_⟩
  rw [(process_eoi_pins _ _).2, mem_flatMap]
  refine ⟨pin, mem_finRange pin, ?_⟩
  rw [eoi_repeats pin asserted.unmasked asserted.asserted remIrr]
  exact mem_singleton_self _

/-- What the last interrupt of each pin with Remote-IRR was sent with. -/
def Board.Tracked (b : Board) : Prop :=
  ∀ pin, (b.vioapic.rtbl pin).remIrr = true →
    b.awaiting pin = some (b.vioapic.rtbl pin).route.vector

theorem note_sent_vector {sent : List Intr} {routes : Pin → Route}
    (own : ∀ i ∈ sent, i.route = routes i.pin) {awaiting : Pin → Option (BitVec 32)} {pin : Pin}
    (met : awaiting pin = some (routes pin).vector ∨
      ∃ i ∈ sent, i.pin = pin ∧ i.route.level = true) :
    sent.foldl noteSent awaiting pin = some (routes pin).vector := by
  induction sent generalizing awaiting with
  | nil =>
    refine met.resolve_right ?_
    rintro ⟨i, never, -⟩
    exact not_mem_nil never
  | cons first rest ih =>
    refine ih (fun i member => own i (mem_cons_of_mem first member)) ?_
    have route := own first mem_cons_self
    unfold noteSent
    cases level : first.route.level with
    | false =>
      refine met.imp_right ?_
      rintro ⟨i, member, here, urgent⟩
      obtain rfl | later := List.mem_cons.mp member
      · exact absurd (level.symm.trans urgent) Bool.false_ne_true
      · exact ⟨i, later, here, urgent⟩
    | true =>
      rw [if_pos rfl]
      by_cases here : pin = first.pin
      · subst here
        rw [Function.update_self, route]
        exact .inl rfl
      · rw [Function.update_of_ne here]
        refine met.imp_right ?_
        rintro ⟨i, member, same, urgent⟩
        obtain rfl | later := List.mem_cons.mp member
        · exact absurd same.symm here
        · exact ⟨i, later, same, urgent⟩

theorem perform_tracked {done : Vioapic × List Intr} (settled : b.vioapic.Settled done)
    (met : ∀ pin, (done.1.rtbl pin).remIrr = true → b.awaiting pin = some (b.vioapic.rtbl pin).route.vector ∨ ∃ i ∈ done.2, i.pin = pin ∧ i.route.level = true) :
    (b.perform done).Tracked := by
  intro pin remIrr
  rw [perform_vioapic] at remIrr ⊢
  rw [perform_awaiting, settled.routes]
  exact @note_sent_vector _ (fun pin => (b.vioapic.rtbl pin).route) settled.sent _ pin
    (met pin remIrr)

def Announces (f : PinAction) : Prop :=
  ∀ pin e, (f pin e).1.remIrr = true →
    e.remIrr = true ∨ ∃ i ∈ (f pin e).2, i.pin = pin ∧ i.route.level = true

theorem send_intr_announces : Announces vioapicSendIntr := by
  intro pin e remIrr
  unfold vioapicSendIntr at remIrr ⊢
  by_cases masked : e.masked = true
  · rw [if_pos masked] at remIrr
    exact .inl remIrr
  · rw [if_neg masked] at remIrr ⊢
    by_cases level : e.route.level = true
    · exact .inr ⟨⟨pin, e.route⟩, mem_singleton_self _, rfl, level⟩
    · rw [if_neg level] at remIrr
      exact .inl remIrr

theorem set_pinstate_announces (newstate : Bool) : Announces (vioapicSetPinstate newstate) := by
  intro pin e remIrr
  cases newstate with
  | false =>
    rw [deassert_eq] at remIrr
    exact .inl remIrr
  | true =>
    rw [assert_eq] at remIrr ⊢
    split at remIrr
    · next first =>
      rw [if_pos first]
      exact send_intr_announces pin { e with acnt := e.acnt + 1 } remIrr
    · exact .inl remIrr

theorem set_irqstate_announces (state : Irqstate) : Announces (setPinIrqstate state) := by
  cases state with
  | assert => exact set_pinstate_announces true
  | deassert => exact set_pinstate_announces false
  | pulse =>
    intro pin e remIrr
    obtain before | ⟨i, sent, level⟩ := set_pinstate_announces false pin _ remIrr
    · refine (set_pinstate_announces true pin e before).imp_right ?_
      rintro ⟨i, sent, level⟩
      exact ⟨i, mem_append_left _ sent, level⟩
    · exact .inr ⟨i, mem_append_right _ sent, level⟩

theorem send_at_write_announces : Announces sendAtWrite := by
  intro pin e remIrr
  unfold sendAtWrite at remIrr ⊢
  by_cases due : (!e.masked && !e.remIrr && decide (0 < e.acnt)) = true
  · rw [if_pos due] at remIrr ⊢
    exact send_intr_announces pin e remIrr
  · rw [if_neg due] at remIrr
    exact .inl remIrr

theorem pin_eoi_announces (vector : BitVec 32) (pin : Pin) (e : RedirEntry)
    (remIrr : (pinEoi vector pin e).1.remIrr = true) : (e.remIrr = true ∧ e.route.vector ≠ vector) ∨
      ∃ i ∈ (pinEoi vector pin e).2, i.pin = pin ∧ i.route.level = true := by
  unfold pinEoi at remIrr ⊢
  by_cases clear : (!e.remIrr) = true
  · rw [if_pos clear] at remIrr
    rw [remIrr] at clear
    cases clear
  · rw [if_neg clear] at remIrr ⊢
    by_cases other : e.route.vector ≠ vector
    · rw [if_pos other] at remIrr
      exact .inl ⟨remIrr, other⟩
    · rw [if_neg other] at remIrr ⊢
      by_cases asserted : 0 < e.acnt
      · rw [if_pos asserted] at remIrr ⊢
        refine .inr ((send_intr_announces pin e.clearRemIrr remIrr).resolve_left ?_)
        rw [clear_rem_irr]
        exact Bool.false_ne_true
      · rw [if_neg asserted, clear_rem_irr] at remIrr
        cases remIrr

theorem act_tracked {b : Board} (tracked : b.Tracked) (pin : Pin) {f : PinAction}
    (settled : f.Settled) (announces : Announces f) :
    (b.perform (b.vioapic.act pin f)).Tracked := by
  refine perform_tracked (act_settled b.vioapic pin settled) fun other remIrr => ?_
  by_cases here : other = pin
  · subst here
    rw [act_here] at remIrr
    exact (announces other _ remIrr).imp_left (tracked other)
  · rw [act_there _ _ here] at remIrr
    exact .inl (tracked other remIrr)

theorem eoi_tracked (tracked : b.Tracked) (vector : BitVec 32) : (b.eoi vector).Tracked := by
  refine perform_tracked (process_eoi_settled b.vioapic vector) fun pin remIrr => ?_
  obtain ⟨entries, sent⟩ := process_eoi_pins b.vioapic vector
  rw [entries] at remIrr
  obtain ⟨before, other⟩ | ⟨i, announced, level⟩ := pin_eoi_announces vector pin _ remIrr
  · have waiting := tracked pin before
    have apart : b.awaiting pin ≠ some vector := by
      rw [waiting]
      exact fun same => other (Option.some.inj same)
    exact .inl ((if_neg apart).trans waiting)
  · refine .inr ⟨i, ?_, level⟩
    rw [sent]
    exact List.mem_flatMap.mpr ⟨pin, mem_finRange pin, announced⟩

theorem stored_tracked (tracked : b.Tracked) {offset data : BitVec 64} {size : Nat}
    (keeps : b.KeepsVectors (.mmioWrite offset data size)) (writing : List Pin) :
    (Board.mk (vioapicMmioWrite b.vioapic offset data size).1 writing b.awaiting b.history).Tracked := by
  intro pin remIrr
  have before : (b.vioapic.rtbl pin).remIrr = true :=
    (mmio_write_rem_irr b.vioapic offset data size pin).symm.trans remIrr
  exact (tracked pin before).trans (congrArg some (keeps pin before).symm)

theorem step_tracked (e : Event) (tracked : b.Tracked) (keeps : b.KeepsVectors e) :
    (b.step e).Tracked := by
  cases e with
  | irq irq state =>
    obtain same | ⟨pin, same⟩ := irq_cases b irq state
    · rw [same]
      exact tracked
    · obtain ⟨vioapic, -, awaiting⟩ := note_rise_same b pin state
      have noted : (b.noteRise pin state).Tracked := by
        unfold Board.Tracked
        rw [vioapic, awaiting]
        exact tracked
      rw [same, ← vioapic]
      exact act_tracked noted pin (set_irqstate_settled state) (set_irqstate_announces state)
  | mmioWrite offset data size =>
    unfold Board.step Board.mmioWrite
    dsimp only
    split
    · exact stored_tracked tracked keeps b.writing
    · exact stored_tracked tracked keeps _
    · exact act_tracked (stored_tracked tracked keeps b.writing) _ send_at_write_settled
        send_at_write_announces
  | writeEnd pin =>
    unfold Board.step
    dsimp only
    split
    · exact @act_tracked ⟨b.vioapic, b.writing.erase pin, b.awaiting, b.history⟩ tracked pin _
        send_at_write_settled send_at_write_announces
    · exact tracked
  | eoi vector => exact eoi_tracked tracked vector

theorem start_tracked : Board.start.Tracked := by
  intro pin never
  have clear : (Board.start.vioapic.rtbl pin).remIrr = (⟨0x0001000000010000, 0⟩ : RedirEntry).remIrr :=
    rfl
  rw [clear] at never
  exact absurd never (by decide)

/-- A level triggered pin that is asserted and unmasked has an interrupt out whose EOI sends the
    next one; and that interrupt was sent with the vector of the entry and has had no EOI, if no
    write gave another vector to an entry with Remote-IRR set. -/
theorem asserted_level_pin (events : List Event) (pin : Pin)
    (asserted : (run Board.step Board.start events).Asserted pin) :
    (run Board.step Board.start events).Repeats pin ∧
      (Along Board.step Board.KeepsVectors Board.start events →
        (run Board.step Board.start events).awaiting pin =
          some ((run Board.step Board.start events).vioapic.rtbl pin).route.vector) := by
  have repeats := asserted_repeats (run_served events) asserted
  have kept (b : Board) (e : Event) (tracked : b.Tracked) (keeps : b.KeepsVectors e) :
      (b.step e).Tracked := step_tracked e tracked keeps
  constructor
  · exact repeats
  · intro keeps
    have tracked := invariant_run kept events Board.start start_tracked keeps
    exact tracked pin repeats.remIrr

def firstPin : Pin := ⟨0, by decide⟩

def assertedOnce : List Event :=
  [.mmioWrite ioregsel 0x10 4, .mmioWrite iowin 0x8030 4, .writeEnd firstPin, .irq 0 .assert]

theorem asserted_once_repeats : (run Board.step Board.start assertedOnce).Repeats firstPin ∧
      (run Board.step Board.start assertedOnce).awaiting firstPin = some 0x30 := by
  have asserted : (run Board.step Board.start assertedOnce).Asserted firstPin :=
    ⟨by decide, by decide, by decide, by decide⟩
  obtain ⟨repeats, tracked⟩ := asserted_level_pin assertedOnce firstPin asserted
  have clear (pin : Pin) : (vioapicInit.rtbl pin).remIrr = false := by
    show (⟨0x0001000000010000, 0⟩ : RedirEntry).remIrr = false
    decide
  have keeps : Along Board.step Board.KeepsVectors Board.start assertedOnce := by
    refine ⟨fun pin never => ?_, fun pin never => ?_, trivial, trivial, trivial⟩
    · exact absurd ((clear pin).symm.trans never) Bool.false_ne_true
    · exact absurd ((clear pin).symm.trans never) Bool.false_ne_true
  refine ⟨repeats, (tracked keeps).trans ?_⟩
  decide

def vectorChanged : List Event :=
  assertedOnce ++ [.mmioWrite iowin 0x8031 4, .writeEnd firstPin, .eoi 0x30]

theorem completed_and_not_repeated :
    ¬ ∀ (events : List Event) (pin : Pin), (run Board.step Board.start events).Asserted pin →
        (run Board.step Board.start events).Repeats pin ∧
          (run Board.step Board.start events).awaiting pin ≠ none := by
  intro every
  have asserted : (run Board.step Board.start vectorChanged).Asserted firstPin :=
    ⟨by decide, by decide, by decide, by decide⟩
  have outstanding := (every vectorChanged firstPin asserted).2
  exact outstanding (by decide)

end Apic.LevelPins
