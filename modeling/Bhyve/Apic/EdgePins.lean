import Bhyve.Apic.LevelPins
import Bhyve.Lib.Pairing

namespace Apic.EdgePins
open Apic LevelPins Pairing StepRuns List

def rises (pin : Pin) : Happening → Bool
  | .rise p => decide (p = pin)
  | .sent _ => false

def edgeSent (pin : Pin) : Happening → Bool
  | .rise _ => false
  | .sent i => decide (i.pin = pin) && !i.route.level

def fresh (history : List Happening) (pin : Pin) : Bool :=
  Armed (rises pin) (edgeSent pin) history

def transitions (b : Board) (pin : Pin) : Nat := b.history.countP (rises pin)
def edgeInterrupts (b : Board) (pin : Pin) : Nat := b.history.countP (edgeSent pin)

/-- An edge that is asserted and unmasked and has sent its interrupt already. -/
structure Spent (history : List Happening) (v : Vioapic) (pin : Pin) : Prop where
  unmasked : (v.rtbl pin).masked = false
  edge : (v.rtbl pin).route.level = false
  asserted : 0 < (v.rtbl pin).acnt
  stale : fresh history pin = false

/-- Neither a write to an entry nor an EOI looks at an edge that has sent its interrupt. -/
def OncePerRise (b : Board) : LevelPins.Event → Prop
  | .irq _ _ => True
  | .mmioWrite offset data size => ∀ pin,
      (vioapicMmioWrite b.vioapic offset data size).2 = some (pin, false) →
        ((vioapicMmioWrite b.vioapic offset data size).1.rtbl pin).remIrr = false →
          ¬ Spent b.history (vioapicMmioWrite b.vioapic offset data size).1 pin
  | .writeEnd pin => pin ∈ b.writing → (b.vioapic.rtbl pin).remIrr = false →
      ¬ Spent b.history b.vioapic pin
  | .eoi vector => ∀ pin, (b.vioapic.rtbl pin).remIrr = true →
      (b.vioapic.rtbl pin).route.vector = vector → ¬ Spent b.history b.vioapic pin

def AllPaired (b : Board) : Prop := ∀ pin, Paired (rises pin) (edgeSent pin) b.history

theorem send_intr_single (pin : Pin) (e : RedirEntry) : (vioapicSendIntr pin e).2.length ≤ 1 := by
  unfold vioapicSendIntr
  split
  · exact Nat.zero_le 1
  · exact Nat.le_refl 1

theorem set_irqstate_single (state : Irqstate) (pin : Pin) (e : RedirEntry) :
    (setPinIrqstate state pin e).2.length ≤ 1 := by
  have assert : (vioapicSetPinstate true pin e).2.length ≤ 1 := by
    rw [assert_eq]
    split
    · exact send_intr_single pin { e with acnt := e.acnt + 1 }
    · exact Nat.zero_le 1
  cases state with
  | assert => exact assert
  | deassert =>
    rw [setPinIrqstate, deassert_eq]
    exact Nat.zero_le 1
  | pulse =>
    rw [setPinIrqstate]
    dsimp only
    rw [deassert_eq, append_nil]
    exact assert

theorem send_at_write_single (pin : Pin) (e : RedirEntry) : (sendAtWrite pin e).2.length ≤ 1 := by
  unfold sendAtWrite
  split
  · exact send_intr_single pin e
  · exact Nat.zero_le 1

theorem pin_eoi_single (vector : BitVec 32) (pin : Pin) (e : RedirEntry) :
    (pinEoi vector pin e).2.length ≤ 1 := by
  unfold pinEoi
  split
  · exact Nat.zero_le 1
  · split
    · exact Nat.zero_le 1
    · split
      · exact send_intr_single pin e.clearRemIrr
      · exact Nat.zero_le 1

variable {pin : Pin} {e : RedirEntry} {i : Intr} {b : Board}

theorem set_irqstate_rises {state : Irqstate} (sent : i ∈ (setPinIrqstate state pin e).2) :
    state ≠ .deassert ∧ e.acnt = 0 := by
  have assert (member : i ∈ (vioapicSetPinstate true pin e).2) : e.acnt = 0 := by
    rw [assert_eq] at member
    split at member
    · assumption
    · cases member
  cases state with
  | assert => exact ⟨by decide, assert sent⟩
  | deassert =>
    rw [setPinIrqstate, deassert_eq] at sent
    cases sent
  | pulse =>
    rw [setPinIrqstate] at sent
    dsimp only at sent
    rw [deassert_eq, append_nil] at sent
    exact ⟨by decide, assert sent⟩

theorem send_at_write_due (sent : i ∈ (sendAtWrite pin e).2) :
    e.masked = false ∧ e.remIrr = false ∧ 0 < e.acnt := by
  unfold sendAtWrite at sent
  split at sent
  · next due =>
    rw [Bool.and_eq_true, Bool.and_eq_true, Bool.not_eq_true', Bool.not_eq_true',
      decide_eq_true_eq] at due
    exact ⟨due.1.1, due.1.2, due.2⟩
  · cases sent

theorem pin_eoi_due {vector : BitVec 32} (sent : i ∈ (pinEoi vector pin e).2) :
    e.masked = false ∧ e.remIrr = true ∧ e.route.vector = vector ∧ 0 < e.acnt := by
  unfold pinEoi at sent
  split at sent
  · cases sent
  · next set_ =>
    split at sent
    · cases sent
    · next own =>
      split at sent
      · next asserted =>
        have unmasked : e.masked = false := by
          unfold vioapicSendIntr at sent
          rw [clear_rem_irr_masked] at sent
          split at sent
          · cases sent
          · next clear => exact eq_false_of_ne_true clear
        have remIrr : e.remIrr = true := by
          rw [Bool.not_eq_true', Bool.not_eq_false] at set_
          exact set_
        exact ⟨unmasked, remIrr, not_not.mp own, asserted⟩
      · cases sent

theorem sent_marks (pin : Pin) (sent : List Intr) :
    ((sent.map Happening.sent).reverse).countP (edgeSent pin) =
      sent.countP fun i => decide (i.pin = pin) && !i.route.level := by
  rw [countP_reverse, countP_map]
  rfl

theorem perform_paired (paired : AllPaired b) {done : Vioapic × List Intr}
    (few : ∀ pin, (done.2.countP fun i => decide (i.pin = pin) && !i.route.level) ≤ 1)
    (ready : ∀ i ∈ done.2, i.route.level = false → fresh b.history i.pin = true) :
    AllPaired (b.perform done) := by
  intro pin
  apply paired_append (paired pin)
  · rw [sent_marks]
    exact few pin
  · intro mark member fire
    rw [mem_reverse, List.mem_map] at member
    obtain ⟨i, sent, rfl⟩ := member
    unfold edgeSent at fire
    rw [Bool.and_eq_true, decide_eq_true_eq, Bool.not_eq_true'] at fire
    obtain ⟨rfl, edge⟩ := fire
    exact ready i sent edge

theorem act_paired (paired : AllPaired b) (pin : Pin) {f : PinAction} (settled : f.Settled)
    (single : ∀ e, (f pin e).2.length ≤ 1)
    (ready : ∀ i ∈ (f pin (b.vioapic.rtbl pin)).2, (b.vioapic.rtbl pin).route.level = false → fresh b.history pin = true) :
    AllPaired (b.perform (b.vioapic.act pin f)) := by
  apply perform_paired paired
  · intro other
    exact Nat.le_trans countP_le_length (single _)
  · intro i sent edge
    obtain ⟨here, route⟩ := (settled pin _).2 i sent
    rw [here]
    exact ready i sent (route ▸ edge)

theorem pass_single {f : PinAction} (settled : f.Settled) (single : ∀ pin e, (f pin e).2.length ≤ 1)
    (v : Vioapic) (pin : Pin) (pins : List Pin) : ((pins.flatMap fun p => (f p (v.rtbl p)).2).countP
      fun i => decide (i.pin = pin) && !i.route.level) ≤ pins.count pin := by
  induction pins with
  | nil => exact Nat.le_refl 0
  | cons first rest ih =>
    rw [flatMap_cons, countP_append, count_cons]
    have here : ((f first (v.rtbl first)).2.countP
        fun i => decide (i.pin = pin) && !i.route.level) ≤ if first == pin then 1 else 0 := by
      by_cases same : first = pin
      · rw [if_pos (beq_iff_eq.mpr same)]
        exact Nat.le_trans countP_le_length (single first _)
      · have none : ((f first (v.rtbl first)).2.countP
            fun i => decide (i.pin = pin) && !i.route.level) = 0 := by
          apply List.countP_eq_zero.mpr
          intro i sent
          rw [((settled first _).2 i sent).1, decide_eq_false same, Bool.false_and]
          exact Bool.false_ne_true
        rw [none]
        exact Nat.zero_le _
    omega

theorem eoi_paired (paired : AllPaired b) {vector : BitVec 32} (once : OncePerRise b (.eoi vector)) :
    AllPaired (b.eoi vector) := by
  have sent := (process_eoi_pins b.vioapic vector).2
  apply perform_paired
  · exact paired
  · intro pin
    have bound := pass_single (pin_eoi_settled vector) (pin_eoi_single vector) b.vioapic pin
      (List.finRange 32)
    exact Nat.le_trans bound (List.nodup_iff_count.mp (nodup_finRange 32) pin)
  · intro i member edge
    rw [sent] at member
    obtain ⟨pin, -, from_pin⟩ := List.mem_flatMap.mp member
    obtain ⟨here, route⟩ := (pin_eoi_settled vector pin _).2 i from_pin
    obtain ⟨unmasked, remIrr, own, asserted⟩ := pin_eoi_due from_pin
    rw [here]
    by_cases new : fresh b.history pin = true
    · exact new
    · exact absurd ⟨unmasked, route ▸ edge, asserted, eq_false_of_ne_true new⟩
        (once pin remIrr own)

theorem send_at_write_paired {b : Board} (paired : AllPaired b) {pin : Pin}
    (once : (b.vioapic.rtbl pin).remIrr = false → ¬ Spent b.history b.vioapic pin) :
    AllPaired (b.perform (b.vioapic.act pin sendAtWrite)) := by
  apply act_paired paired pin send_at_write_settled (send_at_write_single pin)
  intro i sent edge
  obtain ⟨unmasked, remIrr, asserted⟩ := send_at_write_due sent
  by_cases new : fresh b.history pin = true
  · exact new
  · exact absurd ⟨unmasked, edge, asserted, eq_false_of_ne_true new⟩ (once remIrr)

theorem note_rise_paired (paired : AllPaired b) (pin : Pin) (state : Irqstate) :
    AllPaired (b.noteRise pin state) := by
  unfold Board.noteRise
  split
  · intro other
    exact paired_cons (paired other) nofun
  · exact paired

theorem irq_paired (paired : AllPaired b) (irq : Int) (state : Irqstate) :
    AllPaired (b.step (.irq irq state)) := by
  obtain same | ⟨pin, same⟩ := irq_cases b irq state
  · rw [same]
    exact paired
  · have noted := note_rise_paired paired pin state
    obtain ⟨vioapic, -, -⟩ := note_rise_same b pin state
    rw [same, ← vioapic]
    apply act_paired noted pin (set_irqstate_settled state) (set_irqstate_single state pin)
    intro i sent _
    rw [vioapic] at sent
    have rise := set_irqstate_rises sent
    have mark : rises pin (.rise pin) = true := decide_eq_true rfl
    unfold fresh Board.noteRise
    rw [if_pos rise]
    exact armed_raise mark b.history

theorem step_paired (e : LevelPins.Event) (paired : AllPaired b) (once : OncePerRise b e) :
    AllPaired (b.step e) := by
  cases e with
  | irq irq state => exact irq_paired paired irq state
  | mmioWrite offset data size =>
    unfold Board.step Board.mmioWrite
    dsimp only
    split
    · exact paired
    · exact paired
    · next pin written =>
      exact @send_at_write_paired
        ⟨(vioapicMmioWrite b.vioapic offset data size).1, b.writing, b.awaiting, b.history⟩
        paired pin (once pin written)
  | writeEnd pin =>
    unfold Board.step
    dsimp only
    split
    · next member =>
      exact @send_at_write_paired ⟨b.vioapic, b.writing.erase pin, b.awaiting, b.history⟩ paired
        pin (once member)
    · exact paired
  | eoi vector => exact eoi_paired paired once

theorem edge_interrupts_bounded (events : List LevelPins.Event)
    (once : Along Board.step OncePerRise Board.start events) (pin : Pin) :
    edgeInterrupts (run Board.step Board.start events) pin ≤
      transitions (run Board.step Board.start events) pin := by
  have keeps (b : Board) (e : LevelPins.Event) (paired : AllPaired b) (here : OncePerRise b e) :
      AllPaired (b.step e) := step_paired e paired here
  have paired := invariant_run keeps events Board.start (fun _ => trivial) once
  have apart (mark : Happening) (rise : rises pin mark = true) : edgeSent pin mark = false := by
    cases mark with
    | rise p => rfl
    | sent i => cases rise
  have counted := paired_count apart (paired pin)
  exact Nat.le_trans (Nat.le_add_right ..) counted

end Apic.EdgePins
