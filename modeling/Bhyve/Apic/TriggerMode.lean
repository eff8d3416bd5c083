import Bhyve.Apic.Vioapic
import Bhyve.Vmm.InService

/-!
The trigger modes that the local APICs keep for the I/O APIC. The interrupts that are level
triggered, accepted and not yet completed are kept for the statements only.
-/
namespace Apic
open BitRegisters StepRuns List

def apicDfrReserved : BitVec 32 := 0x0fffffff
def apicLdrReserved : BitVec 32 := 0x00ffffff

def x2apicLdr (vcpuid : Nat) : BitVec 32 :=
  let apicid := BitVec.ofNat 32 vcpuid
  BitVec.twoPow 32 (apicid &&& 0xf).toNat ||| (apicid &&& 0xffff0) <<< 12

def vlapicDfrWriteHandler (l : Lapic) : Lapic :=
  if l.x2apic then { l with dfr := 0 }
  else { l with dfr := (l.dfr &&& apicDfrModelMask) ||| apicDfrReserved }

def vlapicLdrWriteHandler (vcpuid : Nat) (l : Lapic) : Lapic :=
  if l.x2apic then { l with ldr := x2apicLdr vcpuid }
  else { l with ldr := l.ldr &&& ~~~apicLdrReserved }

def vlapicSetTmr (tmr : Nat → BitVec 32) (vector : Nat) (level : Bool) : Nat → BitVec 32 :=
  if level then setBit tmr vector else clearBit tmr vector

def vlapicResetTmr (tmr : Nat → BitVec 32) : Nat → BitVec 32 :=
  (List.range 256).foldl (fun tmr vector => vlapicSetTmr tmr vector false) tmr

variable (vm : Vm)

def Vm.targets (r : Route) : List Nat :=
  (vlapicCalcdest vm r.dest r.phys (decide (r.delmode = ioartDelLoPri)) false).getD []

def vlapicSetTmrLevel (vcpuid : Nat) (tmr : Nat → BitVec 32) (r : Route) : Nat → BitVec 32 :=
  if r.delmode ≠ ioartDelFixed ∧ r.delmode ≠ ioartDelLoPri then tmr
  else if vcpuid ∈ vm.targets r then vlapicSetTmr tmr r.vector.toNat true
  else tmr

def vioapicUpdateTmr (v : Vioapic) (vcpuid : Nat) (tmr : Nat → BitVec 32) : Nat → BitVec 32 :=
  (List.finRange 32).foldl
    (fun tmr pin =>
      if (v.rtbl pin).route.level then vlapicSetTmrLevel vm vcpuid tmr (v.rtbl pin).route else tmr)
    (vlapicResetTmr tmr)

/-- The vcpus and vectors of the level triggered interrupts in progress are `unfinished`. -/
structure Machine where
  vm : Vm
  enabled : Nat → Bool
  tmr : Nat → Nat → BitVec 32
  vioapic : Vioapic
  unfinished : List (Nat × Nat)

def Machine.start (enabled : Nat → Bool) : Machine :=
  ⟨vm, enabled, fun _ _ => 0, vioapicInit, []⟩

/-- lapic_set_intr and vlapic_set_intr_ready refuse a vector below 16, and every vector for an
    APIC that is disabled. -/
def Machine.accepts (m : Machine) : Delivery → Option (Nat × Nat)
  | .intr vcpuid vec true =>
      if m.enabled vcpuid ∧ 16 ≤ vec.toNat ∧ vec.toNat ≤ 255 then some (vcpuid, vec.toNat)
      else none
  | _ => none

variable (m : Machine)

def Machine.deliveries (i : Intr) : List Delivery :=
  (vlapicDeliverIntr m.vm i.route.level i.route.dest i.route.phys i.route.delmode
    i.route.vector).getD []

def Machine.perform (done : Vioapic × List Intr) : Machine :=
  { m with
    vioapic := done.1
    unfinished := m.unfinished ++ (done.2.flatMap m.deliveries).filterMap m.accepts }

def Machine.rendezvous (m : Machine) : Machine :=
  { m with
    tmr := fun vcpuid =>
      if m.vm.active vcpuid then vioapicUpdateTmr m.vm m.vioapic vcpuid (m.tmr vcpuid)
      else m.tmr vcpuid }

def Machine.written (offset data : BitVec 64) (size : Nat) : Machine :=
  let w := vioapicMmioWrite m.vioapic offset data size
  let m := { m with vioapic := w.1 }
  match w.2 with
  | some (_, true) => m.rendezvous
  | _ => m

def Machine.mmioWrite (offset data : BitVec 64) (size : Nat) : Machine :=
  let next := m.written offset data size
  match (vioapicMmioWrite m.vioapic offset data size).2 with
  | some (pin, _) => next.perform (next.vioapic.act pin sendAtWrite)
  | none => next

def Machine.writeLapic (vcpuid : Nat) (l : Lapic) : Machine :=
  { m with vm := { m.vm with lapic := Function.update m.vm.lapic vcpuid l } }

def Machine.forwards (vcpuid vector : Nat) : Bool := bit (m.tmr vcpuid) vector

def Machine.eoi (vcpuid : Nat) (vector : BitVec 8) : Machine :=
  let m' := { m with unfinished := m.unfinished.filter (· ≠ (vcpuid, vector.toNat)) }
  if m.forwards vcpuid vector.toNat then
    m'.perform (vioapicProcessEoi m.vioapic (vector.setWidth 32))
  else m'

inductive Event where
  | irq (irq : Int) (state : Irqstate)
  | mmioWrite (offset data : BitVec 64) (size : Nat)
  | ldrWrite (vcpuid : Nat) (data : BitVec 32)
  | dfrWrite (vcpuid : Nat) (data : BitVec 32)
  | eoi (vcpuid : Nat) (vector : BitVec 8)

def Machine.step (m : Machine) : Event → Machine
  | .irq irq state =>
      match vioapicSetIrqstate m.vioapic irq state with
      | none => m
      | some done => m.perform done
  | .mmioWrite offset data size => m.mmioWrite offset data size
  | .ldrWrite vcpuid data =>
      m.writeLapic vcpuid (vlapicLdrWriteHandler vcpuid { m.vm.lapic vcpuid with ldr := data })
  | .dfrWrite vcpuid data =>
      m.writeLapic vcpuid (vlapicDfrWriteHandler { m.vm.lapic vcpuid with dfr := data })
  | .eoi vcpuid vector => m.eoi vcpuid vector

def Route.Levels (r : Route) (vm : Vm) (vcpuid vector : Nat) : Prop :=
  r.level = true ∧ (r.delmode = ioartDelFixed ∨ r.delmode = ioartDelLoPri) ∧
    r.vector.toNat = vector ∧ vcpuid ∈ vm.targets r

def Machine.Levelled (vcpuid vector : Nat) : Prop :=
  ∃ pin, (m.vioapic.rtbl pin).route.Levels m.vm vcpuid vector

structure Machine.Agrees (m : Machine) : Prop where
  tmr : ∀ vcpuid, m.vm.active vcpuid = true → ∀ vector < 256,
    (bit (m.tmr vcpuid) vector = true ↔ m.Levelled vcpuid vector)
  forwarded : ∀ i ∈ m.unfinished, m.forwards i.1 i.2 = true

/-- A write to LDR or DFR leaves the level triggered entries the destinations they have, and a
    write to the table none of the interrupts in progress without its entry. -/
def Machine.Keeps (m : Machine) : Event → Prop
  | .ldrWrite vcpuid data => ∀ other, m.vm.active other = true → ∀ vector < 256,
      ((m.step (.ldrWrite vcpuid data)).Levelled other vector ↔ m.Levelled other vector)
  | .dfrWrite vcpuid data => ∀ other, m.vm.active other = true → ∀ vector < 256,
      ((m.step (.dfrWrite vcpuid data)).Levelled other vector ↔ m.Levelled other vector)
  | .mmioWrite offset data size => ∀ i ∈ m.unfinished,
      (m.written offset data size).Levelled i.1 i.2
  | _ => True

/-- The interrupts in progress are those of active vcpus, with vectors that a TMR has. -/
structure Machine.Sound (m : Machine) : Prop where
  agrees : m.Agrees
  active : ∀ i ∈ m.unfinished, m.vm.active i.1 = true ∧ i.2 < 256

theorem bit_set_tmr (tmr : Nat → BitVec 32) (vector v : Nat) (level : Bool) :
    bit (vlapicSetTmr tmr vector level) v = if vector = v then level else bit tmr v := by
  unfold vlapicSetTmr
  cases level with
  | true =>
    rw [if_pos rfl, bit_set_bit (by decide)]
    by_cases same : vector = v
    · rw [decide_eq_true same, if_pos same, Bool.true_or]
    · rw [decide_eq_false same, if_neg same, Bool.false_or]
  | false =>
    rw [if_neg Bool.false_ne_true, bit_clear_bit (by decide)]
    by_cases same : vector = v
    · rw [decide_eq_true same, if_pos same, Bool.not_true, Bool.and_false]
    · rw [decide_eq_false same, if_neg same, Bool.not_false, Bool.and_true]

theorem reset_tmr_clear (tmr : Nat → BitVec 32) {v : Nat} (inside : v < 256) :
    bit (vlapicResetTmr tmr) v = false := by
  have cleared (vectors : List Nat) (tmr : Nat → BitVec 32)
      (met : v ∈ vectors ∨ bit tmr v = false) :
      bit (vectors.foldl (fun tmr vector => vlapicSetTmr tmr vector false) tmr) v = false := by
    induction vectors generalizing tmr with
    | nil => exact met.resolve_left not_mem_nil
    | cons vector rest ih =>
      apply ih
      rw [bit_set_tmr]
      by_cases here : vector = v
      · exact .inr (if_pos here)
      · rw [if_neg here]
        exact met.imp_left fun member =>
          (List.mem_cons.mp member).resolve_left (Ne.symm here)
  exact cleared _ tmr (.inl (List.mem_range.mpr inside))

theorem set_tmr_level_bit (vcpuid v : Nat) (tmr : Nat → BitVec 32) {r : Route}
    (level : r.level = true) : bit (vlapicSetTmrLevel vm vcpuid tmr r) v = true ↔
      bit tmr v = true ∨ r.Levels vm vcpuid v := by
  unfold vlapicSetTmrLevel Route.Levels
  by_cases mode : r.delmode = ioartDelFixed ∨ r.delmode = ioartDelLoPri
  · have valid : ¬ (r.delmode ≠ ioartDelFixed ∧ r.delmode ≠ ioartDelLoPri) := by
      rintro ⟨fixed, lowest⟩
      exact mode.elim fixed lowest
    rw [if_neg valid]
    by_cases member : vcpuid ∈ vm.targets r
    · rw [if_pos member, bit_set_tmr]
      by_cases same : r.vector.toNat = v
      · rw [if_pos same]
        exact ⟨fun _ => .inr ⟨level, mode, same, member⟩, fun _ => rfl⟩
      · rw [if_neg same]
        exact ⟨.inl, fun either => either.resolve_right fun entry => same entry.2.2.1⟩
    · rw [if_neg member]
      exact ⟨.inl, fun either => either.resolve_right fun entry => member entry.2.2.2⟩
  · rw [if_pos (not_or.mp mode)]
    exact ⟨.inl, fun either => either.resolve_right fun entry => mode entry.2.1⟩

variable {vector : Nat} {m : Machine}

theorem update_tmr_bit (v : Vioapic) (vcpuid : Nat) (tmr : Nat → BitVec 32)
    (inside : vector < 256) : bit (vioapicUpdateTmr vm v vcpuid tmr) vector = true ↔
      ∃ pin, (v.rtbl pin).route.Levels vm vcpuid vector := by
  have collected (pins : List Pin) (tmr : Nat → BitVec 32) :
      bit (pins.foldl (fun tmr pin =>
          if (v.rtbl pin).route.level then vlapicSetTmrLevel vm vcpuid tmr (v.rtbl pin).route
          else tmr) tmr) vector = true ↔
        bit tmr vector = true ∨ ∃ pin ∈ pins, (v.rtbl pin).route.Levels vm vcpuid vector := by
    induction pins generalizing tmr with
    | nil =>
      refine ⟨.inl, fun either => either.resolve_right ?_⟩
      rintro ⟨pin, never, -⟩
      exact not_mem_nil never
    | cons pin rest ih =>
      rw [foldl_cons, ih, exists_mem_cons_iff, ← or_assoc]
      apply or_congr_left
      by_cases level : (v.rtbl pin).route.level = true
      · rw [if_pos level]
        exact set_tmr_level_bit vm vcpuid vector tmr level
      · rw [if_neg level]
        exact ⟨.inl, fun either => either.resolve_right fun entry => level entry.1⟩
  unfold vioapicUpdateTmr
  rw [collected, reset_tmr_clear tmr inside]
  constructor
  · rintro (never | ⟨pin, -, entry⟩)
    · cases never
    · exact ⟨pin, entry⟩
  · rintro ⟨pin, entry⟩
    exact .inr ⟨pin, mem_finRange pin, entry⟩

theorem process_eoi_forwards {m : Machine} {vcpuid vector : Nat} {s : VmmVlapic.Vlapic}
    (kept : VmmVlapic.InService s) (registers : s.tmr = m.tmr vcpuid)
    (served : highest s.isr 8 = some vector) : ∃ s', VmmVlapic.processEoi s =
      .ok (if m.forwards vcpuid vector then some vector else none, s') := by
  obtain ⟨-, empty⟩ | ⟨some_, found⟩ := VmmVlapic.highest_in_service kept
  · rw [served] at empty
    cases empty
  · have updated := VmmVlapic.update_ppr_ok (VmmVlapic.popped_in_service kept some_)
    unfold VmmVlapic.popped at updated
    rw [found] at served
    obtain rfl := Option.some.inj served
    simp only [VmmVlapic.processEoi, found, if_neg (Nat.ne_of_gt some_), updated]
    rw [Machine.forwards, ← registers]
    exact ⟨_, rfl⟩

def PinAction.Settled (f : PinAction) : Prop :=
  ∀ pin e, SameSettings (f pin e).1 e ∧ ∀ i ∈ (f pin e).2, i.pin = pin ∧ i.route = e.route

theorem send_intr_settled : PinAction.Settled vioapicSendIntr := by
  intro pin e
  refine ⟨(send_intr_settings pin e).1, fun i sent => ?_⟩
  unfold vioapicSendIntr at sent
  split at sent
  · cases sent
  · obtain rfl := List.mem_singleton.mp sent
    exact ⟨rfl, rfl⟩

theorem set_pinstate_settled (newstate : Bool) :
    PinAction.Settled (vioapicSetPinstate newstate) := by
  intro pin e
  refine ⟨set_pinstate_settings newstate pin e, ?_⟩
  cases newstate with
  | false =>
    rw [deassert_eq]
    exact fun i never => (not_mem_nil never).elim
  | true =>
    rw [assert_eq]
    split
    · intro i sent
      exact (send_intr_settled pin { e with acnt := e.acnt + 1 }).2 i sent
    · exact fun i never => (not_mem_nil never).elim

theorem set_irqstate_settled (state : Irqstate) : PinAction.Settled (setPinIrqstate state) := by
  cases state with
  | assert => exact set_pinstate_settled true
  | deassert => exact set_pinstate_settled false
  | pulse =>
    intro pin e
    obtain ⟨up, upSent⟩ := set_pinstate_settled true pin e
    obtain ⟨down, downSent⟩ := set_pinstate_settled false pin (vioapicSetPinstate true pin e).1
    refine ⟨down.then up, fun i sent => ?_⟩
    obtain first | second := List.mem_append.mp sent
    · exact upSent i first
    · exact ⟨(downSent i second).1, (downSent i second).2.trans up.2⟩

theorem send_at_write_settled : PinAction.Settled sendAtWrite := by
  intro pin e
  refine ⟨send_at_write_settings pin e, fun i sent => ?_⟩
  unfold sendAtWrite at sent
  split at sent
  · exact (send_intr_settled pin e).2 i sent
  · cases sent

theorem pin_eoi_settled (vector : BitVec 32) : PinAction.Settled (pinEoi vector) := by
  intro pin e
  refine ⟨pin_eoi_settings vector pin e, fun i sent => ?_⟩
  unfold pinEoi at sent
  split at sent
  · cases sent
  · split at sent
    · cases sent
    · split at sent
      · obtain ⟨here, route⟩ := (send_intr_settled pin e.clearRemIrr).2 i sent
        exact ⟨here, route.trans (clear_rem_irr_route e)⟩
      · cases sent

structure Vioapic.Settled (v : Vioapic) (done : Vioapic × List Intr) : Prop where
  routes : ∀ pin, (done.1.rtbl pin).route = (v.rtbl pin).route
  sent : ∀ i ∈ done.2, i.route = (v.rtbl i.pin).route

theorem act_settled (v : Vioapic) (pin : Pin) {f : PinAction} (settled : f.Settled) :
    v.Settled (v.act pin f) := by
  obtain ⟨settings, sent⟩ := settled pin (v.rtbl pin)
  constructor
  · intro other
    by_cases here : other = pin
    · subst here
      rw [act_here]
      exact settings.2
    · rw [act_there v f here]
  · intro i member
    obtain ⟨here, route⟩ := sent i member
    rw [here, route]

theorem process_eoi_settled (v : Vioapic) (vector : BitVec 32) :
    v.Settled (vioapicProcessEoi v vector) := by
  obtain ⟨entries, sent⟩ := process_eoi_pins v vector
  constructor
  · intro pin
    rw [entries]
    exact (pin_eoi_settled vector pin _).1.2
  · intro i member
    rw [sent] at member
    obtain ⟨pin, -, from_pin⟩ := List.mem_flatMap.mp member
    obtain ⟨here, route⟩ := (pin_eoi_settled vector pin _).2 i from_pin
    rw [here, route]

theorem calcdest_total {dest : BitVec 32} (phys lowprio x2apicDest : Bool)
    (short : dest.toNat < 2147483648) :
    ∃ dmask, vlapicCalcdest vm dest phys lowprio x2apicDest = some dmask := by
  unfold vlapicCalcdest
  split
  · exact ⟨_, rfl⟩
  · split
    · exact ⟨_, physical_dest_eq vm short⟩
    · exact ⟨_, rfl⟩

theorem route_dest_short (e : RedirEntry) : e.route.dest.toNat < 256 := by
  have shifted : e.route.dest.toNat = e.high.toNat / 16777216 := by
    show (e.high >>> apicIdShift).toNat = _
    rw [BitVec.toNat_ushiftRight, Nat.shiftRight_eq_div_pow]
    rfl
  omega

theorem accepted_levelled {i : Intr} {taken : Nat × Nat}
    (own : i.route = (m.vioapic.rtbl i.pin).route)
    (member : taken ∈ (m.deliveries i).filterMap m.accepts) :
    m.Levelled taken.1 taken.2 ∧ m.vm.active taken.1 = true ∧ taken.2 < 256 := by
  obtain ⟨d, delivered, accepted⟩ := List.mem_filterMap.mp member
  have short : i.route.dest.toNat < 2147483648 := by
    have byte := route_dest_short (m.vioapic.rtbl i.pin)
    rw [own]
    omega
  obtain ⟨dmask, resolves⟩ := calcdest_total m.vm i.route.phys
    (decide (i.route.delmode = ioartDelLoPri)) false short
  have targets : m.vm.targets i.route = dmask := by
    rw [Vm.targets, resolves, Option.getD_some]
  unfold Machine.deliveries vlapicDeliverIntr at delivered
  rw [resolves] at delivered
  split at delivered
  · cases delivered
  · next valid =>
    obtain ⟨vcpuid, inside, rfl⟩ := List.mem_map.mp delivered
    by_cases external : i.route.delmode = ioartDelExInt
    · rw [if_pos external] at accepted
      cases accepted
    · rw [if_neg external] at accepted
      cases level : i.route.level with
      | false =>
        rw [level] at accepted
        cases accepted
      | true =>
        rw [level, Machine.accepts] at accepted
        split at accepted
        · next within =>
          obtain rfl := Option.some.inj accepted
          refine ⟨⟨i.pin, ?_⟩, calcdest_active resolves vcpuid inside, ?_⟩
          · rw [← own]
            refine ⟨level, ?_, rfl, targets ▸ inside⟩
            by_cases fixed : i.route.delmode = ioartDelFixed
            · exact .inl fixed
            · by_cases lowest : i.route.delmode = ioartDelLoPri
              · exact .inr lowest
              · exact absurd ⟨fixed, lowest, external⟩ valid
          · exact Nat.lt_succ_of_le within.2.2
        · cases accepted

theorem levelled_congr {m n : Machine} (vm : n.vm = m.vm)
    (routes : ∀ pin, (n.vioapic.rtbl pin).route = (m.vioapic.rtbl pin).route)
    (vcpuid vector : Nat) : n.Levelled vcpuid vector ↔ m.Levelled vcpuid vector := by
  unfold Machine.Levelled
  simp only [vm, routes]

section
variable {m : Machine} {done : Vioapic × List Intr}

section
variable (settled : m.vioapic.Settled done)
include settled

theorem perform_levelled (vcpuid vector : Nat) :
    (m.perform done).Levelled vcpuid vector ↔ m.Levelled vcpuid vector := by
  have routes : ∀ pin, ((m.perform done).vioapic.rtbl pin).route = (m.vioapic.rtbl pin).route :=
    settled.routes
  exact @levelled_congr m (m.perform done) rfl routes vcpuid vector

theorem perform_unfinished {i : Nat × Nat} (member : i ∈ (m.perform done).unfinished) :
    i ∈ m.unfinished ∨ (m.Levelled i.1 i.2 ∧ m.vm.active i.1 = true ∧ i.2 < 256) := by
  obtain old | new := List.mem_append.mp member
  · exact .inl old
  · obtain ⟨d, delivered, accepted⟩ := List.mem_filterMap.mp new
    obtain ⟨intr, sent, from_intr⟩ := List.mem_flatMap.mp delivered
    exact .inr (accepted_levelled (settled.sent intr sent)
      (List.mem_filterMap.mpr ⟨d, from_intr, accepted⟩))

theorem perform_agrees_iff : (m.perform done).Agrees ↔ m.Agrees := by
  constructor
  · intro agrees
    constructor
    · intro vcpuid active vector inside
      exact (agrees.tmr vcpuid active vector inside).trans (perform_levelled settled vcpuid vector)
    · intro i member
      exact agrees.forwarded i (mem_append_left _ member)
  · intro agrees
    constructor
    · intro vcpuid active vector inside
      exact (agrees.tmr vcpuid active vector inside).trans
        (perform_levelled settled vcpuid vector).symm
    · intro i member
      obtain old | ⟨levelled, active, inside⟩ := perform_unfinished settled member
      · exact agrees.forwarded i old
      · exact (agrees.tmr i.1 active i.2 inside).mpr levelled

theorem perform_sound (sound : m.Sound) : (m.perform done).Sound := by
  refine ⟨(perform_agrees_iff settled).mpr sound.agrees, fun i member => ?_⟩
  obtain old | ⟨-, known⟩ := perform_unfinished settled member
  · exact sound.active i old
  · exact known

end

end

theorem mmio_write_routes (v : Vioapic) (offset data : BitVec 64) (size : Nat) :
    (∃ pin, (vioapicMmioWrite v offset data size).2 = some (pin, true)) ∨
      ∀ pin, ((vioapicMmioWrite v offset data size).1.rtbl pin).route = (v.rtbl pin).route := by
  obtain ⟨same, -⟩ | ⟨pin, upper, word, written, asked⟩ := table_write_cases v offset data size
  · exact .inr fun pin => by rw [same]
  · cases changed : ((v.rtbl pin).write upper word).2 with
    | true => exact .inl ⟨pin, by rw [asked, changed]⟩
    | false =>
      refine .inr fun other => ?_
      rw [written]
      by_cases here : other = pin
      · subst here
        rw [Function.update_self]
        exact write_route changed
      · rw [Function.update_of_ne here]

theorem written_kept (m : Machine) (offset data : BitVec 64) (size : Nat) :
    (m.written offset data size).vm = m.vm ∧
      (m.written offset data size).unfinished = m.unfinished := by
  unfold Machine.written
  dsimp only
  split <;> exact ⟨rfl, rfl⟩

theorem rendezvous_tmr (m : Machine) {vcpuid : Nat} (active : m.vm.active vcpuid = true)
    (inside : vector < 256) :
    bit (m.rendezvous.tmr vcpuid) vector = true ↔ m.rendezvous.Levelled vcpuid vector := by
  unfold Machine.rendezvous
  simp only [active, if_true]
  exact update_tmr_bit m.vm m.vioapic vcpuid _ inside

theorem written_cases (m : Machine) (offset data : BitVec 64) (size : Nat) :
    (∃ stored : Machine, stored.vm = m.vm ∧ stored.unfinished = m.unfinished ∧
        m.written offset data size = stored.rendezvous) ∨
      ((m.written offset data size).tmr = m.tmr ∧
        ∀ pin, ((m.written offset data size).vioapic.rtbl pin).route =
          (m.vioapic.rtbl pin).route) := by
  have routes := mmio_write_routes m.vioapic offset data size
  unfold Machine.written
  dsimp only
  split
  · exact .inl ⟨{ m with vioapic := (vioapicMmioWrite m.vioapic offset data size).1 },
      rfl, rfl, rfl⟩
  · next quiet =>
    refine .inr ⟨rfl, routes.resolve_left ?_⟩
    rintro ⟨pin, asked⟩
    exact quiet pin asked

theorem written_agrees_iff (sound : m.Sound) (offset data : BitVec 64) (size : Nat) :
    (m.written offset data size).Agrees ↔
      ∀ i ∈ m.unfinished, (m.written offset data size).Levelled i.1 i.2 := by
  obtain ⟨vm, unfinished⟩ := written_kept m offset data size
  obtain ⟨stored, storedVm, storedUnfinished, asked⟩ | ⟨tmr, routes⟩ :=
    written_cases m offset data size
  · rw [asked]
    have fresh (i : Nat × Nat) (member : i ∈ m.unfinished) :
        stored.rendezvous.forwards i.1 i.2 = true ↔ stored.rendezvous.Levelled i.1 i.2 := by
      obtain ⟨active, inside⟩ := sound.active i member
      exact rendezvous_tmr stored (storedVm ▸ active) inside
    constructor
    · intro agrees i member
      have listed : i ∈ stored.rendezvous.unfinished := storedUnfinished ▸ member
      exact (fresh i member).mp (agrees.forwarded i listed)
    · intro levelled
      constructor
      · intro vcpuid active vector inside
        exact rendezvous_tmr stored active inside
      · intro i listed
        have member : i ∈ m.unfinished := storedUnfinished ▸ listed
        exact (fresh i member).mpr (levelled i member)
  · have same := levelled_congr vm routes
    constructor
    · intro _ i member
      obtain ⟨active, inside⟩ := sound.active i member
      exact (same i.1 i.2).mpr ((sound.agrees.tmr i.1 active i.2 inside).mp
        (sound.agrees.forwarded i member))
    · intro _
      constructor
      · intro vcpuid active vector inside
        rw [tmr, same]
        rw [vm] at active
        exact sound.agrees.tmr vcpuid active vector inside
      · intro i listed
        rw [unfinished] at listed
        rw [Machine.forwards, tmr]
        exact sound.agrees.forwarded i listed

theorem mmio_write_cases (m : Machine) (offset data : BitVec 64) (size : Nat) :
    m.mmioWrite offset data size = m.written offset data size ∨
      ∃ done, (m.written offset data size).vioapic.Settled done ∧
        m.mmioWrite offset data size = (m.written offset data size).perform done := by
  unfold Machine.mmioWrite
  split
  · next pin _ _ => exact .inr ⟨_, act_settled _ pin send_at_write_settled, rfl⟩
  · exact .inl rfl

theorem write_lapic_agrees_iff (sound : m.Sound) (vcpuid : Nat) (l : Lapic) :
    (m.writeLapic vcpuid l).Agrees ↔ ∀ other, m.vm.active other = true → ∀ vector < 256,
      ((m.writeLapic vcpuid l).Levelled other vector ↔ m.Levelled other vector) := by
  constructor
  · intro agrees other active vector inside
    exact (agrees.tmr other active vector inside).symm.trans
      (sound.agrees.tmr other active vector inside)
  · intro same
    constructor
    · intro other active vector inside
      exact (sound.agrees.tmr other active vector inside).trans
        (same other active vector inside).symm
    · exact sound.agrees.forwarded

theorem eoi_cleared_sound (sound : m.Sound) (done : Nat × Nat) :
    { m with unfinished := m.unfinished.filter (· ≠ done) : Machine }.Sound := by
  constructor
  · exact ⟨sound.agrees.tmr, fun i member =>
      sound.agrees.forwarded i (List.mem_filter.mp member).1⟩
  · exact fun i member => sound.active i (List.mem_filter.mp member).1

theorem eoi_sound (sound : m.Sound) (vcpuid : Nat) (vector : BitVec 8) :
    (m.eoi vcpuid vector).Sound := by
  have cleared := eoi_cleared_sound sound (vcpuid, vector.toNat)
  unfold Machine.eoi
  split
  · exact perform_sound (process_eoi_settled m.vioapic _) cleared
  · exact cleared

theorem irq_sound (sound : m.Sound) (irq : Int) (state : Irqstate) :
    (m.step (.irq irq state)).Sound := by
  obtain refused | ⟨pin, taken⟩ := set_irqstate_cases m.vioapic irq state
  · rw [Machine.step, refused]
    exact sound
  · rw [Machine.step, taken]
    exact perform_sound (act_settled m.vioapic pin (set_irqstate_settled state)) sound

theorem step_agrees_iff (sound : m.Sound) (e : Event) : (m.step e).Agrees ↔ m.Keeps e := by
  cases e with
  | irq irq state => exact iff_true_intro (irq_sound sound irq state).agrees
  | mmioWrite offset data size =>
    have after := written_agrees_iff sound offset data size
    obtain same | ⟨done, settled, same⟩ := mmio_write_cases m offset data size
    · exact (iff_of_eq (congrArg Machine.Agrees same)).trans after
    · exact (iff_of_eq (congrArg Machine.Agrees same)).trans
        ((perform_agrees_iff settled).trans after)
  | ldrWrite vcpuid data => exact write_lapic_agrees_iff sound vcpuid _
  | dfrWrite vcpuid data => exact write_lapic_agrees_iff sound vcpuid _
  | eoi vcpuid vector => exact iff_true_intro (eoi_sound sound vcpuid vector).agrees

theorem step_sound (e : Event) (sound : m.Sound) (keeps : m.Keeps e) : (m.step e).Sound := by
  have agrees := (step_agrees_iff sound e).mpr keeps
  cases e with
  | irq irq state => exact irq_sound sound irq state
  | mmioWrite offset data size =>
    obtain ⟨vm, unfinished⟩ := written_kept m offset data size
    have written : (m.written offset data size).Sound :=
      ⟨(written_agrees_iff sound offset data size).mpr keeps,
        fun i member => vm ▸ sound.active i (unfinished ▸ member)⟩
    obtain same | ⟨done, settled, same⟩ := mmio_write_cases m offset data size
    · rw [Machine.step, same]
      exact written
    · rw [Machine.step, same]
      exact perform_sound settled written
  | ldrWrite vcpuid data => exact ⟨agrees, sound.active⟩
  | dfrWrite vcpuid data => exact ⟨agrees, sound.active⟩
  | eoi vcpuid vector => exact eoi_sound sound vcpuid vector

theorem start_sound (enabled : Nat → Bool) : (Machine.start vm enabled).Sound := by
  have edge : (vioapicInit.rtbl ⟨0, by decide⟩).route.level = false := by decide
  have bare (vcpuid vector : Nat) : ¬ (Machine.start vm enabled).Levelled vcpuid vector := by
    rintro ⟨pin, level, -⟩
    exact Bool.false_ne_true (edge.symm.trans level)
  constructor
  · constructor
    · intro vcpuid _ vector _
      refine iff_of_false ?_ (bare vcpuid vector)
      simp only [Machine.start, bit, BitVec.ofNat_eq_ofNat, BitVec.getLsbD_zero,
        Bool.false_eq_true, not_false_eq_true]
    · exact fun i never => (not_mem_nil never).elim
  · exact fun i never => (not_mem_nil never).elim

/-- The trigger modes are those of the table in every state of a run exactly when each write to
    LDR and DFR leaves the level triggered entries their destinations, and no write to the table
    takes the entry of an interrupt that is still in progress. -/
theorem trigger_modes_along_iff (vm : Vm) (enabled : Nat → Bool) (events : List Event) :
    Along Machine.step (fun m e => (m.step e).Agrees) (Machine.start vm enabled) events ↔
      Along Machine.step Machine.Keeps (Machine.start vm enabled) events :=
  along_iff_of_invariant (fun _ e sound keeps => step_sound e sound keeps)
    (fun _ e sound => step_agrees_iff sound e) events _ (start_sound vm enabled)

def oneVcpu : Vm where
  maxcpus := 1
  active := fun vcpuid => decide (vcpuid < 1)
  lapic := fun _ => ⟨0, 0xffffffff, false⟩
  inside := fun _ active => of_decide_eq_true active

def lateDestination : List Event :=
  [.mmioWrite ioregsel 0x11 4, .mmioWrite iowin 0x01000000 4,
   .mmioWrite ioregsel 0x10 4, .mmioWrite iowin 0x8830 4, .ldrWrite 0 0x01000000,
   .irq 0 .assert]

set_option maxRecDepth 20000 in
theorem destination_taken_late : ¬ ∀ (vm : Vm) (enabled : Nat → Bool) (events : List Event),
        Along Machine.step (fun m e => (m.step e).Agrees) (Machine.start vm enabled) events := by
  intro every
  have agrees := (every oneVcpu (fun _ => true) lateDestination).2.2.2.2.2.1
  have delivered : (0, 0x30) ∈
      (run Machine.step (Machine.start oneVcpu fun _ => true) lateDestination).unfinished := by
    decide
  have silent : (run Machine.step (Machine.start oneVcpu fun _ => true)
      lateDestination).forwards 0 0x30 = false := by
    decide
  exact absurd (agrees.forwarded _ delivered) (silent ▸ Bool.false_ne_true)

end Apic
