import Bhyve.Vmm.Posted

namespace VmmPosted
open BitRegisters Pairing StepRuns BitVec

def isSent (vector : Nat) (m : Mark) : Bool := decide (m = .sent vector)
def isMoved (vector : Nat) (m : Mark) : Bool := decide (m = .moved vector)
def isAccepted (vector : Nat) (m : Mark) : Bool := decide (m = .accepted vector)

/-- No vector is lost or moved twice, and RVI is the highest in the IRR. -/
structure Vcpu.Kept (c : Vcpu) : Prop where
  waiting : ∀ v < 256, bit c.vtx.pir v = Armed (isSent v) (isMoved v) c.history
  requested : ∀ v < 256, bit c.vtx.irr v = Armed (isMoved v) (isAccepted v) c.history
  movedOnce : ∀ v, Paired (isSent v) (isMoved v) c.history
  acceptedOnce : ∀ v, Paired (isMoved v) (isAccepted v) c.history
  highest : rvi c.vtx = top c.vtx.irr 8

structure Vcpu.Sound (c : Vcpu) : Prop extends Vcpu.Kept c where
  idle : c.vtx.pending = false → c.phase ≠ .posting → ∀ v < 256, bit c.vtx.pir v = false
  recorded : c.phase = .halted → (c.hltStatus.setWidth 8).toNat = rvi c.vtx
  classes : ∀ k, 16 ≤ k → c.vtx.pendingPrio.getLsbD k = false

variable {v p : Nat} {c : Vcpu} {s : VlapicVtx}

theorem mem_posted {pir : Nat → BitVec 64} : v ∈ posted pir ↔ v < 256 ∧ bit pir v = true := by
  rw [posted, List.mem_filter, List.mem_range]

theorem posted_once (pir : Nat → BitVec 64) (v : Nat) :
    ((posted pir).map Mark.moved).countP (isMoved v) ≤ 1 := by
  have same : ((posted pir).map Mark.moved).countP (isMoved v) = (posted pir).count v := by
    rw [List.countP_map, List.count]
    apply List.countP_congr
    intro w _
    show decide (Mark.moved w = .moved v) = true ↔ (w == v) = true
    rw [decide_eq_true_eq, beq_iff_eq, Mark.moved.injEq]
  have once : (posted pir).Nodup := List.nodup_range.filter _
  rw [same]
  exact List.nodup_iff_count.mp once v

section
variable {pir : Nat → BitVec 64} {v : Nat}

theorem moved_not_sent {m : Mark} (member : m ∈ (posted pir).map Mark.moved) :
    isSent v m = false ∧ isAccepted v m = false := by
  obtain ⟨w, -, rfl⟩ := List.mem_map.mp member
  exact ⟨decide_eq_false nofun, decide_eq_false nofun⟩

theorem moved_other (absent : v ∉ posted pir) {m : Mark}
    (member : m ∈ (posted pir).map Mark.moved) : isMoved v m = false := by
  obtain ⟨w, inside, rfl⟩ := List.mem_map.mp member
  apply decide_eq_false
  intro same
  injection same with here
  exact absent (here ▸ inside)

end

theorem note_moved_kept (kept : c.Kept) {u : VlapicVtx} (moves : Moves c.vtx u) (phase : Phase) :
    (c.noteMoved u phase).Kept := by
  have mark (v : Nat) : isMoved v (.moved v) = true := decide_eq_true rfl
  have fired (v : Nat) (member : v ∈ posted c.vtx.pir) :
      Mark.moved v ∈ (posted c.vtx.pir).map Mark.moved := List.mem_map_of_mem member
  refine ⟨fun v inside => ?_, fun v inside => ?_, fun v => ?_, fun v => ?_, ?_⟩
  · show bit u.pir v = Armed _ _ ((posted c.vtx.pir).map Mark.moved ++ c.history)
    rw [moves.emptied v inside]
    by_cases here : v ∈ posted c.vtx.pir
    · exact (armed_fired _ (fun m member => (moved_not_sent member).1) (fired v here) (mark v)).symm
    · rw [armed_calm _ fun m member => ⟨(moved_not_sent member).1, moved_other here member⟩,
        ← kept.waiting v inside]
      exact (eq_false_of_ne_true fun waits => here (mem_posted.mpr ⟨inside, waits⟩)).symm
  · show bit u.irr v = Armed _ _ ((posted c.vtx.pir).map Mark.moved ++ c.history)
    rw [moves.joined v inside]
    by_cases here : v ∈ posted c.vtx.pir
    · rw [(mem_posted.mp here).2, Bool.or_true]
      exact (armed_raised _ (fun m member => (moved_not_sent member).2) (fired v here)
        (mark v)).symm
    · have none : bit c.vtx.pir v = false :=
        eq_false_of_ne_true fun waits => here (mem_posted.mpr ⟨inside, waits⟩)
      rw [armed_calm _ fun m member => ⟨moved_other here member, (moved_not_sent member).2⟩,
        ← kept.requested v inside, none, Bool.or_false]
  · apply paired_append (kept.movedOnce v)
    · exact posted_once c.vtx.pir v
    · intro m member fire
      obtain ⟨w, waits, rfl⟩ := List.mem_map.mp member
      have same := of_decide_eq_true fire
      injection same with here
      subst here
      obtain ⟨inside, set_⟩ := mem_posted.mp waits
      rw [← kept.waiting w inside]
      exact set_
  · apply paired_append (kept.acceptedOnce v)
    · have none : ((posted c.vtx.pir).map Mark.moved).countP (isAccepted v) = 0 := by
        apply List.countP_eq_zero.mpr
        intro m member
        rw [(moved_not_sent member).2]
        exact Bool.false_ne_true
      rw [none]
      exact Nat.zero_le 1
    · intro m member fire
      rw [(moved_not_sent member).2] at fire
      cases fire
  · show rvi u = top u.irr 8
    rw [moves.raised, kept.highest]
    exact (@top_union 32 64 u.irr c.vtx.irr c.vtx.pir 8 4 rfl moves.joined).symm

theorem note_moved_sound (sound : c.Sound) {u : VlapicVtx} (moves : Moves c.vtx u) {phase : Phase}
    (awake : phase ≠ .halted) : (c.noteMoved u phase).Sound := by
  refine ⟨note_moved_kept sound.toKept moves phase, fun _ _ => moves.emptied,
    fun halted => absurd halted awake, fun k high => ?_⟩
  show u.pendingPrio.getLsbD k = false
  rw [moves.pendingPrio]
  exact sound.classes k high

theorem masked (x : BitVec 8) : (x &&& apicTprInt).toNat = 16 * prioClass x.toNat := by
  have all : ∀ x : BitVec 8, (x &&& apicTprInt).toNat = 16 * prioClass x.toNat := by decide
  exact all x

theorem prio_bit_masked (x : BitVec 8) :
    vprPrioBit (x &&& apicTprInt) = BitVec.twoPow 32 (prioClass x.toNat) := by
  have all : ∀ x : BitVec 8,
      vprPrioBit (x &&& apicTprInt) = BitVec.twoPow 32 (prioClass x.toNat) := by decide
  exact all x

theorem class_lt (x : BitVec 8) : prioClass x.toNat < 16 := by
  unfold prioClass
  omega

theorem class_mono {w : Nat} (order : v ≤ w) : prioClass v ≤ prioClass w :=
  Nat.div_le_div_right order

theorem masked_le (x y : BitVec 8) :
    x &&& apicTprInt ≤ y &&& apicTprInt ↔ prioClass x.toNat ≤ prioClass y.toNat := by
  rw [le_def, masked, masked]
  omega

theorem masked_lt (x y : BitVec 8) :
    x &&& apicTprInt < y &&& apicTprInt ↔ prioClass x.toNat < prioClass y.toNat := by
  rw [lt_def, masked, masked]
  omega

theorem highest_vpr (s : VlapicVtx) :
    highestVpr s = BitVec.ofNat 8 (top s.pir 4) &&& apicTprInt := by
  unfold highestVpr top
  cases highest s.pir 4 with
  | none => rfl
  | some v => rfl

theorem top_pir_byte (s : VlapicVtx) : (BitVec.ofNat 8 (top s.pir 4)).toNat = top s.pir 4 := by
  exact Nat.mod_eq_of_lt (top_pir s)

theorem apart_iff (x : BitVec 32) {k : Nat} (inside : k < 32) :
    x &&& BitVec.twoPow 32 k = 0 ↔ x.getLsbD k = false := by
  constructor
  · intro apart
    have place := congrArg (BitVec.getLsbD · k) apart
    rw [getLsbD_and, getLsbD_twoPow, decide_eq_true inside, decide_eq_true rfl,
      Bool.and_self, Bool.and_true] at place
    rw [place]
    exact getLsbD_zero
  · intro clear
    apply eq_of_getLsbD_eq
    intro i _
    rw [getLsbD_and, getLsbD_twoPow, decide_eq_true inside, Bool.true_and]
    by_cases here : k = i
    · rw [← here, clear, Bool.false_and]
      exact BitVec.getLsbD_zero.symm
    · rw [decide_eq_false here, Bool.and_false]
      exact BitVec.getLsbD_zero.symm

def ppr (s : VlapicVtx) : Nat := prioClass s.ppr.toNat

def pirClass (s : VlapicVtx) : Nat := prioClass (top s.pir 4)

theorem pending_intr_eq (s : VlapicVtx) (status : BitVec 16) : vmxPendingIntr s status =
      if s.pending = false then (decide (ppr s < prioClass (status.setWidth 8).toNat), s)
      else if ppr s = 0 then (true, s)
      else if pirClass s ≤ ppr s then
        (false, if BitVec.twoPow 32 (pirClass s) < s.pendingPrio ∧
            s.pendingPrio.getLsbD (pirClass s) = false then
          { s with pendingPrio := BitVec.twoPow 32 (pirClass s) } else s)
      else (true, s) := by
  have zero : s.ppr &&& apicTprInt = 0 ↔ ppr s = 0 := by
    rw [← toNat_inj, masked, ppr]
    show 16 * prioClass s.ppr.toNat = 0 ↔ prioClass s.ppr.toNat = 0
    omega
  have recognised : s.ppr &&& apicTprInt < status.setWidth 8 &&& apicTprInt ↔
      ppr s < prioClass (status.setWidth 8).toNat := masked_lt s.ppr (status.setWidth 8)
  have low : highestVpr s ≤ s.ppr &&& apicTprInt ↔ pirClass s ≤ ppr s := by
    rw [highest_vpr, masked_le, top_pir_byte]
    exact Iff.rfl
  have mark : vprPrioBit (highestVpr s) = BitVec.twoPow 32 (pirClass s) := by
    rw [highest_vpr, prio_bit_masked, top_pir_byte]
    rfl
  have inside : pirClass s < 32 := by
    have below := top_pir s
    unfold pirClass prioClass
    omega
  unfold vmxPendingIntr
  dsimp only
  rw [mark]
  cases s.pending with
  | false =>
    rw [if_pos rfl, Bool.not_false, if_pos rfl]
    simp only [recognised]
  | true =>
    simp only [Bool.not_true, Bool.false_eq_true, Bool.true_eq_false, if_false, zero, low,
      apart_iff _ inside]

def sentPir (s : VlapicVtx) (vector : BitVec 8) : VlapicVtx :=
  { s with pir := setBit s.pir vector.toNat, pending := true }

theorem set_intr_ready_eq (s : VlapicVtx) (vector : BitVec 8) :
    vmxSetIntrReady s vector =
      if s.pending = false then (true, { sentPir s vector with pendingPrio := 0 })
      else if s.pendingPrio.getLsbD (prioClass vector.toNat) = false ∧
          s.pendingPrio < BitVec.twoPow 32 (prioClass vector.toNat) then
        (true, { sentPir s vector with
          pendingPrio := s.pendingPrio ||| BitVec.twoPow 32 (prioClass vector.toNat) })
      else (false, sentPir s vector) := by
  have inside : prioClass vector.toNat < 32 := Nat.lt_trans (class_lt vector) (by decide)
  unfold vmxSetIntrReady sentPir
  rw [prio_bit_masked]
  cases pending : s.pending with
  | false => rfl
  | true =>
    simp only [Bool.not_true, Bool.false_eq_true, Bool.true_eq_false, if_false,
      apart_iff _ inside]

theorem set_intr_ready_form (s : VlapicVtx) (vector : BitVec 8) :
    ∃ prio, (vmxSetIntrReady s vector).2 = { sentPir s vector with pendingPrio := prio } ∧
      ∀ k, prio.getLsbD k = true →
        (s.pending = true ∧ s.pendingPrio.getLsbD k = true) ∨ k = prioClass vector.toNat := by
  rw [set_intr_ready_eq]
  cases pending : s.pending with
  | false =>
    refine ⟨0, rfl, fun k never => ?_⟩
    exact absurd (BitVec.getLsbD_zero.symm.trans never) Bool.false_ne_true
  | true =>
    simp only [Bool.true_eq_false, if_false]
    split
    · refine ⟨_, rfl, fun k set_ => ?_⟩
      rw [getLsbD_or, Bool.or_eq_true, getLsbD_twoPow, Bool.and_eq_true,
        decide_eq_true_eq, decide_eq_true_eq] at set_
      exact set_.imp (fun before => ⟨trivial, before⟩) fun here => here.2.symm
    · exact ⟨_, rfl, fun k set_ => .inl ⟨trivial, set_⟩⟩

theorem pending_intr_form (s : VlapicVtx) (status : BitVec 16) :
    ∃ prio, (vmxPendingIntr s status).2 = { s with pendingPrio := prio } ∧
      ∀ k, prio.getLsbD k = true →
        s.pendingPrio.getLsbD k = true ∨ (k = pirClass s ∧ pirClass s ≤ ppr s) := by
  rw [pending_intr_eq]
  have same : ∃ prio, s = { s with pendingPrio := prio } ∧
      ∀ k, prio.getLsbD k = true →
        s.pendingPrio.getLsbD k = true ∨ (k = pirClass s ∧ pirClass s ≤ ppr s) :=
    ⟨s.pendingPrio, rfl, fun _ => .inl⟩
  split
  · exact same
  · split
    · exact same
    · split
      · next low =>
        split
        · refine ⟨_, rfl, fun k set_ => ?_⟩
          rw [getLsbD_twoPow, Bool.and_eq_true, decide_eq_true_eq, decide_eq_true_eq] at set_
          exact .inr ⟨set_.2.symm, low⟩
        · exact same
      · exact same

theorem pir_class_lt (s : VlapicVtx) : pirClass s < 16 := by
  have below := top_pir s
  unfold pirClass prioClass
  omega

section
variable {c : Vcpu} (sound : c.Sound)
include sound

theorem sent_sound (vector : BitVec 8) : (c.step (.setIntrReady vector)).Sound := by
  obtain ⟨prio, form, bits⟩ := set_intr_ready_form c.vtx vector
  have apart (v : Nat) (m : Nat) : isMoved v (.sent m) = false ∧ isAccepted v (.sent m) = false :=
    ⟨decide_eq_false nofun, decide_eq_false nofun⟩
  unfold Vcpu.step
  dsimp only
  rw [form]
  refine ⟨⟨fun v inside => ?_, fun v inside => ?_, fun v => ?_, fun v => ?_, sound.highest⟩,
    fun never => ?_, sound.recorded, fun k high => ?_⟩
  · show bit (setBit c.vtx.pir vector.toNat) v = _
    rw [bit_set_bit (by decide), Armed, (apart v _).1, Bool.not_false, Bool.true_and,
      ← sound.waiting v inside]
    congr 1
    exact decide_eq_decide.mpr ⟨fun same => congrArg Mark.sent same, fun same => by
      injection same⟩
  · exact sound.requested v inside
  · refine paired_cons (sound.movedOnce v) fun never => ?_
    cases never
  · refine paired_cons (sound.acceptedOnce v) fun never => ?_
    cases never
  · cases never
  · apply eq_false_of_ne_true
    intro set_
    obtain ⟨-, before⟩ | own := bits k set_
    · exact Bool.false_ne_true ((sound.classes k high).symm.trans before)
    · have below := class_lt vector
      omega

theorem cleared_sound : (c.step .clearPending).Sound := by
  unfold Vcpu.step
  dsimp only
  split
  · exact ⟨⟨sound.waiting, sound.requested, sound.movedOnce, sound.acceptedOnce, sound.highest⟩,
      fun _ never => absurd rfl never, nofun, sound.classes⟩
  · exact sound

theorem moved_sound : (c.step .movePir).Sound := by
  unfold Vcpu.step
  dsimp only
  split
  · exact note_moved_sound sound (processor_moves c.vtx) (by decide)
  · exact sound

theorem injected_sound : (c.step .injectPir).Sound := by
  unfold Vcpu.step
  dsimp only
  split
  · split
    · next pending => exact note_moved_sound sound (inject_moves pending) (by decide)
    · exact sound
  · exact sound

theorem accepted_sound : (c.step .accept).Sound := by
  unfold Vcpu.step
  dsimp only
  split
  · next taken =>
    obtain ⟨guest, above⟩ := taken
    have positive : 0 < top c.vtx.irr 8 := by
      rw [← sound.highest]
      unfold prioClass at above
      omega
    obtain ⟨inside, member⟩ := top_member positive
    have apart (v r : Nat) : isSent v (.accepted r) = false ∧ isMoved v (.accepted r) = false :=
      ⟨decide_eq_false nofun,
        decide_eq_false nofun⟩
    have left : top (clearBit c.vtx.irr (rvi c.vtx)) 8 < 256 := by
      by_cases some_ : 0 < top (clearBit c.vtx.irr (rvi c.vtx)) 8
      · exact (top_member some_).1
      · omega
    refine ⟨⟨fun v inside => ?_, fun v inside => ?_, fun v => ?_, fun v => ?_, ?_⟩,
      sound.idle, fun halted => ?_, sound.classes⟩
    · exact sound.waiting v inside
    · show bit (clearBit c.vtx.irr (rvi c.vtx)) v = _
      rw [bit_clear_bit (by decide), Armed, (apart v _).2, Bool.false_or, Bool.and_comm,
        ← sound.requested v inside]
      congr 2
      exact decide_eq_decide.mpr ⟨fun same => congrArg Mark.accepted same, fun same => by
        injection same⟩
    · refine paired_cons (sound.movedOnce v) fun never => ?_
      cases never
    · refine paired_cons (sound.acceptedOnce v) fun fire => ?_
      have same := of_decide_eq_true fire
      injection same with here
      subst here
      rw [← sound.requested _ (rvi_byte c.vtx), sound.highest]
      exact member
    · exact rvi_intr_status _ _ left
    · rw [guest] at halted
      cases halted
  · exact sound

theorem priority_sound (svi : Nat) (ppr : BitVec 8) : (c.step (.priority svi ppr)).Sound := by
  unfold Vcpu.step
  dsimp only
  split
  · exact ⟨⟨sound.waiting, sound.requested, sound.movedOnce, sound.acceptedOnce, sound.highest⟩,
      sound.idle, sound.recorded, sound.classes⟩
  · next awake =>
    have kept : rvi { c.vtx with ppr := ppr, guestIntrStatus := intrStatus svi (rvi c.vtx) } =
        rvi c.vtx := rvi_intr_status _ _ (rvi_byte c.vtx)
    exact ⟨⟨sound.waiting, sound.requested, sound.movedOnce, sound.acceptedOnce,
      kept.trans sound.highest⟩, sound.idle, fun halted => absurd halted awake, sound.classes⟩

theorem phase_sound {phase : Phase} (calm : c.phase ≠ .posting) (awake : phase ≠ .halted) :
    { c with phase := phase }.Sound :=
  ⟨⟨sound.waiting, sound.requested, sound.movedOnce, sound.acceptedOnce, sound.highest⟩,
    fun pending _ => sound.idle pending calm, fun halted => absurd halted awake, sound.classes⟩

theorem hlt_sound : (c.step .hlt).Sound := by
  unfold Vcpu.step
  dsimp only
  split
  · next guest =>
    have calm : c.phase ≠ .posting := by
      rw [guest]
      decide
    exact ⟨⟨sound.waiting, sound.requested, sound.movedOnce, sound.acceptedOnce, sound.highest⟩,
      fun pending _ => sound.idle pending calm, fun _ => rfl, sound.classes⟩
  · exact sound

theorem pending_sound : (c.step .pendingIntr).Sound := by
  obtain ⟨prio, form, bits⟩ := pending_intr_form c.vtx c.hltStatus
  unfold Vcpu.step
  dsimp only
  split
  · rw [form]
    refine ⟨⟨sound.waiting, sound.requested, sound.movedOnce, sound.acceptedOnce, sound.highest⟩,
      sound.idle, sound.recorded, fun k high => ?_⟩
    apply eq_false_of_ne_true
    intro set_
    obtain before | ⟨own, -⟩ := bits k set_
    · exact Bool.false_ne_true ((sound.classes k high).symm.trans before)
    · have below := pir_class_lt c.vtx
      omega
  · exact sound

theorem step_sound (e : Event) : (c.step e).Sound := by
  have leaves {here phase : Phase} (calm : here ≠ .posting) (awake : phase ≠ .halted) :
      (if c.phase = here then { c with phase := phase } else c).Sound := by
    split
    · next same =>
      subst same
      exact phase_sound sound calm awake
    · exact sound
  cases e with
  | setIntrReady vector => exact sent_sound sound vector
  | clearPending => exact cleared_sound sound
  | movePir => exact moved_sound sound
  | accept => exact accepted_sound sound
  | priority svi ppr => exact priority_sound sound svi ppr
  | exit => exact leaves (by decide) (by decide)
  | hlt => exact hlt_sound sound
  | pendingIntr => exact pending_sound sound
  | wake => exact leaves (by decide) (by decide)
  | injectPir => exact injected_sound sound
  | enter => exact leaves (by decide) (by decide)

end

theorem start_sound : Vcpu.start.Sound := by
  have none (v : Nat) {w : Nat} : bit (fun _ => (0 : BitVec w)) v = false := getLsbD_zero
  refine ⟨⟨fun v _ => none v, fun v _ => none v, fun _ => trivial, fun _ => trivial, ?_⟩,
    fun _ _ v _ => none v, nofun, fun k _ => getLsbD_zero⟩
  rfl

/-- While the flag is set, no class above p is taken for notified. -/
def Low (p : Nat) (s : VlapicVtx) : Prop :=
  s.pending = true → ∀ k, p < k → s.pendingPrio.getLsbD k = false

/-- Until a vector above p is sent, and with no HLT looked at under a higher PPR. -/
def Vcpu.Waits (p : Nat) (c : Vcpu) : Event → Prop
  | .setIntrReady vector => prioClass vector.toNat ≤ p
  | .pendingIntr => ppr c.vtx ≤ p
  | _ => True

theorem step_low (low : Low p c.vtx) {e : Event} (waits : c.Waits p e) : Low p (c.step e).vtx := by
  have leaves {here phase : Phase} :
      Low p (if c.phase = here then { c with phase := phase } else c).vtx := by
    split <;> exact low
  cases e with
  | setIntrReady vector =>
    obtain ⟨prio, form, bits⟩ := set_intr_ready_form c.vtx vector
    unfold Vcpu.step
    dsimp only
    rw [form]
    intro _ k above
    apply eq_false_of_ne_true
    intro set_
    obtain ⟨pending, before⟩ | own := bits k set_
    · exact Bool.false_ne_true ((low pending k above).symm.trans before)
    · subst own
      exact Nat.not_lt.mpr waits above
  | pendingIntr =>
    obtain ⟨prio, form, bits⟩ := pending_intr_form c.vtx c.hltStatus
    unfold Vcpu.step
    dsimp only
    split
    · rw [form]
      intro pending k above
      apply eq_false_of_ne_true
      intro set_
      obtain before | ⟨own, below⟩ := bits k set_
      · exact Bool.false_ne_true ((low pending k above).symm.trans before)
      · subst own
        exact Nat.not_lt.mpr (Nat.le_trans below waits) above
    · exact low
  | clearPending =>
    unfold Vcpu.step
    dsimp only
    split
    · exact nofun
    · exact low
  | movePir =>
    unfold Vcpu.step
    dsimp only
    split <;> exact low
  | accept =>
    unfold Vcpu.step
    dsimp only
    split <;> exact low
  | priority svi ppr =>
    unfold Vcpu.step
    dsimp only
    split <;> exact low
  | injectPir =>
    unfold Vcpu.step
    dsimp only
    split
    · split
      · next pending =>
        intro flag
        have moves := inject_moves pending
        show ∀ k, p < k → (vmxInjectPir c.vtx).pendingPrio.getLsbD k = false
        rw [moves.pendingPrio]
        exact low pending
      · exact low
    · exact low
  | exit => exact leaves
  | hlt =>
    unfold Vcpu.step
    dsimp only
    split <;> exact low
  | wake => exact leaves
  | enter => exact leaves

theorem low_notifies (low : Low p s) {vector : BitVec 8} (above : p < prioClass vector.toNat) :
    (vmxSetIntrReady s vector).1 = true := by
  rw [set_intr_ready_eq]
  cases pending : s.pending with
  | false => rfl
  | true =>
    have inside := class_lt vector
    have clear := low pending
    have small : s.pendingPrio < BitVec.twoPow 32 (prioClass vector.toNat) := by
      have bound : s.pendingPrio.toNat < 2 ^ prioClass vector.toNat :=
        Nat.lt_pow_two_of_testBit _ fun k high => clear k (Nat.lt_of_lt_of_le above high)
      rw [lt_def, toNat_twoPow_of_lt (Nat.lt_trans inside (by decide))]
      exact bound
    rw [if_neg (by decide), if_pos ⟨clear _ above, small⟩]

/-- What a call of vmx_pending_intr has to do: to answer 1 when a vector waits above PPR, and,
    having answered 0, to leave the next vector above PPR to be notified. -/
structure Vcpu.Woken (c : Vcpu) : Prop where
  recognised : (∃ v < 256, (bit c.vtx.pir v = true ∨ bit c.vtx.irr v = true) ∧
    ppr c.vtx < prioClass v) → (vmxPendingIntr c.vtx c.hltStatus).1 = true
  notified : (vmxPendingIntr c.vtx c.hltStatus).1 = false → ∀ later vector,
    Along Vcpu.step (Vcpu.Waits (ppr c.vtx)) (c.step .pendingIntr) later →
      ppr c.vtx < prioClass vector.toNat →
        (vmxSetIntrReady (run Vcpu.step (c.step .pendingIntr) later).vtx vector).1 = true

/-- With the flag set and nothing above PPR in the PIR, there is nothing above PPR in the IRR,
    and pending_prio has no bits above PPR beside that of the PIR. -/
def Vcpu.Ready (c : Vcpu) : Prop :=
  c.vtx.pending = true → ppr c.vtx ≠ 0 →
    (∀ v < 256, bit c.vtx.pir v = true → prioClass v ≤ ppr c.vtx) →
      (∀ v < 256, bit c.vtx.irr v = true → prioClass v ≤ ppr c.vtx) ∧
        (c.vtx.pendingPrio.getLsbD (pirClass c.vtx) = true →
          ∀ k, ppr c.vtx < k → c.vtx.pendingPrio.getLsbD k = false)

theorem pir_class_le (inside : v < 256) (member : bit s.pir v = true) :
    prioClass v ≤ pirClass s := class_mono (le_top inside member)

theorem pir_class_low (low : ∀ v < 256, bit s.pir v = true → prioClass v ≤ p) : pirClass s ≤ p := by
  by_cases positive : 0 < top s.pir 4
  · obtain ⟨inside, member⟩ := top_member positive
    exact low _ inside member
  · have zero : top s.pir 4 = 0 := Nat.eq_zero_of_not_pos positive
    rw [pirClass, zero]
    exact Nat.zero_le p

theorem flagged_answer (status : BitVec 16) (pending : s.pending = true) :
    (vmxPendingIntr s status).1 = false ↔ ppr s ≠ 0 ∧ pirClass s ≤ ppr s := by
  rw [pending_intr_eq, if_neg (fun never => Bool.false_ne_true (never.symm.trans pending))]
  by_cases zero : ppr s = 0
  · rw [if_pos zero]
    exact ⟨nofun, fun both => absurd zero both.1⟩
  · rw [if_neg zero]
    by_cases low : pirClass s ≤ ppr s
    · rw [if_pos low]
      exact ⟨fun _ => ⟨zero, low⟩, fun _ => rfl⟩
    · rw [if_neg low]
      exact ⟨nofun, fun both => absurd both.2 low⟩

theorem flagged_left (status : BitVec 16) (pending : s.pending = true)
    (zero : (vmxPendingIntr s status).1 = false) : (vmxPendingIntr s status).2 =
      if BitVec.twoPow 32 (pirClass s) < s.pendingPrio ∧
          s.pendingPrio.getLsbD (pirClass s) = false then
        { s with pendingPrio := BitVec.twoPow 32 (pirClass s) } else s := by
  obtain ⟨nonzero, low⟩ := (flagged_answer status pending).mp zero
  rw [pending_intr_eq, if_neg (fun never => Bool.false_ne_true (never.symm.trans pending)),
    if_neg nonzero, if_pos low]

theorem halted_step (halted : c.phase = .halted) :
    (c.step .pendingIntr).vtx = (vmxPendingIntr c.vtx c.hltStatus).2 := by
  unfold Vcpu.step
  rw [if_pos halted]

theorem ready_low (halted : c.phase = .halted) (ready : c.Ready)
    (zero : (vmxPendingIntr c.vtx c.hltStatus).1 = false) :
    Low (ppr c.vtx) (c.step .pendingIntr).vtx := by
  rw [halted_step halted]
  cases pending : c.vtx.pending with
  | false =>
    rw [pending_intr_eq, if_pos pending]
    exact fun flag => absurd (pending.symm.trans flag) Bool.false_ne_true
  | true =>
    obtain ⟨nonzero, low⟩ := (flagged_answer c.hltStatus pending).mp zero
    rw [flagged_left c.hltStatus pending zero]
    intro _ k above
    split
    · have apart : pirClass c.vtx ≠ k := Nat.ne_of_lt (Nat.lt_of_le_of_lt low above)
      rw [getLsbD_twoPow, decide_eq_false apart, Bool.and_false]
    · next kept =>
      cases own : c.vtx.pendingPrio.getLsbD (pirClass c.vtx) with
      | true =>
        have waits (v : Nat) (inside : v < 256) (member : bit c.vtx.pir v = true) :
            prioClass v ≤ ppr c.vtx := Nat.le_trans (pir_class_le inside member) low
        exact (ready pending nonzero waits).2 own k above
      | false =>
        have order : ¬ BitVec.twoPow 32 (pirClass c.vtx) < c.vtx.pendingPrio :=
          fun less => kept ⟨less, own⟩
        have below := pir_class_lt c.vtx
        rw [lt_def, toNat_twoPow_of_lt (Nat.lt_trans below (by decide))] at order
        apply Nat.testBit_lt_two_pow
        exact Nat.lt_of_le_of_lt (Nat.not_lt.mp order)
          (Nat.pow_lt_pow_right (by decide) (Nat.lt_of_le_of_lt low above))

theorem ready_recognises (sound : c.Sound) (halted : c.phase = .halted) (ready : c.Ready)
    (inside : v < 256) (member : bit c.vtx.pir v = true ∨ bit c.vtx.irr v = true)
    (above : ppr c.vtx < prioClass v) : (vmxPendingIntr c.vtx c.hltStatus).1 = true := by
  cases pending : c.vtx.pending with
  | false =>
    have calm : c.phase ≠ .posting := by
      rw [halted]
      decide
    have empty := sound.idle pending calm v inside
    have waits : bit c.vtx.irr v = true :=
      member.resolve_left fun never => Bool.false_ne_true (empty.symm.trans never)
    have highest : v ≤ (c.hltStatus.setWidth 8).toNat := by
      rw [sound.recorded halted, sound.highest]
      exact le_top inside waits
    rw [pending_intr_eq, if_pos pending]
    exact decide_eq_true (Nat.lt_of_lt_of_le above (class_mono highest))
  | true =>
    apply eq_true_of_ne_false
    intro zero
    obtain ⟨nonzero, low⟩ := (flagged_answer c.hltStatus pending).mp zero
    have waits (w : Nat) (below : w < 256) (in_ : bit c.vtx.pir w = true) :
        prioClass w ≤ ppr c.vtx := Nat.le_trans (pir_class_le below in_) low
    obtain posted | requested := member
    · exact Nat.not_lt.mpr (waits v inside posted) above
    · exact Nat.not_lt.mpr ((ready pending nonzero waits).1 v inside requested) above

theorem woken_ready (sound : c.Sound) (halted : c.phase = .halted) (woken : c.Woken) : c.Ready := by
  intro pending nonzero waits
  have zero := (flagged_answer c.hltStatus pending).mpr ⟨nonzero, pir_class_low waits⟩
  constructor
  · intro v inside requested
    apply Nat.not_lt.mp
    intro above
    have one := woken.recognised ⟨v, inside, .inr requested, above⟩
    exact Bool.false_ne_true (zero.symm.trans one)
  · intro own k above
    apply eq_false_of_ne_true
    intro stale
    have below : k < 16 := by
      apply Nat.not_le.mp
      intro high
      exact Bool.false_ne_true ((sound.classes k high).symm.trans stale)
    have byte : (BitVec.ofNat 8 (16 * k)).toNat = 16 * k := by
      exact Nat.mod_eq_of_lt (by omega)
    have class_ : prioClass (BitVec.ofNat 8 (16 * k)).toNat = k := by
      rw [byte, prioClass]
      omega
    have left : (c.step .pendingIntr).vtx = c.vtx := by
      rw [halted_step halted, flagged_left c.hltStatus pending zero,
        if_neg (fun both => Bool.false_ne_true (both.2.symm.trans own))]
    have one := woken.notified zero [] (BitVec.ofNat 8 (16 * k)) trivial (class_.symm ▸ above)
    have silent : (vmxSetIntrReady c.vtx (BitVec.ofNat 8 (16 * k))).1 = false := by
      rw [set_intr_ready_eq, class_,
        if_neg (fun never => Bool.false_ne_true (never.symm.trans pending)),
        if_neg (fun both => Bool.false_ne_true (both.1.symm.trans stale))]
    rw [run, List.foldl_nil, left, silent] at one
    cases one

theorem woken_iff (sound : c.Sound) (halted : c.phase = .halted) : c.Woken ↔ c.Ready := by
  constructor
  · exact woken_ready sound halted
  · intro ready
    refine ⟨fun waits => ?_, fun zero later vector quiet above => ?_⟩
    · obtain ⟨v, inside, member, above⟩ := waits
      exact ready_recognises sound halted ready inside member above
    · have keeps (b : Vcpu) (e : Event) (low : Low (ppr c.vtx) b.vtx)
          (waits : b.Waits (ppr c.vtx) e) : Low (ppr c.vtx) (b.step e).vtx := step_low low waits
      have low := invariant_run keeps later _ (ready_low halted ready zero) quiet
      exact low_notifies low above

/-- In every state that is reached no vector has been lost or moved twice and RVI is the highest
    in the IRR; and a call from a HLT sees what waits and leaves the rest to be notified exactly
    when the state is ready for it. -/
theorem posted_interrupts (events : List Event) : (run Vcpu.step Vcpu.start events).Kept ∧
      (∀ v < 256, Armed (isSent v) (isAccepted v) (run Vcpu.step Vcpu.start events).history = true →
        bit (run Vcpu.step Vcpu.start events).vtx.pir v = true ∨
          bit (run Vcpu.step Vcpu.start events).vtx.irr v = true) ∧
      ((run Vcpu.step Vcpu.start events).phase = .halted →
        ((run Vcpu.step Vcpu.start events).Woken ↔
          (run Vcpu.step Vcpu.start events).Ready)) := by
  have keeps (c : Vcpu) (e : Event) (sound : c.Sound) : (c.step e).Sound := step_sound sound e
  have sound := invariant_every_run keeps events Vcpu.start start_sound
  refine ⟨sound.toKept, fun v inside armed => ?_, woken_iff sound⟩
  rw [sound.waiting v inside, sound.requested v inside]
  exact armed_between armed

def lowVector : List Event :=
  [.enter, .priority 0 0x30, .setIntrReady 0x20, .hlt]

theorem low_vector_woken : (run Vcpu.step Vcpu.start lowVector).Woken := by
  apply ((posted_interrupts lowVector).2.2 rfl).mpr
  intro _ _ _
  refine ⟨fun v _ never => ?_, fun never => ?_⟩
  · exact absurd (BitVec.getLsbD_zero.symm.trans never) Bool.false_ne_true
  · exact absurd never (by decide)

def blockedVector : List Event :=
  [.enter, .priority 0 0x30, .setIntrReady 0x50, .clearPending, .movePir, .setIntrReady 0x20, .hlt]

def staleClass : List Event :=
  [.enter, .setIntrReady 0x20, .clearPending, .setIntrReady 0x21, .setIntrReady 0x22,
   .setIntrReady 0x50, .movePir, .accept, .priority 0 0x30, .setIntrReady 0x23, .hlt]

theorem slept_through :
    (¬ ∀ events : List Event, (run Vcpu.step Vcpu.start events).phase = .halted →
      (∃ v < 256, bit (run Vcpu.step Vcpu.start events).vtx.irr v = true ∧
        ppr (run Vcpu.step Vcpu.start events).vtx < prioClass v) →
          (vmxPendingIntr (run Vcpu.step Vcpu.start events).vtx
            (run Vcpu.step Vcpu.start events).hltStatus).1 = true) ∧
    ¬ ∀ events : List Event, (run Vcpu.step Vcpu.start events).phase = .halted →
      (vmxPendingIntr (run Vcpu.step Vcpu.start events).vtx
          (run Vcpu.step Vcpu.start events).hltStatus).1 = false →
        ∀ vector : BitVec 8,
          ppr (run Vcpu.step Vcpu.start events).vtx < prioClass vector.toNat →
            (vmxSetIntrReady (run Vcpu.step Vcpu.start (events ++ [.pendingIntr])).vtx
              vector).1 = true := by
  constructor
  · intro every
    have one := every blockedVector rfl ⟨0x50, by decide, by decide, by decide⟩
    exact absurd one (by decide)
  · intro every
    have one := every staleClass rfl (by decide) 0x51 (by decide)
    exact absurd one (by decide)

end VmmPosted
