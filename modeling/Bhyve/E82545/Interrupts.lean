import Bhyve.E82545.Device
import Bhyve.Lib.StepRuns

namespace E82545
open StepRuns BitVec

inductive IntrEvent where
  | write (offset value : BitVec 32)
  | read (offset : BitVec 32)
  | cause (bits : BitVec 32)
  | expires
  | reset
deriving DecidableEq

def intrStep (s : Intr) : IntrEvent → Intr
  | .write offset value => intrWrite s offset value
  | .read offset => (intrRead s offset).2
  | .cause bits => icrAssert s bits
  | .expires => if s.mevpitr ≠ none then itrCallback s else s
  | .reset => intrReset s

def WillAssert (s : Intr) : Prop := s.mevpitr ≠ none ∧ (itrCallback s).lineAsserted

structure LineSound (s : Intr) : Prop where
  flag : s.lineAsserted ↔ s.irqAsserted = true
  cause : s.lineAsserted → s.unmasked ≠ 0
  served : s.unmasked ≠ 0 → s.lineAsserted ∨ WillAssert s

/-- An event that does not take the unmasked causes away behind an asserted line. -/
def Spares (s : Intr) : IntrEvent → Prop
  | .write offset value =>
      offset = regImc → s.irqAsserted = true → s.icr &&& (s.ims &&& ~~~value) ≠ 0
  | .reset => s.irqAsserted = false
  | _ => True

section
variable {s : Intr}

structure LineInv (s : Intr) : Prop where
  permitted : s.pi.intxDis = false
  flag : s.pi.lintr = if s.irqAsserted then .asserted else .idle
  cause : s.irqAsserted = true → s.unmasked ≠ 0
  served : s.unmasked ≠ 0 → s.irqAsserted = false → s.mevpitr ≠ none

theorem line_asserted_iff (inv : LineInv s) : s.lineAsserted ↔ s.irqAsserted = true := by
  rw [Intr.lineAsserted, inv.flag]
  cases s.irqAsserted <;> simp

theorem assert_asserts {pi : PciDevinst} (idle : pi.lintr = .idle) (permitted : pi.intxDis = false) :
    pciLintrAssert pi = ⟨.asserted, false⟩ := by
  obtain ⟨lintr, intxDis⟩ := pi
  subst idle permitted
  rfl

theorem deassert_idles {pi : PciDevinst} (permitted : pi.intxDis = false) :
    pciLintrDeassert pi = ⟨.idle, false⟩ := by
  obtain ⟨lintr, intxDis⟩ := pi
  subst permitted
  cases lintr <;> rfl

theorem callback_asserts (inv : LineInv s) (live : s.unmasked ≠ 0) (low : s.irqAsserted = false) :
    itrCallback s = { s with irqAsserted := true, pi := ⟨.asserted, false⟩ } := by
  have idle : s.pi.lintr = .idle := by
    rw [inv.flag, low]
    rfl
  rw [itrCallback, if_pos ⟨live, low⟩, assert_asserts idle inv.permitted]

theorem line_sound (inv : LineInv s) : LineSound s where
  flag := line_asserted_iff inv
  cause := fun asserted => inv.cause ((line_asserted_iff inv).mp asserted)
  served := by
    intro live
    cases low : s.irqAsserted with
    | true => exact .inl ((line_asserted_iff inv).mpr low)
    | false =>
      refine .inr ⟨inv.served live low, ?_⟩
      rw [callback_asserts inv live low]
      rfl

end

section
variable {s : Intr}

theorem raise_inv {new : BitVec 32} (permitted : s.pi.intxDis = false)
    (flag : s.pi.lintr = if s.irqAsserted then .asserted else .idle)
    (cause : s.irqAsserted = true → s.unmasked ≠ 0) (live : new ≠ 0 → s.unmasked ≠ 0)
    (served : new = 0 → s.unmasked ≠ 0 → s.irqAsserted = false → s.mevpitr ≠ none) :
    LineInv (raise s new) := by
  unfold raise
  split
  · next none_new => exact ⟨permitted, flag, cause, served none_new⟩
  · next fresh =>
    split
    · next throttled => exact ⟨permitted, flag, cause, fun _ _ => throttled⟩
    · split
      · next low =>
        have idle : s.pi.lintr = .idle := by
          rw [flag, low]
          rfl
        rw [assert_asserts idle permitted]
        exact ⟨rfl, rfl, fun _ => live fresh, nofun⟩
      · next high => exact ⟨permitted, flag, cause, fun _ low => absurd low high⟩

theorem more_unmasked {a b c : BitVec 32} (live : a &&& b ≠ 0) : (a ||| c) &&& b ≠ 0 := by
  intro none_left
  apply live
  apply eq_of_getLsbD_eq
  intro i bound
  have bit := congrArg (BitVec.getLsbD · i) none_left
  grind

theorem new_unmasked {a b bits : BitVec 32} (fresh : bits &&& ~~~a &&& b ≠ 0) :
    (a ||| bits) &&& b ≠ 0 := by
  intro none_left
  apply fresh
  apply eq_of_getLsbD_eq
  intro i bound
  have bit := congrArg (BitVec.getLsbD · i) none_left
  grind

theorem old_unmasked {a b bits : BitVec 32} (stale : bits &&& ~~~a &&& b = 0)
    (live : (a ||| bits) &&& b ≠ 0) : a &&& b ≠ 0 := by
  intro none_left
  apply live
  apply eq_of_getLsbD_eq
  intro i bound
  have old := congrArg (BitVec.getLsbD · i) none_left
  have new := congrArg (BitVec.getLsbD · i) stale
  grind

theorem icr_assert_inv (inv : LineInv s) (bits : BitVec 32) : LineInv (icrAssert s bits) :=
  raise_inv inv.permitted inv.flag (fun high => more_unmasked (inv.cause high)) new_unmasked
    fun stale live => inv.served (old_unmasked stale live)

theorem ims_change_inv (inv : LineInv s) (bits : BitVec 32) : LineInv (imsChange s bits) := by
  have swap : ({ s with ims := s.ims ||| bits } : Intr).unmasked = (s.ims ||| bits) &&& s.icr :=
    BitVec.and_comm ..
  have turn : bits &&& s.icr &&& ~~~s.ims = bits &&& ~~~s.ims &&& s.icr := by
    rw [BitVec.and_assoc, BitVec.and_comm s.icr, ← BitVec.and_assoc]
  have before : s.unmasked = s.ims &&& s.icr := BitVec.and_comm ..
  refine raise_inv inv.permitted inv.flag ?_ ?_ ?_
  · intro high
    rw [swap]
    exact more_unmasked (before ▸ inv.cause high)
  · intro fresh
    rw [swap]
    exact new_unmasked (turn ▸ fresh)
  · intro stale live
    rw [swap] at live
    exact inv.served (before ▸ old_unmasked (turn ▸ stale) live)

theorem lower_inv (permitted : s.pi.intxDis = false)
    (flag : s.pi.lintr = if s.irqAsserted then .asserted else .idle)
    (served : s.unmasked ≠ 0 → s.irqAsserted = false → s.mevpitr ≠ none) : LineInv (lower s) := by
  unfold lower
  split
  · next beyond =>
    rw [deassert_idles permitted]
    exact ⟨rfl, rfl, nofun, fun live => absurd beyond.2 live⟩
  · next on => exact ⟨permitted, flag, fun high masked => on ⟨high, masked⟩, served⟩

section
variable (inv : LineInv s)
include inv

theorem icr_deassert_inv (bits : BitVec 32) : LineInv (icrDeassert s bits) := by
  have fewer : s.unmasked = 0 → (s.icr &&& ~~~bits) &&& s.ims = 0 := by
    intro masked
    rw [BitVec.and_assoc, BitVec.and_comm (~~~bits), ← BitVec.and_assoc]
    exact (congrArg (· &&& ~~~bits) masked).trans zero_and
  exact lower_inv inv.permitted inv.flag fun live => inv.served fun masked => live (fewer masked)

theorem callback_inv : LineInv (itrCallback s) := by
  by_cases idle : s.unmasked ≠ 0 ∧ s.irqAsserted = false
  · rw [callback_asserts inv idle.1 idle.2]
    exact ⟨rfl, rfl, fun _ => idle.1, nofun⟩
  · rw [itrCallback, if_neg idle]
    exact ⟨inv.permitted, inv.flag, inv.cause, fun live low => absurd ⟨live, low⟩ idle⟩

theorem mask_clear_inv {value : BitVec 32}
    (left : s.irqAsserted = true → s.icr &&& (s.ims &&& ~~~value) ≠ 0) :
    LineInv { s with imc := value, ims := s.ims &&& ~~~value } := by
  refine ⟨inv.permitted, inv.flag, left, fun live low => inv.served (fun masked => live ?_) low⟩
  rw [Intr.unmasked, ← BitVec.and_assoc]
  exact (congrArg (· &&& ~~~value) masked).trans zero_and

theorem intr_write_inv {offset value : BitVec 32}
    (spares : Spares s (.write offset value)) : LineInv (intrWrite s offset value) := by
  unfold intrWrite
  split_ifs with icr itr ics ims imc
  · exact icr_deassert_inv inv value
  · exact ⟨inv.permitted, inv.flag, inv.cause, inv.served⟩
  · have stored : LineInv { s with ics := value } :=
      ⟨inv.permitted, inv.flag, inv.cause, inv.served⟩
    exact icr_assert_inv stored value
  · exact ims_change_inv inv value
  · exact mask_clear_inv inv (spares imc)
  · exact inv

theorem icr_read_inv : LineInv (icrDeassert { s with icr := 0 } (BitVec.allOnes 32)) := by
  refine lower_inv inv.permitted inv.flag fun live => absurd ?_ live
  simp [Intr.unmasked]

theorem intr_read_inv (offset : BitVec 32) : LineInv (intrRead s offset).2 := by
  unfold intrRead
  split_ifs
  · exact icr_read_inv inv
  all_goals exact inv

theorem reset_inv (low : s.irqAsserted = false) : LineInv (intrReset s) := by
  have none_left : (intrReset s).unmasked = 0 := zero_and
  have pi : (intrReset s).pi = s.pi := by simp [intrReset, low]
  refine ⟨pi ▸ inv.permitted, pi ▸ inv.flag, fun high => ?_, fun live => absurd none_left live⟩
  have same : (intrReset s).irqAsserted = s.irqAsserted := rfl
  rw [same, low] at high
  cases high

end

theorem step_inv (s : Intr) (e : IntrEvent) (inv : LineInv s) (spares : Spares s e) :
    LineInv (intrStep s e) := by
  cases e with
  | write offset value => exact intr_write_inv inv spares
  | read offset => exact intr_read_inv inv offset
  | cause bits => exact icr_assert_inv inv bits
  | expires =>
    simp only [intrStep]
    split
    · exact callback_inv inv
    · exact inv
  | reset => exact reset_inv inv spares

end

theorem mask_clear_needs {s : Intr} (inv : LineInv s) {value : BitVec 32}
    (sound : LineSound { s with imc := value, ims := s.ims &&& ~~~value })
    (high : s.irqAsserted = true) : s.icr &&& (s.ims &&& ~~~value) ≠ 0 :=
  sound.cause ((line_asserted_iff inv).mpr high)

theorem reset_needs {s : Intr} (inv : LineInv s) (sound : LineSound (intrReset s)) :
    s.irqAsserted = false := by
  cases high : s.irqAsserted with
  | false => rfl
  | true =>
    have asserted := sound.flag.mpr high
    rw [Intr.lineAsserted] at asserted
    have lowered : (intrReset s).pi = ⟨.idle, false⟩ := by
      rw [intrReset, high]
      exact deassert_idles inv.permitted
    rw [lowered] at asserted
    cases asserted

theorem sound_step_iff (s : Intr) (e : IntrEvent) (inv : LineInv s) :
    LineSound (intrStep s e) ↔ Spares s e := by
  constructor
  · intro sound
    cases e with
    | write offset value =>
      intro imc high
      subst imc
      exact mask_clear_needs inv sound high
    | reset => exact reset_needs inv sound
    | _ => trivial
  · intro spares
    exact line_sound (step_inv s e inv spares)

theorem init_inv : LineInv intrInit :=
  ⟨rfl, rfl, nofun, fun live => absurd rfl live⟩

def LineFollows (events : List IntrEvent) : Prop :=
  LineSound intrInit ∧ Along intrStep (fun s e => LineSound (intrStep s e)) intrInit events

theorem line_follows_iff (events : List IntrEvent) :
    LineFollows events ↔ Along intrStep Spares intrInit events := by
  have agree := along_iff_of_invariant step_inv sound_step_iff events intrInit init_inv
  exact ⟨fun holds => agree.mp holds.2, fun spared => ⟨line_sound init_inv, agree.mpr spared⟩⟩

def resetWhilePending : List IntrEvent :=
  [.write regIms 1, .write regIcs 1, .reset, .write regIms 1, .write regIcs 1]

theorem reset_loses_interrupts :
    ¬ LineFollows resetWhilePending ∧ (run intrStep intrInit resetWhilePending).unmasked ≠ 0 ∧
      ¬ (run intrStep intrInit resetWhilePending).lineAsserted := by
  refine ⟨fun holds => ?_, by decide, by decide⟩
  have spared := (line_follows_iff _).mp holds
  have low : (run intrStep intrInit [.write regIms 1, .write regIcs 1]).irqAsserted = false :=
    spared.2.2.1
  exact absurd low (by decide)
end E82545
