import Bhyve.Lib.FreeRunning
import Bhyve.Lib.StepRuns
import Bhyve.Virtio.Virtqueue

namespace Virtio
open FreeRunning StepRuns

/-- The event index lies in the avail ring, after its last slot. -/
def vqUsedEventIdx (vq : VqueueInfo) : BitVec 16 := vq.avail.ring vq.qsize.toNat

structure Ended where
  vq : VqueueInfo
  intr : Bool

def vqEndchains (negotiatedCaps : BitVec 32) (usedAllAvail : Bool) (vq : VqueueInfo) : Ended :=
  let oldIdx := vq.saveUsed
  let newIdx := vq.used.idx
  let intr :=
    if usedAllAvail ∧ negotiatedCaps.setWidth 64 &&& virtioFNotifyOnEmpty ≠ 0 then true
    else if negotiatedCaps.setWidth 64 &&& virtioRingFEventIdx ≠ 0 then
      decide (newIdx - vqUsedEventIdx vq - 1 < newIdx - oldIdx)
    else
      newIdx ≠ oldIdx && !hasFlag vq.avail.flags vringAvailFNoInterrupt
  ⟨{ vq with saveUsed := newIdx }, intr⟩

section

/-- A queue with the number of its entries that are filled, that the guest can see, and that it could
    see at the last vq_endchains. -/
structure Completions where
  vq : VqueueInfo
  released : Nat
  published : Nat
  ended : Nat

inductive Completion where
  | guest (avail : VringAvail)
  | prepare (idx : BitVec 16) (iolen : BitVec 32)
  | publish
  | endchains (usedAllAvail : Bool)

variable (negotiatedCaps : BitVec 32)

def Completions.step (s : Completions) : Completion → Completions
  | .guest avail => { s with vq := { s.vq with avail } }
  | .prepare idx iolen =>
      { s with vq := vqRelchainPrepare s.vq idx iolen, released := s.released + 1 }
  | .publish => { s with vq := vqRelchainPublish s.vq, published := s.released }
  | .endchains usedAllAvail =>
      { s with vq := (vqEndchains negotiatedCaps usedAllAvail s.vq).vq, ended := s.published }

def Completions.start (vq : VqueueInfo) : Completions :=
  ⟨viVqInit { vq with used := { vq.used with idx := 0 } }, 0, 0, 0⟩

/-- The used index went past the event index in the entries since the last call. -/
def Completions.Crosses (s : Completions) : Prop :=
  ∃ n, s.ended < n ∧ n ≤ s.published ∧ counter 16 n = vqUsedEventIdx s.vq + 1

structure Completions.Awaited (s : Completions) (entry : Nat) : Prop where
  after : s.ended ≤ entry
  before : entry < s.published
  same : counter 16 entry = vqUsedEventIdx s.vq

/-- A group of fewer than 2^16 entries is ended with an interrupt exactly when it is due. -/
def Completions.Informs (s : Completions) : Completion → Prop
  | .endchains usedAllAvail =>
      s.published - s.ended < 2 ^ 16 →
        ((vqEndchains negotiatedCaps usedAllAvail s.vq).intr = true ↔
          usedAllAvail = true ∧ negotiatedCaps.setWidth 64 &&& virtioFNotifyOnEmpty ≠ 0 ∨
            s.Crosses) ∧
        ∀ entry, s.Awaited entry → (vqEndchains negotiatedCaps usedAllAvail s.vq).intr = true
  | _ => True

structure Counted (s : Completions) : Prop where
  nextUsed : s.vq.nextUsed = counter 16 s.released
  vuIdx : s.vq.used.idx = counter 16 s.published
  saveUsed : s.vq.saveUsed = counter 16 s.ended
  seen : s.published ≤ s.released
  told : s.ended ≤ s.published

theorem start_counted (vq : VqueueInfo) : Counted (Completions.start vq) :=
  ⟨rfl, rfl, rfl, Nat.le_refl 0, Nat.le_refl 0⟩

theorem step_counted {s : Completions} (counted : Counted s) (e : Completion) :
    Counted (s.step negotiatedCaps e) := by
  obtain ⟨nextUsed, vuIdx, saveUsed, seen, told⟩ := counted
  cases e with
  | guest avail => exact ⟨nextUsed, vuIdx, saveUsed, seen, told⟩
  | prepare idx iolen =>
    have next : s.vq.nextUsed + 1 = counter 16 (s.released + 1) := by
      rw [nextUsed, counter_next]
    exact ⟨next, vuIdx, saveUsed, Nat.le_succ_of_le seen, told⟩
  | publish => exact ⟨nextUsed, nextUsed, saveUsed, Nat.le_refl _, Nat.le_trans told seen⟩
  | endchains usedAllAvail => exact ⟨nextUsed, vuIdx, vuIdx, seen, Nat.le_refl _⟩

theorem awaited_crosses {s : Completions} {entry : Nat} (awaited : s.Awaited entry) : s.Crosses := by
  obtain ⟨after, before, same⟩ := awaited
  exact ⟨entry + 1, Nat.lt_succ_of_le after, before, by rw [← counter_next, same]⟩

theorem counted_informs (eventIdx : negotiatedCaps.setWidth 64 &&& virtioRingFEventIdx ≠ 0)
    {s : Completions} (counted : Counted s) (e : Completion) : s.Informs negotiatedCaps e := by
  cases e with
  | guest => trivial
  | prepare => trivial
  | publish => trivial
  | endchains usedAllAvail =>
    intro few
    have crosses : s.vq.used.idx - vqUsedEventIdx s.vq - 1 < s.vq.used.idx - s.vq.saveUsed ↔
        s.Crosses := by
      rw [counted.vuIdx, counted.saveUsed]
      exact counter_passes counted.told few _
    have due : (vqEndchains negotiatedCaps usedAllAvail s.vq).intr = true ↔
        usedAllAvail = true ∧ negotiatedCaps.setWidth 64 &&& virtioFNotifyOnEmpty ≠ 0 ∨
          s.Crosses := by
      unfold vqEndchains
      dsimp only
      by_cases empty : usedAllAvail = true ∧
          negotiatedCaps.setWidth 64 &&& virtioFNotifyOnEmpty ≠ 0
      · rw [if_pos empty]
        exact ⟨fun _ => .inl empty, fun _ => rfl⟩
      · rw [if_neg empty, if_pos eventIdx, decide_eq_true_iff, crosses]
        exact ⟨.inr, fun either => either.resolve_left empty⟩
    exact ⟨due, fun entry awaited => due.mpr (.inr (awaited_crosses awaited))⟩

/-- Whatever is released and wherever the guest sets the event index. -/
theorem endchains_informs (eventIdx : negotiatedCaps.setWidth 64 &&& virtioRingFEventIdx ≠ 0)
    (vq : VqueueInfo) (events : List Completion) :
    Along (Completions.step negotiatedCaps) (Completions.Informs negotiatedCaps)
      (Completions.start vq) events := by
  have always : Along (Completions.step negotiatedCaps) (fun _ _ => True)
      (Completions.start vq) events := along_of_each (fun _ _ => trivial) _
  exact along_of_invariant (fun s e counted _ => step_counted negotiatedCaps counted e)
    (fun s e counted _ => counted_informs negotiatedCaps eventIdx counted e) events _
    (start_counted vq) always

end

def eventIdxCaps : BitVec 32 := BitVec.twoPow 32 29
def bothCaps : BitVec 32 := BitVec.twoPow 32 29 ||| BitVec.twoPow 32 24

def emptyQueue : VqueueInfo :=
  ⟨4, 0, 0, 0, 0, ⟨0, 0, fun _ => 0⟩, ⟨0, 0, fun _ => ⟨0, 0⟩⟩⟩

def secondAwaited : List Completion :=
  [.guest ⟨0, 2, fun _ => 1⟩, .prepare 0 8, .prepare 1 8, .publish, .endchains false]

theorem endchains_informs_second :
    Along (Completions.step eventIdxCaps) (Completions.Informs eventIdxCaps)
      (Completions.start emptyQueue) secondAwaited :=
  endchains_informs eventIdxCaps (by decide) emptyQueue secondAwaited

theorem interrupt_on_empty :
    ¬∀ (negotiatedCaps : BitVec 32) (vq : VqueueInfo) (events : List Completion),
      negotiatedCaps.setWidth 64 &&& virtioRingFEventIdx ≠ 0 →
        Along (Completions.step negotiatedCaps)
          (fun s e => match e with
            | .endchains usedAllAvail => s.published - s.ended < 2 ^ 16 →
                ((vqEndchains negotiatedCaps usedAllAvail s.vq).intr = true ↔ s.Crosses)
            | _ => True)
          (Completions.start vq) events := by
  intro every
  have call := (every bothCaps emptyQueue [.endchains true] (by decide)).1 (by decide)
  obtain ⟨n, after, before, -⟩ := call.mp (by decide)
  exact absurd (Nat.lt_of_lt_of_le after before) (Nat.lt_irrefl 0)

end Virtio
