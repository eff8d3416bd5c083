import Bhyve.Lib.BitRegisters
import Bhyve.Lib.Pairing
import Bhyve.Lib.StepRuns

/-!
Posted interrupts of vmx.c. Vectors wait in the words of the posted interrupt descriptor (PIR)
until vmx_inject_pir or the processor moves them to the IRR of the APIC page. A vector is an
index below 256. The processor handles a posted interrupt in two steps, between which only senders
may come. The marks in the history are kept for the statements only.
-/
namespace VmmPosted
open BitRegisters Function BitVec

structure VlapicVtx where
  pir : Nat → BitVec 64
  pending : Bool
  pendingPrio : BitVec 32
  irr : Nat → BitVec 32
  ppr : BitVec 8
  guestIntrStatus : BitVec 16

def apicTprInt : BitVec 8 := 0xf0

def vprPrioBit (vpr : BitVec 8) : BitVec 32 := 1 <<< (vpr.toNat >>> 4)

variable (s : VlapicVtx)

def vmxSetIntrReady (vector : BitVec 8) : Bool × VlapicVtx :=
  let s := { s with pir := setBit s.pir vector.toNat }
  if !s.pending then (true, { s with pending := true, pendingPrio := 0 })
  else
    let oldPrio := s.pendingPrio
    let prioBit := vprPrioBit (vector &&& apicTprInt)
    if oldPrio &&& prioBit = 0 ∧ oldPrio < prioBit then
      (true, { s with pendingPrio := oldPrio ||| prioBit })
    else (false, s)

/-- The class of the highest vector in the PIR. -/
def highestVpr (s : VlapicVtx) : BitVec 8 :=
  match highest s.pir 4 with
  | some vector => BitVec.ofNat 8 vector &&& apicTprInt
  | none => 0

/-- The status is the one that the exit of the HLT recorded. -/
def vmxPendingIntr (intrStatus : BitVec 16) : Bool × VlapicVtx :=
  let ppr := s.ppr &&& apicTprInt
  if !s.pending then
    let rvi := intrStatus.setWidth 8 &&& apicTprInt
    (decide (ppr < rvi), s)
  else if ppr = 0 then (true, s)
  else
    let vpr := highestVpr s
    if vpr ≤ ppr then
      let prioBit := vprPrioBit vpr
      let old := s.pendingPrio
      (false, if prioBit < old ∧ old &&& prioBit = 0 then { s with pendingPrio := prioBit } else s)
    else (true, s)

structure Transfer where
  pir : Nat → BitVec 64
  irr : Nat → BitVec 32
  pirbase : Int
  pirval : BitVec 64

def moveWord (t : Transfer) (i : Nat) : Transfer :=
  let val := t.pir i
  let t := { t with pir := update t.pir i 0 }
  if val ≠ 0 then
    let irr := update t.irr (2 * i) (t.irr (2 * i) ||| val.setWidth 32)
    let irr := update irr (2 * i + 1) (irr (2 * i + 1) ||| (val >>> 32).setWidth 32)
    { t with irr := irr, pirbase := 64 * i, pirval := val }
  else t

def moveWords (count : Nat) : Transfer :=
  (List.range count).foldl moveWord ⟨s.pir, s.irr, -1, 0⟩

def vmxInjectPir (s : VlapicVtx) : VlapicVtx :=
  if !s.pending then s
  else
    let t := moveWords s 4
    let s := { s with pending := false, pir := t.pir, irr := t.irr }
    if t.pirval ≠ 0 then
      let rvi := BitVec.ofInt 16 (t.pirbase + fls t.pirval - 1)
      let intrStatusNew := s.guestIntrStatus &&& 0xff00 ||| rvi
      if s.guestIntrStatus < intrStatusNew then { s with guestIntrStatus := intrStatusNew } else s
    else s

def rvi (s : VlapicVtx) : Nat := (s.guestIntrStatus.setWidth 8).toNat

def svi (s : VlapicVtx) : Nat := (s.guestIntrStatus >>> 8).toNat

/-- SVI in the high byte, RVI in the low byte. -/
def intrStatus (svi rvi : Nat) : BitVec 16 := BitVec.ofNat 8 svi ++ BitVec.ofNat 8 rvi

/-- The second step of the processor. The registers of the IRR are half as wide as the words. -/
def processorMove (s : VlapicVtx) : VlapicVtx :=
  { s with
    pir := fun _ => 0
    irr := fun i => s.irr i ||| (s.pir (i / 2) >>> (i % 2 * 32)).setWidth 32
    guestIntrStatus := intrStatus (svi s) (max (rvi s) (top s.pir 4)) }

/-- The processor delivers the vector in RVI when its class is above that of PPR. -/
def processorAccept (s : VlapicVtx) : VlapicVtx :=
  let irr := clearBit s.irr (rvi s)
  { s with
    irr := irr
    ppr := BitVec.ofNat 8 (rvi s) &&& apicTprInt
    guestIntrStatus := intrStatus (rvi s) (top irr 8) }

def prioClass (vector : Nat) : Nat := vector / 16

inductive Mark where
  | sent (vector : Nat)
  | moved (vector : Nat)
  | accepted (vector : Nat)
deriving DecidableEq

/-- The vcpu is in the guest, in the guest between the two steps of a posted interrupt, in the
    hypervisor, or there to sleep after a HLT. -/
inductive Phase where
  | guest
  | posting
  | host
  | halted
deriving DecidableEq

structure Vcpu where
  vtx : VlapicVtx
  phase : Phase
  hltStatus : BitVec 16
  history : List Mark

inductive Event where
  | setIntrReady (vector : BitVec 8)
  | clearPending
  | movePir
  | accept
  | priority (svi : Nat) (ppr : BitVec 8)
  | exit
  | hlt
  | pendingIntr
  | wake
  | injectPir
  | enter

def posted (pir : Nat → BitVec 64) : List Nat := (List.range 256).filter (bit pir)

def Vcpu.noteMoved (c : Vcpu) (vtx : VlapicVtx) (phase : Phase) : Vcpu :=
  { c with vtx := vtx, phase := phase, history := (posted c.vtx.pir).map Mark.moved ++ c.history }

/-- What cannot happen in a phase changes nothing. TPR and EOI writes of the guest, and the
    update of the PPR by the hypervisor, are a change of SVI and PPR. -/
def Vcpu.step (c : Vcpu) : Event → Vcpu
  | .setIntrReady vector =>
      { c with vtx := (vmxSetIntrReady c.vtx vector).2, history := .sent vector.toNat :: c.history }
  | .clearPending =>
      if c.phase = .guest then { c with vtx := { c.vtx with pending := false }, phase := .posting }
      else c
  | .movePir => if c.phase = .posting then c.noteMoved (processorMove c.vtx) .guest else c
  | .accept =>
      if c.phase = .guest ∧ prioClass c.vtx.ppr.toNat < prioClass (rvi c.vtx) then
        { c with vtx := processorAccept c.vtx, history := .accepted (rvi c.vtx) :: c.history }
      else c
  | .priority svi ppr =>
      if c.phase = .halted then { c with vtx := { c.vtx with ppr := ppr } }
      else
        { c with vtx :=
          { c.vtx with ppr := ppr, guestIntrStatus := intrStatus svi (rvi c.vtx) } }
  | .exit => if c.phase = .guest then { c with phase := .host } else c
  | .hlt =>
      if c.phase = .guest then { c with phase := .halted, hltStatus := c.vtx.guestIntrStatus }
      else c
  | .pendingIntr =>
      if c.phase = .halted then { c with vtx := (vmxPendingIntr c.vtx c.hltStatus).2 } else c
  | .wake => if c.phase = .halted then { c with phase := .host } else c
  | .injectPir =>
      if c.phase = .host then
        if c.vtx.pending then c.noteMoved (vmxInjectPir c.vtx) .host else c
      else c
  | .enter => if c.phase = .host then { c with phase := .guest } else c

def Vcpu.start : Vcpu where
  vtx := ⟨fun _ => 0, false, 0, fun _ => 0, 0, 0⟩
  phase := .host
  hltStatus := 0
  history := []

section
variable (h r : Nat) (old : BitVec 16)

theorem rvi_intr_status (byte : r < 256) : ((intrStatus h r).setWidth 8).toNat = r := by
  rw [intrStatus, setWidth_append, dif_pos (Nat.le_refl 8), setWidth_eq,
    toNat_ofNat]
  exact Nat.mod_eq_of_lt byte

theorem status_low (byte : r < 256) :
    (old &&& 0xff00 ||| BitVec.ofNat 16 r).toNat = old.toNat / 256 * 256 + r := by
  have high : old &&& (0xff00 : BitVec 16) = old >>> 8 <<< 8 := by
    apply eq_of_getLsbD_eq
    intro i inside
    have mask : ∀ i : Fin 16, (0xff00 : BitVec 16).getLsbD i = !decide (i.val < 8) := by decide
    rw [getLsbD_and, mask ⟨i, inside⟩, getLsbD_shiftLeft, getLsbD_ushiftRight]
    by_cases low : i < 8
    · simp only [low, decide_true, Bool.not_true, Bool.and_false, Bool.false_and]
    · have place : 8 + (i - 8) = i := by omega
      simp only [low, inside, place, decide_true, decide_false, Bool.not_false, Bool.and_true,
        Bool.true_and]
  have small : old.toNat / 256 * 256 < 65536 := by omega
  have part : BitVec.toNat (old >>> 8 <<< 8) = old.toNat / 256 * 256 := by
    rw [toNat_shiftLeft, toNat_ushiftRight, Nat.shiftRight_eq_div_pow,
      Nat.shiftLeft_eq]
    exact Nat.mod_eq_of_lt small
  have whole : r % 65536 = r := Nat.mod_eq_of_lt (by omega)
  have shifted : old.toNat / 256 * 256 = (old.toNat / 256) <<< 8 := by
    rw [Nat.shiftLeft_eq]
  rw [toNat_or, high, part, toNat_ofNat]
  rw [whole, shifted]
  exact (Nat.shiftLeft_add_eq_or_of_lt byte _).symm

end

/-- What moving the vectors of the PIR to the IRR comes to. -/
structure Moves (s u : VlapicVtx) : Prop where
  emptied : ∀ v < 256, bit u.pir v = false
  joined : ∀ v < 256, bit u.irr v = (bit s.irr v || bit s.pir v)
  raised : rvi u = max (rvi s) (top s.pir 4)
  pendingPrio : u.pendingPrio = s.pendingPrio

theorem top_pir : top s.pir 4 < 256 := by
  by_cases positive : 0 < top s.pir 4
  · exact (top_member positive).1
  · omega

theorem rvi_byte : rvi s < 256 := (s.guestIntrStatus.setWidth 8).isLt

theorem half_bit (pir : Nat → BitVec 64) (v : Nat) :
    ((pir (v / 32 / 2) >>> (v / 32 % 2 * 32)).setWidth 32).getLsbD (v % 32) = bit pir v := by
  have word : v / 32 / 2 = v / 64 := Nat.div_div_eq_div_mul v 32 2
  have place : v / 32 % 2 * 32 + v % 32 = v % 64 := by omega
  rw [getLsbD_setWidth, getLsbD_ushiftRight, word, place,
    decide_eq_true (Nat.mod_lt v (by decide)), Bool.true_and, bit]

theorem processor_moves : Moves s (processorMove s) := by
  refine ⟨fun v _ => ?_, fun v _ => ?_, ?_, rfl⟩
  · exact getLsbD_zero
  · unfold bit processorMove
    rw [getLsbD_or, half_bit, bit]
  · apply rvi_intr_status
    exact Nat.max_lt.mpr ⟨rvi_byte s, top_pir s⟩

theorem joined_word (irr : Nat → BitVec 32) (val : BitVec 64) (i v : Nat) :
    bit (update (update irr (2 * i) (irr (2 * i) ||| val.setWidth 32)) (2 * i + 1)
        (update irr (2 * i) (irr (2 * i) ||| val.setWidth 32) (2 * i + 1) |||
          (val >>> 32).setWidth 32)) v =
      (bit irr v || (decide (v / 64 = i) && val.getLsbD (v % 64))) := by
  have below : v % 32 < 32 := Nat.mod_lt v (by decide)
  have apart : 2 * i + 1 ≠ 2 * i := by omega
  unfold bit
  rw [update_of_ne apart]
  by_cases upper : v / 32 = 2 * i + 1
  · have word : v / 64 = i := by omega
    have place : 32 + v % 32 = v % 64 := by omega
    rw [upper, update_self, getLsbD_or, getLsbD_setWidth,
      getLsbD_ushiftRight, place, decide_eq_true below, decide_eq_true word]
  · rw [update_of_ne upper]
    by_cases lower : v / 32 = 2 * i
    · have word : v / 64 = i := by omega
      have place : v % 32 = v % 64 := by omega
      rw [lower, update_self, getLsbD_or, getLsbD_setWidth,
        decide_eq_true below, decide_eq_true word, place]
    · have word : v / 64 ≠ i := by omega
      rw [update_of_ne lower, decide_eq_false word, Bool.false_and, Bool.or_false]

structure Transfer.Along (t : Transfer) (s : VlapicVtx) (count : Nat) : Prop where
  pir : ∀ i, t.pir i = if i < count then 0 else s.pir i
  irr : ∀ v, bit t.irr v = (bit s.irr v || (decide (v / 64 < count) && bit s.pir v))
  missed : t.pirval = 0 → highest s.pir count = none
  found : t.pirval ≠ 0 → ∃ v : Nat,
    highest s.pir count = some v ∧ t.pirbase + fls t.pirval - 1 = v

theorem move_words (count : Nat) : (moveWords s count).Along s count := by
  induction count with
  | zero =>
    refine ⟨fun i => ?_, fun v => ?_, fun _ => rfl, fun nonzero => ?_⟩
    · rfl
    · rw [decide_eq_false (Nat.not_lt_zero _), Bool.false_and, Bool.or_false]
      rfl
    · exact absurd rfl nonzero
  | succ n ih =>
    have last : moveWords s (n + 1) = moveWord (moveWords s n) n := by
      unfold moveWords
      rw [List.range_succ, List.foldl_append]
      rfl
    rw [last]
    generalize moveWords s n = t at ih
    obtain ⟨pir, irr, missed, found⟩ := ih
    have val : t.pir n = s.pir n := by rw [pir, if_neg (Nat.lt_irrefl n)]
    have cleared (i : Nat) :
        update t.pir n 0 i = if i < n + 1 then 0 else s.pir i := by
      by_cases here : i = n
      · rw [here, update_self, if_pos (Nat.lt_succ_self n)]
      · have order : i < n + 1 ↔ i < n := by omega
        rw [update_of_ne here, pir]
        simp only [order]
    unfold moveWord
    rw [val]
    by_cases some_ : s.pir n ≠ 0
    · rw [if_pos some_]
      refine ⟨cleared, fun v => ?_, fun zero => absurd zero some_, fun _ => ?_⟩
      · rw [joined_word, irr]
        by_cases here : v / 64 = n
        · have before : ¬ v / 64 < n := by omega
          have now : v / 64 < n + 1 := by omega
          rw [decide_eq_false before, decide_eq_true here, decide_eq_true now, Bool.false_and,
            Bool.or_false, bit, bit, here]
        · have order : v / 64 < n + 1 ↔ v / 64 < n := by omega
          simp only [here, order, decide_false, Bool.false_and, Bool.or_false]
      · have nonzero : fls (s.pir n) ≠ 0 := by
          rw [fls, if_neg some_]
          exact Nat.succ_ne_zero _
        dsimp only
        rw [highest, if_pos nonzero]
        exact ⟨n * 64 + (fls (s.pir n) - 1), rfl, by omega⟩
    · rw [if_neg some_]
      have zero : s.pir n = 0 := not_not.mp some_
      have none : fls (s.pir n) = 0 := by rw [fls, if_pos zero]
      have same : highest s.pir (n + 1) = highest s.pir n := by
        rw [highest, none, if_neg (not_not_intro rfl)]
      refine ⟨cleared, fun v => ?_, same ▸ missed, same ▸ found⟩
      · rw [irr]
        by_cases here : v / 64 = n
        · have none : bit s.pir v = false := by
            rw [bit, here, zero]
            exact getLsbD_zero
          rw [none, Bool.and_false, Bool.and_false]
        · have order : v / 64 < n + 1 ↔ v / 64 < n := by omega
          simp only [order]

theorem inject_moves {s : VlapicVtx} (pending : s.pending = true) : Moves s (vmxInjectPir s) := by
  obtain ⟨pir, irr, missed, found⟩ := move_words s 4
  have emptied (v : Nat) (inside : v < 256) : bit (moveWords s 4).pir v = false := by
    have word : v / 64 < 4 := by omega
    rw [bit, pir, if_pos word]
    exact getLsbD_zero
  have joined (v : Nat) (inside : v < 256) :
      bit (moveWords s 4).irr v = (bit s.irr v || bit s.pir v) := by
    have word : v / 64 < 4 := by omega
    rw [irr, decide_eq_true word, Bool.true_and]
  unfold vmxInjectPir
  rw [pending, Bool.not_true, if_neg Bool.false_ne_true]
  dsimp only
  by_cases some_ : (moveWords s 4).pirval ≠ 0
  · obtain ⟨v, highestPir, place⟩ := found some_
    have byte := (highest_some 4 highestPir).1
    have low := status_low v s.guestIntrStatus byte
    have topPir : top s.pir 4 = v := by rw [top, highestPir, Option.getD_some]
    have raised : ((if s.guestIntrStatus < s.guestIntrStatus &&& 0xff00 ||| BitVec.ofNat 16 v then
        s.guestIntrStatus &&& 0xff00 ||| BitVec.ofNat 16 v else s.guestIntrStatus).setWidth 8).toNat =
          max (rvi s) (top s.pir 4) := by
      rw [topPir, rvi, toNat_setWidth, toNat_setWidth]
      split
      · next higher =>
        rw [lt_def, low] at higher
        omega
      · next lower =>
        rw [lt_def, low] at lower
        omega
    rw [if_pos some_, place, ofInt_natCast]
    split
    · next higher =>
      rw [if_pos higher] at raised
      exact ⟨emptied, joined, raised, rfl⟩
    · next lower =>
      rw [if_neg lower] at raised
      exact ⟨emptied, joined, raised, rfl⟩
  · rw [if_neg some_]
    refine ⟨emptied, joined, ?_, rfl⟩
    rw [top, missed (not_not.mp some_), Option.getD_none]
    exact (Nat.max_eq_left (Nat.zero_le _)).symm

end VmmPosted
