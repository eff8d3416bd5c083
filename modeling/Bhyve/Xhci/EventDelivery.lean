import Bhyve.Xhci.EventRing

namespace Xhci
open StepRuns CycleRing List BitVec

structure Ring where
  erstba : BitVec 64
  seg : EventRingSeg
  entries : 2 ≤ seg.tableSize.toNat
  aligned : seg.tablePtr.toNat % 64 = 0
  fits : seg.tablePtr.toNat + 16 * seg.tableSize.toNat ≤ 2 ^ 64

def Ring.guest (ring : Ring) : Guest := ⟨fun _ => ring.seg, fun _ _ => ⟨0, 0, 0⟩⟩

def Ring.size (ring : Ring) : Nat := ring.seg.tableSize.toNat

variable (ring : Ring)

def Ring.ptr (k : Nat) : BitVec 64 :=
  ring.seg.tablePtr + BitVec.ofNat 64 (16 * (k % ring.size))

def lowHalf (x : BitVec 64) : BitVec 64 := mask64Lo x
def highHalf (x : BitVec 64) : BitVec 64 := x >>> 32

def Trb.cycleBit (trb : Trb) : Bool := trb.dwTrb3.getLsbD 0

def pcsOf (cycle : Bool) : BitVec 32 := if cycle then 1 else 0

/-- The controller and the driver: the calls of insert_event with their results, the events that
    the driver has seen, how many of them it has released with a whole write of ERDP, and how many
    it is about to release where only the low half is written. -/
structure Sys where
  rts : Rtsregs
  calls : List (Trb × Nat)
  seen : List Trb
  released : Nat
  latch : Option Nat

def Sys.accepted (s : Sys) : List Trb :=
  (s.calls.filter fun call => call.2 == trbErrorSuccess).map Prod.fst

def Sys.cell (s : Sys) (j : Nat) : Trb := s.rts.erst j

def stamped (n : Nat) (accepted : List Trb) (k : Nat) : Trb :=
  withCycle (accepted.getD k ⟨0, 0, 0⟩) (pcsOf (cycle n k))

def events (s : Sys) : List Trb :=
  (List.range s.accepted.length).map (stamped ring.size s.accepted)

def consume (s : Sys) : Sys :=
  let k := s.seen.length
  if (s.cell (k % ring.size)).cycleBit = cycle ring.size k then
    { s with seen := s.seen ++ [s.cell (k % ring.size)] }
  else s

inductive RingEvent where
  | insert (evtrb : Trb) (doIntr : Bool)
  | consume
  | erdpLo (count : Nat) (busy : Bool)
  | erdpHi

def insert (evtrb : Trb) (doIntr : Bool) (s : Sys) : Sys :=
  { s with
    rts := (insertEvent evtrb doIntr s.rts).2
    calls := s.calls ++ [(evtrb, (insertEvent evtrb doIntr s.rts).1)] }

def releaseLo (count : Nat) (busy : Bool) (s : Sys) : Sys :=
  if s.released ≤ count ∧ count ≤ s.seen.length then
    { s with
      rts := rtsregsWrite ring.guest 0x18
        (lowHalf (ring.ptr count) ||| if busy then erdpLoBusy else 0) s.rts
      latch := some count }
  else s

def releaseHi (s : Sys) : Sys :=
  match s.latch with
  | some count =>
      { s with
        rts := rtsregsWrite ring.guest 0x1c (highHalf (ring.ptr count)) s.rts
        released := count
        latch := none }
  | none => s

def ringStep (s : Sys) : RingEvent → Sys
  | .insert evtrb doIntr => insert evtrb doIntr s
  | .consume => consume ring s
  | .erdpLo count busy => releaseLo ring count busy s
  | .erdpHi => releaseHi ring s

def ringInit (rts : Rtsregs) : Sys :=
  let writes := [(0x10, lowHalf ring.erstba), (0x14, highHalf ring.erstba),
    (0x18, lowHalf (ring.ptr 0)), (0x1c, highHalf (ring.ptr 0))]
  ⟨writes.foldl (fun rts write => rtsregsWrite ring.guest write.1 write.2 rts) (reset rts),
    [], [], 0, none⟩

structure Delivers (ring : Ring) (s : Sys) : Prop where
  inOrder : s.seen <+: events ring s
  held : ∀ k, s.seen.length ≤ k → k < s.accepted.length →
    s.cell (k % ring.size) = stamped ring.size s.accepted k
  delivered : ∀ more, s.accepted.length ≤ s.seen.length + more →
    ((consume ring)^[more] s).seen = events ring s
  alternates : s.rts.eventPcs = pcsOf (cycle ring.size s.accepted.length)
  counted : s.rts.erEventsCnt.toNat + s.released = s.accepted.length
  reported : ∀ call ∈ s.calls, call.2 = trbErrorSuccess ∨ call.2 = trbErrorEvRingFull

/-- An event is inserted while at least two entries are released, and below the index from which an
    int is negative. -/
def HasRoom (s : Sys) : RingEvent → Prop
  | .insert _ _ =>
      s.accepted.length + 1 < s.released + ring.size ∧ s.rts.erEnqIdx.toNat < 2 ^ 31
  | _ => True

section
variable {ring : Ring}

theorem ring_positive (ring : Ring) : 0 < ring.size := Nat.zero_lt_of_lt ring.entries

theorem cell_offset (k : Nat) : 16 * (k % ring.size) < 2 ^ 64 := by
  have inside := Nat.mod_lt k (ring_positive ring)
  have size : ring.size = ring.seg.tableSize.toNat := rfl
  omega

theorem ptr_toNat (k : Nat) : (ring.ptr k).toNat = ring.seg.tablePtr.toNat + 16 * (k % ring.size) := by
  have inside := Nat.mod_lt k (ring_positive ring)
  have fits := ring.fits
  have size : ring.size = ring.seg.tableSize.toNat := rfl
  rw [Ring.ptr, toNat_add, toNat_ofNat, Nat.mod_eq_of_lt (cell_offset k),
    Nat.mod_eq_of_lt (by omega)]

theorem ptr_low (k : Nat) {i : Nat} (low : i < 4) : (ring.ptr k).getLsbD i = false := by
  have whole : (ring.ptr k).toNat = 2 ^ 4 * (ring.seg.tablePtr.toNat / 16 + k % ring.size) := by
    have aligned := ring.aligned
    rw [ptr_toNat]
    omega
  rw [← testBit_toNat, whole, Nat.testBit_two_pow_mul]
  simp [Nat.not_le_of_lt low]

theorem ptr_index (k : Nat) :
    (((ring.ptr k - ring.seg.tablePtr) / 16).setWidth 32 : BitVec 32).toNat = k % ring.size := by
  have inside := Nat.mod_lt k (ring_positive ring)
  have bound : ring.size < 2 ^ 32 := ring.seg.tableSize.isLt
  have offset : ring.ptr k - ring.seg.tablePtr = BitVec.ofNat 64 (16 * (k % ring.size)) := by
    rw [Ring.ptr, BitVec.add_comm, BitVec.add_sub_cancel]
  rw [offset, toNat_setWidth, toNat_udiv, toNat_ofNat,
    Nat.mod_eq_of_lt (cell_offset k), show ((16 : BitVec 64).toNat) = 16 from rfl,
    Nat.mul_div_cancel_left _ (by decide), Nat.mod_eq_of_lt (by omega)]

theorem lo_mask_bit (i : Nat) : (0xffffffff : BitVec 64).getLsbD i = decide (i < 32) := by
  rw [show (0xffffffff : BitVec 64) = BitVec.ofNat 64 (2 ^ 32 - 1) from rfl, getLsbD_ofNat,
    Nat.testBit_two_pow_sub_one]
  by_cases below : i < 32 <;> simp [below]
  omega

theorem nibble_bit (i : Nat) : (0xf : BitVec 64).getLsbD i = decide (i < 4) := by
  rw [show (0xf : BitVec 64) = BitVec.ofNat 64 (2 ^ 4 - 1) from rfl, getLsbD_ofNat,
    Nat.testBit_two_pow_sub_one]
  by_cases below : i < 4 <;> simp [below]
  omega

theorem busy_bit (i : Nat) : erdpLoBusy.getLsbD i = decide (i = 3) := by
  rw [show erdpLoBusy = BitVec.ofNat 64 (2 ^ 3) from rfl, getLsbD_ofNat, Nat.testBit_two_pow]
  by_cases same : i = 3 <;> simp [same]
  omega

def LowWritten (ptr erdp : BitVec 64) : Prop :=
  ∀ i, 4 ≤ i → i < 32 → erdp.getLsbD i = ptr.getLsbD i

theorem erdp_lo_bit (value : BitVec 64) (rts : Rtsregs) {i : Nat} (above : 4 ≤ i) (below : i < 32) :
    (writeErdpLo value rts).erdp.getLsbD i = value.getLsbD i := by
  have inside : i < 64 := by omega
  have apart : i ≠ 3 := by omega
  simp only [writeErdpLo]
  split
  all_goals
    simp only [mask64Hi, getLsbD_and, getLsbD_or, getLsbD_not, lo_mask_bit,
      nibble_bit, busy_bit, below, inside, apart, Nat.not_lt.mpr above, decide_true, decide_false,
      Bool.not_true, Bool.not_false, Bool.and_false, Bool.and_true, Bool.false_or]

theorem low_written (ptr : BitVec 64) (busy : Bool) (rts : Rtsregs) :
    LowWritten ptr (writeErdpLo (lowHalf ptr ||| if busy then erdpLoBusy else 0) rts).erdp := by
  intro i above below
  have apart : i ≠ 3 := by omega
  rw [erdp_lo_bit _ _ above below, getLsbD_or, lowHalf, mask64Lo, getLsbD_and,
    lo_mask_bit, decide_eq_true below, Bool.and_true]
  cases busy
  · simp
  · simp only [if_true, busy_bit, apart, decide_false, Bool.or_false]

theorem high_written {ptr erdp : BitVec 64} (low : LowWritten ptr erdp)
    (aligned : ∀ i, i < 4 → ptr.getLsbD i = false) :
    (highHalf ptr <<< 32 ||| mask64Lo erdp) &&& ~~~0xf = ptr := by
  apply eq_of_getLsbD_eq
  intro i inside
  simp only [highHalf, mask64Lo, getLsbD_and, getLsbD_or, getLsbD_not,
    getLsbD_shiftLeft, getLsbD_ushiftRight, lo_mask_bit, nibble_bit]
  rcases Nat.lt_or_ge i 4 with first | above
  · simp [first, aligned i first]
  · rcases Nat.lt_or_ge i 32 with second | third
    · simp [second, inside, Nat.not_lt.mpr above, low i above second, -getLsbD_eq_getElem]
    · have place : 32 + (i - 32) = i := by omega
      simp [Nat.not_lt.mpr third, Nat.not_lt.mpr above, inside, place]

end

section
variable {ring : Ring} {s : Sys}

structure RingInv (ring : Ring) (s : Sys) : Prop where
  seg : s.rts.seg = ring.seg
  index : s.rts.erEnqIdx.toNat = s.accepted.length % ring.size
  holds : Holds ring.size s.cell (stamped ring.size s.accepted) Trb.cycleBit s.accepted.length
  pcs : s.rts.eventPcs = pcsOf (cycle ring.size s.accepted.length)
  count : s.rts.erEventsCnt.toNat + s.released = s.accepted.length
  room : s.accepted.length < s.released + ring.size
  seen : s.seen = (List.range s.seen.length).map (stamped ring.size s.accepted)
  behind : s.released ≤ s.seen.length
  ahead : s.seen.length ≤ s.accepted.length
  latch : ∀ p, s.latch = some p →
    s.released ≤ p ∧ p ≤ s.seen.length ∧ LowWritten (ring.ptr p) s.rts.erdp
  reported : ∀ call ∈ s.calls, call.2 = trbErrorSuccess ∨ call.2 = trbErrorEvRingFull

theorem stamped_bit (n : Nat) (accepted : List Trb) (k : Nat) :
    (stamped n accepted k).cycleBit = cycle n k := by
  cases turn : cycle n k <;> simp [stamped, turn, Trb.cycleBit, withCycle, pcsOf, trb3CycleBit]

theorem stamped_append {n : Nat} {accepted : List Trb} {k : Nat} (old : k < accepted.length)
    (trb : Trb) : stamped n (accepted ++ [trb]) k = stamped n accepted k := by
  simp [stamped, getElem?_append_left old]

theorem stamped_last (n : Nat) (accepted : List Trb) (trb : Trb) :
    stamped n (accepted ++ [trb]) accepted.length = withCycle trb (pcsOf (cycle n accepted.length)) := by
  simp [stamped]

theorem pcs_turns (turn : Bool) : pcsOf turn ^^^ 1 = pcsOf (!turn) := by
  cases turn <;> decide

theorem cell_waiting (inv : RingInv ring s) {k : Nat} (unseen : s.seen.length ≤ k)
    (there : k < s.accepted.length) : s.cell (k % ring.size) = stamped ring.size s.accepted k := by
  have behind := inv.behind
  have room := inv.room
  exact inv.holds.latest k there (by omega)

theorem cell_next (inv : RingInv ring s) :
    (s.cell (s.accepted.length % ring.size)).cycleBit ≠ cycle ring.size s.accepted.length :=
  holds_stops inv.holds (ring_positive ring) fun k _ => stamped_bit ring.size s.accepted k

end

section
variable {ring : Ring} {s : Sys}

theorem consume_takes (inv : RingInv ring s) (there : s.seen.length < s.accepted.length) :
    consume ring s =
      { s with seen := s.seen ++ [stamped ring.size s.accepted s.seen.length] } := by
  rw [consume, cell_waiting inv le_rfl there, if_pos (stamped_bit _ _ _)]

theorem consume_rests (inv : RingInv ring s) (done : s.seen.length = s.accepted.length) :
    consume ring s = s := by
  rw [consume, if_neg]
  rw [done]
  exact cell_next inv

theorem consume_inv (inv : RingInv ring s) : RingInv ring (consume ring s) := by
  rcases Nat.lt_or_ge s.seen.length s.accepted.length with there | done
  · rw [consume_takes inv there]
    refine { inv with seen := ?_, behind := ?_, ahead := ?_, latch := ?_ }
    · simp only [length_append, length_cons, length_nil, Nat.zero_add, range_succ,
        map_append, map_cons, map_nil]
      exact congrArg (· ++ _) inv.seen
    · simp only [length_append, length_cons, length_nil]
      exact Nat.le_succ_of_le inv.behind
    · simp only [length_append, length_cons, length_nil]
      exact there
    · intro p latched
      obtain ⟨above, below, low⟩ := inv.latch p latched
      refine ⟨above, ?_, low⟩
      simp only [length_append, length_cons, length_nil]
      exact Nat.le_succ_of_le below
  · rw [consume_rests inv (Nat.le_antisymm inv.ahead done)]
    exact inv

theorem consume_accepted (ring : Ring) (s : Sys) : (consume ring s).accepted = s.accepted := by
  simp only [consume, Sys.accepted]
  split <;> rfl

theorem consume_all (more : Nat) : ∀ s, RingInv ring s → s.accepted.length ≤ s.seen.length + more →
    ((consume ring)^[more] s).seen = events ring s := by
  induction more with
  | zero =>
    intro s inv all
    rw [events, ← Nat.le_antisymm inv.ahead all]
    exact inv.seen
  | succ more ih =>
    intro s inv all
    have same : events ring (consume ring s) = events ring s := by
      rw [events, consume_accepted]
      rfl
    rw [Function.iterate_succ_apply, ← same]
    apply ih _ (consume_inv inv)
    rw [consume_accepted]
    rcases Nat.lt_or_ge s.seen.length s.accepted.length with there | done
    · rw [consume_takes inv there]
      simp only [length_append, length_cons, length_nil]
      omega
    · rw [consume_rests inv (Nat.le_antisymm inv.ahead done)]
      omega

theorem inv_delivers (inv : RingInv ring s) : Delivers ring s where
  inOrder := by
    rw [inv.seen, events]
    obtain ⟨rest, total⟩ := Nat.exists_eq_add_of_le inv.ahead
    rw [total, range_add, map_append]
    exact prefix_append _ _
  held := fun _ unseen there => cell_waiting inv unseen there
  delivered := fun more all => consume_all more s inv all
  alternates := inv.pcs
  counted := inv.count
  reported := inv.reported

end

section
variable {ring : Ring} {s : Sys}

theorem assert_same (doIntr : Bool) (rts : Rtsregs) :
    (assertInterrupt doIntr rts).seg = rts.seg ∧ (assertInterrupt doIntr rts).erst = rts.erst ∧
      (assertInterrupt doIntr rts).erEnqIdx = rts.erEnqIdx ∧
      (assertInterrupt doIntr rts).erEventsCnt = rts.erEventsCnt ∧
      (assertInterrupt doIntr rts).eventPcs = rts.eventPcs := by
  cases doIntr <;> exact ⟨rfl, rfl, rfl, rfl, rfl⟩

theorem assert_low {ptr : BitVec 64} {rts : Rtsregs} (low : LowWritten ptr rts.erdp)
    (doIntr : Bool) : LowWritten ptr (assertInterrupt doIntr rts).erdp := by
  intro i above below
  have apart : i ≠ 3 := by omega
  cases doIntr with
  | false => exact low i above below
  | true =>
    show (rts.erdp ||| erdpLoBusy).getLsbD i = ptr.getLsbD i
    rw [getLsbD_or, busy_bit, decide_eq_false apart, Bool.or_false]
    exact low i above below

theorem put_same (trb : Trb) (rts : Rtsregs) :
    (putEvent trb rts).seg = rts.seg ∧ (putEvent trb rts).erdp = rts.erdp ∧
      (putEvent trb rts).erst =
        Function.update rts.erst rts.erEnqIdx.toInt (withCycle trb rts.eventPcs) ∧
      (putEvent trb rts).erEnqIdx = (rts.erEnqIdx + 1) % rts.seg.tableSize ∧
      (putEvent trb rts).erEventsCnt = rts.erEventsCnt := by
  unfold putEvent turnPcs
  split <;> exact ⟨rfl, rfl, rfl, rfl, rfl⟩

theorem put_pcs (trb : Trb) (rts : Rtsregs) : (putEvent trb rts).eventPcs =
      if (rts.erEnqIdx + 1) % rts.seg.tableSize = 0 then rts.eventPcs ^^^ 1 else rts.eventPcs := by
  unfold putEvent turnPcs enqueue
  split <;> rfl

theorem size_at (inv : RingInv ring s) : s.rts.seg.tableSize.toNat = ring.size := by
  rw [inv.seg]
  rfl

theorem next_index (inv : RingInv ring s) : ((s.rts.erEnqIdx + 1) % s.rts.seg.tableSize).toNat =
      (s.accepted.length + 1) % ring.size := by
  have inside := Nat.mod_lt s.accepted.length (ring_positive ring)
  have bound : ring.size < 2 ^ 32 := ring.seg.tableSize.isLt
  have step : (s.rts.erEnqIdx + 1).toNat = s.accepted.length % ring.size + 1 := by
    rw [toNat_add, inv.index]
    exact Nat.mod_eq_of_lt (by simp; omega)
  rw [toNat_umod, step, size_at inv, Nat.mod_add_mod]

theorem wraps_iff (inv : RingInv ring s) : (s.rts.erEnqIdx + 1) % s.rts.seg.tableSize = 0 ↔
      (s.accepted.length + 1) % ring.size = 0 := by
  rw [← next_index inv]
  exact ⟨fun zero => congrArg BitVec.toNat zero, fun zero => eq_of_toNat_eq zero⟩

theorem next_pcs (inv : RingInv ring s) (trb : Trb) : (putEvent trb (countEvent s.rts)).eventPcs =
      pcsOf (cycle ring.size (s.accepted.length + 1)) := by
  rw [put_pcs]
  split
  · next wraps =>
    rw [cycle_wraps ((wraps_iff inv).mp wraps), ← pcs_turns]
    exact congrArg (· ^^^ 1) inv.pcs
  · next inside =>
    rw [cycle_stays fun wraps => inside ((wraps_iff inv).mpr wraps)]
    exact inv.pcs

theorem insert_room (inv : RingInv ring s) (two : s.accepted.length + 1 < s.released + ring.size)
    (trb : Trb) (doIntr : Bool) : insertEvent trb doIntr s.rts =
      (trbErrorSuccess, assertInterrupt doIntr (putEvent trb (countEvent s.rts))) := by
  have count := inv.count
  have size := size_at inv
  have last : (s.rts.seg.tableSize - 1).toNat = ring.size - 1 := by
    rw [toNat_sub_of_le (by rw [le_def, size]; simp; omega), size]
    rfl
  rw [insertEvent, if_neg, if_neg]
  · intro same
    have := congrArg BitVec.toNat same
    omega
  · show ¬ s.rts.seg.tableSize ≤ s.rts.erEventsCnt
    rw [le_def]
    omega

theorem accepted_success (trb : Trb) (s : Sys) (rts : Rtsregs) :
    ({ s with rts := rts, calls := s.calls ++ [(trb, trbErrorSuccess)] } : Sys).accepted =
      s.accepted ++ [trb] := by
  simp [Sys.accepted]

theorem accepted_refused (trb : Trb) (s : Sys) (rts : Rtsregs) :
    ({ s with rts := rts, calls := s.calls ++ [(trb, trbErrorEvRingFull)] } : Sys).accepted =
      s.accepted := by
  simp [Sys.accepted, trbErrorSuccess, trbErrorEvRingFull]

theorem int_index {x : BitVec 32} (low : x.toNat < 2 ^ 31) : x.toInt = (x.toNat : Int) :=
  toInt_eq_toNat_of_lt (by omega)

theorem negative_index {x : BitVec 32} (high : ¬ x.toNat < 2 ^ 31) (j : Nat) : (j : Int) ≠ x.toInt := by
  rw [toInt_eq_toNat_cond]
  split <;> omega

theorem insert_inv (inv : RingInv ring s) {trb : Trb} {doIntr : Bool}
    (two : s.accepted.length + 1 < s.released + ring.size) (low : s.rts.erEnqIdx.toNat < 2 ^ 31) :
    RingInv ring (insert trb doIntr s) := by
  have taken := accepted_success trb s (assertInterrupt doIntr (putEvent trb (countEvent s.rts)))
  have index := next_index inv
  obtain ⟨seg, erst, enq, count, pcs⟩ := assert_same doIntr (putEvent trb (countEvent s.rts))
  obtain ⟨seg', erdp', erst', enq', count'⟩ := put_same trb (countEvent s.rts)
  have counted : (s.rts.erEventsCnt + 1).toNat = s.rts.erEventsCnt.toNat + 1 := by
    have total := inv.count
    have bound : ring.size < 2 ^ 32 := ring.seg.tableSize.isLt
    exact Nat.mod_eq_of_lt (by simp; omega)
  have longer : (s.accepted ++ [trb]).length = s.accepted.length + 1 := by simp
  have written : ∀ j : Nat, (assertInterrupt doIntr (putEvent trb (countEvent s.rts))).erst j =
      if j = s.accepted.length % ring.size then
        withCycle trb (pcsOf (cycle ring.size s.accepted.length))
      else s.cell j := by
    intro j
    rw [erst, erst', Function.update_apply]
    show (if (j : Int) = s.rts.erEnqIdx.toInt then withCycle trb s.rts.eventPcs else s.cell j) = _
    rw [int_index low, inv.index, inv.pcs]
    simp only [Nat.cast_inj]
  unfold insert
  rw [insert_room inv two]
  refine ⟨(seg.trans seg').trans inv.seg, ?_, ?_, ?_, ?_, ?_, ?_, inv.behind, ?_, ?_, ?_⟩
  · rw [taken, longer, enq, enq']
    exact index
  · rw [taken, longer]
    have old := holds_congr inv.holds (fun _ _ => rfl)
      (fun k below => stamped_append below trb) (ring_positive ring)
    refine holds_write old (ring_positive ring) ?_ fun j _ apart => ?_
    · rw [stamped_last, Sys.cell, written, if_pos rfl]
    · rw [Sys.cell, written, if_neg apart]
  · rw [taken, longer, pcs]
    exact next_pcs inv trb
  · rw [taken, longer, count, count']
    show (s.rts.erEventsCnt + 1).toNat + s.released = s.accepted.length + 1
    have total := inv.count
    omega
  · rw [taken, longer]
    exact two
  · rw [taken]
    refine inv.seen.trans (map_congr_left fun k member => (stamped_append ?_ trb).symm)
    exact Nat.lt_of_lt_of_le (List.mem_range.mp member) inv.ahead
  · rw [taken, longer]
    exact Nat.le_succ_of_le inv.ahead
  · intro p latched
    obtain ⟨above, below, written_low⟩ := inv.latch p latched
    exact ⟨above, below, assert_low (erdp' ▸ written_low) doIntr⟩
  · intro call member
    rcases List.mem_append.mp member with old | new
    · exact inv.reported call old
    · rw [List.mem_singleton.mp new]
      exact .inl rfl

theorem last_entry_miscounts (inv : RingInv ring s)
    (one : s.accepted.length + 1 = s.released + ring.size) (trb : Trb) (doIntr : Bool) :
    ¬ Delivers ring (insert trb doIntr s) := by
  intro delivers
  have counted := delivers.counted
  have count := inv.count
  have size := size_at inv
  have full : s.rts.erEventsCnt.toNat = ring.size - 1 := by omega
  have last : s.rts.erEventsCnt = s.rts.seg.tableSize - 1 := by
    apply eq_of_toNat_eq
    rw [toNat_sub_of_le (by rw [le_def, size]; simp; omega), size, full]
    rfl
  have below : ¬ s.rts.erEventsCnt ≥ s.rts.seg.tableSize := by
    show ¬ s.rts.seg.tableSize ≤ s.rts.erEventsCnt
    rw [le_def]
    omega
  unfold insert insertEvent at counted
  rw [if_neg below, if_pos last] at counted
  split at counted
  · obtain ⟨-, -, -, same, -⟩ := assert_same true (enqueue (ringFullEvent s.rts) (countEvent s.rts))
    have more : (s.rts.erEventsCnt + 1).toNat = s.rts.erEventsCnt.toNat + 1 := by
      exact Nat.mod_eq_of_lt (by simp; omega)
    rw [accepted_refused, same] at counted
    have step : (s.rts.erEventsCnt + 1).toNat + s.released = s.accepted.length := counted
    omega
  · obtain ⟨-, -, -, same, -⟩ := assert_same doIntr (putEvent trb s.rts)
    obtain ⟨-, -, -, -, put⟩ := put_same trb s.rts
    rw [accepted_success, same, put, length_append] at counted
    have kept : s.rts.erEventsCnt.toNat + s.released = s.accepted.length + 1 := counted
    omega

theorem far_entry_missed (inv : RingInv ring s)
    (two : s.accepted.length + 1 < s.released + ring.size) (high : ¬ s.rts.erEnqIdx.toNat < 2 ^ 31)
    (trb : Trb) (doIntr : Bool) : ¬ Delivers ring (insert trb doIntr s) := by
  intro delivers
  have held := delivers.held s.accepted.length
  have taken := accepted_success trb s (assertInterrupt doIntr (putEvent trb (countEvent s.rts)))
  obtain ⟨-, erst, -, -, -⟩ := assert_same doIntr (putEvent trb (countEvent s.rts))
  obtain ⟨-, -, erst', -, -⟩ := put_same trb (countEvent s.rts)
  unfold insert at held
  rw [insert_room inv two, taken] at held
  have there := held inv.ahead (by simp)
  rw [Sys.cell, erst, erst', Function.update_of_ne] at there
  · refine cell_next inv ?_
    rw [← stamped_bit ring.size (s.accepted ++ [trb]) s.accepted.length, ← there]
    rfl
  · exact negative_index high _

end

section
variable {ring : Ring} {s : Sys}

theorem erdp_lo_same (value : BitVec 64) (rts : Rtsregs) :
    (writeErdpLo value rts).seg = rts.seg ∧ (writeErdpLo value rts).erst = rts.erst ∧
      (writeErdpLo value rts).erEnqIdx = rts.erEnqIdx ∧
      (writeErdpLo value rts).erEventsCnt = rts.erEventsCnt ∧
      (writeErdpLo value rts).eventPcs = rts.eventPcs := by
  simp only [writeErdpLo]
  split <;> exact ⟨rfl, rfl, rfl, rfl, rfl⟩

theorem erdp_hi_same (value : BitVec 64) (rts : Rtsregs) :
    (writeErdpHi value rts).seg = rts.seg ∧ (writeErdpHi value rts).erst = rts.erst ∧
      (writeErdpHi value rts).erEnqIdx = rts.erEnqIdx ∧
      (writeErdpHi value rts).eventPcs = rts.eventPcs := by
  simp only [writeErdpHi]
  split <;> exact ⟨rfl, rfl, rfl, rfl⟩

theorem holds_same {s' : Sys} (inv : RingInv ring s) (erst : s'.rts.erst = s.rts.erst)
    (accepted : s'.accepted = s.accepted) :
    Holds ring.size s'.cell (stamped ring.size s'.accepted) Trb.cycleBit s'.accepted.length := by
  rw [accepted]
  exact holds_congr inv.holds (fun j _ => congrFun erst j) (fun _ _ => rfl) (ring_positive ring)

theorem release_lo_inv (inv : RingInv ring s) (count : Nat) (busy : Bool) :
    RingInv ring (releaseLo ring count busy s) := by
  unfold releaseLo
  split
  · next order =>
    obtain ⟨seg, erst, enq, cnt, pcs⟩ :=
      erdp_lo_same (lowHalf (ring.ptr count) ||| if busy then erdpLoBusy else 0) s.rts
    refine ⟨seg.trans inv.seg, (congrArg BitVec.toNat enq).trans inv.index, ?_, pcs.trans inv.pcs,
      ?_, inv.room, inv.seen, inv.behind, inv.ahead, ?_, inv.reported⟩
    · exact holds_same inv erst rfl
    · exact (congrArg (fun c => c.toNat + s.released) cnt).trans inv.count
    · intro p latched
      cases latched
      exact ⟨order.1, order.2, low_written (ring.ptr count) busy s.rts⟩
  · exact inv

theorem events_left (inv : RingInv ring s) {p : Nat} (released : s.released ≤ p)
    (ahead : p ≤ s.accepted.length) {rts : Rtsregs} (seg : rts.seg = ring.seg)
    (enq : rts.erEnqIdx = s.rts.erEnqIdx) (erdp : rts.erdp &&& ~~~0xf = ring.ptr p) :
    (eventsLeft rts).toNat + p = s.accepted.length := by
  have inside := Nat.mod_lt p (ring_positive ring)
  have room := inv.room
  have size : rts.seg.tableSize.toNat = ring.size := by
    rw [seg]
    rfl
  obtain ⟨left, total⟩ := Nat.exists_eq_add_of_le ahead
  have index : rts.erEnqIdx.toNat = (p + left) % ring.size := by rw [enq, inv.index, total]
  have after := @CycleRing.cell_after ring.size p left (by omega)
  have placed : (BitVec.ofNat 32 (p % ring.size)).toNat = p % ring.size := by
    rw [toNat_ofNat, Nat.mod_eq_of_lt (by omega)]
  have place : (((rts.erdp &&& ~~~0xf) - rts.seg.tablePtr) / 16).setWidth 32 =
      BitVec.ofNat 32 (p % ring.size) := by
    apply eq_of_toNat_eq
    rw [erdp, seg, ptr_index]
    exact placed.symm
  rw [total, eventsLeft, place]
  simp only [le_def, placed, index]
  split
  · next first =>
    rw [toNat_sub_of_le (by rw [le_def, placed, index]; exact first), placed, index]
    split at after <;> omega
  · next second =>
    have apart : (BitVec.ofNat 32 (p % ring.size) - rts.erEnqIdx).toNat =
        p % ring.size - (p + left) % ring.size := by
      rw [toNat_sub_of_le (by rw [le_def, placed, index]; omega), placed, index]
    rw [toNat_sub_of_le (by rw [le_def, apart, size]; omega), apart, size]
    split at after <;> omega

theorem release_hi_inv (inv : RingInv ring s) : RingInv ring (releaseHi ring s) := by
  unfold releaseHi
  split
  · next p latched =>
    obtain ⟨released, below, low⟩ := inv.latch p latched
    obtain ⟨seg, erst, enq, pcs⟩ := erdp_hi_same (highHalf (ring.ptr p)) s.rts
    have ahead := Nat.le_trans below inv.ahead
    refine ⟨seg.trans inv.seg, (congrArg BitVec.toNat enq).trans inv.index, ?_, pcs.trans inv.pcs,
      ?_, ?_, inv.seen, below, inv.ahead, nofun, inv.reported⟩
    · exact holds_same inv erst rfl
    · have erdp := high_written low fun i first => ptr_low p first
      have left := @events_left ring s inv p released ahead
        { s.rts with erdp := highHalf (ring.ptr p) <<< 32 ||| mask64Lo s.rts.erdp } inv.seg rfl erdp
      have count := inv.count
      show (writeErdpHi (highHalf (ring.ptr p)) s.rts).erEventsCnt.toNat + p = s.accepted.length
      simp only [writeErdpHi]
      split
      · exact left
      · next none_left =>
        have zero : s.rts.erEventsCnt.toNat = 0 := by
          have least : ¬ 0 < s.rts.erEventsCnt.toNat := none_left
          omega
        show s.rts.erEventsCnt.toNat + p = s.accepted.length
        omega
    · exact Nat.lt_of_lt_of_le inv.room (Nat.add_le_add_right released ring.size)
  · exact inv

end

section
variable {ring : Ring}

theorem ring_step_inv (s : Sys) (e : RingEvent) (inv : RingInv ring s) (room : HasRoom ring s e) :
    RingInv ring (ringStep ring s e) := by
  cases e with
  | insert evtrb doIntr => exact insert_inv inv room.1 room.2
  | consume => exact consume_inv inv
  | erdpLo count busy => exact release_lo_inv inv count busy
  | erdpHi => exact release_hi_inv inv

theorem delivers_step_iff (s : Sys) (e : RingEvent) (inv : RingInv ring s) :
    Delivers ring (ringStep ring s e) ↔ HasRoom ring s e := by
  constructor
  · intro delivers
    cases e with
    | insert evtrb doIntr =>
      have room := inv.room
      by_cases two : s.accepted.length + 1 < s.released + ring.size
      · refine ⟨two, ?_⟩
        by_contra high
        exact far_entry_missed inv two high evtrb doIntr delivers
      · exact absurd delivers (last_entry_miscounts inv (by omega) evtrb doIntr)
    | _ => trivial
  · intro room
    exact inv_delivers (ring_step_inv s e inv room)

theorem init_inv (ring : Ring) (rts : Rtsregs) : RingInv ring (ringInit ring rts) := by
  have zero : 0 % ring.size = 0 := Nat.zero_mod _
  obtain ⟨seg, erst, enq, cnt, pcs⟩ := erdp_lo_same (lowHalf (ring.ptr 0))
    (writeErstbaHi ring.guest (highHalf ring.erstba)
      (rtsregsWrite ring.guest 0x10 (lowHalf ring.erstba) (reset rts)))
  obtain ⟨seg', erst', enq', pcs'⟩ := erdp_hi_same (highHalf (ring.ptr 0))
    (writeErdpLo (lowHalf (ring.ptr 0)) (writeErstbaHi ring.guest (highHalf ring.erstba)
      (rtsregsWrite ring.guest 0x10 (lowHalf ring.erstba) (reset rts))))
  have first : pcsOf (cycle ring.size 0) = 1 := by
    rw [cycle_first (ring_positive ring)]
    rfl
  refine ⟨seg'.trans seg, ?_, ?_, (pcs'.trans pcs).trans first.symm, ?_, ?_, rfl, le_rfl, le_rfl,
    nofun, nofun⟩
  · exact (congrArg BitVec.toNat (enq'.trans enq)).trans zero.symm
  · refine ⟨fun _ never => absurd never (Nat.not_lt_zero _), fun j _ _ => ?_⟩
    have blank : (ringInit ring rts).cell j = ⟨0, 0, 0⟩ := congrFun (erst'.trans erst) j
    rw [blank]
    rfl
  · show (writeErdpHi _ _).erEventsCnt.toNat + 0 = 0
    simp only [writeErdpHi]
    rw [if_neg]
    · exact congrArg BitVec.toNat cnt
    · intro some_left
      have least := Eq.mp (congrArg (BitVec.ofNat 32 0 < ·) cnt) some_left
      exact absurd least (by decide : ¬ BitVec.ofNat 32 0 < 0)
  · show 0 < 0 + ring.size
    have positive := ring_positive ring
    omega

def DeliversAlong (ring : Ring) (rts : Rtsregs) (events : List RingEvent) : Prop :=
  Delivers ring (ringInit ring rts) ∧
    Along (ringStep ring) (fun s e => Delivers ring (ringStep ring s e)) (ringInit ring rts) events

theorem delivers_along_iff (ring : Ring) (rts : Rtsregs) (events : List RingEvent) :
    DeliversAlong ring rts events ↔
      Along (ringStep ring) (HasRoom ring) (ringInit ring rts) events := by
  have start := init_inv ring rts
  have agree := along_iff_of_invariant ring_step_inv delivers_step_iff events _ start
  exact ⟨fun holds => agree.mp holds.2, fun room => ⟨inv_delivers start, agree.mpr room⟩⟩

def twoEntries : Ring where
  erstba := 0x1000
  seg := ⟨0x2000, 2⟩
  entries := by decide
  aligned := by decide
  fits := by decide

def blankRegs : Rtsregs := ⟨0, 0, 0, 0, 0, ⟨0, 0⟩, fun _ => ⟨0, 0, 0⟩, 0, 0, 0⟩

def threeEvents : List RingEvent :=
  [.insert ⟨1, 0, 0⟩ false, .insert ⟨2, 0, 0⟩ false, .insert ⟨3, 0, 0⟩ false]

theorem overwritten_unseen : ¬ DeliversAlong twoEntries blankRegs threeEvents ∧
      (run (ringStep twoEntries) (ringInit twoEntries blankRegs) threeEvents).accepted.length = 3 ∧
      ((run (ringStep twoEntries) (ringInit twoEntries blankRegs) threeEvents).cell 0).qwTrb0 = 3 := by
  refine ⟨fun holds => ?_, by decide, by decide⟩
  have room := (delivers_along_iff _ _ _).mp holds
  exact absurd room.2.1.1 (by decide)

end
end Xhci
