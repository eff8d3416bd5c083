import Bhyve.Lib.RingBuffer
import Bhyve.Lib.StepRuns
import Bhyve.Microboot.Keyboard

/-!
The key queue as one system: INT 09h deliveries interleaved with one INT 16h reader.
-/
namespace MicrobootKeyRing
open ByteMemory MicrobootKeyboard RingBuffer StepRuns

/-- The data area, the head loaded by an INT 16h call that still waits, and the two
    histories: words queued by process_scancode and words returned in AX. -/
structure KeySystem where
  bda : Mem
  waiting : Option (BitVec 16)
  stored : List (BitVec 16)
  returned : List (BitVec 16)

inductive KeyEvent where
  | scancode : BitVec 8 → KeyEvent
  | int16 : KeyEvent
  | wake : KeyEvent

variable (rom : RomTail)

def keyStep (s : KeySystem) : KeyEvent → KeySystem
  | .scancode code =>
      let (bda, key) := processScancode rom s.bda code
      { s with bda := bda, stored := s.stored ++ key.toList }
  | .int16 =>
      match s.waiting with
      | none => { s with waiting := some (keyBufferHead s.bda) }
      | some _ => s
  | .wake =>
      match s.waiting with
      | none => s
      | some bx =>
          if keyBufferTail s.bda = bx then s
          else
            let (bda, ax) := int16EndWaitForKey s.bda bx
            { s with bda := bda, waiting := none, returned := s.returned ++ [ax] }

/-- The bios_data image of start16.S, up to its last nonzero byte below the queue users. -/
def biosData : List (BitVec 8) :=
  [0xf8, 0x03, 0xf8, 0x02, 0xe8, 0x03, 0xe8, 0x02, 0, 0, 0, 0, 0, 0, 0, 0,
   0x01, 0x04, 0, 0x80, 0x02, 0, 0, 0, 0, 0, 0x1e, 0, 0x1e, 0] ++
  List.replicate 32 0 ++
  [0, 0, 0x07] ++ List.replicate 8 0 ++
  [0x03, 80, 0, 0, 0x10, 0, 0] ++ List.replicate 16 0 ++
  [0x07, 0x06, 0, 0xd4, 0x03, 0x09, 0, 0, 0, 0, 0] ++
  [0, 0, 0, 0, 0, 0, 0, 0x34, 0x12, 0, 0, 0, 0, 0, 0, 0, 0, 27, 27, 27, 27] ++
  [0x1e, 0, 0x3c, 0, 24, 8, 0, 0x60, 0x09, 0x81, 0x0c] ++ List.replicate 22 0 ++ [1]

def bootBda : Mem := fun x => biosData.getD x 0

def start (bda : Mem) : KeySystem := ⟨bda, none, [], []⟩

structure BootRing (bda : Mem) : Prop where
  head : keyBufferHead bda = 0x1e
  tail : keyBufferTail bda = 0x1e
  first : keyBufferStart bda = 0x1e
  last : keyBufferEnd bda = 0x3c

theorem boot_bda_ring : BootRing bootBda := by
  constructor <;> decide

def InKeyBuffer (offset : BitVec 16) : Prop :=
  offset.toNat % 2 = 0 ∧ bdaKbdBuf ≤ offset.toNat ∧ offset.toNat + 2 ≤ bdaKbdBuf + 32

def QueueHolds (s : KeySystem) : Prop :=
  s.returned <+: s.stored ∧ InKeyBuffer (keyBufferHead s.bda) ∧ InKeyBuffer (keyBufferTail s.bda)

def ringSlots : Nat := 15

def slot (bda : Mem) (i : Nat) : BitVec 16 := read16 bda (bdaKbdBuf + 2 * i)

def slotOffset (i : Nat) : BitVec 16 := BitVec.ofNat 16 (bdaKbdBuf + 2 * i)

def SameRing (bda bda' : Mem) : Prop :=
  ∀ x, 0x1a ≤ x ∧ x < 0x3e ∨ 0x80 ≤ x ∧ x < 0x84 → bda' x = bda x

theorem same_ring_refl (bda : Mem) : SameRing bda bda := fun _ _ => rfl

theorem same_ring_trans {a b c : Mem} (first : SameRing a b) (second : SameRing b c) :
    SameRing a c := fun x inside => (second x inside).trans (first x inside)

theorem write_status_same_ring (bda : Mem) {offset : Nat} (v : BitVec 8)
    (status : offset = bdaKbdSts1 ∨ offset = bdaKbdSts3) : SameRing bda (write8 bda offset v) := by
  intro x inside
  apply write8_other
  unfold bdaKbdSts1 bdaKbdSts3 at status
  omega

variable {bda bda' : Mem} {i head tail : Nat} {s : KeySystem}

theorem same_ring_read (same : SameRing bda bda') {a : Nat}
    (inside : 0x1a ≤ a ∧ a + 1 < 0x3e ∨ 0x80 ≤ a ∧ a + 1 < 0x84) : read16 bda' a = read16 bda a :=
  read16_congr (same a (by omega)) (same (a + 1) (by omega))

theorem same_ring_pointers (same : SameRing bda bda') :
    keyBufferHead bda' = keyBufferHead bda ∧ keyBufferTail bda' = keyBufferTail bda ∧
      keyBufferStart bda' = keyBufferStart bda ∧ keyBufferEnd bda' = keyBufferEnd bda := by
  refine ⟨?_, ?_, ?_, ?_⟩
  · exact same_ring_read same (by decide)
  · exact same_ring_read same (by decide)
  · exact same_ring_read same (by decide)
  · exact same_ring_read same (by decide)

theorem same_ring_slot (same : SameRing bda bda') (inside : i ≤ ringSlots) :
    slot bda' i = slot bda i := by
  unfold ringSlots at inside
  exact same_ring_read same (by unfold bdaKbdBuf; omega)

theorem apply_scanbit_same_ring (bda : Mem) (scancode : BitVec 8) :
    SameRing bda (applyScanbit bda scancode).1 := by
  simp only [applyScanbit]
  split
  · split
    · exact write_status_same_ring bda _ (Or.inl rfl)
    · exact write_status_same_ring bda _ (Or.inl rfl)
  · exact same_ring_refl bda

theorem process_scancode_cases (bda : Mem) (scancode : BitVec 8) :
    (SameRing bda (processScancode rom bda scancode).1 ∧
      (processScancode rom bda scancode).2 = none) ∨
    ∃ middle key, SameRing bda middle ∧
      SameRing (storeKey middle key).1 (processScancode rom bda scancode).1 ∧
      (processScancode rom bda scancode).2 = (storeKey middle key).2 := by
  have status := apply_scanbit_same_ring bda scancode
  have cleared : ∀ m, SameRing m (clearPrefixes m) := fun m =>
    write_status_same_ring m _ (Or.inr rfl)
  simp only [processScancode]
  split
  · exact Or.inl ⟨write_status_same_ring bda _ (Or.inr rfl), rfl⟩
  split
  · exact Or.inl ⟨write_status_same_ring bda _ (Or.inr rfl), rfl⟩
  split
  · split
    · exact Or.inl ⟨same_ring_trans status (cleared _), rfl⟩
    · exact Or.inr ⟨_, _, status, cleared _, rfl⟩
  · exact Or.inl ⟨same_ring_trans status (cleared _), rfl⟩

/-- The pointers of a reachable queue, as slot numbers. Slot 15 is the word at
    key_buffer_end: the head can stand on it, the tail cannot. -/
structure RingAt (bda : Mem) (head tail : Nat) : Prop where
  headPtr : keyBufferHead bda = slotOffset head
  tailPtr : keyBufferTail bda = slotOffset tail
  first : keyBufferStart bda = 0x1e
  last : keyBufferEnd bda = 0x3c
  headIn : head ≤ ringSlots
  tailIn : tail < ringSlots

theorem slot_offset_to_nat (inside : i ≤ ringSlots) : (slotOffset i).toNat = bdaKbdBuf + 2 * i := by
  unfold ringSlots at inside
  simp only [slotOffset, bdaKbdBuf, BitVec.toNat_ofNat]
  omega

theorem slot_offset_eq_iff {j : Nat} (hi : i ≤ ringSlots) (hj : j ≤ ringSlots) :
    slotOffset i = slotOffset j ↔ i = j := by
  rw [← BitVec.toNat_inj, slot_offset_to_nat hi, slot_offset_to_nat hj]
  omega

theorem slot_offset_in_buffer (inside : i ≤ ringSlots) : InKeyBuffer (slotOffset i) := by
  unfold InKeyBuffer
  rw [slot_offset_to_nat inside]
  unfold ringSlots at inside
  unfold bdaKbdBuf
  omega

theorem ring_at_of_same (same : SameRing bda bda') (at_ : RingAt bda head tail) :
    RingAt bda' head tail := by
  obtain ⟨h, t, f, l⟩ := same_ring_pointers same
  exact ⟨h.trans at_.headPtr, t.trans at_.tailPtr, f.trans at_.first, l.trans at_.last,
    at_.headIn, at_.tailIn⟩

theorem new_tail_eq (at_ : RingAt bda head tail) :
    newTail bda = slotOffset (next ringSlots tail) := by
  have inside := at_.tailIn
  unfold ringSlots at inside
  simp only [newTail, at_.tailPtr, at_.first, at_.last, next, ringSlots, slotOffset, bdaKbdBuf]
  by_cases last : tail + 1 = 15
  · have eq : tail = 14 := by omega
    subst eq
    rfl
  · have ne : ¬ BitVec.ofNat 16 (0x1e + 2 * tail) + 2 = 0x3c := by
      bv_omega
    simp only [last, ne, ↓reduceIte]
    bv_omega

theorem store_key_ring (at_ : RingAt bda head tail) (key : BitVec 16) :
    (storeKey bda key = (bda, none)) ∨
    (next ringSlots tail ≠ head ∧ (storeKey bda key).2 = some key ∧
      RingAt (storeKey bda key).1 head (next ringSlots tail) ∧
      slot (storeKey bda key).1 tail = key ∧
      ∀ i, i < ringSlots → i ≠ tail → slot (storeKey bda key).1 i = slot bda i) := by
  have tailNat := slot_offset_to_nat (Nat.le_of_lt at_.tailIn)
  have nextIn : next ringSlots tail < ringSlots := next_lt at_.tailIn
  have tailLt := at_.tailIn
  unfold ringSlots at tailLt
  simp only [storeKey, at_.headPtr, at_.tailPtr, new_tail_eq at_, tailNat]
  by_cases full : next ringSlots tail = head
  · left
    rw [if_pos (by rw [full])]
  · right
    have room : ¬ slotOffset (next ringSlots tail) = slotOffset head := by
      rw [slot_offset_eq_iff (Nat.le_of_lt nextIn) at_.headIn]
      exact full
    simp only [room, ↓reduceIte]
    refine ⟨full, trivial, ⟨?_, ?_, ?_, ?_, at_.headIn, nextIn⟩, ?_, ?_⟩
    · unfold keyBufferHead bdaKbdBufHead bdaKbdBufTail bdaKbdBuf
      rw [read16_write16_other _ _ (by decide), read16_write16_other _ _ (by omega)]
      exact at_.headPtr
    · unfold keyBufferTail
      rw [read16_write16_same]
    · unfold keyBufferStart bdaKbdBufStart bdaKbdBufTail bdaKbdBuf
      rw [read16_write16_other _ _ (by decide), read16_write16_other _ _ (by omega)]
      exact at_.first
    · unfold keyBufferEnd bdaKbdBufEnd bdaKbdBufTail bdaKbdBuf
      rw [read16_write16_other _ _ (by decide), read16_write16_other _ _ (by omega)]
      exact at_.last
    · unfold slot bdaKbdBufTail bdaKbdBuf
      rw [read16_write16_other _ _ (by omega), read16_write16_same]
    · intro i inside apart
      unfold slot bdaKbdBufTail bdaKbdBuf
      rw [read16_write16_other _ _ (by omega), read16_write16_other _ _ (by omega)]

theorem end_wait_ring (at_ : RingAt bda head tail) (before : head < ringSlots) :
    (int16EndWaitForKey bda (slotOffset head)).2 = slot bda head ∧
      RingAt (int16EndWaitForKey bda (slotOffset head)).1 (head + 1) tail ∧
      ∀ i, slot (int16EndWaitForKey bda (slotOffset head)).1 i = slot bda i := by
  have headNat := slot_offset_to_nat at_.headIn
  have lt := before
  have advance : slotOffset head + 2 = slotOffset (head + 1) := by
    unfold slotOffset bdaKbdBuf
    bv_omega
  have below : (slotOffset (head + 1)).sle 0x3c = true := by
    have cases : ∀ i : Fin 15, (slotOffset (i.val + 1)).sle 0x3c = true := by decide
    exact cases ⟨head, lt⟩
  simp only [int16EndWaitForKey, advance, below, ↓reduceIte, headNat]
  refine ⟨rfl, ⟨?_, ?_, ?_, ?_, before, at_.tailIn⟩, ?_⟩
  · unfold keyBufferHead
    rw [read16_write16_same]
  · unfold keyBufferTail
    exact at_.tailPtr
  · unfold keyBufferStart
    exact at_.first
  · unfold keyBufferEnd
    exact at_.last
  · intro i
    unfold slot
    rw [read16_write16_other _ _ (by unfold bdaKbdBufHead bdaKbdBuf; omega)]

/-- Every queued word is either already returned or still between head and tail. Once
    the head has stepped onto the spare slot only the prefix property is left. -/
structure QueueInv (s : KeySystem) : Prop where
  ring : ∃ head tail, RingAt s.bda head tail ∧
    (head < ringSlots → s.stored = s.returned ++ contents ringSlots (slot s.bda) head tail)
  latched : ∀ bx, s.waiting = some bx → bx = keyBufferHead s.bda
  order : s.returned <+: s.stored

theorem queue_inv_start (boot : BootRing bda) : QueueInv (start bda) := by
  constructor
  · refine ⟨0, 0, ⟨boot.head, boot.tail, boot.first, boot.last, by decide, by decide⟩, ?_⟩
    intro _
    simp [start, contents_empty]
  · intro bx none
    simp [start] at none
  · simp [start]

theorem queue_inv_holds (inv : QueueInv s) : QueueHolds s := by
  obtain ⟨head, tail, at_, _⟩ := inv.ring
  refine ⟨inv.order, ?_, ?_⟩
  · rw [at_.headPtr]
    exact slot_offset_in_buffer at_.headIn
  · rw [at_.tailPtr]
    exact slot_offset_in_buffer (Nat.le_of_lt at_.tailIn)

theorem ring_pending_same (same : SameRing bda bda') (headIn : head < ringSlots)
    (tailIn : tail < ringSlots) :
    contents ringSlots (slot bda') head tail = contents ringSlots (slot bda) head tail :=
  contents_congr headIn tailIn fun _ inside => same_ring_slot same (Nat.le_of_lt inside)

theorem scancode_keeps_queue (code : BitVec 8) (inv : QueueInv s) :
    QueueInv (keyStep rom s (.scancode code)) := by
  obtain ⟨head, tail, at_, pending⟩ := inv.ring
  rcases process_scancode_cases rom s.bda code with ⟨same, quiet⟩ | ⟨middle, key, same, after, report⟩
  · simp only [keyStep, quiet, Option.toList_none, List.append_nil]
    constructor
    · refine ⟨head, tail, ring_at_of_same same at_, ?_⟩
      intro below
      rw [pending below, ring_pending_same same below at_.tailIn]
    · intro bx latch
      rw [(same_ring_pointers same).1]
      exact inv.latched bx latch
    · exact inv.order
  · have atMiddle := ring_at_of_same same at_
    rcases store_key_ring atMiddle key with quiet | ⟨room, word, atNew, new, others⟩
    · rw [quiet] at after report
      have whole := same_ring_trans same after
      simp only [keyStep, report, Option.toList_none, List.append_nil]
      constructor
      · refine ⟨head, tail, ring_at_of_same whole at_, ?_⟩
        intro below
        rw [pending below, ring_pending_same whole below at_.tailIn]
      · intro bx latch
        rw [(same_ring_pointers whole).1]
        exact inv.latched bx latch
      · exact inv.order
    · rw [word] at report
      have atEnd := ring_at_of_same after atNew
      simp only [keyStep, report, Option.toList_some]
      constructor
      · refine ⟨head, next ringSlots tail, atEnd, ?_⟩
        intro below
        have pushed := contents_push below at_.tailIn room others
        rw [ring_pending_same after below (next_lt at_.tailIn), pushed, new,
          ring_pending_same same below at_.tailIn, ← List.append_assoc, ← pending below]
      · intro bx latch
        rw [atEnd.headPtr, ← at_.headPtr]
        exact inv.latched bx latch
      · exact inv.order.trans (List.prefix_append _ _)

theorem int16_keeps_queue (inv : QueueInv s) : QueueInv (keyStep rom s .int16) := by
  simp only [keyStep]
  split
  · refine ⟨inv.ring, ?_, inv.order⟩
    intro bx latch
    exact (Option.some.inj latch).symm
  · exact inv

/-- A read is safe while the head is not on key_buffer_end. -/
def ReadClearOfEnd (s : KeySystem) (e : KeyEvent) : Prop :=
  e = .wake → keyBufferHead s.bda ≠ keyBufferEnd s.bda

theorem wake_keeps_queue (inv : QueueInv s)
    (clear : keyBufferHead s.bda ≠ keyBufferEnd s.bda) : QueueInv (keyStep rom s .wake) := by
  obtain ⟨head, tail, at_, pending⟩ := inv.ring
  simp only [keyStep]
  split
  · exact inv
  rename_i bx waiting
  have latch : bx = slotOffset head := (inv.latched bx waiting).trans at_.headPtr
  subst latch
  split
  · exact inv
  rename_i held
  have below : head < ringSlots := by
    apply Nat.lt_of_le_of_ne at_.headIn
    intro spare
    rw [at_.headPtr, at_.last, spare] at clear
    exact clear rfl
  have apart : head ≠ tail := by
    intro eq
    rw [at_.tailPtr, eq] at held
    exact held rfl
  obtain ⟨word, atNew, slots⟩ := end_wait_ring at_ below
  have split : contents ringSlots (slot s.bda) head tail =
      slot s.bda head :: contents ringSlots (slot s.bda) (next ringSlots head) tail :=
    contents_pop below at_.tailIn apart
  have history : s.stored = (s.returned ++ [slot s.bda head]) ++
      contents ringSlots (slot s.bda) (next ringSlots head) tail := by
    rw [pending below, split]
    simp
  constructor
  · refine ⟨head + 1, tail, atNew, ?_⟩
    intro inside
    have step : next ringSlots head = head + 1 := by
      unfold next
      split
      · omega
      · rfl
    have kept : contents ringSlots (slot (int16EndWaitForKey s.bda (slotOffset head)).1)
        (head + 1) tail = contents ringSlots (slot s.bda) (head + 1) tail :=
      contents_congr inside at_.tailIn fun i _ => slots i
    simp only [word, kept]
    rw [history, step]
  · intro other none
    simp at none
  · simp only [word]
    rw [history]
    exact List.prefix_append _ _

theorem key_step_keeps_queue (s : KeySystem) (e : KeyEvent)
    (inv : QueueInv s) (clear : ReadClearOfEnd s e) : QueueInv (keyStep rom s e) := by
  cases e with
  | scancode code => exact scancode_keeps_queue rom code inv
  | int16 => exact int16_keeps_queue rom inv
  | wake => exact wake_keeps_queue rom inv (clear rfl)

/-- Whatever the interleaving, a run that never reads with the head on key_buffer_end
    returns the oldest queued words in order and keeps both pointers in the buffer. -/
theorem key_queue_fifo (rom : RomTail) (bda : Mem) (boot : BootRing bda) (events : List KeyEvent)
    (clear : Along (keyStep rom) ReadClearOfEnd (start bda) events) :
    QueueHolds (run (keyStep rom) (start bda) events) :=
  queue_inv_holds (invariant_run (key_step_keeps_queue rom) events _ (queue_inv_start boot) clear)

instance (s : KeySystem) : ∀ e, Decidable (ReadClearOfEnd s e)
  | .scancode _ => .isTrue nofun
  | .int16 => .isTrue nofun
  | .wake => decidable_of_iff (keyBufferHead s.bda ≠ keyBufferEnd s.bda)
      ⟨fun clear _ => clear, fun clear => clear rfl⟩

def fifteenKeys : List KeyEvent :=
  [.scancode 0x1e, .scancode 0x30] ++
    ([0x2e, 0x20, 0x12, 0x21, 0x22, 0x23, 0x17, 0x24, 0x25, 0x26, 0x32, 0x31, 0x18].flatMap
      fun code => [.int16, .scancode code, .wake]) ++ [.int16, .wake, .int16, .wake]

theorem key_queue_fifo_fifteen_keys :
    QueueHolds (run (keyStep fun _ _ => noKey) (start bootBda) fifteenKeys) ∧
      (run (keyStep fun _ _ => noKey) (start bootBda) fifteenKeys).returned =
        [0x1e61, 0x3062, 0x2e63, 0x2064, 0x1265, 0x2166, 0x2267, 0x2368, 0x1769, 0x246a, 0x256b,
          0x266c, 0x326d, 0x316e, 0x186f] :=
  ⟨key_queue_fifo _ bootBda boot_bda_ring _ (by decide +kernel), by decide +kernel⟩

def overrunEvents : List KeyEvent :=
  (List.replicate 15 [KeyEvent.scancode 0x1e, .int16, .wake]).flatten ++ [.int16, .wake]

theorem key_queue_overrun :
    ¬ QueueHolds (run (keyStep fun _ _ => noKey) (start bootBda) overrunEvents) := by
  intro holds
  have order := holds.1
  revert order
  decide +kernel

theorem c_and_assembly_reads_agree (at_ : RingAt bda head tail) :
    handleInt16Read bda = int16EndWaitForKey bda (keyBufferHead bda) := by
  have agree : ∀ i : Fin 16, ((0x3c : BitVec 16) < slotOffset i.val + 2) ↔
      ¬ (slotOffset i.val + 2).sle 0x3c = true := by decide
  have inside := at_.headIn
  unfold ringSlots at inside
  have test := agree ⟨head, by omega⟩
  simp only [handleInt16Read, int16EndWaitForKey, at_.headPtr, at_.first, at_.last]
  by_cases past : (slotOffset head + 2).sle 0x3c = true
  · rw [if_pos past, if_neg (fun above => test.mp above past)]
  · rw [if_neg past, if_pos (test.mpr past)]
    rfl

def lastSlotsBda (head : BitVec 16) : Mem :=
  write16 (write16 (write16 (write16 bootBda bdaKbdBufHead head) bdaKbdBufTail 0x20) 0x3a 0x1e61)
    0x3c 0x3062

theorem c_and_assembly_reads_agree_last :
    (handleInt16Read (lastSlotsBda 0x3a) = int16EndWaitForKey (lastSlotsBda 0x3a) 0x3a ∧
      (int16EndWaitForKey (lastSlotsBda 0x3a) 0x3a).2 = 0x1e61) ∧
    handleInt16Read (lastSlotsBda 0x3c) = int16EndWaitForKey (lastSlotsBda 0x3c) 0x3c ∧
      (int16EndWaitForKey (lastSlotsBda 0x3c) 0x3c).2 = 0x3062 := by
  have last : RingAt (lastSlotsBda 0x3a) 14 1 := by constructor <;> decide
  have spare : RingAt (lastSlotsBda 0x3c) 15 1 := by constructor <;> decide
  refine ⟨⟨?_, by decide⟩, ?_, by decide⟩
  · have agree := c_and_assembly_reads_agree last
    rw [last.headPtr] at agree
    exact agree
  · have agree := c_and_assembly_reads_agree spare
    rw [spare.headPtr] at agree
    exact agree

end MicrobootKeyRing
