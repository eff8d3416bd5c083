import Mathlib.Algebra.GroupWithZero.Nat
import Bhyve.Microboot.KeyRing

/-!
The modifier byte of the BIOS data area against the keys that are really down: a history of
presses, typematic repeats and releases says which are held and how often each was pressed.
-/
namespace MicrobootModifiers
open ByteMemory MicrobootKeyboard MicrobootKeyRing StepRuns Function

/-- A key by its make code. The break codes of 60h and 61h would be the prefix bytes, so
    no key has these. -/
structure Key where
  e0 : Bool
  code : BitVec 8
  make : code.toNat < 0x80 ∧ code ≠ 0x60 ∧ code ≠ 0x61
deriving DecidableEq

def Key.table (k : Key) : KeyTable := if k.e0 then .twoByte else .oneByte

variable (k : Key)

def Key.withLead (last : BitVec 8) : List (BitVec 8) :=
  if k.e0 then [0xe0, last] else [last]

inductive KeyAction where
  | press : Key → KeyAction
  | typematic : Key → KeyAction
  | release : Key → KeyAction

def KeyAction.scancodes : KeyAction → List (BitVec 8)
  | .press k => k.withLead k.code
  | .typematic k => k.withLead k.code
  | .release k => k.withLead (k.code ||| 0x80)

structure Hand where
  held : Key → Bool
  presses : Key → Nat

def Hand.idle : Hand := ⟨fun _ => false, fun _ => 0⟩

def Hand.step (h : Hand) : KeyAction → Hand
  | .press k =>
      { held := update h.held k true,
        presses := update h.presses k (h.presses k + 1) }
  | .typematic _ => h
  | .release k => { h with held := update h.held k false }

def Possible (h : Hand) : KeyAction → Prop
  | .press k => h.held k = false
  | .typematic k => h.held k = true
  | .release k => h.held k = true

inductive Modifier where
  | insert
  | capsLock
  | numLock
  | scrollLock
  | alt
  | ctrl
  | lshift
  | rshift
deriving DecidableEq

def Modifier.scancode : Modifier → BitVec 8
  | .insert => 0x52
  | .capsLock => 0x3a
  | .numLock => 0x45
  | .scrollLock => 0x46
  | .alt => 0x38
  | .ctrl => 0x1d
  | .lshift => 0x2a
  | .rshift => 0x36

def Modifier.index : Modifier → Nat
  | .insert => 7
  | .capsLock => 6
  | .numLock => 5
  | .scrollLock => 4
  | .alt => 3
  | .ctrl => 2
  | .lshift => 1
  | .rshift => 0

def Modifier.lock : Modifier → Bool
  | .insert | .capsLock | .numLock | .scrollLock => true
  | .alt | .ctrl | .lshift | .rshift => false

variable (m : Modifier)

def Modifier.plain : Key := ⟨false, m.scancode, by cases m <;> decide⟩

def Modifier.extended : Key := ⟨true, m.scancode, by cases m <;> decide⟩

/-- The keys that carry the modifier. Alt, Ctrl and Insert exist twice; under E0 the codes
    of the shifts are the fake shifts of the grey keys, and 46h is Ctrl-Break. -/
def Modifier.keys : Modifier → List Key
  | .insert => [Modifier.plain .insert, Modifier.extended .insert]
  | .alt => [Modifier.plain .alt, Modifier.extended .alt]
  | .ctrl => [Modifier.plain .ctrl, Modifier.extended .ctrl]
  | m => [m.plain]

def Modifier.pressCount (h : Hand) : Nat := (m.keys.map h.presses).sum

def Modifier.anyHeld (h : Hand) : Bool := m.keys.any h.held

def Modifier.wanted (h : Hand) : Bool :=
  if m.lock then m.pressCount h % 2 == 1 else m.anyHeld h

def Accurate (status1 : BitVec 8) (h : Hand) : Prop :=
  ∀ m : Modifier, status1.getLsbD m.index = m.wanted h

def keyLookup (bda : Mem) (scancode : BitVec 8) : Option (KeyTable × BitVec 8) :=
  if scancode = 0xe0 ∨ scancode = 0xe1 then none
  else if (applyScanbit bda scancode).2 then
    some (if bda bdaKbdSts3 &&& kbsf3LastCodeE0 ≠ 0 then .twoByte else .oneByte, scancode)
  else none

def InTable (entry : KeyTable × BitVec 8) : Prop :=
  entry.2.toNat < entry.1.entries.length

variable (rom : RomTail)

def deliver (bda : Mem) (bytes : List (BitVec 8)) : Mem :=
  bytes.foldl (fun bda c => (processScancode rom bda c).1) bda

def keyLookups (rom : RomTail) : Mem → List (BitVec 8) → List (KeyTable × BitVec 8)
  | _, [] => []
  | bda, c :: rest => (keyLookup bda c).toList ++ keyLookups rom (processScancode rom bda c).1 rest

structure Console where
  bda : Mem
  hand : Hand

def Console.step (rom : RomTail) (s : Console) (a : KeyAction) : Console :=
  ⟨deliver rom s.bda a.scancodes, s.hand.step a⟩

def Console.boot : Console := ⟨bootBda, Hand.idle⟩

def PossibleStep (s : Console) (a : KeyAction) : Prop := Possible s.hand a

/-- What the bit comments promise once the codes of an action are processed, and that the
    lookups made for them stay inside their tables. -/
def Tracked (s : Console) (a : KeyAction) : Prop :=
  Accurate ((s.step rom a).bda bdaKbdSts1) (s.step rom a).hand ∧
    ∀ entry ∈ keyLookups rom s.bda a.scancodes, InTable entry

def Key.inTable (k : Key) : Prop := k.code.toNat < k.table.entries.length

/-- The actions on which setting a bit at every make code and clearing it at every break
    code is right: a lock key goes down while its count is even and is not let go (and does
    not repeat) at the wrong parity, of an Alt or Ctrl pair the last key is let go, and the
    E0 forms of the other modifier codes only confirm what is already so. -/
def Clean (h : Hand) : KeyAction → Prop
  | .press k => k.inTable ∧ ∀ m : Modifier, m.scancode = k.code →
      if m.lock then m.pressCount h % 2 = (if k ∈ m.keys then 0 else 1)
      else k ∈ m.keys ∨ m.anyHeld h = true
  | .typematic k => k.inTable ∧ ∀ m : Modifier, m.scancode = k.code →
      if m.lock then m.pressCount h % 2 = 1 else m.anyHeld h = true
  | .release k => ∀ m : Modifier, m.scancode = k.code →
      if m.lock then m.pressCount h % 2 = 0
      else ∀ other ∈ m.keys, other ≠ k → h.held other = false

theorem scanbit_index (c : BitVec 8) :
    (scanbit c).getLsbD m.index = decide (c &&& 0x7f = m.scancode) := by
  revert c
  cases m <;> decide

theorem make_low : k.code &&& 0x7f = k.code := by
  have all : ∀ c : BitVec 8, c.toNat < 0x80 → c &&& 0x7f = c := by decide
  exact all k.code k.make.1

theorem break_low : (k.code ||| 0x80) &&& 0x7f = k.code := by
  have all : ∀ c : BitVec 8, c.toNat < 0x80 → (c ||| 0x80) &&& 0x7f = c := by decide
  exact all k.code k.make.1

theorem make_high : k.code &&& 0x80 = 0 := by
  have all : ∀ c : BitVec 8, c.toNat < 0x80 → c &&& 0x80 = 0 := by decide
  exact all k.code k.make.1

theorem break_high : (k.code ||| 0x80) &&& 0x80 ≠ 0 := by
  have all : ∀ c : BitVec 8, (c ||| 0x80) &&& 0x80 ≠ 0 := by decide
  exact all k.code

theorem make_not_lead : k.code ≠ 0xe0 ∧ k.code ≠ 0xe1 := by
  have all : ∀ c : BitVec 8, c.toNat < 0x80 → c ≠ 0xe0 ∧ c ≠ 0xe1 := by decide
  exact all k.code k.make.1

theorem break_not_lead : k.code ||| 0x80 ≠ 0xe0 ∧ k.code ||| 0x80 ≠ 0xe1 := by
  have all : ∀ c : BitVec 8, c.toNat < 0x80 → c ≠ 0x60 → c ≠ 0x61 →
      c ||| 0x80 ≠ 0xe0 ∧ c ||| 0x80 ≠ 0xe1 := by decide
  exact all k.code k.make.1 k.make.2.1 k.make.2.2

theorem apply_scanbit_status (bda : Mem) (c : BitVec 8) : (applyScanbit bda c).1 bdaKbdSts1 =
      if c &&& 0x80 = 0 then bda bdaKbdSts1 ||| scanbit c
      else bda bdaKbdSts1 &&& ~~~scanbit c := by
  by_cases none : scanbit c = 0
  · have same : (applyScanbit bda c).1 = bda := by
      simp only [applyScanbit, none, ne_eq, not_true_eq_false, ↓reduceIte]
    rw [same, none]
    split
    · exact BitVec.or_zero.symm
    · exact (BitVec.and_allOnes).symm
  · by_cases down : c &&& 0x80 = 0
    · simp only [applyScanbit, none, down, ne_eq, not_false_eq_true, not_true_eq_false,
        ↓reduceIte, write8_same]
    · simp only [applyScanbit, none, down, ne_eq, not_false_eq_true, ↓reduceIte, write8_same]

theorem apply_scanbit_lookup (bda : Mem) (c : BitVec 8) :
    (applyScanbit bda c).2 = decide (c &&& 0x80 = 0) := by
  by_cases none : scanbit c = 0
  · simp only [applyScanbit, none, ne_eq, not_true_eq_false, ↓reduceIte]
  · by_cases down : c &&& 0x80 = 0
    · simp only [applyScanbit, none, down, ne_eq, not_false_eq_true, not_true_eq_false,
        ↓reduceIte, decide_true]
    · simp only [applyScanbit, none, down, ne_eq, not_false_eq_true, ↓reduceIte, decide_false]

def RingSafe (bda : Mem) : Prop := ∃ head tail, RingAt bda head tail

variable {bda : Mem} {c status : BitVec 8} {m : Modifier} {h : Hand}

theorem ring_safe_of_same {bda' : Mem} (same : SameRing bda bda') (safe : RingSafe bda) :
    RingSafe bda' := by
  obtain ⟨head, tail, at_⟩ := safe
  exact ⟨head, tail, ring_at_of_same same at_⟩

theorem store_key_safe (safe : RingSafe bda) (key : BitVec 16) : RingSafe (storeKey bda key).1 := by
  obtain ⟨head, tail, at_⟩ := safe
  rcases store_key_ring at_ key with quiet | ⟨_, _, atNew, _⟩
  · rw [quiet]
    exact ⟨head, tail, at_⟩
  · exact ⟨head, _, atNew⟩

theorem store_key_outside (safe : RingSafe bda) (key : BitVec 16) {x : Nat}
    (outside : x < 0x1c ∨ 0x3e ≤ x) : (storeKey bda key).1 x = bda x := by
  obtain ⟨head, tail, at_⟩ := safe
  have tailNat := slot_offset_to_nat (Nat.le_of_lt at_.tailIn)
  have tailLt := at_.tailIn
  unfold ringSlots at tailLt
  simp only [storeKey]
  split
  · rfl
  · rw [at_.tailPtr, tailNat]
    unfold bdaKbdBufTail bdaKbdBuf
    exact (write16_other _ _ (by omega) (by omega)).trans
      (write16_other _ _ (by omega) (by omega))

theorem clear_prefixes_status (bda : Mem) : (clearPrefixes bda) bdaKbdSts1 = bda bdaKbdSts1 :=
  write8_other _ _ (by decide)

theorem clear_prefixes_e0 (bda : Mem) : (clearPrefixes bda) bdaKbdSts3 &&& kbsf3LastCodeE0 = 0 := by
  have all : ∀ s : BitVec 8,
      (s &&& ~~~(kbsf3LastCodeE0 ||| kbsf3LastCodeE1)) &&& kbsf3LastCodeE0 = 0 := by decide
  rw [clearPrefixes, write8_same]
  exact all _

theorem clear_prefixes_safe (safe : RingSafe bda) : RingSafe (clearPrefixes bda) :=
  ring_safe_of_same (write_status_same_ring bda _ (Or.inr rfl)) safe

theorem process_scancode_status (safe : RingSafe bda) (key : c ≠ 0xe0 ∧ c ≠ 0xe1) :
    (processScancode rom bda c).1 bdaKbdSts1 = (applyScanbit bda c).1 bdaKbdSts1 ∧
      (processScancode rom bda c).1 bdaKbdSts3 &&& kbsf3LastCodeE0 = 0 ∧
      RingSafe (processScancode rom bda c).1 := by
  have kept : RingSafe (applyScanbit bda c).1 :=
    ring_safe_of_same (apply_scanbit_same_ring bda c) safe
  simp only [processScancode, key.1, key.2, ↓reduceIte]
  split
  · split
    · exact ⟨clear_prefixes_status _, clear_prefixes_e0 _, clear_prefixes_safe kept⟩
    · refine ⟨?_, clear_prefixes_e0 _, clear_prefixes_safe (store_key_safe kept _)⟩
      exact (clear_prefixes_status _).trans (store_key_outside kept _ (by decide))
  · exact ⟨clear_prefixes_status _, clear_prefixes_e0 _, clear_prefixes_safe kept⟩

theorem key_lookup_eq (bda : Mem) (key : c ≠ 0xe0 ∧ c ≠ 0xe1) {table : KeyTable}
    (selected : (if bda bdaKbdSts3 &&& kbsf3LastCodeE0 ≠ 0 then KeyTable.twoByte else KeyTable.oneByte) = table) :
    (keyLookup bda c).toList = if c &&& 0x80 = 0 then [(table, c)] else [] := by
  have lead : ¬ (c = 0xe0 ∨ c = 0xe1) := by
    rintro (same | same)
    · exact key.1 same
    · exact key.2 same
  rw [keyLookup, if_neg lead, apply_scanbit_lookup, selected]
  by_cases down : c &&& 0x80 = 0
  · rw [if_pos (decide_eq_true down), if_pos down]
    rfl
  · rw [if_neg (by simpa only [decide_eq_true_eq] using down), if_neg down]
    rfl

theorem process_lead (safe : RingSafe bda) :
    (processScancode rom bda 0xe0).1 bdaKbdSts1 = bda bdaKbdSts1 ∧
      (processScancode rom bda 0xe0).1 bdaKbdSts3 &&& kbsf3LastCodeE0 ≠ 0 ∧
      RingSafe (processScancode rom bda 0xe0).1 := by
  have all : ∀ s : BitVec 8, (s ||| kbsf3LastCodeE0) &&& kbsf3LastCodeE0 ≠ 0 := by decide
  simp only [processScancode, ↓reduceIte]
  refine ⟨write8_other _ _ (by decide), ?_,
    ring_safe_of_same (write_status_same_ring bda _ (Or.inr rfl)) safe⟩
  rw [write8_same]
  exact all _

structure Settled (bda : Mem) : Prop where
  noLead : bda bdaKbdSts3 &&& kbsf3LastCodeE0 = 0
  safe : RingSafe bda

theorem deliver_key (settled : Settled bda) (k : Key) (key : c ≠ 0xe0 ∧ c ≠ 0xe1) :
    deliver rom bda (k.withLead c) bdaKbdSts1 =
        (if c &&& 0x80 = 0 then bda bdaKbdSts1 ||| scanbit c
         else bda bdaKbdSts1 &&& ~~~scanbit c) ∧
      Settled (deliver rom bda (k.withLead c)) ∧
      keyLookups rom bda (k.withLead c) = if c &&& 0x80 = 0 then [(k.table, c)] else [] := by
  have lead := process_lead rom settled.safe
  by_cases extended : k.e0 = true
  · have last := process_scancode_status rom lead.2.2 key
    have status := apply_scanbit_status (processScancode rom bda 0xe0).1 c
    rw [lead.1] at status
    simp only [Key.withLead, Key.table, extended, ↓reduceIte, deliver, List.foldl_cons,
      List.foldl_nil]
    refine ⟨last.1.trans status, ⟨last.2.1, last.2.2⟩, ?_⟩
    have quiet : keyLookup bda 0xe0 = none := rfl
    have looked := key_lookup_eq (processScancode rom bda 0xe0).1 key (if_pos lead.2.1)
    simp only [keyLookups, quiet, looked, Option.toList_none, List.nil_append, List.append_nil]
  · have last := process_scancode_status rom settled.safe key
    have status := apply_scanbit_status bda c
    simp only [Key.withLead, Key.table, extended, Bool.false_eq_true, ↓reduceIte, deliver, List.foldl_cons,
      List.foldl_nil]
    refine ⟨last.1.trans status, ⟨last.2.1, last.2.2⟩, ?_⟩
    have looked := key_lookup_eq bda key (if_neg (not_not.mpr settled.noLead))
    simp only [keyLookups, looked, List.append_nil]

theorem wanted_other {k : Key} (h : Hand) (apart : m.scancode ≠ k.code) :
    m.wanted (h.step (.press k)) = m.wanted h ∧ m.wanted (h.step (.release k)) = m.wanted h := by
  have plain : m.plain ≠ k := fun same => apart (congrArg Key.code same)
  have extended : m.extended ≠ k := fun same => apart (congrArg Key.code same)
  cases m <;>
    simp [Modifier.wanted, Modifier.lock, Modifier.pressCount, Modifier.anyHeld, Modifier.keys,
      Hand.step, update, plain, extended]

theorem press_count_press (m : Modifier) (h : Hand) (k : Key) :
    m.pressCount (h.step (.press k)) = m.pressCount h + if k ∈ m.keys then 1 else 0 := by
  have pair : ∀ a b : Key, a ≠ b →
      ([a, b].map (update h.presses k (h.presses k + 1))).sum =
        ([a, b].map h.presses).sum + if k ∈ [a, b] then 1 else 0 := by
    intro a b apart
    by_cases first : k = a
    · subst first
      simp [update, Ne.symm apart]
      omega
    · by_cases second : k = b
      · subst second
        simp [update, apart]
        omega
      · simp [update, first, second, Ne.symm first, Ne.symm second]
  have single : ∀ a : Key,
      ([a].map (update h.presses k (h.presses k + 1))).sum =
        ([a].map h.presses).sum + if k ∈ [a] then 1 else 0 := by
    intro a
    by_cases first : k = a
    · subst first
      simp
    · simp [update, first, Ne.symm first]
  cases m
  case insert => exact pair _ _ (by decide)
  case alt => exact pair _ _ (by decide)
  case ctrl => exact pair _ _ (by decide)
  all_goals exact single _

theorem any_held_press (m : Modifier) (h : Hand) (k : Key) :
    m.anyHeld (h.step (.press k)) = true ↔ k ∈ m.keys ∨ m.anyHeld h = true := by
  simp only [Modifier.anyHeld, Hand.step, List.any_eq_true, update_apply]
  constructor
  · rintro ⟨key, member, down⟩
    by_cases same : key = k
    · exact Or.inl (same ▸ member)
    · rw [if_neg same] at down
      exact Or.inr ⟨key, member, down⟩
  · rintro (member | ⟨key, member, down⟩)
    · exact ⟨k, member, if_pos rfl⟩
    · refine ⟨key, member, ?_⟩
      split
      · rfl
      · exact down

theorem any_held_release (m : Modifier) (h : Hand) (k : Key) :
    m.anyHeld (h.step (.release k)) = false ↔
      ∀ other ∈ m.keys, other ≠ k → h.held other = false := by
  simp only [Modifier.anyHeld, Hand.step, List.any_eq_false, update_apply]
  constructor
  · intro up other member apart
    have lifted := up other member
    rw [if_neg apart] at lifted
    exact Bool.eq_false_iff.mpr lifted
  · intro up key member
    split
    · exact Bool.false_ne_true
    · rename_i apart
      exact Bool.eq_false_iff.mp (up key member apart)

section
variable (accurate : Accurate status h)
include k accurate

theorem make_bit : (status ||| scanbit k.code).getLsbD m.index =
      (m.wanted h || decide (k.code = m.scancode)) := by
  rw [BitVec.getLsbD_or, accurate m, scanbit_index, make_low]

theorem break_bit : (status &&& ~~~scanbit (k.code ||| 0x80)).getLsbD m.index =
      (m.wanted h && !decide (k.code = m.scancode)) := by
  have inside : m.index < 8 := by cases m <;> decide
  rw [BitVec.getLsbD_and, BitVec.getLsbD_not, accurate m, scanbit_index, break_low]
  simp [inside]

theorem press_accurate_iff : Accurate (status ||| scanbit k.code) (h.step (.press k)) ↔
      ∀ m : Modifier, m.scancode = k.code →
        if m.lock then m.pressCount h % 2 = (if k ∈ m.keys then 0 else 1)
        else k ∈ m.keys ∨ m.anyHeld h = true := by
  unfold Accurate
  apply forall_congr'
  intro m
  rw [make_bit k accurate]
  by_cases own : m.scancode = k.code
  · rw [decide_eq_true own.symm, Bool.or_true, eq_comm]
    simp only [own, forall_const, Modifier.wanted]
    split
    · rw [press_count_press, beq_iff_eq]
      split
      · omega
      · rw [Nat.add_zero]
    · exact any_held_press m h k
  · rw [decide_eq_false (Ne.symm own), Bool.or_false, (wanted_other h own).1]
    simp [own]

theorem typematic_accurate_iff : Accurate (status ||| scanbit k.code) (h.step (.typematic k)) ↔
      ∀ m : Modifier, m.scancode = k.code →
        if m.lock then m.pressCount h % 2 = 1 else m.anyHeld h = true := by
  unfold Accurate
  apply forall_congr'
  intro m
  rw [make_bit k accurate]
  by_cases own : m.scancode = k.code
  · rw [decide_eq_true own.symm, Bool.or_true, eq_comm]
    simp only [own, forall_const, Hand.step, Modifier.wanted]
    split
    · exact beq_iff_eq
    · exact Iff.rfl
  · rw [decide_eq_false (Ne.symm own), Bool.or_false]
    simp [own, Hand.step]

theorem release_accurate_iff :
    Accurate (status &&& ~~~scanbit (k.code ||| 0x80)) (h.step (.release k)) ↔
      Clean h (.release k) := by
  unfold Accurate Clean
  apply forall_congr'
  intro m
  rw [break_bit k accurate]
  by_cases own : m.scancode = k.code
  · rw [decide_eq_true own.symm, Bool.not_true, Bool.and_false, eq_comm]
    simp only [own, forall_const, Modifier.wanted]
    split
    · have same : m.pressCount (h.step (.release k)) = m.pressCount h := rfl
      rw [same, beq_eq_false_iff_ne]
      omega
    · exact any_held_release m h k
  · rw [decide_eq_false (Ne.symm own), Bool.not_false, Bool.and_true, (wanted_other h own).2]
    simp [own]

end

structure ConsoleInv (s : Console) : Prop where
  accurate : Accurate (s.bda bdaKbdSts1) s.hand
  settled : Settled s.bda

theorem boot_console_inv : ConsoleInv Console.boot := by
  constructor
  · intro m
    cases m <;> rfl
  · exact ⟨by decide, 0, 0, boot_bda_ring.head, boot_bda_ring.tail, boot_bda_ring.first,
      boot_bda_ring.last, by decide, by decide⟩

theorem console_step_settled {s : Console} (inv : ConsoleInv s) (a : KeyAction) :
    Settled (s.step rom a).bda := by
  cases a with
  | press k => exact (deliver_key rom inv.settled k (make_not_lead k)).2.1
  | typematic k => exact (deliver_key rom inv.settled k (make_not_lead k)).2.1
  | release k => exact (deliver_key rom inv.settled k (break_not_lead k)).2.1

theorem tracked_iff_clean {s : Console} (inv : ConsoleInv s) (a : KeyAction) :
    Tracked rom s a ↔ Clean s.hand a := by
  have lookup : ∀ k : Key, (∀ entry ∈ [(k.table, k.code)], InTable entry) ↔ k.inTable := by
    intro k
    simp [InTable, Key.inTable]
  cases a with
  | press k =>
    obtain ⟨status, _, looked⟩ := deliver_key rom inv.settled k (make_not_lead k)
    rw [if_pos (make_high k)] at status looked
    simp only [Tracked, Console.step, KeyAction.scancodes, status, looked, Clean]
    rw [press_accurate_iff k inv.accurate, lookup, and_comm]
  | typematic k =>
    obtain ⟨status, _, looked⟩ := deliver_key rom inv.settled k (make_not_lead k)
    rw [if_pos (make_high k)] at status looked
    simp only [Tracked, Console.step, KeyAction.scancodes, status, looked, Clean]
    rw [typematic_accurate_iff k inv.accurate, lookup, and_comm]
  | release k =>
    obtain ⟨status, _, looked⟩ := deliver_key rom inv.settled k (break_not_lead k)
    rw [if_neg (break_high k)] at status looked
    simp only [Tracked, Console.step, KeyAction.scancodes, status, looked]
    rw [release_accurate_iff k inv.accurate]
    simp

theorem clean_keeps_console (s : Console) (a : KeyAction) (inv : ConsoleInv s)
    (clean : Clean s.hand a) : ConsoleInv (s.step rom a) :=
  ⟨((tracked_iff_clean rom inv a).mpr clean).1, console_step_settled rom inv a⟩

/-- From power-on, the modifier byte tells the truth after every action of a history, with
    no lookup outside a table, exactly when every action of it is a clean one. -/
theorem modifiers_tracked_iff_clean (rom : RomTail) (actions : List KeyAction) :
    Along (Console.step rom) (Tracked rom) Console.boot actions ↔
      Along (Console.step rom) (fun s a => Clean s.hand a) Console.boot actions :=
  along_iff_of_invariant (fun s a inv clean => clean_keeps_console rom s a inv clean)
    (fun _ a inv => tracked_iff_clean rom inv a) actions Console.boot boot_console_inv

def leftGui : Key := ⟨true, 0x5b, by decide⟩

theorem modifier_byte_misled : let rom : RomTail := fun _ _ => noKey
    let capsTap : List KeyAction := [.press Modifier.capsLock.plain, .release Modifier.capsLock.plain]
    let bothAlts : List KeyAction := [.press Modifier.alt.plain, .press Modifier.alt.extended,
      .release Modifier.alt.extended]
    (Along (Console.step rom) PossibleStep Console.boot capsTap ∧
        ¬ Along (Console.step rom) (Tracked rom) Console.boot capsTap) ∧
      (Along (Console.step rom) PossibleStep Console.boot bothAlts ∧
        ¬ Along (Console.step rom) (Tracked rom) Console.boot bothAlts) ∧
      (Along (Console.step rom) PossibleStep Console.boot [.press leftGui] ∧
        ¬ Along (Console.step rom) (Tracked rom) Console.boot [.press leftGui]) := by
  refine ⟨⟨⟨rfl, rfl, trivial⟩, ?_⟩, ⟨⟨rfl, rfl, rfl, trivial⟩, ?_⟩, ⟨⟨rfl, trivial⟩, ?_⟩⟩
  · intro tracked
    exact absurd (tracked.2.1.1 .capsLock) (by decide)
  · intro tracked
    exact absurd (tracked.2.2.1.1 .alt) (by decide)
  · intro tracked
    have looked : keyLookups (fun _ _ => noKey) Console.boot.bda (KeyAction.press leftGui).scancodes =
        [(.twoByte, 0x5b)] := rfl
    have inside := tracked.1.2 (.twoByte, 0x5b) (by rw [looked]; exact List.mem_singleton.mpr rfl)
    exact absurd inside (by unfold InTable; decide)

end MicrobootModifiers
