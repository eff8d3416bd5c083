import Bhyve.Microbios.Int15
import Bhyve.Microbios.Commands

/-!
The three memory-size services of INT 15h. The E820h table is a tiling of the guest's low memory;
E801h and 8Ah compute the same quantity on their own.
-/
namespace Microbios
open ByteMemory BlockIf

structure E820Entry where
  addr : Nat
  size : Nat
  type : Nat
  deriving DecidableEq

def readEntry (mem : Mem) (buf : Nat) : E820Entry :=
  ⟨(read64 mem buf).toNat, (read64 mem (buf + 8)).toNat, (read32 mem (buf + 16)).toNat⟩

def lowMap (lowmem : Nat) : List E820Entry :=
  [⟨0, 0x500, 2⟩, ⟨0x500, 0xa0000 - 0x500, 1⟩, ⟨0xa0000, 0x100000 - 0xa0000, 2⟩,
   ⟨0x100000, lowmem - 0x100000, 1⟩]

/-- Sorted and disjoint entries that cover [0, top) and nothing else. -/
structure Tiles (entries : List E820Entry) (top : Nat) : Prop where
  sorted : entries.Pairwise fun a b => a.addr + a.size ≤ b.addr
  covers : ∀ x, (∃ e ∈ entries, e.addr ≤ x ∧ x < e.addr + e.size) ↔ x < top

theorem low_map_tiles (lowmem : Nat) (above : 0x100000 ≤ lowmem) : Tiles (lowMap lowmem) lowmem := by
  constructor
  · simp [lowMap]
  · intro x
    simp only [lowMap, List.mem_cons, List.not_mem_nil, or_false, exists_eq_or_imp, exists_eq_left]
    omega

structure GuestCall where
  regs : InthRegs
  mem : Mem

def e820Request (call : GuestCall) (ebx : BitVec 32) : InthRegs :=
  { call.regs with eax := 0xe820, edx := smapSignature, ebx := ebx }

def callBuffer (call : GuestCall) : Nat := segOffset call.regs.es call.regs.edi

/-- The buffer takes an entry and does not lie over the flags word of BIOS_VARS. -/
structure UsableBuffer (host : Host) (call : GuestCall) : Prop where
  long : e820EntrySize ≤ (regWord call.regs.ecx).toNat
  mapped : host.mapped (callBuffer call) e820EntrySize = true
  apart : callBuffer call + e820EntrySize ≤ varsFlags ∨ varsFlags + 2 ≤ callBuffer call

/-- The guest's loop: call, take the entry from the buffer, go on with the EBX returned
    until it is zero. The result is the entries and the last EBX. -/
def e820Iterate (host : Host) : Machine → BitVec 32 → List GuestCall →
    Except Fault (List E820Entry × BitVec 32)
  | _, ebx, [] => .ok ([], ebx)
  | m, ebx, call :: rest =>
      match handleInt15 host { m with mem := call.mem } (e820Request call ebx) with
      | .error fault => .error fault
      | .ok r =>
          if r.regs.cf then .ok ([], r.machine.vcpu.ebx)
          else
            let entry := readEntry r.machine.mem (callBuffer call)
            if r.machine.vcpu.ebx = 0 then .ok ([entry], 0)
            else (e820Iterate host r.machine r.machine.vcpu.ebx rest).map
              fun tail => (entry :: tail.1, tail.2)

structure E820Ready (host : Host) (m : Machine) : Prop where
  count : m.e820Entries = 4
  table : ∃ tbl, m.e820Tbl = some tbl ∧
    ∀ k e, (lowMap host.lowmem)[k]? = some e → readEntry tbl (e820EntrySize * k) = e

theorem table_word (mem : Mem) (memsize : BitVec 32) (j : Nat) (w : BitVec 32)
    (stored : (e820Words memsize)[j]? = some w) :
    read32 (fun i => writeE820Block mem memsize (e820InfoBlock + 4 + i)) (4 * j) = w := by
  have shifted : read32 (fun i => writeE820Block mem memsize (e820InfoBlock + 4 + i)) (4 * j) =
      read32 (writeE820Block mem memsize) (e820InfoBlock + 4 + 4 * j) :=
    read32_congr fun i _ => congrArg (writeE820Block mem memsize) (Nat.add_assoc _ _ _).symm
  exact read32_writeWords _ _ _ _ _ stored

theorem table_entry (mem : Mem) (memsize : BitVec 32) (k : Nat) (a b c d t : BitVec 32)
    (first : (e820Words memsize)[5 * k]? = some a)
    (second : (e820Words memsize)[5 * k + 1]? = some b)
    (third : (e820Words memsize)[5 * k + 2]? = some c)
    (fourth : (e820Words memsize)[5 * k + 3]? = some d)
    (fifth : (e820Words memsize)[5 * k + 4]? = some t) :
    readEntry (fun i => writeE820Block mem memsize (e820InfoBlock + 4 + i)) (e820EntrySize * k) =
      ⟨(b ++ a).toNat, (d ++ c).toNat, t.toNat⟩ := by
  have at0 := table_word mem memsize _ _ first
  have at1 := table_word mem memsize _ _ second
  have at2 := table_word mem memsize _ _ third
  have at3 := table_word mem memsize _ _ fourth
  have at4 := table_word mem memsize _ _ fifth
  rw [show 4 * (5 * k) = e820EntrySize * k by unfold e820EntrySize; omega] at at0
  rw [show 4 * (5 * k + 1) = e820EntrySize * k + 4 by unfold e820EntrySize; omega] at at1
  rw [show 4 * (5 * k + 2) = e820EntrySize * k + 8 by unfold e820EntrySize; omega] at at2
  rw [show 4 * (5 * k + 3) = e820EntrySize * k + 8 + 4 by unfold e820EntrySize; omega] at at3
  rw [show 4 * (5 * k + 4) = e820EntrySize * k + 16 by unfold e820EntrySize; omega] at at4
  simp only [readEntry, read64, at0, at1, at2, at3, at4]

theorem setup_ready (host : Host) (m : Machine) (unset : m.e820Tbl = none)
    (above : 0x100000 ≤ host.lowmem) (below : host.lowmem < 2 ^ 32) :
    E820Ready host (microbiosSetupShared host m) := by
  refine ⟨rfl, _, rfl, ?_⟩
  rw [unset]
  intro k e stored
  dsimp only [Option.getD_none]
  generalize write8 (write16 (write8 (write16 (write16 (write8 m.mem bdaNumberOfDrives
    (BitVec.ofNat 8 m.disks.num)) bdaCom1 0x3f8) bdaMemSize 640) bdaTextRowsMinusOne 24)
    bdaTextColumns 80) bdaVidMode 3 = mem
  match k with
  | 0 =>
    cases stored
    exact table_entry mem _ 0 0x0 0x0 0x500 0x0 0x2 rfl rfl rfl rfl rfl
  | 1 =>
    cases stored
    exact table_entry mem _ 1 0x500 0x0 (0xa0000 - 0x500) 0x0 0x1 rfl rfl rfl rfl rfl
  | 2 =>
    cases stored
    exact table_entry mem _ 2 0xa0000 0x0 (0x100000 - 0xa0000) 0x0 0x2 rfl rfl rfl rfl rfl
  | 3 =>
    cases stored
    have size : ((0x0 : BitVec 32) ++ (BitVec.ofNat 32 host.lowmem - 0x100000)).toNat =
        host.lowmem - 0x100000 := by
      have difference : (BitVec.ofNat 32 host.lowmem - 0x100000).toNat =
          host.lowmem - 0x100000 := by bv_omega
      rw [BitVec.toNat_append, difference]
      simp
    have entry := table_entry mem (BitVec.ofNat 32 host.lowmem) 3 0x100000 0x0
      (BitVec.ofNat 32 host.lowmem - 0x100000) 0x0 0x1 rfl rfl rfl rfl rfl
    rw [size] at entry
    exact entry
  | k + 4 => simp [lowMap] at stored

theorem switch_e8 {host : Host} {m : Machine} {regs : InthRegs}
    (function : regHibyte regs.eax = 0xe8) : int15Switch host m regs =
      if regLobyte regs.eax = 0x01 then .ok (int15MemSize host m regs)
      else int15E820 host m regs := by
  simp [int15Switch, function]

variable {host : Host} {m : Machine} {regs : InthRegs} {r : Returned}

theorem switch_8a (function : regHibyte regs.eax = 0x8a) :
    int15Switch host m regs = .ok (int15ExtendedSize host m regs) := by
  simp [int15Switch, function]

theorem read_entry_copied (mem tbl : Mem) (buf k : Nat) (flags : BitVec 16)
    (apart : buf + e820EntrySize ≤ varsFlags ∨ varsFlags + 2 ≤ buf) :
    readEntry (write16 (copyInto mem buf e820EntrySize fun i => tbl (e820EntrySize * k + i))
      varsFlags flags) buf = readEntry tbl (e820EntrySize * k) := by
  have byte (i : Nat) (inside : i < e820EntrySize) :
      write16 (copyInto mem buf e820EntrySize fun i => tbl (e820EntrySize * k + i))
        varsFlags flags (buf + i) = tbl (e820EntrySize * k + i) := by
    rw [write16_other _ _ (by omega) (by omega)]
    exact copyInto_inside mem _ inside
  have at8 (i : Nat) (inside : i < 8) :
      write16 (copyInto mem buf e820EntrySize fun i => tbl (e820EntrySize * k + i))
        varsFlags flags (buf + 8 + i) = tbl (e820EntrySize * k + 8 + i) := by
    rw [Nat.add_assoc, Nat.add_assoc]
    exact byte (8 + i) (by unfold e820EntrySize; omega)
  have at16 (i : Nat) (inside : i < 4) :
      write16 (copyInto mem buf e820EntrySize fun i => tbl (e820EntrySize * k + i))
        varsFlags flags (buf + 16 + i) = tbl (e820EntrySize * k + 16 + i) := by
    rw [Nat.add_assoc, Nat.add_assoc]
    exact byte (16 + i) (by unfold e820EntrySize; omega)
  have first := read64_congr fun i (inside : i < 8) => byte i (by unfold e820EntrySize; omega)
  simp only [readEntry, first, read64_congr at8, read32_congr at16]

theorem continuation_word (k : Nat) (small : k < 4) : (regWord (BitVec.ofNat 32 k)).toNat = k := by
  match k, small with
  | 0, _ => rfl
  | 1, _ => rfl
  | 2, _ => rfl
  | 3, _ => rfl

theorem e820_call (host : Host) (m : Machine) (call : GuestCall) (ready : E820Ready host m)
    (usable : UsableBuffer host call) (k : Nat) (small : k < 4) :
    ∃ r, handleInt15 host { m with mem := call.mem } (e820Request call (BitVec.ofNat 32 k)) = .ok r ∧
      r.regs.cf = false ∧ r.machine.vcpu.ebx = BitVec.ofNat 32 ((k + 1) % 4) ∧
      (lowMap host.lowmem)[k]? = some (readEntry r.machine.mem (callBuffer call)) ∧
      E820Ready host r.machine := by
  obtain ⟨count, tbl, stored, entries⟩ := ready
  obtain ⟨mem, vcpu, disks, errno, a20Mode, e820Entries, e820Tbl⟩ := m
  subst count stored
  have word := continuation_word k small
  have function : regHibyte (e820Request call (BitVec.ofNat 32 k)).eax = 0xe8 := by
    simp only [e820Request]
    decide
  have notE801 : ¬ regLobyte (e820Request call (BitVec.ofNat 32 k)).eax = 0x01 := by
    simp only [e820Request]
    decide
  have accepted : ¬ e820Refused ⟨call.mem, vcpu, disks, errno, a20Mode, 4, some tbl⟩
      (e820Request call (BitVec.ofNat 32 k)) := by
    simp only [e820Refused, e820Request, word, not_or, Nat.not_lt, Nat.not_le, not_not]
    exact ⟨by decide, trivial, usable.long, small⟩
  have there : host.mapped (segOffset call.regs.es call.regs.edi) e820EntrySize = true :=
    usable.mapped
  have switched := @switch_e8 host ⟨call.mem, vcpu, disks, errno, a20Mode, 4, some tbl⟩ _ function
  rw [if_neg notE801, int15E820, if_neg accepted] at switched
  simp only [e820Request, there, Bool.true_eq_false, ↓reduceIte, word] at switched
  obtain ⟨e, found⟩ : ∃ e, (lowMap host.lowmem)[k]? = some e := by
    rw [List.getElem?_eq_getElem (show k < (lowMap host.lowmem).length from small)]
    exact ⟨_, rfl⟩
  refine ⟨_, handle_int15_of_switch switched, clear_cf_cf _, rfl, ?_, rfl, tbl, rfl, entries⟩
  rw [found]
  have copied := read_entry_copied call.mem tbl (callBuffer call) k
    (call.regs.eflags &&& ~~~eflagsCf) usable.apart
  rw [entries k e found] at copied
  exact congrArg some copied.symm

theorem e820_iterate_from (host : Host) (calls : List GuestCall) (m : Machine) (k : Nat)
    (ready : E820Ready host m) (usable : ∀ call ∈ calls, UsableBuffer host call) (small : k < 4)
    (enough : 4 - k ≤ calls.length) :
    e820Iterate host m (BitVec.ofNat 32 k) calls = .ok ((lowMap host.lowmem).drop k, 0) := by
  induction calls generalizing m k with
  | nil =>
    simp only [List.length_nil] at enough
    omega
  | cons call rest ih =>
    obtain ⟨r, returned, clear, next, entry, after⟩ :=
      e820_call host m call ready (usable call (by simp)) k small
    have split_map : (lowMap host.lowmem).drop k =
        readEntry r.machine.mem (callBuffer call) :: (lowMap host.lowmem).drop (k + 1) := by
      obtain ⟨inside, same⟩ := List.getElem?_eq_some_iff.mp entry
      rw [← same]
      exact List.drop_eq_getElem_cons inside
    simp only [e820Iterate, returned, clear, Bool.false_eq_true, ↓reduceIte, next]
    by_cases last : k = 3
    · subst last
      rw [if_pos (by decide), split_map]
      rfl
    · have smaller : (k + 1) % 4 = k + 1 := Nat.mod_eq_of_lt (by omega)
      have more : ¬ BitVec.ofNat 32 (k + 1) = 0 := by bv_omega
      have tail := ih r.machine (k + 1) after (fun c member => usable c (by simp [member]))
        (by omega) (by simp only [List.length_cons] at enough; omega)
      rw [smaller, if_neg more, tail, split_map]
      rfl

def sixteenMb : Nat := 0x1000000

/-- AX and BX of E801h, in KB and in blocks of 64 KB, denote [1 MB, lowmem) as far as
    whole blocks can. -/
def E801Denotes (host : Host) (r : Returned) : Prop :=
  1024 * (regWord r.machine.vcpu.eax).toNat = sixteenMb - 0x100000 ∧
    (regWord r.machine.vcpu.ebx).toNat = (host.lowmem - sixteenMb) / 0x10000

/-- DX:AX of 8Ah is the number of KB in [1 MB, lowmem). -/
def ExtendedDenotes (host : Host) (r : Returned) : Prop :=
  (regWord r.machine.vcpu.edx).toNat * 0x10000 + (regWord r.machine.vcpu.eax).toNat =
    (host.lowmem - 0x100000) / 1024

theorem low_word_merge (x y : BitVec 32) :
    regWord ((x &&& 0xffff0000) ||| (y &&& 0xffff)) = regWord y := by
  have cleared : x &&& 0xffff0000 &&& 0xffff = 0#32 := by
    rw [BitVec.and_assoc]
    exact BitVec.and_zero
  rw [regWord, BitVec.and_or_distrib_right, cleared, BitVec.zero_or, BitVec.and_assoc]
  rfl

theorem e801_blocks (function : regHibyte regs.eax = 0xe8) (e801 : regLobyte regs.eax = 0x01)
    (returned : handleInt15 host m regs = .ok r) (low : 16 ≤ host.lowmem)
    (high : host.lowmem < 2 ^ 32) :
    (regWord r.machine.vcpu.ebx).toNat = 16 * ((host.lowmem - 16) % 4096) := by
  have switched := @switch_e8 host m regs function
  rw [if_pos e801] at switched
  rw [handle_int15_of_switch switched] at returned
  cases returned
  have written : (int15MemSize host m regs).leave.machine.vcpu.ebx =
      (regs.ebx &&& 0xffff0000) |||
        (((BitVec.ofNat 32 host.lowmem - 16) * 1024 / 64) &&& 0xffff) := rfl
  have difference : (BitVec.ofNat 32 host.lowmem - 16).toNat = host.lowmem - 16 := by bv_omega
  have scale : (1024 : BitVec 32).toNat = 1024 := rfl
  have divisor : (64 : BitVec 32).toNat = 64 := rfl
  rw [written, low_word_merge, reg_word_to_nat, BitVec.toNat_udiv, BitVec.toNat_mul, difference,
    scale, divisor]
  omega

theorem extended_low_word (function : regHibyte regs.eax = 0x8a)
    (returned : handleInt15 host m regs = .ok r) (low : 0x100000 ≤ host.lowmem)
    (high : host.lowmem < 2 ^ 32) :
    (regWord r.machine.vcpu.eax).toNat = (host.lowmem - 0x100000) % 0x10000 := by
  rw [handle_int15_of_switch (switch_8a function)] at returned
  cases returned
  have written : (int15ExtendedSize host m regs).leave.machine.vcpu.eax =
      regWord (BitVec.ofNat 32 host.lowmem - 0x100000) := rfl
  have difference : (BitVec.ofNat 32 host.lowmem - 0x100000).toNat = host.lowmem - 0x100000 := by
    bv_omega
  rw [written, reg_word_to_nat, reg_word_to_nat, difference]
  omega

theorem sizes_never_agree (n : Nat) (blocks : 16 * ((n + 4080) % 4096) = n / 65536)
    (kilobytes : n % 65536 = (15360 + n / 1024) % 65536) : False := by
  obtain ⟨t, t_def⟩ : ∃ t, t = (n + 4080) % 4096 := ⟨_, rfl⟩
  obtain ⟨v, v_def⟩ : ∃ v, v = n % 65536 / 1024 := ⟨_, rfl⟩
  have whole : n / 1024 = 1024 * t + v := by omega
  have repeated : n % 65536 = 1025 * v := by omega
  omega

theorem services_differ {m' : Machine} {regs' : InthRegs} {r' : Returned}
    (low : sixteenMb ≤ host.lowmem) (high : host.lowmem < 2 ^ 32)
    (blocks : regHibyte regs.eax = 0xe8 ∧ regLobyte regs.eax = 0x01)
    (returned : handleInt15 host m regs = .ok r) (kilobytes : regHibyte regs'.eax = 0x8a)
    (returned' : handleInt15 host m' regs' = .ok r') :
    ¬ (E801Denotes host r ∧ ExtendedDenotes host r') := by
  unfold sixteenMb at low
  rintro ⟨⟨-, bx⟩, dxax⟩
  rw [e801_blocks blocks.1 blocks.2 returned (by omega) high] at bx
  unfold ExtendedDenotes at dxax
  rw [extended_low_word kilobytes returned' (by omega) high, reg_word_to_nat] at dxax
  unfold sixteenMb at bx
  obtain ⟨n, size⟩ : ∃ n, host.lowmem = 0x1000000 + n := ⟨host.lowmem - 0x1000000, by omega⟩
  have bytes : (0x1000000 + n - 16) % 4096 = (n + 4080) % 4096 := by omega
  have past : 0x1000000 + n - 0x1000000 = n := by omega
  have word : (0x1000000 + n - 0x100000) % 0x10000 = n % 65536 := by omega
  have kilo : (0x1000000 + n - 0x100000) / 1024 = 15360 + n / 1024 := by omega
  rw [size, bytes, past] at bx
  rw [size, word, kilo] at dxax
  exact sizes_never_agree n bx (by omega)

/-- After setup, for every low-memory size from 16 MB to 3 GB: the E820h loop returns the
    four entries once and in order, and they tile the memory; but E801h and 8Ah, called
    from whatever state, never both denote the memory above 1 MB. -/
theorem e820_complete_sizes_differ (host : Host) (m : Machine) (unset : m.e820Tbl = none)
    (low : sixteenMb ≤ host.lowmem) (high : host.lowmem ≤ 3 * 2 ^ 30) :
    ((∀ calls : List GuestCall, (∀ call ∈ calls, UsableBuffer host call) → 4 ≤ calls.length →
        e820Iterate host (microbiosSetupShared host m) 0 calls = .ok (lowMap host.lowmem, 0)) ∧
      Tiles (lowMap host.lowmem) host.lowmem) ∧
    ∀ (before before' : Machine) (regs regs' : InthRegs) (r r' : Returned),
      regHibyte regs.eax = 0xe8 ∧ regLobyte regs.eax = 0x01 → handleInt15 host before regs = .ok r →
      regHibyte regs'.eax = 0x8a → handleInt15 host before' regs' = .ok r' →
      ¬ (E801Denotes host r ∧ ExtendedDenotes host r') := by
  have above : 0x100000 ≤ host.lowmem := by
    unfold sixteenMb at low
    omega
  have ready := setup_ready host m unset above (by omega)
  refine ⟨⟨?_, low_map_tiles _ above⟩, ?_⟩
  · intro calls usable enough
    exact e820_iterate_from host calls _ 0 ready usable (by omega) enough
  · intro before before' regs regs' r r' blocks returned kilobytes returned'
    exact services_differ low (by omega) blocks returned kilobytes returned'

def mbHost (megabytes : Nat) : Host := ⟨fun _ _ => true, megabytes * 0x100000⟩

theorem e820_complete_sizes_differ_256mb :
    ((∀ calls : List GuestCall, (∀ call ∈ calls, UsableBuffer (mbHost 256) call) →
        4 ≤ calls.length →
        e820Iterate (mbHost 256) (microbiosSetupShared (mbHost 256) (freshMachine noDisks)) 0 calls =
          .ok (lowMap 0x10000000, 0)) ∧
      Tiles (lowMap 0x10000000) 0x10000000) ∧
    ¬ (E801Denotes (mbHost 256) (int15MemSize (mbHost 256) (freshMachine noDisks)
          (blankRegs 0xe801 0 0)).leave ∧
        ExtendedDenotes (mbHost 256) (int15ExtendedSize (mbHost 256) (freshMachine noDisks)
          (blankRegs 0x8a00 0 0)).leave) := by
  obtain ⟨map, differ⟩ := e820_complete_sizes_differ (mbHost 256) (freshMachine noDisks) rfl
    (by decide) (by decide)
  exact ⟨map, differ (freshMachine noDisks) (freshMachine noDisks) (blankRegs 0xe801 0 0)
    (blankRegs 0x8a00 0 0) _ _ (by decide) rfl (by decide) rfl⟩

theorem sizes_of_256mb_wrong :
    ∃ r r', handleInt15 (mbHost 256) (freshMachine noDisks) (blankRegs 0xe801 0 0) = .ok r ∧
      handleInt15 (mbHost 256) (freshMachine noDisks) (blankRegs 0x8a00 0 0) = .ok r' ∧
      ¬ E801Denotes (mbHost 256) r ∧ ¬ ExtendedDenotes (mbHost 256) r' := by
  refine ⟨_, _, rfl, rfl, ?_, ?_⟩
  · unfold E801Denotes
    decide
  · unfold ExtendedDenotes
    decide

end Microbios
