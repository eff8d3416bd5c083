import Bhyve.E82545.Receive
import Bhyve.Lib.Fallible
import Bhyve.Lib.StepRuns
import Mathlib.Algebra.BigOperators.Group.List.Basic
import Mathlib.Tactic.Ring

namespace E82545
open StepRuns Fallible List

def available (size rdh rdt : Nat) : Nat := (size + rdt - rdh) % size

def usedSince : List RxNote → Nat
  | .packet _ _ _ _ _ _ entries :: rest => entries.length + usedSince rest
  | _ => 0

structure PacketSound (size bufsz rdh rdt len used : Nat) (entries : List (Nat × RxDesc)) : Prop where
  count : entries.length = (len + bufsz - 1) / bufsz
  places : entries.map Prod.fst =
    (List.range entries.length).map fun i => (rdh + used + i) % size
  inside : used + entries.length ≤ available size rdh rdt
  complete : ∀ e ∈ entries, e.2.status &&& rxdStatDd ≠ 0
  ends : ∀ i e, entries[i]? = some e →
    (e.2.status &&& rxdStatEop ≠ 0 ↔ i + 1 = entries.length)
  total : (entries.map fun e => e.2.length.toNat).sum = len

/-- The head goes past the used descriptors, and not past the tail. -/
structure AdvanceSound (size rdh rdt head used : Nat) : Prop where
  head : head = (rdh + used) % size
  inside : used ≤ available size rdh rdt

def NotesSound : List RxNote → Prop
  | [] => True
  | .packet _ size bufsz rdh rdt len entries :: rest =>
      PacketSound size bufsz rdh rdt len (usedSince rest) entries ∧ NotesSound rest
  | .advance size rdh rdt head :: rest =>
      AdvanceSound size rdh rdt head (usedSince rest) ∧ NotesSound rest

def RxThread.run : RxThread → Option RxRun
  | .idle => none
  | .ready r => some r
  | .received r _ _ => some r
  | .done r => some r

structure RxSound (s : RxSys) : Prop where
  notes : NotesSound s.notes
  vec : ∀ r, s.thread.run = some r → r.maxpktdesc ≤ 64

def RxGoes (map : Guest2Host) (s : RxSys) (e : RxEvent) : Prop :=
  match rxStep map s e with
  | .ok s' => RxSound s'
  | .error fault => fault = .assertion

def KeepsRing (rx : Rx) (offset value : BitVec 32) : Prop :=
  (offset = regRdh → value.setWidth 16 = rx.rdh) ∧
    (offset = regRdlen → value &&& ~~~0xfff0007f = rx.rdlen) ∧
    (offset = regRdt → (value.setWidth 16).toNat < rxEntries rx ∧
      available (rxEntries rx) rx.rdh.toNat rx.rdt.toNat ≤
        available (rxEntries rx) rx.rdh.toNat (value.setWidth 16).toNat)

def StartsInRing (rx : Rx) : Prop :=
  rx.rxEnabled = true → rx.rxLoopback = false →
    0 < rxEntries rx ∧ rx.rdh.toNat < rxEntries rx ∧ rx.rdt.toNat < rxEntries rx

def FitsLeft (thread : RxThread) : Prop :=
  match thread with
  | .received r len n => (n : Int) ≤ r.left ∧ len % r.bufsz ≠ 0
  | _ => True

def RxClean (s : RxSys) : RxEvent → Prop
  | .write offset value => s.rx.rxActive = true → KeepsRing s.rx offset value
  | .wake k => s.rx.rxActive = true → s.waiters[k]? ≠ some .resetTx
  | .callback => StartsInRing s.rx
  | .receive _ => s.rx.rxActive = true → s.rx.rxdesc ≠ none
  | .fill => s.rx.rxActive = true → s.rx.rxdesc ≠ none ∧ FitsLeft s.thread
  | .finish => True

section

structure RunInv (rx : Rx) (used : Nat) (r : RxRun) : Prop where
  active : rx.rxActive = true
  size : r.size = rxEntries rx
  headIn : rx.rdh.toNat < r.size
  tailIn : rx.rdt.toNat < r.size
  short : r.size < 2 ^ 16
  buffer : 0 < r.bufsz
  bounded : r.bufsz < 2 ^ 16
  vec : r.maxpktdesc ≤ 64
  head : r.head = (rx.rdh.toNat + used) % r.size
  left : 0 ≤ r.left
  room : (used : Int) + r.left ≤ available r.size rx.rdh.toNat rx.rdt.toNat

def ThreadInv (rx : Rx) (used : Nat) : RxThread → Prop
  | .idle => rx.rxActive = false ∧ used = 0
  | .ready r => RunInv rx used r
  | .received r len n => RunInv rx used r ∧ n = (len + r.bufsz - 1) / r.bufsz ∧ 0 < len
  | .done r => RunInv rx used r

structure RxInv (s : RxSys) : Prop where
  thread : ThreadInv s.rx (usedSince s.notes) s.thread
  notes : NotesSound s.notes
  short : rxEntries s.rx < 2 ^ 16

variable {rx : Rx} {used : Nat}

theorem thread_run {thread : RxThread} (inv : ThreadInv rx used thread) {r : RxRun}
    (running : thread.run = some r) : RunInv rx used r := by
  cases thread with
  | idle => cases running
  | ready r' => cases running; exact inv
  | received r' len n => cases running; exact inv.1
  | done r' => cases running; exact inv

theorem inv_sound {s : RxSys} (inv : RxInv s) : RxSound s :=
  ⟨inv.notes, fun _ running => (thread_run inv.thread running).vec⟩

theorem run_kept {rx' : Rx} {r : RxRun} (inv : RunInv rx used r)
    (active : rx'.rxActive = rx.rxActive) (rdlen : rx'.rdlen = rx.rdlen) (rdh : rx'.rdh = rx.rdh)
    (inside : rx'.rdt.toNat < rxEntries rx)
    (grows : available (rxEntries rx) rx.rdh.toNat rx.rdt.toNat ≤ available (rxEntries rx) rx.rdh.toNat rx'.rdt.toNat) :
    RunInv rx' used r := by
  have size := inv.size
  have same : rxEntries rx' = rxEntries rx := by rw [rxEntries, rdlen, rxEntries]
  refine ⟨active.trans inv.active, size.trans same.symm, rdh ▸ inv.headIn, by omega, inv.short,
    inv.buffer, inv.bounded, inv.vec, rdh ▸ inv.head, inv.left, ?_⟩
  have room := inv.room
  rw [size] at room ⊢
  rw [rdh]
  omega

theorem thread_kept {rx' : Rx} {thread : RxThread} (inv : ThreadInv rx used thread)
    (active : rx'.rxActive = rx.rxActive)
    (kept : rx.rxActive = true → ∀ r, RunInv rx used r → RunInv rx' used r) :
    ThreadInv rx' used thread := by
  cases thread with
  | idle => exact ⟨active.trans inv.1, inv.2⟩
  | ready r => exact kept (RunInv.active inv) r inv
  | received r len n => exact ⟨kept inv.1.active r inv.1, inv.2⟩
  | done r => exact kept (RunInv.active inv) r inv

end

section
variable {map : Guest2Host} {s s' : RxSys}

structure WriteFrame (offset value : BitVec 32) (s s' : RxSys) : Prop where
  thread : s'.thread = s.thread
  notes : s'.notes = s.notes
  active : s'.rx.rxActive = s.rx.rxActive
  rdlen : s'.rx.rdlen = s.rx.rdlen ∨
    offset = regRdlen ∧ s'.rx.rdlen = value &&& ~~~0xfff0007f
  rdh : s'.rx.rdh = s.rx.rdh ∨ offset = regRdh ∧ s'.rx.rdh = value.setWidth 16
  rdt : s'.rx.rdt = s.rx.rdt ∨ offset = regRdt ∧ s'.rx.rdt = value.setWidth 16

theorem ctl_frame (offset value : BitVec 32) (s : RxSys) :
    WriteFrame offset value s (rxCtl map value s) := by
  simp only [rxCtl, rxUpdateRdba]
  split
  · exact ⟨rfl, rfl, rfl, .inl rfl, .inl rfl, .inl rfl⟩
  · split <;> exact ⟨rfl, rfl, rfl, .inl rfl, .inl rfl, .inl rfl⟩

theorem devctl_frame (offset value : BitVec 32) (s : RxSys) :
    WriteFrame offset value s (devctl value s) := by
  simp only [devctl]
  split <;> exact ⟨rfl, rfl, rfl, .inl rfl, .inl rfl, .inl rfl⟩

variable {offset value : BitVec 32}

theorem write_frame (ran : writeRegister map offset value s = .ok s') :
    WriteFrame offset value s s' := by
  have plain : ∀ rx : Rx, rx.rxActive = s.rx.rxActive → rx.rdlen = s.rx.rdlen →
      rx.rdh = s.rx.rdh → rx.rdt = s.rx.rdt → WriteFrame offset value s { s with rx := rx } :=
    fun rx active rdlen rdh rdt => ⟨rfl, rfl, active, .inl rdlen, .inl rdh, .inl rdt⟩
  obtain ⟨-, ran⟩ | ⟨-, ran⟩ := ite_split ran
  · cases ran; exact plain _ rfl rfl rfl rfl
  obtain ⟨-, ran⟩ | ⟨-, ran⟩ := ite_split ran
  · cases ran; exact devctl_frame offset value s
  obtain ⟨-, ran⟩ | ⟨-, ran⟩ := ite_split ran
  · cases ran; exact plain _ rfl rfl rfl rfl
  obtain ⟨-, ran⟩ | ⟨-, ran⟩ := ite_split ran
  · cases ran; exact ctl_frame offset value s
  obtain ⟨-, ran⟩ | ⟨-, ran⟩ := ite_split ran
  · cases ran
    unfold writeRdbal rxUpdateRdba
    split <;> exact plain _ rfl rfl rfl rfl
  obtain ⟨-, ran⟩ | ⟨-, ran⟩ := ite_split ran
  · obtain ⟨-, ran⟩ | ⟨-, ran⟩ := ite_split ran
    · cases ran
    · cases ran; exact plain _ rfl rfl rfl rfl
  obtain ⟨rdlen, ran⟩ | ⟨-, ran⟩ := ite_split ran
  · obtain ⟨-, ran⟩ | ⟨-, ran⟩ := ite_split ran
    · cases ran
    · cases ran; exact ⟨rfl, rfl, rfl, .inr ⟨rdlen, rfl⟩, .inl rfl, .inl rfl⟩
  obtain ⟨rdh, ran⟩ | ⟨-, ran⟩ := ite_split ran
  · cases ran; exact ⟨rfl, rfl, rfl, .inl rfl, .inr ⟨rdh, rfl⟩, .inl rfl⟩
  obtain ⟨rdt, ran⟩ | ⟨-, ran⟩ := ite_split ran
  · cases ran; exact ⟨rfl, rfl, rfl, .inl rfl, .inl rfl, .inr ⟨rdt, rfl⟩⟩
  obtain ⟨-, ran⟩ | ⟨-, ran⟩ := ite_split ran
  · cases ran; exact plain _ rfl rfl rfl rfl
  obtain ⟨-, ran⟩ | ⟨-, ran⟩ := ite_split ran
  · cases ran; exact plain _ rfl rfl rfl rfl
  cases ran
  exact ⟨rfl, rfl, rfl, .inl rfl, .inl rfl, .inl rfl⟩

theorem rdlen_mask_short (value : BitVec 32) : (value &&& ~~~0xfff0007f).toNat / 16 < 2 ^ 16 := by
  have bound : (value &&& ~~~0xfff0007f).toNat ≤ (~~~(0xfff0007f : BitVec 32)).toNat := by
    exact Nat.and_le_right
  have mask : (~~~(0xfff0007f : BitVec 32)).toNat = 0xfff80 := by decide
  omega

theorem write_inv (inv : RxInv s) (keeps : s.rx.rxActive = true → KeepsRing s.rx offset value)
    (ran : writeRegister map offset value s = .ok s') : RxInv s' := by
  obtain ⟨thread, notes, active, rdlen, rdh, rdt⟩ := write_frame ran
  refine ⟨?_, notes ▸ inv.notes, ?_⟩
  · rw [thread, notes]
    refine thread_kept inv.thread active fun live r run => ?_
    obtain ⟨headKept, sizeKept, tailKept⟩ := keeps live
    have sameLen : s'.rx.rdlen = s.rx.rdlen := by
      rcases rdlen with same | ⟨there, new⟩
      · exact same
      · exact new.trans (sizeKept there)
    have sameHead : s'.rx.rdh = s.rx.rdh := by
      rcases rdh with same | ⟨there, new⟩
      · exact same
      · exact new.trans (headKept there)
    rcases rdt with same | ⟨there, new⟩
    · refine run_kept run active sameLen sameHead ?_ (by rw [same])
      rw [same, ← run.size]
      exact run.tailIn
    · obtain ⟨inside, grows⟩ := tailKept there
      exact run_kept run active sameLen sameHead (new ▸ inside) (new ▸ grows)
  · rcases rdlen with same | ⟨-, new⟩
    · rw [rxEntries, same]
      exact inv.short
    · rw [rxEntries, new]
      exact rdlen_mask_short value

theorem wake_inv (inv : RxInv s) {k : Nat}
    (spares : s.rx.rxActive = true → s.waiters[k]? ≠ some .resetTx) : RxInv (wake k s) := by
  unfold wake
  split
  · split
    · exact inv
    · next still =>
      refine ⟨thread_kept inv.thread rfl fun live => absurd live still, inv.notes, inv.short⟩
  · split
    · exact inv
    · exact ⟨inv.thread, inv.notes, inv.short⟩
  · next waits =>
    refine ⟨thread_kept inv.thread rfl fun live => absurd waits (spares live), inv.notes, ?_⟩
    show 0 / 16 < 2 ^ 16
    omega
  · exact inv

theorem write_fault {fault : Fault} (ran : writeRegister map offset value s = .error fault) :
    fault = .assertion := by
  iterate 5
    obtain ⟨-, ran⟩ | ⟨-, ran⟩ := ite_split ran
    · cases ran
  obtain ⟨-, ran⟩ | ⟨-, ran⟩ := ite_split ran
  · obtain ⟨-, ran⟩ | ⟨-, ran⟩ := ite_split ran <;> cases ran
    rfl
  obtain ⟨-, ran⟩ | ⟨-, ran⟩ := ite_split ran
  · obtain ⟨-, ran⟩ | ⟨-, ran⟩ := ite_split ran <;> cases ran
    rfl
  iterate 4
    obtain ⟨-, ran⟩ | ⟨-, ran⟩ := ite_split ran
    · cases ran
  cases ran

end

theorem bufsz_range (rctl : BitVec 32) : 256 ≤ bufsz rctl ∧ bufsz rctl ≤ 16384 := by
  simp only [bufsz]
  iterate 7
    split
    · exact ⟨by decide, by decide⟩
  exact ⟨by decide, by decide⟩

theorem max_desc (rctl : BitVec 32) : maxPktDesc rctl ≤ 64 := by
  obtain ⟨low, -⟩ := bufsz_range rctl
  have packet : (if rctl &&& rctlLpe ≠ 0 then 16384 else 1522) ≤ 16384 := by split <;> omega
  refine Nat.lt_succ_iff.mp ((Nat.div_lt_iff_lt_mul (by omega)).mpr ?_)
  omega

theorem left_available {size : Nat} {rdt : BitVec 16} {head : Nat} (inside : head < size) :
    leftOf size rdt head = available size head rdt.toNat := by
  have sum : (size : Int) + rdt.toNat - head = ((size + rdt.toNat - head : Nat) : Int) := by omega
  rw [leftOf, sum, available]
  rfl

theorem adjusted_positive (rctl : BitVec 32) (len : Nat) : 0 < adjusted rctl len := by
  simp only [adjusted]
  split <;> split <;> omega

theorem buffers_hold {len size : Nat} (positive : 0 < size) (part : len % size ≠ 0) :
    (len + size - 1) / size = len / size + 1 := by
  have split := Nat.div_add_mod len size
  have inside := Nat.mod_lt len positive
  apply (Nat.div_eq_iff positive).mpr
  have expand : (len / size + 1) * size = size * (len / size) + size := by ring
  omega

section
variable {r : RxRun} {len n : Nat}

theorem updates_length (some_used : 0 < n) : (updates r len n).length = n := by
  simp only [updates, length_append, length_map, length_range, length_cons,
    length_nil]
  omega

theorem updates_places (some_used : 0 < n) :
    (updates r len n).map Prod.fst = (List.range n).map fun i => (r.head + i) % r.size := by
  obtain ⟨m, rfl⟩ := Nat.exists_eq_add_of_lt some_used
  simp only [updates, Nat.zero_add, Nat.add_sub_cancel, map_append, List.map_map, map_cons,
    map_nil, range_succ]
  rfl

theorem updates_complete : ∀ e ∈ updates r len n, e.2.status &&& rxdStatDd ≠ 0 := by
  intro e member
  rcases List.mem_append.mp member with full | last
  · obtain ⟨i, -, rfl⟩ := List.mem_map.mp full
    show rxdStatDd &&& rxdStatDd ≠ 0
    decide
  · rw [List.mem_singleton.mp last]
    show (rxdStatPif ||| rxdStatIxsm ||| rxdStatEop ||| rxdStatDd) &&& rxdStatDd ≠ 0
    decide

theorem updates_ends (some_used : 0 < n) (i : Nat) (e : Nat × RxDesc)
    (there : (updates r len n)[i]? = some e) :
    e.2.status &&& rxdStatEop ≠ 0 ↔ i + 1 = (updates r len n).length := by
  rw [updates_length some_used]
  rcases Nat.lt_or_ge i (n - 1) with before | last
  · rw [updates, getElem?_append_left (by simpa using before), getElem?_map,
      getElem?_range before] at there
    cases there
    have none_set : (fullDesc r).status &&& rxdStatEop = 0 := by
      show rxdStatDd &&& rxdStatEop = 0
      decide
    exact ⟨fun never => absurd none_set never, fun same => by omega⟩
  · rw [updates, getElem?_append_right (by simpa using last), length_map,
      length_range] at there
    rcases Nat.eq_zero_or_pos (i - (n - 1)) with first | beyond
    · rw [first] at there
      cases there
      refine ⟨fun _ => by omega, fun _ => ?_⟩
      show (rxdStatPif ||| rxdStatIxsm ||| rxdStatEop ||| rxdStatDd) &&& rxdStatEop ≠ 0
      decide
    · obtain ⟨k, place⟩ := Nat.exists_eq_add_of_lt beyond
      rw [place] at there
      simp at there

theorem updates_total (bounded : r.bufsz < 2 ^ 16) (positive : 0 < r.bufsz)
    (count : n = (len + r.bufsz - 1) / r.bufsz) (part : len % r.bufsz ≠ 0) :
    ((updates r len n).map fun e => e.2.length.toNat).sum = len := by
  have inside := Nat.mod_lt len positive
  have full : (BitVec.ofNat 16 r.bufsz).toNat = r.bufsz := by
    rw [BitVec.toNat_ofNat, Nat.mod_eq_of_lt bounded]
  have last : (BitVec.ofNat 16 (len % r.bufsz)).toNat = len % r.bufsz := by
    rw [BitVec.toNat_ofNat, Nat.mod_eq_of_lt (by omega)]
  have before : n - 1 = len / r.bufsz := by
    rw [count, buffers_hold positive part]
    rfl
  simp only [updates, map_append, List.map_map, map_cons, map_nil, sum_append,
    sum_cons, sum_nil, Nat.add_zero, lastDesc, last, Function.comp_def, fullDesc, full,
    map_const', length_range, sum_replicate_nat, before]
  rw [Nat.mul_comm]
  exact Nat.div_add_mod len r.bufsz

end

section
variable {map : Guest2Host} {s : RxSys}

theorem begin_inv (inv : RxInv s) (idle : s.thread = .idle) (starts : StartsInRing s.rx) :
    ∃ s', rxBegin s = .ok s' ∧ RxInv s' := by
  unfold rxBegin
  split
  · exact ⟨s, rfl, inv⟩
  · next takes =>
    rw [not_or] at takes
    obtain ⟨some_ring, headIn, tailIn⟩ :=
      starts (by simpa using takes.1) (by simpa using takes.2)
    dsimp only
    rw [if_neg (by omega)]
    split
    · exact ⟨s, rfl, inv⟩
    · next enough =>
      have start := inv.thread
      rw [idle] at start
      obtain ⟨low, high⟩ := bufsz_range s.rx.rctl
      refine ⟨_, rfl, ?_, inv.notes, inv.short⟩
      refine ⟨rfl, rfl, headIn, tailIn, inv.short, ?_, ?_, max_desc s.rx.rctl, ?_, ?_, ?_⟩
      · show 0 < bufsz s.rx.rctl
        omega
      · show bufsz s.rx.rctl < 2 ^ 16
        omega
      · rw [start.2, Nat.add_zero]
        exact (Nat.mod_eq_of_lt headIn).symm
      · rw [left_available headIn]
        exact Int.natCast_nonneg _
      · rw [start.2]
        show (0 : Int) + leftOf _ _ _ ≤ _
        rw [left_available headIn, Int.zero_add]

variable {r : RxRun}

theorem receive_inv (inv : RxInv s) (ready : s.thread = .ready r) (mapped : s.rx.rxdesc ≠ none)
    (p : Packet) : ∃ s', rxReceive p r s = .ok s' ∧ RxInv s' := by
  have run := inv.thread
  rw [ready] at run
  unfold rxReceive
  split
  · cases base : s.rx.rxdesc with
    | none => exact absurd base mapped
    | some b =>
      dsimp only
      split
      · exact ⟨_, rfl, run, inv.notes, inv.short⟩
      · split
        · exact ⟨_, rfl, run, inv.notes, inv.short⟩
        · exact ⟨_, rfl, ⟨run, rfl, adjusted_positive _ _⟩, inv.notes, inv.short⟩
  · exact ⟨_, rfl, run, inv.notes, inv.short⟩

theorem fill_inv {len n : Nat} (inv : RxInv s) (received : s.thread = .received r len n)
    (mapped : s.rx.rxdesc ≠ none) (left : (n : Int) ≤ r.left) (part : len % r.bufsz ≠ 0) :
    ∃ s', rxFill r len n s = .ok s' ∧ RxInv s' := by
  obtain ⟨run, count, -⟩ : ThreadInv s.rx (usedSince s.notes) (.received r len n) :=
    received ▸ inv.thread
  have size := run.size
  have room := run.room
  have some_used : 0 < n := by
    rw [count, buffers_hold run.buffer part]
    exact Nat.succ_pos _
  have length := @updates_length r len n some_used
  unfold rxFill
  cases base : s.rx.rxdesc with
  | none => exact absurd base mapped
  | some b =>
    refine ⟨_, rfl, ?_, ⟨?_, inv.notes⟩, inv.short⟩
    · show RunInv s.rx ((updates r len n).length + usedSince s.notes) _
      rw [length]
      refine ⟨run.active, size, run.headIn, run.tailIn, run.short, run.buffer, run.bounded, run.vec,
        ?_, ?_, ?_⟩
      · rw [run.head, Nat.mod_add_mod, Nat.add_assoc, Nat.add_comm n]
      · show 0 ≤ r.left - n
        omega
      · show ((n + usedSince s.notes : Nat) : Int) + (r.left - n) ≤
          available r.size s.rx.rdh.toNat s.rx.rdt.toNat
        omega
    · rw [← size]
      refine ⟨length.trans count, ?_, ?_, updates_complete, updates_ends some_used,
        updates_total run.bounded run.buffer count part⟩
      · rw [length, updates_places some_used]
        refine map_congr_left fun i _ => ?_
        rw [run.head, Nat.mod_add_mod]
      · omega

theorem finish_inv (inv : RxInv s) (done : s.thread = .done r) :
    ∃ s', rxFinish r s = .ok s' ∧ RxInv s' := by
  have run : RunInv s.rx (usedSince s.notes) r := by
    have thread := inv.thread
    rw [done] at thread
    exact thread
  have left := run.left
  have room := run.room
  refine ⟨_, rfl, ⟨rfl, rfl⟩, ⟨⟨?_, ?_⟩, inv.notes⟩, inv.short⟩
  · rw [← run.size]
    exact run.head
  · rw [← run.size]
    omega

end

section
variable {map : Guest2Host}

theorem clean_step {s : RxSys} (e : RxEvent) (inv : RxInv s) (clean : RxClean s e) :
    (∃ s', rxStep map s e = .ok s' ∧ RxInv s') ∨ rxStep map s e = .error .assertion := by
  cases e with
  | write offset value =>
    cases ran : writeRegister map offset value s with
    | ok s' => exact .inl ⟨s', ran, write_inv inv clean ran⟩
    | error fault => exact .inr (ran.trans (congrArg Except.error (write_fault ran)))
  | wake k => exact .inl ⟨wake k s, rfl, wake_inv inv clean⟩
  | callback =>
    simp only [rxStep]
    split
    · next idle => exact .inl (begin_inv inv idle clean)
    · exact .inl ⟨s, rfl, inv⟩
  | receive p =>
    simp only [rxStep]
    split
    · next r ready =>
      have run : ThreadInv s.rx (usedSince s.notes) (.ready r) := ready ▸ inv.thread
      exact .inl (receive_inv inv ready (clean (RunInv.active run)) p)
    · exact .inl ⟨s, rfl, inv⟩
  | fill =>
    simp only [rxStep]
    split
    · next r len n received =>
      have run : ThreadInv s.rx (usedSince s.notes) (.received r len n) := received ▸ inv.thread
      obtain ⟨mapped, fits⟩ := clean run.1.active
      rw [received] at fits
      exact .inl (fill_inv inv received mapped fits.1 fits.2)
    · exact .inl ⟨s, rfl, inv⟩
  | finish =>
    simp only [rxStep]
    split
    · next r done => exact .inl (finish_inv inv done)
    · exact .inl ⟨s, rfl, inv⟩

theorem clean_keeps (s : RxSys) (e : RxEvent) (s' : RxSys) (inv : RxInv s) (clean : RxClean s e)
    (ran : rxStep map s e = .ok s') : RxInv s' := by
  rcases @clean_step map s e inv clean with ⟨t, took, kept⟩ | stopped
  · rw [took] at ran
    cases ran
    exact kept
  · rw [stopped] at ran
    cases ran

theorem clean_goes (s : RxSys) (e : RxEvent) (inv : RxInv s) (clean : RxClean s e) :
    RxGoes map s e := by
  unfold RxGoes
  rcases @clean_step map s e inv clean with ⟨t, took, kept⟩ | stopped
  · rw [took]
    exact inv_sound kept
  · rw [stopped]

theorem rx_init_inv : RxInv rxInit := ⟨⟨rfl, rfl⟩, trivial, by decide⟩

instance (rx : Rx) (offset value : BitVec 32) : Decidable (KeepsRing rx offset value) :=
  inferInstanceAs (Decidable (_ ∧ _ ∧ _))

instance (rx : Rx) : Decidable (StartsInRing rx) := inferInstanceAs (Decidable (_ → _ → _))

instance : ∀ thread, Decidable (FitsLeft thread)
  | .received _ _ _ => inferInstanceAs (Decidable (_ ∧ _))
  | .idle => .isTrue trivial
  | .ready _ => .isTrue trivial
  | .done _ => .isTrue trivial

instance : ∀ s e, Decidable (RxClean s e)
  | _, .write _ _ => inferInstanceAs (Decidable (_ → _))
  | _, .wake _ => inferInstanceAs (Decidable (_ → _))
  | s, .callback => inferInstanceAs (Decidable (StartsInRing s.rx))
  | _, .receive _ => inferInstanceAs (Decidable (_ → _))
  | s, .fill => inferInstanceAs (Decidable (_ → s.rx.rxdesc ≠ none ∧ FitsLeft s.thread))
  | _, .finish => .isTrue trivial

def identityMap : Guest2Host := fun address _ => some address.toNat

def smallRing : List RxEvent :=
  [.write regRdlen 128, .write regRdt 7,
    .write regRctl (rctlEn ||| rctlSz256 ||| rctlSecrc), .callback]

def RxNote.lengths : RxNote → Option (Nat × Nat)
  | .packet _ _ _ _ _ len entries => some ((entries.map fun e => e.2.length.toNat).sum, len)
  | .advance _ _ _ _ => none

theorem note_lengths {s : RxSys} {said len : Nat} (sound : RxSound s)
    (first : s.notes.head?.bind RxNote.lengths = some (said, len)) : said = len := by
  have notes := sound.notes
  cases shape : s.notes with
  | nil =>
    rw [shape] at first
    cases first
  | cons note rest =>
    rw [shape] at first notes
    cases note with
    | packet base size bufsz rdh rdt l entries =>
      cases first
      exact notes.1.total
    | advance size rdh rdt head => cases first

end
end E82545
