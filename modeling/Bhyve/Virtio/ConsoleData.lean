import Bhyve.Virtio.ConsolePorts

namespace Vtcon
open ByteMemory Virtio BlockProc StepRuns
open Vtblk (vqHasDescs getchain_some)
open List hiding Mem

section
variable {descs : Descriptors} {vq : VqueueInfo}

def single (got : Got) : Option Nat :=
  if got.ret = 1 then got.iov.head?.map fun v => v.len.toNat else none

def buffersFrom (descs : Descriptors) : Nat → VqueueInfo → List (Option Nat)
  | 0, _ => []
  | n + 1, vq =>
      single (vqGetchain descs vtconHostcaps 1 vq) ::
        buffersFrom descs n { vq with lastAvail := vq.lastAvail + 1 }

def buffers (descs : Descriptors) (vq : VqueueInfo) : List (Option Nat) :=
  if hasFlag vq.flags vqAlloc then buffersFrom descs (vq.avail.idx - vq.lastAvail).toNat vq else []

def Softc.buffers (s : Softc) (q : Nat) : List (Option Nat) := Vtcon.buffers (s.descs q) (s.queues q)

theorem getchain_one (one : (vqGetchain descs vtconHostcaps 1 vq).ret = 1) :
    ∃ idx v, (vqGetchain descs vtconHostcaps 1 vq).pidx = some idx ∧
      (vqGetchain descs vtconHostcaps 1 vq).iov = [v] ∧
      single (vqGetchain descs vtconHostcaps 1 vq) = some v.len.toNat ∧
      (vqGetchain descs vtconHostcaps 1 vq).vq = { vq with lastAvail := vq.lastAvail + 1 } := by
  obtain ⟨⟨idx, head, -⟩, length, moved⟩ := getchain_some (Int.le_of_eq one.symm)
  rw [one] at length
  obtain ⟨v, only⟩ := List.length_eq_one_iff.mp length
  refine ⟨idx, v, head, only, ?_, moved⟩
  rw [single, if_pos one, only]
  rfl

theorem single_none (other : (vqGetchain descs vtconHostcaps 1 vq).ret ≠ 1) :
    single (vqGetchain descs vtconHostcaps 1 vq) = none := if_neg other

theorem buffers_none (nothing : vqHasDescs vq = false) : buffers descs vq = [] := by
  unfold buffers
  split
  · next alloc =>
    unfold vqHasDescs at nothing
    have same : vq.lastAvail = vq.avail.idx := by
      simpa [alloc] using nothing
    rw [same, BitVec.sub_self]
    rfl
  · rfl

theorem buffers_cons (ready : vqHasDescs vq = true) :
    buffers descs vq = single (vqGetchain descs vtconHostcaps 1 vq) ::
      buffers descs { vq with lastAvail := vq.lastAvail + 1 } := by
  unfold vqHasDescs at ready
  rw [Bool.and_eq_true, decide_eq_true_eq] at ready
  obtain ⟨alloc, differ⟩ := ready
  obtain ⟨n, count⟩ : ∃ n, (vq.avail.idx - vq.lastAvail).toNat = n + 1 :=
    ⟨(vq.avail.idx - vq.lastAvail).toNat - 1, by bv_omega⟩
  have left : (vq.avail.idx - (vq.lastAvail + 1)).toNat = n := by bv_omega
  unfold buffers
  rw [if_pos alloc, if_pos alloc, count, left, buffersFrom]

theorem buffers_relchain (idx : BitVec 16) (len : BitVec 32) :
    buffers descs (relchain vq idx len) = buffers descs vq := by
  have same : ∀ n, ∀ a b : VqueueInfo, a.qsize = b.qsize → a.lastAvail = b.lastAvail →
      a.avail = b.avail → buffersFrom descs n a = buffersFrom descs n b := by
    intro n
    induction n with
    | zero => exact fun _ _ _ _ _ => rfl
    | succ n ih =>
      intro a b qsize lastAvail avail
      unfold buffersFrom
      congr 1
      · unfold single vqGetchain
        rw [qsize, lastAvail, avail]
        dsimp only
        split
        · rfl
        · split
          · rfl
          · rfl
      · exact ih _ _ qsize (congrArg (· + 1) lastAvail) avail
  unfold buffers
  split
  · next alloc =>
    rw [if_pos (show hasFlag vq.flags vqAlloc = true from alloc)]
    exact same _ _ _ rfl rfl rfl
  · next alloc => rw [if_neg (show ¬ hasFlag vq.flags vqAlloc = true from alloc)]

end

section
variable {s s' : Softc}

/-- As long as there are chains, each message has one of a single descriptor that holds it. -/
def Fits : List (Option Nat) → List Nat → Prop
  | [], _ => True
  | _ :: _, [] => True
  | none :: _, _ :: _ => False
  | some room :: rest, length :: more => length ≤ room ∧ Fits rest more

theorem fits_nothing (rooms : List (Option Nat)) : Fits rooms [] := by
  cases rooms with
  | nil => trivial
  | cons room rest => trivial

theorem control_send_done {m : Message} (done : controlSend s m = .ok s') :
    s'.ports = s.ports ∧ s'.buffers controlTxq = (s.buffers controlTxq).tail := by
  unfold controlSend at done
  split at done
  · next ready =>
    dsimp only at done
    split at done
    · cases done
    · next one =>
      obtain ⟨idx, v, head, only, -, moved⟩ := getchain_one (not_not.mp one)
      unfold getchain at done
      rw [head, only] at done
      dsimp only at done
      split at done
      · cases done
      · cases done
        refine ⟨rfl, ?_⟩
        unfold Softc.buffers Softc.setQueue
        dsimp only
        rw [Function.update_self, buffers_relchain, moved, buffers_cons ready, tail_cons]
  · next nothing =>
    cases done
    refine ⟨rfl, ?_⟩
    rw [Softc.buffers, buffers_none (Bool.eq_false_iff.mpr nothing), tail_nil]

theorem control_send_iff (s : Softc) (m : Message) :
    (∃ s', controlSend s m = .ok s') ↔ Fits (s.buffers controlTxq) [m.length] := by
  unfold controlSend Softc.buffers
  by_cases ready : vqHasDescs (s.queues controlTxq) = true
  · rw [if_pos ready, buffers_cons ready]
    by_cases one : (getchain s controlTxq).ret = 1
    · obtain ⟨idx, v, head, only, length, -⟩ := getchain_one one
      have fits : Fits (some v.len.toNat :: buffers (s.descs controlTxq)
          { s.queues controlTxq with lastAvail := (s.queues controlTxq).lastAvail + 1 }) [m.length] ↔
            m.length ≤ v.len.toNat :=
        ⟨fun both => both.1, fun room => ⟨room, fits_nothing _⟩⟩
      rw [length, fits, if_neg (not_not_intro one)]
      unfold getchain
      rw [head, only]
      by_cases short : v.len.toNat < m.length
      · simp [short]
      · simp [short, Nat.le_of_not_lt short]
    · have none_ := single_none one
      rw [none_, if_pos one]
      simp [Fits]
  · rw [if_neg ready, buffers_none (Bool.eq_false_iff.mpr ready)]
    exact ⟨fun _ => trivial, fun _ => ⟨s, rfl⟩⟩

theorem send_all_ports (ms : List Message) :
    ∀ s s' : Softc, sendAll s ms = .ok s' → s'.ports = s.ports := by
  induction ms with
  | nil =>
    intro s s' done
    cases done
    rfl
  | cons m rest ih =>
    intro s s' done
    unfold sendAll at done
    split at done
    · cases done
    · next next_ sent => exact (ih _ _ done).trans (control_send_done sent).1

theorem send_all_iff (ms : List Message) : ∀ s : Softc, (∃ s', sendAll s ms = .ok s') ↔
      Fits (s.buffers controlTxq) (ms.map Message.length) := by
  induction ms with
  | nil => exact fun s => ⟨fun _ => fits_nothing _, fun _ => ⟨s, rfl⟩⟩
  | cons m rest ih =>
    intro s
    have first := control_send_iff s m
    unfold sendAll
    cases sent : controlSend s m with
    | error stop =>
      rw [sent] at first
      have short : ¬ Fits (s.buffers controlTxq) [m.length] := by
        intro fits
        obtain ⟨s', never⟩ := first.mpr fits
        cases never
      constructor
      · rintro ⟨s', never⟩
        cases never
      · intro fits
        refine absurd ?_ short
        generalize s.buffers controlTxq = rooms at fits ⊢
        match rooms with
        | [] => trivial
        | none :: _ => exact fits.elim
        | some room :: more => exact ⟨fits.1, fits_nothing more⟩
    | ok next =>
      rw [sent] at first
      have fits := first.mp ⟨next, rfl⟩
      rw [ih next, (control_send_done sent).2]
      generalize s.buffers controlTxq = rooms at fits ⊢
      match rooms with
      | [] => exact ⟨fun _ => trivial, fun _ => trivial⟩
      | none :: _ => exact fits.elim
      | some room :: more => exact ⟨fun later => ⟨fits.1, later⟩, fun both => both.2⟩

end

section
variable {descs : Descriptors} {mem : Mem} {c : Conn}

/-- What a receive loop has to come to: each chain given with as many bytes as are in it, all that
    was read given, and the connection closed only with its end read. -/
structure RxGood (c : Conn) (r : RxEnd) : Prop where
  lengths : ∀ d ∈ r.given, d.tlen.toNat = d.bytes.length
  bytes : c.pending = r.given.flatMap Delivery.bytes ++ r.conn.pending
  closed : r.closes = true → c.ending ≠ .up ∧ r.conn.pending = []

/-- The chains take what is pending, each but the last one filled, and there is one more in which
    the socket is found empty. -/
def Roomy : List (Option Nat) → Nat → Ending → Prop
  | [], n, ending => n = 0 ∧ ending ≠ .up
  | none :: _, _, _ => False
  | some room :: _, 0, ending =>
      match ending with
      | .up => 0 < room
      | .eof => True
      | .reset => room = 0
  | some room :: rest, n + 1, ending => 0 < room ∧ Roomy rest (n + 1 - room) ending

theorem rx_good_cons {c' : Conn} {r : RxEnd} {l : List Byte} {len : BitVec 32}
    (read : c.pending = l ++ c'.pending) (ending : c'.ending = c.ending)
    (length : len.toNat = l.length) :
    RxGood c { r with given := ⟨len, l⟩ :: r.given } ↔ RxGood c' r := by
  constructor
  · intro good
    refine ⟨fun d member => good.lengths d (mem_cons_of_mem _ member), ?_, ?_⟩
    · have whole := good.bytes
      rw [read, flatMap_cons, List.append_assoc] at whole
      exact append_cancel_left whole
    · rw [ending]
      exact good.closed
  · intro good
    refine ⟨?_, ?_, ?_⟩
    · intro d member
      rcases List.mem_cons.mp member with here | later
      · rw [here]
        exact length
      · exact good.lengths d later
    · rw [read, good.bytes, flatMap_cons, List.append_assoc]
    · rw [← ending]
      exact good.closed

variable {room : Nat} {result : Read} {c' : Conn} {closes : Bool} {vq : VqueueInfo} {d : Delivery}

theorem take_some {l : List Byte} (waiting : l ≠ []) (some_ : room ≠ 0) :
    ∃ b rest, l.take room = b :: rest := by
  apply exists_cons_of_ne_nil
  intro nothing
  rcases List.take_eq_nil_iff.mp nothing with none_ | empty
  · exact some_ none_
  · exact waiting empty

theorem read_stops (read : c.read room = (result, c')) (stops : result.stops = some closes) :
    c'.pending = c.pending ∧
      ((room = 0 ∧ closes = true) ∨
        (0 < room ∧ c.pending = [] ∧ c.ending = .up ∧ closes = false) ∨
        (0 < room ∧ c.pending = [] ∧ c.ending = .eof ∧ closes = true)) := by
  unfold Conn.read at read
  split at read
  · next none_ =>
    cases read
    cases stops
    exact ⟨rfl, .inl ⟨none_, rfl⟩⟩
  · next some_ =>
    split at read
    · next waiting =>
      cases read
      obtain ⟨b, l, first⟩ := take_some waiting some_
      rw [first] at stops
      cases stops
    · next none_ =>
      have empty : c.pending = [] := not_not.mp none_
      split at read
      · next up =>
        cases read
        cases stops
        exact ⟨rfl, .inr (.inl ⟨Nat.pos_of_ne_zero some_, empty, up, rfl⟩)⟩
      · next eof =>
        cases read
        cases stops
        exact ⟨rfl, .inr (.inr ⟨Nat.pos_of_ne_zero some_, empty, eof, rfl⟩)⟩
      · cases read
        cases stops

theorem read_goes_on (read : c.read room = (result, c')) (goes : result.stops = none) :
    0 < room ∧ c.pending = result.delivery.bytes ++ c'.pending ∧
      ((c.pending ≠ [] ∧ c'.ending = c.ending ∧ c'.pending.length = c.pending.length - room ∧
          result.delivery.tlen = BitVec.ofNat 32 result.delivery.bytes.length ∧
          result.delivery.bytes.length ≤ room) ∨
        (c.pending = [] ∧ c.ending = .reset ∧ result.delivery.tlen = -1)) := by
  unfold Conn.read at read
  split at read
  · cases read
    cases goes
  · next some_ =>
    split at read
    · next waiting =>
      cases read
      have shorter : (c.pending.take room).length ≤ room := length_take_le room c.pending
      exact ⟨Nat.pos_of_ne_zero some_, (take_append_drop room c.pending).symm,
        .inl ⟨waiting, rfl, length_drop, rfl, shorter⟩⟩
    · next none_ =>
      split at read
      · cases read
        cases goes
      · cases read
        cases goes
      · next reset =>
        cases read
        have empty : c.pending = [] := not_not.mp none_
        exact ⟨Nat.pos_of_ne_zero some_, rfl, .inr ⟨empty, reset, rfl⟩⟩

theorem rx_good_empty (same : c'.pending = c.pending) :
    RxGood c ⟨vq, mem, c', [], closes⟩ ↔ (closes = true → c.ending ≠ .up ∧ c'.pending = []) :=
  ⟨fun good => good.closed, fun closed => ⟨fun _ never => absurd never not_mem_nil, same.symm, closed⟩⟩

theorem rx_loop_bytes (fuel : Nat) : ∀ (vq : VqueueInfo) (mem : Mem) (c : Conn) (r : RxEnd),
    rxLoop descs fuel vq mem c = .ok r →
      c.pending = r.given.flatMap Delivery.bytes ++ r.conn.pending := by
  induction fuel with
  | zero =>
    intro vq mem c r never
    cases never
  | succ fuel ih =>
    intro vq mem c r ran
    unfold rxLoop at ran
    dsimp only at ran
    split at ran
    · cases ran
    split at ran
    · next idx v _ _ =>
      cases read : c.read v.len.toNat with
      | mk result c' =>
      rw [read] at ran
      split at ran
      · next closes stops =>
        cases ran
        exact (read_stops read stops).1.symm
      · next goes =>
        have taken := (read_goes_on read goes).2.1
        split at ran
        · split at ran
          · cases ran
          · next r' later =>
            cases ran
            have rest := ih _ _ _ _ later
            rw [taken, rest, flatMap_cons, List.append_assoc]
        · cases ran
          rw [taken, flatMap_cons, flatMap_nil, append_nil]
    · cases ran

theorem has_descs_next (ready : vqHasDescs vq = true) : (vq.avail.idx - vq.lastAvail).toNat =
      (vq.avail.idx - (vq.lastAvail + 1)).toNat + 1 := by
  unfold vqHasDescs at ready
  rw [Bool.and_eq_true, decide_eq_true_eq] at ready
  bv_omega

theorem stop_iff (read : c.read room = (result, c')) (stops : result.stops = some closes)
    (rest : List (Option Nat)) : (closes = true → c.ending ≠ .up ∧ c'.pending = []) ↔
      Roomy (some room :: rest) c.pending.length c.ending := by
  obtain ⟨same, which⟩ := read_stops read stops
  rw [same]
  rcases which with ⟨zero, closed⟩ | ⟨some_, empty, up, kept⟩ | ⟨some_, empty, eof, closed⟩
  · rw [zero, closed]
    cases waiting : c.pending with
    | nil =>
      cases ending : c.ending with
      | up => simp [Roomy]
      | eof => simp [Roomy]
      | reset => simp [Roomy]
    | cons b more => simp [Roomy]
  · simp [Roomy, empty, up, kept, some_]
  · simp [Roomy, empty, eof]

theorem ok_good_iff (x : RxEnd) :
    (∃ r, Except.ok x = (Except.ok r : Except Stop RxEnd) ∧ RxGood c r) ↔ RxGood c x := by
  constructor
  · rintro ⟨r, same, good⟩
    cases same
    exact good
  · intro good
    exact ⟨x, rfl, good⟩

section
variable (read : c.pending = d.bytes ++ c'.pending) (ending : c'.ending = c.ending)
  (length : d.tlen.toNat = d.bytes.length)
include read ending length

theorem rx_good_last :
    RxGood c ⟨vq, mem, c', [d], true⟩ ↔ c'.pending.length = 0 ∧ c'.ending ≠ .up := by
  have last := @rx_good_cons c c' ⟨vq, mem, c', [], true⟩ d.bytes d.tlen read ending length
  refine last.trans ((rx_good_empty rfl).trans ?_)
  rw [length_eq_zero_iff]
  exact ⟨fun closed => (closed rfl).symm, fun both _ => both.symm⟩

theorem prepend_iff (later : Except Stop RxEnd) :
    (∃ r, (match later with
        | .error stop => .error stop
        | .ok r => .ok { r with given := d :: r.given }) = Except.ok r ∧ RxGood c r) ↔
      ∃ r, later = .ok r ∧ RxGood c' r := by
  cases later with
  | error stop =>
    constructor
    · rintro ⟨r, never, -⟩
      cases never
    · rintro ⟨r, never, -⟩
      cases never
  | ok r =>
    constructor
    · rintro ⟨r', same, good⟩
      cases same
      exact ⟨r, rfl, (rx_good_cons read ending length).mp good⟩
    · rintro ⟨r', same, good⟩
      cases same
      exact ⟨_, rfl, (rx_good_cons read ending length).mpr good⟩

end

theorem reset_bad {r : RxEnd} (inside : d ∈ r.given) (length : d.tlen = -1)
    (nothing : d.bytes = []) : ¬ RxGood c r := by
  intro good
  have here := good.lengths d inside
  rw [length, nothing] at here
  cases here

theorem rx_loop_iff (fuel : Nat) : ∀ (vq : VqueueInfo) (mem : Mem) (c : Conn),
    vqHasDescs vq = true → (vq.avail.idx - vq.lastAvail).toNat < fuel →
      ((∃ r, rxLoop descs fuel vq mem c = .ok r ∧ RxGood c r) ↔
        Roomy (buffers descs vq) c.pending.length c.ending) := by
  induction fuel with
  | zero => exact fun _ _ _ _ never => absurd never (Nat.not_lt_zero _)
  | succ fuel ih =>
    intro vq mem c ready enough
    have fewer := has_descs_next ready
    rw [buffers_cons ready]
    unfold rxLoop
    by_cases one : (vqGetchain descs vtconHostcaps 1 vq).ret = 1
    · obtain ⟨idx, v, head, only, length, moved⟩ := getchain_one one
      rw [length, if_neg (not_not_intro one), head, only, moved]
      dsimp only
      cases read : c.read v.len.toNat with
      | mk result c' =>
      cases goes : result.stops with
      | some closes =>
        have same := (read_stops read goes).1
        exact (ok_good_iff _).trans ((rx_good_empty same).trans (stop_iff read goes _))
      | none =>
        obtain ⟨room, taken, which⟩ := read_goes_on read goes
        dsimp only
        have after := @buffers_relchain descs { vq with lastAvail := vq.lastAvail + 1 } idx
          result.delivery.tlen
        rcases which with ⟨waiting, ending, left, tlen, short⟩ | ⟨empty, reset, error⟩
        · have exact_ : result.delivery.tlen.toNat = result.delivery.bytes.length := by
            rw [tlen, BitVec.toNat_ofNat]
            exact Nat.mod_eq_of_lt (Nat.lt_of_le_of_lt short v.len.isLt)
          have here : Roomy (some v.len.toNat ::
              buffers descs { vq with lastAvail := vq.lastAvail + 1 }) c.pending.length c.ending ↔
                Roomy (buffers descs { vq with lastAvail := vq.lastAvail + 1 }) c'.pending.length
                  c'.ending := by
            obtain ⟨n, some_⟩ := Nat.exists_eq_succ_of_ne_zero
              (mt List.length_eq_zero_iff.mp waiting)
            rw [left, ending, some_]
            exact and_iff_right room
          rw [here, ← after]
          split
          · next more =>
            have left' : (vq.avail.idx - (vq.lastAvail + 1)).toNat < fuel := by omega
            exact (prepend_iff taken ending exact_ _).trans (ih _ _ c' more left')
          · next last =>
            rw [buffers_none (Bool.eq_false_iff.mpr last)]
            exact (ok_good_iff _).trans (rx_good_last taken ending exact_)
        · have nothing : result.delivery.bytes = [] := by
            rw [empty] at taken
            exact (List.append_eq_nil_iff.mp taken.symm).1
          constructor
          · rintro ⟨r, ran, good⟩
            exfalso
            split at ran
            · split at ran
              · cases ran
              · cases ran
                exact reset_bad mem_cons_self error nothing good
            · cases ran
              exact reset_bad mem_cons_self error nothing good
          · intro roomy
            rw [empty, reset] at roomy
            exact absurd (show v.len.toNat = 0 from roomy) (Nat.ne_of_gt room)
    · rw [if_pos one, single_none one]
      simp [Roomy]

end

section
variable {s s' : Softc} {e : Event} {i : Nat} {p p' : Port}

/-- What the guest was given is what was read of the connection, with the lengths of the bytes. -/
structure Faithful (p : Port) : Prop where
  lengths : ∀ d ∈ p.given, d.tlen.toNat = d.bytes.length
  bytes : p.consumed = p.given.flatMap Delivery.bytes

def Ended (p p' : Port) : Prop :=
  ∃ c, p.conn = some c ∧ c.ending ≠ .up ∧ p'.consumed = p.consumed ++ c.pending

def WriteFails (s : Softc) (i : Nat) : Event → Prop
  | .notify q fails =>
      fails = true ∧ vqToPort q = .port i ∧ ∃ v, (getchain s q).iov.head? = some v ∧ v.len ≠ 0
  | _ => False

/-- The ports are faithful, and no connection has been closed but at its end or after an error. -/
structure After (s : Softc) (e : Event) (s' : Softc) : Prop where
  faithful : ∀ p ∈ s'.ports, Faithful p
  closings : ∀ i p p', s.ports[i]? = some p → s'.ports[i]? = some p' → p.conn.isSome = true →
    p'.conn = none → Ended p p' ∨ WriteFails s i e

def StaysFaithful (s : Softc) (e : Event) : Prop := ∃ s', step s e = .ok s' ∧ After s e s'

def Written (c : Conn) (len : BitVec 32) (fails : Bool) : Prop :=
  streamWrite len fails ≤ 0 → (fails = true ∧ len ≠ 0) ∨ (c.ending ≠ .up ∧ c.pending = [])

def PassableChain (s : Softc) (q : Nat) (v : VirtioDesc) (fails : Bool) : Prop :=
  match vqToPort q with
  | .control =>
      Fits (s.buffers controlTxq) ((answers s (controlOf s.mem v.addr.toNat)).map Message.length)
  | .port i =>
      ∃ p, s.ports[i]? = some p ∧ ∀ c, p.conn = some c → Written c v.len fails

def PassableReceive (s : Softc) (p : Port) (c : Conn) : Prop :=
  p.rxReady = true →
    if vqHasDescs (s.queues p.txq) = true then Roomy (s.buffers p.txq) c.pending.length c.ending
    else c.pending = []

def Passable (s : Softc) : Event → Prop
  | .notify q fails =>
      q < vtconMaxq → q % 2 = 1 → vqHasDescs (s.queues q) = true →
        1 ≤ (getchain s q).ret ∧
          ∀ v, (getchain s q).iov.head? = some v → PassableChain s q v fails
  | .accept i =>
      ∀ p, s.ports[i]? = some p → p.conn = none → s.ready = true →
        Fits (s.buffers controlTxq) [8]
  | .sockRx i => ∀ p c, s.ports[i]? = some p → p.conn = some c → PassableReceive s p c
  | _ => True

def AllFaithful (s : Softc) : Prop := ∀ p ∈ s.ports, Faithful p

theorem after_same (all : AllFaithful s) (same : s'.ports = s.ports) : After s e s' where
  faithful := by
    rw [same]
    exact all
  closings i p p' before after open_ closed := by
    rw [same, before] at after
    cases after
    rw [closed] at open_
    cases open_

theorem after_set_iff (all : AllFaithful s) (there : s.ports[i]? = some p)
    (set_ : s'.ports = s.ports.set i p') : After s e s' ↔ Faithful p' ∧
      (p.conn.isSome = true → p'.conn = none → Ended p p' ∨ WriteFails s i e) := by
  obtain ⟨inside, -⟩ := List.getElem?_eq_some_iff.mp there
  constructor
  · rintro ⟨faithful, closings⟩
    have now : s'.ports[i]? = some p' := by
      rw [set_, getElem?_set_self inside]
    exact ⟨faithful p' (mem_of_getElem? now), closings i p p' there now⟩
  · rintro ⟨new, closing⟩
    constructor
    · intro w member
      rw [set_] at member
      rcases mem_or_eq_of_mem_set member with before | here
      · exact all w before
      · rw [here]
        exact new
    · intro j w w' before after open_ closed
      rw [set_] at after
      by_cases here : i = j
      · rw [← here] at before after ⊢
        rw [there] at before
        rw [getElem?_set_self inside] at after
        cases before
        cases after
        exact closing open_ closed
      · rw [getElem?_set_ne here, before] at after
        cases after
        rw [closed] at open_
        cases open_

theorem after_kept (all : AllFaithful s) (there : s.ports[i]? = some p)
    (set_ : s'.ports = s.ports.set i p') (consumed : p'.consumed = p.consumed)
    (given : p'.given = p.given) (conn : p'.conn = none → p.conn = none) : After s e s' := by
  have before := all p (mem_of_getElem? there)
  refine (after_set_iff all there set_).mpr ⟨⟨?_, ?_⟩, ?_⟩
  · rw [given]
    exact before.lengths
  · rw [consumed, given]
    exact before.bytes
  · intro open_ closed
    rw [conn closed] at open_
    cases open_

theorem dummy_read (c : Conn) : ((dummyRead c).1 = none ↔ c.pending = [] ∧ c.ending = .eof) ∧
      ((dummyRead c).2 = [] ↔ c.pending = []) := by
  unfold dummyRead
  cases read : c.read 2048 with
  | mk result c' =>
  cases goes : result.stops with
  | some closes =>
    obtain ⟨-, which⟩ := read_stops read goes
    rcases which with ⟨never, -⟩ | ⟨-, empty, up, kept⟩ | ⟨-, empty, eof, closed⟩
    · cases never
    · rw [kept] at goes
      match result with
      | .again => simp [empty, up]
      | .bytes [] => cases goes
      | .bytes (_ :: _) => cases goes
      | .failed => cases goes
    · rw [closed] at goes
      match result with
      | .bytes [] => simp [empty, eof]
      | .bytes (_ :: _) => cases goes
      | .again => cases goes
      | .failed => cases goes
  | none =>
    obtain ⟨-, taken, which⟩ := read_goes_on read goes
    match result with
    | .bytes [] => cases goes
    | .again => cases goes
    | .bytes (b :: l) =>
      have waiting : c.pending ≠ [] := by
        rw [taken]
        exact cons_ne_nil _ _
      simp [waiting]
    | .failed =>
      rcases which with ⟨-, -, -, never, -⟩ | ⟨empty, reset, -⟩
      · cases never
      · simp [empty, reset]

theorem rx_after_iff (all : AllFaithful s) {c : Conn} (there : s.ports[i]? = some p)
    (conn : p.conn = some c) {r : RxEnd}
    (bytes : c.pending = r.given.flatMap Delivery.bytes ++ r.conn.pending)
    (set_ : s'.ports = s.ports.set i
      { p with
        conn := if r.closes then none else some r.conn
        consumed := p.consumed ++ c.pending.take (c.pending.length - r.conn.pending.length)
        given := p.given ++ r.given }) :
    After s (.sockRx i) s' ↔ RxGood c r := by
  have before := all p (mem_of_getElem? there)
  have gone : c.pending.take (c.pending.length - r.conn.pending.length) =
      r.given.flatMap Delivery.bytes := by
    rw [bytes, length_append, Nat.add_sub_cancel, take_left]
  rw [gone] at set_
  rw [after_set_iff all there set_]
  constructor
  · rintro ⟨faithful, closing⟩
    refine ⟨fun d member => faithful.lengths d (mem_append_right _ member), bytes, ?_⟩
    intro closes
    have none_ : (if r.closes then none else some r.conn) = none := if_pos closes
    rcases closing (by rw [conn]; rfl) none_ with ⟨c', same, over_, whole⟩ | never
    · rw [conn] at same
      cases same
      have all_ : r.given.flatMap Delivery.bytes = c.pending := append_cancel_left whole
      refine ⟨over_, ?_⟩
      rw [all_] at bytes
      exact List.self_eq_append_right.mp bytes
    · exact never.elim
  · intro good
    refine ⟨⟨?_, ?_⟩, ?_⟩
    · intro d member
      rcases List.mem_append.mp member with old | new
      · exact before.lengths d old
      · exact good.lengths d new
    · rw [flatMap_append, ← before.bytes]
    · intro _ closed
      have closes : r.closes = true := by
        by_contra goes
        have some_ : (if r.closes then none else some r.conn) = none := closed
        rw [if_neg goes] at some_
        cases some_
      obtain ⟨over_, nothing⟩ := good.closed closes
      refine .inl ⟨c, conn, over_, ?_⟩
      rw [bytes, nothing, append_nil]

theorem sock_rx_iff (all : AllFaithful s) {c : Conn} (there : s.ports[i]? = some p)
    (conn : p.conn = some c) :
    (∃ s', sockRx s i p c = .ok s' ∧ After s (.sockRx i) s') ↔ PassableReceive s p c := by
  have before := all p (mem_of_getElem? there)
  obtain ⟨hungUp, dropped⟩ := dummy_read c
  unfold sockRx PassableReceive
  by_cases idle : p.rxReady = false
  · rw [if_pos idle]
    refine ⟨fun _ ready => absurd (idle.symm.trans ready) (by decide), fun _ => ⟨_, rfl, ?_⟩⟩
    refine (after_set_iff all there rfl).mpr ?_
    refine ⟨⟨before.lengths, before.bytes⟩, ?_⟩
    intro _ closed
    obtain ⟨empty, eof⟩ := hungUp.mp closed
    refine .inl ⟨c, conn, by rw [eof]; decide, ?_⟩
    rw [empty, append_nil]
  have ready : p.rxReady = true := Bool.eq_true_of_not_eq_false idle
  rw [if_neg idle, forall_prop_of_true ready]
  by_cases descs : vqHasDescs (s.queues p.txq) = true
  · have loop := @rx_loop_iff (s.descs p.txq) 65536 (s.queues p.txq) s.mem c descs (BitVec.isLt _)
    rw [if_neg (by rw [descs]; decide), if_pos descs, Softc.buffers, ← loop]
    cases ran : rxLoop (s.descs p.txq) 65536 (s.queues p.txq) s.mem c with
    | error stop =>
      constructor
      · rintro ⟨s', never, -⟩
        cases never
      · rintro ⟨r, never, -⟩
        cases never
    | ok r =>
      have bytes := rx_loop_bytes _ _ _ _ _ ran
      refine Iff.trans ?_ (ok_good_iff r).symm
      constructor
      · rintro ⟨s', same, after⟩
        cases same
        exact (rx_after_iff all there conn bytes rfl).mp after
      · intro good
        exact ⟨_, rfl, (rx_after_iff all there conn bytes rfl).mpr good⟩
  · have nothing : vqHasDescs (s.queues p.txq) = false := Bool.eq_false_iff.mpr descs
    rw [if_pos nothing, if_neg descs]
    constructor
    · rintro ⟨s', same, after⟩
      cases same
      have faithful : Faithful
          { p with conn := (dummyRead c).1, consumed := p.consumed ++ (dummyRead c).2 } :=
        ((after_set_iff all there rfl).mp after).1
      have bytes : p.consumed ++ (dummyRead c).2 = p.given.flatMap Delivery.bytes := faithful.bytes
      rw [before.bytes] at bytes
      exact dropped.mp (List.append_right_eq_self.mp bytes)
    · intro empty
      have none_ := dropped.mpr empty
      refine ⟨_, rfl, (after_set_iff all there rfl).mpr ?_⟩
      refine ⟨⟨before.lengths, ?_⟩, ?_⟩
      · rw [none_, append_nil]
        exact before.bytes
      · intro _ closed
        obtain ⟨-, eof⟩ := hungUp.mp closed
        refine .inl ⟨c, conn, by rw [eof]; decide, ?_⟩
        rw [none_, empty]

theorem control_tx_ports {v : VirtioDesc} (done : controlTx s v = .ok s') : s'.ports = s.ports := by
  unfold controlTx at done
  have ports := send_all_ports _ _ _ done
  exact ports

variable {q : Nat}

theorem control_tx_iff (other : q ≠ controlTxq) (vq : VqueueInfo) (v : VirtioDesc) :
    (∃ s', controlTx (s.setQueue q vq) v = .ok s') ↔
      Fits (s.buffers controlTxq) ((answers s (controlOf s.mem v.addr.toNat)).map Message.length) := by
  have same : (s.setQueue q vq).buffers controlTxq = s.buffers controlTxq := by
    unfold Softc.buffers Softc.setQueue
    dsimp only
    rw [Function.update_of_ne other.symm]
  unfold controlTx
  rw [send_all_iff, ← same]
  exact Iff.rfl

theorem sock_tx_iff (all : AllFaithful s) (there : s.ports[i]? = some p) {v : VirtioDesc}
    {fails : Bool} (port : vqToPort q = .port i) (first : (getchain s q).iov.head? = some v)
    (ports : s'.ports = (sockTx s i p v fails).ports) : After s (.notify q fails) s' ↔
      ∀ c, p.conn = some c → Written c v.len fails := by
  unfold sockTx at ports
  split at ports
  · next closes =>
    have before := all p (mem_of_getElem? there)
    rw [after_set_iff all there ports]
    constructor
    · rintro ⟨-, closing⟩ c conn _
      rcases closing closes.1 rfl with ⟨c', same, over_, whole⟩ | ⟨failed, -, w, same, some_⟩
      · rw [conn] at same
        cases same
        exact .inr ⟨over_, List.self_eq_append_right.mp whole⟩
      · rw [first] at same
        cases same
        exact .inl ⟨failed, some_⟩
    · intro written
      refine ⟨⟨before.lengths, before.bytes⟩, ?_⟩
      intro open_ _
      obtain ⟨c, conn⟩ := Option.isSome_iff_exists.mp open_
      rcases written c conn closes.2 with ⟨failed, some_⟩ | ⟨over_, empty⟩
      · exact .inr ⟨failed, port, v, first, some_⟩
      · refine .inl ⟨c, conn, over_, ?_⟩
        rw [empty, append_nil]
  · next stays =>
    refine ⟨fun _ c conn nothing => ?_, fun _ => after_same all ports⟩
    exact absurd ⟨by rw [conn]; rfl, nothing⟩ stays

theorem notify_tx_iff (all : AllFaithful s) (odd : q % 2 = 1) (fails : Bool) :
    (∃ s', notifyTx s q fails = .ok s' ∧ After s (.notify q fails) s') ↔
      1 ≤ (getchain s q).ret ∧
        ∀ v, (getchain s q).iov.head? = some v → PassableChain s q v fails := by
  have other : q ≠ controlTxq := by
    intro same
    rw [same] at odd
    cases odd
  unfold notifyTx
  by_cases none_ : (getchain s q).ret = 0
  · rw [if_pos none_, none_]
    constructor
    · rintro ⟨s', never, -⟩
      cases never
    · rintro ⟨never, -⟩
      exact absurd never (by decide)
  rw [if_neg none_]
  by_cases error : (getchain s q).ret < 0
  · constructor
    · rintro ⟨s', ran, -⟩
      split at ran
      · rw [if_pos error] at ran
        cases ran
      · cases ran
    · rintro ⟨some_, -⟩
      omega
  have some_ : 1 ≤ (getchain s q).ret := by omega
  obtain ⟨⟨idx, head, -⟩, length, -⟩ := getchain_some some_
  have single_ : (getchain s q).iov.length = min (getchain s q).ret.toNat 1 := length
  obtain ⟨v, only⟩ := List.length_eq_one_iff.mp (single_.trans (by omega))
  have first : (getchain s q).iov.head? = some v := by
    rw [only]
    rfl
  have head' : (getchain s q).pidx = some idx := head
  rw [head', only]
  dsimp only
  rw [if_neg error, and_iff_right some_, head?_cons]
  simp only [Option.some.injEq, forall_eq']
  unfold PassableChain
  cases port : vqToPort q with
  | control =>
    rw [← control_tx_iff other (getchain s q).vq v]
    cases ran : controlTx (s.setQueue q (getchain s q).vq) v with
    | error stop =>
      constructor
      · rintro ⟨s', never, -⟩
        cases never
      · rintro ⟨s', never⟩
        cases never
    | ok s₁ =>
      have ports : s₁.ports = s.ports :=
        control_tx_ports (s := s.setQueue q (getchain s q).vq) ran
      exact ⟨fun _ => ⟨s₁, rfl⟩, fun _ => ⟨_, rfl, after_same all ports⟩⟩
  | port i =>
    dsimp only
    cases there : s.ports[i]? with
    | none =>
      constructor
      · rintro ⟨s', never, -⟩
        cases never
      · rintro ⟨p, never, -⟩
        cases never
    | some p =>
      have ports : ((sockTx (s.setQueue q (getchain s q).vq) i p v fails).setQueue q
          (relchain ((sockTx (s.setQueue q (getchain s q).vq) i p v fails).queues q) idx 0)).ports =
            (sockTx s i p v fails).ports := by
        unfold sockTx
        split
        · rfl
        · rfl
      have tx := sock_tx_iff all there port first ports
      constructor
      · rintro ⟨s', same, after⟩
        cases same
        exact ⟨p, rfl, tx.mp after⟩
      · rintro ⟨p', same, ended⟩
        cases same
        exact ⟨_, rfl, tx.mpr ended⟩

theorem accept_iff (all : AllFaithful s) (there : s.ports[i]? = some p) :
    (∃ s', sockAccept s i p = .ok s' ∧ After s (.accept i) s') ↔
      (p.conn = none → s.ready = true → Fits (s.buffers controlTxq) [8]) := by
  unfold sockAccept
  by_cases open_ : p.conn.isSome = true
  · rw [if_pos open_]
    refine ⟨fun _ none_ => ?_, fun _ => ⟨s, rfl, after_same all rfl⟩⟩
    rw [none_] at open_
    cases open_
  have none_ : p.conn = none := Option.not_isSome_iff_eq_none.mp open_
  rw [if_neg open_, forall_prop_of_true none_]
  by_cases ready : s.ready = true
  · rw [if_pos ready, forall_prop_of_true ready]
    have send := control_send_iff (s.setPort i { p with conn := some ⟨[], .up⟩ })
      (openMessage { p with conn := some ⟨[], .up⟩ })
    refine Iff.trans ?_ send
    constructor
    · rintro ⟨s', ran, -⟩
      exact ⟨s', ran⟩
    · rintro ⟨s', ran⟩
      have ports := (control_send_done ran).1
      exact ⟨s', ran, after_kept all there ports rfl rfl nofun⟩
  · rw [if_neg ready]
    refine ⟨fun _ here => absurd here ready, fun _ => ⟨_, rfl, ?_⟩⟩
    exact after_kept all there rfl rfl rfl nofun

theorem with_conn_iff (all : AllFaithful s) {f : Port → Conn → Except Stop Softc} :
    (∃ s', withConn s i f = .ok s' ∧ After s e s') ↔
      ∀ p c, s.ports[i]? = some p → p.conn = some c → ∃ s', f p c = .ok s' ∧ After s e s' := by
  unfold withConn
  cases there : s.ports[i]? with
  | none => exact ⟨nofun, fun _ => ⟨s, rfl, after_same all rfl⟩⟩
  | some p =>
    dsimp only
    cases conn : p.conn with
    | none =>
      refine ⟨fun _ w c same open_ => ?_, fun _ => ⟨s, rfl, after_same all rfl⟩⟩
      cases same
      rw [conn] at open_
      cases open_
    | some c =>
      constructor
      · intro good w c' same open_
        cases same
        rw [conn] at open_
        cases open_
        exact good
      · intro good
        exact good p c rfl conn

theorem notify_rx_after (all : AllFaithful s) : After s e (notifyRx s q) := by
  unfold notifyRx
  split
  · exact after_same all rfl
  · split
    · exact after_same all rfl
    · next p there => exact after_kept all there rfl rfl rfl id

theorem step_right_iff (s : Softc) (e : Event) (all : AllFaithful s) :
    StaysFaithful s e ↔ Passable s e := by
  unfold StaysFaithful
  cases e with
  | driver avail descs mem => exact ⟨fun _ => trivial, fun _ => ⟨_, rfl, after_same all rfl⟩⟩
  | notify q fails =>
    simp only [step, Passable]
    by_cases far : vtconMaxq ≤ q
    · rw [if_pos far]
      exact ⟨fun _ near => absurd near (Nat.not_lt.mpr far), fun _ => ⟨s, rfl, after_same all rfl⟩⟩
    rw [if_neg far, forall_prop_of_true (Nat.lt_of_not_le far)]
    by_cases even : q % 2 = 0
    · rw [if_pos even]
      refine ⟨fun _ odd => absurd (even.symm.trans odd) (by decide), fun _ => ⟨_, rfl, ?_⟩⟩
      exact notify_rx_after all
    have odd : q % 2 = 1 := by omega
    rw [if_neg even, forall_prop_of_true odd]
    by_cases ready : vqHasDescs (s.queues q) = true
    · rw [if_pos ready, forall_prop_of_true ready]
      exact notify_tx_iff all odd fails
    · rw [if_neg ready]
      exact ⟨fun _ here => absurd here ready, fun _ => ⟨s, rfl, after_same all rfl⟩⟩
  | accept i =>
    simp only [step, Passable]
    cases there : s.ports[i]? with
    | none => exact ⟨nofun, fun _ => ⟨s, rfl, after_same all rfl⟩⟩
    | some p =>
      have accept := accept_iff all there
      exact accept.trans ⟨fun fits w same => by cases same; exact fits, fun fits => fits p rfl⟩
  | arrive i bytes =>
    refine ⟨fun _ => trivial, fun _ => (with_conn_iff all).mpr ?_⟩
    intro p c there conn
    split
    · exact ⟨_, rfl, after_kept all there rfl rfl rfl nofun⟩
    · exact ⟨s, rfl, after_same all rfl⟩
  | hangUp i ending =>
    refine ⟨fun _ => trivial, fun _ => (with_conn_iff all).mpr ?_⟩
    intro p c there conn
    split
    · exact ⟨_, rfl, after_kept all there rfl rfl rfl nofun⟩
    · exact ⟨s, rfl, after_same all rfl⟩
  | sockRx i =>
    refine (with_conn_iff all).trans ?_
    constructor
    · intro good p c there conn
      exact (sock_rx_iff all there conn).mp (good p c there conn)
    · intro proper p c there conn
      exact (sock_rx_iff all there conn).mpr (proper p c there conn)

end

section
variable {s s' : Softc}

/-- Port 0 has queues 0 and 1 and port i queues 2 i + 2 and 2 i + 3. -/
structure PortQueues (i : Nat) (p : Port) : Prop where
  id : p.id = i
  txq : p.txq = if i = 0 then 0 else 2 * i + 2
  rxq : p.rxq = p.txq + 1

/-- Every port has the queues that its number prescribes, and they are those that lead to it. -/
def Mapped (ports : List Port) : Prop :=
  ports.length ≤ vtconMaxports ∧ ∀ i p, ports[i]? = some p → PortQueues i p ∧
    p.rxq < vtconMaxq ∧ ∀ num, vqToPort num = .port i ↔ num = p.txq ∨ num = p.rxq

variable {i : Nat} {p : Port}

theorem queues_map (small : i < vtconMaxports) (queues : PortQueues i p) :
    p.rxq < vtconMaxq ∧ ∀ num, vqToPort num = .port i ↔ num = p.txq ∨ num = p.rxq := by
  obtain ⟨-, txq, rxq⟩ := queues
  have most : vtconMaxq = 34 := rfl
  have ports : vtconMaxports = 16 := rfl
  rw [rxq, txq]
  constructor
  · split
    · omega
    · omega
  · intro num
    unfold vqToPort
    split
    · next first =>
      rw [PortRef.port.injEq]
      split
      · omega
      · omega
    · split
      · refine ⟨nofun, fun either => ?_⟩
        split at either
        · omega
        · omega
      · rw [PortRef.port.injEq]
        split
        · omega
        · omega

theorem ports_add_queues (names : List (List Byte)) : ∀ ports made : List Port,
    (ports.length ≤ vtconMaxports ∧ ∀ i p, ports[i]? = some p → PortQueues i p) →
      portsAdd ports names = some made →
        made.length ≤ vtconMaxports ∧ ∀ i p, made[i]? = some p → PortQueues i p := by
  induction names with
  | nil =>
    intro ports made queues done
    cases done
    exact queues
  | cons name rest ih =>
    intro ports made queues done
    obtain ⟨next, added, later⟩ := Option.bind_eq_some_iff.mp done
    refine ih next made ?_ later
    unfold portAdd at added
    split at added
    · cases added
    · next room =>
      cases added
      obtain ⟨few, each⟩ := queues
      constructor
      · rw [length_append, length_singleton]
        omega
      · intro i p there
        rcases Nat.lt_or_ge i ports.length with old | new
        · rw [getElem?_append_left old] at there
          exact each i p there
        · rw [getElem?_append_right new] at there
          obtain ⟨inside, same⟩ := List.getElem?_eq_some_iff.mp there
          have last : i = ports.length := by
            rw [length_singleton] at inside
            omega
          have only : i - ports.length = 0 := by omega
          simp only [only, getElem_cons_zero] at same
          rw [← same, last]
          refine ⟨rfl, ?_, rfl⟩
          simp only [Nat.add_sub_cancel]
          split
          · rfl
          · omega

theorem ports_add_faithful (names : List (List Byte)) : ∀ ports made : List Port,
    (∀ p ∈ ports, Faithful p) → portsAdd ports names = some made → ∀ p ∈ made, Faithful p := by
  induction names with
  | nil =>
    intro ports made faithful done
    cases done
    exact faithful
  | cons name rest ih =>
    intro ports made faithful done
    obtain ⟨next, added, later⟩ := Option.bind_eq_some_iff.mp done
    refine ih next made ?_ later
    unfold portAdd at added
    split at added
    · cases added
    · cases added
      intro p member
      rcases List.mem_append.mp member with old | new
      · exact faithful p old
      · rw [List.mem_singleton.mp new]
        exact ⟨fun d never => absurd never not_mem_nil, rfl⟩

def Moved (s s' : Softc) : Prop :=
  s'.ports = s.ports ∨ ∃ i p p', s.ports[i]? = some p ∧ s'.ports = s.ports.set i p' ∧
    p'.id = p.id ∧ p'.txq = p.txq ∧ p'.rxq = p.rxq

theorem with_conn_moved {f : Port → Conn → Except Stop Softc}
    (each : ∀ p c, s.ports[i]? = some p → f p c = .ok s' → Moved s s')
    (ran : withConn s i f = .ok s') : Moved s s' := by
  unfold withConn at ran
  split at ran
  · cases ran
    exact .inl rfl
  · next p there =>
    split at ran
    · cases ran
      exact .inl rfl
    · next c _ => exact each p c there ran

theorem sock_rx_moved {c : Conn} (there : s.ports[i]? = some p) (ran : sockRx s i p c = .ok s') :
    Moved s s' := by
  unfold sockRx at ran
  split at ran
  · cases ran
    exact .inr ⟨i, p, _, there, rfl, rfl, rfl, rfl⟩
  split at ran
  · cases ran
    exact .inr ⟨i, p, _, there, rfl, rfl, rfl, rfl⟩
  split at ran
  · cases ran
  · cases ran
    exact .inr ⟨i, p, _, there, rfl, rfl, rfl, rfl⟩

theorem accept_moved (there : s.ports[i]? = some p) (ran : sockAccept s i p = .ok s') :
    Moved s s' := by
  unfold sockAccept at ran
  split at ran
  · cases ran
    exact .inl rfl
  · split at ran
    · exact .inr ⟨i, p, _, there, (control_send_done ran).1, rfl, rfl, rfl⟩
    · cases ran
      exact .inr ⟨i, p, _, there, rfl, rfl, rfl, rfl⟩

theorem notify_rx_moved (q : Nat) : Moved s (notifyRx s q) := by
  unfold notifyRx
  split
  · exact .inl rfl
  · next i _ =>
    split
    · exact .inl rfl
    · next p there => exact .inr ⟨i, p, _, there, rfl, rfl, rfl, rfl⟩

theorem notify_tx_moved {q : Nat} {fails : Bool} (ran : notifyTx s q fails = .ok s') :
    Moved s s' := by
  unfold notifyTx at ran
  dsimp only at ran
  split at ran
  · cases ran
  split at ran
  · split at ran
    · cases ran
    split at ran
    · cases ran
    · next w called =>
      cases ran
      split at called
      · have ports : w.ports = s.ports :=
          control_tx_ports (s := s.setQueue q (getchain s q).vq) called
        exact .inl ports
      · next i _ =>
        split at called
        · cases called
        · next p there =>
          cases called
          unfold sockTx
          split
          · exact .inr ⟨i, p, _, there, rfl, rfl, rfl, rfl⟩
          · exact .inl rfl
  · cases ran

theorem step_moved {e : Event} (ran : step s e = .ok s') : Moved s s' := by
  cases e with
  | driver avail descs mem =>
    cases ran
    exact .inl rfl
  | notify q fails =>
    simp only [step] at ran
    split at ran
    · cases ran
      exact .inl rfl
    split at ran
    · cases ran
      exact notify_rx_moved q
    split at ran
    · exact notify_tx_moved ran
    · cases ran
      exact .inl rfl
  | accept i =>
    simp only [step] at ran
    split at ran
    · cases ran
      exact .inl rfl
    · next p there => exact accept_moved there ran
  | arrive i bytes =>
    refine with_conn_moved ?_ ran
    intro p c there done
    split at done
    · cases done
      exact .inr ⟨i, p, _, there, rfl, rfl, rfl, rfl⟩
    · cases done
      exact .inl rfl
  | hangUp i ending =>
    refine with_conn_moved ?_ ran
    intro p c there done
    split at done
    · cases done
      exact .inr ⟨i, p, _, there, rfl, rfl, rfl, rfl⟩
    · cases done
      exact .inl rfl
  | sockRx i => exact with_conn_moved (fun p c there done => sock_rx_moved there done) ran

theorem step_mapped (s : Softc) (e : Event) (s' : Softc) (mapped : Mapped s.ports)
    (ran : step s e = .ok s') : Mapped s'.ports := by
  rcases step_moved ran with same | ⟨i, p, p', there, set_, id, txq, rxq⟩
  · rw [same]
    exact mapped
  · obtain ⟨few, each⟩ := mapped
    rw [set_]
    refine ⟨by rw [length_set]; exact few, ?_⟩
    intro j w here
    by_cases same : i = j
    · obtain ⟨inside, -⟩ := List.getElem?_eq_some_iff.mp there
      rw [← same, getElem?_set_self inside] at here
      cases here
      obtain ⟨queues, bound, leads⟩ := each i p there
      rw [← same, rxq, txq]
      exact ⟨⟨id.trans queues.id, txq.trans queues.txq, by rw [rxq, txq]; exact queues.rxq⟩, bound, leads⟩
    · rw [getElem?_set_ne same] at here
      exact each j w here

theorem step_faithful (s : Softc) (e : Event) (s' : Softc) (all : AllFaithful s)
    (proper : Passable s e) (ran : step s e = .ok s') : AllFaithful s' := by
  obtain ⟨w, ran', after⟩ := (step_right_iff s e all).mpr proper
  rw [ran] at ran'
  cases ran'
  exact after.faithful

section
variable {names : List (List Byte)} {avail : Nat → VringAvail} {used : Nat → VringUsed}
  {descs : Nat → Descriptors} {mem : Mem}

section
variable (made : pciVtconInit names avail used descs mem = some s)
include made

theorem made_mapped : Mapped s.ports := by
  obtain ⟨ports, added, same⟩ := Option.map_eq_some_iff.mp made
  cases same
  obtain ⟨few, each⟩ := ports_add_queues names [] ports
    ⟨Nat.zero_le _, nofun⟩ added
  refine ⟨few, fun i p there => ?_⟩
  obtain ⟨inside, -⟩ := List.getElem?_eq_some_iff.mp there
  exact ⟨each i p there, queues_map (Nat.lt_of_lt_of_le inside few) (each i p there)⟩

theorem made_faithful : AllFaithful s := by
  obtain ⟨ports, added, same⟩ := Option.map_eq_some_iff.mp made
  cases same
  exact ports_add_faithful names [] ports (fun p never => absurd never not_mem_nil) added

end

def availUpTo (n : BitVec 16) (q : Nat) : VringAvail := ⟨0, if q = 0 then n else 0, fun _ => 0⟩

def emptyUsed (_ : Nat) : VringUsed := ⟨0, 0, fun _ => ⟨0, 0⟩⟩

def room16 (_ : Nat) : Descriptors where
  desc _ := ⟨0, 16, 2, 0⟩
  indirect _ _ := ⟨0, 0, 0, 0⟩

def noMemory : Mem := fun _ => 0

def oneByte : List Event := [.notify 0 false, .accept 0, .arrive 0 [1]]

end

end

end Vtcon
