import Bhyve.E82545.TxThread
import Bhyve.E82545.Vectors
import Bhyve.Lib.Rings
import Bhyve.Lib.StepRuns

namespace E82545
open StepRuns Fallible Rings List Bool

def packetDescs (ring : Nat → TxDesc) (size tail : Nat) : Nat → Nat → List TxDesc
  | 0, _ => []
  | fuel + 1, head =>
      if head = tail then []
      else if (ring head).eop then [ring head]
      else ring head :: packetDescs ring size tail fuel ((head + 1) % size)

def iovOf (mem : GuestBytes) (d : TxDesc) : List Iov :=
  if d.len = 0 then [] else [⟨mem.read d.addr d.cut, d.cut⟩]

def iovsOf (mem : GuestBytes) (descs : List TxDesc) : List Iov := descs.flatMap (iovOf mem)

def firstLen (iovs : List Iov) : Nat := (iovs.map Iov.len).headD 0

/-- The header of a packet is in its buffers, these are mapped, and segmentation comes to an end
    and finds its checksum in the header. -/
structure HeaderFits (ctx : TxDesc) (r : Request) (hdrlen : Nat) (iovs : List Iov) : Prop where
  inside : hdrlen ≤ totalLen iovs
  mapped : ∀ iov ∈ iovs, iov.base ≠ none
  segments : r.tso = true → 0 < ctx.mss ∨ ctx.paylen = 0
  udp : r.tso = true → ctx.isTcp = false → r.ck1.valid = true → r.ck1.off.toNat + 2 ≤ ctx.hdrLen

def packetRequest (tx : Tx) (first last : TxDesc) : Request :=
  request tx.txctx last (firstDesc first).css

def packetHdrlen (tx : Tx) (first last : TxDesc) (iovs : List Iov) : Option Nat :=
  if maxTxsegs < iovs.length then none
  else hdrlenOf (vlanInserts tx.ctrl last) (packetRequest tx first last) tx.txctx (firstLen iovs)

def WholeFits (tx : Tx) (mem : GuestBytes) (first last : TxDesc) (descs : List TxDesc) : Prop :=
  last.eop = true → ∀ hdrlen ∈ packetHdrlen tx first last (iovsOf mem descs),
    HeaderFits tx.txctx (packetRequest tx first last) hdrlen (iovsOf mem descs)

/-- The descriptors of a packet are of one type, none has less than the checksum that is taken off
    it, and its header fits. -/
structure PacketFits (tx : Tx) (mem : GuestBytes) (descs : List TxDesc) (first : TxDesc) : Prop where
  types : ∀ d ∈ descs.tail, d.type = (firstDesc first).ntype
  lengths : ∀ d ∈ descs, d.strips = true → d.len ≠ 1
  whole : WholeFits tx mem first (descs.getLastD first) descs

/-- What the guest has to see to before a packet is sent: the ring is mapped, its size is as it was
    when the thread began, and there is a packet at its head, or nothing. -/
structure Sendable (tx : Tx) (mem : GuestBytes) (ring : Nat → TxDesc) (r : TxRun) : Prop where
  mapped : tx.txdesc ≠ none
  size : r.size = txEntries tx
  head : r.head < r.size
  packet : (ring r.head).type = txdTypC ∨
    ((r.tail < r.size ∨ ∃ i, i < r.size ∧ (ring i).eop = true) ∧
      PacketFits tx mem (packetDescs ring r.size r.tail r.size r.head) (ring r.head))

def TurnInOrder (tx : Tx) (mem : GuestBytes) (ring : Nat → TxDesc) : TxThread → Prop
  | .running r => tx.txEnabled = true → 0 < r.lim → r.head ≠ r.tail → Sendable tx mem ring r
  | _ => True

def RingInOrder (s : TxSys) : TxEvent → Prop
  | .turn mem ring => TurnInOrder s.tx mem ring s.thread
  | _ => True

def turnsLeft (s : TxSys) : Nat :=
  match s.thread with
  | .running r => r.lim.toNat + 1
  | _ => 0

def isTurn : TxEvent → Bool
  | .turn _ _ => true
  | _ => false

/-- A step goes through, and a turn of the thread brings the end of its run nearer. -/
def TxSafe (map : Guest2Host) (s : TxSys) (e : TxEvent) : Prop :=
  ∃ s', txStep map s e = .ok s' ∧
    (isTurn e = true → turnsLeft s ≠ 0 → turnsLeft s' < turnsLeft s)

section
variable {mem : GuestBytes} {ring : Nat → TxDesc}

structure Gains (mem : GuestBytes) (descs : List TxDesc) (g g' : Gather) : Prop where
  ntype : g'.ntype = g.ntype
  css : g'.css = g.css
  count : g'.iovcnt = g.iovcnt + (iovsOf mem descs).length
  iovs : g'.iovcnt ≤ maxTxsegs → g'.iovs = g.iovs ++ iovsOf mem descs

theorem add_desc_goes {d : TxDesc} (g : Gather) (long : d.strips = true → d.len ≠ 1) :
    ∃ g', addDesc mem d g = .ok g' ∧ Gains mem [d] g g' := by
  unfold addDesc
  split
  · next zero =>
    refine ⟨g, rfl, rfl, rfl, ?_, fun _ => ?_⟩ <;> simp [iovsOf, iovOf, zero]
  next some =>
  split
  · next full =>
    refine ⟨_, rfl, rfl, rfl, ?_, fun few => ?_⟩
    · simp [iovsOf, iovOf, some]
    · have beyond : g.iovcnt + 1 ≤ maxTxsegs := few
      omega
  split
  · next short =>
    have odd := long short.1
    omega
  · refine ⟨_, rfl, rfl, rfl, ?_, fun _ => ?_⟩ <;> simp [iovsOf, iovOf, some]

theorem gains_trans {first second : List TxDesc} {g g' g'' : Gather}
    (one : Gains mem first g g') (two : Gains mem second g' g'') :
    Gains mem (first ++ second) g g'' := by
  have lengths : (iovsOf mem (first ++ second)) = iovsOf mem first ++ iovsOf mem second :=
    flatMap_append
  refine ⟨two.ntype.trans one.ntype, two.css.trans one.css, ?_, fun few => ?_⟩
  · rw [two.count, one.count, lengths, length_append, Nat.add_assoc]
  · have before : g'.iovcnt ≤ maxTxsegs := by
      have more := two.count
      omega
    rw [two.iovs few, one.iovs before, lengths, List.append_assoc]

def Comes (mem : GuestBytes) (ring : Nat → TxDesc) (size : Nat) (descs : List TxDesc) (g : Gather)
    (found : Gathered) : Prop :=
  (∃ head, found = .incomplete head) ∨
    ∃ head desc g', found = .packet head desc (ring head) g' ∧ head < size ∧
      (ring head).eop = true ∧ descs.getLast? = some (ring head) ∧ Gains mem descs g g'

theorem gather_more_goes {size tail goal : Nat} (inside : goal < size)
    (stops : goal = tail ∨ (ring goal).eop = true) (fuel : Nat) : ∀ (head desc : Nat) (g : Gather),
    head < size → distance size head goal < fuel →
    (∀ d ∈ packetDescs ring size tail fuel head, d.type = g.ntype) →
    (∀ d ∈ packetDescs ring size tail fuel head, d.strips = true → d.len ≠ 1) →
    ∃ found, gatherMore mem ring size size tail fuel head desc g = .ok found ∧
      Comes mem ring size (packetDescs ring size tail fuel head) g found := by
  induction fuel with
  | zero => exact fun head desc g _ near => absurd near (Nat.not_lt_zero _)
  | succ fuel ih =>
    intro head desc g short near types lengths
    unfold packetDescs at types lengths ⊢
    unfold gatherMore
    by_cases empty : head = tail
    · simp only [empty, if_true]
      exact ⟨_, rfl, .inl ⟨_, rfl⟩⟩
    simp only [empty, if_false] at types lengths ⊢
    rw [if_neg (by omega)]
    have named : (ring head).type = g.ntype ∧ ((ring head).strips = true → (ring head).len ≠ 1) := by
      by_cases last : (ring head).eop = true
      · rw [if_pos last] at types lengths
        exact ⟨types _ mem_cons_self, lengths _ mem_cons_self⟩
      · rw [if_neg last] at types lengths
        exact ⟨types _ mem_cons_self, lengths _ mem_cons_self⟩
    rw [if_neg (not_not.mpr named.1)]
    obtain ⟨g', added, gains⟩ := @add_desc_goes mem (ring head) g named.2
    rw [added]
    dsimp only
    by_cases last : (ring head).eop = true
    · rw [if_pos last, if_pos last]
      exact ⟨_, rfl, .inr ⟨head, desc, g', rfl, short, last, rfl, gains⟩⟩
    · rw [if_neg last] at types lengths
      rw [if_neg last, if_neg last]
      have apart : head ≠ goal := by
        rintro rfl
        exact stops.elim empty last
      have nearer := distance_next short inside apart
      have later := fun d member => types d (mem_cons_of_mem (ring head) member)
      obtain ⟨found, ran, comes⟩ := ih ((head + 1) % size) (desc + 1) g' (Nat.mod_lt _ (by omega))
        (by omega) (gains.ntype ▸ later)
        (fun d member => lengths d (mem_cons_of_mem (ring head) member))
      refine ⟨found, ran, ?_⟩
      rcases comes with ⟨h, shape⟩ | ⟨h, n, g'', shape, within, eop, ends, more⟩
      · exact .inl ⟨h, shape⟩
      · refine .inr ⟨h, n, g'', shape, within, eop, ?_, gains_trans gains more⟩
        rw [getLast?_cons, ends]
        rfl

theorem gather_goes {size head tail : Nat} (inside : head < size) (more : head ≠ tail)
    (typed : (ring head).type ≠ txdTypC) (stops : tail < size ∨ ∃ i, i < size ∧ (ring i).eop = true)
    (types : ∀ d ∈ (packetDescs ring size tail size head).tail,
      d.type = (firstDesc (ring head)).ntype)
    (lengths : ∀ d ∈ packetDescs ring size tail size head, d.strips = true → d.len ≠ 1) :
    ∃ found, gather mem ring size size head tail = .ok found ∧
      Comes mem ring size (packetDescs ring size tail size head) (firstDesc (ring head)) found := by
  obtain ⟨fuel, rfl⟩ : ∃ fuel, size = fuel + 1 := ⟨size - 1, by omega⟩
  obtain ⟨goal, near, ends⟩ : ∃ goal, goal < fuel + 1 ∧ (goal = tail ∨ (ring goal).eop = true) := by
    rcases stops with short | ⟨i, short, last⟩
    · exact ⟨tail, short, .inl rfl⟩
    · exact ⟨i, short, .inr last⟩
  unfold packetDescs at types lengths ⊢
  simp only [more, if_false] at types lengths ⊢
  unfold gather
  rw [if_neg more, if_neg (by omega), if_neg typed]
  have long : (ring head).strips = true → (ring head).len ≠ 1 := by
    by_cases last : (ring head).eop = true
    · rw [if_pos last] at lengths
      exact lengths _ mem_cons_self
    · rw [if_neg last] at lengths
      exact lengths _ mem_cons_self
  obtain ⟨g', added, gains⟩ := @add_desc_goes mem (ring head) (firstDesc (ring head)) long
  rw [added]
  dsimp only
  by_cases last : (ring head).eop = true
  · rw [if_pos last, if_pos last]
    exact ⟨_, rfl, .inr ⟨head, 0, g', rfl, inside, last, rfl, gains⟩⟩
  · rw [if_neg last] at types lengths
    rw [if_neg last, if_neg last, if_neg (by omega)]
    have apart : head ≠ goal := by
      rintro rfl
      exact ends.elim more last
    have nearer := distance_next inside near apart
    have whole := distance_lt head goal (Nat.zero_lt_of_lt near)
    obtain ⟨found, ran, comes⟩ := @gather_more_goes mem ring (fuel + 1) tail goal near ends fuel
      ((head + 1) % (fuel + 1)) 1 g' (Nat.mod_lt _ (by omega)) (by omega) (gains.ntype ▸ types)
      (fun d member => lengths d (mem_cons_of_mem (ring head) member))
    refine ⟨found, ran, ?_⟩
    rcases comes with ⟨h, shape⟩ | ⟨h, n, g'', shape, within, eop, final, after⟩
    · exact .inl ⟨h, shape⟩
    · refine .inr ⟨h, n, g'', shape, within, eop, ?_, gains_trans gains after⟩
      rw [getLast?_cons, final]
      rfl

end

structure Covers (tcp : Bool) (ck0 ck1 : CkInfo) (n : Nat) : Prop where
  ip : ck0.start.toNat + 6 ≤ n
  ipOff : ck0.off.toNat + 2 ≤ n
  tcpStart : tcp = true → ck1.start.toNat + 14 ≤ n
  udpStart : ck1.start.toNat + 8 ≤ n
  off : ck1.valid = true → ck1.off.toNat + 2 ≤ n

theorem host16_length (x : BitVec 16) : (host16 x).length = 2 := rfl

theorem net16_length (x : BitVec 16) : (net16 x).length = 2 := rfl

theorem net32_length (x : BitVec 32) : (net32 x).length = 4 := rfl

theorem host32_length (x : BitVec 32) : (host32 x).length = 4 := rfl

theorem write_keeps {hdr : List Byte} {off : Nat} {bytes : List Byte}
    (inside : off + bytes.length ≤ hdr.length) :
    ∃ hdr', writeBytes hdr off bytes = .ok hdr' ∧ hdr'.length = hdr.length :=
  ⟨_, write_goes inside, replaced_length inside⟩

theorem update_ip_goes {t : Tso} {hdr : List Byte} (seg now : Nat)
    (inside : t.ck0.start.toNat + 6 ≤ hdr.length) :
    ∃ hdr', updateIp t seg now hdr = .ok hdr' ∧ hdr'.length = hdr.length := by
  unfold updateIp
  split
  · obtain ⟨first, ran, length⟩ := @write_keeps hdr (t.ck0.start.toNat + 2)
      (net16 (BitVec.ofNat 16 (hdr.length - t.ck0.start.toNat + now))) (by rw [net16_length]; omega)
    rw [bind_ok ran]
    obtain ⟨second, ran', length'⟩ := @write_keeps first (t.ck0.start.toNat + 4)
      (net16 (BitVec.ofNat 16 (t.ipid + seg))) (by rw [net16_length]; omega)
    exact ⟨second, ran', length'.trans length⟩
  · exact write_keeps (by rw [net16_length]; omega)

theorem clear_flags_goes {hdr : List Byte} {off : Nat} (inside : off + 1 ≤ hdr.length) :
    ∃ hdr', clearFlags hdr off = .ok hdr' ∧ hdr'.length = hdr.length := by
  unfold clearFlags
  rw [bind_ok (read_goes inside)]
  refine write_keeps ?_
  rw [length_map, length_take, length_drop]
  omega

theorem update_tcp_goes {t : Tso} {hdr : List Byte} (left now : Nat)
    (tcp : t.tcp = true → t.ck1.start.toNat + 14 ≤ hdr.length)
    (udp : t.ck1.start.toNat + 8 ≤ hdr.length) :
    ∃ hdr', updateTcp t left now hdr = .ok hdr' ∧ hdr'.length = hdr.length := by
  unfold updateTcp
  split
  · next is_tcp =>
    have inside := tcp is_tcp
    obtain ⟨first, ran, length⟩ := @write_keeps hdr (t.ck1.start.toNat + 4)
      (net32 (BitVec.ofNat 32 (t.tcpseq + t.paylen - left))) (by rw [net32_length]; omega)
    rw [bind_ok ran]
    split
    · obtain ⟨second, ran', length'⟩ := @clear_flags_goes first (t.ck1.start.toNat + 13) (by omega)
      exact ⟨second, ran', length'.trans length⟩
    · exact ⟨first, rfl, length⟩
  · exact write_keeps (by rw [host32_length]; omega)

theorem seed_checksum_goes {ck : CkInfo} {seed hdr : List Byte} {pieces : List Iov}
    (whole : ∀ iov ∈ pieces, iov.Whole) (two : seed.length = 2)
    (inside : ck.valid = true → ck.off.toNat + 2 ≤ hdr.length) :
    ∃ hdr', seedChecksum ck seed pieces hdr = .ok hdr' ∧ hdr'.length = hdr.length := by
  unfold seedChecksum
  split
  · next valid =>
    have within := inside valid
    obtain ⟨first, ran, length⟩ := @write_keeps hdr ck.off.toNat seed (by omega)
    rw [bind_ok ran]
    obtain ⟨second, ran', length'⟩ := @transmit_checksum_goes first pieces ck whole (by omega)
    exact ⟨second, ran', length'.trans length⟩
  · exact ⟨hdr, rfl, rfl⟩

theorem segment_header_goes {t : Tso} {hdr : List Byte} {pieces : List Iov} (seg left now : Nat)
    (covers : Covers t.tcp t.ck0 t.ck1 hdr.length) (two : t.ipcs.length = 2)
    (whole : ∀ iov ∈ pieces, iov.Whole) :
    ∃ hdr', segmentHeader t seg left now pieces hdr = .ok hdr' ∧ hdr'.length = hdr.length := by
  unfold segmentHeader
  obtain ⟨ip, ran_ip, same_ip⟩ := @update_ip_goes t hdr seg now covers.ip
  rw [bind_ok ran_ip]
  rw [← same_ip] at covers
  obtain ⟨tcp, ran_tcp, same_tcp⟩ := @update_tcp_goes t ip left now covers.tcpStart covers.udpStart
  rw [bind_ok ran_tcp]
  rw [← same_tcp] at covers
  obtain ⟨sum, ran_sum, same_sum⟩ :=
    @seed_checksum_goes t.ck0 t.ipcs tcp pieces whole two fun _ => covers.ipOff
  rw [bind_ok ran_sum]
  rw [← same_sum] at covers
  obtain ⟨last, ran_last, same_last⟩ := @seed_checksum_goes t.ck1
    (host16 (pseudoSum t sum.length now)) sum pieces whole (host16_length _) covers.off
  exact ⟨last, ran_last, same_last.trans (same_sum.trans (same_tcp.trans same_ip))⟩

theorem send_segments_goes {t : Tso} {n : Nat} (covers : Covers t.tcp t.ck0 t.ck1 n)
    (two : t.ipcs.length = 2) (fuel : Nat) : ∀ (seg left : Nat) (hdr : List Byte) (pay : List Iov),
    hdr.length = n → left ≤ fuel → 0 < t.mss ∨ left = 0 → (∀ iov ∈ pay, iov.Whole) →
    pay.length ≤ maxTxsegs → ∃ frames, sendSegments t fuel seg left hdr pay = .ok frames := by
  induction fuel with
  | zero =>
    intro seg left hdr pay _ few _ _ _
    have zero : left = 0 := by omega
    unfold sendSegments
    rw [if_pos zero]
    exact ⟨[], rfl⟩
  | succ fuel ih =>
    intro seg left hdr pay length few moves whole short
    unfold sendSegments
    by_cases zero : left = 0
    · rw [if_pos zero]
      exact ⟨[], rfl⟩
    rw [if_neg zero]
    dsimp only
    have taken := take_payload_takes pay (min left t.mss) whole
    have counts := taken.count
    rw [if_neg (by omega)]
    subst length
    obtain ⟨hdr', ran, same⟩ :=
      @segment_header_goes t hdr _ seg left (min left t.mss) covers two taken.whole.1
    rw [bind_ok ran]
    have positive : 0 < t.mss := by omega
    obtain ⟨frames, later⟩ := ih (seg + 1) (left - min left t.mss) hdr' _ same (by omega)
      (.inl positive) taken.whole.2 (Nat.le_trans counts.2 short)
    rw [bind_ok later]
    exact ⟨_, rfl⟩

theorem send_tso_goes {ctx : TxDesc} {p : Ready} (covers : Covers ctx.isTcp p.ck0 p.ck1 p.hdr.length)
    (whole : ∀ iov ∈ p.rest, iov.Whole) (short : p.rest.length ≤ maxTxsegs)
    (ends : 0 < ctx.mss ∨ ctx.paylen = 0) : ∃ frames, sendTso ctx p = .ok frames := by
  have udp := covers.udpStart
  have ip := covers.ip
  unfold sendTso tsoOf
  rw [bind_ok (read_goes (by omega)), bind_ok (read_if_goes fun _ => by omega),
    bind_ok (read_goes covers.ipOff), bind_ok (read_if_goes covers.off)]
  refine send_segments_goes covers ?_ _ 0 _ p.hdr p.rest rfl (Nat.le_refl _) ends whole short
  have inside := covers.ipOff
  rw [length_take, length_drop]
  omega

theorem send_plain_goes {p : Ready} (hdrlen : Nat) (whole : ∀ iov ∈ p.rest, iov.Whole)
    (first : p.ck0.valid = true → p.ck0.off.toNat + 2 ≤ p.hdr.length)
    (second : p.ck1.valid = true → p.ck1.off.toNat + 2 ≤ p.hdr.length) :
    ∃ frames, sendPlain p hdrlen = .ok frames := by
  have goes : ∀ (hdr : List Byte) (ck : CkInfo), (ck.valid = true → ck.off.toNat + 2 ≤ hdr.length) →
      ∃ hdr', checksumIf hdr p.rest ck = .ok hdr' ∧ hdr'.length = hdr.length := by
    intro hdr ck inside
    unfold checksumIf
    split
    · next valid => exact transmit_checksum_goes whole (inside valid)
    · exact ⟨hdr, rfl, rfl⟩
  unfold sendPlain
  obtain ⟨hdr, ran, same⟩ := goes p.hdr p.ck0 first
  obtain ⟨hdr', ran', -⟩ := goes hdr p.ck1 (same.symm ▸ second)
  rw [ran]
  dsimp only
  rw [ran']
  exact ⟨_, rfl⟩

theorem shift_le (x : Byte) : (x + BitVec.ofNat 8 etherVlanEncapLen).toNat ≤ x.toNat + 4 := by
  exact Nat.mod_le _ _

theorem insert_vlan_length (vet special : BitVec 16) {hdr : List Byte} (long : 12 ≤ hdr.length) :
    (insertVlan vet special hdr).length = hdr.length + 4 := by
  simp only [insertVlan, etherAddrLen, length_append, length_take, length_drop,
    net16_length]
  omega

theorem tso_covers {vlan : Bool} {r : Request} {ctx : TxDesc}
    (fits : tsoHdrlenFits vlan r ctx = true)
    (udp : ctx.isTcp = false → r.ck1.valid = true → r.ck1.off.toNat + 2 ≤ ctx.hdrLen) :
    Covers ctx.isTcp r.ck0 r.ck1 ctx.hdrLen ∧ (vlan = true → 12 ≤ ctx.hdrLen) := by
  simp only [tsoHdrlenFits, and_eq_true, decide_eq_true_eq, not_eq_true',
    etherAddrLen] at fits
  obtain ⟨⟨⟨⟨-, tag⟩, ip⟩, ip_off⟩, transport⟩ := fits
  refine ⟨⟨ip, ip_off, ?_, ?_, ?_⟩, ?_⟩
  · intro tcp
    simp only [tcp, if_true, and_eq_true, decide_eq_true_eq] at transport
    exact transport.1
  · split at transport
    · simp only [and_eq_true, decide_eq_true_eq] at transport
      omega
    · simpa using transport
  · intro valid
    by_cases tcp : ctx.isTcp = true
    · simp only [tcp, if_true, and_eq_true, decide_eq_true_eq, valid, Bool.true_and,
        not_eq_true', decide_eq_false_iff_not] at transport
      omega
    · exact udp (Bool.eq_false_iff.mpr tcp) valid
  · intro inserts
    simp only [inserts, Bool.true_and] at tag
    exact Nat.not_lt.mp (of_decide_eq_false tag)

theorem plain_covers (vlan : Bool) (r : Request) (first : Nat) :
    (r.ck0.valid = true → r.ck0.off.toNat + 2 ≤ plainHdrlen vlan r first) ∧
      (r.ck1.valid = true → r.ck1.off.toNat + 2 ≤ plainHdrlen vlan r first) ∧
      (vlan = true → 12 ≤ plainHdrlen vlan r first) := by
  unfold plainHdrlen
  dsimp only [etherAddrLen]
  refine ⟨fun valid => ?_, fun valid => ?_, fun valid => ?_⟩
  · split <;> split <;> split <;> omega
  · simp only [valid, if_true]
    split <;> split <;> split <;> omega
  · split <;> split <;> split <;> omega

theorem ready_covers {vlan : Bool} {vet special : BitVec 16} {r : Request} {hdr : List Byte}
    {rest : List Iov} (long : vlan = true → 12 ≤ hdr.length) :
    let p := ready vlan vet special r hdr rest
    p.rest = rest ∧
      (∀ tcp, Covers tcp r.ck0 r.ck1 hdr.length → Covers tcp p.ck0 p.ck1 p.hdr.length) ∧
      (∀ ck, ck.off.toNat + 2 ≤ hdr.length →
        (if vlan then (shiftCk ck).off.toNat else ck.off.toNat) + 2 ≤ p.hdr.length) := by
  unfold ready
  by_cases inserts : vlan = true
  · have length := insert_vlan_length vet special (long inserts)
    have shift_start := fun ck : CkInfo => shift_le ck.start
    have shift_off := fun ck : CkInfo => shift_le ck.off
    simp only [inserts, if_true, length]
    refine ⟨trivial, fun tcp covers => ?_, fun ck inside => ?_⟩
    · have starts0 := shift_start r.ck0
      have starts1 := shift_start r.ck1
      have offs0 := shift_off r.ck0
      have offs1 := shift_off r.ck1
      have ip := covers.ip
      have ip_off := covers.ipOff
      have udp := covers.udpStart
      refine ⟨?_, ?_, fun is_tcp => ?_, ?_, fun valid => ?_⟩
      · show (r.ck0.start + _).toNat + 6 ≤ _
        omega
      · show (r.ck0.off + _).toNat + 2 ≤ _
        omega
      · have inside := covers.tcpStart is_tcp
        show (r.ck1.start + _).toNat + 14 ≤ _
        omega
      · show (r.ck1.start + _).toNat + 8 ≤ _
        omega
      · have inside := covers.off valid
        show (r.ck1.off + _).toNat + 2 ≤ _
        omega
    · have offs := shift_off ck
      show (ck.off + _).toNat + 2 ≤ _
      omega
  · simp only [inserts, if_false, false_eq_true]
    exact ⟨trivial, fun _ covers => covers, fun _ inside => inside⟩

theorem iovs_whole {mem : GuestBytes} {descs : List TxDesc}
    (mapped : ∀ iov ∈ iovsOf mem descs, iov.base ≠ none) : ∀ iov ∈ iovsOf mem descs, iov.Whole := by
  intro iov member
  have there := mapped iov member
  obtain ⟨d, -, inside⟩ := List.mem_flatMap.mp member
  unfold iovOf at inside
  split at inside
  · cases inside
  · have same := List.mem_singleton.mp inside
    subst same
    obtain ⟨bytes, read⟩ := Option.ne_none_iff_exists'.mp there
    exact ⟨bytes, read, mem.length _ _ _ read⟩

theorem send_packet_goes {tx : Tx} {mem : GuestBytes} {descs : List TxDesc} {first last : TxDesc}
    {g : Gather} (gains : Gains mem descs (firstDesc first) g) (eop : last.eop = true)
    (fits : WholeFits tx mem first last descs) : ∃ frames, sendPacket tx last g = .ok frames := by
  have fits := fits eop
  have count : g.iovcnt = (iovsOf mem descs).length := by
    rw [gains.count]
    exact Nat.zero_add _
  unfold sendPacket
  by_cases many : maxTxsegs < g.iovcnt
  · rw [if_pos many]
    exact ⟨[], rfl⟩
  rw [if_neg many]
  have iovs : g.iovs = iovsOf mem descs := gains.iovs (by omega)
  have same : request tx.txctx last g.css = packetRequest tx first last := by
    rw [gains.css]
    rfl
  dsimp only
  rw [same, iovs]
  unfold packetHdrlen at fits
  rw [if_neg (count ▸ many)] at fits
  generalize whole_hdr : hdrlenOf (vlanInserts tx.ctrl last) (packetRequest tx first last) tx.txctx
    (firstLen (iovsOf mem descs)) = found at fits
  rw [show ((iovsOf mem descs).map Iov.len).headD 0 = firstLen (iovsOf mem descs) from rfl,
    whole_hdr]
  cases found with
  | none => exact ⟨[], rfl⟩
  | some hdrlen =>
    have header := fits hdrlen rfl
    obtain ⟨hdr, rest, copied, good⟩ :=
      copy_hdr_goes (iovsOf mem descs) hdrlen (iovs_whole header.mapped) header.inside
    dsimp only
    rw [copied]
    dsimp only
    have size := good.length
    unfold hdrlenOf at whole_hdr
    by_cases tso : (packetRequest tx first last).tso = true
    · rw [if_pos tso] at whole_hdr ⊢
      split at whole_hdr
      · next covers =>
        cases whole_hdr
        obtain ⟨covers, tagged⟩ := tso_covers covers (header.udp tso)
        obtain ⟨same_rest, more, -⟩ := @ready_covers (vlanInserts tx.ctrl last)
          (tx.vet.setWidth 16) last.special (packetRequest tx first last) hdr rest
          (fun inserts => size ▸ tagged inserts)
        refine send_tso_goes (more _ (size.symm ▸ covers)) ?_ ?_ (header.segments tso)
        · rw [same_rest]
          exact good.whole
        · rw [same_rest]
          have fewer := good.count
          omega
      · cases whole_hdr
    · rw [if_neg tso] at whole_hdr ⊢
      cases whole_hdr
      obtain ⟨first_off, second_off, tagged⟩ := plain_covers (vlanInserts tx.ctrl last)
        (packetRequest tx first last) (firstLen (iovsOf mem descs))
      obtain ⟨same_rest, -, offs⟩ := @ready_covers (vlanInserts tx.ctrl last)
        (tx.vet.setWidth 16) last.special (packetRequest tx first last) hdr rest
        (fun inserts => size ▸ tagged inserts)
      refine send_plain_goes _ (same_rest.symm ▸ good.whole) ?_ ?_
      · intro valid
        have inside := offs (packetRequest tx first last).ck0
        revert valid inside
        unfold ready
        split
        · exact fun valid inside => inside (size.symm ▸ first_off valid)
        · exact fun valid inside => inside (size.symm ▸ first_off valid)
      · intro valid
        have inside := offs (packetRequest tx first last).ck1
        revert valid inside
        unfold ready
        split
        · exact fun valid inside => inside (size.symm ▸ second_off valid)
        · exact fun valid inside => inside (size.symm ▸ second_off valid)

section
variable {mem : GuestBytes} {ring : Nat → TxDesc} {map : Guest2Host}

theorem transmit_done_goes {size tail : Nat} (inside : tail < size) (fuel : Nat) : ∀ head,
    head < size → distance size head tail ≤ fuel →
    ∃ tdwb, transmitDone ring size size tail fuel head = .ok tdwb := by
  induction fuel with
  | zero =>
    intro head short near
    have there : head = tail := by
      rw [distance_eq short inside] at near
      split at near <;> omega
    exact ⟨false, if_pos there⟩
  | succ fuel ih =>
    intro head short near
    unfold transmitDone
    by_cases there : head = tail
    · exact ⟨false, if_pos there⟩
    rw [if_neg there, if_neg (by omega)]
    have nearer := distance_next short inside there
    obtain ⟨tdwb, ran⟩ := ih ((head + 1) % size) (Nat.mod_lt _ (by omega)) (by omega)
    rw [ran]
    exact ⟨_, rfl⟩

theorem finish_packet_goes {size ohead head : Nat} (desc : Nat) (ctx : TxDesc)
    (frames : List Frame) (first : ohead < size) :
    ∃ sent, finishPacket ring size size ohead head desc ctx frames = .ok sent ∧ sent.count ≠ 0 := by
  have some : 0 < size := by omega
  obtain ⟨tdwb, ran⟩ := @transmit_done_goes ring size ((head + 1) % size) (Nat.mod_lt _ some) size
    ohead first (Nat.le_of_lt (distance_lt _ _ some))
  unfold finishPacket
  rw [if_neg (by omega), ran]
  exact ⟨_, rfl, Nat.succ_ne_zero desc⟩

theorem transmit_goes {tx : Tx} {r : TxRun} (more : r.head ≠ r.tail)
    (sendable : Sendable tx mem ring r) :
    ∃ sent, transmit mem ring r.head r.tail r.size tx = .ok sent := by
  have inside := sendable.head
  have size := sendable.size
  unfold transmit
  rw [← size]
  by_cases context : (ring r.head).type = txdTypC
  · have found : gather mem ring r.size r.size r.head r.tail = .ok (.context (ring r.head)) := by
      unfold gather
      rw [if_neg more, if_neg (by omega), if_pos context]
    rw [found]
    obtain ⟨sent, ran, -⟩ := @finish_packet_goes ring r.size r.head r.head 0 (ring r.head) [] inside
    exact ⟨sent, ran⟩
  obtain ⟨stops, fits⟩ := sendable.packet.resolve_left context
  obtain ⟨found, ran, comes⟩ := gather_goes inside more context stops fits.types fits.lengths
  rw [ran]
  rcases comes with ⟨h, rfl⟩ | ⟨h, n, g, rfl, within, eop, ends, gains⟩
  · exact ⟨_, rfl⟩
  · have last : (packetDescs ring r.size r.tail r.size r.head).getLastD (ring r.head) = ring h := by
      rw [getLastD_eq_getLast?, ends]
      rfl
    obtain ⟨frames, sends⟩ := send_packet_goes gains eop (last ▸ fits.whole)
    dsimp only
    rw [sends]
    obtain ⟨sent, goes, -⟩ :=
      @finish_packet_goes ring r.size r.head h n tx.txctx frames inside
    exact ⟨sent, goes⟩

theorem tx_turn_safe {s : TxSys} {r : TxRun} (there : s.thread = .running r)
    (order : TurnInOrder s.tx mem ring s.thread) : TxSafe map s (.turn mem ring) := by
  rw [there] at order
  have left : turnsLeft s = r.lim.toNat + 1 := by
    unfold turnsLeft
    rw [there]
  unfold TxSafe
  simp only [txStep, there, left]
  unfold txTurn
  by_cases beyond : s.tx.txEnabled = false ∨ r.lim ≤ 0
  · rw [if_pos beyond]
    exact ⟨_, rfl, fun _ _ => Nat.succ_pos _⟩
  rw [if_neg beyond]
  have enabled : s.tx.txEnabled = true := by simpa using fun off => beyond (.inl off)
  have more_lim : 0 < r.lim := Int.not_le.mp fun few => beyond (.inr few)
  have goes : ∃ sent, transmit mem ring r.head r.tail r.size s.tx = .ok sent := by
    by_cases empty : r.head = r.tail
    · refine ⟨⟨[], s.tx.txctx, r.head, 0, false⟩, ?_⟩
      unfold transmit gather
      rw [if_pos empty]
    · exact transmit_goes empty (order enabled more_lim empty)
  have mapped : ¬ (s.tx.txdesc = none ∧ r.head ≠ r.tail) := fun ⟨unmapped, more⟩ =>
    (order enabled more_lim more).mapped unmapped
  rw [if_neg mapped]
  obtain ⟨sent, ran⟩ := goes
  rw [ran]
  dsimp only
  by_cases empty : sent.count = 0
  · rw [if_pos empty]
    exact ⟨_, rfl, fun _ _ => Nat.succ_pos _⟩
  · rw [if_neg empty]
    refine ⟨_, rfl, fun _ _ => ?_⟩
    show (r.lim - sent.count).toNat + 1 < r.lim.toNat + 1
    omega

theorem tx_step_safe (s : TxSys) (e : TxEvent) (order : RingInOrder s e) : TxSafe map s e := by
  cases e with
  | write offset value => exact ⟨_, rfl, nofun⟩
  | wake k => exact ⟨_, rfl, nofun⟩
  | poll =>
    unfold TxSafe
    simp only [txStep]
    cases s.thread <;> exact ⟨_, rfl, nofun⟩
  | turn mem ring =>
    cases there : s.thread with
    | running r => exact tx_turn_safe there order
    | idle =>
      refine ⟨s, by simp only [txStep, there], fun _ more => absurd ?_ more⟩
      simp only [turnsLeft, there]
    | done r =>
      refine ⟨s, by simp only [txStep, there], fun _ more => absurd ?_ more⟩
      simp only [turnsLeft, there]
  | finish =>
    unfold TxSafe
    simp only [txStep]
    cases s.thread <;> exact ⟨_, rfl, nofun⟩

theorem transmit_robust (map : Guest2Host) (events : List TxEvent)
    (order : AlongAttempts (txStep map) RingInOrder txInit events) :
    AlongAttempts (txStep map) (TxSafe map) txInit events :=
  along_attempts_of_invariant (fun _ _ _ _ _ _ => trivial)
    (fun s e (_ : True) order => tx_step_safe s e order) events _ trivial order

instance (ctx : TxDesc) (r : Request) (hdrlen : Nat) (iovs : List Iov) :
    Decidable (HeaderFits ctx r hdrlen iovs) :=
  decidable_of_iff (_ ∧ _ ∧ _ ∧ _)
    ⟨fun ⟨a, b, c, d⟩ => ⟨a, b, c, d⟩, fun ⟨a, b, c, d⟩ => ⟨a, b, c, d⟩⟩

instance (tx : Tx) (mem : GuestBytes) (first last : TxDesc) (descs : List TxDesc) :
    Decidable (WholeFits tx mem first last descs) :=
  inferInstanceAs (Decidable (last.eop = true →
    ∀ hdrlen ∈ packetHdrlen tx first last (iovsOf mem descs), HeaderFits _ _ _ _))

instance (tx : Tx) (mem : GuestBytes) (descs : List TxDesc) (first : TxDesc) :
    Decidable (PacketFits tx mem descs first) :=
  decidable_of_iff (_ ∧ _ ∧ _) ⟨fun ⟨a, b, c⟩ => ⟨a, b, c⟩, fun ⟨a, b, c⟩ => ⟨a, b, c⟩⟩

instance (tx : Tx) (mem : GuestBytes) (ring : Nat → TxDesc) (r : TxRun) :
    Decidable (Sendable tx mem ring r) :=
  decidable_of_iff (_ ∧ _ ∧ _ ∧ _)
    ⟨fun ⟨a, b, c, d⟩ => ⟨a, b, c, d⟩, fun ⟨a, b, c, d⟩ => ⟨a, b, c, d⟩⟩

instance (tx : Tx) (mem : GuestBytes) (ring : Nat → TxDesc) :
    ∀ thread, Decidable (TurnInOrder tx mem ring thread)
  | .running r =>
      inferInstanceAs (Decidable (tx.txEnabled = true → 0 < r.lim → r.head ≠ r.tail →
        Sendable tx mem ring r))
  | .idle => .isTrue trivial
  | .done _ => .isTrue trivial

instance : ∀ s e, Decidable (RingInOrder s e)
  | s, .turn mem ring => inferInstanceAs (Decidable (TurnInOrder s.tx mem ring s.thread))
  | _, .write _ _ => .isTrue trivial
  | _, .wake _ => .isTrue trivial
  | _, .poll => .isTrue trivial
  | _, .finish => .isTrue trivial

def plainMap : Guest2Host := fun address _ => some address.toNat

def zeroBytes : GuestBytes where
  read := fun _ n => some (List.replicate n 0)
  length := by
    intro addr n bytes read
    cases read
    exact length_replicate

def legacyDesc (len : BitVec 16) : TxDesc :=
  ⟨0x1000, txdCmdEop ||| txdCmdIfcs ||| txdCmdRs ||| len.setWidth 32, 0⟩

def enableTx (tdh : BitVec 32) : List TxEvent :=
  [.write regTdlen 0x80, .write regTdh tdh, .write regTdt 1, .write regTctl tctlEn, .poll]

theorem one_packet_safe : AlongAttempts (txStep plainMap) (TxSafe plainMap) txInit
      (enableTx 0 ++ [.turn zeroBytes fun _ => legacyDesc 4, .turn zeroBytes fun _ => legacyDesc 4,
        .finish, .poll]) :=
  transmit_robust plainMap _ (by decide)

theorem head_outside_ring : ¬ AlongAttempts (txStep plainMap) (TxSafe plainMap) txInit
      (enableTx 100 ++ [.turn zeroBytes fun _ => legacyDesc 4]) := by
  intro safe
  obtain ⟨s, ran, fails⟩ := @value_of_result _ _ _
    (attempts (txStep plainMap) txInit (enableTx 100))
    (fun s => (txStep plainMap s (.turn zeroBytes fun _ => legacyDesc 4)).toOption.isNone) true
    (by decide)
  obtain ⟨s', goes, -⟩ := along_attempts_last _ _ ran safe
  rw [goes] at fails
  cases fails

end
end E82545
