import Bhyve.E82545.TxSafety
import Bhyve.E82545.Checksums

namespace E82545
open OnesComplement Fallible List BitVec

abbrev Field := Nat × Nat

def Apart (f f' : Field) : Prop := f.1 + f.2 ≤ f'.1 ∨ f'.1 + f'.2 ≤ f.1

def ipFields (ctx : TxDesc) (p : Ready) : List Field :=
  if ctx.isIp then [(p.ck0.start.toNat + 2, 2), (p.ck0.start.toNat + 4, 2)]
  else [(p.ck0.start.toNat + 4, 2)]

def transportFields (ctx : TxDesc) (p : Ready) : List Field :=
  if ctx.isTcp then [(p.ck1.start.toNat + 4, 4), (p.ck1.start.toNat + 13, 1)]
  else [(p.ck1.start.toNat + 4, 2)]

def ckField (ck : CkInfo) : List Field := if ck.valid then [(ck.off.toNat, 2)] else []

def fields (ctx : TxDesc) (p : Ready) : List Field :=
  ipFields ctx p ++ transportFields ctx p ++ ckField p.ck0 ++ ckField p.ck1

def Outside (fs : List Field) (i : Nat) : Prop := ∀ f ∈ fs, i < f.1 ∨ f.1 + f.2 ≤ i

/-- The checksum field has the complement of the one's-complement sum of the range of the checksum,
    in which a seed stands in the place of the field. -/
def Checksummed (ck : CkInfo) (seed hdr pay : List Byte) : Prop :=
  slice hdr ck.off.toNat 2 = host16 (~~~BitVec.ofNat 16 (fold (wordSum
    (slice (replaced hdr ck.off.toNat seed ++ pay) ck.start.toNat (ckLen ck)))))

def clearFinPush (flags : List Byte) : List Byte := flags.map fun b => b &&& ~~~thFinPush

def segmentSeed (p : Ready) (now : Nat) : List Byte :=
  host16 (BitVec.ofNat 16 (fold ((ofHost16 (slice p.hdr p.ck1.off.toNat 2)).toNat +
    (ofHost16 (net16 (BitVec.ofNat 16 (p.hdr.length - p.ck1.start.toNat + now)))).toNat)))

structure SegmentOf (ctx : TxDesc) (p : Ready) (k now : Nat) (last : Bool) (hdr pay : List Byte) :
    Prop where
  length : hdr.length = p.hdr.length
  others : ∀ i, Outside (fields ctx p) i → hdr[i]? = p.hdr[i]?
  ip4 : ctx.isIp = true →
    slice hdr (p.ck0.start.toNat + 2) 2 =
        net16 (BitVec.ofNat 16 (p.hdr.length - p.ck0.start.toNat + now)) ∧
      slice hdr (p.ck0.start.toNat + 4) 2 =
        net16 (BitVec.ofNat 16 (ofNet (slice p.hdr (p.ck0.start.toNat + 4) 2) + k))
  ip6 : ctx.isIp = false → slice hdr (p.ck0.start.toNat + 4) 2 =
    net16 (BitVec.ofInt 16 ((p.hdr.length : Int) - p.ck0.start.toNat - 40 + now))
  seq : ctx.isTcp = true → slice hdr (p.ck1.start.toNat + 4) 4 =
    net32 (BitVec.ofNat 32 (ofNet (slice p.hdr (p.ck1.start.toNat + 4) 4) + k * ctx.mss))
  flags : ctx.isTcp = true → slice hdr (p.ck1.start.toNat + 13) 1 =
    if last then slice p.hdr (p.ck1.start.toNat + 13) 1
    else clearFinPush (slice p.hdr (p.ck1.start.toNat + 13) 1)
  udp : ctx.isTcp = false → slice hdr (p.ck1.start.toNat + 4) 2 =
    net16 (BitVec.ofNat 16 (p.hdr.length - p.ck1.start.toNat + now))
  ipSum : p.ck0.valid = true → Checksummed p.ck0 [0, 0] hdr pay
  tcpSum : p.ck1.valid = true → Checksummed p.ck1 (segmentSeed p now) hdr pay

/-- The frames carry a payload in order: each has the next bytes, as many as a segment may have, and
    none is left at the end. -/
def Segmented (ctx : TxDesc) (p : Ready) : Nat → List Byte → List Frame → Prop
  | _, pay, [] => pay = []
  | k, pay, frame :: frames =>
      pay ≠ [] ∧
        (∃ hdr, bytesOf frame = hdr ++ pay.take ctx.mss ∧
          SegmentOf ctx p k (pay.take ctx.mss).length (decide (pay.length ≤ ctx.mss)) hdr
            (pay.take ctx.mss)) ∧
        Segmented ctx p (k + 1) (pay.drop ctx.mss) frames

def offloadRequest (tx : Tx) (last : TxDesc) (g : Gather) : Request :=
  request tx.txctx last g.css

def original (tx : Tx) (last : TxDesc) (g : Gather) : Ready :=
  ready (vlanInserts tx.ctrl last) (tx.vet.setWidth 16) last.special (offloadRequest tx last g)
    ((bytesOf g.iovs).take tx.txctx.hdrLen) []

def SegmentedExactly (tx : Tx) (last : TxDesc) (g : Gather) : Prop :=
  ∃ frames, sendPacket tx last g = .ok frames ∧
    Segmented tx.txctx (original tx last g) 0 ((bytesOf g.iovs).drop tx.txctx.hdrLen) frames

structure Offload (tx : Tx) (last : TxDesc) (g : Gather) : Prop where
  tso : (offloadRequest tx last g).tso = true
  count : g.iovcnt = g.iovs.length
  few : g.iovs.length ≤ maxTxsegs
  whole : ∀ iov ∈ g.iovs, iov.Whole
  inside : tx.txctx.hdrLen ≤ totalLen g.iovs
  mss : 0 < tx.txctx.mss
  paylen : tx.txctx.paylen = totalLen g.iovs - tx.txctx.hdrLen

/-- The header is long enough for its fields and these do not overlap, the packet is TCP, FIN and
    PSH are not set unless one frame is enough, the IP checksum field is 0 where it is summed, and the
    range of the IP checksum leaves the TCP checksum out. -/
structure Segmentable (tx : Tx) (last : TxDesc) (g : Gather) : Prop where
  fits : tsoHdrlenFits (vlanInserts tx.ctrl last) (offloadRequest tx last g) tx.txctx = true
  tcp : tx.txctx.isTcp = true
  flags : clearFinPush (slice (original tx last g).hdr
      ((original tx last g).ck1.start.toNat + 13) 1) =
        slice (original tx last g).hdr ((original tx last g).ck1.start.toNat + 13) 1 ∨
      tx.txctx.paylen ≤ tx.txctx.mss
  apart : (fields tx.txctx (original tx last g)).Pairwise Apart
  seed : (original tx last g).ck0.valid = true →
    slice (original tx last g).hdr (original tx last g).ck0.off.toNat 2 = [0, 0] ∨
      Apart ((original tx last g).ck0.start.toNat, ckLen (original tx last g).ck0)
        ((original tx last g).ck0.off.toNat, 2)
  sums : (original tx last g).ck0.valid = true → (original tx last g).ck1.valid = true →
    Apart ((original tx last g).ck0.start.toNat, ckLen (original tx last g).ck0)
      ((original tx last g).ck1.off.toNat, 2)

/-- No frame is to be sent, and a checksum field of UDP that is read is in the header. -/
structure NothingToSegment (tx : Tx) (last : TxDesc) (g : Gather) : Prop where
  empty : tx.txctx.paylen = 0
  udp : tsoHdrlenFits (vlanInserts tx.ctrl last) (offloadRequest tx last g) tx.txctx = true →
    tx.txctx.isTcp = false → (offloadRequest tx last g).ck1.valid = true →
      (offloadRequest tx last g).ck1.off.toNat + 2 ≤ tx.txctx.hdrLen

section

theorem slice_get (bytes : List Byte) (off n i : Nat) :
    (slice bytes off n)[i]? = if i < n then bytes[off + i]? else none := by
  rw [slice, getElem?_take, getElem?_drop]

variable {off n : Nat} {hdr hdr' : List Byte} {fs : List Field}

theorem slice_ext {first second : List Byte}
    (same : ∀ i, off ≤ i → i < off + n → first[i]? = second[i]?) :
    slice first off n = slice second off n := by
  apply ext_getElem?
  intro i
  rw [slice_get, slice_get]
  split
  · exact same (off + i) (by omega) (by omega)
  · rfl

theorem replaced_get {bytes : List Byte} (inside : off + bytes.length ≤ hdr.length) (i : Nat) :
    (replaced hdr off bytes)[i]? =
      if i < off ∨ off + bytes.length ≤ i then hdr[i]? else bytes[i - off]? := by
  have first : (hdr.take off).length = off := by
    rw [length_take]
    omega
  unfold replaced
  by_cases before : i < off
  · rw [if_pos (.inl before), List.append_assoc, getElem?_append_left (by omega),
      getElem?_take, if_pos before]
  by_cases after : off + bytes.length ≤ i
  · rw [if_pos (.inr after), getElem?_append_right (by rw [length_append]; omega),
      getElem?_drop, length_append, first]
    congr 1
    omega
  · rw [if_neg (by omega), getElem?_append_left (by rw [length_append]; omega),
      getElem?_append_right (by omega), first]

theorem replaced_slice {hdr bytes : List Byte} {off n : Nat} (length : bytes.length = n)
    (inside : off + bytes.length ≤ hdr.length) : slice (replaced hdr off bytes) off n = bytes := by
  apply ext_getElem?
  intro i
  rw [slice_get, replaced_get inside]
  split
  · rw [if_neg (by omega)]
    congr 1
    omega
  · rw [List.getElem?_eq_none (by omega)]

theorem replaced_twice {hdr first second : List Byte} {off : Nat}
    (length : first.length = second.length) (inside : off + first.length ≤ hdr.length) :
    replaced (replaced hdr off first) off second = replaced hdr off second := by
  apply ext_getElem?
  intro i
  have same := replaced_length inside
  rw [replaced_get (by omega), replaced_get inside, replaced_get (by omega)]
  split
  · next outside => rw [if_pos (by omega)]
  · rfl

/-- A header that differs from another in some fields at most. -/
structure OnlyAt (fs : List Field) (hdr hdr' : List Byte) : Prop where
  length : hdr'.length = hdr.length
  others : ∀ i, Outside fs i → hdr'[i]? = hdr[i]?

theorem only_at_self (hdr : List Byte) : OnlyAt [] hdr hdr := ⟨rfl, fun _ _ => rfl⟩

theorem only_at_trans {fs' : List Field} {first second third : List Byte}
    (one : OnlyAt fs first second) (two : OnlyAt fs' second third) :
    OnlyAt (fs ++ fs') first third := by
  refine ⟨two.length.trans one.length, fun i outside => ?_⟩
  rw [two.others i fun f member => outside f (mem_append_right fs member)]
  exact one.others i fun f member => outside f (mem_append_left fs' member)

theorem replaced_only_at {hdr bytes : List Byte} {off n : Nat} (length : bytes.length = n)
    (inside : off + bytes.length ≤ hdr.length) :
    OnlyAt [(off, n)] hdr (replaced hdr off bytes) := by
  refine ⟨replaced_length inside, fun i outside => ?_⟩
  have here := outside (off, n) mem_cons_self
  rw [replaced_get inside, if_pos (by subst length; exact here)]

theorem only_at_slice (only : OnlyAt fs hdr hdr') (apart : ∀ f ∈ fs, Apart (off, n) f) :
    slice hdr' off n = slice hdr off n := by
  refine slice_ext fun i after before => only.others i fun f member => ?_
  rcases apart f member with first | second
  · exact .inl (Nat.lt_of_lt_of_le before first)
  · exact .inr (Nat.le_trans second after)

theorem only_at_replaced {bytes : List Byte} (only : OnlyAt fs hdr hdr')
    (inside : off + bytes.length ≤ hdr.length) :
    OnlyAt fs (replaced hdr off bytes) (replaced hdr' off bytes) := by
  have length := only.length
  refine ⟨?_, fun i outside => ?_⟩
  · rw [replaced_length inside, replaced_length (by omega), length]
  · rw [replaced_get inside, replaced_get (by omega)]
    split
    · exact only.others i outside
    · rfl

theorem only_at_range {f : Field} {pay : List Byte} (only : OnlyAt [f] hdr hdr')
    (apart : Apart (off, n) f) : slice (hdr' ++ pay) off n = slice (hdr ++ pay) off n := by
  refine slice_ext fun i after before => ?_
  have length := only.length
  by_cases inside : i < hdr.length
  · rw [getElem?_append_left inside, getElem?_append_left (by omega)]
    refine only.others i fun f' member => ?_
    rw [List.mem_singleton.mp member]
    rcases apart with first | second
    · exact .inl (Nat.lt_of_lt_of_le before first)
    · exact .inr (Nat.le_trans second after)
  · rw [getElem?_append_right (by omega), getElem?_append_right (by omega), length]

end

section
variable {ctx : TxDesc} {p : Ready} {t : Tso}

theorem apart_symm {f f' : Field} (apart : Apart f f') : Apart f' f := apart.symm

variable {hdr hdr' : List Byte} {now : Nat}

theorem update_ip_spec {seg : Nat} (inside : t.ck0.start.toNat + 6 ≤ hdr.length)
    (ran : updateIp t seg now hdr = .ok hdr') :
    OnlyAt (if t.ip then [(t.ck0.start.toNat + 2, 2), (t.ck0.start.toNat + 4, 2)]
      else [(t.ck0.start.toNat + 4, 2)]) hdr hdr' ∧
    (t.ip = true → slice hdr' (t.ck0.start.toNat + 2) 2 =
        net16 (BitVec.ofNat 16 (hdr.length - t.ck0.start.toNat + now)) ∧
      slice hdr' (t.ck0.start.toNat + 4) 2 = net16 (BitVec.ofNat 16 (t.ipid + seg))) ∧
    (t.ip = false → slice hdr' (t.ck0.start.toNat + 4) 2 =
      net16 (BitVec.ofInt 16 ((hdr.length : Int) - t.ck0.start.toNat - 40 + now))) := by
  unfold updateIp at ran
  by_cases ip : t.ip = true
  · simp only [ip, if_true] at ran ⊢
    have first := @replaced_only_at hdr (net16 (BitVec.ofNat 16 (hdr.length - t.ck0.start.toNat + now)))
      (t.ck0.start.toNat + 2) 2 rfl (by rw [net16_length]; omega)
    have long := first.length
    rw [bind_ok (write_goes (by rw [net16_length]; omega)),
      write_goes (by rw [net16_length]; omega)] at ran
    cases ran
    have second := @replaced_only_at
      (replaced hdr (t.ck0.start.toNat + 2)
        (net16 (BitVec.ofNat 16 (hdr.length - t.ck0.start.toNat + now))))
      (net16 (BitVec.ofNat 16 (t.ipid + seg))) (t.ck0.start.toNat + 4) 2 rfl
      (by rw [net16_length]; omega)
    refine ⟨only_at_trans first second, fun _ => ⟨?_, ?_⟩, nofun⟩
    · rw [only_at_slice second fun f member => ?_]
      · exact replaced_slice rfl (by rw [net16_length]; omega)
      · rw [List.mem_singleton.mp member]
        exact .inl (Nat.le_refl _)
    · exact replaced_slice rfl (by rw [net16_length]; omega)
  · simp only [ip, Bool.false_eq_true, if_false] at ran ⊢
    rw [write_goes (by rw [net16_length]; omega)] at ran
    cases ran
    refine ⟨replaced_only_at rfl (by rw [net16_length]; omega), fun never => never.elim, fun _ => ?_⟩
    exact replaced_slice rfl (by rw [net16_length]; omega)

theorem update_tcp_spec {left : Nat} (tcp : t.tcp = true)
    (inside : t.ck1.start.toNat + 14 ≤ hdr.length) (ran : updateTcp t left now hdr = .ok hdr') :
    OnlyAt [(t.ck1.start.toNat + 4, 4), (t.ck1.start.toNat + 13, 1)] hdr hdr' ∧
    slice hdr' (t.ck1.start.toNat + 4) 4 =
      net32 (BitVec.ofNat 32 (t.tcpseq + t.paylen - left)) ∧
    slice hdr' (t.ck1.start.toNat + 13) 1 =
      if now < left then clearFinPush (slice hdr (t.ck1.start.toNat + 13) 1)
      else slice hdr (t.ck1.start.toNat + 13) 1 := by
  unfold updateTcp at ran
  simp only [tcp, if_true] at ran
  have seq_first := @replaced_only_at hdr (net32 (BitVec.ofNat 32 (t.tcpseq + t.paylen - left)))
    (t.ck1.start.toNat + 4) 4 rfl (by rw [net32_length]; omega)
  have long := seq_first.length
  rw [bind_ok (write_goes (by rw [net32_length]; omega))] at ran
  have flag_kept : slice (replaced hdr (t.ck1.start.toNat + 4)
      (net32 (BitVec.ofNat 32 (t.tcpseq + t.paylen - left)))) (t.ck1.start.toNat + 13) 1 =
        slice hdr (t.ck1.start.toNat + 13) 1 := by
    refine only_at_slice seq_first fun f member => ?_
    rw [List.mem_singleton.mp member]
    exact .inr (by omega)
  have seq_there : slice (replaced hdr (t.ck1.start.toNat + 4)
      (net32 (BitVec.ofNat 32 (t.tcpseq + t.paylen - left)))) (t.ck1.start.toNat + 4) 4 =
        net32 (BitVec.ofNat 32 (t.tcpseq + t.paylen - left)) :=
    replaced_slice rfl (by rw [net32_length]; omega)
  generalize replaced hdr (t.ck1.start.toNat + 4)
    (net32 (BitVec.ofNat 32 (t.tcpseq + t.paylen - left))) = between at *
  by_cases more : now < left
  · rw [if_pos more] at ran ⊢
    unfold clearFlags at ran
    rw [bind_ok (read_goes (by omega))] at ran
    have one : (clearFinPush (slice between (t.ck1.start.toNat + 13) 1)).length = 1 := by
      rw [clearFinPush, length_map, slice, length_take, length_drop]
      omega
    have cleared := @replaced_only_at between
      (clearFinPush (slice between (t.ck1.start.toNat + 13) 1)) (t.ck1.start.toNat + 13) 1 one
      (by omega)
    have wrote : writeBytes between (t.ck1.start.toNat + 13)
        (clearFinPush (slice between (t.ck1.start.toNat + 13) 1)) = .ok hdr' := ran
    rw [write_goes (by omega)] at wrote
    cases wrote
    refine ⟨only_at_trans seq_first cleared, ?_, ?_⟩
    · rw [only_at_slice cleared fun f member => ?_]
      · exact seq_there
      · rw [List.mem_singleton.mp member]
        exact .inl (by omega)
    · rw [replaced_slice one (by omega), flag_kept]
  · rw [if_neg more] at ran ⊢
    cases ran
    refine ⟨⟨seq_first.length, fun i outside => seq_first.others i fun f member => ?_⟩, seq_there,
      flag_kept⟩
    rw [List.mem_singleton.mp member]
    exact outside _ mem_cons_self

theorem seed_checksum_spec {ck : CkInfo} {seed : List Byte} {pieces : List Iov}
    (two : seed.length = 2) (inside : ck.valid = true → ck.off.toNat + 2 ≤ hdr.length)
    (whole : ∀ iov ∈ pieces, iov.Whole) (short : ∀ iov ∈ pieces, iov.len ≤ 65536)
    (few : pieces.length ≤ maxTxsegs) (small : hdr.length ≤ 65536)
    (ran : seedChecksum ck seed pieces hdr = .ok hdr') : OnlyAt (ckField ck) hdr hdr' ∧
      (ck.valid = true → Checksummed ck seed hdr' (bytesOf pieces)) := by
  unfold seedChecksum at ran
  unfold ckField
  by_cases valid : ck.valid = true
  · have within := inside valid
    rw [if_pos valid] at ran ⊢
    rw [bind_ok (write_goes (by omega))] at ran
    unfold transmitChecksum at ran
    cases summed : iovChecksum
        (⟨some (replaced hdr ck.off.toNat seed), (replaced hdr ck.off.toNat seed).length⟩ :: pieces)
        ck.start.toNat (ckLen ck) with
    | error fault =>
      rw [summed] at ran
      cases ran
    | ok cksum =>
      rw [summed] at ran
      have length := @replaced_length hdr ck.off.toNat seed (by omega)
      have wrote : writeBytes (replaced hdr ck.off.toNat seed) ck.off.toNat
          (host16 (~~~cksum)) = .ok hdr' := ran
      rw [write_goes (by rw [host16_length]; omega)] at wrote
      cases wrote
      have first := @replaced_only_at hdr seed ck.off.toNat 2 two (by omega)
      have second := @replaced_only_at (replaced hdr ck.off.toNat seed) (host16 (~~~cksum))
        ck.off.toNat 2 rfl (by rw [host16_length]; omega)
      refine ⟨⟨second.length.trans first.length, fun i outside => ?_⟩, fun _ => ?_⟩
      · rw [second.others i outside, first.others i outside]
      · have again : replaced (replaced (replaced hdr ck.off.toNat seed) ck.off.toNat
            (host16 (~~~cksum))) ck.off.toNat seed = replaced hdr ck.off.toNat seed := by
          rw [@replaced_twice (replaced hdr ck.off.toNat seed) (host16 (~~~cksum)) seed ck.off.toNat
            two.symm (by rw [host16_length]; omega), @replaced_twice hdr seed seed ck.off.toNat rfl
            (by omega)]
        unfold Checksummed
        rw [@replaced_slice (replaced hdr ck.off.toNat seed) (host16 (~~~cksum)) ck.off.toNat 2 rfl
          (by rw [host16_length]; omega), again]
        have value := iov_checksum_eq (fun iov member => ?_) (fun iov member => ?_) ?_ summed
        · congr 2
          apply eq_of_toNat_eq
          rw [toNat_ofNat, Nat.mod_eq_of_lt (fold_lt _)]
          exact value
        · rcases List.mem_cons.mp member with rfl | old
          · exact header_whole _
          · exact whole iov old
        · rcases List.mem_cons.mp member with rfl | old
          · show (replaced hdr ck.off.toNat seed).length ≤ 65536
            omega
          · exact short iov old
        · simp only [length_cons, maxTxsegs] at few ⊢
          omega
  · rw [if_neg valid] at ran ⊢
    cases ran
    exact ⟨only_at_self hdr, fun never => absurd never valid⟩

structure Reads (ctx : TxDesc) (p : Ready) (t : Tso) : Prop where
  tcp : t.tcp = ctx.isTcp
  ip : t.ip = ctx.isIp
  mss : t.mss = ctx.mss
  paylen : t.paylen = ctx.paylen
  ipid : t.ipid = ofNet (slice p.hdr (p.ck0.start.toNat + 4) 2)
  tcpseq : ctx.isTcp = true → t.tcpseq = ofNet (slice p.hdr (p.ck1.start.toNat + 4) 4)
  ipcs : t.ipcs = slice p.hdr p.ck0.off.toNat 2
  tcpcs : p.ck1.valid = true → t.tcpcs = ofHost16 (slice p.hdr p.ck1.off.toNat 2)
  ck0 : t.ck0 = p.ck0
  ck1 : t.ck1 = p.ck1

theorem tso_of_reads (covers : Covers ctx.isTcp p.ck0 p.ck1 p.hdr.length) :
    ∃ t, tsoOf ctx p = .ok t ∧ Reads ctx p t := by
  have udp := covers.udpStart
  have ip := covers.ip
  unfold tsoOf
  rw [bind_ok (read_goes (by omega)), bind_ok (read_if_goes fun _ => by omega),
    bind_ok (read_goes covers.ipOff), bind_ok (read_if_goes covers.off)]
  refine ⟨_, rfl, rfl, rfl, rfl, rfl, rfl, fun tcp => ?_, rfl, fun valid => ?_, rfl, rfl⟩
  · simp only [tcp, if_true]
    rfl
  · simp only [valid, if_true]
    rfl

structure Kept (ctx : TxDesc) (p : Ready) (hdr : List Byte) : Prop where
  only : OnlyAt (fields ctx p) p.hdr hdr
  flags : slice hdr (p.ck1.start.toNat + 13) 1 = slice p.hdr (p.ck1.start.toNat + 13) 1

theorem only_at_again {fs : List Field} {first second third : List Byte}
    (one : OnlyAt fs first second) (two : OnlyAt fs second third) : OnlyAt fs first third :=
  ⟨two.length.trans one.length, fun i outside =>
    (two.others i outside).trans (one.others i outside)⟩

theorem checksummed_kept {ck : CkInfo} {fs : List Field} {seed pay : List Byte}
    (only : OnlyAt fs hdr hdr') (inside : ck.off.toNat + seed.length ≤ hdr.length)
    (one : fs.length ≤ 1) (place : ∀ f ∈ fs, Apart (ck.off.toNat, 2) f)
    (range : ∀ f ∈ fs, Apart (ck.start.toNat, ckLen ck) f) (right : Checksummed ck seed hdr pay) :
    Checksummed ck seed hdr' pay := by
  unfold Checksummed at right ⊢
  have changed := only_at_replaced only inside
  have range_same : slice (replaced hdr' ck.off.toNat seed ++ pay) ck.start.toNat (ckLen ck) =
      slice (replaced hdr ck.off.toNat seed ++ pay) ck.start.toNat (ckLen ck) := by
    cases fs with
    | nil =>
      have same : replaced hdr' ck.off.toNat seed = replaced hdr ck.off.toNat seed :=
        ext_getElem? fun i => changed.others i nofun
      rw [same]
    | cons f rest =>
      have none_left : rest = [] := List.length_eq_zero_iff.mp (by
        rw [length_cons] at one
        omega)
      subst none_left
      exact only_at_range changed (range f mem_cons_self)
  rw [only_at_slice only place, right, range_same]

theorem checksummed_seed {ck : CkInfo} {seed pay : List Byte} (two : seed.length = 2)
    (inside : ck.off.toNat + 2 ≤ hdr.length)
    (unsummed : seed = [0, 0] ∨ Apart (ck.start.toNat, ckLen ck) (ck.off.toNat, 2))
    (right : Checksummed ck seed hdr pay) : Checksummed ck [0, 0] hdr pay := by
  obtain rfl | apart := unsummed
  · exact right
  have again : replaced (replaced hdr ck.off.toNat seed) ck.off.toNat [0, 0] =
      replaced hdr ck.off.toNat [0, 0] := replaced_twice two (by omega)
  have length := @replaced_length hdr ck.off.toNat seed (by omega)
  have only := @replaced_only_at (replaced hdr ck.off.toNat seed) [0, 0] ck.off.toNat 2 rfl
    (by rw [length]; exact inside)
  rw [again] at only
  unfold Checksummed at right ⊢
  rw [only_at_range only apart]
  exact right

theorem segment_seed_eq {reads : Reads ctx p t} {now : Nat} (valid : p.ck1.valid = true) :
    host16 (pseudoSum t p.hdr.length now) = segmentSeed p now := by
  unfold pseudoSum segmentSeed
  congr 1
  apply eq_of_toNat_eq
  have second := (ofHost16 (net16 (BitVec.ofNat 16
    (p.hdr.length - p.ck1.start.toNat + now)))).isLt
  rw [carry_eq, toNat_ofNat, Nat.mod_eq_of_lt (fold_lt _), toNat_add,
    toNat_setWidth, toNat_setWidth, reads.ck1, reads.tcpcs valid]
  congr 1
  omega

theorem segment_spec {pieces : List Iov} {k left : Nat} (reads : Reads ctx p t)
    (tcp : ctx.isTcp = true) (covers : Covers true p.ck0 p.ck1 p.hdr.length)
    (small : p.hdr.length ≤ 65536) (apart : (fields ctx p).Pairwise Apart)
    (seed : p.ck0.valid = true → slice p.hdr p.ck0.off.toNat 2 = [0, 0] ∨
      Apart (p.ck0.start.toNat, ckLen p.ck0) (p.ck0.off.toNat, 2))
    (sums : p.ck0.valid = true → p.ck1.valid = true →
      Apart (p.ck0.start.toNat, ckLen p.ck0) (p.ck1.off.toNat, 2))
    (whole : ∀ iov ∈ pieces, iov.Whole) (short : ∀ iov ∈ pieces, iov.len ≤ 65536)
    (few : pieces.length ≤ maxTxsegs) (kept : Kept ctx p hdr) (now_eq : now = min left ctx.mss)
    (sent : ctx.paylen = left + k * ctx.mss)
    (flags : clearFinPush (slice p.hdr (p.ck1.start.toNat + 13) 1) = slice p.hdr (p.ck1.start.toNat + 13) 1 ∨ left ≤ ctx.mss)
    (ran : segmentHeader t k left now pieces hdr = .ok hdr') : Kept ctx p hdr' ∧
      SegmentOf ctx p k now (decide (left ≤ ctx.mss)) hdr' (bytesOf pieces) := by
  have size := kept.only.length
  have ip_inside := covers.ip
  have tcp_inside := covers.tcpStart rfl
  obtain ⟨h2, ran_ip, ran⟩ := bind_ok_split ran
  obtain ⟨h4, ran_tcp, ran⟩ := bind_ok_split ran
  obtain ⟨h6, ran_sum, ran⟩ := bind_ok_split ran
  obtain ⟨only_ip, ip4, ip6⟩ := update_ip_spec (by rw [reads.ck0]; omega) ran_ip
  have size2 := only_ip.length
  obtain ⟨only_tcp, seq, flag⟩ := update_tcp_spec (reads.tcp.trans tcp) (by rw [reads.ck1]; omega) ran_tcp
  have size4 := only_tcp.length
  have two : t.ipcs.length = 2 := by
    have inside := covers.ipOff
    rw [reads.ipcs, slice, length_take, length_drop]
    omega
  obtain ⟨only_ck0, right0⟩ := seed_checksum_spec two
    (fun _ => by have := covers.ipOff; rw [reads.ck0]; omega) whole short few (by omega) ran_sum
  have size6 := only_ck0.length
  obtain ⟨only_ck1, right1⟩ := seed_checksum_spec (host16_length _)
    (fun valid => by have := covers.off (reads.ck1 ▸ valid); rw [reads.ck1]; omega) whole short few
    (by omega) ran
  rw [reads.ck0, reads.ip] at only_ip
  rw [reads.ck1] at only_tcp seq flag
  rw [reads.ck0] at only_ck0
  rw [reads.ck1] at only_ck1
  have transport : transportFields ctx p =
      [(p.ck1.start.toNat + 4, 4), (p.ck1.start.toNat + 13, 1)] := by
    unfold transportFields
    rw [if_pos tcp]
  rw [← transport] at only_tcp
  have all : OnlyAt (fields ctx p) hdr hdr' :=
    only_at_trans (only_at_trans (only_at_trans only_ip only_tcp) only_ck0) only_ck1
  have outer := List.pairwise_append.mp apart
  have middle := List.pairwise_append.mp outer.1
  have inner := List.pairwise_append.mp middle.1
  have from_ck0 : ∀ f, f ∈ ipFields ctx p ++ transportFields ctx p →
      slice hdr' f.1 f.2 = slice h4 f.1 f.2 := by
    intro f member
    rw [only_at_slice only_ck1 fun f' later =>
      outer.2.2 f (mem_append_left _ member) f' later]
    exact only_at_slice only_ck0 fun f' later => middle.2.2 f member f' later
  have from_ip : ∀ f, f ∈ ipFields ctx p → slice hdr' f.1 f.2 = slice h2 f.1 f.2 := by
    intro f member
    rw [from_ck0 f (mem_append_left _ member)]
    exact only_at_slice only_tcp fun f' later => inner.2.2 f member f' later
  have seq_now : slice hdr' (p.ck1.start.toNat + 4) 4 = slice h4 (p.ck1.start.toNat + 4) 4 :=
    from_ck0 (p.ck1.start.toNat + 4, 4) (mem_append_right _ (by simp [transport]))
  have flag_now : slice hdr' (p.ck1.start.toNat + 13) 1 = slice h4 (p.ck1.start.toNat + 13) 1 :=
    from_ck0 (p.ck1.start.toNat + 13, 1) (mem_append_right _ (by simp [transport]))
  have flag_before : slice h2 (p.ck1.start.toNat + 13) 1 = slice p.hdr (p.ck1.start.toNat + 13) 1 := by
    rw [← kept.flags]
    refine only_at_slice only_ip fun f member => ?_
    exact apart_symm (inner.2.2 f member _ (by simp [transport]))
  rw [flag_before] at flag
  have last_eq : (now < left) ↔ ¬ left ≤ ctx.mss := by omega
  have flag_value : slice hdr' (p.ck1.start.toNat + 13) 1 =
      if decide (left ≤ ctx.mss) then slice p.hdr (p.ck1.start.toNat + 13) 1
      else clearFinPush (slice p.hdr (p.ck1.start.toNat + 13) 1) := by
    rw [flag_now, flag]
    by_cases final : left ≤ ctx.mss
    · rw [if_neg (fun more => last_eq.mp more final), if_pos (decide_eq_true final)]
    · rw [if_pos (last_eq.mpr final), if_neg (by simpa using final)]
  refine ⟨⟨only_at_again kept.only all, ?_⟩, ?_⟩
  · rw [flag_value]
    split
    · rfl
    · next final => exact flags.resolve_right (by simpa using final)
  · refine ⟨all.length.trans size, (only_at_again kept.only all).others, fun is_ip => ?_,
      fun not_ip => ?_, fun _ => ?_, fun _ => flag_value, fun never => ?_, fun valid => ?_,
      fun valid => ?_⟩
    · have members : ipFields ctx p =
          [(p.ck0.start.toNat + 2, 2), (p.ck0.start.toNat + 4, 2)] := by
        unfold ipFields
        rw [if_pos is_ip]
      obtain ⟨len, ident⟩ := ip4 (reads.ip.trans is_ip)
      rw [reads.ck0] at len ident
      rw [reads.ipid] at ident
      rw [size] at len
      exact ⟨(from_ip (p.ck0.start.toNat + 2, 2) (by simp [members])).trans len,
        (from_ip (p.ck0.start.toNat + 4, 2) (by simp [members])).trans ident⟩
    · have members : ipFields ctx p = [(p.ck0.start.toNat + 4, 2)] := by
        unfold ipFields
        rw [if_neg (by simpa using not_ip)]
      have len := ip6 (reads.ip.trans not_ip)
      rw [reads.ck0, size] at len
      exact (from_ip (p.ck0.start.toNat + 4, 2) (by simp [members])).trans len
    · rw [seq_now, seq, reads.tcpseq tcp, reads.paylen, sent]
      congr 2
      omega
    · exact absurd tcp (by simp [never])
    · have there := right0 (reads.ck0 ▸ valid)
      rw [reads.ck0, reads.ipcs] at there
      have inside := covers.ipOff
      have zero := checksummed_seed (reads.ipcs ▸ two) (by omega) (seed valid) there
      refine checksummed_kept only_ck1 (by rw [length_cons, length_singleton]; omega) ?_ ?_ ?_ zero
      · unfold ckField
        split <;> simp
      · intro f later
        exact outer.2.2 _ (mem_append_right _ (by simp [ckField, valid])) f later
      · intro f later
        unfold ckField at later
        split at later
        · next valid1 =>
          rw [List.mem_singleton.mp later]
          exact sums valid valid1
        · cases later
    · have there := right1 (reads.ck1 ▸ valid)
      have length6 : h6.length = p.hdr.length := by omega
      rw [reads.ck1, length6, @segment_seed_eq ctx p t reads now valid] at there
      exact there

end

section
variable {ctx : TxDesc} {p : Ready} {t : Tso}

theorem take_min (bytes : List Byte) (n : Nat) : bytes.take (min bytes.length n) = bytes.take n ∧
    bytes.drop (min bytes.length n) = bytes.drop n := by
  by_cases few : bytes.length ≤ n
  · rw [Nat.min_eq_left few]
    exact ⟨(take_of_length_le (Nat.le_refl _)).trans (take_of_length_le few).symm,
      (drop_of_length_le (Nat.le_refl _)).trans (drop_of_length_le few).symm⟩
  · rw [Nat.min_eq_right (by omega)]
    exact ⟨rfl, rfl⟩

theorem send_segments_spec (reads : Reads ctx p t) (tcp : ctx.isTcp = true) (mss : 0 < ctx.mss)
    (covers : Covers true p.ck0 p.ck1 p.hdr.length) (small : p.hdr.length ≤ 65536)
    (apart : (fields ctx p).Pairwise Apart)
    (seed : p.ck0.valid = true → slice p.hdr p.ck0.off.toNat 2 = [0, 0] ∨
      Apart (p.ck0.start.toNat, ckLen p.ck0) (p.ck0.off.toNat, 2))
    (sums : p.ck0.valid = true → p.ck1.valid = true →
      Apart (p.ck0.start.toNat, ckLen p.ck0) (p.ck1.off.toNat, 2))
    (flags : clearFinPush (slice p.hdr (p.ck1.start.toNat + 13) 1) =
      slice p.hdr (p.ck1.start.toNat + 13) 1 ∨ ctx.paylen ≤ ctx.mss)
    (fuel : Nat) : ∀ (k : Nat) (hdr : List Byte) (pay : List Iov), Kept ctx p hdr →
    totalLen pay ≤ fuel → (totalLen pay = 0 ∨ ctx.paylen = totalLen pay + k * ctx.mss) →
    (∀ iov ∈ pay, iov.Whole) → pay.length ≤ maxTxsegs →
    ∃ frames, sendSegments t fuel k (totalLen pay) hdr pay = .ok frames ∧
      Segmented ctx p k (bytesOf pay) frames := by
  induction fuel with
  | zero =>
    intro k hdr pay _ few _ whole _
    have zero : totalLen pay = 0 := by omega
    unfold sendSegments
    rw [if_pos zero]
    refine ⟨[], rfl, List.length_eq_zero_iff.mp ?_⟩
    rw [bytes_length whole, zero]
  | succ fuel ih =>
    intro k hdr pay kept few sent whole short
    have length := bytes_length whole
    unfold sendSegments
    by_cases zero : totalLen pay = 0
    · rw [if_pos zero]
      refine ⟨[], rfl, List.length_eq_zero_iff.mp ?_⟩
      rw [length, zero]
    rw [if_neg zero]
    dsimp only
    have sent := sent.resolve_left zero
    have taken := take_payload_takes pay (min (totalLen pay) ctx.mss) whole
    have counts := taken.count
    have bytes := taken.bytes
    rw [← length, (take_min (bytesOf pay) ctx.mss).1, (take_min (bytesOf pay) ctx.mss).2,
      length] at bytes
    rw [reads.mss, if_neg (by omega)]
    have small_mss : ctx.mss < 65536 := BitVec.isLt _
    have pieces_short : ∀ iov ∈ (takePayload (min (totalLen pay) ctx.mss) pay).1,
        iov.len ≤ 65536 := by
      intro iov member
      have few := taken.short iov member
      omega
    have covers_now : Covers t.tcp t.ck0 t.ck1 hdr.length := by
      rw [reads.tcp, reads.ck0, reads.ck1, kept.only.length, tcp]
      exact covers
    have two : t.ipcs.length = 2 := by
      have inside := covers.ipOff
      rw [reads.ipcs, slice, length_take, length_drop]
      omega
    obtain ⟨hdr', ran, -⟩ := @segment_header_goes t hdr _ k (totalLen pay)
      (min (totalLen pay) ctx.mss) covers_now two taken.whole.1
    obtain ⟨kept', segment⟩ := segment_spec reads tcp covers small apart seed sums taken.whole.1
      pieces_short (Nat.le_trans counts.1 short) kept rfl sent
      (flags.imp_right fun one => by omega) ran
    have left : totalLen (takePayload (min (totalLen pay) ctx.mss) pay).2 =
        totalLen pay - min (totalLen pay) ctx.mss := by
      rw [← bytes_length taken.whole.2, bytes.2, length_drop, length]
      omega
    obtain ⟨frames, later, segmented⟩ := ih (k + 1) hdr' _ kept' (by omega)
      (by rw [left, Nat.succ_mul]; omega) taken.whole.2 (Nat.le_trans counts.2 short)
    rw [left] at later
    rw [bind_ok ran, bind_ok later]
    refine ⟨_, rfl, ?_, ⟨hdr', ?_, ?_⟩, ?_⟩
    · intro empty
      rw [empty] at length
      exact zero length.symm
    · rw [bytes_of_cons, bytes.1]
      rfl
    · rw [bytes.1] at segment
      rw [length_take, length, Nat.min_comm]
      exact segment
    · rw [bytes.2] at segmented
      exact segmented

section
variable {tx : Tx} {last : TxDesc} {g : Gather} (offload : Offload tx last g)
include offload

theorem original_covers
    (fits : tsoHdrlenFits (vlanInserts tx.ctrl last) (offloadRequest tx last g) tx.txctx = true)
    (udp : tx.txctx.isTcp = false → (offloadRequest tx last g).ck1.valid = true →
      (offloadRequest tx last g).ck1.off.toNat + 2 ≤ tx.txctx.hdrLen) :
    Covers tx.txctx.isTcp (original tx last g).ck0 (original tx last g).ck1
        (original tx last g).hdr.length ∧ (original tx last g).hdr.length ≤ 65536 := by
  have inside := offload.inside
  have size : ((bytesOf g.iovs).take tx.txctx.hdrLen).length = tx.txctx.hdrLen := by
    rw [length_take, bytes_length offload.whole]
    omega
  obtain ⟨covers, tagged⟩ := tso_covers fits udp
  obtain ⟨-, more, -⟩ := @ready_covers (vlanInserts tx.ctrl last) (tx.vet.setWidth 16) last.special
    (offloadRequest tx last g) ((bytesOf g.iovs).take tx.txctx.hdrLen) [] (by
      rw [size]
      exact tagged)
  refine ⟨more _ (size.symm ▸ covers), ?_⟩
  have byte : tx.txctx.hdrLen < 256 := BitVec.isLt _
  unfold original ready
  split
  · next inserts =>
    have long : 12 ≤ ((bytesOf g.iovs).take tx.txctx.hdrLen).length := by
      rw [size]
      exact tagged inserts
    rw [insert_vlan_length _ _ long, size]
    omega
  · rw [size]
    omega

theorem packet_segments
    (fits : tsoHdrlenFits (vlanInserts tx.ctrl last) (offloadRequest tx last g) tx.txctx = true)
    (covers : Covers tx.txctx.isTcp (original tx last g).ck0 (original tx last g).ck1
      (original tx last g).hdr.length) :
    ∃ t rest, Reads tx.txctx (original tx last g) t ∧
      (bytesOf g.iovs).drop tx.txctx.hdrLen = bytesOf rest ∧ (∀ iov ∈ rest, iov.Whole) ∧
      rest.length ≤ maxTxsegs ∧ totalLen rest = tx.txctx.paylen ∧
      sendPacket tx last g =
        sendSegments t tx.txctx.paylen 0 tx.txctx.paylen (original tx last g).hdr rest := by
  have inside := offload.inside
  have few := offload.few
  obtain ⟨hdr, rest, copied, good⟩ := copy_hdr_goes g.iovs tx.txctx.hdrLen offload.whole inside
  have header : (bytesOf g.iovs).take tx.txctx.hdrLen = hdr := by
    rw [good.bytes, ← good.length, take_left]
  have payload : (bytesOf g.iovs).drop tx.txctx.hdrLen = bytesOf rest := by
    rw [good.bytes, ← good.length, drop_left]
  have left : totalLen rest = tx.txctx.paylen := by
    rw [← bytes_length good.whole, ← payload, length_drop, bytes_length offload.whole,
      offload.paylen]
  have packet : ready (vlanInserts tx.ctrl last) (tx.vet.setWidth 16) last.special
      (offloadRequest tx last g) hdr rest = { original tx last g with rest := rest } := by
    unfold original
    rw [header]
    unfold ready
    split <;> rfl
  obtain ⟨t, read, reads⟩ := tso_of_reads covers
  refine ⟨t, rest, reads, payload, good.whole, Nat.le_trans good.count few, left, ?_⟩
  have same_tso : (request tx.txctx last g.css).tso = true := offload.tso
  have length : hdrlenOf (vlanInserts tx.ctrl last) (request tx.txctx last g.css) tx.txctx
      ((g.iovs.map Iov.len).headD 0) = some tx.txctx.hdrLen := by
    have fits : tsoHdrlenFits (vlanInserts tx.ctrl last) (request tx.txctx last g.css) tx.txctx =
        true := fits
    unfold hdrlenOf
    rw [if_pos same_tso, if_pos fits]
  unfold sendPacket
  rw [if_neg (by rw [offload.count]; omega)]
  dsimp only
  rw [length]
  dsimp only
  rw [copied]
  dsimp only
  rw [if_pos same_tso, show request tx.txctx last g.css = offloadRequest tx last g from rfl, packet]
  unfold sendTso
  rw [show tsoOf tx.txctx { original tx last g with rest := rest } =
    tsoOf tx.txctx (original tx last g) from rfl, bind_ok read, reads.paylen]

theorem nothing_exact (nothing : NothingToSegment tx last g) : SegmentedExactly tx last g := by
  have none_left : (bytesOf g.iovs).drop tx.txctx.hdrLen = [] := by
    have paylen := offload.paylen
    rw [drop_eq_nil_iff, bytes_length offload.whole]
    have empty := nothing.empty
    omega
  refine ⟨[], ?_, none_left⟩
  by_cases fits : tsoHdrlenFits (vlanInserts tx.ctrl last) (offloadRequest tx last g) tx.txctx = true
  · obtain ⟨covers, -⟩ := original_covers offload fits (nothing.udp fits)
    obtain ⟨t, rest, -, -, -, -, -, sent⟩ := packet_segments offload fits covers
    rw [sent, nothing.empty, sendSegments, if_pos rfl]
  · have dropped : hdrlenOf (vlanInserts tx.ctrl last) (request tx.txctx last g.css) tx.txctx
        ((g.iovs.map Iov.len).headD 0) = none := by
      unfold hdrlenOf
      rw [if_pos (show (request tx.txctx last g.css).tso = true from offload.tso)]
      exact if_neg fits
    unfold sendPacket
    dsimp only
    rw [dropped]
    exact ite_self _

theorem segmentation_exact
    (suits : Segmentable tx last g ∨ NothingToSegment tx last g) : SegmentedExactly tx last g := by
  obtain suits | nothing := suits
  · obtain ⟨covers, small⟩ := original_covers offload suits.fits fun not_tcp =>
      absurd suits.tcp (by simp [not_tcp])
    obtain ⟨t, rest, reads, payload, whole, few, left, sent⟩ :=
      packet_segments offload suits.fits covers
    rw [suits.tcp] at covers
    obtain ⟨frames, ran, segmented⟩ := send_segments_spec reads suits.tcp offload.mss covers small
      suits.apart suits.seed suits.sums suits.flags tx.txctx.paylen 0 (original tx last g).hdr rest
      ⟨⟨rfl, fun _ _ => rfl⟩, rfl⟩ (Nat.le_of_eq left) (.inr (by omega)) whole few
    rw [left] at ran
    exact ⟨frames, sent.trans ran, payload ▸ segmented⟩
  · exact nothing_exact offload nothing

end

theorem segmented_last (tcp : ctx.isTcp = true) (inside : p.ck1.start.toNat + 14 ≤ p.hdr.length)
    (frames : List Frame) : ∀ k pay frame, Segmented ctx p k pay frames →
    frames.getLast? = some frame →
    slice (bytesOf frame) (p.ck1.start.toNat + 13) 1 = slice p.hdr (p.ck1.start.toNat + 13) 1 := by
  induction frames with
  | nil => exact nofun
  | cons first frames ih =>
    intro k pay frame segmented ends
    obtain ⟨-, ⟨hdr, bytes, segment⟩, later⟩ := segmented
    cases frames with
    | nil =>
      have same : first = frame := Option.some.inj ends
      subst same
      have beyond : pay.length ≤ ctx.mss := by
        have empty : pay.drop ctx.mss = [] := later
        rw [drop_eq_nil_iff] at empty
        exact empty
      have flags := segment.flags tcp
      rw [if_pos (decide_eq_true beyond)] at flags
      have long := segment.length
      rw [bytes, ← flags]
      refine slice_ext fun i after before => ?_
      rw [getElem?_append_left (by omega)]
    | cons second frames =>
      exact ih (k + 1) _ frame later ends

instance (f f' : Field) : Decidable (Apart f f') := inferInstanceAs (Decidable (_ ∨ _))

def tcpContext : TxDesc :=
  ⟨0x000032220021180e, 0x03000002, 0x00013600⟩

def tsoDesc : TxDesc := ⟨0x1000, 0x2f100038, 0x00000300⟩

def tcpTx : Tx := { txInit.tx with txctx := tcpContext }

def tcpPacket (flags : Byte) : Gather :=
  ⟨[⟨some (List.replicate 47 0 ++ flags :: List.replicate 8 0), 56⟩], 1, txdTypD, 0⟩

theorem tcp_packet_offload (flags : Byte) : Offload tcpTx tsoDesc (tcpPacket flags) where
  tso := (by decide : (request tcpContext tsoDesc 0).tso = true)
  count := rfl
  few := (by decide : 1 ≤ maxTxsegs)
  whole := by
    intro iov member
    rw [List.mem_singleton.mp member]
    exact ⟨_, rfl, rfl⟩
  inside := (by decide : tcpContext.hdrLen ≤ 56)
  mss := (by decide : 0 < tcpContext.mss)
  paylen := (by decide : tcpContext.paylen = 56 - tcpContext.hdrLen)

theorem ack_packet_exact : SegmentedExactly tcpTx tsoDesc (tcpPacket 0x10) :=
  segmentation_exact (tcp_packet_offload 0x10)
    (.inl ⟨by decide, by decide, .inl (by decide), by decide, fun _ => .inl (by decide), by decide⟩)

theorem push_flag_lost : ¬ (∀ (tx : Tx) (last : TxDesc) (g : Gather), Offload tx last g →
    SegmentedExactly tx last g) := by
  intro exact_always
  obtain ⟨frames, ran, segmented⟩ := exact_always tcpTx tsoDesc (tcpPacket 0x18)
    (tcp_packet_offload 0x18)
  obtain ⟨sent, same, flags⟩ := @value_of_result _ _ _ (sendPacket tcpTx tsoDesc (tcpPacket 0x18))
    (fun frames => frames.getLast?.map fun frame => slice (bytesOf frame) 47 1) (some [0x10])
    (by decide)
  cases same.symm.trans ran
  cases ends : frames.getLast? with
  | none =>
    rw [ends] at flags
    cases flags
  | some frame =>
    rw [ends] at flags
    have kept := segmented_last (by decide) (by decide) frames 0 _ frame segmented ends
    have there : slice (bytesOf frame) 47 1 = [0x10] := Option.some.inj flags
    exact absurd (there.symm.trans kept) (by decide)

end
end E82545
