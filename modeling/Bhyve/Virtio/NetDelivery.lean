import Bhyve.Virtio.NetReceive

namespace Vtnet
open Virtio BlockProc StepRuns BitVec
open List hiding span

def totalOf (chains : List Chain) : Nat := countIov (riov chains)

/-- The ring holds these chains, and vq_getchain comes to the end of each of them. -/
def Posted (s : Softc) : BitVec 16 → List Chain → Prop
  | lastAvail, [] => s.vq.avail.idx = lastAvail
  | lastAvail, c :: cs => c.iov ≠ [] ∧
      (∀ vq nIov, vq.qsize = s.vq.qsize → vq.avail = s.vq.avail → vq.lastAvail = lastAvail →
        c.iov.length ≤ nIov →
        (vqGetchain s.descs s.hvCaps nIov vq).vq = { vq with lastAvail := lastAvail + 1 } ∧
          (vqGetchain s.descs s.hvCaps nIov vq).ret = c.iov.length ∧
          (vqGetchain s.descs s.hvCaps nIov vq).pidx = some c.idx ∧
          (vqGetchain s.descs s.hvCaps nIov vq).iov.map iovOf = c.iov) ∧
      Posted s (lastAvail + 1) cs

/-- The chains that a packet needs have no more vectors than there are segments, and less than 4 GB
    together. -/
def Room (merge : Bool) (plen : Nat) : Nat → Nat → List Chain → Prop
  | _, _, [] => True
  | bytes, segs, c :: cs => segs + c.iov.length ≤ vtnetMaxsegs ∧
      (merge = true → bytes + countIov c.iov < 2 ^ 32 ∧
        (bytes + countIov c.iov < plen → segs + c.iov.length < vtnetMaxsegs →
          Room merge plen (bytes + countIov c.iov) (segs + c.iov.length) cs))

/-- The header lies in the first vector of the chain, with room behind it, and so does vrh_bufs; or
    the chain is too small for the header. -/
def Headed (s : Softc) (c : Chain) : Prop := ∃ v rest, c.iov = v :: rest ∧
  (countIov c.iov < s.prepend ∨ (s.prepend ≤ v.len ∧
    (0 < s.prepend → v.len = s.prepend → s.rxMerge = false → rest ≠ []) ∧
    (s.rxMerge = true → 12 ≤ v.len)))

def InOrder (s : Softc) (_ : Unit) : Prop := s.stopped = false →
  ∀ p rest, s.packets = p :: rest → p ≠ [] →
    p.length + s.prepend < 2 ^ 32 ∧ ∃ cs, Posted s s.vq.lastAvail cs ∧
      Room s.rxMerge (p.length + s.prepend) 0 0 cs ∧ ∀ c, cs.head? = some c → Headed s c

/-- The packet fills the first chains that have room for it, behind its header. -/
structure Delivered (s : Softc) (p : List (BitVec 8)) (taken : List Chain) (s' : Softc) :
    Prop where
  some_taken : taken ≠ []
  enough : p.length + s.prepend ≤ totalOf taken
  least : if s.rxMerge then totalOf taken.dropLast < p.length + s.prepend else taken.length = 1
  heads : (s'.used.drop s.used.length).map VirtioUsed.idx = taken.map fun c => c.idx.setWidth 32
  kept : s.used <+: s'.used
  lengths : ((s'.used.drop s.used.length).map fun u => u.tlen.toNat).sum = p.length + s.prepend
  filled : ∃ bufs, s'.writes = s.writes ++
      (placesOf (riov taken)).zip (List.replicate s.prepend 0 ++ p) ++ bufs ∧
    if s.rxMerge then ∃ low high, (placesOf (riov taken))[10]? = some low ∧
        (placesOf (riov taken))[11]? = some high ∧
        bufs = [(low, (BitVec.ofNat 16 taken.length).extractLsb' 0 8),
          (high, (BitVec.ofNat 16 taken.length).extractLsb' 8 8)]
      else bufs = []
  lastAvail : s'.vq.lastAvail = s.vq.lastAvail + BitVec.ofNat 16 taken.length
  avail : s'.vq.avail = s.vq.avail
  packets : s.packets = p :: s'.packets

/-- A turn ends the loop with all chains in the ring, since there is no packet or since all of them
    together have too little room for it; it delivers a packet; it loses one that the chains which
    it takes have too little room for; or it returns a chain that is too small for the header. -/
inductive Outcome (s s' : Softc) : Prop where
  | drained : (∀ p rest, s.packets = p :: rest → p = []) → s' = { s with stopped := true } →
      Outcome s s'
  | dry (p : List (BitVec 8)) (rest : List (List (BitVec 8))) (cs : List Chain) :
      s.packets = p :: rest → Posted s s.vq.lastAvail cs → totalOf cs < p.length + s.prepend →
      (s.rxMerge = false → cs = []) → s' = { s with stopped := true } → Outcome s s'
  | dropped (c : Chain) (cs : List Chain) : Posted s s.vq.lastAvail (c :: cs) →
      countIov c.iov < s.prepend →
      s'.used = s.used ++ [usedEntry c.idx 0] → s'.writes = s.writes → s'.packets = s.packets →
      s'.vq.lastAvail = s.vq.lastAvail + 1 → s'.vq.avail = s.vq.avail → Outcome s s'
  | short (p : List (BitVec 8)) (taken rest : List Chain) :
      Posted s s.vq.lastAvail (taken ++ rest) → totalOf taken < p.length + s.prepend →
      (if s.rxMerge then vtnetMaxsegs ≤ (riov taken).length else taken.length = 1) →
      s.packets = p :: s'.packets → s'.used = s.used → s'.vq = s.vq →
      (∃ more, s'.writes = s.writes ++ more ∧ ∀ w ∈ more, w.1 ∈ placesOf (riov taken)) →
      Outcome s s'
  | delivered (p : List (BitVec 8)) (taken rest : List Chain) :
      Posted s s.vq.lastAvail (taken ++ rest) → Delivered s p taken s' → Outcome s s'

def TurnEnds (s : Softc) (u : Unit) : Prop := ∃ s', pciVtnetRx s u = .ok s' ∧
  (s.stopped = false → Outcome s s')

theorem places_length (iov : List Iovec) : (placesOf iov).length = countIov iov := by
  rw [placesOf, length_flatMap, countIov]
  congr 1
  apply map_congr_left
  intro v _
  exact span_length _ _

theorem count_append (first second : List Iovec) :
    countIov (first ++ second) = countIov first + countIov second := by
  unfold countIov
  rw [map_append, List.sum_append]

theorem riov_append (first second : List Chain) : riov (first ++ second) = riov first ++ riov second :=
  flatMap_append

theorem riov_single (c : Chain) : riov [c] = c.iov := append_nil _

theorem total_append (first second : List Chain) :
    totalOf (first ++ second) = totalOf first + totalOf second := by
  unfold totalOf
  rw [riov_append, count_append]

theorem total_single (c : Chain) : totalOf [c] = countIov c.iov := by
  unfold totalOf
  rw [riov_single]

theorem trim_places {v : Iovec} {rest bufs : List Iovec} {hlen : Nat}
    (trimmed : iovTrimHdr hlen (v :: rest) = some bufs) :
    hlen ≤ v.len ∧ placesOf (v :: rest) = span v.base hlen ++ placesOf bufs := by
  unfold iovTrimHdr at trimmed
  dsimp only at trimmed
  split at trimmed
  · cases trimmed
  · rename_i enough
    refine ⟨Nat.le_of_not_lt enough, ?_⟩
    split at trimmed
    · rename_i exactly
      split at trimmed
      · cases trimmed
      · cases trimmed
        have same : v.len = hlen := by omega
        show span v.base v.len ++ placesOf rest = _
        rw [same]
    · cases trimmed
      show span v.base v.len ++ placesOf rest =
        span v.base hlen ++ (span (v.base + hlen) (v.len - hlen) ++ placesOf rest)
      rw [← List.append_assoc]
      congr 1
      rw [← span_take (Nat.le_of_not_lt enough), ← span_drop,
        take_append_drop]

theorem trim_some {v : Iovec} {rest : List Iovec} {hlen : Nat} (enough : hlen ≤ v.len)
    (behind : v.len = hlen → rest ≠ []) : ∃ bufs, iovTrimHdr hlen (v :: rest) = some bufs := by
  unfold iovTrimHdr
  dsimp only
  rw [if_neg (Nat.not_lt.mpr enough)]
  by_cases exactly : v.len - hlen = 0
  · rw [if_pos exactly]
    have some_left : rest.isEmpty = false := by
      rw [isEmpty_eq_false_iff]
      exact behind (by omega)
    rw [some_left]
    exact ⟨rest, rfl⟩
  · rw [if_neg exactly]
    exact ⟨_, rfl⟩

theorem riov_bytes_snoc (chains : List Chain) (c : Chain) :
    riovBytes (chains ++ [c]) = riovBytes chains + infoLen c := by
  unfold riovBytes
  rw [foldl_append]
  rfl

theorem info_len {c : Chain} (small : countIov c.iov < 2 ^ 32) :
    (infoLen c).toNat = countIov c.iov := Nat.mod_eq_of_lt small

section
variable {s : Softc} {plen : Nat}

inductive Collects (s : Softc) (plen : Nat) (vq : VqueueInfo) (chains cs : List Chain) :
    Except Stop Gathered → Prop where
  | dry : totalOf (chains ++ cs) < plen → (s.rxMerge = false → cs = []) → Collects s plen vq chains cs
      (.ok (.dry { vq with lastAvail := vq.lastAvail + BitVec.ofNat 16 cs.length } (chains ++ cs)))
  | full (taken rest : List Chain) : cs = taken ++ rest → taken ≠ [] →
      (s.rxMerge = false → taken.length = 1) →
      (s.rxMerge = true → totalOf (chains ++ taken) < 2 ^ 32 ∧
        (plen ≤ totalOf (chains ++ taken) ∨ vtnetMaxsegs ≤ (riov (chains ++ taken)).length) ∧
        totalOf (chains ++ taken.dropLast) < plen) →
      Collects s plen vq chains cs (.ok (.full
        { vq with lastAvail := vq.lastAvail + BitVec.ofNat 16 taken.length } (chains ++ taken)))

theorem getchain_empty {descs : Descriptors} {hvCaps : BitVec 64} {nIov : Nat} {vq : VqueueInfo}
    (empty : vq.avail.idx = vq.lastAvail) : vqGetchain descs hvCaps nIov vq = ⟨vq, 0, none, []⟩ := by
  unfold vqGetchain
  dsimp only
  rw [empty, BitVec.sub_self]
  rfl

theorem next_avail (l : BitVec 16) (n : Nat) :
    l + 1 + BitVec.ofNat 16 n = l + BitVec.ofNat 16 (n + 1) := by
  rw [ofNat_add, BitVec.add_comm (BitVec.ofNat 16 n), BitVec.add_assoc]
  rfl

theorem gather_collects (cs : List Chain) (fuel : Nat) (vq : VqueueInfo) (chains : List Chain)
    (qsize : vq.qsize = s.vq.qsize) (avail : vq.avail = s.vq.avail)
    (posted : Posted s vq.lastAvail cs)
    (room : Room s.rxMerge plen (totalOf chains) (riov chains).length cs)
    (bound : vtnetMaxsegs + 1 ≤ fuel + (riov chains).length)
    (some_room : (riov chains).length < vtnetMaxsegs)
    (counted : (riovBytes chains).toNat = totalOf chains) (few : totalOf chains < plen) :
    Collects s plen vq chains cs (gather s plen fuel vq chains) := by
  induction cs generalizing fuel vq chains with
  | nil =>
    obtain ⟨fuel, rfl⟩ : ∃ n, fuel = n + 1 := ⟨fuel - 1, by omega⟩
    unfold gather
    have empty : vq.avail.idx = vq.lastAvail := by
      rw [avail]
      exact posted
    rw [getchain_empty empty]
    have same := @Collects.dry s plen vq chains []
    rw [append_nil, length_nil, BitVec.add_zero] at same
    exact same few fun _ => rfl
  | cons c cs ih =>
    obtain ⟨fuel, rfl⟩ : ∃ n, fuel = n + 1 := ⟨fuel - 1, by omega⟩
    obtain ⟨some_iov, walks, later⟩ := posted
    obtain ⟨segs, more⟩ := room
    obtain ⟨moved, ret, pidx, iov⟩ := walks vq (vtnetMaxsegs - (riov chains).length) qsize avail rfl
      (by omega)
    have positive : 0 < c.iov.length := length_pos_of_ne_nil some_iov
    have length : (riov (chains ++ [c])).length = (riov chains).length + c.iov.length := by
      rw [riov_append, riov_single, length_append]
    have total : totalOf (chains ++ [c]) = totalOf chains + countIov c.iov := by
      rw [total_append, total_single]
    unfold gather
    dsimp only
    rw [ret, if_neg (by omega), if_neg (by omega), pidx, iov, moved]
    dsimp only
    by_cases merge : s.rxMerge = false
    · rw [if_pos merge]
      refine Collects.full [c] cs rfl (cons_ne_nil _ _) (fun _ => rfl) (fun merging => ?_)
      rw [merge] at merging
      cases merging
    · rw [if_neg merge]
      have merging : s.rxMerge = true := Bool.not_eq_false _ ▸ merge
      obtain ⟨small, goes⟩ := more merging
      have bytes : (riovBytes (chains ++ [c])).toNat = totalOf (chains ++ [c]) := by
        rw [riov_bytes_snoc, toNat_add, counted, info_len (by omega), total]
        exact Nat.mod_eq_of_lt small
      have here : { idx := c.idx, iov := c.iov : Chain } = c := rfl
      rw [here, bytes]
      by_cases again : totalOf (chains ++ [c]) < plen ∧ (riov (chains ++ [c])).length < vtnetMaxsegs
      · rw [if_pos again]
        have collected := ih fuel { vq with lastAvail := vq.lastAvail + 1 } (chains ++ [c]) qsize
          avail later (by rw [total, length]; exact goes (by omega) (by omega)) (by omega) again.2
          bytes again.1
        generalize gather s plen fuel { vq with lastAvail := vq.lastAvail + 1 } (chains ++ [c]) =
          result at collected
        cases collected with
        | dry less one =>
          have same := @Collects.dry s plen vq chains (c :: cs)
          rw [next_avail, List.append_assoc]
          rw [List.append_assoc] at less
          exact same less fun never => absurd never merge
        | full taken rest split some_taken one many =>
          rw [next_avail, List.append_assoc]
          rw [List.append_assoc] at many
          refine Collects.full (c :: taken) rest (congrArg _ split) (cons_ne_nil _ _)
            (fun never => absurd never merge) (fun _ => ⟨(many merging).1, (many merging).2.1, ?_⟩)
          have least := (many merging).2.2
          rw [List.append_assoc] at least
          rw [dropLast_cons_of_ne_nil some_taken]
          exact least
      · rw [if_neg again]
        refine Collects.full [c] cs rfl (cons_ne_nil _ _) (fun _ => rfl) (fun _ => ⟨?_, ?_, ?_⟩)
        · omega
        · omega
        · rw [show [c].dropLast = [] from rfl, append_nil]
          exact few

end

section
variable {s : Softc}

theorem release_goes (chains : List Chain) (ulen : BitVec 32) (vq : VqueueInfo)
    (some_chain : chains ≠ []) (small : totalOf chains < 2 ^ 32)
    (enough : ulen.toNat ≤ totalOf chains) (least : totalOf chains.dropLast < ulen.toNat) :
    ∃ vq' entries, release chains ulen vq = .ok (vq', entries, []) ∧
      entries.map VirtioUsed.idx = chains.map (fun c => c.idx.setWidth 32) ∧
      (entries.map fun u => u.tlen.toNat).sum = ulen.toNat ∧
      vq'.lastAvail = vq.lastAvail ∧ vq'.avail = vq.avail := by
  induction chains generalizing ulen vq with
  | nil => exact absurd rfl some_chain
  | cons c rest ih =>
    have total : totalOf (c :: rest) = countIov c.iov + totalOf rest := by
      rw [← total_single c, ← total_append]
      rfl
    have len : (infoLen c).toNat = countIov c.iov := info_len (by omega)
    unfold release
    dsimp only
    cases rest with
    | nil =>
      have all : (if ulen < infoLen c then ulen else infoLen c) = ulen := by
        by_cases below : ulen < infoLen c
        · exact if_pos below
        · rw [if_neg below]
          apply eq_of_toNat_eq
          rw [lt_def, len] at below
          have none_left : totalOf [] = 0 := rfl
          omega
      rw [all, BitVec.sub_self, if_pos (show 0#32 = 0 from rfl)]
      refine ⟨_, _, rfl, rfl, ?_, rfl, rfl⟩
      exact Nat.add_zero _
    | cons d rest =>
      have before : totalOf (c :: d :: rest).dropLast =
          countIov c.iov + totalOf (d :: rest).dropLast := by
        rw [dropLast_cons_of_ne_nil (cons_ne_nil d rest), ← total_single c,
          ← total_append]
        rfl
      have part : (if ulen < infoLen c then ulen else infoLen c) = infoLen c := by
        apply if_neg
        rw [lt_def, len]
        omega
      have after : (ulen - infoLen c).toNat = ulen.toNat - countIov c.iov := by
        rw [toNat_sub_of_le (BitVec.le_def.mpr (by omega)), len]
      have more : ulen - infoLen c ≠ 0 := by
        intro never
        rw [never] at after
        have zero : (0 : BitVec 32).toNat = 0 := rfl
        omega
      rw [part, if_neg more]
      obtain ⟨vq', entries, ran, heads, lengths, lastAvail, avail⟩ :=
        ih (ulen - infoLen c) (vqRelchainPrepare vq c.idx (infoLen c)) (cons_ne_nil _ _)
          (by omega) (by omega) (by omega)
      rw [ran]
      refine ⟨vq', _, rfl, ?_, ?_, lastAvail, avail⟩
      · rw [map_cons, heads]
        rfl
      · rw [map_cons, sum_cons, lengths, after]
        show (infoLen c).toNat + (ulen.toNat - countIov c.iov) = ulen.toNat
        omega

theorem span_get {address length j : Nat} (inside : j < length) :
    (span address length)[j]? = some (address + j) := by
  rw [span, getElem?_map, getElem?_range inside]
  rfl

theorem zip_places {first second : List Nat} {zeros p : List (BitVec 8)}
    (same : first.length = zeros.length) :
    (first ++ second).zip (zeros ++ p) = first.zip zeros ++ second.zip p :=
  zip_append same

theorem bufs_behind {c : Chain} {v : Iovec} {vs more : List Iovec} (iov : c.iov = v :: vs)
    (enough : s.prepend ≤ v.len) (behind : 0 < s.prepend → v.len = s.prepend → vs ++ more ≠ []) :
    ∃ bufs, (if 0 < s.prepend then iovTrimHdr s.prepend (c.iov ++ more)
        else some (c.iov ++ more)) = some bufs ∧
      placesOf (c.iov ++ more) = span v.base s.prepend ++ placesOf bufs := by
  rw [iov, List.cons_append]
  by_cases positive : 0 < s.prepend
  · rw [if_pos positive]
    obtain ⟨bufs, trimmed⟩ := trim_some enough (behind positive)
    exact ⟨bufs, trimmed, (trim_places trimmed).2⟩
  · rw [if_neg positive]
    have zero : s.prepend = 0 := by omega
    refine ⟨_, rfl, ?_⟩
    rw [zero]
    rfl

theorem publish_delivers {t : Softc} {p : List (BitVec 8)} {c : Chain} {taken : List Chain}
    {v : Iovec} {vs : List Iovec} (merge : t.rxMerge = s.rxMerge) (used : t.used = s.used)
    (lastAvail : t.vq.lastAvail = s.vq.lastAvail + BitVec.ofNat 16 (c :: taken).length)
    (avail : t.vq.avail = s.vq.avail) (packets : s.packets = p :: t.packets)
    (writes : t.writes = s.writes ++
      (placesOf (riov (c :: taken))).zip (List.replicate s.prepend 0 ++ p))
    (small : p.length + s.prepend < 2 ^ 32) (iov : c.iov = v :: vs)
    (room : s.rxMerge = true → 12 ≤ v.len) (enough : p.length + s.prepend ≤ totalOf (c :: taken))
    (one : s.rxMerge = false → (c :: taken).length = 1)
    (many : s.rxMerge = true → totalOf (c :: taken) < 2 ^ 32 ∧
      totalOf (c :: taken).dropLast < p.length + s.prepend) :
    ∃ s', publish t (c :: taken) c v.base (p.length + s.prepend) = .ok s' ∧
      Delivered s p (c :: taken) s' := by
  have ulen : (BitVec.ofNat 32 (p.length + s.prepend)).toNat = p.length + s.prepend :=
    Nat.mod_eq_of_lt small
  unfold publish
  by_cases single : s.rxMerge = false
  · have nothing : taken = [] := eq_nil_of_length_eq_zero (Nat.succ.inj (one single))
    subst nothing
    rw [merge, if_pos single]
    refine ⟨_, rfl, ?_⟩
    refine { some_taken := cons_ne_nil _ _, enough := enough, least := ?_, heads := ?_,
             kept := ?_, lengths := ?_, filled := ⟨[], ?_, ?_⟩, lastAvail := lastAvail,
             avail := avail, packets := packets }
    · rw [single]
      rfl
    · rw [used, drop_left]
      rfl
    · rw [used]
      exact prefix_append _ _
    · rw [used, drop_left]
      show _ + 0 = _
      exact ulen
    · rw [append_nil]
      exact writes
    · rw [single]
      rfl
  · have merging : s.rxMerge = true := Bool.not_eq_false _ ▸ single
    obtain ⟨fits, least⟩ := many merging
    obtain ⟨vq', entries, ran, heads, lengths, lastAvail', avail'⟩ :=
      release_goes (c :: taken) (BitVec.ofNat 32 (p.length + s.prepend)) t.vq
        (cons_ne_nil _ _) fits (by rw [ulen]; exact enough) (by rw [ulen]; exact least)
    rw [merge, if_neg single, ran]
    have count : entries.length = (c :: taken).length := by
      have same := congrArg List.length heads
      rw [length_map, length_map] at same
      exact same
    have long := room merging
    have places : placesOf (riov (c :: taken)) = span v.base v.len ++ placesOf (vs ++ riov taken) := by
      show placesOf (c.iov ++ riov taken) = _
      rw [iov]
      rfl
    let bufs : List (Nat × BitVec 8) :=
      [(v.base + 10, (BitVec.ofNat 16 entries.length).extractLsb' 0 8),
        (v.base + 11, (BitVec.ofNat 16 entries.length).extractLsb' 8 8)]
    refine ⟨_, rfl, ?_⟩
    refine { some_taken := cons_ne_nil _ _, enough := enough, least := ?_, heads := ?_,
             kept := ?_, lengths := ?_, filled := ⟨bufs, ?_, ?_⟩,
             lastAvail := lastAvail'.trans lastAvail, avail := avail'.trans avail,
             packets := packets }
    · rw [merging]
      exact least
    · rw [used, drop_left]
      exact heads
    · rw [used]
      exact prefix_append _ _
    · dsimp only
      rw [used, drop_left, lengths, ulen]
    · dsimp only
      rw [writes]
    · rw [merging, if_pos rfl]
      dsimp only [bufs]
      rw [count]
      refine ⟨v.base + 10, v.base + 11, ?_, ?_, rfl⟩
      · rw [places, getElem?_append_left (by rw [span_length]; omega)]
        exact span_get (by omega)
      · rw [places, getElem?_append_left (by rw [span_length]; omega)]
        exact span_get (by omega)

theorem retchains_back (vq : VqueueInfo) (n : BitVec 16) :
    vqRetchains { vq with lastAvail := vq.lastAvail + n } n = vq := by
  unfold vqRetchains
  rw [BitVec.add_sub_cancel]

theorem receive_outcome {p : List (BitVec 8)} {rest : List (List (BitVec 8))}
    {taken left : List Chain} (packets : s.packets = p :: rest) (some_bytes : p ≠ [])
    (small : p.length + s.prepend < 2 ^ 32) (posted : Posted s s.vq.lastAvail (taken ++ left))
    (some_taken : taken ≠ []) (one : s.rxMerge = false → taken.length = 1)
    (many : s.rxMerge = true → totalOf taken < 2 ^ 32 ∧
      (p.length + s.prepend ≤ totalOf taken ∨ vtnetMaxsegs ≤ (riov taken).length) ∧
      totalOf taken.dropLast < p.length + s.prepend)
    (headed : ∀ c, (taken ++ left).head? = some c → Headed s c) :
    ∃ s', receive s { s.vq with lastAvail := s.vq.lastAvail + BitVec.ofNat 16 taken.length } taken p
      rest = .ok s' ∧ Outcome s s' := by
  obtain ⟨c, more, rfl⟩ := exists_cons_of_ne_nil some_taken
  obtain ⟨v, vs, iov, either⟩ := headed c rfl
  have positive : 0 < p.length := length_pos_of_ne_nil some_bytes
  have first : (riov (c :: more)).head? = some v := by
    show (c.iov ++ riov more).head? = some v
    rw [iov]
    rfl
  unfold receive
  rw [show (c :: more).head? = some c from rfl, first]
  obtain tooSmall | ⟨enough, behind, room⟩ := either
  · have short : v.len < s.prepend := by
      have part : countIov c.iov = v.len + countIov vs := by
        rw [iov]
        exact sum_cons
      omega
    have refused : iovTrimHdr s.prepend (riov (c :: more)) = none := by
      show iovTrimHdr s.prepend (c.iov ++ riov more) = none
      rw [iov]
      exact if_pos short
    rw [if_pos (by omega), refused]
    refine ⟨_, rfl, Outcome.dropped c (more ++ left) posted tooSmall rfl rfl rfl ?_ rfl⟩
    show s.vq.lastAvail + BitVec.ofNat 16 (more.length + 1) - BitVec.ofNat 16 more.length = _
    rw [← next_avail, BitVec.add_sub_cancel]
  · have behind' : 0 < s.prepend → v.len = s.prepend → vs ++ riov more ≠ [] := by
      intro header exactly nothing
      obtain ⟨noneHere, noneLater⟩ := List.append_eq_nil_iff.mp nothing
      by_cases merge : s.rxMerge = false
      · exact behind header exactly merge noneHere
      · have merging : s.rxMerge = true := Bool.not_eq_false _ ▸ merge
        have alone : riov (c :: more) = [v] := by
          show c.iov ++ riov more = [v]
          rw [iov, noneHere, noneLater]
          rfl
        obtain ⟨-, enoughOr, -⟩ := many merging
        unfold totalOf at enoughOr
        rw [alone] at enoughOr
        have one_len : countIov [v] = v.len := Nat.add_zero _
        have one_seg : [v].length = 1 := rfl
        unfold vtnetMaxsegs at enoughOr
        omega
    obtain ⟨bufs, trimmed, places⟩ := bufs_behind iov enough behind'
    have total : totalOf (c :: more) = s.prepend + countIov bufs := by
      have lengths := congrArg List.length places
      rw [places_length, length_append, span_length, places_length] at lengths
      exact lengths
    have zipped : (placesOf (riov (c :: more))).zip (List.replicate s.prepend 0 ++ p) =
        (span v.base s.prepend).zip (List.replicate s.prepend 0) ++ (placesOf bufs).zip p := by
      show (placesOf (c.iov ++ riov more)).zip _ = _
      rw [places]
      exact zip_places (by rw [span_length, length_replicate])
    rw [show riov (c :: more) = c.iov ++ riov more from rfl, trimmed]
    dsimp only
    by_cases truncated : countIov bufs < p.length
    · rw [if_pos truncated]
      refine ⟨_, rfl, Outcome.short p (c :: more) left posted (by omega) ?_ packets rfl ?_
        ⟨(placesOf (riov (c :: more))).zip (List.replicate s.prepend 0 ++ p), ?_, ?_⟩⟩
      · by_cases merge : s.rxMerge = true
        · rw [if_pos merge]
          exact (many merge).2.1.resolve_left (by omega)
        · rw [if_neg merge]
          exact one ((Bool.not_eq_true _).mp merge)
      · exact retchains_back s.vq _
      · dsimp only
        rw [zipped, List.append_assoc]
      · intro w member
        exact (of_mem_zip member).1
    · rw [if_neg truncated]
      have delivers := @publish_delivers s { s with
          vq := { s.vq with lastAvail := s.vq.lastAvail + BitVec.ofNat 16 (c :: more).length }
          packets := rest
          writes := s.writes ++ (span v.base s.prepend).zip (List.replicate s.prepend 0) ++
            (placesOf bufs).zip p } p c more v vs rfl rfl rfl rfl packets
        (by dsimp only; rw [zipped, List.append_assoc]) small iov room (by omega) one
        (fun merging => ⟨(many merging).1, (many merging).2.2⟩)
      obtain ⟨s', ran, delivered⟩ := delivers
      exact ⟨s', ran, Outcome.delivered p (c :: more) left posted delivered⟩

theorem turn_outcome (order : InOrder s ()) (going : s.stopped = false) :
    ∃ s', turn s = .ok s' ∧ Outcome s s' := by
  unfold turn
  cases packets : s.packets with
  | nil =>
    refine ⟨_, rfl, Outcome.drained ?_ (by rw [← packets])⟩
    intro p rest never
    rw [packets] at never
    cases never
  | cons p rest =>
    dsimp only
    by_cases empty : p = []
    · rw [if_pos (by rw [empty]; rfl)]
      refine ⟨_, rfl, Outcome.drained ?_ (by rw [← packets])⟩
      intro p' rest' same
      rw [packets] at same
      cases same
      exact empty
    · have some_bytes : p.isEmpty = false := List.isEmpty_eq_false_iff.mpr empty
      rw [some_bytes, if_neg Bool.false_ne_true]
      obtain ⟨small, cs, posted, room, headed⟩ := order going p rest packets empty
      have positive : 0 < p.length := length_pos_of_ne_nil empty
      have collected := @gather_collects s (p.length + s.prepend) cs (vtnetMaxsegs + 1) s.vq [] rfl
        rfl posted room (Nat.le_refl _) (show 0 < 256 by decide) rfl
        (show 0 < p.length + s.prepend by omega)
      generalize gather s (p.length + s.prepend) (vtnetMaxsegs + 1) s.vq [] = result at collected
      cases collected with
      | dry few one =>
        refine ⟨_, rfl, Outcome.dry p rest cs packets posted few one ?_⟩
        rw [nil_append, retchains_back, ← packets]
      | full taken left split some_taken one many =>
        subst split
        exact receive_outcome packets empty small posted some_taken one many headed

end

section
variable {s s' : Softc}

theorem posted_distance (cs : List Chain) (l : BitVec 16) (posted : Posted s l cs) :
    (s.vq.avail.idx - l).toNat = cs.length := by
  induction cs generalizing l with
  | nil =>
    have here : s.vq.avail.idx = l := posted
    rw [here, BitVec.sub_self]
    rfl
  | cons c cs ih =>
    obtain ⟨some_iov, walks, later⟩ := posted
    have further : s.vq.avail.idx ≠ l := by
      intro same
      have ret := (walks { s.vq with lastAvail := l } c.iov.length rfl rfl rfl (Nat.le_refl _)).2.1
      rw [getchain_empty same] at ret
      have positive : 0 < c.iov.length := length_pos_of_ne_nil some_iov
      dsimp only at ret
      omega
    have rest := ih (l + 1) later
    rw [length_cons]
    bv_omega

theorem posted_later (taken rest : List Chain) (l : BitVec 16) (posted : Posted s l (taken ++ rest)) :
    Posted s (l + BitVec.ofNat 16 taken.length) rest := by
  induction taken generalizing l with
  | nil =>
    rw [length_nil, BitVec.add_zero]
    exact posted
  | cons c taken ih =>
    rw [length_cons, ← next_avail]
    exact ih (l + 1) posted.2.2

/-- The packets that the backend has, and the chains that the driver has posted. -/
def Softc.left (s : Softc) : Nat := s.packets.length + (s.vq.avail.idx - s.vq.lastAvail).toNat

theorem outcome_progress (outcome : Outcome s s') : s'.stopped = true ∨ s'.left < s.left := by
  unfold Softc.left
  cases outcome with
  | drained none_left same =>
    rw [same]
    exact .inl rfl
  | dry p rest cs packets posted few one same =>
    rw [same]
    exact .inl rfl
  | dropped c cs posted tooSmall used writes packets lastAvail avail =>
    have before := posted_distance _ _ posted
    have after := posted_distance _ _ posted.2.2
    rw [packets, avail, lastAvail, before, after, length_cons]
    exact .inr (by omega)
  | short p taken rest posted truncated filled packets used vq more =>
    rw [packets, vq, length_cons]
    exact .inr (by omega)
  | delivered p taken rest posted delivered =>
    have before := posted_distance _ _ posted
    have after := posted_distance _ _ (posted_later _ _ _ posted)
    rw [delivered.packets, delivered.avail, delivered.lastAvail, before, after, length_cons,
      length_append]
    exact .inr (by omega)

theorem step_ends (order : InOrder s ()) :
    ∃ s', pciVtnetRx s () = .ok s' ∧ (s.stopped = false → Outcome s s') ∧
      (s.stopped = true → s' = s) := by
  unfold pciVtnetRx
  by_cases stopped : s.stopped = true
  · rw [if_pos stopped]
    refine ⟨s, rfl, fun going => ?_, fun _ => rfl⟩
    rw [stopped] at going
    cases going
  · rw [if_neg stopped]
    obtain ⟨s', ran, outcome⟩ := turn_outcome order (Bool.not_eq_true _ ▸ stopped)
    exact ⟨s', ran, fun _ => outcome, fun never => absurd never stopped⟩

/-- In every run whose turns find chains in order, no assertion fails, each turn delivers, drops or
    puts back what it should, and the loop has ended once there were more turns than packets and
    chains. -/
theorem packets_delivered (turns : List Unit) (s : Softc)
    (order : AlongAttempts pciVtnetRx InOrder s turns) :
    (∃ s', attempts pciVtnetRx s turns = .ok s' ∧
        (s.stopped = true ∨ s.left < turns.length → s'.stopped = true)) ∧
      AlongAttempts pciVtnetRx TurnEnds s turns := by
  induction turns generalizing s with
  | nil =>
    refine ⟨⟨s, rfl, fun done => ?_⟩, trivial⟩
    obtain stopped | never := done
    · exact stopped
    · exact absurd never (Nat.not_lt_zero _)
  | cons u turns ih =>
    obtain ⟨here, later⟩ := order
    obtain ⟨s', ran, outcome, stays⟩ := step_ends here
    rw [ran] at later
    obtain ⟨⟨final, ends, stops⟩, others⟩ := ih s' later
    refine ⟨⟨final, ?_, fun done => stops ?_⟩, along_attempts_cons ⟨s', ran, outcome⟩ ran others⟩
    · unfold attempts
      rw [ran]
      exact ends
    · cases stopped : s.stopped with
      | true =>
        rw [stays stopped]
        exact .inl stopped
      | false =>
        rw [stopped] at done
        obtain never | few := done
        · cases never
        · rw [length_cons] at few
          obtain ended | fewer := outcome_progress (outcome stopped)
          · exact .inl ended
          · exact .inr (by omega)

def twoBuffers (len : BitVec 32) (beVhdrlen : Nat) (packets : List (List (BitVec 8))) : Softc where
  vhdrlen := 12
  beVhdrlen := beVhdrlen
  rxMerge := true
  descs := ⟨fun i => if i = 0 then ⟨0, len, 2, 0⟩ else ⟨64, 16, 2, 0⟩, fun _ _ => ⟨0, 0, 0, 0⟩⟩
  hvCaps := 0
  vq := ⟨4, 1, 0, 0, 0, ⟨0, 2, fun i => BitVec.ofNat 16 i⟩, ⟨0, 0, fun _ => ⟨0, 0⟩⟩⟩
  packets := packets
  writes := []
  used := []
  stopped := false

def bothChains : List Chain := [⟨0, [⟨0, 16⟩]⟩, ⟨1, [⟨64, 16⟩]⟩]

theorem record_first (n : Nat) (v : VirtioDesc) : vqRecord 0 (n + 1) v [] = [v] :=
  if_neg (Nat.not_succ_le_zero n)

theorem two_buffers_posted {packets : List (List (BitVec 8))} :
    Posted (twoBuffers 16 0 packets) 0 bothChains := by
  refine ⟨cons_ne_nil _ _, ?_, cons_ne_nil _ _, ?_, rfl⟩
  · rintro ⟨qsize, flags, lastAvail, nextUsed, saveUsed, avail, used⟩ nIov rfl rfl rfl bound
    obtain ⟨n, rfl⟩ := Nat.exists_eq_add_of_le' bound
    simp [vqGetchain, chainWalk, descWalk, record_first, hasFlag, twoBuffers, iovOf,
      vqMaxDescriptors, vringDescFIndirect, vringDescFNext]
  · rintro ⟨qsize, flags, lastAvail, nextUsed, saveUsed, avail, used⟩ nIov rfl rfl rfl bound
    obtain ⟨n, rfl⟩ := Nat.exists_eq_add_of_le' bound
    simp [vqGetchain, chainWalk, descWalk, record_first, hasFlag, twoBuffers, iovOf,
      vqMaxDescriptors, vringDescFIndirect, vringDescFNext]

theorem packets_delivered_two :
    (∃ s', attempts pciVtnetRx (twoBuffers 16 0 [[1, 2, 3, 4, 5, 6]]) [(), (), (), ()] = .ok s' ∧
        ((twoBuffers 16 0 [[1, 2, 3, 4, 5, 6]]).stopped = true ∨
          (twoBuffers 16 0 [[1, 2, 3, 4, 5, 6]]).left < 4 → s'.stopped = true)) ∧
      AlongAttempts pciVtnetRx TurnEnds (twoBuffers 16 0 [[1, 2, 3, 4, 5, 6]]) [(), (), (), ()] := by
  refine packets_delivered [(), (), (), ()] _ ?_
  refine along_attempts_cons ?_ rfl ?_
  · intro _ p rest packets _
    cases packets
    refine ⟨by decide, bothChains, two_buffers_posted, ⟨by decide, fun _ => ⟨by decide, ?_⟩⟩, ?_⟩
    · intro _ _
      exact ⟨by decide, fun _ => ⟨by decide, fun _ _ => trivial⟩⟩
    · intro c first
      cases first
      exact ⟨⟨0, 16⟩, [], rfl, .inr ⟨by decide, by decide, by decide⟩⟩
  · refine along_attempts_cons ?_ rfl ?_
    · intro _ p rest never
      cases never
    · refine along_attempts_cons nofun rfl ?_
      exact along_attempts_last_step nofun

theorem short_vector_overrun :
    ∃ s', attempts pciVtnetRx (twoBuffers 10 12 [[0, 0, 0, 0, 0, 0, 0, 0, 0, 0, 0, 0, 1, 2]]) [()] =
        .ok s' ∧ (10, 2) ∈ s'.writes ∧ 10 ∉ placesOf [⟨0, 10⟩, ⟨64, 16⟩] := by
  refine ⟨_, rfl, ?_, ?_⟩
  · decide
  · decide

end

end Vtnet
