import Bhyve.Lib.FreeRunning
import Bhyve.Lib.StepRuns
import Bhyve.Virtio.Virtqueue

/-!
A virtqueue between a driver and its device, with their histories beside the rings.
-/
namespace Virtio
open FreeRunning StepRuns List

structure System where
  vq : VqueueInfo
  published : List (BitVec 16)
  obtained : List (BitVec 16)
  released : List (Nat × BitVec 32)
  visible : Nat
  reaped : List VirtioUsed

inductive Event where
  | place (offset : Nat) (head : BitVec 16)
  | advance (count : Nat)
  | reap
  | getchain (mem : Descriptors) (hvCaps : BitVec 64) (nIov : Nat)
  | retchains (nChains : BitVec 16)
  | prepare (place : Nat) (iolen : BitVec 32)
  | publish

def slotOf (vq : VqueueInfo) (counter : BitVec 16) : Nat := (counter &&& (vq.qsize - 1)).toNat

def placed (vq : VqueueInfo) (count : Nat) : List (BitVec 16) :=
  (List.range count).map fun j => vq.avail.ring (slotOf vq (vq.avail.idx + BitVec.ofNat 16 j))

/-- The chain that was obtained at a place is released; the places of chains that are returned are
    given out again. -/
def System.step (s : System) : Event → System
  | .place offset head =>
      { s with vq := { s.vq with avail := { s.vq.avail with
          ring := Function.update s.vq.avail.ring
            (slotOf s.vq (s.vq.avail.idx + BitVec.ofNat 16 offset)) head } } }
  | .advance count =>
      { s with
        vq := { s.vq with avail := { s.vq.avail with
          idx := s.vq.avail.idx + BitVec.ofNat 16 count } }
        published := s.published ++ placed s.vq count }
  | .reap =>
      { s with
        reaped := s.reaped ++ [s.vq.used.ring (slotOf s.vq (counter 16 s.reaped.length))] }
  | .getchain mem hvCaps nIov =>
      let got := vqGetchain mem hvCaps nIov s.vq
      { s with vq := got.vq, obtained := s.obtained ++ got.pidx.toList }
  | .retchains nChains =>
      { s with
        vq := vqRetchains s.vq nChains
        obtained := s.obtained.take (s.obtained.length - nChains.toNat) }
  | .prepare place iolen =>
      match s.obtained[place]? with
      | some head =>
          { s with
            vq := vqRelchainPrepare s.vq head iolen
            released := s.released ++ [(place, iolen)] }
      | none => s
  | .publish => { s with vq := vqRelchainPublish s.vq, visible := s.released.length }

/-- The driver never has more heads outstanding than there are slots, and reads entries that are
    visible; the device returns the last chains obtained and releases chains that it holds. -/
def System.Allowed (s : System) : Event → Prop
  | .place offset _ => s.published.length + offset < s.reaped.length + s.vq.qsize.toNat
  | .advance count => s.published.length + count ≤ s.reaped.length + s.vq.qsize.toNat
  | .reap => s.vq.used.idx ≠ counter 16 s.reaped.length
  | .getchain _ _ _ => True
  | .retchains nChains => nChains.toNat ≤ s.obtained.length ∧
      ∀ r ∈ s.released, r.1 < s.obtained.length - nChains.toNat
  | .prepare place _ => place < s.obtained.length ∧ ∀ r ∈ s.released, r.1 ≠ place
  | .publish => True

def entryOf (published : List (BitVec 16)) (r : Nat × BitVec 32) : VirtioUsed :=
  ⟨(published.getD r.1 0).setWidth 32, r.2⟩

def System.entries (s : System) : List VirtioUsed := s.released.map (entryOf s.published)

structure Accounted (qsize : BitVec 16) (s : System) : Prop where
  size : s.vq.qsize = qsize
  order : s.obtained <+: s.published
  once : (s.released.map Prod.fst).Nodup
  held : ∀ r ∈ s.released, r.1 < s.obtained.length
  outstanding : s.published.length ≤ s.reaped.length + qsize.toNat
  written : s.visible ≤ s.released.length
  read : s.reaped.length ≤ s.visible
  delivered : s.reaped <+: s.entries
  inRing : Holds qsize.toNat s.vq.used.ring s.entries s.reaped.length
  available : Holds qsize.toNat s.vq.avail.ring s.published s.reaped.length
  vaIdx : s.vq.avail.idx = counter 16 s.published.length
  lastAvail : s.vq.lastAvail = counter 16 s.obtained.length
  nextUsed : s.vq.nextUsed = counter 16 s.released.length
  vuIdx : s.vq.used.idx = counter 16 s.visible

/-- A call of vq_getchain gives out the next head that the driver has published, and none only
    where all have been given out. -/
def System.Served (s : System) : Event → Prop
  | .getchain mem hvCaps nIov =>
      (vqGetchain mem hvCaps nIov s.vq).pidx = s.published[s.obtained.length]? ∧
        (s.published[s.obtained.length]? = none → (vqGetchain mem hvCaps nIov s.vq).ret = 0)
  | _ => True

section
variable {k : Nat} {qsize : BitVec 16} {s : System}

theorem size_eq (power : qsize = BitVec.twoPow 16 k) (fits : k < 16) : qsize.toNat = 2 ^ k := by
  rw [power]
  exact BitVec.toNat_twoPow_of_lt fits

theorem slot_of (power : qsize = BitVec.twoPow 16 k) (fits : k < 16) {vq : VqueueInfo}
    (size : vq.qsize = qsize) (n : Nat) : slotOf vq (counter 16 n) = n % qsize.toNat := by
  rw [size_eq power fits]
  unfold slotOf
  rw [size, power, mask_slot fits, counter_slot (Nat.le_of_lt fits)]

theorem released_le {released : List (Nat × BitVec 32)} {n : Nat}
    (once : (released.map Prod.fst).Nodup) (held : ∀ r ∈ released, r.1 < n) :
    released.length ≤ n := by
  have inside : released.map Prod.fst ⊆ List.range n := by
    intro p member
    obtain ⟨r, there, rfl⟩ := List.mem_map.mp member
    exact List.mem_range.mpr (held r there)
  have counted := once.length_le_of_subset inside
  rw [length_map, length_range] at counted
  exact counted

theorem reaped_le (accounted : Accounted qsize s) :
    s.reaped.length ≤ s.released.length ∧ s.released.length ≤ s.obtained.length ∧
      s.obtained.length ≤ s.published.length :=
  ⟨Nat.le_trans accounted.read accounted.written, released_le accounted.once accounted.held,
    accounted.order.length_le⟩

theorem place_accounted (power : qsize = BitVec.twoPow 16 k) (fits : k < 16)
    (accounted : Accounted qsize s) {offset : Nat} {head : BitVec 16}
    (room : s.published.length + offset < s.reaped.length + s.vq.qsize.toNat) :
    Accounted qsize (s.step (.place offset head)) := by
  rw [accounted.size] at room
  obtain ⟨first, second, third⟩ := reaped_le accounted
  refine { accounted with available := ?_ }
  show Holds qsize.toNat (Function.update s.vq.avail.ring
    (slotOf s.vq (s.vq.avail.idx + BitVec.ofNat 16 offset)) head) s.published s.reaped.length
  rw [accounted.vaIdx, counter_add, slot_of power fits accounted.size]
  apply holds_store accounted.available
  · omega
  · omega

theorem entries_grow {published more : List (BitVec 16)} {released : List (Nat × BitVec 32)}
    (inside : ∀ r ∈ released, r.1 < published.length) :
    released.map (entryOf (published ++ more)) = released.map (entryOf published) := by
  apply map_congr_left
  intro r member
  unfold entryOf
  rw [getD_eq_getElem?_getD, getD_eq_getElem?_getD,
    getElem?_append_left (inside r member)]

theorem advance_accounted (power : qsize = BitVec.twoPow 16 k) (fits : k < 16)
    (accounted : Accounted qsize s) {count : Nat}
    (room : s.published.length + count ≤ s.reaped.length + s.vq.qsize.toNat) :
    Accounted qsize (s.step (.advance count)) := by
  rw [accounted.size] at room
  have length : (s.published ++ placed s.vq count).length = s.published.length + count := by
    unfold placed
    rw [length_append, length_map, length_range]
  have same : (s.step (.advance count)).entries = s.entries := entries_grow fun r member =>
    Nat.lt_of_lt_of_le (accounted.held r member) accounted.order.length_le
  refine { accounted with
    order := accounted.order.trans (prefix_append _ _)
    outstanding := ?_
    delivered := ?_
    inRing := ?_
    available := ?_
    vaIdx := ?_ }
  · show (s.published ++ placed s.vq count).length ≤ _
    rw [length]
    exact room
  · rw [same]
    exact accounted.delivered
  · rw [same]
    exact accounted.inRing
  · apply holds_append accounted.available
    intro j x there
    unfold placed at there
    rw [getElem?_map] at there
    obtain ⟨i, counted, stored⟩ := Option.map_eq_some_iff.mp there
    obtain ⟨inside, same⟩ := List.getElem?_eq_some_iff.mp counted
    rw [getElem_range] at same
    subst same
    rw [accounted.vaIdx, counter_add, slot_of power fits accounted.size] at stored
    exact stored
  · show s.vq.avail.idx + BitVec.ofNat 16 count = counter 16 (s.published ++ placed s.vq count).length
    rw [accounted.vaIdx, counter_add, length]

theorem reap_accounted (power : qsize = BitVec.twoPow 16 k) (fits : k < 16)
    (accounted : Accounted qsize s) (seen : s.vq.used.idx ≠ counter 16 s.reaped.length) :
    Accounted qsize (s.step .reap) := by
  have more : s.reaped.length < s.visible := by
    apply Nat.lt_of_le_of_ne accounted.read
    intro same
    apply seen
    rw [accounted.vuIdx, same]
  have inside : s.reaped.length < s.entries.length := by
    rw [System.entries, length_map]
    exact Nat.lt_of_lt_of_le more accounted.written
  have entry : s.vq.used.ring (slotOf s.vq (counter 16 s.reaped.length)) =
      s.entries[s.reaped.length] := by
    rw [slot_of power fits accounted.size]
    exact accounted.inRing _ (Nat.le_refl _) _ (List.getElem?_eq_getElem inside)
  have length : (s.step .reap).reaped.length = s.reaped.length + 1 := length_append
  refine { accounted with
    outstanding := ?_
    read := ?_
    delivered := ?_
    inRing := ?_
    available := ?_ }
  · exact Nat.le_trans accounted.outstanding (by omega)
  · rw [length]
    exact more
  · show s.reaped ++ [_] <+: s.entries
    rw [entry]
    exact prefix_next accounted.delivered (List.getElem?_eq_getElem inside)
  · rw [length]
    exact holds_later accounted.inRing (Nat.le_succ _)
  · rw [length]
    exact holds_later accounted.available (Nat.le_succ _)

theorem publish_accounted (accounted : Accounted qsize s) : Accounted qsize (s.step .publish) := by
  obtain ⟨first, -, -⟩ := reaped_le accounted
  exact { accounted with
    written := Nat.le_refl _
    read := first
    vuIdx := accounted.nextUsed }

theorem retchains_accounted (accounted : Accounted qsize s) {nChains : BitVec 16}
    (last : nChains.toNat ≤ s.obtained.length)
    (held : ∀ r ∈ s.released, r.1 < s.obtained.length - nChains.toNat) :
    Accounted qsize (s.step (.retchains nChains)) := by
  have length : (s.obtained.take (s.obtained.length - nChains.toNat)).length =
      s.obtained.length - nChains.toNat := by
    rw [length_take]
    omega
  refine { accounted with
    order := (List.take_prefix _ _).trans accounted.order
    held := ?_
    lastAvail := ?_ }
  · intro r member
    show r.1 < (s.obtained.take _).length
    rw [length]
    exact held r member
  · show s.vq.lastAvail - nChains = counter 16 (s.obtained.take _).length
    rw [length, accounted.lastAvail, ← counter_back last]
    rw [BitVec.ofNat_toNat, BitVec.setWidth_eq]

section
variable (power : qsize = BitVec.twoPow 16 k) (fits : k < 16) (accounted : Accounted qsize s)
include power fits accounted

theorem prepare_accounted {place : Nat} {iolen : BitVec 32}
    (inside : place < s.obtained.length) (fresh : ∀ r ∈ s.released, r.1 ≠ place) :
    Accounted qsize (s.step (.prepare place iolen)) := by
  have here := List.getElem?_eq_getElem inside
  have next : s.step (.prepare place iolen) = { s with
      vq := vqRelchainPrepare s.vq s.obtained[place] iolen
      released := s.released ++ [(place, iolen)] } := by
    dsimp only [System.step]
    rw [here]
  obtain ⟨first, second, third⟩ := reaped_le accounted
  have held : ∀ r ∈ s.released ++ [(place, iolen)], r.1 < s.obtained.length := by
    intro r member
    rw [mem_append, mem_singleton] at member
    obtain old | rfl := member
    · exact accounted.held r old
    · exact inside
  have once : ((s.released ++ [(place, iolen)]).map Prod.fst).Nodup := by
    rw [map_append, nodup_append]
    refine ⟨accounted.once, (by simp), fun p old q new => ?_⟩
    obtain ⟨r, member, rfl⟩ := List.mem_map.mp old
    rw [map_singleton, mem_singleton] at new
    rw [new]
    exact fresh r member
  have many := released_le once held
  have length : (s.released ++ [(place, iolen)]).length = s.released.length + 1 :=
    length_append
  have entries : (s.released ++ [(place, iolen)]).map (entryOf s.published) =
      s.entries ++ [⟨s.obtained[place].setWidth 32, iolen⟩] := by
    have same : s.published.getD place 0 = s.obtained[place] := by
      rw [getD_eq_getElem?_getD, List.getElem?_eq_getElem (Nat.lt_of_lt_of_le inside third),
        Option.getD_some, ← accounted.order.getElem inside]
    rw [map_append, map_singleton, entryOf, same]
    rfl
  have count : s.entries.length = s.released.length := length_map _
  rw [next]
  refine { accounted with
    once := once
    held := held
    written := ?_
    delivered := ?_
    inRing := ?_
    nextUsed := ?_ }
  · rw [length]
    exact Nat.le_succ_of_le accounted.written
  · show s.reaped <+: (s.released ++ [(place, iolen)]).map (entryOf s.published)
    rw [entries]
    exact accounted.delivered.trans (prefix_append _ _)
  · show Holds qsize.toNat (Function.update s.vq.used.ring (slotOf s.vq s.vq.nextUsed) _)
      ((s.released ++ [(place, iolen)]).map (entryOf s.published)) s.reaped.length
    rw [entries, accounted.nextUsed, slot_of power fits accounted.size]
    apply holds_append
    · apply holds_store accounted.inRing
      · exact Nat.le_of_eq count
      · have room := accounted.outstanding
        omega
    · intro j x there
      obtain ⟨inside, same⟩ := List.getElem?_eq_some_iff.mp there
      have first : j = 0 := Nat.lt_one_iff.mp inside
      subst first
      rw [count, Nat.add_zero, Function.update_self]
      exact same
  · show s.vq.nextUsed + 1 = counter 16 (s.released ++ [(place, iolen)]).length
    rw [length, accounted.nextUsed, counter_next]

theorem getchain_served (mem : Descriptors) (hvCaps : BitVec 64) (nIov : Nat) :
    s.Served (.getchain mem hvCaps nIov) ∧ Accounted qsize (s.step (.getchain mem hvCaps nIov)) := by
  obtain ⟨first, second, third⟩ := reaped_le accounted
  have room := accounted.outstanding
  have ndesc : (s.vq.avail.idx - s.vq.lastAvail).toNat = s.published.length - s.obtained.length := by
    rw [accounted.vaIdx, accounted.lastAvail, counter_distance third (by omega)]
  unfold System.Served System.step vqGetchain
  dsimp only
  rw [ndesc]
  by_cases empty : s.published.length - s.obtained.length = 0
  · rw [if_pos empty]
    have all : s.published[s.obtained.length]? = none := by
      rw [List.getElem?_eq_none_iff]
      omega
    refine ⟨⟨all.symm, fun _ => rfl⟩, ?_⟩
    rw [Option.toList_none, append_nil]
    exact accounted
  · have inside : s.obtained.length < s.published.length := by omega
    have head := List.getElem?_eq_getElem inside
    have read : s.vq.avail.ring (slotOf s.vq s.vq.lastAvail) = s.published[s.obtained.length] := by
      rw [accounted.lastAvail, slot_of power fits accounted.size]
      exact accounted.available _ (by omega) _ head
    unfold slotOf at read
    rw [if_neg empty, accounted.size, if_neg (by omega)]
    rw [accounted.size] at read
    rw [read]
    refine ⟨⟨head.symm, fun never => ?_⟩, ?_⟩
    · rw [head] at never
      cases never
    · refine { accounted with
        size := rfl
        order := prefix_next accounted.order head
        held := fun r member => ?_
        lastAvail := ?_ }
      · rw [Option.toList_some, length_append]
        exact Nat.lt_add_right _ (accounted.held r member)
      · rw [length_append, accounted.lastAvail, counter_next]
        rfl

theorem step_accounted {event : Event} (allowed : s.Allowed event) :
    Accounted qsize (s.step event) := by
  cases event with
  | place offset head => exact place_accounted power fits accounted allowed
  | advance count => exact advance_accounted power fits accounted allowed
  | reap => exact reap_accounted power fits accounted allowed
  | getchain mem hvCaps nIov => exact (getchain_served power fits accounted mem hvCaps nIov).2
  | retchains nChains => exact retchains_accounted accounted allowed.1 allowed.2
  | prepare place iolen => exact prepare_accounted power fits accounted allowed.1 allowed.2
  | publish => exact publish_accounted accounted

end

end

def System.start (vq : VqueueInfo) : System := ⟨viVqInit vq, [], [], [], 0, []⟩

theorem start_accounted {vq : VqueueInfo} (avail : vq.avail.idx = 0) (used : vq.used.idx = 0) :
    Accounted vq.qsize (System.start vq) where
  size := rfl
  order := prefix_refl _
  once := nodup_nil
  held _ member := by cases member
  outstanding := Nat.zero_le _
  written := Nat.le_refl _
  read := Nat.le_refl _
  delivered := prefix_refl _
  inRing _ _ _ never := by cases never
  available _ _ _ never := by cases never
  vaIdx := avail
  lastAvail := rfl
  nextUsed := rfl
  vuIdx := used

/-- In every run of a driver and its device the heads are obtained in the order in which they were
    published, and the driver reads every release once, with its length. -/
theorem run_accounted {k : Nat} {vq : VqueueInfo} (power : vq.qsize = BitVec.twoPow 16 k)
    (fits : k < 16) (avail : vq.avail.idx = 0) (used : vq.used.idx = 0) (events : List Event)
    (allowed : Along System.step System.Allowed (System.start vq) events) :
    Along System.step System.Served (System.start vq) events ∧
      Accounted vq.qsize (run System.step (System.start vq) events) := by
  have start := start_accounted avail used
  have keeps : ∀ s e, Accounted vq.qsize s → s.Allowed e → Accounted vq.qsize (s.step e) :=
    fun s e accounted => step_accounted power fits accounted
  have serves : ∀ s e, Accounted vq.qsize s → s.Allowed e → s.Served e := by
    intro s e accounted _
    cases e with
    | getchain mem hvCaps nIov => exact (getchain_served power fits accounted mem hvCaps nIov).1
    | place => trivial
    | advance => trivial
    | reap => trivial
    | retchains => trivial
    | prepare => trivial
    | publish => trivial
  exact ⟨along_of_invariant keeps serves events _ start allowed,
    invariant_run keeps events _ start allowed⟩

instance decidableAllowed (s : System) : (event : Event) → Decidable (s.Allowed event)
  | .place offset _ => inferInstanceAs (Decidable (s.published.length + offset < _))
  | .advance count => inferInstanceAs (Decidable (s.published.length + count ≤ _))
  | .reap => inferInstanceAs (Decidable (s.vq.used.idx ≠ _))
  | .getchain _ _ _ => .isTrue trivial
  | .retchains _ => inferInstanceAs (Decidable (_ ∧ ∀ r ∈ s.released, _))
  | .prepare _ _ => inferInstanceAs (Decidable (_ ∧ ∀ r ∈ s.released, _))
  | .publish => .isTrue trivial

def twoSlots : VqueueInfo :=
  ⟨2, 0, 0, 0, 0, ⟨0, 0, fun _ => 0⟩, ⟨0, 0, fun _ => ⟨0, 0⟩⟩⟩

def oneDescriptor : Descriptors := ⟨fun _ => ⟨0, 16, 0, 0⟩, fun _ _ => ⟨0, 0, 0, 0⟩⟩

def outOfOrder : List Event :=
  [.place 0 1, .place 1 0, .advance 2, .getchain oneDescriptor 0 1, .retchains 1,
    .getchain oneDescriptor 0 1, .getchain oneDescriptor 0 1, .prepare 1 16, .publish, .reap,
    .place 0 1, .advance 1, .prepare 0 8, .getchain oneDescriptor 0 1, .publish, .reap]

theorem out_of_order_accounted :
    Along System.step System.Served (System.start twoSlots) outOfOrder ∧
      Accounted twoSlots.qsize (run System.step (System.start twoSlots) outOfOrder) :=
  @run_accounted 1 twoSlots (by decide) (by decide) rfl rfl outOfOrder (by decide)

end Virtio
