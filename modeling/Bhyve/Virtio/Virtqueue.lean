import Mathlib.Logic.Function.Basic

/-!
The virtqueues of virtio.c. The two rings and the descriptors lie in the memory of the guest, the
rings in areas of their own; a call sees one state of the descriptors.
-/
namespace Virtio

def vringAlign : Nat := 4096
def vringDescFNext : BitVec 16 := 0x1
def vringDescFIndirect : BitVec 16 := 0x4
def vringAvailFNoInterrupt : BitVec 16 := 0x1
def vqAlloc : BitVec 16 := 0x01
def vqMaxDescriptors : Nat := 512
def virtioFNotifyOnEmpty : BitVec 64 := BitVec.twoPow 64 24
def virtioRingFIndirectDesc : BitVec 64 := BitVec.twoPow 64 28
def virtioRingFEventIdx : BitVec 64 := BitVec.twoPow 64 29

structure VirtioDesc where
  addr : BitVec 64
  len : BitVec 32
  flags : BitVec 16
  next : BitVec 16
  deriving DecidableEq

structure VirtioUsed where
  idx : BitVec 32
  tlen : BitVec 32
  deriving DecidableEq

structure VringAvail where
  flags : BitVec 16
  idx : BitVec 16
  ring : Nat → BitVec 16

structure VringUsed where
  flags : BitVec 16
  idx : BitVec 16
  ring : Nat → VirtioUsed

structure VqueueInfo where
  qsize : BitVec 16
  flags : BitVec 16
  lastAvail : BitVec 16
  nextUsed : BitVec 16
  saveUsed : BitVec 16
  avail : VringAvail
  used : VringUsed

structure Descriptors where
  desc : Nat → VirtioDesc
  indirect : BitVec 64 → Nat → VirtioDesc

def roundup2 (x y : Nat) : Nat := (x + (y - 1)) / y * y

def vringSize (qsz : Nat) : Nat :=
  roundup2 (roundup2 (16 * qsz + 2 * (3 + qsz)) vringAlign + (2 * 3 + 8 * qsz)) vringAlign

structure Areas where
  desc : Nat
  avail : Nat
  used : Nat

/-- Where vi_vq_init puts the table and the rings, from the address of the pages it is given. -/
def areas (base qsize : Nat) : Areas where
  desc := base
  avail := base + qsize * 16
  used := roundup2 (base + qsize * 16 + (2 + qsize + 1) * 2) vringAlign

def viVqInit (vq : VqueueInfo) : VqueueInfo :=
  { vq with flags := vqAlloc, lastAvail := 0, nextUsed := 0, saveUsed := 0 }

theorem roundup2_le (x : Nat) {y : Nat} (positive : 0 < y) : x ≤ roundup2 x y := by
  unfold roundup2
  have rest := Nat.div_add_mod (x + (y - 1)) y
  have small := Nat.mod_lt (x + (y - 1)) positive
  have swap := Nat.mul_comm y ((x + (y - 1)) / y)
  omega

theorem roundup2_page (x pages : Nat) (y : Nat) (positive : 0 < y) :
    roundup2 (pages * y + x) y = pages * y + roundup2 x y := by
  unfold roundup2
  rw [Nat.add_assoc, Nat.add_comm (pages * y), Nat.add_mul_div_right _ _ positive, Nat.add_mul,
    Nat.add_comm]

def hasFlag (flags flag : BitVec 16) : Bool := decide (flags &&& flag ≠ 0)

def vqRecord (i nIov : Nat) (vd : VirtioDesc) (iov : List VirtioDesc) : List VirtioDesc :=
  if nIov ≤ i then iov else iov ++ [vd]

inductive Walk where
  | done (i : Nat) (iov : List VirtioDesc)
  | confused (iov : List VirtioDesc)

def indirectWalk (table : Nat → VirtioDesc) (nIndir nIov : Nat) :
    Nat → Nat → Nat → List VirtioDesc → Walk
  | 0, _, _, iov => .confused iov
  | fuel + 1, i, next, iov =>
      let vp := table next
      if hasFlag vp.flags vringDescFIndirect then .confused iov
      else
        let iov := vqRecord i nIov vp iov
        let i := i + 1
        if vqMaxDescriptors < i then .confused iov
        else if !hasFlag vp.flags vringDescFNext then .done i iov
        else if nIndir ≤ vp.next.toNat then .confused iov
        else indirectWalk table nIndir nIov fuel i vp.next.toNat iov

def descWalk (mem : Descriptors) (hvCaps : BitVec 64) (nIov i : Nat) (vdir : VirtioDesc)
    (iov : List VirtioDesc) : Walk :=
  if !hasFlag vdir.flags vringDescFIndirect then .done (i + 1) (vqRecord i nIov vdir iov)
  else if hvCaps &&& virtioRingFIndirectDesc = 0 then .confused iov
  else
    let nIndir := vdir.len.toNat / 16
    if vdir.len &&& 0xf ≠ 0 ∨ nIndir = 0 then .confused iov
    else indirectWalk (mem.indirect vdir.addr) nIndir nIov (vqMaxDescriptors + 1 - i) i 0 iov

def chainWalk (mem : Descriptors) (hvCaps : BitVec 64) (qsize : BitVec 16) (nIov : Nat) :
    Nat → Nat → Nat → List VirtioDesc → Int × List VirtioDesc
  | 0, _, _, iov => (-1, iov)
  | fuel + 1, i, next, iov =>
      if vqMaxDescriptors ≤ i then (-1, iov)
      else if qsize.toNat ≤ next then (-1, iov)
      else
        let vdir := mem.desc next
        match descWalk mem hvCaps nIov i vdir iov with
        | .confused iov => (-1, iov)
        | .done i iov =>
            if !hasFlag vdir.flags vringDescFNext then ((i : Int), iov)
            else chainWalk mem hvCaps qsize nIov fuel i vdir.next.toNat iov

structure Got where
  vq : VqueueInfo
  ret : Int
  pidx : Option (BitVec 16)
  iov : List VirtioDesc

def vqGetchain (mem : Descriptors) (hvCaps : BitVec 64) (nIov : Nat) (vq : VqueueInfo) : Got :=
  let idx := vq.lastAvail
  let ndesc := (vq.avail.idx - idx).toNat
  if ndesc = 0 then ⟨vq, 0, none, []⟩
  else if vq.qsize.toNat < ndesc then ⟨vq, -1, none, []⟩
  else
    let head := vq.avail.ring (idx &&& (vq.qsize - 1)).toNat
    let (ret, iov) :=
      chainWalk mem hvCaps vq.qsize nIov (vqMaxDescriptors + 1) 0 head.toNat []
    ⟨{ vq with lastAvail := vq.lastAvail + 1 }, ret, some head, iov⟩

def vqRetchains (vq : VqueueInfo) (nChains : BitVec 16) : VqueueInfo :=
  { vq with lastAvail := vq.lastAvail - nChains }

def vqRelchainPrepare (vq : VqueueInfo) (idx : BitVec 16) (iolen : BitVec 32) : VqueueInfo :=
  let mask := vq.qsize - 1
  { vq with
    used := { vq.used with
      ring := Function.update vq.used.ring (vq.nextUsed &&& mask).toNat ⟨idx.setWidth 32, iolen⟩ }
    nextUsed := vq.nextUsed + 1 }

def vqRelchainPublish (vq : VqueueInfo) : VqueueInfo :=
  { vq with used := { vq.used with idx := vq.nextUsed } }

/-- The queue's areas follow each other in the bytes that were mapped, what vq_getchain finds does
    not depend on descriptors and slots outside of them, and vq_relchain changes no slot outside
    of the used ring. -/
structure VqueueInfo.KeepsToAreas (base : Nat) (vq : VqueueInfo) : Prop where
  desc : (areas base vq.qsize.toNat).desc + 16 * vq.qsize.toNat ≤ (areas base vq.qsize.toNat).avail
  avail : (areas base vq.qsize.toNat).avail + 2 * (3 + vq.qsize.toNat) ≤
    (areas base vq.qsize.toNat).used
  used : (areas base vq.qsize.toNat).used + (2 * 3 + 8 * vq.qsize.toNat) ≤
    base + vringSize vq.qsize.toNat
  reads : ∀ (mem other : Descriptors) (hvCaps : BitVec 64) (nIov : Nat) (avail : VringAvail),
    other.indirect = mem.indirect → (∀ i < vq.qsize.toNat, other.desc i = mem.desc i) →
      avail.idx = vq.avail.idx → (∀ i < vq.qsize.toNat, avail.ring i = vq.avail.ring i) →
        vqGetchain other hvCaps nIov { vq with avail := avail } =
          { vqGetchain mem hvCaps nIov vq with
            vq := { (vqGetchain mem hvCaps nIov vq).vq with avail := avail } }
  writes : 0 < vq.qsize.toNat → ∀ (idx : BitVec 16) (iolen : BitVec 32) (i : Nat),
    (vqRelchainPrepare vq idx iolen).used.ring i ≠ vq.used.ring i → i < vq.qsize.toNat

theorem slot_inside {qsize : BitVec 16} (some_ : 0 < qsize.toNat) (idx : BitVec 16) :
    (idx &&& (qsize - 1)).toNat < qsize.toNat := by
  have masked : (idx &&& (qsize - 1)).toNat ≤ (qsize - 1).toNat := by
    rw [BitVec.toNat_and]
    exact Nat.and_le_right
  have last : (qsize - 1).toNat = qsize.toNat - 1 := by bv_omega
  omega

theorem chain_walk_inside {mem other : Descriptors} {qsize : BitVec 16}
    (indirect : other.indirect = mem.indirect) (same : ∀ i < qsize.toNat, other.desc i = mem.desc i)
    (hvCaps : BitVec 64) (nIov fuel i next : Nat) (iov : List VirtioDesc) :
    chainWalk other hvCaps qsize nIov fuel i next iov =
      chainWalk mem hvCaps qsize nIov fuel i next iov := by
  induction fuel generalizing i next iov with
  | zero => rfl
  | succ fuel ih =>
    unfold chainWalk
    by_cases outside : qsize.toNat ≤ next
    · rw [if_pos outside, if_pos outside]
    · have here : descWalk other hvCaps nIov i (other.desc next) iov =
          descWalk mem hvCaps nIov i (mem.desc next) iov := by
        rw [same next (Nat.lt_of_not_le outside)]
        unfold descWalk
        rw [indirect]
      rw [if_neg outside, if_neg outside]
      dsimp only
      rw [here, same next (Nat.lt_of_not_le outside)]
      simp only [ih]

theorem getchain_inside {mem other : Descriptors} {vq : VqueueInfo} {avail : VringAvail}
    (indirect : other.indirect = mem.indirect)
    (same : ∀ i < vq.qsize.toNat, other.desc i = mem.desc i) (idx : avail.idx = vq.avail.idx)
    (ring : ∀ i < vq.qsize.toNat, avail.ring i = vq.avail.ring i) (hvCaps : BitVec 64) (nIov : Nat) :
    vqGetchain other hvCaps nIov { vq with avail := avail } =
      { vqGetchain mem hvCaps nIov vq with
        vq := { (vqGetchain mem hvCaps nIov vq).vq with avail := avail } } := by
  unfold vqGetchain
  dsimp only
  rw [idx]
  by_cases none_ : (vq.avail.idx - vq.lastAvail).toNat = 0
  · rw [if_pos none_, if_pos none_]
  · rw [if_neg none_, if_neg none_]
    by_cases many : vq.qsize.toNat < (vq.avail.idx - vq.lastAvail).toNat
    · rw [if_pos many, if_pos many]
    · rw [if_neg many, if_neg many, ring _ (slot_inside (by omega) _),
        chain_walk_inside indirect same]

theorem areas_apart (pages : Nat) (vq : VqueueInfo) : vq.KeepsToAreas (pages * vringAlign) := by
  have page : 0 < vringAlign := by decide
  have avail := roundup2_le
    (pages * vringAlign + vq.qsize.toNat * 16 + (2 + vq.qsize.toNat + 1) * 2) page
  have used := roundup2_le (roundup2 (16 * vq.qsize.toNat + 2 * (3 + vq.qsize.toNat)) vringAlign +
    (2 * 3 + 8 * vq.qsize.toNat)) page
  have length : ∀ base, base + vq.qsize.toNat * 16 + (2 + vq.qsize.toNat + 1) * 2 =
      base + (16 * vq.qsize.toNat + 2 * (3 + vq.qsize.toNat)) := fun base => by omega
  have start : (areas (pages * vringAlign) vq.qsize.toNat).used =
      pages * vringAlign +
        roundup2 (16 * vq.qsize.toNat + 2 * (3 + vq.qsize.toNat)) vringAlign := by
    unfold areas
    rw [length, roundup2_page _ pages vringAlign page]
  constructor
  · exact Nat.le_of_eq (congrArg _ (Nat.mul_comm 16 vq.qsize.toNat))
  · show pages * vringAlign + vq.qsize.toNat * 16 + 2 * (3 + vq.qsize.toNat) ≤
      roundup2 (pages * vringAlign + vq.qsize.toNat * 16 + (2 + vq.qsize.toNat + 1) * 2) vringAlign
    refine Nat.le_trans (Nat.le_of_eq ?_) avail
    omega
  · show (areas (pages * vringAlign) vq.qsize.toNat).used + (2 * 3 + 8 * vq.qsize.toNat) ≤
      pages * vringAlign + vringSize vq.qsize.toNat
    unfold vringSize
    omega
  · intro mem other hvCaps nIov rings indirect same idx ring
    exact getchain_inside indirect same idx ring hvCaps nIov
  · intro some_ idx iolen i changed
    by_contra outside
    apply changed
    apply Function.update_of_ne
    rintro rfl
    exact outside (slot_inside some_ _)

end Virtio
