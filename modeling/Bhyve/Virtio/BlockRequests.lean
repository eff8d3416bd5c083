import Bhyve.Block.Proc

/-!
The requests of pci_virtio_block.c. The backend holds a request as queued, as running once its I/O
is over, and as an element that waits for blockif_complete once it has been called back; any queued
request may be run next. The guest may write to its memory and to the ring of available chains at
any time; a turn of the loop in pci_vtblk_notify is one step. The chains taken and returned are kept
beside the state. paddr_guest2host maps every address of a descriptor; interrupts are left out.
-/
namespace Vtblk
open ByteMemory Virtio BlockProc

def vtblkBsize : BitVec 64 := 512
def vtblkRingsz : Nat := 128
def blockifIovMax : Nat := 128
def vtblkSOk : BitVec 8 := 0
def vtblkSIoerr : BitVec 8 := 1
def vtblkSUnsupp : BitVec 8 := 2
def vtblkBlkIdBytes : Nat := 21
def vtblkMaxDiscardSect : BitVec 32 := 32768
def vtblkSHostcaps : BitVec 64 := 0x644 ||| virtioRingFIndirectDesc
def vringDescFWrite : BitVec 16 := 0x2

def vbhOpRead : BitVec 32 := 0
def vbhOpWrite : BitVec 32 := 1
def vbhOpFlush : BitVec 32 := 4
def vbhOpFlushOut : BitVec 32 := 5
def vbhOpIdent : BitVec 32 := 8
def vbhOpDiscard : BitVec 32 := 11
def vbhFlagBarrier : BitVec 32 := 0x80000000

def enosys : BitVec 32 := 78
def enotsup : BitVec 32 := 45

structure Ioreq where
  ioReq : Request
  ioStatus : BitVec 64

structure Job where
  idx : Nat
  op : BlockQueue.BlockOp
  chain : Nat
  epoch : Nat

structure Chain where
  head : BitVec 16
  type : BitVec 32
  sector : BitVec 64
  data : List VirtioDesc
  status : BitVec 64

structure Softc where
  vq : VqueueInfo
  ios : Nat → Ioreq
  ident : Mem
  disk : Disk
  mem : Mem
  queued : List Job
  running : List (Job × BitVec 32)
  closing : Nat
  epoch : Nat
  chains : List Chain
  returned : List Nat

inductive Stop where
  | asserted
  | outside
  deriving DecidableEq

def statusOf (err : BitVec 32) : BitVec 8 :=
  if err = eopnotsupp ∨ err = enosys then vtblkSUnsupp
  else if err ≠ 0 then vtblkSIoerr
  else vtblkSOk

variable (s : Softc)

def pciVtblkDoneLocked (idx chain : Nat) (err : BitVec 32) : Softc :=
  { s with
    mem := write8 s.mem (s.ios idx).ioStatus.toNat (statusOf err)
    vq := vqRelchainPublish (vqRelchainPrepare s.vq (BitVec.ofNat 16 idx) 1)
    returned := s.returned ++ [chain] }

def Softc.outstanding (s : Softc) : Nat := s.queued.length + s.running.length + s.closing

def request (idx chain : Nat) (op : BlockQueue.BlockOp) : Except Stop Softc :=
  if s.outstanding < BlockQueue.blockifMaxreq then
    .ok { s with queued := s.queued ++ [⟨idx, op, chain, s.epoch⟩] }
  else .error .asserted

def typeOf (mem : Mem) (hdr : VirtioDesc) : BitVec 32 :=
  read32 mem hdr.addr.toNat &&& ~~~vbhFlagBarrier

def sectorOf (mem : Mem) (hdr : VirtioDesc) : BitVec 64 := read64 mem (hdr.addr.toNat + 8)

def writeop (type : BitVec 32) : Bool := decide (type = vbhOpWrite ∨ type = vbhOpDiscard)

def procDiscard (idx chain : Nat) (second : VirtioDesc) : Except Stop Softc :=
  let discard := second.addr.toNat
  if second.len ≠ 16 then .ok (pciVtblkDoneLocked s idx chain BlockIf.einval)
  else if read32 s.mem (discard + 12) ≠ 0 then .ok (pciVtblkDoneLocked s idx chain enotsup)
  else if vtblkMaxDiscardSect < read32 s.mem (discard + 8) then
    .ok (pciVtblkDoneLocked s idx chain BlockIf.einval)
  else
    let io := s.ios idx
    let req := { io.ioReq with
      brOffset := read64 s.mem discard * vtblkBsize
      brResid := (read32 s.mem (discard + 8)).toNat * 512 }
    request { s with ios := Function.update s.ios idx { io with ioReq := req } } idx chain .delete

def procIdent (idx chain : Nat) (second : VirtioDesc) : Softc :=
  pciVtblkDoneLocked
    { s with mem := copyInto s.mem second.addr.toNat second.len.toNat fun j =>
        if j < vtblkBlkIdBytes then s.ident j else 0 } idx chain 0

def dispatch (idx chain : Nat) (type : BitVec 32) (second : VirtioDesc) : Except Stop Softc :=
  if type = vbhOpRead then request s idx chain .read
  else if type = vbhOpWrite then request s idx chain .write
  else if type = vbhOpDiscard then procDiscard s idx chain second
  else if type = vbhOpFlush ∨ type = vbhOpFlushOut then request s idx chain .flush
  else if type = vbhOpIdent then .ok (procIdent s idx chain second)
  else .ok (pciVtblkDoneLocked s idx chain eopnotsupp)

def filled (c : Chain) : Softc :=
  { s with
    ios := Function.update s.ios c.head.toNat
      ⟨⟨c.data, c.sector * vtblkBsize, total c.data⟩, c.status⟩
    chains := s.chains ++ [c] }

def getchain (descs : Descriptors) : Got :=
  vqGetchain descs vtblkSHostcaps (blockifIovMax + 2) s.vq

def chainOf (mem : Mem) (idx : BitVec 16) (iov : List VirtioDesc) (first last : VirtioDesc) :
    Chain :=
  { head := idx
    type := typeOf mem first
    sector := sectorOf mem first
    data := (iov.drop 1).dropLast
    status := last.addr }

def pciVtblkProc (descs : Descriptors) : Except Stop Softc :=
  let got := getchain s descs
  let n := got.ret.toNat
  if got.ret < 2 ∨ (blockifIovMax + 2 : Nat) < got.ret then .error .asserted
  else
    match got.pidx, got.iov[0]?, got.iov[1]?, got.iov[n - 1]? with
    | some idx, some first, some second, some last =>
        let c := chainOf s.mem idx got.iov first last
        if vtblkRingsz ≤ idx.toNat then .error .outside
        else if hasFlag first.flags vringDescFWrite = true ∨ first.len ≠ 16 ∨ last.len ≠ 1 ∨
            hasFlag last.flags vringDescFWrite = false then .error .asserted
        else if c.data.any fun v => hasFlag v.flags vringDescFWrite == writeop c.type then
          .error .asserted
        else
          dispatch (filled { s with vq := got.vq } c) idx.toNat s.chains.length c.type second
    | _, _, _, _ => .error .outside

def vqHasDescs (vq : VqueueInfo) : Bool :=
  hasFlag vq.flags vqAlloc && decide (vq.lastAvail ≠ vq.avail.idx)

inductive Event where
  | driver (avail : VringAvail) (mem : Mem)
  | proc (descs : Descriptors)
  | execute (j : Nat) (host : Nat → BitVec 32) (buf : Mem)
  | done (j : Nat)
  | complete
  | reset
  | init (avail : VringAvail) (used : VringUsed)

def execute (j : Nat) (host : Nat → BitVec 32) (buf : Mem) : Except Stop Softc :=
  match s.queued[j]? with
  | none => .ok s
  | some job =>
      if BlockQueue.blockifNumthr ≤ s.running.length + s.closing then .ok s
      else
        match blockifProc s.disk host buf job.op (s.ios job.idx).ioReq s.mem with
        | none => .error .outside
        | some d => .ok { s with
            mem := d.mem
            disk := { s.disk with ctxt := { s.disk.ctxt with data := d.data } }
            queued := s.queued.eraseIdx j
            running := s.running ++ [(job, d.err)] }

def pciVtblkDone (j : Nat) : Softc :=
  match s.running[j]? with
  | none => s
  | some (job, err) =>
      let s := { s with running := s.running.eraseIdx j, closing := s.closing + 1 }
      pciVtblkDoneLocked s job.idx job.chain err

def viResetDev (vq : VqueueInfo) : VqueueInfo :=
  { vq with flags := 0, lastAvail := 0, nextUsed := 0, saveUsed := 0 }

def step (s : Softc) : Event → Except Stop Softc
  | .driver avail mem => .ok { s with vq := { s.vq with avail := avail }, mem := mem }
  | .proc descs => if vqHasDescs s.vq then pciVtblkProc s descs else .ok s
  | .execute j host buf => execute s j host buf
  | .done j => .ok (pciVtblkDone s j)
  | .complete => .ok { s with closing := s.closing - 1 }
  | .reset => .ok { s with vq := viResetDev s.vq, epoch := s.epoch + 1 }
  | .init avail used => .ok { s with vq := viVqInit { s.vq with avail := avail, used := used } }

def pciVtblkInit (disk : Disk) (ident mem : Mem) (avail : VringAvail) (used : VringUsed) : Softc :=
  { vq := ⟨128, 0, 0, 0, 0, avail, used⟩
    ios := fun _ => ⟨⟨[], 0, 0⟩, 0⟩
    ident := ident
    disk := disk
    mem := mem
    queued := []
    running := []
    closing := 0
    epoch := 0
    chains := []
    returned := [] }

theorem record_length {i nIov : Nat} {v : VirtioDesc} {iov : List VirtioDesc}
    (length : iov.length = min i nIov) : (vqRecord i nIov v iov).length = min (i + 1) nIov := by
  unfold vqRecord
  split
  · omega
  · rw [List.length_append, List.length_singleton]
    omega

theorem indirect_walk_length {table : Nat → VirtioDesc} {nIndir nIov : Nat} (fuel i next : Nat)
    (iov : List VirtioDesc) (length : iov.length = min i nIov) {n : Nat} {got : List VirtioDesc}
    (walked : indirectWalk table nIndir nIov fuel i next iov = .done n got) :
    got.length = min n nIov := by
  induction fuel generalizing i next iov with
  | zero => cases walked
  | succ fuel ih =>
    unfold indirectWalk at walked
    dsimp only at walked
    split at walked
    · cases walked
    · split at walked
      · cases walked
      · split at walked
        · cases walked
          exact record_length length
        · split at walked
          · cases walked
          · exact ih _ _ _ (record_length length) walked

theorem desc_walk_length {descs : Descriptors} {hvCaps : BitVec 64} {nIov i : Nat}
    {vdir : VirtioDesc} {iov : List VirtioDesc} (length : iov.length = min i nIov) {n : Nat}
    {got : List VirtioDesc} (walked : descWalk descs hvCaps nIov i vdir iov = .done n got) :
    got.length = min n nIov := by
  unfold descWalk at walked
  dsimp only at walked
  split at walked
  · cases walked
    exact record_length length
  · split at walked
    · cases walked
    · split at walked
      · cases walked
      · exact indirect_walk_length _ _ _ _ length walked

theorem chain_walk_length {descs : Descriptors} {hvCaps : BitVec 64} {qsize : BitVec 16}
    {nIov : Nat} (fuel i next : Nat) (iov : List VirtioDesc) (length : iov.length = min i nIov)
    (counted : 0 ≤ (chainWalk descs hvCaps qsize nIov fuel i next iov).1) :
    (chainWalk descs hvCaps qsize nIov fuel i next iov).2.length =
        min (chainWalk descs hvCaps qsize nIov fuel i next iov).1.toNat nIov ∧
      next < qsize.toNat := by
  induction fuel generalizing i next iov with
  | zero => exact absurd counted (show ¬ (0 : Int) ≤ -1 by decide)
  | succ fuel ih =>
    unfold chainWalk at counted ⊢
    split at counted
    · exact absurd counted (show ¬ (0 : Int) ≤ -1 by decide)
    · rename_i few
      rw [if_neg few]
      split at counted
      · exact absurd counted (show ¬ (0 : Int) ≤ -1 by decide)
      · rename_i inside
        rw [if_neg inside]
        dsimp only at counted ⊢
        refine ⟨?_, Nat.lt_of_not_le inside⟩
        cases walked : descWalk descs hvCaps nIov i (descs.desc next) iov with
        | confused got =>
          rw [walked] at counted
          exact absurd counted (show ¬ (0 : Int) ≤ -1 by decide)
        | done n got =>
          rw [walked] at counted
          have here := desc_walk_length length walked
          dsimp only at counted ⊢
          split at counted
          · rename_i last
            rw [if_pos last]
            exact here
          · rename_i more
            rw [if_neg more]
            exact (ih _ _ _ here counted).1

theorem getchain_some {descs : Descriptors} {hvCaps : BitVec 64} {nIov : Nat} {vq : VqueueInfo}
    (counted : 1 ≤ (vqGetchain descs hvCaps nIov vq).ret) :
    (∃ idx, (vqGetchain descs hvCaps nIov vq).pidx = some idx ∧ idx.toNat < vq.qsize.toNat) ∧
      (vqGetchain descs hvCaps nIov vq).iov.length =
        min (vqGetchain descs hvCaps nIov vq).ret.toNat nIov ∧
      (vqGetchain descs hvCaps nIov vq).vq = { vq with lastAvail := vq.lastAvail + 1 } := by
  unfold vqGetchain at counted ⊢
  dsimp only at counted ⊢
  split at counted
  · exact absurd counted (show ¬ (1 : Int) ≤ 0 by decide)
  · rename_i some_left
    rw [if_neg some_left]
    split at counted
    · exact absurd counted (show ¬ (1 : Int) ≤ -1 by decide)
    · rename_i few
      rw [if_neg few]
      obtain ⟨length, inside⟩ := chain_walk_length (vqMaxDescriptors + 1) 0 _ []
        (Nat.zero_min nIov).symm (Int.le_trans (by decide) counted)
      exact ⟨⟨_, rfl, inside⟩, length, rfl⟩

end Vtblk
