import Bhyve.Lib.Accounts
import Bhyve.Virtio.BlockRequests

/-!
The life of the requests of the virtio block device, from the turn that takes a chain to its
callback.
-/
namespace Vtblk
open ByteMemory Virtio BlockProc StepRuns Function
open Accounts (take_out)
open List hiding Mem

def Softc.live (s : Softc) : List Job := s.queued ++ s.running.map Prod.fst

def InsideDisk (size : Nat) (c : Chain) : Prop :=
  total c.data = 0 ∨ c.sector.toNat * 512 + total c.data ≤ size

/-- The data lie in sectors of the disk, or the host refuses to move them. -/
def Fits (size : Nat) (rdonly : Bool) (c : Chain) : Prop :=
  InsideDisk size c ∨ 2 ^ 63 ≤ (c.sector * vtblkBsize).toNat ∨
    (c.type = vbhOpWrite ∧ rdonly = true)

/-- A chain that the device can take: a header that it only reads, data in the direction of the
    operation, a status byte that it may write, and no live request for the same head. -/
structure Usable (s : Softc) (got : Got) (idx : BitVec 16) (first last : VirtioDesc) : Prop where
  few : 2 ≤ got.ret
  many : got.ret ≤ (blockifIovMax + 2 : Nat)
  head : got.pidx = some idx
  hdr : got.iov[0]? = some first
  final : got.iov[got.ret.toNat - 1]? = some last
  hdrRead : hasFlag first.flags vringDescFWrite = false
  hdrLen : first.len = 16
  statusLen : last.len = 1
  statusWrite : hasFlag last.flags vringDescFWrite = true
  direction : ∀ v ∈ (chainOf s.mem idx got.iov first last).data,
    hasFlag v.flags vringDescFWrite ≠ writeop (typeOf s.mem first)
  free : ∀ job ∈ s.live, job.idx ≠ idx.toNat
  fits : typeOf s.mem first = vbhOpRead ∨ typeOf s.mem first = vbhOpWrite →
    Fits s.disk.ctxt.size s.disk.ctxt.rdonly (chainOf s.mem idx got.iov first last)

/-- Chains are usable where they are taken, and the device is reset while no request is live. -/
def InOrder (s : Softc) : Event → Prop
  | .proc descs => vqHasDescs s.vq = true →
      ∃ idx first last, Usable s (getchain s descs) idx first last
  | .reset => s.live = []
  | _ => True

def Completed (s s' : Softc) (c : Chain) (err : BitVec 32) : Prop :=
  s'.mem c.status.toNat = statusOf err ∧
    s'.vq = vqRelchainPublish (vqRelchainPrepare s.vq c.head 1)

/-- Exactly the data of the chain went to or came from the sectors that it names. -/
def Transferred (disk : Disk) (mem : Mem) (c : Chain) (mem' data' : Mem) : Prop :=
  InsideDisk disk.ctxt.size c ∧
    (c.type = vbhOpRead → data' = disk.ctxt.data ∧ mem' =
      scatterTo mem (bytes c.data) fun k => disk.ctxt.data (c.sector.toNat * 512 + k)) ∧
    (c.type = vbhOpWrite → mem' = mem ∧ data' =
      copyInto disk.ctxt.data (c.sector.toNat * 512) (total c.data)
        (gatherFrom mem (bytes c.data)))

def opOf (type : BitVec 32) : BlockQueue.BlockOp :=
  if type = vbhOpRead then .read
  else if type = vbhOpWrite then .write
  else if type = vbhOpDiscard then .delete
  else .flush

def Took (s s' : Softc) (c : Chain) : Prop :=
  s'.chains = s.chains ++ [c] ∧
    ((s'.returned = s.returned ∧
        s'.queued = s.queued ++ [⟨c.head.toNat, opOf c.type, s.chains.length, s.epoch⟩]) ∨
      (s'.returned = s.returned ++ [s.chains.length] ∧ s'.queued = s.queued ∧
        c.type ≠ vbhOpRead ∧ c.type ≠ vbhOpWrite ∧
        ∃ err, Completed { s with vq := { s.vq with lastAvail := s.vq.lastAvail + 1 } } s' c err))

/-- What a step does: a turn takes the chain, and hands it to the backend or returns it; a worker
    moves the data of a chain if it reports no error; a callback returns the chain of a request that
    was taken after the last reset, with the status of its I/O. -/
def Effect (s : Softc) : Event → Softc → Prop
  | .proc descs, s' => vqHasDescs s.vq = true → ∃ idx first last,
      (getchain s descs).pidx = some idx ∧ (getchain s descs).iov[0]? = some first ∧
        (getchain s descs).iov[(getchain s descs).ret.toNat - 1]? = some last ∧
        Took s s' (chainOf s.mem idx (getchain s descs).iov first last)
  | .execute j _ _, s' => ∀ job, s.queued[j]? = some job →
      s.running.length + s.closing < BlockQueue.blockifNumthr →
      ∃ c err, s.chains[job.chain]? = some c ∧ s'.running = s.running ++ [(job, err)] ∧
        (c.type = vbhOpRead ∨ c.type = vbhOpWrite → err = 0 →
          Transferred s.disk s.mem c s'.mem s'.disk.ctxt.data)
  | .done j, s' => ∀ job err, s.running[j]? = some (job, err) →
      ∃ c, s.chains[job.chain]? = some c ∧ job.epoch = s.epoch ∧
        s'.returned = s.returned ++ [job.chain] ∧ Completed s s' c err
  | _, _ => True

def HasEffect (s : Softc) (e : Event) : Prop := ∃ s', step s e = .ok s' ∧ Effect s e s'

structure ServedBy (ios : Nat → Ioreq) (epoch size : Nat) (rdonly : Bool) (c : Chain)
    (job : Job) : Prop where
  head : c.head.toNat = job.idx
  small : job.idx < vtblkRingsz
  status : (ios job.idx).ioStatus = c.status
  current : job.epoch = epoch
  op : job.op = opOf c.type
  transfer : c.type = vbhOpRead ∨ c.type = vbhOpWrite →
    (ios job.idx).ioReq = ⟨c.data, c.sector * vtblkBsize, total c.data⟩ ∧ Fits size rdonly c

/-- Every chain that was taken has been returned once or is with one live request. -/
structure Settled (s : Softc) : Prop where
  size : s.vq.qsize = 128
  served : ∀ job ∈ s.live, ∃ c, s.chains[job.chain]? = some c ∧
    ServedBy s.ios s.epoch s.disk.ctxt.size s.disk.ctxt.rdonly c job
  apart : (s.live.map Job.idx).Nodup
  once : (s.returned ++ s.live.map Job.chain).Perm (List.range s.chains.length)
  workers : s.running.length + s.closing ≤ BlockQueue.blockifNumthr

section
variable {disk : Disk} {host : Nat → BitVec 32} {buf mem : Mem} {c : Chain} {r : Request}

theorem offset_inside (inside : c.sector.toNat * 512 + total c.data ≤ disk.ctxt.size) :
    (c.sector * vtblkBsize).toNat = c.sector.toNat * 512 := by
  have bound := disk.ctxt.size_lt
  exact Nat.mod_eq_of_lt (show c.sector.toNat * 512 < 2 ^ 64 by omega)

theorem inside_request (inside : InsideDisk disk.ctxt.size c) : total c.data = 0 ∨
    (c.sector * vtblkBsize).toNat + total c.data ≤ disk.ctxt.size := by
  obtain nothing | within := inside
  · exact .inl nothing
  · rw [offset_inside within]
    exact .inr within

theorem no_bytes {iov : List VirtioDesc} (nothing : total iov = 0) : bytes iov = [] :=
  eq_nil_of_length_eq_zero (by rw [bytes_length, nothing])

theorem execute_read (asked : r = ⟨c.data, c.sector * vtblkBsize, total c.data⟩)
    (type : c.type = vbhOpRead) (fits : Fits disk.ctxt.size disk.ctxt.rdonly c) :
    ∃ done, blockifProc disk host buf .read r mem = some done ∧
      (done.err = 0 → Transferred disk mem c done.mem done.data) := by
  subst asked
  have notWrite : c.type ≠ vbhOpWrite := by rw [type]; decide
  by_cases inside : InsideDisk disk.ctxt.size c
  · obtain ⟨done, ran, exactly⟩ := @proc_read_exact disk host buf
      ⟨c.data, c.sector * vtblkBsize, total c.data⟩ mem rfl (inside_request inside)
    refine ⟨done, ran, fun fine => ⟨inside, fun _ => ?_, fun writes => absurd writes notWrite⟩⟩
    obtain ⟨same, moved⟩ := exactly fine
    refine ⟨same, ?_⟩
    rw [moved]
    obtain nothing | within := inside
    · rw [no_bytes nothing]
      rfl
    · rw [offset_inside within]
  · have some_data : total c.data ≠ 0 := fun nothing => inside (.inl nothing)
    obtain within | negative | ⟨writes, -⟩ := fits
    · exact absurd within inside
    · obtain ⟨done, ran, failed⟩ := @proc_read_negative disk host buf
        ⟨c.data, c.sector * vtblkBsize, total c.data⟩ mem rfl some_data negative
      exact ⟨done, ran, fun fine => absurd fine failed⟩
    · exact absurd writes notWrite

theorem execute_write (asked : r = ⟨c.data, c.sector * vtblkBsize, total c.data⟩)
    (type : c.type = vbhOpWrite) (fits : Fits disk.ctxt.size disk.ctxt.rdonly c) :
    ∃ done, blockifProc disk host buf .write r mem = some done ∧
      (done.err = 0 → Transferred disk mem c done.mem done.data) := by
  subst asked
  have notRead : c.type ≠ vbhOpRead := by rw [type]; decide
  by_cases inside : InsideDisk disk.ctxt.size c
  · obtain ⟨done, ran, exactly⟩ := @proc_write_exact disk host
      ⟨c.data, c.sector * vtblkBsize, total c.data⟩ mem rfl (inside_request inside)
    refine ⟨done, ran, fun fine => ⟨inside, fun reads => absurd reads notRead, fun _ => ?_⟩⟩
    obtain ⟨same, moved⟩ := exactly fine
    refine ⟨same, ?_⟩
    rw [moved]
    obtain nothing | within := inside
    · rw [nothing]
      funext x
      unfold copyInto
      rw [if_neg (by omega), if_neg (by omega)]
    · rw [offset_inside within]
  · have some_data : total c.data ≠ 0 := fun nothing => inside (.inl nothing)
    obtain within | negative | ⟨-, readonly⟩ := fits
    · exact absurd within inside
    · obtain ⟨done, ran, failed⟩ := @proc_write_negative disk host
        ⟨c.data, c.sector * vtblkBsize, total c.data⟩ mem rfl some_data negative
      exact ⟨done, ran, fun fine => absurd fine failed⟩
    · exact ⟨_, proc_write_readonly readonly, fun fine => absurd fine (show erofs ≠ 0 by decide)⟩

theorem execute_served {ios : Nat → Ioreq} {epoch : Nat} {job : Job}
    (served : ServedBy ios epoch disk.ctxt.size disk.ctxt.rdonly c job) :
    ∃ done, blockifProc disk host buf job.op (ios job.idx).ioReq mem = some done ∧
      (c.type = vbhOpRead ∨ c.type = vbhOpWrite → done.err = 0 →
        Transferred disk mem c done.mem done.data) := by
  rw [served.op]
  unfold opOf
  by_cases reads : c.type = vbhOpRead
  · rw [if_pos reads]
    obtain ⟨asked, fits⟩ := served.transfer (.inl reads)
    obtain ⟨done, ran, exactly⟩ := @execute_read disk host buf mem c _ asked reads fits
    exact ⟨done, ran, fun _ => exactly⟩
  · rw [if_neg reads]
    by_cases writes : c.type = vbhOpWrite
    · rw [if_pos writes]
      obtain ⟨asked, fits⟩ := served.transfer (.inr writes)
      obtain ⟨done, ran, exactly⟩ := @execute_write disk host buf mem c _ asked writes fits
      exact ⟨done, ran, fun _ => exactly⟩
    · rw [if_neg writes]
      have neither : ¬ (c.type = vbhOpRead ∨ c.type = vbhOpWrite) := by
        rintro (reads' | writes')
        · exact reads reads'
        · exact writes writes'
      split
      · exact ⟨_, rfl, fun either => absurd either neither⟩
      · exact ⟨_, rfl, fun either => absurd either neither⟩

end

section
variable {s : Softc}

theorem settled_of_perm {t : Softc} (settled : Settled s) (perm : t.live.Perm s.live)
    (size : t.vq.qsize = 128) (ios : t.ios = s.ios) (epoch : t.epoch = s.epoch)
    (disk : t.disk.ctxt.size = s.disk.ctxt.size ∧ t.disk.ctxt.rdonly = s.disk.ctxt.rdonly)
    (chains : t.chains = s.chains) (returned : t.returned = s.returned)
    (workers : t.running.length + t.closing ≤ BlockQueue.blockifNumthr) : Settled t where
  size := size
  served job member := by
    rw [chains, ios, epoch, disk.1, disk.2]
    exact settled.served job (perm.mem_iff.mp member)
  apart := (perm.map Job.idx).nodup_iff.mpr settled.apart
  once := by
    rw [chains, returned]
    exact ((perm.map Job.chain).append_left _).trans settled.once
  workers := workers

theorem execute_effect (settled : Settled s) (j : Nat) (host : Nat → BitVec 32) (buf : Mem) :
    ∃ s', execute s j host buf = .ok s' ∧ Effect s (.execute j host buf) s' ∧ Settled s' := by
  unfold execute
  cases found : s.queued[j]? with
  | none =>
    refine ⟨s, rfl, fun job there => ?_, settled⟩
    rw [found] at there
    cases there
  | some job =>
    by_cases busy : BlockQueue.blockifNumthr ≤ s.running.length + s.closing
    · dsimp only
      rw [if_pos busy]
      exact ⟨s, rfl, fun _ _ idle => absurd idle (Nat.not_lt.mpr busy), settled⟩
    · have out := take_out found
      have member : job ∈ s.live :=
        mem_append_left _ (out.mem_iff.mp mem_cons_self)
      obtain ⟨c, chain, served⟩ := settled.served job member
      obtain ⟨done, ran, exactly⟩ := @execute_served s.disk host buf s.mem c s.ios s.epoch job served
      dsimp only
      rw [if_neg busy, ran]
      refine ⟨_, rfl, ?_, ?_⟩
      · intro job' there _
        rw [found] at there
        cases there
        exact ⟨c, done.err, chain, rfl, exactly⟩
      · have perm : (s.queued.eraseIdx j ++ (s.running ++ [(job, done.err)]).map Prod.fst).Perm
            s.live := by
          rw [map_append, map_singleton, ← List.append_assoc]
          refine (perm_append_singleton job _).trans ?_
          exact out.append_right (s.running.map Prod.fst)
        refine settled_of_perm settled perm settled.size rfl rfl ⟨rfl, rfl⟩ rfl rfl ?_
        show (s.running ++ [(job, done.err)]).length + s.closing ≤ _
        rw [length_append, length_singleton]
        omega

theorem done_effect (settled : Settled s) (j : Nat) :
    Effect s (.done j) (pciVtblkDone s j) ∧ Settled (pciVtblkDone s j) := by
  unfold pciVtblkDone
  cases found : s.running[j]? with
  | none =>
    refine ⟨fun job err there => ?_, settled⟩
    rw [found] at there
    cases there
  | some entry =>
    obtain ⟨job, err⟩ := entry
    have out := take_out found
    have perm : (job :: (s.queued ++ (s.running.eraseIdx j).map Prod.fst)).Perm s.live :=
      List.perm_middle.symm.trans ((out.map Prod.fst).append_left s.queued)
    obtain ⟨c, chain, served⟩ := settled.served job (perm.mem_iff.mp mem_cons_self)
    have apart := (perm.map Job.idx).nodup_iff.mpr settled.apart
    rw [map_cons, nodup_cons] at apart
    refine ⟨?_, ?_⟩
    · intro job' err' there
      rw [found] at there
      cases there
      refine ⟨c, chain, served.current, rfl, ?_, ?_⟩
      · show write8 s.mem (s.ios job.idx).ioStatus.toNat (statusOf err) c.status.toNat = _
        rw [served.status, write8_same]
      · show vqRelchainPublish (vqRelchainPrepare s.vq (BitVec.ofNat 16 job.idx) 1) = _
        rw [← served.head, BitVec.ofNat_toNat, BitVec.setWidth_eq]
    · refine ⟨settled.size, ?_, apart.2, ?_, ?_⟩
      · exact fun job' member => settled.served job' (perm.mem_iff.mp (mem_cons_of_mem _ member))
      · show (s.returned ++ [job.chain] ++
          (s.queued ++ (s.running.eraseIdx j).map Prod.fst).map Job.chain).Perm _
        rw [List.append_assoc]
        exact ((perm.map Job.chain).append_left s.returned).trans settled.once
      · have length := out.length_eq
        rw [length_cons] at length
        have workers := settled.workers
        show (s.running.eraseIdx j).length + (s.closing + 1) ≤ _
        omega

end

section
variable {s t : Softc} {c : Chain} {n : Nat}

/-- The chain with number n has its slot, and is neither live nor returned yet. -/
structure Accepting (t : Softc) (c : Chain) (n : Nat) : Prop where
  size : t.vq.qsize = 128
  chain : t.chains[n]? = some c
  small : c.head.toNat < vtblkRingsz
  status : (t.ios c.head.toNat).ioStatus = c.status
  served : ∀ job ∈ t.live, ∃ c', t.chains[job.chain]? = some c' ∧
    ServedBy t.ios t.epoch t.disk.ctxt.size t.disk.ctxt.rdonly c' job
  apart : (c.head.toNat :: t.live.map Job.idx).Nodup
  once : (t.returned ++ n :: t.live.map Job.chain).Perm (List.range t.chains.length)
  workers : t.running.length + t.closing ≤ BlockQueue.blockifNumthr

theorem filled_accepting (settled : Settled s) {vq : VqueueInfo} (size : vq.qsize = 128)
    (small : c.head.toNat < vtblkRingsz) (free : ∀ job ∈ s.live, job.idx ≠ c.head.toNat) :
    Accepting (filled { s with vq := vq } c) c s.chains.length where
  size := size
  chain := getElem?_concat_length
  small := small
  status := by
    show (update s.ios c.head.toNat _ c.head.toNat).ioStatus = c.status
    rw [update_self]
  served := by
    intro job member
    obtain ⟨c', chain, served⟩ := settled.served job member
    have same : (filled { s with vq := vq } c).ios job.idx = s.ios job.idx :=
      update_of_ne (free job member) _ _
    have kept : (s.chains ++ [c])[job.chain]? = some c' := by
      rw [getElem?_append_left (List.getElem?_eq_some_iff.mp chain).1]
      exact chain
    exact ⟨c', kept, { served with
      status := by rw [same]; exact served.status
      transfer := fun asked => by rw [same]; exact served.transfer asked }⟩
  apart := by
    refine List.nodup_cons.mpr ⟨fun there => ?_, settled.apart⟩
    obtain ⟨job, member, same⟩ := List.mem_map.mp there
    exact free job member same
  once := by
    show (s.returned ++ s.chains.length :: s.live.map Job.chain).Perm
      (List.range (s.chains ++ [c]).length)
    rw [length_append, length_singleton, range_succ]
    exact List.perm_middle.trans ((settled.once.cons _).trans (perm_append_singleton _ _).symm)
  workers := settled.workers

theorem done_accepting (accepting : Accepting t c n) (err : BitVec 32) :
    Settled (pciVtblkDoneLocked t c.head.toNat n err) where
  size := accepting.size
  served := accepting.served
  apart := (List.nodup_cons.mp accepting.apart).2
  once := by
    show (t.returned ++ [n] ++ t.live.map Job.chain).Perm _
    rw [List.append_assoc]
    exact accepting.once
  workers := accepting.workers

theorem done_completed (accepting : Accepting t c n) (err : BitVec 32) :
    Completed t (pciVtblkDoneLocked t c.head.toNat n err) c err := by
  constructor
  · show write8 t.mem (t.ios c.head.toNat).ioStatus.toNat (statusOf err) c.status.toNat = _
    rw [accepting.status, write8_same]
  · show vqRelchainPublish (vqRelchainPrepare t.vq (BitVec.ofNat 16 c.head.toNat) 1) = _
    rw [BitVec.ofNat_toNat, BitVec.setWidth_eq]

theorem room_accepting (accepting : Accepting t c n) : t.outstanding < BlockQueue.blockifMaxreq := by
  have inside : c.head.toNat :: t.live.map Job.idx ⊆ List.range vtblkRingsz := by
    intro idx member
    rw [mem_range]
    obtain rfl | other := List.mem_cons.mp member
    · exact accepting.small
    · obtain ⟨job, there, rfl⟩ := List.mem_map.mp other
      obtain ⟨c', -, served⟩ := accepting.served job there
      exact served.small
  have counted := accepting.apart.length_le_of_subset inside
  have workers := accepting.workers
  have length : t.live.length = t.queued.length + t.running.length := by
    rw [Softc.live, length_append, length_map]
  rw [length_cons, length_map, length_range, length] at counted
  unfold vtblkRingsz at counted
  unfold BlockQueue.blockifNumthr at workers
  show t.queued.length + t.running.length + t.closing < 136
  omega

/-- A read or a write has its vectors in its element. -/
def Transfers (t : Softc) (c : Chain) : Prop :=
  c.type = vbhOpRead ∨ c.type = vbhOpWrite →
    (t.ios c.head.toNat).ioReq = ⟨c.data, c.sector * vtblkBsize, total c.data⟩ ∧
      Fits t.disk.ctxt.size t.disk.ctxt.rdonly c

theorem request_accepting (accepting : Accepting t c n) (transfer : Transfers t c) :
    ∃ s', request t c.head.toNat n (opOf c.type) = .ok s' ∧ Settled s' ∧
      s'.chains = t.chains ∧ s'.returned = t.returned ∧
      s'.queued = t.queued ++ [⟨c.head.toNat, opOf c.type, n, t.epoch⟩] := by
  unfold request
  rw [if_pos (room_accepting accepting)]
  refine ⟨_, rfl, ?_, rfl, rfl, rfl⟩
  have perm : (t.queued ++ [Job.mk c.head.toNat (opOf c.type) n t.epoch] ++
      t.running.map Prod.fst).Perm (Job.mk c.head.toNat (opOf c.type) n t.epoch :: t.live) := by
    rw [List.append_assoc]
    exact perm_middle
  refine ⟨accepting.size, ?_, ?_, ?_, accepting.workers⟩
  · intro job member
    obtain rfl | old := List.mem_cons.mp (perm.mem_iff.mp member)
    · exact ⟨c, accepting.chain, ⟨rfl, accepting.small, accepting.status, rfl, rfl, transfer⟩⟩
    · exact accepting.served job old
  · exact (perm.map Job.idx).nodup_iff.mpr accepting.apart
  · exact ((perm.map Job.chain).append_left t.returned).trans accepting.once

def Handled (t s' : Softc) (c : Chain) (n : Nat) : Prop :=
  Settled s' ∧ s'.chains = t.chains ∧
    ((s'.returned = t.returned ∧
        s'.queued = t.queued ++ [⟨c.head.toNat, opOf c.type, n, t.epoch⟩]) ∨
      (s'.returned = t.returned ++ [n] ∧ s'.queued = t.queued ∧
        c.type ≠ vbhOpRead ∧ c.type ≠ vbhOpWrite ∧ ∃ err, Completed t s' c err))

section
variable (accepting : Accepting t c n)
include accepting

theorem done_handled (err : BitVec 32) (neither : c.type ≠ vbhOpRead ∧ c.type ≠ vbhOpWrite) :
    Handled t (pciVtblkDoneLocked t c.head.toNat n err) c n :=
  ⟨done_accepting accepting err, rfl, .inr ⟨rfl, rfl, neither.1, neither.2, err,
    done_completed accepting err⟩⟩

theorem request_handled (transfer : Transfers t c) :
    ∃ s', request t c.head.toNat n (opOf c.type) = .ok s' ∧ Handled t s' c n := by
  obtain ⟨s', ran, settled, chains, returned, queued⟩ := request_accepting accepting transfer
  exact ⟨s', ran, settled, chains, .inl ⟨returned, queued⟩⟩

theorem refilled_accepting (req : Request) :
    Accepting { t with
      ios := update t.ios c.head.toNat { t.ios c.head.toNat with ioReq := req } } c n where
  size := accepting.size
  chain := accepting.chain
  small := accepting.small
  status := by
    show (update t.ios c.head.toNat _ c.head.toNat).ioStatus = c.status
    rw [update_self]
    exact accepting.status
  served := by
    intro job member
    obtain ⟨c', chain, served⟩ := accepting.served job member
    have away : job.idx ≠ c.head.toNat := by
      intro same
      exact (List.nodup_cons.mp accepting.apart).1 (List.mem_map.mpr ⟨job, member, same⟩)
    refine ⟨c', chain, { served with status := ?_, transfer := ?_ }⟩
    · dsimp only
      rw [update_of_ne away]
      exact served.status
    · intro asked
      dsimp only
      rw [update_of_ne away]
      exact served.transfer asked
  apart := accepting.apart
  once := accepting.once
  workers := accepting.workers

theorem stamped_accepting (mem : Mem) : Accepting { t with mem := mem } c n :=
  ⟨accepting.size, accepting.chain, accepting.small, accepting.status, accepting.served,
    accepting.apart, accepting.once, accepting.workers⟩

theorem discard_handled (discards : c.type = vbhOpDiscard) (second : VirtioDesc) :
    ∃ s', procDiscard t c.head.toNat n second = .ok s' ∧ Handled t s' c n := by
  have neither : c.type ≠ vbhOpRead ∧ c.type ≠ vbhOpWrite := by
    rw [discards]
    decide
  unfold procDiscard
  dsimp only
  split
  · exact ⟨_, rfl, done_handled accepting _ neither⟩
  · split
    · exact ⟨_, rfl, done_handled accepting _ neither⟩
    · split
      · exact ⟨_, rfl, done_handled accepting _ neither⟩
      · have op : opOf c.type = .delete := by
          rw [discards]
          rfl
        rw [← op]
        obtain ⟨s', ran, handled⟩ := request_handled (refilled_accepting accepting _)
          fun either => absurd either (not_or.mpr neither)
        exact ⟨s', ran, handled⟩

theorem dispatch_handled (second : VirtioDesc) (transfer : Transfers t c) :
    ∃ s', dispatch t c.head.toNat n c.type second = .ok s' ∧ Handled t s' c n := by
  obtain ⟨s', ran, handled⟩ := request_handled accepting transfer
  unfold dispatch
  unfold opOf at ran
  by_cases reads : c.type = vbhOpRead
  · rw [if_pos reads] at ran ⊢
    exact ⟨s', ran, handled⟩
  · rw [if_neg reads] at ran ⊢
    by_cases writes : c.type = vbhOpWrite
    · rw [if_pos writes] at ran ⊢
      exact ⟨s', ran, handled⟩
    · rw [if_neg writes] at ran ⊢
      by_cases discards : c.type = vbhOpDiscard
      · rw [if_pos discards]
        exact discard_handled accepting discards second
      · rw [if_neg discards] at ran ⊢
        split
        · exact ⟨s', ran, handled⟩
        · split
          · exact ⟨_, rfl, done_handled (stamped_accepting accepting _) 0 ⟨reads, writes⟩⟩
          · exact ⟨_, rfl, done_handled accepting _ ⟨reads, writes⟩⟩

end

theorem proc_effect (settled : Settled s) {descs : Descriptors} {idx : BitVec 16}
    {first last : VirtioDesc} (usable : Usable s (getchain s descs) idx first last) :
    ∃ s', pciVtblkProc s descs = .ok s' ∧ Settled s' ∧
      Took s s' (chainOf s.mem idx (getchain s descs).iov first last) := by
  have few := usable.few
  have many := usable.many
  obtain ⟨⟨idx', head, inside⟩, length, vq⟩ := @getchain_some descs vtblkSHostcaps
    (blockifIovMax + 2) s.vq (Int.le_trans (by decide) few)
  have same : idx' = idx := Option.some.inj (head.symm.trans usable.head)
  rw [same, settled.size] at inside
  have small : idx.toNat < vtblkRingsz := inside
  have short : 1 < (getchain s descs).iov.length := by
    unfold getchain
    rw [length]
    unfold getchain blockifIovMax at few
    unfold blockifIovMax
    omega
  have second := List.getElem?_eq_getElem short
  have allowed : ((chainOf s.mem idx (getchain s descs).iov first last).data.any fun v =>
      hasFlag v.flags vringDescFWrite ==
        writeop (chainOf s.mem idx (getchain s descs).iov first last).type) = false := by
    rw [List.any_eq_false]
    intro v member equal
    exact usable.direction v member (beq_iff_eq.mp equal)
  have header : ¬ (hasFlag first.flags vringDescFWrite = true ∨ first.len ≠ 16 ∨ last.len ≠ 1 ∨
      hasFlag last.flags vringDescFWrite = false) := by
    rw [usable.hdrRead, usable.hdrLen, usable.statusLen, usable.statusWrite]
    decide
  have accepting := @filled_accepting s (chainOf s.mem idx (getchain s descs).iov first last)
    settled (getchain s descs).vq (by unfold getchain; rw [vq]; exact settled.size) small usable.free
  obtain ⟨s', ran, settled', chains, handled⟩ := dispatch_handled accepting
    ((getchain s descs).iov[1]) (fun asked => ⟨by
      show (update s.ios _ _ _).ioReq = _
      rw [update_self], usable.fits asked⟩)
  refine ⟨s', ?_, settled', chains, ?_⟩
  · unfold pciVtblkProc
    rw [if_neg (not_or.mpr ⟨Int.not_lt.mpr few, Int.not_lt.mpr many⟩), usable.head, usable.hdr,
      second, usable.final]
    dsimp only
    rw [if_neg (Nat.not_le.mpr small), if_neg header, if_neg (by rw [allowed]; decide)]
    exact ran
  · have moved : (getchain s descs).vq = { s.vq with lastAvail := s.vq.lastAvail + 1 } := vq
    obtain queued | ⟨returned, kept, notRead, notWrite, err, status, ring⟩ := handled
    · exact .inl queued
    · refine .inr ⟨returned, kept, notRead, notWrite, err, status, ?_⟩
      rw [← moved]
      exact ring

end

section
variable {s : Softc}

theorem step_effect (settled : Settled s) (e : Event) (order : InOrder s e) :
    ∃ s', step s e = .ok s' ∧ Effect s e s' ∧ Settled s' := by
  cases e with
  | driver avail mem =>
    exact ⟨_, rfl, trivial, ⟨settled.size, settled.served, settled.apart, settled.once,
      settled.workers⟩⟩
  | proc descs =>
    unfold step
    dsimp only
    by_cases ready : vqHasDescs s.vq = true
    · rw [if_pos ready]
      obtain ⟨idx, first, last, usable⟩ := order ready
      obtain ⟨s', ran, settled', took⟩ := proc_effect settled usable
      exact ⟨s', ran, fun _ => ⟨idx, first, last, usable.head, usable.hdr, usable.final, took⟩,
        settled'⟩
    · rw [if_neg ready]
      exact ⟨s, rfl, fun never => absurd never ready, settled⟩
  | execute j host buf => exact execute_effect settled j host buf
  | done j =>
    obtain ⟨effect, settled'⟩ := done_effect settled j
    exact ⟨_, rfl, effect, settled'⟩
  | complete =>
    refine ⟨_, rfl, trivial, ⟨settled.size, settled.served, settled.apart, settled.once, ?_⟩⟩
    have workers := settled.workers
    show s.running.length + (s.closing - 1) ≤ _
    omega
  | reset =>
    refine ⟨_, rfl, trivial, ⟨settled.size, ?_, settled.apart, settled.once, settled.workers⟩⟩
    intro job member
    have nothing : s.live = [] := order
    have there : job ∈ s.live := member
    rw [nothing] at there
    cases there
  | init avail used =>
    exact ⟨_, rfl, trivial, ⟨settled.size, settled.served, settled.apart, settled.once,
      settled.workers⟩⟩

theorem init_settled (disk : Disk) (ident mem : Mem) (avail : VringAvail) (used : VringUsed) :
    Settled (pciVtblkInit disk ident mem avail used) where
  size := rfl
  served job member := by cases member
  apart := nodup_nil
  once := List.Perm.refl _
  workers := Nat.zero_le _

/-- In every run whose chains are usable where they are taken, and whose resets find no request
    live, no assertion fails, each step does what it is for, and every chain that was taken has been
    returned once or is with one live request of its own. -/
theorem requests_served (disk : Disk) (ident mem : Mem) (avail : VringAvail) (used : VringUsed)
    (events : List Event)
    (order : AlongAttempts step InOrder (pciVtblkInit disk ident mem avail used) events) :
    (∃ s', attempts step (pciVtblkInit disk ident mem avail used) events = .ok s' ∧ Settled s') ∧
      AlongAttempts step HasEffect (pciVtblkInit disk ident mem avail used) events := by
  have start := init_settled disk ident mem avail used
  constructor
  · refine attempts_succeed ?_ events _ start order
    intro s e settled order
    obtain ⟨s', ran, -, settled'⟩ := step_effect settled e order
    exact ⟨s', ran, settled'⟩
  · refine along_attempts_of_invariant ?_ ?_ events _ start order
    · intro s e s' settled order ran
      obtain ⟨t, ran', -, settled'⟩ := step_effect settled e order
      rw [ran] at ran'
      cases ran'
      exact settled'
    · intro s e settled order
      obtain ⟨s', ran, effect, -⟩ := step_effect settled e order
      exact ⟨s', ran, effect⟩

def twoSectors : Disk := ⟨BlockIf.blankDisk 1024 (by decide), false, false, false, 4096, by decide⟩

def emptyUsed : VringUsed := ⟨0, 0, fun _ => ⟨0, 0⟩⟩

def availUpTo (idx : BitVec 16) : VringAvail := ⟨0, idx, fun _ => 0⟩

def readChain : Descriptors where
  desc i := if i = 0 then ⟨0, 16, 1, 1⟩ else if i = 1 then ⟨64, 512, 3, 2⟩ else ⟨1024, 1, 2, 0⟩
  indirect _ _ := ⟨0, 0, 0, 0⟩

def headerOnly : Descriptors where
  desc _ := ⟨0, 16, 0, 0⟩
  indirect _ _ := ⟨0, 0, 0, 0⟩

def noMemory : Mem := fun _ => 0

def oneRead : List Event :=
  [.init (availUpTo 0) emptyUsed, .driver (availUpTo 1) noMemory, .proc readChain,
    .execute 0 (fun _ => 0) noMemory, .done 0, .complete, .reset]

def ready : Softc := pciVtblkInit twoSectors noMemory noMemory (availUpTo 0) emptyUsed

theorem requests_served_one : (∃ s', attempts step ready oneRead = .ok s' ∧ Settled s') ∧
      AlongAttempts step HasEffect ready oneRead := by
  refine requests_served twoSectors noMemory noMemory (availUpTo 0) emptyUsed oneRead ?_
  refine along_attempts_cons trivial rfl ?_
  refine along_attempts_cons trivial rfl ?_
  refine along_attempts_cons ?_ rfl ?_
  · intro _
    refine ⟨0, ⟨0, 16, 1, 1⟩, ⟨1024, 1, 2, 0⟩, ?_⟩
    constructor
    · decide
    · decide
    · rfl
    · rfl
    · rfl
    · rfl
    · rfl
    · rfl
    · rfl
    · decide
    · intro job member
      cases member
    · exact fun _ => .inl (.inr (by decide))
  · refine along_attempts_cons trivial rfl ?_
    refine along_attempts_cons trivial rfl ?_
    refine along_attempts_cons trivial rfl ?_
    exact along_attempts_last_step rfl

theorem short_chain_asserts :
    attempts step ready [.init (availUpTo 0) emptyUsed, .driver (availUpTo 1) noMemory,
      .proc headerOnly] = .error .asserted := by
  rfl

end

end Vtblk
