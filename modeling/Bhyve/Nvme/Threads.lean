import Bhyve.Nvme.Controller

/-!
The controller at work: the threads that write doorbells, each in its loop over a submission queue,
and the threads of the block device that end requests. A step is what a thread does between two
points at which the others can come in. For the statements only, resets are counted, and each
command has the count at its doorbell write and its place among the commands of its queue.
-/
namespace Nvme
open Function

structure Tag where
  epoch : Nat
  pos : Nat
deriving DecidableEq

inductive Thread where
  | idle
  | rung (q : Nat)
  | loaded (sqhead : Nat)
  | claimed (q : Nat)
  | loop (q sqhead : Nat)
  | fetched (q sqhead : Nat) (cmd : Command) (tag : Tag)
  | waiting (q sqhead : Nat) (cmd : Command) (tag : Tag)
  | holding (q sqhead : Nat) (cmd : Command) (k : Nat)
  | failed (q sqhead : Nat) (status : BitVec 16) (k : Nat)
  | releasing (q sqhead k : Nat)
  | posting (q sqhead : Nat)
  | leaving (q sqhead : Nat)
  | clearing (q : Nat)
deriving DecidableEq

structure Ioreq where
  q : Nat
  cid : BitVec 16
  ranges : Nat
  tag : Tag

structure Config where
  ioslots : Nat
  ram : Bool
  dsm : Bool
  deallocate : Bool

inductive Note where
  | executed (q slot : Nat) (cmd : Command) (tag : Tag)
  | completed (q cqid : Nat) (cid : BitVec 16) (tag : Tag) (epoch : Nat) (phase : Bool)

/-- The state of the code, with the threads that have released a request and not posted the semaphore
    yet, and with the numbers of the proofs. -/
structure Sys where
  sc : Softc
  free : List Nat
  pendingIos : Nat
  sem : Nat
  reqs : Nat → Ioreq
  threads : List Thread
  inflight : List Nat
  finished : List Nat
  posts : Nat
  epoch : Nat
  tailEpoch : Nat → Nat
  count : Nat → Nat
  notes : List Note

structure Input where
  cmd : Command
  ok : Bool
  stack : BitVec 16

def Sys.put (s : Sys) (v : Nat) (thread : Thread) : Sys :=
  { s with threads := s.threads.set v thread }

def lastPhase (sc sc' : Softc) (cqid : Nat) : Bool :=
  ((sc'.complQueues cqid).entry (sc.complQueues cqid).tail).phase

def complete (q : Nat) (cid status : BitVec 16) (tag : Tag) (s : Sys) : Except Fault Sys :=
  match setCompletion q q cid status s.sc with
  | .error fault => .error fault
  | .ok sc =>
      let cqid := (s.sc.submitQueues q).cqid
      .ok { s with
        sc := sc
        notes := .completed q cqid cid tag s.epoch (lastPhase s.sc sc cqid) :: s.notes }

def releaseIoreq (k : Nat) (s : Sys) : Sys :=
  let ready := decide (s.pendingIos - 1 = 0) && s.sc.en && !s.sc.rdy
  { s with
    free := s.free ++ [k]
    pendingIos := s.pendingIos - 1
    sc := if ready then { s.sc with csts := s.sc.csts ||| cstsRdy } else s.sc }

def postSem (s : Sys) : Sys := { s with sem := s.sem + 1 }

def getIoreq (v q sqhead : Nat) (cmd : Command) (tag : Tag) (s : Sys) : Except Fault Sys :=
  match s.free with
  | [] => .error .assertion
  | k :: rest =>
      .ok ({ s with
        free := rest
        pendingIos := s.pendingIos + 1
        reqs := update s.reqs k ⟨q, cmd.cid, 0, tag⟩ }.put v (.holding q sqhead cmd k))

def dsmDeallocates (cmd : Command) : Bool := decide (cmd.cdw11 &&& 4 ≠ 0)

variable (cfg : Config)

def dsmStatus (cmd : Command) (stack : BitVec 16) : BitVec 16 :=
  if cfg.dsm = false then statusGenc scInvalidOpcode
  else if dsmDeallocates cmd then
    if cfg.deallocate then statusGenc scInternalDeviceError else statusGenc scSuccess
  else stack

def dsmIssues (cmd : Command) (ok : Bool) : Bool :=
  cfg.dsm && dsmDeallocates cmd && cfg.deallocate && ok

def rwIssues (cmd : Command) (ok : Bool) : Bool :=
  ok && (decide (cmd.opc = opcRead) || decide (cmd.opc = opcWrite))

def issue (v q sqhead k ranges : Nat) (s : Sys) : Sys :=
  { s with
    reqs := update s.reqs k { s.reqs k with ranges := ranges }
    inflight := k :: s.inflight }.put v (.loop q sqhead)

def submit (v q sqhead : Nat) (cmd : Command) (k : Nat) (input : Input) (s : Sys) : Sys :=
  if cmd.opc = opcDatasetManagement then
    if dsmIssues cfg cmd input.ok then issue v q sqhead k (cmd.cdw10 &&& 0xff).toNat s
    else s.put v (.failed q sqhead (dsmStatus cfg cmd input.stack) k)
  else if rwIssues cmd input.ok then issue v q sqhead k 0 s
  else s.put v (.failed q sqhead (statusGenc scDataTransferError) k)

def callback (k : Nat) (err accepts : Bool) (s : Sys) : Except Fault Sys :=
  if k ∈ s.inflight then
    let req := s.reqs k
    if !err && accepts && decide (req.ranges ≠ 0) then
      .ok { s with reqs := update s.reqs k { req with ranges := req.ranges - 1 } }
    else
      let code := if err then scDataTransferError
        else if req.ranges ≠ 0 then scInternalDeviceError else scSuccess
      match complete req.q req.cid (statusGenc code) req.tag s with
      | .error fault => .error fault
      | .ok s => .ok { s with inflight := s.inflight.erase k, finished := k :: s.finished }
  else .ok s

def ramStatus (input : Input) (cmd : Command) : BitVec 16 :=
  if cmd.opc = opcDatasetManagement then dsmStatus cfg cmd input.stack
  else if input.ok then statusGenc scSuccess else statusGenc scLbaOutOfRange

def completesAtOnce (cmd : Command) : Bool :=
  decide (cmd.opc = opcFlush) || decide (cmd.opc = opcWriteZeroes)

def startIo (v q sqhead : Nat) (cmd : Command) (tag : Tag) (input : Input) (s : Sys) :
    Except Fault Sys :=
  if completesAtOnce cmd then
    complete q cmd.cid (statusGenc scSuccess) tag (s.put v (.loop q sqhead))
  else if cfg.ram then
    complete q cmd.cid (ramStatus cfg input cmd) tag (s.put v (.loop q sqhead))
  else if s.sem = 0 then .ok s
  else
    .ok ({ s with sem := s.sem - 1 }.put v (.waiting q sqhead cmd tag))

def Sys.tag (s : Sys) (q : Nat) : Tag := ⟨s.tailEpoch q, s.count q⟩

def countCommand (q slot : Nat) (cmd : Command) (s : Sys) : Sys :=
  { s with
    count := update s.count q (s.count q + 1)
    notes := .executed q slot cmd (s.tag q) :: s.notes }

def adminTurn (host : Host) (v sqhead : Nat) (cmd : Command) (s : Sys) : Except Fault Sys :=
  match fetch 0 sqhead s.sc with
  | .error fault => .error fault
  | .ok next =>
      let result := adminCmd host cmd s.sc
      match adminCompletion cmd next result with
      | .error fault => .error fault
      | .ok sc =>
          let t := (countCommand 0 sqhead cmd s).put v (.loop 0 next)
          match result.completion with
          | none => .ok { t with sc := sc }
          | some _ =>
              .ok { t with
                sc := sc
                notes := .completed 0 0 cmd.cid (s.tag 0) s.epoch (lastPhase result.sc sc 0) ::
                  t.notes }

def ioFetch (v q sqhead : Nat) (cmd : Command) (s : Sys) : Except Fault Sys :=
  match fetch q sqhead s.sc with
  | .error fault => .error fault
  | .ok next => .ok ((countCommand q sqhead cmd s).put v (.fetched q next cmd (s.tag q)))

def storeHead (q sqhead : Nat) (sc : Softc) : Softc :=
  sc.setSq q { sc.submitQueues q with head := sqhead }

def setBusy (q : Nat) (busy : Bool) (sc : Softc) : Softc :=
  sc.setSq q { sc.submitQueues q with busy := busy }

def notifyAdmin (q : Nat) (sc : Softc) : Softc :=
  if q = 0 ∧ (sc.complQueues 0).head ≠ (sc.complQueues 0).tail then { sc with msix := 0 :: sc.msix }
  else sc

def threadStep (host : Host) (cfg : Config) (v : Nat) (input : Input) (s : Sys) :
    Thread → Except Fault Sys
  | .idle => .ok s
  | .rung q =>
      if q = 0 then .ok (s.put v (.loaded (s.sc.submitQueues 0).head))
      else if (s.sc.submitQueues q).busy then .ok (s.put v .idle)
      else .ok ({ s with sc := setBusy q true s.sc }.put v (.claimed q))
  | .loaded sqhead =>
      if (s.sc.submitQueues 0).busy then .ok (s.put v .idle)
      else .ok ({ s with sc := setBusy 0 true s.sc }.put v (.loop 0 sqhead))
  | .claimed q => .ok (s.put v (.loop q (s.sc.submitQueues q).head))
  | .loop q sqhead =>
      if sqhead = (s.sc.submitQueues q).tail then .ok (s.put v (.leaving q sqhead))
      else if q = 0 then adminTurn host v sqhead input.cmd s
      else ioFetch v q sqhead input.cmd s
  | .fetched q sqhead cmd tag => startIo cfg v q sqhead cmd tag input s
  | .waiting q sqhead cmd tag => getIoreq v q sqhead cmd tag s
  | .holding q sqhead cmd k => .ok (submit cfg v q sqhead cmd k input s)
  | .failed q sqhead status k =>
      complete q (s.reqs k).cid status (s.reqs k).tag (s.put v (.releasing q sqhead k))
  | .releasing q sqhead k => .ok ((releaseIoreq k s).put v (.posting q sqhead))
  | .posting q sqhead => .ok ((postSem s).put v (.loop q sqhead))
  | .leaving q sqhead => .ok ({ s with sc := storeHead q sqhead s.sc }.put v (.clearing q))
  | .clearing q =>
      .ok ({ s with sc := notifyAdmin q (setBusy q false s.sc) }.put v .idle)

def doorbell (v idx : Nat) (isSq : Bool) (value : BitVec 16) (s : Sys) : Sys :=
  if idx > s.sc.maxQueues then s
  else if isSq then
    let s := { s with
      sc := s.sc.setSq idx { s.sc.submitQueues idx with tail := value.toNat }
      tailEpoch := update s.tailEpoch idx s.epoch }
    if idx = 0 ∨ idx ≤ s.sc.numSqueues then s.put v (.rung idx) else s
  else if idx > s.sc.numCqueues then s
  else { s with sc := s.sc.setCq idx { s.sc.complQueues idx with head := value.toNat } }

def resets (sc : Softc) (offset : Nat) (value : BitVec 32) : Bool :=
  decide (offset = crCc) && sc.en && !value.getLsbD 0

inductive Event where
  | doorbell (v idx : Nat) (isSq : Bool) (value : BitVec 16)
  | reg (offset : Nat) (value : BitVec 32)
  | step (v : Nat) (input : Input)
  | callback (k : Nat) (err accepts : Bool)
  | release (k : Nat)
  | post

def sysStep (host : Host) (cfg : Config) (s : Sys) : Event → Except Fault Sys
  | .doorbell v idx isSq value =>
      if s.threads[v]? = some .idle then .ok (doorbell v idx isSq value s) else .ok s
  | .reg offset value =>
      .ok { s with
        sc := writeReg host offset value s.pendingIos s.sc
        epoch := if resets s.sc offset value then s.epoch + 1 else s.epoch }
  | .step v input =>
      match s.threads[v]? with
      | some thread => threadStep host cfg v input s thread
      | none => .ok s
  | .callback k err accepts => callback k err accepts s
  | .release k =>
      if k ∈ s.finished then
        .ok { releaseIoreq k s with finished := s.finished.erase k, posts := s.posts + 1 }
      else .ok s
  | .post => if s.posts = 0 then .ok s else .ok { postSem s with posts := s.posts - 1 }

def blankCompletion : Completion := ⟨0, 0, 0, 0, 0⟩

def softcInit (maxQueues : Nat) : Softc :=
  resetLocked ⟨0, 0, 0, 0, 0, maxQueues, maxQueues, maxQueues,
    fun _ => ⟨none, 0, 0, 0, 0, false⟩, fun _ => ⟨none, 0, 0, 0, 0, 0, fun _ => blankCompletion⟩, []⟩

def sysInit (maxQueues vcpus : Nat) : Sys where
  sc := softcInit maxQueues
  free := List.range cfg.ioslots
  pendingIos := 0
  sem := cfg.ioslots
  reqs := fun _ => ⟨0, 0, 0, ⟨0, 0⟩⟩
  threads := List.replicate vcpus .idle
  inflight := []
  finished := []
  posts := 0
  epoch := 0
  tailEpoch := fun _ => 0
  count := fun _ => 0
  notes := []
end Nvme
