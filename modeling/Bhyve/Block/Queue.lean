import Mathlib.Data.List.FinRange
import Bhyve.Lib.StepRuns

/-!
The request queue of the block backend: a fixed array of elements that move between the free, the
pending and the busy list. Each critical section under bc_mtx is one step; blockif_proc runs without
the lock, so its I/O, its store to be_status and the callback are steps of their own. A
blockif_cancel that finds the element in flight keeps the lock until be_status has left BST_BUSY.
For the statements only, every accepted request gets a ticket, and the tickets executed, called back
and cancelled are recorded.
-/
namespace BlockQueue
open StepRuns Function

def blockifRingMax : Nat := 128
def blockifNumthr : Nat := 8
def blockifMaxreq : Nat := blockifRingMax + blockifNumthr

abbrev Slot := Fin blockifMaxreq
abbrev Worker := Fin blockifNumthr

instance decidableQueued (be : Slot) (queue : List Slot) : Decidable (be ∈ queue) := inferInstance

inductive BlockOp where
  | read
  | write
  | flush
  | delete

inductive BlockStat where
  | free
  | block
  | pend
  | busy
  | done
deriving DecidableEq

/-- What the queue reads of a struct blockif_req: its address, which blockif_cancel
    compares, the start offset and the lengths of its br_iovcnt vectors. -/
structure BlockifReq where
  address : Nat
  brOffset : BitVec 64
  brIov : List (BitVec 64)

structure BlockifElem where
  beReq : Option BlockifReq
  beOp : BlockOp
  beStatus : BlockStat
  beTid : Option Worker
  beBlock : BitVec 64
  ticket : Nat

structure Ctxt where
  reqs : Slot → BlockifElem
  freeq : List Slot
  pendq : List Slot
  busyq : List Slot

def Ctxt.outstanding (c : Ctxt) : List Slot := c.pendq ++ c.busyq

def offMax : BitVec 64 := 0x7fffffffffffffff

def requestEnd (breq : BlockifReq) : BlockOp → BitVec 64
  | .read | .write | .delete => breq.brIov.foldl (· + ·) breq.brOffset
  | .flush => offMax

variable (c : Ctxt)

def Ctxt.endsAt (off : BitVec 64) : Bool :=
  c.outstanding.any fun tbe => decide ((c.reqs tbe).beBlock = off)

def queued (ticket : Nat) (breq : BlockifReq) (op : BlockOp) (be : Slot) : BlockifElem :=
  { c.reqs be with
    beReq := some breq
    beOp := op
    beStatus := if c.endsAt breq.brOffset then .block else .pend
    beBlock := requestEnd breq op
    ticket := ticket }

def placed (ticket : Nat) (breq : BlockifReq) (op : BlockOp) (be : Slot) : Ctxt :=
  { reqs := update c.reqs be (queued c ticket breq op be)
    freeq := c.freeq.erase be
    pendq := c.pendq ++ [be]
    busyq := c.busyq }

/-- None when an assertion fails; the flag is blockif_enqueue's return value. -/
def blockifEnqueue (ticket : Nat) (breq : BlockifReq) (op : BlockOp) : Option (Ctxt × Bool) :=
  match c.freeq with
  | [] => none
  | be :: _ =>
      if (c.reqs be).beStatus = .free then
        some (placed c ticket breq op be, !c.endsAt breq.brOffset)
      else none

/-- The scan of blockif_dequeue. The outer None is its assertion that what it passes over
    is blocked. -/
def firstPend (c : Ctxt) : List Slot → Option (Option Slot)
  | [] => some none
  | be :: rest =>
      match (c.reqs be).beStatus with
      | .pend => some (some be)
      | .block => firstPend c rest
      | _ => none

def taken (t : Worker) (be : Slot) : Ctxt :=
  { reqs := update c.reqs be { c.reqs be with beStatus := .busy, beTid := some t }
    freeq := c.freeq
    pendq := c.pendq.erase be
    busyq := c.busyq ++ [be] }

def blockifDequeue (t : Worker) : Option (Ctxt × Option Slot) :=
  match firstPend c c.pendq with
  | none => none
  | some none => some (c, none)
  | some (some be) => some (taken c t be, some be)

def BlockifElem.startsAt (e : BlockifElem) (off : BitVec 64) : Bool :=
  match e.beReq with
  | some r => decide (r.brOffset = off)
  | none => false

def BlockifElem.inFlight (e : BlockifElem) : Bool :=
  decide (e.beStatus = .done ∨ e.beStatus = .busy)

def released (pendq : List Slot) (be : Slot) : Slot → BlockifElem :=
  update
    (fun tbe => if tbe ∈ pendq ∧ (c.reqs tbe).startsAt (c.reqs be).beBlock = true then
      { c.reqs tbe with beStatus := .pend } else c.reqs tbe)
    be { c.reqs be with beTid := none, beStatus := .free, beReq := none }

def Ctxt.without (be : Slot) : Ctxt :=
  if (c.reqs be).inFlight then { c with busyq := c.busyq.erase be }
  else { c with pendq := c.pendq.erase be }

def completed (be : Slot) : Ctxt :=
  { reqs := released c (c.without be).pendq be
    freeq := c.freeq ++ [be]
    pendq := (c.without be).pendq
    busyq := (c.without be).busyq }

/-- None when the element is not on the list its status stands for, or when a pending
    element has lost its request. -/
def blockifComplete (be : Slot) : Option Ctxt :=
  if be ∈ (if (c.reqs be).inFlight then c.busyq else c.pendq) ∧
      ∀ tbe ∈ (c.without be).pendq, (c.reqs tbe).beReq.isSome = true then
    some (completed c be)
  else none

def BlockifElem.isFor (e : BlockifElem) (address : Nat) : Bool :=
  match e.beReq with
  | some r => decide (r.address = address)
  | none => false

def findReq (queue : List Slot) (address : Nat) : Option Slot :=
  queue.find? fun be => (c.reqs be).isFor address

inductive Proc where
  | idle
  | started (be : Slot)
  | executed (be : Slot) (ticket : Nat)
  | finished (be : Slot) (ticket : Nat)
  | calledBack (be : Slot)

def Proc.slot : Proc → Option Slot
  | .idle => none
  | .started be => some be
  | .executed be _ => some be
  | .finished be _ => some be
  | .calledBack be => some be

structure QueueState where
  ctxt : Ctxt
  proc : Worker → Proc
  interrupting : Option Slot
  aborted : Bool
  nextTicket : Nat
  executed : List Nat
  calledBack : List Nat
  cancelled : List Nat

inductive QueueEvent where
  | request (breq : BlockifReq) (op : BlockOp)
  | dequeue (w : Worker)
  | execute (w : Worker)
  | markDone (w : Worker)
  | callback (w : Worker)
  | complete (w : Worker)
  | cancel (address : Nat)
  | cancelRecheck

def QueueState.abort (s : QueueState) : QueueState := { s with aborted := true }

variable (s : QueueState)

def QueueState.request (breq : BlockifReq) (op : BlockOp) : QueueState :=
  if s.ctxt.freeq = [] then s
  else
    match blockifEnqueue s.ctxt s.nextTicket breq op with
    | none => s.abort
    | some (c, _) => { s with ctxt := c, nextTicket := s.nextTicket + 1 }

def QueueState.dequeue (w : Worker) : QueueState :=
  match s.proc w with
  | .idle =>
      match blockifDequeue s.ctxt w with
      | none => s.abort
      | some (_, none) => s
      | some (c, some be) => { s with ctxt := c, proc := update s.proc w (.started be) }
  | _ => s

def QueueState.execute (w : Worker) : QueueState :=
  match s.proc w with
  | .started be =>
      let ticket := (s.ctxt.reqs be).ticket
      { s with
        executed := s.executed ++ [ticket]
        proc := update s.proc w (.executed be ticket) }
  | _ => s

def markedDone (be : Slot) : Ctxt :=
  { c with reqs := update c.reqs be { c.reqs be with beStatus := .done } }

def QueueState.markDone (w : Worker) : QueueState :=
  match s.proc w with
  | .executed be ticket =>
      { s with
        ctxt := markedDone s.ctxt be
        proc := update s.proc w (.finished be ticket) }
  | _ => s

def QueueState.callback (w : Worker) : QueueState :=
  match s.proc w with
  | .finished be ticket =>
      { s with
        calledBack := s.calledBack ++ [ticket]
        proc := update s.proc w (.calledBack be) }
  | _ => s

def QueueState.complete (w : Worker) : QueueState :=
  match s.proc w with
  | .calledBack be =>
      match blockifComplete s.ctxt be with
      | none => s.abort
      | some c => { s with ctxt := c, proc := update s.proc w .idle }
  | _ => s

/-- blockif_cancel up to its wait: a pending element is completed and 0 returned, an
    element in flight is interrupted with the lock held or, once done, answered EBUSY. -/
def QueueState.cancel (address : Nat) : QueueState :=
  match findReq s.ctxt s.ctxt.pendq address with
  | some be =>
      match blockifComplete s.ctxt be with
      | none => s.abort
      | some c => { s with ctxt := c, cancelled := s.cancelled ++ [(s.ctxt.reqs be).ticket] }
  | none =>
      match findReq s.ctxt s.ctxt.busyq address with
      | none => s
      | some be =>
          if (s.ctxt.reqs be).beStatus = .busy then { s with interrupting := some be } else s

def QueueState.cancelRecheck (s : QueueState) : QueueState :=
  match s.interrupting with
  | none => s
  | some be => if (s.ctxt.reqs be).beStatus = .busy then s else { s with interrupting := none }

def QueueEvent.takesLock : QueueEvent → Bool
  | .request _ _ | .dequeue _ | .complete _ | .cancel _ => true
  | .execute _ | .markDone _ | .callback _ | .cancelRecheck => false

def QueueState.apply (s : QueueState) : QueueEvent → QueueState
  | .request breq op => s.request breq op
  | .dequeue w => s.dequeue w
  | .execute w => s.execute w
  | .markDone w => s.markDone w
  | .callback w => s.callback w
  | .complete w => s.complete w
  | .cancel address => s.cancel address
  | .cancelRecheck => s.cancelRecheck

def queueStep (event : QueueEvent) : QueueState :=
  if s.aborted = true ∨ (event.takesLock = true ∧ s.interrupting.isSome = true) then s
  else s.apply event

def openElem : BlockifElem := ⟨none, .read, .free, none, 0, 0⟩

/-- The state blockif_open leaves: calloc'ed elements, each inserted at the head of
    bc_freeq, and eight workers that have nothing yet. -/
def blockifOpen : QueueState :=
  { ctxt := ⟨fun _ => openElem, (List.finRange blockifMaxreq).reverse, [], []⟩
    proc := fun _ => .idle
    interrupting := none
    aborted := false
    nextTicket := 0
    executed := []
    calledBack := []
    cancelled := [] }

end BlockQueue
