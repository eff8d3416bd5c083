import Bhyve.Lib.StepRuns

/-!
The event registry of mevent.c: the two lists, what other threads do with them, and the loop that
passes the changes on to the kernel queue.
-/
namespace Mevent
open StepRuns Function

inductive EvType where
  | read
  | write
  | timer
  | signal
deriving DecidableEq

def EvType.onFd : EvType → Bool
  | .read | .write => true
  | .timer | .signal => false

structure Flags where
  add : Bool
  delete : Bool
  enable : Bool
  disable : Bool
deriving DecidableEq

structure Event where
  fd : Nat
  timid : Nat
  type : EvType
  cq : Bool
  state : Flags
  closefd : Bool

structure Key where
  ident : Nat
  filter : EvType
deriving DecidableEq

structure Knote where
  udata : Nat
  enabled : Bool
deriving DecidableEq

structure Change where
  key : Key
  flags : Flags
  udata : Nat

inductive Pc where
  | build
  | change (batch : List Change)
  | monitor
  | handle (events : List Nat)

/-- Events are numbered as they are allocated, and there is no memory behind a number before
    that and after the event is freed. -/
structure Registry where
  mem : Nat → Option Event
  next : Nat
  timid : Nat
  globalHead : List Nat
  changeHead : List Nat
  fds : Nat → Bool
  kq : Key → Option Knote
  pc : Pc

inductive Fault where
  | freed
  | deleted
  | tooMany
deriving DecidableEq

def meventMax : Nat := 64

def evAdd : Flags := ⟨true, false, false, false⟩
def evDelete : Flags := ⟨false, true, false, false⟩

def Event.key (m : Event) : Key :=
  match m.type with
  | .timer => ⟨m.timid, .timer⟩
  | type => ⟨m.fd, type⟩

def Event.change (evp : Nat) (m : Event) : Change := ⟨m.key, m.state, evp⟩

def kevent (fds : Nat → Bool) (kq : Key → Option Knote) (ch : Change) :
    Option (Key → Option Knote) :=
  if ch.key.filter.onFd ∧ fds ch.key.ident = false then none
  else
    match kq ch.key with
    | none =>
        if ch.flags.add = false then none
        else if ch.flags.delete then some kq
        else some (update kq ch.key (some ⟨ch.udata, !ch.flags.disable⟩))
    | some kn =>
        if ch.flags.delete then some (update kq ch.key none)
        else some (update kq ch.key (some ⟨ch.udata,
          if ch.flags.disable then false else if ch.flags.enable then true else kn.enabled⟩))

def keventChanges (fds : Nat → Bool) : (Key → Option Knote) → List Change → Key → Option Knote
  | kq, [] => kq
  | kq, ch :: rest =>
      match kevent fds kq ch with
      | none => kq
      | some kq => keventChanges fds kq rest

def close (fd : Nat) (s : Registry) : Registry :=
  { s with
    fds := update s.fds fd false
    kq := fun key => if key.filter.onFd ∧ key.ident = fd then none else s.kq key }

def taken (tfd : Nat) (type : EvType) (s : Registry) : Bool :=
  (s.globalHead ++ s.changeHead).any fun lp =>
    (s.mem lp).any fun m => decide (type ≠ .timer ∧ m.fd = tfd ∧ m.type = type)

def newEvent (tfd : Nat) (type : EvType) (state : Flags) (s : Registry) : Event where
  fd := tfd
  timid := if type = .timer then s.timid else 0
  type := type
  cq := true
  state := state
  closefd := false

def meventAddState (tfd : Int) (type : EvType) (state : Flags) (s : Registry) :
    Option Nat × Registry :=
  if tfd < 0 then (none, s)
  else if taken tfd.toNat type s then (none, s)
  else
    (some s.next, { s with
      mem := update s.mem s.next (some (newEvent tfd.toNat type state s))
      next := s.next + 1
      timid := if type = .timer then s.timid + 1 else s.timid
      changeHead := s.next :: s.changeHead })

def queue (evp : Nat) (m : Event) (s : Registry) : Registry :=
  if m.cq then { s with mem := update s.mem evp (some m) }
  else { s with
    mem := update s.mem evp (some { m with cq := true })
    globalHead := s.globalHead.erase evp
    changeHead := evp :: s.changeHead }

def Flags.updated (f : Flags) (enable : Bool) : Flags :=
  if enable then { f with enable := true, disable := false }
  else { f with disable := true, enable := false }

def meventUpdate (evp : Nat) (enable : Bool) (s : Registry) : Except Fault Registry :=
  match s.mem evp with
  | none => .error .freed
  | some m =>
      if m.state.delete then .error .deleted
      else if m.state = m.state.updated enable then .ok s
      else .ok (queue evp { m with state := m.state.updated enable } s)

def meventDeleteEvent (evp : Nat) (closefd : Bool) (s : Registry) : Except Fault Registry :=
  match s.mem evp with
  | none => .error .freed
  | some m => .ok (queue evp { m with state := evDelete, closefd := m.closefd || closefd } s)

structure Building where
  s : Registry
  kev : List Change

def Event.passed (m : Event) : Event :=
  { m with cq := false, state := { m.state with add := false } }

def buildEvent (b : Building) (mevp : Nat) : Except Fault Building :=
  match b.s.mem mevp with
  | none => .error .freed
  | some m =>
      let closed := if m.closefd then close m.fd b.s else b.s
      let kev := if m.closefd then b.kev else b.kev ++ [m.change mevp]
      let s := { closed with changeHead := closed.changeHead.erase mevp }
      let s := if m.state.delete then { s with mem := update s.mem mevp none }
        else { s with
          mem := update s.mem mevp (some m.passed)
          globalHead := mevp :: s.globalHead }
      if kev.length < meventMax then .ok ⟨s, kev⟩ else .error .tooMany

def meventBuild (s : Registry) : Except Fault Registry :=
  match attempts buildEvent ⟨s, []⟩ s.changeHead with
  | .error fault => .error fault
  | .ok b => .ok { b.s with pc := if b.kev = [] then .monitor else .change b.kev }

def reported (kq : Key → Option Knote) (keys : List Key) : List Nat :=
  (keys.filterMap fun key => (kq key).bind fun kn => if kn.enabled then some kn.udata else none).take
    meventMax

inductive Step where
  | add (tfd : Int) (type : EvType) (enabled : Bool)
  | update (evp : Nat) (enable : Bool)
  | delete (evp : Nat) (closefd : Bool)
  | opened (fd : Nat)
  | build
  | change
  | monitor (keys : List Key)
  | handle

def loopStep (s : Registry) : Step → Except Fault Registry
  | .build =>
      match s.pc with
      | .build => meventBuild s
      | _ => .ok s
  | .change =>
      match s.pc with
      | .change batch => .ok { s with kq := keventChanges s.fds s.kq batch, pc := .monitor }
      | _ => .ok s
  | .monitor keys =>
      match s.pc with
      | .monitor => .ok { s with pc := .handle (reported s.kq keys) }
      | _ => .ok s
  | .handle =>
      match s.pc with
      | .handle [] => .ok { s with pc := .build }
      | .handle (mevp :: rest) =>
          match s.mem mevp with
          | none => .error .freed
          | some _ => .ok { s with pc := .handle rest }
      | _ => .ok s
  | _ => .ok s

/-- The registry, and for every event that is added and not deleted whether it is to be enabled. -/
structure Watched where
  s : Registry
  wanted : Nat → Option Bool

def Watched.with (w : Watched) (result : Except Fault Registry) (evp : Nat) (b : Option Bool) :
    Except Fault Watched :=
  match result with
  | .error fault => .error fault
  | .ok s => .ok ⟨s, update w.wanted evp b⟩

def Watched.adding (w : Watched) (result : Option Nat × Registry) (enabled : Bool) : Watched :=
  match result with
  | (none, s) => ⟨s, w.wanted⟩
  | (some evp, s) => ⟨s, update w.wanted evp (some enabled)⟩

def step (w : Watched) : Step → Except Fault Watched
  | .add tfd type enabled =>
      .ok (w.adding (meventAddState tfd type { evAdd with disable := !enabled } w.s) enabled)
  | .update evp enable => w.with (meventUpdate evp enable w.s) evp (some enable)
  | .delete evp closefd => w.with (meventDeleteEvent evp closefd w.s) evp none
  | .opened fd => .ok { w with s := { w.s with fds := update w.s.fds fd true } }
  | e =>
      match loopStep w.s e with
      | .error fault => .error fault
      | .ok s => .ok { w with s := s }

def Registry.start (fds : Nat → Bool) : Registry where
  mem := fun _ => none
  next := 0
  timid := 43
  globalHead := []
  changeHead := []
  fds := fds
  kq := fun _ => none
  pc := .build

def Watched.start (fds : Nat → Bool) : Watched := ⟨.start fds, fun _ => none⟩
end Mevent
