import Mathlib.Algebra.Group.Nat.Defs
import Mathlib.Data.List.Basic

/-!
The firmware control channel of fwctl.c: the request and the response machine behind its two ports.
-/
namespace Fwctl

structure Ctl where
  oid : List (BitVec 8)
  data : List (BitVec 8)

inductive BeState where
  | dormant
  | identWait
  | identSend
  | req
  | resp
deriving DecidableEq

inductive OpInfo where
  | errop
  | fgetlen
  | fgetval
deriving DecidableEq

structure ReqInfo where
  reqCount : Nat
  reqSize : Nat
  reqType : BitVec 32
  reqTxid : BitVec 32
  reqOp : Option OpInfo
  respError : Nat
  respCount : Nat
  respSize : Nat
  respOff : Nat
  respBiov : Option (List (BitVec 8))
deriving DecidableEq

structure Channel where
  beState : BeState
  identIdx : Nat
  erropCode : Nat
  fgetStr : List (BitVec 8)
  fgetCnt : Nat
  rinfo : ReqInfo

/-- What an access must not run into: the exit on a short message, a write outside fget_str, a null
    pointer, or a value that was never set. -/
inductive Fault where
  | sizeError
  | overrun
  | nullPointer
  | unset
deriving DecidableEq

def opGet : Nat := 3
def opGetLen : Nat := 4
def opMax : Nat := 5

def enoent : Nat := 2
def e2big : Nat := 7

def fgetStrsz : Nat := 80

def sig : List (BitVec 8) := [0x42, 0x48, 0x59, 0x56]

def ReqInfo.zero : ReqInfo :=
  { reqCount := 0, reqSize := 0, reqType := 0, reqTxid := 0, reqOp := none
    respError := 0, respCount := 0, respSize := 0, respOff := 0, respBiov := none }

def hwNcpu (guestNcpus : BitVec 32) : Ctl where
  oid := [0x68, 0x77, 0x2e, 0x6e, 0x63, 0x70, 0x75]
  data := [guestNcpus.extractLsb' 0 8, guestNcpus.extractLsb' 8 8, guestNcpus.extractLsb' 16 8,
    guestNcpus.extractLsb' 24 8]

def ctlSet (guestNcpus : BitVec 32) : List Ctl := [hwNcpu guestNcpus]

def wordBytes (w : BitVec 32) : List (BitVec 8) :=
  [w.extractLsb' 0 8, w.extractLsb' 8 8, w.extractLsb' 16 8, w.extractLsb' 24 8]

def fwctlSendRest (data : List (BitVec 8)) : BitVec 32 :=
  data.getD 3 0 ++ data.getD 2 0 ++ data.getD 1 0 ++ data.getD 0 0

def sizeBytes (n : Nat) : List (BitVec 8) :=
  wordBytes (BitVec.ofNat 32 n) ++ wordBytes (BitVec.ofNat 32 (n / 2 ^ 32))

/-- Whether strncmp finds no difference; a string ends where its list does. -/
def strncmpZero : Nat → List (BitVec 8) → List (BitVec 8) → Bool
  | 0, _, _ => true
  | n + 1, s, t =>
      if s.headD 0 ≠ t.headD 0 then false
      else if s.headD 0 = 0 then true
      else strncmpZero n s.tail t.tail

def ctlLocate (ctls : List Ctl) (str : List (BitVec 8)) (maxlen : Nat) : Option Ctl :=
  ctls.find? fun cp => strncmpZero maxlen str cp.oid

def opStart (op : OpInfo) (len : Nat) (c : Channel) : Nat × Channel :=
  match op with
  | .errop => (enoent, { c with erropCode := enoent })
  | .fgetlen | .fgetval =>
      if len > fgetStrsz then (e2big, c) else (0, { c with fgetCnt := 0 })

def fgetData (data : BitVec 32) (c : Channel) : Except Fault Channel :=
  if c.fgetCnt + 4 ≤ fgetStrsz then
    .ok { c with
      fgetStr := c.fgetStr.take c.fgetCnt ++ wordBytes data ++ c.fgetStr.drop (c.fgetCnt + 4)
      fgetCnt := c.fgetCnt + 4 }
  else .error .overrun

def opData (op : OpInfo) (data : BitVec 32) (c : Channel) : Except Fault Channel :=
  match op with
  | .errop => .ok c
  | .fgetlen | .fgetval => fgetData data c

def fgetResult (ctls : List Ctl) (val : Bool) (c : Channel) : Nat × Option (List (BitVec 8)) :=
  match ctlLocate ctls c.fgetStr c.fgetCnt with
  | none => (enoent, none)
  | some cp =>
      if val then (0, some (sizeBytes cp.data.length ++ cp.data))
      else (0, some (sizeBytes cp.data.length))

def opResult (ctls : List Ctl) (op : OpInfo) (c : Channel) : Nat × Option (List (BitVec 8)) :=
  match op with
  | .errop => (c.erropCode, none)
  | .fgetlen => fgetResult ctls false c
  | .fgetval => fgetResult ctls true c

def ops (type : Nat) : Option OpInfo :=
  if type = opGetLen then some .fgetlen else if type = opGet then some .fgetval else none

def fwctlRequestDone (ctls : List Ctl) (op : OpInfo) (c : Channel) : Channel :=
  let (err, biov) := opResult ctls op c
  { c with rinfo := { c.rinfo with
      respError := err
      respOff := 0
      respBiov := biov
      respSize := match biov with
        | none => 0
        | some data => data.length } }

def fwctlRequestStart (ctls : List Ctl) (c : Channel) : Bool × Channel :=
  let size := c.rinfo.reqSize - 12
  let wanted := if c.rinfo.reqType.toNat ≤ opMax then (ops c.rinfo.reqType.toNat).getD .errop
    else .errop
  let (err, c) := opStart wanted size c
  let (op, c) := if err ≠ 0 then (OpInfo.errop, { c with erropCode := err }) else (wanted, c)
  let c := { c with rinfo := { c.rinfo with reqSize := size, reqOp := some op } }
  if size = 0 then (true, fwctlRequestDone ctls op c) else (false, c)

def fwctlRequestData (ctls : List Ctl) (value : BitVec 32) (c : Channel) :
    Except Fault (Bool × Channel) :=
  match c.rinfo.reqOp with
  | none => .error .nullPointer
  | some op =>
      let left := if c.rinfo.reqSize ≤ 4 then 0 else c.rinfo.reqSize - 4
      match opData op value { c with rinfo := { c.rinfo with reqSize := left } } with
      | .error fault => .error fault
      | .ok c => if left < 4 then .ok (true, fwctlRequestDone ctls op c) else .ok (false, c)

def fwctlRequest (ctls : List Ctl) (value : BitVec 32) (c : Channel) :
    Except Fault (Bool × Channel) :=
  match c.rinfo.reqCount with
  | 0 =>
      if value.toNat < 12 then .error .sizeError
      else .ok (false, { c with rinfo := { c.rinfo with reqSize := value.toNat, reqCount := 1 } })
  | 1 => .ok (false, { c with rinfo := { c.rinfo with reqType := value, reqCount := 2 } })
  | 2 => .ok (fwctlRequestStart ctls
      { c with rinfo := { c.rinfo with reqTxid := value, reqCount := 3 } })
  | _ => fwctlRequestData ctls value c

def roundup4 (n : Nat) : Nat := (n + 3) / 4 * 4

def fwctlResponseData (c : Channel) : Except Fault (BitVec 32 × Channel) :=
  match c.rinfo.respBiov with
  | none => .error .nullPointer
  | some data =>
      if c.rinfo.respOff < c.rinfo.respSize then
        .ok (fwctlSendRest (data.drop c.rinfo.respOff),
          { c with rinfo := { c.rinfo with respOff := c.rinfo.respOff + 4 } })
      else .error .unset

def fwctlResponseWord (c : Channel) : Except Fault (BitVec 32 × Channel) :=
  let counted := { c with rinfo := { c.rinfo with respCount := c.rinfo.respCount + 1 } }
  match c.rinfo.respCount with
  | 0 => .ok (BitVec.ofNat 32 (4 * 4 + roundup4 c.rinfo.respSize), counted)
  | 1 => .ok (c.rinfo.reqType, counted)
  | 2 => .ok (c.rinfo.reqTxid, counted)
  | 3 => .ok (BitVec.ofNat 32 c.rinfo.respError, counted)
  | _ => fwctlResponseData c

def fwctlResponse (c : Channel) : Except Fault (BitVec 32 × Bool × Channel) :=
  match fwctlResponseWord c with
  | .error fault => .error fault
  | .ok (retval, c) =>
      if 3 < c.rinfo.respCount ∧ c.rinfo.respSize ≤ c.rinfo.respOff then
        .ok (retval, true, { c with rinfo := .zero })
      else .ok (retval, false, c)

def fwctlInb (c : Channel) : BitVec 8 × Channel :=
  match c.beState with
  | .identSend =>
      (sig.getD c.identIdx 0, { c with
        identIdx := c.identIdx + 1
        beState := if sig.length ≤ c.identIdx + 1 then .req else .identSend })
  | _ => (0xff, c)

def fwctlOutw (val : BitVec 16) (c : Channel) : Channel :=
  match c.beState with
  | .identWait => if val = 0 then { c with beState := .identSend, identIdx := 0 } else c
  | _ => c

def fwctlInl (c : Channel) : Except Fault (BitVec 32 × Channel) :=
  match c.beState with
  | .resp =>
      match fwctlResponse c with
      | .error fault => .error fault
      | .ok (retval, done, c) => .ok (retval, if done then { c with beState := .req } else c)
  | _ => .ok (0xffffffff, c)

def fwctlOutl (ctls : List Ctl) (val : BitVec 32) (c : Channel) : Except Fault Channel :=
  match c.beState with
  | .req =>
      match fwctlRequest ctls val c with
      | .error fault => .error fault
      | .ok (done, c) => .ok (if done then { c with beState := .resp } else c)
  | _ => .ok c

def fwctlHandler (ctls : List Ctl) (input : Bool) (bytes : Nat) (eax : BitVec 32) (c : Channel) :
    Except Fault (BitVec 32 × Channel) :=
  if input then
    if bytes = 1 then .ok ((fwctlInb c).1.setWidth 32, (fwctlInb c).2)
    else if bytes = 4 then fwctlInl c
    else .ok (0xffff, c)
  else
    if bytes = 2 then .ok (eax, fwctlOutw (eax.setWidth 16) c)
    else if bytes = 4 then
      match fwctlOutl ctls eax c with
      | .error fault => .error fault
      | .ok c => .ok (eax, c)
    else .ok (eax, c)

def init : Channel where
  beState := .identWait
  identIdx := 0
  erropCode := 0
  fgetStr := List.replicate fgetStrsz 0
  fgetCnt := 0
  rinfo := .zero
end Fwctl
