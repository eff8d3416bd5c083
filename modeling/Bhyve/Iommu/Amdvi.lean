import Bhyve.Lib.RadixTables

/-!
The domains of the AMD I/O memory management unit: their ids, their page tables and the device
table. A domain is known by the number of the call that created it, and carries the calls that have
changed its map. What a call touches and frees is noted.
-/
namespace Amdvi
open RadixTables Function

def ptPresent : Nat := 0x1
def ptRead : Nat := 2 ^ 61
def ptWrite : Nat := 2 ^ 62
def ptRw : Nat := ptRead ||| ptWrite
def ptMask : Nat := 0xFFFFFFFFFF000
def pdLevelShift : Nat := 9

def pdLink (l f : Nat) : Nat := f * 4096 ||| ptPresent ||| ptRw ||| (l + 1) * 2 ^ pdLevelShift

def pteChild (e : Nat) : Nat := (e &&& ptMask) / 4096

def pteDown (e : Nat) : Bool := decide (e &&& ptPresent ≠ 0)

def pteFormat : Format := ⟨pdLink, pteChild, pteDown, by decide⟩

inductive MapCall where
  | create (gpa hpa len : Nat)
  | destroy (gpa len : Nat)

structure Domain where
  id : Nat
  ptp : Option Nat
  calls : List MapCall

structure Dte where
  dtValid : Bool
  ptValid : Bool
  ptLevel : Nat
  ptBase : Nat
  readAllow : Bool
  writeAllow : Bool
  domainId : Nat

structure State where
  hostPtp : Bool
  domId : Nat
  entry : Nat → Nat → Nat
  free : List Nat
  created : Nat
  domain : Nat → Option Domain
  dte : Nat → Dte
  owner : Nat → Option Nat
  touched : List Nat
  freed : List Nat

inductive Fault where
  | waits
  | unaligned
  | endless
deriving DecidableEq

def maxDomain : Nat := 65535

def ptpLevel : Nat := 4

def amdviDomainId (domId : Nat) : Nat × Nat :=
  let id := if domId = maxDomain then 1 else domId
  (id % 2 ^ 16, id + 1)

def State.touch (f : Nat) (s : State) : State := { s with touched := s.touched ++ [f] }

def State.put (f i e : Nat) (s : State) : State := { s with entry := write f i e s.entry }

def malloc (s : State) : Except Fault (Nat × State) :=
  match s.free with
  | [] => .error .waits
  | f :: rest => .ok (f, { s with entry := clear f s.entry, free := rest })

def amdviCreateDomain (s : State) : Except Fault State :=
  let (id, domId) := amdviDomainId s.domId
  let s := { s with domId := domId, created := s.created + 1 }
  if id ≠ 0 ∨ s.hostPtp then
    match malloc s with
    | .error fault => .error fault
    | .ok (ptp, s) =>
        .ok { s with domain := update s.domain (s.created - 1) (some ⟨id, some ptp, []⟩) }
  else .ok { s with domain := update s.domain (s.created - 1) (some ⟨id, none, []⟩) }

/-- The loop of amdvi_set_pt over the levels above the page size. A missing table is made only when
    the mapping is created. -/
def amdviWalk (pgSize gpa : Nat) (create : Bool) : Nat → Nat → State → Except Fault (Nat × Nat × State)
  | 0, pt, s => .ok (pt, 12, s)
  | n + 1, pt, s =>
      let shift := 12 + (n + 1) * 9
      let index := gpa / 2 ^ shift % 512
      if pgSize < 2 ^ shift then
        let s := s.touch pt
        if s.entry pt index = 0 ∧ create then
          match malloc s with
          | .error fault => .error fault
          | .ok (page, s) =>
              let s := s.put pt index (pdLink n page)
              amdviWalk pgSize gpa create n (pteChild (s.entry pt index)) s
        else amdviWalk pgSize gpa create n (pteChild (s.entry pt index)) s
      else .ok (pt, shift, s)

def leafValue (hpa : Nat) (create : Bool) : Nat := if create then hpa ||| ptRw ||| ptPresent else 0

def amdviSetPt (pt gpa hpa pgSize : Nat) (create : Bool) (s : State) : Except Fault (Nat × State) :=
  if hpa % pgSize ≠ 0 then .error .unaligned
  else if gpa % pgSize ≠ 0 then .error .unaligned
  else
    match amdviWalk pgSize gpa create (ptpLevel - 1) pt s with
    | .error fault => .error fault
    | .ok (pt, shift, s) =>
        .ok (2 ^ shift,
          (s.touch pt).put pt (gpa / 2 ^ shift % 512) (leafValue hpa create))

def amdviUpdateMapping (ptp gpa hpa size : Nat) (create : Bool) : Nat → Nat → State → Except Fault State
  | 0, mapped, s => if mapped < size then .error .endless else .ok s
  | turns + 1, mapped, s =>
      if mapped < size then
        match amdviSetPt ptp (gpa + mapped) (hpa + mapped) 4096 create s with
        | .error fault => .error fault
        | .ok (len, s) => amdviUpdateMapping ptp gpa hpa size create turns (mapped + len) s
      else .ok s

def State.note (h : Nat) (d : Domain) (c : MapCall) (s : State) : State :=
  { s with domain := update s.domain h (some { d with calls := d.calls ++ [c] }) }

def amdviCreateMapping (h : Nat) (d : Domain) (gpa hpa len : Nat) (s : State) : Except Fault State :=
  match d.ptp with
  | none => .ok s
  | some ptp =>
      match amdviUpdateMapping ptp gpa hpa len true len 0 s with
      | .error fault => .error fault
      | .ok s => .ok (s.note h d (.create gpa hpa len))

def amdviDestroyMapping (h : Nat) (d : Domain) (gpa len : Nat) (s : State) : Except Fault State :=
  match d.ptp with
  | none => .ok s
  | some ptp =>
      match amdviUpdateMapping ptp gpa 0 len false len 0 s with
      | .error fault => .error fault
      | .ok s => .ok (s.note h d (.destroy gpa len))

def amdviFreePtp (m : Nat → Nat → Nat) : Nat → Nat → List Nat
  | 0, _ => []
  | level + 1, ptp =>
      ((List.range 512).flatMap fun i =>
        if m ptp i &&& ptPresent = 0 then [] else amdviFreePtp m level (pteChild (m ptp i))) ++ [ptp]

def amdviDestroyDomain (h : Nat) (d : Domain) (s : State) : State :=
  let freed := match d.ptp with
    | none => []
    | some ptp => amdviFreePtp s.entry ptpLevel ptp
  { s with
    domain := update s.domain h none
    free := s.free ++ freed
    freed := freed
    touched := freed }

/-- Disabling a device leaves the fields of its translation as they are. -/
def amdviSetDte (d : Domain) (enable : Bool) (e : Dte) : Dte :=
  let e := { e with dtValid := true, domainId := d.id }
  if enable then
    let e := match d.ptp with
      | some ptp => { e with ptBase := ptp % 2 ^ 40, ptLevel := ptpLevel }
      | none => e
    { e with ptValid := true, readAllow := true, writeAllow := true }
  else e

def State.setDte (h : Option Nat) (d : Domain) (devid : Nat) (enable : Bool) (s : State) : State :=
  { s with
    dte := update s.dte devid (amdviSetDte d enable (s.dte devid))
    owner := update s.owner devid h }

inductive Call where
  | createDomain
  | createMapping (h gpa hpa len : Nat)
  | destroyMapping (h gpa len : Nat)
  | addDevice (h devid : Nat)
  | removeDevice (h devid : Nat)
  | destroyDomain (h : Nat)

def call (s : State) (c : Call) : Except Fault State :=
  let s := { s with touched := [], freed := [] }
  match c with
  | .createDomain => amdviCreateDomain s
  | .createMapping h gpa hpa len =>
      match s.domain h with
      | none => .ok s
      | some d => amdviCreateMapping h d gpa hpa len s
  | .destroyMapping h gpa len =>
      match s.domain h with
      | none => .ok s
      | some d => amdviDestroyMapping h d gpa len s
  | .addDevice h devid =>
      match s.domain h with
      | none => .ok s
      | some d => .ok (s.setDte (some h) d devid true)
  | .removeDevice h devid =>
      match s.domain h with
      | none => .ok s
      | some d => .ok (s.setDte none d devid false)
  | .destroyDomain h =>
      match s.domain h with
      | none => .ok s
      | some d => .ok (amdviDestroyDomain h d s)

def started (hostPtp : Bool) (entry : Nat → Nat → Nat) (free : List Nat) : State :=
  { hostPtp := hostPtp
    domId := 0
    entry := entry
    free := free
    created := 0
    domain := fun _ => none
    dte := fun _ => ⟨false, false, 0, 0, false, false, 0⟩
    owner := fun _ => none
    touched := []
    freed := [] }

def hwWalk (m : Nat → Nat → Nat) (g : Nat) : Nat → Nat → Option Nat
  | 0, p =>
      let e := m p (g % 512)
      if e &&& ptPresent = 0 then none else some (pteChild e)
  | l + 1, p =>
      let e := m p (g / 512 ^ (l + 1) % 512)
      if e &&& ptPresent = 0 then none
      else if e / 2 ^ pdLevelShift % 8 = 0 then
        some (pteChild e / 512 ^ (l + 1) * 512 ^ (l + 1) + g % 512 ^ (l + 1))
      else if e / 2 ^ pdLevelShift % 8 = l + 1 then hwWalk m g l (pteChild e)
      else none

def Dte.translates (e : Dte) (ptp : Nat) : Prop :=
  e.dtValid = true ∧ e.ptValid = true ∧ e.ptLevel ≠ 0 ∧ e.ptBase = ptp
end Amdvi
