import Bhyve.Lib.Accounts
import Bhyve.Vmm.InService
import Bhyve.Vmm.Injection

/-!
The account of events. An event is owed from the record that takes it on, and is paid when it is
delivered or meets an exception. What a meeting leaves is for the classes of the two to say.
-/
namespace VmmInjection
open List
open VmmVlapic (InService)

def classOf : Event → ExcClass
  | .exception vector _ =>
      if vector.toNat ∈ [14, 20] then .pagefault
      else if vector.toNat ∈ [0, 10, 11, 12, 13] then .contributory
      else .benign
  | _ => .benign

def isDoubleFault : Event → Bool
  | .exception vector _ => decide (vector.toNat = 8)
  | _ => false

/-- What is left to deliver when the second comes up while the first is being delivered. -/
def meet (first second : Event) : List Event :=
  if isDoubleFault first then []
  else if (classOf first = .contributory ∧ classOf second = .contributory) ∨
      (classOf first = .pagefault ∧ classOf second ≠ .benign) then [.exception 8 (some 0)]
  else [second]

def credit : Record → List Event
  | .requested e => [e]
  | .accepted e => [e]
  | .raised e => [e]
  | .delivered _ => []
  | .met first second => meet first second

def debit : Record → List Event
  | .delivered e => [e]
  | .met first second => [first, second]
  | _ => []

def held (here : Bool) (e : Event) : List Event := if here then [e] else []

def exceptionEvent (s : Vcpu) : Event :=
  .exception s.excVector (if s.excErrcodeValid then some s.excErrcode else none)

def inVectoring (s : Vcpu) : List Event :=
  match s.phase with
  | .exited exit =>
      if exit.reason = .mceDuringEntry then []
      else held s.vectoringInfo.valid (eventOf s.vectoringInfo s.vectoringError)
  | _ => []

def inFlight (s : Vcpu) : List Event :=
  held s.exceptionPending (exceptionEvent s) ++ held s.nmiPending .nmi ++
    held s.entryInfo.valid (eventOf s.entryInfo s.entryError) ++
    held s.exitintinfo.info.valid (eventOf s.exitintinfo.info s.exitintinfo.errcode) ++
    inVectoring s

def Keeps (s : Vcpu) (records : List Record) (s' : Vcpu) : Prop :=
  Accounts.Keeps inFlight credit debit s records s'

def triple : Record → Bool
  | .met first _ => isDoubleFault first
  | _ => false

def Suspends (s : Vcpu) (records : List Record) (s' : Vcpu) : Prop :=
  s'.suspended = (s.suspended || records.any triple)

theorem suspends_not {s s' : Vcpu} {records : List Record} (same : s'.suspended = s.suspended)
    (none_ : records.any triple = false) : Suspends s records s' := by
  rw [Suspends, same, none_, Bool.or_false]

theorem in_flight_count (s : Vcpu) (e : Event) : (inFlight s).count e =
      (held s.exceptionPending (exceptionEvent s)).count e + (held s.nmiPending .nmi).count e +
        (held s.entryInfo.valid (eventOf s.entryInfo s.entryError)).count e +
        (held s.exitintinfo.info.valid
          (eventOf s.exitintinfo.info s.exitintinfo.errcode)).count e +
        (inVectoring s).count e := by
  rw [inFlight, count_append, count_append, count_append, count_append]

/-- A word that VT-x gives or takes: a type with the vectors it goes with. -/
def WellFormed (info : IntrInfo) : Prop :=
  info.bit12 = false ∧ info.rsvd = 0 ∧
    match info.type with
    | .hwintr | .swintr => True
    | .nmi => info.vector = idtNmi
    | .hwexception => info.vector.toNat < 32
    | .swexception => info.vector = idtBp ∨ info.vector = idtOf
    | .privSwexception => info.vector = 1
    | .reserved | .other => False

instance decidableWellFormed : (info : IntrInfo) → Decidable (WellFormed info)
  | ⟨_, .hwintr, _, _, _, _⟩ | ⟨_, .swintr, _, _, _, _⟩ => inferInstanceAs (Decidable (_ ∧ _ ∧ True))
  | ⟨_, .nmi, _, _, _, _⟩ | ⟨_, .privSwexception, _, _, _, _⟩ =>
      inferInstanceAs (Decidable (_ ∧ _ ∧ _ = _))
  | ⟨_, .hwexception, _, _, _, _⟩ => inferInstanceAs (Decidable (_ ∧ _ ∧ _ < _))
  | ⟨_, .swexception, _, _, _, _⟩ => inferInstanceAs (Decidable (_ ∧ _ ∧ (_ ∨ _)))
  | ⟨_, .reserved, _, _, _, _⟩ | ⟨_, .other, _, _, _, _⟩ =>
      inferInstanceAs (Decidable (_ ∧ _ ∧ False))

theorem class_of_vector : ∀ vector : BitVec 8,
    exceptionClass ⟨⟨vector, .hwexception, false, false, 0, true⟩, 0⟩ =
      .ok (classOf (.exception vector none)) := by
  decide

theorem class_of_event (info : IntInfo) (valid : info.info.valid = true) :
    exceptionClass info = .ok (classOf (eventOf info.info info.errcode)) := by
  obtain ⟨⟨vector, type, delErrcode, bit12, rsvd, valid'⟩, errcode⟩ := info
  obtain rfl : valid' = true := valid
  cases type with
  | hwintr => rfl
  | swintr => rfl
  | nmi => rfl
  | hwexception => exact class_of_vector vector
  | swexception => exact class_of_vector vector
  | privSwexception => exact class_of_vector vector
  | reserved => exact class_of_vector vector
  | other => exact class_of_vector vector

theorem double_fault_event {info : IntrInfo} (formed : WellFormed info) (errcode : BitVec 32) :
    (info.type = .hwexception ∧ info.vector = idtDf) ↔
      isDoubleFault (eventOf info errcode) = true := by
  obtain ⟨vector, type, delErrcode, bit12, rsvd, valid⟩ := info
  obtain ⟨-, -, typed⟩ := formed
  cases type with
  | hwexception =>
    simp only [eventOf, isDoubleFault, true_and, decide_eq_true_eq]
    constructor
    · rintro rfl
      rfl
    · exact fun eight => BitVec.eq_of_toNat_eq eight
  | hwintr => exact ⟨fun both => absurd both.1 nofun, fun never => absurd never nofun⟩
  | swintr => exact ⟨fun both => absurd both.1 nofun, fun never => absurd never nofun⟩
  | nmi => exact ⟨fun both => absurd both.1 nofun, fun never => absurd never nofun⟩
  | swexception =>
    obtain rfl | rfl := typed
    · exact ⟨fun both => absurd both.1 nofun, fun never => absurd never nofun⟩
    · exact ⟨fun both => absurd both.1 nofun, fun never => absurd never nofun⟩
  | privSwexception =>
    obtain rfl := typed
    exact ⟨fun both => absurd both.1 nofun, fun never => absurd never nofun⟩
  | reserved => exact typed.elim
  | other => exact typed.elim

theorem nested_fault_meets {info1 info2 : IntInfo} (valid1 : info1.info.valid = true)
    (valid2 : info2.info.valid = true) (formed : WellFormed info1.info) :
    ∃ left, nestedFault info1 info2 = .ok left ∧
      meet (eventOf info1.info info1.errcode) (eventOf info2.info info2.errcode) =
        (match left with
        | none => []
        | some info => [eventOf info.info info.errcode]) ∧
      (left = none ∧ isDoubleFault (eventOf info1.info info1.errcode) = true ∨
        (left = some doubleFault ∨ left = some info2) ∧
          isDoubleFault (eventOf info1.info info1.errcode) = false) := by
  have double := double_fault_event formed info1.errcode
  unfold nestedFault meet
  rw [valid1, valid2, class_of_event info1 valid1, class_of_event info2 valid2]
  simp only [Bool.not_true, Bool.or_self, Bool.false_eq_true, ↓reduceIte, ← double]
  by_cases triple : info1.info.type = .hwexception ∧ info1.info.vector = idtDf
  · rw [if_pos triple, if_pos triple]
    exact ⟨none, rfl, rfl, .inl ⟨rfl, triple⟩⟩
  · have single : isDoubleFault (eventOf info1.info info1.errcode) = false :=
      Bool.eq_false_iff.mpr fun again => triple (double.mpr again)
    rw [if_neg triple, if_neg triple]
    split
    · exact ⟨some doubleFault, rfl, rfl, .inr ⟨.inl rfl, single⟩⟩
    · exact ⟨some info2, rfl, rfl, .inr ⟨.inr rfl, single⟩⟩

def Plain (info : IntrInfo) : Prop :=
  info.type = .hwintr ∨ info.type = .swintr → info.vector ≠ idtBp ∧ info.vector ≠ idtOf

theorem entry_word_formed {info : IntrInfo} (formed : WellFormed info) :
    WellFormed (entryWord info) := by
  unfold entryWord
  split
  · next special => exact ⟨formed.1, formed.2.1, special⟩
  · exact formed

theorem entry_word_valid (info : IntrInfo) : (entryWord info).valid = info.valid := by
  unfold entryWord
  split <;> rfl

theorem entry_word_errcode (info : IntrInfo) : (entryWord info).delErrcode = info.delErrcode := by
  unfold entryWord
  split <;> rfl

theorem entry_word_event {info : IntrInfo} (formed : WellFormed info) (plain : Plain info)
    (errcode : BitVec 32) : eventOf (entryWord info) errcode = eventOf info errcode := by
  unfold entryWord
  split
  · next special =>
    obtain ⟨vector, type, delErrcode, bit12, rsvd, valid⟩ := info
    obtain ⟨-, -, typed⟩ := formed
    have apart : ¬ (type = .hwintr ∨ type = .swintr) :=
      fun interrupt => special.elim (plain interrupt).1 (plain interrupt).2
    cases type with
    | hwintr => exact absurd (.inl rfl) apart
    | swintr => exact absurd (.inr rfl) apart
    | nmi =>
      obtain rfl : vector = idtNmi := typed
      exact special.elim nofun nofun
    | hwexception => rfl
    | swexception => rfl
    | privSwexception => rfl
    | reserved => exact typed.elim
    | other => exact typed.elim
  · rfl

theorem event_errcode (info : IntrInfo) (errcode other : BitVec 32) :
    eventOf info (if info.delErrcode then errcode else other) = eventOf info errcode := by
  unfold eventOf
  cases info.delErrcode <;> rfl

theorem event_bit12 (info : IntrInfo) (bit12 : Bool) (errcode : BitVec 32) :
    eventOf { info with bit12 := bit12 } errcode = eventOf info errcode := rfl

section
variable {s : Vcpu}

theorem exception_intinfo_valid : (vcpuExceptionIntinfo s).info.valid = s.exceptionPending := by
  unfold vcpuExceptionIntinfo
  cases s.exceptionPending <;> rfl

theorem exception_intinfo_event (pending : s.exceptionPending = true) :
    eventOf (vcpuExceptionIntinfo s).info (vcpuExceptionIntinfo s).errcode = exceptionEvent s := by
  unfold vcpuExceptionIntinfo exceptionEvent
  rw [if_pos pending]
  cases s.excErrcodeValid <;> rfl

theorem exception_intinfo_formed (pending : s.exceptionPending = true)
    (small : s.excVector.toNat < 32) : WellFormed (vcpuExceptionIntinfo s).info := by
  unfold vcpuExceptionIntinfo
  rw [if_pos pending]
  exact ⟨rfl, rfl, small⟩

def emptied (s : Vcpu) : Vcpu := { s with exitintinfo := ⟨noInfo, 0⟩, exceptionPending := false }

theorem exception_intinfo_plain (pending : s.exceptionPending = true) :
    Plain (vcpuExceptionIntinfo s).info := by
  unfold vcpuExceptionIntinfo
  rw [if_pos pending]
  exact fun interrupt => interrupt.elim nofun nofun

structure HandedOver (s : Vcpu) (info : Option IntInfo) (records : List Record) (s' : Vcpu) :
    Prop where
  frame : s' = { emptied s with suspended := s'.suspended }
  suspends : Suspends s records s'
  word : ∀ i, info = some i → i.info.valid = true ∧ WellFormed i.info ∧ Plain i.info ∧
    (s.exitintinfo.info.valid = true ∨ s.exceptionPending = true)
  kept : ∀ e, (held s.exceptionPending (exceptionEvent s)).count e +
      (held s.exitintinfo.info.valid
        (eventOf s.exitintinfo.info s.exitintinfo.errcode)).count e +
      (records.flatMap credit).count e =
    (records.flatMap debit).count e +
      (info.toList.map fun i => eventOf i.info i.errcode).count e

theorem nested_hands_over (cut : s.exitintinfo.info.valid = true)
    (pending : s.exceptionPending = true) (small : s.excVector.toNat < 32)
    (formed : WellFormed s.exitintinfo.info) :
    ∃ info records s', vmEntryIntinfo s = .ok (info, records, s') ∧
      HandedOver s info records s' := by
  have valid : (vcpuExceptionIntinfo s).info.valid = true :=
    exception_intinfo_valid.trans pending
  obtain ⟨left, nested, meets, either⟩ := nested_fault_meets cut valid formed
  have account : ∀ e, (held s.exceptionPending (exceptionEvent s)).count e +
      (held s.exitintinfo.info.valid
        (eventOf s.exitintinfo.info s.exitintinfo.errcode)).count e =
      [eventOf s.exitintinfo.info s.exitintinfo.errcode, exceptionEvent s].count e := by
    intro e
    rw [cut, pending, held, held, if_pos rfl, if_pos rfl, ← count_append]
    exact (List.Perm.swap _ _ []).count_eq e
  rw [exception_intinfo_event pending] at meets
  cases left with
  | none =>
    refine ⟨none, [.met (eventOf s.exitintinfo.info s.exitintinfo.errcode) (exceptionEvent s)],
      { emptied s with suspended := true }, ?_, rfl, ?_, nofun, fun e => ?_⟩
    · simp only [vmEntryIntinfo, valid, cut, nested, exception_intinfo_event pending]
      rfl
    · have double := (either.resolve_right fun other => other.1.elim nofun nofun).2
      simp only [Suspends, any_cons, triple, double, Bool.true_or, Bool.or_true]
    · rw [account e]
      simp only [flatMap_cons, flatMap_nil, credit, debit, meets, append_nil]
      rfl
  | some i =>
    obtain ⟨either, single⟩ := either.resolve_left fun other => absurd other.1 nofun
    refine ⟨some i, [.met (eventOf s.exitintinfo.info s.exitintinfo.errcode) (exceptionEvent s)],
      emptied s, ?_, rfl, suspends_not rfl ?_, fun j same => ?_, fun e => ?_⟩
    · simp only [vmEntryIntinfo, valid, cut, nested, exception_intinfo_event pending]
      rfl
    · simp only [any_cons, any_nil, triple, single, Bool.or_false]
    · obtain rfl := Option.some.inj same
      obtain double | second := either
      · rw [Option.some.inj double]
        exact ⟨rfl, ⟨rfl, rfl, (by decide : idtDf.toNat < 32)⟩, fun interrupt => interrupt.elim nofun nofun, .inl cut⟩
      · rw [Option.some.inj second]
        exact ⟨valid, exception_intinfo_formed pending small, exception_intinfo_plain pending,
          .inl cut⟩
    · rw [account e]
      simp only [flatMap_cons, flatMap_nil, credit, debit, meets, append_nil]
      rfl

theorem entry_intinfo_hands_over (small : s.exceptionPending = true → s.excVector.toNat < 32)
    (formed : s.exitintinfo.info.valid = true →
      WellFormed s.exitintinfo.info ∧ Plain s.exitintinfo.info) :
    ∃ info records s', vmEntryIntinfo s = .ok (info, records, s') ∧
      HandedOver s info records s' := by
  cases cut : s.exitintinfo.info.valid with
  | false =>
    cases pending : s.exceptionPending with
    | false =>
      refine ⟨none, [], emptied s, ?_, rfl, suspends_not rfl rfl, nofun, fun e => ?_⟩
      · simp only [vmEntryIntinfo, exception_intinfo_valid, cut, pending]
        rfl
      · rw [cut, pending]
        rfl
    | true =>
      refine ⟨some (vcpuExceptionIntinfo s), [], emptied s, ?_, rfl, suspends_not rfl rfl,
        fun i same => ?_, fun e => ?_⟩
      · simp only [vmEntryIntinfo, exception_intinfo_valid, cut, pending]
        rfl
      · obtain rfl := Option.some.inj same
        exact ⟨exception_intinfo_valid.trans pending,
          exception_intinfo_formed pending (small pending), exception_intinfo_plain pending,
          .inr pending⟩
      · rw [cut, pending, Option.toList_some, map_singleton, exception_intinfo_event pending]
        exact Nat.add_comm ..
  | true =>
    obtain ⟨formed1, plain1⟩ := formed cut
    cases pending : s.exceptionPending with
    | false =>
      refine ⟨some s.exitintinfo, [], emptied s, ?_, rfl, suspends_not rfl rfl, fun i same => ?_,
        fun e => ?_⟩
      · simp only [vmEntryIntinfo, exception_intinfo_valid, cut, pending]
        rfl
      · obtain rfl := Option.some.inj same
        exact ⟨cut, formed1, plain1, .inl cut⟩
      · rw [cut, pending, Option.toList_some, map_singleton]
        exact Nat.add_zero _
    | true => exact nested_hands_over cut pending (small pending) formed1

theorem held_none (e : Event) : held false e = [] := rfl

theorem held_one (e : Event) : held true e = [e] := rfl

theorem in_flight_emptied (idle : s.exceptionPending = false)
    (clear : s.exitintinfo.info.valid = false) (e : Event) : (inFlight s).count e =
      (held s.nmiPending .nmi).count e +
        (held s.entryInfo.valid (eventOf s.entryInfo s.entryError)).count e +
        (inVectoring s).count e := by
  rw [in_flight_count, idle, clear, held_none, held_none, count_nil, Nat.zero_add,
    Nat.add_zero]

theorem inject_event_keeps (small : s.exceptionPending = true → s.excVector.toNat < 32)
    (formed : s.exitintinfo.info.valid = true →
      WellFormed s.exitintinfo.info ∧ Plain s.exitintinfo.info)
    (room : s.exitintinfo.info.valid = true ∨ s.exceptionPending = true →
      s.entryInfo.valid = false)
    (entry : s.entryInfo.valid = true → WellFormed s.entryInfo) : ∃ records suspended info error,
      injectEvent s = .ok (records,
        { emptied s with suspended := suspended, entryInfo := info, entryError := error }) ∧
      suspended = (s.suspended || records.any triple) ∧ (info.valid = true → WellFormed info) ∧
      Keeps s records
        { emptied s with suspended := suspended, entryInfo := info, entryError := error } := by
  obtain ⟨word, records, s', done, frame, suspends, given, kept⟩ := entry_intinfo_hands_over small formed
  cases word with
  | none =>
    refine ⟨records, s'.suspended, s.entryInfo, s.entryError, ?_, suspends, entry, fun e => ?_⟩
    · simp only [injectEvent, done]
      exact congrArg (fun t => Except.ok (records, t)) frame
    · have account := kept e
      rw [in_flight_count, in_flight_emptied rfl rfl]
      simp only [Option.toList_none, map_nil, count_nil] at account
      simp only [emptied, inVectoring]
      omega
  | some i =>
    obtain ⟨valid, formed', plain, either⟩ := given i rfl
    have empty := room either
    refine ⟨records, s'.suspended, entryWord i.info,
      if (entryWord i.info).delErrcode then i.errcode else s.entryError, ?_, suspends,
      fun _ => entry_word_formed formed', fun e => ?_⟩
    · have same : s'.entryInfo = s.entryInfo := by rw [frame]; rfl
      have error : s'.entryError = s.entryError := by rw [frame]; rfl
      simp only [injectEvent, done, valid, same, empty, error]
      exact congrArg (fun t => Except.ok (records, { t with
        entryInfo := entryWord i.info,
        entryError := if (entryWord i.info).delErrcode then i.errcode else s.entryError })) frame
    · have account := kept e
      rw [in_flight_count, in_flight_emptied rfl rfl]
      simp only [Option.toList_some, map_singleton] at account
      simp only [emptied, inVectoring, entry_word_valid, valid, entry_word_event formed' plain,
        entry_word_errcode, event_errcode, held_one, empty, held_none, count_nil]
      omega

theorem blocking_covers {gi : BitVec 32} (free : gi &&& (hwintrBlocking ||| nmiBlocking) = 0) :
    gi &&& nmiBlocking = 0 := by
  have part : nmiBlocking = (hwintrBlocking ||| nmiBlocking) &&& nmiBlocking := by decide
  rw [part, ← BitVec.and_assoc, free]
  exact BitVec.zero_and

def nmiWord : IntrInfo := ⟨idtNmi, .nmi, false, false, 0, true⟩

theorem inject_nmi_done (pending : s.nmiPending = true) (free : s.gi &&& nmiBlocking = 0)
    (empty : s.entryInfo.valid = false) :
    vmxInjectNmi s = .ok { s with entryInfo := nmiWord, nmiPending := false } ∧
      Keeps s [] { s with entryInfo := nmiWord, nmiPending := false } := by
  constructor
  · unfold vmxInjectNmi vmNmiClear
    rw [if_neg (not_not.mpr free), if_neg (by rw [empty]; exact Bool.false_ne_true), if_pos pending]
    rfl
  · refine Accounts.keeps_nothing fun e => ?_
    rw [in_flight_count, in_flight_count, pending, empty, held_one, held_none, count_nil,
      Nat.add_zero]
    rfl

theorem inject_nmi_keeps (entry : s.entryInfo.valid = true → WellFormed s.entryInfo) :
    ∃ info pending window, injectNmi s = .ok
        { s with entryInfo := info, nmiPending := pending, nmiWindow := window } ∧
      (info.valid = true → WellFormed info) ∧ (pending = true → window = true) ∧
      Keeps s [] { s with entryInfo := info, nmiPending := pending, nmiWindow := window } := by
  unfold injectNmi
  split
  · next pending =>
    split
    · next free =>
      obtain ⟨done, kept⟩ := inject_nmi_done pending (blocking_covers free.1) free.2
      exact ⟨nmiWord, false, s.nmiWindow, done, fun _ => ⟨rfl, rfl, rfl⟩, nofun, kept⟩
    · exact ⟨s.entryInfo, s.nmiPending, true, rfl, entry, fun _ => rfl,
        Accounts.keeps_nothing fun e => rfl⟩
  · next none_ =>
    exact ⟨s.entryInfo, s.nmiPending, s.nmiWindow, rfl, entry, fun pending => absurd pending none_,
      Accounts.keeps_nothing fun e => rfl⟩

theorem accept_keeps (empty : s.entryInfo.valid = false) (vector : BitVec 8) {s' : Vcpu}
    (frame : inFlight s' = inFlight { s with entryInfo := interruptWord vector }) :
    Keeps s [.accepted (.interrupt vector)] s' := by
  intro e
  rw [frame, in_flight_count, in_flight_count, empty, held_none, count_nil]
  simp only [interruptWord, held_one, eventOf, flatMap_cons, flatMap_nil, credit, debit,
    append_nil, count_nil, inVectoring, exceptionEvent]
  omega

theorem can_inject (open_ : cantInject s = false) : s.entryInfo.valid = false := by
  exact (Bool.or_eq_false_iff.mp open_).2

def Quiet (s : Vcpu) : Prop := ∀ vector vlapic,
  VmmVlapic.pendingIntr s.vlapic ≠ .ok (some vector, vlapic)

theorem quiet_of_none (service : InService s.vlapic)
    (none_ : VmmVlapic.deliverable s.vlapic = none) : Quiet s := by
  intro vector vlapic pending
  rw [VmmVlapic.pending_intr_eq service, none_] at pending
  exact absurd (congrArg Prod.fst (Except.ok.inj pending)) nofun

theorem inject_apic_keeps (service : InService s.vlapic)
    (entry : s.entryInfo.valid = true → WellFormed s.entryInfo) :
    ∃ records info window vlapic, injectApic s = .ok (records,
        { s with entryInfo := info, intWindow := window, vlapic := vlapic }) ∧
      records.any triple = false ∧ (info.valid = true → WellFormed info) ∧ InService vlapic ∧
      (window = true ∨ Quiet { s with entryInfo := info, intWindow := window, vlapic := vlapic }) ∧
      Keeps s records { s with entryInfo := info, intWindow := window, vlapic := vlapic } := by
  have asked := VmmVlapic.pending_intr_eq service
  have updated : InService { s.vlapic with ppr := VmmVlapic.currentPpr s.vlapic } :=
    VmmVlapic.in_service_congr service rfl rfl rfl
  unfold injectApic
  rw [asked]
  cases next : VmmVlapic.deliverable s.vlapic with
  | none =>
    exact ⟨[], s.entryInfo, s.intWindow, _, rfl, rfl, entry, updated,
      .inr (quiet_of_none updated next), Accounts.keeps_nothing fun e => rfl⟩
  | some vector =>
    obtain ⟨acceptable, -⟩ := VmmVlapic.deliverable_acceptable next
    have range : ¬ (vector < 16 ∨ 255 < vector) := by
      have above := Nat.lt_of_le_of_lt (Nat.zero_le _) acceptable.2
      have below := acceptable.1
      rw [VmmVlapic.prio_eq] at above
      omega
    obtain ⟨accepted, service'⟩ := VmmVlapic.intr_accepted_ok updated acceptable
    simp only [if_neg range]
    cases blocked : cantInject
        { s with vlapic := { s.vlapic with ppr := VmmVlapic.currentPpr s.vlapic } } with
    | true =>
      exact ⟨[], s.entryInfo, true, _, rfl, rfl, entry, updated, .inl rfl,
        Accounts.keeps_nothing fun e => rfl⟩
    | false =>
      rw [accepted]
      refine ⟨_, _, s.intWindow, _, rfl, rfl, fun _ => ⟨rfl, rfl, trivial⟩, service',
        .inr (quiet_of_none service' (VmmVlapic.pushed_quiet next)), ?_⟩
      exact accept_keeps (can_inject blocked) _ rfl

theorem inject_extint_keeps (pending : s.extintPending = true) (vector : BitVec 8) (again : Bool)
    (entry : s.entryInfo.valid = true → WellFormed s.entryInfo) :
    ∃ records info extint, injectExtint s vector again = .ok (records,
        { s with entryInfo := info, extintPending := extint, intWindow := true }) ∧
      records.any triple = false ∧ (info.valid = true → WellFormed info) ∧
      Keeps s records
        { s with entryInfo := info, extintPending := extint, intWindow := true } := by
  unfold injectExtint
  cases blocked : cantInject s with
  | true =>
    exact ⟨[], s.entryInfo, s.extintPending, rfl, rfl, entry, Accounts.keeps_nothing fun e => rfl⟩
  | false =>
    have cleared : vmExtintClear { s with entryInfo := interruptWord vector } =
        .ok { s with entryInfo := interruptWord vector, extintPending := false } := if_pos pending
    rw [cleared]
    exact ⟨_, interruptWord vector, again, rfl, rfl, fun _ => ⟨rfl, rfl, trivial⟩,
      accept_keeps (can_inject blocked) _ rfl⟩

theorem inject_interrupt_keeps (vid : Bool) (service : InService s.vlapic) (vector : BitVec 8)
    (again : Bool) (entry : s.entryInfo.valid = true → WellFormed s.entryInfo) :
    ∃ records info extint window vlapic,
      injectInterrupt vid s vector again = .ok (records,
        { s with entryInfo := info, extintPending := extint, intWindow := window,
                 vlapic := vlapic }) ∧
      records.any triple = false ∧ (info.valid = true → WellFormed info) ∧ InService vlapic ∧
      (extint = true → window = true) ∧
      (vid = false → window = true ∨
        Quiet { s with entryInfo := info, extintPending := extint, intWindow := window,
                       vlapic := vlapic }) ∧
      Keeps s records { s with entryInfo := info, extintPending := extint, intWindow := window,
                               vlapic := vlapic } := by
  unfold injectInterrupt
  split
  · next skipped =>
    obtain ⟨none_, given⟩ := Bool.and_eq_true_iff.mp skipped
    refine ⟨[], s.entryInfo, s.extintPending, s.intWindow, s.vlapic, rfl, rfl, entry, service,
      fun pending => ?_, fun never => ?_, Accounts.keeps_nothing fun e => rfl⟩
    · rw [pending] at none_
      cases none_
    · rw [given] at never
      cases never
  · split
    · next window =>
      exact ⟨[], s.entryInfo, s.extintPending, s.intWindow, s.vlapic, rfl, rfl, entry, service,
        fun _ => window, fun _ => .inl window, Accounts.keeps_nothing fun e => rfl⟩
    · split
      · next none_ =>
        obtain ⟨records, info, window, vlapic, done, plain, formed, service', quiet, kept⟩ :=
          inject_apic_keeps service entry
        refine ⟨records, info, s.extintPending, window, vlapic, done, plain, formed, service',
          fun pending => ?_, fun _ => quiet, kept⟩
        rw [pending] at none_
        cases none_
      · next some_ =>
        have pending : s.extintPending = true := by
          rwa [Bool.not_eq_true', Bool.not_eq_false] at some_
        obtain ⟨records, info, extint, done, plain, formed, kept⟩ :=
          inject_extint_keeps pending vector again entry
        exact ⟨records, info, extint, true, s.vlapic, done, plain, formed, service, fun _ => rfl,
          fun _ => .inl rfl, kept⟩

end

end VmmInjection
