import Mathlib.Data.List.Find
import Mathlib.Data.List.Range
import Bhyve.Fwctl.Channel

namespace Fwctl
open List

/-- A request as the guest writes it: the header says how long it is, and the payload fills whole
    words. -/
structure Message where
  total : BitVec 32
  type : BitVec 32
  txid : BitVec 32
  payload : List (BitVec 32)
  header_fits : 12 ≤ total.toNat
  words_needed : payload.length = (total.toNat - 12 + 3) / 4

variable (m : Message)

def Message.size : Nat := m.total.toNat - 12

def Message.words : List (BitVec 32) := m.total :: m.type :: m.txid :: m.payload

def Message.bytes : List (BitVec 8) := m.payload.flatMap wordBytes

def Message.text : List (BitVec 8) := m.bytes.take m.size

def Named (text : List (BitVec 8)) (cp : Ctl) : Prop :=
  text = cp.oid ++ List.replicate (text.length - cp.oid.length) 0

instance (text : List (BitVec 8)) (cp : Ctl) : Decidable (Named text cp) :=
  inferInstanceAs (Decidable (_ = _))

def Message.gets : Prop := m.type.toNat = opGet ∨ m.type.toNat = opGetLen

instance (m : Message) : Decidable m.gets := inferInstanceAs (Decidable (_ ∨ _))

def packed (data : List (BitVec 8)) : List (BitVec 32) :=
  (List.range ((data.length + 3) / 4)).map fun i => fwctlSendRest (data.drop (4 * i))

def expected (ctls : List Ctl) (m : Message) : Nat × List (BitVec 8) :=
  if m.size > fgetStrsz then (e2big, [])
  else
    match ctls.find? fun cp => decide (Named m.text cp) with
    | none => (enoent, [])
    | some cp =>
        (0, sizeBytes cp.data.length ++ if m.type.toNat = opGet then cp.data else [])

structure Correct (ctls : List Ctl) (m : Message) (reply : List (BitVec 32)) : Prop where
  length : (reply.getD 0 0).toNat = 4 * reply.length
  type : reply.getD 1 0 = m.type
  txid : reply.getD 2 0 = m.txid
  value : m.gets → reply.drop 3 =
    BitVec.ofNat 32 (expected ctls m).1 :: packed (expected ctls m).2

inductive Taken (ctls : List Ctl) : Channel → List (BitVec 32) → Channel → Prop where
  | last {c w c'} (written : fwctlHandler ctls false 4 w c = .ok (w, c'))
      (enters : c'.beState = .resp) : Taken ctls c [w] c'
  | more {c w c₁ rest c'} (written : fwctlHandler ctls false 4 w c = .ok (w, c₁))
      (stays : c₁.beState = .req) (later : Taken ctls c₁ rest c') : Taken ctls c (w :: rest) c'

/-- What successive reads deliver until the channel takes requests again. -/
inductive Replied (ctls : List Ctl) : Channel → List (BitVec 32) → Channel → Prop where
  | last {c w c'} (read : fwctlHandler ctls true 4 0 c = .ok (w, c'))
      (enters : c'.beState = .req) : Replied ctls c [w] c'
  | more {c w c₁ rest c'} (read : fwctlHandler ctls true 4 0 c = .ok (w, c₁))
      (stays : c₁.beState = .resp) (later : Replied ctls c₁ rest c') : Replied ctls c (w :: rest) c'

def Served (ctls : List Ctl) : Channel → List Message → Prop
  | _, [] => True
  | c, m :: rest => ∃ c₁ reply c', Taken ctls c m.words c₁ ∧ Replied ctls c₁ reply c' ∧
      Correct ctls m reply ∧ Served ctls c' rest

def identify (ctls : List Ctl) (c : Channel) : Except Fault (List (BitVec 32) × Channel) := do
  let (_, c) ← fwctlHandler ctls false 2 0 c
  let (b, c) ← fwctlHandler ctls true 1 0 c
  let (h, c) ← fwctlHandler ctls true 1 0 c
  let (y, c) ← fwctlHandler ctls true 1 0 c
  let (v, c) ← fwctlHandler ctls true 1 0 c
  return ([b, h, y, v], c)

/-- The payload is no beginning of the name, and nothing follows the zero that ends the name. -/
def Message.Clear (name : List (BitVec 8)) : Prop :=
  ¬ m.bytes <+: name ∧
    (name ++ [0] <+: m.bytes → ∀ b ∈ m.bytes.drop name.length, b = 0)

instance (m : Message) (name : List (BitVec 8)) : Decidable (m.Clear name) :=
  inferInstanceAs (Decidable (_ ∧ (_ → _)))

def Message.Regular (ctls : List Ctl) (m : Message) : Prop :=
  (m.size % 4 = 0 ∨ m.size < 4) ∧
    (m.gets → m.size ≤ fgetStrsz → ∀ cp ∈ ctls, m.Clear cp.oid)

instance (ctls : List Ctl) (m : Message) : Decidable (m.Regular ctls) :=
  inferInstanceAs (Decidable (_ ∧ (_ → _ → _)))

section
variable {ctls : List Ctl} {c c' : Channel} {m : Message}

def Ready (c : Channel) : Prop :=
  c.beState = .req ∧ c.rinfo = .zero ∧ c.fgetStr.length = fgetStrsz

def Message.op (m : Message) : OpInfo :=
  if m.gets ∧ m.size ≤ fgetStrsz then if m.type.toNat = opGet then .fgetval else .fgetlen
  else .errop

def Message.err (m : Message) : Nat := if m.gets then e2big else enoent

def filled (c : Channel) (m : Message) (ws : List (BitVec 32)) : Channel :=
  { c with
    erropCode := if m.op = .errop then m.err else c.erropCode
    fgetCnt := if m.op = .errop then c.fgetCnt else 4 * ws.length
    fgetStr := if m.op = .errop then c.fgetStr
      else ws.flatMap wordBytes ++ c.fgetStr.drop (4 * ws.length)
    rinfo := { ReqInfo.zero with
      reqCount := 3
      reqSize := m.size - 4 * ws.length
      reqType := m.type
      reqTxid := m.txid
      reqOp := some m.op } }

def answered (ctls : List Ctl) (c : Channel) (m : Message) (ws : List (BitVec 32)) : Channel :=
  { fwctlRequestDone ctls m.op (filled c m ws) with beState := .resp }

theorem flat_length (ws : List (BitVec 32)) : (ws.flatMap wordBytes).length = 4 * ws.length := by
  induction ws with
  | nil => rfl
  | cons w rest ih =>
    rw [flatMap_cons, length_append, ih, length_cons]
    simp only [wordBytes, length_cons, length_nil]
    omega

section
variable {w : BitVec 32} {rest : List (BitVec 32)} {c₁ : Channel}
  (written : fwctlHandler ctls false 4 w c = .ok (w, c₁))
include written

theorem taken_stays (stays : c₁.beState = .req) :
    Taken ctls c (w :: rest) c' ↔ Taken ctls c₁ rest c' := by
  constructor
  · intro taken
    cases taken with
    | last again enters =>
      rw [written] at again
      cases again
      rw [stays] at enters
      cases enters
    | more again _ later =>
      rw [written] at again
      cases again
      exact later
  · exact Taken.more written stays

theorem taken_enters (enters : c₁.beState = .resp) :
    Taken ctls c (w :: rest) c' ↔ rest = [] ∧ c' = c₁ := by
  constructor
  · intro taken
    cases taken with
    | last again _ =>
      rw [written] at again
      cases again
      exact ⟨rfl, rfl⟩
    | more again stays _ =>
      rw [written] at again
      cases again
      rw [enters] at stays
      cases stays
  · rintro ⟨rfl, rfl⟩
    exact .last written enters

end

theorem op_start_eq (m : Message) (c : Channel) :
    opStart (if m.type.toNat ≤ opMax then (ops m.type.toNat).getD .errop else .errop) m.size c =
      if m.gets then if m.size ≤ fgetStrsz then (0, { c with fgetCnt := 0 }) else (e2big, c)
      else (enoent, { c with erropCode := enoent }) := by
  by_cases long : m.size ≤ fgetStrsz
  all_goals
    by_cases len : m.type.toNat = opGetLen
    · simp [len, ops, opStart, Message.gets, long, Nat.not_lt.mpr, opGetLen, opMax, Nat.not_le.mp]
    · by_cases val : m.type.toNat = opGet
      · simp [val, ops, opStart, Message.gets, long, opGetLen, opGet, opMax]
      · simp [len, val, ops, opStart, Message.gets]

theorem request_start_eq (ctls : List Ctl) (ready : Ready c) (m : Message) :
    fwctlRequestStart ctls { c with rinfo := { ReqInfo.zero with
        reqCount := 3, reqSize := m.total.toNat, reqType := m.type, reqTxid := m.txid } } =
      if m.size = 0 then (true, fwctlRequestDone ctls m.op (filled c m [])) else
        (false, filled c m []) := by
  obtain ⟨taking, -, -⟩ := ready
  have started := op_start_eq m { c with rinfo := { ReqInfo.zero with
    reqCount := 3, reqSize := m.total.toNat, reqType := m.type, reqTxid := m.txid } }
  have size : m.total.toNat - 12 = m.size := rfl
  unfold fwctlRequestStart
  simp only [size, started]
  by_cases gets : m.gets
  · by_cases long : m.size ≤ fgetStrsz
    · have op : m.op = if m.type.toNat = opGet then .fgetval else .fgetlen := by
        simp [Message.op, gets, long]
      have get : (if m.type.toNat ≤ opMax then (ops m.type.toNat).getD .errop else .errop) = m.op := by
        rw [op]
        obtain val | len := gets
        · simp [val, ops, opGet, opGetLen, opMax]
        · simp [len, ops, opGet, opGetLen, opMax]
      have works : m.op ≠ .errop := by rw [op]; split <;> simp
      simp [gets, long, get, filled, works, taking]
    · simp [gets, long, filled, Message.op, Message.err, taking, e2big]
  · simp [gets, filled, Message.op, Message.err, taking, enoent]

theorem written_of_request {w : BitVec 32} {b : Bool} {d : Channel} (taking : c.beState = .req)
    (request : fwctlRequest ctls w c = .ok (b, d)) :
    fwctlHandler ctls false 4 w c = .ok (w, if b then { d with beState := .resp } else d) := by
  simp only [fwctlHandler, fwctlOutl, taking, request]
  rfl

theorem request_data_stores {w : BitVec 32} {op : OpInfo} {left : Nat} {d : Channel}
    (operation : c.rinfo.reqOp = some op)
    (size : (if c.rinfo.reqSize ≤ 4 then 0 else c.rinfo.reqSize - 4) = left)
    (stored : opData op w { c with rinfo := { c.rinfo with reqSize := left } } = .ok d) :
    fwctlRequestData ctls w c =
      if left < 4 then .ok (true, fwctlRequestDone ctls op d) else .ok (false, d) := by
  subst size
  unfold fwctlRequestData
  split
  · rename_i none
    rw [operation] at none
    cases none
  · rename_i op' some
    rw [operation] at some
    cases some
    simp only [stored]

theorem header_taken (ready : Ready c) (m : Message) : Taken ctls c m.words c' ↔
      if m.size = 0 then m.payload = [] ∧ c' = answered ctls c m []
      else Taken ctls (filled c m []) m.payload c' := by
  have started := request_start_eq ctls ready m
  obtain ⟨taking, zero, -⟩ := ready
  have enough : ¬ m.total.toNat < 12 := Nat.not_lt.mpr m.header_fits
  let sized : Channel :=
    { c with rinfo := { ReqInfo.zero with reqCount := 1, reqSize := m.total.toNat } }
  let typed : Channel := { sized with rinfo := { sized.rinfo with reqCount := 2, reqType := m.type } }
  have first : fwctlHandler ctls false 4 m.total c = .ok (m.total, sized) :=
    written_of_request (b := false) taking
      (by simp [fwctlRequest, zero, ReqInfo.zero, enough])
  have second : fwctlHandler ctls false 4 m.type sized = .ok (m.type, typed) :=
    written_of_request (b := false) taking rfl
  have taking' : typed.beState = .req := taking
  have third : fwctlRequest ctls m.txid typed = .ok (if m.size = 0 then
      (true, fwctlRequestDone ctls m.op (filled c m [])) else (false, filled c m [])) :=
    congrArg Except.ok started
  unfold Message.words
  rw [taken_stays first taking, taken_stays second taking]
  by_cases none : m.size = 0
  · rw [if_pos none] at third ⊢
    exact taken_enters (written_of_request taking' third) rfl
  · rw [if_neg none] at third ⊢
    exact taken_stays (written_of_request taking' third) taking'

theorem word_taken (ctls : List Ctl) (ready : Ready c) (m : Message) (ws : List (BitVec 32)) (w : BitVec 32)
    (short : 4 * ws.length < m.size) : fwctlHandler ctls false 4 w (filled c m ws) =
      .ok (w, if m.size < 4 * ws.length + 8 then answered ctls c m (ws ++ [w])
        else filled c m (ws ++ [w])) := by
  obtain ⟨taking, -, whole⟩ := ready
  have left : (if m.size - 4 * ws.length ≤ 4 then 0 else m.size - 4 * ws.length - 4) =
      m.size - 4 * (ws.length + 1) := by split <;> omega
  have last : m.size - 4 * (ws.length + 1) < 4 ↔ m.size < 4 * ws.length + 8 := by omega
  have stored : opData m.op w { filled c m ws with
      rinfo := { (filled c m ws).rinfo with reqSize := m.size - 4 * (ws.length + 1) } } =
      .ok (filled c m (ws ++ [w])) := by
    by_cases dropped : m.op = .errop
    · simp [dropped, opData, filled]
    · have room : m.size ≤ fgetStrsz := by
        by_contra long
        exact dropped (by simp [Message.op, long])
      have inside : 4 * ws.length + 4 ≤ fgetStrsz := by
        unfold fgetStrsz at room ⊢
        omega
      have same : ∀ d, opData m.op w d = fgetData w d := by
        intro d
        cases op : m.op with
        | errop => exact absurd op dropped
        | fgetlen => rfl
        | fgetval => rfl
      rw [same]
      unfold fgetData
      rw [if_pos (by simpa [filled, dropped] using inside)]
      simp only [filled, dropped, if_false, length_append, length_singleton,
        flatMap_append, flatMap_cons, flatMap_nil, append_nil]
      rw [take_append_of_le_length (by rw [flat_length]), take_of_length_le
        (by rw [flat_length]), drop_append, flat_length, drop_drop,
        drop_of_length_le (by rw [flat_length]; omega)]
      simp [Nat.mul_add, Nat.add_comm]
  have request : fwctlRequest ctls w (filled c m ws) = .ok (if m.size < 4 * ws.length + 8 then
      (true, fwctlRequestDone ctls m.op (filled c m (ws ++ [w])))
      else (false, filled c m (ws ++ [w]))) := by
    refine (request_data_stores rfl left stored).trans ?_
    by_cases ends : m.size < 4 * ws.length + 8
    · rw [if_pos (last.mpr ends), if_pos ends]
    · rw [if_neg (mt last.mp ends), if_neg ends]
  have state : (filled c m ws).beState = .req := taking
  by_cases ends : m.size < 4 * ws.length + 8
  · rw [if_pos ends] at request ⊢
    exact written_of_request state request
  · rw [if_neg ends] at request ⊢
    exact written_of_request state request

theorem payload_taken (ready : Ready c) (m : Message) (rest : List (BitVec 32)) :
    ∀ ws, ws.length + rest.length = (m.size + 3) / 4 → 4 * ws.length < m.size →
      (ws = [] ∨ 4 * ws.length + 4 ≤ m.size) →
      (Taken ctls (filled c m ws) rest c' ↔
        (m.size % 4 = 0 ∨ m.size < 4) ∧ c' = answered ctls c m (ws ++ rest)) := by
  induction rest with
  | nil =>
    intro ws words short _
    rw [length_nil, Nat.add_zero] at words
    omega
  | cons w rest ih =>
    intro ws words short begun
    have here := word_taken ctls ready m ws w short
    rw [length_cons] at words
    by_cases ends : m.size < 4 * ws.length + 8
    · rw [if_pos ends] at here
      rw [taken_enters here rfl]
      have regular : rest = [] ↔ m.size % 4 = 0 ∨ m.size < 4 := by
        rw [← length_eq_zero_iff]
        obtain rfl | begun := begun
        · rw [length_nil] at words ends
          omega
        · omega
      rw [← regular]
      constructor
      · rintro ⟨rfl, rfl⟩
        exact ⟨rfl, rfl⟩
      · rintro ⟨rfl, rfl⟩
        exact ⟨rfl, rfl⟩
    · rw [if_neg ends] at here
      rw [taken_stays here ready.1, ih (ws ++ [w]) (by simp; omega) (by simp; omega)
        (.inr (by simp; omega)), List.append_assoc]
      rfl

theorem request_taken_iff (ready : Ready c) (m : Message) : Taken ctls c m.words c' ↔
      (m.size % 4 = 0 ∨ m.size < 4) ∧ c' = answered ctls c m m.payload := by
  rw [header_taken ready m]
  have words := m.words_needed
  have size : m.total.toNat - 12 = m.size := rfl
  rw [size] at words
  by_cases none : m.size = 0
  · have empty : m.payload = [] := by
      rw [none] at words
      exact List.length_eq_zero_iff.mp words
    rw [if_pos none, empty]
    simp [none]
  · rw [if_neg none, payload_taken ready m m.payload [] (by simpa using words)
      (by simpa using Nat.pos_of_ne_zero none) (.inl rfl)]
    rfl

end

section
variable {ctls : List Ctl} {c c' : Channel} {data : List (BitVec 8)}

def done (c : Channel) : Channel := { c with beState := .req, rinfo := .zero }

theorem read_of_response {v : BitVec 32} {b : Bool} {d : Channel} (sending : c.beState = .resp)
    (response : fwctlResponse c = .ok (v, b, d)) :
    fwctlHandler ctls true 4 0 c = .ok (v, if b then { d with beState := .req } else d) := by
  simp only [fwctlHandler, fwctlInl, sending, response]
  rfl

theorem data_read (ctls : List Ctl) {i : Nat} (sending : c.beState = .resp) (header : c.rinfo.respCount = 4)
    (reached : c.rinfo.respOff = 4 * i) (held : c.rinfo.respBiov = some data)
    (size : c.rinfo.respSize = data.length) (inside : 4 * i < data.length) :
    fwctlHandler ctls true 4 0 c = .ok (fwctlSendRest (data.drop (4 * i)),
      if data.length ≤ 4 * (i + 1) then done c
      else { c with rinfo := { c.rinfo with respOff := 4 * (i + 1) } }) := by
  have word : fwctlResponseWord c = .ok (fwctlSendRest (data.drop (4 * i)),
      { c with rinfo := { c.rinfo with respOff := 4 * (i + 1) } }) := by
    have counts : fwctlResponseWord c = fwctlResponseData c := by
      simp only [fwctlResponseWord, header]
    rw [counts]
    unfold fwctlResponseData
    split
    · rename_i none
      rw [held] at none
      cases none
    · rename_i some
      rw [held] at some
      cases some
      rw [if_pos (by omega), reached]
      rfl
  by_cases last : data.length ≤ 4 * (i + 1)
  · have response : fwctlResponse c = .ok (fwctlSendRest (data.drop (4 * i)), true,
        { c with rinfo := .zero }) := by
      simp [fwctlResponse, word, header, size, last]
    rw [if_pos last]
    exact read_of_response sending response
  · have response : fwctlResponse c = .ok (fwctlSendRest (data.drop (4 * i)), false,
        { c with rinfo := { c.rinfo with respOff := 4 * (i + 1) } }) := by
      simp [fwctlResponse, word, header, size, last]
    rw [if_neg last]
    exact read_of_response sending response

theorem data_replied (ctls : List Ctl) (data : List (BitVec 8)) (n : Nat) : ∀ i c, c.beState = .resp → c.rinfo.respCount = 4 →
    c.rinfo.respOff = 4 * i → c.rinfo.respBiov = some data → c.rinfo.respSize = data.length →
    i + (n + 1) = (data.length + 3) / 4 →
    Replied ctls c ((List.range' i (n + 1)).map fun j => fwctlSendRest (data.drop (4 * j)))
      (done c) := by
  induction n with
  | zero =>
    intro i c sending header reached held size words
    have read := data_read ctls sending header reached held size (by omega)
    rw [if_pos (by omega)] at read
    exact .last read rfl
  | succ n ih =>
    intro i c sending header reached held size words
    have read := data_read ctls sending header reached held size (by omega)
    rw [if_neg (by omega)] at read
    refine .more read sending ?_
    exact ih (i + 1) _ sending header rfl held size (by omega)

def replyWords (type txid : BitVec 32) (err : Nat) (data : List (BitVec 8)) : List (BitVec 32) :=
  BitVec.ofNat 32 (4 * 4 + roundup4 data.length) :: type :: txid :: BitVec.ofNat 32 err :: packed data

theorem reply_delivered (ctls : List Ctl) (sending : c.beState = .resp) (fresh : c.rinfo.respCount = 0)
    (start : c.rinfo.respOff = 0) (size : c.rinfo.respSize = data.length)
    (held : c.rinfo.respBiov = some data ∨ data = []) :
    Replied ctls c (replyWords c.rinfo.reqType c.rinfo.reqTxid c.rinfo.respError data) (done c) := by
  let counted (n : Nat) : Channel := { c with rinfo := { c.rinfo with respCount := n } }
  have first : fwctlHandler ctls true 4 0 c =
      .ok (BitVec.ofNat 32 (4 * 4 + roundup4 data.length), counted 1) :=
    read_of_response (d := counted 1) (b := false) sending
      (by simp [fwctlResponse, fwctlResponseWord, fresh, size, counted])
  have second : fwctlHandler ctls true 4 0 (counted 1) = .ok (c.rinfo.reqType, counted 2) :=
    read_of_response (c := counted 1) (d := counted 2) (b := false) sending rfl
  have third : fwctlHandler ctls true 4 0 (counted 2) = .ok (c.rinfo.reqTxid, counted 3) :=
    read_of_response (c := counted 2) (d := counted 3) (b := false) sending rfl
  refine .more first sending (.more second sending (.more third sending ?_))
  have word : fwctlResponseWord (counted 3) = .ok (BitVec.ofNat 32 c.rinfo.respError, counted 4) := rfl
  have known : (counted 4).rinfo.respCount = 4 := rfl
  have offset : (counted 4).rinfo.respOff = 0 := start
  have whole : (counted 4).rinfo.respSize = data.length := size
  cases data with
  | nil =>
    have response : fwctlResponse (counted 3) =
        .ok (BitVec.ofNat 32 c.rinfo.respError, true, { c with rinfo := .zero }) := by
      unfold fwctlResponse
      exact if_pos ⟨by rw [known]; exact Nat.lt_succ_self 3, by rw [whole]; exact Nat.zero_le _⟩
    exact .last (read_of_response (c := counted 3) sending response) rfl
  | cons b rest =>
    have response : fwctlResponse (counted 3) =
        .ok (BitVec.ofNat 32 c.rinfo.respError, false, counted 4) := by
      simp [fwctlResponse, word, known, offset, whole]
    refine .more (read_of_response (c := counted 3) (d := counted 4) (b := false) sending response)
      sending ?_
    have words : ((b :: rest).length + 3) / 4 = (rest.length) / 4 + 1 := by
      rw [length_cons]
      omega
    have delivered := data_replied ctls (b :: rest) (rest.length / 4) 0 (counted 4)
      sending rfl offset (held.resolve_right (cons_ne_nil b rest)) whole (by omega)
    unfold packed
    rw [words, range_eq_range']
    exact delivered

theorem reply_unique {reply reply' : List (BitVec 32)} {d : Channel}
    (one : Replied ctls c reply c') : Replied ctls c reply' d → reply = reply' ∧ c' = d := by
  induction one generalizing reply' d with
  | last read enters =>
    intro two
    cases two with
    | last again _ =>
      rw [read] at again
      cases again
      exact ⟨rfl, rfl⟩
    | more again stays _ =>
      rw [read] at again
      cases again
      rw [enters] at stays
      cases stays
  | more read stays _ ih =>
    intro two
    cases two with
    | last again enters =>
      rw [read] at again
      cases again
      rw [stays] at enters
      cases enters
    | more again _ later =>
      rw [read] at again
      cases again
      obtain ⟨rfl, rfl⟩ := ih later
      exact ⟨rfl, rfl⟩

end

section
variable {ctls : List Ctl} {c : Channel} {m : Message}

theorem strncmp_zero_iff (bytes rest name : List (BitVec 8)) (letters : 0#8 ∉ name) :
    strncmpZero bytes.length (bytes ++ rest) name = true ↔
      bytes <+: name ∨ name ++ [0] <+: bytes := by
  induction bytes generalizing name with
  | nil => simp [strncmpZero]
  | cons b bytes ih =>
    cases name with
    | nil =>
      by_cases zero : b = 0#8
      · simp [strncmpZero, zero]
      · simp [strncmpZero, zero, Ne.symm zero]
    | cons a name =>
      rw [mem_cons, not_or] at letters
      obtain ⟨apart, letters⟩ := letters
      by_cases same : b = a
      · subst same
        simp [strncmpZero, Ne.symm apart, ih name letters]
      · simp [strncmpZero, same, Ne.symm same]

theorem located_eq (m : Message) (ctls : List Ctl) (letters : ∀ cp ∈ ctls, 0#8 ∉ cp.oid)
    (rest : List (BitVec 8)) : ctlLocate ctls (m.bytes ++ rest) (4 * m.payload.length) =
      ctls.find? fun cp => decide (m.bytes <+: cp.oid ∨ cp.oid ++ [0] <+: m.bytes) := by
  have length : 4 * m.payload.length = m.bytes.length := (flat_length m.payload).symm
  rw [length]
  refine find?_congr fun cp member => ?_
  rw [Bool.eq_iff_iff, decide_eq_true_iff]
  exact strncmp_zero_iff m.bytes rest cp.oid (letters cp member)

theorem looked_up_fits (looks : m.op ≠ .errop) :
    m.gets ∧ m.size ≤ fgetStrsz ∧ 4 * m.payload.length ≤ fgetStrsz := by
  have both : m.gets ∧ m.size ≤ fgetStrsz := by
    by_contra other
    exact looks (if_neg other)
  have words := m.words_needed
  have size : m.total.toNat - 12 = m.size := rfl
  have fits := both.2
  unfold fgetStrsz at fits ⊢
  exact ⟨both.1, fits, by omega⟩

def answer (ctls : List Ctl) (m : Message) : Nat × List (BitVec 8) :=
  if m.op = .errop then (m.err, [])
  else
    match ctls.find? fun cp => decide (m.bytes <+: cp.oid ∨ cp.oid ++ [0] <+: m.bytes) with
    | none => (enoent, [])
    | some cp =>
        (0, sizeBytes cp.data.length ++ if m.type.toNat = opGet then cp.data else [])

theorem op_result_eq (letters : ∀ cp ∈ ctls, 0#8 ∉ cp.oid) (m : Message) :
    (opResult ctls m.op (filled c m m.payload)).1 = (answer ctls m).1 ∧
      ((opResult ctls m.op (filled c m m.payload)).2 = some (answer ctls m).2 ∨
        (opResult ctls m.op (filled c m m.payload)).2 = none ∧ (answer ctls m).2 = []) := by
  by_cases drops : m.op = .errop
  · simp [drops, opResult, answer, filled]
  · have located : ctlLocate ctls (filled c m m.payload).fgetStr (filled c m m.payload).fgetCnt =
        ctls.find? fun cp => decide (m.bytes <+: cp.oid ∨ cp.oid ++ [0] <+: m.bytes) := by
      simp only [filled, drops, if_false]
      exact located_eq m ctls letters _
    have op : m.op = if m.type.toNat = opGet then .fgetval else .fgetlen := by
      obtain ⟨gets, fits, -⟩ := looked_up_fits drops
      exact if_pos ⟨gets, fits⟩
    have result : opResult ctls m.op (filled c m m.payload) =
        fgetResult ctls (decide (m.type.toNat = opGet)) (filled c m m.payload) := by
      by_cases val : m.type.toNat = opGet
      · rw [op, if_pos val]
        simp [opResult, val]
      · rw [op, if_neg val]
        simp [opResult, val]
    rw [result]
    unfold fgetResult answer
    rw [located, if_neg drops]
    cases ctls.find? fun cp => decide (m.bytes <+: cp.oid ∨ cp.oid ++ [0] <+: m.bytes) with
    | none => exact ⟨rfl, .inr ⟨rfl, rfl⟩⟩
    | some cp =>
      by_cases val : m.type.toNat = opGet
      · simp [val]
      · simp [val]

theorem exchange_goes (letters : ∀ cp ∈ ctls, 0#8 ∉ cp.oid) (ready : Ready c) (m : Message) :
    Replied ctls (answered ctls c m m.payload)
        (replyWords m.type m.txid (answer ctls m).1 (answer ctls m).2)
        (done (answered ctls c m m.payload)) ∧
      Ready (done (answered ctls c m m.payload)) := by
  obtain ⟨err, held⟩ := op_result_eq (c := c) letters m
  constructor
  · have size : (answered ctls c m m.payload).rinfo.respSize = (answer ctls m).2.length := by
      obtain some | ⟨none, empty⟩ := held
      · simp [answered, fwctlRequestDone, some]
      · simp [answered, fwctlRequestDone, none, empty]
    have delivered := reply_delivered ctls (c := answered ctls c m m.payload) rfl rfl rfl
      size (held.imp_right And.right)
    rw [← err]
    exact delivered
  · refine ⟨rfl, rfl, ?_⟩
    show (filled c m m.payload).fgetStr.length = fgetStrsz
    by_cases drops : m.op = .errop
    · simpa [filled, drops] using ready.2.2
    · obtain ⟨-, -, fits⟩ := looked_up_fits drops
      simp only [filled, drops, if_false, length_append, flat_length, length_drop, ready.2.2]
      omega

end

section
variable {guestNcpus : BitVec 32} {c : Channel} {m : Message}

theorem hw_ncpu_letters (guestNcpus : BitVec 32) : ∀ cp ∈ ctlSet guestNcpus, 0#8 ∉ cp.oid := by
  intro cp member
  rw [List.mem_singleton.mp member]
  show 0#8 ∉ ([0x68, 0x77, 0x2e, 0x6e, 0x63, 0x70, 0x75] : List (BitVec 8))
  decide

theorem named_iff {text : List (BitVec 8)} {cp : Ctl} :
    Named text cp ↔ cp.oid <+: text ∧ ∀ b ∈ text.drop cp.oid.length, b = 0 := by
  constructor
  · intro named
    constructor
    · rw [named]
      exact prefix_append _ _
    · intro b member
      rw [named, drop_left] at member
      exact eq_of_mem_replicate member
  · rintro ⟨⟨rest, rfl⟩, zeros⟩
    rw [drop_left] at zeros
    unfold Named
    rw [length_append, Nat.add_sub_cancel_left, eq_replicate_of_mem zeros,
      length_replicate]

theorem clear_iff_named (guestNcpus : BitVec 32) (whole : m.size % 4 = 0 ∨ m.size < 4) :
    ((m.bytes <+: (hwNcpu guestNcpus).oid ∨ (hwNcpu guestNcpus).oid ++ [0] <+: m.bytes) ↔
      Named m.text (hwNcpu guestNcpus)) ↔ m.Clear (hwNcpu guestNcpus).oid := by
  have seven : (hwNcpu guestNcpus).oid.length = 7 := rfl
  have length : m.bytes.length = 4 * m.payload.length := flat_length m.payload
  have words : m.payload.length = (m.size + 3) / 4 := m.words_needed
  generalize hwNcpu guestNcpus = cp at seven ⊢
  rw [named_iff]
  unfold Message.Clear Message.text
  by_cases short : m.size < 4
  · have never : ¬ cp.oid <+: m.bytes.take m.size := fun starts => by
      have := starts.length_le
      rw [length_take] at this
      omega
    have ends : ¬ cp.oid ++ [0] <+: m.bytes := fun starts => by
      have := starts.length_le
      rw [length_append] at this
      omega
    tauto
  · have all : m.bytes.take m.size = m.bytes := take_of_length_le (by omega)
    have longer : m.bytes <+: cp.oid → ¬ cp.oid <+: m.bytes := fun under above => by
      have := under.length_le
      have := above.length_le
      omega
    have terminated : (∀ b ∈ m.bytes.drop cp.oid.length, b = 0) →
        (cp.oid <+: m.bytes ↔ cp.oid ++ [0] <+: m.bytes) := by
      intro zeros
      constructor
      · rintro ⟨rest, same⟩
        cases rest with
        | nil =>
          rw [append_nil] at same
          rw [← same] at length
          omega
        | cons b rest =>
          rw [← same, drop_left] at zeros
          rw [← same, zeros b mem_cons_self]
          exact ⟨rest, by rw [List.append_assoc]; rfl⟩
      · exact (prefix_append _ _).trans
    rw [all]
    tauto

theorem answer_expected_iff (whole : m.size % 4 = 0 ∨ m.size < 4) (gets : m.gets) :
    BitVec.ofNat 32 (answer (ctlSet guestNcpus) m).1 :: packed (answer (ctlSet guestNcpus) m).2 =
        BitVec.ofNat 32 (expected (ctlSet guestNcpus) m).1 ::
          packed (expected (ctlSet guestNcpus) m).2 ↔
      (m.size ≤ fgetStrsz → m.Clear (hwNcpu guestNcpus).oid) := by
  by_cases fits : m.size ≤ fgetStrsz
  · have looks : m.op ≠ .errop := by
      unfold Message.op
      rw [if_pos ⟨gets, fits⟩]
      split <;> simp
    have none_some : BitVec.ofNat 32 enoent ≠ BitVec.ofNat 32 0 := by decide
    rw [← clear_iff_named guestNcpus whole]
    unfold answer expected ctlSet
    rw [if_neg looks, if_neg (Nat.not_lt.mpr fits), find?_singleton, find?_singleton]
    by_cases found : m.bytes <+: (hwNcpu guestNcpus).oid ∨ (hwNcpu guestNcpus).oid ++ [0] <+: m.bytes
    all_goals
      by_cases named : Named m.text (hwNcpu guestNcpus)
      all_goals
        simp only [found, named, decide_true, decide_false, if_true, Bool.false_eq_true, if_false]
        simp [fits, none_some, Ne.symm none_some]
  · have op : m.op = .errop := if_neg fun both => fits both.2
    have err : m.err = e2big := if_pos gets
    unfold answer expected
    rw [if_pos op, if_pos (Nat.not_le.mp fits), err]
    exact ⟨fun _ small => absurd small fits, fun _ => rfl⟩

theorem answer_short (guestNcpus : BitVec 32) (m : Message) : (answer (ctlSet guestNcpus) m).2.length ≤ 12 := by
  unfold answer
  split
  · exact Nat.zero_le 12
  · split
    · exact Nat.zero_le 12
    · rename_i cp found
      rw [List.mem_singleton.mp (mem_of_find?_eq_some found)]
      by_cases val : m.type.toNat = opGet
      · rw [if_pos val]
        exact Nat.le_refl 12
      · rw [if_neg val]
        exact Nat.le_add_right 8 4

theorem reply_correct_iff (whole : m.size % 4 = 0 ∨ m.size < 4) :
    Correct (ctlSet guestNcpus) m (replyWords m.type m.txid (answer (ctlSet guestNcpus) m).1
        (answer (ctlSet guestNcpus) m).2) ↔
      (m.gets → m.size ≤ fgetStrsz → m.Clear (hwNcpu guestNcpus).oid) := by
  have short := answer_short guestNcpus m
  constructor
  · intro correct gets
    exact (answer_expected_iff whole gets).mp (correct.value gets)
  · intro clear
    refine ⟨?_, rfl, rfl, fun gets => (answer_expected_iff whole gets).mpr (clear gets)⟩
    unfold replyWords roundup4 packed
    simp only [getD_cons_zero, BitVec.toNat_ofNat, length_cons, length_map,
      length_range]
    omega

theorem served_iff (guestNcpus : BitVec 32) (messages : List Message) : ∀ c, Ready c →
    (Served (ctlSet guestNcpus) c messages ↔
      ∀ m ∈ messages, m.Regular (ctlSet guestNcpus)) := by
  induction messages with
  | nil => exact fun c _ => ⟨fun _ m member => absurd member not_mem_nil, fun _ => trivial⟩
  | cons m rest ih =>
    intro c ready
    have letters := hw_ncpu_letters guestNcpus
    obtain ⟨replied, again⟩ := exchange_goes letters ready m
    have regular : m.Regular (ctlSet guestNcpus) ↔ (m.size % 4 = 0 ∨ m.size < 4) ∧
        (m.gets → m.size ≤ fgetStrsz → m.Clear (hwNcpu guestNcpus).oid) := by
      unfold Message.Regular ctlSet
      simp only [forall_mem_singleton]
    rw [forall_mem_cons, regular, ← ih _ again]
    constructor
    · rintro ⟨c₁, reply, c', taken, read, correct, later⟩
      obtain ⟨whole, rfl⟩ := (request_taken_iff ready m).mp taken
      obtain ⟨rfl, rfl⟩ := reply_unique replied read
      exact ⟨⟨whole, (reply_correct_iff whole).mp correct⟩, later⟩
    · rintro ⟨⟨whole, clear⟩, later⟩
      exact ⟨_, _, _, (request_taken_iff ready m).mpr ⟨whole, rfl⟩, replied,
        (reply_correct_iff whole).mpr clear, later⟩

/-- From the greeting on, all exchanges go right exactly where every message fills whole words, or
    less than one, and no request of an identifier stops short of a name or goes on behind it. -/
theorem exchanges_served_iff (guestNcpus : BitVec 32) (messages : List Message) :
    (∃ c, identify (ctlSet guestNcpus) init = .ok (sig.map fun b => b.setWidth 32, c) ∧
        Served (ctlSet guestNcpus) c messages) ↔
      ∀ m ∈ messages, m.Regular (ctlSet guestNcpus) := by
  let greeted : Channel := { init with beState := .req, identIdx := 4 }
  have greets : identify (ctlSet guestNcpus) init =
      .ok (sig.map fun b => b.setWidth 32, greeted) := rfl
  have ready : Ready greeted := ⟨rfl, rfl, rfl⟩
  rw [← served_iff guestNcpus messages greeted ready]
  constructor
  · rintro ⟨c, other, served⟩
    cases other
    exact served
  · exact fun served => ⟨greeted, greets, served⟩

def shortName : Message where
  total := 16
  type := 3
  txid := 7
  payload := [0x6e2e7768]
  header_fits := by decide
  words_needed := by decide

theorem short_name_answered : ¬ ∃ c,
    identify (ctlSet 2) init = .ok (sig.map fun b => b.setWidth 32, c) ∧
      Served (ctlSet 2) c [shortName] := by
  rintro ⟨c, greets, served⟩
  obtain rfl : { init with beState := .req, identIdx := 4 } = c := by
    injection greets with both
    injection both
  have irregular : ¬ shortName.Regular (ctlSet 2) := by decide
  have all := (served_iff 2 [shortName] _ ⟨rfl, rfl, rfl⟩).mp served
  exact irregular (all shortName mem_cons_self)

end
end Fwctl
