import Mathlib.Data.List.TakeDrop
import Bhyve.Kbdc.Status

namespace Kbdc
open BoundedFifo StepRuns
open List hiding get

def Atkbdc.waiting (sc : Atkbdc) : List Byte := contents fifosz sc.kbd

/-- What bytes of set 2 are in set 1: a break code sets the release bit of the byte after it, and is
    nothing where there is no such byte. -/
def setOne : Bool → List Byte → Option (List Byte)
  | released, [] => if released then none else some []
  | released, val :: rest =>
      if val = 0xf0 then setOne true rest
      else (setOne false rest).map fun out =>
        (translation.getD val.toNat 0 ||| (if released then 0x80 else 0)) :: out

def converted (translates : Bool) (vals : List Byte) : Option (List Byte) :=
  if translates then setOne false vals else some vals

def entered (sc : Atkbdc) : Event → List Byte
  | .key down keysym =>
      (ps2kbdEvent sc.ps2kbd down keysym).1.bytes.drop sc.ps2kbd.bytes.length
  | _ => []

def taken (sc : Atkbdc) (event : Event) : List Byte :=
  let queued := sc.ps2kbd.bytes ++ entered sc event
  queued.take (queued.length - (step sc event).ps2kbd.bytes.length)

def presented (sc : Atkbdc) : Event → List Byte
  | .data true bytes _ =>
      if bytes ≤ 2 ∧ sc.awaits = false ∧ sc.moused = false then
        ((dataIn sc).eax.map (BitVec.setWidth 8)).toList
      else []
  | _ => []

def readData : Event := .data true 1 0

def presentedBy : Nat → Atkbdc → List Byte
  | 0, _ => []
  | n + 1, sc => presented sc readData ++ presentedBy n (step sc readData)

inductive Input where
  | key (down : Bool) (keysym : BitVec 32)
  | data (bytes : Int) (eax : BitVec 32)
  | status (bytes : Int) (eax : BitVec 32)

def Input.event : Input → Event
  | .key down keysym => .key down keysym
  | .data bytes eax => .data true bytes eax
  | .status bytes eax => .status true bytes eax

def inputStep (sc : Atkbdc) (input : Input) : Atkbdc := step sc input.event

structure ScancodesHold (sc : Atkbdc) (input : Input) : Prop where
  whole : ∀ down keysym, input = .key down keysym →
    entered sc input.event = [] ∨ entered sc input.event = scancode down keysym
  left : sc.ps2kbd.bytes ++ entered sc input.event =
    taken sc input.event ++ (inputStep sc input).ps2kbd.bytes
  order : ∃ out, converted sc.translates (taken sc input.event) = some out ∧
    sc.waiting ++ out = presented sc input.event ++ (inputStep sc input).waiting
  eventually : ∃ n, (inputStep sc input).waiting <+: presentedBy n (inputStep sc input)

/-- The condition of a read of the keyboard: in translation there is a code among what it holds, and
    the controller has room for it. -/
def TakeKept (sc : Atkbdc) (pending : List Byte) (held : Nat) : Prop :=
  sc.translates = true → pending = [] ∨ (∃ val ∈ pending, val ≠ 0xf0) ∧ held < fifosz

/-- The condition of a step: a key event finds room for all of its bytes, unless it finds none, and
    the keyboard is read as above. -/
def ScancodesKept (sc : Atkbdc) : Input → Prop
  | .key down keysym => sc.ps2kbd.enabled = true → sc.ps2kbd.fifo.num < ps2kbdFifosz →
      sc.ps2kbd.fifo.num + (scancode down keysym).length ≤ ps2kbdFifosz ∧
        TakeKept sc (sc.ps2kbd.bytes ++ scancode down keysym) sc.kbd.num
  | .data bytes _ => bytes ≤ 2 → sc.awaits = false →
      (sc.moused = true → TakeKept sc sc.ps2kbd.bytes sc.kbd.num) ∧
      (sc.moused = false → sc.keyed = true → TakeKept sc sc.ps2kbd.bytes (sc.kbd.num - 1))
  | .status _ _ => True

structure Ready (sc : Atkbdc) : Prop where
  ps2kbd : sc.ps2kbd.Valid
  kbd : BoundedFifo.Valid fifosz sc.kbd

section
variable {sc t u : Atkbdc} {vals out : List Byte}

structure Takes (sc t : Atkbdc) (vals out : List Byte) : Prop where
  source : sc.ps2kbd.bytes = vals ++ t.ps2kbd.bytes
  dest : t.waiting = sc.waiting ++ out
  ready : Ready t

theorem takes_nothing (ready : Ready sc) (ps2kbd : t.ps2kbd = sc.ps2kbd) (kbd : t.kbd = sc.kbd) :
    Takes sc t [] [] where
  source := by
    rw [ps2kbd]
    rfl
  dest := by
    rw [Atkbdc.waiting, kbd, append_nil, ← Atkbdc.waiting]
  ready := by
    refine ⟨?_, ?_⟩
    · rw [ps2kbd]
      exact ready.ps2kbd
    · rw [kbd]
      exact ready.kbd

theorem takes_trans {later more : List Byte} (first : Takes sc t vals out)
    (second : Takes t u later more) : Takes sc u (vals ++ later) (out ++ more) where
  source := by
    rw [first.source, second.source, List.append_assoc]
  dest := by
    rw [second.dest, first.dest, List.append_assoc]
  ready := second.ready

theorem read_takes {val : Byte} {ps2kbd : Ps2kbd} (ready : Ready sc)
    (read : ps2kbdRead sc.ps2kbd = some (val, ps2kbd)) :
    Takes sc { sc with ps2kbd := ps2kbd } [val] [] := by
  obtain ⟨valid, first, -, -⟩ := ps2kbd_read_some ready.ps2kbd read
  exact ⟨first, (append_nil _).symm, valid, ready.kbd⟩

theorem queue_data_takes (ready : Ready sc) (val : Byte) :
    Takes sc (kbdQueueData sc val) [] (if sc.kbd.num < fifosz then [val] else []) := by
  unfold kbdQueueData
  split
  · next room => exact ⟨rfl, contents_put ready.kbd room val, ready.ps2kbd, put_valid ready.kbd val⟩
  · exact takes_nothing ready rfl rfl

theorem set_one_code (released : Bool) {val : Byte} (isCode : val ≠ 0xf0) :
    setOne released ([val] ++ []) =
      some [translation.getD val.toNat 0 ||| (if released then 0x80 else 0)] := by
  show (if val = 0xf0 then _ else _) = _
  rw [if_neg isCode]
  rfl

theorem translated_read_takes (fuel : Nat) : ∀ released sc, Ready sc →
    sc.ps2kbd.fifo.num = fuel → ∃ vals out,
      Takes sc (translatedRead fuel (if released then 0x80 else 0) sc) vals out ∧
      (setOne released vals = some out ↔ (sc.ps2kbd.bytes = [] ∧ released = false) ∨
        (∃ val ∈ sc.ps2kbd.bytes, val ≠ 0xf0) ∧ sc.kbd.num < fifosz) := by
  induction fuel with
  | zero =>
    intro released sc ready count
    have nothing : sc.ps2kbd.bytes = [] := eq_nil_of_length_eq_zero ((contents_length _).trans count)
    refine ⟨[], [], takes_nothing ready rfl rfl, ?_⟩
    rw [nothing]
    cases released <;> simp [setOne]
  | succ fuel ih =>
    intro released sc ready count
    unfold translatedRead
    cases read : ps2kbdRead sc.ps2kbd with
    | none =>
      have empty := congrArg List.length (ps2kbd_read_none read)
      have none_ := (contents_length sc.ps2kbd.fifo).symm.trans empty
      rw [count] at none_
      cases none_
    | some got =>
      obtain ⟨val, ps2kbd⟩ := got
      obtain ⟨-, first, less, -⟩ := ps2kbd_read_some ready.ps2kbd read
      have begun := read_takes ready read
      dsimp only
      split
      · next isBreak =>
        have rest : ps2kbd.fifo.num = fuel := by omega
        obtain ⟨vals, out, takes, right⟩ := ih true { sc with ps2kbd := ps2kbd } begun.ready rest
        refine ⟨[val] ++ vals, [] ++ out, takes_trans begun takes, ?_⟩
        rw [first]
        simpa [setOne, isBreak] using right
      · next isCode =>
        refine ⟨_, _, takes_trans begun (queue_data_takes begun.ready _), ?_⟩
        rw [first]
        have found : ∃ code ∈ val :: ps2kbd.bytes, code ≠ 0xf0 := ⟨val, mem_cons_self, isCode⟩
        by_cases room : sc.kbd.num < fifosz
        · refine iff_of_true ?_ (.inr ⟨found, room⟩)
          rw [if_pos room]
          exact set_one_code released isCode
        · refine iff_of_false ?_ (by simp [room])
          rw [if_neg room]
          exact fun lost => by cases (set_one_code released isCode).symm.trans lost

theorem plain_read_takes (fuel : Nat) : ∀ sc, Ready sc →
    ∃ vals, Takes sc (plainRead fuel sc) vals vals := by
  induction fuel with
  | zero =>
    intro sc ready
    exact ⟨[], takes_nothing ready rfl rfl⟩
  | succ fuel ih =>
    intro sc ready
    unfold plainRead
    split
    · next room =>
      cases read : ps2kbdRead sc.ps2kbd with
      | none => exact ⟨[], takes_nothing ready rfl rfl⟩
      | some got =>
        obtain ⟨val, ps2kbd⟩ := got
        have begun := read_takes ready read
        have queued := queue_data_takes begun.ready val
        rw [if_pos room] at queued
        obtain ⟨vals, takes⟩ := ih _ queued.ready
        exact ⟨[val] ++ vals, takes_trans (takes_trans begun queued) takes⟩
    · exact ⟨[], takes_nothing ready rfl rfl⟩

theorem kbd_take_takes (ready : Ready sc) : ∃ vals out, Takes sc (kbdTake sc) vals out ∧
    (converted sc.translates vals = some out ↔ TakeKept sc sc.ps2kbd.bytes sc.kbd.num) := by
  unfold kbdTake TakeKept converted
  cases translates : sc.translates with
  | true =>
    obtain ⟨vals, out, takes, right⟩ := translated_read_takes _ false sc ready rfl
    refine ⟨vals, out, takes, ?_⟩
    simpa using right
  | false =>
    obtain ⟨vals, takes⟩ := plain_read_takes fifosz sc ready
    refine ⟨vals, vals, takes, ?_⟩
    simp

theorem kbd_read_takes (ready : Ready sc) : ∃ vals out, Takes sc (kbdRead sc) vals out ∧
    (converted sc.translates vals = some out ↔ TakeKept sc sc.ps2kbd.bytes sc.kbd.num) := by
  obtain ⟨vals, out, takes, right⟩ := kbd_take_takes ready
  refine ⟨vals, out, ?_, right⟩
  unfold kbdRead assertKbdIntr
  dsimp only
  split
  · split
    · exact ⟨takes.source, takes.dest, takes.ready.ps2kbd, takes.ready.kbd⟩
    · exact takes
  · exact takes

end

section
variable {sc t : Atkbdc}

/-- What the reads of the two FIFOs, and the choice between them, do not depend on may differ. -/
structure Alike (sc t : Atkbdc) : Prop where
  ps2kbd : t.ps2kbd = sc.ps2kbd
  ps2mouse : t.ps2mouse = sc.ps2mouse
  kbd : t.kbd = sc.kbd
  ram : t.ram = sc.ram
  ctrlbyte : t.ctrlbyte = sc.ctrlbyte

theorem aux_poll_alike (sc : Atkbdc) : Alike sc (auxPoll sc) := by
  unfold auxPoll assertAuxIntr
  split
  · split
    · exact ⟨rfl, rfl, rfl, rfl, rfl⟩
    · exact ⟨rfl, rfl, rfl, rfl, rfl⟩
  · exact ⟨rfl, rfl, rfl, rfl, rfl⟩

theorem aux_drained_alike (sc : Atkbdc) : Alike sc (auxDrained sc) := by
  unfold auxDrained
  split
  · exact ⟨rfl, rfl, rfl, rfl, rfl⟩
  · exact ⟨rfl, rfl, rfl, rfl, rfl⟩

theorem kbd_drained_alike (sc : Atkbdc) : Alike sc (kbdDrained sc) := by
  unfold kbdDrained
  split
  · exact ⟨rfl, rfl, rfl, rfl, rfl⟩
  · exact ⟨rfl, rfl, rfl, rfl, rfl⟩

theorem all_drained_alike (sc : Atkbdc) : Alike sc (allDrained sc) := by
  unfold allDrained
  split
  · exact ⟨rfl, rfl, rfl, rfl, rfl⟩
  · exact ⟨rfl, rfl, rfl, rfl, rfl⟩

theorem alike_trans {u : Atkbdc} (first : Alike sc t) (second : Alike t u) : Alike sc u :=
  ⟨second.ps2kbd.trans first.ps2kbd, second.ps2mouse.trans first.ps2mouse,
    second.kbd.trans first.kbd, second.ram.trans first.ram, second.ctrlbyte.trans first.ctrlbyte⟩

theorem alike_ready (alike : Alike sc t) (ready : Ready sc) : Ready t :=
  (takes_nothing ready alike.ps2kbd alike.kbd).ready

theorem poll_takes (ready : Ready sc) (alike : Alike sc t) : ∃ vals out, Takes sc (poll t) vals out ∧
    (converted sc.translates vals = some out ↔ TakeKept sc sc.ps2kbd.bytes sc.kbd.num) ∧
    (poll t).ps2mouse = sc.ps2mouse ∧ (poll t).ctrlbyte = sc.ctrlbyte ∧ (poll t).ram = sc.ram := by
  have polled := alike_trans alike (aux_poll_alike t)
  have queues := kbd_read_queues (auxPoll t)
  obtain ⟨vals, out, takes, right⟩ := kbd_read_takes (alike_ready polled ready)
  have begun := takes_trans (takes_nothing ready polled.ps2kbd polled.kbd) takes
  refine ⟨vals, out, begun, ?_, queues.ps2mouse.trans polled.ps2mouse,
    queues.ctrlbyte.trans polled.ctrlbyte, queues.ram.trans polled.ram⟩
  rw [Atkbdc.translates, polled.ram, ← Atkbdc.translates] at right
  rw [right, TakeKept, TakeKept, polled.ps2kbd, polled.kbd, Atkbdc.translates, polled.ram,
    ← Atkbdc.translates]

/-- How many reads of port 0x60 return something else before a byte of the keyboard. -/
def Atkbdc.ahead (sc : Atkbdc) : Nat := (if sc.awaits then 1 else 0) + sc.ps2mouse.fifo.num

theorem ahead_congr (ps2mouse : t.ps2mouse = sc.ps2mouse) (ctrlbyte : t.ctrlbyte = sc.ctrlbyte) :
    t.ahead = sc.ahead := by
  unfold Atkbdc.ahead Atkbdc.awaits
  rw [ps2mouse, ctrlbyte]

structure Shows (sc t : Atkbdc) (shown vals out : List Byte) : Prop where
  source : sc.ps2kbd.bytes = vals ++ t.ps2kbd.bytes
  dest : sc.waiting ++ out = shown ++ t.waiting
  ready : Ready t
  goes : sc.waiting = [] ∨ (shown = [] ∧ t.ahead < sc.ahead) ∨
    ∃ val, shown = [val] ∧ t.ahead ≤ sc.ahead

def DataKept (sc : Atkbdc) : Prop :=
  sc.awaits = false → (sc.moused = true → TakeKept sc sc.ps2kbd.bytes sc.kbd.num) ∧
    (sc.moused = false → sc.keyed = true → TakeKept sc sc.ps2kbd.bytes (sc.kbd.num - 1))

theorem set_one_nothing (sc : Atkbdc) : converted sc.translates [] = some [] := by
  unfold converted
  split <;> rfl

theorem mouse_dequeue_shows (ready : Ready sc)
    {val : Byte} {ps2mouse : Ps2mouse} (read : ps2mouseRead sc.ps2mouse = some (val, ps2mouse)) :
    sc.moused = true ∧ ∃ vals out,
      Shows sc (poll (auxDrained { sc with ps2mouse := ps2mouse })) [] vals out ∧
      (converted sc.translates vals = some out ↔ TakeKept sc sc.ps2kbd.bytes sc.kbd.num) := by
  have first : Ready { sc with ps2mouse := ps2mouse } := ⟨ready.ps2kbd, ready.kbd⟩
  obtain ⟨vals, out, takes, right, mouse, response, -⟩ := poll_takes first (aux_drained_alike _)
  unfold ps2mouseRead BoundedFifo.get at read
  split at read
  · next some_ =>
    cases read
    refine ⟨decide_eq_true some_, vals, out, ?_, right⟩
    refine ⟨takes.source, takes.dest.symm, takes.ready, .inr (.inl ⟨rfl, ?_⟩)⟩
    unfold Atkbdc.ahead Atkbdc.awaits
    rw [mouse, response]
    exact Nat.add_lt_add_left (Nat.sub_lt some_ Nat.one_pos) _
  · cases read

theorem kbd_dequeue_shows (ready : Ready sc) {val : Byte} {kbd : Fifo Byte}
    (read : get fifosz sc.kbd = some (val, kbd)) : ∃ vals out,
      Shows sc (allDrained (poll (kbdDrained { sc with kbd := kbd }))) [val] vals out ∧
      (converted sc.translates vals = some out ↔
        TakeKept sc sc.ps2kbd.bytes (sc.kbd.num - 1)) := by
  obtain ⟨front, count⟩ := contents_get ready.kbd read
  have first : Ready { sc with kbd := kbd } := ⟨ready.ps2kbd, get_valid ready.kbd read⟩
  obtain ⟨vals, out, takes, right, mouse, response, -⟩ := poll_takes first (kbd_drained_alike _)
  have drained := all_drained_alike (poll (kbdDrained { sc with kbd := kbd }))
  refine ⟨vals, out, ⟨?_, ?_, alike_ready drained takes.ready, .inr (.inr ⟨val, rfl, ?_⟩)⟩, ?_⟩
  · rw [drained.ps2kbd]
    exact takes.source
  · have same : (allDrained (poll (kbdDrained { sc with kbd := kbd }))).waiting =
        (poll (kbdDrained { sc with kbd := kbd })).waiting := congrArg (contents fifosz) drained.kbd
    have before : sc.waiting = val :: Atkbdc.waiting { sc with kbd := kbd } := front
    rw [same, takes.dest, before]
    rfl
  · apply Nat.le_of_eq
    exact ahead_congr (drained.ps2mouse.trans mouse) (drained.ctrlbyte.trans response)
  · have less : sc.kbd.num - 1 = kbd.num := by omega
    rw [less]
    exact right

theorem dequeue_shows (ready : Ready sc) (idle : sc.awaits = false) : ∃ shown vals out,
    Shows sc (dequeueData sc).2 shown vals out ∧
    (converted sc.translates vals = some out ↔ DataKept sc) ∧
    shown = if sc.moused then [] else (dequeueData sc).1.toList := by
  unfold dequeueData
  cases mouse : ps2mouseRead sc.ps2mouse with
  | some got =>
    obtain ⟨moused, vals, out, shows_, right⟩ := mouse_dequeue_shows ready mouse
    refine ⟨[], vals, out, shows_, ?_, (if_pos moused).symm⟩
    rw [right, DataKept, moused]
    simp [idle]
  | none =>
    have empty := get_none.mp (Option.map_eq_none_iff.mp mouse)
    have unmoused : sc.moused = false := decide_eq_false (Nat.not_lt.mpr (Nat.le_of_eq empty))
    rw [DataKept, unmoused]
    cases keyboard : get fifosz sc.kbd with
    | some got =>
      obtain ⟨val, kbd⟩ := got
      obtain ⟨vals, out, shows_, right⟩ := kbd_dequeue_shows ready keyboard
      have keyed : sc.keyed = true := decide_eq_true ((get_some_iff _).mpr ⟨_, keyboard⟩)
      refine ⟨[val], vals, out, shows_, ?_, rfl⟩
      rw [right]
      simp [idle, keyed]
    | none =>
      have none_ := get_none.mp keyboard
      have unkeyed : sc.keyed = false := decide_eq_false (Nat.not_lt.mpr (Nat.le_of_eq none_))
      have drained := all_drained_alike sc
      have same := takes_nothing ready drained.ps2kbd drained.kbd
      have nothing : sc.waiting = [] := eq_nil_of_length_eq_zero ((contents_length _).trans none_)
      refine ⟨[], [], [], ⟨same.source, same.dest.symm, same.ready, .inl nothing⟩, ?_, rfl⟩
      simp [set_one_nothing, unkeyed]

theorem data_in_shows (ready : Ready sc) {bytes : Int} (narrow : bytes ≤ 2) (eax : BitVec 32) :
    ∃ vals out, Shows sc (dataIn sc).sc (presented sc (.data true bytes eax)) vals out ∧
      (converted sc.translates vals = some out ↔ DataKept sc) := by
  have shown : presented sc (.data true bytes eax) =
      if sc.awaits = false ∧ sc.moused = false then
        ((dataIn sc).eax.map (BitVec.setWidth 8)).toList
      else [] := by
    show (if bytes ≤ 2 ∧ _ then _ else _) = _
    simp only [narrow, true_and]
  rw [shown]
  cases awaits : sc.awaits with
  | true =>
    rw [data_in_response awaits, if_neg (by simp), DataKept, awaits]
    refine ⟨[], [], ⟨rfl, append_nil _, ⟨ready.ps2kbd, ready.kbd⟩, .inr (.inl ⟨rfl, ?_⟩)⟩, ?_⟩
    · unfold Atkbdc.ahead
      rw [awaits]
      show 0 + sc.ps2mouse.fifo.num < 1 + sc.ps2mouse.fifo.num
      omega
    · simp [set_one_nothing]
  | false =>
    have begun : Ready { sc with curcmd := 0 } := ⟨ready.ps2kbd, ready.kbd⟩
    obtain ⟨vals, out, vals', shows_, right, same⟩ := dequeue_shows begun awaits
    rw [data_in_idle awaits]
    refine ⟨out, vals', ?_, right⟩
    have equal : (if false = false ∧ sc.moused = false then
        (((dequeueData { sc with curcmd := 0 }).1.map (BitVec.setWidth 32)).map
          (BitVec.setWidth 8)).toList else []) = vals := by
      rw [same]
      show _ = if sc.moused = true then [] else _
      cases sc.moused with
      | true => simp
      | false =>
        cases (dequeueData { sc with curcmd := 0 }).1 <;> simp
    rw [equal]
    exact ⟨shows_.source, shows_.dest, ⟨shows_.ready.ps2kbd, shows_.ready.kbd⟩, shows_.goes⟩

theorem eventually_presented (count : Nat) : ∀ sc front, Ready sc → front <+: sc.waiting →
    sc.ahead + front.length ≤ count → ∃ n, front <+: presentedBy n sc := by
  induction count with
  | zero =>
    intro sc front ready isPrefix enough
    have nothing : front = [] := eq_nil_of_length_eq_zero (by omega)
    rw [nothing]
    exact ⟨0, nil_prefix⟩
  | succ count ih =>
    intro sc front ready isPrefix enough
    cases front with
    | nil => exact ⟨0, nil_prefix⟩
    | cons val rest =>
      obtain ⟨vals, out, shows_, -⟩ := data_in_shows ready (by decide : (1 : Int) ≤ 2) 0
      have grown : val :: rest <+: presented sc readData ++ (dataIn sc).sc.waiting := by
        rw [readData, ← shows_.dest]
        exact isPrefix.trans (prefix_append ..)
      obtain nothing | ⟨hidden, less⟩ | ⟨shown, one, less⟩ := shows_.goes
      · rw [nothing] at isPrefix
        cases List.prefix_nil.mp isPrefix
      · rw [readData, hidden] at grown
        obtain ⟨n, later⟩ := ih (dataIn sc).sc (val :: rest) shows_.ready grown (by omega)
        refine ⟨n + 1, ?_⟩
        show _ <+: presented sc readData ++ presentedBy n (dataIn sc).sc
        rw [readData, hidden]
        exact later
      · rw [readData, one] at grown
        obtain ⟨same, tail⟩ := List.cons_prefix_cons.mp grown
        rw [length_cons] at enough
        obtain ⟨n, later⟩ := ih (dataIn sc).sc rest shows_.ready tail (by omega)
        refine ⟨n + 1, ?_⟩
        show _ <+: presented sc readData ++ presentedBy n (dataIn sc).sc
        rw [readData, one, same]
        exact List.cons_prefix_cons.mpr ⟨rfl, later⟩

end

section
variable {sc : Atkbdc}

theorem fifo_puts_bytes (vals : List Byte) : ∀ kbd : Ps2kbd, kbd.Valid →
    (kbd.fifoPuts vals).bytes = kbd.bytes ++ vals.take (ps2kbdFifosz - kbd.fifo.num) := by
  induction vals with
  | nil =>
    intro kbd _
    rw [take_nil, append_nil]
    rfl
  | cons val rest ih =>
    intro kbd valid
    show ((kbd.fifoPut val).fifoPuts rest).bytes = _
    rw [ih _ (fifo_put_valid valid val)]
    show contents ps2kbdFifosz (put ps2kbdFifosz kbd.fifo val) ++
      rest.take (ps2kbdFifosz - (put ps2kbdFifosz kbd.fifo val).num) = contents _ kbd.fifo ++ _
    by_cases room : kbd.fifo.num < ps2kbdFifosz
    · have more : ps2kbdFifosz - kbd.fifo.num = ps2kbdFifosz - (kbd.fifo.num + 1) + 1 := by omega
      rw [contents_put valid room, put_num room, more, take_succ_cons, List.append_assoc,
        singleton_append]
    · have full : ps2kbdFifosz - kbd.fifo.num = 0 := by omega
      rw [put_full room, full, take_zero, take_zero]

theorem entered_eq (ready : Ready sc) (down : Bool) (keysym : BitVec 32) :
    entered sc (.key down keysym) =
      (if sc.ps2kbd.enabled then
        (scancode down keysym).take (ps2kbdFifosz - sc.ps2kbd.fifo.num)
      else []) ∧
    (ps2kbdEvent sc.ps2kbd down keysym).1.bytes =
      sc.ps2kbd.bytes ++ entered sc (.key down keysym) := by
  have event : (ps2kbdEvent sc.ps2kbd down keysym).1.bytes = sc.ps2kbd.bytes ++
      (if sc.ps2kbd.enabled then
        (scancode down keysym).take (ps2kbdFifosz - sc.ps2kbd.fifo.num)
      else []) := by
    unfold ps2kbdEvent
    cases sc.ps2kbd.enabled with
    | true => exact fifo_puts_bytes _ _ ready.ps2kbd
    | false => exact (append_nil _).symm
  have same : entered sc (.key down keysym) = (if sc.ps2kbd.enabled then
        (scancode down keysym).take (ps2kbdFifosz - sc.ps2kbd.fifo.num)
      else []) := by
    show (ps2kbdEvent sc.ps2kbd down keysym).1.bytes.drop sc.ps2kbd.bytes.length = _
    rw [event, drop_left]
  exact ⟨same, by rw [event, same]⟩

theorem take_whole_iff (vals : List Byte) (room : Nat) :
    vals.take room = [] ∨ vals.take room = vals ↔ (0 < room → vals.length ≤ room) := by
  rw [take_eq_self_iff, take_eq_nil_iff]
  constructor
  · intro whole positive
    obtain (none_ | nothing) | fits := whole
    · omega
    · rw [nothing]
      exact Nat.zero_le room
    · exact fits
  · intro fits
    by_cases positive : 0 < room
    · exact .inr (fits positive)
    · exact .inl (.inl (Nat.eq_zero_of_not_pos positive))

theorem key_takes (ready : Ready sc) (down : Bool) (keysym : BitVec 32) : ∃ vals out,
    sc.ps2kbd.bytes ++ entered sc (.key down keysym) =
      vals ++ (step sc (.key down keysym)).ps2kbd.bytes ∧
    (step sc (.key down keysym)).waiting = sc.waiting ++ out ∧ Ready (step sc (.key down keysym)) ∧
    (converted sc.translates vals = some out ↔
      (sc.ps2kbd.enabled = true → sc.ps2kbd.fifo.num < ps2kbdFifosz →
        TakeKept sc (sc.ps2kbd.bytes ++ entered sc (.key down keysym)) sc.kbd.num)) := by
  obtain ⟨-, source⟩ := entered_eq ready down keysym
  have pressed : Ready { sc with ps2kbd := (ps2kbdEvent sc.ps2kbd down keysym).1 } :=
    ⟨ps2kbd_event_valid ready.ps2kbd down keysym, ready.kbd⟩
  have told : (ps2kbdEvent sc.ps2kbd down keysym).2 = true ↔
      sc.ps2kbd.enabled = true ∧ sc.ps2kbd.fifo.num < ps2kbdFifosz := by
    unfold ps2kbdEvent
    cases sc.ps2kbd.enabled with
    | true =>
      have most : sc.ps2kbd.fifo.num ≤ ps2kbdFifosz := ready.ps2kbd.room
      show (!decide (sc.ps2kbd.fifo.num = ps2kbdFifosz)) = true ↔ _
      rw [Bool.not_eq_true', decide_eq_false_iff_not, eq_self, true_and]
      exact ⟨fun more => Nat.lt_of_le_of_ne most more, Nat.ne_of_lt⟩
    | false => simp
  unfold step
  dsimp only
  split
  · next heard =>
    obtain ⟨vals, out, takes, right⟩ := kbd_read_takes pressed
    refine ⟨vals, out, source.symm.trans takes.source, takes.dest, takes.ready, ?_⟩
    rw [← source]
    refine Iff.trans right ⟨fun kept _ _ => kept, fun kept => ?_⟩
    exact kept (told.mp heard).1 (told.mp heard).2
  · next unheard =>
    refine ⟨[], [], source.symm, (append_nil _).symm, pressed, ?_⟩
    refine iff_of_true (set_one_nothing sc) fun enabled room => ?_
    exact absurd (told.mpr ⟨enabled, room⟩) unheard

end

section
variable {sc : Atkbdc}

theorem poll_ready (ready : Ready sc) : Ready (poll sc) := by
  obtain ⟨vals, out, takes, -⟩ := poll_takes ready ⟨rfl, rfl, rfl, rfl, rfl⟩
  exact takes.ready

theorem argument_ready (ready : Ready sc) (val : Byte) : Ready (argument sc val) := by
  unfold argument
  split
  · exact ⟨ready.ps2kbd, ready.kbd⟩
  split
  · exact ⟨ready.ps2kbd, ready.kbd⟩
  split
  · exact poll_ready ⟨ready.ps2kbd, ready.kbd⟩
  split
  · exact (queue_data_takes ready val).ready
  split
  · exact alike_ready (aux_poll_alike _) ⟨ready.ps2kbd, ready.kbd⟩
  split
  · exact ⟨ready.ps2kbd, ready.kbd⟩
  · exact ready

theorem data_out_ready (ready : Ready sc) (eax : BitVec 32) : Ready (dataOut sc eax) := by
  unfold dataOut
  split
  · have done := argument_ready ready (eax.setWidth 8)
    exact ⟨done.ps2kbd, done.kbd⟩
  · exact poll_ready ⟨ps2kbd_write_valid ready.ps2kbd _, ready.kbd⟩

theorem command_ready (ready : Ready sc) (cmd : BitVec 32) : Ready (command sc cmd) := by
  unfold command
  split
  · exact ⟨ready.ps2kbd, ready.kbd⟩
  split
  · exact ⟨ready.ps2kbd, ready.kbd⟩
  split
  · exact ⟨ready.ps2kbd, ready.kbd⟩
  split
  · exact poll_ready ⟨ready.ps2kbd, ready.kbd⟩
  split
  · exact ⟨ready.ps2kbd, ready.kbd⟩
  split
  · exact ⟨ready.ps2kbd, ready.kbd⟩
  · exact ready

theorem command_done_ready (ready : Ready sc) : Ready (commandDone sc) := by
  have asserted : ∀ t : Atkbdc, Ready t → Ready (assertKbdIntr t) ∧ Ready (assertAuxIntr t) := by
    intro t other
    unfold assertKbdIntr assertAuxIntr
    constructor <;> split <;> exact ⟨other.ps2kbd, other.kbd⟩
  unfold commandDone
  split
  · apply (asserted _ _).1
    exact ⟨ready.ps2kbd, ready.kbd⟩
  split
  · apply (asserted _ _).2
    exact ⟨ready.ps2kbd, ready.kbd⟩
  split
  · apply (asserted _ _).1
    exact ⟨ready.ps2kbd, ready.kbd⟩
  · exact ready

theorem step_ready (sc : Atkbdc) (event : Event) (ready : Ready sc) : Ready (step sc event) := by
  cases event with
  | data isIn bytes eax =>
    show Ready (atkbdcDataHandler sc isIn bytes eax).sc
    unfold atkbdcDataHandler
    split
    · exact ready
    split
    · next wide isRead =>
      obtain ⟨vals, out, shows_, -⟩ := data_in_shows ready (Int.not_lt.mp wide) eax
      exact shows_.ready
    · exact data_out_ready ready eax
  | status isIn bytes eax =>
    show Ready (atkbdcStsCtlHandler sc isIn bytes eax).sc
    unfold atkbdcStsCtlHandler
    split
    · exact ready
    split
    · exact ready
    · have begun : Ready (commandBegun sc) := ⟨ready.ps2kbd, ready.kbd⟩
      exact command_done_ready (command_ready begun eax)
  | key down keysym =>
    obtain ⟨vals, out, -, -, after, -⟩ := key_takes ready down keysym
    exact after
  | pointer button x y =>
    unfold step
    dsimp only
    split
    · exact alike_ready (aux_poll_alike _) ⟨ready.ps2kbd, ready.kbd⟩
    · exact ⟨ready.ps2kbd, ready.kbd⟩

theorem init_ready : Ready atkbdcInit := ⟨reset_valid, empty_valid (by decide) _⟩

end

section
variable {sc : Atkbdc} {input : Input} {vals out : List Byte}

theorem order_iff (ready : Ready (inputStep sc input))
    (source : sc.ps2kbd.bytes ++ entered sc input.event =
      vals ++ (inputStep sc input).ps2kbd.bytes)
    (dest : sc.waiting ++ out = presented sc input.event ++ (inputStep sc input).waiting) :
    ScancodesHold sc input ↔
      (∀ down keysym, input = .key down keysym →
        entered sc input.event = [] ∨ entered sc input.event = scancode down keysym) ∧
      converted sc.translates vals = some out := by
  have same : taken sc input.event = vals := by
    show (sc.ps2kbd.bytes ++ entered sc input.event).take
      ((sc.ps2kbd.bytes ++ entered sc input.event).length -
        (inputStep sc input).ps2kbd.bytes.length) = vals
    rw [source, length_append, Nat.add_sub_cancel, take_left]
  constructor
  · intro holds
    obtain ⟨other, conversion, shown⟩ := holds.order
    rw [← dest] at shown
    rw [same, append_cancel_left shown] at conversion
    exact ⟨holds.whole, conversion⟩
  · rintro ⟨whole, conversion⟩
    refine ⟨whole, by rw [same]; exact source, ⟨out, by rw [same]; exact conversion, dest⟩, ?_⟩
    exact eventually_presented _ _ _ ready (prefix_refl _) (Nat.le_refl _)

theorem key_holds_iff (ready : Ready sc) (down : Bool) (keysym : BitVec 32) :
    ScancodesHold sc (.key down keysym) ↔ ScancodesKept sc (.key down keysym) := by
  obtain ⟨vals, out, source, dest, after, right⟩ := key_takes ready down keysym
  have claim := @order_iff sc (.key down keysym) vals out after source dest.symm
  rw [claim, right]
  obtain ⟨bytes, -⟩ := entered_eq ready down keysym
  have whole : (entered sc (.key down keysym) = [] ∨
      entered sc (.key down keysym) = scancode down keysym) ↔
      (sc.ps2kbd.enabled = true → sc.ps2kbd.fifo.num < ps2kbdFifosz →
        sc.ps2kbd.fifo.num + (scancode down keysym).length ≤ ps2kbdFifosz) := by
    rw [bytes]
    cases sc.ps2kbd.enabled with
    | true =>
      rw [if_pos rfl, take_whole_iff]
      constructor
      · intro fits _ room
        omega
      · intro fits positive
        have enough := fits rfl (Nat.lt_of_sub_pos positive)
        omega
    | false => simp
  have entire : sc.ps2kbd.enabled = true → sc.ps2kbd.fifo.num < ps2kbdFifosz →
      sc.ps2kbd.fifo.num + (scancode down keysym).length ≤ ps2kbdFifosz →
        entered sc (.key down keysym) = scancode down keysym := by
    intro enabled room enough
    rw [bytes, if_pos enabled]
    exact take_of_length_le (by omega)
  show ((∀ d k, Input.key down keysym = .key d k → entered sc (.key down keysym) = [] ∨
    entered sc (.key down keysym) = scancode d k) ∧ _) ↔ _
  constructor
  · rintro ⟨entering, kept⟩ enabled room
    have enough := whole.mp (entering down keysym rfl) enabled room
    rw [← entire enabled room enough]
    exact ⟨by rw [entire enabled room enough]; exact enough, kept enabled room⟩
  · intro kept
    constructor
    · intro d k same
      cases same
      exact whole.mpr fun enabled room => (kept enabled room).1
    · intro enabled room
      obtain ⟨enough, held⟩ := kept enabled room
      rw [entire enabled room enough]
      exact held

theorem other_whole (other : ∀ down keysym, input ≠ .key down keysym) :
    ∀ down keysym, input = .key down keysym →
      entered sc input.event = [] ∨ entered sc input.event = scancode down keysym :=
  fun down keysym same => absurd same (other down keysym)

theorem idle_holds (ready : Ready sc) (idle : inputStep sc input = sc)
    (other : ∀ down keysym, input ≠ .key down keysym) (none_ : entered sc input.event = [])
    (hidden : presented sc input.event = []) : ScancodesHold sc input := by
  have source : sc.ps2kbd.bytes ++ entered sc input.event =
      [] ++ (inputStep sc input).ps2kbd.bytes := by
    rw [none_, idle, append_nil, nil_append]
  have dest : sc.waiting ++ [] = presented sc input.event ++ (inputStep sc input).waiting := by
    rw [hidden, idle, append_nil, nil_append]
  rw [order_iff (by rw [idle]; exact ready) source dest]
  exact ⟨other_whole other, set_one_nothing sc⟩

theorem data_holds_iff (ready : Ready sc) (bytes : Int) (eax : BitVec 32) :
    ScancodesHold sc (.data bytes eax) ↔ ScancodesKept sc (.data bytes eax) := by
  have other : ∀ down keysym, Input.data bytes eax ≠ .key down keysym := nofun
  by_cases narrow : bytes ≤ 2
  · have reads : inputStep sc (.data bytes eax) = (dataIn sc).sc := by
      show (atkbdcDataHandler sc true bytes eax).sc = _
      unfold atkbdcDataHandler
      rw [if_neg (Int.not_lt.mpr narrow)]
      rfl
    obtain ⟨vals, out, shows_, right⟩ := data_in_shows ready narrow eax
    rw [← reads] at shows_
    have source : sc.ps2kbd.bytes ++ entered sc (Input.data bytes eax).event =
        vals ++ (inputStep sc (.data bytes eax)).ps2kbd.bytes :=
      (append_nil _).trans shows_.source
    rw [order_iff shows_.ready source shows_.dest, right]
    exact ⟨fun both _ => both.2, fun kept => ⟨other_whole other, kept narrow⟩⟩
  · have refused : inputStep sc (.data bytes eax) = sc := by
      show (atkbdcDataHandler sc true bytes eax).sc = _
      unfold atkbdcDataHandler
      rw [if_pos (Int.not_le.mp narrow)]
    refine iff_of_true ?_ fun never => absurd never narrow
    apply idle_holds ready refused other rfl
    show (if bytes ≤ 2 ∧ _ then _ else _) = _
    rw [if_neg fun both => narrow both.1]

theorem status_holds (ready : Ready sc) (bytes : Int) (eax : BitVec 32) :
    ScancodesHold sc (.status bytes eax) := by
  have kept : inputStep sc (.status bytes eax) = sc := by
    show (atkbdcStsCtlHandler sc true bytes eax).sc = _
    unfold atkbdcStsCtlHandler
    split
    · rfl
    · rfl
  exact idle_holds ready kept nofun rfl rfl

theorem scancodes_hold_iff (sc : Atkbdc) (input : Input) (ready : Ready sc) :
    ScancodesHold sc input ↔ ScancodesKept sc input := by
  cases input with
  | key down keysym => exact key_holds_iff ready down keysym
  | data bytes eax => exact data_holds_iff ready bytes eax
  | status bytes eax => exact iff_of_true (status_holds ready bytes eax) trivial

/-- From every state that the controller can be in, scancodes go through it whole exactly as long as
    each key event finds room for all of its bytes or for none, and each read in translation finds a
    code and room for it. -/
theorem scancodes_whole_iff (events : List Event) (inputs : List Input) :
    Along inputStep ScancodesHold (run step atkbdcInit events) inputs ↔
      Along inputStep ScancodesKept (run step atkbdcInit events) inputs := by
  have ready : Ready (run step atkbdcInit events) :=
    invariant_every_run step_ready events atkbdcInit init_ready
  exact along_iff_of_invariant (fun sc input start _ => step_ready sc input.event start)
    scancodes_hold_iff inputs _ ready

theorem arrow_torn : ¬ Along inputStep ScancodesHold (run step atkbdcInit [.data false 1 0xf4])
    (.key true 0x61 :: List.replicate 15 (.key true 0xff51)) := by
  intro holds
  have last := (along_append (Input.key true 0x61 :: List.replicate 14 (Input.key true 0xff51))
    [Input.key true 0xff51] _ holds).2.1
  have torn : entered (run inputStep (run step atkbdcInit [.data false 1 0xf4])
      (.key true 0x61 :: List.replicate 14 (.key true 0xff51))) (.key true 0xff51) = [0xe0] := by
    decide
  obtain nothing | entire := last.whole true 0xff51 rfl
  · cases torn.symm.trans nothing
  · cases torn.symm.trans entire

end

end Kbdc
