import Bhyve.Kbdc.Ps2mouse
import Bhyve.Lib.StepRuns

/-!
The packets that the mouse queues, and the motion that they stand for, in an account beside it.
-/
namespace Kbdc
open BoundedFifo StepRuns
open List hiding get

section

structure Packet where
  val0 : Byte
  val1 : Byte
  val2 : Byte

def Packet.bytes (p : Packet) : List Byte := [p.val0, p.val1, p.val2]

def Packet.xOverflow (p : Packet) : Bool := p.val0.getLsbD 6
def Packet.yOverflow (p : Packet) : Bool := p.val0.getLsbD 7

/-- A displacement of nine bits, with its sign in the first byte. -/
def Packet.dx (p : Packet) : Int := (BitVec.ofBool (p.val0.getLsbD 4) ++ p.val1).toInt
def Packet.dy (p : Packet) : Int := (BitVec.ofBool (p.val0.getLsbD 5) ++ p.val2).toInt

def movementPacket (sc : Ps2mouse) : Packet :=
  let (flagsX, val1) := displacement sc.deltaX ps2mDataXSign ps2mDataXOflow
  let (flagsY, val2) := displacement sc.deltaY ps2mDataYSign ps2mDataYOflow
  ⟨ps2mDataAone ||| (sc.status &&& ps2mDataButtons) ||| flagsX ||| flagsY, val1, val2⟩

def Small (delta : Int) : Prop := -255 ≤ delta ∧ delta ≤ 255

instance (delta : Int) : Decidable (Small delta) := inferInstanceAs (Decidable (_ ∧ _))

def shown (delta : Int) : Int := if Small delta then delta else if 0 ≤ delta then 255 else -1

variable {delta : Int}

theorem shown_small (small : Small delta) : shown delta = delta := if_pos small

theorem shown_above (above : 255 < delta) : shown delta = 255 := by
  have large : ¬Small delta := fun small => Int.not_lt.mpr small.2 above
  unfold shown
  rw [if_neg large, if_pos (by omega)]

theorem shown_below (below : delta < -255) : shown delta = -1 := by
  have large : ¬Small delta := fun small => Int.not_lt.mpr small.1 below
  unfold shown
  rw [if_neg large, if_neg (by omega)]

variable (sc : Ps2mouse)

theorem movement_get_packet : movementGet sc =
      if sc.fifo.num < ps2mouseFifosz - 3 then
        { sc with deltaX := 0, deltaY := 0 }.fifoPuts (movementPacket sc).bytes
      else { sc with deltaX := 0, deltaY := 0 } := rfl

theorem displacement_flags (delta : Int) (sign oflow : Byte) (k : Nat) :
    (displacement delta sign oflow).1.getLsbD k =
      (decide (delta < 0) && sign.getLsbD k || decide (¬Small delta) && oflow.getLsbD k) := by
  unfold displacement Small
  split
  · split
    · have positive : ¬delta < 0 := by omega
      have large : ¬(-255 ≤ delta ∧ delta ≤ 255) := by omega
      simp [positive, large]
    · have positive : ¬delta < 0 := by omega
      have small : -255 ≤ delta ∧ delta ≤ 255 := by omega
      simp [positive, small]
  · split
    · have negative : delta < 0 := by omega
      have large : ¬(-255 ≤ delta ∧ delta ≤ 255) := by omega
      simp [negative, large]
    · have negative : delta < 0 := by omega
      have small : -255 ≤ delta ∧ delta ≤ 255 := by omega
      simp [negative, small]

theorem displacement_shown (delta : Int) (sign oflow : Byte) :
    (BitVec.ofBool (decide (delta < 0)) ++ (displacement delta sign oflow).2).toInt = shown delta := by
  have byte : ∀ i : Int, ((BitVec.ofInt 8 i).toNat : Int) = i % 256 := by
    intro i
    rw [BitVec.toNat_ofInt]
    omega
  have whole : ((255 : Byte).toNat : Int) = 255 := rfl
  have plus : (BitVec.ofBool false).toInt = 0 := by decide
  have minus : (BitVec.ofBool true).toInt = -1 := by decide
  have append : ∀ (sign : Bool) (val : Byte), (BitVec.ofBool sign ++ val).toInt =
      256 * (BitVec.ofBool sign).toInt + val.toNat := fun _ _ => BitVec.toInt_append
  rw [append]
  unfold displacement
  by_cases negative : delta < 0
  · rw [decide_eq_true negative, minus, if_neg (by omega)]
    by_cases below : delta < -255
    · rw [if_pos below, whole, shown_below below]
      rfl
    · rw [if_neg below, byte, shown_small ⟨by omega, by omega⟩]
      omega
  · rw [decide_eq_false negative, plus, if_pos (by omega)]
    by_cases above : 255 < delta
    · rw [if_pos above, whole, shown_above above]
      rfl
    · rw [if_neg above, byte, shown_small ⟨by omega, by omega⟩]
      omega

theorem packet_flag {k : Nat} (flag : 4 ≤ k ∧ k < 8) : (movementPacket sc).val0.getLsbD k =
      ((displacement sc.deltaX ps2mDataXSign ps2mDataXOflow).1.getLsbD k ||
        (displacement sc.deltaY ps2mDataYSign ps2mDataYOflow).1.getLsbD k) := by
  have low : ps2mDataAone.getLsbD k = false ∧ ps2mDataButtons.getLsbD k = false := by
    have place : k = 4 ∨ k = 5 ∨ k = 6 ∨ k = 7 := by omega
    rcases place with rfl | rfl | rfl | rfl <;> decide
  unfold movementPacket
  rw [BitVec.getLsbD_or, BitVec.getLsbD_or, BitVec.getLsbD_or, BitVec.getLsbD_and, low.1, low.2,
    Bool.and_false, Bool.false_or, Bool.false_or]

theorem packet_dx : (movementPacket sc).dx = shown sc.deltaX := by
  have sign : (movementPacket sc).val0.getLsbD 4 = decide (sc.deltaX < 0) := by
    rw [packet_flag sc (by decide), displacement_flags, displacement_flags]
    simp [ps2mDataXSign, ps2mDataXOflow, ps2mDataYSign, ps2mDataYOflow]
  unfold Packet.dx
  rw [sign]
  exact displacement_shown sc.deltaX ps2mDataXSign ps2mDataXOflow

theorem packet_dy : (movementPacket sc).dy = shown sc.deltaY := by
  have sign : (movementPacket sc).val0.getLsbD 5 = decide (sc.deltaY < 0) := by
    rw [packet_flag sc (by decide), displacement_flags, displacement_flags]
    simp [ps2mDataXSign, ps2mDataXOflow, ps2mDataYSign, ps2mDataYOflow]
  unfold Packet.dy
  rw [sign]
  exact displacement_shown sc.deltaY ps2mDataYSign ps2mDataYOflow

theorem packet_x_overflow : (movementPacket sc).xOverflow = decide (¬Small sc.deltaX) := by
  unfold Packet.xOverflow
  rw [packet_flag sc (by decide), displacement_flags, displacement_flags]
  simp [ps2mDataXSign, ps2mDataXOflow, ps2mDataYSign, ps2mDataYOflow]

theorem packet_y_overflow : (movementPacket sc).yOverflow = decide (¬Small sc.deltaY) := by
  unfold Packet.yOverflow
  rw [packet_flag sc (by decide), displacement_flags, displacement_flags]
  simp [ps2mDataXSign, ps2mDataXOflow, ps2mDataYSign, ps2mDataYOflow]

end

section

/-- What the mouse queues at once: an answer to a byte written to it, or a packet with the
    displacement that it stands for. -/
inductive Item where
  | response (vals : List Byte)
  | packet (p : Packet) (dx dy : Int)

def Item.bytes : Item → List Byte
  | .response vals => vals
  | .packet p _ _ => p.bytes

def Item.Decodes : Item → Prop
  | .response _ => True
  | .packet p dx dy => (p.xOverflow = false → p.dx = dx) ∧ (p.yOverflow = false → p.dy = dy)

def movementItem (sc : Ps2mouse) : Item := .packet (movementPacket sc) sc.deltaX sc.deltaY

variable (sc : Ps2mouse)

theorem movement_decodes : (movementItem sc).Decodes := by
  constructor
  · rw [packet_x_overflow, packet_dx]
    intro fits
    exact shown_small (not_not.mp (of_decide_eq_false fits))
  · rw [packet_y_overflow, packet_dy]
    intro fits
    exact shown_small (not_not.mp (of_decide_eq_false fits))

def Commands (insert : Bool) : Prop := sc.curcmd = 0 ∧ insert = false

instance (sc : Ps2mouse) (insert : Bool) : Decidable (Commands sc insert) :=
  inferInstanceAs (Decidable (_ ∧ _))

def commandAnswer (val : Byte) : List Byte :=
  if val = ps2mcResetDev then [ps2mcAck, ps2mcBatSuccess, ps2mouseDevId]
  else if val = ps2mcSendDevId then [ps2mcAck, ps2mouseDevId]
  else if val = ps2mcSendDevStatus then [ps2mcAck, sc.status, sc.resolution, sc.samplingRate]
  else [ps2mcAck]

def answer (val : Byte) (insert : Bool) : List Byte :=
  if Commands sc insert then commandAnswer sc val
  else if sc.curcmd = 0 then [val]
  else if sc.curcmd = ps2mcSetSamplingRate ∨ sc.curcmd = ps2mcSetResolution then [ps2mcAck]
  else []

def Sends (val : Byte) (insert : Bool) : Prop :=
  Commands sc insert ∧ val = ps2mcSendDevData

def Resets (val : Byte) (insert : Bool) : Prop :=
  Commands sc insert ∧ (val = ps2mcResetDev ∨ val = ps2mcSetDefaults)

instance (sc : Ps2mouse) (val : Byte) (insert : Bool) : Decidable (Sends sc val insert) :=
  inferInstanceAs (Decidable (_ ∧ _))

instance (sc : Ps2mouse) (val : Byte) (insert : Bool) : Decidable (Resets sc val insert) :=
  inferInstanceAs (Decidable (_ ∧ _))

def itemsWritten (val : Byte) (insert : Bool) : List Item :=
  .response (answer sc val insert) :: if Sends sc val insert then [movementItem sc] else []

variable {sc : Ps2mouse}

/-- What a write leaves: bytes in an empty FIFO, and the motion that was pending unless the byte
    reports or discards it. -/
structure Written (sc : Ps2mouse) (val : Byte) (insert : Bool) (after : Ps2mouse) : Prop where
  fifo : after.fifo =
    ((itemsWritten sc val insert).flatMap Item.bytes).foldl (put ps2mouseFifosz) fifoReset
  deltaX : after.deltaX = if Sends sc val insert ∨ Resets sc val insert then 0 else sc.deltaX
  deltaY : after.deltaY = if Sends sc val insert ∨ Resets sc val insert then 0 else sc.deltaY

theorem command_written (ready : sc.curcmd = 0) (val : Byte) :
    Written sc val false (ps2mouseCommand { sc with fifo := fifoReset } val) := by
  have commands : Commands sc false := ⟨ready, rfl⟩
  have sends : Sends sc val false ↔ val = ps2mcSendDevData := and_iff_right commands
  have resets : Resets sc val false ↔ val = ps2mcResetDev ∨ val = ps2mcSetDefaults :=
    and_iff_right commands
  have answers : answer sc val false = commandAnswer sc val := if_pos commands
  have items : itemsWritten sc val false = .response (commandAnswer sc val) ::
      if val = ps2mcSendDevData then [movementItem sc] else [] := by
    unfold itemsWritten
    rw [answers]
    simp only [sends]
  suffices found : (ps2mouseCommand { sc with fifo := fifoReset } val).fifo =
        ((Item.response (commandAnswer sc val) ::
          if val = ps2mcSendDevData then [movementItem sc] else []).flatMap Item.bytes).foldl
            (put ps2mouseFifosz) fifoReset ∧
      (ps2mouseCommand { sc with fifo := fifoReset } val).deltaX =
        (if val = ps2mcSendDevData ∨ val = ps2mcResetDev ∨ val = ps2mcSetDefaults then 0
          else sc.deltaX) ∧
      (ps2mouseCommand { sc with fifo := fifoReset } val).deltaY =
        (if val = ps2mcSendDevData ∨ val = ps2mcResetDev ∨ val = ps2mcSetDefaults then 0
          else sc.deltaY) by
    obtain ⟨fifo, x, y⟩ := found
    constructor
    · rw [items]
      exact fifo
    · simp only [sends, resets]
      exact x
    · simp only [sends, resets]
      exact y
  by_cases known : val ∈ [ps2mcResetDev, ps2mcSetDefaults, ps2mcDisable, ps2mcEnable,
      ps2mcSetSamplingRate, ps2mcSetResolution, ps2mcSendDevId, ps2mcSetRemoteMode,
      ps2mcSendDevData, ps2mcSetStreamMode, ps2mcSendDevStatus]
  · simp only [mem_cons, not_mem_nil, or_false] at known
    rcases known with rfl | rfl | rfl | rfl | rfl | rfl | rfl | rfl | rfl | rfl | rfl <;>
      exact ⟨rfl, rfl, rfl⟩
  · simp only [mem_cons, not_mem_nil, or_false, not_or] at known
    simp [ps2mouseCommand, commandAnswer, known, Ps2mouse.fifoPuts, Item.bytes]

theorem written_quiet {val : Byte} {insert : Bool} {after : Ps2mouse} (quiet : ¬Commands sc insert)
    (fifo : after.fifo = (answer sc val insert).foldl (put ps2mouseFifosz) fifoReset)
    (x : after.deltaX = sc.deltaX) (y : after.deltaY = sc.deltaY) : Written sc val insert after := by
  have silent : ¬Sends sc val insert := fun sends => quiet sends.1
  have kept : ¬(Sends sc val insert ∨ Resets sc val insert) := by
    rintro (sends | resets)
    · exact quiet sends.1
    · exact quiet resets.1
  constructor
  · unfold itemsWritten
    rw [if_neg silent, flatMap_cons, flatMap_nil, append_nil]
    exact fifo
  · rw [if_neg kept, x]
  · rw [if_neg kept, y]

theorem write_written (sc : Ps2mouse) (val : Byte) (insert : Bool) :
    Written sc val insert (ps2mouseWrite sc val insert) := by
  unfold ps2mouseWrite
  by_cases ready : sc.curcmd = 0
  · rw [if_neg (not_not.mpr ready)]
    cases insert with
    | false => exact command_written ready val
    | true =>
      have quiet : ¬Commands sc true := fun commands => Bool.noConfusion commands.2
      have echoed : answer sc val true = [val] := by
        unfold answer
        rw [if_neg quiet, if_pos ready]
      refine written_quiet quiet ?_ rfl rfl
      rw [echoed]
      rfl
  · have quiet : ¬Commands sc insert := fun commands => ready commands.1
    have argument : answer sc val insert =
        if sc.curcmd = ps2mcSetSamplingRate ∨ sc.curcmd = ps2mcSetResolution then [ps2mcAck]
        else [] := by
      unfold answer
      rw [if_neg quiet, if_neg ready]
    rw [if_pos ready]
    unfold ps2mouseArgument
    by_cases rate : sc.curcmd = ps2mcSetSamplingRate
    · rw [if_pos rate]
      rw [if_pos (.inl rate)] at argument
      exact written_quiet quiet (by rw [argument]; rfl) rfl rfl
    · rw [if_neg rate]
      by_cases resolution : sc.curcmd = ps2mcSetResolution
      · rw [if_pos resolution]
        rw [if_pos (.inr resolution)] at argument
        exact written_quiet quiet (by rw [argument]; rfl) rfl rfl
      · rw [if_neg resolution]
        rw [if_neg (not_or.mpr ⟨rate, resolution⟩)] at argument
        exact written_quiet quiet (by rw [argument]; rfl) rfl rfl

theorem items_few (sc : Ps2mouse) (val : Byte) (insert : Bool) :
    ((itemsWritten sc val insert).flatMap Item.bytes).length ≤ ps2mouseFifosz := by
  have few : (answer sc val insert).length ≤ 4 := by
    unfold answer commandAnswer
    split_ifs <;> simp
  unfold itemsWritten
  rw [flatMap_cons, length_append]
  have first : (Item.response (answer sc val insert)).bytes.length ≤ 4 := few
  have size : ps2mouseFifosz = 16 := rfl
  split
  · have second : ([movementItem sc].flatMap Item.bytes).length = 3 := rfl
    omega
  · have second : (([] : List Item).flatMap Item.bytes).length = 0 := rfl
    omega

theorem items_decode (sc : Ps2mouse) (val : Byte) (insert : Bool) :
    ∀ i ∈ itemsWritten sc val insert, i.Decodes := by
  intro i member
  rcases List.mem_cons.mp member with rfl | more
  · trivial
  · split at more
    · rw [List.mem_singleton.mp more]
      exact movement_decodes sc
    · cases more

end

section

/-- While the mouse reports: what the packets of this time show, and the motion of the pointer in
    this time with what was pending at its start. -/
structure Account where
  queuedX : Int
  queuedY : Int
  displacedX : Int
  displacedY : Int

structure WatchedMouse where
  sc : Ps2mouse
  items : List Item
  taken : List Byte
  pointerX : Int
  pointerY : Int
  account : Option Account

def WatchedMouse.start : WatchedMouse := ⟨ps2mouseInit, [], [], 0, 0, none⟩

inductive MouseAct where
  | event (button : Byte) (x y : Int)
  | read
  | write (val : Byte) (insert : Bool)
  | toggle (enable : Bool)

def MouseAct.run (sc : Ps2mouse) : MouseAct → Ps2mouse
  | .event button x y => (ps2mouseEvent sc button x y).1
  | .read => ((ps2mouseRead sc).map (·.2)).getD sc
  | .write val insert => ps2mouseWrite sc val insert
  | .toggle enable => ps2mouseToggle sc enable

variable (sc : Ps2mouse)

def pointed (button : Byte) (x y : Int) : Ps2mouse :=
  { movementUpdate sc x y with status := buttonsPressed sc.status button }

def HasRoom (sc : Ps2mouse) : Prop := sc.fifo.num < ps2mouseFifosz - 3

instance (sc : Ps2mouse) : Decidable (HasRoom sc) := inferInstanceAs (Decidable (_ < _))

def MouseAct.packet (sc : Ps2mouse) : MouseAct → Option Item
  | .event button x y =>
      if sc.reporting ∧ HasRoom sc then some (movementItem (pointed sc button x y)) else none
  | .write val insert => if Sends sc val insert then some (movementItem sc) else none
  | _ => none

variable (w : WatchedMouse)

def WatchedMouse.itemsAfter : MouseAct → List Item
  | .write val insert => itemsWritten w.sc val insert
  | .toggle false => []
  | a => w.items ++ (a.packet w.sc).toList

def WatchedMouse.takenAfter : MouseAct → List Byte
  | .write _ _ => []
  | .toggle false => []
  | .read => w.taken ++ ((ps2mouseRead w.sc).map (·.1)).toList
  | _ => w.taken

def Item.dx : Item → Int
  | .response _ => 0
  | .packet p _ _ => p.dx

def Item.dy : Item → Int
  | .response _ => 0
  | .packet p _ _ => p.dy

def WatchedMouse.pointerAfter : MouseAct → Int × Int
  | .event _ x y => (x, y)
  | _ => (w.pointerX, w.pointerY)

def WatchedMouse.accountAfter (a : MouseAct) : Option Account :=
  let after := a.run w.sc
  let (x, y) := w.pointerAfter a
  if after.reporting then
    match w.account with
    | none => some ⟨0, 0, after.deltaX, after.deltaY⟩
    | some l => some {
        queuedX := l.queuedX + ((a.packet w.sc).map Item.dx).getD 0
        queuedY := l.queuedY + ((a.packet w.sc).map Item.dy).getD 0
        displacedX := l.displacedX + (x - w.pointerX)
        displacedY := l.displacedY + (w.pointerY - y) }
  else none

def watchedAct (a : MouseAct) : WatchedMouse :=
  { sc := a.run w.sc
    items := w.itemsAfter a
    taken := w.takenAfter a
    pointerX := (w.pointerAfter a).1
    pointerY := (w.pointerAfter a).2
    account := w.accountAfter a }

/-- What has been read since the FIFO was emptied, followed by what is in it, is whole packets and
    answers, and the packets show what they stand for. -/
structure Whole (w : WatchedMouse) : Prop where
  bytes : w.taken ++ contents ps2mouseFifosz w.sc.fifo = w.items.flatMap Item.bytes
  decodes : ∀ i ∈ w.items, i.Decodes

def Balanced (w : WatchedMouse) : Prop :=
  ∀ l, w.account = some l →
    l.queuedX + w.sc.deltaX = l.displacedX ∧ l.queuedY + w.sc.deltaY = l.displacedY

/-- What is pending and the motion of an event are shown by its packet. On each axis moved is the
    motion from the place that the mouse knows, and displaced that of the pointer. -/
def ShownBy (room : Prop) (pending moved displaced : Int) : Prop :=
  (room ∧ Small (pending + moved) ∧ moved = displaced) ∨
  (room ∧ 255 < pending + moved ∧ pending + displaced = 255) ∨
  (room ∧ pending + moved < -255 ∧ pending + displaced = -1) ∨
  (¬room ∧ pending + displaced = 0)

def Keeps (a : MouseAct) : Prop :=
  w.sc.reporting →
    match a with
    | .event _ x y =>
        ShownBy (HasRoom w.sc) w.sc.deltaX (x - w.sc.curX) (x - w.pointerX) ∧
        ShownBy (HasRoom w.sc) w.sc.deltaY (w.sc.curY - y) (w.pointerY - y)
    | .write val insert =>
        (Sends w.sc val insert → Small w.sc.deltaX ∧ Small w.sc.deltaY) ∧
        (Resets w.sc val insert → w.sc.deltaX = 0 ∧ w.sc.deltaY = 0)
    | _ => True

variable {w : WatchedMouse}

theorem event_run (button : Byte) (x y : Int) : (MouseAct.event button x y).run sc =
      if sc.reporting then movementGet (pointed sc button x y) else pointed sc button x y := by
  have same : (pointed sc button x y).reporting = sc.reporting := reporting_same sc button x y
  have run : (MouseAct.event button x y).run sc =
      (if !(pointed sc button x y).reporting then (pointed sc button x y, false)
        else (movementGet (pointed sc button x y),
          decide (0 < (movementGet (pointed sc button x y)).fifo.num))).1 := rfl
  rw [run, same]
  cases sc.reporting <;> rfl

theorem movement_get_rest : (movementGet sc).deltaX = 0 ∧
    (movementGet sc).deltaY = 0 ∧ (movementGet sc).reporting = sc.reporting := by
  rw [movement_get_packet]
  split <;> exact ⟨rfl, rfl, rfl⟩

theorem event_reporting (button : Byte) (x y : Int) :
    ((MouseAct.event button x y).run sc).reporting = sc.reporting := by
  have same : (pointed sc button x y).reporting = sc.reporting := reporting_same sc button x y
  rw [event_run]
  split
  · rw [(movement_get_rest _).2.2]
    exact same
  · exact same

def Accounted (w : WatchedMouse) : Prop := w.account.isSome = w.sc.reporting

theorem accounted_act (w : WatchedMouse) (a : MouseAct) : Accounted (watchedAct w a) := by
  unfold Accounted watchedAct WatchedMouse.accountAfter
  dsimp only
  cases (a.run w.sc).reporting with
  | false => rfl
  | true =>
    cases w.account <;> rfl

/-- The queue and its history agree, and the indices of the FIFO are right. -/
structure Stands (w : WatchedMouse) : Prop extends Whole w where
  valid : Valid ps2mouseFifosz w.sc.fifo

theorem mouse_fifo_valid : Valid ps2mouseFifosz (fifoReset : Fifo Byte) :=
  empty_valid (by decide) _

theorem event_fifo (button : Byte) (x y : Int) : ((MouseAct.event button x y).run sc).fifo =
      if sc.reporting ∧ HasRoom sc then
        (movementPacket (pointed sc button x y)).bytes.foldl (put ps2mouseFifosz) sc.fifo
      else sc.fifo := by
  rw [event_run]
  by_cases reports : sc.reporting = true
  · rw [if_pos reports, movement_get_packet]
    by_cases room : HasRoom sc
    · have both : sc.reporting ∧ HasRoom sc := ⟨reports, room⟩
      have free : (pointed sc button x y).fifo.num < ps2mouseFifosz - 3 := room
      rw [if_pos both, if_pos free]
      rfl
    · have none_ : ¬(sc.reporting ∧ HasRoom sc) := fun both => room both.2
      have full : ¬(pointed sc button x y).fifo.num < ps2mouseFifosz - 3 := room
      rw [if_neg none_, if_neg full]
      rfl
  · have none_ : ¬(sc.reporting ∧ HasRoom sc) := fun both => reports both.1
    rw [if_neg reports, if_neg none_]
    rfl

theorem stands_event (stands : Stands w) (button : Byte) (x y : Int) :
    Stands (watchedAct w (.event button x y)) := by
  have fifo := event_fifo w.sc button x y
  have packet : (MouseAct.event button x y).packet w.sc =
    if w.sc.reporting ∧ HasRoom w.sc then some (movementItem (pointed w.sc button x y)) else none := rfl
  have items : (watchedAct w (.event button x y)).items =
    w.items ++ ((MouseAct.event button x y).packet w.sc).toList := rfl
  have taken : (watchedAct w (.event button x y)).taken = w.taken := rfl
  have after : (watchedAct w (.event button x y)).sc = (MouseAct.event button x y).run w.sc := rfl
  by_cases queues : w.sc.reporting ∧ HasRoom w.sc
  · rw [if_pos queues] at fifo packet
    have room : w.sc.fifo.num + (movementPacket (pointed w.sc button x y)).bytes.length ≤
        ps2mouseFifosz := by
      have free : w.sc.fifo.num < ps2mouseFifosz - 3 := queues.2
      have three : (movementPacket (pointed w.sc button x y)).bytes.length = 3 := rfl
      omega
    obtain ⟨valid, filled⟩ := contents_puts stands.valid _ room
    refine ⟨⟨?_, ?_⟩, ?_⟩
    · rw [after, fifo, taken, items, packet, filled, ← List.append_assoc, stands.bytes,
        flatMap_append]
      rfl
    · rw [items, packet]
      intro i member
      rcases List.mem_append.mp member with old | new
      · exact stands.decodes i old
      · rw [List.mem_singleton.mp new]
        exact movement_decodes _
    · rw [after, fifo]
      exact valid
  · rw [if_neg queues] at fifo packet
    have same : (watchedAct w (.event button x y)).items = w.items := by
      rw [items, packet]
      exact append_nil w.items
    refine ⟨⟨?_, ?_⟩, ?_⟩
    · rw [after, fifo, taken, same]
      exact stands.bytes
    · rw [same]
      exact stands.decodes
    · rw [after, fifo]
      exact stands.valid

theorem stands_read (stands : Stands w) : Stands (watchedAct w .read) := by
  have items : (watchedAct w .read).items = w.items := append_nil w.items
  have taken : (watchedAct w .read).taken =
    w.taken ++ ((ps2mouseRead w.sc).map (·.1)).toList := rfl
  have after : (watchedAct w .read).sc = ((ps2mouseRead w.sc).map (·.2)).getD w.sc := rfl
  unfold ps2mouseRead at taken after
  cases got : get ps2mouseFifosz w.sc.fifo with
  | none =>
    rw [got] at taken after
    refine ⟨⟨?_, ?_⟩, ?_⟩
    · rw [after, taken, items]
      exact (congrArg (· ++ _) (append_nil w.taken)).trans stands.bytes
    · rw [items]
      exact stands.decodes
    · rw [after]
      exact stands.valid
  | some first =>
    rw [got] at taken after
    refine ⟨⟨?_, ?_⟩, ?_⟩
    · have moved := stands.bytes
      rw [(contents_get stands.valid got).1] at moved
      rw [after, taken, items, ← moved, List.append_assoc]
      rfl
    · rw [items]
      exact stands.decodes
    · rw [after]
      exact get_valid stands.valid got

theorem stands_write (w : WatchedMouse) (val : Byte) (insert : Bool) :
    Stands (watchedAct w (.write val insert)) := by
  have few : (fifoReset : Fifo Byte).num +
      ((itemsWritten w.sc val insert).flatMap Item.bytes).length ≤ ps2mouseFifosz := by
    have empty : (fifoReset : Fifo Byte).num = 0 := rfl
    rw [empty, Nat.zero_add]
    exact items_few w.sc val insert
  obtain ⟨valid, filled⟩ := contents_puts mouse_fifo_valid _ few
  have written : (watchedAct w (.write val insert)).sc.fifo = _ :=
    (write_written w.sc val insert).fifo
  refine ⟨⟨?_, items_decode w.sc val insert⟩, ?_⟩
  · rw [written, filled]
    rfl
  · rw [written]
    exact valid

theorem stands_act (stands : Stands w) (a : MouseAct) : Stands (watchedAct w a) := by
  cases a with
  | event button x y => exact stands_event stands button x y
  | read => exact stands_read stands
  | write val insert => exact stands_write w val insert
  | toggle enable =>
    cases enable with
    | false => exact ⟨⟨rfl, fun _ never => nomatch never⟩, empty_valid (by decide) w.sc.fifo.buf⟩
    | true =>
      have items : (watchedAct w (.toggle true)).items = w.items := append_nil w.items
      refine ⟨⟨?_, ?_⟩, stands.valid⟩
      · rw [items]
        exact stands.bytes
      · rw [items]
        exact stands.decodes

variable {a : MouseAct}

theorem account_goes_on {l : Account} (account : w.account = some l)
    (reports : (a.run w.sc).reporting = true) :
    (watchedAct w a).account = some {
      queuedX := l.queuedX + ((a.packet w.sc).map Item.dx).getD 0
      queuedY := l.queuedY + ((a.packet w.sc).map Item.dy).getD 0
      displacedX := l.displacedX + ((w.pointerAfter a).1 - w.pointerX)
      displacedY := l.displacedY + (w.pointerY - (w.pointerAfter a).2) } := by
  unfold watchedAct WatchedMouse.accountAfter
  dsimp only
  rw [if_pos reports, account]

theorem starts_balanced (none_ : w.account = none) : Balanced (watchedAct w a) := by
  intro l account
  unfold watchedAct WatchedMouse.accountAfter at account
  dsimp only at account
  rw [none_] at account
  split at account
  · cases account
    exact ⟨Int.zero_add _, Int.zero_add _⟩
  · cases account

theorem shown_iff {room : Prop} [Decidable room] {pending moved displaced : Int} :
    (if room then shown (pending + moved) else 0) = pending + displaced ↔
      ShownBy room pending moved displaced := by
  unfold ShownBy
  by_cases free : room
  · have ways : Small (pending + moved) ∨ 255 < pending + moved ∨ pending + moved < -255 := by
      unfold Small
      omega
    simp only [free, if_true, true_and, not_true, false_and, or_false]
    rcases ways with small | above | below
    · rw [shown_small small]
      unfold Small at small ⊢
      omega
    · rw [shown_above above]
      unfold Small
      omega
    · rw [shown_below below]
      unfold Small
      omega
  · simp only [free, if_false, false_and, not_false_eq_true, true_and, false_or]
    exact eq_comm

theorem shown_self {delta : Int} : shown delta = delta ↔ Small delta := by
  constructor
  · intro same
    unfold shown at same
    by_cases small : Small delta
    · exact small
    · rw [if_neg small] at same
      unfold Small
      split at same <;> omega
  · exact shown_small

structure Moves (w : WatchedMouse) (a : MouseAct) : Prop where
  x : ((a.packet w.sc).map Item.dx).getD 0 + (a.run w.sc).deltaX =
      w.sc.deltaX + ((w.pointerAfter a).1 - w.pointerX)
  y : ((a.packet w.sc).map Item.dy).getD 0 + (a.run w.sc).deltaY =
      w.sc.deltaY + (w.pointerY - (w.pointerAfter a).2)

theorem balanced_iff {l : Account} (account : w.account = some l) (balanced : Balanced w)
    (reports : (a.run w.sc).reporting = true) : Balanced (watchedAct w a) ↔ Moves w a := by
  obtain ⟨x, y⟩ := balanced l account
  have after : (watchedAct w a).sc = a.run w.sc := rfl
  have goes := account_goes_on account reports
  constructor
  · intro later
    obtain ⟨x', y'⟩ := later _ goes
    rw [after] at x' y'
    dsimp only at x' y'
    constructor <;> omega
  · rintro ⟨x', y'⟩ l' account'
    rw [goes] at account'
    cases account'
    rw [after]
    dsimp only
    constructor <;> omega

theorem event_packet (reports : w.sc.reporting = true) (button : Byte) (x y : Int) :
    (((MouseAct.event button x y).packet w.sc).map Item.dx).getD 0 =
        (if HasRoom w.sc then shown (w.sc.deltaX + (x - w.sc.curX)) else 0) ∧
    (((MouseAct.event button x y).packet w.sc).map Item.dy).getD 0 =
        (if HasRoom w.sc then shown (w.sc.deltaY + (w.sc.curY - y)) else 0) := by
  have packet : (MouseAct.event button x y).packet w.sc =
    if w.sc.reporting ∧ HasRoom w.sc then some (movementItem (pointed w.sc button x y)) else none := rfl
  by_cases room : HasRoom w.sc
  · rw [packet, if_pos ⟨reports, room⟩, if_pos room, if_pos room]
    exact ⟨packet_dx (pointed w.sc button x y), packet_dy (pointed w.sc button x y)⟩
  · rw [packet, if_neg (fun both => room both.2), if_neg room, if_neg room]
    exact ⟨rfl, rfl⟩

theorem event_moves (reports : w.sc.reporting = true) (button : Byte) (x y : Int) :
    Moves w (.event button x y) ↔ Keeps w (.event button x y) := by
  have run := event_run w.sc button x y
  rw [if_pos reports] at run
  obtain ⟨zeroX, zeroY, -⟩ := movement_get_rest (pointed w.sc button x y)
  obtain ⟨packetX, packetY⟩ := event_packet reports button x y
  have axisX := @shown_iff (HasRoom w.sc) _ w.sc.deltaX (x - w.sc.curX) (x - w.pointerX)
  have axisY := @shown_iff (HasRoom w.sc) _ w.sc.deltaY (w.sc.curY - y) (w.pointerY - y)
  rw [← run] at zeroX zeroY
  constructor
  · rintro ⟨movesX, movesY⟩ _
    rw [packetX, zeroX, Int.add_zero] at movesX
    rw [packetY, zeroY, Int.add_zero] at movesY
    exact ⟨axisX.mp movesX, axisY.mp movesY⟩
  · intro keeps
    obtain ⟨keepsX, keepsY⟩ := keeps reports
    constructor
    · rw [packetX, zeroX, Int.add_zero]
      exact axisX.mpr keepsX
    · rw [packetY, zeroY, Int.add_zero]
      exact axisY.mpr keepsY

theorem write_axis {sends resets : Prop} [Decidable sends] [Decidable resets] {delta : Int}
    (apart : sends → ¬resets) :
    (if sends then shown delta else 0) + (if sends ∨ resets then 0 else delta) = delta ↔
      (sends → Small delta) ∧ (resets → delta = 0) := by
  by_cases sent : sends
  · have quiet : ¬resets := apart sent
    rw [if_pos sent, if_pos (.inl sent), Int.add_zero, shown_self]
    exact ⟨fun small => ⟨fun _ => small, fun reset => absurd reset quiet⟩, fun both => both.1 sent⟩
  · rw [if_neg sent, Int.zero_add]
    by_cases reset : resets
    · rw [if_pos (.inr reset)]
      exact ⟨fun zero => ⟨fun sends => absurd sends sent, fun _ => zero.symm⟩,
        fun both => (both.2 reset).symm⟩
    · rw [if_neg (not_or.mpr ⟨sent, reset⟩)]
      exact ⟨fun _ => ⟨fun sends => absurd sends sent, fun resets => absurd resets reset⟩,
        fun _ => rfl⟩

theorem sends_apart {sc : Ps2mouse} {val : Byte} {insert : Bool} (sends : Sends sc val insert) :
    ¬Resets sc val insert := by
  rintro ⟨-, reset | defaults⟩
  · rw [sends.2] at reset
    exact absurd reset (by decide)
  · rw [sends.2] at defaults
    exact absurd defaults (by decide)

theorem write_packet (val : Byte) (insert : Bool) :
    (((MouseAct.write val insert).packet sc).map Item.dx).getD 0 =
        (if Sends sc val insert then shown sc.deltaX else 0) ∧
    (((MouseAct.write val insert).packet sc).map Item.dy).getD 0 =
        (if Sends sc val insert then shown sc.deltaY else 0) := by
  have packet : (MouseAct.write val insert).packet sc =
    if Sends sc val insert then some (movementItem sc) else none := rfl
  rw [packet]
  split
  · exact ⟨packet_dx sc, packet_dy sc⟩
  · exact ⟨rfl, rfl⟩

theorem write_moves (w : WatchedMouse) (val : Byte) (insert : Bool) : Moves w (.write val insert) ↔
      (Sends w.sc val insert → Small w.sc.deltaX ∧ Small w.sc.deltaY) ∧
      (Resets w.sc val insert → w.sc.deltaX = 0 ∧ w.sc.deltaY = 0) := by
  have written := write_written w.sc val insert
  have run : (MouseAct.write val insert).run w.sc = ps2mouseWrite w.sc val insert := rfl
  have staysX : (w.pointerAfter (.write val insert)).1 - w.pointerX = 0 := Int.sub_self _
  have staysY : w.pointerY - (w.pointerAfter (.write val insert)).2 = 0 := Int.sub_self _
  obtain ⟨packetX, packetY⟩ := write_packet w.sc val insert
  have apart : Sends w.sc val insert → ¬Resets w.sc val insert := sends_apart
  have axisX := @write_axis _ _ _ _ w.sc.deltaX apart
  have axisY := @write_axis _ _ _ _ w.sc.deltaY apart
  constructor
  · rintro ⟨x, y⟩
    rw [packetX, run, written.deltaX, staysX, Int.add_zero] at x
    rw [packetY, run, written.deltaY, staysY, Int.add_zero] at y
    obtain ⟨smallX, zeroX⟩ := axisX.mp x
    obtain ⟨smallY, zeroY⟩ := axisY.mp y
    exact ⟨fun sends => ⟨smallX sends, smallY sends⟩, fun resets => ⟨zeroX resets, zeroY resets⟩⟩
  · rintro ⟨small, zero⟩
    constructor
    · rw [packetX, run, written.deltaX, staysX, Int.add_zero]
      exact axisX.mpr ⟨fun sends => (small sends).1, fun resets => (zero resets).1⟩
    · rw [packetY, run, written.deltaY, staysY, Int.add_zero]
      exact axisY.mpr ⟨fun sends => (small sends).2, fun resets => (zero resets).2⟩

theorem write_reports {sc : Ps2mouse} (reports : sc.reporting = true) {val : Byte} {insert : Bool}
    (moves : Sends sc val insert ∨ Resets sc val insert) :
    (ps2mouseWrite sc val insert).reporting = true := by
  have command : ∀ val : Byte, Commands sc insert →
      ps2mouseWrite sc val insert = ps2mouseCommand { sc with fifo := fifoReset } val := by
    rintro val ⟨ready, plain⟩
    unfold ps2mouseWrite
    rw [if_neg (not_not.mpr ready), plain]
    rfl
  have enabled : sc.ctrlenable = true := by
    exact (Bool.and_eq_true_iff.mp reports).2
  have fresh : ∀ vals : List Byte,
      ((ps2mouseReset { sc with fifo := fifoReset }).fifoPuts vals).reporting = sc.ctrlenable := by
    intro vals
    have enables : decide (ps2mStsEnableDev &&& ps2mStsEnableDev ≠ 0) = true := by decide
    have same : ((ps2mouseReset { sc with fifo := fifoReset }).fifoPuts vals).reporting =
      (decide (ps2mStsEnableDev &&& ps2mStsEnableDev ≠ 0) && sc.ctrlenable) := rfl
    rw [same, enables, Bool.true_and]
  rcases moves with ⟨commands, rfl⟩ | ⟨commands, rfl | rfl⟩
  · have data : ps2mouseCommand { sc with fifo := fifoReset } ps2mcSendDevData =
      movementGet ({ sc with fifo := fifoReset }.fifoPuts [ps2mcAck]) := rfl
    rw [command _ commands, data, (movement_get_rest _).2.2]
    exact reports
  · have reset : ps2mouseCommand { sc with fifo := fifoReset } ps2mcResetDev =
      (ps2mouseReset { sc with fifo := fifoReset }).fifoPuts
        [ps2mcAck, ps2mcBatSuccess, ps2mouseDevId] := rfl
    rw [command _ commands, reset, fresh]
    exact enabled
  · have defaults : ps2mouseCommand { sc with fifo := fifoReset } ps2mcSetDefaults =
      (ps2mouseReset { sc with fifo := fifoReset }).fifoPuts [ps2mcAck] := rfl
    rw [command _ commands, defaults, fresh]
    exact enabled

theorem moves_nothing (packet : a.packet w.sc = none)
    (pointer : w.pointerAfter a = (w.pointerX, w.pointerY)) (x : (a.run w.sc).deltaX = w.sc.deltaX)
    (y : (a.run w.sc).deltaY = w.sc.deltaY) : Moves w a := by
  constructor
  · rw [packet, pointer, x, Int.sub_self, Int.add_zero]
    exact Int.zero_add w.sc.deltaX
  · rw [packet, pointer, y, Int.sub_self, Int.add_zero]
    exact Int.zero_add w.sc.deltaY

theorem read_rest : (MouseAct.read.run sc).deltaX = sc.deltaX ∧
    (MouseAct.read.run sc).deltaY = sc.deltaY ∧ (MouseAct.read.run sc).reporting = sc.reporting := by
  unfold MouseAct.run ps2mouseRead
  cases get ps2mouseFifosz sc.fifo with
  | none => exact ⟨rfl, rfl, rfl⟩
  | some got => exact ⟨rfl, rfl, rfl⟩

theorem act_balanced_iff (accounted : Accounted w) (balanced : Balanced w) (a : MouseAct) :
    Balanced (watchedAct w a) ↔ Keeps w a := by
  cases account : w.account with
  | none =>
    unfold Accounted at accounted
    rw [account] at accounted
    have silent : ¬w.sc.reporting = true := by
      rw [← accounted]
      exact Bool.false_ne_true
    exact ⟨fun _ reports => absurd reports silent, fun _ => starts_balanced account⟩
  | some l =>
    unfold Accounted at accounted
    rw [account] at accounted
    have reports : w.sc.reporting = true := accounted.symm
    -- an act after which the mouse does not report leaves no account to balance
    have quiet : ¬(a.run w.sc).reporting = true → Balanced (watchedAct w a) := by
      intro silent l' account'
      unfold watchedAct WatchedMouse.accountAfter at account'
      dsimp only at account'
      rw [if_neg silent] at account'
      cases account'
    cases a with
    | event button x y =>
      have still := (event_reporting w.sc button x y).trans reports
      exact (balanced_iff account balanced still).trans (event_moves reports button x y)
    | read =>
      obtain ⟨x, y, same⟩ := read_rest w.sc
      have still := (balanced_iff account balanced (same.trans reports)).mpr
        (moves_nothing rfl rfl x y)
      exact ⟨fun _ _ => trivial, fun _ => still⟩
    | write val insert =>
      by_cases still : ((MouseAct.write val insert).run w.sc).reporting = true
      · rw [balanced_iff account balanced still, write_moves]
        exact ⟨fun keeps _ => keeps, fun keeps => keeps reports⟩
      · refine ⟨fun _ _ => ⟨fun sends => ?_, fun resets => ?_⟩, fun _ => quiet still⟩
        · exact absurd (write_reports reports (.inl sends)) still
        · exact absurd (write_reports reports (.inr resets)) still
    | toggle enable =>
      cases enable with
      | false =>
        have off : ¬((MouseAct.toggle false).run w.sc).reporting = true := by
          have quiet : ((MouseAct.toggle false).run w.sc).reporting =
            (decide (w.sc.status &&& ps2mStsEnableDev ≠ 0) && false) := rfl
          rw [quiet, Bool.and_false]
          exact Bool.false_ne_true
        exact ⟨fun _ _ => trivial, fun _ => quiet off⟩
      | true =>
        have on : ((MouseAct.toggle true).run w.sc).reporting = true := by
          have same : ((MouseAct.toggle true).run w.sc).reporting =
            (decide (w.sc.status &&& ps2mStsEnableDev ≠ 0) && true) := rfl
          rw [same, (Bool.and_eq_true_iff.mp reports).1, Bool.true_and]
        have still := (balanced_iff account balanced on).mpr (moves_nothing rfl rfl rfl rfl)
        exact ⟨fun _ _ => trivial, fun _ => still⟩

structure PacketsRight (w : WatchedMouse) : Prop extends Whole w where
  balanced : Balanced w

theorem start_stands : Stands .start := ⟨⟨rfl, fun _ never => nomatch never⟩, mouse_fifo_valid⟩

/-- In every run the queue is of whole packets that show what they stand for, and the motion is
    accounted for exactly in the runs whose acts all keep it. -/
theorem packets_right (acts : List MouseAct) :
    Along watchedAct (fun w a => Whole (watchedAct w a)) .start acts ∧
    (Along watchedAct (fun w a => PacketsRight (watchedAct w a)) .start acts ↔
      Along watchedAct Keeps .start acts) := by
  constructor
  · have every : Along watchedAct (fun _ _ => True) .start acts :=
      along_of_each (q := fun _ => True) (fun _ _ => trivial) WatchedMouse.start
    exact along_of_invariant (fun w a stands _ => stands_act stands a)
      (fun w a stands _ => (stands_act stands a).toWhole) acts WatchedMouse.start start_stands every
  · have keeps : ∀ w a, Stands w ∧ Accounted w ∧ Balanced w → Keeps w a →
        Stands (watchedAct w a) ∧ Accounted (watchedAct w a) ∧ Balanced (watchedAct w a) := by
      rintro w a ⟨stands, accounted, balanced⟩ kept
      exact ⟨stands_act stands a, accounted_act w a,
        (act_balanced_iff accounted balanced a).mpr kept⟩
    have agree : ∀ w a, Stands w ∧ Accounted w ∧ Balanced w →
        (PacketsRight (watchedAct w a) ↔ Keeps w a) := by
      rintro w a ⟨stands, accounted, balanced⟩
      rw [← act_balanced_iff accounted balanced a]
      exact ⟨fun right => right.balanced, fun still => ⟨(stands_act stands a).toWhole, still⟩⟩
    have start : Stands .start ∧ Accounted .start ∧ Balanced .start :=
      ⟨start_stands, rfl, fun _ never => nomatch never⟩
    exact along_iff_of_invariant keeps agree acts .start start

theorem sixth_event_lost : ¬Along watchedAct (fun w a => PacketsRight (watchedAct w a)) .start
      [.toggle true, .event 0 1 0, .event 0 2 0, .event 0 3 0, .event 0 4 0, .event 0 5 0,
        .event 0 6 0] := by
  rintro ⟨-, -, -, -, -, -, right, -⟩
  have balance := (right.balanced _ rfl).1
  exact absurd balance (by decide)

end

end Kbdc
