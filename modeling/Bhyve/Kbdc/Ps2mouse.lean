import Bhyve.Kbdc.Ps2kbd

/-!
The PS/2 mouse of ps2mouse.c. Its FIFO holds packets of three bytes and the answers to commands, and
a command empties it first. Each function runs under the lock of the mouse.
-/
namespace Kbdc
open BoundedFifo

def ps2mcResetDev : Byte := 0xff
def ps2mcSetDefaults : Byte := 0xf6
def ps2mcDisable : Byte := 0xf5
def ps2mcEnable : Byte := 0xf4
def ps2mcSetSamplingRate : Byte := 0xf3
def ps2mcSendDevId : Byte := 0xf2
def ps2mcSetRemoteMode : Byte := 0xf0
def ps2mcSendDevData : Byte := 0xeb
def ps2mcSetStreamMode : Byte := 0xea
def ps2mcSendDevStatus : Byte := 0xe9
def ps2mcSetResolution : Byte := 0xe8
def ps2mcBatSuccess : Byte := 0xaa
def ps2mcAck : Byte := 0xfa
def ps2mouseDevId : Byte := 0x0

def ps2mDataYOflow : Byte := 0x80
def ps2mDataXOflow : Byte := 0x40
def ps2mDataYSign : Byte := 0x20
def ps2mDataXSign : Byte := 0x10
def ps2mDataAone : Byte := 0x08
def ps2mDataButtons : Byte := 0x07
def ps2mStsRemoteMode : Byte := 0x40
def ps2mStsEnableDev : Byte := 0x20
def ps2mStsMidButton : Byte := 0x04
def ps2mStsRightButton : Byte := 0x02
def ps2mStsLeftButton : Byte := 0x01
def ps2mouseFifosz : Nat := 16

structure Ps2mouse where
  status : Byte
  resolution : Byte
  samplingRate : Byte
  ctrlenable : Bool
  fifo : Fifo Byte
  curcmd : Byte
  curX : Int
  curY : Int
  deltaX : Int
  deltaY : Int

variable (sc : Ps2mouse)

def Ps2mouse.fifoPuts (vals : List Byte) : Ps2mouse :=
  { sc with fifo := vals.foldl (put ps2mouseFifosz) sc.fifo }

def Ps2mouse.fifocnt (sc : Ps2mouse) : Nat := sc.fifo.num

def ps2mouseRead (sc : Ps2mouse) : Option (Byte × Ps2mouse) :=
  (get ps2mouseFifosz sc.fifo).map fun got => (got.1, { sc with fifo := got.2 })

def movementUpdate (x y : Int) : Ps2mouse :=
  { sc with
    deltaX := sc.deltaX + (x - sc.curX)
    deltaY := sc.deltaY + (sc.curY - y)
    curX := x
    curY := y }

/-- The byte of a displacement, with the flags for its sign and for one that has no room. -/
def displacement (delta : Int) (sign oflow : Byte) : Byte × Byte :=
  if 0 ≤ delta then
    if 255 < delta then (oflow, 255) else (0, BitVec.ofInt 8 delta)
  else if delta < -255 then (sign ||| oflow, 255)
  else (sign, BitVec.ofInt 8 delta)

def movementGet (sc : Ps2mouse) : Ps2mouse :=
  let (flagsX, val1) := displacement sc.deltaX ps2mDataXSign ps2mDataXOflow
  let (flagsY, val2) := displacement sc.deltaY ps2mDataYSign ps2mDataYOflow
  let val0 := ps2mDataAone ||| (sc.status &&& ps2mDataButtons) ||| flagsX ||| flagsY
  let sc := { sc with deltaX := 0, deltaY := 0 }
  if sc.fifo.num < ps2mouseFifosz - 3 then sc.fifoPuts [val0, val1, val2] else sc

def ps2mouseReset (sc : Ps2mouse) : Ps2mouse :=
  { sc with
    fifo := fifoReset
    status := ps2mStsEnableDev
    resolution := 4
    samplingRate := 100
    curX := 0
    curY := 0
    deltaX := 0
    deltaY := 0 }

def ps2mouseToggle (enable : Bool) : Ps2mouse :=
  if enable then { sc with ctrlenable := true }
  else { sc with ctrlenable := false, fifo := { sc.fifo with rindex := 0, windex := 0, num := 0 } }

def ps2mouseArgument (val : Byte) : Ps2mouse :=
  let sc :=
    if sc.curcmd = ps2mcSetSamplingRate then
      { sc with samplingRate := val }.fifoPuts [ps2mcAck]
    else if sc.curcmd = ps2mcSetResolution then { sc with resolution := val }.fifoPuts [ps2mcAck]
    else sc
  { sc with curcmd := 0 }

def ps2mouseCommand (val : Byte) : Ps2mouse :=
  if val = ps2mcResetDev then
    (ps2mouseReset sc).fifoPuts [ps2mcAck, ps2mcBatSuccess, ps2mouseDevId]
  else if val = ps2mcSetDefaults then (ps2mouseReset sc).fifoPuts [ps2mcAck]
  else if val = ps2mcDisable then
    { sc with status := sc.status &&& ~~~ps2mStsEnableDev }.fifoPuts [ps2mcAck]
  else if val = ps2mcEnable then
    { sc with status := sc.status ||| ps2mStsEnableDev }.fifoPuts [ps2mcAck]
  else if val = ps2mcSetSamplingRate ∨ val = ps2mcSetResolution then
    { sc with curcmd := val }.fifoPuts [ps2mcAck]
  else if val = ps2mcSendDevId then sc.fifoPuts [ps2mcAck, ps2mouseDevId]
  else if val = ps2mcSetRemoteMode then
    { sc with status := sc.status ||| ps2mStsRemoteMode }.fifoPuts [ps2mcAck]
  else if val = ps2mcSendDevData then movementGet (sc.fifoPuts [ps2mcAck])
  else if val = ps2mcSetStreamMode then
    { sc with status := sc.status &&& ~~~ps2mStsRemoteMode }.fifoPuts [ps2mcAck]
  else if val = ps2mcSendDevStatus then
    sc.fifoPuts [ps2mcAck, sc.status, sc.resolution, sc.samplingRate]
  else sc.fifoPuts [ps2mcAck]

def ps2mouseWrite (val : Byte) (insert : Bool) : Ps2mouse :=
  let sc := { sc with fifo := fifoReset }
  if sc.curcmd ≠ 0 then ps2mouseArgument sc val
  else if insert then sc.fifoPuts [val]
  else ps2mouseCommand sc val

def buttonsPressed (status button : Byte) : Byte :=
  (status &&& ~~~ps2mDataButtons) |||
    (if button.getLsbD 0 then ps2mStsLeftButton else 0) |||
    (if button.getLsbD 1 then ps2mStsMidButton else 0) |||
    (if button.getLsbD 2 then ps2mStsRightButton else 0)

def Ps2mouse.reporting (sc : Ps2mouse) : Bool :=
  decide (sc.status &&& ps2mStsEnableDev ≠ 0) && sc.ctrlenable

def ps2mouseEvent (button : Byte) (x y : Int) : Ps2mouse × Bool :=
  let sc := movementUpdate sc x y
  let sc := { sc with status := buttonsPressed sc.status button }
  if !sc.reporting then (sc, false)
  else
    let sc := movementGet sc
    (sc, decide (0 < sc.fifo.num))

def ps2mouseInit : Ps2mouse :=
  ps2mouseReset ⟨0, 0, 0, false, fifoReset, 0, 0, 0, 0, 0⟩

theorem buttons_aside (status button : Byte) :
    buttonsPressed status button &&& ps2mStsEnableDev = status &&& ps2mStsEnableDev := by
  have apart : ∀ (pressed : Bool) (bit : Byte), bit &&& ps2mStsEnableDev = 0 →
      (if pressed then bit else 0) &&& ps2mStsEnableDev = 0 := by
    intro pressed bit clear
    cases pressed
    · exact BitVec.zero_and
    · exact clear
  have others : ~~~ps2mDataButtons &&& ps2mStsEnableDev = ps2mStsEnableDev := by decide
  unfold buttonsPressed
  rw [BitVec.and_or_distrib_right, BitVec.and_or_distrib_right, BitVec.and_or_distrib_right,
    apart _ ps2mStsLeftButton (by decide), apart _ ps2mStsMidButton (by decide),
    apart _ ps2mStsRightButton (by decide), BitVec.and_assoc, others]
  exact BitVec.or_zero.trans (BitVec.or_zero.trans BitVec.or_zero)

theorem reporting_same (button : Byte) (x y : Int) :
    Ps2mouse.reporting { movementUpdate sc x y with
      status := buttonsPressed (movementUpdate sc x y).status button } = sc.reporting := by
  unfold Ps2mouse.reporting
  rw [buttons_aside]
  rfl
section
variable {sc : Ps2mouse}

def Ps2mouse.Waits (sc : Ps2mouse) : Prop :=
  sc.curcmd = 0 ∨ sc.curcmd = ps2mcSetSamplingRate ∨ sc.curcmd = ps2mcSetResolution

theorem put_some (f : Fifo Byte) (x : Byte) (kept : 0 < f.num ∨ 0 < ps2mouseFifosz - f.num) :
    0 < (put ps2mouseFifosz f x).num := by
  unfold put
  split
  · exact Nat.succ_pos _
  · omega

theorem puts_some {f : Fifo Byte} (vals : List Byte) (some_ : 0 < f.num) :
    0 < (vals.foldl (put ps2mouseFifosz) f).num := by
  induction vals generalizing f with
  | nil => exact some_
  | cons val rest ih => exact ih (put_some f val (.inl some_))

theorem puts_room {f : Fifo Byte} (room : f.num < ps2mouseFifosz) (val : Byte) (rest : List Byte) :
    0 < ((val :: rest).foldl (put ps2mouseFifosz) f).num :=
  puts_some rest (put_some f val (.inr (Nat.sub_pos_of_lt room)))

theorem answered {f : Fifo Byte} (empty : f.num = 0) (val : Byte) (rest : List Byte) :
    0 < ((val :: rest).foldl (put ps2mouseFifosz) f).num := by
  apply puts_room
  rw [empty]
  decide

theorem movement_get_same (sc : Ps2mouse) :
    (movementGet sc).curcmd = sc.curcmd ∧ (0 < sc.fifo.num → 0 < (movementGet sc).fifo.num) := by
  unfold movementGet
  dsimp only
  split
  · exact ⟨rfl, fun some_ => puts_some _ some_⟩
  · exact ⟨rfl, fun some_ => some_⟩

theorem movement_get_some (sc : Ps2mouse) : 0 < (movementGet sc).fifo.num := by
  unfold movementGet
  dsimp only
  split
  · next room =>
    exact puts_room (Nat.lt_of_lt_of_le room (Nat.sub_le _ _)) _ _
  · next full =>
    have data : ps2mouseFifosz - 3 ≤ sc.fifo.num := Nat.not_lt.mp full
    exact Nat.lt_of_lt_of_le (by decide) data

def Ps2mouse.Answered (sc : Ps2mouse) : Prop := 0 < sc.fifo.num ∧ sc.Waits

theorem puts_answered (empty : sc.fifo.num = 0) (waits : sc.Waits) (val : Byte)
    (rest : List Byte) : (sc.fifoPuts (val :: rest)).Answered :=
  ⟨answered empty val rest, waits⟩

theorem argument_answered (empty : sc.fifo.num = 0) (pending : sc.curcmd ≠ 0) (waits : sc.Waits)
    (val : Byte) : (ps2mouseArgument sc val).Answered := by
  unfold ps2mouseArgument
  obtain idle | rate | resolution := waits
  · exact absurd idle pending
  · rw [if_pos rate]
    exact ⟨answered empty _ _, .inl rfl⟩
  · rw [if_neg (by rw [resolution]; decide), if_pos resolution]
    exact ⟨answered empty _ _, .inl rfl⟩

theorem command_answered (empty : sc.fifo.num = 0) (ready : sc.curcmd = 0) (val : Byte) :
    (ps2mouseCommand sc val).Answered := by
  have cleared : (ps2mouseReset sc).fifo.num = 0 := rfl
  have kept : (ps2mouseReset sc).Waits := .inl ready
  refine iteInduction (fun _ => puts_answered cleared kept _ _) fun _ => ?_
  refine iteInduction (fun _ => puts_answered cleared kept _ _) fun _ => ?_
  refine iteInduction (fun _ => puts_answered empty (.inl ready) _ _) fun _ => ?_
  refine iteInduction (fun _ => puts_answered empty (.inl ready) _ _) fun _ => ?_
  refine iteInduction (fun asks => ⟨answered empty _ _, .inr asks⟩) fun _ => ?_
  refine iteInduction (fun _ => puts_answered empty (.inl ready) _ _) fun _ => ?_
  refine iteInduction (fun _ => puts_answered empty (.inl ready) _ _) fun _ => ?_
  refine iteInduction (fun _ => ?_) fun _ => ?_
  · obtain ⟨same, kept⟩ := movement_get_same (sc.fifoPuts [ps2mcAck])
    exact ⟨kept (answered empty _ _), .inl (same.trans ready)⟩
  refine iteInduction (fun _ => puts_answered empty (.inl ready) _ _) fun _ => ?_
  refine iteInduction (fun _ => puts_answered empty (.inl ready) _ _) fun _ => ?_
  exact puts_answered empty (.inl ready) _ _

theorem write_answered (waits : sc.Waits) (val : Byte) (insert : Bool) :
    0 < (ps2mouseWrite sc val insert).fifo.num ∧ (ps2mouseWrite sc val insert).Waits := by
  have written : (ps2mouseWrite sc val insert).Answered := by
    refine iteInduction (fun pending => argument_answered rfl pending waits val) fun idle => ?_
    have ready : sc.curcmd = 0 := not_not.mp idle
    have cleared : ({ sc with fifo := fifoReset } : Ps2mouse).fifo.num = 0 := rfl
    refine iteInduction (fun _ => puts_answered cleared (.inl ready) _ _) fun _ => ?_
    exact command_answered cleared ready val
  exact written

end

end Kbdc
