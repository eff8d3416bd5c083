import Mathlib.Algebra.Group.Nat.Defs
import Bhyve.Lib.TracedMemory

/-!
INT 10h of the boot ROM. The state holds the video fields of the BIOS data area and the
guest's text memory with the addresses the last call stored to. The displayed page is a
page number below 8: AH=05h checks it, and the host only echoes back the page the ROM
sent. Port reads have no effect here and are left out; port writes are reported.
-/
namespace MicrobootVideo
open ByteMemory TracedMemory

structure Video where
  vidMode : BitVec 8
  textColumns : BitVec 16
  textRowsMinusOne : BitVec 8
  scanLinesPerChar : BitVec 16
  cursorPosition : Fin 8 → BitVec 16
  dispPage : Fin 8
  text : Traced

structure CallRegs where
  al : BitVec 8
  ah : BitVec 8
  bl : BitVec 8
  bh : BitVec 8
  cl : BitVec 8
  ch : BitVec 8
  dl : BitVec 8
  dh : BitVec 8
  es : BitVec 16
  cf : Bool
  deriving DecidableEq

def CallRegs.cx (regs : CallRegs) : BitVec 16 := regs.ch ++ regs.cl
def CallRegs.dx (regs : CallRegs) : BitVec 16 := regs.dh ++ regs.dl

inductive DisplayCmd where
  | vidmode (mode plane rows columns : BitVec 8)
  | displayPage (page : BitVec 8)
  | writeChar (row col ch attrib : BitVec 8) (count : BitVec 16)
  | setPalette (paddr len vgareg : Nat)
  deriving DecidableEq

structure Int10Result where
  video : Video
  regs : CallRegs
  cmd : Option DisplayCmd
  outs : List (Nat × BitVec 8)

def done (video : Video) (regs : CallRegs) : Int10Result :=
  ⟨video, { regs with cf := false }, none, []⟩

def vgaTextAddr : Nat := 0xb8000

def packCursor (x y : BitVec 8) : BitVec 16 := y ++ x

variable (v : Video)

def Video.cursorX (page : Fin 8) : BitVec 8 := (v.cursorPosition page).extractLsb' 0 8
def Video.cursorY (page : Fin 8) : BitVec 8 := (v.cursorPosition page).extractLsb' 8 8

def Video.setCursor (page : Fin 8) (x y : BitVec 8) : Video :=
  { v with cursorPosition := Function.update v.cursorPosition page (packCursor x y) }

def Video.cells (v : Video) : Nat :=
  (v.textRowsMinusOne.toNat + 1) * v.textColumns.toNat % 2 ^ 16

def Video.cellIndex (x y : BitVec 8) : Nat :=
  y.toNat * v.textColumns.toNat + x.toNat

def acceptPage (mode page : BitVec 8) : Option (Fin 8) :=
  if mode = 0x03 then
    if inside : page.toNat ≤ 7 then some ⟨page.toNat, by omega⟩ else none
  else if page.toNat > 0 then none
  else some 0

def modeGeometry (al : BitVec 8) : Option (BitVec 16 × BitVec 8) :=
  if al = 0x03 then some (80, 24)
  else if al = 0x12 then some (80, 29)
  else if al = 0x13 then some (40, 24)
  else none

def int10SetMode (regs : CallRegs) : Int10Result :=
  match modeGeometry regs.al with
  | none => ⟨v, { regs with cf := true }, none, []⟩
  | some (columns, rows) =>
      { done { v with textColumns := columns, textRowsMinusOne := rows, scanLinesPerChar := 16,
                      vidMode := regs.al } regs with
        cmd := some (.vidmode regs.al 0 (rows + 1) (columns.setWidth 8)) }

def int10SetCursor (regs : CallRegs) : Int10Result :=
  match acceptPage v.vidMode regs.bh with
  | none => done v regs
  | some page =>
      let x := if v.textColumns.toNat ≤ regs.dl.toNat then (v.textColumns - 1).setWidth 8
        else regs.dl
      let y := if v.textRowsMinusOne < regs.dh then v.textRowsMinusOne else regs.dh
      done (v.setCursor page x y) regs

def int10GetCursor (regs : CallRegs) : Int10Result :=
  match acceptPage v.vidMode regs.bh with
  | none => done v regs
  | some page =>
      done v { regs with dl := v.cursorX page, dh := v.cursorY page, ch := 10, cl := 16 }

def int10SetPage (regs : CallRegs) : Int10Result :=
  match acceptPage v.vidMode regs.al with
  | none => done v regs
  | some page =>
      { done { v with dispPage := page } regs with cmd := some (.displayPage regs.al) }

/-- AH=08h addresses the displayed page, one byte a cell, whatever page BH names. -/
def int10ReadChar (regs : CallRegs) : Int10Result :=
  match acceptPage v.vidMode regs.bh with
  | none => done v regs
  | some page =>
      let pageAddr := vgaTextAddr + v.dispPage.val * v.cells
      let word := read16 v.text.mem
        (pageAddr + 2 * v.cellIndex (v.cursorX page) (v.cursorY page))
      done v { regs with ah := word.extractLsb' 8 8, al := word.extractLsb' 0 8 }

/-- AH=09h and 0Ah address page BH, again one byte a cell. -/
def int10WriteChar (regs : CallRegs) : Int10Result :=
  match acceptPage v.vidMode regs.bh with
  | none => done v regs
  | some page =>
      let pageAddr := vgaTextAddr + page.val * v.cells
      let x := v.cursorX page
      let y := v.cursorY page
      let dst := pageAddr + 2 * v.cellIndex x y
      let attrib := if regs.ah = 0x0a then (read16 v.text.mem dst).extractLsb' 8 8 else regs.bl
      let count : BitVec 16 := if regs.ah = 0x0a then 1 else regs.cx
      let output : BitVec 16 := attrib ++ regs.al
      let v' := { v with text := fillCells output count.toNat dst v.text }
      { done v' regs with
        cmd := if v.vidMode ≠ 0x03 then some (.writeChar y x regs.al attrib count) else none }

def isControl (ch : BitVec 8) : Bool := decide (0x07 ≤ ch.toNat ∧ ch.toNat ≤ 0x0d)

def ttyMove (ch x y : BitVec 8) : BitVec 8 × BitVec 8 :=
  if ch = 0x07 then (x, y)
  else if ch = 0x08 then (if 0 < x.toNat then x - 1 else x, y)
  else if ch = 0x09 then (x + ((x + 8) &&& ~~~7), y)
  else if ch = 0x0a then (x, y + 1)
  else if ch = 0x0b then (x, y)
  else if ch = 0x0c then (x, y)
  else if ch = 0x0d then (0, y)
  else (x + 1, y)

def ttyWrap (columns : BitVec 16) (pos : BitVec 8 × BitVec 8) : BitVec 8 × BitVec 8 :=
  if columns.toNat ≤ pos.1.toNat then (0, pos.2 + 1) else pos

def scrollUp (columns rows base : Nat) (t : Traced) : Traced :=
  fillLowBytes 0x20 columns (base + 2 * (columns * rows))
    (moveCells (columns * rows) base (base + 2 * columns) t)

def int10Teletype (regs : CallRegs) : Int10Result :=
  let page := v.dispPage
  let x := v.cursorX page
  let y := v.cursorY page
  let base := vgaTextAddr + page.val * v.cells * 2
  let written :=
    if isControl regs.al then v.text
    else store8 v.text (base + v.cellIndex x y * 2) regs.al
  let pos := ttyWrap v.textColumns (ttyMove regs.al x y)
  if v.textRowsMinusOne < pos.2 then
    let scrolled := scrollUp v.textColumns.toNat v.textRowsMinusOne.toNat base written
    done ({ v with text := scrolled }.setCursor page pos.1 v.textRowsMinusOne) regs
  else done ({ v with text := written }.setCursor page pos.1 pos.2) regs

def moveRows (columns x1 count : Nat) : Nat → Nat → Nat → Traced → Traced
  | 0, _, _, t => t
  | n + 1, dst, src, t =>
      moveRows columns x1 count n (dst + 2 * columns) (src + 2 * columns)
        (moveCells count (dst + 2 * x1) (src + 2 * x1) t)

def fillRows (v : BitVec 16) (columns x1 count : Nat) : Nat → Nat → Traced → Traced
  | 0, _, t => t
  | n + 1, dst, t =>
      fillRows v columns x1 count n (dst + 2 * columns) (fillCells v count (dst + 2 * x1) t)

/-- AH=06h/07h. With AL=0 the handler homes the cursor of a page it never loaded: the
    caller of the model says which cursor word that is, if any. The row pointers advance
    in AH=07h too, so its copy runs downwards from row y2. -/
def int10Scroll (stalePage : Option (Fin 8)) (v : Video) (regs : CallRegs) : Int10Result :=
  let columns := v.textColumns.toNat
  let rows := v.textRowsMinusOne.toNat
  let pageAddr := vgaTextAddr + v.dispPage.val * v.cells
  if regs.al = 0 then
    let cleared := { v with text := fillCells 0x0f20 v.cells pageAddr v.text }
    match stalePage with
    | none => done cleared regs
    | some page => done (cleared.setCursor page 0 0) regs
  else
    let lines := regs.al.toNat
    let clip := fun (x : BitVec 8) => if columns ≤ x.toNat then columns - 1 else x.toNat
    let x1 := clip regs.cl
    let count := clip regs.dl + 1 - x1
    let y1 := regs.ch.toNat
    let y2 := regs.dh.toNat
    let fill : BitVec 16 := regs.bh ++ (0x20 : BitVec 8)
    if regs.ah = 0x06 then
      if y1 = 0 then done v regs
      else
        let lines := min lines y1
        let moved := moveRows columns x1 count (y2 + 1 - y1)
          (pageAddr + 2 * ((y1 - lines) * columns)) (pageAddr + 2 * (y1 * columns)) v.text
        let bottom := pageAddr + 2 * ((y2 + 1) * columns) - 2 * (lines * columns)
        done { v with text := fillRows fill columns x1 count lines bottom moved } regs
    else if rows ≤ y2 then done v regs
    else
      let lines := min lines (rows - y2)
      let y1 := if y1 = 0 then 1 else y1
      let moved := moveRows columns x1 count (y2 + 1 - y1)
        (pageAddr + 2 * ((y2 + lines) * columns)) (pageAddr + 2 * (y2 * columns)) v.text
      let top := pageAddr + 2 * (y1 * columns)
      done { v with text := fillRows fill columns x1 count lines top moved } regs

def vgaWriteAttr : Nat := 0x3c0
def vgaPaletteWrite : Nat := 0x3c8
def vgaPaletteData : Nat := 0x3c9
def vgaInputStatus1 : Nat := 0x3da

def int10Palette (regs : CallRegs) : Int10Result :=
  let paddr := regs.es.toNat * 16 + regs.dx.toNat
  if regs.al = 0x00 then
    { done v regs with outs := [(vgaWriteAttr, regs.bl), (vgaWriteAttr, regs.bh)] }
  else if regs.al = 0x02 then
    { done v regs with cmd := some (.setPalette paddr 16 vgaInputStatus1) }
  else if regs.al = 0x10 then
    { done v regs with
      outs := [(vgaPaletteWrite, regs.bl), (vgaPaletteData, regs.dh), (vgaPaletteData, regs.ch),
               (vgaPaletteData, regs.cl)] }
  else if regs.al = 0x12 then
    { done v regs with cmd := some (.setPalette paddr regs.cx.toNat vgaPaletteWrite) }
  else done v regs

/-- AH=12h has no break and falls into AH=1Ah. -/
def int10AlternateSelect (regs : CallRegs) : Int10Result :=
  let regs :=
    if regs.ah = 0x12 ∧ regs.bl ≠ 0x10 ∧ regs.bl ≠ 0x20 ∧ regs.bl ≠ 0x34 then
      { regs with bh := 0, bl := 0x03, ch := 0, cl := 0 }
    else regs
  if regs.al = 0x00 then done v { regs with al := 0x1a, bh := 0 } else done v regs

def handleInt10 (stalePage : Option (Fin 8)) (v : Video) (regs : CallRegs) : Int10Result :=
  let v := { v with text := { v.text with log := [] } }
  if regs.ah = 0x00 then int10SetMode v regs
  else if regs.ah = 0x01 then done v regs
  else if regs.ah = 0x02 then int10SetCursor v regs
  else if regs.ah = 0x03 then int10GetCursor v regs
  else if regs.ah = 0x05 then int10SetPage v regs
  else if regs.ah = 0x06 ∨ regs.ah = 0x07 then int10Scroll stalePage v regs
  else if regs.ah = 0x08 then int10ReadChar v regs
  else if regs.ah = 0x09 ∨ regs.ah = 0x0a then int10WriteChar v regs
  else if regs.ah = 0x0b then done v regs
  else if regs.ah = 0x0e then int10Teletype v regs
  else if regs.ah = 0x0f then
    done v { regs with al := v.vidMode, ah := v.textColumns.setWidth 8,
                       bh := BitVec.ofNat 8 v.dispPage.val }
  else if regs.ah = 0x10 then int10Palette v regs
  else if regs.ah = 0x11 then done v regs
  else if regs.ah = 0x12 ∨ regs.ah = 0x1a then int10AlternateSelect v regs
  else if regs.ah = 0x1b ∨ regs.ah = 0x4f then done v regs
  else if regs.ah = 0xef then done v { regs with al := 0x03 }
  else ⟨v, { regs with cf := true }, none, []⟩

def bootVideo (mem : Mem) : Video :=
  ⟨0x03, 80, 24, 8, fun _ => 0, 0, ⟨mem, []⟩⟩

end MicrobootVideo
