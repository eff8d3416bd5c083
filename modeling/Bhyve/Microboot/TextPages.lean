import Bhyve.Microboot.Cursor
import Bhyve.Vga.Render

/-!
Text pages across the ROM's character services and the host's renderer, which place a page at two
bytes a cell or at one.
-/
namespace MicrobootPages
open ByteMemory TracedMemory StepRuns MicrobootVideo MicrobootCursor VgaRender

inductive TextService where
  | setCursor
  | setPage
  | writeAttr
  | writeChar
  | teletype
  deriving DecidableEq

def TextService.ah : TextService → BitVec 8
  | .setCursor => 0x02
  | .setPage => 0x05
  | .writeAttr => 0x09
  | .writeChar => 0x0a
  | .teletype => 0x0e

structure TextCall where
  service : TextService
  regs : CallRegs

def TextCall.request (call : TextCall) : CallRegs := { call.regs with ah := call.service.ah }

/-- What the pages should show: the character last written to each cell, if any. -/
abbrev Pages := Fin 8 → Nat → Option (BitVec 8)

def writePages (pages : Pages) (page : Fin 8) (cell count : Nat) (ch : BitVec 8) : Pages :=
  fun q c => if q = page ∧ cell ≤ c ∧ c < cell + count then some ch else pages q c

def scrollPages (pages : Pages) (page : Fin 8) (columns rows : Nat) : Pages :=
  fun q c =>
    if q = page then if c < columns * rows then pages q (c + columns) else none else pages q c

structure TextState where
  video : Video
  vga : VgaSoftc
  pages : Pages

variable (v : Video)

def writtenRange (call : TextCall) : Option (Fin 8 × Nat × Nat) :=
  match call.service with
  | .setCursor | .setPage => none
  | .writeAttr =>
      (acceptPage v.vidMode call.regs.bh).map fun page =>
        (page, v.cellIndex (v.cursorX page) (v.cursorY page), call.regs.cx.toNat)
  | .writeChar =>
      (acceptPage v.vidMode call.regs.bh).map fun page =>
        (page, v.cellIndex (v.cursorX page) (v.cursorY page), 1)
  | .teletype =>
      if isControl call.regs.al then none
      else some (v.dispPage, v.cellIndex (v.cursorX v.dispPage) (v.cursorY v.dispPage), 1)

def scrolls (call : TextCall) : Bool :=
  call.service = .teletype ∧
    v.textRowsMinusOne < (ttyWrap v.textColumns
      (ttyMove call.regs.al (v.cursorX v.dispPage) (v.cursorY v.dispPage))).2

def markWritten (pages : Pages) (ch : BitVec 8) : Option (Fin 8 × Nat × Nat) → Pages
  | none => pages
  | some (page, cell, count) => writePages pages page cell count ch

variable (s : TextState)

def nextPages (call : TextCall) : Pages :=
  let written := markWritten s.pages call.regs.al (writtenRange s.video call)
  if scrolls s.video call then
    scrollPages written s.video.dispPage s.video.textColumns.toNat s.video.textRowsMinusOne.toNat
  else written

def hostDisplay (vga : VgaSoftc) : Option DisplayCmd → VgaSoftc
  | some (.vidmode mode _ _ _) => (vgaSwitchmode vga mode).1
  | _ => vga

def textStep (call : TextCall) : TextState :=
  let result := handleInt10 none s.video call.request
  ⟨result.video, hostDisplay s.vga result.cmd, nextPages s call⟩

def startText (mem : Mem) (image : Image) (palette : BitVec 8 → BitVec 32) (mode : BitVec 8) :
    TextState :=
  let result := handleInt10 none (bootVideo mem) { blankRegs with al := mode }
  ⟨result.video, hostDisplay (vgaInit image palette) result.cmd, fun _ _ => none⟩

/-- AL of AH=08h for a page, after AH=02h has put its cursor there. -/
def readBack (page x y : BitVec 8) : BitVec 8 :=
  let placed := (handleInt10 none v { blankRegs with ah := 0x02, bh := page, dl := x, dh := y }).video
  (handleInt10 none placed { blankRegs with ah := 0x08, bh := page }).regs.al

/-- Every written character is read back, and shown where the text renderer runs. -/
def PagesAgree (s : TextState) : Prop :=
  ∀ b page x y ch, acceptPage s.video.vidMode b = some page →
    x.toNat < s.video.textColumns.toNat → y.toNat ≤ s.video.textRowsMinusOne.toNat →
    s.pages page (s.video.cellIndex x y) = some ch →
    readBack s.video b x y = ch ∧
      (page = s.video.dispPage → s.vga.vgaMode = 0x03 →
        (shownCell s.video.text.mem page.val x.toNat y.toNat).extractLsb' 0 8 = ch)

def targetPage (call : TextCall) : Option (Fin 8) :=
  match call.service with
  | .setCursor | .setPage => none
  | .writeAttr | .writeChar => acceptPage v.vidMode call.regs.bh
  | .teletype => some v.dispPage

def pageCell (page : Fin 8) (c : Nat) : BitVec 16 :=
  read16 v.text.mem (vgaTextAddr + page.val * (2 * screenCells v.textColumns v.textRowsMinusOne) +
    2 * c)

def OtherPagesKept (call : TextCall) : Prop :=
  ∀ page, targetPage s.video call = some page → ∀ q, Accepts s.video.vidMode q → q ≠ page →
    ∀ c, c < screenCells s.video.textColumns s.video.textRowsMinusOne →
      pageCell (textStep s call).video q c = pageCell s.video q c

def TextHolds (call : TextCall) : Prop :=
  PagesAgree (textStep s call) ∧ OtherPagesKept s call

/-- A call that stays with page 0: writes go to page 0 while it is displayed, inside the
    page in mode 03h and inside the first row in mode 13h, and another page is displayed
    only while nothing has been written. -/
def OnPageZero (call : TextCall) : Prop :=
  (call.service = .setPage → ∀ page, acceptPage s.video.vidMode call.regs.al = some page →
    page.val = 0 ∨ ∀ q c, s.pages q c = none) ∧
  ∀ page cell count, writtenRange s.video call = some (page, cell, count) → 0 < count →
    page.val = 0 ∧ s.video.dispPage.val = 0 ∧ (s.video.vidMode = 0x03 → cell + count ≤ 80 * 25) ∧
      (s.video.vidMode = 0x13 → cell + count ≤ 40)

structure HeldOnZero (pages : Pages) (mem : Mem) (mode : BitVec 8) : Prop where
  zero : ∀ q c ch, pages q c = some ch → q = 0
  stored : ∀ c ch, pages 0 c = some ch → mem (vgaTextAddr + 2 * c) = ch
  firstRow : mode = 0x13 → ∀ c ch, pages 0 c = some ch → c < 40

structure PageInv (s : TextState) : Prop where
  cursor : CursorInv s.video
  host : s.vga.vgaMode = 0x03 → s.video.vidMode ≠ 0x12
  display : s.video.vidMode = 0x03 ∨ s.video.dispPage = 0
  shown : ∀ q c ch, s.pages q c = some ch → s.video.dispPage = 0
  held : HeldOnZero s.pages s.video.text.mem s.video.vidMode

variable {s : TextState} {call : TextCall} {page : Fin 8} {cell count c : Nat}
  {ch mode : BitVec 8} {pages : Pages} {t : Traced}

theorem writes_page_zero (ok : OnPageZero s call)
    (range : writtenRange s.video call = some (page, cell, count)) (positive : 0 < count) :
    page = 0 ∧ s.video.dispPage = 0 ∧
      (s.video.vidMode = 0x03 → cell + count ≤ 80 * 25) ∧
      (s.video.vidMode = 0x13 → cell + count ≤ 40) := by
  obtain ⟨zero, displayed, room, first⟩ := ok.2 page cell count range positive
  exact ⟨Fin.ext zero, Fin.ext displayed, room, first⟩

theorem read16_low (m : Mem) (a : Nat) : (read16 m a).extractLsb' 0 8 = m a :=
  BitVec.extractLsb'_append_eq_right

variable (regs : CallRegs)

theorem set_cursor_inside (page : Fin 8) (accepted : acceptPage v.vidMode regs.bh = some page)
    (column : regs.dl.toNat < v.textColumns.toNat)
    (row : regs.dh.toNat ≤ v.textRowsMinusOne.toNat) :
    (int10SetCursor v regs).video = v.setCursor page regs.dl regs.dh := by
  have below : ¬ v.textRowsMinusOne < regs.dh := BitVec.not_lt.mpr row
  simp only [int10SetCursor, accepted, Nat.not_le.mpr column, below, ↓reduceIte, done]

theorem read_back_byte (b x y : BitVec 8) (page : Fin 8)
    (accepted : acceptPage v.vidMode b = some page) (column : x.toNat < v.textColumns.toNat)
    (row : y.toNat ≤ v.textRowsMinusOne.toNat) : readBack v b x y =
      v.text.mem (vgaTextAddr + v.dispPage.val * v.cells + 2 * v.cellIndex x y) := by
  have placed : (handleInt10 none v
      { blankRegs with ah := 0x02, bh := b, dl := x, dh := y }).video =
      { v with text := { v.text with log := [] } }.setCursor page x y :=
    set_cursor_inside { v with text := { v.text with log := [] } } _ page accepted column row
  simp only [readBack, placed]
  have read : ∀ w : Video, w.vidMode = v.vidMode → (handleInt10 none w
      { blankRegs with ah := 0x08, bh := b }).regs.al =
      w.text.mem (vgaTextAddr + w.dispPage.val * w.cells +
        2 * w.cellIndex (w.cursorX page) (w.cursorY page)) := by
    intro w mode
    have taken : handleInt10 none w { blankRegs with ah := 0x08, bh := b } =
        int10ReadChar { w with text := { w.text with log := [] } }
          { blankRegs with ah := 0x08, bh := b } := rfl
    rw [taken, int10ReadChar]
    simp only [mode, accepted]
    exact read16_low _ _
  refine (read ({ v with text := { v.text with log := [] } }.setCursor page x y) rfl).trans ?_
  simp only [Video.cursorX, Video.cursorY, set_cursor_same, pack_cursor_low, pack_cursor_high]
  rfl

theorem shown_address (inv : PageInv s) (text : s.vga.vgaMode = 0x03) {x y : BitVec 8}
    (written : s.pages 0 (s.video.cellIndex x y) = some ch) :
    txtRam + 0 * (80 * 25 * 2) + y.toNat * (2 * 80) + 2 * x.toNat =
      vgaTextAddr + 2 * s.video.cellIndex x y := by
  unfold txtRam vgaTextAddr Video.cellIndex
  rcases geometry_mode inv.cursor.geometry with ⟨mode, columns, rows⟩ | ⟨mode, columns, rows⟩ |
    ⟨mode, columns, rows⟩
  · rw [columns]
    show _ = 0xb8000 + 2 * (y.toNat * 80 + x.toNat)
    omega
  · exact absurd mode (inv.host text)
  · have first := inv.held.firstRow mode _ _ written
    unfold Video.cellIndex at first
    rw [columns] at first ⊢
    have forty : (40 : BitVec 16).toNat = 40 := rfl
    rw [forty] at first ⊢
    have top : y.toNat = 0 := by omega
    omega

theorem pages_agree (inv : PageInv s) : PagesAgree s := by
  intro b page x y ch accepted column row written
  have pageZero := inv.held.zero page _ ch written
  have displayed := inv.shown page _ ch written
  subst pageZero
  have byte := inv.held.stored _ ch written
  constructor
  · rw [read_back_byte s.video b x y 0 accepted column row, displayed]
    have base : vgaTextAddr + (0 : Fin 8).val * s.video.cells + 2 * s.video.cellIndex x y =
        vgaTextAddr + 2 * s.video.cellIndex x y := by simp
    rw [base]
    exact byte
  · intro _ text
    rw [shownCell, read16_low]
    have address := shown_address inv text written
    show s.video.text.mem (txtRam + 0 * (80 * 25 * 2) + y.toNat * (2 * 80) + 2 * x.toNat) = ch
    rw [address]
    exact byte

theorem blank_held (blank : ∀ q c, pages q c = none) (mem : Mem) (mode : BitVec 8) :
    HeldOnZero pages mem mode := by
  have absurdly : ∀ {q c ch} {p : Prop}, pages q c = some ch → p := by
    intro q c ch p written
    rw [blank q c] at written
    cases written
  exact ⟨fun _ _ _ => absurdly, fun _ _ => absurdly, fun _ _ _ => absurdly⟩

theorem write_held {mem mem' : Mem} (held : HeldOnZero pages mem mode)
    (first : mode = 0x13 → cell + count ≤ 40)
    (inside : ∀ c, cell ≤ c → c < cell + count → mem' (vgaTextAddr + 2 * c) = ch)
    (outside : ∀ c, c < cell ∨ cell + count ≤ c → mem' (vgaTextAddr + 2 * c) = mem (vgaTextAddr + 2 * c)) :
    HeldOnZero (writePages pages 0 cell count ch) mem' mode := by
  refine ⟨?_, ?_, ?_⟩
  · intro q c found written
    unfold writePages at written
    split at written
    · rename_i hit
      exact hit.1
    · exact held.zero q c found written
  · intro c found written
    unfold writePages at written
    split at written
    · rename_i hit
      rw [inside c hit.2.1 hit.2.2]
      exact Option.some.inj written
    · rename_i miss
      have away : c < cell ∨ cell + count ≤ c := by
        by_contra near
        exact miss ⟨rfl, by omega, by omega⟩
      rw [outside c away]
      exact held.stored c found written
  · intro thirteen c found written
    unfold writePages at written
    split at written
    · rename_i hit
      have := first thirteen
      omega
    · exact held.firstRow thirteen c found written

theorem filled_held (held : HeldOnZero pages t.mem mode) (attrib ch : BitVec 8)
    (first : mode = 0x13 → cell + count ≤ 40) : HeldOnZero (writePages pages 0 cell count ch)
      (fillCells (attrib ++ ch) count (vgaTextAddr + 2 * cell) t).mem mode := by
  apply write_held held first
  · intro c lower upper
    have word := fillCells_mem (attrib ++ ch) count (vgaTextAddr + 2 * cell) t (c - cell) (by omega)
    have low := read16_low (fillCells (attrib ++ ch) count (vgaTextAddr + 2 * cell) t).mem
      (vgaTextAddr + 2 * cell + 2 * (c - cell))
    rw [word] at low
    rw [show vgaTextAddr + 2 * c = vgaTextAddr + 2 * cell + 2 * (c - cell) by omega, ← low]
    exact BitVec.extractLsb'_append_eq_right
  · intro c away
    exact (confined_fillCells _ count _ t).unchanged _ (by omega)

theorem stored_held (held : HeldOnZero pages t.mem mode) (ch : BitVec 8)
    (first : mode = 0x13 → cell + 1 ≤ 40) :
    HeldOnZero (writePages pages 0 cell 1 ch) (store8 t (vgaTextAddr + cell * 2) ch).mem mode := by
  apply write_held held first
  · intro c lower upper
    rw [show vgaTextAddr + 2 * c = vgaTextAddr + cell * 2 by omega]
    exact write8_same _ _ _
  · intro c away
    exact write8_other _ _ (by omega)

theorem scroll_up_mem (columns rows base : Nat) (t : Traced) (positive : 0 < columns)
    (above : c < columns * rows) :
    (scrollUp columns rows base t).mem (base + 2 * c) = t.mem (base + 2 * (c + columns)) := by
  unfold scrollUp
  rw [(confined_fillLowBytes _ _ _ _).unchanged _ (by omega),
    moveCells_mem _ _ _ _ _ (by omega) (by omega) (by omega)]
  congr 1
  omega

theorem scrolled_held (held : HeldOnZero pages t.mem mode) {columns rows : Nat}
    (positive : 0 < columns) :
    HeldOnZero (scrollPages pages 0 columns rows) (scrollUp columns rows vgaTextAddr t).mem mode := by
  have source : ∀ {c ch}, scrollPages pages 0 columns rows 0 c = some ch →
      c < columns * rows ∧ pages 0 (c + columns) = some ch := by
    intro c ch written
    simp only [scrollPages, ↓reduceIte] at written
    split at written
    · exact ⟨‹_›, written⟩
    · cases written
  refine ⟨?_, ?_, ?_⟩
  · intro q c ch written
    unfold scrollPages at written
    split at written
    · assumption
    · exact held.zero q c ch written
  · intro c ch written
    obtain ⟨above, moved⟩ := source written
    rw [scroll_up_mem _ _ _ _ positive above]
    exact held.stored _ ch moved
  · intro thirteen c ch written
    have := held.firstRow thirteen _ ch (source written).2
    omega

theorem start_inv (mem : Mem) (image : Image) (palette : BitVec 8 → BitVec 32) (mode : BitVec 8) :
    PageInv (startText mem image palette mode) := by
  have taken : handleInt10 none (bootVideo mem) { blankRegs with al := mode } =
      int10SetMode (bootVideo mem) { blankRegs with al := mode } := rfl
  simp only [startText, taken]
  have home : ∀ columns rows, modeGeometry mode = some (columns, rows) → CursorIn columns rows 0 := by
    intro columns rows geometry
    rcases geometry_cases geometry with ⟨c, r⟩ | ⟨c, r⟩ | ⟨c, r⟩
    · subst c r; decide
    · subst c r; decide
    · subst c r; decide
  have cursor : CursorInv (int10SetMode (bootVideo mem) { blankRegs with al := mode }).video := by
    apply set_mode_inv (boot_cursor_inv mem)
    intro columns rows geometry
    have inside := home columns rows geometry
    exact ⟨fun _ _ => inside, cursor_in_index inside⟩
  have blank : ∀ (q : Fin 8) (c : Nat), (fun _ _ => none : Pages) q c = none := fun _ _ => rfl
  refine ⟨cursor, ?_, Or.inr ?_, ?_, blank_held blank _ _⟩
  · unfold int10SetMode
    split
    · intro _ graphics
      cases graphics
    · intro text graphics
      have same : mode = 0x12 := graphics
      subst same
      have recorded : (0x12 : BitVec 8) = 0x03 := text
      revert recorded
      decide
  · unfold int10SetMode
    split <;> rfl
  · intro q c ch written
    cases written

def freshLog (v : Video) : Video := { v with text := { v.text with log := [] } }

structure KeepsMode (v : Video) (result : Int10Result) : Prop where
  host : ∀ vga, hostDisplay vga result.cmd = vga
  mode : result.video.vidMode = v.vidMode
  columns : result.video.textColumns = v.textColumns
  rows : result.video.textRowsMinusOne = v.textRowsMinusOne

theorem set_cursor_keeps_mode : KeepsMode v (int10SetCursor v regs) := by
  unfold int10SetCursor
  split <;> exact ⟨fun _ => rfl, rfl, rfl, rfl⟩

theorem set_page_keeps_mode : KeepsMode v (int10SetPage v regs) := by
  unfold int10SetPage
  split <;> exact ⟨fun _ => rfl, rfl, rfl, rfl⟩

theorem write_char_keeps_mode : KeepsMode v (int10WriteChar v regs) := by
  unfold int10WriteChar
  split
  · exact ⟨fun _ => rfl, rfl, rfl, rfl⟩
  · refine ⟨?_, rfl, rfl, rfl⟩
    intro vga
    by_cases text : v.vidMode = 0x03
    · simp [text, hostDisplay]
    · simp [hostDisplay]

theorem teletype_keeps_mode : KeepsMode v (int10Teletype v regs) := by
  simp only [int10Teletype]
  split <;> exact ⟨fun _ => rfl, rfl, rfl, rfl⟩

theorem text_step_keeps_mode (s : TextState) (call : TextCall) :
    KeepsMode (freshLog s.video) (handleInt10 none s.video call.request) := by
  obtain ⟨service, regs⟩ := call
  cases service with
  | setCursor => exact set_cursor_keeps_mode (freshLog s.video) { regs with ah := 0x02 }
  | setPage => exact set_page_keeps_mode (freshLog s.video) { regs with ah := 0x05 }
  | writeAttr => exact write_char_keeps_mode (freshLog s.video) { regs with ah := 0x09 }
  | writeChar => exact write_char_keeps_mode (freshLog s.video) { regs with ah := 0x0a }
  | teletype => exact teletype_keeps_mode (freshLog s.video) { regs with ah := 0x0e }

theorem write_char_inv {v : Video} (inv : CursorInv v) (regs : CallRegs) :
    CursorInv (int10WriteChar v regs).video := by
  unfold int10WriteChar
  split <;> exact ⟨inv.geometry, inv.accepted, inv.active⟩

theorem text_step_cursor (inv : CursorInv s.video) (call : TextCall) :
    CursorInv (textStep s call).video := by
  have fresh := fresh_log_inv inv
  obtain ⟨service, regs⟩ := call
  cases service with
  | setCursor => exact set_cursor_call_inv fresh _
  | setPage => exact set_page_inv fresh _
  | writeAttr => exact write_char_inv fresh _
  | writeChar => exact write_char_inv fresh _
  | teletype => exact teletype_inv fresh _

theorem step_inv_of (inv : PageInv s)
    (display : s.video.vidMode = 0x03 ∨ (textStep s call).video.dispPage = 0)
    (shown : ∀ q c ch, (textStep s call).pages q c = some ch → (textStep s call).video.dispPage = 0)
    (held : HeldOnZero (textStep s call).pages (textStep s call).video.text.mem s.video.vidMode) :
    PageInv (textStep s call) := by
  have keeps := text_step_keeps_mode s call
  have mode : (textStep s call).video.vidMode = s.video.vidMode := keeps.mode
  have vga : (textStep s call).vga = s.vga := keeps.host s.vga
  refine ⟨text_step_cursor inv.cursor call, ?_, ?_, shown, ?_⟩
  · rw [mode, vga]
    exact inv.host
  · rw [mode]
    exact display
  · rw [mode]
    exact held

theorem set_cursor_keeps (inv : PageInv s) (regs : CallRegs) :
    PageInv (textStep s ⟨.setCursor, regs⟩) := by
  have pages : (textStep s ⟨.setCursor, regs⟩).pages = s.pages := rfl
  have placed : (textStep s ⟨.setCursor, regs⟩).video.dispPage = s.video.dispPage ∧
      (textStep s ⟨.setCursor, regs⟩).video.text.mem = s.video.text.mem := by
    show (int10SetCursor (freshLog s.video) { regs with ah := 0x02 }).video.dispPage = _ ∧
      (int10SetCursor (freshLog s.video) { regs with ah := 0x02 }).video.text.mem = _
    unfold int10SetCursor
    split <;> exact ⟨rfl, rfl⟩
  apply step_inv_of inv
  · rw [placed.1]
    exact inv.display
  · rw [placed.1, pages]
    exact inv.shown
  · rw [placed.2, pages]
    exact inv.held

theorem set_page_keeps (inv : PageInv s) (regs : CallRegs) (ok : OnPageZero s ⟨.setPage, regs⟩) :
    PageInv (textStep s ⟨.setPage, regs⟩) := by
  have pages : (textStep s ⟨.setPage, regs⟩).pages = s.pages := rfl
  have moved : (textStep s ⟨.setPage, regs⟩).video.text.mem = s.video.text.mem ∧
      ((textStep s ⟨.setPage, regs⟩).video.dispPage = s.video.dispPage ∨
        ∃ page, acceptPage s.video.vidMode regs.al = some page ∧
          (textStep s ⟨.setPage, regs⟩).video.dispPage = page) := by
    show (int10SetPage (freshLog s.video) { regs with ah := 0x05 }).video.text.mem = _ ∧
      ((int10SetPage (freshLog s.video) { regs with ah := 0x05 }).video.dispPage = _ ∨ ∃ page, _ ∧
        (int10SetPage (freshLog s.video) { regs with ah := 0x05 }).video.dispPage = page)
    unfold int10SetPage
    split
    · exact ⟨rfl, Or.inl rfl⟩
    · exact ⟨rfl, Or.inr ⟨_, ‹_›, rfl⟩⟩
  have held : HeldOnZero (textStep s ⟨.setPage, regs⟩).pages
      (textStep s ⟨.setPage, regs⟩).video.text.mem s.video.vidMode := by
    rw [moved.1, pages]
    exact inv.held
  rcases moved.2 with same | ⟨page, accepted, selected⟩
  · apply step_inv_of inv
    · rw [same]
      exact inv.display
    · rw [same, pages]
      exact inv.shown
    · exact held
  · apply step_inv_of inv
    · rw [selected]
      exact (accepts_iff s.video.vidMode page).mp ⟨regs.al, accepted⟩
    · intro q c ch written
      rw [selected]
      rcases ok.1 rfl page accepted with zero | blank
      · exact Fin.ext zero
      · rw [pages, blank q c] at written
        cases written
    · exact held

theorem write_none (pages : Pages) (page : Fin 8) (cell : Nat) (ch : BitVec 8) :
    writePages pages page cell 0 ch = pages := by
  funext q c
  unfold writePages
  split
  · omega
  · rfl

theorem write_char_held {v : Video} {pages : Pages} (held : HeldOnZero pages v.text.mem v.vidMode)
    (regs : CallRegs) (count : Nat)
    (counted : count = (if regs.ah = 0x0a then (1 : BitVec 16) else regs.cx).toNat)
    (ok : ∀ page, acceptPage v.vidMode regs.bh = some page → 0 < count → page = 0 ∧
      (v.vidMode = 0x13 → v.cellIndex (v.cursorX page) (v.cursorY page) + count ≤ 40)) :
    HeldOnZero (markWritten pages regs.al ((acceptPage v.vidMode regs.bh).map fun page =>
        (page, v.cellIndex (v.cursorX page) (v.cursorY page), count)))
      (int10WriteChar v regs).video.text.mem v.vidMode := by
  cases accepted : acceptPage v.vidMode regs.bh with
  | none =>
    simp only [int10WriteChar, accepted]
    exact held
  | some page =>
    simp only [int10WriteChar, accepted, ← counted, done, Option.map_some, markWritten]
    rcases Nat.eq_zero_or_pos count with nothing | positive
    · rw [nothing, write_none]
      exact held
    · obtain ⟨zero, first⟩ := ok page accepted positive
      subst zero
      have base : vgaTextAddr + (0 : Fin 8).val * v.cells = vgaTextAddr := by simp
      rw [base]
      exact filled_held held _ _ first

theorem mark_written_shown (inv : PageInv s) (ok : OnPageZero s call) {q : Fin 8}
    (written : markWritten s.pages call.regs.al (writtenRange s.video call) q c = some ch) :
    s.video.dispPage = 0 := by
  cases range : writtenRange s.video call with
  | none =>
    rw [range] at written
    exact inv.shown q c ch written
  | some place =>
    rw [range] at written
    simp only [markWritten, writePages] at written
    split at written
    · exact (writes_page_zero ok range (by omega)).2.1
    · exact inv.shown q c ch written

theorem next_pages_shown (inv : PageInv s) (ok : OnPageZero s call) (q : Fin 8) (c : Nat)
    (ch : BitVec 8) (written : (textStep s call).pages q c = some ch) : s.video.dispPage = 0 := by
  have next : nextPages s call q c = some ch := written
  simp only [nextPages] at next
  split at next
  · simp only [scrollPages] at next
    split at next
    · split at next
      · exact mark_written_shown inv ok next
      · cases next
    · exact mark_written_shown inv ok next
  · exact mark_written_shown inv ok next

theorem write_char_display : (int10WriteChar v regs).video.dispPage = v.dispPage := by
  unfold int10WriteChar
  split <;> rfl

theorem write_keeps {s : TextState} (inv : PageInv s) {call : TextCall} (ok : OnPageZero s call)
    {regs : CallRegs} {count : Nat}
    (handled : (textStep s call).video = (int10WriteChar (freshLog s.video) regs).video)
    (marked : (textStep s call).pages = markWritten s.pages regs.al (writtenRange s.video call))
    (range : writtenRange s.video call = (acceptPage s.video.vidMode regs.bh).map fun page =>
      (page, s.video.cellIndex (s.video.cursorX page) (s.video.cursorY page), count))
    (counted : count = (if regs.ah = 0x0a then (1 : BitVec 16) else regs.cx).toNat) :
    PageInv (textStep s call) := by
  have display : (textStep s call).video.dispPage = s.video.dispPage := by
    rw [handled]
    exact write_char_display (freshLog s.video) regs
  apply step_inv_of inv
  · rw [display]
    exact inv.display
  · rw [display]
    exact next_pages_shown inv ok
  · rw [handled, marked, range]
    apply @write_char_held (freshLog s.video) s.pages inv.held regs count counted
    intro page accepted positive
    have written := range
    have taken : acceptPage s.video.vidMode regs.bh = some page := accepted
    rw [taken] at written
    obtain ⟨zero, _, _, first⟩ := writes_page_zero ok written positive
    exact ⟨zero, first⟩

theorem teletype_text {base : Nat}
    (based : vgaTextAddr + v.dispPage.val * v.cells * 2 = base) {written : Traced}
    (stored : (if isControl regs.al then v.text else store8 v.text (base +
      v.cellIndex (v.cursorX v.dispPage) (v.cursorY v.dispPage) * 2) regs.al) = written) :
    (int10Teletype v regs).video.text =
      if v.textRowsMinusOne < (ttyWrap v.textColumns
          (ttyMove regs.al (v.cursorX v.dispPage) (v.cursorY v.dispPage))).2 then
        scrollUp v.textColumns.toNat v.textRowsMinusOne.toNat base written
      else written := by
  simp only [int10Teletype, based, stored]
  split <;> rfl

theorem teletype_held (inv : PageInv s) (regs : CallRegs) (ok : OnPageZero s ⟨.teletype, regs⟩)
    (displayed : s.video.dispPage = 0) : HeldOnZero (nextPages s ⟨.teletype, regs⟩)
      (textStep s ⟨.teletype, regs⟩).video.text.mem s.video.vidMode := by
  obtain ⟨wide, _, _⟩ := geometry_bounds inv.cursor.geometry
  have base : vgaTextAddr + s.video.dispPage.val * s.video.cells * 2 = vgaTextAddr := by
    rw [displayed]
    simp
  have written : HeldOnZero
      (markWritten s.pages regs.al (writtenRange s.video ⟨.teletype, regs⟩))
      (if isControl regs.al then (freshLog s.video).text
        else store8 (freshLog s.video).text (vgaTextAddr +
          s.video.cellIndex (s.video.cursorX s.video.dispPage)
            (s.video.cursorY s.video.dispPage) * 2) regs.al).mem s.video.vidMode := by
    cases control : isControl regs.al with
    | true =>
      simp only [writtenRange, control, ↓reduceIte, markWritten]
      exact inv.held
    | false =>
      have range : writtenRange s.video ⟨.teletype, regs⟩ = some (s.video.dispPage,
          s.video.cellIndex (s.video.cursorX s.video.dispPage)
            (s.video.cursorY s.video.dispPage), 1) := by
        simp [writtenRange, control]
      obtain ⟨_, _, _, first⟩ := writes_page_zero ok range Nat.one_pos
      rw [range]
      rw [displayed] at first ⊢
      exact stored_held inv.held regs.al first
  obtain ⟨bytes, stored⟩ : ∃ t, (if isControl regs.al then (freshLog s.video).text
      else store8 (freshLog s.video).text (vgaTextAddr +
        s.video.cellIndex (s.video.cursorX s.video.dispPage)
          (s.video.cursorY s.video.dispPage) * 2) regs.al) = t := ⟨_, rfl⟩
  rw [stored] at written
  have text := teletype_text (freshLog s.video) { regs with ah := 0x0e } base stored
  by_cases past : s.video.textRowsMinusOne < (ttyWrap s.video.textColumns
      (ttyMove regs.al (s.video.cursorX s.video.dispPage) (s.video.cursorY s.video.dispPage))).2
  · have scrolled : scrolls s.video ⟨.teletype, regs⟩ = true := decide_eq_true ⟨rfl, past⟩
    have moved : (textStep s ⟨.teletype, regs⟩).video.text = scrollUp s.video.textColumns.toNat
        s.video.textRowsMinusOne.toNat vgaTextAddr bytes := text.trans (if_pos past)
    simp only [nextPages, scrolled, ↓reduceIte]
    rw [moved, displayed]
    exact scrolled_held written (by omega)
  · have still : scrolls s.video ⟨.teletype, regs⟩ = false :=
      decide_eq_false fun both => past both.2
    have kept : (textStep s ⟨.teletype, regs⟩).video.text = bytes := text.trans (if_neg past)
    simp only [nextPages, still, Bool.false_eq_true, ↓reduceIte]
    rw [kept]
    exact written

theorem teletype_display : (int10Teletype v regs).video.dispPage = v.dispPage := by
  simp only [int10Teletype]
  split <;> rfl

theorem teletype_keeps (inv : PageInv s) (regs : CallRegs) (ok : OnPageZero s ⟨.teletype, regs⟩) :
    PageInv (textStep s ⟨.teletype, regs⟩) := by
  have display : (textStep s ⟨.teletype, regs⟩).video.dispPage = s.video.dispPage :=
    teletype_display (freshLog s.video) { regs with ah := 0x0e }
  apply step_inv_of inv
  · rw [display]
    exact inv.display
  · rw [display]
    exact next_pages_shown inv ok
  · by_cases displayed : s.video.dispPage = 0
    · exact teletype_held inv regs ok displayed
    · apply blank_held
      intro q c
      cases written : (textStep s ⟨.teletype, regs⟩).pages q c with
      | none => rfl
      | some ch => exact absurd (next_pages_shown inv ok q c ch written) displayed

theorem text_step_inv (s : TextState) (call : TextCall) (inv : PageInv s)
    (ok : OnPageZero s call) : PageInv (textStep s call) := by
  obtain ⟨service, regs⟩ := call
  cases service with
  | setCursor => exact set_cursor_keeps inv regs
  | setPage => exact set_page_keeps inv regs ok
  | writeAttr => exact @write_keeps s inv _ ok { regs with ah := 0x09 } regs.cx.toNat rfl rfl rfl rfl
  | writeChar => exact @write_keeps s inv _ ok { regs with ah := 0x0a } 1 rfl rfl rfl rfl
  | teletype => exact teletype_keeps inv regs ok

theorem text_mode_geometry {v : Video} (inv : CursorInv v) (text : v.vidMode = 0x03) :
    v.textColumns = 80 ∧ v.textRowsMinusOne = 24 := by
  have geometry := inv.geometry
  rw [text] at geometry
  obtain ⟨columns, rows⟩ := Prod.mk.inj (Option.some.inj geometry)
  exact ⟨columns.symm, rows.symm⟩

theorem page_cells_kept (inv : PageInv s) (text : s.video.vidMode = 0x03)
    (unchanged : ∀ a, a < vgaTextAddr + page.val * 4000 ∨ vgaTextAddr + page.val * 4000 + 4000 ≤ a → (textStep s call).video.text.mem a = s.video.text.mem a)
    {q : Fin 8} (apart : q ≠ page)
    (inside : c < screenCells s.video.textColumns s.video.textRowsMinusOne) :
    pageCell (textStep s call).video q c = pageCell s.video q c := by
  have keeps := text_step_keeps_mode s call
  obtain ⟨columns, rows⟩ := text_mode_geometry inv.cursor text
  have columns' : (textStep s call).video.textColumns = 80 := keeps.columns.trans columns
  have rows' : (textStep s call).video.textRowsMinusOne = 24 := keeps.rows.trans rows
  have cells : screenCells 80 24 = 2000 := rfl
  rw [columns, rows, cells] at inside
  unfold pageCell
  rw [columns, rows, columns', rows', cells]
  apply read16_congr
  · exact unchanged _ (by omega)
  · exact unchanged _ (by omega)

theorem single_page (inv : PageInv s) (graphics : s.video.vidMode ≠ 0x03)
    (target : targetPage s.video call = some page) : page = 0 := by
  have accepted : ∀ b, acceptPage s.video.vidMode b = some page → page = 0 := by
    intro b taken
    exact ((accepts_iff s.video.vidMode page).mp ⟨b, taken⟩).resolve_left graphics
  obtain ⟨service, regs⟩ := call
  cases service with
  | setCursor => cases target
  | setPage => cases target
  | writeAttr => exact accepted _ target
  | writeChar => exact accepted _ target
  | teletype =>
    have shown : s.video.dispPage = page := Option.some.inj target
    rw [← shown]
    exact inv.display.resolve_left graphics

theorem write_char_unchanged
    (counted : count = (if regs.ah = 0x0a then (1 : BitVec 16) else regs.cx).toNat)
    (accepted : acceptPage v.vidMode regs.bh = some page)
    (inside : 0 < count → page = 0 ∧ v.cellIndex (v.cursorX page) (v.cursorY page) + count ≤ 80 * 25)
    (a : Nat)
    (outside : a < vgaTextAddr + page.val * 4000 ∨ vgaTextAddr + page.val * 4000 + 4000 ≤ a) :
    (int10WriteChar v regs).video.text.mem a = v.text.mem a := by
  simp only [int10WriteChar, accepted, ← counted, done]
  rcases Nat.eq_zero_or_pos count with nothing | positive
  · rw [nothing]
    rfl
  · obtain ⟨zero, room⟩ := inside positive
    subst zero
    have base : vgaTextAddr + (0 : Fin 8).val * v.cells = vgaTextAddr := by simp
    have first : (0 : Fin 8).val * 4000 = 0 := by simp
    exact (confined_fillCells _ count _ v.text).unchanged a (by omega)

theorem other_pages_kept (inv : PageInv s) (ok : OnPageZero s call) : OtherPagesKept s call := by
  intro page target q accepted apart c inside
  by_cases text : s.video.vidMode = 0x03
  · apply page_cells_kept inv text ?_ apart inside
    intro a outside
    obtain ⟨service, regs⟩ := call
    cases service with
    | setCursor => cases target
    | setPage => cases target
    | writeAttr =>
      apply write_char_unchanged (freshLog s.video) { regs with ah := 0x09 } rfl target ?_ a outside
      intro positive
      obtain ⟨zero, _, room, _⟩ := writes_page_zero ok (congrArg (Option.map _) target) positive
      exact ⟨zero, room text⟩
    | writeChar =>
      apply write_char_unchanged (freshLog s.video) { regs with ah := 0x0a } rfl target ?_ a outside
      intro positive
      obtain ⟨zero, _, room, _⟩ := writes_page_zero ok (congrArg (Option.map _) target) positive
      exact ⟨zero, room text⟩
    | teletype =>
      have shown : s.video.dispPage = page := Option.some.inj target
      obtain ⟨columns, rows⟩ := text_mode_geometry inv.cursor text
      have confined := teletype_confined (fresh_log_inv inv.cursor) { regs with ah := 0x0e }
      apply confined.unchanged
      have cells : screenCells s.video.textColumns s.video.textRowsMinusOne = 2000 := by
        rw [columns, rows]
        rfl
      simp only [activePageAddr]
      rw [cells, shown]
      omega
  · have zero := single_page inv text target
    have other := ((accepts_iff s.video.vidMode q).mp accepted).resolve_left text
    exact absurd (other.trans zero.symm) apart

theorem text_holds (s : TextState) (call : TextCall) (inv : PageInv s) (ok : OnPageZero s call) :
    TextHolds s call :=
  ⟨pages_agree (text_step_inv s call inv ok), other_pages_kept inv ok⟩

/-- After every mode set at boot, a run of text calls that stays with page 0 reads back
    and shows every character it wrote and leaves the other pages as they are. -/
theorem text_pages_along (mem : Mem) (image : Image) (palette : BitVec 8 → BitVec 32)
    (mode : BitVec 8) (calls : List TextCall)
    (ok : Along textStep OnPageZero (startText mem image palette mode) calls) :
    Along textStep TextHolds (startText mem image palette mode) calls :=
  along_of_invariant text_step_inv text_holds calls _ (start_inv mem image palette mode) ok

def clearedText : TextState := startText (fun _ => 0) ⟨640, 400⟩ (fun _ => 0) 0x03

theorem text_pages_along_page_zero : Along textStep TextHolds clearedText
      [⟨.teletype, { blankRegs with al := 0x41 }⟩,
       ⟨.writeAttr, { blankRegs with al := 0x42, bl := 0x07, cl := 2 }⟩] := by
  apply text_pages_along
  have first : writtenRange clearedText.video ⟨.teletype, { blankRegs with al := 0x41 }⟩ =
      some (0, 0, 1) := by decide
  have second : writtenRange (textStep clearedText ⟨.teletype, { blankRegs with al := 0x41 }⟩).video
      ⟨.writeAttr, { blankRegs with al := 0x42, bl := 0x07, cl := 2 }⟩ = some (0, 1, 2) := by
    decide
  refine ⟨⟨fun select => (nomatch select), ?_⟩, ⟨fun select => (nomatch select), ?_⟩, trivial⟩
  · intro page cell count range _
    cases first.symm.trans range
    decide
  · intro page cell count range _
    cases second.symm.trans range
    decide

theorem page_one_not_read_back : ¬ Along textStep TextHolds clearedText
      [⟨.writeAttr, { blankRegs with al := 0x41, bh := 1, bl := 0x07, cl := 1 }⟩] := by
  intro along
  have agree := along.1.1 1 1 0 0 0x41 (by decide) (by decide) (by decide)
    (by decide)
  have read := agree.1
  revert read
  decide

end MicrobootPages
