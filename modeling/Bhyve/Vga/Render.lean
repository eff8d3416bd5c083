import Bhyve.Lib.ByteMemory
import Bhyve.Lib.StepRuns

/-!
The host side of the display: vga_switchmode records a mode and a size, vga_render
resizes the console image and then fills it with one of three renderers. A renderer
advances one pixel pointer from the start of the image, so it is modelled by the list of
pixels it stores, in order. The reset branch is left out: vga_in_reset returns 0.
-/
namespace VgaRender
open ByteMemory StepRuns

structure Image where
  width : Nat
  height : Nat
  deriving DecidableEq, Repr

structure VgaSoftc where
  gcWidth : Nat
  gcHeight : Nat
  gcBpp : BitVec 8
  vgaMode : BitVec 8
  gcImage : Image
  dacPaletteRgb : BitVec 8 → BitVec 32

def colors4bpp : List (BitVec 32) :=
  [0x00000000, 0x000000dd, 0x0000dd00, 0x0000dddd, 0x00dd0000, 0x00dd00dd, 0x00dddd00, 0x00dddddd,
   0x00555555, 0x000000f0, 0x0000f000, 0x0000f0f0, 0x00f00000, 0x00f000f0, 0x00f0f000, 0x00ffffff]

def color4bpp (nibble : BitVec 8) : BitVec 32 := colors4bpp.getD nibble.toNat 0

variable (sc : VgaSoftc)

/-- Every byte but 03h and 12h resizes the screen and returns before the mode is recorded. -/
def vgaSwitchmode (mode : BitVec 8) : VgaSoftc × Int :=
  if mode = 0x03 then
    ({ sc with gcWidth := 640, gcHeight := 400, gcBpp := 4, vgaMode := mode }, 0)
  else if mode = 0x12 then
    ({ sc with gcWidth := 640, gcHeight := 480, gcBpp := 4, vgaMode := mode }, 0)
  else ({ sc with gcWidth := 320, gcHeight := 200, gcBpp := 8 }, -1)

def bhyvegcResize (width height : Nat) : VgaSoftc :=
  { sc with gcImage := ⟨width, height⟩ }

def vgaCheckSize (sc : VgaSoftc) : VgaSoftc :=
  if sc.gcImage.width ≠ sc.gcWidth ∨ sc.gcImage.height ≠ sc.gcHeight then
    bhyvegcResize sc sc.gcWidth sc.gcHeight
  else sc

def vgaRam : Nat := 0xa0000
def txtRam : Nat := 0xb8000

/-- 640x480x16: each byte of video memory gives two pixels, low nibble first. -/
def vgaRenderMode12 (mem : Mem) : List (BitVec 32) :=
  let perRow := (sc.gcWidth + 1) / 2
  (List.range sc.gcHeight).flatMap fun y => (List.range perRow).flatMap fun x =>
    let pixels := mem (vgaRam + (y * perRow + x))
    [color4bpp (pixels &&& 0xf), color4bpp ((pixels >>> 4) &&& 0xf)]

def vgaRenderGraphics (mem : Mem) : List (BitVec 32) :=
  if sc.vgaMode = 0x12 then vgaRenderMode12 sc mem
  else
    (List.range sc.gcHeight).flatMap fun y => (List.range sc.gcWidth).map fun x =>
      sc.dacPaletteRgb (mem (vgaRam + (y * sc.gcWidth + x)))

abbrev Glyphs := BitVec 8 → Nat → BitVec 8

def bitmapTo32bpp (bits : BitVec 8) (fg bg : BitVec 32) : List (BitVec 32) :=
  [7, 6, 5, 4, 3, 2, 1, 0].map fun bit => if bits.getLsbD bit then fg else bg

variable (glyphs : Glyphs)

def glyphRenderLine (row : List (BitVec 16)) (cols : Nat) : Option (List (BitVec 32)) :=
  if 80 < cols then none
  else some <|
    (List.range 16).flatMap fun y => (List.range cols).flatMap fun i =>
      let cell := row.getD i 0
      let ch := cell.extractLsb' 0 8
      let attr := cell.extractLsb' 8 8
      bitmapTo32bpp (glyphs ch y) (color4bpp (attr &&& 0xf)) (color4bpp ((attr >>> 4) &&& 0xf))

variable (mem : Mem)

/-- The character word that vga_render_text shows in column x of row y when txtpage is
    the active page: pages are 80 by 25 cells here, whatever the mode. -/
def shownCell (txtpage x y : Nat) : BitVec 16 :=
  read16 mem (txtRam + txtpage * (80 * 25 * 2) + y * (2 * 80) + 2 * x)

def vgaRenderText (txtpage : Nat) : List (BitVec 32) :=
  (List.range 25).flatMap fun y =>
    (glyphRenderLine glyphs ((List.range 80).map fun x => shownCell mem txtpage x y) 80).getD []

def vgaRender (sc : VgaSoftc) (mem : Mem) (txtpage : Nat) : VgaSoftc × List (BitVec 32) :=
  let sc := vgaCheckSize sc
  if sc.vgaMode ≠ 0x03 then (sc, vgaRenderGraphics sc mem)
  else (sc, vgaRenderText glyphs mem txtpage)

def vgaInit (image : Image) (palette : BitVec 8 → BitVec 32) : VgaSoftc :=
  (vgaSwitchmode ⟨0, 0, 0, 0x03, image, palette⟩ 0x03).1

theorem flatMap_const_length {α β : Type} (f : α → List β) (k : Nat) (xs : List α)
    (fixed : ∀ x ∈ xs, (f x).length = k) : (xs.flatMap f).length = xs.length * k := by
  rw [List.length_flatMap, List.map_congr_left fixed, List.map_const', List.sum_replicate_nat]

theorem mode12_pixel_count (even : sc.gcWidth % 2 = 0) :
    (vgaRenderMode12 sc mem).length = sc.gcWidth * sc.gcHeight := by
  have row : ∀ y ∈ List.range sc.gcHeight,
      ((List.range ((sc.gcWidth + 1) / 2)).flatMap fun x =>
        [color4bpp (mem (vgaRam + (y * ((sc.gcWidth + 1) / 2) + x)) &&& 0xf),
         color4bpp ((mem (vgaRam + (y * ((sc.gcWidth + 1) / 2) + x)) >>> 4) &&& 0xf)]).length =
        sc.gcWidth := by
    intro y _
    rw [flatMap_const_length _ 2 _ (by intro x _; rfl), List.length_range]
    omega
  simp only [vgaRenderMode12]
  rw [flatMap_const_length _ _ _ row, List.length_range, Nat.mul_comm]

theorem graphics_pixel_count (even : sc.gcWidth % 2 = 0) :
    (vgaRenderGraphics sc mem).length = sc.gcWidth * sc.gcHeight := by
  simp only [vgaRenderGraphics]
  split
  · exact mode12_pixel_count sc mem even
  · rw [flatMap_const_length _ sc.gcWidth _ (by intro y _; simp), List.length_range, Nat.mul_comm]

theorem glyph_line_pixel_count (row : List (BitVec 16)) :
    ((glyphRenderLine glyphs row 80).getD []).length = 16 * (80 * 8) := by
  simp only [glyphRenderLine, Nat.lt_irrefl, ↓reduceIte, Option.getD_some]
  rw [flatMap_const_length _ (80 * 8) _ ?_, List.length_range]
  intro y _
  rw [flatMap_const_length _ 8 _ (by intro i _; rfl), List.length_range]

theorem text_pixel_count (txtpage : Nat) :
    (vgaRenderText glyphs mem txtpage).length = 640 * 400 := by
  simp only [vgaRenderText]
  rw [flatMap_const_length _ (16 * (80 * 8)) _ fun y _ => glyph_line_pixel_count glyphs _,
    List.length_range]

inductive VgaEvent where
  | switchmode : BitVec 8 → VgaEvent
  | render : VgaEvent

def vgaStep (sc : VgaSoftc) : VgaEvent → VgaSoftc
  | .switchmode mode => (vgaSwitchmode sc mode).1
  | .render => vgaCheckSize sc

def modeSize (mode : BitVec 8) : Image :=
  if mode = 0x03 then ⟨640, 400⟩ else if mode = 0x12 then ⟨640, 480⟩ else ⟨320, 200⟩

/-- A vga_render call fills the image it has just resized, no more and no less, and the
    renderer picked by vga_mode is the one for that size. -/
def RenderFills (txtpage : Nat) (sc : VgaSoftc) : Prop :=
  let after := vgaRender glyphs sc mem txtpage
  after.2.length = after.1.gcImage.width * after.1.gcImage.height ∧
    after.1.gcImage = modeSize after.1.vgaMode

def lastMode (history : List VgaEvent) : BitVec 8 :=
  history.foldl (fun mode e => match e with | .switchmode m => m | .render => mode) 0x03

theorem check_size_fields : (vgaCheckSize sc).gcImage = ⟨sc.gcWidth, sc.gcHeight⟩ ∧
      (vgaCheckSize sc).gcWidth = sc.gcWidth ∧ (vgaCheckSize sc).gcHeight = sc.gcHeight ∧
      (vgaCheckSize sc).vgaMode = sc.vgaMode := by
  unfold vgaCheckSize
  split
  · exact ⟨rfl, rfl, rfl, rfl⟩
  · rename_i same
    refine ⟨?_, rfl, rfl, rfl⟩
    obtain ⟨width, height⟩ : sc.gcImage.width = sc.gcWidth ∧ sc.gcImage.height = sc.gcHeight := by
      simpa using same
    rw [← width, ← height]

/-- What a history of calls leaves behind: the size asked for last, and the last of the
    two modes that vga_switchmode records. -/
structure AfterModes (sc : VgaSoftc) (last : BitVec 8) : Prop where
  size : (⟨sc.gcWidth, sc.gcHeight⟩ : Image) = modeSize last
  recorded : sc.vgaMode = 0x03 ∨ sc.vgaMode = 0x12
  current : last = 0x03 ∨ last = 0x12 → sc.vgaMode = last

theorem switchmode_after (mode last : BitVec 8) (after : AfterModes sc last) :
    AfterModes (vgaSwitchmode sc mode).1 mode := by
  unfold vgaSwitchmode
  split
  · rename_i text
    subst text
    exact ⟨rfl, Or.inl rfl, fun _ => rfl⟩
  · split
    · rename_i graphics
      subst graphics
      exact ⟨rfl, Or.inr rfl, fun _ => rfl⟩
    · rename_i notText notGraphics
      refine ⟨by simp only [modeSize, notText, notGraphics, ↓reduceIte], after.recorded, ?_⟩
      intro known
      rcases known with text | graphics
      · exact absurd text notText
      · exact absurd graphics notGraphics

theorem render_after (last : BitVec 8) (after : AfterModes sc last) :
    AfterModes (vgaCheckSize sc) last := by
  obtain ⟨_, width, height, mode⟩ := check_size_fields sc
  refine ⟨?_, ?_, ?_⟩
  · rw [width, height]
    exact after.size
  · rw [mode]
    exact after.recorded
  · rw [mode]
    exact after.current

theorem after_history (history : List VgaEvent) :
    ∀ sc last, AfterModes sc last → AfterModes (run vgaStep sc history)
      (history.foldl (fun mode e => match e with | .switchmode m => m | .render => mode) last) := by
  induction history with
  | nil => intro sc last after; exact after
  | cons e rest ih =>
    intro sc last after
    cases e with
    | switchmode mode => exact ih _ _ (switchmode_after sc mode last after)
    | render => exact ih _ _ (render_after sc last after)

theorem init_after (image : Image) (palette : BitVec 8 → BitVec 32) :
    AfterModes (vgaInit image palette) 0x03 :=
  ⟨rfl, Or.inl rfl, fun _ => rfl⟩

theorem render_fills_iff_of_after (txtpage : Nat) (sc : VgaSoftc)
    (last : BitVec 8) (after : AfterModes sc last) :
    RenderFills glyphs mem txtpage sc ↔ last = 0x03 ∨ last = 0x12 := by
  obtain ⟨image, width, height, mode⟩ := check_size_fields sc
  have size := after.size
  have imageEq : (vgaCheckSize sc).gcImage = modeSize last := image.trans size
  have rendered : (vgaRender glyphs sc mem txtpage).1 = vgaCheckSize sc := by
    simp only [vgaRender]
    split <;> rfl
  constructor
  · intro fills
    by_contra other
    have sizes : modeSize last = ⟨320, 200⟩ := by
      simp_all [modeSize]
    have matched := fills.2
    rw [rendered, imageEq, mode, sizes] at matched
    rcases after.recorded with text | graphics
    · rw [text] at matched
      revert matched
      decide
    · rw [graphics] at matched
      revert matched
      decide
  · intro known
    have recorded := after.current known
    refine ⟨?_, ?_⟩
    · rw [rendered, imageEq]
      simp only [vgaRender, mode, recorded]
      rcases known with text | graphics
      · subst text
        exact text_pixel_count glyphs mem txtpage
      · subst graphics
        have sized : sc.gcWidth = 640 ∧ sc.gcHeight = 480 := Image.mk.inj size
        have count := graphics_pixel_count (vgaCheckSize sc) mem (by rw [width, sized.1])
        rw [width, height, sized.1, sized.2] at count
        exact count
    · rw [rendered, imageEq, mode, recorded]

/-- For every history of mode switches and renders, the next render fills exactly its
    image with the matching renderer if and only if the last mode byte was 03h or 12h. -/
theorem render_fills_iff (glyphs : Glyphs) (mem : Mem) (txtpage : Nat) (image : Image)
    (palette : BitVec 8 → BitVec 32) (history : List VgaEvent) :
    RenderFills glyphs mem txtpage (run vgaStep (vgaInit image palette) history) ↔
      lastMode history = 0x03 ∨ lastMode history = 0x12 :=
  render_fills_iff_of_after glyphs mem txtpage _ _
    (after_history history _ _ (init_after image palette))

theorem render_overruns_mode13 : ¬ RenderFills (fun _ _ => 0) (fun _ => 0) 0
      (run vgaStep (vgaInit ⟨640, 480⟩ fun _ => 0) [.switchmode 0x13]) := by
  intro fills
  have count := fills.1
  have text := text_pixel_count (fun _ _ => 0) (fun _ => 0) 0
  have chosen : (vgaRender (fun _ _ => 0)
      (run vgaStep (vgaInit ⟨640, 480⟩ fun _ => 0) [.switchmode 0x13]) (fun _ => 0) 0).2 =
      vgaRenderText (fun _ _ => 0) (fun _ => 0) 0 := rfl
  rw [chosen, text] at count
  revert count
  decide

end VgaRender
