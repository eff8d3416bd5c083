import Mathlib.Tactic.Ring
import Bhyve.Lib.StepRuns
import Bhyve.Microboot.Video

/-!
Cursor bounds under sequences of AH=00h, 02h, 05h and 0Eh.
-/
namespace MicrobootCursor
open ByteMemory TracedMemory StepRuns MicrobootVideo

inductive CursorService where
  | setMode
  | setCursor
  | setPage
  | teletype
  deriving DecidableEq

def CursorService.ah : CursorService → BitVec 8
  | .setMode => 0x00
  | .setCursor => 0x02
  | .setPage => 0x05
  | .teletype => 0x0e

structure CursorCall where
  service : CursorService
  regs : CallRegs

def cursorStep (stalePage : Option (Fin 8)) (v : Video) (call : CursorCall) : Video :=
  (handleInt10 stalePage v { call.regs with ah := call.service.ah }).video

def Accepts (mode : BitVec 8) (page : Fin 8) : Prop := ∃ b, acceptPage mode b = some page

def CursorIn (columns : BitVec 16) (rows : BitVec 8) (cursor : BitVec 16) : Prop :=
  (cursor.extractLsb' 0 8).toNat < columns.toNat ∧ (cursor.extractLsb' 8 8).toNat ≤ rows.toNat

instance (columns : BitVec 16) (rows : BitVec 8) (cursor : BitVec 16) :
    Decidable (CursorIn columns rows cursor) :=
  inferInstanceAs (Decidable (_ ∧ _))

def CursorsHold (v : Video) : Prop :=
  ∀ page, Accepts v.vidMode page →
    CursorIn v.textColumns v.textRowsMinusOne (v.cursorPosition page)

def screenCells (columns : BitVec 16) (rows : BitVec 8) : Nat :=
  columns.toNat * (rows.toNat + 1)

def activePageAddr (v : Video) : Nat :=
  vgaTextAddr + v.dispPage.val * (2 * screenCells v.textColumns v.textRowsMinusOne)

def StoresInActivePage (v : Video) (log : List Nat) : Prop :=
  ∀ a ∈ log, activePageAddr v ≤ a ∧
    a < activePageAddr v + 2 * screenCells v.textColumns v.textRowsMinusOne

def CallHolds (stalePage : Option (Fin 8)) (v : Video) (call : CursorCall) : Prop :=
  CursorsHold (cursorStep stalePage v call) ∧
    (call.service = .teletype → StoresInActivePage v (cursorStep stalePage v call).text.log)

/-- A mode switch is safe when the cursor of every page the new mode accepts lies in the
    new bounds and the cell under the active page's cursor lies in the new page. -/
def ModeFits (v : Video) (call : CursorCall) : Prop :=
  call.service = .setMode → ∀ columns rows,
    modeGeometry call.regs.al = some (columns, rows) →
      (∀ page, Accepts call.regs.al page → CursorIn columns rows (v.cursorPosition page)) ∧
      ((v.cursorY v.dispPage).toNat * columns.toNat + (v.cursorX v.dispPage).toNat <
        screenCells columns rows)

structure CursorInv (v : Video) : Prop where
  geometry : modeGeometry v.vidMode = some (v.textColumns, v.textRowsMinusOne)
  accepted : CursorsHold v
  active : v.cellIndex (v.cursorX v.dispPage) (v.cursorY v.dispPage) <
    screenCells v.textColumns v.textRowsMinusOne

theorem accepts_iff (mode : BitVec 8) (page : Fin 8) :
    Accepts mode page ↔ mode = 0x03 ∨ page = 0 := by
  constructor
  · rintro ⟨b, accepted⟩
    unfold acceptPage at accepted
    split at accepted
    · exact Or.inl ‹_›
    · split at accepted
      · cases accepted
      · exact Or.inr (Option.some.inj accepted).symm
  · rintro (text | zero)
    · have every : ∀ p : Fin 8, acceptPage 0x03 (BitVec.ofNat 8 p.val) = some p := by decide
      subst text
      exact ⟨BitVec.ofNat 8 page.val, every page⟩
    · subst zero
      refine ⟨0, ?_⟩
      simp [acceptPage]

variable {mode rows : BitVec 8} {columns : BitVec 16} {v : Video}

section
variable (geometry : modeGeometry mode = some (columns, rows))
include geometry

theorem geometry_mode :
    (mode = 0x03 ∧ columns = 80 ∧ rows = 24) ∨ (mode = 0x12 ∧ columns = 80 ∧ rows = 29) ∨
      (mode = 0x13 ∧ columns = 40 ∧ rows = 24) := by
  unfold modeGeometry at geometry
  split at geometry
  · cases geometry
    exact Or.inl ⟨‹_›, rfl, rfl⟩
  split at geometry
  · cases geometry
    exact Or.inr (Or.inl ⟨‹_›, rfl, rfl⟩)
  split at geometry
  · cases geometry
    exact Or.inr (Or.inr ⟨‹_›, rfl, rfl⟩)
  · cases geometry

theorem geometry_cases :
    (columns = 80 ∧ rows = 24) ∨ (columns = 80 ∧ rows = 29) ∨ (columns = 40 ∧ rows = 24) := by
  rcases geometry_mode geometry with ⟨_, size⟩ | ⟨_, size⟩ | ⟨_, size⟩
  · exact Or.inl size
  · exact Or.inr (Or.inl size)
  · exact Or.inr (Or.inr size)

theorem geometry_bounds : 40 ≤ columns.toNat ∧ columns.toNat ≤ 80 ∧
      (rows.toNat + 1) * columns.toNat % 2 ^ 16 = screenCells columns rows := by
  rcases geometry_cases geometry with ⟨c, r⟩ | ⟨c, r⟩ | ⟨c, r⟩
  · subst c r; decide
  · subst c r; decide
  · subst c r; decide

end

@[simp] theorem pack_cursor_low (x y : BitVec 8) : (packCursor x y).extractLsb' 0 8 = x :=
  BitVec.extractLsb'_append_eq_right

@[simp] theorem pack_cursor_high (x y : BitVec 8) : (packCursor x y).extractLsb' 8 8 = y :=
  BitVec.extractLsb'_append_eq_left

theorem cursor_in_index {cursor : BitVec 16} (inside : CursorIn columns rows cursor) :
    (cursor.extractLsb' 8 8).toNat * columns.toNat + (cursor.extractLsb' 0 8).toNat <
      screenCells columns rows := by
  obtain ⟨column, row⟩ := inside
  have rowCells := Nat.mul_le_mul_right columns.toNat row
  unfold screenCells
  rw [Nat.mul_add, Nat.mul_one, Nat.mul_comm columns.toNat]
  omega

theorem boot_cursor_inv (mem : Mem) : CursorInv (bootVideo mem) := by
  have home : CursorIn 80 24 0 := by decide
  refine ⟨rfl, ?_, ?_⟩
  · intro page _
    exact home
  · exact cursor_in_index home

theorem set_cursor_same (v : Video) (page : Fin 8) (x y : BitVec 8) :
    (v.setCursor page x y).cursorPosition page = packCursor x y := by
  simp [Video.setCursor]

theorem set_cursor_other (v : Video) {page other : Fin 8} (x y : BitVec 8) (apart : other ≠ page) :
    (v.setCursor page x y).cursorPosition other = v.cursorPosition other := by
  simp [Video.setCursor, Function.update_of_ne apart]

theorem set_cursor_inv (inv : CursorInv v) (text : Traced) (page : Fin 8) (x y : BitVec 8)
    (column : x.toNat < v.textColumns.toNat) (row : y.toNat ≤ v.textRowsMinusOne.toNat) :
    CursorInv ({ v with text := text }.setCursor page x y) := by
  have placed : CursorIn v.textColumns v.textRowsMinusOne (packCursor x y) := by
    simp only [CursorIn, pack_cursor_low, pack_cursor_high]
    exact ⟨column, row⟩
  refine ⟨inv.geometry, ?_, ?_⟩
  · intro other accepted
    by_cases same : other = page
    · subst same
      rw [set_cursor_same]
      exact placed
    · rw [set_cursor_other _ _ _ same]
      exact inv.accepted other accepted
  · simp only [Video.cellIndex, Video.cursorX, Video.cursorY]
    by_cases same : v.dispPage = page
    · have active : ({ v with text := text }.setCursor page x y).dispPage = page := same
      rw [active, set_cursor_same]
      exact cursor_in_index placed
    · have active : ({ v with text := text }.setCursor page x y).dispPage = v.dispPage := rfl
      rw [active, set_cursor_other _ _ _ same]
      exact inv.active

theorem set_mode_inv (inv : CursorInv v) (regs : CallRegs)
    (fits : ∀ columns rows, modeGeometry regs.al = some (columns, rows) → (∀ page, Accepts regs.al page → CursorIn columns rows (v.cursorPosition page)) ∧ ((v.cursorY v.dispPage).toNat * columns.toNat + (v.cursorX v.dispPage).toNat < screenCells columns rows)) :
    CursorInv (int10SetMode v regs).video := by
  unfold int10SetMode
  split
  · exact inv
  · rename_i columns rows geometry
    obtain ⟨accepted, active⟩ := fits columns rows geometry
    exact ⟨geometry, accepted, active⟩

theorem set_cursor_call_inv (inv : CursorInv v) (regs : CallRegs) :
    CursorInv (int10SetCursor v regs).video := by
  obtain ⟨wide, narrow, _⟩ := geometry_bounds inv.geometry
  unfold int10SetCursor
  split
  · exact inv
  · rename_i page accepted
    apply set_cursor_inv inv v.text
    · split
      · simp only [BitVec.toNat_setWidth]
        have step : (v.textColumns - 1).toNat = v.textColumns.toNat - 1 := by bv_omega
        omega
      · omega
    · split
      · exact Nat.le_refl _
      · rename_i below
        exact BitVec.not_lt.mp below

theorem set_page_inv (inv : CursorInv v) (regs : CallRegs) :
    CursorInv (int10SetPage v regs).video := by
  unfold int10SetPage
  split
  · exact inv
  · rename_i page accepted
    refine ⟨inv.geometry, inv.accepted, ?_⟩
    exact cursor_in_index (inv.accepted page ⟨regs.al, accepted⟩)

theorem tty_wrap_column (columns : BitVec 16) (pos : BitVec 8 × BitVec 8)
    (positive : 0 < columns.toNat) : (ttyWrap columns pos).1.toNat < columns.toNat := by
  unfold ttyWrap
  split
  · exact positive
  · omega

theorem teletype_inv (inv : CursorInv v) (regs : CallRegs) :
    CursorInv (int10Teletype v regs).video := by
  obtain ⟨wide, _, _⟩ := geometry_bounds inv.geometry
  have column := tty_wrap_column v.textColumns
    (ttyMove regs.al (v.cursorX v.dispPage) (v.cursorY v.dispPage)) (by omega)
  simp only [int10Teletype]
  split
  · exact set_cursor_inv inv _ v.dispPage _ _ column (Nat.le_refl _)
  · rename_i below
    exact set_cursor_inv inv _ v.dispPage _ _ column (BitVec.not_lt.mp below)

theorem scroll_up_confined (columns rows base : Nat) (t : Traced) :
    Confined base (base + 2 * (columns * (rows + 1))) t (scrollUp columns rows base t) := by
  have total : columns * (rows + 1) = columns * rows + columns := by ring
  have moved := confined_moveCells (columns * rows) base (base + 2 * columns) t
  have filled := confined_fillLowBytes 0x20 columns (base + 2 * (columns * rows))
    (moveCells (columns * rows) base (base + 2 * columns) t)
  exact confined_trans (confined_widen moved (Nat.le_refl _) (by omega))
    (confined_widen filled (by omega) (by omega))

theorem teletype_confined (inv : CursorInv v) (regs : CallRegs) : Confined (activePageAddr v)
      (activePageAddr v + 2 * screenCells v.textColumns v.textRowsMinusOne) v.text
      (int10Teletype v regs).video.text := by
  obtain ⟨_, _, cells⟩ := geometry_bounds inv.geometry
  have base : vgaTextAddr + v.dispPage.val * v.cells * 2 = activePageAddr v := by
    unfold Video.cells activePageAddr
    rw [cells]
    ring
  have active := inv.active
  have written : Confined (activePageAddr v)
      (activePageAddr v + 2 * screenCells v.textColumns v.textRowsMinusOne) v.text
      (if isControl regs.al then v.text else store8 v.text (activePageAddr v +
        v.cellIndex (v.cursorX v.dispPage) (v.cursorY v.dispPage) * 2) regs.al) := by
    split
    · exact confined_refl _ _ _
    · exact confined_store8 _ _ (by omega) (by omega)
  simp only [int10Teletype, base]
  split
  · exact confined_trans written (scroll_up_confined _ _ _ _)
  · exact written

theorem fresh_log_inv (inv : CursorInv v) :
    CursorInv { v with text := { v.text with log := [] } } :=
  ⟨inv.geometry, inv.accepted, inv.active⟩

theorem cursor_step_inv (stalePage : Option (Fin 8)) (v : Video) (call : CursorCall)
    (inv : CursorInv v) (fits : ModeFits v call) : CursorInv (cursorStep stalePage v call) := by
  have fresh := fresh_log_inv inv
  obtain ⟨service, regs⟩ := call
  cases service with
  | setMode => exact set_mode_inv fresh _ (fits rfl)
  | setCursor => exact set_cursor_call_inv fresh _
  | setPage => exact set_page_inv fresh _
  | teletype => exact teletype_inv fresh _

theorem teletype_stores (stalePage : Option (Fin 8)) (v : Video) (regs : CallRegs)
    (inv : CursorInv v) :
    StoresInActivePage v (cursorStep stalePage v ⟨.teletype, regs⟩).text.log := by
  have confined := teletype_confined (fresh_log_inv inv) { regs with ah := 0x0e }
  obtain ⟨added, log, bounds⟩ := confined.stores
  intro a member
  have same : (cursorStep stalePage v ⟨.teletype, regs⟩).text.log = added := log
  rw [same] at member
  exact bounds a member

theorem call_holds (stalePage : Option (Fin 8)) (v : Video) (call : CursorCall)
    (inv : CursorInv v) (fits : ModeFits v call) : CallHolds stalePage v call := by
  refine ⟨(cursor_step_inv stalePage v call inv fits).accepted, ?_⟩
  intro teletype
  obtain ⟨service, regs⟩ := call
  subst teletype
  exact teletype_stores stalePage v regs inv

/-- From boot, every call of a run keeps the accepted cursors in bounds and the teletype
    stores in the active page, as long as each mode switch finds cursors that fit. -/
theorem cursor_bounds_along (stalePage : Option (Fin 8)) (mem : Mem) (calls : List CursorCall)
    (fits : Along (cursorStep stalePage) ModeFits (bootVideo mem) calls) :
    Along (cursorStep stalePage) (CallHolds stalePage) (bootVideo mem) calls :=
  along_of_invariant (cursor_step_inv stalePage) (call_holds stalePage) calls _
    (boot_cursor_inv mem) fits

def blankRegs : CallRegs := ⟨0, 0, 0, 0, 0, 0, 0, 0, 0, false⟩

theorem cursor_bounds_along_newline :
    Along (cursorStep none) (CallHolds none) (bootVideo fun _ => 0)
      [⟨.teletype, { blankRegs with al := 0x0a }⟩, ⟨.setMode, { blankRegs with al := 0x13 }⟩] := by
  apply cursor_bounds_along
  refine ⟨fun mode => (nomatch mode), ?_, trivial⟩
  intro _ columns rows geometry
  obtain ⟨c, r⟩ : 40 = columns ∧ 24 = rows := Prod.mk.inj (Option.some.inj geometry)
  subst c r
  refine ⟨?_, by decide⟩
  have inside : ∀ page : Fin 8, CursorIn 40 24 ((cursorStep none (bootVideo fun _ => 0)
      ⟨.teletype, { blankRegs with al := 0x0a }⟩).cursorPosition page) := by decide
  exact fun page _ => inside page

theorem cursor_out_of_bounds_mode13 :
    ¬ Along (cursorStep none) (CallHolds none) (bootVideo fun _ => 0)
      [⟨.setCursor, { blankRegs with dl := 79 }⟩, ⟨.setMode, { blankRegs with al := 0x13 }⟩] := by
  intro along
  have bad := along.2.1.1 0 ⟨0, by decide⟩
  revert bad
  decide

end MicrobootCursor
