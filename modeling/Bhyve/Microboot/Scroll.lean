import Bhyve.Lib.CountedLoops
import Bhyve.Lib.RowShifts
import Bhyve.Microboot.Video

/-!
AH=06h and AH=07h with a line count, as loops with 16-bit counters, and as what they do to the rows
of the window. A row is here the part of it that lies in the columns of the window.
-/
namespace MicrobootVideo
open ByteMemory TracedMemory CountedLoops RowShifts Function

def copyCell (dst src x : Nat) (t : Traced) : Traced :=
  let low := store8 t (dst + 2 * x) (t.mem (src + 2 * x))
  store8 low (dst + 2 * x + 1) (low.mem (src + 2 * x + 1))

structure RowPointers where
  dst : Nat
  src : Nat
  text : Traced

variable (v : Video)

def copyRow (x1 x2 : BitVec 16) (fuel : Nat) (p : RowPointers) : Option RowPointers :=
  (countUp (fun x t => some (copyCell p.dst p.src x t)) x2 fuel x1 p.text).map fun text =>
    ⟨p.dst + 2 * v.textColumns.toNat, p.src + 2 * v.textColumns.toNat, text⟩

def fillRow (fillData : BitVec 16) (x1 x2 : BitVec 16) (fuel : Nat) (p : RowPointers) :
    Option RowPointers :=
  (countUp (fun x t => some (store16 t (p.dst + 2 * x) fillData)) x2 fuel x1 p.text).map fun text =>
    { p with dst := p.dst + 2 * v.textColumns.toNat, text := text }

def clipColumn (x : BitVec 8) : BitVec 16 :=
  if v.textColumns ≤ x.setWidth 16 then v.textColumns - 1 else x.setWidth 16

def textPageAddr (v : Video) : Nat := vgaTextAddr + v.dispPage.val * v.cells

variable (regs : CallRegs)

def fillLoop (fuel : Nat) (lines : Nat) (dst : Nat) (text : Traced) : Option Traced :=
  (countUp (fun _ => fillRow v (regs.bh ++ (0x20 : BitVec 8)) (clipColumn v regs.cl)
    (clipColumn v regs.dl) fuel) (BitVec.ofNat 16 (lines - 1)) fuel 0 ⟨dst, 0, text⟩).map
    RowPointers.text

def scrollLoops (fuel : Nat) (v : Video) (regs : CallRegs) : Option Traced :=
  let columns := v.textColumns.toNat
  let rows := v.textRowsMinusOne.toNat
  let copy := copyRow v (clipColumn v regs.cl) (clipColumn v regs.dl) fuel
  let y1 := regs.ch.toNat
  let y2 := regs.dh.toNat
  if regs.ah = 0x06 then
    if y1 = 0 then some v.text
    else
      let lines := min regs.al.toNat y1
      let start : RowPointers := ⟨textPageAddr v + 2 * ((y1 - lines) * columns),
        textPageAddr v + 2 * (y1 * columns), v.text⟩
      (countUp (fun _ => copy) (regs.dh.setWidth 16) fuel (regs.ch.setWidth 16) start).bind
        fun p => fillLoop v regs fuel lines
          (textPageAddr v + 2 * ((y2 + 1) * columns) - 2 * (lines * columns)) p.text
  else if rows ≤ y2 then some v.text
  else
    let lines := min regs.al.toNat (rows - y2)
    let first : BitVec 16 := if y1 = 0 then 1 else regs.ch.setWidth 16
    let start : RowPointers := ⟨textPageAddr v + 2 * ((y2 + lines) * columns),
      textPageAddr v + 2 * (y2 * columns), v.text⟩
    (countDown (fun _ => copy) first fuel (regs.dh.setWidth 16) start).bind
      fun p => fillLoop v regs fuel lines (textPageAddr v + 2 * (first.toNat * columns)) p.text

theorem repeat_copy_cell (dst src n : Nat) : ∀ (x : Nat) (t : Traced),
    repeatUp (copyCell dst src) n x t = moveCells n (dst + 2 * x) (src + 2 * x) t := by
  induction n with
  | zero => exact fun _ _ => rfl
  | succ n ih =>
    intro x t
    rw [repeatUp, ih]
    rfl

theorem repeat_fill_cell (dst n : Nat) (fillData : BitVec 16) : ∀ (x : Nat) (t : Traced),
    repeatUp (fun x t => store16 t (dst + 2 * x) fillData) n x t =
      fillCells fillData n (dst + 2 * x) t := by
  induction n with
  | zero => exact fun _ _ => rfl
  | succ n ih =>
    intro x t
    rw [repeatUp, ih]
    rfl

theorem clip_column_to_nat {v : Video} (some_column : 0 < v.textColumns.toNat) (x : BitVec 8) :
    (clipColumn v x).toNat =
      if v.textColumns.toNat ≤ x.toNat then v.textColumns.toNat - 1 else x.toNat := by
  have narrow : (x.setWidth 16).toNat = x.toNat := by
    rw [BitVec.toNat_setWidth]
    exact Nat.mod_eq_of_lt (Nat.lt_trans x.isLt (by decide))
  unfold clipColumn
  by_cases beyond : v.textColumns.toNat ≤ x.toNat
  · rw [if_pos (by rw [BitVec.le_def, narrow]; exact beyond), if_pos beyond,
      BitVec.toNat_sub_of_le (by rw [BitVec.le_def]; exact some_column)]
    rfl
  · rw [if_neg (by rw [BitVec.le_def, narrow]; exact beyond), if_neg beyond, narrow]

theorem clip_column_lt {v : Video} (some_column : 0 < v.textColumns.toNat) (x : BitVec 8) :
    (clipColumn v x).toNat + 1 < 2 ^ 16 := by
  rw [clip_column_to_nat some_column]
  split <;> omega

section
variable {v : Video} {regs : CallRegs} {fuel : Nat} (some_column : 0 < v.textColumns.toNat)
  (enough : 2 ^ 16 ≤ fuel)
include some_column enough

theorem copy_row_ends (p : RowPointers) :
    copyRow v (clipColumn v regs.cl) (clipColumn v regs.dl) fuel p =
      some ⟨p.dst + 2 * v.textColumns.toNat, p.src + 2 * v.textColumns.toNat,
        moveCells ((clipColumn v regs.dl).toNat + 1 - (clipColumn v regs.cl).toNat)
          (p.dst + 2 * (clipColumn v regs.cl).toNat) (p.src + 2 * (clipColumn v regs.cl).toNat)
          p.text⟩ := by
  have last := clip_column_lt some_column regs.dl
  rw [copyRow, count_up_ends (fun _ _ => rfl) last _ fuel _ _ rfl (by omega), repeat_copy_cell]
  rfl

theorem fill_row_ends (fillData : BitVec 16) (p : RowPointers) :
    fillRow v fillData (clipColumn v regs.cl) (clipColumn v regs.dl) fuel p =
      some { p with
        dst := p.dst + 2 * v.textColumns.toNat,
        text := (fillCells fillData
          ((clipColumn v regs.dl).toNat + 1 - (clipColumn v regs.cl).toNat)
          (p.dst + 2 * (clipColumn v regs.cl).toNat) p.text) } := by
  have last := clip_column_lt some_column regs.dl
  rw [fillRow, count_up_ends (fun _ _ => rfl) last _ fuel _ _ rfl (by omega), repeat_fill_cell]
  rfl

end

def copiedRow (columns x1 count : Nat) (p : RowPointers) : RowPointers :=
  ⟨p.dst + 2 * columns, p.src + 2 * columns,
    moveCells count (p.dst + 2 * x1) (p.src + 2 * x1) p.text⟩

def filledRow (fillData : BitVec 16) (columns x1 count : Nat) (p : RowPointers) : RowPointers :=
  { p with dst := p.dst + 2 * columns, text := (fillCells fillData count (p.dst + 2 * x1) p.text) }

theorem repeat_copied_row (columns x1 count n : Nat) : ∀ (i : Nat) (p : RowPointers),
    (repeatUp (fun _ => copiedRow columns x1 count) n i p).text =
      moveRows columns x1 count n p.dst p.src p.text := by
  induction n with
  | zero => exact fun _ _ => rfl
  | succ n ih =>
    intro i p
    rw [repeatUp, ih]
    rfl

theorem repeat_copied_row_down (columns x1 count n : Nat) : ∀ (i : Nat) (p : RowPointers),
    (repeatDown (fun _ => copiedRow columns x1 count) n i p).text =
      moveRows columns x1 count n p.dst p.src p.text := by
  induction n with
  | zero => exact fun _ _ => rfl
  | succ n ih =>
    intro i p
    rw [repeatDown, ih]
    rfl

theorem repeat_filled_row (fillData : BitVec 16) (columns x1 count n : Nat) :
    ∀ (i : Nat) (p : RowPointers),
    (repeatUp (fun _ => filledRow fillData columns x1 count) n i p).text =
      fillRows fillData columns x1 count n p.dst p.text := by
  induction n with
  | zero => exact fun _ _ => rfl
  | succ n ih =>
    intro i p
    rw [repeatUp, ih]
    rfl

section
variable {v : Video} {regs : CallRegs} {fuel : Nat} (some_column : 0 < v.textColumns.toNat)
  (enough : 2 ^ 16 ≤ fuel)
include some_column enough

theorem fill_loop_ends {lines : Nat} (some_line : 1 ≤ lines) (few : lines < 256) (dst : Nat)
    (text : Traced) : fillLoop v regs fuel lines dst text =
      some (fillRows (regs.bh ++ (0x20 : BitVec 8)) v.textColumns.toNat
        (clipColumn v regs.cl).toNat
        ((clipColumn v regs.dl).toNat + 1 - (clipColumn v regs.cl).toNat) lines dst text) := by
  have last : (BitVec.ofNat 16 (lines - 1)).toNat = lines - 1 :=
    Nat.mod_eq_of_lt (by omega)
  rw [fillLoop, count_up_ends (fun _ p => fill_row_ends some_column enough _ p)
    (by rw [last]; omega) lines fuel 0 _ (by rw [last]; simp; omega) (by omega), Option.map_some]
  exact congrArg some (repeat_filled_row ..)

end

def windowCount (regs : CallRegs) : Nat :=
  (clipColumn v regs.dl).toNat + 1 - (clipColumn v regs.cl).toNat

/-- n rows from row s on copied to row d on, and then lines rows from row e on filled. -/
def scrolledText (n d s lines e : Nat) : Traced :=
  fillRows (regs.bh ++ (0x20 : BitVec 8)) v.textColumns.toNat (clipColumn v regs.cl).toNat
    (windowCount v regs) lines (textPageAddr v + 2 * (e * v.textColumns.toNat))
    (moveRows v.textColumns.toNat (clipColumn v regs.cl).toNat (windowCount v regs) n
      (textPageAddr v + 2 * (d * v.textColumns.toNat))
      (textPageAddr v + 2 * (s * v.textColumns.toNat)) v.text)

section
variable {v : Video} {regs : CallRegs} {fuel : Nat} (some_column : 0 < v.textColumns.toNat)
  (some_line : regs.al ≠ 0)
include some_column some_line

theorem scroll_up_text (stalePage : Option (Fin 8)) (up : regs.ah = 0x06)
    (below_top : regs.ch.toNat ≠ 0) {lines : Nat} (limited : lines = min regs.al.toNat regs.ch.toNat)
    (high : lines ≤ regs.dh.toNat + 1) : (int10Scroll stalePage v regs).video.text =
      scrolledText v regs (regs.dh.toNat + 1 - regs.ch.toNat) (regs.ch.toNat - lines)
        regs.ch.toNat lines (regs.dh.toNat + 1 - lines) := by
  have bottom : textPageAddr v + 2 * ((regs.dh.toNat + 1) * v.textColumns.toNat) -
      2 * (lines * v.textColumns.toNat) =
      textPageAddr v + 2 * ((regs.dh.toNat + 1 - lines) * v.textColumns.toNat) := by
    have inside : lines * v.textColumns.toNat ≤ (regs.dh.toNat + 1) * v.textColumns.toNat :=
      Nat.mul_le_mul_right _ high
    rw [Nat.sub_mul]
    omega
  rw [limited] at bottom ⊢
  simp only [int10Scroll, scrolledText, windowCount, clip_column_to_nat some_column]
  rw [if_neg some_line, if_pos up, if_neg below_top, ← bottom]
  rfl

theorem scroll_down_text (stalePage : Option (Fin 8)) (down : regs.ah = 0x07)
    (above_last : regs.dh.toNat < v.textRowsMinusOne.toNat) {lines first : Nat}
    (limited : lines = min regs.al.toNat (v.textRowsMinusOne.toNat - regs.dh.toNat))
    (second : first = max regs.ch.toNat 1) : (int10Scroll stalePage v regs).video.text =
      scrolledText v regs (regs.dh.toNat + 1 - first) (regs.dh.toNat + lines)
        regs.dh.toNat lines first := by
  have from_second : (if regs.ch.toNat = 0 then 1 else regs.ch.toNat) = first := by
    split <;> omega
  have not_up : regs.ah ≠ 0x06 := by
    rw [down]
    decide
  simp only [int10Scroll, scrolledText, windowCount, clip_column_to_nat some_column]
  rw [if_neg some_line, if_neg not_up, if_neg (Nat.not_le.mpr above_last), from_second, limited]
  rfl

theorem scroll_loops_end (stalePage : Option (Fin 8)) (service : regs.ah = 0x06 ∨ regs.ah = 0x07)
    (enough : 2 ^ 16 ≤ fuel) :
    scrollLoops fuel v regs = some (int10Scroll stalePage v regs).video.text := by
  have lines : 1 ≤ regs.al.toNat ∧ regs.al.toNat < 256 := by
    have positive : regs.al.toNat ≠ 0 := fun zero => some_line (BitVec.eq_of_toNat_eq zero)
    omega
  have copies (_ : Nat) (p : RowPointers) :
      copyRow v (clipColumn v regs.cl) (clipColumn v regs.dl) fuel p =
        some (copiedRow v.textColumns.toNat (clipColumn v regs.cl).toNat (windowCount v regs) p) :=
    copy_row_ends some_column enough p
  have dh : (regs.dh.setWidth 16).toNat = regs.dh.toNat :=
    (BitVec.toNat_setWidth ..).trans (Nat.mod_eq_of_lt (by omega))
  have ch : (regs.ch.setWidth 16).toNat = regs.ch.toNat :=
    (BitVec.toNat_setWidth ..).trans (Nat.mod_eq_of_lt (Nat.lt_trans regs.ch.isLt (by decide)))
  simp only [scrollLoops, int10Scroll, if_neg some_line, ← clip_column_to_nat some_column]
  rcases service with up | down
  · rw [if_pos up, if_pos up]
    by_cases top : regs.ch.toNat = 0
    · rw [if_pos top, if_pos top]
      rfl
    · rw [if_neg top, if_neg top, count_up_ends copies (by omega) _ fuel _ _ rfl (by omega),
        Option.bind_some, fill_loop_ends some_column enough (by omega) (by omega),
        repeat_copied_row, dh, ch]
      rfl
  · have not_up : regs.ah ≠ 0x06 := by
      rw [down]
      decide
    rw [if_neg not_up, if_neg not_up]
    by_cases last : v.textRowsMinusOne.toNat ≤ regs.dh.toNat
    · rw [if_pos last, if_pos last]
      rfl
    · have first : (if regs.ch.toNat = 0 then 1 else regs.ch.setWidth 16 : BitVec 16).toNat =
          if regs.ch.toNat = 0 then 1 else regs.ch.toNat := by
        split
        · rfl
        · exact ch
      rw [if_neg last, if_neg last, count_down_ends copies (by rw [first]; split <;> omega) _ fuel
        _ _ rfl (by omega), Option.bind_some, fill_loop_ends some_column enough (by omega) (by omega),
        repeat_copied_row_down, dh, first]
      rfl

end

def cellAddr (r c : Nat) : Nat := textPageAddr v + 2 * (r * v.textColumns.toNat + c)

def InColumns (c : Nat) : Prop :=
  (clipColumn v regs.cl).toNat ≤ c ∧ c ≤ (clipColumn v regs.dl).toNat

instance (v : Video) (regs : CallRegs) (c : Nat) : Decidable (InColumns v regs c) :=
  inferInstanceAs (Decidable (_ ∧ _))

def windowRow (mem : Mem) (r c : Nat) : BitVec 16 :=
  if InColumns v regs c then read16 mem (cellAddr v r c) else 0

def blankRow (c : Nat) : BitVec 16 :=
  if InColumns v regs c then regs.bh ++ (0x20 : BitVec 8) else 0

def SameBeside (old new : Mem) : Prop :=
  ∀ a, (∀ r c, InColumns v regs c → a ≠ cellAddr v r c ∧ a ≠ cellAddr v r c + 1) → new a = old a

theorem same_beside_trans {v : Video} {regs : CallRegs} {a b c : Mem}
    (first : SameBeside v regs a b) (second : SameBeside v regs b c) : SameBeside v regs a c :=
  fun x outside => (second x outside).trans (first x outside)

theorem row_order {columns r d : Nat} (before : r < d) : r * columns + columns ≤ d * columns := by
  rw [← Nat.succ_mul]
  exact Nat.mul_le_mul_right columns before

section
variable {v : Video} {regs : CallRegs} (some_column : 0 < v.textColumns.toNat)
include some_column

theorem last_column_lt : (clipColumn v regs.dl).toNat < v.textColumns.toNat := by
  rw [clip_column_to_nat some_column]
  split <;> omega

theorem row_stored {t t' : Traced} {d : Nat} {row : Nat → BitVec 16}
    (confined : Confined (cellAddr v d (clipColumn v regs.cl).toNat)
      (cellAddr v d (clipColumn v regs.cl).toNat + 2 * windowCount v regs) t t')
    (stored : ∀ c, InColumns v regs c → read16 t'.mem (cellAddr v d c) = row c)
    (beside : ∀ c, ¬ InColumns v regs c → row c = 0) :
    windowRow v regs t'.mem = update (windowRow v regs t.mem) d row ∧
      SameBeside v regs t.mem t'.mem := by
  have last : (clipColumn v regs.dl).toNat < v.textColumns.toNat := last_column_lt some_column
  constructor
  · funext r c
    by_cases here : r = d
    · rw [here, update_self, windowRow]
      by_cases inside : InColumns v regs c
      · rw [if_pos inside, stored c inside]
      · rw [if_neg inside, beside c inside]
    · rw [update_of_ne here, windowRow, windowRow]
      by_cases inside : InColumns v regs c
      · rw [if_pos inside, if_pos inside]
        have order := inside
        unfold InColumns at order
        have apart : r * v.textColumns.toNat + v.textColumns.toNat ≤ d * v.textColumns.toNat ∨
            d * v.textColumns.toNat + v.textColumns.toNat ≤ r * v.textColumns.toNat := by
          rcases Nat.lt_or_gt_of_ne here with before | after
          · exact .inl (row_order before)
          · exact .inr (row_order after)
        refine read16_congr (confined.unchanged _ ?_) (confined.unchanged _ ?_)
        · unfold cellAddr windowCount
          omega
        · unfold cellAddr windowCount
          omega
      · rw [if_neg inside, if_neg inside]
  · intro a outside
    apply confined.unchanged
    by_contra hit
    have column : InColumns v regs ((clipColumn v regs.cl).toNat +
        (a - cellAddr v d (clipColumn v regs.cl).toNat) / 2) := by
      unfold InColumns
      unfold windowCount at hit
      omega
    have differ := outside d _ column
    unfold cellAddr at differ hit
    omega

theorem copied_row {t : Traced} {d s : Nat} (apart : d ≠ s) :
    let copied := moveCells (windowCount v regs) (cellAddr v d (clipColumn v regs.cl).toNat)
      (cellAddr v s (clipColumn v regs.cl).toNat) t
    windowRow v regs copied.mem =
        update (windowRow v regs t.mem) d (windowRow v regs t.mem s) ∧
      SameBeside v regs t.mem copied.mem := by
  have last : (clipColumn v regs.dl).toNat < v.textColumns.toNat := last_column_lt some_column
  apply row_stored some_column (confined_moveCells _ _ _ _)
  · intro c inside
    rw [windowRow, if_pos inside]
    unfold InColumns at inside
    have bytes (i : Nat) (byte : i < 2) : (moveCells (windowCount v regs)
        (cellAddr v d (clipColumn v regs.cl).toNat) (cellAddr v s (clipColumn v regs.cl).toNat)
          t).mem (cellAddr v d c + i) = t.mem (cellAddr v s c + i) := by
      have at_d : cellAddr v d c + i = cellAddr v d (clipColumn v regs.cl).toNat +
          (2 * (c - (clipColumn v regs.cl).toNat) + i) := by
        unfold cellAddr
        omega
      have at_s : cellAddr v s c + i = cellAddr v s (clipColumn v regs.cl).toNat +
          (2 * (c - (clipColumn v regs.cl).toNat) + i) := by
        unfold cellAddr
        omega
      rw [at_d, at_s]
      rcases Nat.lt_or_gt_of_ne apart with before | after
      · have order : d * v.textColumns.toNat + v.textColumns.toNat ≤ s * v.textColumns.toNat :=
          row_order before
        obtain ⟨gap, ahead⟩ := Nat.exists_eq_add_of_lt
          (show cellAddr v d (clipColumn v regs.cl).toNat <
            cellAddr v s (clipColumn v regs.cl).toNat by unfold cellAddr; omega)
        rw [ahead, Nat.add_assoc _ gap, moveCells_mem _ _ _ _ _ (by omega) (by omega)
          (by unfold windowCount; omega)]
        congr 1
        omega
      · have order : s * v.textColumns.toNat + v.textColumns.toNat ≤ d * v.textColumns.toNat :=
          row_order after
        exact moveCells_mem_behind _ _ _ _ _ (by unfold cellAddr windowCount; omega)
          (by unfold windowCount; omega)
    exact congrArg₂ (· ++ ·) (bytes 1 (by decide)) (bytes 0 (by decide))
  · intro c outside
    rw [windowRow, if_neg outside]

theorem filled_row {t : Traced} {d : Nat} :
    let filled := fillCells (regs.bh ++ (0x20 : BitVec 8)) (windowCount v regs)
      (cellAddr v d (clipColumn v regs.cl).toNat) t
    windowRow v regs filled.mem =
        update (windowRow v regs t.mem) d (blankRow v regs) ∧
      SameBeside v regs t.mem filled.mem := by
  apply row_stored some_column (confined_fillCells _ _ _ _)
  · intro c inside
    rw [blankRow, if_pos inside]
    unfold InColumns at inside
    have place : cellAddr v d c = cellAddr v d (clipColumn v regs.cl).toNat +
        2 * (c - (clipColumn v regs.cl).toNat) := by
      unfold cellAddr
      omega
    rw [place]
    exact fillCells_mem _ _ _ _ _ (by unfold windowCount; omega)
  · intro c outside
    rw [blankRow, if_neg outside]

theorem moved_rows (n : Nat) : ∀ (d s : Nat) (t : Traced), d ≠ s →
    let moved := moveRows v.textColumns.toNat (clipColumn v regs.cl).toNat (windowCount v regs) n
      (textPageAddr v + 2 * (d * v.textColumns.toNat))
      (textPageAddr v + 2 * (s * v.textColumns.toNat)) t
    windowRow v regs moved.mem = shift n d s (windowRow v regs t.mem) ∧
      SameBeside v regs t.mem moved.mem := by
  induction n with
  | zero => exact fun d s t _ => ⟨rfl, fun _ _ => rfl⟩
  | succ n ih =>
    intro d s t apart
    obtain ⟨row, beside⟩ := copied_row (t := t) some_column apart
    obtain ⟨rows, besides⟩ := ih (d + 1) (s + 1) _ (by omega)
    have next (r : Nat) : textPageAddr v + 2 * (r * v.textColumns.toNat) + 2 * v.textColumns.toNat =
        textPageAddr v + 2 * ((r + 1) * v.textColumns.toNat) := by
      rw [Nat.succ_mul r]
      omega
    have first (r : Nat) : textPageAddr v + 2 * (r * v.textColumns.toNat) +
        2 * (clipColumn v regs.cl).toNat = cellAddr v r (clipColumn v regs.cl).toNat := by
      unfold cellAddr
      omega
    simp only [moveRows, next, first]
    rw [shift, ← row]
    exact ⟨rows, same_beside_trans beside besides⟩

theorem filled_rows (n : Nat) : ∀ (d : Nat) (t : Traced),
    let filled := fillRows (regs.bh ++ (0x20 : BitVec 8)) v.textColumns.toNat
      (clipColumn v regs.cl).toNat (windowCount v regs) n
      (textPageAddr v + 2 * (d * v.textColumns.toNat)) t
    windowRow v regs filled.mem = fill (blankRow v regs) n d (windowRow v regs t.mem) ∧
      SameBeside v regs t.mem filled.mem := by
  induction n with
  | zero => exact fun d t => ⟨rfl, fun _ _ => rfl⟩
  | succ n ih =>
    intro d t
    obtain ⟨row, beside⟩ := @filled_row v regs some_column t d
    obtain ⟨rows, besides⟩ := ih (d + 1) _
    have next : textPageAddr v + 2 * (d * v.textColumns.toNat) + 2 * v.textColumns.toNat =
        textPageAddr v + 2 * ((d + 1) * v.textColumns.toNat) := by
      rw [Nat.succ_mul d]
      omega
    have first : textPageAddr v + 2 * (d * v.textColumns.toNat) +
        2 * (clipColumn v regs.cl).toNat = cellAddr v d (clipColumn v regs.cl).toNat := by
      unfold cellAddr
      omega
    simp only [fillRows, next, first]
    rw [fill, ← row]
    exact ⟨rows, same_beside_trans beside besides⟩

theorem scrolled_rows (n lines e : Nat) {d s : Nat} (apart : d ≠ s) :
    windowRow v regs (scrolledText v regs n d s lines e).mem =
        fill (blankRow v regs) lines e (shift n d s (windowRow v regs v.text.mem)) ∧
      SameBeside v regs v.text.mem (scrolledText v regs n d s lines e).mem := by
  obtain ⟨rows, beside⟩ := @moved_rows v regs some_column n d s v.text apart
  obtain ⟨filled, besides⟩ := @filled_rows v regs some_column lines e
    (moveRows v.textColumns.toNat (clipColumn v regs.cl).toNat (windowCount v regs) n
      (textPageAddr v + 2 * (d * v.textColumns.toNat))
      (textPageAddr v + 2 * (s * v.textColumns.toNat)) v.text)
  rw [rows] at filled
  exact ⟨filled, same_beside_trans beside besides⟩

end

section

def windowTop (regs : CallRegs) : Nat := min regs.ch.toNat v.textRowsMinusOne.toNat
def windowBottom (regs : CallRegs) : Nat := min regs.dh.toNat v.textRowsMinusOne.toNat

structure ScrollWindow (v : Video) (regs : CallRegs) : Prop where
  some_column : 0 < v.textColumns.toNat
  service : regs.ah = 0x06 ∨ regs.ah = 0x07
  wide : regs.cl.toNat ≤ regs.dl.toNat
  high : regs.ch.toNat ≤ regs.dh.toNat
  some_line : 1 ≤ regs.al.toNat
  lines : regs.al.toNat ≤ windowBottom v regs - windowTop v regs + 1

structure ScrolledUp (v : Video) (regs : CallRegs) (old new : Nat → Nat → BitVec 16) : Prop where
  moved : ∀ r, windowTop v regs ≤ r → r + regs.al.toNat ≤ windowBottom v regs →
    new r = old (r + regs.al.toNat)
  filled : ∀ r, windowTop v regs ≤ r → r ≤ windowBottom v regs →
    windowBottom v regs < r + regs.al.toNat → new r = blankRow v regs

structure ScrolledDown (v : Video) (regs : CallRegs) (old new : Nat → Nat → BitVec 16) : Prop where
  moved : ∀ r, windowTop v regs ≤ r → r + regs.al.toNat ≤ windowBottom v regs →
    new (r + regs.al.toNat) = old r
  filled : ∀ r, windowTop v regs ≤ r → r < windowTop v regs + regs.al.toNat →
    new r = blankRow v regs

structure WindowScrolled (v : Video) (regs : CallRegs) (mem : Mem) : Prop where
  up : regs.ah = 0x06 → ScrolledUp v regs (windowRow v regs v.text.mem) (windowRow v regs mem)
  down : regs.ah = 0x07 → ScrolledDown v regs (windowRow v regs v.text.mem) (windowRow v regs mem)
  beside : SameBeside v regs v.text.mem mem
  rows : ∀ r, r < windowTop v regs ∨ windowBottom v regs < r →
    windowRow v regs mem r = windowRow v regs v.text.mem r

def wantedRow (old : Nat → Nat → BitVec 16) (r : Nat) : Nat → BitVec 16 :=
  if r < windowTop v regs ∨ windowBottom v regs < r then old r
  else if regs.ah = 0x06 then
    if r + regs.al.toNat ≤ windowBottom v regs then old (r + regs.al.toNat) else blankRow v regs
  else if r < windowTop v regs + regs.al.toNat then blankRow v regs
  else old (r - regs.al.toNat)

/-- Row r after the loops. AH=06h moves all rows of the window up by at most CH, out of its top,
    and none for CH = 0. AH=07h repeats the row at the bottom and those below it further down, and
    blanks rows from the top on. -/
def loopRow (old : Nat → Nat → BitVec 16) (r : Nat) : Nat → BitVec 16 :=
  if regs.ah = 0x06 then
    let k := min regs.al.toNat regs.ch.toNat
    if regs.ch.toNat = 0 ∨ r < regs.ch.toNat - k ∨ regs.dh.toNat < r then old r
    else if r + k ≤ regs.dh.toNat then old (r + k)
    else blankRow v regs
  else
    let k := min regs.al.toNat (v.textRowsMinusOne.toNat - regs.dh.toNat)
    let first := max regs.ch.toNat 1
    if k = 0 then old r
    else if first ≤ r ∧ r < first + k then blankRow v regs
    else if regs.dh.toNat + k ≤ r ∧ r < regs.dh.toNat + k + (regs.dh.toNat + 1 - first) then
      old (regs.dh.toNat + (r - regs.dh.toNat) % k)
    else old r

variable {v : Video} {regs : CallRegs}

theorem scrolled_wanted (window : ScrollWindow v regs) {mem : Mem}
    (scrolled : WindowScrolled v regs mem) (r : Nat) :
    windowRow v regs mem r = wantedRow v regs (windowRow v regs v.text.mem) r := by
  obtain ⟨up, down, -, rows⟩ := scrolled
  have not_both : ¬ (regs.ah = 0x06 ∧ regs.ah = 0x07) := by
    rintro ⟨up, down⟩
    rw [up] at down
    exact absurd down (by decide)
  unfold wantedRow
  by_cases outside : r < windowTop v regs ∨ windowBottom v regs < r
  · rw [if_pos outside, rows r outside]
  · rw [if_neg outside]
    rcases window.service with six | seven
    · rw [if_pos six]
      split
      · rename_i inside
        exact (up six).moved r (by omega) inside
      · exact (up six).filled r (by omega) (by omega) (by omega)
    · rw [if_neg fun six => not_both ⟨six, seven⟩]
      split
      · rename_i near
        exact (down seven).filled r (by omega) near
      · have moved := (down seven).moved (r - regs.al.toNat) (by omega) (by omega)
        rw [Nat.sub_add_cancel (by omega)] at moved
        exact moved

theorem handled_text (stalePage : Option (Fin 8)) (service : regs.ah = 0x06 ∨ regs.ah = 0x07) :
    handleInt10 stalePage v regs =
      int10Scroll stalePage { v with text := { v.text with log := [] } } regs := by
  rcases service with six | seven
  · simp [handleInt10, six]
  · simp [handleInt10, seven]

theorem scroll_rows (stalePage : Option (Fin 8)) (window : ScrollWindow v regs) :
    SameBeside v regs v.text.mem (int10Scroll stalePage v regs).video.text.mem ∧
      ∀ r, windowRow v regs (int10Scroll stalePage v regs).video.text.mem r =
        loopRow v regs (windowRow v regs v.text.mem) r := by
  obtain ⟨some_column, service, -, high, some_line, -⟩ := window
  have lines : regs.al ≠ 0 := by
    intro zero
    rw [zero] at some_line
    contradiction
  rcases service with six | seven
  · by_cases top : regs.ch.toNat = 0
    · have still : (int10Scroll stalePage v regs).video.text = v.text := by
        simp only [int10Scroll]
        rw [if_neg lines, if_pos six, if_pos top]
        rfl
      rw [still]
      refine ⟨fun _ _ => rfl, fun r => ?_⟩
      simp only [loopRow]
      rw [if_pos six, if_pos (.inl top)]
    · generalize limited : min regs.al.toNat regs.ch.toNat = k
      obtain ⟨d, from_top⟩ : ∃ d, regs.ch.toNat = d + k := ⟨regs.ch.toNat - k, by omega⟩
      have above : regs.ch.toNat - k = d := by omega
      rw [scroll_up_text some_column lines stalePage six top limited.symm (by omega), above]
      obtain ⟨rows, beside⟩ := @scrolled_rows v regs some_column
        (regs.dh.toNat + 1 - regs.ch.toNat) k (regs.dh.toNat + 1 - k) d regs.ch.toNat (by omega)
      refine ⟨beside, fun r => ?_⟩
      simp only [loopRow]
      rw [rows, fill_apply, if_pos six, limited]
      nth_rewrite 2 [from_top]
      rw [shift_lower]
      by_cases outside : r < d ∨ regs.dh.toNat < r
      · rw [if_neg (by omega), if_neg (by omega), if_pos (by omega)]
      · rw [if_neg (by omega : ¬ (_ ∨ _ ∨ _))]
        by_cases moved : r + k ≤ regs.dh.toNat
        · rw [if_neg (by omega), if_pos (by omega), if_pos moved]
        · rw [if_pos (by omega), if_neg moved]
  · have not_six : regs.ah ≠ 0x06 := by
      rw [seven]
      decide
    simp only [loopRow, if_neg not_six]
    generalize limited : min regs.al.toNat (v.textRowsMinusOne.toNat - regs.dh.toNat) = k
    by_cases last : v.textRowsMinusOne.toNat ≤ regs.dh.toNat
    · have still : (int10Scroll stalePage v regs).video.text = v.text := by
        simp only [int10Scroll]
        rw [if_neg lines, if_neg not_six, if_pos last]
        rfl
      rw [still]
      refine ⟨fun _ _ => rfl, fun r => ?_⟩
      rw [if_pos (by omega)]
    · generalize second : max regs.ch.toNat 1 = first
      rw [scroll_down_text some_column lines stalePage seven (by omega) limited.symm second.symm]
      obtain ⟨rows, beside⟩ := @scrolled_rows v regs some_column
        (regs.dh.toNat + 1 - first) k first (regs.dh.toNat + k) regs.dh.toNat (by omega)
      refine ⟨beside, fun r => ?_⟩
      rw [rows, fill_apply, shift_higher _ _ _ _ _ (by omega), if_neg (by omega : ¬ k = 0)]

def markedPage (v : Video) (regs : CallRegs) (r : Nat) : Video :=
  { v with text := ⟨write16 (fun _ => 0) (cellAddr v r (clipColumn v regs.cl).toNat) 0x0041, []⟩ }

theorem first_column_inside (window : ScrollWindow v regs) :
    InColumns v regs (clipColumn v regs.cl).toNat := by
  have wide := window.wide
  refine ⟨Nat.le_refl _, ?_⟩
  rw [clip_column_to_nat window.some_column, clip_column_to_nat window.some_column]
  split <;> split <;> omega

theorem marked_row (window : ScrollWindow v regs) {r : Nat} {row : Nat → BitVec 16}
    (other : row = blankRow v regs ∨
      ∃ q, q ≠ r ∧ row = windowRow v regs (markedPage v regs r).text.mem q) :
    windowRow v regs (markedPage v regs r).text.mem r ≠ row := by
  intro same
  have inside := first_column_inside window
  have marked : windowRow v regs (markedPage v regs r).text.mem r (clipColumn v regs.cl).toNat =
      0x0041 := by
    rw [windowRow, if_pos inside]
    exact read16_write16_same _ _ _
  rw [same] at marked
  rcases other with rfl | ⟨q, apart, rfl⟩
  · rw [blankRow, if_pos inside] at marked
    have low := congrArg (BitVec.extractLsb' 0 8) marked
    rw [BitVec.extractLsb'_append_eq_right] at low
    exact absurd low (by decide)
  · have order : q * v.textColumns.toNat + v.textColumns.toNat ≤ r * v.textColumns.toNat ∨
        r * v.textColumns.toNat + v.textColumns.toNat ≤ q * v.textColumns.toNat := by
      rcases Nat.lt_or_gt_of_ne apart with before | after
      · exact .inl (row_order before)
      · exact .inr (row_order after)
    have some_column := window.some_column
    have zero : read16 (markedPage v regs r).text.mem
        (cellAddr v q (clipColumn v regs.cl).toNat) = 0 := by
      have apart : cellAddr v q (clipColumn v regs.cl).toNat + 2 ≤
          cellAddr v r (clipColumn v regs.cl).toNat ∨
          cellAddr v r (clipColumn v regs.cl).toNat + 2 ≤
            cellAddr v q (clipColumn v regs.cl).toNat := by
        unfold cellAddr
        omega
      rw [markedPage, read16_write16_other _ _ apart]
      exact show (0 : BitVec 8) ++ (0 : BitVec 8) = (0 : BitVec 16) by decide
    rw [windowRow, if_pos inside, zero] at marked
    exact absurd marked (by decide)

theorem some_row_apart (window : ScrollWindow v regs) :
    ∃ marked r, ∀ old : Nat → Nat → BitVec 16, old marked ≠ blankRow v regs →
      (∀ q, q ≠ marked → old marked ≠ old q) → loopRow v regs old r ≠ wantedRow v regs old r := by
  obtain ⟨-, service, -, high, some_line, lines⟩ := window
  rcases service with six | seven
  · by_cases top : regs.ch.toNat = 0
    · -- The window stays as it is.
      refine ⟨0, 0, fun old not_blank alone => ?_⟩
      simp only [loopRow, wantedRow, if_pos six, if_pos (Or.inl top)]
      rw [if_neg (by unfold windowTop windowBottom; omega)]
      split
      · exact alone _ (by omega)
      · exact not_blank
    · -- The first row of the window goes to a row above it.
      refine ⟨regs.ch.toNat, regs.ch.toNat - min regs.al.toNat regs.ch.toNat,
        fun old not_blank alone => ?_⟩
      simp only [loopRow, wantedRow, if_pos six]
      rw [if_neg (by omega), if_pos (by omega), Nat.sub_add_cancel (by omega)]
      split
      · exact alone _ (by omega)
      · rename_i inside
        rw [if_neg (by unfold windowTop windowBottom at *; omega)]
        exact not_blank
  · have not_six : regs.ah ≠ 0x06 := by
      rw [seven]
      decide
    by_cases last : v.textRowsMinusOne.toNat ≤ regs.dh.toNat
    · -- The window stays as it is.
      refine ⟨windowTop v regs, windowTop v regs, fun old not_blank alone => ?_⟩
      simp only [loopRow, wantedRow, if_neg not_six]
      rw [if_pos (by omega), if_neg (by unfold windowTop windowBottom; omega), if_pos (by omega)]
      exact not_blank
    · -- The last row of the window is repeated below it.
      generalize limited : min regs.al.toNat (v.textRowsMinusOne.toNat - regs.dh.toNat) = k
      by_cases corner : regs.dh.toNat = 0
      · refine ⟨0, 0, fun old not_blank alone => ?_⟩
        simp only [loopRow, wantedRow, if_neg not_six]
        rw [limited, if_neg (by omega), if_neg (by omega), if_neg (by omega),
          if_neg (by unfold windowTop windowBottom; omega), if_pos (by omega)]
        exact not_blank
      · refine ⟨regs.dh.toNat, regs.dh.toNat + k, fun old not_blank alone => ?_⟩
        simp only [loopRow, wantedRow, if_neg not_six]
        rw [limited, if_neg (by omega), if_neg (by omega), if_pos (by omega),
          Nat.add_sub_cancel_left, Nat.mod_self, Nat.add_zero,
          if_pos (by unfold windowTop windowBottom; omega)]
        exact alone _ (by omega)

/-- For no window, line count and attribute do the loops leave the window scrolled on every page.
    The copies end for every window. -/
theorem window_scrolls_never (stalePage : Option (Fin 8)) (window : ScrollWindow v regs) :
    (¬ ∀ text : Traced, WindowScrolled { v with text := text } regs
      (handleInt10 stalePage { v with text := text } regs).video.text.mem) ∧
    ∀ calls fuel, calls.ah = 0x06 ∨ calls.ah = 0x07 → calls.al ≠ 0 → 2 ^ 16 ≤ fuel →
      scrollLoops fuel { v with text := { v.text with log := [] } } calls =
        some (handleInt10 stalePage v calls).video.text := by
  constructor
  · intro always
    obtain ⟨marked, r, apart⟩ := some_row_apart window
    have page : ScrollWindow (markedPage v regs marked) regs := by
      obtain ⟨some_column, service, wide, high, some_line, lines⟩ := window
      exact ⟨some_column, service, wide, high, some_line, lines⟩
    have wanted := scrolled_wanted page (always (markedPage v regs marked).text) r
    change windowRow _ _ (handleInt10 stalePage (markedPage v regs marked) regs).video.text.mem r =
      _ at wanted
    rw [handled_text stalePage page.service] at wanted
    obtain ⟨-, rows⟩ := scroll_rows (v := markedPage v regs marked) stalePage page
    refine apart _ (marked_row window (.inl rfl)) ?_ ((rows r).symm.trans wanted)
    exact fun q other => marked_row window (.inr ⟨q, other, rfl⟩)
  · intro calls fuel service some_line enough
    rw [handled_text stalePage service]
    exact scroll_loops_end (v := { v with text := { v.text with log := [] } })
      window.some_column some_line stalePage service enough

def fourRows : CallRegs := ⟨2, 0x06, 0, 0x07, 2, 4, 9, 7, 0, false⟩

theorem window_scrolls_never_rows :
    (¬ ∀ text : Traced, WindowScrolled { bootVideo (fun _ => 0) with text := text } fourRows
      (handleInt10 none { bootVideo (fun _ => 0) with text := text } fourRows).video.text.mem) ∧
    ∀ calls fuel, calls.ah = 0x06 ∨ calls.ah = 0x07 → calls.al ≠ 0 → 2 ^ 16 ≤ fuel →
      scrollLoops fuel (bootVideo fun _ => 0) calls =
        some (handleInt10 none (bootVideo fun _ => 0) calls).video.text :=
  window_scrolls_never none ⟨by decide, .inl rfl, by decide, by decide, by decide, by decide⟩

def cellWindow : CallRegs := ⟨1, 0x06, 0, 0x07, 0, 1, 0, 1, 0, false⟩

theorem cell_leaves_window :
    let page := markedPage (bootVideo fun _ => 0) cellWindow 1
    read16 page.text.mem (cellAddr page 0 0) = 0 ∧
      read16 (handleInt10 none page cellWindow).video.text.mem (cellAddr page 0 0) = 0x0041 ∧
      ¬ WindowScrolled page cellWindow (handleInt10 none page cellWindow).video.text.mem := by
  refine ⟨by decide +kernel, by decide +kernel, ?_⟩
  intro scrolled
  have kept := congrFun (scrolled.rows 0 (.inl (by decide))) 0
  revert kept
  decide +kernel

end
end MicrobootVideo
