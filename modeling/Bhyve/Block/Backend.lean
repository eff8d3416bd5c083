import Mathlib.Algebra.Group.Nat.Defs
import Bhyve.Lib.ByteMemory

/-!
The synchronous half of the block backend: the geometry of a disk and the two calls that
move whole sectors between guest memory and the backing file. The backing file is a byte
function with a length; `pread` and `pwrite` move what the file still holds after the
offset and return that count. Threads and request queues are not part of this file.
-/
namespace BlockIf
open ByteMemory

/-- A blockif_ctxt. Sizes are those blockif_open accepts: an off_t and a positive int. -/
structure BlockCtxt where
  size : Nat
  sectsz : Nat
  rdonly : Bool
  data : Nat → BitVec 8
  size_lt : size < 2 ^ 63
  sectsz_pos : 0 < sectsz
  sectsz_lt : sectsz < 2 ^ 31

def blankDisk (size : Nat) (size_lt : size < 2 ^ 63) : BlockCtxt :=
  ⟨size, 512, false, fun _ => 0, size_lt, by decide, by decide⟩

structure Chs where
  c : BitVec 16
  h : BitVec 8
  s : BitVec 8

def chsCalc (hcyl heads secpt : Nat) : Chs :=
  ⟨BitVec.ofNat 16 (hcyl / heads), BitVec.ofNat 8 heads, BitVec.ofNat 8 secpt⟩

def maxChsSectors : Nat := 65535 * 16 * 255

def chsSearch (sectors : Nat) : Chs :=
  let hcyl := sectors / 17
  let heads := (hcyl + 1023) / 1024 % 256
  let heads := if heads < 4 then 4 else heads
  let retry := decide (heads * 1024 ≤ hcyl) || decide (16 < heads)
  let secpt := if retry then 31 else 17
  let heads := if retry then 16 else heads
  let hcyl := sectors / secpt
  if heads * 1024 ≤ hcyl then chsCalc (sectors / 63) 32 63 else chsCalc hcyl heads secpt

def blockifChs (bc : BlockCtxt) : Chs :=
  let sectors := bc.size / bc.sectsz
  if bc.size ≤ 2880 * 512 then chsCalc (sectors / 18) 2 18
  else
    let sectors := if maxChsSectors < sectors then maxChsSectors else sectors
    if 65536 * 16 * 63 ≤ sectors then chsCalc (sectors / 63) 32 63 else chsSearch sectors

def ebadf : BitVec 32 := 9
def efault : BitVec 32 := 14
def einval : BitVec 32 := 22

variable (bc : BlockCtxt)

/-- The count of a pread, or its errno. A buffer that paddr_guest2host could not map is a
    null pointer and faults as soon as there is a byte to move. -/
def preadCount (bufMapped : Bool) (nbytes offset : Nat) : Except (BitVec 32) Nat :=
  let count := min nbytes (bc.size - offset)
  if 2 ^ 63 ≤ offset then .error einval
  else if 0 < count ∧ bufMapped = false then .error efault
  else .ok count

def pwriteCount (bufMapped : Bool) (nbytes offset : Nat) : Except (BitVec 32) Nat :=
  if bc.rdonly then .error ebadf else preadCount bc bufMapped nbytes offset

def intResult (count : Nat) : Int := (BitVec.ofNat 32 count).toInt

def ioBytes (sectors : Nat) : Nat := sectors * bc.sectsz % 2 ^ 64
def ioOffset (lba : Nat) : Nat := lba * bc.sectsz % 2 ^ 64

structure SyncResult (α : Type) where
  dest : α
  result : Int
  errno : Option (BitVec 32)

def blockifReadSync (mem : Mem) (gpa : Nat) (bufMapped : Bool)
    (sectors lba : Nat) : SyncResult Mem :=
  match preadCount bc bufMapped (ioBytes bc sectors) (ioOffset bc lba) with
  | .error errno => ⟨mem, -1, some errno⟩
  | .ok count =>
      ⟨copyInto mem gpa count fun i => bc.data (ioOffset bc lba + i), intResult count, none⟩

def blockifWriteSync (mem : Mem) (gpa : Nat) (bufMapped : Bool)
    (sectors lba : Nat) : SyncResult BlockCtxt :=
  match pwriteCount bc bufMapped (ioBytes bc sectors) (ioOffset bc lba) with
  | .error errno => ⟨bc, -1, some errno⟩
  | .ok count =>
      ⟨{ bc with data := copyInto bc.data (ioOffset bc lba) count fun i => mem (gpa + i) },
        intResult count, none⟩

def InsideDisk (lba sectors : Nat) : Prop :=
  ∀ k, k < sectors → (lba + k + 1) * bc.sectsz ≤ bc.size

def availableBytes (sectors lba : Nat) : Nat :=
  min (ioBytes bc sectors) (bc.size - ioOffset bc lba)

/-- The host call comes back negative: a negative offset, a null buffer with bytes to
    move, a write to a read-only file, or a count whose int is negative. -/
def TransferFails (isRead bufMapped : Bool) (sectors lba : Nat) : Prop :=
  2 ^ 63 ≤ ioOffset bc lba ∨
    (0 < availableBytes bc sectors lba ∧ bufMapped = false) ∨
    (isRead = false ∧ bc.rdonly = true) ∨
    2 ^ 31 ≤ availableBytes bc sectors lba % 2 ^ 32

theorem int_result_neg_iff (count : Nat) : intResult count < 0 ↔ 2 ^ 31 ≤ count % 2 ^ 32 := by
  simp only [intResult, BitVec.toInt_eq_toNat_cond, BitVec.toNat_ofNat]
  split
  · omega
  · omega

theorem read_neg_iff (mem : Mem) (gpa : Nat) (bufMapped : Bool) (sectors lba : Nat) :
    (blockifReadSync bc mem gpa bufMapped sectors lba).result < 0 ↔
      TransferFails bc true bufMapped sectors lba := by
  unfold blockifReadSync preadCount TransferFails availableBytes
  by_cases negative : 2 ^ 63 ≤ ioOffset bc lba
  · simp only [negative, ↓reduceIte, true_or, iff_true]
    decide
  · by_cases faults : 0 < min (ioBytes bc sectors) (bc.size - ioOffset bc lba) ∧ bufMapped = false
    · simp only [negative, faults, and_self, ↓reduceIte]
      simp
    · simp only [negative, faults, ↓reduceIte, int_result_neg_iff]
      simp

theorem write_neg_iff (mem : Mem) (gpa : Nat) (bufMapped : Bool) (sectors lba : Nat) :
    (blockifWriteSync bc mem gpa bufMapped sectors lba).result < 0 ↔
      TransferFails bc false bufMapped sectors lba := by
  unfold blockifWriteSync pwriteCount preadCount TransferFails availableBytes
  by_cases readonly : bc.rdonly = true
  · simp [readonly]
  · by_cases negative : 2 ^ 63 ≤ ioOffset bc lba
    · simp only [readonly, negative, Bool.false_eq_true, ↓reduceIte, true_or, iff_true]
      decide
    · by_cases faults :
          0 < min (ioBytes bc sectors) (bc.size - ioOffset bc lba) ∧ bufMapped = false
      · simp only [readonly, negative, faults, and_self, ↓reduceIte]
        simp
      · simp only [readonly, Bool.false_eq_true, negative, faults, ↓reduceIte, int_result_neg_iff]
        simp

variable {bc : BlockCtxt} {lba sectors : Nat}

theorem inside_end (inside : InsideDisk bc lba sectors) (some_sector : 0 < sectors) :
    lba * bc.sectsz + sectors * bc.sectsz ≤ bc.size := by
  have last := inside (sectors - 1) (by omega)
  rw [show lba + (sectors - 1) + 1 = lba + sectors by omega, Nat.add_mul] at last
  exact last

theorem inside_available (inside : InsideDisk bc lba sectors) :
    availableBytes bc sectors lba = sectors * bc.sectsz ∧
      (0 < sectors → ioOffset bc lba = lba * bc.sectsz) := by
  have bound := bc.size_lt
  cases sectors with
  | zero => simp [availableBytes, ioBytes]
  | succ n =>
    have fits := inside_end inside (by omega)
    have offset : ioOffset bc lba = lba * bc.sectsz := Nat.mod_eq_of_lt (by omega)
    have bytes : ioBytes bc (n + 1) = (n + 1) * bc.sectsz := Nat.mod_eq_of_lt (by omega)
    refine ⟨?_, fun _ => offset⟩
    rw [availableBytes, offset, bytes]
    omega

theorem copy_inside (inside : InsideDisk bc lba sectors) (mem : Mem) (dst : Nat → Nat)
    (src : Nat → Nat → BitVec 8) :
    copyInto mem (dst (ioOffset bc lba)) (availableBytes bc sectors lba) (src (ioOffset bc lba)) =
      copyInto mem (dst (lba * bc.sectsz)) (sectors * bc.sectsz) (src (lba * bc.sectsz)) := by
  obtain ⟨bytes, offset⟩ := inside_available inside
  rw [bytes]
  cases sectors with
  | zero =>
    funext x
    simp only [copyInto, Nat.zero_mul]
    rw [if_neg (by omega), if_neg (by omega)]
  | succ n => rw [offset (by omega)]

theorem read_sync_works {mem : Mem} {gpa : Nat} {bufMapped : Bool}
    (works : ¬ TransferFails bc true bufMapped sectors lba) :
    blockifReadSync bc mem gpa bufMapped sectors lba =
      ⟨copyInto mem gpa (availableBytes bc sectors lba) fun i => bc.data (ioOffset bc lba + i),
        intResult (availableBytes bc sectors lba), none⟩ := by
  unfold TransferFails at works
  push Not at works
  unfold blockifReadSync preadCount
  rw [if_neg (by omega), if_neg]
  · rfl
  · rintro ⟨positive, unmapped⟩
    exact works.2.1 positive unmapped

theorem write_sync_works {mem : Mem} {gpa : Nat} {bufMapped : Bool}
    (works : ¬ TransferFails bc false bufMapped sectors lba) :
    blockifWriteSync bc mem gpa bufMapped sectors lba =
      ⟨{ bc with data := copyInto bc.data (ioOffset bc lba) (availableBytes bc sectors lba)
                   fun i => mem (gpa + i) },
        intResult (availableBytes bc sectors lba), none⟩ := by
  unfold TransferFails at works
  push Not at works
  unfold blockifWriteSync pwriteCount preadCount
  rw [if_neg (works.2.2.1 rfl), if_neg (by omega), if_neg]
  · rfl
  · rintro ⟨positive, unmapped⟩
    exact works.2.1 positive unmapped

structure GeometryBounds (g : Chs) : Prop where
  heads_pos : 2 ≤ g.h.toNat
  heads_le : g.h.toNat ≤ 32
  sectors_pos : 17 ≤ g.s.toNat
  sectors_le : g.s.toNat ≤ 63

theorem chs_calc_bounds {hcyl heads secpt : Nat} (low : 2 ≤ heads) (high : heads ≤ 32)
    (short : 17 ≤ secpt) (long : secpt ≤ 63) : GeometryBounds (chsCalc hcyl heads secpt) := by
  constructor <;> simp only [chsCalc, BitVec.toNat_ofNat] <;> omega

theorem chs_search_bounds (sectors : Nat) : GeometryBounds (chsSearch sectors) := by
  simp only [chsSearch]
  generalize heads_def : (sectors / 17 + 1023) / 1024 % 256 = heads
  generalize clipped_def : (if heads < 4 then 4 else heads) = clipped
  have atLeast : 4 ≤ clipped := by
    rw [← clipped_def]
    split <;> omega
  generalize retry_def : (decide (clipped * 1024 ≤ sectors / 17) || decide (16 < clipped)) = retry
  cases retry with
  | true =>
    simp only [↓reduceIte]
    split
    · exact chs_calc_bounds (by omega) (by omega) (by omega) (by omega)
    · exact chs_calc_bounds (by omega) (by omega) (by omega) (by omega)
  | false =>
    simp only [Bool.or_eq_false_iff, decide_eq_false_iff_not] at retry_def
    simp only [Bool.false_eq_true, ↓reduceIte]
    split
    · exact chs_calc_bounds (by omega) (by omega) (by omega) (by omega)
    · exact chs_calc_bounds (by omega) (by omega) (by omega) (by omega)

theorem chs_bounds (bc : BlockCtxt) : GeometryBounds (blockifChs bc) := by
  unfold blockifChs
  dsimp only
  generalize (if maxChsSectors < bc.size / bc.sectsz then maxChsSectors
    else bc.size / bc.sectsz) = clamped
  split
  · exact chs_calc_bounds (by omega) (by omega) (by omega) (by omega)
  · split
    · exact chs_calc_bounds (by omega) (by omega) (by omega) (by omega)
    · exact chs_search_bounds clamped

end BlockIf
