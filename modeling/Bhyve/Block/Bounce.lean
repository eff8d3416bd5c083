import Bhyve.Block.Proc

/-!
The loops of blockif_proc over the bounce buffer beside the one call for all vectors, with what
each leaves in br_resid. No call of the host fails but for a negative offset.
-/
namespace BlockProc
open ByteMemory BlockIf Virtio

/-- What a request leaves: the guest buffers, the file, br_resid and err. -/
structure Outcome where
  mem : Mem
  data : Mem
  resid : Nat
  err : BitVec 32

def Outcome.done (out : Outcome) : Done := ⟨out.mem, out.data, out.err⟩

inductive Direction where
  | read
  | write
  deriving DecidableEq

def bounceRead (d : Disk) (offset : Nat) :
    Nat → List VirtioDesc → Nat → Nat → Nat → Mem → Mem → Option Outcome
  | 0, _, _, _, _, _, _ => none
  | fuel + 1, iov, voff, off, resid, mem, buf =>
      if resid = 0 then some ⟨mem, d.ctxt.data, 0, 0⟩
      else
        let len := min resid d.maxphys
        match moves 0 d.ctxt.size len (offset + off) with
        | .error err => some ⟨mem, d.ctxt.data, resid, err⟩
        | .ok count =>
            let buf := copyInto buf 0 count fun j => d.ctxt.data (offset + off + j)
            match chunk iov voff len with
            | none => none
            | some (moved, iov, voff) =>
                bounceRead d offset fuel iov voff (off + len) (resid - len)
                  (scatterTo mem moved buf) buf

def bounceWrite (d : Disk) (offset : Nat) (mem : Mem) :
    Nat → List VirtioDesc → Nat → Nat → Nat → Mem → Option Outcome
  | 0, _, _, _, _, _ => none
  | fuel + 1, iov, voff, off, resid, data =>
      if resid = 0 then some ⟨mem, data, 0, 0⟩
      else
        let len := min resid d.maxphys
        match chunk iov voff len with
        | none => none
        | some (moved, iov, voff) =>
            match moves 0 d.ctxt.size len (offset + off) with
            | .error err => some ⟨mem, data, resid, err⟩
            | .ok count =>
                bounceWrite d offset mem fuel iov voff (off + len) (resid - len)
                  (copyInto data (offset + off) count (gatherFrom mem moved))

def bounce (d : Disk) (buf : Mem) (direction : Direction) (r : Request) (mem : Mem) :
    Option Outcome :=
  match direction with
  | .read => bounceRead d r.brOffset.toNat (r.brResid + 1) r.brIov 0 0 r.brResid mem buf
  | .write =>
      if d.ctxt.rdonly then some ⟨mem, d.ctxt.data, r.brResid, erofs⟩
      else bounceWrite d r.brOffset.toNat mem (r.brResid + 1) r.brIov 0 0 r.brResid d.ctxt.data

def vectored (d : Disk) (direction : Direction) (r : Request) (mem : Mem) : Outcome :=
  let offset := r.brOffset.toNat
  if direction = .write ∧ d.ctxt.rdonly = true then ⟨mem, d.ctxt.data, r.brResid, erofs⟩
  else
    match moves 0 d.ctxt.size (total r.brIov) offset with
    | .error err => ⟨mem, d.ctxt.data, r.brResid, err⟩
    | .ok count =>
        match direction with
        | .read =>
            ⟨scatterTo mem ((bytes r.brIov).take count) fun j => d.ctxt.data (offset + j),
              d.ctxt.data, r.brResid - count, 0⟩
        | .write =>
            ⟨mem, copyInto d.ctxt.data offset count (gatherFrom mem (bytes r.brIov)),
              r.brResid - count, 0⟩

theorem moves_whole {d : Disk} {length offset : Nat} (some_byte : 0 < length)
    (inside : offset + length ≤ d.ctxt.size) : moves 0 d.ctxt.size length offset = .ok length := by
  have bound := d.ctxt.size_lt
  rw [moves, if_neg (fun differs => differs rfl), if_neg (by omega), Nat.min_eq_left (by omega)]

theorem bounce_read_ends (d : Disk) (offset fuel call : Nat) (iov : List VirtioDesc)
    (voff off resid : Nat) (mem buf : Mem) (length : (remaining iov voff).length = resid)
    (bound : resid ≤ fuel) : ∃ out : Outcome,
      bounceRead d offset (fuel + 1) iov voff off resid mem buf = some out ∧
      readLoop d (fun _ => 0) offset fuel call iov voff off resid mem buf = some out.done ∧
      (out.err = 0 → out.resid = 0) ∧
      (resid = 0 ∨ offset + off + resid ≤ d.ctxt.size → out.err = 0) := by
  induction fuel generalizing call iov voff off resid mem buf with
  | zero =>
    rw [bounceRead, if_pos (by omega)]
    exact ⟨_, rfl, rfl, fun _ => rfl, fun _ => rfl⟩
  | succ fuel ih =>
    have positive := d.maxphys_pos
    rw [bounceRead]
    unfold readLoop
    dsimp only
    by_cases finished : resid = 0
    · rw [if_pos finished, if_pos finished]
      exact ⟨_, rfl, rfl, fun _ => rfl, fun _ => rfl⟩
    · rw [if_neg finished, if_neg finished]
      generalize chosen : min resid d.maxphys = len
      cases moved : moves 0 d.ctxt.size len (offset + off) with
      | error err =>
        refine ⟨_, rfl, rfl, fun fine => absurd fine (moves_error moved), ?_⟩
        rintro (none | inside)
        · exact absurd none finished
        · rw [moves_whole (by omega) (by omega)] at moved
          cases moved
      | ok count =>
        obtain ⟨rest, after, copied, kept⟩ := chunk_takes iov voff len (by omega) (by omega)
        rw [copied]
        have left : (remaining rest after).length = resid - len := by
          rw [kept, List.length_drop, length]
        obtain ⟨out, ran, same, ends, fine⟩ := ih (call + 1) rest after (off + len) (resid - len)
          (scatterTo mem ((remaining iov voff).take len)
            (copyInto buf 0 count fun j => d.ctxt.data (offset + off + j)))
          (copyInto buf 0 count fun j => d.ctxt.data (offset + off + j)) left (by omega)
        exact ⟨out, ran, same, ends, fun inside => fine (by omega)⟩

theorem bounce_write_ends (d : Disk) (offset : Nat) (mem : Mem) (fuel call : Nat)
    (iov : List VirtioDesc) (voff off resid : Nat) (data : Mem)
    (length : (remaining iov voff).length = resid) (bound : resid ≤ fuel) : ∃ out : Outcome,
      bounceWrite d offset mem (fuel + 1) iov voff off resid data = some out ∧
      writeLoop d (fun _ => 0) offset mem fuel call iov voff off resid data = some out.done ∧
      (out.err = 0 → out.resid = 0) ∧
      (resid = 0 ∨ offset + off + resid ≤ d.ctxt.size → out.err = 0) := by
  induction fuel generalizing call iov voff off resid data with
  | zero =>
    rw [bounceWrite, if_pos (by omega)]
    exact ⟨_, rfl, rfl, fun _ => rfl, fun _ => rfl⟩
  | succ fuel ih =>
    have positive := d.maxphys_pos
    rw [bounceWrite]
    unfold writeLoop
    dsimp only
    by_cases finished : resid = 0
    · rw [if_pos finished, if_pos finished]
      exact ⟨_, rfl, rfl, fun _ => rfl, fun _ => rfl⟩
    · rw [if_neg finished, if_neg finished]
      generalize chosen : min resid d.maxphys = len
      obtain ⟨rest, after, copied, kept⟩ := chunk_takes iov voff len (by omega) (by omega)
      rw [copied]
      cases moved : moves 0 d.ctxt.size len (offset + off) with
      | error err =>
        refine ⟨_, rfl, rfl, fun fine => absurd fine (moves_error moved), ?_⟩
        rintro (none | inside)
        · exact absurd none finished
        · rw [moves_whole (by omega) (by omega)] at moved
          cases moved
      | ok count =>
        have left : (remaining rest after).length = resid - len := by
          rw [kept, List.length_drop, length]
        obtain ⟨out, ran, same, ends, fine⟩ := ih (call + 1) rest after (off + len) (resid - len)
          (copyInto data (offset + off) count (gatherFrom mem ((remaining iov voff).take len))) left
          (by omega)
        exact ⟨out, ran, same, ends, fun inside => fine (by omega)⟩

section
variable {d : Disk} {buf : Mem} {r : Request} {mem : Mem}

theorem bounce_is_proc (resid : r.brResid = total r.brIov) (many : buffered d r = true) :
    (bounce d buf .read r mem).map Outcome.done = blockifProc d (fun _ => 0) buf .read r mem ∧
      (bounce d buf .write r mem).map Outcome.done =
        blockifProc d (fun _ => 0) buf .write r mem := by
  have whole : (remaining r.brIov 0).length = r.brResid := by
    rw [remaining_start, bytes_length, resid]
  constructor
  · obtain ⟨out, ran, same, -⟩ := bounce_read_ends d r.brOffset.toNat r.brResid 0 r.brIov 0 0
      r.brResid mem buf whole (Nat.le_refl _)
    unfold bounce blockifProc procRead
    rw [ran, if_pos many, same]
    rfl
  · obtain ⟨out, ran, same, -⟩ := bounce_write_ends d r.brOffset.toNat mem r.brResid 0 r.brIov 0 0
      r.brResid d.ctxt.data whole (Nat.le_refl _)
    unfold bounce blockifProc procWrite
    dsimp only
    split
    · rfl
    · rw [ran, same]
      rfl

theorem vectored_is_proc (plain : buffered d r = false) :
    some (vectored d .read r mem).done = blockifProc d (fun _ => 0) buf .read r mem ∧
      some (vectored d .write r mem).done = blockifProc d (fun _ => 0) buf .write r mem := by
  have off : ¬ buffered d r = true := Bool.eq_false_iff.mp plain
  constructor
  · unfold vectored blockifProc procRead
    rw [if_neg (fun never => nomatch never.1)]
    dsimp only
    rw [if_neg off]
    cases moves 0 d.ctxt.size (total r.brIov) r.brOffset.toNat <;> rfl
  · unfold vectored blockifProc procWrite
    dsimp only
    by_cases locked : d.ctxt.rdonly = true
    · rw [if_pos ⟨rfl, locked⟩, if_pos locked]
      rfl
    · rw [if_neg (fun never => locked never.2), if_neg locked, if_neg off]
      cases moves 0 d.ctxt.size (total r.brIov) r.brOffset.toNat <;> rfl

/-- The request is refused before any data moves, or all of its data lies inside the file. -/
def NothingShort (d : Disk) (direction : Direction) (r : Request) : Prop :=
  (direction = .write ∧ d.ctxt.rdonly = true) ∨
    (2 ^ 63 ≤ r.brOffset.toNat ∧ total r.brIov ≠ 0) ∨
    (r.brOffset.toNat < 2 ^ 63 ∧
      (total r.brIov = 0 ∨ r.brOffset.toNat + total r.brIov ≤ d.ctxt.size))

theorem moves_refused {failure : BitVec 32} {size length offset : Nat} (fine : failure = 0)
    (negative : 2 ^ 63 ≤ offset) : moves failure size length offset = .error einval := by
  rw [moves, if_neg (fun fails => fails fine), if_pos negative]

theorem moves_some {size length offset : Nat} (low : offset < 2 ^ 63) :
    moves 0 size length offset = .ok (min length (size - offset)) := by
  rw [moves, if_neg (fun differs => differs rfl), if_neg (by omega)]

theorem bounce_refused (negative : 2 ^ 63 ≤ r.brOffset.toNat) (resid : r.brResid = total r.brIov)
    {direction : Direction} (writable : ¬ (direction = .write ∧ d.ctxt.rdonly = true)) :
    bounce d buf direction r mem =
      some ⟨mem, d.ctxt.data, r.brResid, if r.brResid = 0 then 0 else einval⟩ := by
  have positive := d.maxphys_pos
  have refused : moves 0 d.ctxt.size (min r.brResid d.maxphys) (r.brOffset.toNat + 0) =
      .error einval := moves_refused rfl negative
  cases direction with
  | read =>
    unfold bounce
    rw [bounceRead]
    by_cases finished : r.brResid = 0
    · rw [if_pos finished, if_pos finished, finished]
    · dsimp only
      rw [if_neg finished, if_neg finished, refused]
  | write =>
    unfold bounce
    rw [if_neg (fun readonly => writable ⟨rfl, readonly⟩), bounceWrite]
    by_cases finished : r.brResid = 0
    · rw [if_pos finished, if_pos finished, finished]
    · obtain ⟨rest, after, copied, -⟩ := chunk_takes r.brIov 0 (min r.brResid d.maxphys)
        (by rw [remaining_start, bytes_length]; omega) (by omega)
      dsimp only
      rw [if_neg finished, if_neg finished, copied]
      rw [refused]

theorem bounce_ends (resid : r.brResid = total r.brIov) {direction : Direction}
    (writable : ¬ (direction = .write ∧ d.ctxt.rdonly = true)) :
    ∃ out, bounce d buf direction r mem = some out ∧ (out.err = 0 → out.resid = 0) ∧
      (r.brOffset.toNat < 2 ^ 63 →
        total r.brIov = 0 ∨ r.brOffset.toNat + total r.brIov ≤ d.ctxt.size →
          out = vectored d direction r mem) := by
  have whole : (remaining r.brIov 0).length = r.brResid := by
    rw [remaining_start, bytes_length, resid]
  have everything {offset : Nat} (inside : total r.brIov = 0 ∨ offset + total r.brIov ≤ d.ctxt.size) :
      min (total r.brIov) (d.ctxt.size - offset) = total r.brIov := by omega
  cases direction with
  | read =>
    obtain ⟨out, ran, same, ends, fine⟩ := bounce_read_ends d r.brOffset.toNat r.brResid 0 r.brIov
      0 0 r.brResid mem buf whole (Nat.le_refl _)
    refine ⟨out, ran, ends, fun low inside => ?_⟩
    obtain ⟨done, exactly, data, read⟩ := read_loop_exact d (fun _ => 0) r.brOffset.toNat r.brResid
      0 r.brIov 0 0 r.brResid mem buf whole (Nat.le_refl _) (by rw [resid]; exact inside)
    rw [same] at exactly
    cases exactly
    have err := fine (by rw [resid]; exact inside)
    have left := ends err
    have buffers := read err
    rw [remaining_start] at buffers
    obtain ⟨outMem, outData, outResid, outErr⟩ := out
    subst left err data buffers
    rw [vectored, if_neg writable, moves_some low, everything inside, ← bytes_length]
    dsimp only
    rw [List.take_length, bytes_length, resid, Nat.sub_self]
    rfl
  | write =>
    obtain ⟨out, ran, same, ends, fine⟩ := bounce_write_ends d r.brOffset.toNat mem r.brResid 0
      r.brIov 0 0 r.brResid d.ctxt.data whole (Nat.le_refl _)
    have started : bounce d buf .write r mem = some out := by
      unfold bounce
      rw [if_neg (fun readonly => writable ⟨rfl, readonly⟩), ran]
    refine ⟨out, started, ends, fun low inside => ?_⟩
    obtain ⟨done, exactly, buffers, written⟩ := write_loop_exact d (fun _ => 0) r.brOffset.toNat mem
      r.brResid 0 r.brIov 0 0 r.brResid d.ctxt.data whole (Nat.le_refl _)
      (by rw [resid]; exact inside)
    rw [same] at exactly
    cases exactly
    have err := fine (by rw [resid]; exact inside)
    have left := ends err
    have data := written err
    rw [remaining_start] at data
    obtain ⟨outMem, outData, outResid, outErr⟩ := out
    dsimp only [Outcome.done] at data buffers err left
    subst left err data buffers
    rw [vectored, if_neg writable, moves_some low, everything inside]
    dsimp only
    rw [resid, Nat.sub_self]
    rfl

/-- The loop over the buffer always ends inside the vectors; it leaves what the one call would
    exactly for requests of which nothing lies beyond the end of the file. -/
theorem bounce_agrees_iff (d : Disk) (buf : Mem) (direction : Direction) (r : Request) (mem : Mem)
    (resid : r.brResid = total r.brIov) : (∃ out, bounce d buf direction r mem = some out) ∧
      (bounce d buf direction r mem = some (vectored d direction r mem) ↔
        NothingShort d direction r) := by
  by_cases readonly : direction = .write ∧ d.ctxt.rdonly = true
  · obtain ⟨rfl, locked⟩ := readonly
    have refused : bounce d buf .write r mem = some ⟨mem, d.ctxt.data, r.brResid, erofs⟩ :=
      if_pos locked
    refine ⟨⟨_, refused⟩, iff_of_true ?_ (.inl ⟨rfl, locked⟩)⟩
    rw [refused, vectored, if_pos ⟨rfl, locked⟩]
  · by_cases negative : 2 ^ 63 ≤ r.brOffset.toNat
    · have refused := @bounce_refused d buf r mem negative resid direction readonly
      have one : vectored d direction r mem = ⟨mem, d.ctxt.data, r.brResid, einval⟩ := by
        rw [vectored, if_neg readonly, moves_refused rfl negative]
      refine ⟨⟨_, refused⟩, ?_⟩
      rw [refused, one, resid]
      by_cases nothing : total r.brIov = 0
      · rw [if_pos nothing]
        refine iff_of_false ?_ ?_
        · intro same
          have err : (0 : BitVec 32) = einval := congrArg Outcome.err (Option.some.inj same)
          exact absurd err (by decide)
        · rintro (locked | ⟨-, some_data⟩ | ⟨low, -⟩)
          · exact readonly locked
          · exact some_data nothing
          · exact absurd negative (Nat.not_le.mpr low)
      · rw [if_neg nothing]
        exact iff_of_true rfl (.inr (.inl ⟨negative, nothing⟩))
    · obtain ⟨out, ran, ends, agrees⟩ := @bounce_ends d buf r mem resid direction readonly
      refine ⟨⟨out, ran⟩, ?_⟩
      rw [ran, Option.some.injEq]
      constructor
      · intro same
        have err : out.err = 0 := by
          rw [same, vectored, if_neg readonly, moves_some (by omega)]
          cases direction <;> rfl
        have left : out.resid = r.brResid - min (total r.brIov) (d.ctxt.size - r.brOffset.toNat) := by
          rw [same, vectored, if_neg readonly, moves_some (by omega)]
          cases direction <;> rfl
        rw [ends err, resid] at left
        exact .inr (.inr ⟨by omega, by omega⟩)
      · rintro (locked | ⟨high, -⟩ | ⟨low, inside⟩)
        · exact absurd locked readonly
        · exact absurd high negative
        · exact agrees low inside

def sectorDisk : Disk := ⟨blankDisk 512 (by decide), false, true, false, 131072, by decide⟩

def twoSectors : Request :=
  ⟨[{ addr := 0x1000, len := 512, flags := 0, next := 0 },
    { addr := 0x2000, len := 512, flags := 0, next := 0 }], 0, 1024⟩

theorem bounce_agrees_iff_sectors :
    (∃ out, bounce sectorDisk (fun _ => 0) .read twoSectors (fun _ => 1) = some out) ∧
      (bounce sectorDisk (fun _ => 0) .read twoSectors (fun _ => 1) =
          some (vectored sectorDisk .read twoSectors fun _ => 1) ↔
        NothingShort sectorDisk .read twoSectors) :=
  bounce_agrees_iff sectorDisk (fun _ => 0) .read twoSectors (fun _ => 1) (by decide)

theorem end_of_file_hidden : bounce sectorDisk (fun _ => 0) .read twoSectors (fun _ => 1) ≠
      some (vectored sectorDisk .read twoSectors fun _ => 1) := by
  have writable : ¬ (Direction.read = .write ∧ sectorDisk.ctxt.rdonly = true) := by decide
  obtain ⟨out, ran, ends, -⟩ := @bounce_ends sectorDisk (fun _ => 0) twoSectors (fun _ => 1)
    (by decide) .read writable
  rw [ran]
  intro same
  have one : vectored sectorDisk .read twoSectors (fun _ => 1) = out := (Option.some.inj same).symm
  have err : (vectored sectorDisk .read twoSectors fun _ => 1).err = 0 := by decide
  have left : (vectored sectorDisk .read twoSectors fun _ => 1).resid = 512 := by decide
  rw [one] at err left
  rw [ends err] at left
  contradiction

end
end BlockProc
