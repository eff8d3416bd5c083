import Bhyve.Virtio.Iov

namespace Iov
open ByteMemory BlockProc
open List hiding Mem span

def Disjoint (iov : List Iovec) : Prop :=
  iov.Pairwise fun v w => ∀ p ∈ span v.base v.len, p ∉ span w.base w.len

instance (iov : List Iovec) : Decidable (Disjoint iov) := by
  unfold Disjoint
  infer_instance

/-- What buf_to_iov leaves: the start of the buffer in the string, from byte seek on. -/
structure Copied (mem : Mem) (buf : List Byte) (iov : List Iovec) (seek : Nat) : Prop where
  count : (bufToIov mem buf iov seek).2 = min buf.length (countIov iov - seek)
  reads : iovToBuf (bufToIov mem buf iov seek).1 iov = (iovToBuf mem iov).take seek ++
    buf.take (min buf.length (countIov iov - seek)) ++
    (iovToBuf mem iov).drop (seek + min buf.length (countIov iov - seek))
  others : ∀ p ∉ ((places iov).drop seek).take (min buf.length (countIov iov - seek)),
    (bufToIov mem buf iov seek).1 p = mem p

structure Algebra (mem : Mem) (buf : List Byte) (iov : List Iovec) (seek length : Nat) : Prop where
  seeks : places (seekIov iov seek) = (places iov).drop (min seek (countIov iov))
  truncates : places (truncateIov iov length) = (places iov).take (min length (countIov iov))
  copies : Disjoint iov → Copied mem buf iov seek

variable {mem : Mem} {buf : List Byte} {iov : List Iovec} {v : Iovec} {p i seek : Nat}

theorem span_nodup (address length : Nat) : (span address length).Nodup :=
  (nodup_map_iff fun _ _ same => Nat.add_left_cancel same).mpr nodup_range

theorem places_nodup (apart : Disjoint iov) : (places iov).Nodup := by
  induction iov with
  | nil => exact nodup_nil
  | cons v rest ih =>
    obtain ⟨here, later⟩ := List.pairwise_cons.mp apart
    refine List.nodup_append.mpr ⟨span_nodup _ _, ih later, fun p inside q behind same => ?_⟩
    obtain ⟨w, member, within⟩ := List.mem_flatMap.mp behind
    exact here w member p inside (same ▸ within)

theorem mem_span {address length : Nat} :
    p ∈ span address length ↔ address ≤ p ∧ p < address + length := by
  simp only [span, List.mem_map, mem_range]
  constructor
  · rintro ⟨i, below, rfl⟩
    omega
  · intro inside
    exact ⟨p - address, by omega, by omega⟩

theorem copy_into_outside {base n : Nat} {src : Nat → Byte} (outside : p ∉ span base n) :
    copyInto mem base n src p = mem p :=
  if_neg fun inside => outside (mem_span.mpr inside)

theorem copy_loop_other (iov : List Iovec) : ∀ (mem : Mem) (buf : List Byte),
    p ∉ (places iov).take buf.length → (copyLoop mem buf iov).1 p = mem p := by
  induction iov with
  | nil => exact fun _ _ _ => rfl
  | cons v rest ih =>
    intro mem buf outside
    rw [places_cons, take_append, span_length, mem_append, not_or] at outside
    unfold copyLoop
    split
    · rfl
    · dsimp only
      rw [ih _ _ (by rw [length_drop]; convert outside.2 using 3; omega)]
      refine copy_into_outside ?_
      rcases Nat.le_total v.len buf.length with fits | short
      · rw [Nat.min_eq_left fits]
        rw [take_of_length_le (by rw [span_length]; exact fits)] at outside
        exact outside.1
      · rw [Nat.min_eq_right short]
        rw [span_take short] at outside
        exact outside.1

theorem copy_loop_at (iov : List Iovec) : ∀ (mem : Mem) (buf : List Byte) (i : Nat),
    (places iov).Nodup → (places iov)[i]? = some p →
      (copyLoop mem buf iov).1 p = (buf[i]?).getD (mem p) := by
  induction iov with
  | nil =>
    intro mem buf i _ there
    cases there
  | cons v rest ih =>
    intro mem buf i distinct there
    obtain ⟨-, later, apart⟩ := List.nodup_append.mp (places_cons v rest ▸ distinct)
    rw [places_cons, getElem?_append, span_length] at there
    unfold copyLoop
    split
    · next empty => rw [List.isEmpty_iff.mp empty]; rfl
    dsimp only
    split at there
    · next first =>
      have here : p ∈ span v.base v.len := mem_of_getElem? there
      have behind : p ∉ (places rest).take (buf.drop (min v.len buf.length)).length :=
        fun inside => apart p here p (mem_of_mem_take inside) rfl
      have place : p = v.base + i := by
        simp only [span, getElem?_map, getElem?_range first, Option.map_some] at there
        exact (Option.some.inj there).symm
      rw [copy_loop_other rest _ _ behind, place]
      unfold copyInto
      by_cases given : i < buf.length
      · rw [if_pos (by omega), Nat.add_sub_cancel_left]
        simp [given]
      · rw [if_neg (by omega), List.getElem?_eq_none (by omega), Option.getD_none]
    · next second =>
      have other : p ∉ span v.base v.len := fun inside =>
        apart p inside p (mem_of_getElem? there) rfl
      have still : copyInto mem v.base (min v.len buf.length) (fun j => buf.getD j 0) p = mem p := by
        refine copy_into_outside fun inside => other (mem_span.mpr ?_)
        have range := mem_span.mp inside
        omega
      rw [ih _ _ _ later there, still, getElem?_drop]
      rcases Nat.le_total v.len buf.length with fits | short
      · rw [Nat.min_eq_left fits, Nat.add_sub_cancel' (by omega)]
      · rw [List.getElem?_eq_none (by omega), List.getElem?_eq_none (by omega)]

theorem copy_loop_reads {n : Nat} (distinct : (places iov).Nodup) (given : n ≤ buf.length)
    (room : n ≤ (places iov).length) :
    ((places iov).take n).map (copyLoop mem buf iov).1 = buf.take n := by
  refine ext_getElem (by simp [given, room]) fun i inside _ => ?_
  rw [length_map, length_take] at inside
  rw [getElem_map, getElem_take, getElem_take,
    copy_loop_at iov mem buf i distinct (List.getElem?_eq_getElem (by omega)),
    List.getElem?_eq_getElem (by omega), Option.getD_some]

theorem buf_to_iov_from (mem : Mem) (buf : List Byte) (iov : List Iovec) (seek : Nat) :
    ∃ list, bufToIov mem buf iov seek = copyLoop mem buf list ∧
      places list = (places iov).drop seek := by
  unfold bufToIov
  split
  · exact ⟨_, rfl, places_seek iov seek⟩
  · next start =>
    obtain rfl : seek = 0 := by omega
    exact ⟨_, rfl, rfl⟩

theorem copied (apart : Disjoint iov) : Copied mem buf iov seek := by
  have total := places_length iov
  obtain ⟨list, same, behind⟩ := buf_to_iov_from mem buf iov seek
  generalize moved : min buf.length (countIov iov - seek) = n
  have room : ((places iov).drop seek).take buf.length = ((places iov).drop seek).take n := by
    rw [← moved, ← total, ← length_drop, ← take_eq_take_min]
  have others : ∀ p ∉ ((places iov).drop seek).take n, (bufToIov mem buf iov seek).1 p = mem p := by
    intro p outside
    rw [same]
    exact copy_loop_other list mem buf (by rwa [behind, room])
  have parts : places iov = (places iov).take seek ++
      (((places iov).drop seek).take n ++ (places iov).drop (seek + n)) := by
    rw [← drop_drop, take_append_drop, take_append_drop]
  have distinct := places_nodup apart
  have tail : (places list).Nodup := behind ▸ distinct.sublist (drop_sublist seek _)
  rw [parts] at distinct
  obtain ⟨-, later, before⟩ := List.nodup_append.mp distinct
  obtain ⟨-, -, after⟩ := List.nodup_append.mp later
  refine ⟨moved ▸ buf_to_iov_count mem buf iov seek, ?_, moved ▸ others⟩
  have written : (((places iov).drop seek).take n).map (bufToIov mem buf iov seek).1 =
      buf.take n := by
    rw [same, ← behind]
    exact copy_loop_reads tail (by omega) (by rw [behind, length_drop, total]; omega)
  unfold iovToBuf
  rw [moved, ← map_take, ← map_drop, List.append_assoc]
  conv_lhs => rw [parts]
  rw [map_append, map_append, written]
  congr 1
  · exact map_congr_left fun p first => others p fun second =>
      before p first p (mem_append_left _ second) rfl
  · congr 1
    exact map_congr_left fun p third => others p fun second => after p second p third rfl

/-- The helpers do what their names say of the string, but for truncate_iov on a list whose first
    vector ends before the length. -/
theorem algebra_iff (mem : Mem) (buf : List Byte) (iov : List Iovec) (seek length : Nat) :
    Algebra mem buf iov seek length ↔ min length (countIov iov) ≤ firstLen iov := by
  have first := first_le_count iov
  constructor
  · intro algebra
    have same := congrArg List.length algebra.truncates
    rw [places_truncate, length_take, length_take, places_length] at same
    omega
  · intro inside
    refine ⟨?_, ?_, copied⟩
    · rw [places_seek, ← places_length]
      rcases Nat.le_total seek (places iov).length with short | long
      · rw [Nat.min_eq_left short]
      · rw [Nat.min_eq_right long, drop_length, drop_of_length_le long]
    · rw [places_truncate]
      congr 1
      omega

theorem truncate_stops_early : ¬ Algebra (fun _ => 0) [] [⟨0, 1⟩, ⟨1, 1⟩] 0 2 :=
  fun algebra => absurd algebra.truncates (by decide)

end Iov
