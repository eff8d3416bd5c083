import Bhyve.Vmm.Encoding

namespace VmmEncoding
open VmmDecoder List
open Option hiding or_self

def At (vie : Vie) (bytes : List (BitVec 8)) : Prop := vie.inst.drop vie.numProcessed = bytes

variable {vie : Vie} {x : BitVec 8} {rest : List (BitVec 8)} {mode : CpuMode} {csD : Bool}
  {i : Instr}

theorem peek_at (at_ : At vie (x :: rest)) : viePeek vie = some x := by
  rw [viePeek, ← head?_drop, at_]
  rfl

theorem at_advance (at_ : At vie (x :: rest)) : At (vieAdvance vie) rest := by
  unfold At vieAdvance at *
  rw [← drop_drop, at_]
  rfl

def advanced (vie : Vie) (n : Nat) : Vie := { vie with numProcessed := vie.numProcessed + n }

theorem at_advanced {bytes : List (BitVec 8)} (at_ : At vie (bytes ++ rest)) :
    At (advanced vie bytes.length) rest := by
  unfold At advanced at *
  rw [← drop_drop, at_, drop_left]

theorem take_bytes_at (bytes : List (BitVec 8)) :
    ∀ {vie : Vie} {rest : List (BitVec 8)}, At vie (bytes ++ rest) →
      takeBytes bytes.length vie = some (bytes, advanced vie bytes.length) := by
  induction bytes with
  | nil => intro vie rest _; rfl
  | cons x bytes ih =>
    intro vie rest at_
    have next := ih (at_advance at_)
    have moved : advanced (vieAdvance vie) bytes.length = advanced vie (bytes.length + 1) := by
      simp only [advanced, vieAdvance, Nat.add_assoc, Nat.add_comm 1]
    simp only [length_cons, takeBytes, peek_at at_, next, bind_eq_bind,
      bind_some, moved]

theorem prefix_byte_noted (vie : Vie) {p : Prefix} (free : p ≠ .lock) :
    notePrefix vie p.byte = some
      (match p with
      | .opsize => { vie with opsizeOverride := true }
      | .addrsize => { vie with addrsizeOverride := true }
      | .repz => { vie with repzPresent := true }
      | .repnz => { vie with repnzPresent := true }
      | .lock => vie
      | .segment s => { vie with segmentOverride := true, segmentRegister := s.name }) := by
  cases p with
  | opsize => rfl
  | addrsize => rfl
  | repz => rfl
  | repnz => rfl
  | lock => exact absurd rfl free
  | segment s => cases s <;> rfl

def noted (vie : Vie) (ps : List Prefix) : Vie :=
  { vie with
    numProcessed := vie.numProcessed + ps.length
    opsizeOverride := vie.opsizeOverride || decide (Prefix.opsize ∈ ps)
    addrsizeOverride := vie.addrsizeOverride || decide (Prefix.addrsize ∈ ps)
    repzPresent := vie.repzPresent || decide (Prefix.repz ∈ ps)
    repnzPresent := vie.repnzPresent || decide (Prefix.repnz ∈ ps)
    segmentOverride := vie.segmentOverride || (lastSegment ps).isSome
    segmentRegister := ((lastSegment ps).map Segment.name).getD vie.segmentRegister }

def EndsPrefixes (x : BitVec 8) : Prop := ∀ vie, notePrefix vie x = none

theorem legacy_prefixes_noted (ends : EndsPrefixes x) (rest : List (BitVec 8)) (ps : List Prefix) :
    ∀ vie, Prefix.lock ∉ ps →
      legacyPrefixes (ps.map Prefix.byte ++ x :: rest) vie = some (noted vie ps, x) := by
  induction ps with
  | nil =>
    intro vie _
    simp only [map_nil, nil_append, legacyPrefixes, ends vie, noted, lastSegment]
    simp
  | cons p ps ih =>
    intro vie free
    have first : p ≠ .lock := fun same => free (same ▸ mem_cons_self ..)
    have others : Prefix.lock ∉ ps := fun inside => free (mem_cons_of_mem _ inside)
    simp only [map_cons, List.cons_append, legacyPrefixes, prefix_byte_noted vie first]
    rw [ih _ others]
    congr 2
    have moved : vie.numProcessed + 1 + ps.length = vie.numProcessed + (ps.length + 1) := by omega
    cases p with
    | lock => exact absurd rfl first
    | segment s =>
      cases last : lastSegment ps <;>
        simp [noted, vieAdvance, lastSegment, last, moved]
    | opsize => simp [noted, vieAdvance, lastSegment, moved]
    | addrsize => simp [noted, vieAdvance, lastSegment, moved]
    | repz => simp [noted, vieAdvance, lastSegment, moved]
    | repnz => simp [noted, vieAdvance, lastSegment, moved]

/-- The prefixes and opcodes the decoder's own tables and stages describe: an opcode with an
    entry, no LOCK, REX only in 64-bit mode and VEX only in long mode. -/
structure HeadSpelled (mode : CpuMode) (i : Instr) : Prop where
  supported : i.head.op.opType ≠ .none
  whole : i.head.op.opType ≠ .twoByte
  free : Prefix.lock ∉ i.prefixes
  rex : i.head.hasRex = true → mode = .bits64
  vex : i.head.vex.isSome = true → mode = .bits64 ∨ mode = .compatibility

structure OperandSpelled (mode : CpuMode) (i : Instr) : Prop where
  modrm : i.head.op.noModrm = true ↔ i.modrm = none
  form : ∀ m ∈ i.modrm, mode ≠ .real ∧ m.Form32

structure Spelled (mode : CpuMode) (csD : Bool) (i : Instr) : Prop where
  head : HeadSpelled mode i
  operand : OperandSpelled mode i
  imm : i.imm.length =
    if i.head.op.imm then (if i.opSize mode csD = 4 ∨ i.opSize mode csD = 8 then 4 else 2)
    else if i.head.op.imm8 then 1 else 0
  moffset : i.moffset.length = if i.head.op.moffset then i.addrSize mode csD else 0

theorem set_sizes_eq (vie : Vie) (mode : CpuMode) (csD : Bool) :
    setSizes vie mode csD =
      { vie with
        addrsize :=
          if mode = .bits64 then (if vie.addrsizeOverride then 4 else 8)
          else if csD = vie.addrsizeOverride then 2 else 4
        opsize :=
          if mode = .bits64 then (if vie.rexW then 8 else if vie.opsizeOverride then 2 else 4)
          else if csD = vie.opsizeOverride then 2 else 4 } := by
  unfold setSizes
  cases mode <;> cases csD <;> cases vie.addrsizeOverride <;> cases vie.opsizeOverride <;> rfl

def endsPrefixes (x : BitVec 8) : Bool :=
  decide (x ≠ 0x66 ∧ x ≠ 0x67 ∧ x ≠ 0xf3 ∧ x ≠ 0xf2 ∧ segmentOverride x = none)

theorem ends_prefixes_of (met : endsPrefixes x = true) : EndsPrefixes x := by
  obtain ⟨first, second, third, fourth, fifth⟩ := of_decide_eq_true met
  intro vie
  simp only [notePrefix, first, second, third, fourth, fifth, ↓reduceIte]

theorem one_byte_opcode_bounds : ∀ x : BitVec 8, (oneByteOpcodes x).opType ≠ .none →
    endsPrefixes x = true ∧ ¬ (0x40 ≤ x.toNat ∧ x.toNat ≤ 0x4f) ∧ x ≠ 0xc4 := by
  decide +kernel

theorem one_byte_operand : ∀ x : BitVec 8,
    (oneByteOpcodes x).noModrm = decide (x ∈ [0xa1, 0xa3, 0xa4, 0xa5, 0xaa, 0xab]) ∧
      (oneByteOpcodes x).moffset = decide (x ∈ [0xa1, 0xa3]) := by
  decide +kernel

theorem one_byte_groups (x : BitVec 8) : ((oneByteOpcodes x).opType = .test → x = 0xf7) ∧
      ((oneByteOpcodes x).opType = .twoByte → x = 0x0f) := by
  unfold oneByteOpcodes
  split <;> refine ⟨fun same => ?_, fun same => ?_⟩ <;> first | rfl | cases same

theorem two_byte_entry (x : BitVec 8) :
    (twoByteOpcodes x).noModrm = false ∧ (twoByteOpcodes x).moffset = false ∧
      (twoByteOpcodes x).imm = false ∧ (twoByteOpcodes x).opType ≠ .test ∧
      (twoByteOpcodes x).opType ≠ .twoByte := by
  unfold twoByteOpcodes
  split <;> exact ⟨rfl, rfl, rfl, by decide, by decide⟩

theorem three_byte_entry (x : BitVec 8) :
    (threeByteOpcodes0f38 x).noModrm = false ∧ (threeByteOpcodes0f38 x).moffset = false ∧
      (threeByteOpcodes0f38 x).imm = false ∧ (threeByteOpcodes0f38 x).imm8 = false ∧
      (threeByteOpcodes0f38 x).opType ≠ .test ∧ (threeByteOpcodes0f38 x).opType ≠ .twoByte := by
  unfold threeByteOpcodes0f38
  split <;> exact ⟨rfl, rfl, rfl, rfl, by decide, by decide⟩

variable (rex : Rex)

theorem rex_byte_bounds :
    endsPrefixes rex.byte = true ∧ (0x40 ≤ rex.byte.toNat ∧ rex.byte.toNat ≤ 0x4f) ∧
      rex.byte ≠ 0xc4 := by
  obtain ⟨w, r, x, b⟩ := rex
  cases w <;> cases r <;> cases x <;> cases b <;> decide

theorem decode_rex_byte (vie : Vie) (rex : Rex) :
    decodeRex vie rex.byte = vieAdvance { vie with
      rexPresent := true, rexW := rex.w, rexR := rex.r, rexX := rex.x, rexB := rex.b } := by
  obtain ⟨w, r, x, b⟩ := rex
  cases w <;> cases r <;> cases x <;> cases b <;> rfl

theorem vex_second_fields (v : Vex) :
    decide (v.second &&& 0x80 = 0) = v.r ∧ decide (v.second &&& 0x40 = 0) = v.x ∧
      decide (v.second &&& 0x20 = 0) = v.b ∧ v.second &&& 0x1f = 0x2 := by
  have all : ∀ r x b : Bool,
      let t := bit (!r) 7 ||| bit (!x) 6 ||| bit (!b) 5 ||| 0x02
      decide (t &&& 0x80 = 0) = r ∧ decide (t &&& 0x40 = 0) = x ∧
        decide (t &&& 0x20 = 0) = b ∧ t &&& 0x1f = 0x2 := by decide
  exact all v.r v.x v.b

theorem vex_third_fields (v : Vex) :
    decide (v.third &&& 0x80 ≠ 0) = v.w ∧ (~~~v.third).extractLsb' 3 4 = v.reg ∧
      decide (v.third &&& 0x4 ≠ 0) = v.l ∧ v.third.extractLsb' 0 2 = v.pp := by
  have all : ∀ (w l : Bool) (reg : BitVec 4) (pp : BitVec 2),
      let t := bit w 7 ||| (((~~~reg).setWidth 8) <<< 3) ||| bit l 2 ||| pp.setWidth 8
      decide (t &&& 0x80 ≠ 0) = w ∧ (~~~t).extractLsb' 3 4 = reg ∧
        decide (t &&& 0x4 ≠ 0) = l ∧ t.extractLsb' 0 2 = pp := by decide
  exact all v.w v.l v.reg v.pp

def afterHead (mode : CpuMode) (csD : Bool) (i : Instr) (inst : List (BitVec 8)) : Vie :=
  { vieInit inst with
    numProcessed := i.prefixes.length + i.head.bytes.length
    opsizeOverride := i.has .opsize 1
    addrsizeOverride := decide (Prefix.addrsize ∈ i.prefixes)
    repzPresent := i.has .repz 2
    repnzPresent := i.has .repnz 3
    segmentOverride := (lastSegment i.prefixes).isSome
    segmentRegister := ((lastSegment i.prefixes).map Segment.name).getD .last
    rexPresent := i.head.hasRex
    rexW := i.head.rex.w
    rexR := i.head.rex.r
    rexX := i.head.rex.x
    rexB := i.head.rex.b
    vexPresent := i.head.vex.isSome
    vexReg := (i.head.vex.map Vex.reg).getD 0
    vexL := (i.head.vex.map Vex.l).getD false
    vexPp := (i.head.vex.map Vex.pp).getD 0
    op := i.head.op
    addrsize := i.addrSize mode csD
    opsize := i.opSize mode csD }

theorem at_noted (ps : List Prefix) (at_ : At vie (ps.map Prefix.byte ++ rest)) :
    At (noted vie ps) rest := by
  have moved := at_advanced at_
  rwa [length_map] at moved

def afterPrefixes (mode : CpuMode) (csD : Bool) (i : Instr) (inst : List (BitVec 8)) : Vie :=
  { afterHead mode csD i inst with
    numProcessed := i.prefixes.length + (if i.head.hasRex then 1 else 0)
    op := noOp }

theorem init_unread (inst : List (BitVec 8)) :
    (vieInit inst).inst.drop (vieInit inst).numProcessed = inst := rfl

theorem prefixes_plain (free : Prefix.lock ∉ i.prefixes) (ends : endsPrefixes x = true)
    (range : ¬ (0x40 ≤ x.toNat ∧ x.toNat ≤ 0x4f)) (other : x ≠ 0xc4)
    (no_rex : i.head.hasRex = false) (rex : i.head.rex = noRex) (no_vex : i.head.vex = none) :
    decodePrefixes (vieInit (i.prefixes.map Prefix.byte ++ x :: rest)) mode csD =
      some (afterPrefixes mode csD i (i.prefixes.map Prefix.byte ++ x :: rest)) := by
  have looped := legacy_prefixes_noted (ends_prefixes_of ends) rest i.prefixes
    (vieInit (i.prefixes.map Prefix.byte ++ x :: rest)) free
  have not_rex : ¬ (mode = .bits64 ∧ 0x40 ≤ x.toNat ∧ x.toNat ≤ 0x4f) := fun h => range h.2
  have not_vex : ¬ ((mode = .bits64 ∨ mode = .compatibility) ∧ x = 0xc4) := fun h => other h.2
  rw [decodePrefixes, init_unread, looped]
  simp only [bind_eq_bind, bind_some, if_neg not_rex, if_neg not_vex, set_sizes_eq]
  simp [afterPrefixes, afterHead, noted, vieInit, no_rex, rex, no_vex, noRex, Instr.has,
    Instr.addrSize, Instr.opSize]

theorem prefixes_rex {rex : Rex} (free : Prefix.lock ∉ i.prefixes) (wide : mode = .bits64)
    (has_rex : i.head.hasRex = true) (same : i.head.rex = rex) (no_vex : i.head.vex = none) :
    decodePrefixes (vieInit (i.prefixes.map Prefix.byte ++ rex.byte :: rest)) mode csD =
      some (afterPrefixes mode csD i (i.prefixes.map Prefix.byte ++ rex.byte :: rest)) := by
  obtain ⟨ends, range, other⟩ := rex_byte_bounds rex
  have looped := legacy_prefixes_noted (ends_prefixes_of ends) rest i.prefixes
    (vieInit (i.prefixes.map Prefix.byte ++ rex.byte :: rest)) free
  have not_vex : ¬ ((mode = .bits64 ∨ mode = .compatibility) ∧ rex.byte = 0xc4) :=
    fun h => other h.2
  rw [decodePrefixes, init_unread, looped]
  simp only [bind_eq_bind, bind_some, if_pos (And.intro wide range),
    if_neg not_vex, set_sizes_eq, decode_rex_byte]
  simp [afterPrefixes, afterHead, noted, vieInit, vieAdvance, has_rex, same, no_vex, Instr.has,
    Instr.addrSize, Instr.opSize]

theorem note_pp_eq (vie : Vie) (pp : BitVec 2) :
    notePp vie pp = { vie with
      opsizeOverride := vie.opsizeOverride || decide (pp = 1)
      repzPresent := vie.repzPresent || decide (pp = 2)
      repnzPresent := vie.repnzPresent || decide (pp = 3) } := by
  have all : pp = 0 ∨ pp = 1 ∨ pp = 2 ∨ pp = 3 := by revert pp; decide
  obtain rfl | rfl | rfl | rfl := all <;> simp [notePp]

def vexed (vie : Vie) (v : Vex) (opcode : BitVec 8) : Vie :=
  { vie with
    numProcessed := vie.numProcessed + 4
    opsizeOverride := vie.opsizeOverride || decide (v.pp = 1)
    repzPresent := vie.repzPresent || decide (v.pp = 2)
    repnzPresent := vie.repnzPresent || decide (v.pp = 3)
    rexW := v.w
    rexR := v.r
    rexX := v.x
    rexB := v.b
    vexPresent := true
    vexReg := v.reg
    vexL := v.l
    vexPp := v.pp
    op := threeByteOpcodes0f38 opcode }

theorem decode_vex_bytes (v : Vex) (opcode : BitVec 8)
    (at_ : At vie (0xc4 :: v.second :: v.third :: opcode :: rest))
    (supported : (threeByteOpcodes0f38 opcode).opType ≠ .none) :
    decodeVex vie = some (vexed vie v opcode) := by
  have second := peek_at (at_advance at_)
  have third := peek_at (at_advance (at_advance at_))
  have fourth := peek_at (at_advance (at_advance (at_advance at_)))
  obtain ⟨r, x, b, map⟩ := vex_second_fields v
  obtain ⟨w, reg, l, pp⟩ := vex_third_fields v
  simp only [viePeek, vieAdvance] at second third fourth
  simp only [decodeVex, viePeek, vieAdvance, second, bind_eq_bind, bind_some, map,
    ne_eq, not_true_eq_false, ↓reduceIte, third, pp, note_pp_eq, fourth, supported, r, x, b, w,
    reg, l, vexed]

theorem prefixes_vex {mode : CpuMode} {csD : Bool} {i : Instr} {v : Vex} {opcode : BitVec 8}
    {rest : List (BitVec 8)} (free : Prefix.lock ∉ i.prefixes)
    (long : mode = .bits64 ∨ mode = .compatibility) (same : i.head = .vex0f38 v opcode)
    (supported : (threeByteOpcodes0f38 opcode).opType ≠ .none) :
    decodePrefixes (vieInit (i.prefixes.map Prefix.byte ++
        0xc4 :: v.second :: v.third :: opcode :: rest)) mode csD =
      some (afterHead mode csD i (i.prefixes.map Prefix.byte ++
        0xc4 :: v.second :: v.third :: opcode :: rest)) := by
  have ends : EndsPrefixes 0xc4 := ends_prefixes_of (by decide)
  have looped := legacy_prefixes_noted ends (v.second :: v.third :: opcode :: rest) i.prefixes
    (vieInit (i.prefixes.map Prefix.byte ++ 0xc4 :: v.second :: v.third :: opcode :: rest)) free
  have not_rex : ¬ (mode = .bits64 ∧ 0x40 ≤ (0xc4 : BitVec 8).toNat ∧
      (0xc4 : BitVec 8).toNat ≤ 0x4f) := by
    intro h
    exact absurd h.2 (by decide)
  have vexed_ := decode_vex_bytes v opcode (at_noted i.prefixes (init_unread
    (i.prefixes.map Prefix.byte ++ 0xc4 :: v.second :: v.third :: opcode :: rest))) supported
  rw [decodePrefixes, init_unread, looped]
  simp only [bind_eq_bind, bind_some]
  rw [if_neg not_rex, if_pos (And.intro long trivial), vexed_]
  simp only [bind_some, set_sizes_eq]
  simp [afterHead, vexed, noted, vieInit, same, Head.bytes, Head.hasRex, Head.rex, Head.vex,
    Head.op, Instr.has, Instr.addrSize, Instr.opSize]

theorem decode_opcode_one {inst : List (BitVec 8)} {rex : Option Rex} {opcode : BitVec 8}
    (same : i.head = .oneByte rex opcode)
    (at_ : At (afterPrefixes mode csD i inst) (opcode :: rest))
    (supported : (oneByteOpcodes opcode).opType ≠ .none)
    (whole : (oneByteOpcodes opcode).opType ≠ .twoByte) :
    decodeOpcode (afterPrefixes mode csD i inst) = some (afterHead mode csD i inst) := by
  have fresh : ¬ (afterPrefixes mode csD i inst).op.opType ≠ .none := by
    simp [afterPrefixes, noOp]
  simp only [decodeOpcode, peek_at at_, bind_eq_bind, bind_some, if_neg fresh,
    if_neg supported, vieAdvance]
  cases rex <;>
    simp [afterPrefixes, afterHead, same, whole, Head.bytes, Head.op, Head.hasRex, rexBytes]

theorem decode_opcode_two {inst : List (BitVec 8)} {rex : Option Rex} {opcode : BitVec 8}
    (same : i.head = .twoByte rex opcode)
    (at_ : At (afterPrefixes mode csD i inst) (0x0f :: opcode :: rest))
    (supported : (twoByteOpcodes opcode).opType ≠ .none) :
    decodeOpcode (afterPrefixes mode csD i inst) = some (afterHead mode csD i inst) := by
  have fresh : ¬ (afterPrefixes mode csD i inst).op.opType ≠ .none := by
    simp [afterPrefixes, noOp]
  have entry : (oneByteOpcodes 0x0f).opType = .twoByte := rfl
  have next := peek_at (at_advance at_)
  simp only [viePeek, vieAdvance] at next
  simp only [decodeOpcode, peek_at at_, bind_eq_bind, bind_some, if_neg fresh]
  simp only [entry, reduceCtorEq, ↓reduceIte, decodeTwoByteOpcode, bind_eq_bind, viePeek,
    vieAdvance, next, bind_some, if_neg supported]
  cases rex <;> simp [afterPrefixes, afterHead, same, Head.bytes, Head.op, Head.hasRex, rexBytes]

theorem decode_opcode_vex {mode : CpuMode} {csD : Bool} {i : Instr} {inst rest : List (BitVec 8)}
    {x : BitVec 8} (at_ : At (afterHead mode csD i inst) (x :: rest))
    (supported : i.head.op.opType ≠ .none) :
    decodeOpcode (afterHead mode csD i inst) = some (afterHead mode csD i inst) := by
  have known : (afterHead mode csD i inst).op.opType ≠ .none := supported
  simp only [decodeOpcode, peek_at at_, bind_eq_bind, bind_some, if_pos known]

theorem at_behind (ahead : List (BitVec 8)) {bytes : List (BitVec 8)}
    (inst : vie.inst = ahead ++ bytes) (moved : vie.numProcessed = ahead.length) :
    At vie bytes := by
  unfold At
  rw [inst, moved, drop_left]

theorem prefixes_unvexed {mode : CpuMode} {csD : Bool} {i : Instr} (rex : Option Rex)
    {x : BitVec 8} {rest : List (BitVec 8)} (free : Prefix.lock ∉ i.prefixes)
    (wide : rex.isSome = true → mode = .bits64) (ends : endsPrefixes x = true)
    (range : ¬ (0x40 ≤ x.toNat ∧ x.toNat ≤ 0x4f)) (other : x ≠ 0xc4)
    (has_rex : i.head.hasRex = rex.isSome) (same : i.head.rex = rex.getD noRex)
    (no_vex : i.head.vex = none) :
    decodePrefixes (vieInit (i.prefixes.map Prefix.byte ++ (rexBytes rex ++ x :: rest))) mode csD =
        some (afterPrefixes mode csD i
          (i.prefixes.map Prefix.byte ++ (rexBytes rex ++ x :: rest))) ∧
      At (afterPrefixes mode csD i (i.prefixes.map Prefix.byte ++ (rexBytes rex ++ x :: rest)))
        (x :: rest) := by
  cases rex with
  | none =>
    refine ⟨prefixes_plain free ends range other has_rex same no_vex, at_behind _ rfl ?_⟩
    simp [afterPrefixes, has_rex]
  | some rex =>
    refine ⟨prefixes_rex free (wide rfl) has_rex same no_vex, ?_⟩
    refine at_behind (i.prefixes.map Prefix.byte ++ [rex.byte]) ?_ ?_
    · simp [afterPrefixes, afterHead, vieInit, rexBytes]
    · simp [afterPrefixes, has_rex]

theorem head_decoded {mode : CpuMode} {csD : Bool} {i : Instr} (spelled : HeadSpelled mode i)
    {rest : List (BitVec 8)} (more : i.head.vex.isSome = true → rest ≠ []) :
    (decodePrefixes (vieInit (i.prefixes.map Prefix.byte ++ (i.head.bytes ++ rest))) mode csD).bind
        decodeOpcode =
      some (afterHead mode csD i (i.prefixes.map Prefix.byte ++ (i.head.bytes ++ rest))) := by
  have supported := spelled.supported
  have whole := spelled.whole
  have wide := spelled.rex
  cases head : i.head with
  | oneByte rex opcode =>
    rw [head] at supported whole wide
    obtain ⟨ends, range, other⟩ := one_byte_opcode_bounds opcode supported
    obtain ⟨passed, at_⟩ := @prefixes_unvexed mode csD i rex opcode rest spelled.free wide ends
      range other (by rw [head]; rfl) (by rw [head]; rfl) (by rw [head]; rfl)
    simp only [Head.bytes, List.append_assoc, singleton_append]
    rw [passed, bind_some]
    exact decode_opcode_one head at_ supported whole
  | twoByte rex opcode =>
    rw [head] at supported wide
    obtain ⟨passed, at_⟩ := @prefixes_unvexed mode csD i rex 0x0f (opcode :: rest) spelled.free
      wide (by decide) (by decide) (by decide) (by rw [head]; rfl) (by rw [head]; rfl)
      (by rw [head]; rfl)
    simp only [Head.bytes, List.append_assoc, List.cons_append, nil_append]
    rw [passed, bind_some]
    exact decode_opcode_two head at_ supported
  | vex0f38 v opcode =>
    have long := spelled.vex
    rw [head] at supported long more
    obtain ⟨x, behind, rfl⟩ := exists_cons_of_ne_nil (more rfl)
    have passed := @prefixes_vex mode csD i v opcode (x :: behind) spelled.free (long rfl) head
      supported
    simp only [Head.bytes, List.cons_append, nil_append]
    rw [passed, bind_some]
    refine @decode_opcode_vex mode csD i _ behind x ?_ (by rw [head]; exact supported)
    refine at_behind (i.prefixes.map Prefix.byte ++ [0xc4, v.second, v.third, opcode]) ?_ ?_
    · simp [afterHead, vieInit]
    · simp [afterHead, head, Head.bytes]

theorem modrm_byte_fields (m : Modrm) :
    m.byte.extractLsb' 6 2 = m.mod ∧ m.byte.extractLsb' 3 3 = m.reg ∧
      m.byte.extractLsb' 0 3 = m.rm := by
  have all : ∀ (mod : BitVec 2) (reg rm : BitVec 3),
      let t := (mod.setWidth 8 <<< 6) ||| (reg.setWidth 8 <<< 3) ||| rm.setWidth 8
      t.extractLsb' 6 2 = mod ∧ t.extractLsb' 3 3 = reg ∧ t.extractLsb' 0 3 = rm := by
    decide
  exact all m.mod m.reg m.rm

theorem sib_byte_fields (s : Sib) :
    s.byte.extractLsb' 6 2 = s.ss ∧ s.byte.extractLsb' 3 3 = s.index ∧
      s.byte.extractLsb' 0 3 = s.base :=
  modrm_byte_fields ⟨s.ss, s.index, s.base, none, []⟩

def rmNumber (m : Modrm) : BitVec 4 :=
  if (m.mod = 0 ∧ m.rm = 5) ∨ m.rm = 4 then m.rm.setWidth 4 else regNumber rex.b m.rm

theorem reg_number_bits (b : Bool) (low : BitVec 3) :
    low.setWidth 4 ||| rexBit b = regNumber b low := by
  rw [BitVec.or_comm]
  rfl

theorem low_number_iff : ∀ low : BitVec 3, (low.setWidth 4 = (5 : BitVec 4) ↔ low = 5) ∧
    (low.setWidth 4 = (4 : BitVec 4) ↔ low = 4) := by decide

theorem reg_number_iff : ∀ (b : Bool) (low : BitVec 3),
    (regNumber b low = 4 ↔ low = 4 ∧ b = false) ∧
      (regNumber b low = 5 ↔ low = 5 ∧ b = false) ∧
      (regNumber b low = 5 ∨ regNumber b low = 13 ↔ low = 5) := by decide

theorem rm_number_sib (m : Modrm) : rmNumber rex m = 4 ↔ m.rm = 4 := by
  unfold rmNumber
  split
  · exact (low_number_iff m.rm).2
  · rename_i other
    rw [(reg_number_iff rex.b m.rm).1]
    constructor
    · exact fun four => four.1
    · exact fun four => absurd (Or.inr four) other

theorem rm_number_disp (m : Modrm) (flat : m.mod = 0) : rmNumber rex m = 5 ↔ m.rm = 5 := by
  unfold rmNumber
  split
  · exact (low_number_iff m.rm).1
  · rename_i other
    rw [(reg_number_iff rex.b m.rm).2.1]
    constructor
    · exact fun five => five.1
    · exact fun five => absurd (Or.inl ⟨flat, five⟩) other

theorem gpr_map_named : ∀ r : BitVec 4, gprMap r ≠ .last := by decide

theorem memory_mod : ∀ {mod : BitVec 2}, mod ≠ 3 → mod = 0 ∨ mod = 1 ∨ mod = 2 := by decide

def modrmNoted (mode : CpuMode) (m : Modrm) (vie : Vie) : Vie :=
  let rex : Rex := ⟨vie.rexW, vie.rexR, vie.rexX, vie.rexB⟩
  { vie with
    numProcessed := vie.numProcessed + 1
    mod := m.mod
    reg := regNumber vie.rexR m.reg
    rm := rmNumber rex m
    dispBytes := if m.sib.isSome then vie.dispBytes else m.dispLength
    baseRegister := if m.sib.isSome then vie.baseRegister else baseRegister mode rex m }

theorem decode_modrm_byte {mode : CpuMode} {m : Modrm} {vie : Vie} {rest : List (BitVec 8)}
    (at_ : At vie (m.byte :: rest)) (wanted : vie.op.noModrm = false) (protected_ : mode ≠ .real)
    (memory : m.mod ≠ 3) (sib : m.sib.isSome = true ↔ m.rm = 4) (fresh : vie.dispBytes = 0) :
    decodeModrm vie mode = some (modrmNoted mode m vie) := by
  obtain ⟨mod, reg, rm⟩ := modrm_byte_fields m
  have number : (if m.mod = 0 ∧ m.rm.setWidth 4 = (5 : BitVec 4) ∨
        m.mod ≠ 3 ∧ m.rm.setWidth 4 = (4 : BitVec 4) then m.rm.setWidth 4
      else m.rm.setWidth 4 ||| rexBit vie.rexB) =
      rmNumber ⟨vie.rexW, vie.rexR, vie.rexX, vie.rexB⟩ m := by
    simp only [rmNumber, (low_number_iff m.rm).1, (low_number_iff m.rm).2, reg_number_bits,
      memory, ne_eq, not_false_eq_true, true_and]
  simp only [decodeModrm, wanted, Bool.false_eq_true, if_neg protected_, ↓reduceIte, peek_at at_,
    bind_eq_bind, bind_some, mod, reg, rm, if_neg memory, number]
  simp only [memory, ne_eq, not_false_eq_true, true_and, rm_number_sib, reg_number_bits]
  by_cases escape : m.rm = 4
  · simp only [if_pos escape, modrmNoted, sib.mpr escape, vieAdvance, ↓reduceIte]
  · have plain : m.sib = none := by
      cases same : m.sib with
      | none => rfl
      | some s => exact absurd (sib.mp (by rw [same]; rfl)) escape
    simp only [if_neg escape, modrmNoted, plain, isSome_none, Bool.false_eq_true,
      ↓reduceIte, vieAdvance, Modrm.dispLength, baseRegister]
    have based : ¬ (m.mod = 0 ∧ m.rm = 5) →
        rmNumber ⟨vie.rexW, vie.rexR, vie.rexX, vie.rexB⟩ m = regNumber vie.rexB m.rm :=
      fun other => if_neg (fun either => either.elim other escape)
    obtain flat | byte | word := memory_mod memory
    · by_cases alone : m.rm = 5
      · have five := (rm_number_disp ⟨vie.rexW, vie.rexR, vie.rexX, vie.rexB⟩ m flat).mpr alone
        simp only [flat, if_pos five, if_pos alone]
        simp [alone]
      · have other : ¬ (m.mod = 0 ∧ m.rm = 5) := fun both => alone both.2
        have five := (rm_number_disp ⟨vie.rexW, vie.rexR, vie.rexX, vie.rexB⟩ m flat).not.mpr alone
        rw [based other] at five ⊢
        simp only [if_neg other, if_neg alone, fresh]
        simp only [flat, if_neg five]
        rfl
    · rw [based (by simp [byte])]
      simp [byte]
    · rw [based (by simp [word])]
      simp [word]

def sibNoted (m : Modrm) (s : Sib) (vie : Vie) : Vie :=
  let rex : Rex := ⟨vie.rexW, vie.rexR, vie.rexX, vie.rexB⟩
  { vie with
    numProcessed := vie.numProcessed + 1
    ss := s.ss
    index := regNumber vie.rexX s.index
    base := regNumber vie.rexB s.base
    dispBytes := m.dispLength
    baseRegister :=
      if m.mod = 0 ∧ s.base = 5 then vie.baseRegister else gprMap (regNumber rex.b s.base)
    indexRegister := indexRegister rex s
    scale := if indexRegister rex s = .last then 0 else 2 ^ s.ss.toNat }

theorem index_register_cases (s : Sib) :
    (regNumber rex.x s.index = 4 ∧ indexRegister rex s = .last) ∨
      (regNumber rex.x s.index ≠ 4 ∧ indexRegister rex s = gprMap (regNumber rex.x s.index)) := by
  have turn := (reg_number_iff rex.x s.index).1
  by_cases bare : s.index = 4 ∧ rex.x = false
  · exact .inl ⟨turn.mpr bare, if_pos bare⟩
  · exact .inr ⟨turn.not.mpr bare, if_neg bare⟩

theorem note_sib_index_eq (s : Sib) (index : vie.index = regNumber rex.x s.index)
    (unindexed : vie.indexRegister = .last) (unscaled : vie.scale = 0) :
    noteSibIndex vie =
      { vie with
        indexRegister := indexRegister rex s
        scale := if indexRegister rex s = .last then 0 else 2 ^ vie.ss.toNat } := by
  have named := gpr_map_named (regNumber rex.x s.index)
  obtain ⟨four, last⟩ | ⟨other, register⟩ := index_register_cases rex s
  · simp only [noteSibIndex, index, four, last, ne_eq, not_true_eq_false, ↓reduceIte, unindexed]
    rw [← unindexed, ← unscaled, ← four, ← index]
  · simp only [noteSibIndex, index, other, register, named, ne_eq, not_false_eq_true, ↓reduceIte,
      Nat.shiftLeft_eq, one_mul]

theorem note_sib_base_eq {m : Modrm} {s : Sib} {vie : Vie} (memory : m.mod ≠ 3)
    (same : m.sib = some s) (mod : vie.mod = m.mod) (base : vie.base = regNumber vie.rexB s.base)
    (fresh : vie.dispBytes = 0) :
    noteSibBase vie =
      { vie with
        dispBytes := m.dispLength
        baseRegister :=
          if m.mod = 0 ∧ s.base = 5 then vie.baseRegister
          else gprMap (regNumber vie.rexB s.base) } := by
  have low := (reg_number_iff vie.rexB s.base).2.2
  simp only [noteSibBase, mod, base, low, Modrm.dispLength, same]
  obtain flat | byte | word := memory_mod memory
  · by_cases last : s.base = 5
    · simp [flat, last]
    · simp only [flat, last, and_false, ↓reduceIte, fresh]
      rfl
  · simp [byte]
  · simp [word]

theorem decode_sib_byte {m : Modrm} {s : Sib} (at_ : At vie (s.byte :: rest)) (memory : m.mod ≠ 3)
    (mod : vie.mod = m.mod) (same : m.sib = some s) (rm : vie.rm = 4) (fresh : vie.dispBytes = 0)
    (unindexed : vie.indexRegister = .last) (unscaled : vie.scale = 0) :
    decodeSib vie = some (sibNoted m s vie) := by
  obtain ⟨ss, index, base⟩ := sib_byte_fields s
  have present : ¬ (vie.mod = 3 ∨ vie.rm ≠ 4) := by
    rw [mod, rm]
    simp only [memory, ne_eq, not_true_eq_false, or_self, not_false_eq_true]
  rw [decodeSib, if_neg present]
  simp only [peek_at at_, bind_eq_bind, bind_some, ss, index, base, reg_number_bits]
  have based := @note_sib_base_eq m s { vie with
    ss := s.ss
    index := regNumber vie.rexX s.index
    base := regNumber vie.rexB s.base } memory same mod rfl fresh
  rw [based]
  congr 1
  rw [note_sib_index_eq ⟨vie.rexW, vie.rexR, vie.rexX, vie.rexB⟩ s]
  · rfl
  · rfl
  · exact unindexed
  · exact unscaled

end VmmEncoding
