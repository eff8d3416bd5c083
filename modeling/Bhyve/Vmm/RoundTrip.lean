import Bhyve.Vmm.Stages

namespace VmmEncoding
open VmmDecoder List Option

def sibStage (m : Modrm) (vie : Vie) : Vie :=
  match m.sib with
  | some s => sibNoted m s vie
  | none => vie

def operandNoted (mode : CpuMode) (m : Modrm) (vie : Vie) : Vie :=
  { sibStage m (modrmNoted mode m vie) with
    numProcessed := vie.numProcessed + m.bytes.length
    displacement := if m.disp = [] then 0 else signedValue m.disp.length m.disp }

structure Blank (vie : Vie) : Prop where
  disp : vie.dispBytes = 0
  index : vie.indexRegister = .last
  scale : vie.scale = 0
  base : vie.baseRegister = .last
  displacement : vie.displacement = 0
  mod : vie.mod = 0
  rm : vie.rm = 0

variable {vie : Vie} {rest : List (BitVec 8)} {mode : CpuMode} {i : Instr} {csD : Bool}

theorem at_of_same {moved : Vie} {bytes : List (BitVec 8)} (at_ : At vie bytes)
    (inst : moved.inst = vie.inst) (same : moved.numProcessed = vie.numProcessed) :
    At moved bytes := by
  unfold At at *
  rw [inst, same, at_]

theorem sib_stage {mode : CpuMode} {m : Modrm} {vie : Vie} {rest : List (BitVec 8)}
    (at_ : At (modrmNoted mode m vie) (sibBytes m.sib ++ rest)) (blank : Blank vie)
    (memory : m.mod ≠ 3) (escape : m.sib.isSome = true ↔ m.rm = 4) :
    decodeSib (modrmNoted mode m vie) = some (sibStage m (modrmNoted mode m vie)) ∧
      At (sibStage m (modrmNoted mode m vie)) rest ∧
      (sibStage m (modrmNoted mode m vie)).dispBytes = m.dispLength := by
  cases same : m.sib with
  | some s =>
    have four : m.rm = 4 := escape.mp (by rw [same]; rfl)
    rw [same] at at_
    have fresh : (modrmNoted mode m vie).dispBytes = 0 := by
      simp only [modrmNoted, same, isSome_some, ↓reduceIte, blank.disp]
    simp only [sibStage, same]
    exact ⟨decode_sib_byte at_ memory rfl same ((rm_number_sib _ m).mpr four) fresh blank.index
      blank.scale, at_of_same (at_advance at_) rfl rfl, rfl⟩
  | none =>
    have other : m.rm ≠ 4 := fun four => by simpa [same] using escape.mpr four
    have absent : (modrmNoted mode m vie).mod = 3 ∨ (modrmNoted mode m vie).rm ≠ 4 :=
      .inr ((rm_number_sib _ m).not.mpr other)
    rw [same] at at_
    simp only [sibStage, same]
    refine ⟨by rw [decodeSib, if_pos absent], at_, ?_⟩
    simp only [modrmNoted, same, isSome_none, Bool.false_eq_true, ↓reduceIte]

theorem displacement_stage {disp : List (BitVec 8)} (at_ : At vie (disp ++ rest))
    (length : vie.dispBytes = disp.length) (zero : vie.displacement = 0) :
    decodeDisplacement vie = some { vie with
      numProcessed := vie.numProcessed + disp.length
      displacement := if disp = [] then 0 else signedValue disp.length disp } := by
  cases disp with
  | nil =>
    have none_ : vie.dispBytes = 0 := length
    rw [decodeDisplacement, if_pos none_, length_nil, Nat.add_zero, if_pos rfl, ← zero]
  | cons x disp =>
    have some_ : vie.dispBytes ≠ 0 := by rw [length]; exact Nat.succ_ne_zero _
    rw [decodeDisplacement, if_neg some_]
    simp only [length, take_bytes_at _ at_, bind_eq_bind, bind_some, reduceCtorEq,
      ↓reduceIte, advanced]

theorem operand_decoded {m : Modrm} (at_ : At vie (m.bytes ++ rest)) (blank : Blank vie)
    (wanted : vie.op.noModrm = false) (protected_ : mode ≠ .real) (form : m.Form32) :
    (decodeModrm vie mode).bind (fun vie => (decodeSib vie).bind decodeDisplacement) =
      some (operandNoted mode m vie) := by
  have bytes : m.bytes ++ rest = m.byte :: (sibBytes m.sib ++ (m.disp ++ rest)) := by
    rw [Modrm.bytes, List.cons_append, List.append_assoc]
  rw [bytes] at at_
  have behind : At (modrmNoted mode m vie) (sibBytes m.sib ++ (m.disp ++ rest)) :=
    at_of_same (at_advance at_) rfl rfl
  obtain ⟨memory, escape, disp⟩ := form
  obtain ⟨sib, after, length⟩ := sib_stage behind blank memory escape
  rw [← disp] at length
  have zero : (sibStage m (modrmNoted mode m vie)).displacement = 0 := by
    unfold sibStage
    cases m.sib <;> exact blank.displacement
  rw [decode_modrm_byte at_ wanted protected_ memory escape blank.disp, bind_some, sib,
    bind_some, displacement_stage after length zero, operandNoted]
  have moved : (sibStage m (modrmNoted mode m vie)).numProcessed + m.disp.length =
      vie.numProcessed + m.bytes.length := by
    rw [Modrm.bytes, length_cons, length_append]
    unfold sibStage
    cases m.sib with
    | some s =>
      simp only [sibNoted, modrmNoted, sibBytes, length_cons, length_nil]
      omega
    | none =>
      simp only [modrmNoted, sibBytes, length_nil]
      omega
  rw [moved]

theorem operand_absent (blank : Blank vie) (unwanted : vie.op.noModrm = true) :
    (decodeModrm vie mode).bind (fun vie => (decodeSib vie).bind decodeDisplacement) =
      some vie := by
  have absent : vie.mod = 3 ∨ vie.rm ≠ 4 := .inr (by rw [blank.rm]; decide)
  rw [decodeModrm, if_pos unwanted, bind_some, decodeSib, if_pos absent, bind_some,
    decodeDisplacement, if_pos blank.disp]

theorem immediate_stage {imm : List (BitVec 8)} (at_ : At vie (imm ++ rest))
    (length : immSize vie = imm.length) (zero : vie.immediate = 0) :
    decodeImmediate vie = some { vie with
      numProcessed := vie.numProcessed + imm.length
      immBytes := imm.length
      immediate := if imm = [] then 0 else signedValue imm.length imm } := by
  simp only [decodeImmediate, length]
  cases imm with
  | nil => simp only [length_nil, ↓reduceIte, Nat.add_zero, ← zero]
  | cons x imm =>
    have filled : At { vie with immBytes := (x :: imm).length } ((x :: imm) ++ rest) :=
      at_of_same at_ rfl rfl
    have some_ : (x :: imm).length ≠ 0 := Nat.succ_ne_zero _
    rw [if_neg some_]
    simp only [take_bytes_at _ filled, bind_eq_bind, bind_some, reduceCtorEq,
      ↓reduceIte, advanced]

theorem moffset_stage {vie : Vie} {moffset rest : List (BitVec 8)}
    (at_ : At vie (moffset ++ rest))
    (length : moffset.length = if vie.op.moffset then vie.addrsize else 0) :
    decodeMoffset vie = some { vie with
      numProcessed := vie.numProcessed + moffset.length
      displacement := if vie.op.moffset then leValue moffset else vie.displacement } := by
  unfold decodeMoffset
  cases wanted : vie.op.moffset with
  | true =>
    rw [wanted, if_pos rfl] at length
    simp only [↓reduceIte, ← length, take_bytes_at _ at_, bind_eq_bind, bind_some,
      advanced]
  | false =>
    rw [wanted, if_neg Bool.false_ne_true] at length
    simp only [Bool.false_eq_true, ↓reduceIte, length, Nat.add_zero]

def operandStage (mode : CpuMode) (csD : Bool) (i : Instr) (inst : List (BitVec 8)) : Vie :=
  match i.modrm with
  | some m => operandNoted mode m (afterHead mode csD i inst)
  | none => afterHead mode csD i inst

def decodedAs (mode : CpuMode) (csD : Bool) (i : Instr) (inst : List (BitVec 8)) : Vie :=
  { operandStage mode csD i inst with
    numProcessed := i.bytes.length
    immBytes := i.imm.length
    immediate := if i.imm = [] then 0 else signedValue i.imm.length i.imm
    displacement :=
      if i.head.op.moffset then leValue i.moffset
      else (operandStage mode csD i inst).displacement
    decoded := true }

theorem after_head_blank (mode : CpuMode) (csD : Bool) (i : Instr) (inst : List (BitVec 8)) :
    Blank (afterHead mode csD i inst) :=
  ⟨rfl, rfl, rfl, rfl, rfl, rfl, rfl⟩

theorem at_after_head {mode : CpuMode} {csD : Bool} (i : Instr) (rest : List (BitVec 8)) :
    At (afterHead mode csD i (i.prefixes.map Prefix.byte ++ (i.head.bytes ++ rest))) rest := by
  refine at_behind (i.prefixes.map Prefix.byte ++ i.head.bytes) ?_ ?_
  · exact (List.append_assoc ..).symm
  · rw [length_append, length_map]
    rfl

theorem operand_stage {mode : CpuMode} {csD : Bool} {i : Instr} (spelled : OperandSpelled mode i)
    {inst rest : List (BitVec 8)}
    (at_ : At (afterHead mode csD i inst) (modrmBytes i.modrm ++ rest)) :
    (decodeModrm (afterHead mode csD i inst) mode).bind
        (fun vie => (decodeSib vie).bind decodeDisplacement) =
      some (operandStage mode csD i inst) ∧ At (operandStage mode csD i inst) rest := by
  have blank := after_head_blank mode csD i inst
  have flag := spelled.modrm
  unfold operandStage
  cases modrm : i.modrm with
  | some m =>
    rw [modrm] at at_ flag
    have wanted : (afterHead mode csD i inst).op.noModrm = false := by
      cases same : i.head.op.noModrm with
      | false => exact same
      | true => exact absurd (flag.mp same) (some_ne_none m)
    obtain ⟨protected_, form⟩ := spelled.form m modrm
    refine ⟨operand_decoded at_ blank wanted protected_ form, ?_⟩
    have moved := at_advanced at_
    have kept : (sibStage m (modrmNoted mode m (afterHead mode csD i inst))).inst =
        (afterHead mode csD i inst).inst := by
      unfold sibStage
      cases m.sib <;> rfl
    exact at_of_same moved kept rfl
  | none =>
    rw [modrm] at at_ flag
    exact ⟨operand_absent blank (flag.mpr rfl), at_⟩

theorem sib_stage_kept (m : Modrm) (vie : Vie) :
    (sibStage m vie).op = vie.op ∧ (sibStage m vie).addrsize = vie.addrsize ∧
      (sibStage m vie).opsize = vie.opsize ∧ (sibStage m vie).immBytes = vie.immBytes ∧
      (sibStage m vie).immediate = vie.immediate := by
  unfold sibStage
  split <;> exact ⟨rfl, rfl, rfl, rfl, rfl⟩

theorem behind_vex (spelled : OperandSpelled mode i) (vex : i.head.vex.isSome = true)
    (rest : List (BitVec 8)) : modrmBytes i.modrm ++ rest ≠ [] := by
  have flag := spelled.modrm
  cases head : i.head with
  | oneByte rex opcode => simp [head, Head.vex] at vex
  | twoByte rex opcode => simp [head, Head.vex] at vex
  | vex0f38 v opcode =>
    rw [head, Head.op, (three_byte_entry opcode).1] at flag
    cases modrm : i.modrm with
    | none => exact absurd (flag.mpr modrm) Bool.false_ne_true
    | some m => simp [modrmBytes, Modrm.bytes]

theorem operand_stage_kept (mode : CpuMode) (csD : Bool) (i : Instr) (inst : List (BitVec 8)) :
    (operandStage mode csD i inst).op = i.head.op ∧
      (operandStage mode csD i inst).addrsize = i.addrSize mode csD ∧
      (operandStage mode csD i inst).opsize = i.opSize mode csD ∧
      (operandStage mode csD i inst).immBytes = 0 ∧
      (operandStage mode csD i inst).immediate = 0 := by
  unfold operandStage
  split
  · rename_i m _
    exact sib_stage_kept m (modrmNoted mode m (afterHead mode csD i inst))
  · exact ⟨rfl, rfl, rfl, rfl, rfl⟩

theorem operand_stage_moved (mode : CpuMode) (csD : Bool) (i : Instr) (inst : List (BitVec 8)) :
    (operandStage mode csD i inst).numProcessed + i.imm.length + i.moffset.length =
      i.bytes.length := by
  have length : i.bytes.length = i.prefixes.length + (i.head.bytes.length +
      ((modrmBytes i.modrm).length + (i.imm.length + i.moffset.length))) := by
    simp only [Instr.bytes, length_append, length_map]
  rw [length]
  unfold operandStage
  cases i.modrm with
  | none =>
    simp only [afterHead, modrmBytes, length_nil]
    omega
  | some m =>
    simp only [operandNoted, afterHead, modrmBytes]
    omega

theorem decode_stages (mode : CpuMode) (csD : Bool) (vie : Vie) :
    vmmDecodeInstruction mode csD vie =
      ((((decodePrefixes vie mode csD).bind decodeOpcode).bind fun vie =>
        (decodeModrm vie mode).bind fun vie => (decodeSib vie).bind decodeDisplacement).bind
          decodeImmediate).bind fun vie =>
            (decodeMoffset vie).bind fun vie => some { vie with decoded := true } := by
  simp only [vmmDecodeInstruction, bind_eq_bind, bind_assoc]

theorem decode_spelled (spelled : Spelled mode csD i) (rest : List (BitVec 8)) :
    vmmDecodeInstruction mode csD (vieInit (i.bytes ++ rest)) =
      some (decodedAs mode csD i (i.bytes ++ rest)) := by
  have split : i.bytes ++ rest = i.prefixes.map Prefix.byte ++ (i.head.bytes ++
      (modrmBytes i.modrm ++ (i.imm ++ (i.moffset ++ rest)))) := by
    simp only [Instr.bytes, List.append_assoc]
  have head := @head_decoded mode csD i spelled.head _
    (fun vex => behind_vex spelled.operand vex (i.imm ++ (i.moffset ++ rest)))
  rw [← split] at head
  have at_ := @at_after_head mode csD i (modrmBytes i.modrm ++ (i.imm ++ (i.moffset ++ rest)))
  rw [← split] at at_
  obtain ⟨operand, after⟩ := operand_stage spelled.operand at_
  obtain ⟨op, addrsize, opsize, fresh, zero⟩ :=
    operand_stage_kept mode csD i (i.bytes ++ rest)
  have sized : immSize (operandStage mode csD i (i.bytes ++ rest)) = i.imm.length := by
    rw [spelled.imm, immSize, op, opsize, fresh]
  have imm := immediate_stage after sized zero
  have behind := at_advanced after
  have moffset := @moffset_stage { operandStage mode csD i (i.bytes ++ rest) with
      numProcessed := (operandStage mode csD i (i.bytes ++ rest)).numProcessed + i.imm.length
      immBytes := i.imm.length
      immediate := if i.imm = [] then 0 else signedValue i.imm.length i.imm } i.moffset rest
    (at_of_same behind rfl rfl) (by rw [spelled.moffset, op, addrsize])
  rw [decode_stages, head, bind_some, operand, bind_some, imm, bind_some,
    moffset, bind_some, decodedAs, ← operand_stage_moved mode csD i (i.bytes ++ rest), op]

def Instr.operand32 (mode : CpuMode) (i : Instr) : Operand :=
  match i.modrm with
  | some m => m.operand32 mode i.head.rex
  | none => { noOperand with displacement := leValue i.moffset }

theorem moffset_plain (h : Head) : h.op.moffset = true → h.op.noModrm = true := by
  intro offset
  cases h with
  | oneByte rex opcode =>
    obtain ⟨plain, direct⟩ := one_byte_operand opcode
    simp only [Head.op, direct, decide_eq_true_eq, mem_cons, not_mem_nil, or_false]
      at offset
    simp only [Head.op, plain, decide_eq_true_eq, mem_cons]
    exact offset.imp_right .inl
  | twoByte rex opcode => exact absurd ((two_byte_entry opcode).2.1.symm.trans offset) (by simp)
  | vex0f38 v opcode => exact absurd ((three_byte_entry opcode).2.1.symm.trans offset) (by simp)

theorem operand_noted_reading (mode : CpuMode) (csD : Bool) (i : Instr) (m : Modrm)
    (inst : List (BitVec 8)) : (operandNoted mode m (afterHead mode csD i inst)).baseRegister =
        baseRegister mode i.head.rex m ∧
      (operandNoted mode m (afterHead mode csD i inst)).indexRegister =
        (m.operand32 mode i.head.rex).index ∧
      (operandNoted mode m (afterHead mode csD i inst)).scale =
        (m.operand32 mode i.head.rex).scale := by
  unfold operandNoted sibStage Modrm.operand32 baseRegister
  cases same : m.sib with
  | some s =>
    simp only [sibNoted, modrmNoted, same, isSome_some, ↓reduceIte, map_some,
      getD_some]
    exact ⟨rfl, rfl, rfl⟩
  | none =>
    simp only [modrmNoted, same, isSome_none, Bool.false_eq_true, ↓reduceIte,
      map_none, getD_none, baseRegister]
    exact ⟨rfl, rfl, rfl⟩

theorem decoded_reading (spelled : Spelled mode csD i) (inst : List (BitVec 8)) :
    readingOf (decodedAs mode csD i inst) =
      { i.reading mode csD with operand := i.operand32 mode } := by
  have segment : (if (lastSegment i.prefixes).isSome = true then
        some (((lastSegment i.prefixes).map Segment.name).getD .last) else none) =
      (lastSegment i.prefixes).map Segment.name := by
    cases lastSegment i.prefixes <;> rfl
  have flag := spelled.operand.modrm
  cases modrm : i.modrm with
  | none =>
    have disp : (if i.head.op.moffset = true then leValue i.moffset else 0) =
        leValue i.moffset := by
      cases wanted : i.head.op.moffset with
      | true => rfl
      | false =>
        have empty : i.moffset = [] := by
          rw [← length_eq_zero_iff, spelled.moffset, wanted]
          rfl
        rw [empty]
        rfl
    simp only [readingOf, decodedAs, operandStage, modrm, Instr.reading, Instr.operand32,
      noOperand]
    simp only [afterHead, vieInit, disp]
    congr 1
  | some m =>
    obtain ⟨base, index, scale⟩ := operand_noted_reading mode csD i m inst
    have unwanted : i.head.op.moffset = false := by
      cases wanted : i.head.op.moffset with
      | false => rfl
      | true =>
        have absent := flag.mp (moffset_plain i.head wanted)
        rw [modrm] at absent
        exact absurd absent (some_ne_none m)
    simp only [readingOf, decodedAs, operandStage, modrm, Instr.reading, Instr.operand32, base,
      index, scale, unwanted]
    unfold operandNoted sibStage
    cases m.sib <;> exact congrArg (fun s => Reading.mk _ _ _ s _ _ _ _ _) segment

def named : OpType → List Mnemonic
  | .none => []
  | .mov => [.mov]
  | .movsx => [.movsx]
  | .movzx => [.movzx]
  | .and => [.and]
  | .or => [.or]
  | .sub => [.sub]
  | .twoByte => []
  | .push => [.push]
  | .cmp => [.cmp]
  | .pop => [.pop]
  | .movs => [.movs]
  | .group1 => [.add, .or, .adc, .sbb, .and, .sub, .xor, .cmp]
  | .stos => [.stos]
  | .bittest => [.bt, .bts, .btr, .btc]
  | .twobGrp15 => [.fxsave, .fxrstor, .ldmxcsr, .stmxcsr, .xsave, .xrstor, .xsaveopt, .clflush,
      .clflushopt, .clwb, .ptwrite, .clrssbsy]
  | .add => [.add]
  | .test => [.test]
  | .bextr => [.bextr]

def Instr.Supported (i : Instr) : Prop := ∃ m ∈ i.mnemonic, m ∈ named i.head.op.opType

theorem head_plain (h : Head) : h.op.noModrm = h.plain := by
  cases h with
  | oneByte rex opcode => exact (one_byte_operand opcode).1
  | twoByte rex opcode => exact (two_byte_entry opcode).1
  | vex0f38 v opcode => exact (three_byte_entry opcode).1

theorem op_size_cases (mode : CpuMode) (csD : Bool) (i : Instr) :
    i.opSize mode csD = 2 ∨ i.opSize mode csD = 4 ∨ i.opSize mode csD = 8 := by
  simp only [Instr.opSize]
  split
  · split
    · exact .inr (.inr rfl)
    · split
      · exact .inl rfl
      · exact .inr (.inl rfl)
  · split
    · exact .inl rfl
    · exact .inr (.inl rfl)

theorem word_immediate_eq (mode : CpuMode) (csD : Bool) (i : Instr) :
    wordImmediate (i.opSize mode csD) =
      if i.opSize mode csD = 4 ∨ i.opSize mode csD = 8 then 4 else 2 := by
  obtain two | four | eight := op_size_cases mode csD i
  · rw [two]
    rfl
  · rw [four]
    rfl
  · rw [eight]
    rfl

theorem one_byte_immediate : ∀ x : BitVec 8,
    (x ∈ [0x80, 0x83, 0xc6] ∧ (oneByteOpcodes x).imm = false ∧ (oneByteOpcodes x).imm8 = true) ∨
      (x ∉ [0x80, 0x83, 0xc6] ∧ x ∈ [0x81, 0xc7, 0xf7] ∧ (oneByteOpcodes x).imm = true) ∨
      (x ∉ [0x80, 0x83, 0xc6] ∧ x ∉ [0x81, 0xc7, 0xf7] ∧ (oneByteOpcodes x).imm = false ∧
        (oneByteOpcodes x).imm8 = false) := by
  decide +kernel

theorem supported_immediate (test : i.head.op.opType = .test → group3 i.extension = .test) :
    i.immLength mode csD =
      if i.head.op.imm then (if i.opSize mode csD = 4 ∨ i.opSize mode csD = 8 then 4 else 2)
      else if i.head.op.imm8 then 1 else 0 := by
  rw [← word_immediate_eq, Instr.immLength]
  cases head : i.head with
  | oneByte rex opcode =>
    rw [head] at test
    simp only [Head.op] at test ⊢
    obtain ⟨byte, no_imm, imm8⟩ | ⟨other, word, imm⟩ | ⟨other, none_, no_imm, no_imm8⟩ :=
      one_byte_immediate opcode
    · simp only [if_pos byte, no_imm, imm8, Bool.false_eq_true, ↓reduceIte]
    · have sized : opcode ∈ [0x81, 0xc7] ∨ (opcode = 0xf7 ∧ group3 i.extension = .test) := by
        simp only [mem_cons, not_mem_nil, or_false] at word ⊢
        obtain first | second | third := word
        · exact .inl (.inl first)
        · exact .inl (.inr second)
        · exact .inr ⟨third, test (by rw [third]; rfl)⟩
      simp only [if_neg other, if_pos sized, imm, ↓reduceIte]
    · have unsized : ¬ (opcode ∈ [0x81, 0xc7] ∨ (opcode = 0xf7 ∧ group3 i.extension = .test)) := by
        simp only [mem_cons, not_mem_nil, or_false] at none_ ⊢
        rintro (first | ⟨third, -⟩)
        · exact none_ (first.elim .inl fun second => .inr (.inl second))
        · exact none_ (.inr (.inr third))
      simp only [if_neg other, if_neg unsized, no_imm, no_imm8, Bool.false_eq_true, ↓reduceIte]
  | twoByte rex opcode =>
    have imm8 : ∀ x : BitVec 8, (twoByteOpcodes x).imm8 = decide (x = 0xba) := by decide
    obtain ⟨-, -, no_imm, -⟩ := two_byte_entry opcode
    simp only [Head.op, no_imm, imm8 opcode, Bool.false_eq_true, ↓reduceIte, decide_eq_true_eq]
  | vex0f38 v opcode =>
    obtain ⟨-, -, no_imm, no_imm8, -⟩ := three_byte_entry opcode
    simp only [Head.op, no_imm, no_imm8, Bool.false_eq_true, ↓reduceIte]

theorem moffset_length_eq (mode : CpuMode) (csD : Bool) (i : Instr) :
    i.moffsetLength mode csD = if i.head.op.moffset then i.addrSize mode csD else 0 := by
  rw [Instr.moffsetLength]
  cases head : i.head with
  | oneByte rex opcode => simp only [Head.op, (one_byte_operand opcode).2, decide_eq_true_eq]
  | twoByte rex opcode =>
    simp only [Head.op, (two_byte_entry opcode).2.1, Bool.false_eq_true, ↓reduceIte]
  | vex0f38 v opcode =>
    simp only [Head.op, (three_byte_entry opcode).2.1, Bool.false_eq_true, ↓reduceIte]

theorem test_opcode (group : i.head.op.opType = .test) : ∃ rex, i.head = .oneByte rex 0xf7 := by
  cases head : i.head with
  | oneByte rex x =>
    rw [head] at group
    exact ⟨rex, by rw [(one_byte_groups x).1 group]⟩
  | twoByte rex x =>
    rw [head] at group
    obtain ⟨-, -, -, other, -⟩ := two_byte_entry x
    exact absurd group other
  | vex0f38 v x =>
    rw [head] at group
    obtain ⟨-, -, -, -, other, -⟩ := three_byte_entry x
    exact absurd group other

theorem supported_named (supported : i.Supported) :
    i.head.op.opType ≠ .none ∧ i.head.op.opType ≠ .twoByte ∧
      (i.head.op.opType = .test → group3 i.extension = .test) := by
  obtain ⟨m, mnemonic, listed⟩ := supported
  refine ⟨?_, ?_, ?_⟩
  · intro none_
    rw [none_] at listed
    exact absurd listed not_mem_nil
  · intro two
    rw [two] at listed
    exact absurd listed not_mem_nil
  · intro test
    obtain ⟨rex, head⟩ := test_opcode test
    rw [test, named, mem_singleton] at listed
    rw [listed, Instr.mnemonic, head] at mnemonic
    exact Option.some.inj mnemonic

theorem spelled_of_legal (legal : Legal mode csD i) (supported : i.Supported)
    (unlocked : Prefix.lock ∉ i.prefixes)
    (long : i.head.vex.isSome = true → mode = .bits64 ∨ mode = .compatibility)
    (wide : i.modrm ≠ none → mode ≠ .real ∧ i.addrSize mode csD ≠ 2) : Spelled mode csD i := by
  obtain ⟨known, whole, test⟩ := supported_named supported
  refine ⟨⟨known, whole, unlocked, legal.rex, long⟩, ⟨?_, ?_⟩, ?_, ?_⟩
  · rw [head_plain]
    exact legal.modrm
  · intro m present
    have some_ : i.modrm ≠ none := by
      rw [Option.mem_def.mp present]
      exact some_ne_none m
    obtain ⟨protected_, narrow⟩ := wide some_
    have form := legal.form m present
    rw [if_neg narrow] at form
    exact ⟨protected_, form⟩
  · rw [legal.imm, supported_immediate test]
  · rw [legal.moffset, moffset_length_eq]

theorem reading_wide (wide : i.modrm ≠ none → mode ≠ .real ∧ i.addrSize mode csD ≠ 2) :
    i.operand32 mode = i.operand mode csD := by
  unfold Instr.operand32 Instr.operand
  cases modrm : i.modrm with
  | none => rfl
  | some m =>
    have narrow := (wide (by rw [modrm]; exact some_ne_none m)).2
    simp only [if_neg narrow]

theorem decoded_bytes_kept (mode : CpuMode) (csD : Bool) (i : Instr) (inst : List (BitVec 8)) :
    decodedAs mode csD i inst = { decodedAs mode csD i [] with inst := inst } := by
  unfold decodedAs operandStage operandNoted sibStage
  cases i.modrm with
  | none => rfl
  | some m =>
    obtain ⟨mod, reg, rm, sib, disp⟩ := m
    cases sib <;> rfl

theorem legal_instruction_decoded {mode : CpuMode} {csD : Bool} {i : Instr}
    (legal : Legal mode csD i) (supported : i.Supported) (unlocked : Prefix.lock ∉ i.prefixes)
    (long : i.head.vex.isSome = true → mode = .bits64 ∨ mode = .compatibility)
    (wide : i.modrm ≠ none → mode ≠ .real ∧ i.addrSize mode csD ≠ 2) :
    ∃ vie, readingOf vie = i.reading mode csD ∧ ∀ rest,
      vmmDecodeInstruction mode csD (vieInit (i.bytes ++ rest)) =
        some { vie with inst := i.bytes ++ rest } := by
  have spelled := spelled_of_legal legal supported unlocked long wide
  refine ⟨decodedAs mode csD i [], ?_, fun rest => ?_⟩
  · rw [decoded_reading spelled, reading_wide wide]
    rfl
  · rw [decode_spelled spelled, decoded_bytes_kept]

theorem legal_instruction_decoded_store :
    ∃ vie, readingOf vie =
        ⟨oneByteOpcodes 0xc7, 8, 8, some .fs, 0, 0, ⟨.r13, .rcx, 4, -4⟩, 0x12345678, 10⟩ ∧
      ∀ rest, vmmDecodeInstruction .bits64 true (vieInit
          ([0x64, 0x49, 0xc7, 0x44, 0x8d, 0xfc, 0x78, 0x56, 0x34, 0x12] ++ rest)) =
        some { vie with
          inst := [0x64, 0x49, 0xc7, 0x44, 0x8d, 0xfc, 0x78, 0x56, 0x34, 0x12] ++ rest } := by
  have legal : Legal .bits64 true ⟨[.segment .fs], .oneByte (some ⟨true, false, false, true⟩) 0xc7,
      some ⟨1, 0, 4, some ⟨2, 1, 5⟩, [0xfc]⟩, [0x78, 0x56, 0x34, 0x12], []⟩ := by
    refine ⟨by decide, fun _ => rfl, by simp [Head.vex], by decide, by decide, ?_, by decide,
      by decide, by decide⟩
    intro m present
    obtain rfl := Option.some.inj present
    exact ⟨by decide, by decide, by decide⟩
  exact legal_instruction_decoded legal ⟨.mov, rfl, by decide⟩ (by decide) (by decide) (by decide)

theorem lock_and_vex_not_decoded :
    (∃ i, Legal .protectedMode true i ∧ i.Supported ∧ i.bytes = [0xf0, 0x83, 0x08, 0x01] ∧
      vmmDecodeInstruction .protectedMode true (vieInit i.bytes) = none) ∧
    ∃ i, Legal .protectedMode true i ∧ i.Supported ∧ i.bytes = [0xc4, 0xe2, 0x68, 0xf7, 0x01] ∧
      vmmDecodeInstruction .protectedMode true (vieInit i.bytes) = none := by
  refine ⟨⟨⟨[.lock], .oneByte none 0x83, some ⟨0, 1, 0, none, []⟩, [0x01], []⟩, ?_,
    ⟨.or, rfl, by decide⟩, by decide, ?_⟩,
    ⟨⟨[], .vex0f38 ⟨false, false, false, false, 2, false, 0⟩ 0xf7, some ⟨0, 0, 1, none, []⟩, [], []⟩,
      ?_, ⟨.bextr, rfl, by decide⟩, by decide, ?_⟩⟩
  · refine ⟨by decide, by decide, by simp [Head.vex], by decide, by decide, ?_, by decide,
      by decide, by decide⟩
    intro m present
    obtain rfl := Option.some.inj present
    exact ⟨by decide, by decide, by decide⟩
  · rfl
  · refine ⟨by decide, by decide, ?_, by decide, by decide, ?_, by decide, by decide, by decide⟩
    · intro v present
      obtain rfl := Option.some.inj present
      exact ⟨by decide, by decide, rfl, by decide⟩
    · intro m present
      obtain rfl := Option.some.inj present
      exact ⟨by decide, by decide, by decide⟩
  · rfl

end VmmEncoding
