import Bhyve.Vmm.Soundness

/-!
The decoder and the emulation behind it, which tell the instructions that share an opcode byte
apart by different parts of the encoding.
-/
namespace VmmEncoding
open VmmDecoder List

/-- What the decoder accepts is a legal encoding of the instruction that is then carried out,
    or refused with EINVAL. -/
def Faithful (mode : CpuMode) (csD : Bool) (inst : List (BitVec 8)) : Prop :=
  ∀ vie, vmmDecodeInstruction mode csD (vieInit inst) = some vie →
    ∃ i, Legal mode csD i ∧ i.bytes = inst.take vie.numProcessed ∧
      readingOf vie = i.reading mode csD ∧
      (vmmEmulateInstruction vie = [] ∨ ∃ m ∈ i.mnemonic, m ∈ vmmEmulateInstruction vie)

/-- The condition: no ModRM with 16-bit addressing; VEX without mandatory prefix of either
    kind, with L clear and, outside 64-bit mode, the extension bits clear; and an opcode
    extension to which the manual gives an instruction, TEST in group 3. -/
structure Sound (mode : CpuMode) (csD : Bool) (i : Instr) : Prop where
  wide : i.modrm ≠ none → i.addrSize mode csD ≠ 2
  vex : ∀ v ∈ i.head.vex, VexLegal mode i.prefixes v ∧ v.pp = 0
  known : i.mnemonic ≠ none
  test : i.head.op.opType = .test → group3 i.extension = .test

theorem prefix_byte_injective : ∀ {p q : Prefix}, p.byte = q.byte → p = q := by
  intro p q
  cases p with
  | segment s => cases q with
    | segment t => cases s <;> cases t <;> decide
    | _ => cases s <;> decide
  | _ => cases q with
    | segment t => cases t <;> decide
    | _ => decide

def HeadByte (x : BitVec 8) : Prop := endsPrefixes x = true ∧ x ≠ 0xf0

theorem prefix_not_head (p : Prefix) : ¬ HeadByte p.byte := by
  unfold HeadByte
  cases p with
  | segment s => cases s <;> decide
  | _ => decide

theorem prefixes_unique (ps qs : List Prefix) : ∀ {x y : BitVec 8} {r s : List (BitVec 8)},
    HeadByte x → HeadByte y →
      ps.map Prefix.byte ++ x :: r = qs.map Prefix.byte ++ y :: s → ps = qs ∧ x :: r = y :: s := by
  induction ps generalizing qs with
  | nil =>
    intro x y r s first second same
    cases qs with
    | nil => exact ⟨rfl, same⟩
    | cons q qs =>
      obtain ⟨rfl, -⟩ := List.cons.inj same
      exact absurd first (prefix_not_head q)
  | cons p ps ih =>
    intro x y r s first second same
    cases qs with
    | nil =>
      obtain ⟨rfl, -⟩ := List.cons.inj same
      exact absurd second (prefix_not_head p)
    | cons q qs =>
      obtain ⟨byte, others⟩ := List.cons.inj same
      obtain ⟨rfl, rest⟩ := ih qs first second others
      exact ⟨by rw [prefix_byte_injective byte], rest⟩

theorem rex_byte_injective : ∀ {a b : Rex}, a.byte = b.byte → a = b := by
  have all : ∀ w r x b w' r' x' b' : Bool, (Rex.mk w r x b).byte = (Rex.mk w' r' x' b').byte →
      Rex.mk w r x b = Rex.mk w' r' x' b' := by decide
  exact fun {a b} same => all a.w a.r a.x a.b b.w b.r b.x b.b same

theorem rex_unique {a b : Option Rex} {x y : BitVec 8} {r s : List (BitVec 8)}
    (first : ¬ (0x40 ≤ x.toNat ∧ x.toNat ≤ 0x4f)) (second : ¬ (0x40 ≤ y.toNat ∧ y.toNat ≤ 0x4f))
    (same : rexBytes a ++ x :: r = rexBytes b ++ y :: s) : a = b ∧ x = y ∧ r = s := by
  cases a with
  | none =>
    cases b with
    | none => exact ⟨rfl, List.cons.inj same⟩
    | some b =>
      obtain ⟨rfl, -⟩ := List.cons.inj same
      exact absurd (rex_byte_bounds b).2.1 first
  | some a =>
    cases b with
    | none =>
      obtain ⟨rfl, -⟩ := List.cons.inj same
      exact absurd (rex_byte_bounds a).2.1 second
    | some b =>
      obtain ⟨byte, others⟩ := List.cons.inj same
      exact ⟨by rw [rex_byte_injective byte], List.cons.inj others⟩

theorem vex_bytes_injective {v w : Vex} (second : v.second = w.second) (third : v.third = w.third) :
    v = w := by
  obtain ⟨r, x, b, -⟩ := vex_second_fields v
  obtain ⟨r', x', b', -⟩ := vex_second_fields w
  obtain ⟨w_, reg, l, pp⟩ := vex_third_fields v
  obtain ⟨w_', reg', l', pp'⟩ := vex_third_fields w
  rw [second] at r x b
  rw [third] at w_ reg l pp
  obtain ⟨vw, vr, vx, vb, vreg, vl, vpp⟩ := v
  simp only at r x b r' x' b' w_ reg l pp w_' reg' l' pp'
  rw [← r, ← x, ← b, ← w_, ← reg, ← l, ← pp, r', x', b', w_', reg', l', pp']

def Head.Known (h : Head) : Prop := h.op.opType ≠ .none ∧ h.op.opType ≠ .twoByte

theorem known_one_byte {opcode : BitVec 8} {rex : Option Rex}
    (known : (Head.oneByte rex opcode).Known) :
    ¬ (0x40 ≤ opcode.toNat ∧ opcode.toNat ≤ 0x4f) ∧ opcode ≠ 0xc4 ∧ opcode ≠ 0x0f ∧
      HeadByte opcode := by
  obtain ⟨ends, range, other⟩ := one_byte_opcode_bounds opcode known.1
  refine ⟨range, other, ?_, ends, ?_⟩
  · rintro rfl
    exact known.2 rfl
  · rintro rfl
    exact known.1 rfl

theorem head_unique {g h : Head} {r s : List (BitVec 8)} (known : g.Known) (known' : h.Known)
    (same : g.bytes ++ r = h.bytes ++ s) : g = h ∧ r = s := by
  have escape : ¬ (0x40 ≤ (0x0f : BitVec 8).toNat ∧ (0x0f : BitVec 8).toNat ≤ 0x4f) := by decide
  have lead : ¬ (0x40 ≤ (0xc4 : BitVec 8).toNat ∧ (0xc4 : BitVec 8).toNat ≤ 0x4f) := by decide
  cases g with
  | oneByte a x =>
    obtain ⟨range, other, single, -⟩ := known_one_byte known
    rw [Head.bytes, List.append_assoc, singleton_append] at same
    cases h with
    | oneByte b y =>
      rw [Head.bytes, List.append_assoc, singleton_append] at same
      obtain ⟨rfl, rfl, rfl⟩ := rex_unique range (known_one_byte known').1 same
      exact ⟨rfl, rfl⟩
    | twoByte b y =>
      rw [Head.bytes, List.append_assoc] at same
      exact absurd (rex_unique range escape same).2.1 single
    | vex0f38 v y => exact absurd (@rex_unique a none x _ r _ range lead same).2.1 other
  | twoByte a x =>
    rw [Head.bytes, List.append_assoc] at same
    cases h with
    | oneByte b y =>
      obtain ⟨range, other, single, -⟩ := known_one_byte known'
      rw [Head.bytes, List.append_assoc, singleton_append] at same
      exact absurd (rex_unique escape range same).2.1.symm single
    | twoByte b y =>
      rw [Head.bytes, List.append_assoc] at same
      obtain ⟨rfl, -, rest⟩ := rex_unique escape escape same
      obtain ⟨rfl, rfl⟩ := List.cons.inj rest
      exact ⟨rfl, rfl⟩
    | vex0f38 v y =>
      exact absurd (@rex_unique a none 0x0f _ (x :: r) _ escape lead same).2.1 (by decide)
  | vex0f38 v x =>
    cases h with
    | oneByte b y =>
      obtain ⟨range, other, -, -⟩ := known_one_byte known'
      rw [Head.bytes, List.append_assoc, singleton_append] at same
      exact absurd (@rex_unique none b _ y _ s lead range same).2.1.symm other
    | twoByte b y =>
      rw [Head.bytes, List.append_assoc] at same
      exact absurd (@rex_unique none b _ 0x0f _ (y :: s) lead escape same).2.1 (by decide)
    | vex0f38 w y =>
      obtain ⟨-, same⟩ := List.cons.inj same
      obtain ⟨second, same⟩ := List.cons.inj same
      obtain ⟨third, same⟩ := List.cons.inj same
      obtain ⟨rfl, rfl⟩ := List.cons.inj same
      rw [vex_bytes_injective second third]
      exact ⟨rfl, rfl⟩

theorem head_first {h : Head} (known : h.Known) : ∃ x rest, h.bytes = x :: rest ∧ HeadByte x := by
  cases h with
  | oneByte rex opcode =>
    cases rex with
    | none => exact ⟨opcode, [], rfl, (known_one_byte known).2.2.2⟩
    | some rex =>
      refine ⟨rex.byte, [opcode], rfl, (rex_byte_bounds rex).1, ?_⟩
      intro same
      have range := (rex_byte_bounds rex).2.1
      rw [same] at range
      exact absurd range (by decide)
  | twoByte rex opcode =>
    cases rex with
    | none => exact ⟨0x0f, [opcode], rfl, by decide, by decide⟩
    | some rex =>
      refine ⟨rex.byte, [0x0f, opcode], rfl, (rex_byte_bounds rex).1, ?_⟩
      intro same
      have range := (rex_byte_bounds rex).2.1
      rw [same] at range
      exact absurd range (by decide)
  | vex0f38 v opcode => exact ⟨0xc4, [v.second, v.third, opcode], rfl, by decide, by decide⟩

variable {i j : Instr} {m n : Modrm} {mode : CpuMode} {csD : Bool}

theorem spelling_unique (known : i.head.Known) (known' : j.head.Known) (same : i.bytes = j.bytes) :
    i.prefixes = j.prefixes ∧ i.head = j.head ∧
      modrmBytes i.modrm ++ (i.imm ++ i.moffset) = modrmBytes j.modrm ++ (j.imm ++ j.moffset) := by
  obtain ⟨x, r, first, start⟩ := head_first known
  obtain ⟨y, s, first', start'⟩ := head_first known'
  rw [Instr.bytes, Instr.bytes] at same
  have lists := same
  rw [first, first', List.cons_append, List.cons_append] at lists
  obtain ⟨prefixes, rest⟩ := prefixes_unique i.prefixes j.prefixes start start' lists
  rw [prefixes] at same
  obtain ⟨head, rest⟩ := head_unique known known' (append_cancel_left same)
  exact ⟨prefixes, head, rest⟩

theorem modrm_byte_unique (same : m.byte = n.byte) :
    m.mod = n.mod ∧ m.reg = n.reg ∧ m.rm = n.rm := by
  obtain ⟨mod, reg, rm⟩ := modrm_byte_fields m
  obtain ⟨mod', reg', rm'⟩ := modrm_byte_fields n
  rw [same] at mod reg rm
  exact ⟨mod.symm.trans mod', reg.symm.trans reg', rm.symm.trans rm'⟩

theorem sib_byte_unique {s t : Sib} (same : s.byte = t.byte) : s = t := by
  obtain ⟨ss, index, base⟩ := sib_byte_fields s
  obtain ⟨ss', index', base'⟩ := sib_byte_fields t
  rw [same] at ss index base
  obtain ⟨a, b, c⟩ := s
  simp only at ss index base ss' index' base'
  rw [← ss, ← index, ← base, ss', index', base']

theorem modrm_unique {r s : List (BitVec 8)} (form : m.Form32) (form' : n.Form32)
    (same : m.bytes ++ r = n.bytes ++ s) : m = n ∧ r = s := by
  rw [Modrm.bytes, Modrm.bytes, List.cons_append, List.cons_append, List.append_assoc,
    List.append_assoc] at same
  obtain ⟨byte, rest⟩ := List.cons.inj same
  obtain ⟨mod, reg, rm⟩ := modrm_byte_unique byte
  obtain ⟨-, escape, length⟩ := form
  obtain ⟨-, escape', length'⟩ := form'
  rw [rm] at escape
  have present : m.sib.isSome = n.sib.isSome :=
    Bool.eq_iff_iff.mpr (escape.trans escape'.symm)
  have sib : m.sib = n.sib ∧ m.disp ++ r = n.disp ++ s := by
    cases first : m.sib with
    | none =>
      cases second : n.sib with
      | none =>
        rw [first, second] at rest
        exact ⟨rfl, rest⟩
      | some t =>
        rw [first, second] at present
        cases present
    | some u =>
      cases second : n.sib with
      | none =>
        rw [first, second] at present
        cases present
      | some t =>
        rw [first, second] at rest
        obtain ⟨sib, disp⟩ := List.cons.inj rest
        exact ⟨by rw [sib_byte_unique sib], disp⟩
  have lengths : m.disp.length = n.disp.length := by
    rw [length, length', Modrm.dispLength, Modrm.dispLength, mod, rm, sib.1]
  obtain ⟨disp, behind⟩ := append_inj sib.2 lengths
  refine ⟨?_, behind⟩
  obtain ⟨a', b', c', d', e'⟩ := n
  obtain rfl := mod
  obtain rfl := reg
  obtain rfl := rm
  obtain rfl := sib.1
  obtain rfl := disp
  rfl

def oneByteList : List (BitVec 8) :=
  [0x03, 0x0b, 0x23, 0x2b, 0x39, 0x3b, 0x80, 0x81, 0x83, 0x88, 0x89, 0x8a, 0x8b, 0x8f, 0xa1, 0xa3,
    0xa4, 0xa5, 0xaa, 0xab, 0xc6, 0xc7, 0xf7, 0xff]

def twoByteList : List (BitVec 8) := [0xae, 0xb6, 0xb7, 0xba, 0xbe]

theorem one_byte_listed {x : BitVec 8} {ext : BitVec 3} (named_ : oneByteMnemonic x ext ≠ none) :
    x ∈ oneByteList := by
  unfold oneByteMnemonic at named_
  split at named_
  all_goals first | decide | exact absurd rfl named_

theorem two_byte_listed {x : BitVec 8} {repnz repz opsize : Bool} {ext : BitVec 3}
    (named_ : twoByteMnemonic repnz repz opsize x ext ≠ none) : x ∈ twoByteList := by
  unfold twoByteMnemonic at named_
  split at named_
  all_goals first | decide | exact absurd rfl named_

theorem known_of_mnemonic (named_ : i.mnemonic ≠ none) : i.head.Known := by
  have one : ∀ x ∈ oneByteList,
      (oneByteOpcodes x).opType ≠ .none ∧ (oneByteOpcodes x).opType ≠ .twoByte := by
    decide +kernel
  have two : ∀ x ∈ twoByteList,
      (twoByteOpcodes x).opType ≠ .none ∧ (twoByteOpcodes x).opType ≠ .twoByte := by
    decide +kernel
  rw [Instr.mnemonic] at named_
  cases head : i.head with
  | oneByte rex x =>
    rw [head] at named_
    exact one x (one_byte_listed named_)
  | twoByte rex x =>
    rw [head] at named_
    exact two x (two_byte_listed named_)
  | vex0f38 v x =>
    rw [head] at named_
    by_cases same : x = 0xf7
    · rw [same]
      exact ⟨(by rintro ⟨⟩), (by rintro ⟨⟩)⟩
    · simp only [if_neg same, ne_eq, not_true_eq_false] at named_

theorem emulated_named (named_ : i.mnemonic ≠ none) (plain : ∀ v ∈ i.head.vex, v.pp = 0) :
    emulateOp i.head.op false i.extension = [] ∨
      ∃ m ∈ i.mnemonic, m ∈ emulateOp i.head.op false i.extension := by
  have one : ∀ x ∈ oneByteList, ∀ ext, oneByteMnemonic x ext ≠ none →
      emulateOp (oneByteOpcodes x) false ext = [] ∨
        ∃ m ∈ oneByteMnemonic x ext, m ∈ emulateOp (oneByteOpcodes x) false ext := by
    decide +kernel
  have two : ∀ x ∈ twoByteList, ∀ (a b c : Bool) (ext : BitVec 3),
      twoByteMnemonic a b c x ext ≠ none →
      emulateOp (twoByteOpcodes x) false ext = [] ∨
        ∃ m ∈ twoByteMnemonic a b c x ext, m ∈ emulateOp (twoByteOpcodes x) false ext := by
    decide +kernel
  rw [Instr.mnemonic] at named_ ⊢
  cases head : i.head with
  | oneByte rex x =>
    rw [head] at named_
    exact one x (one_byte_listed named_) i.extension named_
  | twoByte rex x =>
    rw [head] at named_
    exact two x (two_byte_listed named_) _ _ _ i.extension named_
  | vex0f38 v x =>
    rw [head] at named_ plain
    by_cases same : x = 0xf7
    · simp only [same, ↓reduceIte, plain v rfl]
      exact .inr ⟨.bextr, rfl, List.mem_singleton.mpr rfl⟩
    · simp only [if_neg same, ne_eq, not_true_eq_false] at named_

theorem decoded_emulation (spelled : Spelled mode csD i) (inst : List (BitVec 8)) :
    vmmEmulateInstruction (decodedAs mode csD i inst) =
      emulateOp i.head.op false i.extension := by
  have low : ∀ (b : Bool) (r : BitVec 3), (regNumber b r).extractLsb' 0 3 = r := by decide
  have op : (decodedAs mode csD i inst).op = i.head.op := (operand_stage_kept mode csD i inst).1
  have direct : (decodedAs mode csD i inst).mod ≠ 3 ∧
      (decodedAs mode csD i inst).reg.extractLsb' 0 3 = i.extension := by
    unfold decodedAs operandStage Instr.extension
    cases modrm : i.modrm with
    | none => exact ⟨by simp only [afterHead, vieInit]; decide, rfl⟩
    | some m =>
      have memory := (spelled.operand.form m modrm).2.1
      obtain ⟨mod, reg, rm, sib, disp⟩ := m
      cases sib <;> exact ⟨memory, low _ _⟩
  have done : (decodedAs mode csD i inst).decoded = true := rfl
  rw [vmmEmulateInstruction, if_pos done, op, direct.2, decide_eq_false direct.1]

theorem legal_of_sound (spelled : Spelled mode csD i) (sound : Sound mode csD i)
    (size : i.bytes.length ≤ 15) : Legal mode csD i := by
  refine ⟨sound.known, spelled.head.rex, fun v present => (sound.vex v present).1,
    fun lock => absurd lock spelled.head.free, ?_, ?_, ?_, ?_, size⟩
  · rw [← head_plain]
    exact spelled.operand.modrm
  · intro m present
    have some_ : i.modrm ≠ none := by
      rw [Option.mem_def.mp present]
      exact Option.some_ne_none m
    rw [if_neg (sound.wide some_)]
    exact (spelled.operand.form m present).2
  · rw [supported_immediate sound.test]
    exact spelled.imm
  · rw [moffset_length_eq]
    exact spelled.moffset

theorem sound_is_faithful (spelled : Spelled mode csD i) (sound : Sound mode csD i)
    {rest : List (BitVec 8)} (size : (i.bytes ++ rest).length ≤ 15) :
    Faithful mode csD (i.bytes ++ rest) := by
  intro vie done
  rw [decode_spelled spelled rest, Option.some.injEq] at done
  subst done
  have shorter : i.bytes.length ≤ 15 := by
    rw [length_append] at size
    omega
  have wide : i.modrm ≠ none → mode ≠ .real ∧ i.addrSize mode csD ≠ 2 := by
    intro some_
    obtain ⟨m, modrm⟩ := Option.ne_none_iff_exists'.mp some_
    exact ⟨(spelled.operand.form m modrm).1, sound.wide some_⟩
  refine ⟨i, legal_of_sound spelled sound shorter, List.take_left.symm, ?_, ?_⟩
  · rw [decoded_reading spelled, reading_wide wide]
    rfl
  · rw [decoded_emulation spelled]
    exact emulated_named sound.known fun v present => (sound.vex v present).2

theorem base16_differs {rex : Rex} (mod : m.mod = n.mod) (rm : m.rm = n.rm) (no_sib : n.sib = none)
    (other : n.rm ≠ 4) (low : rex.b = false) (narrow : mode ≠ .bits64) :
    m.operand16.base ≠ baseRegister mode rex n := by
  have all : ∀ (mod : BitVec 2) (rm : BitVec 3), rm ≠ 4 →
      base16 mod rm ≠ if mod = 0 ∧ rm = 5 then .last else gprMap (regNumber false rm) := by decide
  simp only [Modrm.operand16, baseRegister, no_sib, rm, mod, low, if_neg narrow]
  exact all n.mod n.rm other

theorem untested_immediate (group : i.head.op.opType = .test) (other : group3 i.extension ≠ .test) :
    i.immLength mode csD = 0 := by
  obtain ⟨rex, head⟩ := test_opcode group
  simp only [Instr.immLength, head, other, and_false, or_false]
  rfl

theorem imm_length_le (mode : CpuMode) (csD : Bool) (i : Instr) : i.immLength mode csD ≤
      if i.head.op.imm then (if i.opSize mode csD = 4 ∨ i.opSize mode csD = 8 then 4 else 2)
      else if i.head.op.imm8 then 1 else 0 := by
  by_cases test : i.head.op.opType = .test → group3 i.extension = .test
  · exact Nat.le_of_eq (supported_immediate test)
  · obtain ⟨group, other⟩ := Classical.not_imp.mp test
    rw [untested_immediate group other]
    exact Nat.zero_le _

theorem addr_size_congr (prefixes : i.prefixes = j.prefixes) :
    i.addrSize mode csD = j.addrSize mode csD := by
  rw [Instr.addrSize, Instr.addrSize, prefixes]

theorem op_size_congr (prefixes : i.prefixes = j.prefixes) (head : i.head = j.head) :
    i.opSize mode csD = j.opSize mode csD := by
  rw [Instr.opSize, Instr.opSize, Instr.has, Instr.has, prefixes, head]

theorem disp_length_le (mod : m.mod = n.mod) (rm : m.rm = n.rm) (four : n.rm = 4) :
    m.dispLength16 ≤ n.dispLength := by
  simp only [Modrm.dispLength16, Modrm.dispLength, mod, rm, four]
  by_cases byte : n.mod = 1
  · simp only [byte, ↓reduceIte, Nat.le_refl]
  · by_cases word : n.mod = 2
    · rw [if_neg byte, if_neg byte, if_pos word, if_pos word]
      decide
    · simp only [if_neg byte, if_neg word]
      exact Nat.zero_le _

structure SameHead (i j : Instr) : Prop where
  prefixes : i.prefixes = j.prefixes
  head : i.head = j.head
  rest : modrmBytes i.modrm ++ (i.imm ++ i.moffset) = modrmBytes j.modrm ++ (j.imm ++ j.moffset)
  modrm : i.modrm = none ↔ j.modrm = none

theorem same_head (legal : Legal mode csD i) (spelled : Spelled mode csD j)
    (same : i.bytes = j.bytes) : SameHead i j := by
  obtain ⟨prefixes, head, rest⟩ := spelling_unique (known_of_mnemonic legal.known)
    ⟨spelled.head.supported, spelled.head.whole⟩ same
  refine ⟨prefixes, head, rest, ?_⟩
  rw [← legal.modrm, ← spelled.operand.modrm, head, head_plain]

theorem same_first_byte (same : SameHead i j) (first : i.modrm = some m)
    (second : j.modrm = some n) :
    m.byte = n.byte ∧ sibBytes m.sib ++ m.disp ++ (i.imm ++ i.moffset) =
      sibBytes n.sib ++ n.disp ++ (j.imm ++ j.moffset) := by
  have rest := same.rest
  rw [first, second] at rest
  exact List.cons.inj rest

theorem same_extension (same : SameHead i j) : i.extension = j.extension := by
  unfold Instr.extension
  cases first : i.modrm with
  | none => rw [same.modrm.mp first]
  | some m =>
    cases second : j.modrm with
    | none =>
      rw [same.modrm.mpr second] at first
      cases first
    | some n => exact (modrm_byte_unique (same_first_byte same first second).1).2.1

theorem same_mnemonic (same : SameHead i j) : i.mnemonic = j.mnemonic := by
  rw [Instr.mnemonic, Instr.mnemonic, same_extension same, same.head, same.prefixes]

theorem low_base (legal : Legal mode csD i) (narrow : mode ≠ .bits64) : i.head.rex.b = false := by
  have rex := legal.rex
  have vex := legal.vex
  cases head : i.head with
  | oneByte rex_ x =>
    cases rex_ with
    | none => rfl
    | some r => exact absurd (rex (by rw [head]; rfl)) narrow
  | twoByte rex_ x =>
    cases rex_ with
    | none => rfl
    | some r => exact absurd (rex (by rw [head]; rfl)) narrow
  | vex0f38 v x =>
    rw [head] at vex
    exact ((vex v rfl).legacy.resolve_left narrow).2.2.1

theorem immediates_ordered (legal : Legal mode csD i) (spelled : Spelled mode csD j)
    (same : SameHead i j) : i.imm.length ≤ j.imm.length ∧ i.moffset.length = j.moffset.length := by
  constructor
  · have bound := imm_length_le mode csD i
    rw [same.head, op_size_congr same.prefixes same.head] at bound
    rw [legal.imm, spelled.imm]
    exact bound
  · rw [legal.moffset, spelled.moffset, moffset_length_eq, same.head, addr_size_congr same.prefixes]

theorem narrow_misread (legal : Legal mode csD i) (spelled : Spelled mode csD j)
    (same : SameHead i j) (first : i.modrm = some m) (second : j.modrm = some n)
    (narrow : i.addrSize mode csD = 2) : m.operand16.base ≠ baseRegister mode j.head.rex n := by
  have protected_ : mode ≠ .bits64 := by
    rintro rfl
    simp only [Instr.addrSize, ↓reduceIte] at narrow
    split at narrow <;> exact absurd narrow (by decide)
  obtain ⟨byte, rest⟩ := same_first_byte same first second
  obtain ⟨mod, -, rm⟩ := modrm_byte_unique byte
  have form := legal.form m first
  rw [if_pos narrow] at form
  obtain ⟨-, no_sib, disp⟩ := form
  obtain ⟨-, escape, disp'⟩ := (spelled.operand.form n second).2
  have low := low_base legal protected_
  rw [same.head] at low
  by_cases four : n.rm = 4
  · obtain ⟨imm, moffset⟩ := immediates_ordered legal spelled same
    have shorter := disp_length_le mod rm four
    have lengths := congrArg List.length rest
    obtain ⟨s, sib⟩ := Option.isSome_iff_exists.mp (escape.mpr four)
    rw [no_sib, sib] at lengths
    simp only [sibBytes, length_append, length_cons, length_nil, disp, disp']
      at lengths
    omega
  · have absent : n.sib = none := by
      cases sib : n.sib with
      | none => rfl
      | some s => exact absurd (escape.mp (by rw [sib]; rfl)) four
    exact base16_differs mod rm absent four low protected_

theorem vex_is_bextr {v : Vex} (known : i.mnemonic ≠ none) (present : v ∈ i.head.vex)
    (emulated : emulateOp i.head.op false i.extension = [] ∨ ∃ m ∈ i.mnemonic, m ∈ emulateOp i.head.op false i.extension) :
    v.pp = 0 := by
  have only : ∀ pp, vexF7 pp = .bextr → pp = 0 := by decide
  rw [Instr.mnemonic] at known emulated
  cases head : i.head with
  | oneByte rex x =>
    rw [head] at present
    cases present
  | twoByte rex x =>
    rw [head] at present
    cases present
  | vex0f38 w x =>
    rw [head] at present known emulated
    obtain rfl := Option.some.inj present
    by_cases same : x = 0xf7
    · simp only [same, ↓reduceIte] at emulated
      obtain none_ | ⟨m, named_, carried⟩ := emulated
      · cases none_
      · rw [List.mem_singleton.mp carried] at named_
        exact only w.pp (Option.some.inj named_)
    · simp only [if_neg same, ne_eq, not_true_eq_false] at known

theorem sound_of_faithful {mode : CpuMode} {csD : Bool} {j : Instr} (spelled : Spelled mode csD j)
    {rest : List (BitVec 8)} (faithful : Faithful mode csD (j.bytes ++ rest)) :
    Sound mode csD j := by
  obtain ⟨i, legal, bytes, reading, emulated⟩ := faithful _ (decode_spelled spelled rest)
  have taken : (j.bytes ++ rest).take (decodedAs mode csD j (j.bytes ++ rest)).numProcessed =
      j.bytes := take_left
  rw [taken] at bytes
  have same := same_head legal spelled bytes
  rw [decoded_reading spelled] at reading
  rw [decoded_emulation spelled, same_mnemonic same] at emulated
  have wide : j.modrm ≠ none → j.addrSize mode csD ≠ 2 := by
    intro some_ narrow
    obtain ⟨n, second⟩ := Option.ne_none_iff_exists'.mp some_
    obtain ⟨m, first⟩ := Option.ne_none_iff_exists'.mp (same.modrm.not.mpr some_)
    rw [← addr_size_congr same.prefixes] at narrow
    refine narrow_misread legal spelled same first second narrow ?_
    have operand := congrArg (fun r : Reading => r.operand.base) reading
    simp only [Instr.reading, Instr.operand32, Instr.operand, first, second, if_pos narrow]
      at operand
    exact operand.symm
  have known : j.mnemonic ≠ none := by
    rw [← same_mnemonic same]
    exact legal.known
  refine ⟨wide, ?_, known, ?_⟩
  · intro v present
    have legal_ := legal.vex v (by rw [same.head]; exact present)
    rw [same.prefixes] at legal_
    exact ⟨legal_, vex_is_bextr known present emulated⟩
  · intro group
    by_contra other
    obtain ⟨rex, head⟩ := test_opcode group
    have some_ : j.modrm ≠ none := by
      intro absent
      have plain := spelled.operand.modrm.mpr absent
      rw [head] at plain
      exact absurd plain Bool.false_ne_true
    obtain ⟨n, second⟩ := Option.ne_none_iff_exists'.mp some_
    obtain ⟨m, first⟩ := Option.ne_none_iff_exists'.mp (same.modrm.not.mpr some_)
    have form := legal.form m first
    rw [addr_size_congr same.prefixes, if_neg (wide some_)] at form
    have rest_ := same.rest
    rw [first, second] at rest_
    obtain ⟨-, behind⟩ := modrm_unique form (spelled.operand.form n second).2 rest_
    have none_ : i.imm.length = 0 := by
      rw [legal.imm, untested_immediate (by rw [same.head]; exact group)
        (by rw [same_extension same]; exact other)]
    have some_imm : 2 ≤ j.imm.length := by
      have flag : (Head.oneByte rex 0xf7).op.imm = true := rfl
      rw [spelled.imm, head, if_pos flag]
      split <;> decide
    have lengths := congrArg List.length behind
    rw [length_append, length_append,
      (immediates_ordered legal spelled same).2] at lengths
    omega

end VmmEncoding
