import Bhyve.Vmm.RoundTrip

namespace VmmEncoding
open VmmDecoder List Option

variable {vie after : Vie} {bytes : List (BitVec 8)} {mode : CpuMode}

theorem prefix_byte_read {x : BitVec 8} (noted : notePrefix vie x = some after) :
    ∃ p : Prefix, p ≠ .lock ∧ p.byte = x := by
  have segments : ∀ x : BitVec 8, segmentOverride x ≠ none →
      ∃ s ∈ [Segment.es, .cs, .ss, .ds, .fs, .gs], s.byte = x := by decide
  unfold notePrefix at noted
  split at noted
  · rename_i same
    exact ⟨.opsize, by decide, same.symm⟩
  · split at noted
    · rename_i same
      exact ⟨.addrsize, by decide, same.symm⟩
    · split at noted
      · rename_i same
        exact ⟨.repz, by decide, same.symm⟩
      · split at noted
        · rename_i same
          exact ⟨.repnz, by decide, same.symm⟩
        · split at noted
          · rename_i seg found
            obtain ⟨s, -, same⟩ := segments x (by rw [found]; exact some_ne_none seg)
            exact ⟨.segment s, (by simp), same⟩
          · cases noted

theorem ends_prefixes_read {x : BitVec 8} (ended : notePrefix vie x = none) :
    endsPrefixes x = true := by
  refine decide_eq_true ⟨?_, ?_, ?_, ?_, ?_⟩
  · rintro rfl
    cases ended
  · rintro rfl
    cases ended
  · rintro rfl
    cases ended
  · rintro rfl
    cases ended
  · unfold notePrefix at ended
    cases found : segmentOverride x with
    | none => rfl
    | some seg =>
      simp only [found] at ended
      split at ended
      · cases ended
      · split at ended
        · cases ended
        · split at ended
          · cases ended
          · split at ended <;> cases ended

theorem legacy_prefixes_read (bytes : List (BitVec 8)) : ∀ {vie after : Vie} {x : BitVec 8},
    legacyPrefixes bytes vie = some (after, x) →
      ∃ (ps : List Prefix) (rest : List (BitVec 8)), Prefix.lock ∉ ps ∧
        bytes = ps.map Prefix.byte ++ x :: rest ∧ endsPrefixes x = true := by
  induction bytes with
  | nil =>
    intro vie after x looped
    cases looped
  | cons y bytes ih =>
    intro vie after x looped
    rw [legacyPrefixes] at looped
    cases noted : notePrefix vie y with
    | none =>
      simp only [noted, Option.some.injEq, Prod.mk.injEq] at looped
      obtain ⟨-, rfl⟩ := looped
      exact ⟨[], bytes, not_mem_nil, rfl, ends_prefixes_read noted⟩
    | some next =>
      simp only [noted] at looped
      obtain ⟨p, free, rfl⟩ := prefix_byte_read noted
      obtain ⟨ps, rest, others, rfl, ends⟩ := ih looped
      refine ⟨p :: ps, rest, ?_, rfl, ends⟩
      intro inside
      obtain same | inside := List.mem_cons.mp inside
      · exact free same.symm
      · exact others inside

theorem peek_at_eq (at_ : At vie bytes) : viePeek vie = bytes.head? := by
  unfold At at at_
  rw [viePeek, ← head?_drop, at_]

theorem opcode_looks (done : decodeOpcode vie = some after) (at_ : At vie bytes) : bytes ≠ [] := by
  rintro rfl
  simp only [decodeOpcode, peek_at_eq at_, head?_nil, bind_eq_bind,
    bind_none] at done
  cases done

theorem opcode_read (done : decodeOpcode vie = some after) (at_ : At vie bytes)
    (fresh : vie.op = noOp) :
    (∃ opcode rest, bytes = opcode :: rest ∧ (oneByteOpcodes opcode).opType ≠ .none ∧
        (oneByteOpcodes opcode).opType ≠ .twoByte) ∨
      ∃ opcode rest, bytes = 0x0f :: opcode :: rest ∧ (twoByteOpcodes opcode).opType ≠ .none := by
  have untyped : ¬ vie.op.opType ≠ .none := by rw [fresh]; exact fun other => other rfl
  simp only [decodeOpcode, peek_at_eq at_, bind_eq_bind] at done
  cases bytes with
  | nil => cases done
  | cons x rest =>
    simp only [head?_cons, bind_some, if_neg untyped] at done
    split at done
    · cases done
    · rename_i supported
      by_cases escape : (oneByteOpcodes x).opType = .twoByte
      · obtain rfl := (one_byte_groups x).2 escape
        have next : At (vieAdvance { vie with op := oneByteOpcodes 0x0f }) rest :=
          at_of_same (at_advance at_) rfl rfl
        have entered : (vieAdvance { vie with op := oneByteOpcodes 0x0f }).op.opType = .twoByte :=
          rfl
        rw [if_pos entered] at done
        simp only [decodeTwoByteOpcode, peek_at_eq next, bind_eq_bind] at done
        cases rest with
        | nil => cases done
        | cons opcode rest =>
          simp only [head?_cons, bind_some] at done
          split at done
          · cases done
          · rename_i known
            exact .inr ⟨opcode, rest, rfl, known⟩
      · exact .inl ⟨x, rest, rfl, supported, escape⟩

theorem vex_read {lead : BitVec 8} (at_ : At vie (lead :: bytes))
    (done : decodeVex vie = some after) : ∃ (v : Vex) (opcode : BitVec 8) (rest : List (BitVec 8)),
      bytes = v.second :: v.third :: opcode :: rest ∧
        (threeByteOpcodes0f38 opcode).opType ≠ .none := by
  have second_of : ∀ y : BitVec 8, y &&& 0x1f = 0x2 →
      bit (!decide (y &&& 0x80 = 0)) 7 ||| bit (!decide (y &&& 0x40 = 0)) 6 |||
        bit (!decide (y &&& 0x20 = 0)) 5 ||| 0x02 = y := by decide
  have third_of : ∀ t : BitVec 8,
      bit (decide (t &&& 0x80 ≠ 0)) 7 ||| (((~~~(~~~t).extractLsb' 3 4).setWidth 8) <<< 3) |||
        bit (decide (t &&& 0x4 ≠ 0)) 2 ||| (t.extractLsb' 0 2).setWidth 8 = t := by decide
  have ahead : ∀ k, vie.inst[vie.numProcessed + k]? = (lead :: bytes)[k]? := by
    intro k
    unfold At at at_
    rw [← at_, getElem?_drop]
  have first := ahead 1
  have second := ahead 2
  have third := ahead 3
  simp only [decodeVex, viePeek, vieAdvance, note_pp_eq, bind_eq_bind, Nat.add_assoc,
    Nat.reduceAdd, first, second, third] at done
  rcases bytes with - | ⟨y, - | ⟨t, - | ⟨opcode, rest⟩⟩⟩
  · cases done
  · simp only [getElem?_cons_succ, getElem?_cons_zero, bind_some] at done
    split at done <;> cases done
  · simp only [getElem?_cons_succ, getElem?_cons_zero, bind_some] at done
    split at done <;> cases done
  · simp only [getElem?_cons_succ, getElem?_cons_zero, bind_some] at done
    split at done
    · cases done
    · rename_i map
      split at done
      · cases done
      · rename_i known
        have spelled : y &&& 0x1f = 0x2 := Classical.not_not.mp map
        refine ⟨⟨decide (t &&& 0x80 ≠ 0), decide (y &&& 0x80 = 0), decide (y &&& 0x40 = 0),
          decide (y &&& 0x20 = 0), (~~~t).extractLsb' 3 4, decide (t &&& 0x4 ≠ 0),
          t.extractLsb' 0 2⟩, opcode, rest, ?_, known⟩
        rw [Vex.second, Vex.third, second_of y spelled, third_of t]

theorem rex_read : ∀ x : BitVec 8, 0x40 ≤ x.toNat ∧ x.toNat ≤ 0x4f → ∃ rex : Rex, rex.byte = x := by
  have all : ∀ x : BitVec 8, 0x40 ≤ x.toNat ∧ x.toNat ≤ 0x4f →
      (Rex.mk (decide (x &&& 0x8 ≠ 0)) (decide (x &&& 0x4 ≠ 0)) (decide (x &&& 0x2 ≠ 0))
        (decide (x &&& 0x1 ≠ 0))).byte = x := by decide
  exact fun x range => ⟨_, all x range⟩

theorem unvexed_read (rex : Option Rex)
    (read : (∃ opcode rest, bytes = opcode :: rest ∧ (oneByteOpcodes opcode).opType ≠ .none ∧ (oneByteOpcodes opcode).opType ≠ .twoByte) ∨ ∃ opcode rest, bytes = 0x0f :: opcode :: rest ∧ (twoByteOpcodes opcode).opType ≠ .none) :
    ∃ (head : Head) (rest : List (BitVec 8)), head.op.opType ≠ .none ∧
      head.op.opType ≠ .twoByte ∧ head.hasRex = rex.isSome ∧ head.vex = none ∧
      rexBytes rex ++ bytes = head.bytes ++ rest := by
  obtain ⟨opcode, rest, rfl, known, whole⟩ | ⟨opcode, rest, rfl, known⟩ := read
  · refine ⟨.oneByte rex opcode, rest, known, whole, rfl, rfl, ?_⟩
    rw [Head.bytes, List.append_assoc, singleton_append]
  · obtain ⟨-, -, -, -, whole⟩ := two_byte_entry opcode
    refine ⟨.twoByte rex opcode, rest, known, whole, rfl, rfl, ?_⟩
    rw [Head.bytes, List.append_assoc]
    rfl

theorem head_read {csD : Bool} {inst : List (BitVec 8)}
    (done : (decodePrefixes (vieInit inst) mode csD).bind decodeOpcode = some after) :
    ∃ (ps : List Prefix) (head : Head) (rest : List (BitVec 8)),
      HeadSpelled mode ⟨ps, head, none, [], []⟩ ∧
        inst = ps.map Prefix.byte ++ (head.bytes ++ rest) ∧
        (head.vex.isSome = true → rest ≠ []) := by
  obtain ⟨passed, prefixes, opcode⟩ := Option.bind_eq_some_iff.mp done
  simp only [decodePrefixes, init_unread, bind_eq_bind] at prefixes
  obtain ⟨⟨noted_, x⟩, looped, prefixes⟩ := Option.bind_eq_some_iff.mp prefixes
  obtain ⟨ps, rest, free, rfl, ends⟩ := legacy_prefixes_read inst looped
  have forward := legacy_prefixes_noted (ends_prefixes_of ends) rest ps
    (vieInit (ps.map Prefix.byte ++ x :: rest)) free
  rw [looped, Option.some.injEq, Prod.mk.injEq] at forward
  obtain ⟨rfl, -⟩ := forward
  have at_ : At (noted (vieInit (ps.map Prefix.byte ++ x :: rest)) ps) (x :: rest) :=
    at_noted ps rfl
  by_cases wide : mode = .bits64 ∧ 0x40 ≤ x.toNat ∧ x.toNat ≤ 0x4f
  · have other : ¬ ((mode = .bits64 ∨ mode = .compatibility) ∧ x = 0xc4) := by
      rintro ⟨-, rfl⟩
      exact absurd wide.2 (by decide)
    simp only [if_pos wide, if_neg other, bind_some, set_sizes_eq, Option.some.injEq]
      at prefixes
    subst prefixes
    obtain ⟨rex, rfl⟩ := rex_read x wide.2
    obtain ⟨head, behind, known, whole, has_rex, no_vex, bytes⟩ := unvexed_read (some rex)
      (opcode_read opcode (at_of_same (at_advance at_) rfl rfl) rfl)
    have unvexed : head.vex.isSome ≠ true := by
      rw [no_vex]
      exact Bool.false_ne_true
    refine ⟨ps, head, behind, ⟨known, whole, free, fun _ => wide.1, fun vex => absurd vex unvexed⟩,
      ?_, fun vex => absurd vex unvexed⟩
    rw [← bytes]
    rfl
  · by_cases vex : (mode = .bits64 ∨ mode = .compatibility) ∧ x = 0xc4
    · obtain ⟨long, rfl⟩ := vex
      simp only [if_neg wide] at prefixes
      rw [if_pos (And.intro long trivial)] at prefixes
      obtain ⟨vexed_, decoded, sized⟩ := Option.bind_eq_some_iff.mp prefixes
      obtain ⟨v, code, behind, rfl, known⟩ := vex_read at_ decoded
      have forward := decode_vex_bytes v code at_ known
      rw [decoded, Option.some.injEq] at forward
      subst forward
      rw [set_sizes_eq, Option.some.injEq] at sized
      subst sized
      obtain ⟨-, -, -, -, -, whole⟩ := three_byte_entry code
      refine ⟨ps, .vex0f38 v code, behind,
        ⟨known, whole, free, (by rintro ⟨⟩), fun _ => long⟩, rfl, ?_⟩
      rintro - rfl
      have empty : At (vexed (noted (vieInit (ps.map Prefix.byte ++
          0xc4 :: v.second :: v.third :: code :: [])) ps) v code) [] :=
        at_of_same (at_advance (at_advance (at_advance (at_advance at_)))) rfl rfl
      exact opcode_looks opcode (at_of_same empty rfl rfl) rfl
    · simp only [if_neg wide, if_neg vex, bind_some, set_sizes_eq, Option.some.injEq]
        at prefixes
      subst prefixes
      obtain ⟨head, behind, known, whole, has_rex, no_vex, bytes⟩ := unvexed_read none
        (opcode_read opcode (at_of_same at_ rfl rfl) rfl)
      have unvexed : head.vex.isSome ≠ true := by
        rw [no_vex]
        exact Bool.false_ne_true
      have plain : head.hasRex ≠ true := by
        rw [has_rex]
        exact Bool.false_ne_true
      refine ⟨ps, head, behind, ⟨known, whole, free, fun rex => absurd rex plain,
        fun vex => absurd vex unvexed⟩, ?_, fun vex => absurd vex unvexed⟩
      rw [← bytes]
      rfl

theorem take_bytes_read (n : Nat) : ∀ {vie after : Vie} {bytes rest : List (BitVec 8)},
    At vie rest → takeBytes n vie = some (bytes, after) →
      bytes.length = n ∧ ∃ behind, rest = bytes ++ behind := by
  induction n with
  | zero =>
    intro vie after bytes rest _ taken
    obtain ⟨rfl, -⟩ := Prod.mk.inj (Option.some.inj taken)
    exact ⟨rfl, rest, rfl⟩
  | succ n ih =>
    intro vie after bytes rest at_ taken
    simp only [takeBytes, peek_at_eq at_, bind_eq_bind] at taken
    cases rest with
    | nil => cases taken
    | cons x rest =>
      simp only [head?_cons, bind_some] at taken
      obtain ⟨⟨more, moved⟩, next, same⟩ := Option.bind_eq_some_iff.mp taken
      obtain ⟨rfl, -⟩ := Prod.mk.inj (Option.some.inj same)
      obtain ⟨rfl, behind, rfl⟩ := ih (at_advance at_) next
      exact ⟨rfl, behind, rfl⟩

theorem modrm_byte_read (x : BitVec 8) (sib : Option Sib) (disp : List (BitVec 8)) :
    (Modrm.mk (x.extractLsb' 6 2) (x.extractLsb' 3 3) (x.extractLsb' 0 3) sib disp).byte = x := by
  have all : ∀ x : BitVec 8, ((x.extractLsb' 6 2).setWidth 8 <<< 6) |||
      ((x.extractLsb' 3 3).setWidth 8 <<< 3) ||| (x.extractLsb' 0 3).setWidth 8 = x := by
    decide
  exact all x

theorem sib_byte_read (x : BitVec 8) :
    (Sib.mk (x.extractLsb' 6 2) (x.extractLsb' 3 3) (x.extractLsb' 0 3)).byte = x :=
  modrm_byte_read x none []

theorem displacement_read (at_ : At vie bytes) (done : decodeDisplacement vie = some after) :
    ∃ disp rest, disp.length = vie.dispBytes ∧ bytes = disp ++ rest := by
  unfold decodeDisplacement at done
  split at done
  · rename_i none_
    exact ⟨[], bytes, none_.symm, rfl⟩
  · obtain ⟨⟨disp, moved⟩, taken, -⟩ := Option.bind_eq_some_iff.mp done
    obtain ⟨length, rest, rfl⟩ := take_bytes_read _ at_ taken
    exact ⟨disp, rest, length, rfl⟩

theorem sib_looks (done : decodeSib vie = some after) (at_ : At vie bytes) (memory : vie.mod ≠ 3)
    (escape : vie.rm = 4) : bytes ≠ [] := by
  rintro rfl
  have present : ¬ (vie.mod = 3 ∨ vie.rm ≠ 4) := fun either =>
    either.elim memory fun other => other escape
  rw [decodeSib, if_neg present, peek_at_eq at_] at done
  cases done

theorem operand_read (at_ : At vie bytes) (blank : Blank vie) (wanted : vie.op.noModrm = false)
    (done : (decodeModrm vie mode).bind (fun vie => (decodeSib vie).bind decodeDisplacement) = some after) :
    mode ≠ .real ∧ ∃ (m : Modrm) (rest : List (BitVec 8)), m.Form32 ∧ bytes = m.bytes ++ rest := by
  obtain ⟨first, modrm, done⟩ := Option.bind_eq_some_iff.mp done
  obtain ⟨second, sib, disp⟩ := Option.bind_eq_some_iff.mp done
  have protected_ : mode ≠ .real := by
    rintro rfl
    simp only [decodeModrm, wanted, Bool.false_eq_true, ↓reduceIte] at modrm
    cases modrm
  refine ⟨protected_, ?_⟩
  cases bytes with
  | nil =>
    simp only [decodeModrm, wanted, Bool.false_eq_true, if_neg protected_, ↓reduceIte,
      peek_at_eq at_, head?_nil, bind_eq_bind, bind_none] at modrm
    cases modrm
  | cons x bytes =>
    have memory : x.extractLsb' 6 2 ≠ 3 := by
      intro direct
      simp only [decodeModrm, wanted, Bool.false_eq_true, if_neg protected_, ↓reduceIte,
        peek_at_eq at_, head?_cons, bind_eq_bind, bind_some, direct] at modrm
      cases modrm
    by_cases escape : x.extractLsb' 0 3 = 4
    · have noted_ := @decode_modrm_byte mode ⟨x.extractLsb' 6 2, x.extractLsb' 3 3,
        x.extractLsb' 0 3, some ⟨0, 0, 0⟩, []⟩ vie bytes (by rw [modrm_byte_read]; exact at_)
        wanted protected_ memory ⟨fun _ => escape, fun _ => rfl⟩ blank.disp
      rw [modrm, Option.some.injEq] at noted_
      subst noted_
      have behind : At (modrmNoted mode ⟨x.extractLsb' 6 2, x.extractLsb' 3 3,
          x.extractLsb' 0 3, some ⟨0, 0, 0⟩, []⟩ vie) bytes :=
        at_of_same (at_advance at_) rfl rfl
      cases bytes with
      | nil => exact absurd rfl (sib_looks sib behind memory ((rm_number_sib _ _).mpr escape))
      | cons y bytes =>
        obtain ⟨staged, after_, length⟩ := @sib_stage mode ⟨x.extractLsb' 6 2, x.extractLsb' 3 3,
          x.extractLsb' 0 3, some ⟨y.extractLsb' 6 2, y.extractLsb' 3 3, y.extractLsb' 0 3⟩, []⟩
          vie bytes (by
            simp only [sibBytes, sib_byte_read]
            exact at_of_same behind rfl rfl) blank memory ⟨fun _ => escape, fun _ => rfl⟩
        have same := sib.symm.trans staged
        rw [Option.some.injEq] at same
        subst same
        obtain ⟨disp_, rest, sized, rfl⟩ := displacement_read after_ disp
        refine ⟨⟨x.extractLsb' 6 2, x.extractLsb' 3 3, x.extractLsb' 0 3,
          some ⟨y.extractLsb' 6 2, y.extractLsb' 3 3, y.extractLsb' 0 3⟩, disp_⟩, rest,
          ⟨memory, ⟨fun _ => escape, fun _ => rfl⟩, sized.trans length⟩, ?_⟩
        simp only [Modrm.bytes, modrm_byte_read, sibBytes, sib_byte_read, List.cons_append,
          nil_append]
    · have absent : (none : Option Sib).isSome = true ↔ x.extractLsb' 0 3 = 4 :=
        ⟨(by simp), fun four => absurd four escape⟩
      have noted_ := @decode_modrm_byte mode ⟨x.extractLsb' 6 2, x.extractLsb' 3 3,
        x.extractLsb' 0 3, none, []⟩ vie bytes (by rw [modrm_byte_read]; exact at_)
        wanted protected_ memory absent blank.disp
      rw [modrm, Option.some.injEq] at noted_
      subst noted_
      obtain ⟨staged, after_, length⟩ := @sib_stage mode ⟨x.extractLsb' 6 2, x.extractLsb' 3 3,
        x.extractLsb' 0 3, none, []⟩ vie bytes (at_of_same (at_advance at_) rfl rfl) blank memory
        absent
      have same := sib.symm.trans staged
      rw [Option.some.injEq] at same
      subst same
      obtain ⟨disp_, rest, sized, rfl⟩ := displacement_read after_ disp
      refine ⟨⟨x.extractLsb' 6 2, x.extractLsb' 3 3, x.extractLsb' 0 3, none, disp_⟩, rest,
        ⟨memory, absent, sized.trans length⟩, ?_⟩
      simp only [Modrm.bytes, modrm_byte_read, sibBytes, List.cons_append, nil_append]

theorem immediate_read (at_ : At vie bytes) (done : decodeImmediate vie = some after) :
    ∃ imm rest, imm.length = immSize vie ∧ bytes = imm ++ rest := by
  simp only [decodeImmediate] at done
  split at done
  · rename_i none_
    exact ⟨[], bytes, none_.symm, rfl⟩
  · obtain ⟨⟨imm, moved⟩, taken, -⟩ := Option.bind_eq_some_iff.mp done
    have filled : At { vie with immBytes := immSize vie } bytes := at_of_same at_ rfl rfl
    obtain ⟨length, rest, rfl⟩ := take_bytes_read _ filled taken
    exact ⟨imm, rest, length, rfl⟩

theorem moffset_read (done : decodeMoffset vie = some after) (at_ : At vie bytes) :
    ∃ moffset rest, moffset.length = (if vie.op.moffset then vie.addrsize else 0) ∧
      bytes = moffset ++ rest := by
  unfold decodeMoffset at done
  cases wanted : vie.op.moffset with
  | false => exact ⟨[], bytes, rfl, rfl⟩
  | true =>
    rw [wanted, if_pos rfl] at done
    obtain ⟨⟨moffset, moved⟩, taken, -⟩ := Option.bind_eq_some_iff.mp done
    obtain ⟨length, rest, rfl⟩ := take_bytes_read _ at_ taken
    exact ⟨moffset, rest, length, rfl⟩

theorem spelled_of_decode {csD : Bool} {inst : List (BitVec 8)}
    (done : vmmDecodeInstruction mode csD (vieInit inst) = some vie) :
    ∃ i rest, Spelled mode csD i ∧ inst = i.bytes ++ rest := by
  rw [decode_stages] at done
  obtain ⟨behind_imm, done, last⟩ := Option.bind_eq_some_iff.mp done
  obtain ⟨behind_operand, done, imm_done⟩ := Option.bind_eq_some_iff.mp done
  obtain ⟨behind_head, head_done, operand_done⟩ := Option.bind_eq_some_iff.mp done
  obtain ⟨behind_moffset, moffset_done, -⟩ := Option.bind_eq_some_iff.mp last
  obtain ⟨ps, head, rest, head_spelled, rfl, more⟩ := head_read head_done
  have forward := @head_decoded mode csD ⟨ps, head, none, [], []⟩ head_spelled rest more
  have at_ := @at_after_head mode csD ⟨ps, head, none, [], []⟩ rest
  rw [head_done, Option.some.injEq] at forward
  subst forward
  obtain ⟨modrm, rest, operand_spelled, rfl⟩ :
      ∃ modrm rest', OperandSpelled mode ⟨ps, head, modrm, [], []⟩ ∧
        rest = modrmBytes modrm ++ rest' := by
    cases wanted : head.op.noModrm with
    | true => exact ⟨none, rest, ⟨⟨fun _ => rfl, fun _ => wanted⟩, (by simp)⟩, rfl⟩
    | false =>
      obtain ⟨protected_, m, rest, form, rfl⟩ :=
        operand_read at_ (after_head_blank ..) wanted operand_done
      refine ⟨some m, rest, ⟨⟨fun flag => ?_, (by simp)⟩, ?_⟩, rfl⟩
      · rw [wanted] at flag
        exact absurd flag Bool.false_ne_true
      · rintro n present
        obtain rfl := Option.some.inj present
        exact ⟨protected_, form⟩
  generalize bytes : ps.map Prefix.byte ++ (head.bytes ++ (modrmBytes modrm ++ rest)) = inst
    at at_ operand_done ⊢
  obtain ⟨staged, at_⟩ := @operand_stage mode csD ⟨ps, head, modrm, [], []⟩ operand_spelled inst
    rest at_
  have same := operand_done.symm.trans staged
  rw [Option.some.injEq] at same
  subst same
  obtain ⟨op, addrsize, opsize, fresh, zero⟩ :=
    operand_stage_kept mode csD ⟨ps, head, modrm, [], []⟩ inst
  obtain ⟨imm, rest, imm_length, rfl⟩ := immediate_read at_ imm_done
  have forward := immediate_stage at_ imm_length.symm zero
  rw [imm_done, Option.some.injEq] at forward
  subst forward
  obtain ⟨moffset, rest, moffset_length, rfl⟩ :=
    moffset_read moffset_done (at_of_same (at_advanced at_) rfl rfl)
  refine ⟨⟨ps, head, modrm, imm, moffset⟩, rest, ⟨?_, ?_, ?_, ?_⟩, ?_⟩
  · exact ⟨head_spelled.supported, head_spelled.whole, head_spelled.free, head_spelled.rex,
      head_spelled.vex⟩
  · exact ⟨operand_spelled.modrm, operand_spelled.form⟩
  · rw [imm_length, immSize, op, opsize, fresh]
    rfl
  · simp only [op, addrsize] at moffset_length
    exact moffset_length
  · rw [← bytes]
    simp only [Instr.bytes, List.append_assoc]

end VmmEncoding
