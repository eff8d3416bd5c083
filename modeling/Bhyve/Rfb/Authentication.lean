import Mathlib.Data.List.TakeDrop
import Bhyve.Rfb.Handle

namespace Rfb
open List
variable {c : Connection} {rc : Softc} {input : List (BitVec 8)}

def Output.opens : Output → Bool
  | .result sres => decide (sres = 0)
  | .serverInit _ _ | .screen | .writer | .resize _ _ | .key _ _ | .ptr _ _ _ => true
  | .version _ | .types _ | .challenge _ | .reason _ _ => false

/-- The password as the key of the cipher: eight bytes, filled up with zeros, mirrored. -/
def desKey (password : List (BitVec 8)) : List (BitVec 8) :=
  ((password ++ List.replicate 8 0).take 8).map BitVec.reverse

def expectedResponse (c : Connection) : List (BitVec 8) :=
  c.des (desKey c.password) (c.challenge.take 8) ++ c.des (desKey c.password) (c.challenge.drop 8)

structure Authenticated (c : Connection) (input : List (BitVec 8)) : Prop where
  chose : input[12]? = some 2
  answered : (input.drop 13).take 16 = expectedResponse c

def Refused (outputs : List Output) : Prop :=
  ∃ before, outputs = before ++ [.result 1, .reason message.length message] ∧
    ∀ o ∈ before, o.opens = false

def Guarded (c : Connection) (rc : Softc) (input : List (BitVec 8)) : Prop :=
  ∃ turns outputs, rfbHandle c turns rc input = some outputs ∧
    ((∃ o ∈ outputs, o.opens = true) → Authenticated c input) ∧
    (¬ Authenticated c input → Refused outputs)

/-- The first bytes of the buffer when as much of the response is read as there is: behind it two
    bytes of the offer, the version from its third byte on, and what was on the stack. -/
def answer (c : Connection) (input : List (BitVec 8)) : List (BitVec 8) :=
  (input.drop 13).take 16 ++
    ([2, 2] ++ (input.take 12).drop 2 ++ (c.stack.drop 12).take 4).drop (input.drop 13).length

def headed (c : Connection) (n : Nat) (input : List (BitVec 8)) : List (BitVec 8) :=
  input.take n ++ (unset c 1 n input).drop input.length

def textLength (c : Connection) (input : List (BitVec 8)) : Nat :=
  (be32 ((headed c 7 input).drop 3)).toNat

def messageLength (c : Connection) (type : BitVec 8) (input : List (BitVec 8)) : Option Nat :=
  if type = 0 then some 19
  else if type = 2 then some (3 + 4 * (be16 ((headed c 3 input).drop 1)).toNat)
  else if type = 3 then some 9
  else if type = 4 then some 7
  else if type = 5 then some 5
  else none

inductive TextsWhole (c : Connection) : List (BitVec 8) → Prop where
  | ended : TextsWhole c []
  | unknown (type : BitVec 8) (input : List (BitVec 8)) (other : type ≠ 6)
      (none : messageLength c type input = none) : TextsWhole c (type :: input)
  | message (type : BitVec 8) (input : List (BitVec 8)) (n : Nat) (other : type ≠ 6)
      (known : messageLength c type input = some n) (later : TextsWhole c (input.drop n)) :
      TextsWhole c (type :: input)
  | text (input : List (BitVec 8)) (whole : textLength c input ≤ (input.drop 7).length)
      (later : TextsWhole c (input.drop (7 + textLength c input))) : TextsWhole c (6 :: input)

structure Orderly (c : Connection) (input : List (BitVec 8)) : Prop where
  chose : input[12]? = some 2
  short : input.length < 29 → answer c input ≠ expectedResponse c
  texts : Authenticated c input → TextsWhole c (input.drop 30)

theorem stream_read_loop_eq (c : Connection) (turns : Nat) : ∀ nbytes input, nbytes ≤ turns →
    streamReadLoop c turns nbytes input = (input.take nbytes, input.drop nbytes) := by
  induction turns with
  | zero =>
    intro nbytes input enough
    obtain rfl : nbytes = 0 := Nat.le_zero.mp enough
    simp [streamReadLoop]
  | succ turns ih =>
    intro nbytes input enough
    unfold streamReadLoop read
    by_cases none : nbytes = 0
    · simp [none]
    · simp only [none, if_false]
      have some_read : 0 < min (c.part input.length + 1) nbytes := by omega
      have within : min (c.part input.length + 1) nbytes ≤ nbytes := Nat.min_le_right _ _
      generalize min (c.part input.length + 1) nbytes = n at some_read within
      cases input with
      | nil => simp
      | cons b input =>
        have got : (b :: input).take n ≠ [] := by
          cases n with
          | zero => omega
          | succ n => simp
        rw [if_neg got, ih _ _ (by have := List.length_pos_iff.mpr got; omega)]
        rw [length_take]
        by_cases all : n ≤ (b :: input).length
        · rw [Nat.min_eq_left all, ← take_add, drop_drop, Nat.add_sub_cancel' within]
        · have done : (b :: input).length ≤ n := by omega
          rw [drop_eq_nil_of_le done, take_of_length_le done,
            take_of_length_le (Nat.le_trans done within),
            drop_eq_nil_of_le (Nat.le_trans done within)]
          simp

theorem stream_read_eq (c : Connection) (nbytes : Nat) (input : List (BitVec 8)) :
    streamRead c nbytes input = (input.take nbytes, input.drop nbytes) :=
  stream_read_loop_eq c nbytes nbytes input (Nat.le_refl _)

theorem read_into_eq (c : Connection) (buf : List (BitVec 8)) (nbytes : Nat)
    (input : List (BitVec 8)) : readInto c buf nbytes input =
      (input.take nbytes ++ buf.drop (min nbytes input.length), input.drop nbytes) := by
  simp [readInto, stream_read_eq]

theorem header_eq (c : Connection) (n : Nat) (input : List (BitVec 8)) :
    header c n input = (headed c n input, input.drop n) := by
  unfold header headed
  rw [read_into_eq]
  by_cases short : input.length ≤ n
  · rw [Nat.min_eq_right short]
  · have long : n ≤ input.length := by omega
    have size : (unset c 1 n input).length = n := by simp [unset]
    rw [Nat.min_eq_left long, drop_eq_nil_of_le (Nat.le_of_eq size),
      drop_eq_nil_of_le (Nat.le_trans (Nat.le_of_eq size) long)]

theorem encodings_rest (c : Connection) (numencs : Nat) : ∀ encoding rc input,
    (encodingsLoop c numencs encoding rc input).2 = input.drop (4 * numencs) := by
  induction numencs with
  | zero => intro encoding rc input; simp [encodingsLoop]
  | succ numencs ih =>
    intro encoding rc input
    unfold encodingsLoop
    rw [read_into_eq]
    simp only [ih, drop_drop]
    congr 1
    omega

theorem recv_msg_rest (c : Connection) (rc : Softc) (type : BitVec 8) (input : List (BitVec 8)) :
    (rfbRecvMsg c rc type input).map (fun got => got.2.2) =
      (messageLength c type input).map input.drop := by
  unfold rfbRecvMsg messageLength
  split
  · simp [rfbRecvSetPixfmtMsg, header_eq]
  split
  · simp [rfbRecvSetEncodingsMsg, header_eq, encodings_rest]
  split
  · simp [rfbRecvUpdateMsg, header_eq]
  split
  · simp [rfbRecvKeyMsg, header_eq]
  split
  · simp [rfbRecvPtrMsg, header_eq]
  · rfl

theorem cuttext_whole (c : Connection) (turns : Nat) : ∀ length input, length < turns →
    length ≤ input.length → cuttextLoop c turns length input = some (input.drop length) := by
  induction turns with
  | zero => intro length input enough; omega
  | succ turns ih =>
    intro length input enough whole
    unfold cuttextLoop
    by_cases done : length = 0
    · simp [done]
    · rw [if_neg done, stream_read_eq]
      generalize size : (if length > 32 then 32 else length) = n
      have bounds : 0 < n ∧ n ≤ length := by
        split at size <;> omega
      simp only [length_take, Nat.min_eq_left (Nat.le_trans bounds.2 whole)]
      rw [ih _ _ (by omega) (by rw [length_drop]; omega), drop_drop]
      congr 2
      omega

theorem cuttext_ends (c : Connection) (turns : Nat) : ∀ length input rest,
    cuttextLoop c turns length input = some rest →
    length ≤ input.length ∧ rest = input.drop length := by
  induction turns with
  | zero => intro length input rest ended; cases ended
  | succ turns ih =>
    intro length input rest ended
    unfold cuttextLoop at ended
    by_cases done : length = 0
    · rw [if_pos done] at ended
      cases ended
      simp [done]
    · rw [if_neg done, stream_read_eq] at ended
      generalize size : (if length > 32 then 32 else length) = n at ended
      have bounds : 0 < n ∧ n ≤ length := by
        split at size <;> omega
      obtain ⟨whole, rfl⟩ := ih _ _ rest ended
      rw [length_take, length_drop] at whole
      have here : n ≤ input.length := by omega
      rw [length_take, Nat.min_eq_left here, drop_drop, Nat.add_sub_cancel' bounds.2]
      exact ⟨by omega, rfl⟩

theorem recv_cuttext_whole {turns : Nat} (whole : textLength c input ≤ (input.drop 7).length)
    (enough : textLength c input < turns) :
    rfbRecvCuttextMsg c turns input = some (input.drop (7 + textLength c input)) := by
  unfold rfbRecvCuttextMsg
  rw [header_eq]
  simp only
  rw [← textLength, cuttext_whole c turns _ _ enough whole, drop_drop]

theorem recv_cuttext_ends {turns : Nat} {rest : List (BitVec 8)}
    (ended : rfbRecvCuttextMsg c turns input = some rest) :
    textLength c input ≤ (input.drop 7).length ∧ rest = input.drop (7 + textLength c input) := by
  unfold rfbRecvCuttextMsg at ended
  rw [header_eq] at ended
  rw [← drop_drop]
  exact cuttext_ends c turns _ _ rest ended

theorem requests_end (whole : TextsWhole c input) : ∀ turns rc, input.length < turns →
    ∃ outputs, requestLoop c turns rc input = some outputs := by
  induction whole with
  | ended =>
    intro turns rc enough
    obtain ⟨turns, rfl⟩ := Nat.exists_eq_add_one_of_ne_zero (Nat.ne_of_gt enough)
    exact ⟨[], rfl⟩
  | unknown type input other none =>
    intro turns rc enough
    obtain ⟨turns, rfl⟩ := Nat.exists_eq_add_one_of_ne_zero (Nat.ne_zero_of_lt enough)
    have unread : rfbRecvMsg c rc type input = .none := by
      have rest := recv_msg_rest c rc type input
      rw [none] at rest
      simpa using rest
    refine ⟨[], ?_⟩
    unfold requestLoop
    rw [if_neg other, unread]
  | message type input n other known later ih =>
    intro turns rc enough
    obtain ⟨turns, rfl⟩ := Nat.exists_eq_add_one_of_ne_zero (Nat.ne_zero_of_lt enough)
    have rest := recv_msg_rest c rc type input
    rw [known] at rest
    obtain ⟨⟨outputs, rc', _⟩, read, rfl⟩ := Option.map_eq_some_iff.mp rest
    obtain ⟨more, ended⟩ := ih turns rc' (by
      rw [length_drop]
      rw [length_cons] at enough
      omega)
    refine ⟨outputs ++ more, ?_⟩
    unfold requestLoop
    rw [if_neg other, read]
    simp [ended]
  | text input whole later ih =>
    intro turns rc enough
    obtain ⟨turns, rfl⟩ := Nat.exists_eq_add_one_of_ne_zero (Nat.ne_zero_of_lt enough)
    rw [length_cons] at enough
    have length := whole
    rw [length_drop] at length
    obtain ⟨outputs, ended⟩ := ih turns rc (by rw [length_drop]; omega)
    refine ⟨outputs, ?_⟩
    unfold requestLoop
    rw [if_pos rfl, recv_cuttext_whole whole (by omega)]
    exact ended

theorem texts_whole_of_end (turns : Nat) : ∀ rc input outputs,
    requestLoop c turns rc input = some outputs → TextsWhole c input := by
  induction turns with
  | zero => intro rc input outputs ended; cases ended
  | succ turns ih =>
    intro rc input outputs ended
    cases input with
    | nil => exact .ended
    | cons type input =>
      unfold requestLoop at ended
      by_cases text : type = 6
      · subst text
        rw [if_pos rfl] at ended
        cases read : rfbRecvCuttextMsg c turns input with
        | none => simp [read] at ended
        | some rest =>
          rw [read] at ended
          obtain ⟨whole, rfl⟩ := recv_cuttext_ends read
          exact .text input whole (ih rc _ outputs ended)
      · rw [if_neg text] at ended
        have rest := recv_msg_rest c rc type input
        cases read : rfbRecvMsg c rc type input with
        | none =>
          rw [read] at rest
          exact .unknown type input text (by simpa using rest.symm)
        | some got =>
          obtain ⟨sent, rc', remaining⟩ := got
          rw [read] at rest ended
          obtain ⟨n, known, rfl⟩ := Option.map_eq_some_iff.mp rest.symm
          obtain ⟨more, later, -⟩ := Option.map_eq_some_iff.mp ended
          exact .message type input n text known (ih rc' _ more later)
theorem mirror_eq : ∀ b : BitVec 8, mirror b = b.reverse := by decide +kernel

theorem keystr_eq (c : Connection) : keystr c = desKey c.password := by
  unfold keystr desKey strncpy passwdLength
  rw [take_append, take_replicate, Nat.min_eq_left (Nat.sub_le _ _)]
  exact map_congr_left fun b _ => mirror_eq b

theorem crypt_expected_eq (c : Connection) : cryptExpected c = expectedResponse c := by
  unfold cryptExpected expectedResponse
  rw [keystr_eq]
  rfl

theorem expected_length (c : Connection) : (expectedResponse c).length = 16 := by
  simp [expectedResponse, c.des_size]

def greeting : List Output := [.version vbuf, .types [1, 2]]

def offered (c : Connection) (input : List (BitVec 8)) : List (BitVec 8) :=
  (((input.take 12 ++ c.stack.drop (min 12 input.length)).set 0 1).set 1 2)

theorem offered_shape (c : Connection) (input : List (BitVec 8)) :
    ∃ rest, offered c input = 1 :: 2 :: rest := by
  have size : 2 ≤ (input.take 12 ++ c.stack.drop (min 12 input.length)).length := by
    simp only [length_append, length_take, length_drop, c.stack_size]
    omega
  unfold offered
  generalize input.take 12 ++ c.stack.drop (min 12 input.length) = buf at size
  rcases buf with _ | ⟨a, _ | ⟨b, rest⟩⟩
  · simp at size
  · simp at size
  · exact ⟨rest, rfl⟩

def typed (c : Connection) (input : List (BitVec 8)) : List (BitVec 8) :=
  (input.drop 12).take 1 ++ (offered c input).drop (min 1 (input.drop 12).length)

def opening (c : Connection) (left : List (BitVec 8)) : List Output :=
  [.result 0, .serverInit (c.image left.length).1 (c.image left.length).2, .screen, .writer]

def continued (c : Connection) (turns : Nat) (rc : Softc) (asked : List Output) (sres : BitVec 32)
    (left : List (BitVec 8)) : Option (List Output) :=
  if sres = 0 then
    (requestLoop c turns rc (left.drop 1)).map (greeting ++ asked ++ opening c (left.drop 1) ++ ·)
  else some (greeting ++ asked ++ [.result sres, .reason message.length message])

theorem handle_eq (c : Connection) (turns : Nat) (rc : Softc) (input : List (BitVec 8)) :
    rfbHandle c turns rc input =
      let (asked, sres, _, left) := securityResult c (typed c input) (input.drop 13)
      continued c turns rc asked sres left := by
  obtain ⟨rest, shape⟩ := offered_shape c input
  unfold rfbHandle typed
  simp only [read_into_eq, versionLength, securityTypeVncAuth, drop_drop]
  rw [show ((input.take 12 ++ c.stack.drop (min 12 input.length)).set 0 1).set 1 2 =
    offered c input from rfl, shape]
  unfold continued
  generalize securityResult c _ _ = result
  obtain ⟨asked, sres, buf, left⟩ := result
  by_cases zero : sres = 0
  · subst zero
    rfl
  · show (if sres ≠ 0 then _ else _) = if sres = 0 then _ else _
    rw [if_pos zero, if_neg zero]
    rfl

theorem typed_head (c : Connection) (input : List (BitVec 8)) :
    (typed c input).getD 0 0 = input.getD 12 1 := by
  obtain ⟨rest, shape⟩ := offered_shape c input
  unfold typed
  rw [shape]
  have head : input.getD 12 1 = (input.drop 12).headD 1 := by
    simp [getD_eq_getElem?_getD, headD_eq_head?_getD]
  rw [head]
  cases input.drop 12 with
  | nil => rfl
  | cons type left => simp

theorem answer_eq (chose : input[12]? = some 2) :
    ((input.drop 13).take 16 ++ (typed c input).drop (min 16 (input.drop 13).length)).take 16 =
      answer c input := by
  have long : 12 < input.length := by
    by_contra short
    rw [List.getElem?_eq_none (by omega)] at chose
    cases chose
  have behind : input.drop 12 = 2 :: input.drop 13 := by
    rw [drop_eq_getElem_cons long]
    rw [List.getElem?_eq_getElem long] at chose
    rw [Option.some.inj chose]
  have version : ∃ a b, input.take 12 = a :: b :: (input.take 12).drop 2 := by
    rcases input with _ | ⟨a, _ | ⟨b, rest⟩⟩
    · simp at long
    · simp at long
    · exact ⟨a, b, rfl⟩
  obtain ⟨a, b, version⟩ := version
  have held : typed c input = [2, 2] ++ (input.take 12).drop 2 ++ c.stack.drop 12 := by
    unfold typed offered
    rw [behind, Nat.min_eq_left (Nat.le_of_lt long), version]
    simp
  unfold answer
  rw [held, take_append]
  have sizes : ([2, 2] ++ (input.take 12).drop 2 : List (BitVec 8)).length = 12 := by
    simp only [length_append, length_drop, length_take, length_cons,
      length_nil]
    omega
  generalize ([2, 2] ++ (input.take 12).drop 2 : List (BitVec 8)) = first at sizes
  have sixteen : first ++ (c.stack.drop 12).take 4 = (first ++ c.stack.drop 12).take 16 := by
    have fits : first.length ≤ 16 := by omega
    rw [take_append, sizes, take_of_length_le fits]
  rw [sixteen, take_take, Nat.min_self, length_take, drop_take]
  by_cases whole : (input.drop 13).length ≤ 16
  · rw [Nat.min_eq_right whole]
  · rw [Nat.min_eq_left (by omega), Nat.sub_self, Nat.sub_eq_zero_of_le (by omega),
      take_zero, take_zero]

theorem handle_open (other : input.getD 12 1 ≠ 2) (turns : Nat) : rfbHandle c turns rc input =
      (requestLoop c turns rc (input.drop 14)).map (greeting ++ opening c (input.drop 14) ++ ·) := by
  have result : securityResult c (typed c input) (input.drop 13) =
      ([], 0, typed c input, input.drop 13) := by
    unfold securityResult
    rw [typed_head]
    split
    · rfl
    · exact if_neg other
  rw [handle_eq, result]
  show continued c turns rc [] 0 (input.drop 13) = _
  rw [continued, if_pos rfl, drop_drop, append_nil]

theorem handle_asked (chose : input[12]? = some 2) (turns : Nat) : rfbHandle c turns rc input =
      continued c turns rc [.challenge c.challenge]
        (if answer c input = expectedResponse c then 0 else 1) (input.drop 29) := by
  have head : input.getD 12 1 = 2 := by
    rw [getD_eq_getElem?_getD, chose]
    rfl
  have result : securityResult c (typed c input) (input.drop 13) =
      vncAuth c (typed c input) (input.drop 13) := by
    unfold securityResult
    rw [typed_head, head]
    rfl
  rw [handle_eq, result]
  unfold vncAuth
  rw [read_into_eq, authLength]
  simp only
  rw [answer_eq chose, crypt_expected_eq, drop_drop]

theorem answer_whole (whole : 29 ≤ input.length) : answer c input = (input.drop 13).take 16 := by
  have long : 16 ≤ (input.drop 13).length := by
    rw [length_drop]
    omega
  unfold answer
  refine List.append_right_eq_self.mpr (drop_eq_nil_of_le ?_)
  simp only [length_append, length_take, length_drop, length_cons,
    length_nil, c.stack_size] at long ⊢
  omega

theorem authenticated_iff (chose : input[12]? = some 2) :
    Authenticated c input ↔ 29 ≤ input.length ∧ answer c input = expectedResponse c := by
  constructor
  · rintro ⟨-, answered⟩
    have size := expected_length c
    rw [← answered, length_take, length_drop] at size
    have whole : 29 ≤ input.length := by omega
    exact ⟨whole, (answer_whole whole).trans answered⟩
  · rintro ⟨whole, same⟩
    exact ⟨chose, (answer_whole whole).symm.trans same⟩

theorem guarded_of_opening {left : List (BitVec 8)} {asked : List Output}
    (opened : ∀ turns, rfbHandle c turns rc input =
      (requestLoop c turns rc left).map (asked ++ opening c left ++ ·)) :
    Guarded c rc input ↔ Authenticated c input ∧ TextsWhole c left := by
  have zero : ∀ more, .result 0 ∈ asked ++ opening c left ++ more := by
    intro more
    simp [opening]
  constructor
  · rintro ⟨turns, outputs, ended, allowed, -⟩
    rw [opened] at ended
    obtain ⟨more, read, rfl⟩ := Option.map_eq_some_iff.mp ended
    exact ⟨allowed ⟨_, zero more, rfl⟩, texts_whole_of_end turns rc left more read⟩
  · rintro ⟨right, whole⟩
    obtain ⟨more, read⟩ := requests_end whole (left.length + 1) rc (Nat.lt_succ_self _)
    refine ⟨left.length + 1, asked ++ opening c left ++ more, ?_, fun _ => right, ?_⟩
    · rw [opened, read]
      rfl
    · exact fun wrong => absurd right wrong

/-- The connection is guarded exactly where the client chooses VNC authentication, no response that
    is cut short is completed to the right one by what the buffer holds, and a client with the
    right response sends all text that it announces. -/
theorem guarded_iff_orderly (c : Connection) (rc : Softc) (input : List (BitVec 8)) :
    Guarded c rc input ↔ Orderly c input := by
  by_cases chose : input[12]? = some 2
  · have asked := @handle_asked c rc input chose
    by_cases same : answer c input = expectedResponse c
    · simp only [if_pos same, continued, drop_drop] at asked
      rw [guarded_of_opening asked]
      constructor
      · rintro ⟨right, whole⟩
        have long := ((authenticated_iff chose).mp right).1
        exact ⟨chose, fun short => by omega, fun _ => whole⟩
      · rintro ⟨-, short, texts⟩
        have long : 29 ≤ input.length := by
          by_contra cut
          exact short (by omega) same
        have right := (authenticated_iff chose).mpr ⟨long, same⟩
        exact ⟨right, texts right⟩
    · have wrong : ¬ Authenticated c input := fun right =>
        same ((authenticated_iff chose).mp right).2
      have closed : ∀ o ∈ greeting ++ [.challenge c.challenge], o.opens = false := by
        simp [greeting, Output.opens]
      constructor
      · exact fun _ => ⟨chose, fun _ => same, fun right => absurd right wrong⟩
      · intro _
        refine ⟨0, _, (asked 0).trans ?_, ?_, fun _ => ⟨_, rfl, closed⟩⟩
        · rw [if_neg same]
          rfl
        · rintro ⟨o, member, opens⟩
          simp only [mem_append] at member
          rcases member with before | refusal
          · rw [closed o (List.mem_append.mpr before)] at opens
            cases opens
          · simp only [mem_cons, not_mem_nil, or_false] at refusal
            rcases refusal with rfl | rfl <;> cases opens
  · have other : input.getD 12 1 ≠ 2 := by
      rw [getD_eq_getElem?_getD]
      intro same
      cases sent : input[12]? with
      | none => rw [sent] at same; exact absurd same (by decide)
      | some type =>
        rw [sent] at same
        exact chose (sent.trans (congrArg some same))
    have opened := @handle_open c rc input other
    rw [guarded_of_opening opened]
    exact ⟨fun both => absurd both.1.chose chose, fun orderly => absurd orderly.chose chose⟩

def plain : Connection where
  password := [0x61]
  challenge := List.replicate 16 0x11
  des := fun key block => (List.range 8).map fun i => key.getD i 0 ^^^ block.getD i 0
  part := fun _ => 0
  stack := List.replicate 80 0
  stale := fun _ _ => 0
  image := fun _ => (640, 480)
  challenge_size := rfl
  des_size := fun _ _ => by simp
  stack_size := rfl

def withoutPassword : List (BitVec 8) := List.replicate 12 0x20 ++ [1, 0]

theorem no_password_needed : ¬ Guarded plain ⟨640, 480, false, false, false⟩ withoutPassword :=
  fun guarded => absurd ((guarded_iff_orderly _ _ _).mp guarded).chose (by decide)
end Rfb
