import Bhyve.Uart.UartEmul

namespace Uart
open BoundedFifo
variable {sc : UartSoftc}

structure ReceiveSide where
  rxfifo : Fifo Byte
  size : Nat
  opened : Bool
  mevEnabled : Bool
  received : List (Origin × Byte)
  readOut : List Byte

def UartSoftc.receiveSide (sc : UartSoftc) : ReceiveSide :=
  ⟨sc.rxfifo, sc.size, sc.opened, sc.mevEnabled, sc.received, sc.readOut⟩

/-- A byte that is read from the tty in loopback mode is dropped, all others go into the FIFO. -/
def queued (received : List (Origin × Byte)) : List Byte :=
  (received.filter fun came => decide (came.1 ≠ .ttyLoopback)).map Prod.snd

def fromTty (received : List (Origin × Byte)) : List Byte :=
  (received.filter fun came => decide (came.1 ≠ .looped)).map Prod.snd

structure Receiving (side : ReceiveSide) : Prop where
  sized : side.size = 1 ∨ side.size = fifosz
  valid : Valid side.size side.rxfifo
  stream : queued side.received = side.readOut ++ contents side.size side.rxfifo
  event : side.opened = true → (side.mevEnabled = true ↔ side.rxfifo.num < side.size)

def LineFollows (sc : UartSoftc) : Prop := sc.asserted = true ↔ uartIntrReason sc ≠ iirNopend

theorem write_register_keeps {p : UartSoftc → Prop} {offset : Int} {value : Byte}
    (data : p (writeData sc value)) (fcr : p (writeFcr sc value))
    (mcr : offset = regMcr → p (writeMcr sc value))
    (others : ∀ w : UartSoftc, w.receiveSide = sc.receiveSide → w.mcr = sc.mcr → p w) :
    p (writeRegister sc offset value) := by
  refine iteInduction (motive := p) (fun _ => others _ rfl rfl) fun _ => ?_
  refine iteInduction (motive := p) (fun _ => others _ rfl rfl) fun _ => ?_
  refine iteInduction (motive := p) (fun _ => data) fun _ => ?_
  refine iteInduction (motive := p) (fun _ => others _ rfl rfl) fun _ => ?_
  refine iteInduction (motive := p) (fun _ => fcr) fun _ => ?_
  refine iteInduction (motive := p) (fun _ => others _ rfl rfl) fun _ => ?_
  refine iteInduction (motive := p) mcr fun _ => ?_
  refine iteInduction (motive := p) (fun _ => others _ rfl rfl) fun _ => ?_
  exact others _ rfl rfl

theorem read_register_keeps {p : UartSoftc → Prop} {offset : Int} (data : p (readData sc).1)
    (others : ∀ w : UartSoftc, w.receiveSide = sc.receiveSide → w.mcr = sc.mcr → p w) :
    p (readRegister sc offset).1 := by
  refine iteInduction (motive := p ∘ Prod.fst) (fun _ => others _ rfl rfl) fun _ => ?_
  refine iteInduction (motive := p ∘ Prod.fst) (fun _ => others _ rfl rfl) fun _ => ?_
  refine iteInduction (motive := p ∘ Prod.fst) (fun _ => data) fun _ => ?_
  refine iteInduction (motive := p ∘ Prod.fst) (fun _ => others _ rfl rfl) fun _ => ?_
  refine iteInduction (motive := p ∘ Prod.fst) (fun _ => others _ rfl rfl) fun _ => ?_
  refine iteInduction (motive := p ∘ Prod.fst) (fun _ => others _ rfl rfl) fun _ => ?_
  refine iteInduction (motive := p ∘ Prod.fst) (fun _ => others _ rfl rfl) fun _ => ?_
  refine iteInduction (motive := p ∘ Prod.fst) (fun _ => others _ rfl rfl) fun _ => ?_
  refine iteInduction (motive := p ∘ Prod.fst) (fun _ => others _ rfl rfl) fun _ => ?_
  refine iteInduction (motive := p ∘ Prod.fst) (fun _ => others _ rfl rfl) fun _ => ?_
  exact others _ rfl rfl

theorem write_fcr_keeps {p : UartSoftc → Prop} (good : p sc)
    (reset : ∀ (w : UartSoftc) (size : Nat), p w → (size = 1 ∨ size = fifosz) →
      p (rxfifoReset w size))
    (control : ∀ (w : UartSoftc) (fcr : Byte), p w → p { w with fcr := fcr }) (value : Byte) :
    p (writeFcr sc value) := by
  unfold writeFcr
  have moved : p (if (sc.fcr &&& fcrEnable) ^^^ (value &&& fcrEnable) ≠ 0 then
      rxfifoReset sc (if value &&& fcrEnable ≠ 0 then fifosz else 1) else sc) := by
    split
    · apply reset sc _ good
      split
      · exact .inr rfl
      · exact .inl rfl
    · exact good
  generalize (if (sc.fcr &&& fcrEnable) ^^^ (value &&& fcrEnable) ≠ 0 then
      rxfifoReset sc (if value &&& fcrEnable ≠ 0 then fifosz else 1) else sc) = w at moved ⊢
  split
  · exact control _ 0 moved
  split
  · exact control _ _ (reset _ _ moved (.inr rfl))
  · exact control _ _ moved

theorem toggle_follows (sc : UartSoftc) : LineFollows (uartToggleIntr sc) := by
  exact decide_eq_true_iff

theorem queued_append {origin : Origin} (kept : origin ≠ .ttyLoopback)
    (received : List (Origin × Byte)) (ch : Byte) :
    queued (received ++ [(origin, ch)]) = queued received ++ [ch] := by
  unfold queued
  simp [kept]

theorem queued_dropped (received : List (Origin × Byte)) (ch : Byte) :
    queued (received ++ [(.ttyLoopback, ch)]) = queued received := by
  unfold queued
  simp

theorem reset_receiving (sc : UartSoftc) {size : Nat} (sized : size = 1 ∨ size = fifosz) :
    Receiving (rxfifoReset sc size).receiveSide := by
  have positive : 0 < size := by
    rcases sized with one | full
    · simp [one]
    · simp [full, fifosz]
  refine ⟨sized, empty_valid positive _, rfl, ?_⟩
  intro opened
  have enabled : (rxfifoReset sc size).mevEnabled = true := by
    have before : sc.opened = true := opened
    simp [rxfifoReset, before]
  exact ⟨fun _ => positive, fun _ => enabled⟩

theorem putchar_receiving {sc' : UartSoftc} {ch : Byte} {origin : Origin}
    (good : Receiving sc.receiveSide) (kept : origin ≠ .ttyLoopback)
    (done : rxfifoPutchar sc ch = some sc') : Receiving (sc'.cameIn origin ch).receiveSide := by
  unfold rxfifoPutchar at done
  split at done
  · next room =>
    cases done
    have valid : Valid sc.size (put sc.size sc.rxfifo ch) := put_valid good.valid ch
    refine ⟨good.sized, valid, ?_, ?_⟩
    · have before : queued sc.received = sc.readOut ++ contents sc.size sc.rxfifo := good.stream
      show queued (sc.received ++ [(origin, ch)]) =
        sc.readOut ++ contents sc.size (put sc.size sc.rxfifo ch)
      have longer : contents sc.size (put sc.size sc.rxfifo ch) = contents sc.size sc.rxfifo ++ [ch] :=
        contents_put good.valid room ch
      rw [queued_append kept, before, longer, List.append_assoc]
    · intro opened
      have enabled : sc.mevEnabled = true := (good.event opened).mpr room
      have open' : sc.opened = true := opened
      simp [UartSoftc.receiveSide, UartSoftc.cameIn, rxfifoAvailable, enabled, open']
  · cases done

theorem drain_loop_receiving (input : List Byte) :
    ∀ sc : UartSoftc, Receiving sc.receiveSide → Receiving (drainLoop sc input).receiveSide := by
  induction input with
  | nil => intro sc good; exact good
  | cons ch rest ih =>
    intro sc good
    unfold drainLoop
    split
    · next room =>
      apply ih
      have fits : sc.rxfifo.num < sc.size := of_decide_eq_true room
      obtain ⟨sc', done⟩ : ∃ sc', rxfifoPutchar sc ch = some sc' := by
        simp [rxfifoPutchar, fits]
      rw [done, Option.getD_some]
      exact putchar_receiving good (by decide) done
    · exact good

section
variable (good : Receiving sc.receiveSide)
include good

theorem drain_receiving (input : List Byte) : Receiving (uartDrain sc input).receiveSide := by
  unfold uartDrain
  split
  · cases input with
    | nil => exact good
    | cons ch rest =>
      exact ⟨good.sized, good.valid, (queued_dropped _ ch).trans good.stream, good.event⟩
  · exact drain_loop_receiving input sc good

theorem write_data_receiving (value : Byte) : Receiving (writeData sc value).receiveSide := by
  unfold writeData
  split
  · cases done : rxfifoPutchar sc value with
    | some sc' => exact putchar_receiving good (by decide) done
    | none => exact good
  · split
    · exact good
    · exact good

theorem write_fcr_receiving (value : Byte) : Receiving (writeFcr sc value).receiveSide :=
  write_fcr_keeps (p := fun sc => Receiving sc.receiveSide) good
    (fun w _ _ sized => reset_receiving w sized) (fun _ _ good => good) value

theorem write_register_receiving (offset : Int) (value : Byte) :
    Receiving (writeRegister sc offset value).receiveSide := by
  apply write_register_keeps (p := fun sc => Receiving sc.receiveSide)
  · exact write_data_receiving good value
  · exact write_fcr_receiving good value
  · intro _
    exact good
  · intro w same _
    rw [same]
    exact good

theorem read_data_receiving : Receiving (readData sc).1.receiveSide := by
  unfold readData
  cases read : rxfifoGetchar sc with
  | none => exact good
  | some found =>
    obtain ⟨got, taken, same⟩ := Option.map_eq_some_iff.mp read
    cases same
    obtain ⟨first, count⟩ := contents_get good.valid taken
    have valid : Valid sc.size got.2 := get_valid good.valid taken
    refine ⟨good.sized, valid, ?_, ?_⟩
    · have before : queued sc.received = sc.readOut ++ contents sc.size sc.rxfifo := good.stream
      show queued sc.received = (sc.readOut ++ [got.1]) ++ contents sc.size got.2
      rw [before, List.append_assoc]
      exact congrArg (sc.readOut ++ ·) first
    · intro opened
      have open' : sc.opened = true := opened
      have room : got.2.num < sc.size := by
        have within : sc.rxfifo.num ≤ sc.size := good.valid.room
        have less : sc.rxfifo.num = got.2.num + 1 := count
        omega
      refine ⟨fun _ => room, fun _ => ?_⟩
      have before : sc.mevEnabled = true ↔ sc.rxfifo.num < sc.size := good.event opened
      by_cases fits : sc.rxfifo.num < sc.size
      · simp [UartSoftc.receiveSide, before.mpr fits]
      · simp [UartSoftc.receiveSide, rxfifoAvailable, fits, open']

theorem read_register_receiving (offset : Int) :
    Receiving (readRegister sc offset).1.receiveSide := by
  apply read_register_keeps (p := fun sc => Receiving sc.receiveSide)
  · exact read_data_receiving good
  · intro w same _
    rw [same]
    exact good

end

theorem step_follows (sc : UartSoftc) (event : Event) (follows : LineFollows sc) :
    LineFollows (step sc event) := by
  cases event with
  | read offset => exact toggle_follows _
  | write offset value => exact toggle_follows _
  | drain input =>
    simp only [step]
    split
    · unfold uartDrain
      split
      · cases input with
        | nil => exact follows
        | cons ch rest => exact follows
      · exact toggle_follows _
    · exact follows

theorem step_receiving (sc : UartSoftc) (event : Event) (good : Receiving sc.receiveSide) :
    Receiving (step sc event).receiveSide := by
  cases event with
  | read offset => exact read_register_receiving good offset
  | write offset value => exact write_register_receiving good offset value
  | drain input =>
    simp only [step]
    split
    · exact drain_receiving good input
    · exact good

/-- Outside loopback mode so far: no byte has come in but from the tty into the FIFO. -/
def Straight (sc : UartSoftc) : Prop :=
  sc.mcr &&& mcrLoopback = 0 ∧ ∀ came ∈ sc.received, came.1 = .tty

def entersLoopback : Event → Bool
  | .write offset value => decide (offset = regMcr ∧ value &&& mcrLoopback ≠ 0)
  | _ => false

theorem reset_straight (straight : Straight sc) (size : Nat) : Straight (rxfifoReset sc size) :=
  ⟨straight.1, fun _ never => absurd never List.not_mem_nil⟩

theorem came_straight (straight : Straight sc) (ch : Byte) : Straight (sc.cameIn .tty ch) := by
  refine ⟨straight.1, ?_⟩
  intro came member
  rcases List.mem_append.mp member with before | new
  · exact straight.2 came before
  · rw [List.mem_singleton.mp new]

theorem putchar_straight {sc' : UartSoftc} {ch : Byte} (straight : Straight sc)
    (done : rxfifoPutchar sc ch = some sc') : Straight sc' := by
  unfold rxfifoPutchar at done
  split at done
  · cases done
    exact straight
  · cases done

theorem drain_loop_straight (input : List Byte) :
    ∀ sc : UartSoftc, Straight sc → Straight (drainLoop sc input) := by
  induction input with
  | nil => intro sc straight; exact straight
  | cons ch rest ih =>
    intro sc straight
    unfold drainLoop
    split
    · apply ih
      apply came_straight
      cases done : rxfifoPutchar sc ch with
      | none => exact straight
      | some sc' => exact putchar_straight straight done
    · exact straight

theorem same_straight {w : UartSoftc} (straight : Straight sc) (same : w.receiveSide = sc.receiveSide)
    (mode : w.mcr = sc.mcr) : Straight w := by
  have received : w.received = sc.received := congrArg ReceiveSide.received same
  unfold Straight
  rw [mode, received]
  exact straight

theorem write_register_straight (straight : Straight sc) (offset : Int) (value : Byte)
    (stays : entersLoopback (.write offset value) = false) :
    Straight (writeRegister sc offset value) := by
  apply write_register_keeps
  · unfold writeData
    rw [if_neg (not_not_intro straight.1)]
    split
    · exact straight
    · exact straight
  · exact write_fcr_keeps straight (fun _ size straight _ => reset_straight straight size)
      (fun _ _ straight => straight) value
  · intro mcr
    refine ⟨?_, straight.2⟩
    have clear : value &&& mcrLoopback = 0 := by
      simpa [entersLoopback, mcr] using stays
    show value &&& 0x1f &&& mcrLoopback = 0
    rw [BitVec.and_assoc]
    exact clear
  · intro w same mode
    exact same_straight straight same mode

theorem read_register_straight (straight : Straight sc) (offset : Int) :
    Straight (readRegister sc offset).1 := by
  apply read_register_keeps
  · unfold readData
    cases read : rxfifoGetchar sc with
    | none => exact straight
    | some found =>
      obtain ⟨got, taken, same⟩ := Option.map_eq_some_iff.mp read
      cases same
      exact straight
  · intro w same mode
    exact same_straight straight same mode

theorem step_straight (sc : UartSoftc) (event : Event) (straight : Straight sc)
    (stays : entersLoopback event = false) : Straight (step sc event) := by
  cases event with
  | read offset => exact read_register_straight straight offset
  | write offset value => exact write_register_straight straight offset value stays
  | drain input =>
    simp only [step]
    split
    · unfold uartDrain
      rw [if_neg (not_not_intro straight.1)]
      exact drain_loop_straight input sc straight
    · exact straight

theorem straight_streams (straight : Straight sc) : fromTty sc.received = queued sc.received := by
  unfold fromTty queued
  congr 1
  apply List.filter_congr
  intro came member
  rw [straight.2 came member]
  rfl

theorem start_follows (opened : Bool) : LineFollows (start opened) := by
  cases opened with
  | false => unfold LineFollows; decide
  | true => unfold LineFollows; decide

theorem start_straight (opened : Bool) : Straight (start opened) := by
  cases opened with
  | false => exact ⟨rfl, fun _ never => absurd never List.not_mem_nil⟩
  | true => exact ⟨rfl, fun _ never => absurd never List.not_mem_nil⟩

theorem start_receiving (opened : Bool) : Receiving (start opened).receiveSide := by
  have made : Receiving uartInit.receiveSide := reset_receiving _ (.inl rfl)
  cases opened with
  | false => exact made
  | true => exact ⟨made.sized, made.valid, made.stream, fun _ => ⟨fun _ => Nat.one_pos, fun _ => rfl⟩⟩

/-- What there is to say of a state: the line, the size of the FIFO, the stream of the bytes that
    passed f on their way in, and the event. -/
def Sound (entered : List (Origin × Byte) → List Byte) (sc : UartSoftc) : Prop :=
  LineFollows sc ∧ (sc.rxfifo.num ≤ sc.size ∧ (sc.size = 1 ∨ sc.size = 16)) ∧
    entered sc.received = sc.readOut ++ contents sc.size sc.rxfifo ∧
    (sc.opened = true → (sc.mevEnabled = true ↔ sc.rxfifo.num ≠ sc.size))

theorem receiving_sound (follows : LineFollows sc) (good : Receiving sc.receiveSide) :
    Sound queued sc := by
  refine ⟨follows, ⟨good.valid.room, good.sized⟩, good.stream, ?_⟩
  intro opened
  have enabled : sc.mevEnabled = true ↔ sc.rxfifo.num < sc.size := good.event opened
  have within : sc.rxfifo.num ≤ sc.size := good.valid.room
  rw [enabled]
  omega

/-- After every run the line follows the reason, the FIFO is within its size, the guest has read the
    first of the bytes that were queued and the others are in the FIFO, and the event is enabled
    where there is room. As long as the guest keeps out of loopback mode these are the bytes that
    were read from the tty. -/
theorem line_and_fifo (opened : Bool) (events : List Event) : Sound queued (run opened events) ∧
      ((∀ event ∈ events, entersLoopback event = false) → Sound fromTty (run opened events)) := by
  have follows :=
    StepRuns.invariant_every_run step_follows events (start opened) (start_follows opened)
  have good := StepRuns.invariant_every_run step_receiving events (start opened) (start_receiving opened)
  have sound : Sound queued (run opened events) := receiving_sound follows good
  refine ⟨sound, ?_⟩
  intro stays
  have straight := StepRuns.invariant_run step_straight events (start opened) (start_straight opened)
    (StepRuns.along_of_each stays (start opened))
  obtain ⟨follows, sized, stream, event⟩ := sound
  exact ⟨follows, sized, (straight_streams straight).trans stream, event⟩

theorem line_and_fifo_fed : (run true [.drain [0x41, 0x42], .read regData]).readOut = [0x41] ∧
      Sound fromTty (run true [.drain [0x41, 0x42], .read regData]) :=
  ⟨by decide, (line_and_fifo true [.drain [0x41, 0x42], .read regData]).2 (by decide)⟩

theorem loopback_not_from_tty :
    ¬ ∀ (opened : Bool) (events : List Event), Sound fromTty (run opened events) := by
  intro always
  obtain ⟨-, -, stream, -⟩ :=
    always true [.write regMcr mcrLoopback, .write regData 0x41, .read regData]
  revert stream
  decide

end Uart
