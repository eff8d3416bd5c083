import Bhyve.Ahci.Interrupts
import Bhyve.Lib.Fallible

/-!
A pending interrupt of a port is always seen in the global IS, the line follows IS and GHC, and each
port that becomes pending sends its own message.
-/
namespace Ahci
open StepRuns BitMasks List BitVec

def PciAhciSoftc.nmsg (s : PciAhciSoftc) : Nat := pciMsiMaxmsgnum s.hba.ascPi

def portMsg (ports nmsg i : Nat) : Nat := if ports ≤ nmsg ∨ i + 1 < nmsg then i else nmsg - 1

variable (s : PciAhciSoftc)

def PciAhciSoftc.msgOf (i : Nat) : Nat := portMsg s.hba.ports s.nmsg i

def IntrEvent.rewrites : IntrEvent → Nat → Bool
  | .hostWrite offset value, i => decide (offset = ahciIs) && value.getLsbD i
  | _, _ => false

structure IntrSound (s : PciAhciSoftc) (e : IntrEvent) (s' : PciAhciSoftc) : Prop where
  seen : ∀ i < s'.hba.ports, (s'.port i).raised = true → s'.hba.is.getLsbD i = true
  sends : ∀ i < s'.hba.ports, 0 < s'.nmsg → s'.hba.intrEnabled = true →
    s'.hba.is.getLsbD i = true → (s.hba.is.getLsbD i = false ∨ e.rewrites i = true) →
    s'.msgOf i ∈ s'.hba.ascPi.msis
  sent : ∀ m ∈ s'.hba.ascPi.msis, ∃ i < s'.hba.ports, s'.msgOf i = m ∧ s'.hba.is.getLsbD i = true

def Hba.lineOf (h : Hba) : Lintr :=
  if h.lintr then if pciLintrPermitted h.ascPi then .asserted else .pending else .idle

/-- The line is asserted exactly when IS is not zero and GHC enables interrupts. Where the guest
    has disabled INTx it is kept pending instead. -/
structure LineSound (h : Hba) : Prop where
  lintr : h.lintr = true ↔ h.is ≠ 0 ∧ h.intrEnabled = true
  line : h.ascPi.lintr = h.lineOf

def IntrEvent.enablesMsi : IntrEvent → Bool
  | .msi enable _ => enable
  | _ => false

def AlongStates (q : PciAhciSoftc → IntrEvent → PciAhciSoftc → Prop) (start : PciAhciSoftc)
    (events : List IntrEvent) : Prop :=
  AlongAttempts intrStep (fun s e => ∀ s', intrStep s e = .ok s' → q s e s') start events

structure IntrState (start : PciAhciSoftc) (events : List IntrEvent) : Prop where
  sound : AlongStates IntrSound start events
  line : (∀ e ∈ events, e.enablesMsi = false) → LineSound start.hba ∧
    AlongStates (fun _ _ s' => LineSound s'.hba) start events

def PciAhciSoftc.again (is : BitVec 32) (i : Nat) : Bool :=
  is.getLsbD i || (decide (i < s.hba.ports) && (s.port i).raised)

/-- Where a bit of the mask is left pending, each message that has a bit in the mask belongs to a
    port that is left pending. -/
def PciAhciSoftc.Exact (is mask : BitVec 32) : Prop :=
  (∃ k < 32, s.again is k = true ∧ mask.getLsbD k = true) →
    ∀ m < s.nmsg, mmask s.hba.ports s.nmsg m &&& mask ≠ 0 →
      ∃ i < s.hba.ports, s.msgOf i = m ∧ s.again is i = true

def ExactWrite (s : PciAhciSoftc) : IntrEvent → Prop
  | .hostWrite offset value =>
      if offset = ahciGhc then
        value &&& ghcHr = 0 → value &&& ghcIe ≠ 0 → s.Exact s.hba.is 0xffffffff
      else if offset = ahciIs then
        s.hba.intrEnabled = true → s.Exact (s.hba.is &&& ~~~value) value
      else True
  | _ => True

theorem generate_msis_nmsg (indices : List Nat) : ∀ pi,
    pciMsiMaxmsgnum (generateMsis pi indices) = pciMsiMaxmsgnum pi := by
  induction indices with
  | nil => intro pi; rfl
  | cons i rest ih => intro pi; exact (ih _).trans (generate_msi_nmsg pi i)

theorem generate_msis_permitted (indices : List Nat) : ∀ pi,
    pciLintrPermitted (generateMsis pi indices) = pciLintrPermitted pi := by
  induction indices with
  | nil => intro pi; rfl
  | cons i rest ih => intro pi; exact (ih _).trans (generate_msi_permitted pi i)

theorem generate_msis_lintr (indices : List Nat) : ∀ pi,
    (generateMsis pi indices).lintr = pi.lintr := by
  induction indices with
  | nil => intro pi; rfl
  | cons i rest ih => intro pi; exact (ih _).trans (generate_msi_lintr pi i)

theorem generate_msis_msis (indices : List Nat) : ∀ pi, (∀ i ∈ indices, i < pciMsiMaxmsgnum pi) →
    (generateMsis pi indices).msis = pi.msis ++ indices := by
  induction indices with
  | nil => intro pi _; exact (append_nil _).symm
  | cons i rest ih =>
    intro pi inside
    have here : i < pciMsiMaxmsgnum pi := inside i mem_cons_self
    have later := ih (pciGenerateMsi pi i) fun j member => by
      rw [generate_msi_nmsg]
      exact inside j (mem_cons_of_mem i member)
    rw [generate_msi_msis, if_pos here, List.append_assoc] at later
    exact later

structure Hba.Kept (h h' : Hba) : Prop where
  ports : h'.ports = h.ports
  ghc : h'.ghc = h.ghc
  nmsg : pciMsiMaxmsgnum h'.ascPi = pciMsiMaxmsgnum h.ascPi
  line : h.ascPi.lintr = h.lineOf → h'.ascPi.lintr = h'.lineOf

theorem kept_enabled {h h' : Hba} (kept : h.Kept h') : h'.intrEnabled = h.intrEnabled := by
  rw [Hba.intrEnabled, kept.ghc, Hba.intrEnabled]

theorem line_asserts {h : Hba} (low : h.lintr = false) (line : h.ascPi.lintr = h.lineOf) :
    (pciLintrAssert h.ascPi).lintr =
      Hba.lineOf { h with lintr := true, ascPi := pciLintrAssert h.ascPi } := by
  have idle : h.ascPi.lintr = .idle := by
    rw [line, Hba.lineOf, low]
    rfl
  simp only [Hba.lineOf, lintr_assert_permitted, if_true]
  unfold pciLintrAssert
  rw [if_pos idle]

theorem line_moves {pi : PciDevinst} (h : Hba) (same : pi.lintr = h.ascPi.lintr)
    (permitted : pciLintrPermitted pi = pciLintrPermitted h.ascPi) (is : BitVec 32)
    (line : h.ascPi.lintr = h.lineOf) : pi.lintr = Hba.lineOf { h with ascPi := pi, is := is } := by
  rw [same, line, Hba.lineOf, Hba.lineOf, permitted]

section
variable {h : Hba} {p : AhciPort}

theorem port_intr_quiet (quiet : p.raised = false) : ahciPortIntr h p = h := by
  rw [ahciPortIntr, if_pos quiet]

theorem port_intr_is (raised : p.raised = true) : (ahciPortIntr h p).is = add h.is p.port := by
  unfold ahciPortIntr
  rw [if_neg (by simp [raised])]
  dsimp only
  split_ifs with _ _ set_
  · rfl
  · rfl
  · exact (add_of_get set_).symm
  all_goals rfl

theorem port_intr_kept (h : Hba) (p : AhciPort) : h.Kept (ahciPortIntr h p) := by
  unfold ahciPortIntr
  dsimp only
  split_ifs with quiet dedicated enabled set_ disabled messages held
  · exact ⟨rfl, rfl, rfl, id⟩
  · exact ⟨rfl, rfl, generate_msi_nmsg _ _,
      line_moves h (generate_msi_lintr _ _) (generate_msi_permitted _ _) _⟩
  · exact ⟨rfl, rfl, rfl, line_moves h rfl rfl _⟩
  · exact ⟨rfl, rfl, rfl, id⟩
  · exact ⟨rfl, rfl, rfl, line_moves h rfl rfl _⟩
  · exact ⟨rfl, rfl, generate_msi_nmsg _ _,
      line_moves h (generate_msi_lintr _ _) (generate_msi_permitted _ _) _⟩
  · exact ⟨rfl, rfl, rfl, line_moves h rfl rfl _⟩
  · exact ⟨rfl, rfl, lintr_assert_nmsg _, line_asserts (by simpa using held)⟩

theorem port_intr_msis (inside : p.port < h.ports) (empty : h.ascPi.msis = []) :
    (ahciPortIntr h p).ascPi.msis =
      if p.raised = true ∧ h.intrEnabled = true ∧ 0 < pciMsiMaxmsgnum h.ascPi ∧
        ((h.ports ≤ pciMsiMaxmsgnum h.ascPi ∨ p.port + 1 < pciMsiMaxmsgnum h.ascPi) ∨
          h.is.getLsbD p.port = false)
      then [portMsg h.ports (pciMsiMaxmsgnum h.ascPi) p.port] else [] := by
  unfold ahciPortIntr
  dsimp only
  by_cases quiet : p.raised = false
  · rw [if_pos quiet, if_neg (by simp [quiet]), empty]
  · rw [if_neg quiet]
    have raised : p.raised = true := by simpa using quiet
    by_cases dedicated :
      h.ports ≤ pciMsiMaxmsgnum h.ascPi ∨ p.port + 1 < pciMsiMaxmsgnum h.ascPi
    · have within : p.port < pciMsiMaxmsgnum h.ascPi := by omega
      have positive : 0 < pciMsiMaxmsgnum h.ascPi := by omega
      have moved : Hba.intrEnabled { h with is := add h.is p.port } = h.intrEnabled := rfl
      rw [if_pos dedicated, moved]
      cases enabled : h.intrEnabled with
      | false => simp [empty]
      | true =>
        rw [if_pos rfl, if_pos ⟨raised, rfl, positive, .inl dedicated⟩, generate_msi_msis,
          if_pos within, empty, portMsg, if_pos dedicated]
        rfl
    · rw [if_neg dedicated]
      have moved : Hba.intrEnabled { h with is := add h.is p.port } = h.intrEnabled := rfl
      rw [moved]
      cases set_ : h.is.getLsbD p.port with
      | true => simp [dedicated, empty]
      | false =>
        cases enabled : h.intrEnabled with
        | false => simp [empty]
        | true =>
          by_cases messages : 0 < pciMsiMaxmsgnum h.ascPi
          · rw [if_neg (by decide), if_neg (by decide), if_pos messages,
              if_pos ⟨raised, rfl, messages, .inr rfl⟩, generate_msi_msis, if_pos (by omega),
              empty, portMsg, if_neg dedicated]
            rfl
          · have silent : ¬ (p.raised = true ∧ true = true ∧ 0 < pciMsiMaxmsgnum h.ascPi ∧
                ((h.ports ≤ pciMsiMaxmsgnum h.ascPi ∨ p.port + 1 < pciMsiMaxmsgnum h.ascPi) ∨
                  false = false)) := fun all => messages all.2.2.1
            rw [if_neg (by decide), if_neg (by decide), if_neg messages, if_neg silent]
            split_ifs
            · exact empty
            · exact (lintr_assert_msis _).trans empty

theorem port_intr_legacy (legacy : pciMsiMaxmsgnum h.ascPi = 0) (few : h.ports ≠ 0)
    (inside : p.port < 32) (follows : h.lintr = true ↔ h.is ≠ 0 ∧ h.intrEnabled = true) :
    (ahciPortIntr h p).lintr = true ↔
      (ahciPortIntr h p).is ≠ 0 ∧ (ahciPortIntr h p).intrEnabled = true := by
  rw [kept_enabled (port_intr_kept h p)]
  by_cases quiet : p.raised = false
  · rw [port_intr_quiet quiet]
    exact follows
  · have raised : p.raised = true := by simpa using quiet
    rw [port_intr_is raised]
    have filled := add_ne_zero h.is inside
    have shared : ¬ (h.ports ≤ pciMsiMaxmsgnum h.ascPi ∨ p.port + 1 < pciMsiMaxmsgnum h.ascPi) := by
      omega
    unfold ahciPortIntr
    dsimp only
    have moved : Hba.intrEnabled { h with is := add h.is p.port } = h.intrEnabled := rfl
    rw [moved]
    split_ifs with set_ disabled messages held
    · rw [add_of_get set_]
      exact follows
    · simp only [disabled] at follows ⊢
      simpa using follows
    · omega
    · exact ⟨fun _ => ⟨filled, by simpa using disabled⟩, fun _ => held⟩
    · exact ⟨fun _ => ⟨filled, by simpa using disabled⟩, fun _ => rfl⟩

end

section
variable {s : PciAhciSoftc} {mask : BitVec 32}

theorem generate_intr_is (s : PciAhciSoftc) (mask : BitVec 32) :
    (ahciGenerateIntr s mask).is = collect (fun i => (s.port i).raised) s.hba.ports s.hba.is := by
  unfold ahciGenerateIntr
  dsimp only
  split_ifs <;> rfl

theorem generate_intr_get (few : s.hba.ports ≤ maxPorts) (k : Nat) :
    (ahciGenerateIntr s mask).is.getLsbD k = s.again s.hba.is k := by
  rw [generate_intr_is, get_collect, PciAhciSoftc.again]
  congr 1
  rw [Bool.eq_iff_iff]
  have narrow : k < s.hba.ports → k < 32 := fun inside => Nat.lt_of_lt_of_le inside few
  simp only [decide_eq_true_eq, Bool.and_eq_true]
  tauto

theorem generate_intr_kept (s : PciAhciSoftc) (mask : BitVec 32) :
    s.hba.Kept (ahciGenerateIntr s mask) := by
  unfold ahciGenerateIntr
  dsimp only
  split_ifs with nothing held legacy held
  · exact ⟨rfl, rfl, rfl, fun _ => rfl⟩
  · exact ⟨rfl, rfl, rfl, line_moves s.hba rfl rfl _⟩
  · exact ⟨rfl, rfl, rfl, line_moves s.hba rfl rfl _⟩
  · exact ⟨rfl, rfl, lintr_assert_nmsg _, line_asserts (by simpa using held)⟩
  · exact ⟨rfl, rfl, generate_msis_nmsg _ _,
      line_moves s.hba (generate_msis_lintr _ _) (generate_msis_permitted _ _) _⟩

theorem generate_intr_sent (empty : s.hba.ascPi.msis = []) (m : Nat) :
    m ∈ (ahciGenerateIntr s mask).ascPi.msis ↔
      m < s.nmsg ∧ s.hba.intrEnabled = true ∧ (ahciGenerateIntr s mask).is &&& mask ≠ 0 ∧
        mmask s.hba.ports s.nmsg m &&& mask ≠ 0 := by
  unfold ahciGenerateIntr PciAhciSoftc.nmsg
  dsimp only
  generalize collect (fun i => (s.port i).raised) s.hba.ports s.hba.is = is
  have moved : Hba.intrEnabled { s.hba with is := is } = s.hba.intrEnabled := rfl
  rw [moved]
  split_ifs with nothing held legacy held
  · rw [show (pciLintrDeassert s.hba.ascPi).msis = [] from empty]
    constructor
    · exact nofun
    · rintro ⟨-, enabled, some_, -⟩
      obtain zero | disabled := nothing
      · exact absurd (by rw [zero]; exact zero_and) some_
      · rw [disabled] at enabled
        cases enabled
  · rw [empty]
    constructor
    · exact nofun
    · rintro ⟨-, enabled, some_, -⟩
      obtain zero | disabled := nothing
      · exact absurd (by rw [zero]; exact zero_and) some_
      · rw [disabled] at enabled
        cases enabled
  · rw [empty, legacy]
    simp
  · rw [lintr_assert_msis, empty, legacy]
    simp
  · have enabled : s.hba.intrEnabled = true := by
      have both := (not_or.mp nothing).2
      simpa using both
    rw [generate_msis_msis _ _ (fun i member => List.mem_range.mp (mem_of_mem_filter member)),
      empty, nil_append, mem_filter, mem_range, enabled, decide_eq_true_eq]
    simp

theorem generate_intr_legacy (legacy : s.nmsg = 0) : (ahciGenerateIntr s mask).lintr = true ↔
      (ahciGenerateIntr s mask).is ≠ 0 ∧ (ahciGenerateIntr s mask).intrEnabled = true := by
  rw [kept_enabled (generate_intr_kept s mask), generate_intr_is]
  unfold PciAhciSoftc.nmsg at legacy
  unfold ahciGenerateIntr
  dsimp only
  generalize collect (fun i => (s.port i).raised) s.hba.ports s.hba.is = is
  have moved : Hba.intrEnabled { s.hba with is := is } = s.hba.intrEnabled := rfl
  rw [moved]
  by_cases nothing : is = 0 ∨ s.hba.intrEnabled = false
  · have neither : ¬ (is ≠ 0 ∧ s.hba.intrEnabled = true) := by
      rintro ⟨some_, enabled⟩
      obtain zero | disabled := nothing
      · exact some_ zero
      · rw [disabled] at enabled
        cases enabled
    rw [if_pos nothing, iff_false_right neither]
    split_ifs with held
    · decide
    · exact held
  · have both : is ≠ 0 ∧ s.hba.intrEnabled = true := by
      obtain ⟨some_, enabled⟩ := not_or.mp nothing
      exact ⟨some_, by simpa using enabled⟩
    rw [if_neg nothing, if_pos legacy, iff_true_right both]
    split_ifs with held
    · exact held
    · rfl

end

section

/-- What an operation on a port does to the interrupt state: nothing that a pending interrupt
    depends on, or the port's own interrupt for what it now has pending. -/
structure Notices (v v' : PortView) : Prop where
  port : v'.port.port = v.port.port
  bctx : v'.port.bctx = v.port.bctx
  intr : (v'.hba = v.hba ∧ (v'.port.raised = true → v.port.raised = true)) ∨
    (v.port.bctx = true ∧ v'.hba = ahciPortIntr v.hba v'.port)

theorem write_fis_notices {v : PortView} (attached : v.port.bctx = true) (ft : SataFisType)
    (fis : List (BitVec 8)) : Notices v (ahciWriteFis v ft fis) := by
  unfold ahciWriteFis
  cases v.port.rfis with
  | none => exact ⟨rfl, rfl, .inl ⟨rfl, id⟩⟩
  | some address =>
    cases fisArea ft with
    | none => exact ⟨rfl, rfl, .inl ⟨rfl, id⟩⟩
    | some area =>
      dsimp only
      split_ifs
      · exact ⟨rfl, rfl, .inl ⟨rfl, id⟩⟩
      · exact ⟨rfl, rfl, .inr ⟨attached, rfl⟩⟩
      · exact ⟨rfl, rfl, .inl ⟨rfl, id⟩⟩

theorem reset_fis_quiet (v : PortView) :
    (ahciWriteResetFisD2h v).hba = v.hba ∧ (ahciWriteResetFisD2h v).port.is = v.port.is ∧
      (ahciWriteResetFisD2h v).port.ie = v.port.ie ∧
      (ahciWriteResetFisD2h v).port.bctx = v.port.bctx ∧
      (ahciWriteResetFisD2h v).port.port = v.port.port := by
  unfold ahciWriteResetFisD2h ahciWriteFis
  cases v.port.rfis with
  | none => exact ⟨rfl, rfl, rfl, rfl, rfl⟩
  | some address =>
    have silent : ∀ is a b : BitVec 32, ∀ c d : BitVec 8,
        ¬ (~~~is &&& fisIrq [fisRegd2h, 0, 0, 1, 1, c, d, 0, 0, 0, 0, 0, 1, 0, 0, 0, 0, 0, 0, 0] a
          ≠ 0) := by
      intro is a b c d
      simp [fisIrq, fisFailed, fisByte]
    simp only [fisArea]
    rw [if_neg (silent _ _ 0 _ _)]
    split_ifs <;> exact ⟨rfl, rfl, rfl, rfl, rfl⟩

theorem port_reset_quiet (v : PortView) :
    (ahciPortReset v).hba = v.hba ∧ (ahciPortReset v).port.is = v.port.is ∧
      (ahciPortReset v).port.ie = v.port.ie ∧ (ahciPortReset v).port.bctx = v.port.bctx ∧
      (ahciPortReset v).port.port = v.port.port := by
  unfold ahciPortReset
  dsimp only
  split
  · exact ⟨rfl, rfl, rfl, rfl, rfl⟩
  · exact reset_fis_quiet _

theorem port_reset_notices (v : PortView) : Notices v (ahciPortReset v) := by
  obtain ⟨hba, is, ie, bctx, port⟩ := port_reset_quiet v
  refine ⟨port, bctx, .inl ⟨hba, fun raised => ?_⟩⟩
  rw [AhciPort.raised, is, ie] at raised
  exact raised

theorem write_sctl_notices (value : BitVec 32) (v : PortView) :
    Notices v (portWriteSctl value v) := by
  unfold portWriteSctl
  dsimp only
  split
  · obtain ⟨port, bctx, intr⟩ := port_reset_notices ⟨v.hba, { v.port with sctl := value }⟩
    exact ⟨port, bctx, intr⟩
  · exact ⟨rfl, rfl, .inl ⟨rfl, id⟩⟩

theorem write_is_notices {value : BitVec 32} {v v' : PortView}
    (taken : portWriteIs value v = .ok v') : Notices v v' := by
  unfold portWriteIs at taken
  dsimp only at taken
  split at taken
  · rename_i attached
    cases taken
    exact ⟨rfl, rfl, .inr ⟨attached, rfl⟩⟩
  · cases taken

theorem write_ie_notices {value : BitVec 32} {v v' : PortView}
    (taken : portWriteIe value v = .ok v') : Notices v v' := by
  unfold portWriteIe at taken
  dsimp only at taken
  split at taken
  · rename_i attached
    cases taken
    exact ⟨rfl, rfl, .inr ⟨attached, rfl⟩⟩
  · cases taken

theorem deliver_notices {ft : SataFisType} {fis : List (BitVec 8)} {v v' : PortView}
    (taken : deliver ft fis v = .ok v') : Notices v v' := by
  unfold deliver at taken
  split at taken
  · rename_i attached
    cases taken
    exact write_fis_notices attached ft fis
  · cases taken

structure IntrInv (s : PciAhciSoftc) : Prop where
  few : s.hba.ports ≤ maxPorts
  some_ : s.hba.ports ≠ 0
  numbered : ∀ i, (s.port i).bctx = true → (s.port i).port = i
  seen : ∀ i < s.hba.ports, (s.port i).raised = true → s.hba.is.getLsbD i = true
  line : s.hba.ascPi.lintr = s.hba.lineOf

variable {s : PciAhciSoftc} {i : Nat} {v : PortView}

theorem notices_kept (moves : Notices (s.view i) v) : s.hba.Kept v.hba := by
  obtain ⟨same, -⟩ | ⟨-, raised⟩ := moves.intr
  · rw [same]
    exact ⟨rfl, rfl, rfl, id⟩
  · rw [raised]
    exact port_intr_kept s.hba v.port

theorem notices_is (inv : IntrInv s) (inside : i < s.hba.ports) (moves : Notices (s.view i) v) :
    (v.port.raised = true → v.hba.is.getLsbD i = true) ∧
      (∀ j, s.hba.is.getLsbD j = true → v.hba.is.getLsbD j = true) ∧
      ∀ j, v.hba.is.getLsbD j = true → s.hba.is.getLsbD j = false → j = i := by
  obtain ⟨same, still⟩ | ⟨attached, raised⟩ := moves.intr
  · rw [same]
    refine ⟨fun now => inv.seen i inside (still now), fun j set_ => set_, fun j set_ clear => ?_⟩
    have set_ : s.hba.is.getLsbD j = true := set_
    rw [clear] at set_
    cases set_
  · have number : v.port.port = i := moves.port.trans (inv.numbered i attached)
    rw [raised]
    change (v.port.raised = true → (ahciPortIntr s.hba v.port).is.getLsbD i = true) ∧
      (∀ j, s.hba.is.getLsbD j = true → (ahciPortIntr s.hba v.port).is.getLsbD j = true) ∧
      ∀ j, (ahciPortIntr s.hba v.port).is.getLsbD j = true → s.hba.is.getLsbD j = false → j = i
    cases now : v.port.raised with
    | false =>
      rw [port_intr_quiet now]
      refine ⟨nofun, fun j set_ => set_, fun j set_ clear => ?_⟩
      rw [clear] at set_
      cases set_
    | true =>
      rw [port_intr_is now, number]
      refine ⟨fun _ => get_add_same _ (Nat.lt_of_lt_of_le inside inv.few),
        fun j set_ => get_add_of_get i set_, fun j set_ clear => ?_⟩
      by_contra apart
      rw [get_add_other _ apart, clear] at set_
      cases set_

theorem store_port_same : (s.store i v).port i = v.port := Function.update_self ..

theorem store_port_other {j : Nat} (apart : j ≠ i) : (s.store i v).port j = s.port j :=
  Function.update_of_ne apart ..

theorem store_inv (inv : IntrInv s) (inside : i < s.hba.ports) (moves : Notices (s.view i) v) :
    IntrInv (s.store i v) := by
  have kept := notices_kept moves
  obtain ⟨own, grows, -⟩ := notices_is inv inside moves
  refine ⟨kept.ports ▸ inv.few, kept.ports ▸ inv.some_, fun j attached => ?_, fun j range now => ?_,
    kept.line inv.line⟩
  · by_cases same : j = i
    · subst same
      rw [store_port_same] at attached ⊢
      exact moves.port.trans (inv.numbered j (moves.bctx.symm.trans attached))
    · rw [store_port_other same] at attached ⊢
      exact inv.numbered j attached
  · by_cases same : j = i
    · subst same
      rw [store_port_same] at now
      exact own now
    · rw [store_port_other same] at now
      exact grows j (inv.seen j (kept.ports ▸ range) now)

theorem store_sound (inv : IntrInv s) (empty : s.hba.ascPi.msis = []) (inside : i < s.hba.ports)
    (moves : Notices (s.view i) v) {e : IntrEvent} (local_ : ∀ j, e.rewrites j = false) :
    IntrSound s e (s.store i v) := by
  have kept := notices_kept moves
  obtain ⟨-, -, only⟩ := notices_is inv inside moves
  have messages : (s.store i v).msgOf i = portMsg s.hba.ports (pciMsiMaxmsgnum s.hba.ascPi) i := by
    change portMsg v.hba.ports (pciMsiMaxmsgnum v.hba.ascPi) i = _
    rw [kept.ports, kept.nmsg]
  refine ⟨(store_inv inv inside moves).seen, ?_, ?_⟩
  · intro j _ positive enabled set_ fresh
    obtain clear | never := fresh
    · have own : j = i := only j set_ clear
      subst own
      rw [messages]
      obtain ⟨same, -⟩ | ⟨attached, raised⟩ := moves.intr
      · have set_ : v.hba.is.getLsbD j = true := set_
        have before : v.hba.is.getLsbD j = s.hba.is.getLsbD j := by rw [same]; rfl
        rw [before, clear] at set_
        cases set_
      · have number : v.port.port = j := moves.port.trans (inv.numbered j attached)
        change portMsg _ _ j ∈ v.hba.ascPi.msis
        have raised : v.hba = ahciPortIntr s.hba v.port := raised
        have pending : v.port.raised = true := by
          by_contra quiet
          have set_ : v.hba.is.getLsbD j = true := set_
          rw [raised, port_intr_quiet (by simpa using quiet), clear] at set_
          cases set_
        have positive : 0 < pciMsiMaxmsgnum s.hba.ascPi := by
          rw [← kept.nmsg]
          exact positive
        have enabled : s.hba.intrEnabled = true := by
          rw [← kept_enabled kept]
          exact enabled
        rw [raised, port_intr_msis (by rw [number]; exact inside) empty, if_pos, number]
        · exact mem_singleton_self _
        · exact ⟨pending, enabled, positive, .inr (by rw [number]; exact clear)⟩
    · rw [local_ j] at never
      cases never
  · intro m member
    obtain ⟨same, -⟩ | ⟨attached, raised⟩ := moves.intr
    · have member : m ∈ v.hba.ascPi.msis := member
      have nothing : v.hba.ascPi.msis = [] := by rw [same]; exact empty
      rw [nothing] at member
      cases member
    · have number : v.port.port = i := moves.port.trans (inv.numbered i attached)
      have raised : v.hba = ahciPortIntr s.hba v.port := raised
      have member : m ∈ v.hba.ascPi.msis := member
      rw [raised, port_intr_msis (by rw [number]; exact inside) empty] at member
      split at member
      · rename_i all
        refine ⟨i, kept.ports ▸ inside, ?_, ?_⟩
        · rw [messages, List.mem_singleton.mp member, number]
        · change v.hba.is.getLsbD i = true
          rw [raised, port_intr_is all.1, number]
          exact get_add_same _ (Nat.lt_of_lt_of_le inside inv.few)
      · cases member

theorem store_legacy (inv : IntrInv s) (inside : i < s.hba.ports) (moves : Notices (s.view i) v)
    (legacy : s.nmsg = 0) (follows : s.hba.lintr = true ↔ s.hba.is ≠ 0 ∧ s.hba.intrEnabled = true) :
    v.hba.lintr = true ↔ v.hba.is ≠ 0 ∧ v.hba.intrEnabled = true := by
  obtain ⟨same, -⟩ | ⟨attached, raised⟩ := moves.intr
  · rw [same]
    exact follows
  · have number : v.port.port = i := moves.port.trans (inv.numbered i attached)
    rw [raised]
    exact port_intr_legacy legacy inv.some_
      (by rw [number]; exact Nat.lt_of_lt_of_le inside inv.few) follows

end

theorem reset_port_quiet (v : PortView) : (resetPort v).hba = v.hba ∧ (resetPort v).port.is = 0 ∧
      (resetPort v).port.bctx = v.port.bctx ∧ (resetPort v).port.port = v.port.port := by
  obtain ⟨hba, is, -, bctx, port⟩ := port_reset_quiet
    ⟨v.hba, { v.port with
      ie := 0, is := 0
      cmd := if v.port.bctx then cmdSud ||| cmdPod ||| cmdCps else cmdSud ||| cmdPod
      sctl := 0 }⟩
  exact ⟨hba, is, bctx, port⟩

def resetPorts (ports : List Nat) : PciAhciSoftc :=
  ports.foldl (fun s i => s.store i (resetPort (s.view i))) s

theorem reset_ports_spec (ports : List Nat) : ∀ s : PciAhciSoftc, (resetPorts s ports).hba = s.hba ∧
      (∀ i, ((resetPorts s ports).port i).bctx = (s.port i).bctx ∧
        ((resetPorts s ports).port i).port = (s.port i).port) ∧
      ∀ i, i ∈ ports ∨ (s.port i).is = 0 → ((resetPorts s ports).port i).is = 0 := by
  induction ports with
  | nil =>
    intro s
    exact ⟨rfl, fun i => ⟨rfl, rfl⟩, fun i zero => zero.resolve_left (by simp)⟩
  | cons k rest ih =>
    intro s
    obtain ⟨hba, is, bctx, port⟩ := reset_port_quiet (s.view k)
    obtain ⟨hba', same, zero⟩ := ih (s.store k (resetPort (s.view k)))
    refine ⟨hba'.trans hba, fun i => ?_, fun i before => zero i ?_⟩
    · by_cases here : i = k
      · subst here
        have there := same i
        rw [store_port_same] at there
        exact ⟨there.1.trans bctx, there.2.trans port⟩
      · have there := same i
        rw [store_port_other here] at there
        exact there
    · by_cases here : i = k
      · subst here
        rw [store_port_same]
        exact .inr is
      · rw [store_port_other here]
        obtain member | clear := before
        · exact .inl ((List.mem_cons.mp member).resolve_left here)
        · exact .inr clear

structure Cleared (s s' : PciAhciSoftc) : Prop where
  ports : s'.hba.ports = s.hba.ports
  nmsg : s'.nmsg = s.nmsg
  msis : s'.hba.ascPi.msis = s.hba.ascPi.msis
  is : s'.hba.is = 0
  lintr : s'.hba.lintr = false
  line : s.hba.ascPi.lintr = s.hba.lineOf → s'.hba.ascPi.lintr = .idle
  same : ∀ i, (s'.port i).bctx = (s.port i).bctx ∧ (s'.port i).port = (s.port i).port
  quiet : ∀ i < s.hba.ports, (s'.port i).raised = false

theorem reset_cleared : Cleared s (ahciReset s) := by
  have clears : ∀ h : Hba, h.ports = s.hba.ports → pciMsiMaxmsgnum h.ascPi = s.nmsg →
      h.ascPi.msis = s.hba.ascPi.msis → h.is = 0 → h.lintr = false →
      (s.hba.ascPi.lintr = s.hba.lineOf → h.ascPi.lintr = .idle) →
      Cleared s (resetPorts { s with hba := h } (List.range h.ports)) := by
    intro h ports nmsg msis is lintr line
    obtain ⟨hba, same, zero⟩ := reset_ports_spec (List.range h.ports) { s with hba := h }
    refine ⟨by rw [hba, ports], by rw [PciAhciSoftc.nmsg, hba, nmsg], by rw [hba, msis],
      by rw [hba, is], by rw [hba, lintr], fun before => by rw [hba, line before], same,
      fun i inside => ?_⟩
    rw [AhciPort.raised, zero i (.inl (List.mem_range.mpr (ports ▸ inside)))]
    simp
  change Cleared s (resetPorts _ _)
  cases held : s.hba.lintr with
  | true => exact clears _ (by rfl) (by rfl) (by rfl) (by rfl) (by rfl) (fun _ => rfl)
  | false =>
    refine clears _ (by rfl) (by rfl) (by rfl) (by rfl) held fun line => ?_
    exact line.trans (by rw [Hba.lineOf, held]; rfl)

theorem cleared_inv {s s' : PciAhciSoftc} (cleared : Cleared s s') (few : s.hba.ports ≤ maxPorts)
    (some_ : s.hba.ports ≠ 0) (numbered : ∀ i, (s.port i).bctx = true → (s.port i).port = i)
    (line : s.hba.ascPi.lintr = s.hba.lineOf) : IntrInv s' := by
  refine ⟨cleared.ports ▸ few, cleared.ports ▸ some_, fun i attached => ?_, fun i inside now => ?_,
    ?_⟩
  · rw [(cleared.same i).2]
    exact numbered i ((cleared.same i).1 ▸ attached)
  · rw [cleared.quiet i (cleared.ports ▸ inside)] at now
    cases now
  · rw [cleared.line line, Hba.lineOf, cleared.lintr]
    rfl

section
variable {s : PciAhciSoftc}

theorem mmask_own {ports nmsg i : Nat} (inside : i < ports) (few : ports ≤ maxPorts)
    (positive : 0 < nmsg) : (mmask ports nmsg (portMsg ports nmsg i)).getLsbD i = true := by
  have narrow : i < 32 := Nat.lt_of_lt_of_le inside few
  unfold mmask portMsg
  by_cases own : ports ≤ nmsg ∨ i + 1 < nmsg
  · rw [if_pos own, if_pos own, Nat.mod_eq_of_lt narrow, getLsbD_shiftLeft]
    simp [narrow]
  · have last : nmsg - 1 < 32 := by omega
    have after : nmsg - 1 ≤ i := by omega
    have shared : ¬ (ports ≤ nmsg ∨ nmsg - 1 + 1 < nmsg) := by omega
    rw [if_neg own, if_neg shared, Nat.mod_eq_of_lt last, getLsbD_shiftLeft]
    have ones : (0xffffffff#32).getLsbD (i - (nmsg - 1)) = true := by
      have within : i - (nmsg - 1) < 32 := by omega
      rw [show (0xffffffff#32) = BitVec.allOnes 32 from rfl, getLsbD_allOnes]
      exact decide_eq_true within
    simp [narrow, ones, after]

theorem message_in_range {ports nmsg i : Nat} (inside : i < ports) (positive : 0 < nmsg) :
    portMsg ports nmsg i < nmsg := by
  unfold portMsg
  split_ifs <;> omega

section
variable {before : PciAhciSoftc} (inv : IntrInv before) (few : s.hba.ports ≤ maxPorts)
  (ports : s.hba.ports = before.hba.ports) (same : s.port = before.port)
include inv few ports same

theorem generate_sound (empty : s.hba.ascPi.msis = []) {mask : BitVec 32}
    (fewer : ∀ k, s.hba.is.getLsbD k = true → before.hba.is.getLsbD k = true) {e : IntrEvent}
    (written : ∀ i, e.rewrites i = true → mask.getLsbD i = true) :
    IntrSound before e { s with hba := ahciGenerateIntr s mask } ↔
      (s.hba.intrEnabled = true → s.Exact s.hba.is mask) := by
  have kept := generate_intr_kept s mask
  have get := @generate_intr_get s mask few
  have messages : ∀ i, portMsg (ahciGenerateIntr s mask).ports
      (pciMsiMaxmsgnum (ahciGenerateIntr s mask).ascPi) i = s.msgOf i := by
    intro i
    rw [kept.ports, kept.nmsg]
    rfl
  constructor
  · rintro ⟨-, -, sent⟩ enabled ⟨k, -, pending, touched⟩ m range meets
    have member : m ∈ (ahciGenerateIntr s mask).ascPi.msis := by
      rw [generate_intr_sent empty]
      refine ⟨range, enabled, (meet_iff _ _).mpr ⟨k, ?_, touched⟩, meets⟩
      rw [get]
      exact pending
    obtain ⟨i, inside, assigned, set_⟩ := sent m member
    exact ⟨i, kept.ports ▸ inside, (messages i).symm.trans assigned, (get i).symm.trans set_⟩
  · intro exact_
    refine ⟨fun i inside now => ?_, fun i inside positive enabled set_ fresh => ?_,
      fun m member => ?_⟩
    · have inside : i < s.hba.ports := kept.ports ▸ inside
      rw [get, PciAhciSoftc.again, Bool.or_eq_true, Bool.and_eq_true]
      exact .inr ⟨decide_eq_true inside, now⟩
    · have inside : i < s.hba.ports := kept.ports ▸ inside
      have positive : 0 < s.nmsg := by
        rw [PciAhciSoftc.nmsg, ← kept.nmsg]
        exact positive
      have touched : mask.getLsbD i = true := by
        obtain clear | here := fresh
        · have pending : s.again s.hba.is i = true := (get i).symm.trans set_
          rw [PciAhciSoftc.again, Bool.or_eq_true, Bool.and_eq_true] at pending
          obtain was | ⟨-, raised⟩ := pending
          · rw [fewer i was] at clear
            cases clear
          · rw [inv.seen i (ports ▸ inside) (by rw [← same]; exact raised)] at clear
            cases clear
        · exact written i here
      change portMsg (ahciGenerateIntr s mask).ports
        (pciMsiMaxmsgnum (ahciGenerateIntr s mask).ascPi) i ∈ (ahciGenerateIntr s mask).ascPi.msis
      rw [messages, generate_intr_sent empty]
      exact ⟨message_in_range inside positive,
        (kept_enabled kept).symm.trans enabled, (meet_iff _ _).mpr ⟨i, set_, touched⟩,
        (meet_iff _ _).mpr ⟨i, mmask_own inside few positive, touched⟩⟩
    · obtain ⟨range, enabled, meets, touched⟩ := (generate_intr_sent empty m).mp member
      obtain ⟨k, pending, inMask⟩ := (meet_iff _ _).mp meets
      have narrow : k < 32 := lt_of_getLsbD inMask
      obtain ⟨i, inside, assigned, set_⟩ :=
        exact_ enabled ⟨k, narrow, (get k).symm.trans pending, inMask⟩ m range touched
      exact ⟨i, kept.ports ▸ inside, (messages i).trans assigned, (get i).trans set_⟩

theorem generate_inv (line : s.hba.ascPi.lintr = s.hba.lineOf) (mask : BitVec 32) :
    IntrInv { s with hba := ahciGenerateIntr s mask } := by
  have kept := generate_intr_kept s mask
  refine ⟨kept.ports ▸ few, ?_, fun i attached => ?_, fun i inside now => ?_, kept.line line⟩
  · rw [kept.ports, ports]
    exact inv.some_
  · rw [same] at attached
    exact (congrArg AhciPort.port (congrFun same i)).trans (inv.numbered i attached)
  · have inside : i < s.hba.ports := kept.ports ▸ inside
    rw [generate_intr_get few, PciAhciSoftc.again, Bool.or_eq_true, Bool.and_eq_true]
    exact .inr ⟨decide_eq_true inside, now⟩

end

theorem enabled_after_set (ghc : BitVec 32) : (ghc ||| ghcIe) &&& ghcIe ≠ 0 :=
  (meet_iff _ _).mpr ⟨1, by simp [ghcIe], by decide⟩

theorem disabled_after_clear (ghc : BitVec 32) : (ghc &&& ~~~ghcIe) &&& ghcIe = 0 := by
  rw [BitVec.and_assoc, show ~~~ghcIe &&& ghcIe = 0 by decide]
  exact and_zero

def ghcWritten (s : PciAhciSoftc) (value : BitVec 32) : PciAhciSoftc :=
  { s with hba := { s.hba with
      ghc := if value &&& ghcIe ≠ 0 then s.hba.ghc ||| ghcIe else s.hba.ghc &&& ~~~ghcIe } }

def isWritten (s : PciAhciSoftc) (value : BitVec 32) : PciAhciSoftc :=
  { s with hba := { s.hba with is := s.hba.is &&& ~~~value } }

theorem ghc_written_enabled (s : PciAhciSoftc) (value : BitVec 32) :
    (ghcWritten s value).hba.intrEnabled = true ↔ value &&& ghcIe ≠ 0 := by
  unfold ghcWritten Hba.intrEnabled
  split_ifs with set_
  · exact ⟨fun _ => set_, fun _ => decide_eq_true (enabled_after_set s.hba.ghc)⟩
  · rw [disabled_after_clear]
    simpa using set_

theorem host_write_cases (s : PciAhciSoftc) (offset : Nat) (value : BitVec 32) :
    (offset = ahciGhc ∧ value &&& ghcHr ≠ 0 ∧ pciAhciHostWrite s offset value = ahciReset s) ∨
    (offset = ahciGhc ∧ value &&& ghcHr = 0 ∧ pciAhciHostWrite s offset value =
      ⟨ahciGenerateIntr (ghcWritten s value) 0xffffffff, (ghcWritten s value).port⟩) ∨
    (offset = ahciIs ∧ pciAhciHostWrite s offset value =
      ⟨ahciGenerateIntr (isWritten s value) value, (isWritten s value).port⟩) ∨
    (offset ≠ ahciGhc ∧ offset ≠ ahciIs ∧ pciAhciHostWrite s offset value = s) := by
  unfold pciAhciHostWrite
  by_cases ghc : offset = ahciGhc
  · rw [if_pos ghc]
    by_cases reset : value &&& ghcHr ≠ 0
    · rw [if_pos reset]
      exact .inl ⟨ghc, reset, rfl⟩
    · rw [if_neg reset]
      exact .inr (.inl ⟨ghc, not_not.mp reset, rfl⟩)
  · rw [if_neg ghc]
    by_cases is : offset = ahciIs
    · rw [if_pos is]
      exact .inr (.inr (.inl ⟨is, rfl⟩))
    · rw [if_neg is]
      exact .inr (.inr (.inr ⟨ghc, is, rfl⟩))

end

section
variable {s s' : PciAhciSoftc} {e : IntrEvent}

def IntrEvent.Local (e : IntrEvent) : Prop :=
  (∀ j, e.rewrites j = false) ∧ ∀ s, ExactWrite s e

theorem at_port_cases {i : Nat} {act : PortView → Except Fault PortView}
    (taken : atPort s i act = .ok s') :
    s' = s ∨ ∃ v, i < s.hba.ports ∧ act (s.view i) = .ok v ∧ s' = s.store i v := by
  unfold atPort at taken
  split at taken
  · rename_i inside
    cases done : act (s.view i) with
    | error fault =>
      rw [done] at taken
      cases taken
    | ok v =>
      rw [done] at taken
      cases taken
      exact .inr ⟨v, inside, rfl, rfl⟩
  · cases taken
    exact .inl rfl

/-- The device is left with the same line up to what INTx allows, and nothing is sent. -/
structure Rerouted (pi pi' : PciDevinst) (lintr : Bool) : Prop where
  msis : pi'.msis = pi.msis
  line : pi.lintr = (if lintr then if pciLintrPermitted pi then .asserted else .pending else .idle) →
    pi'.lintr = if lintr then if pciLintrPermitted pi' then .asserted else .pending else .idle

theorem lintr_update_rerouted {pi pi' : PciDevinst} (lintr : Bool) (msis : pi'.msis = pi.msis)
    (same : pi'.lintr = pi.lintr) : Rerouted pi (pciLintrUpdate pi') lintr := by
  have permitted : pciLintrPermitted (pciLintrUpdate pi') = pciLintrPermitted pi' := by
    unfold pciLintrUpdate
    split_ifs <;> rfl
  refine ⟨?_, fun line => ?_⟩
  · rw [← msis]
    unfold pciLintrUpdate
    split_ifs <;> rfl
  · rw [permitted]
    unfold pciLintrUpdate
    cases lintr with
    | false => simp [same, line]
    | true =>
      rw [← same] at line
      cases before : pciLintrPermitted pi <;> cases after : pciLintrPermitted pi' <;>
        simp [line, before]

theorem intr_apply_cases (taken : intrApply s e = .ok s') : (e.Local ∧ s' = s) ∨
    (e.Local ∧ ∃ i v, i < s.hba.ports ∧ Notices (s.view i) v ∧ s' = s.store i v) ∨
    (∃ offset value, e = .hostWrite offset value ∧ s' = pciAhciHostWrite s offset value) ∨
    (e.Local ∧ ∃ pi, Rerouted s.hba.ascPi pi s.hba.lintr ∧ s' = s.withPi pi ∧
      (e.enablesMsi = false → s.nmsg = 0 → s'.nmsg = 0)) := by
  have portCases : ∀ {i act}, atPort s i act = .ok s' → e.Local →
      (∀ v, act (s.view i) = .ok v → Notices (s.view i) v) →
      (e.Local ∧ s' = s) ∨
      (e.Local ∧ ∃ i v, i < s.hba.ports ∧ Notices (s.view i) v ∧ s' = s.store i v) := by
    intro i act taken local_ moves
    obtain same | ⟨v, inside, done, stored⟩ := at_port_cases taken
    · exact .inl ⟨local_, same⟩
    · exact .inr ⟨local_, i, v, inside, moves v done, stored⟩
  have assoc : ∀ {p q r : Prop}, p ∨ q → p ∨ q ∨ r := fun either => either.imp_right .inl
  cases e with
  | deliver i ft fis =>
    exact assoc (portCases taken ⟨fun _ => rfl, fun _ => trivial⟩ fun v => deliver_notices)
  | receive i rfis cmd =>
    refine assoc (@portCases i (fun v => .ok (receive rfis cmd v)) taken
      ⟨fun _ => rfl, fun _ => trivial⟩ fun v done => ?_)
    cases done
    exact ⟨rfl, rfl, .inl ⟨rfl, id⟩⟩
  | portIs i value =>
    exact assoc (portCases taken ⟨fun _ => rfl, fun _ => trivial⟩ fun v => write_is_notices)
  | portIe i value =>
    exact assoc (portCases taken ⟨fun _ => rfl, fun _ => trivial⟩ fun v => write_ie_notices)
  | portSctl i value =>
    refine assoc (@portCases i (fun v => .ok (portWriteSctl value v)) taken
      ⟨fun _ => rfl, fun _ => trivial⟩ fun v done => ?_)
    cases done
    exact write_sctl_notices value _
  | hostWrite offset value =>
    cases taken
    exact .inr (.inr (.inl ⟨offset, value, rfl, rfl⟩))
  | msi enable mme =>
    cases taken
    refine .inr (.inr (.inr ⟨⟨fun _ => rfl, fun _ => trivial⟩,
      msicapCfgwrite s.hba.ascPi enable mme, lintr_update_rerouted _ rfl rfl, rfl,
      fun off legacy => ?_⟩))
    subst off
    change pciMsiMaxmsgnum (pciLintrUpdate _) = 0
    unfold pciLintrUpdate
    split_ifs <;> rfl
  | intx disable =>
    cases taken
    refine .inr (.inr (.inr ⟨⟨fun _ => rfl, fun _ => trivial⟩,
      pciLintrUpdate { s.hba.ascPi with intxDis := disable }, lintr_update_rerouted _ rfl rfl, rfl,
      fun _ legacy => ?_⟩))
    unfold pciLintrUpdate
    split_ifs <;> exact legacy

theorem inv_with_pi (inv : IntrInv s) {pi : PciDevinst}
    (moved : Rerouted s.hba.ascPi pi s.hba.lintr) : IntrInv (s.withPi pi) :=
  ⟨inv.few, inv.some_, inv.numbered, inv.seen, moved.line inv.line⟩

theorem apply_inv (inv : IntrInv s) (taken : intrApply s e = .ok s') : IntrInv s' := by
  obtain ⟨-, same⟩ | ⟨-, i, v, inside, moves, stored⟩ | ⟨offset, value, -, written⟩ |
    ⟨-, pi, moved, withPi, -⟩ := intr_apply_cases taken
  · rw [same]
    exact inv
  · rw [stored]
    exact store_inv inv inside moves
  · rw [written]
    obtain ⟨-, -, reset⟩ | ⟨-, -, ghc⟩ | ⟨-, is⟩ | ⟨-, -, same⟩ :=
      host_write_cases s offset value
    · rw [reset]
      exact cleared_inv (reset_cleared s) inv.few inv.some_ inv.numbered inv.line
    · rw [ghc]
      exact @generate_inv (ghcWritten s value) s inv inv.few rfl rfl inv.line 0xffffffff
    · rw [is]
      exact @generate_inv (isWritten s value) s inv inv.few rfl rfl inv.line value
    · rw [same]
      exact inv
  · rw [withPi]
    exact inv_with_pi inv moved

theorem silent_sound {before : PciAhciSoftc} (inv : IntrInv s') (empty : s'.hba.ascPi.msis = [])
    (local_ : ∀ j, e.rewrites j = false)
    (is : ∀ j, s'.hba.is.getLsbD j = true → before.hba.is.getLsbD j = true) :
    IntrSound before e s' := by
  refine ⟨inv.seen, fun i _ _ _ set_ fresh => ?_, fun m member => ?_⟩
  · obtain clear | never := fresh
    · rw [is i set_] at clear
      cases clear
    · rw [local_ i] at never
      cases never
  · rw [empty] at member
    cases member

theorem apply_sound_iff (inv : IntrInv s) (empty : s.hba.ascPi.msis = [])
    (taken : intrApply s e = .ok s') : IntrSound s e s' ↔ ExactWrite s e := by
  have inv' := apply_inv inv taken
  obtain ⟨local_, same⟩ | ⟨local_, i, v, inside, moves, stored⟩ | ⟨offset, value, shape, written⟩ |
    ⟨local_, pi, moved, withPi, -⟩ := intr_apply_cases taken
  · rw [same]
    exact iff_of_true (silent_sound inv empty local_.1 fun _ => id) (local_.2 s)
  · rw [stored]
    exact iff_of_true (store_sound inv empty inside moves local_.1) (local_.2 s)
  · subst shape
    rw [written] at inv' ⊢
    have apart : ahciGhc ≠ ahciIs := by decide
    obtain ⟨ghc, reset, after⟩ | ⟨ghc, quiet, after⟩ | ⟨is, after⟩ | ⟨ghc, is, after⟩ :=
      host_write_cases s offset value
    · have cleared := reset_cleared s
      rw [after] at inv' ⊢
      refine iff_of_true (silent_sound inv' (cleared.msis.trans empty) (fun j => ?_) fun j set_ => ?_)
        ?_
      · rw [IntrEvent.rewrites, ghc, decide_eq_false apart, Bool.false_and]
      · rw [cleared.is] at set_
        simp at set_
      · rw [ExactWrite, if_pos ghc]
        exact fun never => absurd never reset
    · rw [after, @generate_sound (ghcWritten s value) s inv inv.few rfl rfl empty 0xffffffff
        (fun _ => id) _ fun j never => ?_, ExactWrite, if_pos ghc]
      · have enabled := ghc_written_enabled s value
        exact ⟨fun holds _ set_ => holds (enabled.mpr set_),
          fun holds set_ => holds quiet (enabled.mp set_)⟩
      · rw [IntrEvent.rewrites, ghc, decide_eq_false apart, Bool.false_and] at never
        cases never
    · rw [after, @generate_sound (isWritten s value) s inv inv.few rfl rfl empty value
        (fun k set_ => ?_) _ fun j written => ?_, ExactWrite,
        if_neg (by rw [is]; exact apart.symm), if_pos is]
      · exact Iff.rfl
      · rw [isWritten, getLsbD_and, Bool.and_eq_true] at set_
        exact set_.1
      · rw [IntrEvent.rewrites, Bool.and_eq_true] at written
        exact written.2
    · rw [after] at inv' ⊢
      refine iff_of_true (silent_sound inv' empty (fun j => ?_) fun _ => id) ?_
      · rw [IntrEvent.rewrites, decide_eq_false is, Bool.false_and]
      · rw [ExactWrite, if_neg ghc, if_neg is]
        trivial
  · rw [withPi] at inv' ⊢
    exact iff_of_true (silent_sound inv' (moved.msis.trans empty) local_.1 fun _ => id)
      (local_.2 s)

theorem apply_legacy (inv : IntrInv s) (legacy : s.nmsg = 0)
    (follows : s.hba.lintr = true ↔ s.hba.is ≠ 0 ∧ s.hba.intrEnabled = true)
    (off : e.enablesMsi = false) (taken : intrApply s e = .ok s') :
    s'.nmsg = 0 ∧ (s'.hba.lintr = true ↔ s'.hba.is ≠ 0 ∧ s'.hba.intrEnabled = true) := by
  obtain ⟨-, same⟩ | ⟨-, i, v, inside, moves, stored⟩ | ⟨offset, value, -, written⟩ |
    ⟨-, pi, -, withPi, still⟩ := intr_apply_cases taken
  · rw [same]
    exact ⟨legacy, follows⟩
  · rw [stored]
    exact ⟨(notices_kept moves).nmsg.trans legacy, store_legacy inv inside moves legacy follows⟩
  · rw [written]
    obtain ⟨-, -, reset⟩ | ⟨-, -, ghc⟩ | ⟨-, is⟩ | ⟨-, -, same⟩ :=
      host_write_cases s offset value
    · have cleared := reset_cleared s
      rw [reset, cleared.nmsg, cleared.is, cleared.lintr]
      exact ⟨legacy, by simp⟩
    · rw [ghc]
      exact ⟨(generate_intr_kept (ghcWritten s value) _).nmsg.trans legacy,
        @generate_intr_legacy (ghcWritten s value) 0xffffffff legacy⟩
    · rw [is]
      exact ⟨(generate_intr_kept (isWritten s value) _).nmsg.trans legacy,
        @generate_intr_legacy (isWritten s value) value legacy⟩
    · rw [same]
      exact ⟨legacy, follows⟩
  · have zero := still off legacy
    rw [withPi] at zero ⊢
    exact ⟨zero, follows⟩

end

theorem init_inv (disks : List (Option Bool)) : IntrInv (pciAhciInit disks) := by
  refine cleared_inv (reset_cleared _) ?_ ?_ (fun i attached => ?_) rfl
  · rw [length_take]
    exact Nat.max_le.mpr ⟨Nat.min_le_left _ _, by decide⟩
  · exact Nat.ne_of_gt (Nat.lt_of_lt_of_le (by decide) (Nat.le_max_right _ _))
  · have attached : (initPort (disks.take maxPorts) i).bctx = true := attached
    change (initPort (disks.take maxPorts) i).port = i
    unfold initPort at attached ⊢
    cases disk : (disks.take maxPorts).getD i none with
    | none =>
      rw [disk] at attached
      cases attached
    | some atapi => rfl

theorem init_legacy (disks : List (Option Bool)) :
    (pciAhciInit disks).nmsg = 0 ∧ ((pciAhciInit disks).hba.lintr = true ↔
      (pciAhciInit disks).hba.is ≠ 0 ∧ (pciAhciInit disks).hba.intrEnabled = true) := by
  have cleared := reset_cleared ⟨emptyHba (max (disks.take maxPorts).length defPorts),
    initPort (disks.take maxPorts)⟩
  refine ⟨cleared.nmsg, ?_⟩
  have is : (pciAhciInit disks).hba.is = 0 := cleared.is
  have lintr : (pciAhciInit disks).hba.lintr = false := cleared.lintr
  rw [is, lintr]
  simp

theorem cleared_messages_inv {s : PciAhciSoftc} (inv : IntrInv s) :
    IntrInv (s.withPi { s.hba.ascPi with msis := [] }) :=
  ⟨inv.few, inv.some_, inv.numbered, inv.seen, inv.line⟩

theorem step_inv (e : IntrEvent) (s' : PciAhciSoftc) (inv : IntrInv s)
    (taken : intrStep s e = .ok s') : IntrInv s' :=
  apply_inv (cleared_messages_inv inv) taken

theorem step_sound_iff {s s' : PciAhciSoftc} {e : IntrEvent} (inv : IntrInv s)
    (taken : intrStep s e = .ok s') : IntrSound s e s' ↔ ExactWrite s e := by
  have agree := apply_sound_iff (cleared_messages_inv inv) rfl taken
  constructor
  · rintro ⟨seen, sends, sent⟩
    exact agree.mp ⟨seen, sends, sent⟩
  · intro exact_
    obtain ⟨seen, sends, sent⟩ := agree.mpr exact_
    exact ⟨seen, sends, sent⟩

theorem step_always_sound_iff (e : IntrEvent) (inv : IntrInv s) :
    (∀ s', intrStep s e = .ok s' → IntrSound s e s') ↔ ExactWrite s e := by
  constructor
  · intro sound
    cases e with
    | hostWrite offset value => exact (step_sound_iff inv rfl).mp (sound _ rfl)
    | _ => trivial
  · intro exact_ s' taken
    exact (step_sound_iff inv taken).mpr exact_

theorem line_along (events : List IntrEvent) : ∀ s, IntrInv s → s.nmsg = 0 →
    (s.hba.lintr = true ↔ s.hba.is ≠ 0 ∧ s.hba.intrEnabled = true) →
    (∀ e ∈ events, e.enablesMsi = false) →
    AlongStates (fun _ _ s' => LineSound s'.hba) s events := by
  induction events with
  | nil => intro s _ _ _ _; trivial
  | cons e rest ih =>
    intro s inv legacy follows off
    have here : ∀ s', intrStep s e = .ok s' → s'.nmsg = 0 ∧
        (s'.hba.lintr = true ↔ s'.hba.is ≠ 0 ∧ s'.hba.intrEnabled = true) := fun s' taken =>
      apply_legacy (cleared_messages_inv inv) legacy follows (off e mem_cons_self) taken
    refine ⟨fun s' taken => ⟨(here s' taken).2, (step_inv s e s' inv taken).line⟩, ?_⟩
    cases taken : intrStep s e with
    | error fault => trivial
    | ok s' =>
      exact ih s' (step_inv s e s' inv taken) (here s' taken).1 (here s' taken).2
        fun e' member => off e' (mem_cons_of_mem e member)

/-- In every run the interrupt state is as it should be exactly when each write of GHC and of IS
    that leaves a port pending sends the messages of pending ports only. -/
theorem interrupts_exact_iff (disks : List (Option Bool)) (events : List IntrEvent) :
    IntrState (pciAhciInit disks) events ↔
      AlongAttempts intrStep ExactWrite (pciAhciInit disks) events := by
  have agree : AlongStates IntrSound (pciAhciInit disks) events ↔ _ :=
    along_attempts_iff step_inv step_always_sound_iff events (pciAhciInit disks) (init_inv disks)
  obtain ⟨legacy, follows⟩ := init_legacy disks
  constructor
  · exact fun holds => agree.mp holds.sound
  · intro exact_
    exact ⟨agree.mpr exact_, fun off => ⟨⟨follows, (init_inv disks).line⟩,
      line_along events _ (init_inv disks) legacy follows off⟩⟩

def firstPortPending : List IntrEvent :=
  [.msi true 3, .receive 0 (some 0x1000) cmdFre, .portIe 0 ixDhr,
    .deliver 0 .regd2h [fisRegd2h, 0x40, 0x50]]

def PciAhciSoftc.enabling (s : PciAhciSoftc) : List Nat × BitVec 32 × Nat × Nat :=
  let s := pciAhciHostWrite (s.withPi { s.hba.ascPi with msis := [] }) ahciGhc ghcIe
  (s.hba.ascPi.msis, s.hba.is, s.hba.ports, s.nmsg)

theorem silent_ports_signalled : ¬ IntrState (pciAhciInit [some false, some false])
      (firstPortPending ++ [.hostWrite ahciGhc ghcIe]) := by
  intro holds
  obtain ⟨s, ran, after⟩ := @Fallible.value_of_result _ _ _ (attempts intrStep (pciAhciInit [some false, some false])
    firstPortPending) PciAhciSoftc.enabling ([0, 1, 2, 3, 4, 5, 6, 7], 1, 6, 8) (by decide)
  obtain ⟨-, -, sent⟩ := along_attempts_last firstPortPending _ ran holds.sound _ rfl
  simp only [PciAhciSoftc.enabling, Prod.mk.injEq] at after
  obtain ⟨msis, is, ports, nmsg⟩ := after
  obtain ⟨i, -, assigned, set_⟩ := sent 1 (by
    rw [msis]
    decide)
  change portMsg (pciAhciHostWrite _ ahciGhc ghcIe).hba.ports
    (pciAhciHostWrite _ ahciGhc ghcIe).nmsg i = 1 at assigned
  rw [ports, nmsg] at assigned
  rw [is] at set_
  have second : i = 1 := assigned
  rw [second] at set_
  revert set_
  decide
end Ahci
