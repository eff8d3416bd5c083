import Mathlib.Data.List.Basic

/- Runs of a deterministic step function over a list of events, and the two rules by
   which a property of one step becomes a property of a whole run. -/
namespace StepRuns
variable {S E : Type} {step : S → E → S}

def run (step : S → E → S) (s : S) (events : List E) : S := events.foldl step s

/-- Every step of the run is taken in a state, and on an event, that meets q. -/
def Along (step : S → E → S) (q : S → E → Prop) : S → List E → Prop
  | _, [] => True
  | s, e :: rest => q s e ∧ Along step q (step s e) rest

instance decidableAlong {q : S → E → Prop} [each : ∀ s e, Decidable (q s e)] :
    ∀ (s : S) (events : List E), Decidable (Along step q s events)
  | _, [] => .isTrue trivial
  | s, e :: rest => @instDecidableAnd _ _ (each s e) (decidableAlong (step s e) rest)

variable {inv : S → Prop} {ok q : S → E → Prop} {X : Type}

theorem invariant_run (keeps : ∀ s e, inv s → ok s e → inv (step s e)) (events : List E) :
    ∀ s, inv s → Along step ok s events → inv (run step s events) := by
  induction events with
  | nil => intro s start _; exact start
  | cons e rest ih =>
    intro s start met
    exact ih _ (keeps s e start met.1) met.2

theorem along_of_each {q : E → Prop} {events : List E} (each : ∀ e ∈ events, q e) :
    ∀ s, Along step (fun _ e => q e) s events := by
  induction events with
  | nil => exact fun _ => trivial
  | cons e rest ih =>
    intro s
    have later : ∀ e' ∈ rest, q e' := fun e' inside => each e' (List.mem_cons_of_mem e inside)
    exact ⟨each e List.mem_cons_self, ih later (step s e)⟩

theorem invariant_every_run {inv : S → Prop} (keeps : ∀ s e, inv s → inv (step s e))
    (events : List E) : ∀ s, inv s → inv (run step s events) := by
  induction events with
  | nil => intro s start; exact start
  | cons e rest ih =>
    intro s start
    exact ih _ (keeps s e start)

theorem along_of_invariant (keeps : ∀ s e, inv s → ok s e → inv (step s e))
    (gives : ∀ s e, inv s → ok s e → q s e) (events : List E) :
    ∀ s, inv s → Along step ok s events → Along step q s events := by
  induction events with
  | nil => intro s _ _; trivial
  | cons e rest ih =>
    intro s start met
    exact ⟨gives s e start met.1, ih _ (keeps s e start met.1) met.2⟩

/-- Two properties that agree on every step taken from the invariant agree on whole runs,
    when the second of them is what keeps the invariant. -/
theorem along_iff_of_invariant {p : S → E → Prop} (keeps : ∀ s e, inv s → q s e → inv (step s e))
    (agree : ∀ s e, inv s → (p s e ↔ q s e)) (events : List E) :
    ∀ s, inv s → (Along step p s events ↔ Along step q s events) := by
  induction events with
  | nil => intro s _; exact Iff.rfl
  | cons e rest ih =>
    intro s start
    constructor
    · rintro ⟨here, later⟩
      have clean := (agree s e start).mp here
      exact ⟨clean, (ih _ (keeps s e start clean)).mp later⟩
    · rintro ⟨clean, later⟩
      exact ⟨(agree s e start).mpr clean, (ih _ (keeps s e start clean)).mpr later⟩

theorem along_append (first second : List E) : ∀ s, Along step q s (first ++ second) →
      Along step q s first ∧ Along step q (run step s first) second := by
  induction first with
  | nil => exact fun s holds => ⟨trivial, holds⟩
  | cons e rest ih =>
    intro s holds
    obtain ⟨before, after⟩ := ih _ holds.2
    exact ⟨⟨holds.1, before⟩, after⟩

/-- Steps that may fail, one after the other up to the first that does. -/
def attempts {X : Type} (step : S → E → Except X S) : S → List E → Except X S
  | s, [] => .ok s
  | s, e :: rest =>
      match step s e with
      | .ok s' => attempts step s' rest
      | .error p => .error p

/-- With an invariant that the steps keep, either all of them are taken or one of them fails
    in a state that meets the invariant. -/
theorem attempts_ok_or_fails {X : Type} {step : S → E → Except X S} {inv : S → Prop}
    (keeps : ∀ s e s', inv s → step s e = .ok s' → inv s') (events : List E) :
    ∀ s, inv s → (∃ s', attempts step s events = .ok s' ∧ inv s') ∨
      ∃ s' e p, inv s' ∧ e ∈ events ∧ step s' e = .error p ∧ attempts step s events = .error p := by
  induction events with
  | nil => intro s start; exact .inl ⟨s, rfl, start⟩
  | cons e rest ih =>
    intro s start
    unfold attempts
    cases taken : step s e with
    | error p => exact .inr ⟨s, e, p, start, List.mem_cons_self, taken, rfl⟩
    | ok s' =>
      obtain done | ⟨s'', e', p, holds, inside, fails, stopped⟩ := ih s' (keeps s e s' start taken)
      · exact .inl done
      · exact .inr ⟨s'', e', p, holds, List.mem_cons_of_mem e inside, fails, stopped⟩

/-- Every step that is taken is taken in a state, and on an event, that meets q. -/
def AlongAttempts {X : Type} (step : S → E → Except X S) (q : S → E → Prop) : S → List E → Prop
  | _, [] => True
  | s, e :: rest =>
      q s e ∧
        match step s e with
        | .ok s' => AlongAttempts step q s' rest
        | .error _ => True

instance decidableAlongAttempts {X : Type} {step : S → E → Except X S} {q : S → E → Prop}
    [each : ∀ s e, Decidable (q s e)] :
    ∀ (s : S) (events : List E), Decidable (AlongAttempts step q s events)
  | _, [] => .isTrue trivial
  | s, e :: rest =>
      have : Decidable (match step s e with
          | .ok s' => AlongAttempts step q s' rest
          | .error _ => True) :=
        match step s e with
        | .ok s' => decidableAlongAttempts s' rest
        | .error _ => .isTrue trivial
      @instDecidableAnd _ _ (each s e) this

theorem along_attempts_cons {step : S → E → Except X S} {s s' : S} {e : E} {rest : List E}
    (here : q s e) (taken : step s e = .ok s') (later : AlongAttempts step q s' rest) :
    AlongAttempts step q s (e :: rest) := by
  unfold AlongAttempts
  rw [taken]
  exact ⟨here, later⟩

theorem along_attempts_last_step {step : S → E → Except X S} {s : S} {e : E} (here : q s e) :
    AlongAttempts step q s [e] := by
  refine ⟨here, ?_⟩
  cases step s e <;> trivial

theorem along_attempts_always {step : S → E → Except X S} (always : ∀ s e, q s e) (events : List E) :
    ∀ s, AlongAttempts step q s events := by
  induction events with
  | nil => exact fun _ => trivial
  | cons e rest ih =>
    intro s
    refine ⟨always s e, ?_⟩
    cases step s e with
    | error p => trivial
    | ok s' => exact ih s'

theorem along_attempts_of_invariant {X : Type} {step : S → E → Except X S} {inv : S → Prop}
    {ok q : S → E → Prop} (keeps : ∀ s e s', inv s → ok s e → step s e = .ok s' → inv s')
    (gives : ∀ s e, inv s → ok s e → q s e) (events : List E) :
    ∀ s, inv s → AlongAttempts step ok s events → AlongAttempts step q s events := by
  induction events with
  | nil => intro s _ _; trivial
  | cons e rest ih =>
    intro s start met
    obtain ⟨here, later⟩ := met
    refine ⟨gives s e start here, ?_⟩
    cases taken : step s e with
    | error p => trivial
    | ok s' =>
      rw [taken] at later
      exact ih s' (keeps s e s' start here taken) later

/-- Two properties that agree on every step taken from an invariant that all steps keep agree on
    whole runs. -/
theorem along_attempts_iff {step : S → E → Except X S} {p : S → E → Prop}
    (keeps : ∀ s e s', inv s → step s e = .ok s' → inv s') (agree : ∀ s e, inv s → (p s e ↔ q s e))
    (events : List E) :
    ∀ s, inv s → (AlongAttempts step p s events ↔ AlongAttempts step q s events) := by
  induction events with
  | nil => intro s _; exact Iff.rfl
  | cons e rest ih =>
    intro s start
    apply and_congr (agree s e start)
    cases taken : step s e with
    | error p => exact Iff.rfl
    | ok s' => exact ih s' (keeps s e s' start taken)

theorem along_attempts_iff_of_invariant {X : Type} {step : S → E → Except X S} {inv : S → Prop}
    {p q : S → E → Prop} (keeps : ∀ s e s', inv s → q s e → step s e = .ok s' → inv s')
    (agree : ∀ s e, inv s → (p s e ↔ q s e)) (events : List E) :
    ∀ s, inv s → (AlongAttempts step p s events ↔ AlongAttempts step q s events) := by
  induction events with
  | nil => intro s _; exact Iff.rfl
  | cons e rest ih =>
    intro s start
    unfold AlongAttempts
    rw [agree s e start]
    refine and_congr_right fun here => ?_
    cases taken : step s e with
    | error p => exact Iff.rfl
    | ok s' => exact ih s' (keeps s e s' start here taken)

theorem along_attempts_last {step : S → E → Except X S} {s' : S} {last : E} (events : List E) :
    ∀ s, attempts step s events = .ok s' →
      AlongAttempts step q s (events ++ [last]) → q s' last := by
  induction events with
  | nil =>
    intro s ran met
    cases ran
    exact met.1
  | cons e rest ih =>
    intro s ran met
    unfold attempts at ran
    obtain ⟨-, later⟩ := met
    cases taken : step s e with
    | error p =>
      rw [taken] at ran
      cases ran
    | ok next =>
      rw [taken] at ran later
      exact ih next ran later

theorem attempts_keep {X : Type} {step : S → E → Except X S} {inv : List E → S → Prop}
    (goes : ∀ e rest s, inv (e :: rest) s → ∃ s', step s e = .ok s' ∧ inv rest s')
    (events : List E) : ∀ s, inv events s →
      ∃ s', attempts step s events = .ok s' ∧ inv [] s' := by
  induction events with
  | nil => intro s holds; exact ⟨s, rfl, holds⟩
  | cons e rest ih =>
    intro s holds
    obtain ⟨s', taken, kept⟩ := goes e rest s holds
    rw [attempts, taken]
    exact ih s' kept

theorem attempts_succeed {step : S → E → Except X S}
    (goes : ∀ s e, inv s → ok s e → ∃ s', step s e = .ok s' ∧ inv s') (events : List E) :
    ∀ s, inv s → AlongAttempts step ok s events →
      ∃ s', attempts step s events = .ok s' ∧ inv s' := by
  induction events with
  | nil => intro s start _; exact ⟨s, rfl, start⟩
  | cons e rest ih =>
    intro s start met
    obtain ⟨s', taken, holds⟩ := goes s e start met.1
    have later := met.2
    rw [taken] at later
    rw [attempts, taken]
    exact ih s' holds later

/-- A run goes through exactly when none of the steps it comes to fails. -/
theorem attempts_ok_iff {step : S → E → Except X S}
    (taken : ∀ s e, (∃ s', step s e = .ok s') ↔ ok s e) (events : List E) :
    ∀ s, (∃ s', attempts step s events = .ok s') ↔ AlongAttempts step ok s events := by
  induction events with
  | nil => intro s; exact ⟨fun _ => trivial, fun _ => ⟨s, rfl⟩⟩
  | cons e rest ih =>
    intro s
    unfold attempts AlongAttempts
    rw [← taken s e]
    cases here : step s e with
    | ok s' =>
      refine (ih s').trans ⟨fun later => ⟨⟨s', rfl⟩, later⟩, fun both => both.2⟩
    | error p =>
      refine ⟨fun done => ?_, fun both => ?_⟩
      · obtain ⟨s', never⟩ := done
        cases never
      · obtain ⟨⟨s', never⟩, -⟩ := both
        cases never

end StepRuns
