import Disburse.Config

/-!
Owns the circuit breaker and the concurrency limit of one upstream.

`Upstream` holds the immutable part of the source's record and `UpstreamCells`
the cells that change behind it. `tryAdmit` is given in the three
lock-protected sections of the source (`admitSection`, the semaphore attempt,
`restoreSection`) and as the uninterrupted call.
-/

namespace Disburse

/-- `circuit_breaker_cooldown_secs` as a duration. -/
def Config.cooldown (cfg : Config) : Duration :=
  .fromSecs cfg.health.circuitBreakerCooldownSecs

/-- The circuit of one upstream. `opened expires` is the source's `Open { until }`. -/
inductive CircuitState where
  | closed
  | opened (expires : Instant)
  | halfOpen (probeInFlight : Bool)
deriving DecidableEq, Repr

structure Upstream where
  name : String
  url : String
deriving DecidableEq, Repr

structure UpstreamCells where
  circuit : CircuitState
  /-- Free permits of the semaphore. -/
  permits : Nat
  lastSlot : Nat
deriving DecidableEq, Repr

def UpstreamCells.new (maxConcurrent : Nat) : UpstreamCells :=
  { circuit := .closed, permits := maxConcurrent, lastSlot := 0 }

namespace CircuitState

/-- Open with the cooldown still running. -/
def isDropped (circuit : CircuitState) (now : Instant) : Bool :=
  match circuit with
  | .opened expires => now < expires
  | _ => false

def trip (now : Instant) (cooldown : Duration) : CircuitState :=
  .opened (now + cooldown)

/-- The first circuit section of `try_admit`: `none` refuses, otherwise the
circuit left behind and whether the caller took the probe slot. -/
def admitSection (circuit : CircuitState) (now : Instant) : Option (CircuitState × Bool) :=
  match circuit with
  | .closed => some (.closed, false)
  | .opened expires => if now < expires then none else some (.halfOpen true, true)
  | .halfOpen probeInFlight => if probeInFlight then none else some (.halfOpen true, true)

/-- The second circuit section: the probe slot is given back unconditionally. -/
def restoreSection : CircuitState := .halfOpen false

def settleProbe (circuit : CircuitState) (success : Bool) (now : Instant)
    (cooldown : Duration) : CircuitState :=
  match circuit with
  | .halfOpen true => if success then .closed else .opened (now + cooldown)
  | other => other

/-! ### What one section can do -/

/-- The sections an uninterrupted admission can take. -/
inductive Admits : CircuitState → Instant → CircuitState → Bool → Prop where
  | closed (now : Instant) : Admits .closed now .closed false
  | expired {expires now : Instant} (elapsed : expires ≤ now) :
      Admits (.opened expires) now (.halfOpen true) true
  | idle (now : Instant) : Admits (.halfOpen false) now (.halfOpen true) true

theorem admitSection_eq_some {circuit next : CircuitState} {now : Instant} {isProbe : Bool} :
    circuit.admitSection now = some (next, isProbe) ↔ Admits circuit now next isProbe := by
  constructor
  · intro admitted
    cases circuit with
    | closed =>
        obtain ⟨rfl, rfl⟩ : CircuitState.closed = next ∧ false = isProbe := by
          simpa [admitSection] using admitted
        exact .closed now
    | opened expires =>
        by_cases running : now < expires
        · simp [admitSection, running] at admitted
        · obtain ⟨rfl, rfl⟩ : CircuitState.halfOpen true = next ∧ true = isProbe := by
            simpa [admitSection, running] using admitted
          exact .expired (Nat.le_of_not_lt running)
    | halfOpen probeInFlight =>
        cases probeInFlight with
        | true => simp [admitSection] at admitted
        | false =>
            obtain ⟨rfl, rfl⟩ : CircuitState.halfOpen true = next ∧ true = isProbe := by
              simpa [admitSection] using admitted
            exact .idle now
  · rintro (_ | elapsed | _)
    · rfl
    · simp [admitSection, Nat.not_lt.mpr elapsed]
    · rfl

theorem admitSection_eq_none {circuit : CircuitState} {now : Instant} :
    circuit.admitSection now = none ↔
      circuit.isDropped now = true ∨ circuit = .halfOpen true := by
  cases circuit with
  | closed => simp [admitSection, isDropped]
  | opened expires => by_cases running : now < expires <;> simp [admitSection, isDropped, running]
  | halfOpen probeInFlight => cases probeInFlight <;> simp [admitSection, isDropped]

@[simp] theorem isDropped_opened (expires now : Instant) :
    (opened expires).isDropped now = decide (now < expires) := rfl

@[simp] theorem isDropped_halfOpen (probeInFlight : Bool) (now : Instant) :
    (halfOpen probeInFlight).isDropped now = false := rfl

theorem settleProbe_of_ne {circuit : CircuitState} (other : circuit ≠ .halfOpen true)
    (success : Bool) (now : Instant) (cooldown : Duration) :
    circuit.settleProbe success now cooldown = circuit := by
  unfold settleProbe
  split
  · exact absurd rfl other
  · rfl

theorem settleProbe_ne_probing (circuit : CircuitState) (success : Bool) (now : Instant)
    (cooldown : Duration) : circuit.settleProbe success now cooldown ≠ .halfOpen true := by
  unfold settleProbe
  split
  · cases success <;> simp
  · assumption

end CircuitState

namespace UpstreamCells

/-- `try_admit` without interference: the cells left behind and, when a permit
was acquired, whether the caller is the probe. -/
def tryAdmit (cells : UpstreamCells) (now : Instant) : UpstreamCells × Option Bool :=
  match cells.circuit.admitSection now with
  | none => (cells, none)
  | some (circuit, isProbe) =>
      if 0 < cells.permits then
        ({ cells with circuit := circuit, permits := cells.permits - 1 }, some isProbe)
      else
        ({ cells with circuit := if isProbe then .restoreSection else circuit }, none)

/-- The permit of a finished or dropped request goes back. -/
def release (cells : UpstreamCells) : UpstreamCells :=
  { cells with permits := cells.permits + 1 }

/-- `try_admit` would hand out a permit now. -/
def Admissible (cells : UpstreamCells) (now : Instant) : Prop :=
  (cells.tryAdmit now).2.isSome = true

instance (cells : UpstreamCells) (now : Instant) : Decidable (cells.Admissible now) :=
  inferInstanceAs (Decidable (_ = true))

/-- `try_admit` refuses exactly when the circuit is open, a probe is in flight
or no permit is free. -/
theorem not_admissible_iff {cells : UpstreamCells} {now : Instant} :
    ¬ cells.Admissible now ↔
      cells.circuit.isDropped now = true ∨ cells.circuit = .halfOpen true ∨
        cells.permits = 0 := by
  unfold Admissible tryAdmit
  cases sectionResult : cells.circuit.admitSection now with
  | none =>
      have refused := CircuitState.admitSection_eq_none.mp sectionResult
      simp only [Option.isSome_none, Bool.false_eq_true, not_false_eq_true, true_iff]
      rcases refused with dropped | probing
      · exact Or.inl dropped
      · exact Or.inr (Or.inl probing)
  | some admitted =>
      obtain ⟨circuit, isProbe⟩ := admitted
      have passed : ¬ (cells.circuit.isDropped now = true ∨ cells.circuit = .halfOpen true) := by
        rw [← CircuitState.admitSection_eq_none, sectionResult]
        simp
      rw [not_or] at passed
      by_cases free : 0 < cells.permits
      · simp [free, passed, Nat.ne_of_gt free]
      · simp [Nat.eq_zero_of_not_pos free]

/-- What one uninterrupted `try_admit` does to the circuit, by its answer. -/
inductive AdmitStep : CircuitState → Option Bool → CircuitState → Prop where
  | refused (circuit : CircuitState) : AdmitStep circuit none circuit
  | restored {circuit : CircuitState} (leaving : circuit ≠ .closed)
      (idle : circuit ≠ .halfOpen true) : AdmitStep circuit none (.halfOpen false)
  | plain : AdmitStep .closed (some false) .closed
  | probe {circuit : CircuitState} (leaving : circuit ≠ .closed)
      (idle : circuit ≠ .halfOpen true) : AdmitStep circuit (some true) (.halfOpen true)

/-- Only an admission as a probe leaves the slot taken that was not taken before. -/
theorem AdmitStep.probing {before : CircuitState} {answer : Option Bool}
    (step : AdmitStep before answer (.halfOpen true)) (notProbe : answer ≠ some true) :
    before = .halfOpen true := by
  cases step with
  | refused => rfl
  | probe => exact absurd rfl notProbe

theorem AdmitStep.takesSlot {before after : CircuitState}
    (step : AdmitStep before (some true) after) : after = .halfOpen true := by
  cases step with
  | probe => rfl

/-- A `try_admit` leaves a taken slot taken. -/
theorem AdmitStep.keepsProbing {after : CircuitState} {answer : Option Bool}
    (step : AdmitStep (.halfOpen true) answer after) : after = .halfOpen true := by
  cases step with
  | refused => rfl
  | restored _ idle => exact absurd rfl idle
  | probe => rfl

/-- A granted call is the probe exactly when it found the circuit not Closed. -/
theorem AdmitStep.isProbe {before after : CircuitState} {answer : Option Bool}
    (step : AdmitStep before answer after) :
    answer = some true ↔ before ≠ .closed ∧ answer.isSome = true := by
  cases step with
  | refused => simp
  | restored => simp
  | plain => simp
  | probe leaving => simp [leaving]

theorem tryAdmit_step (cells : UpstreamCells) (now : Instant) :
    AdmitStep cells.circuit (cells.tryAdmit now).2 (cells.tryAdmit now).1.circuit := by
  unfold tryAdmit
  split
  · exact .refused cells.circuit
  · rename_i circuit isProbe passed
    have path := CircuitState.admitSection_eq_some.mp passed
    split
    · generalize cells.circuit = before at path
      cases path with
      | closed => exact .plain
      | expired elapsed => exact .probe (by simp) (by simp)
      | idle => exact .probe (by simp) (by simp)
    · generalize cells.circuit = before at path
      cases path with
      | closed => exact .refused .closed
      | expired elapsed => exact .restored (by simp) (by simp)
      | idle => exact .restored (by simp) (by simp)

/-- A permit is taken exactly when one is handed out. -/
theorem tryAdmit_permits (cells : UpstreamCells) (now : Instant) :
    (cells.tryAdmit now).1.permits + (if (cells.tryAdmit now).2.isSome then 1 else 0) =
      cells.permits := by
  unfold tryAdmit
  split
  · rfl
  · split
    · rename_i free
      exact Nat.sub_add_cancel free
    · rfl

/-- While the cooldown runs `try_admit` refuses and touches nothing. -/
theorem tryAdmit_of_dropped (cells : UpstreamCells) {now : Instant}
    (dropped : cells.circuit.isDropped now = true) : cells.tryAdmit now = (cells, none) := by
  rw [tryAdmit, CircuitState.admitSection_eq_none.mpr (Or.inl dropped)]

end UpstreamCells

end Disburse
