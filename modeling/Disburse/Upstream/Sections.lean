import Disburse.Upstream.Probes

/-!
Owns the breaker at the grain of its locks: each lock-protected section of
`try_admit`, `trip` and `settle_probe` is a step of its own, and any number of
calls interleave. The question is whether a trip can be lost in between.
-/

namespace Disburse

open Disburse.Library

/-- Where one `try_admit` call stands. -/
inductive CallPhase where
  /-- Past the first circuit section, the semaphore not yet tried. -/
  | entered
  /-- The semaphore failed and the probe slot has to go back. -/
  | restoring
  | admitted
  | settled
  /-- Refused, or admitted and gone. -/
  | ended
deriving DecidableEq, Repr

/-- A call that passed the first circuit section at `sectionAt`; the trips that
ran before are noted for the statements. -/
structure AdmitCall where
  isProbe : Bool
  phase : CallPhase
  sectionAt : Instant
  tripsBefore : List Instant
deriving DecidableEq, Repr

structure SectionState where
  circuit : CircuitState
  permits : Nat
  clock : Instant
  calls : List AdmitCall
  /-- Times of the trips so far. -/
  trips : List Instant
deriving DecidableEq, Repr

/-- The atomic steps. Calls are named by their place in `calls`. -/
inductive SectionEvent where
  | enter (now : Instant)
  | acquire (call : Nat) (now : Instant)
  | restore (call : Nat) (now : Instant)
  | trip (now : Instant)
  | settle (call : Nat) (success : Bool) (now : Instant)
  | finish (call : Nat) (now : Instant)
deriving DecidableEq, Repr

def SectionEvent.time : SectionEvent → Instant
  | enter now | acquire _ now | restore _ now | trip now | settle _ _ now | finish _ now => now

namespace SectionState

def new (cfg : Config) : SectionState :=
  { circuit := .closed
    permits := cfg.maxConcurrentPerUpstream
    clock := 0
    calls := []
    trips := [] }

def setPhase (state : SectionState) (place : Nat) (call : AdmitCall) (phase : CallPhase) :
    SectionState :=
  { state with calls := state.calls.set place { call with phase := phase } }

/-- The first circuit section; a refused call leaves no trace. -/
def enter (state : SectionState) (now : Instant) : SectionState :=
  match state.circuit.admitSection now with
  | none => state
  | some (circuit, isProbe) =>
      { state with
        circuit := circuit
        calls := state.calls ++ [{
          isProbe := isProbe, phase := .entered, sectionAt := now, tripsBefore := state.trips }] }

/-- The semaphore attempt. -/
def acquire (state : SectionState) (place : Nat) (call : AdmitCall) : SectionState :=
  if 0 < state.permits then
    { state.setPhase place call .admitted with permits := state.permits - 1 }
  else if call.isProbe then state.setPhase place call .restoring
  else state.setPhase place call .ended

/-- One step of the call at `place`. -/
def stepCall (cfg : Config) (state : SectionState) (place : Nat) (call : AdmitCall) :
    SectionEvent → Option SectionState
  | .acquire _ _ =>
      if call.phase = .entered then some (state.acquire place call) else none
  | .restore _ _ =>
      if call.phase = .restoring then
        some { state.setPhase place call .ended with circuit := .restoreSection }
      else none
  | .settle _ success now =>
      if call.phase = .admitted ∧ call.isProbe = true then
        some { state.setPhase place call .settled with
          circuit := state.circuit.settleProbe success now cfg.cooldown }
      else none
  | .finish _ _ =>
      if call.phase = .admitted ∨ call.phase = .settled then
        some { state.setPhase place call .ended with permits := state.permits + 1 }
      else none
  | _ => none

def step (cfg : Config) (state : SectionState) (event : SectionEvent) : Option SectionState :=
  if state.clock ≤ event.time then
    let current := { state with clock := event.time }
    match event with
    | .enter now => some (current.enter now)
    | .trip now =>
        some { current with circuit := .trip now cfg.cooldown, trips := now :: current.trips }
    | .acquire place _ | .restore place _ | .settle place _ _ | .finish place _ =>
        current.calls[place]?.bind fun call => current.stepCall cfg place call event
  else none

def machine (cfg : Config) : Machine SectionState SectionEvent :=
  { init := new cfg, step := step cfg }

/-! ### Lost trips -/

/-- The call entered outside the cooldown of every trip before it. -/
def EnteredOutside (cfg : Config) (call : AdmitCall) : Prop :=
  ∀ time ∈ call.tripsBefore, time + cfg.cooldown ≤ call.sectionAt

/-- No call that got a permit entered within the cooldown of a trip before it. -/
def TripsHeld (cfg : Config) (state : SectionState) : Prop :=
  ∀ call ∈ state.calls, call.phase = .admitted → EnteredOutside cfg call

/-- A restoring write does not run on an open circuit whose cooldown is running. -/
def RestoresOverNoTrip (state : SectionState) : SectionEvent → Prop
  | .restore _ now => state.circuit.isDropped now = false
  | _ => True

instance (state : SectionState) : ∀ event, Decidable (RestoresOverNoTrip state event)
  | .restore _ _ => inferInstanceAs (Decidable (_ = false))
  | .enter _ | .acquire _ _ | .trip _ | .settle _ _ _ | .finish _ _ => isTrue trivial

/-- A trip whose cooldown is still running at `now` keeps the circuit open. -/
def TripsInForce (cfg : Config) (state : SectionState) (now : Instant) : Prop :=
  ∀ time ∈ state.trips, now < time + cfg.cooldown →
    ∃ expires, state.circuit = .opened expires ∧ time + cfg.cooldown ≤ expires

/-- What runs that restore over no trip keep. -/
structure Guarded (cfg : Config) (state : SectionState) : Prop where
  past : ∀ time ∈ state.trips, time ≤ state.clock
  inForce : TripsInForce cfg state state.clock
  outside : ∀ call ∈ state.calls, EnteredOutside cfg call

theorem TripsInForce.later {cfg : Config} {state : SectionState} {earlier later : Instant}
    (inForce : TripsInForce cfg state earlier) (order : earlier ≤ later) :
    TripsInForce cfg state later :=
  fun time member running => inForce time member (Nat.lt_of_le_of_lt order running)

/-- A circuit that is not dropped has no running cooldown to defend. -/
theorem TripsInForce.elapsed {cfg : Config} {state : SectionState} {now : Instant}
    (inForce : TripsInForce cfg state now) (passable : state.circuit.isDropped now = false) :
    ∀ time ∈ state.trips, time + cfg.cooldown ≤ now := by
  intro time member
  by_contra running
  obtain ⟨expires, circuit, covered⟩ := inForce time member (Nat.lt_of_not_le running)
  rw [circuit, CircuitState.isDropped_opened, decide_eq_false_iff_not] at passable
  exact running (covered.trans (Nat.le_of_not_lt passable))

theorem TripsInForce.of_elapsed {cfg : Config} {state : SectionState} {now : Instant}
    (elapsed : ∀ time ∈ state.trips, time + cfg.cooldown ≤ now) :
    TripsInForce cfg state now :=
  fun time member running => absurd (elapsed time member) (Nat.not_le_of_lt running)

theorem outside_setPhase {cfg : Config} {state : SectionState} {place : Nat} {call : AdmitCall}
    (outside : ∀ call ∈ state.calls, EnteredOutside cfg call)
    (found : state.calls[place]? = some call) (phase : CallPhase) :
    ∀ other ∈ (state.setPhase place call phase).calls, EnteredOutside cfg other := by
  intro other member
  rcases List.mem_or_eq_of_mem_set member with before | same
  · exact outside other before
  · rw [same]
    exact outside call (List.mem_of_getElem? found)

theorem guarded_enter {cfg : Config} {state : SectionState} (guarded : Guarded cfg state) :
    Guarded cfg (state.enter state.clock) := by
  unfold enter
  split
  · exact guarded
  · rename_i circuit isProbe passed
    have passable : state.circuit.isDropped state.clock = false := by
      by_contra dropped
      rw [Bool.not_eq_false] at dropped
      rw [CircuitState.admitSection_eq_none.mpr (Or.inl dropped)] at passed
      cases passed
    have elapsed := guarded.inForce.elapsed passable
    refine ⟨guarded.past, .of_elapsed elapsed, ?_⟩
    exact List.forall_mem_append.mpr ⟨guarded.outside, List.forall_mem_singleton.mpr elapsed⟩

theorem guarded_trip {cfg : Config} {state : SectionState} (guarded : Guarded cfg state) :
    Guarded cfg { state with
      circuit := .trip state.clock cfg.cooldown, trips := state.clock :: state.trips } := by
  have past : ∀ time ∈ state.clock :: state.trips, time ≤ state.clock := by
    intro time member
    rcases List.mem_cons.mp member with same | before
    · exact Nat.le_of_eq same
    · exact guarded.past time before
  refine ⟨past, ?_, guarded.outside⟩
  intro time member _
  exact ⟨state.clock + cfg.cooldown, rfl, Nat.add_le_add_right (past time member) _⟩

/-- One step of a call that has entered. Only the two circuit writes can touch
a trip: the settlement leaves an open circuit alone, the restoring write does
so by the condition. -/
theorem guarded_stepCall {cfg : Config} {state next : SectionState} {call : AdmitCall}
    (event : SectionEvent) {place : Nat} (guarded : Guarded cfg state)
    (found : state.calls[place]? = some call) (condition : RestoresOverNoTrip state event)
    (current : event.time = state.clock)
    (stepped : state.stepCall cfg place call event = some next) : Guarded cfg next := by
  have outside := outside_setPhase guarded.outside found
  cases event with
  | acquire _ now =>
      rw [stepCall, Option.ite_none_right_eq_some, Option.some_inj] at stepped
      rcases stepped with ⟨_, rfl⟩
      unfold acquire
      split
      · exact ⟨guarded.past, guarded.inForce, outside .admitted⟩
      · split
        · exact ⟨guarded.past, guarded.inForce, outside .restoring⟩
        · exact ⟨guarded.past, guarded.inForce, outside .ended⟩
  | restore _ now =>
      rw [stepCall, Option.ite_none_right_eq_some, Option.some_inj] at stepped
      rcases stepped with ⟨_, rfl⟩
      change now = state.clock at current
      change state.circuit.isDropped now = false at condition
      rw [current] at condition
      exact ⟨guarded.past, .of_elapsed (guarded.inForce.elapsed condition), outside .ended⟩
  | settle _ success now =>
      rw [stepCall, Option.ite_none_right_eq_some, Option.some_inj] at stepped
      rcases stepped with ⟨_, rfl⟩
      refine ⟨guarded.past, ?_, outside .settled⟩
      intro time member running
      obtain ⟨expires, circuit, covered⟩ := guarded.inForce time member running
      refine ⟨expires, ?_, covered⟩
      change state.circuit.settleProbe success now cfg.cooldown = _
      rw [circuit]
      rfl
  | finish _ now =>
      rw [stepCall, Option.ite_none_right_eq_some, Option.some_inj] at stepped
      rcases stepped with ⟨_, rfl⟩
      exact ⟨guarded.past, guarded.inForce, outside .ended⟩
  | enter now => cases stepped
  | trip now => cases stepped

theorem guarded_step {cfg : Config} {state next : SectionState} {event : SectionEvent}
    (guarded : Guarded cfg state) (condition : RestoresOverNoTrip state event)
    (stepped : step cfg state event = some next) : Guarded cfg next := by
  unfold step at stepped
  rw [Option.ite_none_right_eq_some] at stepped
  rcases stepped with ⟨order, stepped⟩
  have current : Guarded cfg { state with clock := event.time } :=
    ⟨fun time member => (guarded.past time member).trans order,
      guarded.inForce.later order, guarded.outside⟩
  cases event with
  | enter now =>
      rw [Option.some_inj] at stepped
      rw [← stepped]
      exact guarded_enter current
  | trip now =>
      rw [Option.some_inj] at stepped
      rw [← stepped]
      exact guarded_trip current
  | acquire place now =>
      obtain ⟨call, found, inner⟩ := Option.bind_eq_some_iff.mp stepped
      exact guarded_stepCall (.acquire place now) current found condition rfl inner
  | restore place now =>
      obtain ⟨call, found, inner⟩ := Option.bind_eq_some_iff.mp stepped
      exact guarded_stepCall (.restore place now) current found condition rfl inner
  | settle place success now =>
      obtain ⟨call, found, inner⟩ := Option.bind_eq_some_iff.mp stepped
      exact guarded_stepCall (.settle place success now) current found condition rfl inner
  | finish place now =>
      obtain ⟨call, found, inner⟩ := Option.bind_eq_some_iff.mp stepped
      exact guarded_stepCall (.finish place now) current found condition rfl inner

/-- In a run that never restores the probe slot over a running cooldown, no
trip is lost. -/
theorem tripsHeld_of_restoresOverNoTrip (cfg : Config) (events : List SectionEvent)
    (restores : (machine cfg).EveryStep RestoresOverNoTrip (new cfg) events) :
    (machine cfg).Throughout (TripsHeld cfg) (new cfg) events := by
  have start : Guarded cfg (new cfg) := by
    refine ⟨?_, ?_, ?_⟩ <;> intro _ member <;> cases member
  have held : (machine cfg).Throughout (Guarded cfg) (new cfg) events :=
    Machine.throughout_of_everyStep (machine cfg) (I := fun _ => True)
      (fun _ _ _ _ guarded condition stepped => ⟨trivial, guarded_step guarded condition stepped⟩)
      trivial start restores
  exact held.mono fun state guarded call member _ => guarded.outside call member

/-! ### The gap in `try_admit` -/

/-- One permit, a cooldown of one second. -/
def singlePermit : Config :=
  { Breaker.shortCooldown with maxConcurrentPerUpstream := 1 }

/-- A probe slot that goes back before the next trip. -/
def harmlessRun : List SectionEvent :=
  [.enter 0, .acquire 0 0, .trip 0, .enter 1000000000, .acquire 1 1000000000,
    .restore 1 1000000000, .trip 1100000000, .finish 0 1200000000, .enter 1300000000]

theorem tripsHeld_of_restoresOverNoTrip_harmless :
    (machine singlePermit).Throughout (TripsHeld singlePermit) (new singlePermit) harmlessRun :=
  tripsHeld_of_restoresOverNoTrip singlePermit harmlessRun (by decide +kernel)

/-- A slow call holds the permit when the cooldown ends. The next call takes the
probe slot and fails at the semaphore, a trip lands, and the slot goes back over
it; a third call is then admitted within the cooldown. -/
def lostTripRun : List SectionEvent :=
  [.enter 0, .acquire 0 0, .trip 0, .enter 1000000000, .acquire 1 1000000000, .trip 1100000000,
    .restore 1 1100000000, .finish 0 1200000000, .enter 1300000000, .acquire 2 1300000000]

def lostTripEnd : SectionState :=
  { circuit := .halfOpen true
    permits := 0
    clock := 1300000000
    calls := [
      { isProbe := false, phase := .ended, sectionAt := 0, tripsBefore := [] },
      { isProbe := true, phase := .ended, sectionAt := 1000000000, tripsBefore := [0] },
      { isProbe := true, phase := .admitted, sectionAt := 1300000000,
        tripsBefore := [1100000000, 0] }]
    trips := [1100000000, 0] }

/-- The third call of the run has a permit, 0.2 s into a cooldown of one second. -/
theorem trip_lost :
    singlePermit.validate .plain = .ok () ∧
      (machine singlePermit).exec lostTripRun = some lostTripEnd ∧
      ¬ TripsHeld singlePermit lostTripEnd := by
  refine ⟨by decide +kernel, by decide +kernel, ?_⟩
  intro held
  have third := held _ (List.mem_cons_of_mem _ (List.mem_cons_of_mem _ List.mem_cons_self)) rfl
    1100000000 List.mem_cons_self
  exact absurd third (by decide)

end SectionState

end Disburse
