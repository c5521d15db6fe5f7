import Disburse.Library.Machine
import Disburse.Upstream.Client

/-!
Owns the runs of one upstream's breaker under uninterrupted `try_admit` calls,
trips and probe settlements, and the question whether one probe decides
readmission.

A probe carries no epoch in the source. Here each unsettled probe remembers, for
the statements only, how many trips came before its admission.
-/

namespace Disburse

open Disburse.Library

/-- One upstream with the calls it has admitted. -/
structure Breaker where
  cells : UpstreamCells
  clock : Instant
  /-- Trips so far. -/
  trips : Nat
  /-- For each admitted and not yet settled probe, the trips before it. -/
  probes : List Nat
  /-- Permits held by calls that have no probe to settle. -/
  held : Nat
deriving DecidableEq, Repr

/-- What can happen to an upstream, each at a time. `settle` names the probe by
its place among the unsettled ones. -/
inductive BreakerEvent where
  | tryAdmit (now : Instant)
  | settle (probe : Nat) (success : Bool) (now : Instant)
  | trip (now : Instant)
  | release (now : Instant)
deriving DecidableEq, Repr

namespace BreakerEvent

def time : BreakerEvent → Instant
  | tryAdmit now | settle _ _ now | trip now | release now => now

end BreakerEvent

namespace Breaker

def new (cfg : Config) : Breaker :=
  { cells := .new cfg.maxConcurrentPerUpstream, clock := 0, trips := 0, probes := [], held := 0 }

def circuit (breaker : Breaker) : CircuitState := breaker.cells.circuit

def setCircuit (breaker : Breaker) (circuit : CircuitState) : Breaker :=
  { breaker with cells := { breaker.cells with circuit := circuit } }

/-- `try_admit`, with the admitted call entered in the books. -/
def tryAdmit (breaker : Breaker) (now : Instant) : Breaker :=
  match breaker.cells.tryAdmit now with
  | (cells, none) => { breaker with cells := cells }
  | (cells, some true) =>
      { breaker with cells := cells, probes := breaker.probes ++ [breaker.trips] }
  | (cells, some false) => { breaker with cells := cells, held := breaker.held + 1 }

/-- One event. A settled probe keeps its permit until a `release`. -/
def step (cfg : Config) (breaker : Breaker) (event : BreakerEvent) : Option Breaker :=
  if breaker.clock ≤ event.time then
    let current := { breaker with clock := event.time }
    match event with
    | .tryAdmit now => some (current.tryAdmit now)
    | .settle probe success now =>
        if probe < current.probes.length then
          some { current.setCircuit (current.circuit.settleProbe success now cfg.cooldown) with
            probes := current.probes.eraseIdx probe
            held := current.held + 1 }
        else none
    | .trip now =>
        some { current.setCircuit (.trip now cfg.cooldown) with trips := current.trips + 1 }
    | .release _ =>
        if 0 < current.held then
          some { current with cells := current.cells.release, held := current.held - 1 }
        else none
  else none

def machine (cfg : Config) : Machine Breaker BreakerEvent :=
  { init := new cfg, step := step cfg }

/-! ### The two halves of "one probe decides" -/

def AtMostOneProbe (breaker : Breaker) : Prop := breaker.probes.length ≤ 1

instance (breaker : Breaker) : Decidable (AtMostOneProbe breaker) :=
  inferInstanceAs (Decidable (_ ≤ _))

/-- If the event is a settlement that moves the circuit to Closed, the settling
probe was admitted after the most recent trip. -/
def ClosedByFreshProbe (cfg : Config) (breaker : Breaker) : BreakerEvent → Prop
  | .settle probe success now =>
      breaker.circuit ≠ .closed →
        breaker.circuit.settleProbe success now cfg.cooldown = .closed →
          breaker.probes[probe]? = some breaker.trips
  | _ => True

/-- A `try_admit` that hands out a probe finds none unsettled over which a trip has
landed since its admission. -/
def NoneOutlivedTrip (breaker : Breaker) : BreakerEvent → Prop
  | .tryAdmit now =>
      breaker.circuit ≠ .closed → breaker.cells.Admissible now →
        ∀ admittedAfter ∈ breaker.probes, ¬ admittedAfter < breaker.trips
  | _ => True

/-! ### What one event does -/

section Step

variable {cfg : Config} {breaker next : Breaker} {now : Instant}

theorem step_tryAdmit (stepped : step cfg breaker (.tryAdmit now) = some next) :
    next.trips = breaker.trips ∧
      UpstreamCells.AdmitStep breaker.circuit (breaker.cells.tryAdmit now).2 next.circuit ∧
      next.probes = if (breaker.cells.tryAdmit now).2 = some true
        then breaker.probes ++ [breaker.trips] else breaker.probes := by
  have circuitStep := UpstreamCells.tryAdmit_step breaker.cells now
  simp only [step, Option.ite_none_right_eq_some, Option.some_inj] at stepped
  rcases stepped with ⟨_, rfl⟩
  unfold tryAdmit
  dsimp only
  cases answer : breaker.cells.tryAdmit now with
  | mk cells granted =>
      rw [answer] at circuitStep
      rcases granted with _ | _ | _ <;> exact ⟨rfl, circuitStep, rfl⟩

theorem step_settle {probe : Nat} {success : Bool}
    (stepped : step cfg breaker (.settle probe success now) = some next) :
    probe < breaker.probes.length ∧ next.trips = breaker.trips ∧
      next.circuit = breaker.circuit.settleProbe success now cfg.cooldown ∧
      next.probes = breaker.probes.eraseIdx probe := by
  simp only [step, Option.ite_none_right_eq_some, Option.some_inj] at stepped
  rcases stepped with ⟨_, inside, rfl⟩
  exact ⟨inside, rfl, rfl, rfl⟩

theorem step_trip (stepped : step cfg breaker (.trip now) = some next) :
    next.trips = breaker.trips + 1 ∧ next.circuit = .trip now cfg.cooldown ∧
      next.probes = breaker.probes := by
  simp only [step, Option.ite_none_right_eq_some, Option.some_inj] at stepped
  rcases stepped with ⟨_, rfl⟩
  exact ⟨rfl, rfl, rfl⟩

theorem step_release (stepped : step cfg breaker (.release now) = some next) :
    next.trips = breaker.trips ∧ next.circuit = breaker.circuit ∧
      next.probes = breaker.probes := by
  simp only [step, Option.ite_none_right_eq_some, Option.some_inj] at stepped
  rcases stepped with ⟨_, _, rfl⟩
  exact ⟨rfl, rfl, rfl⟩

end Step

/-! ### The probe behind a half-open circuit -/

/-- While the circuit says that a probe is in flight, a probe admitted after
the last trip is unsettled. -/
def FreshProbeInFlight (breaker : Breaker) : Prop :=
  breaker.circuit = .halfOpen true → breaker.trips ∈ breaker.probes

theorem freshProbeInFlight_step {cfg : Config} {breaker next : Breaker} {event : BreakerEvent}
    (fresh : FreshProbeInFlight breaker) (stepped : step cfg breaker event = some next) :
    FreshProbeInFlight next := by
  intro probing
  cases event with
  | tryAdmit now =>
      obtain ⟨trips, circuit, probes⟩ := step_tryAdmit stepped
      rw [probing] at circuit
      rw [trips, probes]
      split
      · simp
      · rename_i notProbe
        exact fresh (circuit.probing notProbe)
  | settle probe success now =>
      obtain ⟨_, _, circuit, _⟩ := step_settle stepped
      rw [circuit] at probing
      exact absurd probing (CircuitState.settleProbe_ne_probing _ _ _ _)
  | trip now =>
      rw [(step_trip stepped).2.1] at probing
      cases probing
  | release now =>
      obtain ⟨trips, circuit, probes⟩ := step_release stepped
      rw [trips, probes]
      rw [circuit] at probing
      exact fresh probing

/-- Every probe that no trip has outlived holds the half-open circuit, and there is
at most one probe. -/
structure ProbeAlone (breaker : Breaker) : Prop where
  single : AtMostOneProbe breaker
  holds : breaker.trips ∈ breaker.probes → breaker.circuit = .halfOpen true
  past : ∀ admittedAfter ∈ breaker.probes, admittedAfter ≤ breaker.trips

/-- A probe is handed out beside no other when no trip has outlived one. -/
theorem ProbeAlone.probes_eq_nil {breaker : Breaker} {now : Instant}
    (alone : ProbeAlone breaker) (free : NoneOutlivedTrip breaker (.tryAdmit now))
    (leaving : breaker.circuit ≠ .closed) (admissible : breaker.cells.Admissible now) :
    breaker.probes = [] := by
  apply List.eq_nil_iff_forall_not_mem.mpr
  intro admittedAfter member
  -- The probe came after the last trip, so it still blocks the circuit.
  have fresh : admittedAfter = breaker.trips :=
    Nat.le_antisymm (alone.past admittedAfter member)
      (Nat.not_lt.mp (free leaving admissible admittedAfter member))
  have probing := alone.holds (fresh ▸ member)
  exact UpstreamCells.not_admissible_iff.mpr (Or.inr (Or.inl probing)) admissible

/-- What a step has to show that touches no probe. -/
theorem ProbeAlone.of_same_probes {breaker next : Breaker} (alone : ProbeAlone breaker)
    (probes : next.probes = breaker.probes) (trips : breaker.trips ≤ next.trips)
    (holds : next.trips ∈ breaker.probes → next.circuit = .halfOpen true) : ProbeAlone next where
  single := by
    rw [AtMostOneProbe, probes]
    exact alone.single
  holds := probes ▸ holds
  past := by
    rw [probes]
    exact fun admittedAfter member => (alone.past admittedAfter member).trans trips

theorem probeAlone_step {cfg : Config} {breaker next : Breaker} {event : BreakerEvent}
    (alone : ProbeAlone breaker) (free : NoneOutlivedTrip breaker event)
    (stepped : step cfg breaker event = some next) : ProbeAlone next := by
  cases event with
  | tryAdmit now =>
      obtain ⟨trips, circuit, probes⟩ := step_tryAdmit stepped
      by_cases granted : (breaker.cells.tryAdmit now).2 = some true
      · have leaving := circuit.isProbe.mp granted
        have none := alone.probes_eq_nil free leaving.1 leaving.2
        rw [if_pos granted, none, List.nil_append] at probes
        rw [granted] at circuit
        refine ⟨?_, fun _ => circuit.takesSlot, ?_⟩
        · rw [AtMostOneProbe, probes]
          exact Nat.le_refl 1
        · rw [probes, trips]
          exact fun _ member => (List.mem_singleton.mp member).le
      · rw [if_neg granted] at probes
        apply alone.of_same_probes probes trips.ge
        rw [trips]
        intro member
        rw [alone.holds member] at circuit
        exact circuit.keepsProbing
  | settle probe success now =>
      obtain ⟨inside, trips, _, probes⟩ := step_settle stepped
      have single := alone.single
      unfold AtMostOneProbe at single
      have none : next.probes = [] := by
        rw [probes, ← List.length_eq_zero_iff, List.length_eraseIdx_of_lt inside]
        omega
      refine ⟨?_, ?_, ?_⟩
      · rw [AtMostOneProbe, none]
        exact Nat.zero_le 1
      · rw [none]
        exact fun member => absurd member List.not_mem_nil
      · rw [none]
        exact fun _ member => absurd member List.not_mem_nil
  | trip now =>
      obtain ⟨trips, _, probes⟩ := step_trip stepped
      apply alone.of_same_probes probes (by rw [trips]; exact Nat.le_succ _)
      rw [trips]
      exact fun member => absurd (alone.past _ member) (Nat.not_succ_le_self _)
  | release now =>
      obtain ⟨trips, circuit, probes⟩ := step_release stepped
      apply alone.of_same_probes probes trips.ge
      rw [trips, circuit]
      exact alone.holds

/-- A step that leaves one probe has not handed it out over one that a trip outlived. -/
theorem noneOutlivedTrip_of_single {cfg : Config} {breaker next : Breaker}
    {event : BreakerEvent} (single : AtMostOneProbe next)
    (stepped : step cfg breaker event = some next) : NoneOutlivedTrip breaker event := by
  cases event with
  | tryAdmit now =>
      intro leaving admissible
      obtain ⟨_, circuit, probes⟩ := step_tryAdmit stepped
      rw [if_pos (circuit.isProbe.mpr ⟨leaving, admissible⟩)] at probes
      rw [AtMostOneProbe, probes, List.length_append, List.length_singleton] at single
      have none : breaker.probes = [] := List.length_eq_zero_iff.mp (by omega)
      rw [none]
      exact fun _ member => absurd member List.not_mem_nil
  | settle probe success now => trivial
  | trip now => trivial
  | release now => trivial

theorem settleProbe_changed {circuit : CircuitState} {success : Bool} {now : Instant}
    {cooldown : Duration} (before : circuit ≠ .closed)
    (after : circuit.settleProbe success now cooldown = .closed) : circuit = .halfOpen true := by
  by_contra other
  rw [CircuitState.settleProbe_of_ne other] at after
  exact before after

/-- With at most one probe around, the one that settles is the fresh one. -/
theorem closedByFreshProbe_of_single {cfg : Config} {breaker next : Breaker}
    {event : BreakerEvent} (fresh : FreshProbeInFlight breaker) (single : AtMostOneProbe breaker)
    (stepped : step cfg breaker event = some next) : ClosedByFreshProbe cfg breaker event := by
  cases event with
  | settle probe success now =>
      intro before after
      have member := fresh (settleProbe_changed before after)
      have inside := (step_settle stepped).1
      unfold AtMostOneProbe at single
      obtain ⟨place, bound, found⟩ := List.mem_iff_getElem.mp member
      have same : probe = place := by omega
      subst same
      rw [List.getElem?_eq_getElem bound, found]
  | tryAdmit now => trivial
  | trip now => trivial
  | release now => trivial

/-- One probe decides readmission in a run exactly when no probe that was
outstanding at a trip is still outstanding where a probe is handed out later. -/
theorem oneProbeDecides_iff (cfg : Config) (events : List BreakerEvent) :
    ((machine cfg).Throughout AtMostOneProbe (new cfg) events ∧
        (machine cfg).EveryStep (ClosedByFreshProbe cfg) (new cfg) events) ↔
      (machine cfg).EveryStep NoneOutlivedTrip (new cfg) events := by
  have startFresh : FreshProbeInFlight (new cfg) := by
    intro probing
    cases probing
  have startAlone : ProbeAlone (new cfg) :=
    ⟨Nat.zero_le 1, fun member => absurd member List.not_mem_nil,
      fun _ member => absurd member List.not_mem_nil⟩
  constructor
  · intro decided
    exact Machine.everyStep_of_throughout (machine cfg)
      (fun _ _ _ _ inside stepped => noneOutlivedTrip_of_single inside stepped) decided.1
  · intro free
    constructor
    · apply Machine.throughout_of_everyStep (machine cfg) (I := ProbeAlone) _ startAlone
        startAlone.single free
      intro breaker event next alone _ condition stepped
      have kept := probeAlone_step alone condition stepped
      exact ⟨kept, kept.single⟩
    · apply Machine.everyStep_of_invariant (machine cfg)
        (I := fun breaker => FreshProbeInFlight breaker ∧ ProbeAlone breaker) _
        ⟨startFresh, startAlone⟩ free
      intro breaker event next inside condition stepped
      exact ⟨⟨freshProbeInFlight_step inside.1 stepped,
        probeAlone_step inside.2 condition stepped⟩,
        closedByFreshProbe_of_single inside.1 inside.2.single stepped⟩

/-- The deployment with a cooldown of one second. -/
def shortCooldown : Config :=
  { Config.deployment with
    health := { Config.deployment.health with circuitBreakerCooldownSecs := 1 } }

/-- A trip while a probe is outstanding, and a probe after its cooldown. -/
def secondProbeRun : List BreakerEvent :=
  [.trip 0, .tryAdmit 1000000000, .trip 1500000000, .tryAdmit 2500000000]

def secondProbeEnd : Breaker :=
  { cells := { circuit := .halfOpen true, permits := 254, lastSlot := 0 }
    clock := 2500000000
    trips := 2
    probes := [1, 2]
    held := 0 }

/-- The run ends with two probes, the first of which would close the circuit
although the second trip came after its admission. -/
theorem two_probes_decide :
    shortCooldown.validate .plain = .ok () ∧
      ∃ breaker, (machine shortCooldown).exec secondProbeRun = some breaker ∧
        ¬ AtMostOneProbe breaker ∧
        ¬ ClosedByFreshProbe shortCooldown breaker (.settle 0 true 2600000000) := by
  refine ⟨by decide +kernel, secondProbeEnd, by decide +kernel, by decide, ?_⟩
  intro closes
  exact absurd (closes (by decide) rfl) (by decide)

end Breaker

end Disburse
