import Disburse.Proxy.Retrip

/-!
Owns the cooldown of a tripped upstream in the running proxy: while it runs, no
event touches the circuit. When it is longer than the rolling window, all errors
from before a trip have left the window when the upstream comes back.
-/

namespace Disburse

open Disburse.Library

/-- The start of an attempt does not touch an open circuit. -/
theorem startAttempt_of_dropped (cfg : Config) {state : AppState} {now : Instant}
    (method : String) (loop : ForwardLoop) (draws : Nat → Nat) {name : String}
    (dropped : state.pool.isDropped name now = true) :
    (startAttempt cfg state now method loop draws).1.pool.circuit name =
      state.pool.circuit name := by
  have kept := (selectAndAdmit_spec cfg state.pool now method loop.excluded draws).dropped dropped
  unfold startAttempt
  split
  · rename_i selection
    rw [selection] at kept
    exact kept
  · rename_i selection
    rw [selection] at kept
    exact kept

/-- A settlement does not touch an open circuit. -/
theorem settleAttempt_of_dropped {cfg : Config} {state : AppState} {flight : InFlight}
    {name : String} (success : Bool) (now : Instant) {clock : Instant}
    (dropped : state.pool.isDropped name clock = true) :
    (settleAttempt cfg state flight success now).pool.circuit name = state.pool.circuit name := by
  have opened : state.pool.circuit name ≠ .halfOpen true := by
    intro probing
    unfold UpstreamPool.isDropped at dropped
    rw [probing] at dropped
    cases dropped
  unfold settleAttempt
  dsimp only
  rw [AppState.releasePermit_circuit]
  split
  · rw [UpstreamPool.setCircuit_circuit]
    split
    · rename_i same
      rw [← same]
      exact CircuitState.settleProbe_of_ne opened success now cfg.cooldown
    · rfl
  · rfl

/-- A move leaves alone every circuit whose cooldown is running at its time. -/
theorem Task.Moves.circuit_of_dropped {external : External} {cfg : Config} {state : AppState}
    {task : Task} {event : SystemEvent} {result : AppState × Task}
    (moves : task.Moves external cfg state event result) {name : String} {clock : Instant}
    (dropped : state.pool.isDropped name (event.time.getD clock) = true) :
    result.1.pool.circuit name = state.pool.circuit name := by
  cases moves with
  | enters place answers now phase =>
      rw [(task.enter_books external cfg state answers now).1.pool]
  | leaves => rfl
  | attempts place draws now phase =>
      rcases task.attempt_state external cfg state draws now with same | started
      · rw [same]
      · rw [started]
        exact startAttempt_of_dropped cfg task.method task.loop draws dropped
  | answers place flight exchange latencyMs now phase =>
      have recorded := fireOnce_recorded external cfg state flight.upstream task.method
        (requestId task.request) exchange latencyMs now
      show (fireOnce external cfg state flight.upstream task.method (requestId task.request)
        exchange latencyMs now).1.pool.circuit name = _
      rw [recorded.pool]
      rfl
  | expires => exact AppState.releasePermit_circuit _ _ _
  | hangsUp => exact AppState.releasePermit_circuit _ _ _
  | settles place flight exchange outcome now phase =>
      rw [Task.settle_state]
      exact settleAttempt_of_dropped outcome.success now dropped

theorem System.step_of_dropped {external : External} {cfg : Config} {system next : System}
    {event : SystemEvent} {name : String} {clock : Instant}
    (dropped : system.state.pool.isDropped name (event.time.getD clock) = true)
    (stepped : step external cfg system event = some next) :
    next.state.pool.circuit name = system.state.pool.circuit name := by
  have moved : ∀ place, system.stepTask external cfg place event = some next →
      next.state.pool.circuit name = system.state.pool.circuit name := by
    intro place stepped
    obtain ⟨task, result, found, moves, rfl⟩ := stepTask_moves stepped
    exact moves.circuit_of_dropped dropped
  cases event with
  | arrive handler request =>
      rw [step_arrive stepped]
  | enter place | attempt place | answer place | settle place | deadline place | disconnect place =>
      exact moved place stepped
  | poll upstream body latencyMs now =>
      rw [step_poll stepped]
      exact UpstreamPool.pollSlot_of_dropped cfg system.state.pool upstream body latencyMs now
        dropped
  | seed upstream body =>
      rw [step_seed stepped]
      cases body <;> rfl

/-- An event that trips an upstream leaves it open for the cooldown. -/
theorem System.step_tripped {external : External} {cfg : Config} {system next : System}
    {event : SystemEvent} {name : String} (clock : Instant)
    (trips : system.tripped cfg event = some name)
    (stepped : step external cfg system event = some next) :
    next.state.pool.circuit name = .trip (event.time.getD clock) cfg.cooldown := by
  cases event with
  | poll upstream body latencyMs now =>
      rw [tripped, Option.ite_none_right_eq_some, Option.some_inj] at trips
      rcases trips with ⟨fires, rfl⟩
      rw [step_poll stepped]
      exact UpstreamPool.pollSlot_of_fires cfg system.state.pool upstream body latencyMs now fires
  | arrive | enter | attempt | answer | settle | deadline | disconnect | seed => cases trips

namespace Watch

/-- After a trip at some time the records before it are no later, and until the
cooldown is over the upstream is dropped. -/
structure TrippedAt (cfg : Config) (watch : Watch) (name : String) (trip : Nat)
    (time : Instant) : Prop where
  counted : trip ≤ (watch.history name).length
  before : ∀ entry ∈ (watch.history name).take trip, entry.1 ≤ time
  dropped : ∀ now, watch.clock ≤ now → now < time + cfg.cooldown →
    watch.system.state.pool.isDropped name now = true

def CoolsDown (cfg : Config) (watch : Watch) : Prop :=
  ∀ name, ∀ trip ∈ watch.lastTrip name, ∃ time, TrippedAt cfg watch name trip time

section Step

variable {external : External} {cfg : Config} {watch next : Watch} {event : SystemEvent}

/-- The history only grows. -/
theorem historyAfter_eq_append (external : External) (cfg : Config) (watch : Watch)
    (event : SystemEvent) (now : Instant) (name : String) :
    ∃ new, watch.historyAfter external cfg event now name = watch.history name ++ new := by
  unfold historyAfter
  cases watch.system.failureRecorded external cfg event name with
  | none => exact ⟨[], (List.append_nil _).symm⟩
  | some failed => exact ⟨_, rfl⟩

theorem step_lastTrip (stepped : step external cfg watch event = some next) (name : String) :
    next.lastTrip name = if watch.system.tripped cfg event = some name
      then some (next.history name).length else watch.lastTrip name := by
  rw [step, Option.ite_none_right_eq_some, Option.map_eq_some_iff] at stepped
  rcases stepped with ⟨_, system, _, rfl⟩
  rfl

theorem coolsDown_step (observes : Observes cfg next) (cools : CoolsDown cfg watch)
    (stepped : step external cfg watch event = some next) : CoolsDown cfg next := by
  obtain ⟨passed, clock, history, systemStep⟩ := step_parts stepped
  intro name trip found
  rw [Option.mem_def, step_lastTrip stepped] at found
  split at found
  · rename_i trips
    rw [Option.some_inj] at found
    have opened := System.step_tripped watch.clock trips systemStep
    rw [← clock] at opened
    refine ⟨next.clock, Nat.le_of_eq found.symm, fun entry member => ?_, fun now _ running => ?_⟩
    · exact (observes.trails name).past entry (List.mem_of_mem_take member)
    · unfold UpstreamPool.isDropped
      rw [opened]
      exact decide_eq_true running
  · obtain ⟨time, tripped⟩ := cools name trip found
    obtain ⟨new, grown⟩ := historyAfter_eq_append external cfg watch event next.clock name
    rw [← history] at grown
    refine ⟨time, ?_, ?_, fun now later running => ?_⟩
    · rw [grown, List.length_append]
      exact Nat.le_add_right_of_le tripped.counted
    · rw [grown, List.take_append_of_le_length tripped.counted]
      exact tripped.before
    · have atStep := tripped.dropped next.clock passed (Nat.lt_of_le_of_lt later running)
      rw [clock] at atStep
      have kept := System.step_of_dropped atStep systemStep
      have atNow := tripped.dropped now (passed.trans later) running
      unfold UpstreamPool.isDropped at atNow ⊢
      rw [kept, atNow]

/-- An upstream that is back after a cooldown longer than the window has no
record from before its trip in the window. -/
theorem recent_after_cooldown {name : String} {trip : Nat} {time now : Instant}
    (longer : Duration.fromSecs cfg.health.rollingWindowSecs < cfg.cooldown)
    (tripped : TrippedAt cfg watch name trip time) (passed : watch.clock ≤ now)
    (back : watch.system.state.pool.isDropped name now = false) (new : TimedLog Bool) :
    recent (Duration.fromSecs cfg.health.rollingWindowSecs) now (watch.history name ++ new) =
      recent (Duration.fromSecs cfg.health.rollingWindowSecs) now
        ((watch.history name ++ new).drop trip) := by
  have ended : time + cfg.cooldown ≤ now := by
    apply Nat.le_of_not_lt
    intro running
    rw [tripped.dropped now passed running] at back
    cases back
  have left : recent (Duration.fromSecs cfg.health.rollingWindowSecs) now
      ((watch.history name).take trip) = [] := by
    unfold recent
    rw [List.filter_eq_nil_iff]
    intro entry member
    have early := tripped.before entry member
    rw [decide_eq_true_eq, Nat.not_le]
    exact longer.trans_le (Nat.le_sub_of_add_le' ((Nat.add_le_add_right early _).trans ended))
  calc recent (Duration.fromSecs cfg.health.rollingWindowSecs) now (watch.history name ++ new)
      = recent (Duration.fromSecs cfg.health.rollingWindowSecs) now
          ((watch.history name ++ new).take trip ++ (watch.history name ++ new).drop trip) := by
        rw [List.take_append_drop]
    _ = recent (Duration.fromSecs cfg.health.rollingWindowSecs) now
          ((watch.history name ++ new).drop trip) := by
        unfold recent at left ⊢
        rw [List.filter_append, List.take_append_of_le_length tripped.counted, left,
          List.nil_append]

/-- With no failure among the calls in the window, failures are rare. -/
theorem failuresRare_of_recent {now : Instant} {history : TimedLog Bool} {trip : Nat}
    (rate : 0 ≤ cfg.health.circuitBreakerErrorRate)
    (silent : ¬ FailedSince history trip)
    (aged : recent (Duration.fromSecs cfg.health.rollingWindowSecs) now history =
      recent (Duration.fromSecs cfg.health.rollingWindowSecs) now (history.drop trip)) :
    FailuresRare cfg now history := by
  have none : (recent (Duration.fromSecs cfg.health.rollingWindowSecs) now history).countP
      (fun entry => entry.2) = 0 := by
    rw [List.countP_eq_zero, aged]
    intro entry member failed
    exact silent ⟨entry, List.mem_of_mem_filter member, failed⟩
  unfold FailuresRare
  dsimp only
  rw [none, Nat.cast_zero]
  exact mul_nonneg rate (Nat.cast_nonneg _)

theorem oldFailuresRare_step (rate : 0 ≤ cfg.health.circuitBreakerErrorRate)
    (longer : Duration.fromSecs cfg.health.rollingWindowSecs < cfg.cooldown)
    (cools : CoolsDown cfg watch) (stepped : step external cfg watch event = some next) :
    OldFailuresRare external cfg watch event := by
  cases event with
  | poll name body latencyMs now =>
      obtain ⟨passed, clock, _, _⟩ := step_parts stepped
      have time : next.clock = now := clock
      rw [time] at passed
      intro trip found back silent
      obtain ⟨tripTime, tripped⟩ := cools name trip found
      rcases historyAfter_eq_append external cfg watch (.poll name body latencyMs now) now name
        with ⟨new, grown⟩
      rw [grown] at silent ⊢
      exact failuresRare_of_recent rate silent
        (recent_after_cooldown longer tripped passed back new)
  | arrive | enter | attempt | answer | settle | deadline | disconnect | seed => trivial

end Step

theorem coolsDown_new (cfg : Config) (startedAt : Instant) : CoolsDown cfg (new cfg startedAt) := by
  intro name trip found
  cases found

/-- When the cooldown of a config that `validate` accepts is longer than its
rolling window, every repeated trip in every run follows a new failure. -/
theorem tripsOnNewEvidence_of_longCooldown (external : External) (cfg : Config)
    (startedAt : Instant) (events : List SystemEvent)
    (valid : cfg.validate external = .ok ())
    (longer : Duration.fromSecs cfg.health.rollingWindowSecs < cfg.cooldown) :
    let watched := machine external cfg startedAt
    watched.EveryStep (TripsOnNewEvidence external cfg) watched.init events := by
  have rate := (validate_eq_ok.mp valid).errorRate.1
  apply Machine.everyStep_of_invariant (machine external cfg startedAt)
    (I := fun watch => Observes cfg watch ∧ CoolsDown cfg watch) _
    ⟨observes_new cfg startedAt, coolsDown_new cfg startedAt⟩
    (Machine.everyStep_trivial (machine external cfg startedAt) _ events)
  intro before event after kept _ stepped
  have observes := observes_step kept.1 stepped
  refine ⟨⟨observes, coolsDown_step observes kept.2 stepped⟩, ?_⟩
  exact (tripsOnNewEvidence_step kept.1 stepped).mpr
    (oldFailuresRare_step rate longer kept.2 stepped)

end Watch

end Disburse
