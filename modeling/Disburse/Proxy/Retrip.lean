import Disburse.Library.TimedLog
import Disburse.Proxy.ProbeSlot

/-!
Owns the trips of the breaker in the running proxy and the failures recorded
between them. The proxy is watched along a run whose times do not decrease; the
watcher keeps the whole history of record calls, which the proxy prunes.
-/

namespace Disburse

open Disburse.Library

/-- The time an event reads from the clock. -/
def SystemEvent.time : SystemEvent → Option Instant
  | .enter _ _ now | .attempt _ _ now | .answer _ _ _ now | .settle _ now | .poll _ _ _ now =>
      some now
  | .arrive _ _ | .deadline _ | .disconnect _ | .seed _ _ => none

/-- Whether the record call that an event makes for the upstream, if it makes
one, is a failure. -/
def Task.failureRecorded (external : External) (cfg : Config) (task : Task) (event : SystemEvent)
    (name : String) : Option Bool :=
  match event with
  | .answer _ exchange _ _ =>
      match task.phase with
      | .awaiting flight =>
          if name = flight.upstream.name then
            some !(attemptOutcome external cfg flight.upstream (requestId task.request)
              exchange).success
          else none
      | _ => none
  | _ => none

namespace System

/-- As for one request; a monitor records its poll. -/
def failureRecorded (external : External) (cfg : Config) (system : System) (event : SystemEvent)
    (name : String) : Option Bool :=
  match event with
  | .answer place _ _ _ =>
      system.tasks[place]?.bind fun task => task.failureRecorded external cfg event name
  | .poll upstream body _ _ => if name = upstream then some !(polledSlot body).isSome else none
  | _ => none

/-- The upstream that an event trips. -/
def tripped (cfg : Config) (system : System) : SystemEvent → Option String
  | .poll upstream body latencyMs now =>
      if (system.state.pool.recordPoll upstream body latencyMs now).BreakerFires cfg upstream now
      then some upstream
      else none
  | _ => none

end System

/-- The proxy with what an observer has seen. -/
structure Watch where
  system : System
  clock : Instant
  /-- For each upstream its record calls so far: the time, and whether it failed. -/
  history : String → TimedLog Bool
  /-- How many of them came before the last trip; `none` before the first trip. -/
  lastTrip : String → Option Nat

namespace Watch

def new (cfg : Config) (startedAt : Instant) : Watch :=
  { system := { state := .start cfg startedAt, tasks := [] }
    clock := startedAt
    history := fun _ => []
    lastTrip := fun _ => none }

/-- The history of an upstream after an event at time `now`. -/
def historyAfter (external : External) (cfg : Config) (watch : Watch) (event : SystemEvent)
    (now : Instant) (name : String) : TimedLog Bool :=
  (watch.system.failureRecorded external cfg event name).elim (watch.history name)
    fun failed => watch.history name ++ [(now, failed)]

def step (external : External) (cfg : Config) (watch : Watch) (event : SystemEvent) :
    Option Watch :=
  let now := event.time.getD watch.clock
  if watch.clock ≤ now then
    (watch.system.step external cfg event).map fun next =>
      let history := watch.historyAfter external cfg event now
      { system := next
        clock := now
        history := history
        lastTrip := fun name =>
          if watch.system.tripped cfg event = some name then some (history name).length
          else watch.lastTrip name }
  else none

def machine (external : External) (cfg : Config) (startedAt : Instant) :
    Machine Watch SystemEvent :=
  { init := new cfg startedAt, step := step external cfg }

/-! ### New evidence -/

/-- A failure was recorded after the first `trip` record calls. -/
def FailedSince (history : TimedLog Bool) (trip : Nat) : Prop :=
  ∃ entry ∈ history.drop trip, entry.2 = true

instance (history : TimedLog Bool) (trip : Nat) : Decidable (FailedSince history trip) :=
  inferInstanceAs (Decidable (∃ entry ∈ _, _))

/-- If the event trips an upstream that was tripped before, a failure of that
upstream has been recorded since. -/
def TripsOnNewEvidence (external : External) (cfg : Config) (watch : Watch)
    (event : SystemEvent) : Prop :=
  ∀ name ∈ watch.system.tripped cfg event, ∀ trip ∈ watch.lastTrip name,
    FailedSince (watch.historyAfter external cfg event (event.time.getD watch.clock) name) trip

instance (external : External) (cfg : Config) (watch : Watch) (event : SystemEvent) :
    Decidable (watch.TripsOnNewEvidence external cfg event) :=
  inferInstanceAs (Decidable (∀ name ∈ _, ∀ trip ∈ _, _))

/-- Failures are at most the configured share of the calls in the rolling window. -/
def FailuresRare (cfg : Config) (now : Instant) (history : TimedLog Bool) : Prop :=
  let calls := recent (Duration.fromSecs cfg.health.rollingWindowSecs) now history
  calls.countP (fun entry => entry.2) ≤ cfg.health.circuitBreakerErrorRate * calls.length

/-- When a tick finds an upstream that was tripped before, is not dropped and has
not failed since, the old failures in the window are few. -/
def OldFailuresRare (external : External) (cfg : Config) (watch : Watch) :
    SystemEvent → Prop
  | .poll name body latencyMs now =>
      let history := watch.historyAfter external cfg (.poll name body latencyMs now) now name
      ∀ trip ∈ watch.lastTrip name, watch.system.state.pool.isDropped name now = false →
        ¬ FailedSince history trip → FailuresRare cfg now history
  | _ => True

/-! ### What a step records -/

end Watch

/-- A move makes one record, of an answered attempt, or leaves the statistics alone. -/
theorem Task.Moves.stats {external : External} {cfg : Config} {state : AppState} {task : Task}
    {event : SystemEvent} {result : AppState × Task}
    (moves : task.Moves external cfg state event result) :
    (∃ flight place exchange latencyMs now, task.phase = .awaiting flight ∧
        event = .answer place exchange latencyMs now ∧
        result.1.pool.stats = state.pool.stats.record now flight.upstream.name task.method latencyMs
          (attemptOutcome external cfg flight.upstream (requestId task.request) exchange).success) ∨
      (∀ name, task.failureRecorded external cfg event name = none) ∧
        result.1.pool.stats = state.pool.stats := by
  cases moves with
  | enters place answers now phase =>
      have books := (task.enter_books external cfg state answers now).1
      refine Or.inr ⟨fun _ => rfl, ?_⟩
      rw [books.pool]
  | leaves place phase =>
      exact Or.inr ⟨fun _ => rfl, rfl⟩
  | attempts place draws now phase =>
      refine Or.inr ⟨fun _ => rfl, ?_⟩
      rcases task.attempt_state external cfg state draws now with same | started
      · rw [same]
      · rw [started]
        exact startAttempt_stats cfg state now task.method task.loop draws
  | answers place flight exchange latencyMs now phase =>
      refine Or.inl ⟨flight, place, exchange, latencyMs, now, phase, rfl, ?_⟩
      have recorded := fireOnce_recorded external cfg state flight.upstream task.method
        (requestId task.request) exchange latencyMs now
      dsimp only at recorded
      rw [fireOnce_outcome] at recorded
      unfold Task.answer
      dsimp only
      rw [recorded.pool]
  | expires place flight phase =>
      exact Or.inr ⟨fun _ => rfl, rfl⟩
  | hangsUp place flight phase =>
      exact Or.inr ⟨fun _ => rfl, rfl⟩
  | settles place flight exchange outcome now phase =>
      refine Or.inr ⟨fun _ => rfl, ?_⟩
      rw [Task.settle_state]
      exact settleAttempt_stats cfg state flight outcome.success now

namespace System

/-- The error logs after a step: a record is pushed, the others stay. -/
structure LogsStep (recorded : String → Option Bool) (now : Instant)
    (before after : StatsStore) : Prop where
  window : after.window = before.window
  errorLog : ∀ name, after.errorLog name =
    (recorded name).elim (before.errorLog name)
      (pushPruned before.window now (before.errorLog name))

theorem LogsStep.silent {recorded : String → Option Bool} {now : Instant}
    {before after : StatsStore} (silent : ∀ name, recorded name = none)
    (same : after = before) : LogsStep recorded now before after := by
  rw [same]
  refine ⟨rfl, fun name => ?_⟩
  rw [silent name, Option.elim_none]

/-- One record, of a call on one upstream. -/
theorem LogsStep.record {before after : StatsStore} {now : Instant} {upstream method : String}
    {latencyMs : Rat} {success : Bool}
    (same : after = before.record now upstream method latencyMs success) :
    LogsStep (fun name => if name = upstream then some !success else none) now before after := by
  rw [same]
  refine ⟨rfl, fun name => ?_⟩
  rw [StatsStore.record_errorLog]
  split
  · rename_i own
    rw [own, Option.elim_some]
  · rw [Option.elim_none]

theorem logsStep_task {external : External} {cfg : Config} {system next : System} {place : Nat}
    (event : SystemEvent) (clock : Instant)
    (own : ∀ task, system.tasks[place]? = some task →
      system.failureRecorded external cfg event = task.failureRecorded external cfg event)
    (stepped : system.stepTask external cfg place event = some next) :
    LogsStep (system.failureRecorded external cfg event) (event.time.getD clock)
      system.state.pool.stats next.state.pool.stats := by
  obtain ⟨task, result, found, moves, rfl⟩ := stepTask_moves stepped
  rw [own task found]
  rcases moves.stats with ⟨flight, _, exchange, latencyMs, now, phase, rfl, stats⟩ | ⟨silent, stats⟩
  · have recorded : task.failureRecorded external cfg (.answer place exchange latencyMs now) =
        fun name => if name = flight.upstream.name then
          some !(attemptOutcome external cfg flight.upstream (requestId task.request)
            exchange).success
        else none := by
      funext name
      simp only [Task.failureRecorded, phase]
    show LogsStep (task.failureRecorded external cfg (.answer place exchange latencyMs now)) now _ _
    rw [recorded]
    exact .record stats
  · exact .silent silent stats

theorem step_logs {external : External} {cfg : Config} {system next : System}
    {event : SystemEvent} (clock : Instant)
    (stepped : step external cfg system event = some next) :
    LogsStep (system.failureRecorded external cfg event) (event.time.getD clock)
      system.state.pool.stats next.state.pool.stats := by
  cases event with
  | arrive handler request =>
      rw [step_arrive stepped]
      exact .silent (fun _ => rfl) rfl
  | enter place answers now => exact logsStep_task _ clock (fun _ _ => rfl) stepped
  | attempt place draws now => exact logsStep_task _ clock (fun _ _ => rfl) stepped
  | answer place exchange latencyMs now =>
      refine logsStep_task (.answer place exchange latencyMs now) clock
        (fun task found => ?_) stepped
      funext name
      rw [failureRecorded, found]
      rfl
  | settle place now => exact logsStep_task _ clock (fun _ _ => rfl) stepped
  | deadline place =>
      exact logsStep_task (.deadline place) clock (fun _ _ => rfl) stepped
  | disconnect place =>
      exact logsStep_task (.disconnect place) clock (fun _ _ => rfl) stepped
  | poll upstream body latencyMs now =>
      rw [step_poll stepped]
      exact .record (UpstreamPool.pollSlot_stats cfg system.state.pool upstream body latencyMs now)
  | seed upstream body =>
      rw [step_seed stepped]
      cases body <;> exact .silent (fun _ => rfl) rfl

end System

namespace Watch

/-! ### What the observer knows -/

/-- The logs of the proxy are what is left of the observed history. -/
structure Observes (cfg : Config) (watch : Watch) : Prop where
  window : watch.system.state.pool.stats.window = Duration.fromSecs cfg.health.rollingWindowSecs
  trails : ∀ name, Trails (Duration.fromSecs cfg.health.rollingWindowSecs) watch.clock
    (watch.history name) (watch.system.state.pool.stats.errorLog name)

section Step

variable {external : External} {cfg : Config} {watch next : Watch} {event : SystemEvent}

theorem step_parts (stepped : step external cfg watch event = some next) :
    watch.clock ≤ next.clock ∧ next.clock = event.time.getD watch.clock ∧
      next.history = watch.historyAfter external cfg event next.clock ∧
      watch.system.step external cfg event = some next.system := by
  rw [step, Option.ite_none_right_eq_some, Option.map_eq_some_iff] at stepped
  rcases stepped with ⟨passed, system, systemStep, rfl⟩
  exact ⟨passed, rfl, rfl, systemStep⟩

theorem observes_step (observes : Observes cfg watch)
    (stepped : step external cfg watch event = some next) : Observes cfg next := by
  obtain ⟨passed, clock, history, systemStep⟩ := step_parts stepped
  have logs := System.step_logs watch.clock systemStep
  rw [← clock] at logs
  refine ⟨logs.window.trans observes.window, fun name => ?_⟩
  have trails := observes.trails name
  rw [logs.errorLog, history, historyAfter, observes.window]
  cases watch.system.failureRecorded external cfg event name with
  | none => exact trails.later passed
  | some failed => exact trails.push passed failed

/-- The breaker fires when the failures in the window are not rare. -/
theorem breakerFires_iff (external : External) (observes : Observes cfg watch) (name : String)
    (body : Option Json) (latencyMs : Rat) {now : Instant} (passed : watch.clock ≤ now) :
    (watch.system.state.pool.recordPoll name body latencyMs now).BreakerFires cfg name now ↔
      ¬ FailuresRare cfg now
          (watch.historyAfter external cfg (.poll name body latencyMs now) now name) ∧
        watch.system.state.pool.isDropped name now = false := by
  have dropped : (watch.system.state.pool.recordPoll name body latencyMs now).isDropped name now =
      watch.system.state.pool.isDropped name now := by
    unfold UpstreamPool.isDropped
    rw [UpstreamPool.recordPoll_circuit]
  have pushed : watch.historyAfter external cfg (.poll name body latencyMs now) now name =
      watch.history name ++ [(now, !(polledSlot body).isSome)] := by
    rw [historyAfter, System.failureRecorded, if_pos rfl, Option.elim_some]
  have log : (watch.system.state.pool.recordPoll name body latencyMs now).stats.errorLog name =
      recent (Duration.fromSecs cfg.health.rollingWindowSecs) now
        (watch.historyAfter external cfg (.poll name body latencyMs now) now name) := by
    rw [UpstreamPool.recordPoll_stats, StatsStore.record_errorLog, if_pos rfl, observes.window,
      (observes.trails name).pushPruned_eq_recent passed, pushed]
  have nonempty : (watch.system.state.pool.recordPoll name body latencyMs now).stats.errorLog name ≠
      [] := by
    rw [UpstreamPool.recordPoll_stats, StatsStore.record_errorLog, if_pos rfl]
    exact pushPruned_ne_nil _ _ _ _
  unfold UpstreamPool.BreakerFires
  rw [dropped, StatsStore.errorRate_eq, StatsStore.lt_logRate_iff nonempty, log, ← not_le]
  rfl

theorem tripsOnNewEvidence_step (observes : Observes cfg watch)
    (stepped : step external cfg watch event = some next) :
    TripsOnNewEvidence external cfg watch event ↔ OldFailuresRare external cfg watch event := by
  cases event with
  | poll name body latencyMs now =>
      obtain ⟨passed, clock, _, _⟩ := step_parts stepped
      have time : next.clock = now := clock
      rw [time] at passed
      have fires := breakerFires_iff external observes name body latencyMs passed
      unfold TripsOnNewEvidence OldFailuresRare System.tripped
      dsimp only
      constructor
      · intro evidence trip tripped connected silent
        by_contra frequent
        refine silent (evidence name ?_ trip tripped)
        rw [if_pos (fires.mpr ⟨frequent, connected⟩)]
        rfl
      · intro rare upstream fired trip tripped
        rw [Option.mem_def, Option.ite_none_right_eq_some, Option.some_inj] at fired
        rcases fired with ⟨fired, rfl⟩
        by_contra silent
        exact (fires.mp fired).1 (rare trip tripped (fires.mp fired).2 silent)
  | arrive | enter | attempt | answer | settle | deadline | disconnect | seed =>
      refine iff_of_true (fun name tripped => ?_) trivial
      cases tripped

end Step

theorem observes_new (cfg : Config) (startedAt : Instant) : Observes cfg (new cfg startedAt) :=
  ⟨rfl, fun _ => Trails.nil⟩

end Watch

end Disburse
