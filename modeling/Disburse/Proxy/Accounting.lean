import Disburse.Proxy.ProbeSlot

/-!
Owns the books of the running proxy: how routing decisions, request counters,
histograms and statistics records relate in every run, and when each attempt is
accounted for exactly once.
-/

namespace Disburse

open Disburse.Library

/-- One if the option holds this pair. -/
def hits (entry : Option (String × String)) (pair : String × String) : Nat :=
  if entry = some pair then 1 else 0

/-- The pair of a request whose attempt is on its way. -/
def Task.awaited (task : Task) : Option (String × String) :=
  match task.phase with
  | .awaiting flight => some (flight.upstream.name, task.method)
  | _ => none

/-- What a step adds to the books: a decision on one pair, a recorded outcome on
another. -/
structure Entered (before after : AppState) (decided recorded : Option (String × String)) :
    Prop where
  decisions : ∀ pair, after.metrics.decisionsOf pair =
    before.metrics.decisionsOf pair + hits decided pair
  requests : ∀ pair, after.metrics.requestsOf pair =
    before.metrics.requestsOf pair + hits recorded pair
  durations : ∀ pair, after.metrics.durationCountOf pair =
    before.metrics.durationCountOf pair + hits recorded pair
  infBucket : ∀ pair, after.metrics.infBucketOf pair =
    before.metrics.infBucketOf pair + hits recorded pair
  samples : ∀ pair, after.pool.stats.samplesOf pair =
    before.pool.stats.samplesOf pair + hits recorded pair

@[simp] theorem hits_none (pair : String × String) : hits none pair = 0 := rfl

theorem hits_some (entry pair : String × String) :
    hits (some entry) pair = if pair = entry then 1 else 0 := by
  unfold hits
  by_cases same : entry = pair
  · rw [if_pos (by rw [same]), if_pos same.symm]
  · rw [if_neg (by rwa [Option.some_inj]), if_neg (Ne.symm same)]

/-- A step that touches neither statistics nor counters enters nothing. -/
theorem Entered.nothing {before after : AppState} (stats : after.pool.stats = before.pool.stats)
    (metrics : ∃ rejections, after.metrics =
      { before.metrics with blockhashRejections := rejections }) :
    Entered before after none none := by
  rcases metrics with ⟨rejections, metrics⟩
  constructor <;> intro pair
  · rw [metrics]
    rfl
  · rw [metrics]
    rfl
  · rw [metrics]
    rfl
  · rw [metrics]
    rfl
  · rw [stats]
    rfl

theorem Entered.of_recordedOnce {upstream method : String} {latencyMs : Rat} {now : Instant}
    {success : Bool} {before after : AppState}
    (recorded : RecordedOnce upstream method latencyMs now success before after) :
    Entered before after none (some (upstream, method)) := by
  constructor <;> intro pair
  · rw [recorded.metrics, Metrics.decisionsOf_recordRequest]
    rfl
  · rw [recorded.metrics, Metrics.requestsOf_recordRequest, hits_some]
  · rw [recorded.metrics, Metrics.durationCountOf_recordRequest, hits_some]
  · rw [recorded.metrics, Metrics.infBucketOf_recordRequest, hits_some]
  · rw [recorded.pool, hits_some]
    exact StatsStore.record_samplesOf _ _ _ _ _ _ _ pair

theorem Entered.of_decision {before after : AppState} {upstream method : String}
    (stats : after.pool.stats = before.pool.stats)
    (metrics : after.metrics = before.metrics.recordRoutingDecision upstream method) :
    Entered before after (some (upstream, method)) none := by
  constructor <;> intro pair
  · rw [metrics, Metrics.decisionsOf_recordRoutingDecision, hits_some]
  · rw [metrics]
    rfl
  · rw [metrics]
    rfl
  · rw [metrics]
    rfl
  · rw [stats]
    rfl

/-! ### What a move enters -/

theorem startAttempt_entered (cfg : Config) (state : AppState) (now : Instant) (method : String)
    (loop : ForwardLoop) (draws : Nat → Nat) :
    let started := startAttempt cfg state now method loop draws
    Entered state started.1 (started.2.map fun entry => (entry.2.upstream.name, method)) none := by
  have stats := startAttempt_stats cfg state now method loop draws
  unfold startAttempt at stats ⊢
  dsimp only
  split
  · rename_i selection
    rw [selection] at stats
    exact .nothing stats ⟨_, rfl⟩
  · rename_i selection
    rw [selection] at stats
    exact .of_decision stats rfl

theorem settleAttempt_entered (cfg : Config) (state : AppState) (flight : InFlight)
    (success : Bool) (now : Instant) :
    Entered state (settleAttempt cfg state flight success now) none none := by
  unfold settleAttempt
  dsimp only
  split <;> exact .nothing rfl ⟨_, rfl⟩

theorem Task.awaited_of_grounded {task : Task} (grounded : task.phase.flight = none) :
    task.awaited = none := by
  unfold Task.awaited
  split
  · rename_i flight awaiting
    rw [awaiting] at grounded
    cases grounded
  · rfl

/-- The pair of the attempt that an event drops. -/
def Task.dropped (task : Task) : SystemEvent → Option (String × String)
  | .deadline _ | .disconnect _ => task.awaited
  | _ => none

/-- The books of one move: a decision puts an attempt on its way, and an attempt
leaves its way recorded or dropped. -/
theorem Task.Moves.entered {external : External} {cfg : Config} {state : AppState} {task : Task}
    {event : SystemEvent} {result : AppState × Task}
    (moves : task.Moves external cfg state event result) :
    ∃ decided recorded, Entered state result.1 decided recorded ∧ ∀ pair,
      hits result.2.awaited pair + hits recorded pair + hits (task.dropped event) pair =
        hits task.awaited pair + hits decided pair := by
  cases moves with
  | enters place answers now phase =>
      have left := task.enter_books external cfg state answers now
      have before : task.awaited = none := Task.awaited_of_grounded (by rw [phase]; rfl)
      have after := Task.awaited_of_grounded left.2
      refine ⟨none, none, .nothing ?_ left.1.metrics, fun pair => ?_⟩
      · rw [left.1.pool]
      · rw [before, after]
        rfl
  | leaves place phase =>
      have before : task.awaited = none := Task.awaited_of_grounded (by rw [phase]; rfl)
      refine ⟨none, none, .nothing rfl ⟨_, rfl⟩, fun pair => ?_⟩
      rw [Task.dropped, before]
      rfl
  | attempts place draws now phase =>
      have before : task.awaited = none := Task.awaited_of_grounded (by rw [phase]; rfl)
      have kept : task.dropped (.attempt place draws now) = none := rfl
      rw [kept, before]
      have entered := startAttempt_entered cfg state now task.method task.loop draws
      dsimp only at entered
      rcases task.attempt_cases external cfg state draws now with
        spent | ⟨refused, next⟩ | ⟨_, loop, flight, started, next⟩
      · rw [spent]
        exact ⟨none, none, .nothing rfl ⟨_, rfl⟩, fun pair => rfl⟩
      · rw [refused] at entered
        rw [next]
        exact ⟨none, none, entered, fun pair => rfl⟩
      · rw [started] at entered
        rw [next]
        refine ⟨_, none, entered, fun pair => ?_⟩
        show hits (some (flight.upstream.name, task.method)) pair + 0 + 0 =
          0 + hits (some (flight.upstream.name, task.method)) pair
        omega
  | answers place flight exchange latencyMs now phase =>
      have before : task.awaited = some (flight.upstream.name, task.method) := by
        simp [Task.awaited, phase]
      refine ⟨none, _, .of_recordedOnce (fireOnce_recorded external cfg state flight.upstream
        task.method (requestId task.request) exchange latencyMs now), fun pair => ?_⟩
      rw [before]
      show 0 + hits (some (flight.upstream.name, task.method)) pair + 0 =
        hits (some (flight.upstream.name, task.method)) pair + 0
      omega
  | expires place flight phase =>
      refine ⟨none, none, .nothing rfl ⟨_, rfl⟩, fun pair => ?_⟩
      show 0 + 0 + hits task.awaited pair = hits task.awaited pair + 0
      omega
  | hangsUp place flight phase =>
      refine ⟨none, none, .nothing rfl ⟨_, rfl⟩, fun pair => ?_⟩
      show 0 + 0 + hits task.awaited pair = hits task.awaited pair + 0
      omega
  | settles place flight exchange outcome now phase =>
      have before : task.awaited = none := by simp [Task.awaited, phase]
      have entered := settleAttempt_entered cfg state flight outcome.success now
      unfold Task.settle
      dsimp only
      have kept : task.dropped (.settle place now) = none := rfl
      rw [kept, before]
      split
      · exact ⟨none, none, entered, fun pair => rfl⟩
      · exact ⟨none, none, entered, fun pair => rfl⟩

/-- The request is answered or dropped. -/
def Phase.ended : Phase → Bool
  | .replied _ | .gone => true
  | .entering | .selecting | .awaiting _ | .settling _ _ _ => false

/-! ### What a step enters -/

namespace System

/-- Attempts on a pair that are on their way. -/
def awaiting (system : System) (pair : String × String) : Nat :=
  (system.tasks.map fun task => hits task.awaited pair).sum

/-- The pair of the attempt that an event drops on its way. -/
def dropped (system : System) : SystemEvent → Option (String × String)
  | .deadline place | .disconnect place => system.tasks[place]?.bind Task.awaited
  | _ => none

/-- The pair on which an event makes a monitor's record. -/
def polled : SystemEvent → Option (String × String)
  | .poll upstream _ _ _ => some (upstream, "getSlot")
  | _ => none

/-- The books of one step: a decision puts an attempt on its way, an attempt
leaves its way recorded or dropped, and each record is one of a client or of a
monitor. -/
structure Books (system : System) (event : SystemEvent) (next : System)
    (decided recorded : Option (String × String)) : Prop where
  decisions : ∀ pair, next.state.metrics.decisionsOf pair =
    system.state.metrics.decisionsOf pair + hits decided pair
  requests : ∀ pair, next.state.metrics.requestsOf pair =
    system.state.metrics.requestsOf pair + hits recorded pair
  durations : ∀ pair, next.state.metrics.durationCountOf pair =
    system.state.metrics.durationCountOf pair + hits recorded pair
  infBucket : ∀ pair, next.state.metrics.infBucketOf pair =
    system.state.metrics.infBucketOf pair + hits recorded pair
  samples : ∀ pair, next.state.pool.stats.samplesOf pair =
    system.state.pool.stats.samplesOf pair + hits recorded pair + hits (polled event) pair
  flow : ∀ pair, next.awaiting pair + hits recorded pair + hits (system.dropped event) pair =
    system.awaiting pair + hits decided pair

theorem books_of_task {external : External} {cfg : Config} {system next : System} {place : Nat}
    (event : SystemEvent) (silent : polled event = none)
    (own : ∀ task, system.tasks[place]? = some task → task.dropped event = system.dropped event)
    (stepped : system.stepTask external cfg place event = some next) :
    ∃ decided recorded, Books system event next decided recorded := by
  obtain ⟨task, result, found, moves, rfl⟩ := stepTask_moves stepped
  rcases moves.entered with ⟨decided, recorded, entered, flow⟩
  refine ⟨decided, recorded, entered.decisions, entered.requests, entered.durations,
    entered.infBucket, fun pair => ?_, fun pair => ?_⟩
  · rw [silent]
    exact entered.samples pair
  · have taskFlow := flow pair
    have listFlow := sum_map_set (fun task : Task => hits task.awaited pair) found result.2
    rw [own task found] at taskFlow
    show ((system.tasks.set place result.2).map fun task : Task => hits task.awaited pair).sum +
      hits recorded pair + hits (system.dropped event) pair =
        (system.tasks.map fun task : Task => hits task.awaited pair).sum + hits decided pair
    omega

theorem step_books {external : External} {cfg : Config} {system next : System}
    {event : SystemEvent} (stepped : step external cfg system event = some next) :
    ∃ decided recorded, Books system event next decided recorded := by
  cases event with
  | arrive handler request =>
      rw [step_arrive stepped]
      refine ⟨none, none, fun _ => rfl, fun _ => rfl, fun _ => rfl, fun _ => rfl, fun _ => rfl,
        fun pair => ?_⟩
      show ((system.tasks ++ [Task.arrive cfg handler request]).map fun task : Task =>
        hits task.awaited pair).sum + 0 + 0 = system.awaiting pair + 0
      rw [List.map_append, List.sum_append]
      rfl
  | enter place answers now => exact books_of_task _ rfl (fun _ _ => rfl) stepped
  | attempt place draws now => exact books_of_task _ rfl (fun _ _ => rfl) stepped
  | answer place exchange latencyMs now => exact books_of_task _ rfl (fun _ _ => rfl) stepped
  | settle place now => exact books_of_task _ rfl (fun _ _ => rfl) stepped
  | deadline place =>
      refine books_of_task (.deadline place) rfl (fun task found => ?_) stepped
      rw [dropped, found]
      rfl
  | disconnect place =>
      refine books_of_task (.disconnect place) rfl (fun task found => ?_) stepped
      rw [dropped, found]
      rfl
  | poll upstream body latencyMs now =>
      rw [step_poll stepped]
      refine ⟨none, none, fun _ => rfl, fun _ => rfl, fun _ => rfl, fun _ => rfl, fun pair => ?_,
        fun _ => rfl⟩
      dsimp only
      rw [UpstreamPool.pollSlot_stats, polled, hits_some, hits_none]
      exact StatsStore.record_samplesOf _ _ _ _ _ _ _ pair
  | seed upstream body =>
      rw [step_seed stepped]
      cases body <;> exact ⟨none, none, fun _ => rfl, fun _ => rfl, fun _ => rfl, fun _ => rfl,
        fun _ => rfl, fun _ => rfl⟩

/-! ### What a run enters -/

section Run

variable {external : External} {cfg : Config} {startedAt : Instant} {events : List SystemEvent}
  {final : System}

/-- Decisions are outcomes, attempts on their way, and attempts dropped there. -/
theorem decisions_eq (run : (machine external cfg startedAt).exec events = some final)
    (pair : String × String) :
    final.state.metrics.decisionsOf pair =
      final.state.metrics.requestsOf pair + final.awaiting pair +
        (machine external cfg startedAt).tally
          (fun system event => hits (system.dropped event) pair)
          (machine external cfg startedAt).init events := by
  have sum := Machine.execFrom_tally (machine external cfg startedAt)
    (fun system => (system.state.metrics.decisionsOf pair : Int) -
      system.state.metrics.requestsOf pair - system.awaiting pair)
    (fun system event => hits (system.dropped event) pair)
    (fun system event next stepped => by
      obtain ⟨decided, recorded, books⟩ := step_books stepped
      have decisions := books.decisions pair
      have requests := books.requests pair
      have flow := books.flow pair
      omega) run
  have start : ((machine external cfg startedAt).init.state.metrics.decisionsOf pair : Int) -
      (machine external cfg startedAt).init.state.metrics.requestsOf pair -
        (machine external cfg startedAt).init.awaiting pair = 0 := rfl
  omega

/-- Records are those of client attempts, one for each counted request, and those
of the monitors. -/
theorem samples_eq (run : (machine external cfg startedAt).exec events = some final)
    (pair : String × String) :
    final.state.pool.stats.samplesOf pair =
      final.state.metrics.requestsOf pair +
        (events.map fun event => hits (polled event) pair).sum := by
  have sum := Machine.execFrom_tally (machine external cfg startedAt)
    (fun system => (system.state.pool.stats.samplesOf pair : Int) -
      system.state.metrics.requestsOf pair)
    (fun _ event => hits (polled event) pair)
    (fun system event next stepped => by
      obtain ⟨decided, recorded, books⟩ := step_books stepped
      have samples := books.samples pair
      have requests := books.requests pair
      omega) run
  have start : ((machine external cfg startedAt).init.state.pool.stats.samplesOf pair : Int) -
      (machine external cfg startedAt).init.state.metrics.requestsOf pair = 0 := rfl
  rw [Machine.tally_of_execFrom _ (fun event => hits (polled event) pair) run] at sum
  omega

/-- Every counted request is in the histogram. -/
theorem durations_eq (run : (machine external cfg startedAt).exec events = some final)
    (pair : String × String) :
    final.state.metrics.durationCountOf pair = final.state.metrics.requestsOf pair ∧
      final.state.metrics.infBucketOf pair = final.state.metrics.requestsOf pair := by
  have reached : (machine external cfg startedAt).Reachable final := ⟨events, run⟩
  apply reached.invariant
    (I := fun system =>
      system.state.metrics.durationCountOf pair = system.state.metrics.requestsOf pair ∧
        system.state.metrics.infBucketOf pair = system.state.metrics.requestsOf pair)
    ⟨rfl, rfl⟩
  intro system event next equal stepped
  obtain ⟨decided, recorded, books⟩ := step_books stepped
  rw [books.durations, books.infBucket, books.requests, equal.1, equal.2]
  exact ⟨rfl, rfl⟩

end Run

/-! ### Accounted once -/

/-- No request is in progress. -/
def Quiet (system : System) : Prop := (system.tasks.all fun task => task.phase.ended) = true

/-- The numbers that count the attempts on a pair agree. The record calls for
client attempts are all record calls but those of the monitor. -/
structure AccountedOnce (system : System) (events : List SystemEvent) (pair : String × String) :
    Prop where
  requests : system.state.metrics.decisionsOf pair = system.state.metrics.requestsOf pair
  durations : system.state.metrics.decisionsOf pair = system.state.metrics.durationCountOf pair
  infBucket : system.state.metrics.decisionsOf pair = system.state.metrics.infBucketOf pair
  records : system.state.pool.stats.samplesOf pair = system.state.metrics.decisionsOf pair +
    (events.map fun event => hits (polled event) pair).sum

/-- The event drops no attempt on its way. -/
def DropsNoAttempt (system : System) (event : SystemEvent) : Prop :=
  system.dropped event = none

theorem awaiting_quiet {system : System} (quiet : system.Quiet) (pair : String × String) :
    system.awaiting pair = 0 := by
  unfold awaiting
  rw [List.sum_eq_zero_iff]
  intro weight member
  obtain ⟨task, inside, rfl⟩ := List.mem_map.mp member
  have ended := List.all_eq_true.mp quiet task inside
  have grounded : task.awaited = none := by
    unfold Task.awaited
    split
    · rename_i flight phase
      rw [phase] at ended
      cases ended
    · rfl
  rw [grounded, hits_none]

theorem dropsNoAttempt_iff {system : System} {event : SystemEvent} :
    DropsNoAttempt system event ↔ ∀ pair, hits (system.dropped event) pair = 0 := by
  unfold DropsNoAttempt hits
  cases system.dropped event with
  | none => simp
  | some entry => simp

/-- When no request is in progress, every attempt is accounted for exactly once
exactly when no step dropped an attempt on its way. -/
theorem accountedOnce_iff (external : External) (cfg : Config) (startedAt : Instant)
    (events : List SystemEvent) (final : System)
    (run : (machine external cfg startedAt).exec events = some final) (quiet : final.Quiet) :
    (∀ pair, AccountedOnce final events pair) ↔
      (machine external cfg startedAt).EveryStep DropsNoAttempt
        (machine external cfg startedAt).init events := by
  have conditions : (machine external cfg startedAt).EveryStep DropsNoAttempt
      (machine external cfg startedAt).init events ↔
      ∀ pair, (machine external cfg startedAt).tally
        (fun system event => hits (system.dropped event) pair)
          (machine external cfg startedAt).init events = 0 := by
    simp only [Machine.tally_eq_zero_iff, Machine.everyStep_forall, ← dropsNoAttempt_iff]
  rw [conditions]
  apply forall_congr'
  intro pair
  have decisions := decisions_eq run pair
  have samples := samples_eq run pair
  have durations := durations_eq run pair
  rw [awaiting_quiet quiet pair, Nat.add_zero] at decisions
  constructor
  · intro accounted
    have requests := accounted.requests
    omega
  · intro noDrops
    rw [noDrops, Nat.add_zero] at decisions
    exact ⟨decisions, decisions.trans durations.1.symm, decisions.trans durations.2.symm,
      by rw [samples, decisions]⟩

/-! ### Two runs of one request -/

/-- The events that bring a first getSlot request to its first await. -/
def sentRequest : List SystemEvent :=
  [.arrive .raw (.object [("id", .number (.posInt 7)), ("method", .string "getSlot")]),
    .enter 0 (fun _ => none) 0,
    .attempt 0 (fun _ => 0) 0]

/-- An empty body with status 200. -/
def emptyAnswer : Exchange :=
  .ok { status := 200, contentType := none, contentLength := none, chunks := [] }

def answeredRun : List SystemEvent :=
  sentRequest ++ [.answer 0 emptyAnswer 5 5000000, .settle 0 5000000]

theorem accountedOnce_iff_answered :
    ∃ final, (machine .plain .deployment 0).exec answeredRun = some final ∧
      ((∀ pair, AccountedOnce final answeredRun pair) ↔
        (machine .plain .deployment 0).EveryStep DropsNoAttempt
          (machine .plain .deployment 0).init answeredRun) := by
  have quiet : ((machine .plain .deployment 0).exec answeredRun).map
      (fun system => system.tasks.all fun task => task.phase.ended) = some true := by
    decide +kernel
  obtain ⟨final, run, quietFinal⟩ := Option.map_eq_some_iff.mp quiet
  exact ⟨final, run, accountedOnce_iff .plain .deployment 0 answeredRun final run quietFinal⟩

/-- The deadline fires while the upstream hangs: a decision without an outcome. -/
def hungRun : List SystemEvent := sentRequest ++ [.deadline 0]

/-- The hung attempt was decided and sent, and no request, no histogram and no
statistics know about it. -/
theorem hung_attempt_unaccounted :
    Config.deployment.validate .plain = .ok () ∧
      ∃ final, (machine .plain .deployment 0).exec hungRun = some final ∧ final.Quiet ∧
        final.state.metrics.decisionsOf ("helius", "getSlot") = 1 ∧
        final.state.metrics.requestsOf ("helius", "getSlot") = 0 ∧
        final.state.pool.stats.samplesOf ("helius", "getSlot") = 0 ∧
        ¬ ∀ pair, AccountedOnce final hungRun pair := by
  have counts : ((machine .plain .deployment 0).exec hungRun).map (fun system =>
      (system.tasks.all fun task => task.phase.ended,
        system.state.metrics.decisionsOf ("helius", "getSlot"),
        system.state.metrics.requestsOf ("helius", "getSlot"),
        system.state.pool.stats.samplesOf ("helius", "getSlot"))) = some (true, 1, 0, 0) := by
    decide +kernel
  obtain ⟨final, run, equal⟩ := Option.map_eq_some_iff.mp counts
  rw [Prod.mk.injEq, Prod.mk.injEq, Prod.mk.injEq] at equal
  rcases equal with ⟨quiet, decisions, requests, samples⟩
  refine ⟨Config.deployment_validate, final, run, quiet, decisions, requests, samples, ?_⟩
  intro accounted
  have once := (accounted ("helius", "getSlot")).requests
  omega

end System

end Disburse
