import Disburse.Library.Machine
import Disburse.Proxy.Forward
import Disburse.Upstream.Health

/-!
Owns the running proxy: any number of requests and the health monitors, which
share one state and interleave at their awaits. A request waits while its
blockhash is verified and while an attempt is on its way; only there can its
deadline or a disconnect drop it. Between two awaits a request runs as one step, with
`select_and_admit` and its `try_admit` in it; `Routing.LeaderTable` and
`Upstream.Sections` cut those at their accesses to the shared state.
-/

namespace Disburse

open Disburse.Library

/-- Where a request stands. -/
inductive Phase where
  /-- Arrived; the blockhash check may wait for the upstreams. -/
  | entering
  /-- At the top of the loop body of `forward_core`. -/
  | selecting
  | awaiting (flight : InFlight)
  /-- `fire_once` has returned. -/
  | settling (flight : InFlight) (exchange : Exchange) (outcome : AttemptOutcome)
  | replied (response : Response)
  /-- Dropped because the client disconnected. -/
  | gone

structure Task where
  handler : Handler
  request : Json
  method : String
  /-- Attempts left. -/
  remaining : Nat
  loop : ForwardLoop
  phase : Phase

structure System where
  state : AppState
  tasks : List Task

/-- Requests are named by their place in `tasks`, upstreams by name. -/
inductive SystemEvent where
  | arrive (handler : Handler) (request : Json)
  | enter (task : Nat) (answers : Answers) (now : Instant)
  | attempt (task : Nat) (draws : Nat → Nat) (now : Instant)
  | answer (task : Nat) (exchange : Exchange) (latencyMs : Rat) (now : Instant)
  | settle (task : Nat) (now : Instant)
  | deadline (task : Nat)
  | disconnect (task : Nat)
  | poll (upstream : String) (body : Option Json) (latencyMs : Rat) (now : Instant)
  | seed (upstream : String) (body : Option Json)

namespace Task

def arrive (cfg : Config) (handler : Handler) (request : Json) : Task :=
  { handler := handler
    request := request
    method := ""
    remaining := cfg.retries.maxAttempts
    loop := .new
    phase := .entering }

/-- The request is answered with the end of its forwarding. -/
def finish (external : External) (task : Task) (result : Option ForwardResult) : Task :=
  { task with
    phase := .replied (task.handler.package external (requestId task.request) result) }

/-- To the first await of `forward_core`, or to a reply. -/
def enter (external : External) (cfg : Config) (state : AppState) (task : Task)
    (answers : Answers) (now : Instant) : AppState × Task :=
  match beforeForward external cfg state now answers task.request with
  | (state, .inl reply) => (state, { task with phase := .replied (.json reply) })
  | (state, .inr method) =>
      match external.toVec task.request with
      | none => (state, task.finish external (some (unserializable (requestId task.request))))
      | some _ => (state, { task with method := method, phase := .selecting })

def attempt (external : External) (cfg : Config) (state : AppState) (task : Task)
    (draws : Nat → Nat) (now : Instant) : AppState × Task :=
  match task.remaining with
  | 0 => (state, task.finish external (some (task.loop.exhausted (requestId task.request))))
  | remaining + 1 =>
      match startAttempt cfg state now task.method task.loop draws with
      | (state, none) =>
          (state, task.finish external (some (task.loop.exhausted (requestId task.request))))
      | (state, some (loop, flight)) =>
          (state, { task with remaining := remaining, loop := loop, phase := .awaiting flight })

def answer (external : External) (cfg : Config) (state : AppState) (task : Task)
    (flight : InFlight) (exchange : Exchange) (latencyMs : Rat) (now : Instant) :
    AppState × Task :=
  let fired := fireOnce external cfg state flight.upstream task.method (requestId task.request)
    exchange latencyMs now
  (fired.1, { task with phase := .settling flight exchange fired.2 })

def settle (external : External) (cfg : Config) (state : AppState) (task : Task)
    (flight : InFlight) (exchange : Exchange) (outcome : AttemptOutcome) (now : Instant) :
    AppState × Task :=
  let settled := settleAttempt cfg state flight outcome.success now
  match task.loop.next cfg flight.upstream.name exchange outcome with
  | (loop, some result) => (settled, { task with loop := loop }.finish external (some result))
  | (loop, none) => (settled, { task with loop := loop, phase := .selecting })

/-- A round ends the forwarding or puts an attempt on its way. -/
theorem attempt_cases (external : External) (cfg : Config) (state : AppState) (task : Task)
    (draws : Nat → Nat) (now : Instant) :
    let ended := task.finish external (some (task.loop.exhausted (requestId task.request)))
    let started := startAttempt cfg state now task.method task.loop draws
    task.attempt external cfg state draws now = (state, ended) ∨
      started.2 = none ∧ task.attempt external cfg state draws now = (started.1, ended) ∨
      ∃ remaining loop flight, started.2 = some (loop, flight) ∧
        task.attempt external cfg state draws now = (started.1,
          { task with remaining := remaining, loop := loop, phase := .awaiting flight }) := by
  unfold attempt
  dsimp only
  split
  · exact Or.inl rfl
  · rename_i remaining _
    split
    · rename_i started
      rw [started]
      exact Or.inr (Or.inl ⟨rfl, rfl⟩)
    · rename_i loop flight started
      rw [started]
      exact Or.inr (Or.inr ⟨remaining, loop, flight, rfl, rfl⟩)

/-- A round leaves the shared state alone or does what `startAttempt` does. -/
theorem attempt_state (external : External) (cfg : Config) (state : AppState) (task : Task)
    (draws : Nat → Nat) (now : Instant) :
    (task.attempt external cfg state draws now).1 = state ∨
      (task.attempt external cfg state draws now).1 =
        (startAttempt cfg state now task.method task.loop draws).1 := by
  rcases task.attempt_cases external cfg state draws now with
    spent | ⟨_, refused⟩ | ⟨_, _, _, _, started⟩
  · exact Or.inl (congrArg Prod.fst spent)
  · exact Or.inr (congrArg Prod.fst refused)
  · exact Or.inr (congrArg Prod.fst started)

@[simp] theorem settle_state (external : External) (cfg : Config) (state : AppState) (task : Task)
    (flight : InFlight) (exchange : Exchange) (outcome : AttemptOutcome) (now : Instant) :
    (task.settle external cfg state flight exchange outcome now).1 =
      settleAttempt cfg state flight outcome.success now := by
  unfold settle
  dsimp only
  split <;> rfl

/-- What an event does to the request it names, in the phases that allow it. -/
def step (external : External) (cfg : Config) (state : AppState) (task : Task)
    (event : SystemEvent) : Option (AppState × Task) :=
  match task.phase, event with
  | .entering, .enter _ answers now => some (task.enter external cfg state answers now)
  | .entering, .disconnect _ => some (state, { task with phase := .gone })
  | .selecting, .attempt _ draws now => some (task.attempt external cfg state draws now)
  | .awaiting flight, .answer _ exchange latencyMs now =>
      some (task.answer external cfg state flight exchange latencyMs now)
  | .awaiting flight, .deadline _ => some (dropAttempt state flight, task.finish external none)
  | .awaiting flight, .disconnect _ =>
      some (dropAttempt state flight, { task with phase := .gone })
  | .settling flight exchange outcome, .settle _ now =>
      some (task.settle external cfg state flight exchange outcome now)
  | _, _ => none

/-- The moves of a request, one for each phase and event that go together. -/
inductive Moves (external : External) (cfg : Config) (state : AppState) (task : Task) :
    SystemEvent → AppState × Task → Prop where
  | enters (place : Nat) (answers : Answers) (now : Instant) (phase : task.phase = .entering) :
      Moves external cfg state task (.enter place answers now)
        (task.enter external cfg state answers now)
  | leaves (place : Nat) (phase : task.phase = .entering) :
      Moves external cfg state task (.disconnect place) (state, { task with phase := .gone })
  | attempts (place : Nat) (draws : Nat → Nat) (now : Instant) (phase : task.phase = .selecting) :
      Moves external cfg state task (.attempt place draws now)
        (task.attempt external cfg state draws now)
  | answers (place : Nat) (flight : InFlight) (exchange : Exchange) (latencyMs : Rat)
      (now : Instant) (phase : task.phase = .awaiting flight) :
      Moves external cfg state task (.answer place exchange latencyMs now)
        (task.answer external cfg state flight exchange latencyMs now)
  | expires (place : Nat) (flight : InFlight) (phase : task.phase = .awaiting flight) :
      Moves external cfg state task (.deadline place)
        (dropAttempt state flight, task.finish external none)
  | hangsUp (place : Nat) (flight : InFlight) (phase : task.phase = .awaiting flight) :
      Moves external cfg state task (.disconnect place)
        (dropAttempt state flight, { task with phase := .gone })
  | settles (place : Nat) (flight : InFlight) (exchange : Exchange) (outcome : AttemptOutcome)
      (now : Instant) (phase : task.phase = .settling flight exchange outcome) :
      Moves external cfg state task (.settle place now)
        (task.settle external cfg state flight exchange outcome now)

theorem step_moves {external : External} {cfg : Config} {state : AppState} {task : Task}
    {event : SystemEvent} {result : AppState × Task}
    (stepped : task.step external cfg state event = some result) :
    Moves external cfg state task event result := by
  unfold step at stepped
  split at stepped
  · rename_i phase
    cases stepped
    exact .enters _ _ _ phase
  · rename_i phase
    cases stepped
    exact .leaves _ phase
  · rename_i phase
    cases stepped
    exact .attempts _ _ _ phase
  · rename_i phase
    cases stepped
    exact .answers _ _ _ _ _ phase
  · rename_i phase
    cases stepped
    exact .expires _ _ phase
  · rename_i phase
    cases stepped
    exact .hangsUp _ _ phase
  · rename_i phase
    cases stepped
    exact .settles _ _ _ _ _ phase
  · cases stepped

end Task

namespace System

def stepTask (external : External) (cfg : Config) (system : System) (place : Nat)
    (event : SystemEvent) : Option System :=
  system.tasks[place]?.bind fun task =>
    (task.step external cfg system.state event).map fun next =>
      { state := next.1, tasks := system.tasks.set place next.2 }

theorem stepTask_moves {external : External} {cfg : Config} {system next : System} {place : Nat}
    {event : SystemEvent} (stepped : system.stepTask external cfg place event = some next) :
    ∃ task result, system.tasks[place]? = some task ∧
      task.Moves external cfg system.state event result ∧
      next = { state := result.1, tasks := system.tasks.set place result.2 } := by
  obtain ⟨task, found, moved⟩ := Option.bind_eq_some_iff.mp stepped
  obtain ⟨result, taskStep, same⟩ := Option.map_eq_some_iff.mp moved
  exact ⟨task, result, found, Task.step_moves taskStep, same.symm⟩

def step (external : External) (cfg : Config) (system : System) (event : SystemEvent) :
    Option System :=
  match event with
  | .arrive handler request =>
      some { system with tasks := system.tasks ++ [.arrive cfg handler request] }
  | .enter place _ _ | .attempt place _ _ | .answer place _ _ _ | .settle place _
  | .deadline place | .disconnect place => system.stepTask external cfg place event
  | .poll upstream body latencyMs now =>
      if upstream ∈ cfg.pool.map Upstream.name then
        some { system with
          state := { system.state with
            pool := system.state.pool.pollSlot cfg upstream body latencyMs now } }
      else none
  | .seed upstream body =>
      if upstream ∈ cfg.pool.map Upstream.name then
        some { system with state := system.state.seedCache upstream body }
      else none

section Step

variable {external : External} {cfg : Config} {system next : System}

theorem step_arrive {handler : Handler} {request : Json}
    (stepped : step external cfg system (.arrive handler request) = some next) :
    next = { system with tasks := system.tasks ++ [.arrive cfg handler request] } :=
  (Option.some_inj.mp stepped).symm

theorem step_poll {upstream : String} {body : Option Json} {latencyMs : Rat} {now : Instant}
    (stepped : step external cfg system (.poll upstream body latencyMs now) = some next) :
    next = { system with
      state := { system.state with
        pool := system.state.pool.pollSlot cfg upstream body latencyMs now } } := by
  rw [step, Option.ite_none_right_eq_some, Option.some_inj] at stepped
  exact stepped.2.symm

theorem step_seed {upstream : String} {body : Option Json}
    (stepped : step external cfg system (.seed upstream body) = some next) :
    next = { system with state := system.state.seedCache upstream body } := by
  rw [step, Option.ite_none_right_eq_some, Option.some_inj] at stepped
  exact stepped.2.symm

end Step

/-- The proxy started at `startedAt`. -/
def machine (external : External) (cfg : Config) (startedAt : Instant) :
    Machine System SystemEvent :=
  { init := { state := .start cfg startedAt, tasks := [] }
    step := step external cfg }

end System

end Disburse
