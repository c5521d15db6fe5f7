import Disburse.Proxy.Reply
import Disburse.Proxy.System
import Mathlib.Data.List.GetD

/-!
Owns the link between the two models of a request. Whatever the other requests
and the monitors do in a run of the proxy, a request in it behaves as one call of
its handler under the schedule made of what happened to it; so what is proved of
every call holds of every reply in every run.
-/

namespace Disburse

open Disburse.Library

/-- The state, the time and the answers with which a request entered. -/
structure Entry where
  state : AppState
  checkAt : Instant
  answers : Answers

/-- An attempt of which nothing has happened yet. -/
def Attempt.pending : Attempt where
  before := id
  selectAt := 0
  draws := fun _ => 0
  meanwhile := id
  exchange := .error { isTimeout := true, isConnect := false, text := "" }
  latencyMs := 0
  doneAt := 0

/-- The attempt with its end. -/
def Attempt.ending (started : Attempt) (exchange : Exchange) (latencyMs : Rat)
    (doneAt : Instant) : Attempt :=
  { started with exchange, latencyMs, doneAt }

def Entry.schedule (entry : Entry) (attempts : List Attempt) (deadline : Option Nat) :
    Schedule where
  checkAt := entry.checkAt
  answers := entry.answers
  attempts := fun place => attempts.getD place .pending
  deadline := deadline

theorem Entry.schedule_at (entry : Entry) (past : List Attempt) (attempt : Attempt)
    (more : List Attempt) (deadline : Option Nat) :
    (entry.schedule (past ++ attempt :: more) deadline).attempts past.length = attempt := by
  show (past ++ attempt :: more).getD past.length .pending = attempt
  rw [List.getD_eq_getElem?_getD, List.getElem?_append_right (Nat.le_refl _), Nat.sub_self]
  rfl

/-- The attempts of the schedule end in these exchanges, and those after them are
pending. -/
def Schedule.Sees (schedule : Schedule) (seen : List Exchange) : Prop :=
  ∀ place, (schedule.attempts place).exchange = seen.getD place Attempt.pending.exchange

theorem Entry.schedule_sees (entry : Entry) {attempts : List Attempt} {seen : List Exchange}
    (unended : Nat)
    (exchanges : attempts.map Attempt.exchange =
      seen ++ List.replicate unended Attempt.pending.exchange) (deadline : Option Nat) :
    (entry.schedule attempts deadline).Sees seen := by
  intro place
  show (attempts.getD place .pending).exchange = _
  rw [← List.getD_map (f := Attempt.exchange), exchanges]
  by_cases ended : place < seen.length
  · exact List.getD_append _ _ _ _ ended
  · have later : seen.length ≤ place := Nat.le_of_not_lt ended
    rw [List.getD_append_right _ _ _ _ later, List.getD_eq_getElem?_getD,
      List.getElem?_getD_replicate_default_eq, List.getD_eq_default _ _ later]

/-! ### The loop body after its selection -/

/-- What `forwardLoop` does with an attempt that is on its way. -/
def awaitAttempt (external : External) (cfg : Config) (schedule : Schedule) (id : Json)
    (method : String) (remaining place : Nat) (state : AppState) (loop : ForwardLoop)
    (flight : InFlight) : Forwarding :=
  let attempt := schedule.attempts place
  if schedule.deadline = some place then
    { state := dropAttempt (attempt.meanwhile state) flight
      result := none
      answered := loop.answered }
  else
    let fired := fireOnce external cfg (attempt.meanwhile state) flight.upstream method id
      attempt.exchange attempt.latencyMs attempt.doneAt
    let state := settleAttempt cfg fired.1 flight fired.2.success attempt.doneAt
    match loop.next cfg flight.upstream.name attempt.exchange fired.2 with
    | (loop, some result) => { state := state, result := some result, answered := loop.answered }
    | (loop, none) => forwardLoop external cfg schedule id method remaining state loop

theorem forwardLoop_succ (external : External) (cfg : Config) (schedule : Schedule) (id : Json)
    (method : String) (remaining : Nat) (state : AppState) (loop : ForwardLoop) :
    let attempt := schedule.attempts loop.answered.length
    forwardLoop external cfg schedule id method (remaining + 1) state loop =
      match startAttempt cfg (attempt.before state) attempt.selectAt method loop attempt.draws with
      | (state, none) =>
          { state := state, result := some (loop.exhausted id), answered := loop.answered }
      | (state, some (next, flight)) =>
          awaitAttempt external cfg schedule id method remaining loop.answered.length state next
            flight := rfl

/-- What the loop does after an attempt with this outcome. -/
def continueLoop (external : External) (cfg : Config) (schedule : Schedule) (id : Json)
    (method : String) (remaining : Nat) (state : AppState) :
    ForwardLoop × Option ForwardResult → Forwarding
  | (loop, some result) => { state := state, result := some result, answered := loop.answered }
  | (loop, none) => forwardLoop external cfg schedule id method remaining state loop

section Await

variable (external : External) (cfg : Config) {schedule : Schedule} (id : Json) (method : String)
  (remaining : Nat) {place : Nat} (state : AppState) (loop : ForwardLoop) (flight : InFlight)

theorem awaitAttempt_answered (inTime : schedule.deadline ≠ some place) :
    ∃ after, awaitAttempt external cfg schedule id method remaining place state loop flight =
      continueLoop external cfg schedule id method remaining after
        (loop.next cfg flight.upstream.name (schedule.attempts place).exchange
          (attemptOutcome external cfg flight.upstream id (schedule.attempts place).exchange)) := by
  unfold awaitAttempt
  dsimp only
  rw [if_neg inTime, fireOnce_outcome]
  exact ⟨_, rfl⟩

theorem awaitAttempt_cut (due : schedule.deadline = some place) :
    let cut := awaitAttempt external cfg schedule id method remaining place state loop flight
    cut.result = none ∧ cut.answered = loop.answered := by
  unfold awaitAttempt
  dsimp only
  rw [if_pos due]
  exact ⟨rfl, rfl⟩

end Await

theorem next_answered (cfg : Config) (loop : ForwardLoop) (upstream : String) (exchange : Exchange)
    (outcome : AttemptOutcome) :
    (loop.next cfg upstream exchange outcome).1.answered = loop.answered ++ [exchange] := by
  cases outcome <;> rfl

/-! ### A request as a call -/

namespace Task

section Call

variable (external : External) (cfg : Config) (task : Task)

/-- The call of the handler that the request amounts to. -/
def call (entry : Entry) (attempts : List Attempt) (deadline : Option Nat) : Handled :=
  task.handler.run external cfg entry.state (entry.schedule attempts deadline) task.request

/-- A call that reached the forwarding. -/
def handled (forwarded : Forwarding) : Handled :=
  { state := forwarded.state
    response := task.handler.package external (requestId task.request) forwarded.result
    forwarded := some forwarded }

/-- The call has come as far as `rest`, whatever attempts follow, when no
deadline fires before the attempt at `place`. -/
def Follows (entry : Entry) (attempts : List Attempt) (place : Nat)
    (rest : Schedule → AppState → Forwarding) : Prop :=
  ∀ more deadline, (∀ fires, deadline = some fires → place ≤ fires) →
    ∃ state, task.call external cfg entry (attempts ++ more) deadline =
      task.handled external (rest (entry.schedule (attempts ++ more) deadline) state)

/-- The exchanges of these attempts are the answered ones. -/
def Answered (attempts : List Attempt) (answered : List Exchange) : Prop :=
  attempts.map Attempt.exchange = answered

/-- The request has come as far as a call of its handler, or is answered as one. -/
def Replays : Prop :=
  let id := requestId task.request
  match task.phase with
  | .entering => task.remaining = cfg.retries.maxAttempts ∧ task.loop = .new
  | .selecting => ∃ entry attempts, Answered attempts task.loop.answered ∧
      task.Follows external cfg entry attempts attempts.length fun schedule state =>
        forwardLoop external cfg schedule id task.method task.remaining state task.loop
  | .awaiting flight => ∃ entry attempts, ∃ started : Attempt,
      Answered attempts task.loop.answered ∧ ∀ exchange latencyMs doneAt,
        task.Follows external cfg entry (attempts ++ [started.ending exchange latencyMs doneAt])
          attempts.length fun schedule state =>
            awaitAttempt external cfg schedule id task.method task.remaining attempts.length state
              task.loop flight
  | .settling flight exchange outcome => ∃ entry attempts,
      Answered attempts (task.loop.answered ++ [exchange]) ∧
        task.Follows external cfg entry attempts attempts.length fun schedule state =>
          continueLoop external cfg schedule id task.method task.remaining state
            (task.loop.next cfg flight.upstream.name exchange outcome)
  | .replied response => ∃ entry attempts deadline,
      let called := task.call external cfg entry attempts deadline
      called.response = response ∧ called.answered = task.loop.answered ∧
        (entry.schedule attempts deadline).Sees task.loop.answered
  | .gone => True

end Call

section Step

variable {external : External} {cfg : Config} {state : AppState} {task : Task}

theorem call_of_reply (task : Task) (entry : Entry) {replied : AppState} {reply : Json}
    (entered : beforeForward external cfg entry.state entry.checkAt entry.answers task.request =
      (replied, .inl reply)) (attempts : List Attempt) (deadline : Option Nat) :
    task.call external cfg entry attempts deadline =
      { state := replied, response := .json reply, forwarded := none } :=
  run_of_reply task.handler (entry.schedule attempts deadline) entered

theorem call_of_forward (task : Task) (entry : Entry) {passed : AppState} {method : String}
    (entered : beforeForward external cfg entry.state entry.checkAt entry.answers task.request =
      (passed, .inr method)) (attempts : List Attempt) (deadline : Option Nat) :
    task.call external cfg entry attempts deadline =
      task.handled external (forwardCore external cfg passed (entry.schedule attempts deadline)
        task.request (requestId task.request) method) :=
  run_of_forward task.handler (entry.schedule attempts deadline) entered

/-- A request that is answered with the end of the forwarding it follows. -/
theorem replays_finish {entry : Entry} {attempts : List Attempt} {place : Nat}
    {rest : Schedule → AppState → Forwarding} {result : Option ForwardResult} {replied : Task}
    (follows : task.Follows external cfg entry attempts place rest)
    (same : replied.handler = task.handler ∧ replied.request = task.request)
    (more : List Attempt) (deadline : Option Nat)
    (later : ∀ fires, deadline = some fires → place ≤ fires)
    (ends : ∀ state, let ended := rest (entry.schedule (attempts ++ more) deadline) state
      ended.result = result ∧ ended.answered = replied.loop.answered)
    (sees : (entry.schedule (attempts ++ more) deadline).Sees replied.loop.answered) :
    (replied.finish external result).Replays external cfg := by
  obtain ⟨state, called⟩ := follows more deadline later
  obtain ⟨final, answered⟩ := ends state
  have asked : replied.call external cfg entry (attempts ++ more) deadline =
      task.call external cfg entry (attempts ++ more) deadline := by
    rw [call, call, same.1, same.2]
  refine ⟨entry, attempts ++ more, deadline, ?_, ?_, sees⟩
  · show (replied.call external cfg entry (attempts ++ more) deadline).response =
      replied.handler.package external (requestId replied.request) result
    rw [asked, called, handled, final, same.1, same.2]
  · show (replied.call external cfg entry (attempts ++ more) deadline).answered =
      replied.loop.answered
    rw [asked, called]
    exact answered

theorem replays_enter (phase : task.phase = .entering) (answers : Answers) (now : Instant)
    (replays : task.Replays external cfg) :
    (task.enter external cfg state answers now).2.Replays external cfg := by
  rw [Replays, phase] at replays
  let entry : Entry := { state := state, checkAt := now, answers := answers }
  have nothing : [] = task.loop.answered := by rw [replays.2]; rfl
  have sees : (entry.schedule [] none).Sees task.loop.answered :=
    nothing ▸ entry.schedule_sees 0 rfl none
  unfold enter
  split
  · rename_i after reply entered
    have called := call_of_reply task entry entered [] none
    exact ⟨entry, [], none, congrArg Handled.response called,
      (congrArg Handled.answered called).trans nothing, sees⟩
  · rename_i after method entered
    have called := call_of_forward task entry entered
    split
    · rename_i refused
      have unsent := called [] none
      rw [forwardCore, refused] at unsent
      exact ⟨entry, [], none, congrArg Handled.response unsent,
        (congrArg Handled.answered unsent).trans nothing, sees⟩
    · rename_i bytes serialized
      refine ⟨entry, [], nothing, fun more deadline _ => ⟨after, ?_⟩⟩
      have forwarded := called more deadline
      rw [forwardCore, serialized] at forwarded
      rw [List.nil_append, replays.1, replays.2]
      exact forwarded

theorem replays_attempt (phase : task.phase = .selecting) (draws : Nat → Nat) (now : Instant)
    (replays : task.Replays external cfg) :
    (task.attempt external cfg state draws now).2.Replays external cfg := by
  rw [Replays, phase] at replays
  rcases replays with ⟨entry, attempts, answered, follows⟩
  have place : attempts.length = task.loop.answered.length := by
    rw [← answered, List.length_map]
  -- The attempt that starts now, with the state it finds.
  let started : Attempt :=
    { Attempt.pending with before := fun _ => state, selectAt := now, draws := draws }
  unfold attempt
  split
  · rename_i spent
    refine replays_finish follows ⟨rfl, rfl⟩ [] none (fun _ fires => nomatch fires)
      (fun before => ?_) (entry.schedule_sees 0 ?_ none)
    · rw [spent]
      exact ⟨rfl, rfl⟩
    · rw [List.append_nil]
      exact answered.trans (List.append_nil _).symm
  · rename_i remaining left
    have counted : task.remaining = remaining + 1 := left
    -- Under a schedule with this attempt the loop does what the proxy does.
    have resumed : ∀ exchange latencyMs doneAt more deadline before,
        forwardLoop external cfg (entry.schedule
            (attempts ++ started.ending exchange latencyMs doneAt :: more) deadline)
            (requestId task.request) task.method task.remaining before task.loop =
          match startAttempt cfg state now task.method task.loop draws with
          | (state, none) =>
              { state := state
                result := some (task.loop.exhausted (requestId task.request))
                answered := task.loop.answered }
          | (state, some (next, flight)) =>
              awaitAttempt external cfg (entry.schedule
                (attempts ++ started.ending exchange latencyMs doneAt :: more) deadline)
                (requestId task.request) task.method remaining attempts.length state next
                flight := by
      intro exchange latencyMs doneAt more deadline before
      rw [counted, forwardLoop_succ, ← place, entry.schedule_at]
      rfl
    split
    · rename_i refused
      refine replays_finish follows ⟨rfl, rfl⟩ [started] none (fun _ fires => nomatch fires)
        (fun before => ?_) (entry.schedule_sees 1 ?_ none)
      · have unsent := resumed started.exchange started.latencyMs started.doneAt [] none before
        rw [refused] at unsent
        exact ⟨congrArg Forwarding.result unsent, congrArg Forwarding.answered unsent⟩
      · rw [List.map_append, answered]
        rfl
    · rename_i next flight admitted
      have kept := (startAttempt_loop admitted).1
      refine ⟨entry, attempts, started, ?_, fun exchange latencyMs doneAt more deadline later => ?_⟩
      · show Answered attempts next.answered
        rw [kept]
        exact answered
      · rcases follows (started.ending exchange latencyMs doneAt :: more) deadline later with
          ⟨before, called⟩
        dsimp only at called
        rw [resumed exchange latencyMs doneAt more deadline before, admitted] at called
        rw [List.append_assoc]
        exact ⟨_, called⟩

theorem replays_answer {flight : InFlight} (phase : task.phase = .awaiting flight)
    (exchange : Exchange) (latencyMs : Rat) (now : Instant)
    (replays : task.Replays external cfg) :
    (task.answer external cfg state flight exchange latencyMs now).2.Replays external cfg := by
  rw [Replays, phase] at replays
  rcases replays with ⟨entry, attempts, started, answered, follows⟩
  refine ⟨entry, attempts ++ [started.ending exchange latencyMs now], ?_,
    fun more deadline later => ?_⟩
  · show Answered (attempts ++ [started.ending exchange latencyMs now])
      (task.loop.answered ++ [exchange])
    rw [Answered, List.map_append, answered]
    rfl
  · rw [List.length_append, List.length_singleton] at later
    rcases follows exchange latencyMs now more deadline
      (fun fires due => Nat.le_of_succ_le (later fires due)) with ⟨before, called⟩
    let schedule := entry.schedule (attempts ++ [started.ending exchange latencyMs now] ++ more)
      deadline
    have inTime : schedule.deadline ≠ some attempts.length := by
      intro due
      have after := later _ due
      omega
    have exchanged : (schedule.attempts attempts.length).exchange = exchange := by
      show ((entry.schedule (attempts ++ [started.ending exchange latencyMs now] ++ more)
        deadline).attempts attempts.length).exchange = exchange
      rw [List.append_assoc, List.singleton_append, entry.schedule_at]
      rfl
    rcases awaitAttempt_answered external cfg (requestId task.request) task.method task.remaining
      before task.loop flight inTime with ⟨after, continued⟩
    dsimp only at called
    rw [continued, exchanged] at called
    refine ⟨after, ?_⟩
    have outcome := fireOnce_outcome external cfg state flight.upstream task.method
      (requestId task.request) exchange latencyMs now
    unfold answer
    dsimp only
    rw [outcome]
    exact called

theorem replays_settle {flight : InFlight} {exchange : Exchange} {outcome : AttemptOutcome}
    (phase : task.phase = .settling flight exchange outcome) (now : Instant)
    (replays : task.Replays external cfg) :
    (task.settle external cfg state flight exchange outcome now).2.Replays external cfg := by
  rw [Replays, phase] at replays
  rcases replays with ⟨entry, attempts, answered, follows⟩
  have kept := next_answered cfg task.loop flight.upstream.name exchange outcome
  unfold settle
  dsimp only
  split
  · rename_i loop result ended
    rw [ended] at kept
    show (finish external { task with loop := loop } (some result)).Replays external cfg
    refine replays_finish follows ⟨rfl, rfl⟩ [] none (fun _ fires => nomatch fires)
      (fun before => ?_) (entry.schedule_sees 0 ?_ none)
    · rw [ended]
      exact ⟨rfl, rfl⟩
    · rw [List.append_nil, answered, ← kept]
      exact (List.append_nil _).symm
  · rename_i loop failed
    rw [failed] at kept
    refine ⟨entry, attempts, ?_, fun more deadline later => ?_⟩
    · show Answered attempts loop.answered
      rw [kept]
      exact answered
    · obtain ⟨before, called⟩ := follows more deadline later
      rw [failed] at called
      exact ⟨before, called⟩

theorem replays_deadline {flight : InFlight} (phase : task.phase = .awaiting flight)
    (replays : task.Replays external cfg) : (task.finish external none).Replays external cfg := by
  rw [Replays, phase] at replays
  rcases replays with ⟨entry, attempts, started, answered, follows⟩
  have cut := follows Attempt.pending.exchange started.latencyMs started.doneAt
  refine replays_finish cut ⟨rfl, rfl⟩ [] (some attempts.length) (fun fires due => ?_)
    (fun before => ?_) (entry.schedule_sees 1 ?_ _)
  · rw [Option.some_inj] at due
    exact Nat.le_of_eq due
  · exact awaitAttempt_cut external cfg (requestId task.request) task.method task.remaining before
      task.loop flight rfl
  · rw [List.append_nil, List.map_append, answered]
    rfl

/-- Every move keeps the request on the way of its call. -/
theorem Moves.replays {event : SystemEvent} {result : AppState × Task}
    (moves : task.Moves external cfg state event result) (replays : task.Replays external cfg) :
    result.2.Replays external cfg := by
  cases moves with
  | enters place answers now phase => exact replays_enter phase answers now replays
  | leaves => exact trivial
  | attempts place draws now phase => exact replays_attempt phase draws now replays
  | answers place flight exchange latencyMs now phase =>
      exact replays_answer phase exchange latencyMs now replays
  | expires place flight phase => exact replays_deadline phase replays
  | hangsUp => exact trivial
  | settles place flight exchange outcome now phase => exact replays_settle phase now replays

end Step

end Task

/-! ### Every run -/

/-- A body under another status than success is no JSON, or an error response to
the request. -/
def RefusesWell (external : External) (cfg : Config) (id : Json) (exchange : Exchange) : Prop :=
  ∀ status bytes value, Delivered cfg exchange status bytes → isSuccessStatus status = false →
    external.fromSlice bytes = some value →
      IsResponse id value ∧ (value.get "error").isSome = true

namespace System

section Run

variable {external : External} {cfg : Config} {startedAt : Instant} {system : System}

theorem replays_step {next : System} {event : SystemEvent}
    (replays : ∀ task ∈ system.tasks, task.Replays external cfg)
    (stepped : step external cfg system event = some next) :
    ∀ task ∈ next.tasks, task.Replays external cfg := by
  have moved : ∀ place, system.stepTask external cfg place event = some next →
      ∀ task ∈ next.tasks, task.Replays external cfg := by
    intro place stepped
    obtain ⟨task, result, found, moves, rfl⟩ := stepTask_moves stepped
    intro other member
    rcases List.mem_or_eq_of_mem_set member with before | same
    · exact replays other before
    · rw [same]
      exact moves.replays (replays task (List.mem_of_getElem? found))
  cases event with
  | arrive handler request =>
      rw [step_arrive stepped]
      exact List.forall_mem_append.mpr ⟨replays, List.forall_mem_singleton.mpr ⟨rfl, rfl⟩⟩
  | enter place | attempt place | answer place | settle place | deadline place | disconnect place =>
      exact moved place stepped
  | poll upstream body latencyMs now =>
      rw [step_poll stepped]
      exact replays
  | seed upstream body =>
      rw [step_seed stepped]
      exact replays

/-- In every run each request has come as far as a call of its handler. -/
theorem replays_of_reachable (reached : (machine external cfg startedAt).Reachable system) :
    ∀ task ∈ system.tasks, task.Replays external cfg :=
  reached.invariant (I := fun system => ∀ task ∈ system.tasks, task.Replays external cfg)
    (fun task member => by cases member)
    fun _ _ _ replays stepped => replays_step replays stepped

/-- A reply in a run is a response to its request, provided that the bodies
delivered with a success status are, and the refusals; it is an error when no
attempt had a success status. -/
theorem reply_isResponse (reached : (machine external cfg startedAt).Reachable system)
    {task : Task} (member : task ∈ system.tasks) {response : Response}
    (phase : task.phase = .replied response) {method : String}
    (named : task.request.get "method" = some (.string method))
    (trusted : ∀ exchange ∈ task.loop.answered,
      Trusted external cfg (requestId task.request) exchange)
    (refuses : ∀ exchange ∈ task.loop.answered,
      RefusesWell external cfg (requestId task.request) exchange) :
    ∃ value, replyValue external response = some value ∧
      IsResponse (requestId task.request) value ∧
      (NoneSucceeded cfg task.loop.answered → (value.get "error").isSome = true) := by
  have replays := replays_of_reachable reached task member
  rw [Task.Replays, phase] at replays
  obtain ⟨entry, attempts, deadline, called, answered, _⟩ := replays
  have run := run_surfaces external cfg entry.state task.handler (entry.schedule attempts deadline)
    task.request named
  rw [Task.call] at called answered
  rcases run with ⟨stale, _⟩ | ⟨forwarded, packaged, ended, surfaces, _⟩
  · rw [← called, stale]
    exact ⟨_, rfl, isResponse_jsonrpcError _ _ _, fun _ => rfl⟩
  · -- The replayed call saw of its attempts what the request saw.
    have saw : forwarded.answered = task.loop.answered := by
      rw [← answered, Handled.answered, ended]
      rfl
    rw [← saw] at trusted refuses ⊢
    have replies := package_replies_iff task.handler surfaces trusted
    have refusal : RefusalResponds external cfg (requestId task.request) forwarded := by
      intro _ earlier last status bytes value listed body refused parsed
      have inside : last ∈ forwarded.answered := by
        rw [listed]
        simp
      have refusing := refuses last inside status bytes value body refused parsed
      exact ⟨refusing.1, fun _ => refusing.2⟩
    obtain ⟨value, read, response, errs⟩ := replies.mpr refusal
    rw [← called, packaged]
    exact ⟨value, read, response, errs⟩

end Run

end System

end Disburse
