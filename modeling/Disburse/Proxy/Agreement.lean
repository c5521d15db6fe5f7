import Disburse.Proxy.AccessLog
import Disburse.Proxy.Series

/-!
Owns the agreement of the metrics with the access log: in every run the counted
successes are those of which the log tells and those of requests that are about
to be answered, and every line about a failure stands for a counted failure.
-/

namespace Disburse

open Disburse.Library

/-! ### What is counted and what is owed -/

/-- Requests counted for the upstream and the method with the status. -/
def AppState.counted (state : AppState) (upstream method status : String) : Nat :=
  state.metrics.requests.count (upstream, method, status)

/-- An attempt at the upstream succeeded, and its line is still to come. -/
def Caller.succeeded (upstream method : String) : Caller → Bool
  | .verifying _ _ => false
  | .running task =>
      match task.phase with
      | .settling flight _ outcome =>
          outcome.success && decide (flight.upstream.name = upstream ∧ task.method = method)
      | _ => false

/-- The last attempt was at the upstream and failed, and its line may come. -/
def Caller.failed (upstream method : String) : Caller → Bool
  | .verifying _ _ => false
  | .running task =>
      match task.phase with
      | .selecting => decide (task.loop.lastUpstream = some upstream ∧ task.method = method)
      | .settling flight _ outcome =>
          !outcome.success && decide (flight.upstream.name = upstream ∧ task.method = method)
      | _ => false

theorem Caller.unended_of_succeeded {upstream method : String} {caller : Caller}
    (succeeded : caller.succeeded upstream method = true) : caller.ended = false := by
  unfold Caller.succeeded at succeeded
  split at succeeded
  · rfl
  · split at succeeded
    · rename_i phase
      simp only [Caller.ended, Phase.ended, phase]
    · cases succeeded

/-- The locals of a request name the upstream of its last attempt. -/
def Caller.Tracks : Caller → Prop
  | .verifying task _ => task.loop.lastUpstream = none
  | .running task =>
      match task.phase with
      | .entering => task.loop.lastUpstream = none
      | .awaiting flight | .settling flight _ _ =>
          task.loop.lastUpstream = some flight.upstream.name
      | .selecting | .replied _ | .gone => True

/-- What a step counts, it writes or owes, and it writes about no failure that is
not counted. -/
structure Caller.Tells (upstream method : String) (state : AppState) (caller : Caller)
    (lines : List LogLine) (next : AppState × Caller) : Prop where
  ok : next.1.counted upstream method "ok" + (caller.succeeded upstream method).toNat =
    state.counted upstream method "ok" + (next.2.succeeded upstream method).toNat +
      lines.count (accessLog method (some upstream) "ok")
  error : upstream ≠ "-" →
    lines.count (accessLog method (some upstream) "error") +
        (next.2.failed upstream method).toNat + state.counted upstream method "error" ≤
      (caller.failed upstream method).toNat + next.1.counted upstream method "error"

/-- The lines of a step, as those of the request. -/
def Caller.lines (external : External) (cfg : Config) (state : AppState) (caller : Caller)
    (event : TrafficEvent) : List LogLine :=
  (caller.ending external cfg state event).toList.map
    (logLine (requestMethod caller.serves.2))

section Steps

variable {external : External} {cfg : Config} {state : AppState} {upstream method : String}

/-- A step that counts nothing, ends nothing and leaves nothing owed. -/
theorem Caller.Tells.of_quiet {caller : Caller} {lines : List LogLine}
    {next : AppState × Caller} (requests : next.1.metrics.requests = state.metrics.requests)
    (before : caller.succeeded upstream method = false)
    (after : next.2.succeeded upstream method = false)
    (unowed : next.2.failed upstream method = false)
    (quiet : lines.count (accessLog method (some upstream) "ok") = 0)
    (silent : upstream ≠ "-" → lines.count (accessLog method (some upstream) "error") = 0) :
    caller.Tells upstream method state lines next where
  ok := by
    rw [AppState.counted, requests, before, after, quiet]
    rfl
  error := by
    intro named
    rw [silent named, unowed, AppState.counted, AppState.counted, requests]
    simp

/-- Without an attempt a line names no upstream. -/
theorem count_unnamed (own status : String) (other : String) (named : upstream ≠ "-") :
    [accessLog own none status].count (accessLog method (some upstream) other) = 0 := by
  rw [List.count_singleton, if_neg]
  simp [accessLog, Ne.symm named]

theorem Task.forward_tells (task : Task) (own : String) {caller : Caller} {after : AppState}
    (requests : after.metrics.requests = state.metrics.requests)
    (before : caller.succeeded upstream method = false)
    (untried : task.loop.lastUpstream = none) (shown : String) :
    caller.Tells upstream method state ((task.unsent external).toList.map (logLine shown))
      (after, .running (task.forward external own)) := by
  unfold unsent forward
  cases external.toVec task.request with
  | none =>
      apply Caller.Tells.of_quiet requests before rfl rfl
      · show [accessLog shown none "error"].count _ = 0
        rw [List.count_singleton, if_neg]
        simp [accessLog]
      · exact count_unnamed shown "error" "error"
  | some bytes =>
      apply Caller.Tells.of_quiet requests before rfl _ rfl fun _ => rfl
      simp [Caller.failed, untried]

theorem Task.proceed_tells (task : Task) {caller : Caller} {checked : AppState × Checkpoint}
    (requests : checked.1.metrics.requests = state.metrics.requests)
    (before : caller.succeeded upstream method = false)
    (untried : task.loop.lastUpstream = none) (shown : String) :
    caller.Tells upstream method state
      ((task.checked external checked.2).toList.map (logLine shown))
      (task.proceed external checked) := by
  rcases checked with ⟨after, _ | error | verification⟩
  · exact task.forward_tells "sendTransaction" requests before untried shown
  · exact .of_quiet requests before rfl rfl rfl fun _ => rfl
  · exact .of_quiet requests before rfl rfl rfl fun _ => rfl

theorem SameBooks.requests {after : AppState} (books : SameBooks state after) :
    after.metrics.requests = state.metrics.requests := by
  obtain ⟨rejections, metrics⟩ := books.metrics
  rw [metrics]

theorem startAttempt_requests (cfg : Config) (state : AppState) (now : Instant)
    (method : String) (loop : ForwardLoop) (draws : Nat → Nat) :
    (startAttempt cfg state now method loop draws).1.metrics.requests =
      state.metrics.requests := by
  unfold startAttempt
  split <;> rfl

/-- A request that gives up after a last attempt writes about that attempt. -/
theorem Caller.Tells.of_exhausted {task : Task} (phase : task.phase = .selecting)
    {after : AppState} (requests : after.metrics.requests = state.metrics.requests)
    (result : Option ForwardResult) :
    (Caller.running task).Tells upstream method state
      [accessLog task.method task.loop.lastUpstream "error"]
      (after, .running (task.finish external result)) where
  ok := by
    rw [List.count_singleton, if_neg (by simp [accessLog])]
    simp [AppState.counted, requests, succeeded, phase, Task.finish]
  error := by
    intro named
    rw [List.count_singleton, AppState.counted, AppState.counted, requests]
    simp only [failed, phase, Task.finish, accessLog, beq_iff_eq, LogLine.mk.injEq,
      Option.getD_some, and_true]
    cases last : task.loop.lastUpstream with
    | none => simp [Ne.symm named]
    | some name =>
        by_cases same : name = upstream ∧ task.method = method
        · simp [same]
        · have other : ¬ (task.method = method ∧ name = upstream) := fun both => same both.symm
          simp [same, other]

theorem Task.attempt_tells (task : Task) (draws : Nat → Nat) (now : Instant) (place : Nat)
    (phase : task.phase = .selecting) (own : requestMethod task.request = task.method) :
    (Caller.running task).Tells upstream method state
      ((task.ending cfg state (.attempt place draws now)).toList.map
        (logLine (requestMethod task.request)))
      ((task.attempt external cfg state draws now).1,
        .running (task.attempt external cfg state draws now).2) := by
  have requests := startAttempt_requests cfg state now task.method task.loop draws
  rw [own]
  simp only [ending, phase, attempt]
  cases remaining : task.remaining with
  | zero => exact .of_exhausted phase rfl _
  | succ left =>
      dsimp only
      rcases started : startAttempt cfg state now task.method task.loop draws with
        ⟨after, _ | ⟨loop, flight⟩⟩
      · rw [started] at requests
        exact .of_exhausted phase requests _
      · rw [started] at requests
        apply Caller.Tells.of_quiet requests _ rfl rfl rfl fun _ => rfl
        simp [Caller.succeeded, phase]

theorem Task.answer_tells (task : Task) (flight : InFlight) (exchange : Exchange)
    (latencyMs : Rat) (now : Instant) (phase : task.phase = .awaiting flight) :
    (Caller.running task).Tells upstream method state []
      ((task.answer external cfg state flight exchange latencyMs now).1,
        .running (task.answer external cfg state flight exchange latencyMs now).2) := by
  have recorded := (fireOnce_recorded external cfg state flight.upstream task.method
    (requestId task.request) exchange latencyMs now).metrics
  have counted (status : String) :
      (task.answer external cfg state flight exchange latencyMs now).1.counted upstream method
        status = state.counted upstream method status +
          if (upstream, method, status) = (flight.upstream.name, task.method,
            if (fireOnce external cfg state flight.upstream task.method (requestId task.request)
              exchange latencyMs now).2.success then "ok" else "error") then 1 else 0 := by
    show (fireOnce external cfg state flight.upstream task.method (requestId task.request)
      exchange latencyMs now).1.metrics.requests.count _ = _
    rw [recorded]
    exact Counter.count_add _ _ _ _
  have told : (Caller.running (task.answer external cfg state flight exchange latencyMs
      now).2).succeeded upstream method = ((fireOnce external cfg state flight.upstream
        task.method (requestId task.request) exchange latencyMs now).2.success &&
        decide (flight.upstream.name = upstream ∧ task.method = method)) := rfl
  have owed : (Caller.running (task.answer external cfg state flight exchange latencyMs
      now).2).failed upstream method = (!(fireOnce external cfg state flight.upstream
        task.method (requestId task.request) exchange latencyMs now).2.success &&
        decide (flight.upstream.name = upstream ∧ task.method = method)) := rfl
  generalize (fireOnce external cfg state flight.upstream task.method (requestId task.request)
    exchange latencyMs now).2.success = success at counted told owed
  refine ⟨?_, fun _ => ?_⟩
  · rw [counted, told]
    by_cases same : flight.upstream.name = upstream ∧ task.method = method
    · obtain ⟨rfl, rfl⟩ := same
      cases success <;> simp [Caller.succeeded, phase]
    · have other : ¬ (upstream = flight.upstream.name ∧ method = task.method) :=
        fun both => same ⟨both.1.symm, both.2.symm⟩
      cases success <;> simp [Caller.succeeded, phase, same, other]
  · rw [counted, owed]
    by_cases same : flight.upstream.name = upstream ∧ task.method = method
    · obtain ⟨rfl, rfl⟩ := same
      cases success <;> simp [Caller.failed, phase, Nat.add_comm 1]
    · cases success <;> simp [Caller.failed, phase, same]

theorem Task.settle_tells (task : Task) (place : Nat) (flight : InFlight) (exchange : Exchange)
    (outcome : AttemptOutcome) (now : Instant)
    (phase : task.phase = .settling flight exchange outcome)
    (own : requestMethod task.request = task.method)
    (last : task.loop.lastUpstream = some flight.upstream.name) :
    (Caller.running task).Tells upstream method state
      ((task.ending cfg state (.settle place now)).toList.map
        (logLine (requestMethod task.request)))
      ((task.settle external cfg state flight exchange outcome now).1,
        .running (task.settle external cfg state flight exchange outcome now).2) := by
  have same (status : String) :
      (task.settle external cfg state flight exchange outcome now).1.counted upstream method
        status = state.counted upstream method status := by
    rw [AppState.counted, settle_state, settleAttempt_metrics]
    rfl
  rw [own]
  cases outcome with
  | ok bytes contentType =>
      have line : (task.ending cfg state (.settle place now)).toList.map (logLine task.method) =
          [accessLog task.method (some flight.upstream.name) "ok"] := by
        simp only [ending, phase]
        rfl
      rw [line]
      refine ⟨?_, fun _ => ?_⟩
      · rw [same, List.count_singleton]
        by_cases own : flight.upstream.name = upstream ∧ task.method = method
        · obtain ⟨rfl, rfl⟩ := own
          simp [Caller.succeeded, phase, settle, ForwardLoop.next, finish, AttemptOutcome.success]
        · have other : ¬ (task.method = method ∧ flight.upstream.name = upstream) :=
            fun both => own both.symm
          simp [Caller.succeeded, phase, settle, ForwardLoop.next, finish, accessLog, own, other]
      · rw [same, List.count_singleton, if_neg (by simp [accessLog])]
        simp [settle, ForwardLoop.next, finish, Caller.failed]
  | err error =>
      have line : (task.ending cfg state (.settle place now)).toList.map (logLine task.method) =
          [] := by
        simp only [ending, phase]
        rfl
      rw [line]
      refine ⟨?_, fun _ => ?_⟩
      · rw [same]
        simp [Caller.succeeded, phase, settle, ForwardLoop.next, AttemptOutcome.success]
      · rw [same]
        simp [Caller.failed, phase, settle, ForwardLoop.next, AttemptOutcome.success, last]

theorem Task.Moves.tells {task : Task} {event : SystemEvent} {result : AppState × Task}
    (moves : task.Moves external cfg state event result)
    (started : ∀ place answers now, event ≠ .enter place answers now)
    (tracks : (Caller.running task).Tracks) (named : (Caller.running task).Named cfg) :
    (Caller.running task).Tells upstream method state
      ((task.ending cfg state event).toList.map (logLine (requestMethod task.request)))
      (result.1, .running result.2) := by
  have own (forwarded : methodOf task.request = some task.method) :
      requestMethod task.request = task.method := congrArg (Option.getD · "") forwarded
  unfold Caller.Tracks at tracks
  unfold Caller.Named at named
  cases moves with
  | enters place answers now => exact (started place answers now rfl).elim
  | leaves place phase =>
      simp only [ending, phase]
      exact .of_quiet rfl (by simp [Caller.succeeded, phase]) rfl rfl rfl fun _ => rfl
  | attempts place draws now phase =>
      simp only [phase] at named
      exact task.attempt_tells draws now place phase (own named)
  | answers place flight exchange latencyMs now phase =>
      have quiet : task.ending cfg state (.answer place exchange latencyMs now) = none := by
        simp only [ending, phase]
      rw [quiet]
      exact task.answer_tells flight exchange latencyMs now phase
  | expires place flight phase =>
      simp only [ending, phase]
      refine .of_quiet rfl (by simp [Caller.succeeded, phase]) rfl rfl ?_ ?_
      · show [accessLog _ none "deadline"].count _ = 0
        rw [List.count_singleton, if_neg (by simp [accessLog])]
      · exact count_unnamed _ "deadline" "error"
  | hangsUp place flight phase =>
      simp only [ending, phase]
      exact .of_quiet rfl (by simp [Caller.succeeded, phase]) rfl rfl rfl fun _ => rfl
  | settles place flight exchange outcome now phase =>
      simp only [phase] at named tracks
      exact task.settle_tells place flight exchange outcome now phase (own named.1) tracks

theorem Caller.step_tells {caller : Caller} {event : TrafficEvent} {next : AppState × Caller}
    (tracks : caller.Tracks) (named : caller.Named cfg)
    (stepped : caller.step external cfg state event = some next) :
    caller.Tells upstream method state (caller.lines external cfg state event) next := by
  have entering {task : Task} (phase : task.phase = .entering) :
      (Caller.running task).succeeded upstream method = false := by
    simp [succeeded, phase]
  have untried {task : Task} (phase : task.phase = .entering)
      (tracks : (Caller.running task).Tracks) : task.loop.lastUpstream = none := by
    simpa only [Tracks, phase] using tracks
  unfold lines
  cases step_moves stepped with
  | refuses task _ _ phase unnamed =>
      simp only [ending, unnamed]
      exact .of_quiet rfl (entering phase) rfl rfl rfl fun _ => rfl
  | checks task _ now phase sends =>
      simp only [ending, sends]
      exact task.proceed_tells (beginCheck_books external cfg state _ now _).requests
        (entering phase) (untried phase tracks) _
  | forwards task _ _ own phase isNamed other =>
      simp only [ending, isNamed, if_neg other]
      exact task.forward_tells own rfl (entering phase) (untried phase tracks) _
  | votes task verification _ answer =>
      exact task.proceed_tells (verification.resume_books state _ answer).requests rfl tracks _
  | hangsUp => exact .of_quiet rfl rfl rfl rfl rfl fun _ => rfl
  | works task event result started moves => exact moves.tells started tracks named

theorem Task.forward_tracks (task : Task) (own : String) :
    (Caller.running (task.forward external own)).Tracks := by
  unfold forward
  split <;> exact trivial

theorem Task.proceed_tracks (task : Task) (checked : AppState × Checkpoint)
    (untried : task.loop.lastUpstream = none) : (task.proceed external checked).2.Tracks := by
  rcases checked with ⟨_, _ | _ | _⟩
  · exact task.forward_tracks "sendTransaction"
  · exact trivial
  · exact untried

theorem Caller.step_tracks {caller : Caller} {event : TrafficEvent} {next : AppState × Caller}
    (tracks : caller.Tracks) (stepped : caller.step external cfg state event = some next) :
    next.2.Tracks := by
  cases step_moves stepped with
  | refuses => exact trivial
  | checks task _ _ phase =>
      have untried : task.loop.lastUpstream = none := by
        simpa only [Tracks, phase] using tracks
      exact task.proceed_tracks _ untried
  | forwards task => exact task.forward_tracks _
  | votes task => exact task.proceed_tracks _ tracks
  | hangsUp => exact trivial
  | works task _ _ started moves =>
      unfold Tracks at tracks
      cases moves with
      | enters place answers now => exact (started place answers now rfl).elim
      | leaves => exact trivial
      | hangsUp => exact trivial
      | expires => exact trivial
      | answers place flight exchange latencyMs now phase =>
          simp only [phase] at tracks
          exact tracks
      | attempts place draws now phase =>
          rcases task.attempt_cases external cfg state draws now with
            spent | ⟨_, refused⟩ | ⟨remaining, loop, flight, starts, begun⟩
          · rw [spent]
            exact trivial
          · rw [refused]
            exact trivial
          · rw [begun]
            exact congrArg ForwardLoop.lastUpstream (startAttempt_chosen starts).1
      | settles =>
          unfold Task.settle
          dsimp only
          split <;> exact trivial

end Steps

/-! ### Every run -/

namespace Traffic

/-- The counted successes are in the log or about to be, and the failures that
the log tells of are counted. -/
structure Agrees (upstream method : String) (traffic : Traffic) (log : List (Nat × LogLine)) :
    Prop where
  ok : traffic.state.counted upstream method "ok" =
    (log.map Prod.snd).count (accessLog method (some upstream) "ok") +
      traffic.callers.countP (Caller.succeeded upstream method)
  error : upstream ≠ "-" →
    (log.map Prod.snd).count (accessLog method (some upstream) "error") +
        traffic.callers.countP (Caller.failed upstream method) ≤
      traffic.state.counted upstream method "error"

section Step

variable {external : External} {cfg : Config} {traffic next : Traffic} {event : TrafficEvent}
  {log : List (Nat × LogLine)} {upstream method : String}

/-- The lines of a step are those of the request that takes it. -/
theorem logged_lines {place : Nat} {caller : Caller} (named : event.caller = some place)
    (found : traffic.callers[place]? = some caller) :
    (traffic.logged external cfg event).map Prod.snd =
      caller.lines external cfg traffic.state event := by
  rw [logged_of_calls named found, Caller.lines]
  cases caller.ending external cfg traffic.state event <;> rfl

theorem Agrees.of_same (agrees : traffic.Agrees upstream method log)
    (callers : next.callers = traffic.callers)
    (metrics : next.state.metrics = traffic.state.metrics) :
    next.Agrees upstream method log where
  ok := by
    rw [AppState.counted, metrics, callers]
    exact agrees.ok
  error := by
    rw [AppState.counted, metrics, callers]
    exact agrees.error

theorem Agrees.arrives (agrees : traffic.Agrees upstream method log) (handler : Handler)
    (request : Json) :
    ({ traffic with callers :=
      traffic.callers ++ [.running (.arrive cfg handler request)] } : Traffic).Agrees upstream
        method log where
  ok := by
    rw [List.countP_append]
    exact agrees.ok
  error := by
    intro named
    rw [List.countP_append]
    exact agrees.error named

theorem Agrees.calls (agrees : traffic.Agrees upstream method log) {place : Nat}
    {caller : Caller} {result : AppState × Caller} (named : event.caller = some place)
    (found : traffic.callers[place]? = some caller)
    (tells : caller.Tells upstream method traffic.state
      (caller.lines external cfg traffic.state event) result) :
    (traffic.moved place result).Agrees upstream method
      (log ++ traffic.logged external cfg event) where
  ok := by
    have told := tells.ok
    have before := agrees.ok
    have moved := countP_set (Caller.succeeded upstream method) found result.2
    rw [List.map_append, List.count_append, logged_lines named found]
    show result.1.counted upstream method "ok" = _ + (traffic.callers.set place result.2).countP _
    cases old : caller.succeeded upstream method <;>
      cases new : result.2.succeeded upstream method <;>
      simp only [old, new, Bool.toNat_false, Bool.toNat_true, Bool.false_eq_true, ↓reduceIte]
        at told moved <;>
      omega
  error := by
    intro visible
    have told := tells.error visible
    have before := agrees.error visible
    have moved := countP_set (Caller.failed upstream method) found result.2
    rw [List.map_append, List.count_append, logged_lines named found]
    show _ + (traffic.callers.set place result.2).countP _ ≤
      result.1.counted upstream method "error"
    cases old : caller.failed upstream method <;>
      cases new : result.2.failed upstream method <;>
      simp only [old, new, Bool.toNat_false, Bool.toNat_true, Bool.false_eq_true, ↓reduceIte]
        at told moved <;>
      omega

theorem agrees_step (tracks : ∀ caller ∈ traffic.callers, caller.Tracks)
    (named : ∀ caller ∈ traffic.callers, caller.Named cfg)
    (agrees : traffic.Agrees upstream method log)
    (stepped : traffic.step external cfg event = some next) :
    next.Agrees upstream method (log ++ traffic.logged external cfg event) := by
  cases step_moves stepped with
  | arrives handler request => exact (List.append_nil log).symm ▸ agrees.arrives handler request
  | polls => exact (List.append_nil log).symm ▸ agrees.of_same rfl rfl
  | seeds upstream body =>
      have metrics : (traffic.state.seedCache upstream body).metrics = traffic.state.metrics := by
        cases body <;> rfl
      exact (List.append_nil log).symm ▸ agrees.of_same rfl metrics
  | calls _ place caller result own found taken =>
      have member := List.mem_of_getElem? found
      exact agrees.calls own found
        (Caller.step_tells (tracks caller member) (named caller member) taken)

theorem tracks_of_reachable {startedAt : Instant}
    (reached : (machine external cfg startedAt).Reachable traffic) :
    ∀ caller ∈ traffic.callers, caller.Tracks :=
  forall_callers (fun _ _ => rfl)
    (fun _ _ _ _ tracks stepped => Caller.step_tracks tracks stepped) reached

end Step

end Traffic

namespace Front

section Run

variable {external : External} {text : HeaderText} {cfg : Config} {startedAt : Instant}
  {front : Front}

/-- In every run, for every upstream and method, the counter of the successes is
the number of lines that tell of one and of requests about to write one, and no
fewer failures are counted than lines tell of. Once no call waits for its reply, the
counter of the successes is exactly what the log tells. -/
theorem log_agrees (reached : (machine external text cfg startedAt).Reachable front)
    (upstream method : String) :
    front.traffic.Agrees upstream method front.log ∧
      (front.openPlaces = [] → front.traffic.state.counted upstream method "ok" =
        (front.log.map Prod.snd).count (accessLog method (some upstream) "ok")) := by
  have agrees : (Traffic.machine external cfg startedAt).Reachable front.traffic ∧
      front.traffic.Agrees upstream method front.log := by
    apply reached.invariant
      (I := fun front => (Traffic.machine external cfg startedAt).Reachable front.traffic ∧
        front.traffic.Agrees upstream method front.log)
      ⟨⟨[], rfl⟩, rfl, fun _ => Nat.le_refl _⟩
    intro before event after both stepped
    refine step_keeps (P := fun traffic log =>
      (Traffic.machine external cfg startedAt).Reachable traffic ∧
        traffic.Agrees upstream method log) ?_ both stepped
    rintro traffic log event next ⟨reached, agrees⟩ taken
    exact ⟨reached.step taken, Traffic.agrees_step (Traffic.tracks_of_reachable reached)
      (Traffic.named_of_reachable reached) agrees taken⟩
  refine ⟨agrees.2, fun idle => ?_⟩
  have told := agrees.2.ok
  have none : front.traffic.callers.countP (Caller.succeeded upstream method) = 0 := by
    apply List.countP_eq_zero.mpr
    intro caller member succeeded
    obtain ⟨place, found⟩ := List.mem_iff_getElem?.mp member
    have waits := mem_openPlaces (orderly_of_reachable reached) found
      (Caller.unended_of_succeeded succeeded)
    rw [idle] at waits
    cases waits
  omega

theorem log_agrees_batch :
    ∃ front, (machine .plain .visible .deployment 0).exec answeredBatch = some front ∧
      (front.traffic.Agrees "helius" "getSlot" front.log ∧
        (front.openPlaces = [] → front.traffic.state.counted "helius" "getSlot" "ok" =
          (front.log.map Prod.snd).count (accessLog "getSlot" (some "helius") "ok"))) := by
  have runs : ((machine .plain .visible .deployment 0).exec answeredBatch).isSome = true := by
    decide +kernel
  obtain ⟨front, run⟩ := Option.isSome_iff_exists.mp runs
  exact ⟨front, run, log_agrees ⟨answeredBatch, run⟩ "helius" "getSlot"⟩

end Run

end Front

end Disburse
