import Disburse.Proxy.Answers

/-!
Owns what the access log and the rejection counter say about the requests, in
every run: a request that was answered by a forwarding has one line, which tells
of the step that ended it; one that was turned away before has none, and is counted
when its hash was the reason; nobody else leaves a trace.
-/

namespace Disburse

open Disburse.Library

/-! ### How a step ends a request -/

def AppState.rejections (state : AppState) : Nat := state.metrics.blockhashRejections

/-- What a step of a request leaves: it goes on or is dropped, is turned away
for want of a method or for its hash, or its forwarding ends. -/
inductive Caller.Ends (external : External) (state : AppState) (caller : Caller)
    (ending : Option (Option ForwardResult)) (next : AppState × Caller) : Prop where
  | goesOn (quiet : ending = none) (reply : next.2.reply = none)
      (same : next.1.rejections = state.rejections)
  | unnamed (quiet : ending = none) (method : (caller.serves.2.get "method").bind Json.asStr = none)
      (reply : next.2.reply = some (.json
        (jsonrpcError (requestId caller.serves.2) .invalidRequest "missing method")))
      (same : next.1.rejections = state.rejections)
  | stale (quiet : ending = none)
      (method : (caller.serves.2.get "method").bind Json.asStr = some "sendTransaction")
      (reply : next.2.reply = some (.json (staleError (requestId caller.serves.2))))
      (counted : next.1.rejections = state.rejections + 1)
  | forwarded (result : Option ForwardResult) (ended : ending = some result)
      (reply : next.2.reply = some
        (caller.serves.1.package external (requestId caller.serves.2) result))
      (same : next.1.rejections = state.rejections)

/-- The ways in which a step ends the forwarding of a request, with the result: it
cannot be serialized, no attempt is left or no upstream takes it, the attempt in
flight has succeeded, or the deadline comes over it. -/
inductive Caller.ForwardEnds (external : External) (cfg : Config) (state : AppState) :
    Caller → TrafficEvent → Option ForwardResult → Prop
  | unsent (caller : Caller) (event : TrafficEvent) (first : ∀ own, event ≠ .other own)
      (unwritable : external.toVec caller.serves.2 = none) :
      ForwardEnds external cfg state caller event
        (some (unserializable (requestId caller.serves.2)))
  | exhausted (task : Task) (place : Nat) (draws : Nat → Nat) (now : Instant)
      (phase : task.phase = .selecting)
      (nobody : task.remaining = 0 ∨
        (selectAndAdmit cfg state.pool now task.method task.loop.excluded draws).2 = none) :
      ForwardEnds external cfg state (.running task) (.other (.attempt place draws now))
        (some (.err (task.loop.lastError.getD (noUpstreamError (requestId task.request)))
          task.loop.lastUpstream))
  | succeeds (task : Task) (place : Nat) (flight : InFlight) (exchange : Exchange) (bytes : Bytes)
      (contentType : Option String) (now : Instant)
      (phase : task.phase = .settling flight exchange (.ok bytes contentType)) :
      ForwardEnds external cfg state (.running task) (.other (.settle place now))
        (some (.ok bytes contentType flight.upstream.name))
  | expires (task : Task) (place : Nat) (flight : InFlight)
      (phase : task.phase = .awaiting flight) :
      ForwardEnds external cfg state (.running task) (.other (.deadline place)) none

/-- A check counts a rejection exactly when it rejects. -/
def Checked (state : AppState) (id : Json) (checked : AppState × Checkpoint) : Prop :=
  match checked.2 with
  | .rejected error => error = staleError id ∧ checked.1.rejections = state.rejections + 1
  | .passed | .asking _ => checked.1.rejections = state.rejections

section Steps

variable {external : External} {cfg : Config} {state : AppState}

theorem askNext_checked (id : Json) (blockhash : String) (tip : Nat) (upstreams : List Upstream) :
    Checked state id (askNext state id blockhash tip upstreams) := by
  cases upstreams with
  | nil => exact ⟨rfl, rfl⟩
  | cons upstream rest => exact rfl

theorem settleCheck_checked (id : Json) (blockhash : String) (tip : Nat)
    (verdict : Option Bool) : Checked state id (settleCheck state id blockhash tip verdict) := by
  rcases verdict with _ | valid
  · exact ⟨rfl, rfl⟩
  · cases valid with
    | true => exact rfl
    | false => exact ⟨rfl, rfl⟩

theorem beginCheck_checked (now : Instant) (request id : Json) :
    Checked state id (beginCheck external cfg state now request id) := by
  unfold beginCheck
  split
  · split
    · exact rfl
    · dsimp only
      split
      · split
        · exact ⟨rfl, rfl⟩
        · exact rfl
      · apply askNext_checked
  · exact rfl

theorem Verification.resume_checked (verification : Verification) (id : Json)
    (answer : Option Json) : Checked state id (verification.resume state id answer) := by
  unfold resume
  split
  · apply settleCheck_checked
  · apply askNext_checked

/-- A request that is past its check, or needs none. -/
theorem Task.forward_ends (task : Task) (method : String) {caller : Caller}
    (own : caller.serves = (task.handler, task.request)) {after : AppState}
    (same : after.rejections = state.rejections) :
    caller.Ends external state (task.unsent external)
      (after, .running (task.forward external method)) := by
  unfold Task.unsent Task.forward
  cases external.toVec task.request with
  | none =>
      apply Caller.Ends.forwarded _ rfl _ same
      rw [own]
      rfl
  | some bytes => exact .goesOn rfl rfl same

theorem Task.proceed_ends (task : Task) {caller : Caller}
    (own : caller.serves = (task.handler, task.request))
    (sends : (task.request.get "method").bind Json.asStr = some "sendTransaction")
    {checked : AppState × Checkpoint} (spec : Checked state (requestId task.request) checked) :
    caller.Ends external state (task.checked external checked.2)
      (task.proceed external checked) := by
  rcases checked with ⟨after, _ | error | verification⟩
  · exact task.forward_ends _ own spec
  · apply Caller.Ends.stale rfl
    · rw [own]
      exact sends
    · rw [own, ← spec.1]
      rfl
    · exact spec.2
  · exact .goesOn rfl rfl spec

theorem startAttempt_rejections (cfg : Config) (state : AppState) (now : Instant)
    (method : String) (loop : ForwardLoop) (draws : Nat → Nat) :
    (startAttempt cfg state now method loop draws).1.rejections = state.rejections := by
  unfold startAttempt
  split <;> rfl

theorem Task.attempt_ends (task : Task) (draws : Nat → Nat) (now : Instant) (place : Nat)
    (phase : task.phase = .selecting) :
    (Caller.running task).Ends external state
      (task.ending cfg state (.attempt place draws now))
      ((task.attempt external cfg state draws now).1,
        .running (task.attempt external cfg state draws now).2) := by
  have counted := startAttempt_rejections cfg state now task.method task.loop draws
  simp only [Task.ending, phase, Task.attempt]
  cases remaining : task.remaining with
  | zero => exact .forwarded _ rfl rfl rfl
  | succ left =>
      dsimp only
      rcases started : startAttempt cfg state now task.method task.loop draws with
        ⟨after, _ | ⟨loop, flight⟩⟩
      · rw [started] at counted
        exact .forwarded _ rfl rfl counted
      · rw [started] at counted
        exact .goesOn rfl rfl counted

theorem Task.settle_ends (task : Task) (place : Nat) (flight : InFlight) (exchange : Exchange)
    (outcome : AttemptOutcome) (now : Instant)
    (phase : task.phase = .settling flight exchange outcome) :
    (Caller.running task).Ends external state
      (task.ending cfg state (.settle place now))
      ((task.settle external cfg state flight exchange outcome now).1,
        .running (task.settle external cfg state flight exchange outcome now).2) := by
  have counted : (settleAttempt cfg state flight outcome.success now).rejections =
      state.rejections := by
    rw [AppState.rejections, settleAttempt_metrics]
    rfl
  simp only [Task.ending, phase, Task.settle]
  rcases task.loop.next cfg flight.upstream.name exchange outcome with ⟨loop, _ | result⟩
  · exact .goesOn rfl rfl counted
  · exact .forwarded _ rfl rfl counted

theorem Task.Moves.ends {task : Task} {event : SystemEvent} {result : AppState × Task}
    (moves : task.Moves external cfg state event result)
    (cut : ∀ place answers now, event ≠ .enter place answers now) :
    (Caller.running task).Ends external state (task.ending cfg state event)
      (result.1, .running result.2) := by
  cases moves with
  | enters place answers now => exact absurd rfl (cut place answers now)
  | leaves place phase => exact .goesOn (by simp only [Task.ending, phase]) rfl rfl
  | attempts place draws now phase => exact task.attempt_ends draws now place phase
  | answers place flight exchange latencyMs now phase =>
      apply Caller.Ends.goesOn (by simp only [Task.ending, phase]) rfl
      have recorded := fireOnce_recorded external cfg state flight.upstream task.method
        (requestId task.request) exchange latencyMs now
      have metrics := congrArg Metrics.blockhashRejections recorded.metrics
      exact metrics
  | expires place flight phase =>
      exact .forwarded none (by simp only [Task.ending, phase]) rfl rfl
  | hangsUp place flight phase => exact .goesOn (by simp only [Task.ending, phase]) rfl rfl
  | settles place flight exchange outcome now phase =>
      exact task.settle_ends place flight exchange outcome now phase

theorem Task.forwardEnds_of_ending {task : Task} {event : SystemEvent}
    {result : Option ForwardResult} (ending : task.ending cfg state event = some result) :
    Caller.ForwardEnds external cfg state (.running task) (.other event) result := by
  unfold Task.ending at ending
  split at ending
  · rename_i place draws now phase
    dsimp only at ending
    split at ending
    · rename_i left
      cases ending
      exact .exhausted task place draws now phase (.inl left)
    · split at ending
      · rename_i nobody
        cases ending
        refine .exhausted task place draws now phase (.inr ?_)
        unfold startAttempt at nobody
        split at nobody
        · rename_i selected
          rw [selected]
        · cases nobody
      · cases ending
  · rename_i flight place phase
    cases ending
    exact .expires task place flight phase
  · rename_i flight exchange outcome place now phase
    cases outcome with
    | ok bytes contentType =>
        cases ending
        exact .succeeds task place flight exchange bytes contentType now phase
    | err error => cases ending
  · cases ending

theorem Task.unsent_eq_some {task : Task} {result : Option ForwardResult}
    (ending : task.unsent external = some result) :
    external.toVec task.request = none ∧
      result = some (unserializable (requestId task.request)) := by
  unfold Task.unsent at ending
  split at ending
  · rename_i unwritable
    cases ending
    exact ⟨unwritable, rfl⟩
  · cases ending

/-- The end of a forwarding is one of the four. -/
theorem Caller.forwardEnds_of_ending {caller : Caller} {event : TrafficEvent}
    {result : Option ForwardResult}
    (ending : caller.ending external cfg state event = some result) :
    caller.ForwardEnds external cfg state event result := by
  have passes {task : Task} {checkpoint : Checkpoint}
      (passed : task.checked external checkpoint = some result) :
      external.toVec task.request = none ∧
        result = some (unserializable (requestId task.request)) := by
    cases checkpoint with
    | passed => exact Task.unsent_eq_some passed
    | rejected error => cases passed
    | asking verification => cases passed
  unfold Caller.ending at ending
  split at ending
  · rename_i task place now
    have unwritable : external.toVec task.request = none ∧
        result = some (unserializable (requestId task.request)) := by
      split at ending
      · cases ending
      · split at ending
        · exact passes ending
        · exact Task.unsent_eq_some ending
    rw [unwritable.2]
    exact .unsent (.running task) _ (fun own => by simp) unwritable.1
  · rename_i task verification place answer
    have unwritable := passes ending
    rw [unwritable.2]
    exact .unsent (.verifying task verification) _ (fun own => by simp) unwritable.1
  · exact Task.forwardEnds_of_ending ending
  · cases ending

theorem Caller.step_ends {caller : Caller} {event : TrafficEvent} {next : AppState × Caller}
    (sends : ∀ task verification, caller = .verifying task verification →
      (task.request.get "method").bind Json.asStr = some "sendTransaction")
    (stepped : caller.step external cfg state event = some next) :
    caller.Ends external state (caller.ending external cfg state event) next := by
  cases step_moves stepped with
  | refuses task _ _ _ unnamed =>
      simp only [Caller.ending, unnamed]
      exact .unnamed rfl unnamed rfl rfl
  | checks task _ now _ isSend =>
      simp only [Caller.ending, isSend]
      exact task.proceed_ends rfl isSend
        (beginCheck_checked now task.request (requestId task.request))
  | forwards task _ _ method _ named other =>
      simp only [Caller.ending, named, if_neg other]
      exact task.forward_ends method rfl rfl
  | votes task verification _ answer =>
      exact task.proceed_ends rfl (sends task verification rfl)
        (verification.resume_checked (requestId task.request) answer)
  | hangsUp => exact .goesOn rfl rfl rfl
  | works _ _ _ started moves => exact moves.ends started

end Steps

/-! ### Lines and replies -/

/-- The lines about the request at a place. -/
def linesAt (log : List (Nat × LogLine)) (place : Nat) : List LogLine :=
  (log.filter fun entry => entry.1 = place).map Prod.snd

/-- The request was turned away before its forwarding. -/
def TurnedAway (request : Json) (response : Response) : Prop :=
  ((request.get "method").bind Json.asStr = none ∧
    response = .json (jsonrpcError (requestId request) .invalidRequest "missing method")) ∨
  ((request.get "method").bind Json.asStr = some "sendTransaction" ∧
    response = .json (staleError (requestId request)))

/-- The lines are those of the request: none until it is answered, none when it
was turned away, and else the one line for how its forwarding ended, which its
reply tells of too. -/
def Caller.Recorded (external : External) (caller : Caller)
    (endedWith : Option ForwardResult → Prop) (lines : List LogLine) : Prop :=
  match caller.reply with
  | none => lines = []
  | some response =>
      (lines = [] ∧ TurnedAway caller.serves.2 response) ∨
      ∃ result, endedWith result ∧ lines = [logLine (requestMethod caller.serves.2) result] ∧
        response = caller.serves.1.package external (requestId caller.serves.2) result

/-- A sendTransaction that has its reply. -/
def Caller.answeredSend (caller : Caller) : Bool :=
  caller.reply.isSome && ((caller.serves.2.get "method").bind Json.asStr) == some "sendTransaction"

namespace Traffic

/-- The places of sendTransactions that were answered and left no line. -/
def rejectedAt (traffic : Traffic) (log : List (Nat × LogLine)) (place : Nat) : Bool :=
  traffic.callers[place]?.any Caller.answeredSend && (linesAt log place).isEmpty

/-- The log and the rejection counter tell what became of the requests, when the
forwarding of the one at a place has `endedWith` a result. -/
structure Logged (external : External) (endedWith : Nat → Option ForwardResult → Prop)
    (traffic : Traffic) (log : List (Nat × LogLine)) : Prop where
  known : ∀ entry ∈ log, entry.1 < traffic.callers.length
  recorded : ∀ (place : Nat) caller, traffic.callers[place]? = some caller →
    caller.Recorded external (endedWith place) (linesAt log place)
  rejections : traffic.state.metrics.blockhashRejections =
    (List.range traffic.callers.length).countP (traffic.rejectedAt log)

end Traffic

theorem linesAt_append (log more : List (Nat × LogLine)) (place : Nat) :
    linesAt (log ++ more) place = linesAt log place ++ linesAt more place := by
  rw [linesAt, List.filter_append, List.map_append]
  rfl

theorem linesAt_of_known {log : List (Nat × LogLine)} {count place : Nat}
    (known : ∀ entry ∈ log, entry.1 < count) (beyond : count ≤ place) : linesAt log place = [] := by
  rw [linesAt, List.map_eq_nil_iff, List.filter_eq_nil_iff]
  intro entry member same
  have within := known entry member
  rw [decide_eq_true_eq] at same
  omega

/-- A count changes as it does at the one place where the predicate changes. -/
theorem countP_range_of_one {p q : Nat → Bool} {count place : Nat} (inside : place < count)
    (same : ∀ other, other ≠ place → q other = p other) :
    (List.range count).countP q + (p place).toNat =
      (List.range count).countP p + (q place).toNat := by
  have apart := List.perm_cons_erase (List.mem_range.mpr inside)
  have rest : ((List.range count).erase place).countP q =
      ((List.range count).erase place).countP p := by
    apply List.countP_congr
    intro other member
    rw [same other (List.nodup_range.mem_erase_iff.mp member).1]
  rw [apart.countP_eq p, apart.countP_eq q, List.countP_cons, List.countP_cons, rest]
  cases p place <;> cases q place <;> simp

/-! ### What one step leaves -/

/-- Only a sendTransaction waits for a vote. -/
def Caller.ChecksSend : Caller → Prop
  | .verifying task _ => (task.request.get "method").bind Json.asStr = some "sendTransaction"
  | .running _ => True

namespace Traffic

section Step

variable {external : External} {cfg : Config} {startedAt : Instant} {traffic next : Traffic}
  {event : TrafficEvent} {log : List (Nat × LogLine)}

theorem checksSend_of_reachable (reached : (machine external cfg startedAt).Reachable traffic) :
    ∀ caller ∈ traffic.callers, caller.ChecksSend := by
  have proceeds (task : Task) (checked : AppState × Checkpoint)
      (sends : (task.request.get "method").bind Json.asStr = some "sendTransaction") :
      (task.proceed external checked).2.ChecksSend := by
    rcases checked with ⟨_, _ | _ | _⟩
    · exact trivial
    · exact trivial
    · exact sends
  refine forall_callers (fun _ _ => trivial) ?_ reached
  intro state caller event next sends stepped
  cases Caller.step_moves stepped with
  | refuses => exact trivial
  | checks task _ _ _ isSend => exact proceeds task _ isSend
  | forwards => exact trivial
  | votes task => exact proceeds task _ sends
  | hangsUp => exact trivial
  | works => exact trivial

/-- The lines of a step of the request at `place`. -/
theorem logged_of_calls {place : Nat} {caller : Caller} (named : event.caller = some place)
    (found : traffic.callers[place]? = some caller) :
    traffic.logged external cfg event =
      match caller.ending external cfg traffic.state event with
      | none => []
      | some result => [(place, logLine (requestMethod caller.serves.2) result)] := by
  cases ending : caller.ending external cfg traffic.state event with
  | none => simp only [logged, named, found, ending]
  | some result => simp only [logged, named, found, ending]

/-- A line is written where the forwarding of a request ends. -/
theorem ending_of_logged {place : Nat} {line : LogLine}
    (written : (place, line) ∈ traffic.logged external cfg event) :
    ∃ caller result, event.caller = some place ∧ traffic.callers[place]? = some caller ∧
      caller.ending external cfg traffic.state event = some result ∧
      line = logLine (requestMethod caller.serves.2) result := by
  unfold logged at written
  split at written
  · cases written
  · rename_i own named
    split at written
    · cases written
    · rename_i caller found
      split at written
      · cases written
      · rename_i result ending
        cases List.mem_singleton.mp written
        exact ⟨caller, result, named, found, ending, rfl⟩

/-- The reply of a request whose forwarding a step ends. -/
theorem reply_of_ending {place : Nat} {caller later : Caller} {result : Option ForwardResult}
    (reached : (machine external cfg startedAt).Reachable traffic)
    (stepped : traffic.step external cfg event = some next) (named : event.caller = some place)
    (found : traffic.callers[place]? = some caller)
    (ending : caller.ending external cfg traffic.state event = some result)
    (laterFound : next.callers[place]? = some later) :
    later.serves = caller.serves ∧
      later.reply = some (caller.serves.1.package external (requestId caller.serves.2) result) := by
  cases step_moves stepped with
  | calls _ own moved after same ownFound taken =>
      cases named.symm.trans same
      cases found.symm.trans ownFound
      have moved : (traffic.moved place after).callers[place]? = some after.2 :=
        List.getElem?_set_self (List.getElem?_eq_some_iff.mp found).1
      rw [moved, Option.some_inj] at laterFound
      subst laterFound
      have sends : ∀ task verification, caller = .verifying task verification →
          (task.request.get "method").bind Json.asStr = some "sendTransaction" := by
        rintro task verification rfl
        exact checksSend_of_reachable reached _ (List.mem_of_getElem? found)
      refine ⟨(Caller.step_spends taken).serves, ?_⟩
      have ends := Caller.step_ends sends taken
      rw [ending] at ends
      cases ends with
      | goesOn quiet => cases quiet
      | unnamed quiet => cases quiet
      | stale quiet => cases quiet
      | forwarded own ended reply =>
          cases ended
          exact reply
  | arrives => cases named
  | polls => cases named
  | seeds => cases named

/-- A step of the request at `place` is about that request. -/
theorem linesAt_logged_ne {place other : Nat} {caller : Caller}
    (named : event.caller = some place) (found : traffic.callers[place]? = some caller)
    (different : other ≠ place) :
    linesAt (log ++ traffic.logged external cfg event) other = linesAt log other := by
  have nothing : linesAt (traffic.logged external cfg event) other = [] := by
    rw [logged_of_calls named found]
    split
    · rfl
    · rw [linesAt, List.filter_cons_of_neg (by simpa using Ne.symm different)]
      rfl
  rw [linesAt_append, nothing, List.append_nil]

/-- What a step of the request at `place` leaves there. -/
theorem moved_recorded {place : Nat} {caller : Caller} {result : AppState × Caller}
    (named : event.caller = some place) (found : traffic.callers[place]? = some caller)
    (lines : linesAt log place = []) (serves : result.2.serves = caller.serves)
    (ends : caller.Ends external traffic.state
      (caller.ending external cfg traffic.state event) result) :
    result.2.Recorded external (fun _ => True)
        (linesAt (log ++ traffic.logged external cfg event) place) ∧
      result.1.rejections = traffic.state.rejections +
        (result.2.answeredSend &&
          (linesAt (log ++ traffic.logged external cfg event) place).isEmpty).toNat := by
  rw [linesAt_append, lines, List.nil_append, logged_of_calls named found]
  unfold Caller.Recorded Caller.answeredSend
  rw [serves]
  cases ends with
  | goesOn quiet reply same =>
      rw [quiet, reply, same]
      exact ⟨rfl, rfl⟩
  | unnamed quiet method reply same =>
      rw [quiet, reply, same, method]
      exact ⟨Or.inl ⟨rfl, Or.inl ⟨method, rfl⟩⟩, rfl⟩
  | stale quiet method reply counted =>
      rw [quiet, reply, counted, method]
      exact ⟨Or.inl ⟨rfl, Or.inr ⟨method, rfl⟩⟩, by simp [linesAt]⟩
  | forwarded ending ended reply same =>
      have line : linesAt [(place, logLine (requestMethod caller.serves.2) ending)] place =
          [logLine (requestMethod caller.serves.2) ending] := by
        rw [linesAt, List.filter_cons_of_pos (by simp)]
        rfl
      rw [ended, reply, same]
      dsimp only
      rw [line]
      exact ⟨Or.inr ⟨ending, trivial, rfl, rfl⟩, by simp⟩

theorem rejectedAt_of_unanswered {place : Nat}
    (unanswered : ∀ caller, traffic.callers[place]? = some caller → caller.reply = none) :
    traffic.rejectedAt log place = false := by
  unfold rejectedAt Caller.answeredSend
  cases found : traffic.callers[place]? with
  | none => rfl
  | some caller =>
      rw [Option.any_some, unanswered caller found]
      rfl

theorem Logged.of_same (logged : traffic.Logged external (fun _ _ => True) log)
    (callers : next.callers = traffic.callers)
    (metrics : next.state.metrics = traffic.state.metrics) :
    next.Logged external (fun _ _ => True) log where
  known := by
    rw [callers]
    exact logged.known
  recorded := by
    rw [callers]
    exact logged.recorded
  rejections := by
    rw [callers, metrics, logged.rejections]
    apply List.countP_congr
    intro place _
    rw [rejectedAt, rejectedAt, callers]

theorem Logged.arrives (logged : traffic.Logged external (fun _ _ => True) log) (handler : Handler)
    (request : Json) :
    ({ traffic with callers :=
      traffic.callers ++ [.running (.arrive cfg handler request)] } : Traffic).Logged external
        (fun _ _ => True) log where
  known := by
    intro entry member
    have within := logged.known entry member
    rw [List.length_append]
    omega
  recorded := by
    intro place caller found
    rw [List.getElem?_append] at found
    split at found
    · exact logged.recorded place caller found
    · rename_i beyond
      obtain ⟨_, rfl⟩ := List.getElem?_eq_some_iff.mp found
      rw [List.getElem_singleton]
      exact linesAt_of_known logged.known (Nat.not_lt.mp beyond)
  rejections := by
    rw [List.length_append, List.length_singleton, List.range_succ, List.countP_append,
      List.countP_singleton, rejectedAt_of_unanswered, logged.rejections]
    · simp only [Bool.false_eq_true, ↓reduceIte, Nat.add_zero]
      apply List.countP_congr
      intro place member
      rw [rejectedAt, rejectedAt, List.getElem?_append_left (List.mem_range.mp member)]
    · intro caller found
      rw [List.getElem?_append_right (Nat.le_refl _), Nat.sub_self] at found
      cases found
      rfl

/-- A request that had no reply counts among the rejected as its step leaves it,
and the others count as before. -/
theorem countP_rejectedAt_moved {place : Nat} {caller : Caller} {result : AppState × Caller}
    (named : event.caller = some place) (found : traffic.callers[place]? = some caller)
    (unanswered : caller.reply = none) :
    (List.range (traffic.moved place result).callers.length).countP
        ((traffic.moved place result).rejectedAt (log ++ traffic.logged external cfg event)) =
      (List.range traffic.callers.length).countP (traffic.rejectedAt log) +
        (result.2.answeredSend &&
          (linesAt (log ++ traffic.logged external cfg event) place).isEmpty).toNat := by
  have inside : place < traffic.callers.length := (List.getElem?_eq_some_iff.mp found).1
  have before : traffic.rejectedAt log place = false := by
    apply rejectedAt_of_unanswered
    intro own ownFound
    rw [found, Option.some_inj] at ownFound
    exact ownFound ▸ unanswered
  have after : (traffic.moved place result).rejectedAt
      (log ++ traffic.logged external cfg event) place =
        (result.2.answeredSend &&
          (linesAt (log ++ traffic.logged external cfg event) place).isEmpty) := by
    rw [rejectedAt, moved, List.getElem?_set_self inside, Option.any_some]
  have elsewhere := countP_range_of_one inside
    (p := traffic.rejectedAt log)
    (q := (traffic.moved place result).rejectedAt
      (log ++ traffic.logged external cfg event)) (fun other different => by
        rw [rejectedAt, rejectedAt, linesAt_logged_ne named found different, moved,
          List.getElem?_set_ne (Ne.symm different)])
  rw [before, after] at elsewhere
  show (List.range (traffic.callers.set place result.2).length).countP _ = _
  rw [List.length_set]
  simpa using elsewhere

theorem Logged.calls (logs : traffic.Logged external (fun _ _ => True) log) {place : Nat}
    {caller : Caller} {result : AppState × Caller} (named : event.caller = some place)
    (found : traffic.callers[place]? = some caller) (checks : caller.ChecksSend)
    (taken : caller.step external cfg traffic.state event = some result) :
    (traffic.moved place result).Logged external (fun _ _ => True)
      (log ++ traffic.logged external cfg event) := by
  have inside : place < traffic.callers.length := (List.getElem?_eq_some_iff.mp found).1
  have unanswered : caller.reply = none := by
    by_contra replied
    obtain ⟨response, reply⟩ := Option.ne_none_iff_exists'.mp replied
    have ended := Caller.ended_of_reply reply
    rw [Caller.not_ended_of_step taken] at ended
    cases ended
  have lines : linesAt log place = [] := by
    have recorded := logs.recorded place caller found
    rw [Caller.Recorded, unanswered] at recorded
    exact recorded
  have sends : ∀ task verification, caller = .verifying task verification →
      (task.request.get "method").bind Json.asStr = some "sendTransaction" := by
    rintro task verification rfl
    exact checks
  obtain ⟨recorded, rejections⟩ := moved_recorded named found lines
    (Caller.step_spends taken).serves (Caller.step_ends sends taken)
  refine ⟨?_, ?_, ?_⟩
  · intro entry member
    show entry.1 < (traffic.callers.set place result.2).length
    rw [List.length_set]
    rcases List.mem_append.mp member with old | new
    · exact logs.known entry old
    · rw [logged_of_calls named found] at new
      split at new
      · cases new
      · rw [List.mem_singleton.mp new]
        exact inside
  · intro other own ownFound
    by_cases same : other = place
    · subst same
      rw [moved, List.getElem?_set_self inside, Option.some_inj] at ownFound
      exact ownFound ▸ recorded
    · rw [moved, List.getElem?_set_ne (Ne.symm same)] at ownFound
      rw [linesAt_logged_ne named found same]
      exact logs.recorded other own ownFound
  · rw [countP_rejectedAt_moved named found unanswered]
    show result.1.rejections = _
    rw [rejections]
    exact congrArg (· + _) logs.rejections

/-- Every step keeps the log true. -/
theorem logged_step (checks : ∀ caller ∈ traffic.callers, caller.ChecksSend)
    (logs : traffic.Logged external (fun _ _ => True) log)
    (stepped : traffic.step external cfg event = some next) :
    next.Logged external (fun _ _ => True) (log ++ traffic.logged external cfg event) := by
  cases step_moves stepped with
  | arrives handler request => exact (List.append_nil log).symm ▸ logs.arrives handler request
  | polls => exact (List.append_nil log).symm ▸ logs.of_same rfl rfl
  | seeds upstream body =>
      have metrics : (traffic.state.seedCache upstream body).metrics = traffic.state.metrics := by
        cases body <;> rfl
      exact (List.append_nil log).symm ▸ logs.of_same rfl metrics
  | calls _ place caller result named found taken =>
      exact logs.calls named found (checks caller (List.mem_of_getElem? found)) taken

end Step

end Traffic

/-! ### Every run -/

namespace Front

section Run

variable {external : External} {text : HeaderText} {cfg : Config} {startedAt : Instant}
  {front next : Front}

/-- Events that write no line whatever state they meet. -/
def Quiet (external : External) (cfg : Config) (event : TrafficEvent) : Prop :=
  ∀ traffic : Traffic, traffic.logged external cfg event = []

theorem quiet_arrive (handler : Handler) (request : Json) :
    Quiet external cfg (.other (.arrive handler request)) := fun _ => rfl

theorem quiet_disconnect (place : Nat) :
    Quiet external cfg (.other (.disconnect place)) := by
  intro traffic
  unfold Traffic.logged
  simp only [TrafficEvent.caller]
  split
  · rfl
  · rename_i caller _
    cases caller with
    | verifying => rfl
    | running task =>
        simp only [Caller.ending, Task.ending]
        cases task.phase <;> rfl

section Keeps

variable {P : Traffic → List (Nat × LogLine) → Prop}
  (keeps : ∀ traffic log event next, P traffic log → traffic.step external cfg event = some next →
    P next (log ++ traffic.logged external cfg event))

include keeps

theorem execFrom_quiet {events : List TrafficEvent} {traffic after : Traffic}
    {log : List (Nat × LogLine)} (quiet : ∀ event ∈ events, Quiet external cfg event)
    (holds : P traffic log)
    (run : (Traffic.machine external cfg startedAt).execFrom traffic events = some after) :
    P after log := by
  induction events generalizing traffic with
  | nil =>
      rw [Machine.execFrom_nil, Option.some_inj] at run
      exact run ▸ holds
  | cons event rest inductionHypothesis =>
      rw [List.forall_mem_cons] at quiet
      rw [Machine.execFrom_cons] at run
      obtain ⟨middle, stepped, tail⟩ := Option.bind_eq_some_iff.mp run
      have kept := keeps traffic log event middle holds stepped
      rw [quiet.1 traffic, List.append_nil] at kept
      exact inductionHypothesis quiet.2 kept tail

/-- What every step of the traffic keeps of it and its lines, every step at the
front keeps. -/
theorem step_keeps {event : FrontEvent} (holds : P front.traffic front.log)
    (stepped : front.step external text cfg event = some next) : P next.traffic next.log := by
  cases step_moves stepped with
  | posts headers fresh payload =>
      apply execFrom_quiet keeps _ holds
        (arrive_eq_execFrom 0 front.traffic (payloadRequests payload))
      intro event member
      obtain ⟨entry, _, rfl⟩ := List.mem_map.mp member
      apply quiet_arrive
  | works event traffic _ taken => exact keeps _ _ event traffic holds taken
  | delivers => exact holds
  | hangsUp _ _ _ _ _ taken =>
      rw [dropAll_eq_execFrom 0] at taken
      apply execFrom_quiet keeps _ holds taken
      intro event member
      obtain ⟨own, _, rfl⟩ := List.mem_map.mp member
      apply quiet_disconnect

end Keeps

theorem logged_of_reachable (reached : (machine external text cfg startedAt).Reachable front) :
    front.traffic.Logged external (fun _ _ => True) front.log := by
  have holds := reached.invariant
    (I := fun front => (Traffic.machine external cfg startedAt).Reachable front.traffic ∧
      front.traffic.Logged external (fun _ _ => True) front.log)
    ⟨⟨[], rfl⟩, ⟨fun _ member => absurd member List.not_mem_nil,
      fun _ _ found => absurd found (by simp [machine, Traffic.machine]), rfl⟩⟩
    fun before event after both stepped => ?_
  · exact holds.2
  · refine step_keeps (P := fun traffic log =>
      (Traffic.machine external cfg startedAt).Reachable traffic ∧
        traffic.Logged external (fun _ _ => True) log) ?_ both stepped
    rintro traffic log event next ⟨reached, logs⟩ taken
    exact ⟨reached.step taken,
      Traffic.logged_step (Traffic.checksSend_of_reachable reached) logs taken⟩

end Run

/-! ### The step that a line tells of -/

section Endings

variable {external : External} {text : HeaderText} {cfg : Config} {startedAt : Instant}
  {front : Front}

/-- A step at the front ends the forwarding of the request at a place with a result. -/
def EndsForwarding (external : External) (cfg : Config) (place : Nat)
    (result : Option ForwardResult) (before : Front) (event : FrontEvent) : Prop :=
  ∃ own caller, event = .progress own ∧ own.caller = some place ∧
    before.traffic.callers[place]? = some caller ∧
    caller.ForwardEnds external cfg before.traffic.state own result

/-- A request that has ended is moved by no step. -/
theorem step_of_ended {next : Front} {event : FrontEvent} {place : Nat} {caller : Caller}
    (stepped : front.step external text cfg event = some next)
    (found : front.traffic.callers[place]? = some caller) (ended : caller.ended = true) :
    next.traffic.callers[place]? = some caller := by
  cases step_moves stepped with
  | posts headers fresh payload =>
      exact (List.getElem?_append_left (List.getElem?_eq_some_iff.mp found).1).trans found
  | works event traffic internal taken =>
      obtain ⟨later, laterFound, kept⟩ :=
        Traffic.step_followsAt [place] internal taken place (List.mem_singleton_self place) caller
          found
      rw [← kept.ended ended]
      exact laterFound
  | delivers => exact found
  | hangsUp _ call traffic _ _ taken =>
      refine ((Traffic.dropAll_spec taken).2.2.1 place fun dropped => ?_).trans found
      have settled : front.traffic.endedAt place = true := by
        rw [Traffic.endedAt, found, Option.any_some]
        exact ended
      have unended := (List.mem_filter.mp dropped).2
      rw [settled] at unended
      cases unended

/-- A request that has a line has its reply. -/
theorem exists_reply_of_line (reached : (machine external text cfg startedAt).Reachable front)
    {place : Nat} {line : LogLine} (written : (place, line) ∈ front.log) :
    ∃ caller response, front.traffic.callers[place]? = some caller ∧
      caller.reply = some response := by
  have logs := logged_of_reachable reached
  obtain ⟨caller, found⟩ : ∃ caller, front.traffic.callers[place]? = some caller :=
    ⟨_, List.getElem?_eq_getElem (logs.known _ written)⟩
  have recorded := logs.recorded place caller found
  have lines : line ∈ linesAt front.log place :=
    List.mem_map.mpr ⟨(place, line), List.mem_filter.mpr ⟨written, by simp⟩, rfl⟩
  cases reply : caller.reply with
  | none =>
      rw [Caller.Recorded, reply] at recorded
      rw [recorded] at lines
      cases lines
  | some response => exact ⟨caller, response, found, reply⟩

/-- A line is about the step that ended the forwarding of its request, and so is the reply. -/
theorem line_of_ending {events : List FrontEvent}
    (run : (machine external text cfg startedAt).exec events = some front) {place : Nat}
    {caller : Caller} (found : front.traffic.callers[place]? = some caller)
    {response : Response} (reply : caller.reply = some response) {line : LogLine}
    (member : (place, line) ∈ front.log) :
    ∃ result, (line = logLine (requestMethod caller.serves.2) result ∧
        response = caller.serves.1.package external (requestId caller.serves.2) result) ∧
      (machine external text cfg startedAt).SomeStep (EndsForwarding external cfg place result)
        (machine external text cfg startedAt).init events := by
  apply Machine.SomeStep.exists_about
  refine Machine.someStep_of_holds (P := fun front => ∃ later, front.traffic.callers[place]? =
    some later ∧ later.serves = caller.serves ∧ later.reply = some response ∧
      (place, line) ∈ front.log) ?_ ?_ run ⟨caller, found, rfl, reply, member⟩
  · rintro ⟨_, absent, -⟩
    cases absent
  · rintro before event next reached stepped ⟨later, laterFound, serves, laterReply, written⟩
    by_cases old : (place, line) ∈ before.log
    · left
      obtain ⟨earlier, _, earlierFound, earlierReply⟩ := exists_reply_of_line reached old
      have kept := step_of_ended stepped earlierFound (Caller.ended_of_reply earlierReply)
      rw [kept, Option.some_inj] at laterFound
      subst laterFound
      exact ⟨earlier, earlierFound, serves, laterReply, old⟩
    · right
      cases step_moves stepped with
      | posts => exact absurd written old
      | delivers => exact absurd written old
      | hangsUp => exact absurd written old
      | works own traffic internal taken =>
          have new := (List.mem_append.mp written).resolve_left old
          obtain ⟨ended, result, named, endedFound, ending, rfl⟩ := Traffic.ending_of_logged new
          obtain ⟨ownServes, ownReply⟩ := Traffic.reply_of_ending
            (traffic_reachable reached) taken named endedFound ending laterFound
          rw [ownServes] at serves
          rw [ownReply, Option.some_inj] at laterReply
          rw [← serves]
          exact ⟨result, ⟨rfl, laterReply.symm⟩, own, ended, rfl, named, endedFound,
            Caller.forwardEnds_of_ending ending⟩

/-- In every run the access log has one line for each request whose forwarding has
ended, which tells how it ended at that step, as does the reply; it has none for any
other; and the rejection counter counts the sendTransactions answered without one. -/
theorem logged_of_exec {events : List FrontEvent}
    (run : (machine external text cfg startedAt).exec events = some front) :
    front.traffic.Logged external (fun place result =>
      (machine external text cfg startedAt).SomeStep (EndsForwarding external cfg place result)
        (machine external text cfg startedAt).init events) front.log := by
  have logs := logged_of_reachable ⟨events, run⟩
  refine ⟨logs.known, ?_, logs.rejections⟩
  intro place caller found
  have recorded := logs.recorded place caller found
  unfold Caller.Recorded at recorded ⊢
  cases reply : caller.reply with
  | none =>
      rw [reply] at recorded
      exact recorded
  | some response =>
      rw [reply] at recorded
      rcases recorded with turnedAway | ⟨result, -, lines, -⟩
      · exact .inl turnedAway
      · right
        obtain ⟨⟨_, line⟩, member, same⟩ := List.mem_map.mp (lines ▸ List.mem_singleton_self _ :
          logLine (requestMethod caller.serves.2) result ∈ linesAt front.log place)
        obtain ⟨written, own⟩ := List.mem_filter.mp member
        rw [decide_eq_true_eq] at own
        dsimp only at own same
        subst own same
        obtain ⟨ended, ⟨told, replied⟩, step⟩ := line_of_ending run found reply written
        exact ⟨ended, step, lines.trans (congrArg (fun line => [line]) told), replied⟩

theorem logged_of_exec_batch :
    ∃ front, (machine .plain .visible .deployment 0).exec answeredBatch = some front ∧
      front.traffic.Logged .plain (fun place result =>
        (machine .plain .visible .deployment 0).SomeStep
          (EndsForwarding .plain .deployment place result)
          (machine .plain .visible .deployment 0).init answeredBatch) front.log := by
  have runs : ((machine .plain .visible .deployment 0).exec answeredBatch).isSome = true := by
    decide +kernel
  obtain ⟨front, run⟩ := Option.isSome_iff_exists.mp runs
  exact ⟨front, run, logged_of_exec run⟩

end Endings

end Front

end Disburse
