import Disburse.Library.RunRules
import Disburse.Proxy.Accounting
import Disburse.Proxy.Interleaving
import Disburse.Proxy.Retrip
import Disburse.Proxy.Scrape

/-!
Owns how much work a request can cause and that it ends. Each request has a
number of steps left and a number of HTTP requests that may still be sent for
it; every step of the request takes from the first, every request sent takes
from the second, and no other step touches either. A request that has not ended
always has a step that leads on to its reply.
-/

namespace Disburse

open Disburse.Library

/-! ### What is left -/

/-- An upper bound on the steps up to the end of the request. -/
def Task.stepsLeft (upstreams : Nat) (task : Task) : Nat :=
  match task.phase with
  | .entering => 3 * task.remaining + upstreams + 2
  | .selecting => 3 * task.remaining + 1
  | .awaiting _ => 3 * task.remaining + 3
  | .settling _ _ _ => 3 * task.remaining + 2
  | .replied _ | .gone => 0

/-- How many upstreams a request may ask about its hash: only a sendTransaction
is verified. -/
def asksAllowed (cfg : Config) (request : Json) : Nat :=
  if (request.get "method").bind Json.asStr = some "sendTransaction" then cfg.pool.length else 0

/-- An upper bound on the HTTP requests still to be sent. -/
def Task.sendsLeft (cfg : Config) (task : Task) : Nat :=
  match task.phase with
  | .entering => task.remaining + asksAllowed cfg task.request
  | .selecting | .awaiting _ | .settling _ _ _ => task.remaining
  | .replied _ | .gone => 0

namespace Caller

/-- A request that waits for a vote may still ask the rest of the upstreams. -/
def stepsLeft (cfg : Config) : Caller → Nat
  | .running task => task.stepsLeft cfg.pool.length
  | .verifying task verification => 3 * task.remaining + verification.rest.length + 2

def sendsLeft (cfg : Config) : Caller → Nat
  | .running task => task.sendsLeft cfg
  | .verifying task verification => task.remaining + verification.rest.length

/-- The attempts that the request has left. -/
def remaining : Caller → Nat
  | .running task | .verifying task _ => task.remaining

/-- The handler that a request came to, and the request. -/
def serves : Caller → Handler × Json
  | .running task | .verifying task _ => (task.handler, task.request)

/-- The HTTP requests that may be sent for a request in all. -/
def allowance (cfg : Config) (caller : Caller) : Nat :=
  cfg.retries.maxAttempts + asksAllowed cfg caller.serves.2

def ended : Caller → Bool
  | .running task => task.phase.ended
  | .verifying _ _ => false

/-- The request was dropped. -/
def gone : Caller → Bool
  | .running task =>
      match task.phase with
      | .gone => true
      | _ => false
  | .verifying _ _ => false

/-- The reply that the request was given. -/
def reply : Caller → Option Response
  | .running task =>
      match task.phase with
      | .replied response => some response
      | _ => none
  | .verifying _ _ => none

theorem reply_isSome {caller : Caller} (ended : caller.ended = true)
    (present : caller.gone = false) : ∃ response, caller.reply = some response := by
  cases caller with
  | verifying task verification => cases ended
  | running task =>
      unfold Caller.ended Phase.ended at ended
      unfold Caller.gone at present
      unfold Caller.reply
      cases phase : task.phase <;> simp [phase] at ended present ⊢

end Caller

/-- The request that an event brings closer to its reply. -/
def TrafficEvent.advances : TrafficEvent → Option Nat
  | .start place _ | .vote place _ | .other (.attempt place _ _) | .other (.answer place _ _ _)
  | .other (.settle place _) => some place
  | .other (.enter _ _ _) | .other (.deadline _) | .other (.disconnect _)
  | .other (.arrive _ _) | .other (.poll _ _ _ _) | .other (.seed _ _) => none

/-- The time that an event reads from the clock. -/
def TrafficEvent.time : TrafficEvent → Option Instant
  | .start _ now => some now
  | .vote _ _ => none
  | .other event => event.time

/-- Events that no client causes: all but arrivals and disconnects. -/
def TrafficEvent.internal : TrafficEvent → Bool
  | .other (.arrive _ _) | .other (.disconnect _) => false
  | _ => true

theorem TrafficEvent.internal_of_advances {event : TrafficEvent} {place : Nat}
    (advances : event.advances = some place) : event.internal = true := by
  cases event with
  | start | vote => rfl
  | other event =>
      cases event with
      | arrive | disconnect => cases advances
      | _ => rfl

/-! ### What one step takes -/

/-- What a step of a request takes: a step, and a send when it sends. -/
structure Caller.Spends (cfg : Config) (caller next : Caller) : Prop where
  serves : next.serves = caller.serves
  steps : next.stepsLeft cfg < caller.stepsLeft cfg
  sends : next.sendsLeft cfg + (if next.sentTo.isSome then 1 else 0) ≤ caller.sendsLeft cfg

namespace Task

variable (external : External) (cfg : Config) (state : AppState) (task : Task)

/-- A request with its reply has nothing left. -/
theorem finish_spends (result : Option ForwardResult) {caller : Caller}
    (own : (Caller.running task).serves = caller.serves) (left : 0 < caller.stepsLeft cfg) :
    caller.Spends cfg (.running (task.finish external result)) where
  serves := own
  steps := left
  sends := Nat.zero_le _

theorem reply_spends (error : Json) {caller : Caller}
    (own : (Caller.running task).serves = caller.serves)
    (left : 0 < caller.stepsLeft cfg) :
    caller.Spends cfg (.running (task.reply error)) where
  serves := own
  steps := left
  sends := Nat.zero_le _

/-- Past the check all attempts are left, and nothing else. -/
theorem forward_spends (method : String) {caller : Caller}
    (own : (Caller.running task).serves = caller.serves)
    (steps : 3 * task.remaining + 1 < caller.stepsLeft cfg)
    (sends : task.remaining ≤ caller.sendsLeft cfg) :
    caller.Spends cfg (.running (task.forward external method)) := by
  unfold forward
  split
  · apply finish_spends external cfg task _ own
    omega
  · exact ⟨own, steps, sends⟩

theorem attempt_spends (draws : Nat → Nat) (now : Instant) (phase : task.phase = .selecting) :
    (Caller.running task).Spends cfg
      (.running (task.attempt external cfg state draws now).2) := by
  have steps : (Caller.running task).stepsLeft cfg = 3 * task.remaining + 1 := by
    simp only [Caller.stepsLeft, stepsLeft, phase]
  have sends : (Caller.running task).sendsLeft cfg = task.remaining := by
    simp only [Caller.sendsLeft, sendsLeft, phase]
  unfold attempt
  split
  · apply finish_spends external cfg task _ rfl
    omega
  · rename_i remaining left
    have counted : task.remaining = remaining + 1 := left
    split
    · apply finish_spends external cfg task _ rfl
      omega
    · refine ⟨rfl, ?_, ?_⟩
      · show 3 * remaining + 3 < _
        omega
      · show remaining + 1 ≤ _
        omega

theorem settle_spends (flight : InFlight) (exchange : Exchange) (outcome : AttemptOutcome)
    (now : Instant) (phase : task.phase = .settling flight exchange outcome) :
    (Caller.running task).Spends cfg
      (.running (task.settle external cfg state flight exchange outcome now).2) := by
  have steps : (Caller.running task).stepsLeft cfg = 3 * task.remaining + 2 := by
    simp only [Caller.stepsLeft, stepsLeft, phase]
  have sends : (Caller.running task).sendsLeft cfg = task.remaining := by
    simp only [Caller.sendsLeft, sendsLeft, phase]
  unfold settle
  dsimp only
  split
  · rename_i loop result _
    have own : (Caller.running { task with loop := loop }).serves = (Caller.running task).serves :=
      rfl
    apply finish_spends external cfg { task with loop := loop } _ own
    omega
  · refine ⟨rfl, ?_, ?_⟩
    · show 3 * task.remaining + 1 < _
      omega
    · show task.remaining + 0 ≤ _
      omega

variable {external cfg state task}

/-- Every move but the entering in one piece takes what a step takes. -/
theorem Moves.spends {event : SystemEvent} {result : AppState × Task}
    (moves : task.Moves external cfg state event result)
    (cut : ∀ place answers now, event ≠ .enter place answers now) :
    (Caller.running task).Spends cfg (.running result.2) := by
  cases moves with
  | enters place answers now phase => exact absurd rfl (cut place answers now)
  | leaves place phase =>
      refine ⟨rfl, ?_, Nat.zero_le _⟩
      show 0 < task.stepsLeft cfg.pool.length
      simp only [stepsLeft, phase]
      omega
  | attempts place draws now phase => exact attempt_spends external cfg state task draws now phase
  | answers place flight exchange latencyMs now phase =>
      refine ⟨rfl, ?_, ?_⟩
      · show 3 * task.remaining + 2 < task.stepsLeft cfg.pool.length
        simp only [stepsLeft, phase]
        omega
      · show task.remaining + 0 ≤ task.sendsLeft cfg
        simp only [sendsLeft, phase]
        omega
  | expires place flight phase =>
      apply finish_spends external cfg task _ rfl
      show 0 < task.stepsLeft cfg.pool.length
      simp only [stepsLeft, phase]
      omega
  | hangsUp place flight phase =>
      refine ⟨rfl, ?_, Nat.zero_le _⟩
      show 0 < task.stepsLeft cfg.pool.length
      simp only [stepsLeft, phase]
      omega
  | settles place flight exchange outcome now phase =>
      exact settle_spends external cfg state task flight exchange outcome now phase

end Task

namespace Caller

variable {external : External} {cfg : Config} {state : AppState}

/-- Asking the upstreams in a list, one after another. -/
theorem askNext_spends {caller : Caller} {task : Task}
    (own : (Caller.running task).serves = caller.serves)
    (asking : AppState) (id : Json) (blockhash : String) (tip : Nat) (upstreams : List Upstream)
    (steps : 3 * task.remaining + upstreams.length + 1 < caller.stepsLeft cfg)
    (sends : task.remaining + upstreams.length ≤ caller.sendsLeft cfg) :
    caller.Spends cfg
      (task.proceed external (askNext asking id blockhash tip upstreams)).2 := by
  cases upstreams with
  | nil =>
      apply Task.reply_spends cfg task _ own
      omega
  | cons upstream rest =>
      rw [List.length_cons] at steps sends
      refine ⟨own, ?_, ?_⟩
      · show 3 * task.remaining + rest.length + 2 < _
        omega
      · show task.remaining + rest.length + 1 ≤ _
        omega

/-- What a request has left before its start. -/
theorem left_of_entering (cfg : Config) {task : Task} (phase : task.phase = .entering) :
    (Caller.running task).stepsLeft cfg = 3 * task.remaining + cfg.pool.length + 2 ∧
      (Caller.running task).sendsLeft cfg = task.remaining + asksAllowed cfg task.request := by
  simp only [stepsLeft, Task.stepsLeft, sendsLeft, Task.sendsLeft, phase, and_self]

theorem begin_spends {task : Task} (phase : task.phase = .entering)
    (send : (task.request.get "method").bind Json.asStr = some "sendTransaction")
    (now : Instant) :
    (Caller.running task).Spends cfg (task.proceed external
      (beginCheck external cfg state now task.request (requestId task.request))).2 := by
  obtain ⟨steps, sends⟩ := left_of_entering cfg phase
  have forwards : (Caller.running task).Spends cfg
      (.running (task.forward external "sendTransaction")) := by
    apply Task.forward_spends external cfg task _ rfl <;> omega
  have replies : ∀ error, (Caller.running task).Spends cfg (.running (task.reply error)) := by
    intro error
    apply Task.reply_spends cfg task error rfl
    omega
  unfold beginCheck
  split
  · split
    · exact forwards
    · dsimp only
      split
      · split
        · exact replies _
        · exact forwards
      · have asked : (cfg.pool.filter fun upstream =>
            !state.pool.isDropped upstream.name now).length ≤ cfg.pool.length :=
          List.length_filter_le _ cfg.pool
        have allowed : asksAllowed cfg task.request = cfg.pool.length := by
          rw [asksAllowed, send, if_pos rfl]
        apply askNext_spends rfl <;> omega
  · exact forwards

theorem resume_spends (task : Task) (verification : Verification) (answer : Option Json) :
    (Caller.verifying task verification).Spends cfg
      (task.proceed external
        (verification.resume state (requestId task.request) answer)).2 := by
  have steps : (Caller.verifying task verification).stepsLeft cfg =
      3 * task.remaining + verification.rest.length + 2 := rfl
  have sends : (Caller.verifying task verification).sendsLeft cfg =
      task.remaining + verification.rest.length := rfl
  have own : (Caller.running task).serves = (Caller.verifying task verification).serves := rfl
  unfold Verification.resume
  split
  · rename_i valid _
    cases valid with
    | true => apply Task.forward_spends external cfg task _ own <;> omega
    | false =>
        apply Task.reply_spends cfg task _ own
        omega
  · apply askNext_spends own <;> omega

theorem step_spends {caller : Caller} {event : TrafficEvent} {next : AppState × Caller}
    (stepped : caller.step external cfg state event = some next) :
    caller.Spends cfg next.2 := by
  cases step_moves stepped with
  | refuses task _ _ phase =>
      have left := left_of_entering cfg phase
      apply Task.reply_spends cfg task _ rfl
      omega
  | checks task _ now phase sends => exact begin_spends phase sends now
  | forwards task _ _ method phase =>
      have left := left_of_entering cfg phase
      apply Task.forward_spends external cfg task method rfl <;> omega
  | votes => exact resume_spends _ _ _
  | hangsUp => exact ⟨rfl, Nat.succ_pos _, Nat.zero_le _⟩
  | works _ _ _ started moves => exact moves.spends started

end Caller

/-! ### What a run takes -/

namespace Traffic

/-- HTTP requests that a step sends for the request at `place`. -/
def sentFor (external : External) (cfg : Config) (place : Nat) (traffic : Traffic)
    (event : TrafficEvent) : Nat :=
  if event.caller = some place ∧ (traffic.sends external cfg place event).isSome then 1 else 0

section Run

variable {external : External} {cfg : Config} {startedAt : Instant} {traffic : Traffic}
  {events : List TrafficEvent} {place : Nat}

theorem sends_eq {caller : Caller} {event : TrafficEvent} {result : AppState × Caller}
    (found : traffic.callers[place]? = some caller)
    (stepped : caller.step external cfg traffic.state event = some result) :
    traffic.sends external cfg place event = result.2.sentTo := by
  rw [Traffic.sends, found, Option.bind_some, stepped, Option.bind_some]

/-- The request at `place` has spent no more than what its share lacks of its
allowance, and nothing before it arrived. -/
structure SpentWithin (share allowance : Caller → Nat) (place spent : Nat) (traffic : Traffic) :
    Prop where
  absent : traffic.callers.length ≤ place → spent = 0
  within : ∀ caller, traffic.callers[place]? = some caller →
    share caller + spent ≤ allowance caller

section Share

variable {share allowance : Caller → Nat} {cost : Traffic → TrafficEvent → Nat}
  {spent : Nat} {next : Traffic} {event : TrafficEvent}

/-- A step of the request pays its cost from the share. -/
theorem SpentWithin.calls (held : traffic.SpentWithin share allowance place spent)
    {caller : Caller} {result : AppState × Caller} (found : traffic.callers[place]? = some caller)
    (pays : share result.2 + cost traffic event ≤ share caller ∧
      allowance result.2 = allowance caller) :
    (traffic.moved place result).SpentWithin share allowance place
      (spent + cost traffic event) := by
  have inside : place < traffic.callers.length := (List.getElem?_eq_some_iff.mp found).1
  have length : (traffic.moved place result).callers.length = traffic.callers.length :=
    List.length_set
  have moved : (traffic.moved place result).callers[place]? = some result.2 :=
    List.getElem?_set_self inside
  refine ⟨fun short => absurd inside (by omega), fun own ownFound => ?_⟩
  rw [moved, Option.some_inj] at ownFound
  subst ownFound
  have earlier := held.within caller found
  omega

/-- A request arrives with no more than its allowance. -/
theorem SpentWithin.arrives (held : traffic.SpentWithin share allowance place spent)
    {arrived : Caller} (brought : share arrived ≤ allowance arrived) :
    ({ traffic with callers := traffic.callers ++ [arrived] } : Traffic).SpentWithin share
      allowance place spent := by
  refine ⟨fun short => ?_, fun caller found => ?_⟩
  · rw [List.length_append, List.length_singleton] at short
    exact held.absent (by omega)
  · by_cases inside : place < traffic.callers.length
    · rw [List.getElem?_append_left inside] at found
      exact held.within caller found
    · rw [List.getElem?_append_right (by omega), List.getElem?_singleton] at found
      split at found
      · rw [Option.some_inj] at found
        have earlier := held.absent (by omega)
        subst found
        omega
      · cases found

theorem SpentWithin.step (held : traffic.SpentWithin share allowance place spent)
    (arrival : ∀ handler request, share (.running (.arrive cfg handler request)) ≤
      allowance (.running (.arrive cfg handler request)))
    (pays : ∀ traffic event caller result, event.caller = some place →
      traffic.callers[place]? = some caller →
      caller.step external cfg traffic.state event = some result →
      share result.2 + cost traffic event ≤ share caller ∧ allowance result.2 = allowance caller)
    (free : ∀ traffic event, event.caller ≠ some place → cost traffic event = 0)
    (stepped : traffic.step external cfg event = some next) :
    next.SpentWithin share allowance place (spent + cost traffic event) := by
  cases step_moves stepped with
  | calls _ other own result named found taken =>
      by_cases same : other = place
      · subst same
        exact held.calls found (pays traffic event own result named found taken)
      · have nothing : cost traffic event = 0 :=
          free traffic event (by rw [named, ne_eq, Option.some_inj]; exact same)
        have length : (traffic.moved other result).callers.length = traffic.callers.length :=
          List.length_set
        have kept : (traffic.moved other result).callers[place]? = traffic.callers[place]? :=
          List.getElem?_set_ne same
        rw [nothing]
        exact ⟨fun short => held.absent (length ▸ short),
          fun caller found => held.within caller (kept ▸ found)⟩
  | arrives handler request =>
      rw [free traffic _ (by simp [TrafficEvent.caller])]
      exact held.arrives (arrival handler request)
  | polls =>
      rw [free traffic _ (by simp [TrafficEvent.caller])]
      exact ⟨held.absent, held.within⟩
  | seeds =>
      rw [free traffic _ (by simp [TrafficEvent.caller])]
      exact ⟨held.absent, held.within⟩

end Share

variable (place) in
/-- A request that pays the costs of its steps from a share has, in every run,
spent no more than the share it arrived with. -/
theorem tally_le_of_share (share allowance : Caller → Nat) (cost : Traffic → TrafficEvent → Nat)
    (arrival : ∀ handler request, share (.running (.arrive cfg handler request)) ≤
      allowance (.running (.arrive cfg handler request)))
    (pays : ∀ traffic event caller result, event.caller = some place →
      traffic.callers[place]? = some caller →
      caller.step external cfg traffic.state event = some result →
      share result.2 + cost traffic event ≤ share caller ∧ allowance result.2 = allowance caller)
    (free : ∀ traffic event, event.caller ≠ some place → cost traffic event = 0)
    (run : (machine external cfg startedAt).exec events = some traffic) {caller : Caller}
    (found : traffic.callers[place]? = some caller) :
    share caller + (machine external cfg startedAt).tally cost
      (machine external cfg startedAt).init events ≤ allowance caller := by
  have held := Machine.exec_induction (machine external cfg startedAt)
    (P := fun events traffic => traffic.SpentWithin share allowance place
      ((machine external cfg startedAt).tally cost (machine external cfg startedAt).init events))
    ⟨fun _ => rfl, fun _ found => by cases found⟩
    (fun before state event next reached held stepped => by
      rw [Machine.tally_snoc cost reached stepped]
      exact held.step arrival pays free stepped) run
  exact held.within caller found

/-- In every run a request takes a bounded number of steps, whatever the others
do: none goes on for ever. -/
theorem own_steps_le (run : (machine external cfg startedAt).exec events = some traffic)
    (inside : place < traffic.callers.length) :
    (events.countP fun event => event.caller = some place) ≤
      3 * cfg.retries.maxAttempts + cfg.pool.length + 2 := by
  have spent := tally_le_of_share place (Caller.stepsLeft cfg)
    (fun _ => 3 * cfg.retries.maxAttempts + cfg.pool.length + 2)
    (fun _ event => if event.caller = some place then 1 else 0) (fun _ _ => Nat.le_refl _)
    (fun _ event caller result named _ taken => ?_) (fun _ event other => if_neg other) run
    (List.getElem?_eq_getElem inside)
  · rw [Machine.tally_of_execFrom _
      (fun event : TrafficEvent => if event.caller = some place then 1 else 0) run] at spent
    rw [countP_eq_sum_map]
    simp only [decide_eq_true_eq]
    omega
  · rw [if_pos named]
    exact ⟨(Caller.step_spends taken).steps, rfl⟩

theorem own_steps_le_crowded :
    ∃ crowded, (machine .plain .narrow 0).exec crowdedRun = some crowded ∧
      (crowdedRun.countP fun event => event.caller = some 1) ≤
        3 * Config.narrow.retries.maxAttempts + Config.narrow.pool.length + 2 := by
  have counted : ((machine .plain .narrow 0).exec crowdedRun).map
      (fun traffic => traffic.callers.length) = some 2 := by
    decide +kernel
  obtain ⟨crowded, run, two⟩ := Option.map_eq_some_iff.mp counted
  exact ⟨crowded, run, own_steps_le run (by omega)⟩

/-- In every run the proxy sends for a request at most `max_attempts` attempts
and, if it is a sendTransaction, one verification to each upstream. -/
theorem sent_le (run : (machine external cfg startedAt).exec events = some traffic)
    {caller : Caller} (found : traffic.callers[place]? = some caller) :
    (machine external cfg startedAt).tally (sentFor external cfg place)
      (machine external cfg startedAt).init events ≤ caller.allowance cfg := by
  have spent := tally_le_of_share place (Caller.sendsLeft cfg) (Caller.allowance cfg)
    (sentFor external cfg place) (fun _ _ => Nat.le_refl _)
    (fun before event caller result named own taken => ?_)
    (fun before event other => ?_) run found
  · omega
  · have spends := Caller.step_spends taken
    rw [sentFor, sends_eq own taken]
    simp only [named, true_and]
    exact ⟨spends.sends, by rw [Caller.allowance, Caller.allowance, spends.serves]⟩
  · rw [sentFor, if_neg]
    exact fun both => other both.1

theorem sent_le_crowded :
    ∃ crowded caller, (machine .plain .narrow 0).exec crowdedRun = some crowded ∧
      crowded.callers[1]? = some caller ∧
      (machine .plain .narrow 0).tally (sentFor .plain .narrow 1)
        (machine .plain .narrow 0).init crowdedRun ≤ caller.allowance .narrow := by
  have counted : ((machine .plain .narrow 0).exec crowdedRun).map
      (fun traffic => traffic.callers.length) = some 2 := by
    decide +kernel
  obtain ⟨crowded, run, two⟩ := Option.map_eq_some_iff.mp counted
  have inside : 1 < crowded.callers.length := by omega
  exact ⟨crowded, _, run, List.getElem?_eq_getElem inside,
    sent_le run (List.getElem?_eq_getElem inside)⟩

end Run

end Traffic

/-! ### Attempts decided and attempts left -/

/-- The routing decisions counted, over all pairs. -/
def Metrics.decisionsTotal (metrics : Metrics) : Nat :=
  metrics.routingDecisions.total fun _ => True

theorem SameBooks.decisionsTotal {before after : AppState} (books : SameBooks before after) :
    after.metrics.decisionsTotal = before.metrics.decisionsTotal := by
  obtain ⟨rejections, metrics⟩ := books.metrics
  rw [metrics]
  rfl

theorem SameBooks.refl (state : AppState) : SameBooks state state := ⟨rfl, _, rfl⟩

section Check

variable (external : External) (cfg : Config) (state : AppState) (id : Json)

theorem askNext_books (blockhash : String) (tip : Nat) (upstreams : List Upstream) :
    SameBooks state (askNext state id blockhash tip upstreams).1 := by
  cases upstreams with
  | nil => exact ⟨rfl, _, rfl⟩
  | cons => exact .refl state

theorem beginCheck_books (now : Instant) (request : Json) :
    SameBooks state (beginCheck external cfg state now request id).1 := by
  unfold beginCheck
  split
  · split
    · exact .refl state
    · dsimp only
      split
      · split
        · exact ⟨rfl, _, rfl⟩
        · exact ⟨rfl, _, rfl⟩
      · have asked := askNext_books { state with
          blockhashCache := (state.blockhashCache.getSlot ‹String›).2 } id ‹String›
          state.pool.tipSlot (cfg.pool.filter fun upstream =>
            !state.pool.isDropped upstream.name now)
        exact ⟨asked.pool, asked.metrics⟩
  · exact .refl state

theorem Verification.resume_books (verification : Verification) (answer : Option Json) :
    SameBooks state (verification.resume state id answer).1 := by
  unfold resume
  split
  · rename_i valid _
    cases valid <;> exact ⟨rfl, _, rfl⟩
  · exact askNext_books state id _ _ _

end Check

/-- A step of a request pays each routing decision with an attempt. -/
def Caller.PaysDecisions (state : AppState) (caller : Caller) (next : AppState × Caller) : Prop :=
  next.1.metrics.decisionsTotal + next.2.remaining =
    state.metrics.decisionsTotal + caller.remaining

section Decisions

variable {external : External} {cfg : Config} {state : AppState}

theorem Task.forward_remaining (task : Task) (method : String) :
    (task.forward external method).remaining = task.remaining := by
  unfold Task.forward
  split <;> rfl

/-- A checkpoint decides nothing and takes no attempt. -/
theorem Task.proceed_paysDecisions {caller : Caller} (task : Task)
    (same : caller.remaining = task.remaining) {checked : AppState × Checkpoint}
    (books : SameBooks state checked.1) :
    caller.PaysDecisions state (task.proceed external checked) := by
  have total := books.decisionsTotal
  rcases checked with ⟨after, _ | _ | _⟩
  · show after.metrics.decisionsTotal + (task.forward external _).remaining = _
    rw [Task.forward_remaining, total, same]
  · show after.metrics.decisionsTotal + task.remaining = _
    rw [total, same]
  · show after.metrics.decisionsTotal + task.remaining = _
    rw [total, same]

theorem startAttempt_decisionsTotal (cfg : Config) (state : AppState) (now : Instant)
    (method : String) (loop : ForwardLoop) (draws : Nat → Nat) :
    let started := startAttempt cfg state now method loop draws
    started.1.metrics.decisionsTotal =
      state.metrics.decisionsTotal + if started.2.isSome then 1 else 0 := by
  unfold startAttempt
  dsimp only
  split
  · rfl
  · exact Counter.total_add state.metrics.routingDecisions _ 1 _

theorem Task.attempt_paysDecisions (task : Task) (draws : Nat → Nat) (now : Instant) :
    (Caller.running task).PaysDecisions state
      ((task.attempt external cfg state draws now).1,
        .running (task.attempt external cfg state draws now).2) := by
  have total := startAttempt_decisionsTotal cfg state now task.method task.loop draws
  dsimp only at total
  unfold Task.attempt
  split
  · rfl
  · rename_i remaining left
    have counted : task.remaining = remaining + 1 := left
    split
    · rename_i refused
      rw [refused] at total
      show _ + task.remaining = _ + task.remaining
      exact congrArg (· + task.remaining) total
    · rename_i started
      rw [started] at total
      show _ + remaining = _ + task.remaining
      rw [total, counted]
      simp only [Option.isSome_some, ↓reduceIte]
      omega

theorem Task.Moves.paysDecisions {task : Task} {event : SystemEvent} {result : AppState × Task}
    (moves : task.Moves external cfg state event result)
    (cut : ∀ place answers now, event ≠ .enter place answers now) :
    (Caller.running task).PaysDecisions state (result.1, .running result.2) := by
  cases moves with
  | enters place answers now phase => exact absurd rfl (cut place answers now)
  | leaves => rfl
  | attempts place draws now phase => exact task.attempt_paysDecisions draws now
  | answers place flight exchange latencyMs now phase =>
      have recorded := fireOnce_recorded external cfg state flight.upstream task.method
        (requestId task.request) exchange latencyMs now
      show (fireOnce external cfg state flight.upstream task.method (requestId task.request)
        exchange latencyMs now).1.metrics.decisionsTotal + task.remaining = _
      rw [recorded.metrics]
      rfl
  | expires => rfl
  | hangsUp => rfl
  | settles place flight exchange outcome now phase =>
      have metrics := settleAttempt_metrics cfg state flight outcome.success now
      have kept : (task.settle external cfg state flight exchange outcome now).2.remaining =
          task.remaining := by
        unfold Task.settle
        dsimp only
        split <;> rfl
      show _ + (task.settle external cfg state flight exchange outcome now).2.remaining = _
      rw [Task.settle_state, metrics, kept]
      rfl

theorem Caller.step_paysDecisions {caller : Caller} {event : TrafficEvent}
    {next : AppState × Caller} (stepped : caller.step external cfg state event = some next) :
    caller.PaysDecisions state next := by
  cases step_moves stepped with
  | refuses => rfl
  | checks task _ now =>
      exact task.proceed_paysDecisions rfl (beginCheck_books external cfg state _ now _)
  | forwards task _ _ method =>
      show _ + (task.forward external method).remaining = _
      rw [Task.forward_remaining]
      rfl
  | votes task verification _ answer =>
      exact task.proceed_paysDecisions rfl (verification.resume_books state _ answer)
  | hangsUp => rfl
  | works _ _ _ started moves => exact moves.paysDecisions started

namespace Traffic

/-- In every run the routing decisions and the attempts that requests have left
add up to `max_attempts` for each request received. -/
theorem decisions_conserved {startedAt : Instant} {traffic : Traffic}
    (reached : (machine external cfg startedAt).Reachable traffic) :
    traffic.state.metrics.decisionsTotal + (traffic.callers.map Caller.remaining).sum =
      cfg.retries.maxAttempts * traffic.callers.length := by
  apply reached.invariant (I := fun traffic => traffic.state.metrics.decisionsTotal +
    (traffic.callers.map Caller.remaining).sum =
      cfg.retries.maxAttempts * traffic.callers.length) rfl
  intro before event after conserved stepped
  cases step_moves stepped with
  | calls _ place caller result named found taken =>
      have own : result.1.metrics.decisionsTotal + result.2.remaining =
        before.state.metrics.decisionsTotal + caller.remaining := Caller.step_paysDecisions taken
      have moved := sum_map_set Caller.remaining found result.2
      show result.1.metrics.decisionsTotal +
        ((before.callers.set place result.2).map Caller.remaining).sum =
          cfg.retries.maxAttempts * (before.callers.set place result.2).length
      rw [List.length_set]
      omega
  | arrives handler request =>
      show before.state.metrics.decisionsTotal +
        ((before.callers ++ [Caller.running (.arrive cfg handler request)]).map
          Caller.remaining).sum = cfg.retries.maxAttempts * (before.callers ++ [_]).length
      rw [List.map_append, List.sum_append, List.length_append, Nat.mul_add, ← conserved,
        Nat.add_assoc, List.map_singleton, List.sum_singleton, List.length_singleton, Nat.mul_one]
      rfl
  | polls => exact conserved
  | seeds upstream body =>
      cases body <;> exact conserved

theorem decisions_conserved_crowded :
    ∃ crowded, (machine .plain .narrow 0).exec crowdedRun = some crowded ∧
      crowded.state.metrics.decisionsTotal + (crowded.callers.map Caller.remaining).sum =
        Config.narrow.retries.maxAttempts * crowded.callers.length := by
  have runs : ((machine .plain .narrow 0).exec crowdedRun).isSome = true := by
    decide +kernel
  obtain ⟨crowded, run⟩ := Option.isSome_iff_exists.mp runs
  exact ⟨crowded, run, decisions_conserved ⟨crowdedRun, run⟩⟩

end Traffic

end Decisions

/-! ### Every request can be answered -/

namespace Caller

variable {external : External} {cfg : Config} {state : AppState}

/-- A request takes its own steps in the traffic. -/
theorem step_running {task : Task} {event : SystemEvent} {result : AppState × Task}
    (cut : ∀ place answers now, event ≠ .enter place answers now)
    (taken : task.step external cfg state event = some result) :
    (running task).step external cfg state (.other event) =
      some (result.1, .running result.2) := by
  cases event with
  | enter place answers now => exact absurd rfl (cut place answers now)
  | _ =>
      show (task.step external cfg state _).map _ = _
      rw [taken]
      rfl

variable (external cfg state) in
/-- A request that has not ended has a step towards its reply, at any time. -/
theorem exists_advance (caller : Caller) (unended : caller.ended = false) (place : Nat)
    (now : Instant) :
    ∃ event next, event.advances = some place ∧ (∀ time ∈ event.time, time = now) ∧
      caller.step external cfg state event = some next := by
  have atNow : ∀ time ∈ some now, time = now := fun time read => (Option.some_inj.mp read).symm
  cases caller with
  | verifying task verification =>
      exact ⟨.vote place none, _, rfl, fun _ read => (nomatch read), rfl⟩
  | running task =>
      cases phase : task.phase with
      | entering => exact ⟨.start place now, _, rfl, atNow, by rw [step, phase]⟩
      | selecting =>
          have taken : task.step external cfg state (.attempt place (fun _ => 0) now) =
              some (task.attempt external cfg state (fun _ => 0) now) := by
            simp only [Task.step, phase]
          exact ⟨.other (.attempt place (fun _ => 0) now), _, rfl, atNow,
            step_running (by simp) taken⟩
      | awaiting flight =>
          have taken : task.step external cfg state
              (.answer place Attempt.pending.exchange 0 now) =
              some (task.answer external cfg state flight Attempt.pending.exchange 0 now) := by
            simp only [Task.step, phase]
          exact ⟨.other (.answer place Attempt.pending.exchange 0 now), _, rfl, atNow,
            step_running (by simp) taken⟩
      | settling flight exchange outcome =>
          have taken : task.step external cfg state (.settle place now) =
              some (task.settle external cfg state flight exchange outcome now) := by
            simp only [Task.step, phase]
          exact ⟨.other (.settle place now), _, rfl, atNow,
            step_running (by simp) taken⟩
      | replied response => simp [ended, Phase.ended, phase] at unended
      | gone => simp [ended, Phase.ended, phase] at unended

theorem forward_present (external : External) (task : Task) (method : String) :
    (running (task.forward external method)).gone = false := by
  unfold Task.forward
  split <;> rfl

theorem proceed_present (external : External) (task : Task) (checked : AppState × Checkpoint) :
    (task.proceed external checked).2.gone = false := by
  rcases checked with ⟨after, _ | _ | _⟩
  · exact forward_present external task _
  · rfl
  · rfl

/-- Only its client drops a request. -/
theorem step_present {caller : Caller} {event : TrafficEvent} {next : AppState × Caller}
    (internal : event.internal = true)
    (stepped : caller.step external cfg state event = some next) : next.2.gone = false := by
  cases step_moves stepped with
  | refuses => rfl
  | checks task => exact proceed_present external task _
  | forwards task => exact forward_present external task _
  | votes task => exact proceed_present external task _
  | hangsUp => cases internal
  | works _ _ _ started moves =>
      cases moves with
      | enters place answers now => exact (started place answers now rfl).elim
      | leaves => cases internal
      | expires => rfl
      | hangsUp => cases internal
      | attempts _ draws now phase =>
          unfold Task.attempt
          split
          · rfl
          · split <;> rfl
      | answers => rfl
      | settles =>
          unfold Task.settle
          dsimp only
          split <;> rfl

end Caller

namespace Traffic

variable {external : External} {cfg : Config}

/-- The requests at these places are there and none of them was dropped. -/
def Present (traffic : Traffic) (places : List Nat) : Prop :=
  ∀ place ∈ places, ∃ caller, traffic.callers[place]? = some caller ∧ caller.gone = false

/-- A step of a request towards its reply, in the traffic. -/
theorem step_advance (startedAt : Instant) {traffic : Traffic} {place : Nat} {caller : Caller}
    {event : TrafficEvent} {next : AppState × Caller}
    (found : traffic.callers[place]? = some caller) (advances : event.advances = some place)
    (stepped : caller.step external cfg traffic.state event = some next) :
    (machine external cfg startedAt).step traffic event = some (traffic.moved place next) := by
  have moved : traffic.stepCaller external cfg place event = some (traffic.moved place next) := by
    rw [stepCaller, found, Option.bind_some, stepped, Option.map_some]
  cases event with
  | start | vote =>
      rw [TrafficEvent.advances, Option.some_inj] at advances
      exact advances ▸ moved
  | other event =>
      cases event with
      | attempt | answer | settle =>
          rw [TrafficEvent.advances, Option.some_inj] at advances
          exact advances ▸ moved
      | enter | arrive | deadline | disconnect | poll | seed => cases advances

/-- A step of a request towards its reply drops no request and leaves the others. -/
theorem moved_present {traffic : Traffic} {places : List Nat} (present : traffic.Present places)
    {place : Nat} {caller : Caller} {event : TrafficEvent} {next : AppState × Caller}
    (found : traffic.callers[place]? = some caller) (advances : event.advances = some place)
    (stepped : caller.step external cfg traffic.state event = some next) :
    (traffic.moved place next).Present places ∧
      ∀ other, other ≠ place → (traffic.moved place next).callers[other]? =
        traffic.callers[other]? := by
  have others : ∀ other, other ≠ place → (traffic.moved place next).callers[other]? =
      traffic.callers[other]? :=
    fun other different => List.getElem?_set_ne (Ne.symm different)
  refine ⟨fun other listed => ?_, others⟩
  by_cases same : other = place
  · subst same
    exact ⟨next.2, List.getElem?_set_self (List.getElem?_eq_some_iff.mp found).1,
      Caller.step_present (TrafficEvent.internal_of_advances advances) stepped⟩
  · obtain ⟨kept, keptFound, there⟩ := present other listed
    exact ⟨kept, (others other same).trans keptFound, there⟩

variable (external cfg) in
/-- From every state the requests at any places can be answered by their own
steps, all at one time; the other requests are left where they are. -/
theorem exists_replies (startedAt : Instant) (traffic : Traffic) {places : List Nat}
    (present : traffic.Present places) (now : Instant) :
    ∃ events final, (∀ event ∈ events, (∃ place ∈ places, event.advances = some place) ∧
        ∀ time ∈ event.time, time = now) ∧
      (machine external cfg startedAt).execFrom traffic events = some final ∧
      (∀ place ∈ places, ∃ caller response, final.callers[place]? = some caller ∧
        caller.reply = some response) ∧
      ∀ place ∉ places, final.callers[place]? = traffic.callers[place]? := by
  let Kept (current : Traffic) : Prop := current.Present places ∧
    ∀ place ∉ places, current.callers[place]? = traffic.callers[place]?
  let Ended (current : Traffic) : Prop := ∀ place ∈ places, ∀ caller,
    current.callers[place]? = some caller → caller.ended = true
  have round : ∀ current, Kept current → ¬ (Kept current ∧ Ended current) →
      ∃ events next, (∀ event ∈ events, (∃ place ∈ places, event.advances = some place) ∧
          ∀ time ∈ event.time, time = now) ∧
        (machine external cfg startedAt).execFrom current events = some next ∧
        ((Kept next ∧ Ended next) ∨ Kept next ∧
          (next.callers.map (Caller.stepsLeft cfg)).sum <
            (current.callers.map (Caller.stepsLeft cfg)).sum) := by
    rintro current ⟨there, others⟩ unfinished
    have waiting : ¬ Ended current := fun ended => unfinished ⟨⟨there, others⟩, ended⟩
    simp only [Ended, not_forall] at waiting
    obtain ⟨place, member, caller, found, unended⟩ := waiting
    rw [Bool.not_eq_true] at unended
    obtain ⟨event, next, advances, atNow, stepped⟩ :=
      caller.exists_advance external cfg current.state unended place now
    have allowed : ∀ other ∈ [event], (∃ place ∈ places, other.advances = some place) ∧
        ∀ time ∈ other.time, time = now := by
      intro other only
      rw [List.mem_singleton.mp only]
      exact ⟨⟨place, member, advances⟩, atNow⟩
    have ran : (machine external cfg startedAt).execFrom current [event] =
        some (current.moved place next) := by
      rw [Machine.execFrom_cons, step_advance startedAt found advances stepped]
      rfl
    obtain ⟨stillThere, elsewhere⟩ := moved_present there found advances stepped
    refine ⟨[event], _, allowed, ran, Or.inr ⟨⟨stillThere, fun other outside => ?_⟩, ?_⟩⟩
    · have different : other ≠ place := by
        rintro rfl
        exact outside member
      exact (elsewhere other different).trans (others other outside)
    · have lower := (Caller.step_spends stepped).steps
      have moved := sum_map_set (Caller.stepsLeft cfg) found next.2
      show ((current.callers.set place next.2).map (Caller.stepsLeft cfg)).sum < _
      omega
  obtain ⟨events, final, allowed, run, kept, ended⟩ :=
    Machine.exists_run_finishing (machine external cfg startedAt) Kept
      (fun current => Kept current ∧ Ended current) _
      (fun current => (current.callers.map (Caller.stepsLeft cfg)).sum) round
      (⟨present, fun _ _ => rfl⟩ : Kept traffic)
  refine ⟨events, final, allowed, run, fun place member => ?_, kept.2⟩
  obtain ⟨caller, found, there⟩ := kept.1 place member
  obtain ⟨response, replied⟩ := Caller.reply_isSome (ended place member caller found) there
  exact ⟨caller, response, found, replied⟩

end Traffic

end Disburse
