import Disburse.Proxy.Progress

/-!
Owns how the requests that are sent for one client request spread over the
upstreams when retries go to different ones: an upstream gets at most one
attempt and, for a sendTransaction, at most one verification.
-/

namespace Disburse

open Disburse.Library

/-! ### What may still be sent to an upstream -/

/-- Whether an attempt may still go to the upstream. -/
def ForwardLoop.attemptsLeftTo (loop : ForwardLoop) (name : String) : Nat :=
  if name ∈ loop.excluded then 0 else 1

/-- The upstreams of this name. -/
def namedCount (name : String) (upstreams : List Upstream) : Nat :=
  (upstreams.map Upstream.name).count name

def asksAllowedTo (cfg : Config) (name : String) (request : Json) : Nat :=
  if (request.get "method").bind Json.asStr = some "sendTransaction" then
    namedCount name cfg.pool
  else 0

/-- An upper bound on the attempts still to be sent to the upstream. -/
def Task.attemptsLeftTo (name : String) (task : Task) : Nat :=
  match task.phase with
  | .entering | .selecting => task.loop.attemptsLeftTo name
  | .awaiting flight | .settling flight _ _ =>
      if flight.upstream.name = name then 0 else task.loop.attemptsLeftTo name
  | .replied _ | .gone => 0

/-- An upper bound on the verifications still to be sent to the upstream by a
request that waits for no vote. -/
def Task.asksLeftTo (cfg : Config) (name : String) (task : Task) : Nat :=
  match task.phase with
  | .entering => asksAllowedTo cfg name task.request
  | _ => 0

namespace Caller

/-- The upstream to which this caller has an attempt in flight. -/
def attempts : Caller → Option String
  | .verifying _ _ => none
  | .running task =>
      match task.phase with
      | .awaiting flight => some flight.upstream.name
      | _ => none

def attemptsLeftTo (name : String) : Caller → Nat
  | .running task => task.attemptsLeftTo name
  | .verifying task _ => task.loop.attemptsLeftTo name

/-- A request that waits for a vote may still ask the rest of the upstreams. -/
def asksLeftTo (cfg : Config) (name : String) : Caller → Nat
  | .running task => task.asksLeftTo cfg name
  | .verifying _ verification => namedCount name verification.rest

/-- What a request sends to the upstream it takes from what is left of its kind. -/
structure SpendsTo (cfg : Config) (name : String) (caller next : Caller) : Prop where
  attempts : next.attemptsLeftTo name + (if next.attempts = some name then 1 else 0) ≤
    caller.attemptsLeftTo name
  asks : next.asksLeftTo cfg name + (if next.asks = some name then 1 else 0) ≤
    caller.asksLeftTo cfg name

end Caller

theorem namedCount_cons (name : String) (upstream : Upstream) (rest : List Upstream) :
    namedCount name (upstream :: rest) =
      namedCount name rest + if upstream.name = name then 1 else 0 := by
  unfold namedCount
  rw [List.map_cons, List.count_cons]
  simp only [beq_iff_eq]

theorem namedCount_filter_le (name : String) (keep : Upstream → Bool)
    (upstreams : List Upstream) :
    namedCount name (upstreams.filter keep) ≤ namedCount name upstreams :=
  (List.filter_sublist.map Upstream.name).count_le name

/-! ### What one step takes -/

section Steps

variable {external : External} {cfg : Config} {state : AppState} {name : String}

/-- A request that is answered sends nothing more. -/
theorem Task.spendsTo_of_ended {caller : Caller} {task : Task}
    (done : task.phase.ended = true) : caller.SpendsTo cfg name (.running task) := by
  unfold Phase.ended at done
  have attempts : (Caller.running task).attemptsLeftTo name +
      (if (Caller.running task).attempts = some name then 1 else 0) = 0 := by
    unfold Caller.attemptsLeftTo Task.attemptsLeftTo Caller.attempts
    cases phase : task.phase <;> simp [phase] at done ⊢
  have asks : (Caller.running task).asksLeftTo cfg name +
      (if (Caller.running task).asks = some name then 1 else 0) = 0 := by
    unfold Caller.asksLeftTo Task.asksLeftTo Caller.asks
    cases phase : task.phase <;> simp [phase] at done ⊢
  exact ⟨attempts.le.trans (Nat.zero_le _), asks.le.trans (Nat.zero_le _)⟩

/-- Past the check only an attempt is left. -/
theorem Task.forward_spendsTo (task : Task) (method : String) {caller : Caller}
    (enough : task.loop.attemptsLeftTo name ≤ caller.attemptsLeftTo name) :
    caller.SpendsTo cfg name (.running (task.forward external method)) := by
  unfold forward
  split
  · exact spendsTo_of_ended rfl
  · exact ⟨enough, Nat.zero_le _⟩

theorem askNext_spendsTo (task : Task) {caller : Caller} (asking : AppState) (id : Json)
    (blockhash : String) (tip : Nat) (upstreams : List Upstream)
    (attempts : task.loop.attemptsLeftTo name ≤ caller.attemptsLeftTo name)
    (asks : namedCount name upstreams ≤ caller.asksLeftTo cfg name) :
    caller.SpendsTo cfg name
      (task.proceed external (askNext asking id blockhash tip upstreams)).2 := by
  cases upstreams with
  | nil => exact Task.spendsTo_of_ended rfl
  | cons upstream rest =>
      rw [namedCount_cons] at asks
      refine ⟨attempts, ?_⟩
      show namedCount name rest + (if some upstream.name = some name then 1 else 0) ≤ _
      simp only [Option.some_inj]
      exact asks

/-- What a request has left for an upstream before its start. -/
theorem leftTo_of_entering (cfg : Config) (name : String) {task : Task}
    (phase : task.phase = .entering) :
    (Caller.running task).attemptsLeftTo name = task.loop.attemptsLeftTo name ∧
      (Caller.running task).asksLeftTo cfg name = asksAllowedTo cfg name task.request := by
  simp only [Caller.attemptsLeftTo, Task.attemptsLeftTo, Caller.asksLeftTo, Task.asksLeftTo,
    phase, and_self]

theorem Task.begin_spendsTo {task : Task} (phase : task.phase = .entering)
    (send : (task.request.get "method").bind Json.asStr = some "sendTransaction")
    (now : Instant) :
    (Caller.running task).SpendsTo cfg name (task.proceed external
      (beginCheck external cfg state now task.request (requestId task.request))).2 := by
  obtain ⟨attempts, asks⟩ := leftTo_of_entering cfg name phase
  have forwards : (Caller.running task).SpendsTo cfg name
      (.running (task.forward external "sendTransaction")) :=
    task.forward_spendsTo _ (Nat.le_of_eq attempts.symm)
  unfold beginCheck
  split
  · split
    · exact forwards
    · dsimp only
      split
      · split
        · exact spendsTo_of_ended rfl
        · exact forwards
      · have asked := namedCount_filter_le name
          (fun upstream => !state.pool.isDropped upstream.name now) cfg.pool
        have allowed : asksAllowedTo cfg name task.request = namedCount name cfg.pool := by
          rw [asksAllowedTo, send, if_pos rfl]
        apply askNext_spendsTo _ _ _ _ _ _ (Nat.le_of_eq attempts.symm)
        omega
  · exact forwards

theorem Task.resume_spendsTo (task : Task) (verification : Verification)
    (answer : Option Json) :
    (Caller.verifying task verification).SpendsTo cfg name
      (task.proceed external
        (verification.resume state (requestId task.request) answer)).2 := by
  unfold Verification.resume
  split
  · rename_i valid _
    cases valid with
    | true => exact task.forward_spendsTo _ (Nat.le_refl _)
    | false => exact spendsTo_of_ended rfl
  · exact askNext_spendsTo _ _ _ _ _ _ (Nat.le_refl _) (Nat.le_refl _)

theorem Task.attempt_spendsTo (task : Task) (draws : Nat → Nat) (now : Instant)
    (phase : task.phase = .selecting) :
    (Caller.running task).SpendsTo cfg name
      (.running (task.attempt external cfg state draws now).2) := by
  have left : (Caller.running task).attemptsLeftTo name = task.loop.attemptsLeftTo name := by
    simp only [Caller.attemptsLeftTo, attemptsLeftTo, phase]
  rcases task.attempt_cases external cfg state draws now with
    spent | ⟨_, refused⟩ | ⟨remaining, loop, flight, starts, started⟩
  · rw [spent]
    exact spendsTo_of_ended rfl
  · rw [refused]
    exact spendsTo_of_ended rfl
  · obtain ⟨rfl, _, fresh, _⟩ := startAttempt_chosen starts
    rw [started]
    refine ⟨?_, Nat.zero_le _⟩
    show (if flight.upstream.name = name then 0 else task.loop.attemptsLeftTo name) +
      (if some flight.upstream.name = some name then 1 else 0) ≤ _
    rw [left, ForwardLoop.attemptsLeftTo]
    simp only [Option.some_inj]
    by_cases own : flight.upstream.name = name
    · rw [own] at fresh
      rw [if_pos own, if_pos own, if_neg fresh]
    · rw [if_neg own, if_neg own]
      omega

/-- What failed there does not go there again. -/
theorem Task.settle_spendsTo (retries : cfg.retries.retryOnDifferentUpstream = true)
    (task : Task) (flight : InFlight) (exchange : Exchange) (outcome : AttemptOutcome)
    (now : Instant) (phase : task.phase = .settling flight exchange outcome) :
    (Caller.running task).SpendsTo cfg name
      (.running (task.settle external cfg state flight exchange outcome now).2) := by
  have left : (Caller.running task).attemptsLeftTo name =
      if flight.upstream.name = name then 0 else task.loop.attemptsLeftTo name := by
    simp only [Caller.attemptsLeftTo, attemptsLeftTo, phase]
  unfold settle
  cases outcome with
  | ok bytes contentType => exact spendsTo_of_ended rfl
  | err error =>
      refine ⟨?_, Nat.zero_le _⟩
      show (if name ∈ (if cfg.retries.retryOnDifferentUpstream then
        task.loop.excluded ++ [flight.upstream.name] else task.loop.excluded) then 0 else 1) + 0 ≤ _
      rw [left, retries, if_pos rfl, Nat.add_zero, ForwardLoop.attemptsLeftTo]
      by_cases own : flight.upstream.name = name
      · rw [if_pos own, if_pos (by simp [own])]
      · simp [own, Ne.symm own]

theorem Caller.step_spendsTo (retries : cfg.retries.retryOnDifferentUpstream = true)
    {caller : Caller} {event : TrafficEvent} {next : AppState × Caller}
    (stepped : caller.step external cfg state event = some next) :
    caller.SpendsTo cfg name next.2 := by
  cases step_moves stepped with
  | refuses => exact Task.spendsTo_of_ended rfl
  | checks task _ now phase sends => exact task.begin_spendsTo phase sends now
  | forwards task _ _ method phase =>
      have left := leftTo_of_entering cfg name phase
      exact task.forward_spendsTo _ (Nat.le_of_eq left.1.symm)
  | votes task verification _ answer => exact task.resume_spendsTo verification answer
  | hangsUp => exact Task.spendsTo_of_ended rfl
  | works task _ _ started moves =>
      cases moves with
      | enters place answers now => exact (started place answers now rfl).elim
      | leaves => exact Task.spendsTo_of_ended rfl
      | hangsUp => exact Task.spendsTo_of_ended rfl
      | expires => exact Task.spendsTo_of_ended rfl
      | attempts _ draws now phase => exact task.attempt_spendsTo draws now phase
      | answers _ flight exchange latencyMs now phase =>
          refine ⟨?_, Nat.zero_le _⟩
          show (if flight.upstream.name = name then 0 else task.loop.attemptsLeftTo name) + 0 ≤
            task.attemptsLeftTo name
          simp only [Task.attemptsLeftTo, phase]
          omega
      | settles _ flight exchange outcome now phase =>
          exact task.settle_spendsTo retries flight exchange outcome now phase

end Steps

/-! ### What a run takes -/

namespace Traffic

/-- What a step sends to the upstream for the request at `place`: 1 when the request
then has something in flight there in the role. -/
def sentToFor (role : Caller → Option String) (external : External) (cfg : Config)
    (name : String) (place : Nat) (traffic : Traffic) (event : TrafficEvent) : Nat :=
  let after := traffic.callers[place]?.bind fun caller =>
    (caller.step external cfg traffic.state event).bind fun next => role next.2
  if event.caller = some place ∧ after = some name then 1 else 0

/-- A request sends in a role no more than its share of it. -/
theorem sent_to_le_share {external : External} {cfg : Config} {startedAt : Instant}
    {traffic : Traffic} {events : List TrafficEvent} {place : Nat} {name : String}
    {role : Caller → Option String} (share allowance : Caller → Nat)
    (arrival : ∀ handler request, share (.running (.arrive cfg handler request)) ≤
      allowance (.running (.arrive cfg handler request)))
    (pays : ∀ (state : AppState) caller event (next : AppState × Caller),
      caller.step external cfg state event = some next →
        share next.2 + (if role next.2 = some name then 1 else 0) ≤ share caller ∧
          allowance next.2 = allowance caller)
    (run : (machine external cfg startedAt).exec events = some traffic) {caller : Caller}
    (found : traffic.callers[place]? = some caller) :
    (machine external cfg startedAt).tally (sentToFor role external cfg name place)
      (machine external cfg startedAt).init events ≤ allowance caller := by
  have spent := tally_le_of_share place share allowance
    (sentToFor role external cfg name place) arrival
    (fun before event caller result named own taken => ?_)
    (fun before event other => ?_) run found
  · omega
  · rw [sentToFor, own, Option.bind_some, taken, Option.bind_some]
    simp only [named, true_and]
    exact pays before.state caller event result taken
  · rw [sentToFor, if_neg]
    exact fun both => other both.1

/-- When retries go to different upstreams, each upstream gets in every run at most
one attempt of a request, and at most one verification of its hash if it is a
sendTransaction. -/
theorem sent_to_le {external : External} {cfg : Config} {startedAt : Instant}
    (valid : cfg.validate external = .ok ())
    (retries : cfg.retries.retryOnDifferentUpstream = true) {traffic : Traffic}
    {events : List TrafficEvent} (run : (machine external cfg startedAt).exec events = some traffic)
    {place : Nat} {caller : Caller} (found : traffic.callers[place]? = some caller)
    (name : String) :
    (machine external cfg startedAt).tally (sentToFor Caller.attempts external cfg name place)
        (machine external cfg startedAt).init events ≤ 1 ∧
      (machine external cfg startedAt).tally (sentToFor Caller.asks external cfg name place)
        (machine external cfg startedAt).init events ≤
          if (caller.serves.2.get "method").bind Json.asStr = some "sendTransaction" then 1
          else 0 := by
  constructor
  · exact sent_to_le_share (Caller.attemptsLeftTo name) (fun _ => 1) (fun _ _ => Nat.le_refl _)
      (fun _ _ _ _ taken => ⟨(Caller.step_spendsTo retries taken).attempts, rfl⟩) run found
  · have asked := sent_to_le_share (Caller.asksLeftTo cfg name)
      (fun caller => asksAllowedTo cfg name caller.serves.2) (fun _ _ => Nat.le_refl _)
      (fun _ _ _ _ taken => ⟨(Caller.step_spendsTo retries taken).asks,
        by rw [(Caller.step_spends taken).serves]⟩) run found
    have distinct : (cfg.pool.map Upstream.name).Nodup := by
      rw [Config.pool, List.map_map]
      exact (validate_eq_ok.mp valid).distinct
    have once : namedCount name cfg.pool ≤ 1 := List.nodup_iff_count_le_one.mp distinct name
    unfold asksAllowedTo at asked
    split
    · rename_i sends
      rw [if_pos sends] at asked
      exact asked.trans once
    · rename_i sends
      rw [if_neg sends] at asked
      exact asked

theorem sent_to_le_crowded :
    ∃ crowded caller, (machine .plain .narrow 0).exec crowdedRun = some crowded ∧
      crowded.callers[1]? = some caller ∧
      ((machine .plain .narrow 0).tally (sentToFor Caller.attempts .plain .narrow "helius" 1)
          (machine .plain .narrow 0).init crowdedRun ≤ 1 ∧
        (machine .plain .narrow 0).tally (sentToFor Caller.asks .plain .narrow "helius" 1)
          (machine .plain .narrow 0).init crowdedRun ≤
            if (caller.serves.2.get "method").bind Json.asStr = some "sendTransaction" then 1
            else 0) := by
  have counted : ((machine .plain .narrow 0).exec crowdedRun).map
      (fun traffic => traffic.callers.length) = some 2 := by
    decide +kernel
  obtain ⟨crowded, run, two⟩ := Option.map_eq_some_iff.mp counted
  have inside : 1 < crowded.callers.length := by omega
  exact ⟨crowded, _, run, List.getElem?_eq_getElem inside,
    sent_to_le (by decide +kernel) rfl run (List.getElem?_eq_getElem inside) "helius"⟩

end Traffic

end Disburse
