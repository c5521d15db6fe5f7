import Disburse.Proxy.AccessLog
import Disburse.Proxy.Provenance

/-!
Owns the reason of every rejection: in every run a sendTransaction is turned away
for a hash that the cache knows and that is too old, for a hash that an upstream
calls invalid, or for one on which nobody could be asked or gave an answer.
-/

namespace Disburse

open Disburse.Library

/-! ### What a check rejects -/

section Check

variable {external : External} {cfg : Config} {state : AppState}

/-- A check that counts a rejection rejects. -/
theorem Checked.rejected {id : Json} {checked : AppState × Checkpoint}
    (spec : Checked state id checked) (counted : checked.1.rejections = state.rejections + 1) :
    ∃ reply, checked.2 = .rejected reply := by
  unfold Checked at spec
  cases outcome : checked.2 with
  | rejected reply => exact ⟨reply, rfl⟩
  | passed =>
      rw [outcome] at spec
      exact absurd (spec.symm.trans counted) (Nat.succ_ne_self _).symm
  | asking verification =>
      rw [outcome] at spec
      exact absurd (spec.symm.trans counted) (Nat.succ_ne_self _).symm

/-- A request that is past its start is not turned away any more. -/
theorem Task.Moves.rejections {task : Task} {event : SystemEvent} {result : AppState × Task}
    (moves : task.Moves external cfg state event result)
    (started : ∀ place answers now, event ≠ .enter place answers now) :
    result.1.rejections = state.rejections := by
  cases moves with
  | enters place answers now => exact (started place answers now rfl).elim
  | leaves => rfl
  | expires => rfl
  | hangsUp => rfl
  | attempts _ draws now =>
      rcases task.attempt_state external cfg state draws now with same | begun
      · rw [same]
      · rw [begun, startAttempt_rejections]
  | answers _ flight exchange latencyMs now =>
      have recorded := fireOnce_recorded external cfg state flight.upstream task.method
        (requestId task.request) exchange latencyMs now
      have metrics := congrArg Metrics.blockhashRejections recorded.metrics
      exact metrics
  | settles =>
      rw [Task.settle_state, AppState.rejections, settleAttempt_metrics]
      rfl

end Check

/-! ### What a request has asked -/

namespace Traffic

/-- The request at `place` begins to ask these upstreams about the hash. -/
inductive Begins (external : External) (cfg : Config) (place : Nat) (request : Json)
    (blockhash : String) (asks : List Upstream) (traffic : Traffic) : TrafficEvent → Prop where
  | start (task : Task) (now : Instant)
      (found : traffic.callers[place]? = some (.running task)) (own : task.request = request)
      (unknown : traffic.state.Unknown external now request blockhash)
      (askable : traffic.state.askable cfg now = asks) :
      Begins external cfg place request blockhash asks traffic (.start place now)

/-- The upstream that the request at `place` asked about the hash gives no boolean. -/
inductive Silent (place : Nat) (blockhash : String) (upstream : Upstream) (traffic : Traffic) :
    TrafficEvent → Prop where
  | vote (task : Task) (verification : Verification) (answer : Option Json)
      (found : traffic.callers[place]? = some (.verifying task verification))
      (about : verification.blockhash = blockhash) (asked : verification.asked = upstream)
      (silent : validityOf answer = none) :
      Silent place blockhash upstream traffic (.vote place answer)

/-- The run began the verification, and the upstreams before the asked one gave
no boolean. -/
def AskedInTurn (external : External) (cfg : Config) (startedAt : Instant) (place : Nat)
    (events : List TrafficEvent) (task : Task) (verification : Verification) : Prop :=
  ∃ before, (machine external cfg startedAt).SomeStep
      (Begins external cfg place task.request verification.blockhash
        (before ++ verification.asked :: verification.rest))
      (machine external cfg startedAt).init events ∧
    ∀ upstream ∈ before, (machine external cfg startedAt).SomeStep
      (Silent place verification.blockhash upstream)
      (machine external cfg startedAt).init events

section Run

variable {external : External} {cfg : Config} {startedAt : Instant} {traffic next : Traffic}
  {events : List TrafficEvent} {event : TrafficEvent} {place : Nat}

theorem AskedInTurn.append {task : Task} {verification : Verification}
    (asked : AskedInTurn external cfg startedAt place events task verification)
    (event : TrafficEvent) :
    AskedInTurn external cfg startedAt place (events ++ [event]) task verification := by
  obtain ⟨before, began, silent⟩ := asked
  exact ⟨before, began.append [event], fun upstream member => (silent upstream member).append _⟩

theorem verifying_of_proceed {task other : Task} {checked : AppState × Checkpoint}
    {verification : Verification}
    (waits : (task.proceed external checked).2 = .verifying other verification) :
    other = task ∧ checked.2 = .asking verification := by
  rcases checked with ⟨_, _ | _ | _⟩
  · cases waits
  · cases waits
  · cases waits
    exact ⟨rfl, rfl⟩

/-- A request that waits for a vote after its step began to ask or asks the next. -/
theorem asked_of_calls {caller : Caller} {result : AppState × Caller} {task : Task}
    {verification : Verification} (named : event.caller = some place)
    (found : traffic.callers[place]? = some caller)
    (taken : caller.step external cfg traffic.state event = some result)
    (waits : result.2 = .verifying task verification)
    (run : (machine external cfg startedAt).exec events = some traffic)
    (stepped : (machine external cfg startedAt).step traffic event = some next)
    (held : ∀ task verification, caller = .verifying task verification →
      AskedInTurn external cfg startedAt place events task verification) :
    AskedInTurn external cfg startedAt place (events ++ [event]) task verification := by
  cases Caller.step_moves taken with
  | refuses => cases waits
  | forwards => cases waits
  | hangsUp => cases waits
  | works => cases waits
  | checks own _ now =>
      cases named
      obtain ⟨rfl, asking⟩ := verifying_of_proceed waits
      have begun := beginCheck_begun external cfg traffic.state now task.request
        (requestId task.request)
      rw [asking] at begun
      cases begun with
      | asks _ unknown askable =>
          exact ⟨[], Machine.someStep_snoc run stepped (.start task now found rfl unknown askable),
            fun _ member => nomatch member⟩
  | votes own earlier _ answer =>
      cases named
      obtain ⟨rfl, asking⟩ := verifying_of_proceed waits
      have resumed := earlier.resume_resumed traffic.state (requestId task.request) answer
      rw [asking] at resumed
      cases resumed with
      | next _ silent same rest =>
          obtain ⟨before, began, quiet⟩ := held task earlier rfl
          refine ⟨before ++ [earlier.asked], ?_, fun upstream member => ?_⟩
          · rw [rest, ← same] at began
            rw [List.append_assoc, List.singleton_append]
            exact began.append _
          · rw [same]
            rcases List.mem_append.mp member with old | new
            · exact (quiet upstream old).append _
            · exact Machine.someStep_snoc run stepped
                (.vote task earlier answer found rfl (List.mem_singleton.mp new).symm silent)

/-- In every run a request that waits for a vote has asked all upstreams before. -/
theorem asked_of_run (run : (machine external cfg startedAt).exec events = some traffic)
    {task : Task} {verification : Verification}
    (found : traffic.callers[place]? = some (.verifying task verification)) :
    AskedInTurn external cfg startedAt place events task verification := by
  have all := Machine.exec_induction (machine external cfg startedAt)
    (P := fun events traffic => ∀ task verification,
      traffic.callers[place]? = some (.verifying task verification) →
        AskedInTurn external cfg startedAt place events task verification)
    (fun _ _ found => by cases found) ?_ run
  · exact all task verification found
  · intro before state event next reached held stepped task verification found
    have kept (same : state.callers[place]? = some (.verifying task verification)) :
        AskedInTurn external cfg startedAt place (before ++ [event]) task verification :=
      (held task verification same).append event
    cases step_moves stepped with
    | calls _ own caller result named ownFound taken =>
        by_cases same : place = own
        · subst same
          rw [moved, List.getElem?_set_self (List.getElem?_eq_some_iff.mp ownFound).1,
            Option.some_inj] at found
          exact asked_of_calls named ownFound taken found reached stepped
            fun task verification verifying => held task verification (verifying ▸ ownFound)
        · exact kept ((List.getElem?_set_ne (Ne.symm same)).symm.trans found)
    | arrives handler request =>
        rw [List.getElem?_append] at found
        split at found
        · exact kept found
        · obtain ⟨_, arrived⟩ := List.getElem?_eq_some_iff.mp found
          rw [List.getElem_singleton] at arrived
          cases arrived
    | polls => exact kept found
    | seeds => exact kept found

/-- Why the request at `place` is turned away: its hash is too old, nobody can be
asked about it, an upstream calls it invalid, or every upstream that could be asked
when the check began was asked and gave no boolean. -/
inductive Rejects (external : External) (cfg : Config) (startedAt : Instant) (place : Nat)
    (request : Json) (events : List TrafficEvent) (traffic : Traffic) : TrafficEvent → Prop where
  | tooOld (now : Instant) (old : traffic.state.TooOld external cfg now request) :
      Rejects external cfg startedAt place request events traffic (.start place now)
  | nobody (now : Instant) (blockhash : String)
      (unknown : traffic.state.Unknown external now request blockhash)
      (dropped : traffic.state.askable cfg now = []) :
      Rejects external cfg startedAt place request events traffic (.start place now)
  | refuted (task : Task) (verification : Verification) (answer : Option Json)
      (found : traffic.callers[place]? = some (.verifying task verification))
      (reads : requestBlockhash external request = some verification.blockhash)
      (invalid : validityOf answer = some false) :
      Rejects external cfg startedAt place request events traffic (.vote place answer)
  | unanswered (answer : Option Json) (blockhash : String) (asks : List Upstream)
      (began : (machine external cfg startedAt).SomeStep
        (Begins external cfg place request blockhash asks)
        (machine external cfg startedAt).init events)
      (silent : ∀ upstream ∈ asks, (machine external cfg startedAt).SomeStep
        (Silent place blockhash upstream) (machine external cfg startedAt).init
          (events ++ [.vote place answer])) :
      Rejects external cfg startedAt place request events traffic (.vote place answer)

/-- A step of a request that counts a rejection has a reason. -/
theorem rejects_of_calls {caller : Caller} {result : AppState × Caller}
    (named : event.caller = some place) (found : traffic.callers[place]? = some caller)
    (taken : caller.step external cfg traffic.state event = some result)
    (run : (machine external cfg startedAt).exec events = some traffic)
    (stepped : (machine external cfg startedAt).step traffic event = some next)
    (counted : result.1.rejections = traffic.state.rejections + 1) :
    Rejects external cfg startedAt place caller.serves.2 events traffic event := by
  have uncounted : traffic.state.rejections ≠ traffic.state.rejections + 1 :=
    (Nat.succ_ne_self _).symm
  cases Caller.step_moves taken with
  | refuses => exact absurd counted uncounted
  | forwards => exact absurd counted uncounted
  | hangsUp => exact absurd counted uncounted
  | works task own moved started moves =>
      exact absurd ((moves.rejections started).symm.trans counted) uncounted
  | checks task _ now =>
      cases named
      rw [Task.proceed_state] at counted
      obtain ⟨reply, rejected⟩ :=
        (beginCheck_checked now task.request (requestId task.request)).rejected counted
      have begun := beginCheck_begun external cfg traffic.state now task.request
        (requestId task.request)
      rw [rejected] at begun
      cases begun with
      | tooOld old => exact .tooOld now old
      | nobody blockhash unknown dropped => exact .nobody now blockhash unknown dropped
  | votes task verification _ answer =>
      cases named
      rw [Task.proceed_state] at counted
      obtain ⟨reply, rejected⟩ :=
        (verification.resume_checked (requestId task.request) answer).rejected counted
      have reads := (checking_of_reachable ⟨events, run⟩ _ (List.mem_of_getElem? found)).2
      have resumed := verification.resume_resumed traffic.state (requestId task.request) answer
      rw [rejected] at resumed
      cases resumed with
      | refuted invalid => exact .refuted task verification answer found reads invalid
      | unanswered silent last =>
          obtain ⟨before, began, quiet⟩ := asked_of_run run found
          rw [last] at began
          refine .unanswered answer verification.blockhash _ began fun upstream member => ?_
          rcases List.mem_append.mp member with old | new
          · exact (quiet upstream old).append _
          · exact Machine.someStep_snoc run stepped
              (.vote task verification answer found rfl (List.mem_singleton.mp new).symm silent)

/-- In every run a step that moves the rejection counter counts one, answers a
sendTransaction of its own with the stale error, and has a reason in the run. -/
theorem rejection_caused (run : (machine external cfg startedAt).exec events = some traffic)
    (stepped : (machine external cfg startedAt).step traffic event = some next)
    (counted : next.state.rejections ≠ traffic.state.rejections) :
    next.state.rejections = traffic.state.rejections + 1 ∧
      ∃ place caller, event.caller = some place ∧ traffic.callers[place]? = some caller ∧
        (caller.serves.2.get "method").bind Json.asStr = some "sendTransaction" ∧
        (next.callers[place]?.bind Caller.reply =
          some (.json (staleError (requestId caller.serves.2)))) ∧
        Rejects external cfg startedAt place caller.serves.2 events traffic event := by
  have moves := step_moves stepped
  cases moves with
  | arrives => exact absurd rfl counted
  | polls => exact absurd rfl counted
  | seeds upstream body => cases body <;> exact absurd rfl counted
  | calls _ place caller result named found taken =>
      have sends : ∀ task verification, caller = .verifying task verification →
          (task.request.get "method").bind Json.asStr = some "sendTransaction" := by
        rintro task verification rfl
        exact checksSend_of_reachable ⟨events, run⟩ _ (List.mem_of_getElem? found)
      cases Caller.step_ends sends taken with
      | goesOn _ _ same => exact absurd same counted
      | unnamed _ _ _ same => exact absurd same counted
      | forwarded _ _ _ same => exact absurd same counted
      | stale _ method reply once =>
          have placed : (traffic.moved place result).callers[place]? = some result.2 :=
            List.getElem?_set_self (List.getElem?_eq_some_iff.mp found).1
          refine ⟨once, place, caller, named, found, method, ?_,
            rejects_of_calls named found taken run stepped once⟩
          rw [placed, Option.bind_some, reply]

/-- A client sends a transaction whose hash nobody has seen, and the first of two
upstreams gives no answer about it. -/
def unseenRun : List TrafficEvent :=
  [.other (.arrive .raw bareRequest), .start 0 60000000000, .vote 0 none]

theorem rejection_caused_unseen :
    ∃ traffic next, (machine .plain .narrow 0).exec unseenRun = some traffic ∧
      (machine .plain .narrow 0).step traffic (.vote 0 none) = some next ∧
      next.state.rejections = traffic.state.rejections + 1 ∧
      ∃ place caller, TrafficEvent.caller (.vote 0 none) = some place ∧
        traffic.callers[place]? = some caller ∧
        (caller.serves.2.get "method").bind Json.asStr = some "sendTransaction" ∧
        (next.callers[place]?.bind Caller.reply =
          some (.json (staleError (requestId caller.serves.2)))) ∧
        Rejects .plain .narrow 0 place caller.serves.2 unseenRun traffic (.vote 0 none) := by
  have runs : ((machine .plain .narrow 0).exec unseenRun).map (fun traffic =>
      (traffic.state.rejections, ((machine .plain .narrow 0).step traffic (.vote 0 none)).map
        fun next => next.state.rejections)) = some (0, some 1) := by
    decide +kernel
  obtain ⟨traffic, run, counts⟩ := Option.map_eq_some_iff.mp runs
  obtain ⟨before, after⟩ := Prod.mk.inj counts
  obtain ⟨next, stepped, once⟩ := Option.map_eq_some_iff.mp after
  exact ⟨traffic, next, run, stepped, rejection_caused run stepped (by omega)⟩

end Run

end Traffic

end Disburse
