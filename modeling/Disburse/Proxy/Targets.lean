import Disburse.Proxy.Progress

/-!
Owns where requests go, over all interleavings: every HTTP request in flight goes to
a configured upstream that its circuit allowed. An attempt is covered by the step
that admitted it, a verification by the step in which its check began; a trip in
between does not call it back.
-/

namespace Disburse

open Disburse.Library

namespace Traffic

/-- The step admits the attempt that the caller has in flight: it finds the circuit
of the upstream passable and a permit free, and leaves the caller as it is. -/
structure AdmitsAttempt (external : External) (cfg : Config) (place : Nat) (caller : Caller)
    (name : String) (traffic : Traffic) (event : TrafficEvent) (draws : Nat → Nat)
    (now : Instant) : Prop where
  attempt : event = .other (.attempt place draws now)
  configured : name ∈ cfg.pool.map Upstream.name
  admissible : (traffic.state.pool.cells name).Admissible now
  leaves : ∀ next, traffic.step external cfg event = some next →
    next.callers[place]? = some caller

/-- The step begins the check of the request, and the upstream being asked and those
still to be asked are the last of those not dropped then. -/
structure BeginsCheck (external : External) (cfg : Config) (place : Nat) (task : Task)
    (verification : Verification) (traffic : Traffic) (event : TrafficEvent) (now : Instant) :
    Prop where
  start : event = .start place now
  request : traffic.callers[place]? = some (.running task)
  unknown : traffic.state.Unknown external now task.request verification.blockhash
  undropped : verification.asked :: verification.rest <:+ traffic.state.askable cfg now

/-- The step allows what the caller at this place has in flight. -/
def Allows (external : External) (cfg : Config) (place : Nat) (caller : Caller) (name : String)
    (traffic : Traffic) (event : TrafficEvent) : Prop :=
  match caller with
  | .running _ => ∃ draws now,
      AdmitsAttempt external cfg place caller name traffic event draws now
  | .verifying task verification => ∃ now,
      BeginsCheck external cfg place task verification traffic event now

section Steps

variable {external : External} {cfg : Config} {startedAt : Instant} {traffic next : Traffic}
  {event : TrafficEvent} {place : Nat}

/-- A caller that a step leaves at a place was there before, or the step is its own. -/
theorem callers_of_step (stepped : traffic.step external cfg event = some next) {caller : Caller}
    (found : next.callers[place]? = some caller) :
    traffic.callers[place]? = some caller ∨
      (∃ before state, event.caller = some place ∧ traffic.callers[place]? = some before ∧
        before.step external cfg traffic.state event = some (state, caller)) ∨
      ∃ handler request, caller = .running (.arrive cfg handler request) := by
  cases step_moves stepped with
  | calls _ mover own result named ownFound taken =>
      by_cases same : mover = place
      · subst same
        have placed : (traffic.moved mover result).callers[mover]? = some result.2 :=
          List.getElem?_set_self (List.getElem?_eq_some_iff.mp ownFound).1
        rw [placed, Option.some_inj] at found
        subst found
        exact .inr (.inl ⟨own, result.1, named, ownFound, taken⟩)
      · exact .inl ((List.getElem?_set_ne same).symm.trans found)
  | arrives handler request =>
      by_cases inside : place < traffic.callers.length
      · exact .inl ((List.getElem?_append_left inside).symm.trans found)
      · have placed := List.getElem?_append_right (Nat.le_of_not_lt inside) ▸ found
        exact .inr (.inr ⟨handler, request,
          List.mem_singleton.mp (List.mem_of_getElem? placed)⟩)
  | polls => exact .inl found
  | seeds => exact .inl found

end Steps

end Traffic

section Origin

variable {external : External} {cfg : Config} {state : AppState} {caller : Caller}
  {event : TrafficEvent} {result : AppState × Caller}

/-- Past a checkpoint a request that runs has no attempt in flight yet. -/
theorem Task.proceed_flight {task own : Task} {checked : AppState × Checkpoint}
    (runs : (task.proceed external checked).2 = .running own) : own.phase.flight = none := by
  rcases checked with ⟨after, passed | rejected | verification⟩
  · cases runs
    exact task.forward_flight external _
  · cases runs
    rfl
  · cases runs

/-- The step after which a request has an attempt in flight admits the attempt. -/
theorem Caller.admission_of_step (taken : caller.step external cfg state event = some result)
    {task : Task} {flight : InFlight} (runs : result.2 = .running task)
    (phase : task.phase = .awaiting flight) :
    ∃ place draws now, event = .other (.attempt place draws now) ∧
      flight.upstream ∈ cfg.pool ∧ (state.pool.cells flight.upstream.name).Admissible now := by
  have grounded (idle : task.phase.flight = none) : False := by
    rw [phase] at idle
    cases idle
  cases Caller.step_moves taken with
  | refuses =>
      cases runs
      exact (grounded rfl).elim
  | checks own => exact (grounded (Task.proceed_flight runs)).elim
  | forwards own =>
      cases runs
      exact (grounded (own.forward_flight external _)).elim
  | votes own => exact (grounded (Task.proceed_flight runs)).elim
  | hangsUp =>
      cases runs
      exact (grounded rfl).elim
  | works own _ _ started moves =>
      cases runs
      cases moves with
      | enters place answers now => exact (started place answers now rfl).elim
      | leaves => cases phase
      | attempts place draws now =>
          rcases own.attempt_cases external cfg state draws now with
            spent | ⟨_, refused⟩ | ⟨_, loop, begun, starts, entered⟩
          · rw [spent] at phase
            cases phase
          · rw [refused] at phase
            cases phase
          · rw [entered] at phase
            have same : begun = flight := Phase.awaiting.inj phase
            subst same
            have chosen := (startAttempt_chosen starts).2
            exact ⟨place, draws, now, rfl, chosen.member, chosen.admissible⟩
      | answers => cases phase
      | expires => cases phase
      | hangsUp => cases phase
      | settles place begun exchange outcome now =>
          exact (grounded (own.settle_flight external cfg state begun exchange outcome now)).elim

/-- The step after which an upstream is asked began the check, or an upstream asked
before has given no boolean. -/
theorem Caller.check_of_step (taken : caller.step external cfg state event = some result)
    {task : Task} {verification : Verification} (asks : result.2 = .verifying task verification) :
    (∃ place now, event = .start place now ∧ caller = .running task ∧
        state.Unknown external now task.request verification.blockhash ∧
        state.askable cfg now = verification.asked :: verification.rest) ∨
      ∃ earlier, caller = .verifying task earlier ∧ earlier.blockhash = verification.blockhash ∧
        earlier.rest = verification.asked :: verification.rest := by
  have asking {own : Task} {checked : AppState × Checkpoint}
      (same : (own.proceed external checked).2 = .verifying task verification) :
      own = task ∧ checked.2 = .asking verification := by
    rcases checked with ⟨after, passed | rejected | later⟩
    · cases same
    · cases same
    · cases same
      exact ⟨rfl, rfl⟩
  cases Caller.step_moves taken with
  | refuses => cases asks
  | checks own place now =>
      obtain ⟨rfl, came⟩ := asking asks
      have begun := beginCheck_begun external cfg state now own.request (requestId own.request)
      rw [came] at begun
      cases begun with
      | asks _ unknown askable => exact .inl ⟨place, now, rfl, rfl, unknown, askable⟩
  | forwards => cases asks
  | votes own earlier _ answer =>
      obtain ⟨rfl, came⟩ := asking asks
      have resumed := earlier.resume_resumed state (requestId own.request) answer
      rw [came] at resumed
      cases resumed with
      | next _ _ same rest => exact .inr ⟨earlier, rfl, same.symm, rest⟩
  | hangsUp => cases asks
  | works => cases asks

end Origin

namespace Traffic

section Run

variable {external : External} {cfg : Config} {startedAt : Instant} {traffic : Traffic}
  {place : Nat}

/-- The attempt in flight was admitted by the last step of its request. -/
theorem admitted_of_run {events : List TrafficEvent}
    (run : (machine external cfg startedAt).exec events = some traffic) {task : Task}
    {flight : InFlight} (found : traffic.callers[place]? = some (.running task))
    (phase : task.phase = .awaiting flight) :
    (machine external cfg startedAt).SomeStep
      (Allows external cfg place (.running task) flight.upstream.name)
      (machine external cfg startedAt).init events := by
  apply Machine.someStep_of_holds
    (P := fun traffic => traffic.callers[place]? = some (.running task))
    (fun absent => by cases absent) _ run found
  intro before event after _ stepped own
  rcases callers_of_step stepped own with
    same | ⟨earlier, state, named, earlierFound, taken⟩ | ⟨handler, request, same⟩
  · exact .inl same
  · obtain ⟨mover, draws, now, rfl, member, admissible⟩ :=
      Caller.admission_of_step taken rfl phase
    obtain rfl : mover = place := Option.some_inj.mp named
    refine .inr ⟨draws, now, rfl, List.mem_map_of_mem member, admissible, ?_⟩
    intro next again
    cases stepped.symm.trans again
    exact own
  · cases same
    cases phase

/-- The check that asks now began in the first step of its request. -/
theorem begun_of_run {events : List TrafficEvent}
    (run : (machine external cfg startedAt).exec events = some traffic) {task : Task}
    {verification : Verification}
    (found : traffic.callers[place]? = some (.verifying task verification)) :
    (machine external cfg startedAt).SomeStep
      (Allows external cfg place (.verifying task verification) verification.asked.name)
      (machine external cfg startedAt).init events := by
  apply Machine.someStep_of_holds
    (P := fun traffic => ∃ earlier, traffic.callers[place]? = some (.verifying task earlier) ∧
      earlier.blockhash = verification.blockhash ∧
      verification.asked :: verification.rest <:+ earlier.asked :: earlier.rest)
    (fun ⟨_, absent, _⟩ => nomatch absent) _ run ⟨verification, found, rfl, List.suffix_rfl⟩
  rintro before event after - stepped ⟨own, ownFound, same, later⟩
  rcases callers_of_step stepped ownFound with
    kept | ⟨earlier, state, named, earlierFound, taken⟩ | ⟨handler, request, arrived⟩
  · exact .inl ⟨own, kept, same, later⟩
  · rcases Caller.check_of_step taken rfl with
      ⟨mover, now, rfl, rfl, unknown, askable⟩ | ⟨first, rfl, sameHash, rest⟩
    · obtain rfl : mover = place := Option.some_inj.mp named
      exact .inr ⟨now, rfl, earlierFound, same ▸ unknown, askable ▸ later⟩
    · refine .inl ⟨first, earlierFound, sameHash.trans same, ?_⟩
      exact later.trans (rest ▸ List.suffix_cons first.asked first.rest)
  · cases arrived

/-- In every run each HTTP request in flight was allowed by a step of its own
request: an attempt by the step that admitted that attempt, a verification by the
step in which its check began. -/
theorem in_flight_allowed {events : List TrafficEvent}
    (run : (machine external cfg startedAt).exec events = some traffic) {caller : Caller}
    (found : traffic.callers[place]? = some caller) {name : String}
    (sent : caller.sentTo = some name) :
    (machine external cfg startedAt).SomeStep (Allows external cfg place caller name)
      (machine external cfg startedAt).init events := by
  cases caller with
  | verifying task verification =>
      rw [← Option.some_inj.mp sent]
      exact begun_of_run run found
  | running task =>
      simp only [Caller.sentTo] at sent
      split at sent
      · rename_i flight phase
        rw [← Option.some_inj.mp sent]
        exact admitted_of_run run found phase
      · cases sent

theorem in_flight_allowed_crowded :
    ∃ crowded caller, (machine .plain .narrow 0).exec crowdedRun = some crowded ∧
      crowded.callers[1]? = some caller ∧ caller.sentTo = some "helius" ∧
      (machine .plain .narrow 0).SomeStep (Allows .plain .narrow 1 caller "helius")
        (machine .plain .narrow 0).init crowdedRun := by
  have asked : ((machine .plain .narrow 0).exec crowdedRun).map
      (fun traffic => traffic.callers[1]?.bind Caller.sentTo) = some (some "helius") := by
    decide +kernel
  obtain ⟨crowded, run, target⟩ := Option.map_eq_some_iff.mp asked
  obtain ⟨caller, found, sent⟩ := Option.bind_eq_some_iff.mp target
  exact ⟨crowded, caller, run, found, sent, in_flight_allowed run found sent⟩

end Run

end Traffic

end Disburse
