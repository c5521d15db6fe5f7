import Disburse.Proxy.Verification
import Disburse.Proxy.ProbeSlot
import Disburse.Proxy.Guardrail

/-!
Owns the traffic that client requests send to an upstream: attempts, each of
which holds a permit, and verifications of a blockhash, which hold none. Says
in which runs both together stay within the cap.
-/

namespace Disburse

open Disburse.Library

namespace Caller

/-- The upstream that is verifying a hash for this caller. -/
def asks : Caller → Option String
  | .verifying _ verification => some verification.asked.name
  | .running _ => none

/-- The upstream whose permit this caller holds. -/
def holds : Caller → Option String
  | .verifying _ _ => none
  | .running task => task.phase.flight.map fun flight => flight.upstream.name

/-- The upstream to which this caller has an HTTP request in flight. -/
def sentTo : Caller → Option String
  | .verifying _ verification => some verification.asked.name
  | .running task =>
      match task.phase with
      | .awaiting flight => some flight.upstream.name
      | _ => none

/-- The upstream whose permit this caller still holds after its answer. -/
def settles : Caller → Option String
  | .verifying _ _ => none
  | .running task =>
      match task.phase with
      | .settling flight _ _ => some flight.upstream.name
      | _ => none

/-- Callers with this upstream at the place that `role` names. -/
def count (role : Caller → Option String) (name : String) (callers : List Caller) : Nat :=
  callers.countP fun caller => role caller = some name

end Caller

namespace Traffic

/-- HTTP requests in flight to an upstream that were sent for clients. -/
def inFlight (traffic : Traffic) (name : String) : Nat :=
  Caller.count Caller.sentTo name traffic.callers

/-- No upstream has more requests in flight than the cap. -/
def Capped (cfg : Config) (traffic : Traffic) : Prop :=
  ∀ name, traffic.inFlight name ≤ cfg.maxConcurrentPerUpstream

/-- Free permits of an upstream. -/
def permits (traffic : Traffic) (name : String) : Nat :=
  (traffic.state.pool.cells name).permits

/-- Permits of an upstream are left, free or held by an answered attempt of
another caller, beyond one for each verification that others wait for there. -/
def Room (traffic : Traffic) (place : Nat) (name : String) : Prop :=
  let others := traffic.callers.eraseIdx place
  Caller.count Caller.asks name others <
    traffic.permits name + Caller.count Caller.settles name others

end Traffic

/-- The caller that an event names. -/
def TrafficEvent.caller : TrafficEvent → Option Nat
  | .start place _ | .vote place _ | .other (.enter place _ _) | .other (.attempt place _ _)
  | .other (.answer place _ _ _) | .other (.settle place _) | .other (.deadline place)
  | .other (.disconnect place) => some place
  | .other (.arrive _ _) | .other (.poll _ _ _ _) | .other (.seed _ _) => none

/-- The upstream to which the caller at `place` sends a request with this event. -/
def Traffic.sends (external : External) (cfg : Config) (traffic : Traffic) (place : Nat)
    (event : TrafficEvent) : Option String :=
  traffic.callers[place]?.bind fun caller =>
    (caller.step external cfg traffic.state event).bind fun next => next.2.sentTo

/-- Every request is sent to an upstream with room for it. -/
def Traffic.SendsWithRoom (external : External) (cfg : Config) (traffic : Traffic)
    (event : TrafficEvent) : Prop :=
  ∀ place name, event.caller = some place →
    traffic.sends external cfg place event = some name → traffic.Room place name

/-! ### Permits -/

theorem startAttempt_permits (cfg : Config) (state : AppState) (now : Instant) (method : String)
    (loop : ForwardLoop) (draws : Nat → Nat) (name : String) :
    let started := startAttempt cfg state now method loop draws
    (started.1.pool.cells name).permits +
        (if (started.2.map fun entry => entry.2.upstream.name) = some name then 1 else 0) =
      (state.pool.cells name).permits := by
  have permits := (selectAndAdmit_spec cfg state.pool now method loop.excluded draws).permits name
  unfold startAttempt
  dsimp only
  split
  · rename_i selection
    rw [selection] at permits
    exact permits
  · rename_i selection
    rw [selection] at permits
    exact permits

theorem settleAttempt_permits (cfg : Config) (state : AppState) (flight : InFlight)
    (success : Bool) (now : Instant) (name : String) :
    ((settleAttempt cfg state flight success now).pool.cells name).permits =
      (state.pool.cells name).permits + if flight.upstream.name = name then 1 else 0 := by
  unfold settleAttempt
  dsimp only
  rw [AppState.releasePermit_permits]
  split
  · rw [UpstreamPool.setCircuit_permits]
  · rfl

/-- What a move of a caller does: it takes and gives back only the permits it
says, and a caller that sends a request held none before. -/
structure Caller.Moved (state : AppState) (caller : Caller) (next : AppState × Caller) :
    Prop where
  permits : ∀ name, (next.1.pool.cells name).permits + (if next.2.holds = some name then 1 else 0) =
    (state.pool.cells name).permits + if caller.holds = some name then 1 else 0
  sends : ∀ name, next.2.sentTo = some name → caller.holds = none

theorem Task.forward_flight (external : External) (task : Task) (method : String) :
    (task.forward external method).phase.flight = none := by
  unfold Task.forward
  split <;> rfl

theorem Task.settle_flight (external : External) (cfg : Config) (state : AppState) (task : Task)
    (flight : InFlight) (exchange : Exchange) (outcome : AttemptOutcome) (now : Instant) :
    (task.settle external cfg state flight exchange outcome now).2.phase.flight = none := by
  unfold Task.settle
  dsimp only
  split <;> rfl

namespace Caller

theorem holds_running {task : Task} {flight : Option InFlight}
    (phase : task.phase.flight = flight) :
    (running task).holds = flight.map fun flight => flight.upstream.name := by
  rw [← phase]
  rfl

/-- A request in flight belongs to an attempt that holds its permit or to a
verification. -/
theorem sentTo_running {task : Task} {name : String}
    (sent : (running task).sentTo = some name) : (running task).holds = some name := by
  simp only [sentTo] at sent
  split at sent
  · rename_i phase
    rw [holds_running (by rw [phase]), ← sent]
    rfl
  · cases sent

/-- A move that touches no cells, of a caller without a permit, to one without. -/
theorem Moved.of_grounded {state : AppState} {caller : Caller} {next : AppState × Caller}
    (pool : next.1.pool = state.pool) (before : caller.holds = none)
    (after : next.2.holds = none) : caller.Moved state next where
  permits := by
    intro name
    rw [pool, before, after]
  sends := fun _ _ => before

/-- A move that gives back the permit of the caller. -/
theorem Moved.of_release {state : AppState} {caller next : Caller} {upstream : String}
    (before : caller.holds = some upstream) (after : next.holds = none)
    (quiet : next.sentTo = none) : caller.Moved state (state.releasePermit upstream, next) where
  permits := by
    intro name
    rw [before, after]
    simp only [Option.some_inj]
    exact state.releasePermit_permits upstream name
  sends := by
    intro name sent
    rw [quiet] at sent
    cases sent

end Caller

theorem Task.Moves.moved {external : External} {cfg : Config} {state : AppState} {task : Task}
    {event : SystemEvent} {result : AppState × Task}
    (moves : task.Moves external cfg state event result) :
    (Caller.running task).Moved state (result.1, .running result.2) := by
  cases moves with
  | enters place answers now phase =>
      obtain ⟨books, grounded⟩ := task.enter_books external cfg state answers now
      exact .of_grounded books.pool (Caller.holds_running (by rw [phase]))
        (Caller.holds_running grounded)
  | leaves place phase =>
      exact .of_grounded rfl (Caller.holds_running (by rw [phase])) rfl
  | attempts place draws now phase =>
      have before : (Caller.running task).holds = none :=
        Caller.holds_running (by rw [phase])
      have permits := startAttempt_permits cfg state now task.method task.loop draws
      dsimp only at permits
      refine ⟨fun name => ?_, fun _ _ => before⟩
      rw [before]
      rcases task.attempt_cases external cfg state draws now with
        spent | ⟨refused, next⟩ | ⟨_, loop, flight, started, next⟩
      · rw [spent]
        rfl
      · rw [next]
        rw [refused] at permits
        exact permits name
      · rw [next]
        rw [started] at permits
        exact permits name
  | answers place flight exchange latencyMs now phase =>
      have recorded := fireOnce_recorded external cfg state flight.upstream task.method
        (requestId task.request) exchange latencyMs now
      have before : (Caller.running task).holds = some flight.upstream.name :=
        Caller.holds_running (by rw [phase])
      refine ⟨fun name => ?_, fun name sent => by cases sent⟩
      rw [before]
      show ((fireOnce external cfg state flight.upstream task.method (requestId task.request)
        exchange latencyMs now).1.pool.cells name).permits + _ = _
      rw [recorded.pool]
      rfl
  | expires place flight phase =>
      exact .of_release (Caller.holds_running (by rw [phase])) rfl rfl
  | hangsUp place flight phase =>
      exact .of_release (Caller.holds_running (by rw [phase])) rfl rfl
  | settles place flight exchange outcome now phase =>
      have before : (Caller.running task).holds = some flight.upstream.name :=
        Caller.holds_running (by rw [phase])
      have after : (Caller.running (task.settle external cfg state flight exchange outcome
          now).2).holds = none :=
        Caller.holds_running (task.settle_flight external cfg state flight exchange outcome now)
      refine ⟨fun name => ?_, fun name sent => ?_⟩
      · rw [before, after, Task.settle_state, settleAttempt_permits]
        simp only [Option.some_inj]
        rfl
      · rw [Caller.sentTo_running sent] at after
        cases after

/-- At a checkpoint the state is that of the check and the request holds no permit. -/
theorem Task.proceed_spec (external : External) (task : Task)
    (checked : AppState × Checkpoint) :
    (task.proceed external checked).1 = checked.1 ∧
      (task.proceed external checked).2.holds = none := by
  rcases checked with ⟨state, checkpoint⟩
  cases checkpoint with
  | passed => exact ⟨rfl, Caller.holds_running (task.forward_flight external _)⟩
  | rejected reply => exact ⟨rfl, rfl⟩
  | asking verification => exact ⟨rfl, rfl⟩

theorem Task.start_spec (external : External) (cfg : Config) (state : AppState) (task : Task)
    (now : Instant) :
    (task.start external cfg state now).1.pool = state.pool ∧
      (task.start external cfg state now).2.holds = none := by
  unfold Task.start
  split
  · exact ⟨rfl, rfl⟩
  · split
    · obtain ⟨same, grounded⟩ := task.proceed_spec external
        (beginCheck external cfg state now task.request (requestId task.request))
      rw [same]
      exact ⟨beginCheck_pool _ _ _ _ _ _, grounded⟩
    · exact ⟨rfl, Caller.holds_running (task.forward_flight external _)⟩

theorem Caller.step_moved {external : External} {cfg : Config} {state : AppState}
    {caller : Caller} {event : TrafficEvent} {next : AppState × Caller}
    (stepped : caller.step external cfg state event = some next) : caller.Moved state next := by
  unfold Caller.step at stepped
  split at stepped
  · rename_i task place now
    split at stepped
    · rename_i phase
      cases stepped
      obtain ⟨pool, grounded⟩ := task.start_spec external cfg state now
      exact .of_grounded pool (holds_running (by rw [phase])) grounded
    · cases stepped
  · rename_i task verification place answer
    cases stepped
    obtain ⟨same, grounded⟩ := task.proceed_spec external
      (verification.resume state (requestId task.request) answer)
    refine .of_grounded ?_ rfl grounded
    rw [same]
    exact verification.resume_pool state (requestId task.request) answer
  · cases stepped
    exact .of_grounded rfl rfl rfl
  · cases stepped
  · obtain ⟨result, taskStep, rfl⟩ := Option.map_eq_some_iff.mp stepped
    exact (Task.step_moves taskStep).moved
  · cases stepped

/-! ### Counting -/

namespace Caller

variable {role : Caller → Option String} {name : String} {callers : List Caller}

theorem count_cons (caller : Caller) :
    count role name (caller :: callers) =
      count role name callers + if role caller = some name then 1 else 0 := by
  unfold count
  rw [List.countP_cons]
  simp only [decide_eq_true_eq]

/-- The count is that of one caller and that of the others. -/
theorem count_at {place : Nat} {caller : Caller} (found : callers[place]? = some caller) :
    count role name callers =
      count role name (callers.eraseIdx place) + if role caller = some name then 1 else 0 := by
  obtain ⟨inside, rfl⟩ := List.getElem?_eq_some_iff.mp found
  rw [← count_cons]
  exact (List.getElem_cons_eraseIdx_perm inside).symm.countP_eq _

theorem count_set {place : Nat} (inside : place < callers.length) (caller : Caller) :
    count role name (callers.set place caller) =
      count role name (callers.eraseIdx place) + if role caller = some name then 1 else 0 := by
  rw [← count_cons]
  exact (List.set_perm_cons_eraseIdx inside caller).countP_eq _

/-- Requests in flight are verifications and the attempts that hold permits and
have not been answered. -/
theorem count_sentTo (name : String) (callers : List Caller) :
    count sentTo name callers + count settles name callers =
      count asks name callers + count holds name callers := by
  induction callers with
  | nil => rfl
  | cons caller rest inductionHypothesis =>
      have own : (if caller.sentTo = some name then 1 else 0) +
          (if caller.settles = some name then 1 else 0) =
          (if caller.asks = some name then 1 else 0) +
            if caller.holds = some name then 1 else 0 := by
        cases caller with
        | verifying task verification => rfl
        | running task =>
            cases phase : task.phase <;>
              simp [sentTo, settles, asks, holds, Phase.flight, phase]
      simp only [count_cons]
      omega

end Caller

/-! ### The cap -/

namespace Traffic

/-- Permits are free or held by a caller. -/
def Conserved (cfg : Config) (traffic : Traffic) : Prop :=
  ∀ name, traffic.permits name + Caller.count Caller.holds name traffic.callers =
    cfg.maxConcurrentPerUpstream

/-- The steps of a caller and those of nobody, which leave permits and callers
alone but for an arrival. -/
theorem step_cases {external : External} {cfg : Config} {traffic next : Traffic}
    {event : TrafficEvent} (stepped : traffic.step external cfg event = some next) :
    (∃ place caller result, event.caller = some place ∧
        traffic.callers[place]? = some caller ∧
        caller.step external cfg traffic.state event = some result ∧
        next = traffic.moved place result) ∨
      (event.caller = none ∧ (∀ name, next.permits name = traffic.permits name) ∧
        ∃ arrived, next.callers = traffic.callers ++ arrived ∧
          ∀ caller ∈ arrived, caller.holds = none ∧ caller.sentTo = none) := by
  have callerStep : ∀ place, event.caller = some place →
      traffic.stepCaller external cfg place event = some next →
      ∃ place caller result, event.caller = some place ∧
        traffic.callers[place]? = some caller ∧
        caller.step external cfg traffic.state event = some result ∧
        next = traffic.moved place result := by
    intro place named moved
    obtain ⟨caller, found, mapped⟩ := Option.bind_eq_some_iff.mp moved
    obtain ⟨result, taken, same⟩ := Option.map_eq_some_iff.mp mapped
    exact ⟨place, caller, result, named, found, taken, same.symm⟩
  cases event with
  | start place now => exact Or.inl (callerStep place rfl stepped)
  | vote place answer => exact Or.inl (callerStep place rfl stepped)
  | other event =>
      cases event with
      | enter place answers now => exact Or.inl (callerStep place rfl stepped)
      | attempt place draws now => exact Or.inl (callerStep place rfl stepped)
      | answer place exchange latencyMs now => exact Or.inl (callerStep place rfl stepped)
      | settle place now => exact Or.inl (callerStep place rfl stepped)
      | deadline place => exact Or.inl (callerStep place rfl stepped)
      | disconnect place => exact Or.inl (callerStep place rfl stepped)
      | arrive handler request =>
          rw [step, Option.some_inj] at stepped
          subst stepped
          refine Or.inr ⟨rfl, fun _ => rfl, _, rfl, fun caller member => ?_⟩
          rw [List.mem_singleton] at member
          subst member
          exact ⟨rfl, rfl⟩
      | poll upstream body latencyMs now =>
          rw [step, Option.ite_none_right_eq_some, Option.some_inj] at stepped
          rw [← stepped.2]
          refine Or.inr ⟨rfl, fun name => ?_, [], (List.append_nil _).symm, by simp⟩
          exact traffic.state.pool.pollSlot_permits cfg upstream body latencyMs now name
      | seed upstream body =>
          rw [step, Option.ite_none_right_eq_some, Option.some_inj] at stepped
          rw [← stepped.2]
          refine Or.inr ⟨rfl, fun name => ?_, [], (List.append_nil _).symm, by simp⟩
          cases body <;> rfl

/-- Callers that are nowhere in `role` add nothing to its count. -/
theorem count_append {role : Caller → Option String} {arrived : List Caller}
    (nowhere : ∀ caller ∈ arrived, role caller = none) (callers : List Caller) (name : String) :
    Caller.count role name (callers ++ arrived) = Caller.count role name callers := by
  have none : Caller.count role name arrived = 0 := by
    apply List.countP_eq_zero.mpr
    intro caller member
    simp [nowhere caller member]
  unfold Caller.count at none ⊢
  rw [List.countP_append, none, Nat.add_zero]

theorem conserved_step {external : External} {cfg : Config} {traffic next : Traffic}
    {event : TrafficEvent} (conserved : traffic.Conserved cfg)
    (stepped : traffic.step external cfg event = some next) : next.Conserved cfg := by
  intro name
  have before := conserved name
  rcases step_cases stepped with
    ⟨place, caller, result, _, found, taken, rfl⟩ | ⟨_, permits, arrived, callers, grounded⟩
  · have inside : place < traffic.callers.length := (List.getElem?_eq_some_iff.mp found).1
    have permits : (traffic.moved place result).permits name + _ = traffic.permits name + _ :=
      (Caller.step_moved taken).permits name
    have after : Caller.count Caller.holds name (traffic.callers.set place result.2) = _ :=
      Caller.count_set inside result.2
    rw [Caller.count_at found] at before
    show (traffic.moved place result).permits name +
      Caller.count Caller.holds name (traffic.callers.set place result.2) = _
    omega
  · rw [permits, callers, count_append fun caller member => (grounded caller member).1]
    exact before

theorem conserved_of_reachable {external : External} {cfg : Config} {startedAt : Instant}
    {traffic : Traffic} (reached : (machine external cfg startedAt).Reachable traffic) :
    traffic.Conserved cfg :=
  reached.invariant (I := Conserved cfg) (fun _ => rfl)
    fun _ _ _ conserved stepped => conserved_step conserved stepped

/-- There is room for a caller without a permit exactly when the others leave the
upstream below the cap. -/
theorem room_iff {cfg : Config} {traffic : Traffic} (conserved : traffic.Conserved cfg)
    {place : Nat} {caller : Caller} (found : traffic.callers[place]? = some caller)
    (idle : caller.holds = none) (name : String) :
    traffic.Room place name ↔
      Caller.count Caller.sentTo name (traffic.callers.eraseIdx place) <
        cfg.maxConcurrentPerUpstream := by
  have total := conserved name
  rw [Caller.count_at found, idle] at total
  have balance := Caller.count_sentTo name (traffic.callers.eraseIdx place)
  unfold Room
  dsimp only
  simp only [reduceCtorEq, ↓reduceIte] at total
  omega

/-- A step out of a capped state stays within the cap exactly when it sends
with room. -/
theorem capped_step {external : External} {cfg : Config} {traffic next : Traffic}
    {event : TrafficEvent} (conserved : traffic.Conserved cfg) (capped : traffic.Capped cfg)
    (stepped : traffic.step external cfg event = some next) :
    next.Capped cfg ↔ traffic.SendsWithRoom external cfg event := by
  rcases step_cases stepped with
    ⟨place, caller, result, named, found, taken, rfl⟩ | ⟨named, _, arrived, callers, grounded⟩
  · have inside : place < traffic.callers.length := (List.getElem?_eq_some_iff.mp found).1
    have sends : traffic.sends external cfg place event = result.2.sentTo := by
      rw [Traffic.sends, found, Option.bind_some, taken]
      rfl
    have flights : ∀ name, (traffic.moved place result).inFlight name =
        Caller.count Caller.sentTo name (traffic.callers.eraseIdx place) +
          if result.2.sentTo = some name then 1 else 0 :=
      fun name => Caller.count_set inside result.2
    have room : ∀ name, result.2.sentTo = some name → (traffic.Room place name ↔
        Caller.count Caller.sentTo name (traffic.callers.eraseIdx place) <
          cfg.maxConcurrentPerUpstream) :=
      fun name sent => room_iff conserved found ((Caller.step_moved taken).sends name sent) name
    constructor
    · intro within other name otherNamed sent
      have same : place = other := Option.some_inj.mp (named.symm.trans otherNamed)
      subst same
      rw [sends] at sent
      have bound := within name
      rw [flights, if_pos sent] at bound
      exact (room name sent).mpr bound
    · intro roomy name
      rw [flights]
      by_cases sent : result.2.sentTo = some name
      · rw [if_pos sent]
        exact (room name sent).mp (roomy place name named (sends.trans sent))
      · have bound := capped name
        unfold inFlight at bound
        rw [Caller.count_at found] at bound
        rw [if_neg sent]
        omega
  · refine iff_of_true (fun name => ?_) fun place name other => ?_
    · unfold inFlight
      rw [callers, count_append fun caller member => (grounded caller member).2]
      exact capped name
    · rw [named] at other
      cases other

/-- Attempts alone stay within the cap: what exceeds it are verifications. -/
theorem inFlight_le {external : External} {cfg : Config} {startedAt : Instant}
    {traffic : Traffic} (reached : (machine external cfg startedAt).Reachable traffic)
    (name : String) :
    traffic.inFlight name ≤
      cfg.maxConcurrentPerUpstream + Caller.count Caller.asks name traffic.callers := by
  have conserved := conserved_of_reachable reached name
  have balance := Caller.count_sentTo name traffic.callers
  unfold inFlight
  omega

/-- A run stays within the cap exactly when each of its requests is sent to an
upstream where the permits outnumber the verifications. -/
theorem capped_iff (external : External) (cfg : Config) (startedAt : Instant)
    (events : List TrafficEvent) :
    let proxy := machine external cfg startedAt
    proxy.Throughout (Capped cfg) proxy.init events ↔
      proxy.EveryStep (SendsWithRoom external cfg) proxy.init events := by
  have start : (machine external cfg startedAt).init.Capped cfg := fun _ => Nat.zero_le _
  exact Machine.throughout_iff_everyStep (machine external cfg startedAt)
    (I := Conserved cfg) (fun _ _ _ conserved _ _ stepped => conserved_step conserved stepped)
    (fun _ _ _ conserved capped stepped => capped_step conserved capped stepped)
    (fun _ => rfl) start

end Traffic

/-! ### A cap of one -/

/-- The deployment with one permit for each upstream. -/
def Config.narrow : Config := { Config.deployment with maxConcurrentPerUpstream := 1 }

namespace Traffic

/-- A minute after start-up helius has an attempt in flight and is asked about the
hash of a transaction that was never seen. -/
def crowdedRun : List TrafficEvent :=
  [.other (.arrive .raw (.object [("id", .number (.posInt 7)), ("method", .string "getSlot")])),
    .start 0 60000000000,
    .other (.attempt 0 (fun _ => 0) 60000000000),
    .other (.arrive .raw bareRequest),
    .start 1 60000000000]

/-- Two requests of clients are in flight to an upstream with a cap of one. -/
theorem verification_exceeds_cap :
    Config.narrow.validate .plain = .ok () ∧
      ∃ crowded, (machine .plain .narrow 0).exec crowdedRun = some crowded ∧
        crowded.inFlight "helius" = 2 ∧ Config.narrow.maxConcurrentPerUpstream = 1 ∧
        ¬ crowded.Capped .narrow := by
  have counted : ((machine .plain .narrow 0).exec crowdedRun).map
      (fun traffic => traffic.inFlight "helius") = some 2 := by
    decide +kernel
  obtain ⟨crowded, run, two⟩ := Option.map_eq_some_iff.mp counted
  refine ⟨by decide +kernel, crowded, run, two, rfl, fun capped => ?_⟩
  have one := capped "helius"
  rw [two] at one
  exact absurd one (by decide)

end Traffic

end Disburse
