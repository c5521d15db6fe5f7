import Disburse.Proxy.HealthPage
import Disburse.Proxy.Status

/-!
Owns what follows a leaked probe slot in the running proxy. An upstream whose slot
is taken with no request behind it gets no attempt any more, while `/health` and
`/readyz` count it as healthy; only a trip by its monitor frees the slot.
-/

namespace Disburse

open Disburse.Library

/-- While a probe is in flight `try_admit` refuses and touches nothing. -/
theorem UpstreamCells.tryAdmit_of_probing (cells : UpstreamCells) (now : Instant)
    (taken : cells.circuit = .halfOpen true) : cells.tryAdmit now = (cells, none) := by
  rw [tryAdmit, CircuitState.admitSection_eq_none.mpr (Or.inr taken)]

/-- A call does not choose an upstream that refuses, and leaves it as it was. -/
theorem AdmitSpec.refusing {cfg : Config} {now : Instant} {filter : List String}
    {before after : UpstreamPool} {result : Option (Upstream × Bool)}
    (spec : AdmitSpec cfg now filter before after result) {name : String}
    (refusal : (before.cells name).tryAdmit now = (before.cells name, none)) :
    after.cells name = before.cells name ∧
      ∀ upstream isProbe, result = some (upstream, isProbe) → upstream.name ≠ name := by
  have unchosen : ∀ upstream isProbe, result = some (upstream, isProbe) →
      name ≠ upstream.name := by
    intro upstream isProbe found same
    have admission := (spec.chosen upstream isProbe found).2.2
    rw [← same, refusal] at admission
    cases congrArg Prod.snd admission
  refine ⟨?_, fun upstream isProbe found => (unchosen upstream isProbe found).symm⟩
  rcases spec.others name unchosen with unchanged | refused
  · exact unchanged
  · rw [refusal, Prod.mk.injEq] at refused
    exact refused.1.symm

/-! ### A taken slot -/

section Taken

variable {external : External} {cfg : Config} {state : AppState} {name : String}

variable (cfg) in
/-- An attempt that starts is not at an upstream whose slot is taken. -/
theorem startAttempt_of_probing (now : Instant) (method : String) (loop : ForwardLoop)
    (draws : Nat → Nat) (taken : state.pool.circuit name = .halfOpen true) :
    (startAttempt cfg state now method loop draws).1.pool.circuit name = .halfOpen true ∧
      ∀ next flight, (startAttempt cfg state now method loop draws).2 = some (next, flight) →
        flight.upstream.name ≠ name := by
  have spec := selectAndAdmit_spec cfg state.pool now method loop.excluded draws
  have refusal := UpstreamCells.tryAdmit_of_probing (state.pool.cells name) now taken
  unfold startAttempt
  split
  · rename_i pool selection
    rw [selection] at spec
    refine ⟨?_, fun next flight started => by cases started⟩
    show (pool.cells name).circuit = _
    rw [(spec.refusing refusal).1]
    exact taken
  · rename_i pool upstream isProbe selection
    rw [selection] at spec
    obtain ⟨kept, unchosen⟩ := spec.refusing refusal
    refine ⟨?_, fun next flight started => ?_⟩
    · show (pool.cells name).circuit = _
      rw [kept]
      exact taken
    · rw [Option.some_inj, Prod.mk.injEq] at started
      rw [← started.2]
      exact unchosen upstream isProbe rfl

/-- Only its probe settles a slot. -/
theorem settleAttempt_of_probing {flight : InFlight} (success : Bool) (now : Instant)
    (taken : state.pool.circuit name = .halfOpen true)
    (another : ¬ (flight.isProbe = true ∧ flight.upstream.name = name)) :
    (settleAttempt cfg state flight success now).pool.circuit name = .halfOpen true := by
  unfold settleAttempt
  dsimp only
  rw [AppState.releasePermit_circuit]
  split
  · rename_i isProbe
    rw [UpstreamPool.setCircuit_circuit, if_neg fun same => another ⟨isProbe, same.symm⟩]
    exact taken
  · exact taken

/-- A move of a request that is not the probe leaves the slot taken, does not make
the request its probe and starts no attempt there. -/
theorem Task.Moves.of_probing {task : Task} {event : SystemEvent} {result : AppState × Task}
    (moves : task.Moves external cfg state event result)
    (taken : state.pool.circuit name = .halfOpen true) (another : ¬ task.Probes name) :
    result.1.pool.circuit name = .halfOpen true ∧ ¬ result.2.Probes name ∧
      ∀ place draws now, event = .attempt place draws now →
        (Caller.running result.2).sentTo ≠ some name := by
  cases moves with
  | enters place answers now phase =>
      obtain ⟨books, grounded⟩ := task.enter_books external cfg state answers now
      refine ⟨?_, not_probes_of_flight_none grounded, fun _ _ _ other => by cases other⟩
      rw [books.pool]
      exact taken
  | leaves place phase =>
      exact ⟨taken, not_probes_of_flight_none rfl, fun _ _ _ other => by cases other⟩
  | attempts place draws now phase =>
      obtain ⟨kept, elsewhere⟩ := startAttempt_of_probing cfg now task.method task.loop draws taken
      rcases task.attempt_cases external cfg state draws now with
        spent | ⟨refused, next⟩ | ⟨_, loop, flight, started, next⟩
      · rw [spent]
        exact ⟨taken, not_probes_of_flight_none rfl, fun _ _ _ _ sent => by cases sent⟩
      · rw [next]
        exact ⟨kept, not_probes_of_flight_none rfl, fun _ _ _ _ sent => by cases sent⟩
      · rw [next]
        have distinct := elsewhere loop flight started
        refine ⟨kept, fun probes => ?_, fun _ _ _ _ sent => distinct (Option.some_inj.mp sent)⟩
        exact distinct ((probes_iff_of_flight rfl).mp probes).2
  | answers place flight exchange latencyMs now phase =>
      have recorded := fireOnce_recorded external cfg state flight.upstream task.method
        (requestId task.request) exchange latencyMs now
      refine ⟨?_, fun probes => another ?_, fun _ _ _ other => by cases other⟩
      · show (fireOnce external cfg state flight.upstream task.method (requestId task.request)
          exchange latencyMs now).1.pool.circuit name = _
        rw [recorded.pool]
        exact taken
      · exact (probes_iff_of_flight (by rw [phase]; rfl)).mpr
          ((probes_iff_of_flight rfl).mp probes)
  | expires place flight phase =>
      refine ⟨?_, not_probes_of_flight_none rfl, fun _ _ _ other => by cases other⟩
      exact (AppState.releasePermit_circuit _ _ _).trans taken
  | hangsUp place flight phase =>
      refine ⟨?_, not_probes_of_flight_none rfl, fun _ _ _ other => by cases other⟩
      exact (AppState.releasePermit_circuit _ _ _).trans taken
  | settles place flight exchange outcome now phase =>
      refine ⟨?_, not_probes_of_flight_none
        (task.settle_flight external cfg state flight exchange outcome now),
        fun _ _ _ other => by cases other⟩
      rw [Task.settle_state]
      apply settleAttempt_of_probing outcome.success now taken
      intro own
      exact another ((probes_iff_of_flight (by rw [phase]; rfl)).mpr own)

/-- The caller is the running probe of the upstream. -/
def Caller.Probes (name : String) : Caller → Prop
  | .verifying _ _ => False
  | .running task => task.Probes name

theorem Caller.not_probes_of_grounded {caller : Caller} (grounded : caller.holds = none) :
    ¬ caller.Probes name := by
  cases caller with
  | verifying task verification => exact id
  | running task =>
      apply not_probes_of_flight_none
      exact Option.map_eq_none_iff.mp grounded

theorem Caller.step_of_probing {caller : Caller} {event : TrafficEvent}
    {next : AppState × Caller} (stepped : caller.step external cfg state event = some next)
    (taken : state.pool.circuit name = .halfOpen true) (another : ¬ caller.Probes name) :
    next.1.pool.circuit name = .halfOpen true ∧ ¬ next.2.Probes name ∧
      ∀ place draws now, event = .other (.attempt place draws now) →
        next.2.sentTo ≠ some name := by
  rcases (step_moves stepped).grounded with
    ⟨task, own, result, rfl, rfl, rfl, moves⟩ | ⟨pool, _, grounded, other⟩
  · obtain ⟨kept, unprobed, elsewhere⟩ := moves.of_probing taken another
    refine ⟨kept, unprobed, fun place draws now same => ?_⟩
    exact elsewhere place draws now (TrafficEvent.other.inj same)
  · refine ⟨?_, not_probes_of_grounded grounded,
      fun place draws now same => absurd same (other place draws now)⟩
    rw [pool]
    exact taken

end Taken

/-! ### An orphaned slot -/

namespace Traffic

/-- The probe slot of the upstream is taken and no request is its probe. -/
def Orphaned (name : String) (traffic : Traffic) : Prop :=
  traffic.state.pool.circuit name = .halfOpen true ∧
    ∀ caller ∈ traffic.callers, ¬ caller.Probes name

/-- The event is a poll of the upstream after which its breaker fires. -/
def Trips (cfg : Config) (name : String) (traffic : Traffic) : TrafficEvent → Prop
  | .other (.poll polled body latencyMs now) => polled = name ∧
      (traffic.state.pool.recordPoll name body latencyMs now).BreakerFires cfg name now
  | _ => False

/-- The event starts an attempt at the upstream. -/
def StartsAttempt (external : External) (cfg : Config) (name : String) (traffic : Traffic)
    (event : TrafficEvent) : Prop :=
  ∃ place draws now, event = .other (.attempt place draws now) ∧
    traffic.sends external cfg place event = some name

/-- What the status endpoints say of the upstream while it is orphaned. -/
def ShownHealthy (cfg : Config) (name : String) (traffic : Traffic) : Prop :=
  ∀ now, (∀ tip, (healthEntry traffic.state.pool now tip name).get "healthy" =
      some (.bool true)) ∧
    (name ∈ cfg.pool.map Upstream.name →
      (handleReadyz cfg traffic.state now).body ≠ "no healthy upstream")

section Orphaned

variable {external : External} {cfg : Config} {traffic next : Traffic} {event : TrafficEvent}
  {name : String}

theorem Orphaned.shownHealthy (orphaned : traffic.Orphaned name) :
    traffic.ShownHealthy cfg name := by
  intro now
  have undropped : traffic.state.pool.isDropped name now = false := by
    unfold UpstreamPool.isDropped
    rw [orphaned.1]
    rfl
  constructor
  · intro tip
    show some (Json.bool (!traffic.state.pool.isDropped name now)) = _
    rw [undropped]
    rfl
  · intro configured
    obtain ⟨upstream, member, own⟩ := List.mem_map.mp configured
    have healthy := any_healthy_iff.mpr ⟨upstream, member, (by rw [own]; exact undropped)⟩
    unfold handleReadyz
    dsimp only
    rw [healthy]
    split <;> decide

variable (cfg) in
/-- A poll keeps the slot taken exactly when the breaker does not fire. -/
theorem pollSlot_probing_iff {pool : UpstreamPool} (taken : pool.circuit name = .halfOpen true)
    (polled : String) (body : Option Json) (latencyMs : Rat) (now : Instant) :
    (pool.pollSlot cfg polled body latencyMs now).circuit name = .halfOpen true ↔
      ¬ (polled = name ∧ (pool.recordPoll name body latencyMs now).BreakerFires cfg name now) := by
  constructor
  · rintro kept ⟨rfl, fires⟩
    rw [UpstreamPool.pollSlot_of_fires cfg pool polled body latencyMs now fires] at kept
    cases kept
  · intro quiet
    have recorded := UpstreamPool.recordPoll_circuit pool polled body latencyMs now name
    unfold UpstreamPool.pollSlot UpstreamPool.checkBreaker
    split
    · rename_i fires
      have different : name ≠ polled := by
        rintro rfl
        exact quiet ⟨rfl, fires⟩
      rw [UpstreamPool.setCircuit_circuit, if_neg different, recorded]
      exact taken
    · exact recorded.trans taken

theorem orphaned_step (orphaned : traffic.Orphaned name)
    (stepped : traffic.step external cfg event = some next) :
    next.Orphaned name ↔ ¬ traffic.Trips cfg name event := by
  cases step_moves stepped with
  | calls _ place caller result named found taken =>
      have unharmed : ¬ traffic.Trips cfg name event := by
        rintro trips
        unfold Trips at trips
        split at trips
        · cases named
        · exact trips
      obtain ⟨kept, unprobed, _⟩ := Caller.step_of_probing taken orphaned.1
        (orphaned.2 caller (List.mem_of_getElem? found))
      refine iff_of_true ⟨kept, fun other member => ?_⟩ unharmed
      rcases List.mem_or_eq_of_mem_set member with before | rfl
      · exact orphaned.2 other before
      · exact unprobed
  | arrives handler request =>
      refine iff_of_true ⟨orphaned.1, fun caller member => ?_⟩ id
      rcases List.mem_append.mp member with before | arrived
      · exact orphaned.2 caller before
      · rw [List.mem_singleton.mp arrived]
        exact not_probes_of_flight_none rfl
  | polls polled body latencyMs now configured =>
      have kept := pollSlot_probing_iff cfg orphaned.1 polled body latencyMs now
      exact Iff.trans ⟨fun after => after.1, fun taken => ⟨taken, orphaned.2⟩⟩ kept
  | seeds upstream body =>
      refine iff_of_true ⟨?_, orphaned.2⟩ id
      cases body <;> exact orphaned.1

/-- No attempt starts at an orphaned upstream. -/
theorem Orphaned.unserved (orphaned : traffic.Orphaned name) :
    ¬ traffic.StartsAttempt external cfg name event := by
  rintro ⟨place, draws, now, rfl, sent⟩
  obtain ⟨caller, found, stepped⟩ := Option.bind_eq_some_iff.mp sent
  obtain ⟨result, taken, target⟩ := Option.bind_eq_some_iff.mp stepped
  exact (Caller.step_of_probing taken orphaned.1
    (orphaned.2 caller (List.mem_of_getElem? found))).2.2 place draws now rfl target

/-- An orphaned upstream stays one in a run exactly until its breaker fires after
a poll. Until then no attempt starts there, and the status endpoints show it as
healthy. -/
theorem orphaned_iff (startedAt : Instant) (orphaned : traffic.Orphaned name)
    (events : List TrafficEvent) :
    let proxy := machine external cfg startedAt
    (proxy.Throughout (Orphaned name) traffic events ↔
      proxy.EveryStep (fun state event => ¬ state.Trips cfg name event) traffic events) ∧
    (proxy.EveryStep (fun state event => ¬ state.Trips cfg name event) traffic events →
      proxy.EveryStep (fun state event => ¬ state.StartsAttempt external cfg name event)
        traffic events ∧
      proxy.Throughout (ShownHealthy cfg name) traffic events) := by
  have exact : (machine external cfg startedAt).Throughout (Orphaned name) traffic events ↔
      (machine external cfg startedAt).EveryStep
        (fun state event => ¬ state.Trips cfg name event) traffic events :=
    Machine.throughout_iff_everyStep (machine external cfg startedAt) (I := fun _ => True)
      (fun _ _ _ _ _ _ _ => trivial)
      (fun _ _ _ _ orphaned stepped => orphaned_step orphaned stepped) trivial orphaned
  refine ⟨exact, fun quiet => ⟨?_, ?_⟩⟩
  · apply Machine.everyStep_of_invariant (machine external cfg startedAt) (I := Orphaned name) _
      orphaned quiet
    intro before event after kept untripped stepped
    exact ⟨(orphaned_step kept stepped).mpr untripped, kept.unserved⟩
  · exact (exact.mpr quiet).mono fun _ kept => kept.shownHealthy

end Orphaned

/-- A failed poll trips helius; after the cooldown a request is its probe, and the
deadline of the request fires while the probe is on its way. -/
def orphaningRun : List TrafficEvent :=
  [.other (.poll "helius" none 5 3000000000),
    .other (.arrive .raw (.object [("id", .number (.posInt 7)), ("method", .string "getSlot")])),
    .start 0 40000000000,
    .other (.attempt 0 (fun _ => 0) 40000000000),
    .other (.deadline 0)]

/-- A good poll and another request. -/
def afterOrphaning : List TrafficEvent :=
  [.other (.poll "helius" (some (.object [("result", .number (.posInt 9))])) 5 41000000000),
    .other (.arrive .raw (.object [("id", .number (.posInt 8)), ("method", .string "getSlot")])),
    .start 1 42000000000,
    .other (.attempt 1 (fun _ => 0) 42000000000)]

/-- No request holds a permit, so none is a probe. -/
theorem orphaned_of_grounded {traffic : Traffic} {name : String}
    (taken : traffic.state.pool.circuit name = .halfOpen true)
    (grounded : (traffic.callers.all fun caller => caller.holds.isNone) = true) :
    traffic.Orphaned name := by
  refine ⟨taken, fun caller member => Caller.not_probes_of_grounded ?_⟩
  exact Option.isNone_iff_eq_none.mp (List.all_eq_true.mp grounded caller member)

theorem orphaned_iff_leaked :
    ∃ leaked, (machine .plain .deployment 0).exec orphaningRun = some leaked ∧
      (let proxy := machine .plain .deployment 0
      (proxy.Throughout (Orphaned "helius") leaked afterOrphaning ↔
        proxy.EveryStep (fun state event => ¬ state.Trips .deployment "helius" event) leaked
          afterOrphaning) ∧
      (proxy.EveryStep (fun state event => ¬ state.Trips .deployment "helius" event) leaked
          afterOrphaning →
        proxy.EveryStep (fun state event => ¬ state.StartsAttempt .plain .deployment "helius" event)
          leaked afterOrphaning ∧
        proxy.Throughout (ShownHealthy .deployment "helius") leaked afterOrphaning)) := by
  have circuit : ((machine .plain .deployment 0).exec orphaningRun).map
      (fun traffic => traffic.state.pool.circuit "helius") = some (.halfOpen true) := by
    decide +kernel
  have grounded : ((machine .plain .deployment 0).exec orphaningRun).map
      (fun traffic => traffic.callers.all fun caller => caller.holds.isNone) = some true := by
    decide +kernel
  obtain ⟨leaked, run, taken⟩ := Option.map_eq_some_iff.mp circuit
  rw [run, Option.map_some, Option.some_inj] at grounded
  exact ⟨leaked, run, orphaned_iff 0 (orphaned_of_grounded taken grounded) afterOrphaning⟩

end Traffic

end Disburse
