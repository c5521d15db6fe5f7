import Disburse.Proxy.System

/-!
Owns the fate of the half-open probe slot in the running proxy: who holds a
slot that is taken, and which steps leave one with no holder.
-/

namespace Disburse

open Disburse.Library

/-- The attempt of a request that was admitted and has not settled. -/
def Phase.flight : Phase → Option InFlight
  | .awaiting flight | .settling flight _ _ => some flight
  | .entering | .selecting | .replied _ | .gone => none

/-- The request is a running probe of the upstream: admitted to it as the probe,
not yet settled and not dropped. -/
def Task.Probes (task : Task) (name : String) : Prop :=
  ∃ flight, task.phase.flight = some flight ∧ flight.isProbe = true ∧
    flight.upstream.name = name

/-! ### What a step does to the circuits -/

theorem settleAttempt_circuit {cfg : Config} {state : AppState} {flight : InFlight}
    {success : Bool} {now : Instant} {name : String}
    (taken : (settleAttempt cfg state flight success now).pool.circuit name = .halfOpen true) :
    state.pool.circuit name = .halfOpen true ∧
      ¬ (flight.isProbe = true ∧ flight.upstream.name = name) := by
  unfold settleAttempt at taken
  dsimp only at taken
  rw [AppState.releasePermit_circuit] at taken
  cases isProbe : flight.isProbe with
  | false =>
      rw [isProbe] at taken
      exact ⟨taken, fun probe => Bool.false_ne_true probe.1⟩
  | true =>
      rw [isProbe] at taken
      simp only [↓reduceIte, UpstreamPool.setCircuit_circuit] at taken
      split at taken
      · exact absurd taken (CircuitState.settleProbe_ne_probing _ _ _ _)
      · rename_i different
        exact ⟨taken, fun probe => different probe.2.symm⟩

theorem startAttempt_circuit (cfg : Config) (state : AppState) (now : Instant) (method : String)
    (loop : ForwardLoop) (draws : Nat → Nat) (name : String)
    (taken : (startAttempt cfg state now method loop draws).1.pool.circuit name = .halfOpen true) :
    state.pool.circuit name = .halfOpen true ∨
      ∃ next flight, (startAttempt cfg state now method loop draws).2 = some (next, flight) ∧
        flight.isProbe = true ∧ flight.upstream.name = name := by
  have spec := selectAndAdmit_spec cfg state.pool now method loop.excluded draws
  unfold startAttempt at taken ⊢
  split at taken
  · rename_i pool selection
    rw [selection] at spec
    rcases spec.probing taken with before | ⟨upstream, found, _⟩
    · exact Or.inl before
    · cases found
  · rename_i pool upstream isProbe selection
    rw [selection] at spec
    rcases spec.probing taken with before | ⟨chosen, found, same⟩
    · exact Or.inl before
    · rw [Option.some_inj, Prod.mk.injEq] at found
      refine Or.inr ⟨_, _, rfl, found.2, ?_⟩
      rw [← same, ← found.1]

/-! ### What a move does to the slots -/

theorem not_probes_of_flight_none {task : Task} {name : String}
    (grounded : task.phase.flight = none) : ¬ task.Probes name := by
  intro probes
  rcases probes with ⟨flight, found, _⟩
  rw [grounded] at found
  cases found

theorem probes_iff_of_flight {task : Task} {flight : InFlight} {name : String}
    (found : task.phase.flight = some flight) :
    task.Probes name ↔ flight.isProbe = true ∧ flight.upstream.name = name := by
  unfold Task.Probes
  rw [found]
  simp

/-- Events that drop a request. -/
def SystemEvent.Drops : SystemEvent → Prop
  | .deadline _ | .disconnect _ => True
  | _ => False

theorem Task.enter_books (external : External) (cfg : Config) (state : AppState) (task : Task)
    (answers : Answers) (now : Instant) :
    SameBooks state (task.enter external cfg state answers now).1 ∧
      (task.enter external cfg state answers now).2.phase.flight = none := by
  have books := (beforeForward_left external cfg state now answers task.request).1
  unfold Task.enter
  split
  · rename_i entered
    rw [entered] at books
    exact ⟨books, rfl⟩
  · rename_i entered
    rw [entered] at books
    split <;> exact ⟨books, rfl⟩

/-- A slot that is taken after a move which drops nothing: the request is its
probe now, or the slot was taken before and the request is no less its probe
than before. -/
theorem Task.Moves.slot {external : External} {cfg : Config} {state : AppState} {task : Task}
    {event : SystemEvent} {result : AppState × Task} (kept : ¬ event.Drops)
    (moves : task.Moves external cfg state event result) {name : String}
    (taken : result.1.pool.circuit name = .halfOpen true) :
    result.2.Probes name ∨
      (state.pool.circuit name = .halfOpen true ∧ (task.Probes name → result.2.Probes name)) := by
  cases moves with
  | enters place answers now phase =>
      have books := (task.enter_books external cfg state answers now).1
      rw [books.pool] at taken
      refine Or.inr ⟨taken, fun probes => ?_⟩
      exact absurd probes (not_probes_of_flight_none (by rw [phase]; rfl))
  | leaves place phase => exact absurd trivial kept
  | expires place flight phase => exact absurd trivial kept
  | hangsUp place flight phase => exact absurd trivial kept
  | attempts place draws now phase =>
      have grounded : ¬ task.Probes name := not_probes_of_flight_none (by rw [phase]; rfl)
      have circuits := startAttempt_circuit cfg state now task.method task.loop draws name
      rcases task.attempt_cases external cfg state draws now with
        spent | ⟨refused, next⟩ | ⟨_, loop, flight, started, next⟩
      · rw [spent] at taken
        exact Or.inr ⟨taken, fun probes => absurd probes grounded⟩
      · rw [next] at taken
        rcases circuits taken with before | ⟨_, _, found, _⟩
        · exact Or.inr ⟨before, fun probes => absurd probes grounded⟩
        · rw [refused] at found
          cases found
      · rw [next] at taken ⊢
        rcases circuits taken with before | ⟨_, probing, found, probe⟩
        · exact Or.inr ⟨before, fun probes => absurd probes grounded⟩
        · rw [started, Option.some_inj, Prod.mk.injEq] at found
          refine Or.inl ⟨probing, ?_, probe⟩
          rw [← found.2]
          rfl
  | answers place flight exchange latencyMs now phase =>
      have recorded := fireOnce_recorded external cfg state flight.upstream task.method
        (requestId task.request) exchange latencyMs now
      have same : (task.answer external cfg state flight exchange latencyMs now).1.pool.circuit
          name = state.pool.circuit name := by
        show (fireOnce external cfg state flight.upstream task.method (requestId task.request)
          exchange latencyMs now).1.pool.circuit name = _
        rw [recorded.pool]
        rfl
      rw [same] at taken
      refine Or.inr ⟨taken, fun probes => ?_⟩
      rw [probes_iff_of_flight (by rw [phase]; rfl)] at probes
      exact ⟨flight, rfl, probes⟩
  | settles place flight exchange outcome now phase =>
      rw [Task.settle_state] at taken
      obtain ⟨before, notProbe⟩ := settleAttempt_circuit taken
      refine Or.inr ⟨before, fun probes => absurd ?_ notProbe⟩
      exact (probes_iff_of_flight (by rw [phase]; rfl)).mp probes

/-- A dropped request leaves the circuits alone and is nobody's probe any more. -/
theorem Task.Moves.dropped {external : External} {cfg : Config} {state : AppState} {task : Task}
    {event : SystemEvent} {result : AppState × Task} (drops : event.Drops)
    (moves : task.Moves external cfg state event result) (name : String) :
    result.1.pool.circuit name = state.pool.circuit name ∧ ¬ result.2.Probes name := by
  cases moves with
  | enters => exact absurd drops id
  | attempts => exact absurd drops id
  | answers => exact absurd drops id
  | settles => exact absurd drops id
  | leaves => exact ⟨rfl, not_probes_of_flight_none rfl⟩
  | expires =>
      exact ⟨AppState.releasePermit_circuit _ _ _, not_probes_of_flight_none rfl⟩
  | hangsUp =>
      exact ⟨AppState.releasePermit_circuit _ _ _, not_probes_of_flight_none rfl⟩

/-! ### Holders -/

namespace System

/-- The request at this place is a running probe of the upstream. -/
def HeldAt (system : System) (place : Nat) (name : String) : Prop :=
  ∃ task, system.tasks[place]? = some task ∧ task.Probes name

/-- Every probe slot that is taken has a running, unsettled probe behind it. -/
def SlotHeld (system : System) : Prop :=
  ∀ name, system.state.pool.circuit name = .halfOpen true → ∃ place, system.HeldAt place name

/-- A request that is dropped is not the only running probe of an upstream whose
slot is taken. -/
def SparesLastProbe (system : System) : SystemEvent → Prop
  | .deadline place | .disconnect place => ∀ name,
      system.state.pool.circuit name = .halfOpen true → system.HeldAt place name →
        ∃ other, other ≠ place ∧ system.HeldAt other name
  | _ => True

section Set

variable {system : System} {place : Nat} {task next : Task} {state : AppState} {name : String}

theorem heldAt_set_self (found : system.tasks[place]? = some task) :
    ({ state := state, tasks := system.tasks.set place next } : System).HeldAt place name ↔
      next.Probes name := by
  have inside : place < system.tasks.length := (List.getElem?_eq_some_iff.mp found).1
  unfold HeldAt
  dsimp only
  rw [List.getElem?_set_self inside]
  simp

theorem heldAt_set_other {other : Nat} (different : other ≠ place) :
    ({ state := state, tasks := system.tasks.set place next } : System).HeldAt other name ↔
      system.HeldAt other name := by
  unfold HeldAt
  dsimp only
  rw [List.getElem?_set_ne different.symm]

theorem heldAt_self (found : system.tasks[place]? = some task) :
    system.HeldAt place name ↔ task.Probes name := by
  unfold HeldAt
  rw [found]
  simp

end Set

theorem slotHeld_kept {external : External} {cfg : Config} {system next : System} {place : Nat}
    {event : SystemEvent} (held : SlotHeld system) (kept : ¬ event.Drops)
    (stepped : system.stepTask external cfg place event = some next) : SlotHeld next := by
  obtain ⟨task, result, found, moves, rfl⟩ := stepTask_moves stepped
  intro name taken
  rcases moves.slot kept taken with probes | ⟨before, still⟩
  · exact ⟨place, (heldAt_set_self found).mpr probes⟩
  · obtain ⟨holder, holds⟩ := held name before
    by_cases own : holder = place
    · subst own
      rw [heldAt_self found] at holds
      exact ⟨holder, (heldAt_set_self found).mpr (still holds)⟩
    · exact ⟨holder, (heldAt_set_other own).mpr holds⟩

theorem slotHeld_dropped {external : External} {cfg : Config} {system next : System}
    {place : Nat} (event : SystemEvent) (held : SlotHeld system) (drops : event.Drops)
    (stepped : system.stepTask external cfg place event = some next) :
    SlotHeld next ↔ ∀ name, system.state.pool.circuit name = .halfOpen true →
      system.HeldAt place name → ∃ other, other ≠ place ∧ system.HeldAt other name := by
  obtain ⟨task, result, found, moves, rfl⟩ := stepTask_moves stepped
  constructor
  · intro heldAfter name taken _
    have takenAfter := (moves.dropped drops name).1.trans taken
    obtain ⟨holder, holds⟩ := heldAfter name takenAfter
    by_cases own : holder = place
    · subst own
      exact absurd ((heldAt_set_self found).mp holds) (moves.dropped drops name).2
    · exact ⟨holder, own, (heldAt_set_other own).mp holds⟩
  · intro spared name takenAfter
    have taken : system.state.pool.circuit name = .halfOpen true :=
      (moves.dropped drops name).1.symm.trans takenAfter
    obtain ⟨holder, holds⟩ := held name taken
    by_cases own : holder = place
    · subst own
      obtain ⟨other, different, otherHolds⟩ := spared name taken holds
      exact ⟨other, (heldAt_set_other different).mpr otherHolds⟩
    · exact ⟨holder, (heldAt_set_other own).mpr holds⟩

theorem slotHeld_arrive {cfg : Config} {system : System} (held : SlotHeld system)
    (handler : Handler) (request : Json) :
    SlotHeld { system with tasks := system.tasks ++ [.arrive cfg handler request] } := by
  intro name taken
  obtain ⟨place, task, found, probes⟩ := held name taken
  have inside : place < system.tasks.length := (List.getElem?_eq_some_iff.mp found).1
  refine ⟨place, task, ?_, probes⟩
  dsimp only
  rw [List.getElem?_append_left inside, found]

/-- A step keeps every taken slot held exactly when it drops no last probe. -/
theorem slotHeld_step {external : External} {cfg : Config} {system next : System}
    {event : SystemEvent} (held : SlotHeld system)
    (stepped : step external cfg system event = some next) :
    SlotHeld next ↔ SparesLastProbe system event := by
  cases event with
  | arrive handler request =>
      rw [step_arrive stepped]
      exact iff_of_true (slotHeld_arrive held handler request) trivial
  | enter place answers now => exact iff_of_true (slotHeld_kept held id stepped) trivial
  | attempt place draws now => exact iff_of_true (slotHeld_kept held id stepped) trivial
  | answer place exchange latencyMs now => exact iff_of_true (slotHeld_kept held id stepped) trivial
  | settle place now => exact iff_of_true (slotHeld_kept held id stepped) trivial
  | deadline place => exact slotHeld_dropped (.deadline place) held trivial stepped
  | disconnect place => exact slotHeld_dropped (.disconnect place) held trivial stepped
  | poll upstream body latencyMs now =>
      rw [step_poll stepped]
      refine iff_of_true (fun name taken => held name ?_) trivial
      rcases UpstreamPool.pollSlot_circuit cfg system.state.pool upstream body latencyMs now name
        with same | opened
      · exact same.symm.trans taken
      · rw [opened] at taken
        cases taken
  | seed upstream body =>
      rw [step_seed stepped]
      refine iff_of_true (fun name taken => held name ?_) trivial
      cases body <;> exact taken

/-- In a run every taken probe slot has a running probe behind it throughout
exactly when no step drops the only running probe of a taken slot. -/
theorem slotHeld_iff (external : External) (cfg : Config) (startedAt : Instant)
    (events : List SystemEvent) :
    let proxy := machine external cfg startedAt
    proxy.Throughout SlotHeld proxy.init events ↔
      proxy.EveryStep SparesLastProbe proxy.init events := by
  have start : SlotHeld (machine external cfg startedAt).init := by
    intro name taken
    cases taken
  exact Machine.throughout_iff_everyStep (machine external cfg startedAt)
    (I := fun _ => True) (fun _ _ _ _ _ _ _ => trivial)
    (fun _ _ _ _ held stepped => slotHeld_step held stepped) trivial start

/-! ### A leaked slot -/

theorem not_slotHeld {system : System} {name : String}
    (taken : system.state.pool.circuit name = .halfOpen true)
    (grounded : (system.tasks.all fun task => task.phase.flight.isNone) = true) :
    ¬ SlotHeld system := by
  intro held
  obtain ⟨place, task, found, flight, flying, _⟩ := held name taken
  have flightless := List.all_eq_true.mp grounded task (List.mem_of_getElem? found)
  rw [flying] at flightless
  cases flightless

/-- A failed poll trips helius; after the cooldown a getSlot request is its
probe, and the deadline of the request fires while the probe is on its way. -/
def leakedSlotRun : List SystemEvent :=
  [.poll "helius" none 5 3000000000,
    .arrive .raw (.object [("id", .number (.posInt 7)), ("method", .string "getSlot")]),
    .enter 0 (fun _ => none) 40000000000,
    .attempt 0 (fun _ => 0) 40000000000,
    .deadline 0]

/-- After that run the slot of helius is taken and nobody is its probe. -/
theorem slot_leaked :
    Config.deployment.validate .plain = .ok () ∧
      ∃ system, (machine .plain .deployment 0).exec leakedSlotRun = some system ∧
        system.state.pool.circuit "helius" = .halfOpen true ∧ ¬ SlotHeld system := by
  have circuit : ((machine .plain .deployment 0).exec leakedSlotRun).map
      (fun system => system.state.pool.circuit "helius") = some (.halfOpen true) := by
    decide +kernel
  have grounded : ((machine .plain .deployment 0).exec leakedSlotRun).map
      (fun system => system.tasks.all fun task => task.phase.flight.isNone) = some true := by
    decide +kernel
  obtain ⟨system, reached, taken⟩ := Option.map_eq_some_iff.mp circuit
  rw [reached, Option.map_some, Option.some_inj] at grounded
  exact ⟨Config.deployment_validate, system, reached, taken, not_slotHeld taken grounded⟩

end System

end Disburse
