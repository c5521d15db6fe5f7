import Disburse.Proxy.System

/-!
Owns the running proxy with the blockhash verification of sendTransaction cut
at its awaits: one isBlockhashValid request at a time, to the upstreams that
were not dropped when the check began, and anything may happen before the next.

`System` takes the whole check as one step. Every run of it is a run of the
machine here, in which no other step falls into a check.
-/

namespace Disburse

open Disburse.Library

/-- A verification that waits for the upstream it asked. -/
structure Verification where
  blockhash : String
  /-- The tip when the check began. -/
  tip : Nat
  asked : Upstream
  /-- The upstreams to ask next, as long as none gives a boolean. -/
  rest : List Upstream

/-- How far a check has come. -/
inductive Checkpoint where
  | passed
  | rejected (reply : Json)
  | asking (verification : Verification)

/-- Where a check ends that gave this answer. -/
def Checkpoint.ofVerdict : Option Json → Checkpoint
  | none => .passed
  | some reply => .rejected reply

/-! ### The check in pieces -/

def AppState.rejectStale (state : AppState) (id : Json) : AppState × Checkpoint :=
  ((Disburse.rejectStale state id).1, .rejected (staleError id))

/-- The top of the loop of `verify_blockhash`, with the upstreams not asked yet. -/
def askNext (state : AppState) (id : Json) (blockhash : String) (tip : Nat) :
    List Upstream → AppState × Checkpoint
  | [] => state.rejectStale id
  | upstream :: rest =>
      (state, .asking { blockhash := blockhash, tip := tip, asked := upstream, rest := rest })

/-- What the check does with a boolean of an upstream, or with none of any. -/
def settleCheck (state : AppState) (id : Json) (blockhash : String) (tip : Nat) :
    Option Bool → AppState × Checkpoint
  | some true =>
      ({ state with blockhashCache := state.blockhashCache.insert blockhash tip }, .passed)
  | some false => state.rejectStale id
  | none => state.rejectStale id

/-- The check up to its first await, or to its end. -/
def beginCheck (external : External) (cfg : Config) (state : AppState) (now : Instant)
    (request id : Json) : AppState × Checkpoint :=
  if state.blockhashCache.isWarmedUp now then
    match requestBlockhash external request with
    | none => (state, .passed)
    | some blockhash =>
        let tip := state.pool.tipSlot
        let maxAge := cfg.health.maxBlockhashAgeSlots
        let looked := { state with blockhashCache := (state.blockhashCache.getSlot blockhash).2 }
        match (state.blockhashCache.getSlot blockhash).1 with
        | some seenSlot =>
            if maxAge < tip - seenSlot then looked.rejectStale id else (looked, .passed)
        | none =>
            let healthy := cfg.pool.filter fun upstream => !state.pool.isDropped upstream.name now
            askNext looked id blockhash tip healthy
  else (state, .passed)

/-- From the answer of the upstream that was asked to the next await, or to the end. -/
def Verification.resume (verification : Verification) (state : AppState) (id : Json)
    (answer : Option Json) : AppState × Checkpoint :=
  match validityOf answer with
  | some valid => settleCheck state id verification.blockhash verification.tip (some valid)
  | none => askNext state id verification.blockhash verification.tip verification.rest

section Pool

variable (state : AppState) (id : Json) (blockhash : String) (tip : Nat)

@[simp] theorem askNext_pool (upstreams : List Upstream) :
    (askNext state id blockhash tip upstreams).1.pool = state.pool := by
  cases upstreams <;> rfl

@[simp] theorem settleCheck_pool (verdict : Option Bool) :
    (settleCheck state id blockhash tip verdict).1.pool = state.pool := by
  rcases verdict with _ | valid
  · rfl
  · cases valid <;> rfl

theorem beginCheck_pool (external : External) (cfg : Config) (now : Instant) (request : Json) :
    (beginCheck external cfg state now request id).1.pool = state.pool := by
  unfold beginCheck
  split
  · split
    · rfl
    · dsimp only
      split
      · split <;> rfl
      · exact askNext_pool _ _ _ _ _
  · rfl

theorem Verification.resume_pool (verification : Verification) (answer : Option Json) :
    (verification.resume state id answer).1.pool = state.pool := by
  unfold resume
  split
  · exact settleCheck_pool _ _ _ _ _
  · exact askNext_pool _ _ _ _ _

end Pool

/-! ### Callers -/

/-- A client request; while its hash is verified it stands at `entering`. -/
inductive Caller where
  | running (task : Task)
  | verifying (task : Task) (verification : Verification)

namespace Task

/-- Past the check: to the first selection, or to the reply of a request that
cannot be serialized. -/
def forward (external : External) (task : Task) (method : String) : Task :=
  match external.toVec task.request with
  | none => task.finish external (some (unserializable (requestId task.request)))
  | some _ => { task with method := method, phase := .selecting }

def reply (task : Task) (error : Json) : Task := { task with phase := .replied (.json error) }

theorem enter_eq (external : External) (cfg : Config) (state : AppState) (task : Task)
    (answers : Answers) (now : Instant) :
    task.enter external cfg state answers now =
      match beforeForward external cfg state now answers task.request with
      | (state, .inl error) => (state, task.reply error)
      | (state, .inr method) => (state, task.forward external method) := by
  unfold enter
  rcases beforeForward external cfg state now answers task.request with ⟨state, error | method⟩
  · rfl
  · unfold forward
    cases external.toVec task.request <;> rfl

/-- What a request does at a checkpoint. -/
def proceed (external : External) (task : Task) : AppState × Checkpoint → AppState × Caller
  | (state, .passed) => (state, .running (task.forward external "sendTransaction"))
  | (state, .rejected error) => (state, .running (task.reply error))
  | (state, .asking verification) => (state, .verifying task verification)

/-- From the arrival of a request to its first await, or to a reply. -/
def start (external : External) (cfg : Config) (state : AppState) (task : Task)
    (now : Instant) : AppState × Caller :=
  match (task.request.get "method").bind Json.asStr with
  | none =>
      (state, .running (task.reply
        (jsonrpcError (requestId task.request) .invalidRequest "missing method")))
  | some method =>
      if method = "sendTransaction" then
        task.proceed external
          (beginCheck external cfg state now task.request (requestId task.request))
      else (state, .running (task.forward external method))

end Task

/-- Events of the proxy, with the two that `enter` is cut into. Of `SystemEvent`
all but `enter` can happen. -/
inductive TrafficEvent where
  | start (caller : Nat) (now : Instant)
  | vote (caller : Nat) (answer : Option Json)
  | other (event : SystemEvent)

/-- What an event does to the caller it names. A disconnect drops a request
also while its hash is verified; no deadline runs yet. -/
def Caller.step (external : External) (cfg : Config) (state : AppState) (caller : Caller)
    (event : TrafficEvent) : Option (AppState × Caller) :=
  match caller, event with
  | .running task, .start _ now =>
      match task.phase with
      | .entering => some (task.start external cfg state now)
      | _ => none
  | .verifying task verification, .vote _ answer =>
      some (task.proceed external
        (verification.resume state (requestId task.request) answer))
  | .verifying task _, .other (.disconnect _) =>
      some (state, .running { task with phase := .gone })
  | .running _, .other (.enter _ _ _) => none
  | .running task, .other event =>
      (task.step external cfg state event).map fun next => (next.1, .running next.2)
  | _, _ => none

structure Traffic where
  state : AppState
  callers : List Caller

namespace Traffic

/-- After a move of one caller. -/
def moved (traffic : Traffic) (place : Nat) (next : AppState × Caller) : Traffic :=
  { state := next.1, callers := traffic.callers.set place next.2 }

def stepCaller (external : External) (cfg : Config) (traffic : Traffic) (place : Nat)
    (event : TrafficEvent) : Option Traffic :=
  traffic.callers[place]?.bind fun caller =>
    (caller.step external cfg traffic.state event).map (traffic.moved place)

def step (external : External) (cfg : Config) (traffic : Traffic) (event : TrafficEvent) :
    Option Traffic :=
  match event with
  | .start place _ | .vote place _ | .other (.enter place _ _) | .other (.attempt place _ _)
  | .other (.answer place _ _ _) | .other (.settle place _) | .other (.deadline place)
  | .other (.disconnect place) => traffic.stepCaller external cfg place event
  | .other (.arrive handler request) =>
      some { traffic with callers := traffic.callers ++ [.running (.arrive cfg handler request)] }
  | .other (.poll upstream body latencyMs now) =>
      if upstream ∈ cfg.pool.map Upstream.name then
        some { traffic with
          state := { traffic.state with
            pool := traffic.state.pool.pollSlot cfg upstream body latencyMs now } }
      else none
  | .other (.seed upstream body) =>
      if upstream ∈ cfg.pool.map Upstream.name then
        some { traffic with state := traffic.state.seedCache upstream body }
      else none

/-- The proxy started at `startedAt`. -/
def machine (external : External) (cfg : Config) (startedAt : Instant) :
    Machine Traffic TrafficEvent :=
  { init := { state := .start cfg startedAt, callers := [] }
    step := step external cfg }

/-! ### A check without interference -/

theorem stepCaller_of_moved {external : External} {cfg : Config} {traffic : Traffic}
    {place : Nat} (inside : place < traffic.callers.length) (next : AppState × Caller)
    {event : TrafficEvent} {after : AppState × Caller}
    (stepped : next.2.step external cfg next.1 event = some after) :
    (traffic.moved place next).stepCaller external cfg place event =
      some (traffic.moved place after) := by
  unfold stepCaller moved
  dsimp only
  rw [List.getElem?_set_self inside, Option.bind_some, stepped, Option.map_some, List.set_set]

/-- The upstreams vote in turn until one gives a boolean. -/
theorem votes_in_turn (external : External) (cfg : Config) (startedAt : Instant)
    (traffic : Traffic) {place : Nat} (inside : place < traffic.callers.length) (task : Task)
    (state : AppState) (blockhash : String) (tip : Nat) (answers : Answers)
    (upstreams : List Upstream) :
    ∃ votes, (machine external cfg startedAt).execFrom
      (traffic.moved place (task.proceed external
        (askNext state (requestId task.request) blockhash tip upstreams))) votes =
      some (traffic.moved place (task.proceed external
        (settleCheck state (requestId task.request) blockhash tip
          (upstreams.findSome? fun upstream => validityOf (answers upstream.name))))) := by
  induction upstreams with
  | nil => exact ⟨[], rfl⟩
  | cons upstream rest inductionHypothesis =>
      have voted : (machine external cfg startedAt).step
          (traffic.moved place (task.proceed external
            (askNext state (requestId task.request) blockhash tip (upstream :: rest))))
          (.vote place (answers upstream.name)) = _ :=
        stepCaller_of_moved inside (state, .verifying task _) rfl
      cases vote : validityOf (answers upstream.name) with
      | some valid =>
          refine ⟨[.vote place (answers upstream.name)], ?_⟩
          rw [Machine.execFrom_cons, voted, Option.bind_some, Machine.execFrom_nil,
            Verification.resume, List.findSome?_cons, vote]
      | none =>
          obtain ⟨votes, run⟩ := inductionHypothesis
          refine ⟨.vote place (answers upstream.name) :: votes, ?_⟩
          rw [Machine.execFrom_cons, voted, Option.bind_some, Verification.resume,
            List.findSome?_cons, vote]
          exact run

/-- A whole check ends as `checkBlockhashFreshness` says. -/
theorem check_in_turn (external : External) (cfg : Config) (startedAt : Instant)
    (traffic : Traffic) {place : Nat} (inside : place < traffic.callers.length) (task : Task)
    (state : AppState) (now : Instant) (answers : Answers) :
    let checked := checkBlockhashFreshness external cfg state now answers task.request
      (requestId task.request)
    ∃ votes, (machine external cfg startedAt).execFrom
      (traffic.moved place (task.proceed external
        (beginCheck external cfg state now task.request (requestId task.request)))) votes =
      some (traffic.moved place (task.proceed external (checked.1, .ofVerdict checked.2))) := by
  unfold beginCheck checkBlockhashFreshness
  cases state.blockhashCache.isWarmedUp now with
  | false => exact ⟨[], rfl⟩
  | true =>
      cases requestBlockhash external task.request with
      | none => exact ⟨[], rfl⟩
      | some blockhash =>
          dsimp only
          cases (state.blockhashCache.getSlot blockhash).1 with
          | some seenSlot =>
              by_cases old : cfg.health.maxBlockhashAgeSlots < state.pool.tipSlot - seenSlot
              · simp only [if_pos old]
                exact ⟨[], rfl⟩
              · simp only [if_neg old]
                exact ⟨[], rfl⟩
          | none =>
              obtain ⟨votes, run⟩ := votes_in_turn external cfg startedAt traffic inside task
                { state with blockhashCache := (state.blockhashCache.getSlot blockhash).2 }
                blockhash state.pool.tipSlot answers
                (cfg.pool.filter fun upstream => !state.pool.isDropped upstream.name now)
              refine ⟨votes, run.trans ?_⟩
              show some (traffic.moved place (task.proceed external (settleCheck _ _ _ _
                (verifyBlockhash cfg state.pool now answers)))) = _
              rcases verifyBlockhash cfg state.pool now answers with _ | valid
              · rfl
              · cases valid <;> rfl

/-- The first step of a request and the votes make up `Task.enter`. -/
theorem enter_in_turn (external : External) (cfg : Config) (startedAt : Instant)
    (traffic : Traffic) {place : Nat} {task : Task}
    (found : traffic.callers[place]? = some (.running task)) (phase : task.phase = .entering)
    (answers : Answers) (now : Instant) :
    let entered := task.enter external cfg traffic.state answers now
    ∃ votes, (machine external cfg startedAt).execFrom traffic (.start place now :: votes) =
      some (traffic.moved place (entered.1, .running entered.2)) := by
  have inside : place < traffic.callers.length := (List.getElem?_eq_some_iff.mp found).1
  have started : (machine external cfg startedAt).step traffic (.start place now) =
      some (traffic.moved place (task.start external cfg traffic.state now)) := by
    show traffic.stepCaller external cfg place (.start place now) = _
    rw [stepCaller, found, Option.bind_some, Caller.step, phase]
    rfl
  simp only [Machine.execFrom_cons, started, Option.bind_some, Task.enter_eq]
  unfold Task.start beforeForward
  cases (task.request.get "method").bind Json.asStr with
  | none => exact ⟨[], rfl⟩
  | some method =>
      dsimp only
      by_cases sends : method = "sendTransaction"
      · rw [if_pos sends, if_pos sends]
        obtain ⟨votes, run⟩ := check_in_turn external cfg startedAt traffic inside task
          traffic.state now answers
        refine ⟨votes, run.trans ?_⟩
        generalize checkBlockhashFreshness external cfg traffic.state now answers task.request
          (requestId task.request) = checked
        rcases checked with ⟨state, _ | reject⟩
        · subst sends
          rfl
        · rfl
      · rw [if_neg sends, if_neg sends]
        exact ⟨[], rfl⟩

/-- The proxy between two checks. -/
def ofSystem (system : System) : Traffic :=
  { state := system.state, callers := system.tasks.map .running }

theorem stepCaller_ofSystem {external : External} {cfg : Config} {system next : System}
    {place : Nat} {event : SystemEvent}
    (kept : ∀ place answers now, event ≠ .enter place answers now)
    (stepped : system.stepTask external cfg place event = some next) :
    (ofSystem system).stepCaller external cfg place (.other event) = some (ofSystem next) := by
  obtain ⟨task, found, moved⟩ := Option.bind_eq_some_iff.mp stepped
  obtain ⟨result, taskStep, rfl⟩ := Option.map_eq_some_iff.mp moved
  have running : (ofSystem system).callers[place]? = some (.running task) := by
    show (system.tasks.map Caller.running)[place]? = _
    rw [List.getElem?_map, found, Option.map_some]
  have callerStep : (Caller.running task).step external cfg system.state (.other event) =
      some (result.1, .running result.2) := by
    cases event with
    | enter other answers now => exact absurd rfl (kept other answers now)
    | _ => simp only [Caller.step, taskStep, Option.map_some]
  rw [stepCaller, running, Option.bind_some]
  show ((Caller.running task).step external cfg system.state (.other event)).map _ = _
  rw [callerStep, Option.map_some]
  show some ({ state := result.1, callers := (system.tasks.map Caller.running).set place _ } :
    Traffic) = _
  rw [← List.map_set]
  rfl

/-- A step of the proxy with checks in one piece is a run of this one. -/
theorem run_of_system_step {external : External} {cfg : Config} {system next : System}
    {event : SystemEvent} (startedAt : Instant)
    (stepped : system.step external cfg event = some next) :
    ∃ events, (machine external cfg startedAt).execFrom (ofSystem system) events =
      some (ofSystem next) := by
  have single : ∀ event : TrafficEvent,
      (ofSystem system).step external cfg event = some (ofSystem next) →
      ∃ events, (machine external cfg startedAt).execFrom (ofSystem system) events =
        some (ofSystem next) := by
    intro event step
    refine ⟨[event], ?_⟩
    rw [Machine.execFrom_cons]
    show ((ofSystem system).step external cfg event).bind _ = _
    rw [step]
    rfl
  cases event with
  | enter place answers now =>
      obtain ⟨task, result, found, moves, rfl⟩ := System.stepTask_moves stepped
      cases moves with
      | enters _ _ _ phase =>
          have running : (ofSystem system).callers[place]? = some (.running task) := by
            show (system.tasks.map Caller.running)[place]? = _
            rw [List.getElem?_map, found, Option.map_some]
          obtain ⟨votes, run⟩ := enter_in_turn external cfg startedAt (ofSystem system) running
            phase answers now
          refine ⟨.start place now :: votes, run.trans ?_⟩
          show some ({ state := _, callers := (system.tasks.map Caller.running).set place _ } :
            Traffic) = _
          rw [← List.map_set]
          rfl
  | arrive handler request =>
      rw [System.step_arrive stepped] at single ⊢
      apply single (.other (.arrive handler request))
      simp [step, ofSystem]
  | attempt place draws now =>
      exact single (.other (.attempt place draws now))
        (stepCaller_ofSystem (by simp) stepped)
  | answer place exchange latencyMs now =>
      exact single (.other (.answer place exchange latencyMs now))
        (stepCaller_ofSystem (by simp) stepped)
  | settle place now =>
      exact single (.other (.settle place now)) (stepCaller_ofSystem (by simp) stepped)
  | deadline place =>
      exact single (.other (.deadline place)) (stepCaller_ofSystem (by simp) stepped)
  | disconnect place =>
      exact single (.other (.disconnect place)) (stepCaller_ofSystem (by simp) stepped)
  | poll upstream body latencyMs now =>
      rw [System.step, Option.ite_none_right_eq_some, Option.some_inj] at stepped
      apply single (.other (.poll upstream body latencyMs now))
      rw [step, if_pos stepped.1, ← stepped.2]
      rfl
  | seed upstream body =>
      rw [System.step, Option.ite_none_right_eq_some, Option.some_inj] at stepped
      apply single (.other (.seed upstream body))
      rw [step, if_pos stepped.1, ← stepped.2]
      rfl

/-- Whatever the proxy with checks in one piece reaches, this one reaches. -/
theorem reachable_ofSystem {external : External} {cfg : Config} {startedAt : Instant}
    {system : System} (reached : (System.machine external cfg startedAt).Reachable system) :
    (machine external cfg startedAt).Reachable (ofSystem system) := by
  apply reached.invariant
    (I := fun system => (machine external cfg startedAt).Reachable (ofSystem system))
  · exact ⟨[], rfl⟩
  · intro before event next viewed stepped
    obtain ⟨events, run⟩ := run_of_system_step startedAt stepped
    exact viewed.run run

end Traffic

end Disburse
