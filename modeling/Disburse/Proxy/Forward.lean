import Disburse.Proxy.Attempt
import Disburse.Proxy.Freshness
import Disburse.Routing.Select

/-!
Owns the forwarding of one request: the attempt loop of `forward_core` in the
pieces between its awaits, and the two handlers around it.

A `Schedule` fixes what the environment does during one call: the outcome and
the times of each attempt, what other tasks do to the shared state meanwhile,
and the attempt, if any, during which the deadline fires.
-/

namespace Disburse

open Disburse.Library

/-! ### The attempt loop -/

/-- An attempt whose request is on its way; the permit is held. -/
structure InFlight where
  upstream : Upstream
  isProbe : Bool
deriving DecidableEq, Repr

/-- The locals of the loop. `answered` lists the exchanges of the attempts that
ended, for the statements only. -/
structure ForwardLoop where
  excluded : List String
  lastError : Option Json
  lastUpstream : Option String
  answered : List Exchange

def ForwardLoop.new : ForwardLoop :=
  { excluded := [], lastError := none, lastUpstream := none, answered := [] }

inductive ForwardResult where
  | ok (bytes : Bytes) (contentType : Option String) (upstream : String)
  | err (error : Json) (lastUpstream : Option String)

/-- From the top of the loop body to its await: select, admit, count the decision. -/
def startAttempt (cfg : Config) (state : AppState) (now : Instant) (method : String)
    (loop : ForwardLoop) (draws : Nat → Nat) : AppState × Option (ForwardLoop × InFlight) :=
  match selectAndAdmit cfg state.pool now method loop.excluded draws with
  | (pool, none) => ({ state with pool := pool }, none)
  | (pool, some (upstream, isProbe)) =>
      ({ state with
          pool := pool
          metrics := state.metrics.recordRoutingDecision upstream.name method },
        some ({ loop with lastUpstream := some upstream.name },
          { upstream := upstream, isProbe := isProbe }))

/-- A probe settles; the permit goes back with the end of the loop body. -/
def settleAttempt (cfg : Config) (state : AppState) (flight : InFlight) (success : Bool)
    (now : Instant) : AppState :=
  let name := flight.upstream.name
  let settled :=
    if flight.isProbe then
      { state with
        pool := state.pool.setCircuit name
          ((state.pool.circuit name).settleProbe success now cfg.cooldown) }
    else state
  settled.releasePermit name

/-- The locals after an attempt, and the result when it ends the loop. -/
def ForwardLoop.next (cfg : Config) (loop : ForwardLoop) (upstream : String)
    (exchange : Exchange) : AttemptOutcome → ForwardLoop × Option ForwardResult
  | .ok bytes contentType =>
      ({ loop with answered := loop.answered ++ [exchange] },
        some (.ok bytes contentType upstream))
  | .err error =>
      ({ loop with
          answered := loop.answered ++ [exchange]
          lastError := some error
          excluded := if cfg.retries.retryOnDifferentUpstream then loop.excluded ++ [upstream]
            else loop.excluded },
        none)

def noUpstreamError (id : Json) : Json :=
  jsonrpcError id .allUpstreamsExhausted "no upstream available"

/-- The result after the loop. -/
def ForwardLoop.exhausted (loop : ForwardLoop) (id : Json) : ForwardResult :=
  .err (loop.lastError.getD (noUpstreamError id)) loop.lastUpstream

/-- The future is dropped while an attempt is in flight: its permit goes back,
nothing is recorded and no probe settles. -/
def dropAttempt (state : AppState) (flight : InFlight) : AppState :=
  state.releasePermit flight.upstream.name

/-- The environment of one attempt. -/
structure Attempt where
  /-- What other tasks do before the selection. -/
  before : AppState → AppState
  selectAt : Instant
  draws : Nat → Nat
  /-- What other tasks do while the request is on its way. -/
  meanwhile : AppState → AppState
  exchange : Exchange
  latencyMs : Rat
  doneAt : Instant

structure Schedule where
  checkAt : Instant
  answers : Answers
  attempts : Nat → Attempt
  /-- The attempt during which the deadline fires. -/
  deadline : Option Nat

/-- How a call of `forward_core` under its deadline ends: `result` is `none`
when the deadline fired. -/
structure Forwarding where
  state : AppState
  result : Option ForwardResult
  answered : List Exchange

/-- The loop, with the number of attempts left. -/
def forwardLoop (external : External) (cfg : Config) (schedule : Schedule) (id : Json)
    (method : String) : Nat → AppState → ForwardLoop → Forwarding
  | 0, state, loop =>
      { state := state, result := some (loop.exhausted id), answered := loop.answered }
  | remaining + 1, state, loop =>
      let place := loop.answered.length
      let attempt := schedule.attempts place
      match startAttempt cfg (attempt.before state) attempt.selectAt method loop attempt.draws with
      | (state, none) =>
          { state := state, result := some (loop.exhausted id), answered := loop.answered }
      | (state, some (loop, flight)) =>
          if schedule.deadline = some place then
            { state := dropAttempt (attempt.meanwhile state) flight
              result := none
              answered := loop.answered }
          else
            let fired := fireOnce external cfg (attempt.meanwhile state) flight.upstream method id
              attempt.exchange attempt.latencyMs attempt.doneAt
            let state := settleAttempt cfg fired.1 flight fired.2.success attempt.doneAt
            match loop.next cfg flight.upstream.name attempt.exchange fired.2 with
            | (loop, some result) =>
                { state := state, result := some result, answered := loop.answered }
            | (loop, none) => forwardLoop external cfg schedule id method remaining state loop

/-- The result when the request cannot be serialized. -/
def unserializable (id : Json) : ForwardResult :=
  .err (jsonrpcError id .internal "failed to serialize request") none

def forwardCore (external : External) (cfg : Config) (state : AppState) (schedule : Schedule)
    (request id : Json) (method : String) : Forwarding :=
  match external.toVec request with
  | none =>
      { state := state
        result := some (unserializable id)
        answered := [] }
  | some _ => forwardLoop external cfg schedule id method cfg.retries.maxAttempts state .new

/-! ### The handlers -/

inductive Response where
  | json (value : Json)
  | bytes (body : Bytes) (contentType : String)

/-- How a call ends; `forwarded` is `none` when it never got to `forward_core`. -/
structure Handled where
  state : AppState
  response : Response
  forwarded : Option Forwarding

def requestId (request : Json) : Json := (request.get "id").getD .null

/-- What both handlers do first: a reply to give at once, or the method to forward. -/
def beforeForward (external : External) (cfg : Config) (state : AppState) (now : Instant)
    (answers : Answers) (request : Json) : AppState × (Json ⊕ String) :=
  match (request.get "method").bind Json.asStr with
  | none => (state, .inl (jsonrpcError (requestId request) .invalidRequest "missing method"))
  | some method =>
      if method = "sendTransaction" then
        match checkBlockhashFreshness external cfg state now answers request
          (requestId request) with
        | (state, some reject) => (state, .inl reject)
        | (state, none) => (state, .inr method)
      else (state, .inr method)

def deadlineError (id : Json) : Json :=
  jsonrpcError id .deadlineExceeded "request deadline exceeded"

/-- The response of `handle_single_raw` to the end of the forwarding. -/
def packageRaw (id : Json) : Option ForwardResult → Response
  | some (.ok bytes contentType _) => .bytes bytes (contentType.getD "application/json")
  | some (.err error _) => .json error
  | none => .json (deadlineError id)

/-- The value of `handle_single_parsed` for the end of the forwarding. -/
def packageParsed (external : External) (id : Json) : Option ForwardResult → Json
  | some (.ok bytes _ _) => (external.fromSlice bytes).getD (nonJsonError id)
  | some (.err error _) => error
  | none => deadlineError id

def handleSingleRaw (external : External) (cfg : Config) (state : AppState) (schedule : Schedule)
    (request : Json) : Handled :=
  let id := requestId request
  match beforeForward external cfg state schedule.checkAt schedule.answers request with
  | (state, .inl reply) => { state := state, response := .json reply, forwarded := none }
  | (state, .inr method) =>
      let forwarded := forwardCore external cfg state schedule request id method
      { state := forwarded.state
        response := packageRaw id forwarded.result
        forwarded := some forwarded }

def handleSingleParsed (external : External) (cfg : Config) (state : AppState)
    (schedule : Schedule) (request : Json) : Handled :=
  let id := requestId request
  match beforeForward external cfg state schedule.checkAt schedule.answers request with
  | (state, .inl reply) => { state := state, response := .json reply, forwarded := none }
  | (state, .inr method) =>
      let forwarded := forwardCore external cfg state schedule request id method
      { state := forwarded.state
        response := .json (packageParsed external id forwarded.result)
        forwarded := some forwarded }

inductive Handler where
  | raw
  | parsed
deriving DecidableEq, Repr

def Handler.run : Handler → External → Config → AppState → Schedule → Json → Handled
  | raw => handleSingleRaw
  | parsed => handleSingleParsed

def Handler.package (handler : Handler) (external : External) (id : Json)
    (result : Option ForwardResult) : Response :=
  match handler with
  | raw => packageRaw id result
  | parsed => .json (packageParsed external id result)

/-! ### Selections and settlements record nothing -/

theorem startAttempt_stats (cfg : Config) (state : AppState) (now : Instant) (method : String)
    (loop : ForwardLoop) (draws : Nat → Nat) :
    (startAttempt cfg state now method loop draws).1.pool.stats = state.pool.stats := by
  have stats := (selectAndAdmit_spec cfg state.pool now method loop.excluded draws).stats
  unfold startAttempt
  split
  · rename_i selection
    rw [selection] at stats
    exact stats
  · rename_i selection
    rw [selection] at stats
    exact stats

theorem settleAttempt_stats (cfg : Config) (state : AppState) (flight : InFlight)
    (success : Bool) (now : Instant) :
    (settleAttempt cfg state flight success now).pool.stats = state.pool.stats := by
  unfold settleAttempt
  dsimp only
  split <;> rfl

/-! ### The two stages of a handler -/

theorem beforeForward_sendTransaction (external : External) (cfg : Config) (state : AppState)
    (now : Instant) (answers : Answers) {request : Json}
    (method : request.get "method" = some (.string "sendTransaction")) :
    beforeForward external cfg state now answers request =
      match checkBlockhashFreshness external cfg state now answers request
        (requestId request) with
      | (state, some reject) => (state, .inl reject)
      | (state, none) => (state, .inr "sendTransaction") := by
  unfold beforeForward
  rw [method]
  rfl

/-- What the first stage leaves alone: the pool and every counter but that of
the rejections. -/
structure SameBooks (before after : AppState) : Prop where
  pool : after.pool = before.pool
  metrics : ∃ rejections, after.metrics =
    { before.metrics with blockhashRejections := rejections }

/-- The first stage of a request with a method: it keeps the books, and its only
reply is the rejection. -/
theorem beforeForward_left (external : External) (cfg : Config) (state : AppState)
    (now : Instant) (answers : Answers) (request : Json) :
    SameBooks state (beforeForward external cfg state now answers request).1 ∧
      ∀ reply method, (beforeForward external cfg state now answers request).2 = .inl reply →
        request.get "method" = some (.string method) → reply = staleError (requestId request) := by
  unfold beforeForward
  split
  · rename_i missing
    refine ⟨⟨rfl, _, rfl⟩, fun reply method _ named => ?_⟩
    rw [named] at missing
    cases missing
  · split
    · have left := checkBlockhashFreshness_left external cfg state now answers request
        (requestId request)
      dsimp only at left
      split
      · rename_i checked
        rw [checked] at left
        rcases left with ⟨rejected, kept⟩ | ⟨passed, _⟩
        · refine ⟨⟨kept.pool, _, kept.metrics⟩, fun reply method replied _ => ?_⟩
          rw [Option.some_inj] at rejected
          rw [← rejected, Sum.inl.inj replied]
        · cases passed
      · rename_i checked
        rw [checked] at left
        rcases left with ⟨rejected, _⟩ | ⟨_, kept⟩
        · cases rejected
        · exact ⟨⟨kept.pool, _, kept.metrics⟩, fun reply method replied => by cases replied⟩
    · exact ⟨⟨rfl, _, rfl⟩, fun reply method replied => by cases replied⟩

/-- A reply given before forwarding is the reply of either handler. -/
theorem run_of_reply (handler : Handler) (schedule : Schedule) {external : External}
    {cfg : Config} {state replied : AppState} {request reply : Json}
    (entered : beforeForward external cfg state schedule.checkAt schedule.answers request =
      (replied, .inl reply)) :
    handler.run external cfg state schedule request =
      { state := replied, response := .json reply, forwarded := none } := by
  cases handler with
  | raw =>
      show handleSingleRaw external cfg state schedule request = _
      rw [handleSingleRaw, entered]
  | parsed =>
      show handleSingleParsed external cfg state schedule request = _
      rw [handleSingleParsed, entered]

/-- Past the first stage either handler forwards. -/
theorem run_of_forward (handler : Handler) (schedule : Schedule) {external : External}
    {cfg : Config} {state passed : AppState} {request : Json} {method : String}
    (entered : beforeForward external cfg state schedule.checkAt schedule.answers request =
      (passed, .inr method)) :
    let forwarded := forwardCore external cfg passed schedule request (requestId request) method
    handler.run external cfg state schedule request =
      { state := forwarded.state
        response := handler.package external (requestId request) forwarded.result
        forwarded := some forwarded } := by
  cases handler with
  | raw =>
      show handleSingleRaw external cfg state schedule request = _
      rw [handleSingleRaw, entered]
      rfl
  | parsed =>
      show handleSingleParsed external cfg state schedule request = _
      rw [handleSingleParsed, entered]
      rfl

end Disburse
