import Disburse.Proxy.Batch
import Disburse.Proxy.Progress

/-!
Owns the HTTP side of `handle_rpc`: the calls that clients make, each with one
request or a batch, the requests in the traffic that serve a call, the joined
reply, its trace id, and the access log. A disconnect drops all requests of a
call at once, where each of them waits.

Calls are named by their place in `calls`; the requests of a call stand side by
side in the traffic. Latencies are left out of the log.
-/

namespace Disburse

open Disburse.Library

/-! ### Trace ids -/

/-- Of the `http` crate: `HeaderValue::to_str` and `HeaderValue::from_str`. -/
structure HeaderText where
  toStr : Bytes → Option String
  fromStr : String → Option Bytes

/-- `HeaderMap::get`. -/
abbrev Headers := String → Option Bytes

/-- The trace id of a call: what the client sent if it can be used, else the
fresh one. -/
def traceId (text : HeaderText) (headers : Headers) (fresh : String) : String :=
  let given := (headers "x-trace-id").or (headers "x-request-id")
  ((given.bind text.toStr).filter fun id => id != "" && id.utf8ByteSize ≤ 128).getD fresh

/-! ### The access log -/

structure LogLine where
  method : String
  upstream : String
  status : String
deriving DecidableEq, Repr

def accessLog (method : String) (upstream : Option String) (status : String) : LogLine :=
  { method := method, upstream := upstream.getD "-", status := status }

/-- The line for the end of a forwarding. -/
def logLine (method : String) : Option ForwardResult → LogLine
  | some (.ok _ _ upstream) => accessLog method (some upstream) "ok"
  | some (.err _ lastUpstream) => accessLog method lastUpstream "error"
  | none => accessLog method none "deadline"

/-- The end of the forwarding that an event brings about, if it does. -/
def Task.ending (cfg : Config) (state : AppState) (task : Task) (event : SystemEvent) :
    Option (Option ForwardResult) :=
  match task.phase, event with
  | .selecting, .attempt _ draws now =>
      let exhausted := some (some (task.loop.exhausted (requestId task.request)))
      match task.remaining with
      | 0 => exhausted
      | _ + 1 =>
          match (startAttempt cfg state now task.method task.loop draws).2 with
          | none => exhausted
          | some _ => none
  | .awaiting _, .deadline _ => some none
  | .settling flight exchange outcome, .settle _ _ =>
      (task.loop.next cfg flight.upstream.name exchange outcome).2.map some
  | _, _ => none

/-- The end of a forwarding that does not get to its first attempt. -/
def Task.unsent (external : External) (task : Task) : Option (Option ForwardResult) :=
  match external.toVec task.request with
  | none => some (some (unserializable (requestId task.request)))
  | some _ => none

/-- The same for a request that comes to a checkpoint. -/
def Task.checked (external : External) (task : Task) : Checkpoint → Option (Option ForwardResult)
  | .passed => task.unsent external
  | .rejected _ | .asking _ => none

def Caller.ending (external : External) (cfg : Config) (state : AppState) (caller : Caller)
    (event : TrafficEvent) : Option (Option ForwardResult) :=
  match caller, event with
  | .running task, .start _ now =>
      match (task.request.get "method").bind Json.asStr with
      | none => none
      | some method =>
          if method = "sendTransaction" then
            task.checked external
              (beginCheck external cfg state now task.request (requestId task.request)).2
          else task.unsent external
  | .verifying task verification, .vote _ answer =>
      task.checked external (verification.resume state (requestId task.request) answer).2
  | .running task, .other event => task.ending cfg state event
  | _, _ => none

def requestMethod (request : Json) : String :=
  ((request.get "method").bind Json.asStr).getD ""

/-- The lines that a step of the traffic writes, with the place of the request. -/
def Traffic.logged (external : External) (cfg : Config) (traffic : Traffic)
    (event : TrafficEvent) : List (Nat × LogLine) :=
  match event.caller with
  | none => []
  | some place =>
      match traffic.callers[place]? with
      | none => []
      | some caller =>
          match caller.ending external cfg traffic.state event with
          | none => []
          | some result => [(place, logLine (requestMethod caller.serves.2) result)]

/-! ### Calls -/

structure HttpReply where
  response : Response
  /-- The `x-trace-id` header. -/
  traceId : Option Bytes

inductive CallStatus where
  | waiting
  | answered (reply : HttpReply)
  | dropped

structure Call where
  payload : Json
  traceId : String
  /-- The place of its first request in the traffic. -/
  first : Nat
  status : CallStatus

/-- The requests of a payload: the elements of a batch, or the payload itself. -/
def payloadRequests (payload : Json) : List (Handler × Json) :=
  match payload.asArray with
  | some requests => requests.map fun request => (.parsed, request)
  | none => [(.raw, payload)]

def Call.places (call : Call) : List Nat :=
  List.range' call.first (payloadRequests call.payload).length

/-- What a batch takes of the response to an element. -/
def Response.value : Response → Json
  | .json value => value
  | .bytes _ _ => .null

/-- The response to a payload from those to its requests. -/
def assemble (payload : Json) (responses : List Response) : Option Response :=
  match payload.asArray with
  | some _ => some (.json (.array (responses.map Response.value)))
  | none => responses.head?

namespace Traffic

def replyAt (traffic : Traffic) (place : Nat) : Option Response :=
  traffic.callers[place]?.bind Caller.reply

/-- `join_all`: the replies at these places, once all are there. -/
def joinAll (traffic : Traffic) : List Nat → Option (List Response)
  | [] => some []
  | place :: rest =>
      (traffic.replyAt place).bind fun response =>
        (traffic.joinAll rest).map fun responses => response :: responses

def endedAt (traffic : Traffic) (place : Nat) : Bool :=
  traffic.callers[place]?.any Caller.ended

/-- The requests at these places are dropped, one after another. -/
def dropAll (external : External) (cfg : Config) : Traffic → List Nat → Option Traffic
  | traffic, [] => some traffic
  | traffic, place :: rest =>
      (traffic.step external cfg (.other (.disconnect place))).bind fun next =>
        dropAll external cfg next rest

end Traffic

structure Front where
  traffic : Traffic
  calls : List Call
  /-- The access log, with the place of the request each line is about. -/
  log : List (Nat × LogLine)

inductive FrontEvent where
  | post (headers : Headers) (fresh : String) (payload : Json)
  | progress (event : TrafficEvent)
  /-- All requests of a call have their replies. -/
  | deliver (call : Nat)
  /-- The client of a call disconnects. -/
  | hangUp (call : Nat)

namespace Front

def post (text : HeaderText) (cfg : Config) (front : Front) (headers : Headers) (fresh : String)
    (payload : Json) : Front :=
  { front with
    traffic := { front.traffic with
      callers := front.traffic.callers ++ (payloadRequests payload).map fun entry =>
        .running (.arrive cfg entry.1 entry.2) }
    calls := front.calls ++ [{
      payload := payload
      traceId := Disburse.traceId text headers fresh
      first := front.traffic.callers.length
      status := .waiting }] }

/-- The call that waits at this place. -/
def waitingAt (front : Front) (place : Nat) : Option Call :=
  front.calls[place]?.bind fun call =>
    match call.status with
    | .waiting => some call
    | .answered _ | .dropped => none

def setStatus (front : Front) (place : Nat) (call : Call) (status : CallStatus) : Front :=
  { front with calls := front.calls.set place { call with status := status } }

def step (external : External) (text : HeaderText) (cfg : Config) (front : Front) :
    FrontEvent → Option Front
  | .post headers fresh payload => some (front.post text cfg headers fresh payload)
  | .progress event =>
      if event.internal then
        (front.traffic.step external cfg event).map fun traffic =>
          { front with
            traffic := traffic
            log := front.log ++ front.traffic.logged external cfg event }
      else none
  | .deliver place =>
      (front.waitingAt place).bind fun call =>
        ((front.traffic.joinAll call.places).bind (assemble call.payload)).map fun response =>
          front.setStatus place call
            (.answered { response := response, traceId := text.fromStr call.traceId })
  | .hangUp place =>
      (front.waitingAt place).bind fun call =>
        (front.traffic.dropAll external cfg
          (call.places.filter fun place => !front.traffic.endedAt place)).map fun traffic =>
            { front with traffic := traffic }.setStatus place call .dropped

/-- The proxy started at `startedAt`. -/
def machine (external : External) (text : HeaderText) (cfg : Config) (startedAt : Instant) :
    Machine Front FrontEvent :=
  { init := { traffic := (Traffic.machine external cfg startedAt).init, calls := [], log := [] }
    step := step external text cfg }

end Front

/-! ### The traffic under the calls -/

namespace Front

section Refines

variable {external : External} {text : HeaderText} {cfg : Config} {startedAt : Instant}
  {front next : Front}

theorem dropAll_eq_execFrom (startedAt : Instant) (traffic : Traffic) (places : List Nat) :
    traffic.dropAll external cfg places =
      (Traffic.machine external cfg startedAt).execFrom traffic
        (places.map fun place => .other (.disconnect place)) := by
  induction places generalizing traffic with
  | nil => rfl
  | cons place rest inductionHypothesis =>
      rw [Traffic.dropAll, List.map_cons, Machine.execFrom_cons]
      show (traffic.step external cfg (.other (.disconnect place))).bind _ =
        (traffic.step external cfg (.other (.disconnect place))).bind _
      simp only [inductionHypothesis]

/-- The requests of a payload arrive one after another. -/
theorem arrive_eq_execFrom (startedAt : Instant) (traffic : Traffic)
    (requests : List (Handler × Json)) :
    (Traffic.machine external cfg startedAt).execFrom traffic
        (requests.map fun entry => .other (.arrive entry.1 entry.2)) =
      some { traffic with
        callers := traffic.callers ++ requests.map fun entry =>
          .running (.arrive cfg entry.1 entry.2) } := by
  induction requests generalizing traffic with
  | nil =>
      rw [List.map_nil, List.map_nil, List.append_nil]
      rfl
  | cons entry rest inductionHypothesis =>
      rw [List.map_cons, Machine.execFrom_cons]
      show (Traffic.machine external cfg startedAt).execFrom { traffic with
        callers := traffic.callers ++ [.running (.arrive cfg entry.1 entry.2)] } _ = _
      rw [inductionHypothesis]
      simp

theorem waitingAt_eq_some {place : Nat} {call : Call} :
    front.waitingAt place = some call ↔
      front.calls[place]? = some call ∧ call.status = .waiting := by
  unfold waitingAt
  rw [Option.bind_eq_some_iff]
  constructor
  · rintro ⟨found, present, waits⟩
    cases status : found.status with
    | waiting =>
        simp only [status, Option.some_inj] at waits
        subst waits
        exact ⟨present, status⟩
    | answered reply => simp [status] at waits
    | dropped => simp [status] at waits
  · rintro ⟨present, waits⟩
    exact ⟨call, present, by simp only [waits]⟩

/-- What a step at the front does: a post brings in its requests, a request works
on, a call whose requests are all answered gets its reply, and a client that hangs
up drops the requests that are left. -/
inductive Moves (external : External) (text : HeaderText) (cfg : Config) (front : Front) :
    FrontEvent → Front → Prop where
  | posts (headers : Headers) (fresh : String) (payload : Json) :
      Moves external text cfg front (.post headers fresh payload)
        (front.post text cfg headers fresh payload)
  | works (event : TrafficEvent) (traffic : Traffic) (internal : event.internal = true)
      (taken : front.traffic.step external cfg event = some traffic) :
      Moves external text cfg front (.progress event)
        { front with
          traffic := traffic
          log := front.log ++ front.traffic.logged external cfg event }
  | delivers (place : Nat) (call : Call) (response : Response)
      (found : front.calls[place]? = some call) (waiting : call.status = .waiting)
      (whole : (front.traffic.joinAll call.places).bind (assemble call.payload) = some response) :
      Moves external text cfg front (.deliver place)
        (front.setStatus place call
          (.answered { response := response, traceId := text.fromStr call.traceId }))
  | hangsUp (place : Nat) (call : Call) (traffic : Traffic)
      (found : front.calls[place]? = some call) (waiting : call.status = .waiting)
      (taken : front.traffic.dropAll external cfg
        (call.places.filter fun place => !front.traffic.endedAt place) = some traffic) :
      Moves external text cfg front (.hangUp place)
        ({ front with traffic := traffic }.setStatus place call .dropped)

theorem step_moves {event : FrontEvent}
    (stepped : front.step external text cfg event = some next) :
    front.Moves external text cfg event next := by
  cases event with
  | post headers fresh payload =>
      rw [step, Option.some_inj] at stepped
      exact stepped ▸ .posts headers fresh payload
  | progress event =>
      rw [step, Option.ite_none_right_eq_some] at stepped
      obtain ⟨traffic, taken, rfl⟩ := Option.map_eq_some_iff.mp stepped.2
      exact .works event traffic stepped.1 taken
  | deliver place =>
      obtain ⟨call, waits, joined⟩ := Option.bind_eq_some_iff.mp stepped
      obtain ⟨found, waiting⟩ := waitingAt_eq_some.mp waits
      obtain ⟨response, whole, rfl⟩ := Option.map_eq_some_iff.mp joined
      exact .delivers place call response found waiting whole
  | hangUp place =>
      obtain ⟨call, waits, dropped⟩ := Option.bind_eq_some_iff.mp stepped
      obtain ⟨found, waiting⟩ := waitingAt_eq_some.mp waits
      obtain ⟨traffic, taken, rfl⟩ := Option.map_eq_some_iff.mp dropped
      exact .hangsUp place call traffic found waiting taken

/-- Every step at the front is a run of the traffic. -/
theorem step_run {event : FrontEvent} (startedAt : Instant)
    (stepped : front.step external text cfg event = some next) :
    ∃ events, (Traffic.machine external cfg startedAt).execFrom front.traffic events =
      some next.traffic := by
  cases step_moves stepped with
  | posts headers fresh payload =>
      exact ⟨_, arrive_eq_execFrom startedAt front.traffic (payloadRequests payload)⟩
  | works event traffic _ taken =>
      refine ⟨[event], ?_⟩
      rw [Machine.execFrom_cons]
      exact (congrArg (Option.bind · _) taken).trans rfl
  | delivers => exact ⟨[], rfl⟩
  | hangsUp _ _ _ _ _ taken =>
      rw [dropAll_eq_execFrom startedAt] at taken
      exact ⟨_, taken⟩

/-- Whatever the proxy reaches with its calls, the traffic reaches. -/
theorem traffic_reachable (reached : (machine external text cfg startedAt).Reachable front) :
    (Traffic.machine external cfg startedAt).Reachable front.traffic :=
  reached.viewRun (Traffic.machine external cfg startedAt) Front.traffic rfl
    fun _ _ _ stepped => step_run startedAt stepped

end Refines

end Front

end Disburse
