import Disburse.Proxy.Server
import Disburse.Error

/-!
Owns one attempt against one upstream: reading the response within the size
limit, the byte scan for an error, and what `fire_once` records and returns.

A transport is an `Exchange`: the error of the HTTP client, or a response whose
body arrives in chunks, each of which may fail.
-/

namespace Disburse

open Disburse.Library

/-- An error of the HTTP client: its class and its text. -/
structure ReqwestError where
  isTimeout : Bool
  isConnect : Bool
  text : String
deriving DecidableEq, Repr

structure HttpResponse where
  status : Nat
  contentType : Option String
  contentLength : Option Nat
  chunks : List (Except String Bytes)

abbrev Exchange := Except ReqwestError HttpResponse

/-- `StatusCode::is_success` -/
def isSuccessStatus (status : Nat) : Bool := 200 ≤ status && status < 300

/-! ### Reading the body -/

inductive ReadError where
  | tooLarge
  | read (message : String)
deriving DecidableEq, Repr

/-- The chunk loop, with what has been buffered. -/
def readChunks (max : Nat) (buffer : Bytes) : List (Except String Bytes) → Except ReadError Bytes
  | [] => .ok buffer
  | .error message :: _ => .error (.read message)
  | .ok chunk :: rest =>
      if max < buffer.length + chunk.length then .error .tooLarge
      else readChunks max (buffer ++ chunk) rest

def readBytesLimited (response : HttpResponse) (max : Nat) :
    Except ReadError (Nat × Option String × Bytes) :=
  if response.contentLength.any fun length => max < length then .error .tooLarge
  else
    match readChunks max [] response.chunks with
    | .error failure => .error failure
    | .ok bytes => .ok (response.status, response.contentType, bytes)

/-! ### The byte scan -/

/-- `"error":` in bytes, quotes included. -/
def errorPattern : Bytes := [34, 101, 114, 114, 111, 114, 34, 58]

/-- `slice::windows` -/
def windows (size : Nat) : Bytes → List Bytes
  | [] => []
  | byte :: rest =>
      if size ≤ (byte :: rest).length then (byte :: rest).take size :: windows size rest
      else []

def containsJsonrpcError (bytes : Bytes) : Bool :=
  (windows 8 bytes).any fun window => window == errorPattern

/-! ### Errors of the HTTP client -/

/-- Strip a raw upstream URL out of an error text. -/
def sanitize (external : External) (message url : String) : String :=
  if message.contains url then message.replace url (redactUrl external url) else message

def classifyReqwestError (external : External) (failure : ReqwestError) (upstream : Upstream) :
    ErrorCode × String :=
  let redacted := redactUrl external upstream.url
  if failure.isTimeout then (.upstreamTimeout, s!"upstream {upstream.name} timed out")
  else if failure.isConnect then
    (.upstreamUnreachable, s!"upstream {upstream.name} unreachable ({redacted})")
  else
    (.internal, s!"upstream {upstream.name} failed: {sanitize external failure.text upstream.url}")

/-! ### One attempt -/

/-- On success the response bytes, on failure the error to surface if no
further attempt is made. -/
inductive AttemptOutcome where
  | ok (bytes : Bytes) (contentType : Option String)
  | err (error : Json)

def AttemptOutcome.success : AttemptOutcome → Bool
  | .ok _ _ => true
  | .err _ => false

/-- Statistics and metrics of an attempt that ended. -/
def recordOutcome (state : AppState) (upstream method : String) (latencyMs : Rat) (now : Instant)
    (success : Bool) : AppState :=
  { state with
    pool := { state.pool with
      stats := state.pool.stats.record now upstream method latencyMs success }
    metrics := state.metrics.recordRequest upstream method (if success then "ok" else "error")
      latencyMs }

def recordFailure (state : AppState) (upstream method : String) (latencyMs : Rat)
    (now : Instant) : AppState :=
  recordOutcome state upstream method latencyMs now false

/-- Feed the blockhash cache from a getLatestBlockhash response. -/
def harvest (external : External) (state : AppState) (method : String) (bytes : Bytes) :
    AppState :=
  if method = "getLatestBlockhash" then
    match external.fromSlice bytes with
    | none => state
    | some body =>
        { state with
          blockhashCache := state.blockhashCache.observe state.pool.tipSlot body }
  else state

/-- The error of a body that is not JSON. -/
def nonJsonError (id : Json) : Json :=
  jsonrpcError id .upstreamBadResponse "upstream returned non-JSON"

def fireOnce (external : External) (cfg : Config) (state : AppState) (upstream : Upstream)
    (method : String) (id : Json) (exchange : Exchange) (latencyMs : Rat) (now : Instant) :
    AppState × AttemptOutcome :=
  match exchange with
  | .error failure =>
      let (code, message) := classifyReqwestError external failure upstream
      (recordFailure state upstream.name method latencyMs now,
        .err (jsonrpcError id code message))
  | .ok response =>
      match readBytesLimited response cfg.maxResponseBodyBytes with
      | .error .tooLarge =>
          (recordFailure state upstream.name method latencyMs now,
            .err (jsonrpcError id .responseTooLarge
              "upstream response exceeded configured size limit"))
      | .error (.read message) =>
          (recordFailure state upstream.name method latencyMs now,
            .err (jsonrpcError id .upstreamBadResponse s!"upstream read failed: {message}"))
      | .ok (status, contentType, bytes) =>
          let success := isSuccessStatus status && !containsJsonrpcError bytes
          let recorded := recordOutcome state upstream.name method latencyMs now success
          if success then (harvest external recorded method bytes, .ok bytes contentType)
          else (recorded, .err ((external.fromSlice bytes).getD (nonJsonError id)))

/-! ### What an attempt records -/

/-- Every attempt that ends records its outcome once, in the statistics and in
the metrics, and touches nothing else but the blockhash cache. -/
structure RecordedOnce (upstream method : String) (latencyMs : Rat) (now : Instant)
    (success : Bool) (before after : AppState) : Prop where
  pool : after.pool = { before.pool with
    stats := before.pool.stats.record now upstream method latencyMs success }
  metrics : after.metrics = before.metrics.recordRequest upstream method
    (if success then "ok" else "error") latencyMs

theorem harvest_pool (external : External) (state : AppState) (method : String) (bytes : Bytes) :
    (harvest external state method bytes).pool = state.pool := by
  unfold harvest
  split
  · split <;> rfl
  · rfl

theorem harvest_metrics (external : External) (state : AppState) (method : String)
    (bytes : Bytes) : (harvest external state method bytes).metrics = state.metrics := by
  unfold harvest
  split
  · split <;> rfl
  · rfl

theorem recordedOnce_recordOutcome (state : AppState) (upstream method : String)
    (latencyMs : Rat) (now : Instant) (success : Bool) :
    RecordedOnce upstream method latencyMs now success state
      (recordOutcome state upstream method latencyMs now success) := ⟨rfl, rfl⟩

/-- The outcome of an attempt, which depends on the exchange alone. -/
def attemptOutcome (external : External) (cfg : Config) (upstream : Upstream) (id : Json)
    (exchange : Exchange) : AttemptOutcome :=
  match exchange with
  | .error failure =>
      .err (jsonrpcError id (classifyReqwestError external failure upstream).1
        (classifyReqwestError external failure upstream).2)
  | .ok response =>
      match readBytesLimited response cfg.maxResponseBodyBytes with
      | .error .tooLarge =>
          .err (jsonrpcError id .responseTooLarge
            "upstream response exceeded configured size limit")
      | .error (.read message) =>
          .err (jsonrpcError id .upstreamBadResponse s!"upstream read failed: {message}")
      | .ok (status, contentType, bytes) =>
          if isSuccessStatus status && !containsJsonrpcError bytes then .ok bytes contentType
          else .err ((external.fromSlice bytes).getD (nonJsonError id))

theorem fireOnce_outcome (external : External) (cfg : Config) (state : AppState)
    (upstream : Upstream) (method : String) (id : Json) (exchange : Exchange) (latencyMs : Rat)
    (now : Instant) :
    (fireOnce external cfg state upstream method id exchange latencyMs now).2 =
      attemptOutcome external cfg upstream id exchange := by
  cases exchange with
  | error failure => rfl
  | ok response =>
      unfold fireOnce attemptOutcome
      dsimp only
      split
      · rfl
      · rfl
      · split <;> rfl

theorem fireOnce_recorded (external : External) (cfg : Config) (state : AppState)
    (upstream : Upstream) (method : String) (id : Json) (exchange : Exchange) (latencyMs : Rat)
    (now : Instant) :
    let fired := fireOnce external cfg state upstream method id exchange latencyMs now
    RecordedOnce upstream.name method latencyMs now fired.2.success state fired.1 := by
  have recorded := recordedOnce_recordOutcome state upstream.name method latencyMs now
  unfold fireOnce
  dsimp only
  split
  · exact recorded false
  · split
    · exact recorded false
    · exact recorded false
    · rename_i status contentType bytes read
      cases verdict : isSuccessStatus status && !containsJsonrpcError bytes with
      | false => exact recorded false
      | true =>
          simp only [↓reduceIte]
          refine ⟨?_, ?_⟩
          · rw [harvest_pool, (recorded true).pool]
            rfl
          · rw [harvest_metrics, (recorded true).metrics]
            rfl

end Disburse
