import Disburse.Proxy.Forward

/-!
Owns what a reply can be: which exchange a forwarding surfaces, and when the
body given to the client is a JSON-RPC response to its request.
-/

namespace Disburse

open Disburse.Library

/-! ### Which exchange is surfaced -/

/-- How a forwarding ends, by the exchanges of its attempts: cut by the deadline,
with an error of its own and no attempt, or with the outcome of the last one. -/
inductive Surfaces (external : External) (cfg : Config) (id : Json) :
    List Exchange → Option ForwardResult → Prop where
  | cut (answered : List Exchange) : Surfaces external cfg id answered none
  | unattempted (code : ErrorCode) (message : String) (lastUpstream : Option String) :
      Surfaces external cfg id [] (some (.err (jsonrpcError id code message) lastUpstream))
  | failed (earlier : List Exchange) (last : Exchange) (upstream : Upstream) (error : Json)
      (lastUpstream : Option String)
      (outcome : attemptOutcome external cfg upstream id last = .err error) :
      Surfaces external cfg id (earlier ++ [last]) (some (.err error lastUpstream))
  | succeeded (earlier : List Exchange) (last : Exchange) (upstream : Upstream) (bytes : Bytes)
      (contentType : Option String) (name : String)
      (outcome : attemptOutcome external cfg upstream id last = .ok bytes contentType) :
      Surfaces external cfg id (earlier ++ [last]) (some (.ok bytes contentType name))

/-- The loop's last error is the outcome of the last attempt. -/
def LastErrorMatches (external : External) (cfg : Config) (id : Json) (loop : ForwardLoop) : Prop :=
  (loop.answered = [] ∧ loop.lastError = none) ∨
    ∃ earlier last upstream error, loop.answered = earlier ++ [last] ∧
      attemptOutcome external cfg upstream id last = .err error ∧ loop.lastError = some error

/-- Every exchange comes from the schedule. -/
def FromSchedule (schedule : Schedule) (answered : List Exchange) : Prop :=
  ∀ exchange ∈ answered, ∃ place, exchange = (schedule.attempts place).exchange

theorem startAttempt_loop {cfg : Config} {state started : AppState} {now : Instant}
    {method : String} {loop next : ForwardLoop} {flight : InFlight} {draws : Nat → Nat}
    (start : startAttempt cfg state now method loop draws = (started, some (next, flight))) :
    next.answered = loop.answered ∧ next.lastError = loop.lastError := by
  unfold startAttempt at start
  split at start
  · cases start
  · rw [Prod.mk.injEq, Option.some_inj, Prod.mk.injEq] at start
    rw [← start.2.1]
    exact ⟨rfl, rfl⟩

theorem surfaces_exhausted {external : External} {cfg : Config} {id : Json} {loop : ForwardLoop}
    (tracked : LastErrorMatches external cfg id loop) :
    Surfaces external cfg id loop.answered (some (loop.exhausted id)) := by
  rcases tracked with ⟨empty, noError⟩ | ⟨earlier, last, upstream, error, answered, outcome,
    lastError⟩
  · rw [empty, ForwardLoop.exhausted, noError]
    exact .unattempted _ _ _
  · rw [answered, ForwardLoop.exhausted, lastError]
    exact .failed earlier last upstream error _ outcome

theorem forwardLoop_surfaces {external : External} {cfg : Config} {schedule : Schedule}
    {id : Json} {method : String} (remaining : Nat) (state : AppState) (loop : ForwardLoop)
    (tracked : LastErrorMatches external cfg id loop)
    (scheduled : FromSchedule schedule loop.answered) :
    let forwarded := forwardLoop external cfg schedule id method remaining state loop
    Surfaces external cfg id forwarded.answered forwarded.result ∧
      FromSchedule schedule forwarded.answered := by
  induction remaining generalizing state loop with
  | zero => exact ⟨surfaces_exhausted tracked, scheduled⟩
  | succ remaining inductionHypothesis =>
      rw [forwardLoop]
      dsimp only
      split
      · exact ⟨surfaces_exhausted tracked, scheduled⟩
      · rename_i started next flight start
        obtain ⟨answered, lastError⟩ := startAttempt_loop start
        have nextScheduled : FromSchedule schedule (next.answered ++
            [(schedule.attempts loop.answered.length).exchange]) := by
          intro exchange member
          rcases List.mem_append.mp member with before | new
          · rw [answered] at before
            exact scheduled exchange before
          · exact ⟨_, List.mem_singleton.mp new⟩
        split
        · rw [answered]
          exact ⟨.cut _, scheduled⟩
        · rw [fireOnce_outcome]
          cases outcome : attemptOutcome external cfg flight.upstream id
              (schedule.attempts loop.answered.length).exchange with
          | ok bytes contentType =>
              exact ⟨.succeeded _ _ flight.upstream bytes contentType _ outcome, nextScheduled⟩
          | err error =>
              exact inductionHypothesis _ _
                (Or.inr ⟨next.answered, _, flight.upstream, error, rfl, outcome, rfl⟩)
                nextScheduled

theorem forwardCore_surfaces (external : External) (cfg : Config) (state : AppState)
    (schedule : Schedule) (request id : Json) (method : String) :
    let forwarded := forwardCore external cfg state schedule request id method
    Surfaces external cfg id forwarded.answered forwarded.result ∧
      FromSchedule schedule forwarded.answered := by
  have noAttempts : FromSchedule schedule [] := by
    intro exchange member
    cases member
  unfold forwardCore
  split
  · exact ⟨.unattempted _ _ _, noAttempts⟩
  · exact forwardLoop_surfaces _ _ _ (Or.inl ⟨rfl, rfl⟩) noAttempts

/-! ### JSON-RPC responses -/

/-- A JSON-RPC response to the request with this id: an object that echoes the
id and has exactly one of `result` and `error`. -/
structure IsResponse (id value : Json) : Prop where
  object : value.isObject = true
  echoes : value.get "id" = some id
  one : (value.get "result").isSome ≠ (value.get "error").isSome

theorem isResponse_jsonrpcError (id : Json) (code : ErrorCode) (message : String) :
    IsResponse id (jsonrpcError id code message) :=
  ⟨rfl, rfl, by simp⟩

/-- The exchange delivered this body, within the limit, with this status. -/
def Delivered (cfg : Config) (exchange : Exchange) (status : Nat) (bytes : Bytes) : Prop :=
  ∃ response contentType, exchange = .ok response ∧
    readBytesLimited response cfg.maxResponseBodyBytes = .ok (status, contentType, bytes)

/-- Bodies delivered with a success status are responses to the request. -/
def Trusted (external : External) (cfg : Config) (id : Json) (exchange : Exchange) : Prop :=
  ∀ status bytes, Delivered cfg exchange status bytes → isSuccessStatus status = true →
    ∃ value, external.fromSlice bytes = some value ∧ IsResponse id value

/-- No attempt delivered a body with a success status: each had another status
or failed on the way. -/
def NoneSucceeded (cfg : Config) (answered : List Exchange) : Prop :=
  ∀ exchange ∈ answered, ∀ status bytes, Delivered cfg exchange status bytes →
    isSuccessStatus status = false

/-- The value a client reads from a response. -/
def replyValue (external : External) : Response → Option Json
  | .json value => some value
  | .bytes body _ => external.fromSlice body

/-- The attempts of a call that ended. -/
def Handled.answered (handled : Handled) : List Exchange :=
  (handled.forwarded.map Forwarding.answered).getD []

/-- What a client relies on: the reply is a response to the request, and an
error when no attempt delivered a body with a success status. -/
def RepliesWell (external : External) (cfg : Config) (id : Json) (handled : Handled) : Prop :=
  ∃ value, replyValue external handled.response = some value ∧ IsResponse id value ∧
    (NoneSucceeded cfg handled.answered → (value.get "error").isSome = true)

/-- If the loop was not cut by the deadline and its last attempt delivered a JSON
body under another status than success, that body is itself a response to the
request, and an error when no attempt had a success status. -/
def RefusalResponds (external : External) (cfg : Config) (id : Json) (forwarded : Forwarding) :
    Prop :=
  forwarded.result.isSome = true → ∀ earlier last status bytes value,
    forwarded.answered = earlier ++ [last] → Delivered cfg last status bytes →
    isSuccessStatus status = false → external.fromSlice bytes = some value →
      IsResponse id value ∧
        (NoneSucceeded cfg forwarded.answered → (value.get "error").isSome = true)

/-- The ways an attempt fails: with an error of the proxy, with a trusted body
in which the byte scan saw an error, or with a body under another status. -/
theorem attemptOutcome_err {external : External} {cfg : Config} {upstream : Upstream}
    {id error : Json} {exchange : Exchange}
    (outcome : attemptOutcome external cfg upstream id exchange = .err error) :
    (∃ code message, error = jsonrpcError id code message) ∨
      ∃ status bytes, Delivered cfg exchange status bytes ∧
        external.fromSlice bytes = some error := by
  unfold attemptOutcome at outcome
  split at outcome
  · exact Or.inl ⟨_, _, (AttemptOutcome.err.inj outcome).symm⟩
  · rename_i response
    split at outcome
    · exact Or.inl ⟨_, _, (AttemptOutcome.err.inj outcome).symm⟩
    · exact Or.inl ⟨_, _, (AttemptOutcome.err.inj outcome).symm⟩
    · rename_i status contentType bytes read
      split at outcome
      · cases outcome
      · have surfaced := AttemptOutcome.err.inj outcome
        cases parsed : external.fromSlice bytes with
        | none =>
            rw [parsed] at surfaced
            exact Or.inl ⟨_, _, surfaced.symm⟩
        | some value =>
            rw [parsed] at surfaced
            rw [← surfaced]
            exact Or.inr ⟨status, bytes, ⟨response, contentType, rfl, read⟩, parsed⟩

theorem attemptOutcome_ok {external : External} {cfg : Config} {upstream : Upstream} {id : Json}
    {exchange : Exchange} {bytes : Bytes} {contentType : Option String}
    (outcome : attemptOutcome external cfg upstream id exchange = .ok bytes contentType) :
    ∃ status, Delivered cfg exchange status bytes ∧ isSuccessStatus status = true := by
  unfold attemptOutcome at outcome
  split at outcome
  · cases outcome
  · rename_i response
    split at outcome
    · cases outcome
    · cases outcome
    · rename_i status _ body read
      split at outcome
      · rename_i success
        rw [AttemptOutcome.ok.injEq] at outcome
        rw [← outcome.1]
        rw [Bool.and_eq_true] at success
        exact ⟨status, ⟨response, _, rfl, read⟩, success.1⟩
      · cases outcome

theorem delivered_unique {cfg : Config} {exchange : Exchange} {status other : Nat}
    {bytes body : Bytes} (first : Delivered cfg exchange status bytes)
    (second : Delivered cfg exchange other body) : status = other ∧ bytes = body := by
  rcases first with ⟨response, _, rfl, read⟩
  rcases second with ⟨_, _, same, readAgain⟩
  cases same
  rw [read, Except.ok.injEq, Prod.mk.injEq, Prod.mk.injEq] at readAgain
  exact ⟨readAgain.1, readAgain.2.2⟩

/-- A JSON body under another status than success is surfaced as it is. -/
theorem attemptOutcome_refusal {external : External} {cfg : Config} {id value : Json}
    {exchange : Exchange} {status : Nat} {bytes : Bytes} (upstream : Upstream)
    (delivered : Delivered cfg exchange status bytes) (refused : isSuccessStatus status = false)
    (parsed : external.fromSlice bytes = some value) :
    attemptOutcome external cfg upstream id exchange = .err value := by
  rcases delivered with ⟨response, contentType, rfl, read⟩
  unfold attemptOutcome
  dsimp only
  rw [read]
  simp [refused, parsed]

theorem not_noneSucceeded {cfg : Config} {answered : List Exchange} {exchange : Exchange}
    {status : Nat} {bytes : Bytes} (member : exchange ∈ answered)
    (delivered : Delivered cfg exchange status bytes) (success : isSuccessStatus status = true) :
    ¬ NoneSucceeded cfg answered := by
  intro noneSucceeded
  have unsuccessful := noneSucceeded exchange member status bytes delivered
  rw [success] at unsuccessful
  cases unsuccessful

/-- The condition on the last attempt, for a loop that ended by itself. -/
theorem refusalResponds_snoc {external : External} {cfg : Config} {id : Json} {state : AppState}
    {result : ForwardResult} {earlier : List Exchange} {last : Exchange} :
    RefusalResponds external cfg id
        { state := state, result := some result, answered := earlier ++ [last] } ↔
      ∀ status bytes value, Delivered cfg last status bytes → isSuccessStatus status = false →
        external.fromSlice bytes = some value → IsResponse id value ∧
          (NoneSucceeded cfg (earlier ++ [last]) → (value.get "error").isSome = true) := by
  constructor
  · intro condition status bytes value
    exact condition rfl earlier last status bytes value rfl
  · intro condition _ before final status bytes value ended
    have same : last = final := List.singleton_inj.mp (List.append_inj_right' ended rfl)
    rw [← same]
    exact condition status bytes value

/-- The error of a failed last attempt is a good reply exactly when its body, if
it is surfaced, is one. -/
theorem surfaced_error_iff {external : External} {cfg : Config} {id error : Json}
    {upstream : Upstream} {answered : List Exchange} {last : Exchange} (member : last ∈ answered)
    (trusted : Trusted external cfg id last)
    (outcome : attemptOutcome external cfg upstream id last = .err error) :
    (IsResponse id error ∧
        (NoneSucceeded cfg answered → (error.get "error").isSome = true)) ↔
      ∀ status bytes value, Delivered cfg last status bytes → isSuccessStatus status = false →
        external.fromSlice bytes = some value → IsResponse id value ∧
          (NoneSucceeded cfg answered → (value.get "error").isSome = true) := by
  constructor
  · intro replies status bytes value delivered refused parsed
    rw [attemptOutcome_refusal upstream delivered refused parsed,
      AttemptOutcome.err.injEq] at outcome
    rw [outcome]
    exact replies
  · intro condition
    rcases attemptOutcome_err outcome with ⟨code, message, rfl⟩ | ⟨status, bytes, delivered, parsed⟩
    · exact ⟨isResponse_jsonrpcError id code message, fun _ => rfl⟩
    · cases success : isSuccessStatus status with
      | false => exact condition status bytes error delivered success parsed
      | true =>
          obtain ⟨value, again, response⟩ := trusted status bytes delivered success
          rw [parsed, Option.some_inj] at again
          rw [again]
          exact ⟨response, fun noneSucceeded =>
            absurd noneSucceeded (not_noneSucceeded member delivered success)⟩

/-- The reply of a forwarding is a good one exactly when its last refusal is. -/
theorem package_replies_iff {external : External} {cfg : Config} {id : Json}
    {forwarded : Forwarding} (handler : Handler)
    (surfaces : Surfaces external cfg id forwarded.answered forwarded.result)
    (trusted : ∀ exchange ∈ forwarded.answered, Trusted external cfg id exchange) :
    (∃ value, replyValue external (handler.package external id forwarded.result) = some value ∧
        IsResponse id value ∧
        (NoneSucceeded cfg forwarded.answered → (value.get "error").isSome = true)) ↔
      RefusalResponds external cfg id forwarded := by
  rcases forwarded with ⟨state, result, answered⟩
  dsimp only at surfaces trusted ⊢
  cases surfaces with
  | cut =>
      refine iff_of_true ⟨deadlineError id, by cases handler <;> rfl,
        isResponse_jsonrpcError _ _ _, fun _ => rfl⟩ ?_
      intro finished
      cases finished
  | unattempted code message lastUpstream =>
      refine iff_of_true ⟨_, by cases handler <;> rfl, isResponse_jsonrpcError id code message,
        fun _ => rfl⟩ ?_
      intro _ earlier last _ _ _ ended
      simp at ended
  | failed earlier last upstream error lastUpstream outcome =>
      have reply : replyValue external
          (handler.package external id (some (.err error lastUpstream))) = some error := by
        cases handler <;> rfl
      have member : last ∈ earlier ++ [last] := by simp
      rw [reply, refusalResponds_snoc,
        ← surfaced_error_iff member (trusted last member) outcome]
      simp only [Option.some_inj, exists_eq_left']
  | succeeded earlier last upstream bytes contentType name outcome =>
      obtain ⟨status, delivered, success⟩ := attemptOutcome_ok outcome
      have member : last ∈ earlier ++ [last] := by simp
      obtain ⟨value, parsed, response⟩ := trusted last member status bytes delivered success
      refine iff_of_true ⟨value, ?_, response, fun noneSucceeded =>
        absurd noneSucceeded (not_noneSucceeded member delivered success)⟩ ?_
      · cases handler with
        | raw => exact parsed
        | parsed =>
            show some ((external.fromSlice bytes).getD _) = _
            rw [parsed]
            rfl
      · rw [refusalResponds_snoc]
        intro other body _ deliveredAgain refused _
        rw [← (delivered_unique delivered deliveredAgain).1, success] at refused
        cases refused

/-- A request with a method is rejected as stale, or its reply is the end of a
forwarding over exchanges of the schedule. -/
theorem run_surfaces (external : External) (cfg : Config) (state : AppState) (handler : Handler)
    (schedule : Schedule) (request : Json) {method : String}
    (named : request.get "method" = some (.string method)) :
    let id := requestId request
    let handled := handler.run external cfg state schedule request
    (handled.response = .json (staleError id) ∧ handled.forwarded = none) ∨
      ∃ forwarded, handled.response = handler.package external id forwarded.result ∧
        handled.forwarded = some forwarded ∧
        Surfaces external cfg id forwarded.answered forwarded.result ∧
        FromSchedule schedule forwarded.answered := by
  dsimp only
  rcases entered : beforeForward external cfg state schedule.checkAt schedule.answers request with
    ⟨after, entry⟩
  cases entry with
  | inl reply =>
      have stale : reply = staleError (requestId request) :=
        (beforeForward_left _ _ _ _ _ _).2 reply method (by rw [entered]) named
      rw [run_of_reply handler schedule entered, stale]
      exact Or.inl ⟨rfl, rfl⟩
  | inr method =>
      rw [run_of_forward handler schedule entered]
      have core := forwardCore_surfaces external cfg after schedule request (requestId request)
        method
      exact Or.inr ⟨_, rfl, rfl, core⟩

/-- Every reply is a response to its request exactly when the body of a last
attempt with another status than success, if it is JSON, is one. -/
theorem repliesWell_iff (external : External) (cfg : Config) (state : AppState)
    (handler : Handler) (schedule : Schedule) (request : Json) (method : String)
    (named : request.get "method" = some (.string method))
    (trusted : ∀ place,
      Trusted external cfg (requestId request) (schedule.attempts place).exchange) :
    let handled := handler.run external cfg state schedule request
    RepliesWell external cfg (requestId request) handled ↔
      ∀ forwarded, handled.forwarded = some forwarded →
        RefusalResponds external cfg (requestId request) forwarded := by
  dsimp only
  have run := run_surfaces external cfg state handler schedule request named
  unfold RepliesWell Handled.answered
  rcases run with ⟨response, unforwarded⟩ | ⟨forwarded, response, reached, surfaces, scheduled⟩
  · rw [response, unforwarded]
    refine iff_of_true ⟨_, rfl, isResponse_jsonrpcError _ _ _, fun _ => rfl⟩ ?_
    intro forwarded reached
    cases reached
  · have trustedAll : ∀ exchange ∈ forwarded.answered,
        Trusted external cfg (requestId request) exchange := by
      intro exchange member
      obtain ⟨place, same⟩ := scheduled exchange member
      rw [same]
      exact trusted place
    have replies := package_replies_iff handler surfaces trustedAll
    rw [response, reached, Option.map_some, Option.getD_some, replies]
    simp only [Option.some_inj, forall_eq']

/-! ### A refusal that is not a response -/

def getSlotRequest : Json :=
  .object [("id", .number (.posInt 7)), ("method", .string "getSlot")]

/-- The body `{"message":"rate limited"}`. -/
def rateLimitBody : Bytes :=
  [123, 34, 109, 101, 115, 115, 97, 103, 101, 34, 58, 34, 114, 97, 116, 101, 32, 108, 105, 109,
    105, 116, 101, 100, 34, 125]

/-- A parser that knows this body. -/
def External.rateLimited : External :=
  { External.plain with
    fromSlice := fun bytes =>
      if bytes = rateLimitBody then some (.object [("message", .string "rate limited")]) else none }

/-- Every upstream answers with one status and one body. -/
def uniformSchedule (status : Nat) (body : Bytes) : Schedule where
  checkAt := 0
  answers := fun _ => none
  attempts := fun _ =>
    { before := id
      selectAt := 0
      draws := fun _ => 0
      meanwhile := id
      exchange := .ok { status, contentType := none, contentLength := none, chunks := [.ok body] }
      latencyMs := 5
      doneAt := 5000000 }
  deadline := none

theorem trusted_of_refused (external : External) (cfg : Config) (id : Json) {status : Nat}
    (body : Bytes) (refused : isSuccessStatus status = false) (place : Nat) :
    Trusted external cfg id ((uniformSchedule status body).attempts place).exchange := by
  intro other bytes delivered success
  rcases delivered with ⟨response, contentType, same, read⟩
  cases same
  unfold readBytesLimited at read
  split at read
  · cases read
  · split at read
    · cases read
    · cases read
      rw [refused] at success
      cases success

theorem repliesWell_iff_rateLimited :
    let handled := handleSingleParsed .rateLimited .deployment (.start .deployment 0)
      (uniformSchedule 503 []) getSlotRequest
    RepliesWell .rateLimited .deployment (requestId getSlotRequest) handled ↔
      ∀ forwarded, handled.forwarded = some forwarded →
        RefusalResponds .rateLimited .deployment (requestId getSlotRequest) forwarded :=
  repliesWell_iff .rateLimited .deployment (.start .deployment 0) .parsed
    (uniformSchedule 503 []) getSlotRequest "getSlot" rfl
    (trusted_of_refused _ _ _ _ (by decide))

theorem not_repliesWell_of_no_id {external : External} {cfg : Config} {id : Json}
    {handled : Handled}
    (missing : ((replyValue external handled.response).bind fun value => value.get "id").isSome =
      false) : ¬ RepliesWell external cfg id handled := by
  intro replies
  rcases replies with ⟨value, reply, response, _⟩
  rw [reply, Option.bind_some, response.echoes] at missing
  cases missing

/-- When every upstream answers 429 with `{"message":"rate limited"}`, both
handlers give that object to the client: no id, no error. -/
theorem rateLimited_reply :
    (∀ place, Trusted .rateLimited .deployment (requestId getSlotRequest)
        ((uniformSchedule 429 rateLimitBody).attempts place).exchange) ∧
      ¬ RepliesWell .rateLimited .deployment (requestId getSlotRequest)
        (handleSingleRaw .rateLimited .deployment (.start .deployment 0)
          (uniformSchedule 429 rateLimitBody) getSlotRequest) ∧
      ¬ RepliesWell .rateLimited .deployment (requestId getSlotRequest)
        (handleSingleParsed .rateLimited .deployment (.start .deployment 0)
          (uniformSchedule 429 rateLimitBody) getSlotRequest) :=
  ⟨trusted_of_refused _ _ _ _ (by decide),
    not_repliesWell_of_no_id (by decide +kernel), not_repliesWell_of_no_id (by decide +kernel)⟩

end Disburse
