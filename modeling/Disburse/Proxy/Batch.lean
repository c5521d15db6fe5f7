import Disburse.Proxy.Reply

/-!
Owns `handle_rpc`: a batch runs one parsed call for each element, any other
payload one raw call. The two handlers agree on the value of a reply but for a
success whose body is not JSON, which the raw one passes on as it is.
-/

namespace Disburse

open Disburse.Library

/-- The value of a handler that replies with one. -/
def Handled.value (handled : Handled) : Json :=
  match handled.response with
  | .json value => value
  | .bytes _ _ => .null

/-- The response to a payload. Elements of a batch run at the same time, each
from the state it finds and under its own schedule; a single request is number 0. -/
def handleRpc (external : External) (cfg : Config) (states : Nat → AppState)
    (schedules : Nat → Schedule) (payload : Json) : Response :=
  match payload.asArray with
  | some requests =>
      .json (.array (requests.mapIdx fun place request =>
        (handleSingleParsed external cfg (states place) (schedules place) request).value))
  | none => (handleSingleRaw external cfg (states 0) (schedules 0) payload).response

/-- The body of an attempt counted as a success. -/
def ForwardResult.body : ForwardResult → Option Bytes
  | .ok bytes _ _ => some bytes
  | .err _ _ => none

/-- The call ended in an attempt counted as a success whose body is not JSON. -/
def EndsUnparsed (external : External) (handled : Handled) : Prop :=
  ∃ bytes, (handled.forwarded.bind Forwarding.result).bind ForwardResult.body = some bytes ∧
    external.fromSlice bytes = none

/-! ### The two handlers -/

section Handlers

variable (external : External) (cfg : Config) (state : AppState) (schedule : Schedule)
  (request : Json)

/-- Both handlers do the same; only the packaging differs. -/
theorem raw_parsed_same :
    (handleSingleRaw external cfg state schedule request).state =
        (handleSingleParsed external cfg state schedule request).state ∧
      (handleSingleRaw external cfg state schedule request).forwarded =
        (handleSingleParsed external cfg state schedule request).forwarded := by
  rcases entered : beforeForward external cfg state schedule.checkAt schedule.answers request with
    ⟨after, reply | method⟩
  · rw [handleSingleRaw, handleSingleParsed, entered]
    exact ⟨rfl, rfl⟩
  · rw [handleSingleRaw, handleSingleParsed, entered]
    exact ⟨rfl, rfl⟩

/-- A reply that was parsed, or is JSON anyway, has one value under both handlers. -/
theorem raw_parsed_value
    (parses : ¬ EndsUnparsed external (handleSingleRaw external cfg state schedule request)) :
    replyValue external (handleSingleRaw external cfg state schedule request).response =
      some (handleSingleParsed external cfg state schedule request).value := by
  rcases entered : beforeForward external cfg state schedule.checkAt schedule.answers request with
    ⟨after, reply | method⟩
  · rw [handleSingleRaw, handleSingleParsed, entered]
    rfl
  · rw [handleSingleRaw, entered] at parses
    rw [handleSingleRaw, handleSingleParsed, entered]
    dsimp only [Handled.value]
    rcases ended : (forwardCore external cfg after schedule request (requestId request)
      method).result with _ | ⟨bytes, contentType, upstream⟩ | ⟨error, lastUpstream⟩
    · rfl
    · cases parsed : external.fromSlice bytes with
      | none => exact absurd ⟨bytes, by simp [ended, ForwardResult.body], parsed⟩ parses
      | some value => simp only [packageRaw, packageParsed, replyValue, parsed, Option.getD_some]
    · rfl

/-- The other replies: the body that the last attempt delivered with a success
status, and an error in its place. -/
theorem raw_parsed_unparsed
    (unparsed : EndsUnparsed external (handleSingleRaw external cfg state schedule request)) :
    (∃ last status bytes contentType,
      (handleSingleRaw external cfg state schedule request).answered.getLast? = some last ∧
        Delivered cfg last status bytes ∧ isSuccessStatus status = true ∧
        external.fromSlice bytes = none ∧
        (handleSingleRaw external cfg state schedule request).response =
          .bytes bytes contentType) ∧
      (handleSingleParsed external cfg state schedule request).value =
        nonJsonError (requestId request) := by
  obtain ⟨bytes, body, unparsable⟩ := unparsed
  obtain ⟨result, ended, succeeded⟩ := Option.bind_eq_some_iff.mp body
  obtain ⟨contentType, upstream, rfl⟩ : ∃ contentType upstream,
      result = .ok bytes contentType upstream := by
    cases result with
    | ok found contentType upstream =>
        rw [ForwardResult.body, Option.some_inj] at succeeded
        exact ⟨contentType, upstream, by rw [succeeded]⟩
    | err error lastUpstream => cases succeeded
  rcases entered : beforeForward external cfg state schedule.checkAt schedule.answers request with
    ⟨after, reply | method⟩
  · rw [handleSingleRaw, entered] at ended
    cases ended
  · rw [handleSingleRaw, entered] at ended
    rw [handleSingleRaw, handleSingleParsed, entered]
    dsimp only [Handled.answered, Handled.value, Option.map_some, Option.getD_some,
      Option.bind_some] at ended ⊢
    have surfaces :=
      (forwardCore_surfaces external cfg after schedule request (requestId request) method).1
    rw [ended] at surfaces ⊢
    refine ⟨?_, by simp only [packageParsed, unparsable, Option.getD_none]⟩
    generalize (forwardCore external cfg after schedule request (requestId request)
      method).answered = answered at surfaces ⊢
    cases surfaces with
    | succeeded earlier last upstream _ _ _ outcome =>
        obtain ⟨status, delivered, success⟩ := attemptOutcome_ok outcome
        exact ⟨last, status, bytes, contentType.getD "application/json", List.getLast?_concat,
          delivered, success, unparsable, rfl⟩

end Handlers

/-! ### Single and batch -/

theorem handleRpc_single (external : External) (cfg : Config) (states : Nat → AppState)
    (schedules : Nat → Schedule) {request : Json} (single : request.asArray = none) :
    handleRpc external cfg states schedules request =
      (handleSingleRaw external cfg (states 0) (schedules 0) request).response := by
  rw [handleRpc, single]

theorem handleRpc_batch (external : External) (cfg : Config) (states : Nat → AppState)
    (schedules : Nat → Schedule) (request : Json) :
    handleRpc external cfg states schedules (.array [request]) =
      .json (.array
        [(handleSingleParsed external cfg (states 0) (schedules 0) request).value]) := rfl

/-- A single request and the batch that holds only it. Unless the call ends in a
success whose body is not JSON, the body of the single reply is the element of
the batch; otherwise the single reply is that body, and the element is an error. -/
theorem single_agrees_with_batch (external : External) (cfg : Config)
    (states : Nat → AppState) (schedules : Nat → Schedule) (request : Json)
    (single : request.asArray = none) :
    let alone := handleSingleRaw external cfg (states 0) (schedules 0) request
    let reply := handleRpc external cfg states schedules request
    let batch := handleRpc external cfg states schedules (.array [request])
    (¬ EndsUnparsed external alone →
      ∃ value, replyValue external reply = some value ∧ batch = .json (.array [value])) ∧
    (EndsUnparsed external alone →
      (∃ last status bytes contentType, alone.answered.getLast? = some last ∧
        Delivered cfg last status bytes ∧ isSuccessStatus status = true ∧
        external.fromSlice bytes = none ∧ reply = .bytes bytes contentType) ∧
      batch = .json (.array [nonJsonError (requestId request)])) := by
  dsimp only
  rw [handleRpc_single external cfg states schedules single, handleRpc_batch]
  constructor
  · intro parses
    exact ⟨_, raw_parsed_value external cfg (states 0) (schedules 0) request parses, rfl⟩
  · intro unparsed
    obtain ⟨passed, element⟩ :=
      raw_parsed_unparsed external cfg (states 0) (schedules 0) request unparsed
    exact ⟨passed, by rw [element]⟩

/-- The upstreams answer 200 and the text `OK`: the single reply is that text,
which is not JSON, and the element of the batch is an error. -/
theorem plainText_disagrees :
    let states := fun _ => AppState.start .deployment 0
    let schedules := fun _ => uniformSchedule 200 [79, 75]
    replyValue .plain (handleRpc .plain .deployment states schedules getSlotRequest) = none ∧
      handleRpc .plain .deployment states schedules (.array [getSlotRequest]) =
        .json (.array [nonJsonError (requestId getSlotRequest)]) := by
  have unparsed : EndsUnparsed .plain (handleSingleRaw .plain .deployment (.start .deployment 0)
      (uniformSchedule 200 [79, 75]) getSlotRequest) :=
    ⟨[79, 75], by decide +kernel, rfl⟩
  obtain ⟨⟨_, _, bytes, contentType, _, _, _, unparsable, reply⟩, element⟩ :=
    raw_parsed_unparsed .plain .deployment (.start .deployment 0) (uniformSchedule 200 [79, 75])
      getSlotRequest unparsed
  dsimp only
  rw [handleRpc_single .plain .deployment _ _ rfl, handleRpc_batch, reply, element]
  exact ⟨unparsable, rfl⟩

theorem single_agrees_with_batch_rateLimited :
    let states := fun _ => AppState.start .deployment 0
    let schedules := fun _ => uniformSchedule 429 rateLimitBody
    let alone := handleSingleRaw .rateLimited .deployment (states 0) (schedules 0) getSlotRequest
    let reply := handleRpc .rateLimited .deployment states schedules getSlotRequest
    let batch := handleRpc .rateLimited .deployment states schedules (.array [getSlotRequest])
    (¬ EndsUnparsed .rateLimited alone →
      ∃ value, replyValue .rateLimited reply = some value ∧ batch = .json (.array [value])) ∧
    (EndsUnparsed .rateLimited alone →
      (∃ last status bytes contentType, alone.answered.getLast? = some last ∧
        Delivered .deployment last status bytes ∧ isSuccessStatus status = true ∧
        External.rateLimited.fromSlice bytes = none ∧ reply = .bytes bytes contentType) ∧
      batch = .json (.array [nonJsonError (requestId getSlotRequest)])) :=
  single_agrees_with_batch .rateLimited .deployment (fun _ => .start .deployment 0)
    (fun _ => uniformSchedule 429 rateLimitBody) getSlotRequest rfl

end Disburse
