import Disburse.Proxy.Calls

/-!
Owns what the calls of clients come to, over all runs: a reply is the one that
`handle_rpc` gives to the payload, a call that waits can always be answered by
the steps of its own requests, and an upstream is only ever busy for calls that
still wait.
-/

namespace Disburse

open Disburse.Library

/-! ### Requests that have ended -/

namespace Caller

theorem holds_of_ended (caller : Caller) (done : caller.ended = true) : caller.holds = none := by
  cases caller with
  | verifying => rfl
  | running task =>
      unfold ended Phase.ended at done
      unfold holds Phase.flight
      cases phase : task.phase <;> simp [phase] at done ⊢

theorem sentTo_of_ended (caller : Caller) (done : caller.ended = true) :
    caller.sentTo = none := by
  cases caller with
  | verifying => cases done
  | running task =>
      unfold ended Phase.ended at done
      unfold sentTo
      cases phase : task.phase <;> simp [phase] at done ⊢

end Caller

/-! ### Joined replies -/

namespace Traffic

theorem joinAll_eq_some {traffic : Traffic} {places : List Nat} {responses : List Response} :
    traffic.joinAll places = some responses ↔
      places.map traffic.replyAt = responses.map some := by
  induction places generalizing responses with
  | nil => cases responses <;> simp [joinAll]
  | cons place rest inductionHypothesis =>
      cases responses with
      | nil => simp [joinAll, Option.bind_eq_some_iff]
      | cons first others =>
          simp only [joinAll, List.map_cons, List.cons.injEq, ← inductionHypothesis,
            Option.bind_eq_some_iff, Option.map_eq_some_iff]
          constructor
          · rintro ⟨response, replied, joined, rest, rfl, rfl⟩
            exact ⟨replied, rest⟩
          · rintro ⟨replied, rest⟩
            exact ⟨first, replied, others, rest, rfl, rfl⟩

/-- The reply to each request of a joined call. -/
theorem replyAt_of_joinAll {traffic : Traffic} {first count : Nat} {responses : List Response}
    (joined : traffic.joinAll (List.range' first count) = some responses) :
    responses.length = count ∧
      ∀ index < count, traffic.replyAt (first + index) = responses[index]? := by
  have replies := joinAll_eq_some.mp joined
  have length : responses.length = count := by
    have lengths := congrArg List.length replies
    rw [List.length_map, List.length_map, List.length_range'] at lengths
    exact lengths.symm
  refine ⟨length, fun index within => ?_⟩
  have entry := congrArg (·[index]?) replies
  simp only [List.getElem?_map, List.getElem?_range' within, Option.map_some, Nat.one_mul,
    List.getElem?_eq_getElem (length ▸ within), Option.some_inj] at entry
  rw [entry, List.getElem?_eq_getElem (length ▸ within)]

/-- The request at this place was sent and the exchange ended so. -/
def SawAt (traffic : Traffic) (place : Nat) (exchange : Exchange) : Prop :=
  ∃ task, traffic.callers[place]? = some (.running task) ∧ exchange ∈ task.loop.answered

/-- A reply is one that a call of the handler gives; the attempts that it does not
come to are pending. -/
theorem replies_at {external : External} {cfg : Config} {startedAt : Instant} {traffic : Traffic}
    (valid : cfg.Valid external) (reached : (machine external cfg startedAt).Reachable traffic)
    {place : Nat} {caller : Caller} (found : traffic.callers[place]? = some caller)
    {response : Response} (replied : traffic.replyAt place = some response) :
    ∃ state schedule,
      let handled := caller.serves.1.run external cfg state schedule caller.serves.2
      handled.response = response ∧
        ∀ attempt, traffic.SawAt place (schedule.attempts attempt).exchange ∨
          handled.answered.length ≤ attempt ∧
            (schedule.attempts attempt).exchange = Attempt.pending.exchange := by
  rw [replyAt, found, Option.bind_some] at replied
  cases caller with
  | verifying => cases replied
  | running task =>
      have phase : task.phase = .replied response := by
        unfold Caller.reply at replied
        cases phase : task.phase <;> simp [phase] at replied ⊢
        exact replied
      obtain ⟨state, schedule, called, answered, sees⟩ :=
        replies_of_reachable valid reached (List.mem_of_getElem? found) phase
      refine ⟨state, schedule, called, fun attempt => ?_⟩
      show _ ∨ (task.handler.run external cfg state schedule task.request).answered.length ≤
        attempt ∧ _
      rw [answered, sees attempt, List.getD_eq_getElem?_getD]
      cases ended : task.loop.answered[attempt]? with
      | none => exact Or.inr ⟨List.getElem?_eq_none_iff.mp ended, rfl⟩
      | some exchange => exact Or.inl ⟨task, found, List.mem_of_getElem? ended⟩

end Traffic

/-! ### The reply to a call -/

/-- A batch is assembled as `handle_rpc` assembles it, and so is a single reply. -/
theorem assemble_eq_handleRpc {external : External} {cfg : Config} {payload : Json}
    {states : Nat → AppState} {schedules : Nat → Schedule} {responses : List Response}
    (length : responses.length = (payloadRequests payload).length)
    (each : ∀ (index : Nat) entry, (payloadRequests payload)[index]? = some entry →
      responses[index]? = some
        (entry.1.run external cfg (states index) (schedules index) entry.2).response)
    {response : Response} (assembled : assemble payload responses = some response) :
    response = handleRpc external cfg states schedules payload := by
  unfold assemble at assembled
  unfold payloadRequests at length each
  unfold handleRpc
  cases elements : payload.asArray with
  | none =>
      rw [elements] at assembled each
      have only := each 0 _ rfl
      rw [List.head?_eq_getElem?, only, Option.some_inj] at assembled
      exact assembled.symm
  | some requests =>
      rw [elements] at assembled length each
      dsimp only at assembled length each ⊢
      rw [Option.some_inj] at assembled
      rw [List.length_map] at length
      subst assembled
      congr 2
      apply List.ext_getElem?
      intro index
      rw [List.getElem?_map, List.getElem?_mapIdx]
      cases found : requests[index]? with
      | none =>
          rw [List.getElem?_eq_none_iff] at found
          rw [List.getElem?_eq_none (length ▸ found)]
          rfl
      | some request =>
          rw [each index (.parsed, request) (by rw [List.getElem?_map, found]; rfl)]
          rfl

/-! ### A batch of two -/

/-- Header values of visible characters. -/
def HeaderText.visible : HeaderText where
  toStr := fun bytes =>
    if bytes.all fun byte => 32 ≤ byte && byte < 127 then
      some (String.ofList (bytes.map fun byte => Char.ofNat byte.toNat))
    else none
  fromStr := fun value =>
    if value.toList.all fun char => 32 ≤ char.toNat && char.toNat < 127 then
      some (value.toList.map fun char => UInt8.ofNat char.toNat)
    else none

/-- A request for a slot and one that names no method. -/
def mixedBatch : Json :=
  .array [.object [("id", .number (.posInt 7)), ("method", .string "getSlot")],
    .object [("id", .number (.posInt 8))]]

/-- The batch comes in, and its first request is sent to an upstream. -/
def sentBatch : List FrontEvent :=
  [.post (fun _ => none) "b7f0" mixedBatch,
    .progress (.start 0 0),
    .progress (.start 1 0),
    .progress (.other (.attempt 0 (fun _ => 0) 0))]

def answeredBatch : List FrontEvent :=
  sentBatch ++
    [.progress (.other (.answer 0 System.emptyAnswer 5 5000000)),
      .progress (.other (.settle 0 5000000)),
      .deliver 0]

def CallStatus.given : CallStatus → Option HttpReply
  | .answered reply => some reply
  | .waiting | .dropped => none

theorem CallStatus.eq_answered {status : CallStatus} {reply : HttpReply}
    (given : status.given = some reply) : status = .answered reply := by
  unfold CallStatus.given at given
  cases status <;> simp at given ⊢
  exact given

namespace Front

section Run

variable {external : External} {text : HeaderText} {cfg : Config} {startedAt : Instant}
  {front : Front}

/-- In every run the reply to a call carries its trace id, and is what
`handle_rpc` gives to its payload under exchanges that its own requests saw; only
attempts that the call does not come to are left pending. -/
theorem answered_of_handleRpc (valid : cfg.validate external = .ok ())
    (reached : (machine external text cfg startedAt).Reachable front) {call : Call}
    (member : call ∈ front.calls) {reply : HttpReply} (given : call.status = .answered reply) :
    reply.traceId = text.fromStr call.traceId ∧ ∃ states schedules,
      reply.response = handleRpc external cfg states schedules call.payload ∧
      ∀ index entry, (payloadRequests call.payload)[index]? = some entry → ∀ attempt,
        front.traffic.SawAt (call.first + index) ((schedules index).attempts attempt).exchange ∨
          (entry.1.run external cfg (states index) (schedules index) entry.2).answered.length ≤
              attempt ∧
            ((schedules index).attempts attempt).exchange = Attempt.pending.exchange := by
  have holds := (orderly_of_reachable reached).holds call member
  obtain ⟨traced, responses, joined, assembled⟩ := holds.answered reply given
  obtain ⟨length, replies⟩ := Traffic.replyAt_of_joinAll joined
  have called (index : Nat) (within : index < (payloadRequests call.payload).length) :
      ∃ state schedule,
        let handled := (payloadRequests call.payload)[index].1.run external cfg state schedule
          (payloadRequests call.payload)[index].2
        responses[index]? = some handled.response ∧
        ∀ attempt, front.traffic.SawAt (call.first + index)
            (schedule.attempts attempt).exchange ∨
          handled.answered.length ≤ attempt ∧
            (schedule.attempts attempt).exchange = Attempt.pending.exchange := by
    obtain ⟨caller, found, serves⟩ := holds.serves index _ (List.getElem?_eq_getElem within)
    obtain ⟨response, listed⟩ : ∃ response, responses[index]? = some response :=
      ⟨_, List.getElem?_eq_getElem (length.symm ▸ within)⟩
    obtain ⟨state, schedule, run, saw⟩ := Traffic.replies_at (validate_eq_ok.mp valid)
      (traffic_reachable reached) found ((replies index within).trans listed)
    rw [serves] at run saw
    exact ⟨state, schedule, listed.trans (congrArg some run.symm), saw⟩
  choose states schedules run saw using called
  let stateAt (index : Nat) : AppState :=
    if within : index < (payloadRequests call.payload).length then states index within
    else .start cfg startedAt
  let scheduleAt (index : Nat) : Schedule :=
    if within : index < (payloadRequests call.payload).length then schedules index within
    else Entry.schedule ⟨.start cfg startedAt, 0, fun _ => none⟩ [] none
  refine ⟨traced, stateAt, scheduleAt, assemble_eq_handleRpc length ?_ assembled, ?_⟩
  · intro index entry found
    obtain ⟨within, rfl⟩ := List.getElem?_eq_some_iff.mp found
    simp only [stateAt, scheduleAt, dif_pos within]
    exact run index within
  · intro index entry found attempt
    obtain ⟨within, rfl⟩ := List.getElem?_eq_some_iff.mp found
    simp only [stateAt, scheduleAt, dif_pos within]
    exact saw index within attempt

theorem answered_of_handleRpc_batch :
    ∃ front call reply,
      (machine .plain .visible .deployment 0).exec answeredBatch = some front ∧
      call ∈ front.calls ∧ call.status = .answered reply ∧
      (reply.traceId = HeaderText.visible.fromStr call.traceId ∧ ∃ states schedules,
        reply.response = handleRpc .plain .deployment states schedules call.payload ∧
        ∀ index entry, (payloadRequests call.payload)[index]? = some entry → ∀ attempt,
          front.traffic.SawAt (call.first + index)
              ((schedules index).attempts attempt).exchange ∨
            (entry.1.run .plain .deployment (states index) (schedules index)
                entry.2).answered.length ≤ attempt ∧
              ((schedules index).attempts attempt).exchange =
                Attempt.pending.exchange) := by
  have answered : ((machine .plain .visible .deployment 0).exec answeredBatch).map (fun front =>
      front.calls.map fun call => call.status.given.isSome) = some [true] := by
    decide +kernel
  obtain ⟨front, run, all⟩ := Option.map_eq_some_iff.mp answered
  obtain ⟨call, only, status⟩ := List.map_eq_singleton_iff.mp all
  obtain ⟨reply, given⟩ := Option.isSome_iff_exists.mp status
  have member : call ∈ front.calls := by
    rw [only]
    exact List.mem_singleton_self call
  have answeredWith := CallStatus.eq_answered given
  exact ⟨front, call, reply, run, member, answeredWith,
    answered_of_handleRpc Config.deployment_validate ⟨answeredBatch, run⟩ member answeredWith⟩

/-- The steps of the requests of a call, seen at the front. -/
theorem execFrom_progress (text : HeaderText) (front : Front) {events : List TrafficEvent}
    (internal : ∀ event ∈ events, event.internal = true) {traffic : Traffic}
    (run : (Traffic.machine external cfg startedAt).execFrom front.traffic events =
      some traffic) :
    ∃ log, (machine external text cfg startedAt).execFrom front (events.map .progress) =
      some { front with traffic := traffic, log := log } := by
  induction events generalizing front with
  | nil =>
      rw [Machine.execFrom_nil, Option.some_inj] at run
      exact ⟨front.log, by rw [← run]; rfl⟩
  | cons event rest inductionHypothesis =>
      rw [List.forall_mem_cons] at internal
      rw [Machine.execFrom_cons] at run
      obtain ⟨middle, stepped, tail⟩ := Option.bind_eq_some_iff.mp run
      have taken : (machine external text cfg startedAt).step front (.progress event) =
          some { front with
            traffic := middle
            log := front.log ++ front.traffic.logged external cfg event } := by
        show (if event.internal then _ else none) = _
        rw [if_pos internal.1,
          show front.traffic.step external cfg event = some middle from stepped, Option.map_some]
      let next : Front := { front with
        traffic := middle
        log := front.log ++ front.traffic.logged external cfg event }
      obtain ⟨log, after⟩ := inductionHypothesis next internal.2 tail
      exact ⟨log, by rw [List.map_cons, Machine.execFrom_cons, taken, Option.bind_some, after]⟩

theorem exists_joinAll {traffic : Traffic} {places : List Nat}
    (replied : ∀ place ∈ places, ∃ response, traffic.replyAt place = some response) :
    ∃ responses, traffic.joinAll places = some responses := by
  induction places with
  | nil => exact ⟨[], rfl⟩
  | cons place rest inductionHypothesis =>
      rw [List.forall_mem_cons] at replied
      obtain ⟨response, first⟩ := replied.1
      obtain ⟨responses, others⟩ := inductionHypothesis replied.2
      exact ⟨response :: responses, by
        rw [Traffic.joinAll, first, Option.bind_some, others, Option.map_some]⟩

theorem exists_assemble {payload : Json} {responses : List Response}
    (length : responses.length = (payloadRequests payload).length) :
    ∃ response, assemble payload responses = some response := by
  unfold assemble
  unfold payloadRequests at length
  split
  · exact ⟨_, rfl⟩
  · rename_i single
    rw [single] at length
    obtain ⟨response, rfl⟩ := List.length_eq_one_iff.mp length
    exact ⟨response, rfl⟩

/-- At every time a call that waits can be answered by steps of its own requests
alone, all taken then: no other call has to move for it, and none is touched. -/
theorem exists_answer (reached : (machine external text cfg startedAt).Reachable front)
    {place : Nat} {call : Call} (waits : front.waitingAt place = some call) (now : Instant) :
    ∃ (events : List TrafficEvent) (final : Front) (reply : HttpReply),
      (∀ event ∈ events, (∃ own ∈ call.places, event.advances = some own) ∧
        ∀ time ∈ event.time, time = now) ∧
      (machine external text cfg startedAt).execFrom front
        (events.map .progress ++ [.deliver place]) = some final ∧
      final.calls = front.calls.set place { call with status := .answered reply } ∧
      ∀ other ∉ call.places, final.traffic.callers[other]? = front.traffic.callers[other]? := by
  obtain ⟨found, waiting⟩ := waitingAt_eq_some.mp waits
  have present := ((orderly_of_reachable reached).holds call
    (List.mem_of_getElem? found)).waiting waiting
  obtain ⟨events, traffic, allowed, run, replied, others⟩ :=
    Traffic.exists_replies external cfg startedAt front.traffic present now
  have internal : ∀ event ∈ events, event.internal = true := by
    intro event member
    obtain ⟨_, _, advances⟩ := (allowed event member).1
    exact TrafficEvent.internal_of_advances advances
  obtain ⟨log, progressed⟩ := execFrom_progress text front internal run
  obtain ⟨responses, joined⟩ : ∃ responses, traffic.joinAll call.places = some responses := by
    apply exists_joinAll
    intro asked member
    obtain ⟨caller, response, callerFound, reply⟩ := replied asked member
    exact ⟨response, by rw [Traffic.replyAt, callerFound, Option.bind_some, reply]⟩
  obtain ⟨response, assembled⟩ := exists_assemble (Traffic.replyAt_of_joinAll joined).1
  have delivered : (machine external text cfg startedAt).step
      { front with traffic := traffic, log := log } (.deliver place) =
      some (({ front with traffic := traffic, log := log } : Front).setStatus place call
        (.answered { response := response, traceId := text.fromStr call.traceId })) := by
    show (front.waitingAt place).bind _ = _
    rw [waits, Option.bind_some]
    dsimp only
    rw [joined, Option.bind_some, assembled, Option.map_some]
  have answered : (machine external text cfg startedAt).execFrom front
      (events.map .progress ++ [.deliver place]) =
      some (({ front with traffic := traffic, log := log } : Front).setStatus place call
        (.answered { response := response, traceId := text.fromStr call.traceId })) := by
    rw [Machine.execFrom_append, progressed, Option.bind_some, Machine.execFrom_cons, delivered]
    rfl
  exact ⟨events, _, _, allowed, answered, rfl, others⟩

theorem exists_answer_batch :
    ∃ front call, (machine .plain .visible .deployment 0).exec sentBatch = some front ∧
      front.waitingAt 0 = some call ∧
      ∃ (events : List TrafficEvent) (final : Front) (reply : HttpReply),
        (∀ event ∈ events, (∃ own ∈ call.places, event.advances = some own) ∧
          ∀ time ∈ event.time, time = 5000000) ∧
        (machine .plain .visible .deployment 0).execFrom front
          (events.map .progress ++ [.deliver 0]) = some final ∧
        final.calls = front.calls.set 0 { call with status := .answered reply } ∧
        ∀ other ∉ call.places,
          final.traffic.callers[other]? = front.traffic.callers[other]? := by
  have waiting : ((machine .plain .visible .deployment 0).exec sentBatch).map (fun front =>
      (front.waitingAt 0).isSome) = some true := by
    decide +kernel
  obtain ⟨front, run, waits⟩ := Option.map_eq_some_iff.mp waiting
  obtain ⟨call, found⟩ := Option.isSome_iff_exists.mp waits
  exact ⟨front, call, run, found, exists_answer ⟨sentBatch, run⟩ found 5000000⟩

end Run

/-! ### What calls occupy -/

/-- The requests of the calls that wait. -/
def openPlaces (front : Front) : List Nat :=
  (front.calls.filter fun call => call.status matches .waiting).flatMap Call.places

/-- The requests of calls that wait with this upstream at the place that `role`
names. -/
def openCount (role : Caller → Option String) (name : String) (front : Front) : Nat :=
  front.openPlaces.countP fun place =>
    front.traffic.callers[place]?.bind role = some name

/-- Elements that are counted at their places. -/
theorem countP_range_getElem? {α : Type} (p : α → Bool) (items : List α) :
    ((List.range items.length).countP fun place => items[place]?.any p) = items.countP p := by
  induction items with
  | nil => rfl
  | cons item rest inductionHypothesis =>
      rw [List.length_cons, List.range_succ_eq_map, List.countP_cons, List.countP_map,
        List.countP_cons, ← inductionHypothesis]
      rfl

/-- Only what passes the filter counts when nothing else does. -/
theorem countP_flatMap_filter {α β : Type} (p : β → Bool) (parts : α → List β)
    (keep : α → Bool) {items : List α}
    (nothing : ∀ item ∈ items, keep item = false → ∀ part ∈ parts item, p part = false) :
    (items.flatMap parts).countP p = ((items.filter keep).flatMap parts).countP p := by
  induction items with
  | nil => rfl
  | cons item rest inductionHypothesis =>
      rw [List.forall_mem_cons] at nothing
      rw [List.flatMap_cons, List.countP_append, inductionHypothesis nothing.2]
      cases kept : keep item with
      | true => rw [List.filter_cons_of_pos kept, List.flatMap_cons, List.countP_append]
      | false =>
          have none : (parts item).countP p = 0 := by
            rw [List.countP_eq_zero]
            intro part member
            rw [nothing.1 kept part member]
            exact Bool.false_ne_true
          rw [none, Nat.zero_add, List.filter_cons_of_neg (by rw [kept]; exact Bool.false_ne_true)]

/-- The requests of a call that does not wait have ended. -/
theorem endedAt_of_settled {text : HeaderText} {traffic : Traffic} {call : Call}
    (holds : call.Holds text traffic) (settled : call.status ≠ .waiting) :
    ∀ place ∈ call.places, traffic.endedAt place = true := by
  intro place member
  cases status : call.status with
  | waiting => exact absurd status settled
  | dropped => exact holds.dropped status place member
  | answered reply =>
      obtain ⟨_, responses, joined, _⟩ := holds.answered reply status
      have listed : traffic.replyAt place ∈ responses.map some := by
        rw [← Traffic.joinAll_eq_some.mp joined]
        exact List.mem_map_of_mem member
      obtain ⟨response, _, replied⟩ := List.mem_map.mp listed
      obtain ⟨caller, found, reply⟩ := Option.bind_eq_some_iff.mp replied.symm
      rw [Traffic.endedAt, found]
      exact Caller.ended_of_reply reply

/-- What ended requests do not have, only those of calls that wait have. -/
theorem count_eq_openCount {text : HeaderText} {front : Front} (orderly : front.Orderly text)
    {role : Caller → Option String} (idle : ∀ caller, caller.ended = true → role caller = none)
    (name : String) : Caller.count role name front.traffic.callers = front.openCount role name := by
  have same (place : Nat) :
      (decide (front.traffic.callers[place]?.bind role = some name)) =
        front.traffic.callers[place]?.any fun caller => role caller = some name := by
    cases front.traffic.callers[place]? <;> rfl
  unfold Caller.count openCount openPlaces
  rw [← countP_range_getElem?, ← orderly.places]
  simp only [same]
  apply countP_flatMap_filter
  intro call member settled place own
  have ended := endedAt_of_settled (orderly.holds call member)
    (fun waits => by rw [waits] at settled; cases settled) place own
  obtain ⟨caller, found, done⟩ := (Option.any_eq_true _ _).mp ended
  rw [found, Option.any_some, idle caller done]
  rfl

/-- A request without its reply belongs to a call that waits. -/
theorem mem_openPlaces {text : HeaderText} {front : Front} (orderly : front.Orderly text)
    {place : Nat} {caller : Caller} (found : front.traffic.callers[place]? = some caller)
    (unended : caller.ended = false) : place ∈ front.openPlaces := by
  have listed : place ∈ front.calls.flatMap Call.places := by
    rw [orderly.places, List.mem_range]
    exact (List.getElem?_eq_some_iff.mp found).1
  obtain ⟨call, member, own⟩ := List.mem_flatMap.mp listed
  apply List.mem_flatMap.mpr
  refine ⟨call, List.mem_filter.mpr ⟨member, ?_⟩, own⟩
  by_contra settled
  have ended := endedAt_of_settled (orderly.holds call member)
    (fun waits => settled (by rw [waits])) place own
  rw [Traffic.endedAt, found, Option.any_some, unended] at ended
  cases ended

/-- In every state the permits that are not free and the requests in flight
belong to calls that still wait: once none does, every upstream is idle. -/
theorem occupied_by_open {external : External} {text : HeaderText} {cfg : Config}
    {startedAt : Instant} {front : Front}
    (reached : (machine external text cfg startedAt).Reachable front) (name : String) :
    front.traffic.permits name + front.openCount Caller.holds name =
        cfg.maxConcurrentPerUpstream ∧
      front.traffic.inFlight name = front.openCount Caller.sentTo name ∧
      (∀ place caller, front.traffic.callers[place]? = some caller → caller.ended = false →
        place ∈ front.openPlaces) := by
  have orderly := orderly_of_reachable reached
  refine ⟨?_, ?_, ?_⟩
  · rw [← count_eq_openCount orderly Caller.holds_of_ended]
    exact Traffic.conserved_of_reachable (traffic_reachable reached) name
  · exact count_eq_openCount orderly Caller.sentTo_of_ended name
  · exact fun place caller found unended => mem_openPlaces orderly found unended

theorem occupied_by_open_batch :
    ∃ front, (machine .plain .visible .deployment 0).exec sentBatch = some front ∧
      (front.traffic.permits "helius" + front.openCount Caller.holds "helius" =
          Config.deployment.maxConcurrentPerUpstream ∧
        front.traffic.inFlight "helius" = front.openCount Caller.sentTo "helius" ∧
        ∀ place caller, front.traffic.callers[place]? = some caller → caller.ended = false →
          place ∈ front.openPlaces) := by
  have runs : ((machine .plain .visible .deployment 0).exec sentBatch).isSome = true := by
    decide +kernel
  obtain ⟨front, run⟩ := Option.isSome_iff_exists.mp runs
  exact ⟨front, run, occupied_by_open ⟨sentBatch, run⟩ "helius"⟩

end Front

end Disburse
