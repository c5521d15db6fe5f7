import Disburse.Proxy.Front

/-!
Owns what a client gets for its call in every run: the requests that serve it
are its own, in order; its reply is given once, is the one that `handle_rpc`
says, and can always be had by the steps of its own requests; and nothing of a
call stays behind once no call waits.
-/

namespace Disburse

open Disburse.Library

/-! ### What happens to a request -/

/-- What any step that drops nobody does to a request: it serves the same as
before, and one with its reply is left alone. -/
structure Caller.Follows (before after : Caller) : Prop where
  serves : after.serves = before.serves
  ended : before.ended = true → after = before
  present : before.gone = false → after.gone = false

theorem Caller.Follows.refl (caller : Caller) : caller.Follows caller := ⟨rfl, fun _ => rfl, id⟩

theorem Caller.ended_of_reply {caller : Caller} {response : Response}
    (reply : caller.reply = some response) : caller.ended = true := by
  cases caller with
  | verifying => cases reply
  | running task =>
      unfold Caller.reply at reply
      unfold Caller.ended Phase.ended
      cases phase : task.phase <;> simp [phase] at reply ⊢

theorem Caller.not_ended_of_step {external : External} {cfg : Config} {state : AppState}
    {caller : Caller} {event : TrafficEvent} {next : AppState × Caller}
    (stepped : caller.step external cfg state event = some next) : caller.ended = false := by
  have spends := (Caller.step_spends stepped).steps
  by_contra ended
  rw [Bool.not_eq_false] at ended
  cases caller with
  | verifying task verification => cases ended
  | running task =>
      simp only [Caller.stepsLeft, Task.stepsLeft] at spends
      cases phase : task.phase <;>
        simp [Caller.ended, Phase.ended, phase] at ended spends

theorem Caller.step_follows {external : External} {cfg : Config} {state : AppState}
    {caller : Caller} {event : TrafficEvent} {next : AppState × Caller}
    (internal : event.internal = true)
    (stepped : caller.step external cfg state event = some next) : caller.Follows next.2 where
  serves := (Caller.step_spends stepped).serves
  ended := by
    intro ended
    rw [Caller.not_ended_of_step stepped] at ended
    cases ended
  present := fun _ => Caller.step_present internal stepped

namespace Traffic

/-- The requests at these places are still there. -/
def FollowsAt (places : List Nat) (before after : Traffic) : Prop :=
  ∀ place ∈ places, ∀ caller, before.callers[place]? = some caller →
    ∃ later, after.callers[place]? = some later ∧ caller.Follows later

section Step

variable {external : External} {cfg : Config} {traffic next : Traffic} {event : TrafficEvent}

theorem followsAt_of_same {places : List Nat}
    (same : ∀ place ∈ places, next.callers[place]? = traffic.callers[place]?) :
    FollowsAt places traffic next := by
  intro place member caller found
  exact ⟨caller, (same place member).trans found, .refl caller⟩

theorem step_followsAt (places : List Nat) (internal : event.internal = true)
    (stepped : traffic.step external cfg event = some next) : FollowsAt places traffic next := by
  cases step_moves stepped with
  | calls _ place caller result named found taken =>
      intro other _ own ownFound
      by_cases same : other = place
      · subst same
        rw [found, Option.some_inj] at ownFound
        subst ownFound
        exact ⟨result.2, List.getElem?_set_self (List.getElem?_eq_some_iff.mp found).1,
          Caller.step_follows internal taken⟩
      · exact ⟨own, (List.getElem?_set_ne (Ne.symm same)).trans ownFound, .refl own⟩
  | arrives => cases internal
  | polls => exact followsAt_of_same fun _ _ => rfl
  | seeds => exact followsAt_of_same fun _ _ => rfl

/-- No step of the proxy's own brings or removes a request. -/
theorem step_length (internal : event.internal = true)
    (stepped : traffic.step external cfg event = some next) :
    next.callers.length = traffic.callers.length := by
  cases step_moves stepped with
  | calls => exact List.length_set
  | arrives => cases internal
  | polls => rfl
  | seeds => rfl

theorem replyAt_of_follows {places : List Nat} (follows : FollowsAt places traffic next)
    {place : Nat} (member : place ∈ places) {response : Response}
    (replied : traffic.replyAt place = some response) : next.replyAt place = some response := by
  obtain ⟨caller, found, reply⟩ := Option.bind_eq_some_iff.mp replied
  obtain ⟨later, laterFound, kept⟩ := follows place member caller found
  rw [replyAt, laterFound, Option.bind_some, kept.ended (Caller.ended_of_reply reply)]
  exact reply

theorem joinAll_of_follows {places : List Nat} (follows : FollowsAt places traffic next)
    {some : List Nat} (within : ∀ place ∈ some, place ∈ places) {responses : List Response}
    (joined : traffic.joinAll some = .some responses) : next.joinAll some = .some responses := by
  induction some generalizing responses with
  | nil => exact joined
  | cons place rest inductionHypothesis =>
      obtain ⟨response, replied, tail⟩ := Option.bind_eq_some_iff.mp joined
      obtain ⟨others, othersJoined, rfl⟩ := Option.map_eq_some_iff.mp tail
      rw [joinAll, replyAt_of_follows follows (within place List.mem_cons_self) replied,
        Option.bind_some, inductionHypothesis
          (fun other member => within other (List.mem_cons_of_mem _ member)) othersJoined,
        Option.map_some]

theorem endedAt_of_follows {places : List Nat} (follows : FollowsAt places traffic next)
    {place : Nat} (member : place ∈ places) (ended : traffic.endedAt place = true) :
    next.endedAt place = true := by
  unfold endedAt at ended ⊢
  rw [Option.any_eq_true] at ended
  obtain ⟨caller, found, done⟩ := ended
  obtain ⟨later, laterFound, kept⟩ := follows place member caller found
  rw [laterFound, kept.ended done]
  exact done

/-- A disconnect ends the request it names and touches no other. -/
theorem disconnect_spec {place : Nat}
    (stepped : traffic.step external cfg (.other (.disconnect place)) = some next) :
    next.endedAt place = true ∧ next.callers.length = traffic.callers.length ∧
      (∀ other, other ≠ place → next.callers[other]? = traffic.callers[other]?) ∧
      ∀ caller, traffic.callers[place]? = some caller →
        ∃ later, next.callers[place]? = some later ∧ later.serves = caller.serves := by
  cases step_moves stepped with
  | calls _ named caller result same found taken =>
      rw [TrafficEvent.caller, Option.some_inj] at same
      subst same
      have inside : place < traffic.callers.length := (List.getElem?_eq_some_iff.mp found).1
      have moved : (traffic.moved place result).callers[place]? = some result.2 :=
        List.getElem?_set_self inside
      refine ⟨?_, List.length_set, fun other different =>
        List.getElem?_set_ne (Ne.symm different), fun own ownFound => ?_⟩
      · rw [endedAt, moved]
        cases Caller.step_moves taken with
        | hangsUp => rfl
        | works _ _ _ _ moves =>
            cases moves with
            | leaves => rfl
            | hangsUp => rfl
      · rw [found, Option.some_inj] at ownFound
        subst ownFound
        exact ⟨result.2, moved, (Caller.step_spends taken).serves⟩

end Step

/-- Dropping a list of requests ends each of them and touches no other. -/
theorem dropAll_spec {external : External} {cfg : Config} {traffic next : Traffic}
    {places : List Nat} (dropped : traffic.dropAll external cfg places = some next) :
    (∀ place ∈ places, next.endedAt place = true) ∧
      next.callers.length = traffic.callers.length ∧
      (∀ other ∉ places, next.callers[other]? = traffic.callers[other]?) ∧
      ∀ (place : Nat) caller, traffic.callers[place]? = some caller →
        ∃ later, next.callers[place]? = some later ∧ later.serves = caller.serves := by
  induction places generalizing traffic with
  | nil =>
      rw [dropAll, Option.some_inj] at dropped
      subst dropped
      exact ⟨by simp, rfl, fun _ _ => rfl, fun _ caller found => ⟨caller, found, rfl⟩⟩
  | cons place rest inductionHypothesis =>
      obtain ⟨after, stepped, tail⟩ := Option.bind_eq_some_iff.mp dropped
      have first := disconnect_spec stepped
      have others := inductionHypothesis tail
      refine ⟨List.forall_mem_cons.mpr ⟨?_, others.1⟩, others.2.1.trans first.2.1,
        fun other outside => ?_, fun asked caller found => ?_⟩
      · by_cases again : place ∈ rest
        · exact others.1 place again
        · rw [endedAt, others.2.2.1 place again]
          exact first.1
      · rw [List.mem_cons, not_or] at outside
        exact (others.2.2.1 other outside.2).trans (first.2.2.1 other outside.1)
      · by_cases own : asked = place
        · subst own
          obtain ⟨middle, middleFound, middleServes⟩ := first.2.2.2 caller found
          obtain ⟨later, laterFound, laterServes⟩ := others.2.2.2 asked middle middleFound
          exact ⟨later, laterFound, laterServes.trans middleServes⟩
        · have kept := (first.2.2.1 asked own).trans found
          exact others.2.2.2 asked caller kept

end Traffic

/-! ### What holds of a call -/

/-- The requests of a call serve what its payload holds, and stand as its status
says. -/
structure Call.Holds (text : HeaderText) (traffic : Traffic) (call : Call) : Prop where
  serves : ∀ (index : Nat) entry, (payloadRequests call.payload)[index]? = some entry →
    ∃ caller, traffic.callers[call.first + index]? = some caller ∧ caller.serves = entry
  waiting : call.status = .waiting → traffic.Present call.places
  answered : ∀ reply, call.status = .answered reply →
    reply.traceId = text.fromStr call.traceId ∧
      ∃ responses, traffic.joinAll call.places = some responses ∧
        assemble call.payload responses = some reply.response
  dropped : call.status = .dropped → ∀ place ∈ call.places, traffic.endedAt place = true

namespace Call

variable {text : HeaderText} {traffic next : Traffic} {call : Call}

theorem mem_places {place : Nat} :
    place ∈ call.places ↔
      ∃ index < (payloadRequests call.payload).length, place = call.first + index := by
  rw [places, List.mem_range'_1]
  constructor
  · intro within
    exact ⟨place - call.first, by omega, by omega⟩
  · rintro ⟨index, within, rfl⟩
    omega

theorem Holds.of_follows (holds : call.Holds text traffic)
    (follows : Traffic.FollowsAt call.places traffic next) : call.Holds text next where
  serves := by
    intro index entry found
    obtain ⟨caller, callerFound, serves⟩ := holds.serves index entry found
    have member : call.first + index ∈ call.places :=
      mem_places.mpr ⟨index, (List.getElem?_eq_some_iff.mp found).1, rfl⟩
    obtain ⟨later, laterFound, kept⟩ := follows _ member caller callerFound
    exact ⟨later, laterFound, kept.serves.trans serves⟩
  waiting := by
    intro waits place member
    obtain ⟨caller, found, there⟩ := holds.waiting waits place member
    obtain ⟨later, laterFound, kept⟩ := follows place member caller found
    exact ⟨later, laterFound, kept.present there⟩
  answered := by
    intro reply given
    obtain ⟨traced, responses, joined, assembled⟩ := holds.answered reply given
    exact ⟨traced, responses, Traffic.joinAll_of_follows follows (fun _ member => member) joined,
      assembled⟩
  dropped := fun gone place member =>
    Traffic.endedAt_of_follows follows member (holds.dropped gone place member)

end Call

namespace Front

/-- The requests in the traffic are those of the calls, in order, and each call
stands as its status says. -/
structure Orderly (text : HeaderText) (front : Front) : Prop where
  places : front.calls.flatMap Call.places = List.range front.traffic.callers.length
  holds : ∀ call ∈ front.calls, call.Holds text front.traffic

section Orderly

variable {external : External} {text : HeaderText} {cfg : Config} {startedAt : Instant}
  {front next : Front}

/-- A call with another status has the same places. -/
theorem flatMap_setStatus {place : Nat} {call : Call} (found : front.calls[place]? = some call)
    (status : CallStatus) :
    (front.setStatus place call status).calls.flatMap Call.places =
      front.calls.flatMap Call.places := by
  have inside : place < (front.calls.map Call.places).length := by
    rw [List.length_map]
    exact (List.getElem?_eq_some_iff.mp found).1
  have own : (front.calls.map Call.places)[place]? =
      some ({ call with status := status } : Call).places := by
    rw [List.getElem?_map, found]
    rfl
  obtain ⟨_, same⟩ := List.getElem?_eq_some_iff.mp own
  rw [List.flatMap_def, List.flatMap_def, setStatus, List.map_set, ← same,
    List.set_getElem_self inside]

/-- What holds of one call after its change and of the others, holds of all. -/
theorem forall_setStatus {P : Call → Prop} {place : Nat} {call : Call} {status : CallStatus}
    (own : P { call with status := status })
    (others : ∀ other, other ≠ place → ∀ called, front.calls[other]? = some called → P called) :
    ∀ called ∈ (front.setStatus place call status).calls, P called := by
  intro called member
  obtain ⟨other, found⟩ := List.mem_iff_getElem?.mp member
  rw [setStatus, List.getElem?_set] at found
  split at found
  · split at found
    · rw [Option.some_inj] at found
      exact found ▸ own
    · cases found
  · rename_i different
    exact others other (Ne.symm different) called found

/-- No request serves two calls. -/
theorem Orderly.disjoint (orderly : front.Orderly text) {first second : Nat}
    (different : first ≠ second) {one other : Call} (oneFound : front.calls[first]? = some one)
    (otherFound : front.calls[second]? = some other) : List.Disjoint one.places other.places := by
  have apart : (front.calls.flatMap Call.places).Nodup := by
    rw [orderly.places]
    exact List.nodup_range
  have pairwise := (List.nodup_flatMap.mp apart).2
  obtain ⟨firstInside, rfl⟩ := List.getElem?_eq_some_iff.mp oneFound
  obtain ⟨secondInside, rfl⟩ := List.getElem?_eq_some_iff.mp otherFound
  rcases Nat.lt_or_gt_of_ne different with before | after
  · exact List.pairwise_iff_getElem.mp pairwise first second _ _ before
  · exact (List.pairwise_iff_getElem.mp pairwise second first _ _ after).symm

/-- The requests of a call that arrives come after all others. -/
theorem orderly_post (cfg : Config) (orderly : front.Orderly text) (headers : Headers)
    (fresh : String) (payload : Json) :
    (front.post text cfg headers fresh payload).Orderly text where
  places := by
    show (front.calls ++ [_]).flatMap Call.places = List.range (front.traffic.callers ++ _).length
    rw [List.flatMap_append, orderly.places, List.flatMap_singleton, List.length_append,
      List.length_map, Call.places, List.range_eq_range', List.range_eq_range']
    have appended := List.range'_append_1 (s := 0) (m := front.traffic.callers.length)
      (n := (payloadRequests payload).length)
    rw [Nat.zero_add] at appended
    exact appended
  holds := by
    show ∀ call ∈ front.calls ++ [_],
      call.Holds text (front.post text cfg headers fresh payload).traffic
    rw [List.forall_mem_append]
    constructor
    · intro call member
      apply (orderly.holds call member).of_follows
      intro place _ caller found
      exact ⟨caller, (List.getElem?_append_left (List.getElem?_eq_some_iff.mp found).1).trans found,
        .refl caller⟩
    · have arrived (index : Nat) :
          (front.traffic.callers ++ (payloadRequests payload).map fun entry =>
            Caller.running (.arrive cfg entry.1 entry.2))[front.traffic.callers.length + index]? =
          (payloadRequests payload)[index]?.map fun entry =>
            Caller.running (.arrive cfg entry.1 entry.2) := by
        rw [List.getElem?_append_right (Nat.le_add_right _ _), Nat.add_sub_cancel_left,
          List.getElem?_map]
      rw [List.forall_mem_singleton]
      exact {
        serves := fun index entry found =>
          ⟨_, (arrived index).trans (congrArg _ found), rfl⟩
        waiting := by
          intro _ place member
          obtain ⟨index, within, rfl⟩ := Call.mem_places.mp member
          exact ⟨_, (arrived index).trans (congrArg _ (List.getElem?_eq_getElem within)), rfl⟩
        answered := fun _ given => nomatch given
        dropped := fun gone => nomatch gone }

theorem orderly_progress (orderly : front.Orderly text) {event : TrafficEvent}
    (internal : event.internal = true) {traffic : Traffic} {log : List (Nat × LogLine)}
    (stepped : front.traffic.step external cfg event = some traffic) :
    ({ front with traffic := traffic, log := log } : Front).Orderly text where
  places := by
    rw [Traffic.step_length internal stepped]
    exact orderly.places
  holds := fun call member =>
    (orderly.holds call member).of_follows (Traffic.step_followsAt call.places internal stepped)

theorem orderly_deliver (orderly : front.Orderly text) {place : Nat} {call : Call}
    (found : front.calls[place]? = some call) {response : Response}
    (joined : (front.traffic.joinAll call.places).bind (assemble call.payload) = some response) :
    (front.setStatus place call
      (.answered { response := response, traceId := text.fromStr call.traceId })).Orderly text where
  places := (flatMap_setStatus found _).trans orderly.places
  holds := by
    apply forall_setStatus
    · exact {
        serves := (orderly.holds call (List.mem_of_getElem? found)).serves
        waiting := fun waits => nomatch waits
        answered := by
          intro reply given
          cases given
          exact ⟨rfl, Option.bind_eq_some_iff.mp joined⟩
        dropped := fun gone => nomatch gone }
    · intro other _ called calledFound
      exact orderly.holds called (List.mem_of_getElem? calledFound)

theorem orderly_hangUp (orderly : front.Orderly text) {place : Nat} {call : Call}
    (found : front.calls[place]? = some call) {traffic : Traffic}
    (dropped : front.traffic.dropAll external cfg
      (call.places.filter fun place => !front.traffic.endedAt place) = some traffic) :
    (({ front with traffic := traffic } : Front).setStatus place call .dropped).Orderly text := by
  obtain ⟨ends, length, untouched, serving⟩ := Traffic.dropAll_spec dropped
  refine ⟨?_, ?_⟩
  · show (({ front with traffic := traffic } : Front).setStatus place call .dropped).calls.flatMap
      Call.places = List.range traffic.callers.length
    rw [length, ← orderly.places]
    exact flatMap_setStatus found .dropped
  · apply forall_setStatus
    · exact {
        serves := by
          intro index entry listed
          obtain ⟨caller, callerFound, serves⟩ :=
            (orderly.holds call (List.mem_of_getElem? found)).serves index entry listed
          obtain ⟨later, laterFound, kept⟩ := serving _ caller callerFound
          exact ⟨later, laterFound, kept.trans serves⟩
        waiting := fun waits => nomatch waits
        answered := fun _ given => nomatch given
        dropped := by
          intro _ own member
          by_cases unended :
              own ∈ call.places.filter fun place => !front.traffic.endedAt place
          · exact ends own unended
          · have before : front.traffic.endedAt own = true := by
              by_contra unfinished
              exact unended (List.mem_filter.mpr ⟨member, by simpa using unfinished⟩)
            have same := untouched own unended
            show traffic.endedAt own = true
            unfold Traffic.endedAt at before ⊢
            rw [same]
            exact before }
    · intro other different called calledFound
      apply (orderly.holds called (List.mem_of_getElem? calledFound)).of_follows
      apply Traffic.followsAt_of_same
      intro theirs member
      apply untouched
      intro dropping
      exact orderly.disjoint different calledFound found member (List.mem_of_mem_filter dropping)

theorem orderly_step (orderly : front.Orderly text) {event : FrontEvent}
    (stepped : front.step external text cfg event = some next) : next.Orderly text := by
  cases step_moves stepped with
  | posts headers fresh payload => exact orderly_post cfg orderly headers fresh payload
  | works _ _ internal taken => exact orderly_progress orderly internal taken
  | delivers _ _ _ found _ whole => exact orderly_deliver orderly found whole
  | hangsUp _ _ _ found _ taken => exact orderly_hangUp orderly found taken

/-- In every run the requests are those of the calls. -/
theorem orderly_of_reachable (reached : (machine external text cfg startedAt).Reachable front) :
    front.Orderly text :=
  reached.invariant (I := Orderly text)
    ⟨rfl, fun _ member => absurd member List.not_mem_nil⟩
    fun _ _ _ orderly stepped => orderly_step orderly stepped

end Orderly

end Front

end Disburse
