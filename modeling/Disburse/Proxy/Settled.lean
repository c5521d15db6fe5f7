import Disburse.Proxy.Answers

/-!
Owns what comes before and after the reply to a call: the trace id it carries goes
back to the headers that the call came with, and once a call has its reply or its
client has hung up, nothing is done for it any more.
-/

namespace Disburse

open Disburse.Library

/-! ### Trace ids -/

/-- What the `http` crate promises: a value that was read as text is written back
as it was. -/
structure HeaderText.Lawful (text : HeaderText) : Prop where
  back : ∀ bytes value, text.toStr bytes = some value → text.fromStr value = some bytes

/-- The header value can serve as a trace id. -/
def HeaderText.Usable (text : HeaderText) (bytes : Bytes) : Prop :=
  ∃ value, text.toStr bytes = some value ∧ value ≠ "" ∧ value.utf8ByteSize ≤ 128

/-- The header that decides: `x-request-id` counts only without an `x-trace-id`. -/
def givenTrace (headers : Headers) : Option Bytes :=
  (headers "x-trace-id").or (headers "x-request-id")

/-- The bytes of a usable header come back, else the fresh id does. -/
structure HeaderText.Echoes (text : HeaderText) (headers : Headers) (fresh : String)
    (echoed : Option Bytes) : Prop where
  given : ∀ bytes, givenTrace headers = some bytes → text.Usable bytes → echoed = some bytes
  other : (∀ bytes, givenTrace headers = some bytes → ¬ text.Usable bytes) →
    echoed = text.fromStr fresh

theorem echoes_traceId {text : HeaderText} (lawful : text.Lawful) (headers : Headers)
    (fresh : String) : text.Echoes headers fresh (text.fromStr (traceId text headers fresh)) where
  given := by
    rintro bytes found ⟨value, read, nonempty, short⟩
    have usable : (value != "" && decide (value.utf8ByteSize ≤ 128)) = true := by
      simp [nonempty, short]
    unfold traceId
    rw [show (headers "x-trace-id").or (headers "x-request-id") = some bytes from found]
    dsimp only
    rw [Option.bind_some, read, Option.filter_some, if_pos usable, Option.getD_some]
    exact lawful.back bytes value read
  other := by
    intro unusable
    unfold traceId
    dsimp only
    cases found : (headers "x-trace-id").or (headers "x-request-id") with
    | none => rfl
    | some bytes =>
        rw [Option.bind_some]
        cases read : text.toStr bytes with
        | none => rfl
        | some value =>
            rw [Option.filter_some, if_neg, Option.getD_none]
            intro usable
            rw [Bool.and_eq_true, bne_iff_ne, decide_eq_true_eq] at usable
            exact unusable bytes found ⟨value, read, usable.1, usable.2⟩

namespace Front

/-- The event brings in the call at this place, with this payload and headers that
are echoed so. -/
def Opens (text : HeaderText) (place : Nat) (payload : Json) (echoed : Option Bytes)
    (front : Front) (event : FrontEvent) : Prop :=
  ∃ headers fresh, event = .post headers fresh payload ∧ front.calls.length = place ∧
    text.Echoes headers fresh echoed

section Run

variable {external : External} {text : HeaderText} {cfg : Config} {startedAt : Instant}
  {front next : Front}

/-- There is a call at this place with this payload and this trace id. -/
def CalledAt (place : Nat) (payload : Json) (id : String) (front : Front) : Prop :=
  ∃ call, front.calls[place]? = some call ∧ call.payload = payload ∧ call.traceId = id

theorem calledAt_setStatus {place other : Nat} {payload : Json} {id : String} {call : Call}
    {status : CallStatus} (found : front.calls[other]? = some call)
    (called : (front.setStatus other call status).CalledAt place payload id) :
    front.CalledAt place payload id := by
  obtain ⟨own, ownFound, same⟩ := called
  rw [setStatus, List.getElem?_set] at ownFound
  split at ownFound
  · rename_i equal
    split at ownFound
    · rw [Option.some_inj] at ownFound
      subst ownFound
      exact ⟨call, equal ▸ found, same⟩
    · cases ownFound
  · exact ⟨own, ownFound, same⟩

theorem calledAt_cause {place : Nat} {payload : Json} {id : String} {event : FrontEvent}
    (stepped : front.step external text cfg event = some next)
    (called : next.CalledAt place payload id) :
    front.CalledAt place payload id ∨
      ∃ headers fresh, event = .post headers fresh payload ∧ front.calls.length = place ∧
        id = traceId text headers fresh := by
  cases step_moves stepped with
  | posts headers fresh posted =>
      obtain ⟨own, found, rfl, rfl⟩ := called
      by_cases inside : place < front.calls.length
      · exact Or.inl ⟨own, (List.getElem?_append_left inside).symm.trans found, rfl, rfl⟩
      · have placed := List.getElem?_append_right (Nat.le_of_not_lt inside) ▸ found
        rw [List.getElem?_singleton] at placed
        split at placed
        · rw [Option.some_inj] at placed
          subst placed
          exact Or.inr ⟨headers, fresh, rfl, by omega, rfl⟩
        · cases placed
  | works => exact Or.inl called
  | delivers _ _ _ found => exact Or.inl (calledAt_setStatus found called)
  | hangsUp other call traffic found =>
      have same : ({ front with traffic := traffic } : Front).calls[other]? = some call := found
      exact Or.inl (calledAt_setStatus same called)

/-- In every run the reply to a call echoes the headers with which the call came in. -/
theorem traced_of_post (lawful : text.Lawful) {events : List FrontEvent}
    (run : (machine external text cfg startedAt).exec events = some front) {place : Nat}
    {call : Call} (found : front.calls[place]? = some call) {reply : HttpReply}
    (given : call.status = .answered reply) :
    (machine external text cfg startedAt).SomeStep (Opens text place call.payload reply.traceId)
      (machine external text cfg startedAt).init events := by
  have holds := (orderly_of_reachable ⟨events, run⟩).holds call (List.mem_of_getElem? found)
  rw [(holds.answered reply given).1]
  have caused := Machine.someStep_of_holds (P := CalledAt place call.payload call.traceId)
    (fun ⟨_, absent, _⟩ => nomatch absent)
    (fun _ _ _ _ stepped called => calledAt_cause stepped called) run ⟨call, found, rfl, rfl⟩
  apply caused.mono
  rintro before event ⟨headers, fresh, posted, placed, traced⟩
  refine ⟨headers, fresh, posted, placed, ?_⟩
  rw [traced]
  exact echoes_traceId lawful headers fresh

end Run

end Front

theorem toNat_charOf {byte : UInt8} (small : byte < 127) :
    (Char.ofNat byte.toNat).toNat = byte.toNat := by
  have bound : byte.toNat < 127 := small
  have valid : byte.toNat.isValidChar := Or.inl (by omega)
  rw [Char.ofNat, dif_pos valid]
  rfl

/-- Visible characters are written as the bytes they were read from. -/
theorem HeaderText.visible_lawful : HeaderText.visible.Lawful where
  back := by
    intro bytes value read
    simp only [HeaderText.visible, Option.ite_none_right_eq_some, Option.some_inj] at read ⊢
    obtain ⟨printable, rfl⟩ := read
    rw [List.all_eq_true] at printable
    have bounds : ∀ byte ∈ bytes, 32 ≤ byte ∧ byte < 127 := by
      intro byte member
      simpa using printable byte member
    have numbers : ∀ byte ∈ bytes, (Char.ofNat byte.toNat).toNat = byte.toNat :=
      fun byte member => toNat_charOf (bounds byte member).2
    rw [String.toList_ofList, List.all_map, List.map_map]
    constructor
    · rw [List.all_eq_true]
      intro byte member
      rw [Function.comp_apply, numbers byte member]
      have bound := bounds byte member
      simpa using And.intro (UInt8.le_iff_toNat_le.mp bound.1) (UInt8.lt_iff_toNat_lt.mp bound.2)
    · refine (List.map_congr_left fun byte member => ?_).trans (List.map_id bytes)
      rw [Function.comp_apply, numbers byte member]
      exact UInt8.ofNat_toNat

namespace Front

/-- A request that names no method, sent with a trace id, and its reply. -/
def tracedRun : List FrontEvent :=
  [.post (fun name => if name = "x-trace-id" then some [97, 49] else none) "b7f0"
      (.object [("id", .number (.posInt 8))]),
    .progress (.start 0 0),
    .deliver 0]

theorem traced_of_post_traced :
    ∃ front call reply, (machine .plain .visible .deployment 0).exec tracedRun = some front ∧
      front.calls[0]? = some call ∧ call.status = .answered reply ∧
      (machine .plain .visible .deployment 0).SomeStep (Opens .visible 0 call.payload reply.traceId)
        (machine .plain .visible .deployment 0).init tracedRun := by
  have answered : ((machine .plain .visible .deployment 0).exec tracedRun).map (fun front =>
      front.calls.map fun call => call.status.given.isSome) = some [true] := by
    decide +kernel
  obtain ⟨front, run, all⟩ := Option.map_eq_some_iff.mp answered
  obtain ⟨call, only, status⟩ := List.map_eq_singleton_iff.mp all
  obtain ⟨reply, given⟩ := Option.isSome_iff_exists.mp status
  have found : front.calls[0]? = some call := by
    rw [only]
    rfl
  have answeredWith := CallStatus.eq_answered given
  exact ⟨front, call, reply, run, found, answeredWith,
    traced_of_post HeaderText.visible_lawful run found answeredWith⟩

/-! ### Calls that are over -/

/-- The event moves the call at this place or one of its requests. -/
def Touches (place : Nat) (call : Call) : FrontEvent → Prop
  | .post _ _ _ => False
  | .progress event => ∃ own ∈ call.places, event.caller = some own
  | .deliver other | .hangUp other => other = place

section Settled

variable {external : External} {text : HeaderText} {cfg : Config} {startedAt : Instant}
  {front next : Front} {place : Nat} {call : Call}

/-- A call that does not wait is not touched by a step and is left as it is, with
its requests. -/
theorem step_of_settled (orderly : front.Orderly text) (found : front.calls[place]? = some call)
    (settled : call.status ≠ .waiting) {event : FrontEvent}
    (stepped : front.step external text cfg event = some next) :
    ¬ Touches place call event ∧ next.calls[place]? = some call ∧
      ∀ own ∈ call.places, next.traffic.callers[own]? = front.traffic.callers[own]? := by
  have ended := endedAt_of_settled (orderly.holds call (List.mem_of_getElem? found)) settled
  have waitsElsewhere : ∀ other waiting, front.calls[other]? = some waiting →
      waiting.status = .waiting → other ≠ place := by
    rintro other waiting waitingFound status rfl
    rw [found, Option.some_inj] at waitingFound
    exact settled (waitingFound ▸ status)
  cases step_moves stepped with
  | posts headers fresh payload =>
      refine ⟨id, ?_, fun own member => ?_⟩
      · exact (List.getElem?_append_left (List.getElem?_eq_some_iff.mp found).1).trans found
      · obtain ⟨caller, callerFound, _⟩ := (Option.any_eq_true _ _).mp (ended own member)
        exact List.getElem?_append_left (List.getElem?_eq_some_iff.mp callerFound).1
  | works event traffic internal taken =>
      have untouched : ¬ Touches place call (.progress event) := by
        rintro ⟨own, member, named⟩
        cases Traffic.step_moves taken with
        | calls _ moved caller result same callerFound moves =>
            rw [named, Option.some_inj] at same
            subst same
            have done := ended own member
            rw [Traffic.endedAt, callerFound, Option.any_some,
              Caller.not_ended_of_step moves] at done
            cases done
        | arrives => cases named
        | polls => cases named
        | seeds => cases named
      refine ⟨untouched, found, fun own member => ?_⟩
      show traffic.callers[own]? = front.traffic.callers[own]?
      cases Traffic.step_moves taken with
      | calls _ moved caller result same callerFound moves =>
          apply List.getElem?_set_ne
          rintro rfl
          exact untouched ⟨moved, member, same⟩
      | arrives => cases internal
      | polls => rfl
      | seeds => rfl
  | delivers other waiting _ waitingFound status =>
      have elsewhere := waitsElsewhere other waiting waitingFound status
      exact ⟨elsewhere, (List.getElem?_set_ne elsewhere).trans found, fun _ _ => rfl⟩
  | hangsUp other waiting traffic waitingFound status taken =>
      have elsewhere := waitsElsewhere other waiting waitingFound status
      refine ⟨elsewhere, (List.getElem?_set_ne elsewhere).trans found, fun own member => ?_⟩
      apply (Traffic.dropAll_spec taken).2.2.1 own
      intro dropping
      exact orderly.disjoint elsewhere waitingFound found (List.mem_of_mem_filter dropping) member

/-- Once a call has its reply or its client has hung up, in every continuation no
event moves it or its requests: all of them stay as they are. -/
theorem settled_rests (reached : (machine external text cfg startedAt).Reachable front)
    (found : front.calls[place]? = some call) (settled : call.status ≠ .waiting)
    {events : List FrontEvent} {later : Front}
    (run : (machine external text cfg startedAt).execFrom front events = some later) :
    (machine external text cfg startedAt).EveryStep (fun _ event => ¬ Touches place call event)
        front events ∧
      later.calls[place]? = some call ∧
      ∀ own ∈ call.places, later.traffic.callers[own]? = front.traffic.callers[own]? := by
  let Kept (current : Front) : Prop := (machine external text cfg startedAt).Reachable current ∧
    current.calls[place]? = some call ∧
    ∀ own ∈ call.places, current.traffic.callers[own]? = front.traffic.callers[own]?
  have start : Kept front := ⟨reached, found, fun _ _ => rfl⟩
  have kept : ∀ before event after, Kept before →
      (machine external text cfg startedAt).step before event = some after →
        Kept after ∧ ¬ Touches place call event := by
    rintro before event after ⟨there, callFound, same⟩ stepped
    obtain ⟨untouched, callKept, requests⟩ :=
      step_of_settled (orderly_of_reachable there) callFound settled stepped
    exact ⟨⟨there.step stepped, callKept, fun own member =>
      (requests own member).trans (same own member)⟩, untouched⟩
  constructor
  · apply Machine.everyStep_of_invariant (machine external text cfg startedAt) (I := Kept) _ start
      (Machine.everyStep_trivial (machine external text cfg startedAt) front events)
    intro before event after holds _ stepped
    exact kept before event after holds stepped
  · have final := Machine.invariant_execFrom (I := Kept)
      (fun before event after holds stepped => (kept before event after holds stepped).1) start run
    exact final.2

/-- Another call comes in, and its request moves. -/
def laterCall : List FrontEvent :=
  [.post (fun _ => none) "c4d1" mixedBatch, .progress (.start 2 6000000)]

theorem settled_rests_answered :
    ∃ front call later, (machine .plain .visible .deployment 0).exec answeredBatch = some front ∧
      front.calls[0]? = some call ∧
      (machine .plain .visible .deployment 0).execFrom front laterCall = some later ∧
      ((machine .plain .visible .deployment 0).EveryStep
          (fun _ event => ¬ Touches 0 call event) front laterCall ∧
        later.calls[0]? = some call ∧
        ∀ own ∈ call.places, later.traffic.callers[own]? = front.traffic.callers[own]?) := by
  have answered : ((machine .plain .visible .deployment 0).exec answeredBatch).map (fun front =>
      front.calls.map fun call => call.status.given.isSome) = some [true] := by
    decide +kernel
  have goesOn : ((machine .plain .visible .deployment 0).exec
      (answeredBatch ++ laterCall)).isSome = true := by
    decide +kernel
  obtain ⟨front, run, all⟩ := Option.map_eq_some_iff.mp answered
  obtain ⟨call, only, status⟩ := List.map_eq_singleton_iff.mp all
  obtain ⟨reply, given⟩ := Option.isSome_iff_exists.mp status
  have found : front.calls[0]? = some call := by
    rw [only]
    rfl
  obtain ⟨later, whole⟩ := Option.isSome_iff_exists.mp goesOn
  have continued : (machine .plain .visible .deployment 0).execFrom front laterCall =
      some later := by
    rw [Machine.exec, Machine.execFrom_append] at whole
    rw [show (machine .plain .visible .deployment 0).execFrom
      (machine .plain .visible .deployment 0).init answeredBatch = some front from run] at whole
    exact whole
  refine ⟨front, call, later, run, found, continued,
    settled_rests ⟨answeredBatch, run⟩ found (fun waits => ?_) continued⟩
  rw [CallStatus.eq_answered given] at waits
  cases waits

end Settled

end Front

end Disburse
