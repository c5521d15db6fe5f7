import Disburse.Proxy.Reply

/-!
Owns the postcondition of the retry loop of `forward_core` when it runs to its
end: which attempts it fires, where it stops, what it returns, and how the
probes among its attempts settle.

`Retries` is the derivation of one run, attempt by attempt; the loop has one,
and the postcondition goes by induction on it.
-/

namespace Disburse

open Disburse.Library

/-! ### Settlements -/

/-- The calls of `settle_probe` at the end of an attempt: the upstream and the flag. -/
def settleCalls (flight : InFlight) (success : Bool) : List (String × Bool) :=
  if flight.isProbe then [(flight.upstream.name, success)] else []

def AppState.settleProbe (cfg : Config) (now : Instant) (state : AppState)
    (call : String × Bool) : AppState :=
  { state with
    pool := state.pool.setCircuit call.1
      ((state.pool.circuit call.1).settleProbe call.2 now cfg.cooldown) }

/-- The end of an attempt: some settlements, then the permit goes back. -/
def leaveAttempt (cfg : Config) (state : AppState) (name : String) (calls : List (String × Bool))
    (now : Instant) : AppState :=
  (calls.foldl (AppState.settleProbe cfg now) state).releasePermit name

theorem settleAttempt_eq (cfg : Config) (state : AppState) (flight : InFlight) (success : Bool)
    (now : Instant) :
    settleAttempt cfg state flight success now =
      leaveAttempt cfg state flight.upstream.name (settleCalls flight success) now := by
  unfold settleAttempt leaveAttempt settleCalls
  cases flight.isProbe <;> rfl

/-! ### The derivation of a run -/

/-- An attempt that was fired, with what came of it and the settlements at its end. -/
structure Fired where
  flight : InFlight
  exchange : Exchange
  outcome : AttemptOutcome
  settlements : List (String × Bool)

def Fired.name (attempt : Fired) : String := attempt.flight.upstream.name

section Derivation

variable (external : External) (cfg : Config) (schedule : Schedule) (id : Json) (method : String)

/-- The environment of the attempt that the loop makes next. -/
def Schedule.upcoming (loop : ForwardLoop) : Attempt := schedule.attempts loop.answered.length

/-- The selection at the top of the loop. -/
def beginAttempt (state : AppState) (loop : ForwardLoop) :
    AppState × Option (ForwardLoop × InFlight) :=
  let attempt := schedule.upcoming loop
  startAttempt cfg (attempt.before state) attempt.selectAt method loop attempt.draws

/-- The end of the request that was sent in `state`. -/
def finishAttempt (attempt : Attempt) (state : AppState) (flight : InFlight) :
    AppState × AttemptOutcome :=
  fireOnce external cfg (attempt.meanwhile state) flight.upstream method id attempt.exchange
    attempt.latencyMs attempt.doneAt

/-- One run of the loop from a state and its locals, with the attempts left. -/
inductive Retries : Nat → AppState → ForwardLoop → List Fired → Forwarding → Prop where
  | spent (state : AppState) (loop : ForwardLoop) :
      Retries 0 state loop []
        { state := state, result := some (loop.exhausted id), answered := loop.answered }
  | unavailable {remaining : Nat} {state after : AppState} {loop : ForwardLoop}
      (refused : beginAttempt cfg schedule method state loop = (after, none)) :
      Retries (remaining + 1) state loop []
        { state := after, result := some (loop.exhausted id), answered := loop.answered }
  | succeeded {remaining : Nat} {state sent ended : AppState} {loop begun : ForwardLoop}
      {flight : InFlight} {bytes : Bytes} {contentType : Option String}
      (started : beginAttempt cfg schedule method state loop = (sent, some (begun, flight)))
      (awaited : finishAttempt external cfg id method (schedule.upcoming loop) sent flight =
        (ended, .ok bytes contentType)) :
      Retries (remaining + 1) state loop
        [{ flight := flight
           exchange := (schedule.upcoming loop).exchange
           outcome := .ok bytes contentType
           settlements := settleCalls flight true }]
        { state := leaveAttempt cfg ended flight.upstream.name (settleCalls flight true)
            (schedule.upcoming loop).doneAt
          result := some (.ok bytes contentType flight.upstream.name)
          answered := begun.answered ++ [(schedule.upcoming loop).exchange] }
  | failed {remaining : Nat} {state sent ended : AppState} {loop begun : ForwardLoop}
      {flight : InFlight} {error : Json} {rest : List Fired} {final : Forwarding}
      (started : beginAttempt cfg schedule method state loop = (sent, some (begun, flight)))
      (awaited : finishAttempt external cfg id method (schedule.upcoming loop) sent flight =
        (ended, .err error))
      (goesOn : Retries remaining
        (leaveAttempt cfg ended flight.upstream.name (settleCalls flight false)
          (schedule.upcoming loop).doneAt)
        (begun.next cfg flight.upstream.name (schedule.upcoming loop).exchange (.err error)).1
        rest final) :
      Retries (remaining + 1) state loop
        ({ flight := flight
           exchange := (schedule.upcoming loop).exchange
           outcome := .err error
           settlements := settleCalls flight false } :: rest) final

variable {schedule} in
/-- A loop that is not cancelled has a derivation. -/
theorem forwardLoop_retries (uncancelled : schedule.deadline = none) (remaining : Nat)
    (state : AppState) (loop : ForwardLoop) :
    ∃ fired, Retries external cfg schedule id method remaining state loop fired
      (forwardLoop external cfg schedule id method remaining state loop) := by
  induction remaining generalizing state loop with
  | zero => exact ⟨[], .spent state loop⟩
  | succ remaining inductionHypothesis =>
      rw [forwardLoop]
      dsimp only
      split
      · rename_i after refused
        exact ⟨[], .unavailable refused⟩
      · rename_i sent begun flight started
        rw [uncancelled, if_neg (by simp)]
        cases awaited : finishAttempt external cfg id method (schedule.upcoming loop) sent
          flight with
        | mk ended outcome =>
            have fired := awaited
            simp only [finishAttempt, Schedule.upcoming] at fired
            rw [fired, settleAttempt_eq]
            cases outcome with
            | ok bytes contentType => exact ⟨_, .succeeded started awaited⟩
            | err error =>
                obtain ⟨rest, goesOn⟩ := inductionHypothesis
                  (leaveAttempt cfg ended flight.upstream.name (settleCalls flight false)
                    (schedule.upcoming loop).doneAt)
                  (begun.next cfg flight.upstream.name (schedule.upcoming loop).exchange
                    (.err error)).1
                exact ⟨_, .failed started awaited goesOn⟩

end Derivation

/-! ### What a run does -/

/-- The result of the loop when the attempt is its last. -/
def Fired.result (attempt : Fired) : ForwardResult :=
  match attempt.outcome with
  | .ok bytes contentType => .ok bytes contentType attempt.name
  | .err error => .err error (some attempt.name)

theorem Fired.result_eq_ok {attempt : Fired} {bytes : Bytes} {contentType : Option String}
    {upstream : String} :
    attempt.result = .ok bytes contentType upstream ↔
      attempt.outcome = .ok bytes contentType ∧ attempt.name = upstream := by
  unfold Fired.result
  cases attempt.outcome <;> simp [and_assoc]

theorem Fired.result_of_err {attempt : Fired} {error : Json}
    (outcome : attempt.outcome = .err error) :
    attempt.result = .err error (some attempt.name) := by
  rw [Fired.result, outcome]

theorem Fired.result_named {attempt : Fired} {error : Json} : attempt.result ≠ .err error none := by
  unfold Fired.result
  cases attempt.outcome <;> simp

/-- The result of a loop by the attempts that it fired. -/
def ForwardLoop.resultAfter (loop : ForwardLoop) (id : Json) (fired : List Fired) :
    ForwardResult :=
  match fired.getLast? with
  | none => loop.exhausted id
  | some last => last.result

section Run

variable {external : External} {cfg : Config} {schedule : Schedule} {id : Json} {method : String}
  {remaining : Nat} {state : AppState} {loop : ForwardLoop} {fired : List Fired}
  {final : Forwarding}

/-- An attempt goes to a configured upstream that is not excluded. -/
theorem beginAttempt_started {sent : AppState} {begun : ForwardLoop} {flight : InFlight}
    (started : beginAttempt cfg schedule method state loop = (sent, some (begun, flight))) :
    flight.upstream ∈ cfg.pool ∧ flight.upstream.name ∉ loop.excluded ∧
      begun = { loop with lastUpstream := some flight.upstream.name } := by
  have spec := selectAndAdmit_spec cfg ((schedule.upcoming loop).before state).pool
    (schedule.upcoming loop).selectAt method loop.excluded (schedule.upcoming loop).draws
  simp only [beginAttempt, startAttempt] at started
  split at started
  · cases started
  · rename_i pool upstream isProbe selection
    rw [selection] at spec
    obtain ⟨member, allowed, -⟩ := spec.chosen upstream isProbe rfl
    cases started
    exact ⟨member, allowed, rfl⟩

theorem Retries.length_le
    (run : Retries external cfg schedule id method remaining state loop fired final) :
    fired.length ≤ remaining := by
  induction run with
  | spent => exact Nat.le_refl 0
  | unavailable => exact Nat.zero_le _
  | succeeded => exact Nat.succ_le_succ (Nat.zero_le _)
  | failed _ _ _ inductionHypothesis => exact Nat.succ_le_succ inductionHypothesis

theorem Retries.configured
    (run : Retries external cfg schedule id method remaining state loop fired final) :
    ∀ attempt ∈ fired, attempt.flight.upstream ∈ cfg.pool := by
  induction run with
  | spent => simp
  | unavailable => simp
  | succeeded started =>
      intro attempt member
      rw [List.mem_singleton.mp member]
      exact (beginAttempt_started started).1
  | failed started _ _ inductionHypothesis =>
      intro attempt member
      rcases List.mem_cons.mp member with rfl | later
      · exact (beginAttempt_started started).1
      · exact inductionHypothesis attempt later

/-- What an attempt fires is excluded from the later ones. -/
theorem Retries.distinct (different : cfg.retries.retryOnDifferentUpstream = true)
    (run : Retries external cfg schedule id method remaining state loop fired final) :
    (∀ attempt ∈ fired, attempt.name ∉ loop.excluded) ∧ (fired.map Fired.name).Nodup := by
  induction run with
  | spent => simp
  | unavailable => simp
  | succeeded started =>
      refine ⟨fun attempt member => ?_, List.nodup_singleton _⟩
      rw [List.mem_singleton.mp member]
      exact (beginAttempt_started started).2.1
  | @failed _ _ _ _ loop _ flight _ rest _ started _ _ inductionHypothesis =>
      obtain ⟨-, allowed, rfl⟩ := beginAttempt_started started
      obtain ⟨unused, distinct⟩ := inductionHypothesis
      have excluded : ∀ attempt ∈ rest, attempt.name ∉ loop.excluded ++ [flight.upstream.name] := by
        simpa [ForwardLoop.next, different] using unused
      constructor
      · intro attempt member
        rcases List.mem_cons.mp member with rfl | later
        · exact allowed
        · exact fun inside => excluded attempt later (List.mem_append_left _ inside)
      · rw [List.map_cons, List.nodup_cons]
        refine ⟨fun repeated => ?_, distinct⟩
        obtain ⟨attempt, later, same⟩ := List.mem_map.mp repeated
        exact excluded attempt later (by rw [same]; simp [Fired.name])

/-- The loop returns what its last attempt gives. -/
theorem Retries.result_eq
    (run : Retries external cfg schedule id method remaining state loop fired final) :
    final.result = some (loop.resultAfter id fired) := by
  induction run with
  | spent => rfl
  | unavailable => rfl
  | succeeded => rfl
  | @failed _ _ _ _ loop _ _ _ rest _ started _ _ inductionHypothesis =>
      obtain ⟨-, -, rfl⟩ := beginAttempt_started started
      rw [inductionHypothesis]
      unfold ForwardLoop.resultAfter
      rw [List.getLast?_cons]
      cases rest.getLast? <;> rfl

/-- Every attempt before the last failed. -/
theorem Retries.stops
    (run : Retries external cfg schedule id method remaining state loop fired final) :
    ∀ attempt ∈ fired.dropLast, attempt.outcome.success = false := by
  induction run with
  | spent => simp
  | unavailable => simp
  | succeeded => simp
  | @failed _ _ _ _ _ _ _ _ rest _ _ _ _ inductionHypothesis =>
      intro attempt member
      cases rest with
      | nil => simp at member
      | cons next later =>
          rw [List.dropLast_cons_cons] at member
          rcases List.mem_cons.mp member with rfl | inside
          · rfl
          · exact inductionHypothesis attempt inside

/-- The outcome of an attempt is that of its exchange, and its settlements carry
this outcome. -/
theorem Retries.outcomes
    (run : Retries external cfg schedule id method remaining state loop fired final) :
    ∀ attempt ∈ fired,
      attempt.outcome = attemptOutcome external cfg attempt.flight.upstream id attempt.exchange ∧
        attempt.settlements = settleCalls attempt.flight attempt.outcome.success := by
  have ends {attempt : Attempt} {sent ended : AppState} {flight : InFlight}
      {outcome : AttemptOutcome}
      (finished : finishAttempt external cfg id method attempt sent flight = (ended, outcome)) :
      outcome = attemptOutcome external cfg flight.upstream id attempt.exchange := by
    have same := fireOnce_outcome external cfg (attempt.meanwhile sent) flight.upstream method id
      attempt.exchange attempt.latencyMs attempt.doneAt
    rw [finishAttempt] at finished
    rw [finished] at same
    exact same
  induction run with
  | spent => simp
  | unavailable => simp
  | succeeded _ finished =>
      intro attempt member
      rw [List.mem_singleton.mp member]
      exact ⟨ends finished, rfl⟩
  | failed _ finished _ inductionHypothesis =>
      intro attempt member
      rcases List.mem_cons.mp member with rfl | later
      · exact ⟨ends finished, rfl⟩
      · exact inductionHypothesis attempt later

/-- The error of a failed attempt is not the one for no attempt, unless the upstream
itself sent that. -/
theorem attemptOutcome_noUpstream {upstream : Upstream} {exchange : Exchange}
    (outcome : attemptOutcome external cfg upstream id exchange = .err (noUpstreamError id)) :
    ∃ status bytes, Delivered cfg exchange status bytes ∧
      external.fromSlice bytes = some (noUpstreamError id) := by
  have other {code : ErrorCode} {message : String} (differs : code ≠ .allUpstreamsExhausted) :
      jsonrpcError id code message ≠ noUpstreamError id :=
    fun same => differs (jsonrpcError_code same)
  unfold attemptOutcome at outcome
  split at outcome
  · rename_i failure
    refine absurd (AttemptOutcome.err.inj outcome) (other ?_)
    unfold classifyReqwestError
    dsimp only
    split
    · simp
    · split <;> simp
  · rename_i response
    split at outcome
    · exact absurd (AttemptOutcome.err.inj outcome) (other (by decide))
    · exact absurd (AttemptOutcome.err.inj outcome) (other (by decide))
    · rename_i status contentType bytes read
      split at outcome
      · cases outcome
      · have surfaced := AttemptOutcome.err.inj outcome
        cases parsed : external.fromSlice bytes with
        | none =>
            rw [parsed] at surfaced
            exact absurd surfaced (other (by decide))
        | some value =>
            rw [parsed] at surfaced
            exact ⟨status, bytes, ⟨response, contentType, rfl, read⟩,
              by rw [parsed, ← surfaced]; rfl⟩

end Run

/-! ### The postcondition -/

/-- What `forward_core` promises of the attempts it fires and of its result. The
error for no attempt names no upstream; as the error of an attempt it can only be
what the upstream sent. -/
structure RetryPost (external : External) (cfg : Config) (id : Json) (fired : List Fired)
    (result : Option ForwardResult) : Prop where
  bounded : fired.length ≤ cfg.retries.maxAttempts
  distinct : cfg.retries.retryOnDifferentUpstream = true →
    (fired.map Fired.name).Nodup ∧
      fired.length ≤ min cfg.retries.maxAttempts cfg.upstreams.length
  succeeds : (∃ bytes contentType upstream, result = some (.ok bytes contentType upstream)) ↔
    ∃ attempt ∈ fired, attempt.outcome.success = true
  stops : ∀ attempt ∈ fired.dropLast, attempt.outcome.success = false
  delivers : ∀ bytes contentType upstream, result = some (.ok bytes contentType upstream) →
    ∃ last, fired.getLast? = some last ∧ last.outcome = .ok bytes contentType ∧
      last.name = upstream
  surfaces : ∀ last error, fired.getLast? = some last → last.outcome = .err error →
    result = some (.err error (some last.name))
  exhausted : result = some (.err (noUpstreamError id) none) ↔ fired = []
  echoed : ∀ last, fired.getLast? = some last → last.outcome = .err (noUpstreamError id) →
    ∃ status bytes, Delivered cfg last.exchange status bytes ∧
      external.fromSlice bytes = some (noUpstreamError id)
  settled : ∀ attempt ∈ fired, attempt.settlements =
    if attempt.flight.isProbe then [(attempt.name, attempt.outcome.success)] else []

section Post

variable {external : External} {cfg : Config} {schedule : Schedule} {id : Json} {method : String}
  {state : AppState} {fired : List Fired} {final : Forwarding}

/-- Attempts on different upstreams are no more than there are upstreams. -/
theorem Retries.length_le_upstreams (different : cfg.retries.retryOnDifferentUpstream = true)
    {remaining : Nat} {loop : ForwardLoop}
    (run : Retries external cfg schedule id method remaining state loop fired final) :
    fired.length ≤ cfg.upstreams.length := by
  have names : fired.map Fired.name ⊆ cfg.pool.map Upstream.name := by
    intro name member
    obtain ⟨attempt, inside, rfl⟩ := List.mem_map.mp member
    exact List.mem_map_of_mem (run.configured attempt inside)
  have fewer := ((run.distinct different).2.subperm names).length_le
  simpa [Config.pool] using fewer

theorem Retries.last_result {remaining : Nat} {loop : ForwardLoop} {last : Fired}
    (run : Retries external cfg schedule id method remaining state loop fired final)
    (found : fired.getLast? = some last) : final.result = some last.result := by
  rw [run.result_eq, ForwardLoop.resultAfter, found]

/-- A success returned is that of the last attempt. -/
theorem Retries.delivers
    (run : Retries external cfg schedule id method cfg.retries.maxAttempts state .new fired final)
    {bytes : Bytes} {contentType : Option String} {upstream : String}
    (returned : final.result = some (.ok bytes contentType upstream)) :
    ∃ last, fired.getLast? = some last ∧ last.outcome = .ok bytes contentType ∧
      last.name = upstream := by
  cases found : fired.getLast? with
  | none =>
      rw [run.result_eq, ForwardLoop.resultAfter, found] at returned
      cases returned
  | some last =>
      rw [run.last_result found, Option.some_inj] at returned
      exact ⟨last, rfl, Fired.result_eq_ok.mp returned⟩

/-- A success among the attempts is the last of them, and is returned. -/
theorem Retries.succeeds_iff
    (run : Retries external cfg schedule id method cfg.retries.maxAttempts state .new fired final) :
    (∃ bytes contentType upstream, final.result = some (.ok bytes contentType upstream)) ↔
      ∃ attempt ∈ fired, attempt.outcome.success = true := by
  constructor
  · rintro ⟨bytes, contentType, upstream, returned⟩
    obtain ⟨last, found, outcome, -⟩ := run.delivers returned
    exact ⟨last, List.mem_of_getLast? found, by rw [outcome]; rfl⟩
  · rintro ⟨attempt, member, success⟩
    have nonempty := List.ne_nil_of_mem member
    have isLast : fired.getLast nonempty = attempt := by
      rw [← List.dropLast_append_getLast nonempty] at member
      rcases List.mem_append.mp member with earlier | same
      · rw [run.stops attempt earlier] at success
        cases success
      · exact (List.mem_singleton.mp same).symm
    have found : fired.getLast? = some attempt := by
      rw [List.getLast?_eq_some_getLast nonempty, isLast]
    cases outcome : attempt.outcome with
    | ok bytes contentType =>
        refine ⟨bytes, contentType, attempt.name, ?_⟩
        rw [run.last_result found, Fired.result_eq_ok.mpr ⟨outcome, rfl⟩]
    | err error =>
        rw [outcome] at success
        cases success

/-- Every result of an attempt names its upstream. -/
theorem Retries.exhausted_iff
    (run : Retries external cfg schedule id method cfg.retries.maxAttempts state .new fired final) :
    final.result = some (.err (noUpstreamError id) none) ↔ fired = [] := by
  constructor
  · intro returned
    by_contra nonempty
    rw [run.last_result (List.getLast?_eq_some_getLast nonempty), Option.some_inj] at returned
    exact Fired.result_named returned
  · rintro rfl
    exact run.result_eq

theorem Retries.post
    (run : Retries external cfg schedule id method cfg.retries.maxAttempts state .new fired final) :
    RetryPost external cfg id fired final.result where
  bounded := run.length_le
  distinct different :=
    ⟨(run.distinct different).2, le_min run.length_le (run.length_le_upstreams different)⟩
  succeeds := run.succeeds_iff
  stops := run.stops
  delivers _ _ _ := run.delivers
  surfaces last error found outcome := by
    rw [run.last_result found, Fired.result_of_err outcome]
  exhausted := run.exhausted_iff
  echoed last found outcome := by
    have own := (run.outcomes last (List.mem_of_getLast? found)).1
    exact attemptOutcome_noUpstream (own.symm.trans outcome)
  settled attempt member := (run.outcomes attempt member).2

/-- The retry loop is correct: a call of `forward_core` that is not cancelled, on a
request that can be serialized, fires its attempts as it should, returns what they
give, and settles each of its probes once with the outcome of the probe. -/
theorem forwardCore_retries (uncancelled : schedule.deadline = none) {request : Json}
    {bytes : Bytes} (serialized : external.toVec request = some bytes) (state : AppState) :
    ∃ fired,
      Retries external cfg schedule id method cfg.retries.maxAttempts state .new fired
        (forwardCore external cfg state schedule request id method) ∧
      RetryPost external cfg id fired
        (forwardCore external cfg state schedule request id method).result := by
  obtain ⟨fired, run⟩ := forwardLoop_retries external cfg id method uncancelled
    cfg.retries.maxAttempts state .new
  have core : forwardCore external cfg state schedule request id method =
      forwardLoop external cfg schedule id method cfg.retries.maxAttempts state .new := by
    rw [forwardCore, serialized]
  rw [core]
  exact ⟨fired, run, run.post⟩

end Post

/-- Both upstreams refuse with status 429. -/
theorem forwardCore_retries_refused :
    ∃ fired,
      Retries .rateLimited .deployment (uniformSchedule 429 rateLimitBody) .null "getSlot" 3
        (.start .deployment 0) .new fired
        (forwardCore .rateLimited .deployment (.start .deployment 0)
          (uniformSchedule 429 rateLimitBody) getSlotRequest .null "getSlot") ∧
      RetryPost .rateLimited .deployment .null fired
        (forwardCore .rateLimited .deployment (.start .deployment 0)
          (uniformSchedule 429 rateLimitBody) getSlotRequest .null "getSlot").result :=
  forwardCore_retries rfl rfl (.start .deployment 0)

end Disburse
