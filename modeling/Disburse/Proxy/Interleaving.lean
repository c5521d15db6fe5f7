import Disburse.Proxy.Replay
import Disburse.Proxy.Traffic

/-!
Owns what a step of a request does and why, and the link between the traffic of
the proxy and the calls of its handlers: also where other requests and the monitors
run between two votes of a verification, each request behaves as one call of its
handler. What its verification was told is the answers of that call.
-/

namespace Disburse

open Disburse.Library

/-- The upstreams that a verification asks when it begins in this entry. -/
def Entry.healthy (cfg : Config) (entry : Entry) : List Upstream :=
  cfg.pool.filter fun upstream => !entry.state.pool.isDropped upstream.name entry.checkAt

/-- The entry with one more answer. -/
def Entry.answered (entry : Entry) (upstream : Upstream) (answer : Option Json) : Entry :=
  { entry with answers := Function.update entry.answers upstream.name answer }

/-- The request is in a verification that began in `entry`: the upstreams before
the asked one gave no boolean. -/
structure Asks (external : External) (cfg : Config) (task : Task) (verification : Verification)
    (entry : Entry) : Prop where
  method : (task.request.get "method").bind Json.asStr = some "sendTransaction"
  warm : entry.state.blockhashCache.isWarmedUp entry.checkAt = true
  found : requestBlockhash external task.request = some verification.blockhash
  unknown : entry.state.blockhashCache.slotOf verification.blockhash = none
  passedOver : ∃ before, entry.healthy cfg = before ++ verification.asked :: verification.rest ∧
    ∀ upstream ∈ before, validityOf (entry.answers upstream.name) = none

/-- The request has come as far as a call of its handler, or waits in the
verification of one. -/
def Caller.Replays (external : External) (cfg : Config) : Caller → Prop
  | .running task => task.Replays external cfg
  | .verifying task verification =>
      task.phase = .entering ∧ task.Replays external cfg ∧
        ∃ entry, Asks external cfg task verification entry

/-! ### A check that goes by a vote -/

section Enter

variable {external : External} {cfg : Config} {task : Task} {entry : Entry}

/-- The end of a request's first stage, when nothing but a vote decides it. -/
def Task.decided (external : External) (task : Task) : Option Bool → Task
  | some true => task.forward external "sendTransaction"
  | some false | none => task.reply (staleError (requestId task.request))

variable (external cfg task entry) in
/-- A call enters with the verdict of the upstreams when its hash is unknown to
a warm cache. -/
theorem enter_of_unknown {blockhash : String}
    (method : (task.request.get "method").bind Json.asStr = some "sendTransaction")
    (warm : entry.state.blockhashCache.isWarmedUp entry.checkAt = true)
    (found : requestBlockhash external task.request = some blockhash)
    (unknown : entry.state.blockhashCache.slotOf blockhash = none) :
    (task.enter external cfg entry.state entry.answers entry.checkAt).2 =
      task.decided external
        ((entry.healthy cfg).findSome? fun upstream =>
          validityOf (entry.answers upstream.name)) := by
  have looked : (entry.state.blockhashCache.getSlot blockhash).1 = none := by
    rw [BlockhashCache.getSlot_fst, unknown]
  show _ = task.decided external
    (verifyBlockhash cfg entry.state.pool entry.checkAt entry.answers)
  rw [Task.enter_eq, beforeForward, method]
  dsimp only
  rw [if_pos rfl, checkBlockhashFreshness, if_pos warm, found]
  dsimp only
  rw [looked]
  rcases verifyBlockhash cfg entry.state.pool entry.checkAt entry.answers with _ | valid
  · rfl
  · cases valid <;> rfl

theorem Entry.answered_self (upstream : Upstream) (answer : Option Json) :
    (entry.answered upstream answer).answers upstream.name = answer := Function.update_self ..

/-- The answer of one upstream is no other's. -/
theorem validityOf_answered {upstream other : Upstream} (different : other.name ≠ upstream.name)
    (answer : Option Json) :
    validityOf ((entry.answered upstream answer).answers other.name) =
      validityOf (entry.answers other.name) := by
  show validityOf (Function.update entry.answers upstream.name answer other.name) = _
  rw [Function.update_of_ne different]

/-- The names of the upstreams that are asked are distinct. -/
theorem healthy_nodup (distinct : (cfg.pool.map Upstream.name).Nodup) (entry : Entry) :
    ((entry.healthy cfg).map Upstream.name).Nodup :=
  (List.filter_sublist.map Upstream.name).nodup distinct

/-- The upstreams before the asked one have other names. -/
theorem names_before_ne {before rest : List Upstream} {asked : Upstream}
    (distinct : ((before ++ asked :: rest).map Upstream.name).Nodup) :
    ∀ upstream ∈ before, upstream.name ≠ asked.name := by
  intro upstream member same
  rw [List.map_append, List.map_cons, List.nodup_append] at distinct
  exact distinct.2.2 upstream.name (List.mem_map_of_mem member) asked.name List.mem_cons_self same

namespace Asks

variable {verification : Verification}

/-- With the answer of the asked upstream nobody before it gives a boolean. -/
theorem before_answered (asks : Asks external cfg task verification entry)
    (distinct : (cfg.pool.map Upstream.name).Nodup) (answer : Option Json) :
    ∃ before, entry.healthy cfg = before ++ verification.asked :: verification.rest ∧
      ∀ upstream ∈ before,
        validityOf ((entry.answered verification.asked answer).answers upstream.name) = none := by
  obtain ⟨before, healthy, silent⟩ := asks.passedOver
  have names := healthy_nodup distinct entry
  rw [healthy] at names
  refine ⟨before, healthy, fun upstream member => ?_⟩
  rw [validityOf_answered (names_before_ne names upstream member)]
  exact silent upstream member

/-- The verdict with the answer of the asked upstream, if that settles it. -/
theorem verdict (asks : Asks external cfg task verification entry)
    (distinct : (cfg.pool.map Upstream.name).Nodup) (answer : Option Json)
    (settles : (validityOf answer).isSome = true ∨ verification.rest = []) :
    (task.enter external cfg entry.state (entry.answered verification.asked answer).answers
      entry.checkAt).2 = task.decided external (validityOf answer) := by
  obtain ⟨before, healthy, silent⟩ := asks.before_answered distinct answer
  have skipped : before.findSome? (fun upstream =>
      validityOf ((entry.answered verification.asked answer).answers upstream.name)) = none :=
    List.findSome?_eq_none_iff.mpr silent
  have entered := enter_of_unknown external cfg task (entry.answered verification.asked answer)
    asks.method asks.warm asks.found asks.unknown
  have same : (entry.answered verification.asked answer).healthy cfg = entry.healthy cfg := rfl
  rw [same, healthy, List.findSome?_append, skipped, Option.none_or, List.findSome?_cons,
    Entry.answered_self] at entered
  cases vote : validityOf answer with
  | some valid =>
      rw [vote] at entered
      exact entered
  | none =>
      rw [vote] at settles entered
      rcases settles with given | last
      · cases given
      · rw [last] at entered
        exact entered

/-- Without a boolean the next upstream is asked in the verification of the call
with this answer. -/
theorem next (asks : Asks external cfg task verification entry)
    (distinct : (cfg.pool.map Upstream.name).Nodup) {answer : Option Json}
    (silent : validityOf answer = none) {upstream : Upstream} {rest : List Upstream}
    (more : verification.rest = upstream :: rest) :
    Asks external cfg task { verification with asked := upstream, rest := rest }
      (entry.answered verification.asked answer) where
  method := asks.method
  warm := asks.warm
  found := asks.found
  unknown := asks.unknown
  passedOver := by
    obtain ⟨before, healthy, quiet⟩ := asks.before_answered distinct answer
    refine ⟨before ++ [verification.asked], ?_, fun other member => ?_⟩
    · show entry.healthy cfg = _
      rw [healthy, more, List.append_assoc]
      rfl
    · rcases List.mem_append.mp member with earlier | own
      · exact quiet other earlier
      · rw [List.mem_singleton.mp own, Entry.answered_self]
        exact silent

end Asks

end Enter

/-! ### What a step of a request does -/

/-- What a request does with an event: its start ends in a refusal, at the check
or in its forwarding; a check goes on with a vote or ends with its client; and past
its start it moves as a task, which does not enter again. -/
inductive Caller.Moves (external : External) (cfg : Config) (state : AppState) :
    Caller → TrafficEvent → AppState × Caller → Prop where
  | refuses (task : Task) (place : Nat) (now : Instant) (phase : task.phase = .entering)
      (unnamed : (task.request.get "method").bind Json.asStr = none) :
      Moves external cfg state (.running task) (.start place now)
        (state, .running (task.reply
          (jsonrpcError (requestId task.request) .invalidRequest "missing method")))
  | checks (task : Task) (place : Nat) (now : Instant) (phase : task.phase = .entering)
      (sends : (task.request.get "method").bind Json.asStr = some "sendTransaction") :
      Moves external cfg state (.running task) (.start place now)
        (task.proceed external
          (beginCheck external cfg state now task.request (requestId task.request)))
  | forwards (task : Task) (place : Nat) (now : Instant) (method : String)
      (phase : task.phase = .entering)
      (named : (task.request.get "method").bind Json.asStr = some method)
      (other : method ≠ "sendTransaction") :
      Moves external cfg state (.running task) (.start place now)
        (state, .running (task.forward external method))
  | votes (task : Task) (verification : Verification) (place : Nat) (answer : Option Json) :
      Moves external cfg state (.verifying task verification) (.vote place answer)
        (task.proceed external (verification.resume state (requestId task.request) answer))
  | hangsUp (task : Task) (verification : Verification) (place : Nat) :
      Moves external cfg state (.verifying task verification) (.other (.disconnect place))
        (state, .running { task with phase := .gone })
  | works (task : Task) (event : SystemEvent) (result : AppState × Task)
      (started : ∀ place answers now, event ≠ .enter place answers now)
      (moves : task.Moves external cfg state event result) :
      Moves external cfg state (.running task) (.other event) (result.1, .running result.2)

/-- An attempt goes to an upstream of the pool that is not excluded and admits it. -/
structure Chosen (cfg : Config) (state : AppState) (now : Instant) (loop : ForwardLoop)
    (upstream : Upstream) : Prop where
  member : upstream ∈ cfg.pool
  fresh : upstream.name ∉ loop.excluded
  admissible : (state.pool.cells upstream.name).Admissible now

theorem startAttempt_chosen {cfg : Config} {state : AppState} {now : Instant} {method : String}
    {loop next : ForwardLoop} {draws : Nat → Nat} {flight : InFlight}
    (starts : (startAttempt cfg state now method loop draws).2 = some (next, flight)) :
    next = { loop with lastUpstream := some flight.upstream.name } ∧
      Chosen cfg state now loop flight.upstream := by
  have spec := selectAndAdmit_spec cfg state.pool now method loop.excluded draws
  unfold startAttempt at starts
  split at starts
  · cases starts
  · rename_i pool upstream isProbe selected
    rw [selected] at spec
    cases starts
    obtain ⟨member, fresh, admitted⟩ := spec.chosen upstream isProbe rfl
    refine ⟨rfl, member, fresh, ?_⟩
    unfold UpstreamCells.Admissible
    rw [admitted]
    rfl

/-- Going on after a checkpoint leaves the state of the checkpoint. -/
theorem Task.proceed_state (external : External) (task : Task)
    (checked : AppState × Checkpoint) : (task.proceed external checked).1 = checked.1 := by
  rcases checked with ⟨_, _ | _ | _⟩ <;> rfl

theorem Caller.step_moves {external : External} {cfg : Config} {state : AppState}
    {caller : Caller} {event : TrafficEvent} {next : AppState × Caller}
    (stepped : caller.step external cfg state event = some next) :
    caller.Moves external cfg state event next := by
  unfold Caller.step at stepped
  split at stepped
  · rename_i task place now
    split at stepped
    · rename_i phase
      cases stepped
      unfold Task.start
      split
      · rename_i unnamed
        exact .refuses task place now phase unnamed
      · rename_i method named
        split
        · rename_i sends
          exact .checks task place now phase (sends ▸ named)
        · rename_i other
          exact .forwards task place now method phase named other
    · cases stepped
  · rename_i task verification place answer
    cases stepped
    exact .votes task verification place answer
  · rename_i task verification place
    cases stepped
    exact .hangsUp task verification place
  · cases stepped
  · rename_i task event started
    obtain ⟨result, taskStep, rfl⟩ := Option.map_eq_some_iff.mp stepped
    exact .works task event result started (Task.step_moves taskStep)
  · cases stepped

/-- A request moves as a task, or it holds no permit before and after and leaves
the cells of all upstreams alone. -/
theorem Caller.Moves.grounded {external : External} {cfg : Config} {state : AppState}
    {caller : Caller} {event : TrafficEvent} {next : AppState × Caller}
    (moves : caller.Moves external cfg state event next) :
    (∃ task own result, caller = .running task ∧ event = .other own ∧
      next = (result.1, .running result.2) ∧ task.Moves external cfg state own result) ∨
    (next.1.pool = state.pool ∧ caller.holds = none ∧ next.2.holds = none ∧
      ∀ place draws now, event ≠ .other (.attempt place draws now)) := by
  cases moves with
  | refuses task place now phase =>
      exact Or.inr ⟨rfl, holds_running (by rw [phase]), rfl, fun _ _ _ => nofun⟩
  | checks task place now phase =>
      obtain ⟨same, grounded⟩ := task.proceed_spec external
        (beginCheck external cfg state now task.request (requestId task.request))
      refine Or.inr ⟨?_, holds_running (by rw [phase]), grounded, fun _ _ _ => nofun⟩
      rw [same]
      apply beginCheck_pool
  | forwards task place now method phase =>
      exact Or.inr ⟨rfl, holds_running (by rw [phase]),
        holds_running (task.forward_flight external method), fun _ _ _ => nofun⟩
  | votes task verification place answer =>
      obtain ⟨same, grounded⟩ := task.proceed_spec external
        (verification.resume state (requestId task.request) answer)
      refine Or.inr ⟨?_, rfl, grounded, fun _ _ _ => nofun⟩
      rw [same]
      apply verification.resume_pool
  | hangsUp task verification place => exact Or.inr ⟨rfl, rfl, rfl, fun _ _ _ => nofun⟩
  | works task own result started moves =>
      exact Or.inl ⟨task, own, result, rfl, rfl, rfl, moves⟩

/-! ### What a check comes to -/

/-- The cache of a state. -/
def AppState.cached (state : AppState) (blockhash : String) : Option Nat :=
  state.blockhashCache.slotOf blockhash

/-- The upstreams that a check may ask at this time. -/
def AppState.askable (cfg : Config) (state : AppState) (now : Instant) : List Upstream :=
  cfg.pool.filter fun upstream => !state.pool.isDropped upstream.name now

/-- A warm cache does not know the hash of the request. -/
structure AppState.Unknown (external : External) (state : AppState) (now : Instant)
    (request : Json) (blockhash : String) : Prop where
  warm : state.blockhashCache.isWarmedUp now = true
  reads : requestBlockhash external request = some blockhash
  unseen : state.cached blockhash = none

/-- A warm cache knows the hash of the request, which is too old. -/
structure AppState.TooOld (external : External) (cfg : Config) (state : AppState) (now : Instant)
    (request : Json) : Prop where
  warm : state.blockhashCache.isWarmedUp now = true
  aged : ∃ blockhash slot, requestBlockhash external request = some blockhash ∧
    state.cached blockhash = some slot ∧
    cfg.health.maxBlockhashAgeSlots < state.pool.tipSlot - slot

/-- Where the first stretch of a check ends, and why. -/
inductive Begun (external : External) (cfg : Config) (state : AppState) (now : Instant)
    (request id : Json) : Checkpoint → Prop where
  | cold (cold : state.blockhashCache.isWarmedUp now = false) :
      Begun external cfg state now request id .passed
  | unread (unread : requestBlockhash external request = none) :
      Begun external cfg state now request id .passed
  | fresh (blockhash : String) (slot : Nat)
      (reads : requestBlockhash external request = some blockhash)
      (cached : state.cached blockhash = some slot)
      (age : state.pool.tipSlot - slot ≤ cfg.health.maxBlockhashAgeSlots) :
      Begun external cfg state now request id .passed
  | tooOld (old : state.TooOld external cfg now request) :
      Begun external cfg state now request id (.rejected (staleError id))
  | nobody (blockhash : String) (unknown : state.Unknown external now request blockhash)
      (dropped : state.askable cfg now = []) :
      Begun external cfg state now request id (.rejected (staleError id))
  | asks (verification : Verification)
      (unknown : state.Unknown external now request verification.blockhash)
      (askable : state.askable cfg now = verification.asked :: verification.rest) :
      Begun external cfg state now request id (.asking verification)

theorem beginCheck_begun (external : External) (cfg : Config) (state : AppState) (now : Instant)
    (request id : Json) :
    Begun external cfg state now request id (beginCheck external cfg state now request id).2 := by
  unfold beginCheck
  split
  · rename_i warm
    split
    · rename_i unread
      exact .unread unread
    · rename_i blockhash reads
      dsimp only
      split
      · rename_i slot seen
        rw [BlockhashCache.getSlot_fst] at seen
        split
        · rename_i old
          exact .tooOld ⟨warm, blockhash, slot, reads, seen, old⟩
        · rename_i age
          exact .fresh blockhash slot reads seen (Nat.le_of_not_lt age)
      · rename_i unseen
        rw [BlockhashCache.getSlot_fst] at unseen
        cases askable : cfg.pool.filter fun upstream =>
            !state.pool.isDropped upstream.name now with
        | nil => exact .nobody blockhash ⟨warm, reads, unseen⟩ askable
        | cons upstream rest => exact .asks _ ⟨warm, reads, unseen⟩ askable
  · rename_i cold
    exact .cold (Bool.not_eq_true _ ▸ cold)

/-- Where a vote leads, and why. -/
inductive Verification.Resumed (verification : Verification) (id : Json) (answer : Option Json) :
    Checkpoint → Prop where
  | vouched (valid : validityOf answer = some true) : Resumed verification id answer .passed
  | refuted (invalid : validityOf answer = some false) :
      Resumed verification id answer (.rejected (staleError id))
  | unanswered (silent : validityOf answer = none) (last : verification.rest = []) :
      Resumed verification id answer (.rejected (staleError id))
  | next (later : Verification) (silent : validityOf answer = none)
      (same : later.blockhash = verification.blockhash)
      (rest : verification.rest = later.asked :: later.rest) :
      Resumed verification id answer (.asking later)

theorem Verification.resume_resumed (verification : Verification) (state : AppState) (id : Json)
    (answer : Option Json) :
    verification.Resumed id answer (verification.resume state id answer).2 := by
  unfold resume
  split
  · rename_i valid vote
    cases valid with
    | true => exact .vouched vote
    | false => exact .refuted vote
  · rename_i silent
    cases rest : verification.rest with
    | nil => exact .unanswered silent rest
    | cons upstream others => exact .next _ silent rfl rest

/-! ### Every move -/

namespace Caller

variable {external : External} {cfg : Config}

/-- A request that has entered as a call does replays that call. -/
theorem replays_entered {task : Task} (phase : task.phase = .entering)
    (replays : task.Replays external cfg) (entry : Entry) :
    (Caller.running (task.enter external cfg entry.state entry.answers entry.checkAt).2).Replays
      external cfg :=
  Task.replays_enter phase entry.answers entry.checkAt replays

/-- A request that comes to the check enters as a call does, or asks an upstream. -/
theorem begin_replays {task : Task} (phase : task.phase = .entering)
    (replays : task.Replays external cfg)
    (method : (task.request.get "method").bind Json.asStr = some "sendTransaction")
    (state : AppState) (now : Instant) :
    (task.proceed external
      (beginCheck external cfg state now task.request (requestId task.request))).2.Replays
        external cfg := by
  let entry : Entry := { state := state, checkAt := now, answers := fun _ => none }
  have entered := replays_entered phase replays entry
  rw [Task.enter_eq, beforeForward, method] at entered
  dsimp only at entered
  rw [if_pos rfl] at entered
  unfold checkBlockhashFreshness at entered
  unfold beginCheck
  by_cases warm : state.blockhashCache.isWarmedUp now = true
  · rw [if_pos warm] at entered ⊢
    cases found : requestBlockhash external task.request with
    | none =>
        rw [found] at entered
        exact entered
    | some blockhash =>
        rw [found] at entered
        dsimp only at entered ⊢
        cases seen : (state.blockhashCache.getSlot blockhash).1 with
        | some slot =>
            rw [show (entry.state.blockhashCache.getSlot blockhash).1 = some slot from seen]
              at entered
            dsimp only at entered ⊢
            by_cases old : cfg.health.maxBlockhashAgeSlots < state.pool.tipSlot - slot
            · rw [if_pos old] at entered ⊢
              exact entered
            · rw [if_neg old] at entered ⊢
              exact entered
        | none =>
            have unknown : state.blockhashCache.slotOf blockhash = none := by
              rw [← BlockhashCache.getSlot_fst, seen]
            dsimp only
            cases healthy : entry.healthy cfg with
            | nil =>
                have decided := replays_entered phase replays entry
                rw [enter_of_unknown external cfg task entry method warm found unknown,
                  healthy] at decided
                rw [show (cfg.pool.filter fun upstream =>
                  !state.pool.isDropped upstream.name now) = [] from healthy]
                exact decided
            | cons upstream rest =>
                rw [show (cfg.pool.filter fun upstream =>
                  !state.pool.isDropped upstream.name now) = upstream :: rest from healthy]
                exact ⟨phase, replays, entry, method, warm, found, unknown, [], healthy,
                  by simp⟩
  · rw [if_neg warm] at entered ⊢
    exact entered

/-- A vote settles the call that the request is in, or the next upstream is asked. -/
theorem resume_replays (distinct : (cfg.pool.map Upstream.name).Nodup) {task : Task}
    {verification : Verification}
    (replays : (Caller.verifying task verification).Replays external cfg) (state : AppState)
    (answer : Option Json) :
    (task.proceed external
      (verification.resume state (requestId task.request) answer)).2.Replays external cfg := by
  obtain ⟨phase, own, entry, asks⟩ := replays
  have settled : ((validityOf answer).isSome = true ∨ verification.rest = []) →
      (Caller.running (task.decided external (validityOf answer))).Replays external cfg := by
    intro settles
    have entered := replays_entered phase own (entry.answered verification.asked answer)
    rw [← asks.verdict distinct answer settles]
    exact entered
  unfold Verification.resume
  cases vote : validityOf answer with
  | some valid =>
      rw [vote] at settled
      have decided := settled (Or.inl rfl)
      cases valid with
      | true => exact decided
      | false => exact decided
  | none =>
      rw [vote] at settled
      cases rest : verification.rest with
      | nil => exact settled (Or.inr rest)
      | cons upstream others => exact ⟨phase, own, _, asks.next distinct vote rest⟩

theorem step_replays (distinct : (cfg.pool.map Upstream.name).Nodup) {state : AppState}
    {caller : Caller} {event : TrafficEvent} {next : AppState × Caller}
    (replays : caller.Replays external cfg)
    (stepped : caller.step external cfg state event = some next) :
    next.2.Replays external cfg := by
  have entered {task : Task} (now : Instant) (phase : task.phase = .entering)
      (own : task.Replays external cfg) :=
    replays_entered phase own { state := state, checkAt := now, answers := fun _ => none }
  cases step_moves stepped with
  | refuses task _ now phase unnamed =>
      have own := entered now phase replays
      rw [Task.enter_eq, beforeForward, unnamed] at own
      exact own
  | checks task _ now phase sends => exact begin_replays phase replays sends state now
  | forwards task _ now method phase named other =>
      have own := entered now phase replays
      rw [Task.enter_eq, beforeForward, named] at own
      dsimp only at own
      rw [if_neg other] at own
      exact own
  | votes _ _ _ answer => exact resume_replays distinct replays state answer
  | hangsUp => exact trivial
  | works _ _ _ _ moves => exact moves.replays replays

end Caller

/-! ### Every run -/

/-- A response that a call of the handler gives to the request: from some state,
under some schedule of whose attempts it saw these end and no others. -/
def Handler.Replies (external : External) (cfg : Config) (handler : Handler) (request : Json)
    (answered : List Exchange) (response : Response) : Prop :=
  ∃ state schedule,
    let called := handler.run external cfg state schedule request
    called.response = response ∧ called.answered = answered ∧ schedule.Sees answered

namespace Traffic

/-- The steps of the traffic, one for each kind of event. -/
inductive Moves (external : External) (cfg : Config) (traffic : Traffic) :
    TrafficEvent → Traffic → Prop where
  | calls (event : TrafficEvent) (place : Nat) (caller : Caller) (result : AppState × Caller)
      (named : event.caller = some place) (found : traffic.callers[place]? = some caller)
      (stepped : caller.step external cfg traffic.state event = some result) :
      Moves external cfg traffic event (traffic.moved place result)
  | arrives (handler : Handler) (request : Json) :
      Moves external cfg traffic (.other (.arrive handler request))
        { traffic with callers := traffic.callers ++ [.running (.arrive cfg handler request)] }
  | polls (upstream : String) (body : Option Json) (latencyMs : Rat) (now : Instant)
      (configured : upstream ∈ cfg.pool.map Upstream.name) :
      Moves external cfg traffic (.other (.poll upstream body latencyMs now))
        { traffic with
          state := { traffic.state with
            pool := traffic.state.pool.pollSlot cfg upstream body latencyMs now } }
  | seeds (upstream : String) (body : Option Json)
      (configured : upstream ∈ cfg.pool.map Upstream.name) :
      Moves external cfg traffic (.other (.seed upstream body))
        { traffic with state := traffic.state.seedCache upstream body }

section Step

variable {external : External} {cfg : Config} {traffic next : Traffic} {event : TrafficEvent}

theorem stepCaller_moves {place : Nat} (named : event.caller = some place)
    (stepped : traffic.stepCaller external cfg place event = some next) :
    traffic.Moves external cfg event next := by
  obtain ⟨caller, found, mapped⟩ := Option.bind_eq_some_iff.mp stepped
  obtain ⟨result, taken, rfl⟩ := Option.map_eq_some_iff.mp mapped
  exact .calls event place caller result named found taken

theorem step_moves (stepped : traffic.step external cfg event = some next) :
    traffic.Moves external cfg event next := by
  cases event with
  | start place now => exact stepCaller_moves rfl stepped
  | vote place answer => exact stepCaller_moves rfl stepped
  | other event =>
      cases event with
      | enter | attempt | answer | settle | deadline | disconnect =>
          exact stepCaller_moves rfl stepped
      | arrive handler request =>
          rw [step, Option.some_inj] at stepped
          exact stepped ▸ .arrives handler request
      | poll upstream body latencyMs now =>
          rw [step, Option.ite_none_right_eq_some, Option.some_inj] at stepped
          exact stepped.2 ▸ .polls upstream body latencyMs now stepped.1
      | seed upstream body =>
          rw [step, Option.ite_none_right_eq_some, Option.some_inj] at stepped
          exact stepped.2 ▸ .seeds upstream body stepped.1

/-- What requests arrive with, and each keeps in its own steps, all have. -/
theorem forall_callers {P : Caller → Prop} {startedAt : Instant}
    (arrives : ∀ handler request, P (.running (.arrive cfg handler request)))
    (keeps : ∀ state caller event next, P caller →
      caller.step external cfg state event = some next → P next.2)
    (reached : (machine external cfg startedAt).Reachable traffic) :
    ∀ caller ∈ traffic.callers, P caller := by
  apply reached.invariant (I := fun traffic => ∀ caller ∈ traffic.callers, P caller)
    (fun _ member => absurd member List.not_mem_nil)
  intro before event after all stepped
  cases step_moves stepped with
  | calls _ place caller result named found taken =>
      intro other member
      rcases List.mem_or_eq_of_mem_set member with old | new
      · exact all other old
      · rw [new]
        exact keeps _ caller event result (all caller (List.mem_of_getElem? found)) taken
  | arrives handler request =>
      exact List.forall_mem_append.mpr ⟨all, List.forall_mem_singleton.mpr (arrives ..)⟩
  | polls => exact all
  | seeds => exact all

end Step

section Run

variable {external : External} {cfg : Config} {startedAt : Instant} {traffic : Traffic}

/-- In every run each request has come as far as a call of its handler. -/
theorem replays_of_reachable (valid : cfg.Valid external)
    (reached : (machine external cfg startedAt).Reachable traffic) :
    ∀ caller ∈ traffic.callers, caller.Replays external cfg := by
  have distinct : (cfg.pool.map Upstream.name).Nodup := by
    rw [Config.pool, List.map_map]
    exact valid.distinct
  exact forall_callers (fun _ _ => ⟨rfl, rfl⟩)
    (fun _ _ _ _ replays stepped => Caller.step_replays distinct replays stepped) reached

/-- Every reply in every run is a reply that a call of the handler gives. -/
theorem replies_of_reachable (valid : cfg.Valid external)
    (reached : (machine external cfg startedAt).Reachable traffic) {task : Task}
    (member : .running task ∈ traffic.callers) {response : Response}
    (phase : task.phase = .replied response) :
    task.handler.Replies external cfg task.request task.loop.answered response := by
  have replays := replays_of_reachable valid reached _ member
  rw [Caller.Replays, Task.Replays, phase] at replays
  obtain ⟨entry, attempts, deadline, called, answered, sees⟩ := replays
  exact ⟨entry.state, entry.schedule attempts deadline, called, answered, sees⟩

end Run

end Traffic

end Disburse
