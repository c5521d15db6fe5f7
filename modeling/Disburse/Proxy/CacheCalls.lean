import Disburse.Library.RunRules
import Disburse.Proxy.Interleaving
import Disburse.Solana.MaxMap

/-!
Owns the calls that the running proxy makes on its blockhash cache: what each
step reads and inserts, and the unbounded map that the cache therefore stands
for after any run.
-/

namespace Disburse

open Disburse.Library

/-! ### The calls of a step -/

/-- The insertion that a getLatestBlockhash response leads to, if any. -/
def observation (fallback : Nat) (body : Json) : List CacheCall :=
  (blockhashObserved fallback body).toList.map fun seen => .insert seen.1 seen.2

/-- The lookup with which the check of a request begins. -/
def AppState.lookups (external : External) (state : AppState) (now : Instant) (request : Json) :
    List CacheCall :=
  if state.blockhashCache.isWarmedUp now then
    (requestBlockhash external request).toList.map .getSlot
  else []

/-- The insertion of a hash that an upstream vouches for. -/
def Verification.insertions (verification : Verification) (answer : Option Json) :
    List CacheCall :=
  match validityOf answer with
  | some true => [.insert verification.blockhash verification.tip]
  | some false | none => []

/-- The insertion that `harvest` makes of a response. -/
def harvested (external : External) (state : AppState) (method : String) (bytes : Bytes) :
    List CacheCall :=
  if method = "getLatestBlockhash" then
    (external.fromSlice bytes).toList.flatMap (observation state.pool.tipSlot)
  else []

/-- The insertion of an attempt that ended. -/
def AttemptOutcome.insertions (external : External) (outcome : AttemptOutcome)
    (state : AppState) (method : String) : List CacheCall :=
  match outcome with
  | .ok bytes _ => harvested external state method bytes
  | .err _ => []

/-- The calls of a request that takes a step. -/
def Caller.cacheCalls (external : External) (cfg : Config) (state : AppState) (caller : Caller)
    (event : TrafficEvent) : List CacheCall :=
  match caller, event with
  | .running task, .start _ now =>
      if (task.request.get "method").bind Json.asStr = some "sendTransaction" then
        state.lookups external now task.request
      else []
  | .verifying _ verification, .vote _ answer => verification.insertions answer
  | .running task, .other (.answer _ exchange _ _) =>
      match task.phase with
      | .awaiting flight =>
          (attemptOutcome external cfg flight.upstream (requestId task.request)
            exchange).insertions external state task.method
      | _ => []
  | _, _ => []

/-- The calls of a step. -/
def Traffic.cacheCalls (external : External) (cfg : Config) (traffic : Traffic)
    (event : TrafficEvent) : List CacheCall :=
  match event with
  | .other (.seed upstream body) =>
      body.toList.flatMap (observation (traffic.state.pool.cells upstream).lastSlot)
  | event =>
      (event.caller.bind fun place => traffic.callers[place]?).toList.flatMap fun caller =>
        caller.cacheCalls external cfg traffic.state event

/-! ### What they do -/

theorem BlockhashCache.observe_eq (cache : BlockhashCache) (fallback : Nat) (body : Json) :
    cache.observe fallback body = cache.run (observation fallback body) := by
  unfold observe observeWith observation
  cases blockhashObserved fallback body <;> rfl

section Steps

variable {external : External} {cfg : Config} {state : AppState}

theorem askNext_cache (id : Json) (blockhash : String) (tip : Nat) (upstreams : List Upstream) :
    (askNext state id blockhash tip upstreams).1.blockhashCache = state.blockhashCache := by
  cases upstreams <;> rfl

theorem beginCheck_cache (now : Instant) (request id : Json) :
    (beginCheck external cfg state now request id).1.blockhashCache =
      state.blockhashCache.run (state.lookups external now request) := by
  unfold beginCheck AppState.lookups
  split
  · cases requestBlockhash external request with
    | none => rfl
    | some blockhash =>
        dsimp only
        split
        · split <;> rfl
        · rw [askNext_cache]
          rfl
  · rfl

theorem Verification.resume_cache (verification : Verification) (id : Json)
    (answer : Option Json) :
    (verification.resume state id answer).1.blockhashCache =
      state.blockhashCache.run (verification.insertions answer) := by
  unfold resume insertions
  rcases validityOf answer with _ | valid
  · exact askNext_cache _ _ _ _
  · cases valid <;> rfl

theorem harvest_cache (method : String) (bytes : Bytes) :
    (harvest external state method bytes).blockhashCache =
      state.blockhashCache.run (harvested external state method bytes) := by
  unfold harvest harvested
  split
  · cases external.fromSlice bytes with
    | none => rfl
    | some body => simp [BlockhashCache.observe_eq]
  · rfl

theorem fireOnce_cache (upstream : Upstream) (method : String) (id : Json) (exchange : Exchange)
    (latencyMs : Rat) (now : Instant) :
    (fireOnce external cfg state upstream method id exchange latencyMs now).1.blockhashCache =
      state.blockhashCache.run ((attemptOutcome external cfg upstream id exchange).insertions
        external state method) := by
  unfold fireOnce attemptOutcome
  cases exchange with
  | error failure => rfl
  | ok response =>
      dsimp only
      split
      · rfl
      · rfl
      · split
        · exact harvest_cache method _
        · rfl

theorem startAttempt_cache (now : Instant) (method : String) (loop : ForwardLoop)
    (draws : Nat → Nat) :
    (startAttempt cfg state now method loop draws).1.blockhashCache = state.blockhashCache := by
  unfold startAttempt
  split <;> rfl

theorem settleAttempt_cache (flight : InFlight) (success : Bool) (now : Instant) :
    (settleAttempt cfg state flight success now).blockhashCache = state.blockhashCache := by
  unfold settleAttempt
  split <;> rfl

/-- A request leaves the cache as its calls make it. -/
theorem Caller.step_cache {caller : Caller} {event : TrafficEvent} {next : AppState × Caller}
    (stepped : caller.step external cfg state event = some next) :
    next.1.blockhashCache =
      state.blockhashCache.run (caller.cacheCalls external cfg state event) := by
  cases Caller.step_moves stepped with
  | refuses task _ now _ unnamed =>
      rw [cacheCalls, if_neg (by rw [unnamed]; exact nofun)]
      rfl
  | checks task _ now _ sends =>
      rw [cacheCalls, if_pos sends, Task.proceed_state, beginCheck_cache]
  | forwards task _ now method _ named other =>
      rw [cacheCalls, if_neg (by rw [named, Option.some_inj]; exact other)]
      rfl
  | votes task verification _ answer =>
      rw [Task.proceed_state, Verification.resume_cache]
      rfl
  | hangsUp => rfl
  | works task _ _ started moves =>
      cases moves with
      | enters place answers now => exact (started place answers now rfl).elim
      | leaves => rfl
      | hangsUp => rfl
      | expires => rfl
      | attempts _ draws now =>
          rcases task.attempt_state external cfg state draws now with same | begun
          · rw [same]
            rfl
          · rw [begun, startAttempt_cache]
            rfl
      | settles =>
          rw [Task.settle_state, settleAttempt_cache]
          rfl
      | answers _ flight exchange latencyMs now phase =>
          rw [cacheCalls, phase]
          exact fireOnce_cache ..

end Steps

namespace Traffic

variable {external : External} {cfg : Config} {startedAt : Instant} {traffic next : Traffic}
  {events : List TrafficEvent} {event : TrafficEvent}

theorem cacheCalls_of_caller {place : Nat} {caller : Caller}
    (named : event.caller = some place) (found : traffic.callers[place]? = some caller) :
    traffic.cacheCalls external cfg event = caller.cacheCalls external cfg traffic.state event := by
  unfold cacheCalls
  split
  · cases named
  · rw [named, Option.bind_some, found]
    exact List.append_nil _

/-- A step leaves the cache as its calls make it. -/
theorem step_cache (stepped : (machine external cfg startedAt).step traffic event = some next) :
    next.state.blockhashCache =
      traffic.state.blockhashCache.run (traffic.cacheCalls external cfg event) := by
  cases step_moves stepped with
  | calls _ place caller result named found taken =>
      rw [cacheCalls_of_caller named found]
      exact Caller.step_cache taken
  | arrives => rfl
  | polls => rfl
  | seeds upstream body =>
      cases body with
      | none => rfl
      | some body =>
          show traffic.state.blockhashCache.observe _ body = _
          simp [cacheCalls, BlockhashCache.observe_eq]

/-! ### Every run -/

/-- The hashes that the cache has room for. -/
def cacheRoom (cfg : Config) : Nat := max cfg.health.blockhashCacheSize 1

/-- The calls that a run makes on the cache. -/
def callsOf (external : External) (cfg : Config) (startedAt : Instant)
    (events : List TrafficEvent) : List CacheCall :=
  (machine external cfg startedAt).outputs (cacheCalls external cfg)
    (machine external cfg startedAt).init events

/-- The map that the cache stands for after a run. -/
def remembered (external : External) (cfg : Config) (startedAt : Instant)
    (events : List TrafficEvent) : MaxMap :=
  .run (cacheRoom cfg) (callsOf external cfg startedAt events)

/-- In every run the cache holds what the map of the run's calls remembers. -/
theorem refines_of_run (run : (machine external cfg startedAt).exec events = some traffic) :
    MaxMap.Refines (cacheRoom cfg) traffic.state.blockhashCache
      (remembered external cfg startedAt events) := by
  have cache := Machine.part_of_outputs (fun traffic : Traffic => traffic.state.blockhashCache)
    BlockhashCache.apply (fun _ _ _ stepped => step_cache stepped) run
  have start : (machine external cfg startedAt).init.state.blockhashCache =
      .new cfg.health.blockhashWarmupSecs (cacheRoom cfg) startedAt := by
    show BlockhashCache.new _ _ _ = BlockhashCache.new _ _ _
    unfold BlockhashCache.new Lru.empty
    simp [cacheRoom]
  rw [cache, start]
  exact MaxMap.refines_run (Nat.lt_of_lt_of_le Nat.one_pos (Nat.le_max_right _ _)) ..

end Traffic

end Disburse
