import Disburse.Proxy.AccessLog
import Disburse.Proxy.Status
import Mathlib.Data.List.ProdSigma

/-!
Owns the names under which the proxy keeps its books, over all runs: every
counter, leader and statistic belongs to a configured upstream and to a method
that a client sent (or to the monitors' getSlot), so the number of series is
bounded by what clients send; and no total ever falls, so a counter goes back only
where it wraps.
-/

namespace Disburse

open Disburse.Library

/-! ### Whose books -/

/-- Every counter is about a known pair of an upstream and a method. -/
structure Metrics.Attributed (known : String × String → Prop) (metrics : Metrics) : Prop where
  decisions : ∀ key ∈ metrics.routingDecisions, known key
  requests : ∀ key ∈ metrics.requests,
    known (key.1, key.2.1) ∧ (key.2.2 = "ok" ∨ key.2.2 = "error")
  buckets : ∀ key ∈ metrics.durationBuckets, known key.1
  sums : ∀ key ∈ metrics.durationSum, known key
  counts : ∀ key ∈ metrics.durationCount, known key

/-- Books about these upstreams and about methods that were served. -/
structure AppState.Attributed (names : List String) (served : String → Prop) (state : AppState) :
    Prop where
  metrics : state.metrics.Attributed fun pair => pair.1 ∈ names ∧ served pair.2
  leaders : ∀ method name, state.pool.currentLeader method = some name →
    name ∈ names ∧ served method
  samples : ∀ upstream method, state.pool.stats.get upstream method ≠ none →
    upstream ∈ names ∧ (served method ∨ method = "getSlot")

namespace Metrics

variable {known : String × String → Prop} {metrics : Metrics}

theorem Attributed.mono {wider : String × String → Prop} (attributed : metrics.Attributed known)
    (widen : ∀ pair, known pair → wider pair) : metrics.Attributed wider where
  decisions := fun key member => widen key (attributed.decisions key member)
  requests := fun key member =>
    ⟨widen _ (attributed.requests key member).1, (attributed.requests key member).2⟩
  buckets := fun key member => widen _ (attributed.buckets key member)
  sums := fun key member => widen key (attributed.sums key member)
  counts := fun key member => widen key (attributed.counts key member)

theorem attributed_new : Metrics.new.Attributed known where
  decisions := fun key member => absurd member (AList.notMem_empty key)
  requests := fun key member => absurd member (AList.notMem_empty key)
  buckets := fun key member => absurd member (AList.notMem_empty key)
  sums := fun key member => absurd member (AList.notMem_empty key)
  counts := fun key member => absurd member (AList.notMem_empty key)

theorem Attributed.recordRoutingDecision (attributed : metrics.Attributed known)
    {upstream method : String} (own : known (upstream, method)) :
    (metrics.recordRoutingDecision upstream method).Attributed known where
  decisions := by
    intro key member
    rcases Counter.mem_add.mp member with rfl | earlier
    · exact own
    · exact attributed.decisions key earlier
  requests := attributed.requests
  buckets := attributed.buckets
  sums := attributed.sums
  counts := attributed.counts

theorem Attributed.recordRequest (attributed : metrics.Attributed known)
    {upstream method : String} (own : known (upstream, method)) (success : Bool)
    (latencyMs : Rat) :
    (metrics.recordRequest upstream method (if success then "ok" else "error")
      latencyMs).Attributed known where
  decisions := attributed.decisions
  requests := by
    intro key member
    rcases Counter.mem_add.mp member with rfl | earlier
    · cases success
      · exact ⟨own, Or.inr rfl⟩
      · exact ⟨own, Or.inl rfl⟩
    · exact attributed.requests key earlier
  buckets := by
    intro key member
    rcases mem_foldl_add _ _ member with same | earlier
    · exact same ▸ own
    · exact attributed.buckets key earlier
  sums := by
    intro key member
    rcases Counter.mem_add.mp member with rfl | earlier
    · exact own
    · exact attributed.sums key earlier
  counts := by
    intro key member
    rcases Counter.mem_add.mp member with rfl | earlier
    · exact own
    · exact attributed.counts key earlier

end Metrics

/-! ### Leaders -/

/-- A selection makes nobody leader but an upstream of the pool, for its method. -/
theorem selectForMethod_leaderIn {cfg : Config} {pool : UpstreamPool} {now : Instant}
    {method : String} {exclude : List String} {draw : Nat} {other name : String}
    (leads : (selectForMethod cfg pool now method exclude draw).1.currentLeader other =
      some name) :
    pool.currentLeader other = some name ∨
      other = method ∧ name ∈ cfg.pool.map Upstream.name := by
  rw [selectForMethod_eq] at leads
  rcases applyHysteresis_cases pool method (scored cfg pool now method exclude)
    cfg.routing.hysteresisMargin draw .exact with
    ⟨_, result⟩ | ⟨_, _, result⟩ | ⟨_, chosen, score, tied, result⟩
  · rw [result] at leads
    exact Or.inl leads
  · rw [result] at leads
    exact Or.inl leads
  · rw [result] at leads
    dsimp only at leads
    by_cases same : other = method
    · subst same
      rw [Function.update_self, Option.some_inj] at leads
      have candidate := (scored_mem (List.mem_of_mem_filter tied)).1
      exact Or.inr ⟨rfl, List.mem_map.mpr ⟨chosen, (mem_eligible.mp candidate).1, leads⟩⟩
    · rw [Function.update_of_ne same] at leads
      exact Or.inl leads

theorem admitLoop_leader {cfg : Config} {now : Instant} {method : String}
    {excluded : List String} {draws : Nat → Nat} {fuel : Nat} {skips : List String}
    {pool : UpstreamPool} {other name : String}
    (leads : (admitLoop cfg now method excluded draws fuel skips pool).1.currentLeader other =
      some name) :
    pool.currentLeader other = some name ∨
      other = method ∧ name ∈ cfg.pool.map Upstream.name := by
  induction fuel generalizing skips pool with
  | zero => exact Or.inl leads
  | succ fuel inductionHypothesis =>
      have step (chosen : UpstreamPool) (picked : Option Upstream)
          (selection : selectForMethod cfg pool now method (excluded ++ skips)
            (draws skips.length) = (chosen, picked))
          (after : chosen.currentLeader other = some name) :
          pool.currentLeader other = some name ∨
            other = method ∧ name ∈ cfg.pool.map Upstream.name := by
        apply selectForMethod_leaderIn
        rw [selection]
        exact after
      unfold admitLoop at leads
      split at leads
      · rename_i chosen selection
        exact step chosen none selection leads
      · rename_i chosen upstream selection
        split at leads
        · exact step chosen (some upstream) selection leads
        · rcases inductionHypothesis leads with kept | taken
          · exact step chosen (some upstream) selection kept
          · exact Or.inr taken

/-! ### What one step enters -/

section Steps

variable {external : External} {cfg : Config} {names : List String} {served : String → Prop}
  {state : AppState}

theorem AppState.Attributed.mono {wider : String → Prop}
    (attributed : state.Attributed names served) (widen : ∀ method, served method → wider method) :
    state.Attributed names wider where
  metrics := attributed.metrics.mono fun pair known => ⟨known.1, widen pair.2 known.2⟩
  leaders := fun method name leads =>
    ⟨(attributed.leaders method name leads).1,
      widen method (attributed.leaders method name leads).2⟩
  samples := fun upstream method sampled =>
    ⟨(attributed.samples upstream method sampled).1,
      (attributed.samples upstream method sampled).2.imp_left (widen method)⟩

/-- Neither the cache nor the rejection counter, nor circuits, permits and slots,
are kept by name. -/
theorem AppState.Attributed.of_same (attributed : state.Attributed names served)
    {after : AppState}
    (metrics : ∃ rejections, after.metrics =
      { state.metrics with blockhashRejections := rejections })
    (leaders : after.pool.currentLeader = state.pool.currentLeader)
    (stats : after.pool.stats = state.pool.stats) : after.Attributed names served where
  metrics := by
    obtain ⟨rejections, same⟩ := metrics
    rw [same]
    exact ⟨attributed.metrics.decisions, attributed.metrics.requests, attributed.metrics.buckets,
      attributed.metrics.sums, attributed.metrics.counts⟩
  leaders := by
    rw [leaders]
    exact attributed.leaders
  samples := by
    rw [stats]
    exact attributed.samples

/-- A record enters its own pair. -/
theorem samples_record {now : Instant} {upstream method : String} {latencyMs : Rat}
    {success : Bool} {stats : StatsStore} {other name : String}
    (sampled : (stats.record now upstream method latencyMs success).get other name ≠ none) :
    stats.get other name ≠ none ∨ other = upstream ∧ name = method := by
  by_cases same : (other, name) = (upstream, method)
  · rw [Prod.mk.injEq] at same
    exact Or.inr same
  · have kept : (stats.record now upstream method latencyMs success).get other name =
        stats.get other name := Function.update_of_ne same _ _
    exact Or.inl (kept ▸ sampled)

theorem startAttempt_attributed {now : Instant} {method : String} {loop : ForwardLoop}
    {draws : Nat → Nat} (attributed : state.Attributed (cfg.pool.map Upstream.name) served)
    (own : served method) :
    (startAttempt cfg state now method loop draws).1.Attributed (cfg.pool.map Upstream.name)
      served := by
  have spec := selectAndAdmit_spec cfg state.pool now method loop.excluded draws
  have leads : ∀ other name, (selectAndAdmit cfg state.pool now method loop.excluded
      draws).1.currentLeader other = some name →
        name ∈ cfg.pool.map Upstream.name ∧ served other := by
    intro other name leads
    rcases admitLoop_leader leads with kept | ⟨rfl, member⟩
    · exact attributed.leaders other name kept
    · exact ⟨member, own⟩
  unfold startAttempt
  rcases selected : selectAndAdmit cfg state.pool now method loop.excluded draws with
    ⟨pool, _ | ⟨upstream, isProbe⟩⟩
  · rw [selected] at spec leads
    exact ⟨attributed.metrics, leads, spec.stats ▸ attributed.samples⟩
  · rw [selected] at spec leads
    have member := (spec.chosen upstream isProbe rfl).1
    exact ⟨attributed.metrics.recordRoutingDecision ⟨List.mem_map_of_mem member, own⟩, leads,
      spec.stats ▸ attributed.samples⟩

theorem fireOnce_attributed {upstream : Upstream} {method : String} {id : Json}
    {exchange : Exchange} {latencyMs : Rat} {now : Instant}
    (attributed : state.Attributed names served) (configured : upstream.name ∈ names)
    (own : served method) :
    (fireOnce external cfg state upstream method id exchange latencyMs now).1.Attributed names
      served := by
  have recorded := fireOnce_recorded external cfg state upstream method id exchange latencyMs now
  constructor
  · rw [recorded.metrics]
    exact attributed.metrics.recordRequest ⟨configured, own⟩ _ latencyMs
  · rw [recorded.pool]
    exact attributed.leaders
  · rw [recorded.pool]
    intro other name sampled
    rcases samples_record sampled with earlier | ⟨rfl, rfl⟩
    · exact attributed.samples other name earlier
    · exact ⟨configured, Or.inl own⟩

theorem settleAttempt_attributed (attributed : state.Attributed names served) (flight : InFlight)
    (success : Bool) (now : Instant) :
    (settleAttempt cfg state flight success now).Attributed names served := by
  apply attributed.of_same
  · rw [settleAttempt_metrics]
    exact ⟨_, rfl⟩
  · unfold settleAttempt
    split <;> rfl
  · unfold settleAttempt
    split <;> rfl

theorem AppState.Attributed.of_books {after : AppState} (books : SameBooks state after)
    (attributed : state.Attributed names served) : after.Attributed names served := by
  apply attributed.of_same books.metrics
  · rw [books.pool]
  · rw [books.pool]

/-- The monitors record under the name of their upstream and getSlot. -/
theorem pollSlot_attributed (attributed : state.Attributed names served) {upstream : String}
    (configured : upstream ∈ names) (body : Option Json) (latencyMs : Rat) (now : Instant) :
    ({ state with pool := state.pool.pollSlot cfg upstream body latencyMs now } :
      AppState).Attributed names served where
  metrics := attributed.metrics
  leaders := by
    have same : (state.pool.pollSlot cfg upstream body latencyMs now).currentLeader =
        state.pool.currentLeader := by
      unfold UpstreamPool.pollSlot UpstreamPool.checkBreaker UpstreamPool.recordPoll
      cases polledSlot body <;> split <;> rfl
    intro method name leads
    rw [same] at leads
    exact attributed.leaders method name leads
  samples := by
    intro other name sampled
    rw [UpstreamPool.pollSlot_stats] at sampled
    rcases samples_record sampled with earlier | ⟨rfl, rfl⟩
    · exact attributed.samples other name earlier
    · exact ⟨configured, Or.inr rfl⟩

end Steps

/-! ### What a request is named by -/

def methodOf (request : Json) : Option String := (request.get "method").bind Json.asStr

/-- A request that is forwarded notes its own method, and its attempts go to
upstreams of the pool. -/
def Caller.Named (cfg : Config) : Caller → Prop
  | .verifying task _ => methodOf task.request = some "sendTransaction"
  | .running task =>
      match task.phase with
      | .selecting => methodOf task.request = some task.method
      | .awaiting flight | .settling flight _ _ =>
          methodOf task.request = some task.method ∧ flight.upstream ∈ cfg.pool
      | .entering | .replied _ | .gone => True

/-- A method that some request of a client names. -/
def Traffic.Served (traffic : Traffic) (method : String) : Prop :=
  ∃ caller ∈ traffic.callers, methodOf caller.serves.2 = some method

section Named

variable {external : External} {cfg : Config} {state : AppState}

theorem Task.forward_named {task : Task} {method : String}
    (own : methodOf task.request = some method) :
    (Caller.running (task.forward external method)).Named cfg := by
  unfold forward
  split
  · exact trivial
  · exact own

theorem Task.proceed_named {task : Task} (checked : AppState × Checkpoint)
    (own : methodOf task.request = some "sendTransaction") :
    (task.proceed external checked).2.Named cfg := by
  rcases checked with ⟨_, _ | _ | _⟩
  · exact task.forward_named own
  · exact trivial
  · exact own

theorem Caller.step_named {caller : Caller} {event : TrafficEvent} {next : AppState × Caller}
    (named : caller.Named cfg) (stepped : caller.step external cfg state event = some next) :
    next.2.Named cfg := by
  cases step_moves stepped with
  | refuses => exact trivial
  | checks task _ _ _ sends => exact task.proceed_named _ sends
  | forwards task _ _ _ _ own => exact task.forward_named own
  | votes task => exact task.proceed_named _ named
  | hangsUp => exact trivial
  | works task _ _ started moves =>
      unfold Named at named
      cases moves with
      | enters place answers now => exact (started place answers now rfl).elim
      | leaves => exact trivial
      | hangsUp => exact trivial
      | expires => exact trivial
      | answers place flight exchange latencyMs now phase =>
          simp only [phase] at named
          exact named
      | attempts place draws now phase =>
          simp only [phase] at named
          rcases task.attempt_cases external cfg state draws now with
            spent | ⟨_, refused⟩ | ⟨remaining, loop, flight, starts, begun⟩
          · rw [spent]
            exact trivial
          · rw [refused]
            exact trivial
          · rw [begun]
            exact ⟨named, (startAttempt_chosen starts).2.member⟩
      | settles place flight exchange outcome now phase =>
          simp only [phase] at named
          unfold Task.settle
          dsimp only
          split
          · exact trivial
          · exact named.1

end Named

/-! ### Every run -/

namespace Traffic

section Run

variable {external : External} {cfg : Config} {startedAt : Instant} {traffic next : Traffic}

theorem named_of_reachable (reached : (machine external cfg startedAt).Reachable traffic) :
    ∀ caller ∈ traffic.callers, caller.Named cfg :=
  forall_callers (fun _ _ => trivial)
    (fun _ _ _ _ named stepped => Caller.step_named named stepped) reached

/-- What a step of a request enters is about a configured upstream and its own
method. -/
theorem attributed_of_caller {served : String → Prop} {state : AppState} {caller : Caller}
    {event : TrafficEvent} {result : AppState × Caller}
    (attributed : state.Attributed (cfg.pool.map Upstream.name) served)
    (named : caller.Named cfg)
    (own : ∀ method, methodOf caller.serves.2 = some method → served method)
    (stepped : caller.step external cfg state event = some result) :
    result.1.Attributed (cfg.pool.map Upstream.name) served := by
  cases Caller.step_moves stepped with
  | refuses => exact attributed
  | checks _ _ now =>
      rw [Task.proceed_state]
      exact .of_books (beginCheck_books external cfg state _ now _) attributed
  | forwards => exact attributed
  | votes _ verification _ answer =>
      rw [Task.proceed_state]
      exact .of_books (verification.resume_books state _ answer) attributed
  | hangsUp => exact attributed
  | works task _ _ started moves =>
      unfold Caller.Named at named
      cases moves with
      | enters place answers now => exact (started place answers now rfl).elim
      | leaves => exact attributed
      | hangsUp => exact attributed.of_same ⟨_, rfl⟩ rfl rfl
      | expires => exact attributed.of_same ⟨_, rfl⟩ rfl rfl
      | answers place flight exchange latencyMs now phase =>
          simp only [phase] at named
          exact fireOnce_attributed attributed (List.mem_map_of_mem named.2) (own _ named.1)
      | attempts place draws now phase =>
          simp only [phase] at named
          rcases task.attempt_state external cfg state draws now with same | begun
          · rw [same]
            exact attributed
          · rw [begun]
            exact startAttempt_attributed attributed (own _ named)
      | settles place flight exchange outcome now phase =>
          rw [Task.settle_state]
          exact settleAttempt_attributed attributed flight outcome.success now

/-- Requests stay, and keep what they are. -/
theorem step_served {event : TrafficEvent} (stepped : traffic.step external cfg event = some next)
    (method : String) (served : traffic.Served method) : next.Served method := by
  obtain ⟨caller, member, own⟩ := served
  cases step_moves stepped with
  | calls _ place mover result named found taken =>
      obtain ⟨other, otherFound⟩ := List.mem_iff_getElem?.mp member
      by_cases same : place = other
      · subst same
        rw [found, Option.some_inj] at otherFound
        subst otherFound
        refine ⟨result.2, List.mem_of_getElem?
          (List.getElem?_set_self (List.getElem?_eq_some_iff.mp found).1), ?_⟩
        rw [(Caller.step_spends taken).serves]
        exact own
      · exact ⟨caller, List.mem_of_getElem? ((List.getElem?_set_ne same).trans otherFound), own⟩
  | arrives => exact ⟨caller, List.mem_append_left _ member, own⟩
  | polls => exact ⟨caller, member, own⟩
  | seeds => exact ⟨caller, member, own⟩

theorem attributed_of_reachable (reached : (machine external cfg startedAt).Reachable traffic) :
    traffic.state.Attributed (cfg.pool.map Upstream.name) traffic.Served := by
  have both := reached.invariant (I := fun traffic =>
    (machine external cfg startedAt).Reachable traffic ∧
      traffic.state.Attributed (cfg.pool.map Upstream.name) traffic.Served)
    ⟨⟨[], rfl⟩, ⟨Metrics.attributed_new, (fun _ _ leads => nomatch leads),
      fun _ _ sampled => absurd rfl sampled⟩⟩ ?_
  · exact both.2
  rintro before event after ⟨reachedBefore, attributed⟩ stepped
  refine ⟨reachedBefore.step stepped, ?_⟩
  have widened := attributed.mono (step_served stepped)
  cases step_moves stepped with
  | calls _ place caller result named found taken =>
      have member := List.mem_of_getElem? found
      exact attributed_of_caller widened (named_of_reachable reachedBefore caller member)
        (fun method own => step_served stepped method ⟨caller, member, own⟩) taken
  | arrives => exact widened
  | polls upstream body latencyMs now configured =>
      exact pollSlot_attributed widened configured body latencyMs now
  | seeds upstream body =>
      cases body with
      | none => exact widened
      | some body => exact widened.of_same ⟨_, rfl⟩ rfl rfl

end Run

/-- The methods that clients have named, each once. -/
def methods (traffic : Traffic) : List String :=
  (traffic.callers.filterMap fun caller => methodOf caller.serves.2).dedup

theorem mem_methods {traffic : Traffic} {method : String} :
    method ∈ traffic.methods ↔ traffic.Served method := by
  rw [methods, List.mem_dedup, List.mem_filterMap]
  rfl

/-- Distinct keys from a product are no more than the product has. -/
theorem length_keys_le {K : Type} [DecidableEq K] (counter : Counter K) (possible : List K)
    (within : ∀ key ∈ counter, key ∈ possible) : counter.keys.length ≤ possible.length :=
  (List.subperm_of_subset counter.keys_nodup fun key member =>
    within key (AList.mem_keys.mp member)).length_le

/-- In every run the books are about configured upstreams and methods that
clients sent (or getSlot), leaders included; so there are at most as many series
as upstreams times methods sent, two for each in the requests counter. -/
theorem series_attributed {external : External} {cfg : Config} {startedAt : Instant}
    {traffic : Traffic} (reached : (machine external cfg startedAt).Reachable traffic) :
    traffic.state.Attributed (cfg.pool.map Upstream.name) traffic.Served ∧
      traffic.state.metrics.routingDecisions.keys.length ≤
        cfg.pool.length * traffic.methods.length ∧
      traffic.state.metrics.durationCount.keys.length ≤
        cfg.pool.length * traffic.methods.length ∧
      traffic.state.metrics.requests.keys.length ≤
        cfg.pool.length * (traffic.methods.length * 2) := by
  have attributed := attributed_of_reachable reached
  have pairs (counter : Counter (String × String))
      (known : ∀ key ∈ counter, key.1 ∈ cfg.pool.map Upstream.name ∧ traffic.Served key.2) :
      counter.keys.length ≤ cfg.pool.length * traffic.methods.length := by
    have bound := length_keys_le counter (cfg.pool.map Upstream.name ×ˢ traffic.methods)
      fun key member => List.mem_product.mpr
        ⟨(known key member).1, mem_methods.mpr (known key member).2⟩
    rwa [List.length_product, List.length_map] at bound
  refine ⟨attributed, pairs _ attributed.metrics.decisions, pairs _ attributed.metrics.counts, ?_⟩
  have bound := length_keys_le traffic.state.metrics.requests
    (cfg.pool.map Upstream.name ×ˢ traffic.methods ×ˢ ["ok", "error"]) fun key member => by
      obtain ⟨⟨configured, served⟩, status⟩ := attributed.metrics.requests key member
      apply List.mem_product.mpr
      refine ⟨configured, List.mem_product.mpr ⟨mem_methods.mpr served, ?_⟩⟩
      simpa using status
  rwa [List.length_product, List.length_product, List.length_map] at bound

theorem series_attributed_crowded :
    ∃ crowded, (machine .plain .narrow 0).exec crowdedRun = some crowded ∧
      (crowded.state.Attributed (Config.narrow.pool.map Upstream.name) crowded.Served ∧
        crowded.state.metrics.routingDecisions.keys.length ≤
          Config.narrow.pool.length * crowded.methods.length ∧
        crowded.state.metrics.durationCount.keys.length ≤
          Config.narrow.pool.length * crowded.methods.length ∧
        crowded.state.metrics.requests.keys.length ≤
          Config.narrow.pool.length * (crowded.methods.length * 2)) := by
  have runs : ((machine .plain .narrow 0).exec crowdedRun).isSome = true := by
    decide +kernel
  obtain ⟨crowded, run⟩ := Option.isSome_iff_exists.mp runs
  exact ⟨crowded, run, series_attributed ⟨crowdedRun, run⟩⟩

end Traffic

/-! ### Counters only grow -/

/-- Every counter of the first metrics is so related to that of the second. -/
structure Metrics.Related (relation : Nat → Nat → Prop) (before after : Metrics) : Prop where
  requests : ∀ key, relation (before.requests.count key) (after.requests.count key)
  buckets : ∀ key, relation (before.durationBuckets.count key) (after.durationBuckets.count key)
  sums : ∀ key, relation (before.durationSum.count key) (after.durationSum.count key)
  counts : ∀ key, relation (before.durationCount.count key) (after.durationCount.count key)
  decisions : ∀ key,
    relation (before.routingDecisions.count key) (after.routingDecisions.count key)
  rejections : relation before.blockhashRejections after.blockhashRejections

/-- No total is larger in the first metrics. -/
abbrev Metrics.Grows : Metrics → Metrics → Prop := Metrics.Related (· ≤ ·)

/-- A total does not fall, and what is shown of it does not go back while the later
total has not passed the 64 bits. -/
def NeverBack (earlier later : Nat) : Prop :=
  earlier ≤ later ∧ (later < 2 ^ 64 → Metrics.shown earlier ≤ Metrics.shown later)

namespace Metrics

theorem Related.mono {first second : Nat → Nat → Prop} {before after : Metrics}
    (related : before.Related first after)
    (weaken : ∀ earlier later, first earlier later → second earlier later) :
    before.Related second after where
  requests := fun key => weaken _ _ (related.requests key)
  buckets := fun key => weaken _ _ (related.buckets key)
  sums := fun key => weaken _ _ (related.sums key)
  counts := fun key => weaken _ _ (related.counts key)
  decisions := fun key => weaken _ _ (related.decisions key)
  rejections := weaken _ _ related.rejections

theorem count_le_add {K : Type} [DecidableEq K] (counter : Counter K) (key other : K)
    (amount : Nat) : counter.count other ≤ (Counter.add counter key amount).count other := by
  rw [Counter.count_add]
  omega

theorem count_le_foldl_add {K : Type} [DecidableEq K] (amount : K → Nat) (keys : List K)
    (counter : Counter K) (other : K) :
    counter.count other ≤
      (keys.foldl (fun current key => Counter.add current key (amount key)) counter).count
        other := by
  induction keys generalizing counter with
  | nil => exact Nat.le_refl _
  | cons key rest inductionHypothesis =>
      have first := count_le_add counter key other (amount key)
      have others := inductionHypothesis (Counter.add counter key (amount key))
      rw [List.foldl_cons]
      omega

theorem Grows.refl (metrics : Metrics) : Metrics.Grows metrics metrics where
  requests := fun _ => Nat.le_refl _
  buckets := fun _ => Nat.le_refl _
  sums := fun _ => Nat.le_refl _
  counts := fun _ => Nat.le_refl _
  decisions := fun _ => Nat.le_refl _
  rejections := Nat.le_refl _

theorem Grows.trans {first second third : Metrics} (one : Metrics.Grows first second)
    (two : Metrics.Grows second third) : Metrics.Grows first third where
  requests := fun key => (one.requests key).trans (two.requests key)
  buckets := fun key => (one.buckets key).trans (two.buckets key)
  sums := fun key => (one.sums key).trans (two.sums key)
  counts := fun key => (one.counts key).trans (two.counts key)
  decisions := fun key => (one.decisions key).trans (two.decisions key)
  rejections := one.rejections.trans two.rejections

theorem Change.grows {metrics after : Metrics} (change : metrics.Change after)
    (rejections : metrics.blockhashRejections ≤ after.blockhashRejections) :
    Metrics.Grows metrics after := by
  cases change with
  | rejections number => exact { Grows.refl metrics with rejections := rejections }
  | decision upstream method =>
      exact { Grows.refl metrics with
        decisions := fun key => count_le_add metrics.routingDecisions _ key 1 }
  | request upstream method success latencyMs =>
      have buckets (key : (String × String) × Bucket) : metrics.durationBuckets.count key ≤
          (metrics.recordRequest upstream method (if success then "ok" else "error")
            latencyMs).durationBuckets.count key := by
        have grown := count_le_foldl_add
          (fun entry : (String × String) × Bucket => if inBucket latencyMs entry.2 then 1 else 0)
          ((List.finRange 11).map fun bucket => ((upstream, method), bucket))
          metrics.durationBuckets key
        rw [List.foldl_map] at grown
        exact grown
      exact {
        requests := fun key => count_le_add metrics.requests _ key 1
        buckets := buckets
        sums := fun key => count_le_add metrics.durationSum _ key _
        counts := fun key => count_le_add metrics.durationCount _ key 1
        decisions := fun _ => Nat.le_refl _
        rejections := Nat.le_refl _ }

end Metrics

namespace Traffic

section Growth

variable {external : External} {cfg : Config} {startedAt : Instant} {traffic next : Traffic}

theorem change_of_caller {state : AppState} {caller : Caller} {event : TrafficEvent}
    {result : AppState × Caller} (stepped : caller.step external cfg state event = some result) :
    state.metrics.Change result.1.metrics := by
  have books {after : AppState} (same : SameBooks state after) :
      state.metrics.Change after.metrics := by
    obtain ⟨rejections, metrics⟩ := same.metrics
    rw [metrics]
    exact .rejections rejections
  cases Caller.step_moves stepped with
  | refuses => exact .none _
  | checks _ _ now =>
      rw [Task.proceed_state]
      exact books (beginCheck_books external cfg state _ now _)
  | forwards => exact .none _
  | votes _ verification _ answer =>
      rw [Task.proceed_state]
      exact books (verification.resume_books state _ answer)
  | hangsUp => exact .none _
  | works _ _ _ _ moves => exact moves.metrics

theorem grows_of_step {event : TrafficEvent}
    (reached : (machine external cfg startedAt).Reachable traffic)
    (stepped : traffic.step external cfg event = some next) :
    Metrics.Grows traffic.state.metrics next.state.metrics := by
  cases step_moves stepped with
  | calls _ place caller result named found taken =>
      apply (change_of_caller taken).grows
      have sends : ∀ task verification, caller = .verifying task verification →
          (task.request.get "method").bind Json.asStr = some "sendTransaction" := by
        rintro task verification rfl
        exact checksSend_of_reachable reached _ (List.mem_of_getElem? found)
      have counted : traffic.state.rejections ≤ result.1.rejections := by
        cases Caller.step_ends sends taken with
        | goesOn _ _ same => exact Nat.le_of_eq same.symm
        | unnamed _ _ _ same => exact Nat.le_of_eq same.symm
        | stale _ _ _ counted =>
            rw [counted]
            exact Nat.le_succ _
        | forwarded _ _ _ same => exact Nat.le_of_eq same.symm
      exact counted
  | arrives => exact .refl _
  | polls => exact .refl _
  | seeds upstream body => cases body <;> exact .refl _

theorem neverBack_of_le {earlier later : Nat} (grows : earlier ≤ later) :
    NeverBack earlier later := by
  refine ⟨grows, fun fits => ?_⟩
  rw [Metrics.shown, Metrics.shown, Nat.mod_eq_of_lt fits, Nat.mod_eq_of_lt (by omega)]
  exact grows

/-- From every reachable state on, in every run, no total falls, and no counter shows
less than before while its total fits. -/
theorem counters_grow (reached : (machine external cfg startedAt).Reachable traffic)
    {events : List TrafficEvent} {later : Traffic}
    (run : (machine external cfg startedAt).execFrom traffic events = some later) :
    traffic.state.metrics.Related NeverBack later.state.metrics := by
  have both := Machine.invariant_execFrom
    (I := fun current => (machine external cfg startedAt).Reachable current ∧
      Metrics.Grows traffic.state.metrics current.state.metrics)
    (fun before event after known stepped => ⟨known.1.step stepped,
      known.2.trans (grows_of_step known.1 stepped)⟩)
    ⟨reached, .refl _⟩ run
  exact both.2.mono fun _ _ => neverBack_of_le

theorem counters_grow_crowded :
    ∃ crowded, (machine .plain .narrow 0).execFrom (machine .plain .narrow 0).init crowdedRun =
        some crowded ∧
      (machine .plain .narrow 0).init.state.metrics.Related NeverBack crowded.state.metrics := by
  have runs : ((machine .plain .narrow 0).exec crowdedRun).isSome = true := by
    decide +kernel
  obtain ⟨crowded, run⟩ := Option.isSome_iff_exists.mp runs
  exact ⟨crowded, run, counters_grow ⟨[], rfl⟩ run⟩

end Growth

end Traffic

end Disburse
