import Disburse.Proxy.Page
import Disburse.Proxy.Accounting

/-!
Owns what a scrape of the metrics page finds in every reachable state: the
recorded samples, exactly when the names they are recorded under need no escapes.
-/

namespace Disburse

open Disburse.Library Disburse.Library.Exposition

universe u

/-! ### What the counters hold -/

namespace Metrics

/-- What one step does to the counters. -/
inductive Change (metrics : Metrics) : Metrics → Prop where
  | rejections (number : Nat) : Change metrics { metrics with blockhashRejections := number }
  | decision (upstream method : String) :
      Change metrics (metrics.recordRoutingDecision upstream method)
  | request (upstream method : String) (success : Bool) (latencyMs : Rat) :
      Change metrics
        (metrics.recordRequest upstream method (if success then "ok" else "error") latencyMs)

/-- Statuses are two words, and a pair in the histogram has a recorded request. -/
structure Kept (metrics : Metrics) : Prop where
  status : ∀ key ∈ metrics.requests, key.2.2 = "ok" ∨ key.2.2 = "error"
  durations : ∀ key ∈ metrics.durationBuckets,
    ∃ status, (key.1.1, key.1.2, status) ∈ metrics.requests

theorem Change.none (metrics : Metrics) : metrics.Change metrics :=
  .rejections metrics.blockhashRejections

theorem mem_foldl_add {key : String × String} {amount : Bucket → Nat}
    {found : (String × String) × Bucket} (buckets : List Bucket)
    (counter : Counter ((String × String) × Bucket))
    (member : found ∈ buckets.foldl (fun current bucket =>
      Counter.add current (key, bucket) (amount bucket)) counter) :
    found.1 = key ∨ found ∈ counter := by
  induction buckets generalizing counter with
  | nil => exact Or.inr member
  | cons bucket rest inductionHypothesis =>
      rw [List.foldl_cons] at member
      rcases inductionHypothesis _ member with same | before
      · exact Or.inl same
      · rcases Counter.mem_add.mp before with rfl | inside
        · exact Or.inl rfl
        · exact Or.inr inside

theorem kept_new : Metrics.new.Kept where
  status := fun key member => absurd member (AList.notMem_empty key)
  durations := fun key member => absurd member (AList.notMem_empty key)

theorem Change.kept {metrics after : Metrics} (kept : metrics.Kept)
    (change : metrics.Change after) : after.Kept := by
  cases change with
  | rejections number => exact ⟨kept.status, kept.durations⟩
  | decision upstream method => exact ⟨kept.status, kept.durations⟩
  | request upstream method success latencyMs =>
      constructor
      · intro key member
        rcases Counter.mem_add.mp member with rfl | inside
        · cases success
          · exact Or.inr rfl
          · exact Or.inl rfl
        · exact kept.status key inside
      · intro key member
        rcases mem_foldl_add _ _ member with same | inside
        · refine ⟨if success then "ok" else "error", Counter.mem_add.mpr (Or.inl ?_)⟩
          rw [same]
        · obtain ⟨status, recorded⟩ := kept.durations key inside
          exact ⟨status, Counter.mem_add.mpr (Or.inr recorded)⟩

end Metrics

theorem settleAttempt_metrics (cfg : Config) (state : AppState) (flight : InFlight)
    (success : Bool) (now : Instant) :
    (settleAttempt cfg state flight success now).metrics = state.metrics := by
  unfold settleAttempt
  dsimp only
  split <;> rfl

theorem Task.Moves.metrics {external : External} {cfg : Config} {state : AppState} {task : Task}
    {event : SystemEvent} {result : AppState × Task}
    (moves : task.Moves external cfg state event result) :
    state.metrics.Change result.1.metrics := by
  cases moves with
  | enters place answers now =>
      obtain ⟨rejections, same⟩ := (task.enter_books external cfg state answers now).1.metrics
      rw [same]
      exact .rejections rejections
  | leaves => exact .none _
  | attempts place draws now =>
      rcases task.attempt_state external cfg state draws now with same | started
      · rw [same]
        exact .none _
      · rw [started]
        unfold startAttempt
        split
        · exact .none _
        · exact .decision _ _
  | answers place flight exchange latencyMs now =>
      have recorded := fireOnce_recorded external cfg state flight.upstream task.method
        (requestId task.request) exchange latencyMs now
      show state.metrics.Change (fireOnce external cfg state flight.upstream task.method
        (requestId task.request) exchange latencyMs now).1.metrics
      rw [recorded.metrics]
      exact .request _ _ _ _
  | expires => exact .none _
  | hangsUp => exact .none _
  | settles place flight exchange outcome now =>
      rw [Task.settle_state, settleAttempt_metrics]
      exact .none _

namespace System

theorem step_metrics {external : External} {cfg : Config} {system next : System}
    {event : SystemEvent} (stepped : step external cfg system event = some next) :
    system.state.metrics.Change next.state.metrics := by
  have taskStep : ∀ place, system.stepTask external cfg place event = some next →
      system.state.metrics.Change next.state.metrics := by
    intro place moved
    obtain ⟨task, result, _, moves, rfl⟩ := stepTask_moves moved
    exact moves.metrics
  cases event with
  | arrive handler request =>
      rw [step_arrive stepped]
      exact .none _
  | enter place answers now => exact taskStep place stepped
  | attempt place draws now => exact taskStep place stepped
  | answer place exchange latencyMs now => exact taskStep place stepped
  | settle place now => exact taskStep place stepped
  | deadline place => exact taskStep place stepped
  | disconnect place => exact taskStep place stepped
  | poll upstream body latencyMs now =>
      rw [step_poll stepped]
      exact .none _
  | seed upstream body =>
      rw [step_seed stepped]
      cases body <;> exact .none _

theorem kept_of_reachable {external : External} {cfg : Config} {startedAt : Instant}
    {system : System} (reached : (machine external cfg startedAt).Reachable system) :
    system.state.metrics.Kept := by
  apply reached.invariant (I := fun system => system.state.metrics.Kept) Metrics.kept_new
  intro before event next kept stepped
  exact (step_metrics stepped).kept kept

end System

/-! ### The scrape -/

/-- The name of an upstream or a method under which something is recorded. -/
def Metrics.Names (metrics : Metrics) (name : String) : Prop :=
  (∃ key ∈ metrics.requests, name = key.1 ∨ name = key.2.1) ∨
    ∃ key ∈ metrics.routingDecisions, name = key.1 ∨ name = key.2

/-- The two lines of an upstream, with its name as it is, say nothing of the two
families. -/
def HarmlessGauges {V : Type u} (numerals : Numerals V) (pool : UpstreamPool) (now : Instant)
    (upstream : String) : Prop :=
  Harmless numerals requestFamilies ((slotLagLine pool upstream).text id) ∧
    Harmless numerals requestFamilies ((healthLine pool now upstream).text id)

section Scrape

variable {V : Type u} {numerals : Numerals V} {cfg : Config} {state : AppState} {panics : Nat}
  {now : Instant} {walk : state.metrics.Walk}

theorem mem_of_mem_entries {K : Type} [DecidableEq K] {counter : Counter K}
    {entry : Sigma fun _ : K => Nat} (member : entry ∈ counter.entries) : entry.1 ∈ counter :=
  List.mem_keys_of_mem member

theorem exists_entry {K : Type} [DecidableEq K] {counter : Counter K} {key : K}
    (member : key ∈ counter) : ∃ entry ∈ counter.entries, entry.1 = key := by
  obtain ⟨count, inside⟩ := List.exists_of_mem_keys member
  exact ⟨_, inside, rfl⟩

/-- Names that an upstream may have without spoiling its lines. -/
theorem harmlessGauges_of_plain {pool : UpstreamPool} {upstream : String}
    (plain : Plain upstream.toList) : HarmlessGauges numerals pool now upstream := by
  have label : (∀ label ∈ ["upstream"], IsLabel label.toList) ∧ ["upstream"].Nodup := by
    decide +kernel
  have values : ∀ pair ∈ [("upstream", upstream)], Plain pair.2.toList := by
    intro pair member
    obtain rfl := List.mem_singleton.mp member
    exact plain
  constructor
  · exact harmless_of_plain (Line.wellFormed_of_names
      (by decide +kernel : IsName "disburse_upstream_slot_lag".toList) rfl label.1 label.2)
      values rfl
  · exact harmless_of_plain (Line.wellFormed_of_names
      (by decide +kernel : IsName "disburse_upstream_health".toList) rfl label.1 label.2)
      values rfl

/-- The lines of the two families are plain when the names they hold are. -/
theorem plain_lines_iff (kept : state.metrics.Kept) :
    (∀ line ∈ lines (pageBlocks cfg state panics now walk), line.Plain) ↔
      ∀ name, state.metrics.Names name → Plain name.toList := by
  rw [lines_pageBlocks]
  constructor
  · rintro plain name (⟨key, member, named⟩ | ⟨key, member, named⟩)
    · obtain ⟨entry, inside, rfl⟩ := exists_entry member
      have own := plain (requestsLine entry) (List.mem_append_left _
        (List.mem_map_of_mem (walk.requests_perm.mem_iff.mpr inside)))
      rcases named with rfl | rfl
      · exact own ("upstream", entry.1.1) (by simp [requestsLine])
      · exact own ("method", entry.1.2.1) (by simp [requestsLine])
    · obtain ⟨entry, inside, rfl⟩ := exists_entry member
      have own := plain (decisionsLine entry) (List.mem_append_right _
        (List.mem_map_of_mem (walk.decisions_perm.mem_iff.mpr inside)))
      rcases named with rfl | rfl
      · exact own ("upstream", entry.1.1) (by simp [decisionsLine])
      · exact own ("method", entry.1.2) (by simp [decisionsLine])
  · intro plain line member
    rcases List.mem_append.mp member with inRequests | inDecisions
    · obtain ⟨entry, walked, rfl⟩ := List.mem_map.mp inRequests
      have inside := mem_of_mem_entries (walk.requests_perm.mem_iff.mp walked)
      intro label inLine
      simp only [requestsLine, List.mem_cons, List.not_mem_nil, or_false] at inLine
      rcases inLine with rfl | rfl | rfl
      · exact plain _ (Or.inl ⟨_, inside, Or.inl rfl⟩)
      · exact plain _ (Or.inl ⟨_, inside, Or.inr rfl⟩)
      · dsimp only
        rcases kept.status _ inside with ok | error
        · rw [ok]
          decide +kernel
        · rw [error]
          decide +kernel
    · obtain ⟨entry, walked, rfl⟩ := List.mem_map.mp inDecisions
      have inside := mem_of_mem_entries (walk.decisions_perm.mem_iff.mp walked)
      intro label inLine
      simp only [decisionsLine, List.mem_cons, List.not_mem_nil, or_false] at inLine
      rcases inLine with rfl | rfl
      · exact plain _ (Or.inr ⟨_, inside, Or.inl rfl⟩)
      · exact plain _ (Or.inr ⟨_, inside, Or.inr rfl⟩)

theorem mem_bucketPairs {metrics : Metrics} {pair : String × String}
    (member : pair ∈ metrics.bucketPairs) : (pair, Fin.last 10) ∈ metrics.durationBuckets := by
  obtain ⟨key, inside, rfl⟩ := List.mem_map.mp member
  rw [List.mem_filter, decide_eq_true_eq] at inside
  rw [← inside.2]
  exact inside.1

/-- With plain names the other blocks are harmless as soon as the gauges are. -/
theorem other_harmless_iff (kept : state.metrics.Kept)
    (plain : ∀ name, state.metrics.Names name → Plain name.toList) :
    (∀ text, .other text ∈ pageBlocks cfg state panics now walk →
        Harmless numerals requestFamilies text) ↔
      ∀ upstream ∈ cfg.pool, HarmlessGauges numerals state.pool now upstream.name := by
  constructor
  · intro harmless upstream member
    constructor
    · apply harmless
      simp only [pageBlocks, List.mem_append, List.mem_map]
      grind
    · apply harmless
      simp only [pageBlocks, List.mem_append, List.mem_map]
      grind
  · intro gauges text member
    cases mem_pageBlocks member with
    | header name help kind inLine => exact familyHeader_harmless requestFamilies inLine
    | bare name count isName foreign => exact bareLine_harmless isName foreign
    | slotLag upstream inPool => exact (gauges upstream inPool).1
    | health upstream inPool => exact (gauges upstream inPool).2
    | durations pair line walked inPair =>
        have inBuckets := mem_bucketPairs (walk.durations_perm.mem_iff.mp walked)
        obtain ⟨status, recorded⟩ := kept.durations _ inBuckets
        refine harmless_of_plain (durationLines_wellFormed inPair)
          (durationLines_plain ?_ ?_ inPair) (durationLines_foreign inPair)
        · exact plain _ (Or.inl ⟨_, recorded, Or.inl rfl⟩)
        · exact plain _ (Or.inl ⟨_, recorded, Or.inr rfl⟩)

/-- A page whose counters are kept round-trips exactly when the names it records
are plain and its gauges are harmless. -/
theorem roundTrips_iff_plain (kept : state.metrics.Kept) :
    RoundTrips numerals state.metrics (handleMetrics cfg state panics now walk) ↔
      (∀ name, state.metrics.Names name → Plain name.toList) ∧
        ∀ upstream ∈ cfg.pool, HarmlessGauges numerals state.pool now upstream.name := by
  rw [roundTrips_iff_faithful, faithful_iff fun block member => pageBlocks_sound member,
    plain_lines_iff kept]
  constructor
  · intro both
    exact ⟨both.1, (other_harmless_iff kept both.1).mp both.2⟩
  · intro both
    exact ⟨both.1, (other_harmless_iff kept both.1).mpr both.2⟩

end Scrape

/-- In every reachable state, whatever the order in which the maps are walked and
however numbers are read, a scrape finds exactly the recorded samples if and only
if the recorded names need no escapes and the gauges are harmless. -/
theorem scrape_roundTrips_iff {V : Type u} (numerals : Numerals V) (external : External)
    (cfg : Config) (startedAt : Instant) (system : System)
    (reached : (System.machine external cfg startedAt).Reachable system) (panics : Nat)
    (now : Instant) (walk : system.state.metrics.Walk) :
    RoundTrips numerals system.state.metrics (handleMetrics cfg system.state panics now walk) ↔
      (∀ name, system.state.metrics.Names name → Plain name.toList) ∧
        ∀ upstream ∈ cfg.pool,
          HarmlessGauges numerals system.state.pool now upstream.name :=
  roundTrips_iff_plain (System.kept_of_reachable reached)

theorem scrape_roundTrips_iff_answered :
    ∃ system, (System.machine .plain .deployment 0).exec System.answeredRun = some system ∧
      (RoundTrips .decimal system.state.metrics
          (handleMetrics .deployment system.state 0 5000000 (.stored _)) ↔
        (∀ name, system.state.metrics.Names name → Plain name.toList) ∧
          ∀ upstream ∈ Config.deployment.pool,
            HarmlessGauges .decimal system.state.pool 5000000 upstream.name) := by
  have runs : ((System.machine .plain .deployment 0).exec System.answeredRun).isSome = true := by
    decide +kernel
  obtain ⟨system, run⟩ := Option.isSome_iff_exists.mp runs
  exact ⟨system, run, scrape_roundTrips_iff .decimal .plain .deployment 0 system
    ⟨_, run⟩ 0 5000000 (.stored _)⟩

/-! ### A quote in a method -/

/-- A request for a method with a quote in its name is sent to an upstream. -/
def quotedRun : List SystemEvent :=
  [.arrive .raw (.object [("id", .number (.posInt 7)), ("method", .string "a\"b")]),
    .enter 0 (fun _ => none) 0,
    .attempt 0 (fun _ => 0) 0]

/-- The page of that state does not say what was recorded. -/
theorem quoted_method_spoils_page :
    Config.deployment.validate .plain = .ok () ∧
      ∃ system, (System.machine .plain .deployment 0).exec quotedRun = some system ∧
        ("helius", "a\"b") ∈ system.state.metrics.routingDecisions ∧
        ¬ RoundTrips .decimal system.state.metrics
          (handleMetrics .deployment system.state 0 0 (.stored _)) := by
  have recorded : ((System.machine .plain .deployment 0).exec quotedRun).map (fun system =>
      decide (("helius", "a\"b") ∈ system.state.metrics.routingDecisions)) = some true := by
    decide +kernel
  obtain ⟨system, run, inside⟩ := Option.map_eq_some_iff.mp recorded
  have member : ("helius", "a\"b") ∈ system.state.metrics.routingDecisions :=
    of_decide_eq_true inside
  refine ⟨Config.deployment_validate, system, run, member, fun roundTrips => ?_⟩
  have plain := ((roundTrips_iff_plain (System.kept_of_reachable ⟨_, run⟩)).mp roundTrips).1
    "a\"b" (Or.inr ⟨_, member, Or.inr rfl⟩)
  exact absurd plain (by decide +kernel)

end Disburse
