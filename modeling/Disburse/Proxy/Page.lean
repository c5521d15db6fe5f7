import Disburse.Proxy.System
import Disburse.Library.RawLabels

/-!
Owns the metrics page: the text that `handle_metrics` makes of the counters and
the upstreams, with every label value written as it is.

A map is walked in some order, which the map does not promise; `Walk` holds one.
The counter of panics, which no modelled function raises, is an argument. All
clock readings of one page are one.
-/

namespace Disburse

open Disburse.Library Disburse.Library.Exposition

universe u

namespace Metrics

/-- The keys of `duration_buckets`. -/
def bucketPairs (metrics : Metrics) : List (String × String) :=
  (metrics.durationBuckets.keys.filter fun key => key.2 = Fin.last 10).map Prod.fst

/-- The orders in which the maps are walked. -/
structure Walk (metrics : Metrics) where
  requests : List (Sigma fun _ : String × String × String => Nat)
  durations : List (String × String)
  decisions : List (Sigma fun _ : String × String => Nat)
  requests_perm : requests.Perm metrics.requests.entries
  durations_perm : durations.Perm metrics.bucketPairs
  decisions_perm : decisions.Perm metrics.routingDecisions.entries

/-- The order of the entries in the model. -/
def Walk.stored (metrics : Metrics) : Walk metrics where
  requests := metrics.requests.entries
  durations := metrics.bucketPairs
  decisions := metrics.routingDecisions.entries
  requests_perm := .refl _
  durations_perm := .refl _
  decisions_perm := .refl _

end Metrics

/-! ### Lines -/

/-- The two comments before a family. -/
def familyHeader (name help kind : String) : String :=
  "# HELP " ++ name ++ " " ++ help ++ "\n# TYPE " ++ name ++ " " ++ kind ++ "\n"

/-- A line with labels, as the source formats it. -/
def sampleLine (line : Line) : String :=
  line.name ++ "\x7b" ++
    ",".intercalate (line.labels.map fun label => label.1 ++ "=\"" ++ label.2 ++ "\"") ++
    "\x7d " ++ toString line.count ++ "\n"

/-- A line without labels. -/
def bareLine (name : String) (count : Nat) : String :=
  name ++ " " ++ toString count ++ "\n"

def requestsLine (entry : Sigma fun _ : String × String × String => Nat) : Line :=
  { name := "disburse_requests_total"
    labels := [("upstream", entry.1.1), ("method", entry.1.2.1), ("status", entry.1.2.2)]
    count := entry.2 }

/-- The bounds are whole numbers, which are printed without a fraction. -/
def bucketLabel (bucket : Bucket) : String :=
  match bucketsMs[bucket.val]? with
  | some bound => toString bound.num
  | none => "+Inf"

def bucketLine (metrics : Metrics) (pair : String × String) (bucket : Bucket) : Line :=
  { name := "disburse_request_duration_ms_bucket"
    labels := [("upstream", pair.1), ("method", pair.2), ("le", bucketLabel bucket)]
    count := metrics.durationBuckets.count (pair, bucket) }

def durationSumLine (metrics : Metrics) (pair : String × String) : Line :=
  { name := "disburse_request_duration_ms_sum"
    labels := [("upstream", pair.1), ("method", pair.2)]
    count := metrics.durationSum.count pair }

def durationCountLine (metrics : Metrics) (pair : String × String) : Line :=
  { name := "disburse_request_duration_ms_count"
    labels := [("upstream", pair.1), ("method", pair.2)]
    count := metrics.durationCount.count pair }

def slotLagLine (pool : UpstreamPool) (upstream : String) : Line :=
  { name := "disburse_upstream_slot_lag"
    labels := [("upstream", upstream)]
    count := pool.tipSlot - (pool.cells upstream).lastSlot }

/-- `0.0` and `1.0` are printed without a fraction. -/
def healthLine (pool : UpstreamPool) (now : Instant) (upstream : String) : Line :=
  { name := "disburse_upstream_health"
    labels := [("upstream", upstream)]
    count := if pool.isDropped upstream now then 0 else 1 }

def decisionsLine (entry : Sigma fun _ : String × String => Nat) : Line :=
  { name := "disburse_routing_decisions_total"
    labels := [("upstream", entry.1.1), ("method", entry.1.2)]
    count := entry.2 }

/-- The lines of one pair in the histogram. -/
def durationLines (metrics : Metrics) (pair : String × String) : List Line :=
  (List.finRange 11).map (bucketLine metrics pair) ++
    [durationSumLine metrics pair, durationCountLine metrics pair]

/-! ### The page -/

/-- The text of `handle_metrics`. -/
def handleMetrics (cfg : Config) (state : AppState) (panics : Nat) (now : Instant)
    (walk : state.metrics.Walk) : String :=
  familyHeader "disburse_requests_total" "Total RPC requests routed." "counter" ++
  String.join (walk.requests.map fun entry => sampleLine (requestsLine entry)) ++
  familyHeader "disburse_request_duration_ms" "Request duration in milliseconds." "histogram" ++
  String.join ((walk.durations.flatMap (durationLines state.metrics)).map sampleLine) ++
  familyHeader "disburse_upstream_slot_lag" "Slot lag behind the global tip." "gauge" ++
  String.join (cfg.pool.map fun upstream => sampleLine (slotLagLine state.pool upstream.name)) ++
  familyHeader "disburse_upstream_health" "Upstream health (1 healthy, 0 dropped)." "gauge" ++
  String.join (cfg.pool.map fun upstream =>
    sampleLine (healthLine state.pool now upstream.name)) ++
  familyHeader "disburse_blockhash_rejections_total"
    "sendTransaction calls rejected for stale blockhash." "counter" ++
  bareLine "disburse_blockhash_rejections_total" state.metrics.blockhashRejections ++
  familyHeader "disburse_routing_decisions_total"
    "Selections made by the router per (upstream, method)." "counter" ++
  String.join (walk.decisions.map fun entry => sampleLine (decisionsLine entry)) ++
  familyHeader "disburse_panics_total" "Handler panics caught by the tower layer." "counter" ++
  bareLine "disburse_panics_total" panics

/-! ### Texts of lines -/

theorem labelsText_id (labels : List (String × String)) :
    (",".intercalate (labels.map fun label => label.1 ++ "=\"" ++ label.2 ++ "\"")).toList =
      labelsText id labels := by
  rw [String.toList_intercalate, List.map_map]
  induction labels with
  | nil => rfl
  | cons label others inductionHypothesis =>
      cases others with
      | nil => simp [labelsText, labelText, List.intercalate]
      | cons next others =>
          rw [labelsText, ← inductionHypothesis]
          simp [labelText, List.intercalate]

theorem sampleLine_toList (line : Line) : (sampleLine line).toList = line.text id := by
  unfold sampleLine Line.text
  simp only [String.toList_append, labelsText_id]
  simp

/-! ### The families that are looked at -/

/-- The two families of the requests. -/
def requestFamilies (name : String) : Bool :=
  name = "disburse_requests_total" || name = "disburse_routing_decisions_total"

section Families

variable {V : Type u} (numerals : Numerals V)

/-- The sample of a key of the requests. -/
def recordedRequest (entry : Sigma fun _ : String × String × String => Nat) : Sample V :=
  { name := "disburse_requests_total"
    labels := {("upstream", entry.1.1), ("method", entry.1.2.1), ("status", entry.1.2.2)}
    value := numerals.ofNat entry.2
    timestamp := none }

/-- The sample of a key of the routing decisions. -/
def recordedDecision (entry : Sigma fun _ : String × String => Nat) : Sample V :=
  { name := "disburse_routing_decisions_total"
    labels := {("upstream", entry.1.1), ("method", entry.1.2)}
    value := numerals.ofNat entry.2
    timestamp := none }

/-- The page reads, and the samples of the two families are those recorded, one
for each key. -/
def RoundTrips (metrics : Metrics) (page : String) : Prop :=
  ∃ samples, parse numerals page = some samples ∧
    (ofFamily requestFamilies samples : Multiset (Sample V)) =
      metrics.requests.entries.map (recordedRequest numerals) +
        metrics.routingDecisions.entries.map (recordedDecision numerals)

end Families

/-- The page in blocks. -/
def pageBlocks (cfg : Config) (state : AppState) (panics : Nat) (now : Instant)
    (walk : state.metrics.Walk) : List Block :=
  let header := fun name help kind => Block.other (familyHeader name help kind).toList
  let foreign := fun line : Line => Block.other (line.text id)
  [header "disburse_requests_total" "Total RPC requests routed." "counter"] ++
  walk.requests.map (fun entry => .raw (requestsLine entry)) ++
  [header "disburse_request_duration_ms" "Request duration in milliseconds." "histogram"] ++
  (walk.durations.flatMap (durationLines state.metrics)).map foreign ++
  [header "disburse_upstream_slot_lag" "Slot lag behind the global tip." "gauge"] ++
  cfg.pool.map (fun upstream => foreign (slotLagLine state.pool upstream.name)) ++
  [header "disburse_upstream_health" "Upstream health (1 healthy, 0 dropped)." "gauge"] ++
  cfg.pool.map (fun upstream => foreign (healthLine state.pool now upstream.name)) ++
  [header "disburse_blockhash_rejections_total"
      "sendTransaction calls rejected for stale blockhash." "counter",
    .other (bareLine "disburse_blockhash_rejections_total"
      state.metrics.blockhashRejections).toList,
    header "disburse_routing_decisions_total"
      "Selections made by the router per (upstream, method)." "counter"] ++
  walk.decisions.map (fun entry => .raw (decisionsLine entry)) ++
  [header "disburse_panics_total" "Handler panics caught by the tower layer." "counter",
    .other (bareLine "disburse_panics_total" panics).toList]

theorem handleMetrics_toList (cfg : Config) (state : AppState) (panics : Nat) (now : Instant)
    (walk : state.metrics.Walk) :
    (handleMetrics cfg state panics now walk).toList =
      (pageBlocks cfg state panics now walk).flatMap Block.text := by
  simp [handleMetrics, pageBlocks, String.toList_append, String.toList_join, List.flatMap_map,
    sampleLine_toList, Block.text]

/-! ### Blocks -/

theorem pairLabels :
    (∀ label ∈ ["upstream", "method"], IsLabel label.toList) ∧ ["upstream", "method"].Nodup := by
  decide +kernel

theorem requestsLine_wellFormed (entry : Sigma fun _ : String × String × String => Nat) :
    (requestsLine entry).WellFormed := by
  have labels : (∀ label ∈ ["upstream", "method", "status"], IsLabel label.toList) ∧
      ["upstream", "method", "status"].Nodup := by
    decide +kernel
  exact Line.wellFormed_of_names
    (by decide +kernel : IsName "disburse_requests_total".toList) rfl labels.1 labels.2

theorem decisionsLine_wellFormed (entry : Sigma fun _ : String × String => Nat) :
    (decisionsLine entry).WellFormed :=
  Line.wellFormed_of_names
    (by decide +kernel : IsName "disburse_routing_decisions_total".toList) rfl
    pairLabels.1 pairLabels.2

theorem durationLines_wellFormed {metrics : Metrics} {pair : String × String} {line : Line}
    (member : line ∈ durationLines metrics pair) : line.WellFormed := by
  have labels : (∀ label ∈ ["upstream", "method", "le"], IsLabel label.toList) ∧
      ["upstream", "method", "le"].Nodup := by
    decide +kernel
  rcases List.mem_append.mp member with inBuckets | inTotals
  · obtain ⟨bucket, _, rfl⟩ := List.mem_map.mp inBuckets
    exact Line.wellFormed_of_names
      (by decide +kernel : IsName "disburse_request_duration_ms_bucket".toList) rfl
      labels.1 labels.2
  · rcases List.mem_cons.mp inTotals with rfl | rest
    · exact Line.wellFormed_of_names
        (by decide +kernel : IsName "disburse_request_duration_ms_sum".toList) rfl
        pairLabels.1 pairLabels.2
    · obtain rfl := List.mem_singleton.mp rest
      exact Line.wellFormed_of_names
        (by decide +kernel : IsName "disburse_request_duration_ms_count".toList) rfl
        pairLabels.1 pairLabels.2

theorem durationLines_foreign {metrics : Metrics} {pair : String × String} {line : Line}
    (member : line ∈ durationLines metrics pair) : requestFamilies line.name = false := by
  rcases List.mem_append.mp member with inBuckets | inTotals
  · obtain ⟨bucket, _, rfl⟩ := List.mem_map.mp inBuckets
    rfl
  · rcases List.mem_cons.mp inTotals with rfl | rest
    · rfl
    · obtain rfl := List.mem_singleton.mp rest
      rfl

/-- A line of the histogram is plain when the names in its key are. -/
theorem durationLines_plain {metrics : Metrics} {pair : String × String} {line : Line}
    (upstream : Plain pair.1.toList) (method : Plain pair.2.toList)
    (member : line ∈ durationLines metrics pair) : line.Plain := by
  have bounds : ∀ bucket : Bucket, Plain (bucketLabel bucket).toList := by decide +kernel
  have keyed : ∀ rest : List (String × String), (∀ label ∈ rest, Plain label.2.toList) →
      line.labels = ("upstream", pair.1) :: ("method", pair.2) :: rest → line.Plain := by
    intro rest plain same label inLine
    rw [same, List.mem_cons, List.mem_cons] at inLine
    rcases inLine with rfl | rfl | inRest
    · exact upstream
    · exact method
    · exact plain label inRest
  rcases List.mem_append.mp member with inBuckets | inTotals
  · obtain ⟨bucket, _, rfl⟩ := List.mem_map.mp inBuckets
    refine keyed [("le", bucketLabel bucket)] (fun label inRest => ?_) rfl
    obtain rfl := List.mem_singleton.mp inRest
    exact bounds bucket
  · rcases List.mem_cons.mp inTotals with rfl | rest
    · exact keyed [] (fun label none => by cases none) rfl
    · obtain rfl := List.mem_singleton.mp rest
      exact keyed [] (fun label none => by cases none) rfl

section Blocks

variable {V : Type u} {numerals : Numerals V} {cfg : Config} {state : AppState} {panics : Nat}
  {now : Instant} {walk : state.metrics.Walk}

/-- The comments before a family say nothing. -/
theorem familyHeader_harmless {name help kind : String} (family : String → Bool)
    (inLine : '\n' ∉ (name ++ " " ++ help).toList ∧ '\n' ∉ (name ++ " " ++ kind).toList) :
    Harmless numerals family (familyHeader name help kind).toList := by
  have lines : (familyHeader name help kind).toList =
      ('#' :: (" HELP " ++ (name ++ " " ++ help)).toList ++ ['\n']) ++
        ('#' :: (" TYPE " ++ (name ++ " " ++ kind)).toList ++ ['\n']) := by
    simp [familyHeader, String.toList_append]
  have first : '\n' ∉ (" HELP " ++ (name ++ " " ++ help)).toList := by
    rw [String.toList_append, List.mem_append, not_or]
    exact ⟨by decide +kernel, inLine.1⟩
  have second : '\n' ∉ (" TYPE " ++ (name ++ " " ++ kind)).toList := by
    rw [String.toList_append, List.mem_append, not_or]
    exact ⟨by decide +kernel, inLine.2⟩
  refine ⟨[], ?_, rfl⟩
  rw [lines, run_append, run_comment first, Option.bind_some, run_comment second]
  rfl

theorem bareLine_harmless {name : String} {count : Nat} {family : String → Bool}
    (isName : IsName name.toList) (foreign : family name = false) :
    Harmless numerals family (bareLine name count).toList := by
  have text : (bareLine name count).toList =
      name.toList ++ ' ' :: count.repr.toList ++ ['\n'] := by
    simp [bareLine, String.toList_append]
  rw [text]
  refine ⟨_, run_bare isName count, ?_⟩
  rw [String.ofList_toList]
  have stranger : family ((Line.mk name [] count).sample numerals).name = false := foreign
  simp [ofFamily, stranger]

/-- Raw lines of a page. -/
theorem lines_pageBlocks : lines (pageBlocks cfg state panics now walk) =
    walk.requests.map requestsLine ++ walk.decisions.map decisionsLine := by
  simp [pageBlocks]

/-- The blocks of a page. -/
inductive PageBlock (cfg : Config) (state : AppState) (now : Instant)
    (walk : state.metrics.Walk) : Block → Prop where
  | header (name help kind : String) (inLine : '\n' ∉ (name ++ " " ++ help).toList ∧
      '\n' ∉ (name ++ " " ++ kind).toList) :
      PageBlock cfg state now walk (.other (familyHeader name help kind).toList)
  | bare (name : String) (count : Nat) (isName : IsName name.toList)
      (foreign : requestFamilies name = false) :
      PageBlock cfg state now walk (.other (bareLine name count).toList)
  | requests (entry : Sigma fun _ : String × String × String => Nat)
      (member : entry ∈ walk.requests) : PageBlock cfg state now walk (.raw (requestsLine entry))
  | durations (pair : String × String) (line : Line) (member : pair ∈ walk.durations)
      (inPair : line ∈ durationLines state.metrics pair) :
      PageBlock cfg state now walk (.other (line.text id))
  | slotLag (upstream : Upstream) (member : upstream ∈ cfg.pool) :
      PageBlock cfg state now walk (.other ((slotLagLine state.pool upstream.name).text id))
  | health (upstream : Upstream) (member : upstream ∈ cfg.pool) :
      PageBlock cfg state now walk (.other ((healthLine state.pool now upstream.name).text id))
  | decisions (entry : Sigma fun _ : String × String => Nat) (member : entry ∈ walk.decisions) :
      PageBlock cfg state now walk (.raw (decisionsLine entry))

theorem mem_pageBlocks {block : Block} (member : block ∈ pageBlocks cfg state panics now walk) :
    PageBlock cfg state now walk block := by
  simp only [pageBlocks, List.mem_append, List.mem_cons, List.not_mem_nil, or_false, List.mem_map,
    List.mem_flatMap, or_assoc] at member
  rcases member with rfl | ⟨entry, member, rfl⟩ | rfl | ⟨line, ⟨pair, member, inPair⟩, rfl⟩ | rfl |
    ⟨upstream, member, rfl⟩ | rfl | ⟨upstream, member, rfl⟩ | rfl | rfl | rfl |
    ⟨entry, member, rfl⟩ | rfl | rfl
  · exact .header _ _ _ (by decide +kernel)
  · exact .requests entry member
  · exact .header _ _ _ (by decide +kernel)
  · exact .durations pair line member inPair
  · exact .header _ _ _ (by decide +kernel)
  · exact .slotLag upstream member
  · exact .header _ _ _ (by decide +kernel)
  · exact .health upstream member
  · exact .header _ _ _ (by decide +kernel)
  · exact .bare _ _ (by decide +kernel) (by decide +kernel)
  · exact .header _ _ _ (by decide +kernel)
  · exact .decisions entry member
  · exact .header _ _ _ (by decide +kernel)
  · exact .bare _ _ (by decide +kernel) (by decide +kernel)

theorem pageBlocks_sound {block : Block}
    (member : block ∈ pageBlocks cfg state panics now walk) : block.Sound requestFamilies := by
  cases mem_pageBlocks member with
  | header name help kind =>
      refine ⟨("# HELP " ++ name ++ " " ++ help ++ "\n# TYPE " ++ name ++ " " ++ kind).toList, ?_⟩
      simp [familyHeader, String.toList_append]
  | bare name count =>
      refine ⟨(name ++ " " ++ toString count).toList, ?_⟩
      simp [bareLine, String.toList_append]
  | requests entry => exact ⟨requestsLine_wellFormed entry, rfl⟩
  | decisions entry => exact ⟨decisionsLine_wellFormed entry, rfl⟩
  | durations pair line => exact ⟨_, rfl⟩
  | slotLag upstream => exact ⟨_, rfl⟩
  | health upstream => exact ⟨_, rfl⟩

/-- A page round-trips exactly when its blocks are faithful. -/
theorem roundTrips_iff_faithful :
    RoundTrips numerals state.metrics (handleMetrics cfg state panics now walk) ↔
      Faithful numerals requestFamilies (pageBlocks cfg state panics now walk) := by
  have requests : (walk.requests.map fun entry => (requestsLine entry).sample numerals).Perm
      (state.metrics.requests.entries.map (recordedRequest numerals)) :=
    walk.requests_perm.map _
  have decisions : (walk.decisions.map fun entry => (decisionsLine entry).sample numerals).Perm
      (state.metrics.routingDecisions.entries.map (recordedDecision numerals)) :=
    walk.decisions_perm.map _
  have recorded : ((lines (pageBlocks cfg state panics now walk)).map (Line.sample numerals) :
      Multiset (Sample V)) = state.metrics.requests.entries.map (recordedRequest numerals) +
        state.metrics.routingDecisions.entries.map (recordedDecision numerals) := by
    rw [lines_pageBlocks, List.map_append, List.map_map, List.map_map]
    exact Multiset.coe_eq_coe.mpr (requests.append decisions)
  unfold RoundTrips Faithful parse
  rw [handleMetrics_toList, recorded]
  constructor
  · rintro ⟨samples, read, same⟩
    obtain ⟨⟨found, last⟩, run, ended⟩ := Option.bind_eq_some_iff.mp read
    rw [Option.ite_none_right_eq_some] at ended
    obtain ⟨rfl, ended⟩ := ended
    obtain rfl := Option.some_inj.mp ended
    exact ⟨found, run, same⟩
  · rintro ⟨samples, run, same⟩
    exact ⟨samples, by rw [run]; rfl, same⟩

end Blocks

end Disburse
