import Disburse.Library.Machine
import Disburse.Proxy.Page
import Mathlib.Order.Monotone.Defs

/-!
Owns the duration histogram under concurrent calls of `record_request` and
concurrent scrapes: each call updates its four counters one after the other, and
a scrape reads the bucket array of a key, then its sum, then its count.

Any call or scrape may take the next step at any time. The page walks the array's
map with a lock held, which rules out some of these runs and no result.
-/

namespace Disburse

open Disburse.Library

/-! ### The updates of one call -/

namespace Metrics

section Updates

variable (metrics : Metrics) (upstream method status : String) (latencyMs : Rat)

def addRequest : Metrics :=
  { metrics with requests := metrics.requests.add (upstream, method, status) 1 }

/-- The whole array, which the entry guard protects. -/
def addBuckets : Metrics :=
  { metrics with
    durationBuckets := (List.finRange 11).foldl (fun buckets bucket =>
      buckets.add ((upstream, method), bucket) (if inBucket latencyMs bucket then 1 else 0))
        metrics.durationBuckets }

def addSum : Metrics :=
  { metrics with durationSum := metrics.durationSum.add (upstream, method) (asU64 latencyMs) }

def addCount : Metrics :=
  { metrics with durationCount := metrics.durationCount.add (upstream, method) 1 }

/-- A call that nothing interrupts. -/
theorem recordRequest_eq :
    metrics.recordRequest upstream method status latencyMs =
      (((metrics.addRequest upstream method status).addBuckets upstream method latencyMs).addSum
        upstream method latencyMs).addCount upstream method := rfl

theorem addBuckets_count (pair : String × String) (bucket : Bucket) :
    (metrics.addBuckets upstream method latencyMs).durationBuckets.count (pair, bucket) =
      metrics.durationBuckets.count (pair, bucket) +
        if (upstream, method) = pair ∧ inBucket latencyMs bucket = true then 1 else 0 := by
  have counted := foldl_add_count (List.finRange 11) metrics.durationBuckets
    (fun bucket => if inBucket latencyMs bucket then 1 else 0) (upstream, method)
    (pair, bucket) (List.nodup_finRange 11)
  rw [addBuckets, counted]
  by_cases same : pair = (upstream, method)
  · simp [same]
  · simp [same, Ne.symm same]

theorem addCount_count (pair : String × String) :
    (metrics.addCount upstream method).durationCount.count pair =
      metrics.durationCount.count pair + if (upstream, method) = pair then 1 else 0 := by
  rw [addCount, Counter.count_add]
  simp only [eq_comm]

end Updates

/-- The bounds ascend, so a latency in one bucket is in every later one. -/
theorem inBucket_of_le {latencyMs : Rat} {lower upper : Bucket} (ordered : lower ≤ upper)
    (inside : inBucket latencyMs lower = true) : inBucket latencyMs upper = true := by
  have ascending : bucketsMs.Pairwise (· < ·) := by decide +kernel
  rcases ordered.eq_or_lt with same | later
  · exact same ▸ inside
  · unfold inBucket at inside ⊢
    cases found : bucketsMs[upper.val]? with
    | none => rfl
    | some bound =>
        obtain ⟨upperBound, rfl⟩ := List.getElem?_eq_some_iff.mp found
        have lowerBound : lower.val < bucketsMs.length := Nat.lt_trans later upperBound
        have below := List.pairwise_iff_getElem.mp ascending _ _ lowerBound upperBound later
        rw [List.getElem?_eq_getElem lowerBound] at inside
        exact decide_eq_true ((of_decide_eq_true inside).trans below.le)

end Metrics

/-- One of the updates of a call. -/
inductive Update where
  | requests
  | buckets
  | sum
  | count
deriving DecidableEq, Repr

/-- A call of `record_request`, with the update it makes next. -/
structure Recording where
  upstream : String
  method : String
  status : String
  latencyMs : Rat
  next : Option Update
deriving DecidableEq

namespace Recording

def pair (call : Recording) : String × String := (call.upstream, call.method)

/-- The next update of a call and what is left of it. -/
def update (call : Recording) (metrics : Metrics) : Option (Metrics × Recording) :=
  match call.next with
  | none => none
  | some .requests =>
      some (metrics.addRequest call.upstream call.method call.status,
        { call with next := some .buckets })
  | some .buckets =>
      some (metrics.addBuckets call.upstream call.method call.latencyMs,
        { call with next := some .sum })
  | some .sum =>
      some (metrics.addSum call.upstream call.method call.latencyMs,
        { call with next := some .count })
  | some .count =>
      some (metrics.addCount call.upstream call.method, { call with next := none })

/-- Has the call updated the bucket array? -/
def inBuckets (call : Recording) : Bool :=
  match call.next with
  | some .requests => false
  | some .buckets => false
  | _ => true

/-- Has the call updated the count? -/
def inCount (call : Recording) : Bool := call.next.isNone

/-- Calls on a key that have updated the bucket array. -/
def updated (pair : String × String) (calls : List Recording) : Nat :=
  calls.countP fun call => call.pair = pair ∧ call.inBuckets = true

/-- Calls on a key that have updated the array and not yet the count. -/
def between (pair : String × String) (calls : List Recording) : Nat :=
  calls.countP fun call => call.pair = pair ∧ call.inBuckets = true ∧ call.inCount = false

/-- Calls on a key that have updated the count. -/
def counted (pair : String × String) (calls : List Recording) : Nat :=
  calls.countP fun call => call.pair = pair ∧ call.inCount = true

/-- Calls on a key that have updated the array with a latency in the bucket. -/
def inside (pair : String × String) (bucket : Bucket) (calls : List Recording) : Nat :=
  calls.countP fun call => call.pair = pair ∧ call.inBuckets = true ∧
    Metrics.inBucket call.latencyMs bucket = true

section Counts

variable (pair : String × String) (bucket : Bucket) (calls : List Recording)

theorem inside_set {calls : List Recording} {place : Nat} {call : Recording}
    (found : calls[place]? = some call) (next : Recording) :
    inside pair bucket (calls.set place next) +
        (if call.pair = pair ∧ call.inBuckets = true ∧
          Metrics.inBucket call.latencyMs bucket = true then 1 else 0) =
      inside pair bucket calls +
        if next.pair = pair ∧ next.inBuckets = true ∧
          Metrics.inBucket next.latencyMs bucket = true then 1 else 0 := by
  simpa [inside] using countP_set (fun call => call.pair = pair ∧ call.inBuckets = true ∧
    Metrics.inBucket call.latencyMs bucket = true) found next

theorem counted_set {calls : List Recording} {place : Nat} {call : Recording}
    (found : calls[place]? = some call) (next : Recording) :
    counted pair (calls.set place next) +
        (if call.pair = pair ∧ call.inCount = true then 1 else 0) =
      counted pair calls + if next.pair = pair ∧ next.inCount = true then 1 else 0 := by
  simpa [counted] using countP_set (fun call => call.pair = pair ∧ call.inCount = true)
    found next

/-- A call that has updated nothing counts nowhere. -/
theorem inside_snoc_new (upstream method status : String) (latencyMs : Rat) :
    inside pair bucket (calls ++ [⟨upstream, method, status, latencyMs, some .requests⟩]) =
      inside pair bucket calls := by
  simp [inside, inBuckets, List.countP_append]

theorem counted_snoc_new (upstream method status : String) (latencyMs : Rat) :
    counted pair (calls ++ [⟨upstream, method, status, latencyMs, some .requests⟩]) =
      counted pair calls := by
  simp [counted, inCount, List.countP_append]

/-- The last bucket takes every latency. -/
theorem inside_last : inside pair (Fin.last 10) calls = updated pair calls := by
  have last : ∀ latencyMs, Metrics.inBucket latencyMs (Fin.last 10) = true := fun _ => rfl
  simp only [inside, updated, last, and_true]

/-- Calls that have updated the array have updated the count or are between. -/
theorem updated_eq : updated pair calls = counted pair calls + between pair calls := by
  unfold updated counted between
  induction calls with
  | nil => rfl
  | cons call rest inductionHypothesis =>
      have past : call.inCount = true → call.inBuckets = true := by
        intro finished
        rw [inBuckets, Option.isNone_iff_eq_none.mp finished]
      simp only [List.countP_cons, inductionHypothesis]
      by_cases same : call.pair = pair <;> cases inArray : call.inBuckets <;>
        cases finished : call.inCount <;> simp_all <;> omega

end Counts

end Recording

/-! ### Scrapes -/

/-- What a scrape has written of one key. -/
structure Histogram where
  pair : String × String
  buckets : Bucket → Nat
  sum : Nat
  count : Nat
  /-- Every call so far with what it had updated when the array was read. -/
  calls : List Recording

/-- The part of a histogram that a scrape has read. -/
inductive HistogramRead where
  | idle
  | array (pair : String × String) (buckets : Bucket → Nat) (calls : List Recording)
  | total (pair : String × String) (buckets : Bucket → Nat) (sum : Nat) (calls : List Recording)

/-- Counters, calls and scrapes, and the histograms written so far. -/
structure Scraping where
  metrics : Metrics
  calls : List Recording
  scrapes : List HistogramRead
  rendered : List Histogram

inductive ScrapingEvent where
  | record (upstream method status : String) (latencyMs : Rat)
  | update (place : Nat)
  | scrape
  | readBuckets (place : Nat) (pair : String × String)
  | readSum (place : Nat)
  | readCount (place : Nat)

namespace Scraping

def step (scraping : Scraping) : ScrapingEvent → Option Scraping
  | .record upstream method status latencyMs =>
      some { scraping with
        calls := scraping.calls ++ [⟨upstream, method, status, latencyMs, some .requests⟩] }
  | .update place =>
      match scraping.calls[place]? with
      | none => none
      | some call =>
          (call.update scraping.metrics).map fun updated =>
            { scraping with metrics := updated.1, calls := scraping.calls.set place updated.2 }
  | .scrape => some { scraping with scrapes := scraping.scrapes ++ [.idle] }
  | .readBuckets place pair =>
      match scraping.scrapes[place]? with
      | some .idle =>
          if pair ∈ scraping.metrics.bucketPairs then
            let buckets := fun bucket => scraping.metrics.durationBuckets.count (pair, bucket)
            some { scraping with
              scrapes := scraping.scrapes.set place (.array pair buckets scraping.calls) }
          else none
      | _ => none
  | .readSum place =>
      match scraping.scrapes[place]? with
      | some (.array pair buckets calls) =>
          let sum := scraping.metrics.durationSum.count pair
          some { scraping with
            scrapes := scraping.scrapes.set place (.total pair buckets sum calls) }
      | _ => none
  | .readCount place =>
      match scraping.scrapes[place]? with
      | some (.total pair buckets sum calls) =>
          let count := scraping.metrics.durationCount.count pair
          some { scraping with
            scrapes := scraping.scrapes.set place .idle
            rendered := scraping.rendered ++ [⟨pair, buckets, sum, count, calls⟩] }
      | _ => none

def machine : Machine Scraping ScrapingEvent where
  init := ⟨.new, [], [], []⟩
  step := step

end Scraping

/-- The lines of a histogram. -/
def Histogram.lines (histogram : Histogram) : List Exposition.Line :=
  (List.finRange 11).map (fun bucket =>
    { name := "disburse_request_duration_ms_bucket"
      labels := [("upstream", histogram.pair.1), ("method", histogram.pair.2),
        ("le", bucketLabel bucket)]
      count := histogram.buckets bucket }) ++
    [{ name := "disburse_request_duration_ms_sum"
       labels := [("upstream", histogram.pair.1), ("method", histogram.pair.2)]
       count := histogram.sum },
     { name := "disburse_request_duration_ms_count"
       labels := [("upstream", histogram.pair.1), ("method", histogram.pair.2)]
       count := histogram.count }]

/-- The page writes the histogram that is read in one go. -/
theorem durationLines_eq (metrics : Metrics) (pair : String × String) (calls : List Recording) :
    durationLines metrics pair = Histogram.lines
      { pair := pair
        buckets := fun bucket => metrics.durationBuckets.count (pair, bucket)
        sum := metrics.durationSum.count pair
        count := metrics.durationCount.count pair
        calls := calls } := rfl

/-- What the text format asks of a histogram, and its exactness at rest. -/
structure Histogram.Consistent (histogram : Histogram) : Prop where
  ascending : Monotone histogram.buckets
  total : histogram.buckets (Fin.last 10) = histogram.count
  /-- With no call in progress a bucket counts the latencies up to its bound. -/
  atRest : (∀ call ∈ histogram.calls, call.next = none) → ∀ bucket,
    histogram.buckets bucket = histogram.calls.countP fun call =>
      call.pair = histogram.pair ∧ Metrics.inBucket call.latencyMs bucket = true

/-- Every histogram written so far is consistent. -/
def Scraping.Consistent (scraping : Scraping) : Prop :=
  ∀ histogram ∈ scraping.rendered, histogram.Consistent

/-- When a count is read, as many calls on the key are between their updates of
the array and of the count as have updated the array since it was read. -/
def Scraping.CountAgrees (scraping : Scraping) : ScrapingEvent → Prop
  | .readCount place => ∀ pair buckets sum calls,
      scraping.scrapes[place]? = some (.total pair buckets sum calls) →
        Recording.updated pair scraping.calls =
          Recording.updated pair calls + Recording.between pair scraping.calls
  | _ => True

/-! ### What the counters count -/

/-- A bucket array that counts the calls that had updated it. -/
def CountsCalls (pair : String × String) (buckets : Bucket → Nat) (calls : List Recording) :
    Prop :=
  ∀ bucket, buckets bucket = Recording.inside pair bucket calls

def HistogramRead.Exact : HistogramRead → Prop
  | .idle => True
  | .array pair buckets calls => CountsCalls pair buckets calls
  | .total pair buckets _ calls => CountsCalls pair buckets calls

/-- The counters count the calls past their updates, in the maps and in what was read. -/
structure Scraping.Exact (scraping : Scraping) : Prop where
  buckets : ∀ pair, CountsCalls pair
    (fun bucket => scraping.metrics.durationBuckets.count (pair, bucket)) scraping.calls
  count : ∀ pair, scraping.metrics.durationCount.count pair = Recording.counted pair scraping.calls
  scrapes : ∀ read ∈ scraping.scrapes, read.Exact
  rendered : ∀ histogram ∈ scraping.rendered,
    CountsCalls histogram.pair histogram.buckets histogram.calls

/-! ### One update -/

section Update

variable {call next : Recording} {metrics after : Metrics}

/-- What an update does to the counters that a scrape compares. -/
structure UpdateSpec (call next : Recording) (metrics after : Metrics) : Prop where
  pair : next.pair = call.pair
  latency : next.latencyMs = call.latencyMs
  buckets : ∀ pair bucket,
    after.durationBuckets.count (pair, bucket) +
        (if call.pair = pair ∧ call.inBuckets = true ∧
          Metrics.inBucket call.latencyMs bucket = true then 1 else 0) =
      metrics.durationBuckets.count (pair, bucket) +
        if next.pair = pair ∧ next.inBuckets = true ∧
          Metrics.inBucket next.latencyMs bucket = true then 1 else 0
  count : ∀ pair,
    after.durationCount.count pair + (if call.pair = pair ∧ call.inCount = true then 1 else 0) =
      metrics.durationCount.count pair +
        if next.pair = pair ∧ next.inCount = true then 1 else 0

theorem Recording.update_spec (updated : call.update metrics = some (after, next)) :
    UpdateSpec call next metrics after := by
  rcases call with ⟨upstream, method, status, latencyMs, due⟩
  cases due with
  | none => cases updated
  | some update =>
      cases update with
      | requests =>
          obtain ⟨rfl, rfl⟩ := Prod.mk.inj (Option.some_inj.mp updated)
          exact ⟨rfl, rfl, fun _ _ => rfl, fun _ => rfl⟩
      | buckets =>
          obtain ⟨rfl, rfl⟩ := Prod.mk.inj (Option.some_inj.mp updated)
          refine ⟨rfl, rfl, fun pair bucket => ?_, fun _ => rfl⟩
          rw [Metrics.addBuckets_count]
          simp [inBuckets, Recording.pair]
      | sum =>
          obtain ⟨rfl, rfl⟩ := Prod.mk.inj (Option.some_inj.mp updated)
          exact ⟨rfl, rfl, fun _ _ => rfl, fun _ => rfl⟩
      | count =>
          obtain ⟨rfl, rfl⟩ := Prod.mk.inj (Option.some_inj.mp updated)
          refine ⟨rfl, rfl, fun _ _ => rfl, fun pair => ?_⟩
          rw [Metrics.addCount_count]
          simp [inCount, Recording.pair]

end Update

/-! ### One step -/

namespace Scraping

variable {scraping next : Scraping}

theorem exact_record (exact : scraping.Exact) (upstream method status : String)
    (latencyMs : Rat) :
    Exact { scraping with
      calls := scraping.calls ++ [⟨upstream, method, status, latencyMs, some .requests⟩] } where
  buckets := fun pair bucket =>
    (exact.buckets pair bucket).trans (Recording.inside_snoc_new _ _ _ _ _ _ _).symm
  count := fun pair => (exact.count pair).trans (Recording.counted_snoc_new _ _ _ _ _ _).symm
  scrapes := exact.scrapes
  rendered := exact.rendered

theorem exact_update (exact : scraping.Exact) {place : Nat} {call after : Recording}
    {metrics : Metrics} (found : scraping.calls[place]? = some call)
    (updated : call.update scraping.metrics = some (metrics, after)) :
    Exact { scraping with metrics := metrics, calls := scraping.calls.set place after } := by
  have spec := Recording.update_spec updated
  refine ⟨fun pair bucket => ?_, fun pair => ?_, exact.scrapes, exact.rendered⟩
  · have before := exact.buckets pair bucket
    have counter := spec.buckets pair bucket
    have list := Recording.inside_set pair bucket found after
    dsimp only at before ⊢
    omega
  · have before := exact.count pair
    have counter := spec.count pair
    have list := Recording.counted_set pair found after
    dsimp only
    omega

/-- A scrape that moves on with what it has read. -/
theorem exact_read (exact : scraping.Exact) (place : Nat) (read : HistogramRead)
    (readExact : read.Exact) {rendered : List Histogram}
    (renderedExact : ∀ histogram ∈ rendered,
      CountsCalls histogram.pair histogram.buckets histogram.calls) :
    Exact { scraping with scrapes := scraping.scrapes.set place read, rendered := rendered } where
  buckets := exact.buckets
  count := exact.count
  scrapes := by
    intro other member
    rcases List.mem_or_eq_of_mem_set member with before | rfl
    · exact exact.scrapes other before
    · exact readExact
  rendered := renderedExact

theorem exact_step {event : ScrapingEvent} (exact : scraping.Exact)
    (stepped : scraping.step event = some next) : next.Exact := by
  cases event with
  | record upstream method status latencyMs =>
      rw [← Option.some_inj.mp stepped]
      exact exact_record exact upstream method status latencyMs
  | update place =>
      simp only [step] at stepped
      split at stepped
      · cases stepped
      · rename_i call found
        obtain ⟨⟨metrics, after⟩, updated, rfl⟩ := Option.map_eq_some_iff.mp stepped
        exact exact_update exact found updated
  | scrape =>
      rw [← Option.some_inj.mp stepped]
      have idle : ∀ read ∈ [HistogramRead.idle], read.Exact :=
        List.forall_mem_singleton.mpr trivial
      exact ⟨exact.buckets, exact.count, List.forall_mem_append.mpr ⟨exact.scrapes, idle⟩,
        exact.rendered⟩
  | readBuckets place pair =>
      simp only [step] at stepped
      split at stepped
      · obtain ⟨-, taken⟩ := Option.ite_none_right_eq_some.mp stepped
        rw [← Option.some_inj.mp taken]
        exact exact_read exact place (.array pair _ _) (exact.buckets pair) exact.rendered
      · cases stepped
  | readSum place =>
      simp only [step] at stepped
      split at stepped
      · rename_i pair buckets calls found
        have read : CountsCalls pair buckets calls := exact.scrapes _ (List.mem_of_getElem? found)
        rw [← Option.some_inj.mp stepped]
        exact exact_read exact place (.total pair buckets _ calls) read exact.rendered
      · cases stepped
  | readCount place =>
      simp only [step] at stepped
      split at stepped
      · rename_i pair buckets sum calls found
        have read : CountsCalls pair buckets calls := exact.scrapes _ (List.mem_of_getElem? found)
        rw [← Option.some_inj.mp stepped]
        apply exact_read exact place .idle trivial
        exact List.forall_mem_append.mpr ⟨exact.rendered, List.forall_mem_singleton.mpr read⟩
      · cases stepped

theorem exact_new : machine.init.Exact := by
  refine ⟨fun _ _ => rfl, fun _ => rfl, fun read member => ?_, fun histogram member => ?_⟩
  · cases member
  · cases member

end Scraping

/-! ### Consistency -/

namespace Histogram

variable {histogram : Histogram}

theorem ascending_of_counts
    (exact : CountsCalls histogram.pair histogram.buckets histogram.calls) :
    Monotone histogram.buckets := by
  intro lower upper ordered
  rw [exact, exact]
  refine List.countP_mono_left fun call _ inside => ?_
  simp only [decide_eq_true_eq] at inside ⊢
  exact ⟨inside.1, inside.2.1, Metrics.inBucket_of_le ordered inside.2.2⟩

theorem atRest_of_counts
    (exact : CountsCalls histogram.pair histogram.buckets histogram.calls)
    (finished : ∀ call ∈ histogram.calls, call.next = none) (bucket : Bucket) :
    histogram.buckets bucket = histogram.calls.countP fun call =>
      call.pair = histogram.pair ∧ Metrics.inBucket call.latencyMs bucket = true := by
  rw [exact]
  refine List.countP_congr fun call member => ?_
  have past : call.inBuckets = true := by
    rw [Recording.inBuckets, finished call member]
  simp [past]

/-- An array that counts the calls that had updated it is consistent with the
number of these calls, and with no other count. -/
theorem consistent_iff_count
    (exact : CountsCalls histogram.pair histogram.buckets histogram.calls) :
    histogram.Consistent ↔
      histogram.count = Recording.updated histogram.pair histogram.calls := by
  have total : histogram.buckets (Fin.last 10) =
      Recording.updated histogram.pair histogram.calls := by
    rw [exact, Recording.inside_last]
  constructor
  · intro consistent
    rw [← consistent.total, total]
  · intro counted
    exact ⟨ascending_of_counts exact, total.trans counted.symm, atRest_of_counts exact⟩

end Histogram

namespace Scraping

variable {scraping next : Scraping}

/-- A step writes nothing, or it reads a count and writes one histogram. -/
theorem step_rendered {event : ScrapingEvent} (stepped : scraping.step event = some next) :
    (next.rendered = scraping.rendered ∧ scraping.CountAgrees event) ∨
      ∃ place pair buckets sum calls, event = .readCount place ∧
        scraping.scrapes[place]? = some (.total pair buckets sum calls) ∧
        next.rendered = scraping.rendered ++
          [⟨pair, buckets, sum, scraping.metrics.durationCount.count pair, calls⟩] := by
  cases event with
  | record upstream method status latencyMs =>
      rw [← Option.some_inj.mp stepped]
      exact .inl ⟨rfl, trivial⟩
  | update place =>
      simp only [step] at stepped
      split at stepped
      · cases stepped
      · obtain ⟨updated, -, rfl⟩ := Option.map_eq_some_iff.mp stepped
        exact .inl ⟨rfl, trivial⟩
  | scrape =>
      rw [← Option.some_inj.mp stepped]
      exact .inl ⟨rfl, trivial⟩
  | readBuckets place pair =>
      simp only [step] at stepped
      split at stepped
      · obtain ⟨-, taken⟩ := Option.ite_none_right_eq_some.mp stepped
        rw [← Option.some_inj.mp taken]
        exact .inl ⟨rfl, trivial⟩
      · cases stepped
  | readSum place =>
      simp only [step] at stepped
      split at stepped
      · rw [← Option.some_inj.mp stepped]
        exact .inl ⟨rfl, trivial⟩
      · cases stepped
  | readCount place =>
      simp only [step] at stepped
      split at stepped
      · rename_i pair buckets sum calls found
        rw [← Option.some_inj.mp stepped]
        exact .inr ⟨place, pair, buckets, sum, calls, rfl, found, rfl⟩
      · cases stepped

/-- A step out of a consistent state stays in one exactly if the count it reads agrees. -/
theorem consistent_step_iff {event : ScrapingEvent} (exact : scraping.Exact)
    (consistent : scraping.Consistent) (stepped : scraping.step event = some next) :
    next.Consistent ↔ scraping.CountAgrees event := by
  rcases step_rendered stepped with ⟨same, agrees⟩ | ⟨place, pair, buckets, sum, calls, rfl,
    found, written⟩
  · refine iff_of_true ?_ agrees
    unfold Consistent
    rw [same]
    exact consistent
  · have read : CountsCalls pair buckets calls := exact.scrapes _ (List.mem_of_getElem? found)
    let histogram : Histogram :=
      ⟨pair, buckets, sum, scraping.metrics.durationCount.count pair, calls⟩
    have new : histogram.Consistent ↔ histogram.count = Recording.updated pair calls :=
      Histogram.consistent_iff_count read
    have progress := Recording.updated_eq pair scraping.calls
    have agrees : scraping.CountAgrees (.readCount place) ↔
        scraping.metrics.durationCount.count pair = Recording.updated pair calls := by
      rw [exact.count pair]
      constructor
      · intro condition
        have balanced := condition pair buckets sum calls found
        omega
      · intro counted otherPair otherBuckets otherSum otherCalls otherFound
        obtain ⟨rfl, rfl, rfl, rfl⟩ :=
          HistogramRead.total.inj (Option.some_inj.mp (found.symm.trans otherFound))
        omega
    rw [agrees, ← new]
    unfold Consistent
    rw [written]
    constructor
    · intro all
      exact all histogram (List.mem_append_right _ (List.mem_singleton.mpr rfl))
    · intro last
      exact List.forall_mem_append.mpr ⟨consistent, List.forall_mem_singleton.mpr last⟩

/-- Whatever a scrape meets, its buckets ascend and are exact at rest. -/
theorem rendered_of_reachable (reached : machine.Reachable scraping) {histogram : Histogram}
    (written : histogram ∈ scraping.rendered) :
    Monotone histogram.buckets ∧
      ((∀ call ∈ histogram.calls, call.next = none) → ∀ bucket,
        histogram.buckets bucket = histogram.calls.countP fun call =>
          call.pair = histogram.pair ∧ Metrics.inBucket call.latencyMs bucket = true) := by
  have exact : scraping.Exact :=
    reached.invariant (I := Exact) exact_new fun _ _ _ kept stepped => exact_step kept stepped
  have counts := exact.rendered histogram written
  exact ⟨Histogram.ascending_of_counts counts, Histogram.atRest_of_counts counts⟩

/-- While the lock on the array is held no call updates it, and a count agrees
exactly when no call on the key is between its updates. -/
theorem countAgrees_locked_iff {place sum : Nat} {pair : String × String}
    {buckets : Bucket → Nat} {calls : List Recording}
    (found : scraping.scrapes[place]? = some (.total pair buckets sum calls))
    (locked : Recording.updated pair scraping.calls = Recording.updated pair calls) :
    scraping.CountAgrees (.readCount place) ↔ Recording.between pair scraping.calls = 0 := by
  constructor
  · intro agrees
    have balanced := agrees pair buckets sum calls found
    omega
  · intro none otherPair otherBuckets otherSum otherCalls otherFound
    obtain ⟨rfl, rfl, rfl, rfl⟩ :=
      HistogramRead.total.inj (Option.some_inj.mp (found.symm.trans otherFound))
    omega

/-- The histograms written in a run are consistent exactly if every count that is
read agrees with the array read before it. -/
theorem histograms_consistent_iff (events : List ScrapingEvent) :
    machine.Throughout Consistent machine.init events ↔
      machine.EveryStep CountAgrees machine.init events := by
  refine machine.throughout_iff_everyStep (I := Exact)
    (fun _ _ _ exact _ _ stepped => exact_step exact stepped)
    (fun _ _ _ exact consistent stepped => consistent_step_iff exact consistent stepped)
    exact_new ?_
  intro histogram member
  cases member

/-- A scrape between the updates of a call: the last bucket says 1 and the count 0. -/
def tornScrape : List ScrapingEvent :=
  [.record "helius" "getSlot" "ok" 3, .update 0, .update 0, .scrape,
    .readBuckets 0 ("helius", "getSlot"), .readSum 0, .readCount 0]

theorem torn_histogram :
    ∃ scraping, machine.exec tornScrape = some scraping ∧
      (scraping.rendered.map fun histogram =>
        (histogram.buckets (Fin.last 10), histogram.count)) = [(1, 0)] ∧
      ¬ scraping.Consistent := by
  have written : (machine.exec tornScrape).map (fun scraping => scraping.rendered.map
      fun histogram => (histogram.buckets (Fin.last 10), histogram.count)) = some [(1, 0)] := by
    decide +kernel
  obtain ⟨scraping, run, numbers⟩ := Option.map_eq_some_iff.mp written
  refine ⟨scraping, run, numbers, fun consistent => ?_⟩
  obtain ⟨histogram, member, torn⟩ := List.mem_map.mp (numbers ▸ List.mem_singleton_self (1, 0))
  have total := (consistent histogram member).total
  rw [Prod.mk.injEq] at torn
  omega

end Scraping

end Disburse
