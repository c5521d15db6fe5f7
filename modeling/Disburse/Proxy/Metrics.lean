import Disburse.Library.Counter
import Mathlib.Data.Rat.Floor
import Mathlib.Algebra.Order.Field.Rat
import Mathlib.Order.Fin.Basic

/-!
Owns the request counters of the proxy. Counters are natural numbers, the totals of
which the 64-bit counters of the source keep the remainder (`shown`). The panic
counter, which no modelled function raises, is left out.
-/

namespace Disburse

open Disburse.Library

/-- Upper bounds of the duration buckets, in milliseconds. -/
def bucketsMs : List Rat := [1, 5, 10, 25, 50, 100, 250, 500, 1000, 2500]

/-- A bucket of a duration histogram: the place of its bound in `bucketsMs`, or
the `+Inf` bucket, number 10. -/
abbrev Bucket := Fin 11

structure Metrics where
  /-- By upstream, method and status. -/
  requests : Counter (String × String × String)
  durationBuckets : Counter ((String × String) × Bucket)
  durationSum : Counter (String × String)
  durationCount : Counter (String × String)
  blockhashRejections : Nat
  routingDecisions : Counter (String × String)

namespace Metrics

def new : Metrics :=
  { requests := ∅
    durationBuckets := ∅
    durationSum := ∅
    durationCount := ∅
    blockhashRejections := 0
    routingDecisions := ∅ }

def recordRoutingDecision (metrics : Metrics) (upstream method : String) : Metrics :=
  { metrics with routingDecisions := metrics.routingDecisions.add (upstream, method) 1 }

/-- Does a latency count in a bucket? Everything counts in the last one. -/
def inBucket (latencyMs : Rat) (bucket : Bucket) : Bool :=
  match bucketsMs[bucket.val]? with
  | some bound => latencyMs ≤ bound
  | none => true

/-- `latency_ms as u64`, which cuts off what is too large. -/
def asU64 (latencyMs : Rat) : Nat := min ⌊latencyMs⌋.toNat (2 ^ 64 - 1)

/-- What a 64-bit counter shows of a total: `fetch_add` wraps. -/
def shown (total : Nat) : Nat := total % 2 ^ 64

def recordRequest (metrics : Metrics) (upstream method status : String) (latencyMs : Rat) :
    Metrics :=
  { metrics with
    requests := metrics.requests.add (upstream, method, status) 1
    durationBuckets := (List.finRange 11).foldl (fun buckets bucket =>
      buckets.add ((upstream, method), bucket) (if inBucket latencyMs bucket then 1 else 0))
        metrics.durationBuckets
    durationSum := metrics.durationSum.add (upstream, method) (asU64 latencyMs)
    durationCount := metrics.durationCount.add (upstream, method) 1 }

/-- The requests counter of a pair, summed over statuses. -/
def requestsOf (metrics : Metrics) (pair : String × String) : Nat :=
  metrics.requests.total fun key => pair = (key.1, key.2.1)

def decisionsOf (metrics : Metrics) (pair : String × String) : Nat :=
  metrics.routingDecisions.count pair

def durationCountOf (metrics : Metrics) (pair : String × String) : Nat :=
  metrics.durationCount.count pair

/-- The `+Inf` bucket of a pair. -/
def infBucketOf (metrics : Metrics) (pair : String × String) : Nat :=
  metrics.durationBuckets.count (pair, Fin.last 10)

/-! ### What one record counts -/

section Record

variable (metrics : Metrics) (upstream method status : String) (latencyMs : Rat)
  (pair : String × String)

theorem decisionsOf_recordRoutingDecision :
    (metrics.recordRoutingDecision upstream method).decisionsOf pair =
      metrics.decisionsOf pair + if pair = (upstream, method) then 1 else 0 :=
  Counter.count_add _ _ _ _

@[simp] theorem decisionsOf_recordRequest :
    (metrics.recordRequest upstream method status latencyMs).decisionsOf pair =
      metrics.decisionsOf pair := rfl

theorem requestsOf_recordRequest :
    (metrics.recordRequest upstream method status latencyMs).requestsOf pair =
      metrics.requestsOf pair + if pair = (upstream, method) then 1 else 0 :=
  Counter.total_add metrics.requests (upstream, method, status) 1 _

theorem durationCountOf_recordRequest :
    (metrics.recordRequest upstream method status latencyMs).durationCountOf pair =
      metrics.durationCountOf pair + if pair = (upstream, method) then 1 else 0 :=
  Counter.count_add _ _ _ _

theorem foldl_add_count (buckets : List Bucket)
    (counter : Counter ((String × String) × Bucket))
    (amount : Bucket → Nat) (key : String × String) (other : (String × String) × Bucket)
    (distinct : buckets.Nodup) :
    (buckets.foldl (fun current bucket => Counter.add current (key, bucket) (amount bucket))
      counter).count other =
        counter.count other +
          if other.1 = key ∧ other.2 ∈ buckets then amount other.2 else 0 := by
  induction buckets generalizing counter with
  | nil => simp
  | cons bucket rest inductionHypothesis =>
      obtain ⟨fresh, restDistinct⟩ := List.nodup_cons.mp distinct
      rw [List.foldl_cons, inductionHypothesis _ restDistinct, Counter.count_add]
      rcases other with ⟨otherKey, otherBucket⟩
      by_cases sameKey : otherKey = key <;> by_cases sameBucket : otherBucket = bucket
      · subst sameBucket
        simp [sameKey, fresh]
      · simp [sameKey, sameBucket]
      · simp [sameKey]
      · simp [sameKey]

theorem infBucketOf_recordRequest :
    (metrics.recordRequest upstream method status latencyMs).infBucketOf pair =
      metrics.infBucketOf pair + if pair = (upstream, method) then 1 else 0 := by
  have counted := foldl_add_count (List.finRange 11) metrics.durationBuckets
    (fun bucket => if inBucket latencyMs bucket then 1 else 0) (upstream, method)
    (pair, Fin.last 10) (List.nodup_finRange 11)
  have last : inBucket latencyMs 10 = true := rfl
  simpa [infBucketOf, recordRequest, last] using counted

end Record

end Metrics

end Disburse
